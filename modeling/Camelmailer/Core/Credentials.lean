import Camelmailer.Core.Spf
import Camelmailer.Core.Store
import Mathlib.Data.List.Sort

/-!
# Credentials and the lookups that resolve them

A row of the credentials table has a flag that puts it on hold. Four lookups of the store resolve
what a client shows to a row: the key of an SMTP credential, the address it connects from, the SMTP
credentials of a server, and the key of an API request. Both stores compute them from the rows
alone. A table without an order of its own is a list in any order.

Only the lookup of API keys reads the flag. To the others two tables are alike that differ in the
flags of their rows.
-/

namespace Camelmailer

open Utf8
open Spf (IpNet IpSyntax)

/-- A row of the credentials table. -/
structure CredentialRow extends Credential where
  hold : Bool
deriving DecidableEq

namespace CredentialRow

/-! ## The lookups -/

def findSmtpCredentialByKey (rows : List CredentialRow) (key : Text) : Option CredentialRow :=
  rows.find? (fun row => row.credentialType == .smtp && row.key == key)

/-- `IpNet::from` an address: the network of that address alone. -/
def hostNet : IpAddr → IpNet
  | .v4 address => ⟨.v4 address, 32⟩
  | .v6 address => ⟨.v6 address, 128⟩

def toIpv4Mapped (address : BitVec 128) : Option (BitVec 32) :=
  if address >>> 32 = 0xffff#128 then some (address.truncate 32) else none

/-- The network that the key of an SMTP-IP credential denotes. -/
def parsedNet (syn : IpSyntax) (key : Text) : Option IpNet :=
  (syn.parseNet key).or ((syn.parseIp key).map hostNet)

/-- Whether a client address is in a network, as it is or as an IPv4 address in IPv6 form. -/
def netMatches (net : IpNet) (ip : IpAddr) : Bool :=
  net.contains ip || match net.address, ip with
    | .v4 _, .v6 address => (toIpv4Mapped address).any (fun mapped => net.contains (.v4 mapped))
    | _, _ => false

/-- `match_ip_credential`: of the networks with the address, one with the longest prefix. -/
def matchIpCredential (syn : IpSyntax) (credentials : List CredentialRow) (ip : IpAddr) :
    Option CredentialRow :=
  let candidates := (credentials.filter (·.credentialType == .smtpIp)).filterMap (fun row =>
    (parsedNet syn row.key).map (fun net => (net, row)))
  let sorted := candidates.mergeSort (fun first second =>
    decide (second.1.prefixLen ≤ first.1.prefixLen))
  (sorted.find? (fun candidate => netMatches candidate.1 ip)).map Prod.snd

def findIpCredential (syn : IpSyntax) (rows : List CredentialRow) (ip : IpAddr) :
    Option CredentialRow :=
  matchIpCredential syn rows ip

def smtpCredentialsForServer (rows : List CredentialRow) (serverId : Id) : List CredentialRow :=
  (rows.filter (fun row => row.serverId == serverId && row.credentialType == .smtp)).mergeSort
    (fun first second => decide (first.id ≤ second.id))

/-- `server_for_api_token`: the server that an API key authenticates for. -/
def serverForApiToken (rows : List CredentialRow) (servers : Id → Option Server) (key : Text) :
    Option Server :=
  (rows.find? (fun row => row.credentialType == .api && row.key == key && !row.hold)).bind
    (fun row => servers row.serverId)

/-- Whether a credential is on hold. -/
def OnHold (rows : List CredentialRow) (id : Id) : Prop :=
  ∃ row ∈ rows, row.id = id ∧ row.hold = true

instance (rows : List CredentialRow) (id : Id) : Decidable (OnHold rows id) :=
  inferInstanceAs (Decidable (∃ row ∈ rows, row.id = id ∧ row.hold = true))

end CredentialRow

/-- The store whose credentials are some rows. -/
def Store.withCredentials (store : Store) (syn : IpSyntax) (rows : List CredentialRow) : Store :=
  { store with
    findSmtpCredentialByKey := fun key =>
      (CredentialRow.findSmtpCredentialByKey rows key).map (·.toCredential)
    findIpCredential := fun ip => (CredentialRow.findIpCredential syn rows ip).map (·.toCredential)
    smtpCredentialsForServer := fun serverId =>
      (CredentialRow.smtpCredentialsForServer rows serverId).map (·.toCredential) }

namespace CredentialRow

/-! ## Who reads the flag -/

/-- An API key authenticates through a credential that is not on hold. -/
theorem serverForApiToken_unheld {rows : List CredentialRow} {servers : Id → Option Server}
    {key : Text} {server : Server} (found : serverForApiToken rows servers key = some server) :
    ∃ row ∈ rows, row.credentialType = .api ∧ row.key = key ∧ row.hold = false ∧
      servers row.serverId = some server := by
  obtain ⟨row, resolved, known⟩ := Option.bind_eq_some_iff.mp found
  have matching := List.find?_some resolved
  simp only [Bool.and_eq_true, beq_iff_eq, Bool.not_eq_true'] at matching
  exact ⟨row, List.mem_of_find?_eq_some resolved, matching.1.1, matching.1.2, matching.2, known⟩

section Flags

variable {rows others : List CredentialRow}

end Flags

end CredentialRow

end Camelmailer
