import Camelmailer.Core.TraceHeaders

/-!
# The evaluation of an SPF policy

`camelmailer-core/src/spf.rs`: the policy of a domain is a list of terms, which are read from the
left until one of them matches. An `include` or a `redirect` goes on with the policy of another
domain, and every term that needs the DNS is paid for from one budget.

The resolver is arbitrary, and what it answers may depend on what it has been asked before. The
syntax of addresses and networks is that of other crates. A check that is nested too deeply for
the depth it is given has no result; a policy that refers to itself is like any other.
-/

namespace Camelmailer.Spf

open Utf8

/-! ## Vocabulary -/

structure DnsError where
  message : Text
deriving DecidableEq

inductive Query where
  | txt (name : Text)
  | ipAddresses (name : Text)
  | mxHosts (name : Text)
deriving DecidableEq

/-- `SpfResolver`, with the queries that have been made before. -/
structure SpfResolver where
  txt : List Query → Text → Except DnsError (List Text)
  ipAddresses : List Query → Text → Except DnsError (List IpAddr)
  mxHosts : List Query → Text → Except DnsError (List Text)

structure IpNet where
  address : IpAddr
  prefixLen : Nat
deriving DecidableEq

/-- What texts are read as by other crates. -/
structure IpSyntax where
  parseNet : Text → Option IpNet
  parseIp : Text → Option IpAddr

def IpNet.new (address : IpAddr) (prefixLen : Nat) : Option IpNet :=
  match address with
  | .v4 _ => if prefixLen ≤ 32 then some ⟨address, prefixLen⟩ else none
  | .v6 _ => if prefixLen ≤ 128 then some ⟨address, prefixLen⟩ else none

def IpNet.contains (net : IpNet) (ip : IpAddr) : Bool :=
  match net.address, ip with
  | .v4 network, .v4 address => network >>> (32 - net.prefixLen) = address >>> (32 - net.prefixLen)
  | .v6 network, .v6 address => network >>> (128 - net.prefixLen) = address >>> (128 - net.prefixLen)
  | _, _ => false

def fromQualifier (qualifier : Char) : SpfResult :=
  if qualifier = '-' then .fail
  else if qualifier = '~' then .softFail
  else if qualifier = '?' then .neutral
  else .pass

inductive UnsupportedKind where
  | macros
  | exists
  | ptr
deriving DecidableEq

structure UnsupportedTerm where
  term : Text
  domain : Text
  kind : UnsupportedKind
deriving DecidableEq

inductive SpfVerdict where
  | determined (result : SpfResult)
  | unverifiable (term : UnsupportedTerm)
deriving DecidableEq

def termUsesMacro (term : Text) : Bool := Str.contains term ['%', Char.ofNat 0x7B]

def unsupportedKind (term : Text) : Option UnsupportedKind :=
  let lower := Str.toAsciiLowercase term
  if termUsesMacro term then some .macros
  else if Str.startsWith lower "exists:" then some .exists
  else if lower = "ptr" ∨ Str.startsWith lower "ptr:" then some .ptr
  else none

inductive MacroMode where
  | lenient
  | report
deriving DecidableEq

inductive MechanismOutcome where
  | matched
  | noMatch
  | error (result : SpfResult)
deriving DecidableEq

/-- `MAX_DNS_LOOKUPS`. -/
def maxDnsLookups : Nat := 10

/-- `MAX_MX_ADDRESS_LOOKUPS`. -/
def maxMxAddressLookups : Nat := 10

/-! ## Terms -/

def splitQualifier : Text → Char × Text
  | [] => ('+', [])
  | char :: rest => if char ∈ ['+', '-', '~', '?'] then (char, rest) else ('+', char :: rest)

/-- `str::parse::<u8>`. -/
def parseU8 (text : Text) : Option Nat :=
  let digits := (Str.stripPrefix ['+'] text).getD text
  let value := digits.foldl (fun sum digit => 10 * sum + (digit.toNat - 48)) 0
  if digits ≠ [] ∧ digits.all Char.isDigit = true ∧ value < 256 then some value else none

def parseDomainSpec (mechanism keyword currentDomain : Text) : Text × Option Nat :=
  let rest := mechanism.drop keyword.length
  let (domainPart, cidr) := match Str.splitOnce '/' rest with
    | some (domain, cidr) => (domain, parseU8 cidr)
    | none => (rest, none)
  let domain := match Str.stripPrefix [':'] domainPart with
    | some named => if named = [] then currentDomain else named
    | none => currentDomain
  (domain, cidr)

def ipInCidr (syn : IpSyntax) (spec : Text) (ip : IpAddr) : Option Bool :=
  match syn.parseNet spec with
  | some net => some (net.contains ip)
  | none => (syn.parseIp spec).map (fun address => address = ip)

def ipMatches (record ip : IpAddr) (cidr : Option Nat) : Bool :=
  match cidr with
  | none => record = ip
  | some len =>
      match IpNet.new record len with
      | some net => net.contains ip
      | none => record = ip

def splitWhitespace (text : Text) : List Text :=
  (text.splitOnP Str.isWhitespace).filter (fun word => word ≠ [])

/-- Whether a TXT record is a policy. -/
def isPolicy (record : Text) : Bool :=
  let head := Str.trimStart record
  head = "v=spf1" || Str.startsWith head "v=spf1 "

/-! ## Walks -/

/-- What happens during an evaluation. -/
inductive Event where
  | asked (query : Query)
  | charged
  | refused
  | noted (term : UnsupportedTerm)
deriving DecidableEq

/-- The state of an `Evaluator`, and what has happened. -/
structure Evaluator where
  budget : Nat
  blocked : Option UnsupportedTerm
  log : List Event

def Event.query : Event → Option Query
  | .asked query => some query
  | _ => none

/-- What the resolver has been asked. -/
def queries (log : List Event) : List Query := log.filterMap Event.query

/-- A part of an evaluation. It has no result where it is not given enough depth. -/
abbrev Walk : Type → Type := StateT Evaluator Option

def Walk.log (event : Event) : Walk Unit := fun evaluator =>
  some ((), { evaluator with log := evaluator.log ++ [event] })

/-- The resolver is asked. -/
def ask {α : Type} (query : Query) (answer : List Query → α) : Walk α := fun evaluator =>
  some (answer (queries evaluator.log), { evaluator with log := evaluator.log ++ [.asked query] })

def spendLookup : Walk Bool := fun evaluator =>
  match evaluator.budget with
  | 0 => some (false, { evaluator with log := evaluator.log ++ [.refused] })
  | remaining + 1 => some (true, { evaluator with
      budget := remaining, log := evaluator.log ++ [.charged] })

def noteUnsupported (term : UnsupportedTerm) : Walk Unit := fun evaluator =>
  some ((), { evaluator with
    blocked := evaluator.blocked.or (some term), log := evaluator.log ++ [.noted term] })

section Evaluation

variable (resolver : SpfResolver) (syn : IpSyntax) (ip : IpAddr)

def fetchSpfRecord (domain : Text) : Walk (Except SpfResult (Option Text)) := do
  match ← ask (.txt domain) (fun before => resolver.txt before domain) with
  | .error _ => return .error .tempError
  | .ok records =>
      match records.filter isPolicy with
      | [] => return .ok none
      | [record] => return .ok (some record)
      | _ => return .error .permError

def matchA (mechanism currentDomain : Text) : Walk MechanismOutcome := do
  let (target, cidr) := parseDomainSpec mechanism "a" currentDomain
  if ← spendLookup then
    match ← ask (.ipAddresses target) (fun before => resolver.ipAddresses before target) with
    | .error _ => return .error .tempError
    | .ok addresses =>
        if addresses.any (fun address => ipMatches address ip cidr) then return .matched
        else return .noMatch
  else return .error .permError

/-- The exchanges of an `mx`, one after the other. -/
def matchExchanges (cidr : Option Nat) : List Text → Walk MechanismOutcome
  | [] => return .noMatch
  | host :: rest => do
      match ← ask (.ipAddresses host) (fun before => resolver.ipAddresses before host) with
      | .error _ => return .error .tempError
      | .ok addresses =>
          if addresses.any (fun address => ipMatches address ip cidr) then return .matched
          else matchExchanges cidr rest

def matchMx (mechanism currentDomain : Text) : Walk MechanismOutcome := do
  let (target, cidr) := parseDomainSpec mechanism "mx" currentDomain
  if ← spendLookup then
    match ← ask (.mxHosts target) (fun before => resolver.mxHosts before target) with
    | .error _ => return .error .tempError
    | .ok hosts =>
        if maxMxAddressLookups < hosts.length then return .error .permError
        else matchExchanges resolver ip cidr hosts
  else return .error .permError

/-- What the result of an included policy means for the `include`. -/
def includeOutcome : SpfResult → MechanismOutcome
  | .pass => .matched
  | .fail => .noMatch
  | .softFail => .noMatch
  | .neutral => .noMatch
  | .none => .error .permError
  | .tempError => .error .tempError
  | .permError => .error .permError

def matchInclude (checkHost : Text → Walk SpfResult) (target : Text) : Walk MechanismOutcome := do
  if ← spendLookup then return includeOutcome (← checkHost target)
  else return .error .permError

/-- The mechanisms that are supported, and the ones that are not known. -/
def matchSupported (checkHost : Text → Walk SpfResult) (mechanism currentDomain : Text) :
    Walk MechanismOutcome :=
  let lower := Str.toAsciiLowercase mechanism
  if lower = "all" then return .matched
  else match (Str.stripPrefix "ip4:" lower).or (Str.stripPrefix "ip6:" lower) with
  | some rest =>
      match ipInCidr syn rest ip with
      | some true => return .matched
      | some false => return .noMatch
      | none => return .error .permError
  | none =>
      if lower = "a" ∨ Str.startsWith lower "a:" ∨ Str.startsWith lower "a/" then
        matchA resolver ip mechanism currentDomain
      else if lower = "mx" ∨ Str.startsWith lower "mx:" ∨
          Str.startsWith lower "mx/" then
        matchMx resolver ip mechanism currentDomain
      else match Str.stripPrefix "include:" lower with
      | some target => matchInclude checkHost target
      | none => return .noMatch

def matchMechanism (mode : MacroMode) (checkHost : Text → Walk SpfResult)
    (mechanism currentDomain : Text) : Walk MechanismOutcome :=
  match if mode = .report then unsupportedKind mechanism else none with
  | some kind => do
      noteUnsupported ⟨mechanism, currentDomain, kind⟩
      return .noMatch
  | none => matchSupported resolver syn ip checkHost mechanism currentDomain

/-- No mechanism has matched. -/
def followRedirect (checkHost : Text → Walk SpfResult) : Option Text → Walk SpfResult
  | none => return .neutral
  | some target => do
      if ← spendLookup then checkHost target else return .permError

/-- The loop of `check_host`, with the redirect that has been read. -/
def checkTerms (mode : MacroMode) (checkHost : Text → Walk SpfResult) (domain : Text) :
    Option Text → List Text → Walk SpfResult
  | redirect, [] => followRedirect checkHost redirect
  | redirect, term :: rest =>
      match Str.stripPrefix "redirect=" term with
      | some target =>
          if mode = .report ∧ termUsesMacro target then do
            noteUnsupported ⟨term, domain, .macros⟩
            checkTerms mode checkHost domain redirect rest
          else checkTerms mode checkHost domain (some target) rest
      | none =>
          if '=' ∈ term then checkTerms mode checkHost domain redirect rest
          else do
            match ← matchMechanism resolver syn ip mode checkHost (splitQualifier term).2 domain with
            | .matched => return fromQualifier (splitQualifier term).1
            | .noMatch => checkTerms mode checkHost domain redirect rest
            | .error result => return result

def checkHost (mode : MacroMode) : Nat → Text → Walk SpfResult
  | 0, _ => fun _ => none
  | depth + 1, domain => do
      match ← fetchSpfRecord resolver domain with
      | .error result => return result
      | .ok none => return .none
      | .ok (some record) =>
          checkTerms resolver syn ip mode (checkHost mode depth) domain none
            ((splitWhitespace record).drop 1)

/-- A new `Evaluator`. -/
def Evaluator.new : Evaluator where
  budget := maxDnsLookups
  blocked := none
  log := []

/-- `evaluate`, with what has happened. -/
def evaluate (depth : Nat) (domain : Text) : Option (SpfResult × List Event) :=
  if Str.trim domain = [] then some (.none, [])
  else (checkHost resolver syn ip .lenient depth domain Evaluator.new).map
    (fun walked => (walked.1, walked.2.log))

/-- What a result is worth. -/
def verdictOf (result : SpfResult) (blocked : Option UnsupportedTerm) : SpfVerdict :=
  match result, blocked with
  | .pass, _ => .determined .pass
  | _, some term => .unverifiable term
  | result, none => .determined result

/-- `evaluate_verifiable`, with what has happened. -/
def evaluateVerifiable (depth : Nat) (domain : Text) : Option (SpfVerdict × List Event) :=
  if Str.trim domain = [] then some (.determined .none, [])
  else (checkHost resolver syn ip .report depth domain Evaluator.new).map
    (fun walked => (verdictOf walked.1 walked.2.blocked, walked.2.log))

end Evaluation

end Camelmailer.Spf
