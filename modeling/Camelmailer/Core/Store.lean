import Camelmailer.Core.Model

/-!
# The store

`Store` is the interface through which mail intake reads the main database. Its
content at one moment is a function of each query. The only law it carries is that
a server is found under its own id; nothing ties the answers of different queries
together, so every result about a store holds in whatever state other processes
leave the database.
-/

namespace Camelmailer

open Utf8

/-- The answers of the main database at one moment. -/
structure Store where
  organization : Id → Option Organization
  server : Id → Option Server
  findSmtpCredentialByKey : Text → Option Credential
  findServerByToken : Text → Option Server
  findRouteByToken : Text → Option ResolvedRoute
  findRouteByNameAndDomain : Text → Text → Option ResolvedRoute
  findIpCredential : IpAddr → Option Credential
  smtpCredentialsForServer : Id → List Credential
  findServerByPermalinks : Text → Text → Option Server
  findAuthenticatedDomain : Id → List Text → Option Id
  sendUsage : Id → Int
  sendPolicyForOrganization : Id → OrganizationPolicy
  organizationMonthUsage : Id → Int
  returnPathRouteForServer : Id → Option ResolvedRoute
  findConfirmedSenderAddress : Id → List Text → Bool
  /-- A server is stored under its id. -/
  server_id : ∀ id found, server id = some found → found.id = id

/-- A database without records. -/
def Store.empty : Store where
  organization := fun _ => none
  server := fun _ => none
  findSmtpCredentialByKey := fun _ => none
  findServerByToken := fun _ => none
  findRouteByToken := fun _ => none
  findRouteByNameAndDomain := fun _ _ => none
  findIpCredential := fun _ => none
  smtpCredentialsForServer := fun _ => []
  findServerByPermalinks := fun _ _ => none
  findAuthenticatedDomain := fun _ _ => none
  sendUsage := fun _ => 0
  sendPolicyForOrganization := fun _ => {}
  organizationMonthUsage := fun _ => 0
  returnPathRouteForServer := fun _ => none
  findConfirmedSenderAddress := fun _ _ => false
  server_id := by simp

end Camelmailer
