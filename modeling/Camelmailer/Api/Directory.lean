import Camelmailer.Db.Table
import Camelmailer.Api.Saml
import Camelmailer.Api.SingleUse

/-!
# Users and how they are found

The tables that a sign-in through an identity provider reads and writes: the users, the
identities that are linked to them, the email domains that organizations have claimed, and the
connections of organizations to identity providers. Both stores are modelled where they differ:
the store in memory checks an address in one step and adds the user in another, and lets an
update take any address; the database has one constraint for both.

Sessions, passwords, memberships and whether an account is disabled are not followed here: what
the store says about them is left open.
-/

namespace Camelmailer.Api.Directory

open Utf8 Db Requests
open AuthApi (Profile days)
open LoginStates (SsoKind)
open SingleUse (NewUser NewInvitation Invitation)

/-! ## JSON -/

/-- `serde_json::Value`, as far as it is told apart. -/
inductive Json where
  | null
  | bool (flag : Bool)
  | string (text : Text)
  | object (fields : List (Text × Json))
  | array (items : List Json)
  | number

namespace Json

def get (key : Text) : Json → Option Json
  | object fields => (fields.find? (fun field => field.1 = key)).map Prod.snd
  | _ => none

/-- A field by its name, or `null`. -/
def field (key : Text) (value : Json) : Json := (value.get key).getD .null

def asStr : Json → Option Text
  | string text => some text
  | _ => none

def asArray : Json → Option (List Json)
  | array items => some items
  | _ => none

def isString (text : Text) : Json → Bool
  | string value => value = text
  | _ => false

end Json

/-! ## The tables -/

inductive StoreKind where
  | memory
  | postgres
deriving DecidableEq

/-- A row of `sso_identities`. -/
structure SsoIdentity where
  provider : Text
  subject : Text
  userId : Id
deriving DecidableEq

structure NewOrgEmailDomain where
  organizationId : Id
  domain : Text
  verificationToken : Text
deriving DecidableEq

structure OrgEmailDomain extends NewOrgEmailDomain where
  id : Id
  verified : Bool
deriving DecidableEq

structure NewOrgSsoConnection where
  organizationId : Id
  kind : SsoKind
  name : Text
  enabled : Bool
  config : Json
  defaultRole : Role
  autoProvision : Bool

structure OrgSsoConnection extends NewOrgSsoConnection where
  id : Id

/-- What is changed of a connection. -/
structure OrgSsoConnectionUpdate where
  name : Option Text := none
  enabled : Option Bool := none
  config : Option Json := none
  defaultRole : Option Role := none
  autoProvision : Option Bool := none

/-- A connection with what is changed. -/
def OrgSsoConnectionUpdate.apply (update : OrgSsoConnectionUpdate) (row : OrgSsoConnection) :
    OrgSsoConnection :=
  { row with
    name := update.name.getD row.name
    enabled := update.enabled.getD row.enabled
    config := update.config.getD row.config
    defaultRole := update.defaultRole.getD row.defaultRole
    autoProvision := update.autoProvision.getD row.autoProvision }

/-- A row of `users`, of `organization_email_domains` and of `organization_sso_connections` by its
identifier. -/
def userId (user : Profile) : Id := user.id

def domainId (domain : OrgEmailDomain) : Id := domain.id

def connectionId (connection : OrgSsoConnection) : Id := connection.id

structure Tables where
  users : Table userId
  identities : List SsoIdentity
  invitations : List Invitation
  domains : Table domainId
  connections : Table connectionId
  nextInvitation : Id

/-! ## The store -/

def normalizeDomain (domain : Text) : Text :=
  Str.toAsciiLowercase ((Str.trim domain).dropWhile (fun char => char = '@'))

/-- The part of an address after its last `@`, which is all of it if there is none. -/
def domainOf (email : Text) : Text := email.rtakeWhile (fun char => char ≠ '@')

/-- The domain of an address in lower case. -/
theorem domainOf_lower (email : Text) :
    domainOf (Str.toAsciiLowercase email) = Str.toAsciiLowercase (domainOf email) := by
  have same : (fun char : Char => decide (char ≠ '@')) ∘ Char.toLower =
      fun char => decide (char ≠ '@') :=
    funext (fun char => decide_eq_decide.mpr (not_congr (Str.toLower_eq_at char)))
  simp only [domainOf, Str.toAsciiLowercase, List.rtakeWhile, List.takeWhile_map,
    ← List.map_reverse, same]

theorem normalizeDomain_lower (domain : Text) :
    normalizeDomain (Str.toAsciiLowercase domain) = normalizeDomain domain := by
  have same : (fun char : Char => decide (char = '@')) ∘ Char.toLower =
      fun char => decide (char = '@') :=
    funext (fun char => decide_eq_decide.mpr (Str.toLower_eq_at char))
  have dropped (text : Text) : (Str.toAsciiLowercase text).dropWhile (fun char => char = '@') =
      Str.toAsciiLowercase (text.dropWhile (fun char => char = '@')) := by
    rw [Str.toAsciiLowercase, List.dropWhile_map, same]
    rfl
  rw [normalizeDomain, Str.trim_lower, dropped, Str.lower_lower]
  rfl

/-- Addresses that differ in case only are in one domain. -/
theorem normalizeDomain_of_eq {first second : Text}
    (same : Str.eqIgnoreAsciiCase first second = true) :
    normalizeDomain (domainOf first) = normalizeDomain (domainOf second) := by
  have lower : Str.toAsciiLowercase first = Str.toAsciiLowercase second := beq_iff_eq.mp same
  rw [← normalizeDomain_lower (domainOf first), ← domainOf_lower, lower, domainOf_lower,
    normalizeDomain_lower]

namespace Tables

variable (store : StoreKind) (tables : Tables)

/-- `user_by_email`. Which of several users is found is not determined. The `lower` of the database
is that of ASCII. -/
def userByEmail (email : Text) (picked : Nat) : Option Profile :=
  let found := tables.users.rows.filter (fun user => Str.eqIgnoreAsciiCase user.emailAddress email)
  found.head?.map (fun first => found.getD picked first)

def userBySsoIdentity (provider subject : Text) : Option Profile :=
  (tables.identities.find? (fun row => row.provider = provider ∧ row.subject = subject)).bind
    (fun row => tables.users.find row.userId)

/-- The check that the store in memory makes first in `create_user`. -/
def emailTaken (email : Text) : Bool :=
  tables.users.rows.any (fun user => user.emailAddress = email)

def emailConflict : StoreError := .conflict "Email address has already been taken"

/-- `create_user`: what adds the user. -/
def createUser (new : NewUser) (uuid : Text) : Except StoreError (Profile × Tables) :=
  if store = .postgres ∧ tables.emailTaken new.emailAddress = true then .error emailConflict
  else
    let user : Profile :=
      { id := tables.users.next, emailAddress := new.emailAddress, admin := new.admin,
        uuid := uuid, firstName := new.firstName, lastName := new.lastName }
    .ok (user, { tables with users := tables.users.insert user rfl })

def updateUser (user : Profile) : Except StoreError (Profile × Tables) :=
  match store with
  | .memory => .ok (user, { tables with users := tables.users.put user })
  | .postgres =>
      if tables.users.rows.any (fun other =>
          other.id ≠ user.id && other.emailAddress = user.emailAddress) then
        .error emailConflict
      else .ok (user, { tables with users := tables.users.replace user })

/-- `delete_user`. The database deletes the identities of the user as well. -/
def deleteUser (id : Id) : Bool × Tables :=
  let identities := match store with
    | .memory => tables.identities
    | .postgres => tables.identities.filter (fun row => row.userId ≠ id)
  ((tables.users.find id).isSome,
    { tables with users := tables.users.remove id, identities := identities })

/-- The identities but for that of a user and a provider. -/
def otherIdentities (userId : Id) (provider : Text) : List SsoIdentity :=
  tables.identities.filter (fun row => !(row.userId = userId && row.provider = provider))

/-- `link_sso_identity`. A user has one identity of a provider. -/
def linkSsoIdentity (userId : Id) (provider subject : Text) : Except StoreError (Unit × Tables) :=
  if tables.identities.any (fun row =>
      row.provider = provider && row.subject = subject && row.userId ≠ userId) then
    .error (.conflict "This SSO identity is already linked to another user")
  else
    let others := tables.otherIdentities userId provider
    .ok ((), { tables with identities := ⟨provider, subject, userId⟩ :: others })

def createInvitation (new : NewInvitation) (overtaken : Bool) :
    Except StoreError (Invitation × Tables) :=
  if !overtaken && tables.invitations.any (fun row => row.organizationId = new.organizationId &&
      Str.eqIgnoreAsciiCase row.emailAddress new.emailAddress && row.acceptedAt = none) then
    .error (.conflict "An invitation for this email address is already pending")
  else
    let invitation : Invitation := { new with id := tables.nextInvitation, acceptedAt := none }
    .ok (invitation, { tables with
      invitations := invitation :: tables.invitations, nextInvitation := tables.nextInvitation + 1 })

def markInvitationAccepted (id : Id) (now : Int) : Tables :=
  { tables with invitations := tables.invitations.map (fun row =>
      if row.id = id then { row with acceptedAt := some now } else row) }

/-- `create_org_email_domain`. The store in memory can be overtaken between its check and the
new row. -/
def createOrgEmailDomain (new : NewOrgEmailDomain) (overtaken : Bool) :
    Except StoreError (OrgEmailDomain × Tables) :=
  let domain := normalizeDomain new.domain
  if domain = [] ∨ '.' ∉ domain then .error (.conflict "Enter a valid domain")
  else if !(overtaken && store = .memory) && tables.domains.rows.any (fun row =>
      row.organizationId = new.organizationId && row.domain = domain) then
    .error (.conflict "This domain is already claimed by the organization")
  else
    let row : OrgEmailDomain :=
      { new with domain := domain, id := tables.domains.next, verified := false }
    .ok (row, { tables with domains := tables.domains.insert row rfl })

def markOrgEmailDomainVerified (id : Id) : Except StoreError (Unit × Tables) :=
  match tables.domains.find id with
  | none => .ok ((), tables)
  | some target =>
      if tables.domains.rows.any (fun row => row.id ≠ id && row.verified &&
          row.domain = target.domain &&
          (store = .postgres || row.organizationId ≠ target.organizationId)) then
        .error (.conflict "This domain is already verified by another organization")
      else .ok ((), { tables with domains := tables.domains.replace { target with verified := true } })

def organizationForVerifiedEmailDomain (domain : Text) : Option Id :=
  (tables.domains.rows.find? (fun row => row.verified && row.domain = normalizeDomain domain)).map
    (fun row => row.organizationId)

def createOrgSsoConnection (new : NewOrgSsoConnection) : OrgSsoConnection × Tables :=
  let row : OrgSsoConnection := { new with id := tables.connections.next }
  (row, { tables with connections := tables.connections.insert row rfl })

def updateOrgSsoConnection (id : Id) (update : OrgSsoConnectionUpdate) :
    Option OrgSsoConnection × Tables :=
  match tables.connections.find id with
  | none => (none, tables)
  | some row => (some (update.apply row),
      { tables with connections := tables.connections.replace (update.apply row) })

/-- What is left when an organization is deleted. -/
def deleteOrganization (id : Id) : Tables :=
  { tables with
    domains := tables.domains.keep (fun row => row.organizationId ≠ id)
    connections := tables.connections.keep (fun row => row.organizationId ≠ id) }

end Tables

/-! ## Questions to the store and to others -/

/-- What an identity provider says of a person. -/
structure Claims where
  subject : Text
  email : Option Text := none
  name : Text := []
  givenName : Text := []
  familyName : Text := []
deriving DecidableEq

/-- The provider that is asked: that of the installation, a social one, or that of a connection. -/
inductive Provider where
  | enterprise
  | social (id : Text)
  | connection (id : Id)
deriving DecidableEq

inductive Command : Type → Type where
  | now : Command Int
  | generateToken : Command Text
  | hashPassword (password : Text) : Command (Except Text Text)
  | verifyCaptcha (token : Text) : Command (Except ApiError Unit)
  | txtRecords (name : Text) : Command (Except Text (List Text))
  /-- The state of a sign-in is redeemed. -/
  | redeem (provider : Provider) (state : Text) : Command (Except ApiError Unit)
  /-- The code of a sign-in is exchanged for what the provider says of the person. -/
  | identify (provider : Provider) (code : Text) : Command (Except ApiError Claims)
  /-- A SAML response is decoded and validated. -/
  | validateResponse (provider : Provider) (response : Text) :
      Command (Except ApiError Saml.ValidatedAssertion)
  | consumeSamlRequest (requestId : Text) : Command (Except StoreError Bool)
  | registerSamlAssertion (assertionId : Text) : Command (Except StoreError Bool)
  /-- What `session_middleware` says of a request. -/
  | currentUser (authorization : Option Text) : Command (Except ApiError Profile)
  | organizationByPermalink (permalink : Text) : Command (Except StoreError (Option Id))
  | userById (id : Id) : Command (Except StoreError (Option Profile))
  | userByEmail (email : Text) : Command (Except StoreError (Option Profile))
  | userByOidcSub (subject : Text) : Command (Except StoreError (Option Profile))
  | userBySsoIdentity (provider subject : Text) : Command (Except StoreError (Option Profile))
  /-- The row of `user_auth`, of which only the mark of a disabled account is read. -/
  | userAuth (userId : Id) : Command (Except StoreError (Option Bool))
  | emailTaken (email : Text) : Command Bool
  | createUser (new : NewUser) : Command (Except StoreError Profile)
  | updateUser (user : Profile) : Command (Except StoreError Profile)
  | deleteUser (id : Id) : Command (Except StoreError Bool)
  | setPasswordDigest (userId : Id) (digest : Text) : Command (Except StoreError Unit)
  | setOidcSub (userId : Id) (subject : Text) : Command (Except StoreError Unit)
  | linkSsoIdentity (userId : Id) (provider subject : Text) : Command (Except StoreError Unit)
  | setUserDisabled (userId : Id) (disabled : Bool) : Command (Except StoreError Unit)
  | deleteSessionsForUser (userId : Id) : Command (Except StoreError Unit)
  | membership (organizationId userId : Id) : Command (Except StoreError (Option Role))
  | upsertMembership (organizationId userId : Id) (role : Role) : Command (Except StoreError Unit)
  | createInvitation (new : NewInvitation) : Command (Except StoreError Invitation)
  | invitationByTokenHash (tokenHash : Text) : Command (Except StoreError (Option Invitation))
  | markInvitationAccepted (id : Id) : Command (Except StoreError Unit)
  | createSession (userId : Id) (tokenHash : Text) (expiresAt : Int) :
      Command (Except StoreError Unit)
  | recordAuthEvent (userId : Option Id) (emailAddress : Option Text) (event : Text) :
      Command (Except StoreError Unit)
  | userRegistered (userId : Id) : Command Unit
  | bootstrapWorkspace (userId : Id) : Command Unit
  | createOrgEmailDomain (new : NewOrgEmailDomain) : Command (Except StoreError OrgEmailDomain)
  | orgEmailDomain (id : Id) : Command (Except StoreError (Option OrgEmailDomain))
  | markOrgEmailDomainVerified (id : Id) : Command (Except StoreError Unit)
  | deleteOrgEmailDomain (id : Id) : Command (Except StoreError Bool)
  | organizationForVerifiedEmailDomain (domain : Text) : Command (Except StoreError (Option Id))
  | createOrgSsoConnection (new : NewOrgSsoConnection) :
      Command (Except StoreError OrgSsoConnection)
  | orgSsoConnection (id : Id) : Command (Except StoreError (Option OrgSsoConnection))
  | updateOrgSsoConnection (id : Id) (update : OrgSsoConnectionUpdate) :
      Command (Except StoreError (Option OrgSsoConnection))
  | deleteOrgSsoConnection (id : Id) : Command (Except StoreError Bool)

/-- What the tables do not determine: a failure of the store, the time, what is drawn, what others
answer, which user a session or a lookup names, and what is not followed. -/
structure Choice where
  fault : Option StoreError := none
  now : Int := 0
  drawn : Text := []
  hashed : Except Text Text := .ok []
  permitted : Except ApiError Unit := .ok ()
  records : Except Text (List Text) := .ok []
  claims : Except ApiError Claims := .error notFound
  assertion : Except ApiError Saml.ValidatedAssertion := .error notFound
  picked : Option Nat := some 0
  organization : Option Id := some 1
  disabled : Option Bool := none
  role : Option Role := none
  holds : Bool := true
  overtaken : Bool := false

/-- A user that the choice names. -/
def Choice.user (choice : Choice) (tables : Tables) : Option Profile :=
  choice.picked.bind (fun index => tables.users.rows[index]?)

/-- The answer to a command. A store that fails has done nothing. -/
def respond (store : StoreKind) (choice : Choice) {β : Type} (command : Command β)
    (tables : Tables) : β × Tables :=
  match command with
  | .now => (choice.now, tables)
  | .generateToken => (choice.drawn, tables)
  | .hashPassword _ => (choice.hashed, tables)
  | .verifyCaptcha _ => (choice.permitted, tables)
  | .txtRecords _ => (choice.records, tables)
  | .redeem _ _ => (choice.permitted, tables)
  | .identify _ _ => (choice.claims, tables)
  | .validateResponse _ _ => (choice.assertion, tables)
  | .consumeSamlRequest _ => attempted choice.fault (.ok (choice.holds, tables)) tables
  | .registerSamlAssertion _ => attempted choice.fault (.ok (choice.holds, tables)) tables
  | .currentUser _ => (match choice.user tables with
      | some user => .ok user
      | none => .error notFound, tables)
  | .organizationByPermalink _ => attempted choice.fault (.ok (choice.organization, tables)) tables
  | .userById id => attempted choice.fault (.ok (tables.users.find id, tables)) tables
  | .userByEmail email =>
      attempted choice.fault (.ok (tables.userByEmail email (choice.picked.getD 0), tables)) tables
  | .userByOidcSub _ => attempted choice.fault (.ok (choice.user tables, tables)) tables
  | .userBySsoIdentity provider subject =>
      attempted choice.fault (.ok (tables.userBySsoIdentity provider subject, tables)) tables
  | .userAuth _ => attempted choice.fault (.ok (choice.disabled, tables)) tables
  | .emailTaken email => (tables.emailTaken email, tables)
  | .createUser new => attempted choice.fault (tables.createUser store new choice.drawn) tables
  | .updateUser user => attempted choice.fault (tables.updateUser store user) tables
  | .deleteUser id => attempted choice.fault (.ok (tables.deleteUser store id)) tables
  | .setPasswordDigest _ _ => attempted choice.fault (.ok ((), tables)) tables
  | .setOidcSub _ _ => attempted choice.fault (.ok ((), tables)) tables
  | .linkSsoIdentity userId provider subject =>
      attempted choice.fault (tables.linkSsoIdentity userId provider subject) tables
  | .setUserDisabled _ _ => attempted choice.fault (.ok ((), tables)) tables
  | .deleteSessionsForUser _ => attempted choice.fault (.ok ((), tables)) tables
  | .membership _ _ => attempted choice.fault (.ok (choice.role, tables)) tables
  | .upsertMembership _ _ _ => attempted choice.fault (.ok ((), tables)) tables
  | .createInvitation new =>
      attempted choice.fault (tables.createInvitation new choice.overtaken) tables
  | .invitationByTokenHash tokenHash => attempted choice.fault
      (.ok (tables.invitations.find? (fun row => row.tokenHash = tokenHash), tables)) tables
  | .markInvitationAccepted id =>
      attempted choice.fault (.ok ((), tables.markInvitationAccepted id choice.now)) tables
  | .createSession _ _ _ => attempted choice.fault (.ok ((), tables)) tables
  | .recordAuthEvent _ _ _ => attempted choice.fault (.ok ((), tables)) tables
  | .userRegistered _ => ((), tables)
  | .bootstrapWorkspace _ => ((), tables)
  | .createOrgEmailDomain new =>
      attempted choice.fault (tables.createOrgEmailDomain store new choice.overtaken) tables
  | .orgEmailDomain id => attempted choice.fault (.ok (tables.domains.find id, tables)) tables
  | .markOrgEmailDomainVerified id =>
      attempted choice.fault (tables.markOrgEmailDomainVerified store id) tables
  | .deleteOrgEmailDomain id => attempted choice.fault (.ok ((tables.domains.find id).isSome,
      { tables with domains := tables.domains.remove id })) tables
  | .organizationForVerifiedEmailDomain domain => attempted choice.fault
      (.ok (tables.organizationForVerifiedEmailDomain domain, tables)) tables
  | .createOrgSsoConnection new =>
      attempted choice.fault (.ok (tables.createOrgSsoConnection new)) tables
  | .orgSsoConnection id => attempted choice.fault (.ok (tables.connections.find id, tables)) tables
  | .updateOrgSsoConnection id update =>
      attempted choice.fault (.ok (tables.updateOrgSsoConnection id update)) tables
  | .deleteOrgSsoConnection id => attempted choice.fault (.ok ((tables.connections.find id).isSome,
      { tables with connections := tables.connections.remove id })) tables

/-! ## What commands change -/

section Changes

variable {store : StoreKind} {tables after : Tables}

/-- A user who is found under an address has it. -/
theorem Tables.mem_of_userByEmail {email : Text} {picked : Nat} {user : Profile}
    (found : tables.userByEmail email picked = some user) :
    user ∈ tables.users.rows ∧ Str.eqIgnoreAsciiCase user.emailAddress email = true := by
  obtain ⟨first, head, rfl⟩ := Option.map_eq_some_iff.mp found
  have inside : (tables.users.rows.filter (fun user =>
      Str.eqIgnoreAsciiCase user.emailAddress email)).getD picked first ∈
      tables.users.rows.filter (fun user => Str.eqIgnoreAsciiCase user.emailAddress email) := by
    rw [List.getD_eq_getElem?_getD]
    cases there : (tables.users.rows.filter (fun user =>
        Str.eqIgnoreAsciiCase user.emailAddress email))[picked]? with
    | none => exact List.mem_of_mem_head? head
    | some user => exact List.mem_of_getElem? there
  exact List.mem_filter.mp inside

theorem Tables.createUser_ok {new : NewUser} {uuid : Text} {user : Profile}
    (done : tables.createUser store new uuid = .ok (user, after)) :
    user.emailAddress = new.emailAddress ∧ ∃ fresh : userId user = tables.users.next,
      after = { tables with users := tables.users.insert user fresh } := by
  unfold Tables.createUser at done
  split_ifs at done
  cases done
  exact ⟨rfl, rfl, rfl⟩

theorem Tables.updateUser_ok {user written : Profile}
    (done : tables.updateUser store user = .ok (written, after)) :
    after = { tables with users := tables.users.put user } ∨
      after = { tables with users := tables.users.replace user } := by
  unfold Tables.updateUser at done
  cases store with
  | memory =>
      cases done
      exact .inl rfl
  | postgres =>
      split_ifs at done
      cases done
      exact .inr rfl

theorem Tables.linkSsoIdentity_ok {id : Id} {provider subject : Text} {done : Unit}
    (linked : tables.linkSsoIdentity id provider subject = .ok (done, after)) :
    after = { tables with
      identities := ⟨provider, subject, id⟩ :: tables.otherIdentities id provider } := by
  unfold Tables.linkSsoIdentity at linked
  split_ifs at linked
  cases linked
  rfl

theorem Tables.createInvitation_ok {new : NewInvitation} {overtaken : Bool}
    {invitation : Invitation} (done : tables.createInvitation new overtaken = .ok (invitation, after)) :
    invitation.emailAddress = new.emailAddress ∧
      after = { tables with
        invitations := invitation :: tables.invitations
        nextInvitation := tables.nextInvitation + 1 } := by
  unfold Tables.createInvitation at done
  split_ifs at done
  cases done
  exact ⟨rfl, rfl⟩

/-- The claims of domains are on their own. -/
theorem Tables.createOrgEmailDomain_ok {new : NewOrgEmailDomain} {overtaken : Bool}
    {domain : OrgEmailDomain}
    (done : tables.createOrgEmailDomain store new overtaken = .ok (domain, after)) :
    after = { tables with domains := after.domains } := by
  unfold Tables.createOrgEmailDomain at done
  dsimp only at done
  split_ifs at done
  cases done
  rfl

theorem Tables.markOrgEmailDomainVerified_ok {id : Id} {marked : Unit}
    (done : tables.markOrgEmailDomainVerified store id = .ok (marked, after)) :
    after = { tables with domains := after.domains } := by
  unfold Tables.markOrgEmailDomainVerified at done
  split at done
  · cases done
    rfl
  · split_ifs at done
    cases done
    rfl

theorem Tables.updateOrgSsoConnection_eq {id : Id} {update : OrgSsoConnectionUpdate}
    {updated : Option OrgSsoConnection}
    (done : tables.updateOrgSsoConnection id update = (updated, after)) :
    after = tables ∨ ∃ row ∈ tables.connections.rows,
      after = { tables with connections := tables.connections.replace (update.apply row) } := by
  unfold Tables.updateOrgSsoConnection at done
  split at done
  · exact .inl (Prod.mk.inj done).2.symm
  · next row found =>
      exact .inr ⟨row, (Table.find_some found).1, (Prod.mk.inj done).2.symm⟩

variable {choice : Choice} {β : Type} {command : Command β} {answer : β}

inductive Area where
  | users
  | identities
  | invitations
  | connections
deriving DecidableEq

/-- The tables that a command can change, but for that of the domains. -/
def changes {β : Type} : Command β → List Area
  | .createUser _ => [.users]
  | .updateUser _ => [.users]
  | .deleteUser _ => [.users, .identities]
  | .linkSsoIdentity _ _ _ => [.identities]
  | .createInvitation _ => [.invitations]
  | .markInvitationAccepted _ => [.invitations]
  | .createOrgSsoConnection _ => [.connections]
  | .updateOrgSsoConnection _ _ => [.connections]
  | .deleteOrgSsoConnection _ => [.connections]
  | _ => []

/-- The other tables stay as they are. -/
structure Frame (areas : List Area) (tables after : Tables) : Prop where
  users : .users ∉ areas → after.users = tables.users
  identities : .identities ∉ areas → after.identities = tables.identities
  invitations : .invitations ∉ areas → after.invitations = tables.invitations
  connections : .connections ∉ areas → after.connections = tables.connections

theorem Frame.refl (areas : List Area) (tables : Tables) : Frame areas tables tables :=
  ⟨fun _ => rfl, fun _ => rfl, fun _ => rfl, fun _ => rfl⟩

section

variable (responds : respond store choice command tables = (answer, after))
include responds

theorem respond_frame :
    Frame (changes command) tables after := by
  cases command
  case createUser new =>
    obtain ⟨error, rfl, rfl⟩ | ⟨value, rfl, done⟩ := attempted_cases responds
    · exact .refl _ _
    · obtain ⟨-, fresh, rfl⟩ := Tables.createUser_ok done
      exact ⟨fun other => absurd (by simp [changes]) other, fun _ => rfl, fun _ => rfl,
        fun _ => rfl⟩
  case updateUser user =>
    obtain ⟨error, rfl, rfl⟩ | ⟨value, rfl, done⟩ := attempted_cases responds
    · exact .refl _ _
    · rcases Tables.updateUser_ok done with rfl | rfl
      all_goals exact ⟨fun other => absurd (by simp [changes]) other, fun _ => rfl, fun _ => rfl,
        fun _ => rfl⟩
  case deleteUser id =>
    obtain ⟨error, rfl, rfl⟩ | ⟨rfl, rfl⟩ := attempted_ok_cases responds
    · exact .refl _ _
    · exact ⟨fun other => absurd (by simp [changes]) other,
        fun other => absurd (by simp [changes]) other, fun _ => rfl, fun _ => rfl⟩
  case linkSsoIdentity id provider subject =>
    obtain ⟨error, rfl, rfl⟩ | ⟨value, rfl, done⟩ := attempted_cases responds
    · exact .refl _ _
    · obtain rfl := Tables.linkSsoIdentity_ok done
      exact ⟨fun _ => rfl, fun other => absurd (by simp [changes]) other, fun _ => rfl,
        fun _ => rfl⟩
  case createInvitation new =>
    obtain ⟨error, rfl, rfl⟩ | ⟨value, rfl, done⟩ := attempted_cases responds
    · exact .refl _ _
    · obtain ⟨-, rfl⟩ := Tables.createInvitation_ok done
      exact ⟨fun _ => rfl, fun _ => rfl, fun other => absurd (by simp [changes]) other,
        fun _ => rfl⟩
  case markInvitationAccepted id =>
    obtain ⟨error, rfl, rfl⟩ | ⟨rfl, rfl⟩ := attempted_ok_cases responds
    · exact .refl _ _
    · exact ⟨fun _ => rfl, fun _ => rfl, fun other => absurd (by simp [changes]) other,
        fun _ => rfl⟩
  case createOrgSsoConnection new | deleteOrgSsoConnection id =>
    obtain ⟨error, rfl, rfl⟩ | ⟨rfl, rfl⟩ := attempted_ok_cases responds
    · exact .refl _ _
    · exact ⟨fun _ => rfl, fun _ => rfl, fun _ => rfl,
        fun other => absurd (by simp [changes]) other⟩
  case updateOrgSsoConnection id update =>
    obtain ⟨error, rfl, rfl⟩ | ⟨value, rfl, done⟩ := attempted_cases responds
    · exact .refl _ _
    · rcases Tables.updateOrgSsoConnection_eq (Except.ok.inj done) with rfl | ⟨old, there, rfl⟩
      · exact .refl _ _
      · exact ⟨fun _ => rfl, fun _ => rfl, fun _ => rfl,
          fun other => absurd (by simp [changes]) other⟩
  case createOrgEmailDomain new =>
    obtain ⟨error, rfl, rfl⟩ | ⟨value, rfl, done⟩ := attempted_cases responds
    · exact .refl _ _
    · rw [Tables.createOrgEmailDomain_ok done]
      exact ⟨fun _ => rfl, fun _ => rfl, fun _ => rfl, fun _ => rfl⟩
  case markOrgEmailDomainVerified id =>
    obtain ⟨error, rfl, rfl⟩ | ⟨value, rfl, done⟩ := attempted_cases responds
    · exact .refl _ _
    · rw [Tables.markOrgEmailDomainVerified_ok done]
      exact ⟨fun _ => rfl, fun _ => rfl, fun _ => rfl, fun _ => rfl⟩
  case deleteOrgEmailDomain id =>
    obtain ⟨error, rfl, rfl⟩ | ⟨rfl, rfl⟩ := attempted_ok_cases responds
    · exact .refl _ _
    · exact ⟨fun _ => rfl, fun _ => rfl, fun _ => rfl, fun _ => rfl⟩
  -- the other commands change nothing
  all_goals first
    | (cases responds; exact .refl _ _)
    | (obtain ⟨error, rfl, rfl⟩ | ⟨value, rfl, done⟩ := attempted_cases responds
       · exact .refl _ _
       · cases done
         exact .refl _ _)

/-- What becomes of the connections: they keep their identifier and their organization, and a new
one has a new identifier. -/
theorem respond_connections :
    tables.connections.next ≤ after.connections.next ∧
    ∀ row ∈ after.connections.rows,
      (∃ old ∈ tables.connections.rows, old.id = row.id ∧
        old.organizationId = row.organizationId) ∨ row.id = tables.connections.next := by
  have same (unchanged : after.connections = tables.connections) :
      tables.connections.next ≤ after.connections.next ∧
      ∀ row ∈ after.connections.rows,
        (∃ old ∈ tables.connections.rows, old.id = row.id ∧
          old.organizationId = row.organizationId) ∨ row.id = tables.connections.next := by
    rw [unchanged]
    exact ⟨le_refl _, fun row member => .inl ⟨row, member, rfl, rfl⟩⟩
  have frame := (respond_frame responds).connections
  cases command
  case createOrgSsoConnection new =>
    obtain ⟨error, rfl, rfl⟩ | ⟨rfl, rfl⟩ := attempted_ok_cases responds
    · exact same rfl
    · refine ⟨Nat.le_succ _, fun row member => ?_⟩
      rcases List.mem_cons.mp member with rfl | old
      · exact .inr rfl
      · exact .inl ⟨row, old, rfl, rfl⟩
  case updateOrgSsoConnection id update =>
    obtain ⟨error, rfl, rfl⟩ | ⟨value, rfl, done⟩ := attempted_cases responds
    · exact same rfl
    · rcases Tables.updateOrgSsoConnection_eq (Except.ok.inj done) with rfl | ⟨old, there, rfl⟩
      · exact same rfl
      · refine ⟨le_refl _, fun row member => .inl ?_⟩
        rcases Table.mem_replace member with ⟨rfl, -⟩ | ⟨kept, -⟩
        · exact ⟨old, there, rfl, rfl⟩
        · exact ⟨row, kept, rfl, rfl⟩
  case deleteOrgSsoConnection id =>
    obtain ⟨error, rfl, rfl⟩ | ⟨rfl, rfl⟩ := attempted_ok_cases responds
    · exact same rfl
    · exact ⟨le_refl _, fun row member => .inl ⟨row, (Table.mem_remove.mp member).1, rfl, rfl⟩⟩
  all_goals exact same (frame (by simp [changes]))

/-- An identity stays what it was, or has just been linked. -/
theorem respond_identities {row : SsoIdentity} (member : row ∈ after.identities) :
    row ∈ tables.identities ∨
      (⟨command, answer⟩ : Answered Command) =
        ⟨.linkSsoIdentity row.userId row.provider row.subject, .ok ()⟩ := by
  have frame := (respond_frame responds).identities
  cases command
  case linkSsoIdentity id provider subject =>
    obtain ⟨error, rfl, rfl⟩ | ⟨value, rfl, done⟩ := attempted_cases responds
    · exact .inl member
    · obtain rfl := Tables.linkSsoIdentity_ok done
      rcases List.mem_cons.mp member with rfl | old
      · exact .inr rfl
      · exact .inl (List.mem_of_mem_filter old)
  case deleteUser id =>
    obtain ⟨error, rfl, rfl⟩ | ⟨rfl, rfl⟩ := attempted_ok_cases responds
    · exact .inl member
    · left
      cases store with
      | memory => exact member
      | postgres => exact List.mem_of_mem_filter member
  all_goals
    rw [frame (by simp [changes])] at member
    exact .inl member

end

end Changes

end Camelmailer.Api.Directory
