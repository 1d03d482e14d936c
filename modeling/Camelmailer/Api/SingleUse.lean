import Camelmailer.Db.Keyed
import Camelmailer.Api.AuthApi
import Camelmailer.Api.LoginStates

/-!
# Tokens that are used once

Six kinds of tokens are handed out to be used once: invitations, password resets,
confirmations of sender addresses, and the states of a sign-in with OpenID Connect, a passkey
or SAML. Five of them are redeemed by one statement that takes the row out of its table or
clears it. An invitation is looked up, acted upon and marked as accepted in separate steps.

Invitations are followed to their end. Of the other requests the model has what leads up to the
storing and the redeeming of a token; what a request does with what it has redeemed is not
followed here.
-/

namespace Camelmailer.Api.SingleUse

open Utf8 Db Requests
open AuthApi (Profile minutes hours days)
open LoginStates (Flow stateKey tenantKey stateTtl)

/-! ## The store -/

structure NewInvitation where
  organizationId : Id
  emailAddress : Text
  role : Role
  tokenHash : Text
  invitedByUserId : Id
  expiresAt : Int
deriving DecidableEq

structure Invitation extends NewInvitation where
  id : Id
  acceptedAt : Option Int
deriving DecidableEq

structure Membership where
  organizationId : Id
  userId : Id
  role : Role
deriving DecidableEq

structure NewUser where
  emailAddress : Text
  firstName : Text
  lastName : Text
  admin : Bool
deriving DecidableEq

structure NewSenderAddress where
  serverId : Id
  emailAddress : Text
  verificationTokenHash : Text
deriving DecidableEq

structure SenderAddress where
  id : Id
  serverId : Id
  emailAddress : Text
  verified : Bool
  verificationTokenHash : Option Text
deriving DecidableEq

/-- Whether a sender address waits for a token. -/
def SenderAddress.awaits (tokenHash : Text) (address : SenderAddress) : Bool :=
  !address.verified && address.verificationTokenHash = some tokenHash

/-- The first address that waits for a token is confirmed. -/
def confirmFirst (tokenHash : Text) : List SenderAddress → Option SenderAddress × List SenderAddress
  | [] => (none, [])
  | address :: others =>
      if address.awaits tokenHash then
        let confirmed := { address with verified := true, verificationTokenHash := none }
        (some confirmed, confirmed :: others)
      else
        let rest := confirmFirst tokenHash others
        (rest.1, address :: rest.2)

/-- The tables, and the time. An organization is its permalink and its identifier. -/
structure Tables where
  clock : Int
  organizations : List (Text × Id)
  users : List Profile
  memberships : List Membership
  invitations : List Invitation
  senderAddresses : List SenderAddress
  passwordResets : List (Keyed Text Id)
  oidcStates : List (Keyed Text (Text × Text))
  webauthnStates : List (Keyed Text (Option Id))
  samlRequests : List (Keyed Text Unit)
  nextId : Id

inductive Command : Type → Type where
  | now : Command Int
  | generateAuthToken : Command Text
  | startCeremony : Command Text
  | hashPassword (password : Text) : Command (Except Text Text)
  | organizationByPermalink (permalink : Text) : Command (Except StoreError (Option Id))
  | userByEmail (email : Text) : Command (Except StoreError (Option Profile))
  | membership (organizationId userId : Id) : Command (Except StoreError (Option Role))
  | createUser (new : NewUser) : Command (Except StoreError Profile)
  | setPasswordDigest (userId : Id) (digest : Text) : Command (Except StoreError Unit)
  | upsertMembership (organizationId userId : Id) (role : Role) : Command (Except StoreError Unit)
  | createInvitation (new : NewInvitation) : Command (Except StoreError Invitation)
  | invitationByTokenHash (tokenHash : Text) : Command (Except StoreError (Option Invitation))
  | markInvitationAccepted (invitationId : Id) : Command (Except StoreError Unit)
  | deleteInvitation (organizationId invitationId : Id) : Command (Except StoreError Bool)
  | createSession (userId : Id) (tokenHash : Text) (expiresAt : Int) :
      Command (Except StoreError Unit)
  | recordAuthEvent (userId : Option Id) (emailAddress : Option Text) (event : Text) :
      Command (Except StoreError Unit)
  | createPasswordReset (userId : Id) (tokenHash : Text) (expiresAt : Int) :
      Command (Except StoreError Unit)
  | consumePasswordReset (tokenHash : Text) (now : Int) : Command (Except StoreError (Option Id))
  | createSenderAddress (new : NewSenderAddress) : Command (Except StoreError SenderAddress)
  | confirmSenderAddress (tokenHash : Text) : Command (Except StoreError (Option SenderAddress))
  | createOidcState (key pkceVerifier nonce : Text) (expiresAt : Int) :
      Command (Except StoreError Unit)
  | consumeOidcState (key : Text) (now : Int) : Command (Except StoreError (Option (Text × Text)))
  | createWebauthnState (key : Text) (userId : Option Id) (expiresAt : Int) :
      Command (Except StoreError Unit)
  | consumeWebauthnState (key : Text) (now : Int) :
      Command (Except StoreError (Option (Option Id)))
  | createSamlRequest (requestId : Text) (expiresAt : Int) : Command (Except StoreError Unit)
  | consumeSamlRequest (requestId : Text) (now : Int) : Command (Except StoreError Bool)

/-- What the tables do not determine: a failure of the store, what is drawn, the digest or the
error of a hash, which of several users of one address is found, and whether a check for a
duplicate was made before another request has added it. -/
structure Choice where
  fault : Option StoreError := none
  drawn : Text := []
  hashed : Except Text Text := .ok []
  picked : Nat := 0
  overtaken : Bool := false

namespace Tables

variable (tables : Tables)

def userByEmail (email : Text) (picked : Nat) : Option Profile :=
  match tables.users.filter (fun user => Str.eqIgnoreAsciiCase user.emailAddress email) with
  | [] => none
  | first :: others => some ((first :: others).getD picked first)

def membership (organizationId userId : Id) : Option Role :=
  (tables.memberships.find? (fun row =>
    row.organizationId = organizationId ∧ row.userId = userId)).map Membership.role

def createUser (new : NewUser) (uuid : Text) (overtaken : Bool) :
    Except StoreError (Profile × Tables) :=
  if !overtaken && tables.users.any (fun user => user.emailAddress = new.emailAddress) then
    .error (.conflict "Email address has already been taken")
  else
    let user : Profile :=
      { id := tables.nextId, emailAddress := new.emailAddress, admin := new.admin, uuid := uuid,
        firstName := new.firstName, lastName := new.lastName }
    .ok (user, { tables with users := user :: tables.users, nextId := tables.nextId + 1 })

def upsertMembership (organizationId userId : Id) (role : Role) : Tables :=
  let others := tables.memberships.filter (fun row =>
    !(row.organizationId = organizationId && row.userId = userId))
  { tables with memberships := ⟨organizationId, userId, role⟩ :: others }

def createInvitation (new : NewInvitation) (overtaken : Bool) :
    Except StoreError (Invitation × Tables) :=
  if !overtaken && tables.invitations.any (fun row => row.organizationId = new.organizationId &&
      Str.eqIgnoreAsciiCase row.emailAddress new.emailAddress && row.acceptedAt = none) then
    .error (.conflict "An invitation for this email address is already pending")
  else
    let invitation : Invitation := { new with id := tables.nextId, acceptedAt := none }
    .ok (invitation,
      { tables with invitations := invitation :: tables.invitations, nextId := tables.nextId + 1 })

def invitationByTokenHash (tokenHash : Text) : Option Invitation :=
  tables.invitations.find? (fun row => row.tokenHash = tokenHash)

def markInvitationAccepted (invitationId : Id) : Tables :=
  { tables with invitations := tables.invitations.map (fun row =>
      if row.id = invitationId then { row with acceptedAt := some tables.clock } else row) }

def deleteInvitation (organizationId invitationId : Id) : Bool × Tables :=
  let isIt := fun row : Invitation => row.id = invitationId && row.organizationId = organizationId
  (tables.invitations.any isIt,
    { tables with invitations := tables.invitations.filter (fun row => !isIt row) })

def createSenderAddress (new : NewSenderAddress) (overtaken : Bool) :
    Except StoreError (SenderAddress × Tables) :=
  if !overtaken && tables.senderAddresses.any (fun row => row.serverId = new.serverId &&
      Str.eqIgnoreAsciiCase row.emailAddress new.emailAddress) then
    .error (.conflict "Email address has already been added")
  else
    let address : SenderAddress :=
      ⟨tables.nextId, new.serverId, new.emailAddress, false, some new.verificationTokenHash⟩
    .ok (address, { tables with
      senderAddresses := address :: tables.senderAddresses, nextId := tables.nextId + 1 })

def confirmSenderAddress (tokenHash : Text) : Option SenderAddress × Tables :=
  let confirmed := confirmFirst tokenHash tables.senderAddresses
  (confirmed.1, { tables with senderAddresses := confirmed.2 })

def createPasswordReset (userId : Id) (tokenHash : Text) (expiresAt : Int) : Tables :=
  { tables with passwordResets := tables.passwordResets ++ [⟨tokenHash, expiresAt, userId⟩] }

def consumePasswordReset (tokenHash : Text) (now : Int) : Option Id × Tables :=
  let consumed := Keyed.consume tokenHash now tables.passwordResets
  (consumed.1, { tables with passwordResets := consumed.2 })

def createOidcState (key pkceVerifier nonce : Text) (expiresAt : Int) : Tables :=
  { tables with
    oidcStates := Keyed.insert ⟨key, expiresAt, (pkceVerifier, nonce)⟩ tables.oidcStates }

def consumeOidcState (key : Text) (now : Int) : Option (Text × Text) × Tables :=
  let consumed := Keyed.consume key now tables.oidcStates
  (consumed.1, { tables with oidcStates := consumed.2 })

def createWebauthnState (key : Text) (userId : Option Id) (expiresAt : Int) : Tables :=
  { tables with webauthnStates := Keyed.insert ⟨key, expiresAt, userId⟩ tables.webauthnStates }

def consumeWebauthnState (key : Text) (now : Int) : Option (Option Id) × Tables :=
  let consumed := Keyed.consume key now tables.webauthnStates
  (consumed.1, { tables with webauthnStates := consumed.2 })

def createSamlRequest (requestId : Text) (expiresAt : Int) : Tables :=
  { tables with samlRequests := Keyed.insert ⟨requestId, expiresAt, ()⟩ tables.samlRequests }

def consumeSamlRequest (requestId : Text) (now : Int) : Bool × Tables :=
  let consumed := Keyed.consume requestId now tables.samlRequests
  (consumed.1.isSome, { tables with samlRequests := consumed.2 })

end Tables

/-- The answer to a command. A store that fails has done nothing. Sessions, digests and the log
of events are not followed. -/
def respond (choice : Choice) {β : Type} (command : Command β) (tables : Tables) : β × Tables :=
  match command with
  | .now => (tables.clock, tables)
  | .generateAuthToken => (choice.drawn, tables)
  | .startCeremony => (choice.drawn, tables)
  | .hashPassword _ => (choice.hashed, tables)
  | .organizationByPermalink permalink => attempted choice.fault
      (.ok ((tables.organizations.find? (fun row => row.1 = permalink)).map Prod.snd, tables)) tables
  | .userByEmail email =>
      attempted choice.fault (.ok (tables.userByEmail email choice.picked, tables)) tables
  | .membership organizationId userId =>
      attempted choice.fault (.ok (tables.membership organizationId userId, tables)) tables
  | .createUser new =>
      attempted choice.fault (tables.createUser new choice.drawn choice.overtaken) tables
  | .setPasswordDigest _ _ => attempted choice.fault (.ok ((), tables)) tables
  | .upsertMembership organizationId userId role =>
      attempted choice.fault (.ok ((), tables.upsertMembership organizationId userId role)) tables
  | .createInvitation new =>
      attempted choice.fault (tables.createInvitation new choice.overtaken) tables
  | .invitationByTokenHash tokenHash =>
      attempted choice.fault (.ok (tables.invitationByTokenHash tokenHash, tables)) tables
  | .markInvitationAccepted invitationId =>
      attempted choice.fault (.ok ((), tables.markInvitationAccepted invitationId)) tables
  | .deleteInvitation organizationId invitationId =>
      attempted choice.fault (.ok (tables.deleteInvitation organizationId invitationId)) tables
  | .createSession _ _ _ => attempted choice.fault (.ok ((), tables)) tables
  | .recordAuthEvent _ _ _ => attempted choice.fault (.ok ((), tables)) tables
  | .createPasswordReset userId tokenHash expiresAt => attempted choice.fault
      (.ok ((), tables.createPasswordReset userId tokenHash expiresAt)) tables
  | .consumePasswordReset tokenHash now =>
      attempted choice.fault (.ok (tables.consumePasswordReset tokenHash now)) tables
  | .createSenderAddress new =>
      attempted choice.fault (tables.createSenderAddress new choice.overtaken) tables
  | .confirmSenderAddress tokenHash =>
      attempted choice.fault (.ok (tables.confirmSenderAddress tokenHash)) tables
  | .createOidcState key pkceVerifier nonce expiresAt => attempted choice.fault
      (.ok ((), tables.createOidcState key pkceVerifier nonce expiresAt)) tables
  | .consumeOidcState key now =>
      attempted choice.fault (.ok (tables.consumeOidcState key now)) tables
  | .createWebauthnState key userId expiresAt => attempted choice.fault
      (.ok ((), tables.createWebauthnState key userId expiresAt)) tables
  | .consumeWebauthnState key now =>
      attempted choice.fault (.ok (tables.consumeWebauthnState key now)) tables
  | .createSamlRequest requestId expiresAt => attempted choice.fault
      (.ok ((), tables.createSamlRequest requestId expiresAt)) tables
  | .consumeSamlRequest requestId now =>
      attempted choice.fault (.ok (tables.consumeSamlRequest requestId now)) tables

/-! ## The requests -/

/-- `auth::hash_token` and `str::to_lowercase`. -/
structure Functions where
  hashToken : Text → Text
  toLowercase : Text → Text

/-- What the requests read of the configuration. -/
structure Policy where
  minimumPasswordLength : Nat
  invitationExpiryDays : Nat
  sessionTimeoutDays : Nat
  passwordResetExpiryHours : Nat

structure AcceptInvitation where
  token : Option Text := none
  firstName : Option Text := none
  lastName : Option Text := none
  password : Option Text := none
deriving DecidableEq

/-- The two ceremonies of a passkey. -/
inductive Ceremony where
  | registration
  | login
deriving DecidableEq

/-- A request. The caller of the admin requests is an owner or not, and a user or a key. A
callback is given the state of its query, and the end of a ceremony the challenge that the
client has signed. -/
inductive Call where
  | invitationsCreate (permalink : Text) (isOwner : Bool) (principal : Option Id)
      (emailAddress role : Option Text)
  | invitationsDestroy (permalink : Text) (invitationId : Id)
  | invitationAccept (body : AcceptInvitation)
  | passwordResetRequest (emailAddress : Option Text)
  | passwordResetComplete (token : Option Text)
  | senderAddressesCreate (serverId : Id) (emailAddress : Option Text)
  | senderAddressConfirm (token : Option Text)
  | loginStart (flow : Flow)
  | loginCallback (flow : Flow) (state : Text)
  | ceremonyStart (ceremony : Ceremony) (userId : Id)
  | ceremonyFinish (ceremony : Ceremony) (challenge : Text)
  | samlStart (connection : Option Id)
  | samlAcs (inResponseTo : Text)
deriving DecidableEq

/-- The data of an answer. -/
inductive Reply where
  | invited (invitation : Invitation) (inviteToken : Text)
  | deleted
  | accepted (user : Profile) (accountCreated : Bool) (session : Option (Text × Int))
  | resetRequested
  | senderAddress (address : SenderAddress) (verificationToken : Text)
  | confirmed (emailAddress : Text)
  | started (key : Text)
  | redeemed
deriving DecidableEq

abbrev Handler : Type → Type 1 := Program Command ApiError

def invalidToken (message : Text) : ApiError := ⟨422, "InvalidToken", message⟩

def invalidInvitation : ApiError :=
  invalidToken "The invitation is invalid, expired, or already used"

section Requests

variable (functions : Functions) (policy : Policy)

def audit (userId : Option Id) (emailAddress : Option Text) (event : Text) : Handler Unit := do
  let _ ← Program.perform (.recordAuthEvent userId emailAddress event)
  return ()

/-- The role of an invitation. -/
def invitedRole (role : Option Text) : Except ApiError Role :=
  match role with
  | none => .ok .member
  | some value =>
      match Role.parse value with
      | some role => .ok role
      | none => .error (validationError "role must be one of viewer, member, admin, owner")

/-- Whether an address is that of a member, as far as the store says. -/
def isMember (organizationId : Id) (email : Text) : Handler Bool :=
  .send (.userByEmail email) (fun
    | .ok (some user) => do
        let found ← Program.perform (.membership organizationId user.id)
        return found.toOption.join.isSome
    | _ => .done false)

def invitationsCreate (permalink : Text) (isOwner : Bool) (principal : Option Id)
    (emailAddress role : Option Text) : Handler Reply := do
  let found ← ask (.organizationByPermalink permalink)
  let organizationId ← require found notFound
  let email ← require ((present emailAddress).filter (fun email => '@' ∈ email))
    (missing "email_address")
  let role ← checked (invitedRole role)
  demand (!(role = .owner) || isOwner) (forbidden "Only owners can grant the owner role")
  let member ← isMember organizationId email
  demand (!member) (validationError "User is already a member of this organization")
  let token ← Program.perform .generateAuthToken
  let now ← Program.perform .now
  let invitation ← ask (.createInvitation ⟨organizationId, email, role, functions.hashToken token,
    principal.getD 0, now + days policy.invitationExpiryDays⟩)
  audit principal (some email) "invitation.created"
  return .invited invitation token

def invitationsDestroy (permalink : Text) (invitationId : Id) : Handler Reply := do
  let found ← ask (.organizationByPermalink permalink)
  let organizationId ← require found notFound
  let deleted ← ask (.deleteInvitation organizationId invitationId)
  demand deleted notFound
  return .deleted

/-- The account that an invitation without a user creates. -/
def createInvited (invitation : Invitation) (body : AcceptInvitation) : Handler Profile := do
  let password ← require (present body.password) (missing "password")
  demand (policy.minimumPasswordLength ≤ Str.byteLen password % 2 ^ 32)
    (validationError ("Password must be at least " ++
      decimal policy.minimumPasswordLength ++ " characters"))
  let user ← ask (.createUser
    ⟨invitation.emailAddress, body.firstName.getD [], body.lastName.getD [], false⟩)
  let digest ← .send (.hashPassword password) (fun
    | .ok digest => .done digest
    | .error error => .stop (renderStoreError (.other error)))
  ask (.setPasswordDigest user.id digest)
  return user

/-- The user of an invitation, and whether it has just been created. -/
def invitedUser (invitation : Invitation) (body : AcceptInvitation) : Handler (Profile × Bool) :=
  .send (.userByEmail invitation.emailAddress) (fun
    | .error error => .stop (renderStoreError error)
    | .ok (some user) => .done (user, false)
    | .ok none => do
        let user ← createInvited policy invitation body
        return (user, true))

/-- A user who has just been created is signed in. -/
def signInCreated (user : Profile) (created : Bool) : Handler (Option (Text × Int)) :=
  if created then do
    let token ← Program.perform .generateAuthToken
    let now ← Program.perform .now
    let expiresAt := now + days policy.sessionTimeoutDays
    ask (.createSession user.id (functions.hashToken token) expiresAt)
    return some (token, expiresAt)
  else .done none

def invitationAccept (body : AcceptInvitation) : Handler Reply := do
  let token ← require (present body.token) (missing "token")
  let found ← ask (.invitationByTokenHash (functions.hashToken token))
  let invitation ← require found invalidInvitation
  let now ← Program.perform .now
  demand (invitation.acceptedAt = none && now ≤ invitation.expiresAt) invalidInvitation
  let (user, created) ← invitedUser policy invitation body
  ask (.upsertMembership invitation.organizationId user.id invitation.role)
  ask (.markInvitationAccepted invitation.id)
  audit (some user.id) (some user.emailAddress) "invitation.accepted"
  let session ← signInCreated functions policy user created
  return .accepted user created session

/-- `password_reset_request`, for an account that is not deactivated. -/
def passwordResetRequest (emailAddress : Option Text) : Handler Reply := do
  let email ← require (present emailAddress) (missing "email_address")
  .send (.userByEmail email) (fun
    | .ok (some user) => do
        let token ← Program.perform .generateAuthToken
        let now ← Program.perform .now
        let _ ← Program.perform (.createPasswordReset user.id (functions.hashToken token)
          (now + hours policy.passwordResetExpiryHours))
        audit (some user.id) (some email) "password.reset_request"
        return .resetRequested
    | _ => .done .resetRequested)

/-- `password_reset_complete`, up to the redeemed token. -/
def passwordResetComplete (token : Option Text) : Handler Reply := do
  let token ← require (present token) (missing "token")
  let now ← Program.perform .now
  let consumed ← ask (.consumePasswordReset (functions.hashToken token) now)
  let _ ← require consumed (invalidToken "The reset token is invalid or has expired")
  return .redeemed

/-- Whether `sender_addresses_create` takes an address. -/
def isSenderAddress (email : Text) : Bool :=
  '@' ∈ email ∧ email.head? ≠ some '@' ∧ email.getLast? ≠ some '@'

def senderAddressesCreate (serverId : Id) (emailAddress : Option Text) : Handler Reply := do
  let email ← require
    (present (emailAddress.map (fun email => functions.toLowercase (Str.trim email))))
    (missing "email")
  demand (isSenderAddress email) (validationError "Email address is invalid")
  let token ← Program.perform .generateAuthToken
  let address ← ask (.createSenderAddress ⟨serverId, email, functions.hashToken token⟩)
  return .senderAddress address token

def senderAddressConfirm (token : Option Text) : Handler Reply := do
  let token ← require (present token) (missing "token")
  let confirmed ← ask (.confirmSenderAddress (functions.hashToken token))
  let address ← require confirmed
    (invalidToken "The confirmation token is invalid or has already been used")
  return .confirmed address.emailAddress

/-- The key under which a flow stores the state of a drawn token. -/
def startKey : Flow → Text → Text
  | .enterprise, token => token
  | .social provider, token => stateKey provider token
  | .tenant connection, token => tenantKey connection token

/-- The key under which a callback looks for the state it is given. -/
def callbackKey : Flow → Text → Text
  | .enterprise, state => state
  | .social provider, state => stateKey provider state
  | .tenant _, state => state

/-- The state that `oidc_start`, `sso_start` and `org_start` store. -/
def loginStart (flow : Flow) : Handler Reply := do
  let token ← Program.perform .generateAuthToken
  let nonce ← Program.perform .generateAuthToken
  let pkceVerifier ← Program.perform .generateAuthToken
  let now ← Program.perform .now
  ask (.createOidcState (startKey flow token) pkceVerifier nonce (now + stateTtl))
  return .started (startKey flow token)

/-- What the callbacks of these redeem. -/
def loginCallback (flow : Flow) (state : Text) : Handler Reply := do
  let now ← Program.perform .now
  let consumed ← ask (.consumeOidcState (callbackKey flow state) now)
  let _ ← require consumed
    (LoginStates.ssoError "the login state is invalid or has expired")
  return .redeemed

/-- The key of the state of a ceremony. -/
def ceremonyKey : Ceremony → Text → Text
  | .registration, challenge => "reg:" ++ challenge
  | .login, challenge => "login:" ++ challenge

/-- The state that `register_start` and `login_start` store. -/
def ceremonyStart (ceremony : Ceremony) (userId : Id) : Handler Reply := do
  let challenge ← Program.perform .startCeremony
  let now ← Program.perform .now
  ask (.createWebauthnState (ceremonyKey ceremony challenge) (some userId) (now + minutes 5))
  return .started (ceremonyKey ceremony challenge)

/-- The answer to a ceremony without a state. -/
def invalidCeremony : Ceremony → ApiError
  | .registration => ⟨422, "WebAuthnError",
      "the registration challenge is invalid or has expired"⟩
  | .login => ⟨401, "InvalidCredentials", "The passkey could not be verified"⟩

/-- What `register_finish` and `login_finish` redeem. -/
def ceremonyFinish (ceremony : Ceremony) (challenge : Text) : Handler Reply := do
  let now ← Program.perform .now
  let consumed ← ask (.consumeWebauthnState (ceremonyKey ceremony challenge) now)
  let _ ← require consumed.join (invalidCeremony ceremony)
  return .redeemed

/-- The identifier of a SAML request, of the installation or of a connection. -/
def samlRequestId : Option Id → Text → Text
  | none, token => '_' :: token
  | some connection, token => "_c" ++ decimal connection ++ '.' :: token

/-- The request that `saml_start` and `saml_org_start` store. -/
def samlStart (connection : Option Id) : Handler Reply := do
  let token ← Program.perform .generateAuthToken
  let now ← Program.perform .now
  ask (.createSamlRequest (samlRequestId connection token) (now + stateTtl))
  return .started (samlRequestId connection token)

/-- What `saml_acs` and `org_acs` redeem, once the response has been validated. -/
def samlAcs (inResponseTo : Text) : Handler Reply := do
  let now ← Program.perform .now
  let outstanding ← ask (.consumeSamlRequest inResponseTo now)
  demand outstanding
    (LoginStates.ssoError "the login request is unknown, already used, or has expired")
  return .redeemed

def handler : Call → Handler Reply
  | .invitationsCreate permalink isOwner principal emailAddress role =>
      invitationsCreate functions policy permalink isOwner principal emailAddress role
  | .invitationsDestroy permalink invitationId => invitationsDestroy permalink invitationId
  | .invitationAccept body => invitationAccept functions policy body
  | .passwordResetRequest emailAddress => passwordResetRequest functions policy emailAddress
  | .passwordResetComplete token => passwordResetComplete functions token
  | .senderAddressesCreate serverId emailAddress =>
      senderAddressesCreate functions serverId emailAddress
  | .senderAddressConfirm token => senderAddressConfirm functions token
  | .loginStart flow => loginStart flow
  | .loginCallback flow state => loginCallback flow state
  | .ceremonyStart ceremony userId => ceremonyStart ceremony userId
  | .ceremonyFinish ceremony challenge => ceremonyFinish ceremony challenge
  | .samlStart connection => samlStart connection
  | .samlAcs inResponseTo => samlAcs inResponseTo

end Requests

/-- What happens beside the requests: time passes, users, memberships and organizations change,
and rows that nobody redeems are purged. -/
inductive Outside where
  | wait (duration : Nat)
  | users (rows : List Profile)
  | memberships (rows : List Membership)
  | organizations (rows : List (Text × Id))
  | purge (kept : Text → Bool)

def disturb (outside : Outside) (tables : Tables) : Tables :=
  match outside with
  | .wait duration => { tables with clock := tables.clock + duration }
  | .users rows => { tables with users := rows }
  | .memberships rows => { tables with memberships := rows }
  | .organizations rows => { tables with organizations := rows }
  | .purge kept =>
      { tables with
        senderAddresses := tables.senderAddresses.filter
          (fun row => row.verificationTokenHash.all kept)
        passwordResets := tables.passwordResets.filter (fun row => kept row.key)
        oidcStates := tables.oidcStates.filter (fun row => kept row.key)
        webauthnStates := tables.webauthnStates.filter (fun row => kept row.key)
        samlRequests := tables.samlRequests.filter (fun row => kept row.key) }

/-- The requests over their store. -/
def service (functions : Functions) (policy : Policy) :
    Service Tables Call Choice Outside Command ApiError Reply where
  handler := handler functions policy
  execute choice _ command tables := some (respond choice command tables)
  disturb outside tables := some (disturb outside tables)

abbrev Requesting := Requests.State Tables Call Command ApiError Reply

abbrev TokenAction := Requests.Action Call Choice Outside

abbrev TokenStep := Event Tables Call Choice Outside Command ApiError Reply

end Camelmailer.Api.SingleUse
