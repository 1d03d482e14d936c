import Camelmailer.Api.Directory

/-!
# Who adds and changes users

Every endpoint that writes a user: registration, the acceptance of an invitation, the endpoints
of the administrator, the profile, SCIM, and the four ways to sign in through an identity
provider. With them the endpoints by which an organization claims and verifies email domains and
keeps its connections.

A sign-in is followed from what its provider says of the person. The exchange with the provider
and the validation of what it answers are questions of their own.
-/

namespace Camelmailer.Api.Directory

open Utf8 Db Requests Paths
open AuthApi (Profile days)
open LoginStates (SsoKind CallbackQuery ssoError namedConnection)
open SingleUse (NewUser NewInvitation Invitation AcceptInvitation invalidInvitation invitedRole)

/-- `auth::hash_token`, the form of a text in messages, and `str::to_lowercase`, which leaves an
`@` alone. -/
structure Functions where
  hashToken : Text → Text
  debug : Text → Text
  toLowercase : Text → Text
  keepsAt : ∀ text, '@' ∈ text → '@' ∈ toLowercase text

/-- What a provider of the installation may do. -/
structure Federation where
  allowedEmailDomains : List Text
  autoProvision : Bool
deriving DecidableEq

/-- What the requests read of the configuration. -/
structure Settings where
  store : StoreKind
  allowRegistration : Bool
  captchaEnabled : Bool
  minimumPasswordLength : Nat
  sessionTimeoutDays : Nat
  invitationExpiryDays : Nat
  emailAddressField : Text
  oidc : Federation
  saml : Federation
  ssoProviders : List (Text × Federation)
  verificationRecordLabel : Text
  verificationValuePrefix : Text

/-! ## The requests -/

structure Registration where
  emailAddress : Option Text := none
  firstName : Option Text := none
  lastName : Option Text := none
  password : Option Text := none
  captchaToken : Option Text := none
deriving DecidableEq

structure CreateUser where
  emailAddress : Option Text := none
  firstName : Option Text := none
  lastName : Option Text := none
  admin : Option Bool := none
  password : Option Text := none
deriving DecidableEq

structure UpdateUser where
  emailAddress : Option Text := none
  firstName : Option Text := none
  lastName : Option Text := none
  admin : Option Bool := none
deriving DecidableEq

structure CreateConnection where
  kind : Text
  name : Text
  enabled : Option Bool := none
  config : Json := .null
  defaultRole : Option Text := none
  autoProvision : Option Bool := none

structure UpdateConnection where
  name : Option Text := none
  enabled : Option Bool := none
  config : Option Json := none
  defaultRole : Option Text := none
  autoProvision : Option Bool := none

/-- A request. The body of a SCIM request is JSON, or the error of its parser. -/
inductive Call where
  | register (body : Registration)
  | invitationsCreate (permalink : Text) (isOwner : Bool) (principal : Option Id)
      (emailAddress role : Option Text)
  | invitationAccept (body : AcceptInvitation)
  | usersCreate (body : CreateUser)
  | usersUpdate (id : Id) (body : UpdateUser)
  | usersDestroy (id : Id)
  | updateMe (authorization firstName lastName : Option Text)
  | scimCreate (body : Except Text Json)
  | scimReplace (id : Text) (body : Except Text Json)
  | scimPatch (id : Text) (body : Except Text Json)
  | scimDelete (id : Text)
  | oidcCallback (query : CallbackQuery)
  | ssoCallback (id : Text) (query : CallbackQuery)
  | samlAcs (response : Text)
  | orgCallback (query : CallbackQuery)
  | orgAcs (relayState samlResponse : Option Text)
  | domainsCreate (permalink domain : Text)
  | domainsVerify (permalink : Text) (id : Id) (force isAdminKey : Bool)
  | domainsDestroy (permalink : Text) (id : Id)
  | connectionsCreate (permalink : Text) (body : CreateConnection)
  | connectionsUpdate (permalink : Text) (id : Id) (body : UpdateConnection)
  | connectionsDestroy (permalink : Text) (id : Id)

/-- The data of an answer. -/
inductive Reply where
  | user (user : Profile)
  | signedIn (sessionToken : Text) (expiresAt : Int) (user : Profile)
  | invited (invitation : Invitation) (inviteToken : Text)
  | accepted (user : Profile) (accountCreated : Bool) (session : Option (Text × Int))
  | resource (user : Profile) (active : Bool)
  | domain (domain : OrgEmailDomain)
  | connection (connection : OrgSsoConnection)
  | deleted

abbrev Handler : Type → Type 1 := Program Command ApiError

section Requests

variable (functions : Functions) (settings : Settings)

/-- The answer of someone who is not a store. -/
def askOther {β : Type} (command : Command (Except ApiError β)) : Handler β :=
  .send command (fun
    | .ok value => .done value
    | .error error => .stop error)

def audit (userId : Option Id) (emailAddress : Option Text) (event : Text) : Handler Unit := do
  let _ ← Program.perform (.recordAuthEvent userId emailAddress event)
  return ()

/-- `create_user`, in the two steps of the store in memory or the one of the database. -/
def createUser (new : NewUser) : Handler (Except StoreError Profile) :=
  match settings.store with
  | .postgres => Program.perform (.createUser new)
  | .memory =>
      .send (.emailTaken new.emailAddress) (fun taken =>
        if taken then .done (.error Tables.emailConflict) else Program.perform (.createUser new))

/-- `create_user`, whose failure is the answer. -/
def created (render : StoreError → ApiError) (new : NewUser) : Handler Profile := do
  let outcome ← createUser settings new
  checked (outcome.mapError render)

/-- `hash_password`. -/
def hashed (password : Text) : Handler Text :=
  .send (.hashPassword password) (fun
    | .ok digest => .done digest
    | .error error => .stop (renderStoreError (.other error)))

def issueSession (user : Profile) : Handler (Text × Int) := do
  let token ← Program.perform .generateToken
  let now ← Program.perform .now
  let expiresAt := now + days settings.sessionTimeoutDays
  ask (.createSession user.id (functions.hashToken token) expiresAt)
  return (token, expiresAt)

def checkLength (password : Text) : Handler Unit :=
  demand (settings.minimumPasswordLength ≤ Str.byteLen password % 2 ^ 32)
    (validationError ("Password must be at least " ++
      decimal settings.minimumPasswordLength ++ " characters"))

def invalidAddress : ApiError := validationError "Email address is invalid"

def checkCaptcha (token : Option Text) : Handler Unit :=
  if settings.captchaEnabled then do
    let token ← require (token.filter (fun token => Str.trim token ≠ []))
      (missing "captcha_token")
    askOther (.verifyCaptcha token)
  else .done ()

def register (body : Registration) : Handler Reply := do
  demand settings.allowRegistration ⟨403, "RegistrationDisabled",
    "Self-registration is disabled on this instance"⟩
  let email ← require (present body.emailAddress) (missing "email_address")
  let firstName ← require (present body.firstName) (missing "first_name")
  let lastName ← require (present body.lastName) (missing "last_name")
  let password ← require (present body.password) (missing "password")
  demand ('@' ∈ email) invalidAddress
  checkLength settings password
  checkCaptcha settings body.captchaToken
  let user ← created settings renderStoreError ⟨email, firstName, lastName, false⟩
  let digest ← hashed password
  ask (.setPasswordDigest user.id digest)
  audit (some user.id) (some user.emailAddress) "registration.success"
  Program.perform (.userRegistered user.id)
  Program.perform (.bootstrapWorkspace user.id)
  let session ← issueSession functions settings user
  return .signedIn session.1 session.2 user

/-! ### Invitations -/

/-- Whether an address is that of a member, as far as the store says. -/
def isMember (organizationId : Id) (email : Text) : Handler Bool :=
  .send (.userByEmail email) (fun
    | .ok (some user) => do
        let found ← Program.perform (.membership organizationId user.id)
        return found.toOption.join.isSome
    | _ => .done false)

def invitationsCreate (permalink : Text) (isOwner : Bool) (principal : Option Id)
    (emailAddress role : Option Text) : Handler Reply := do
  let found ← ask (.organizationByPermalink permalink)
  let organizationId ← require found notFound
  let email ← require ((present emailAddress).filter (fun email => '@' ∈ email))
    (missing "email_address")
  let role ← checked (invitedRole role)
  demand (!(role = .owner) || isOwner) (forbidden "Only owners can grant the owner role")
  let member ← isMember organizationId email
  demand (!member) (validationError "User is already a member of this organization")
  let token ← Program.perform .generateToken
  let now ← Program.perform .now
  let invitation ← ask (.createInvitation ⟨organizationId, email, role, functions.hashToken token,
    principal.getD 0, now + days settings.invitationExpiryDays⟩)
  audit principal (some email) "invitation.created"
  return .invited invitation token

/-- The account that an invitation without a user creates. -/
def createInvited (invitation : Invitation) (body : AcceptInvitation) : Handler Profile := do
  let password ← require (present body.password) (missing "password")
  checkLength settings password
  let user ← created settings renderStoreError
    ⟨invitation.emailAddress, body.firstName.getD [], body.lastName.getD [], false⟩
  let digest ← hashed password
  ask (.setPasswordDigest user.id digest)
  Program.perform (.userRegistered user.id)
  return user

/-- The user of an invitation, and whether it has just been created. -/
def invitedUser (invitation : Invitation) (body : AcceptInvitation) : Handler (Profile × Bool) :=
  .send (.userByEmail invitation.emailAddress) (fun
    | .error error => .stop (renderStoreError error)
    | .ok (some user) => .done (user, false)
    | .ok none => do
        let user ← createInvited settings invitation body
        return (user, true))

/-- A user who has just been created is signed in. -/
def signInCreated (user : Profile) (created : Bool) : Handler (Option (Text × Int)) :=
  if created then do
    let session ← issueSession functions settings user
    return some session
  else .done none

def invitationAccept (body : AcceptInvitation) : Handler Reply := do
  let token ← require (present body.token) (missing "token")
  let found ← ask (.invitationByTokenHash (functions.hashToken token))
  let invitation ← require found invalidInvitation
  let now ← Program.perform .now
  demand (invitation.acceptedAt = none && now ≤ invitation.expiresAt) invalidInvitation
  let (user, created) ← invitedUser settings invitation body
  ask (.upsertMembership invitation.organizationId user.id invitation.role)
  ask (.markInvitationAccepted invitation.id)
  audit (some user.id) (some user.emailAddress) "invitation.accepted"
  let session ← signInCreated functions settings user created
  return .accepted user created session

/-! ### Users -/

/-- The digest of an initial password. -/
def initialDigest (password : Option Text) : Handler (Option Text) :=
  match present password with
  | none => .done none
  | some password => do
      checkLength settings password
      let digest ← hashed password
      return some digest

def usersCreate (body : CreateUser) : Handler Reply := do
  let email ← require (present body.emailAddress) (missing "email_address")
  demand ('@' ∈ email) invalidAddress
  let digest ← initialDigest settings body.password
  let user ← created settings renderStoreError
    ⟨email, body.firstName.getD [], body.lastName.getD [], body.admin.getD false⟩
  match digest with
  | some digest => ask (.setPasswordDigest user.id digest)
  | none => Program.done ()
  Program.perform (.userRegistered user.id)
  return .user user

/-- A user with what `users_update` is given. -/
def UpdateUser.apply (body : UpdateUser) (user : Profile) : Profile :=
  { user with
    emailAddress := body.emailAddress.getD user.emailAddress
    firstName := body.firstName.getD user.firstName
    lastName := body.lastName.getD user.lastName
    admin := body.admin.getD user.admin }

def usersUpdate (id : Id) (body : UpdateUser) : Handler Reply := do
  let found ← ask (.userById id)
  let user ← require found notFound
  let user ← ask (.updateUser (body.apply user))
  return .user user

def usersDestroy (id : Id) : Handler Reply := do
  let found ← ask (.userById id)
  let user ← require found notFound
  let _ ← ask (.deleteUser user.id)
  return .deleted

/-- `update_me`, behind `session_middleware`. -/
def updateMe (authorization firstName lastName : Option Text) : Handler Reply := do
  let user ← askOther (.currentUser authorization)
  let user ← ask (.updateUser { user with
    firstName := (present firstName).getD user.firstName
    lastName := (present lastName).getD user.lastName })
  return .user user

/-! ### SCIM -/

def scimError (status : Nat) (detail : Text) (scimType : Option Text) : ApiError :=
  ⟨status, scimType.getD [], detail⟩

def invalidValue (detail : Text) : ApiError := scimError 400 detail (some "invalidValue".toList)

/-- `store_error` of the SCIM endpoints. -/
def scimStoreError : StoreError → ApiError
  | .conflict message => scimError 409 message (some "uniqueness".toList)
  | .other _ => scimError 500 "An internal error occurred" none

def scimBool : Json → Option Bool
  | .bool flag => some flag
  | .string text =>
      if Str.toAsciiLowercase text = "true" then some true
      else if Str.toAsciiLowercase text = "false" then some false
      else none
  | _ => none

def parseBody (body : Except Text Json) : Except ApiError Json :=
  body.mapError (fun error =>
    scimError 400 ("invalid JSON body: " ++ error) (some "invalidSyntax".toList))

def isActive (userId : Id) : Handler Bool := do
  let row ← askWith scimStoreError (.userAuth userId)
  return !(row.getD false)

def applyActive (user : Profile) (active : Bool) : Handler Unit := do
  let wasActive ← isActive user.id
  if wasActive = active then Program.done ()
  else do
    askWith scimStoreError (.setUserDisabled user.id (!active))
    if active then audit (some user.id) (some user.emailAddress) "scim.reactivate"
    else do
      let _ ← Program.perform (.deleteSessionsForUser user.id)
      audit (some user.id) (some user.emailAddress) "scim.deactivate"

def findUser (id : Text) : Handler Profile := do
  let number ← require (parseNumber id) (scimError 404 "User not found" none)
  let found ← askWith scimStoreError (.userById number)
  require found (scimError 404 "User not found" none)

/-- The name that a resource gives. -/
def nameOf (part : Text) (resource : Json) : Option Text :=
  ((resource.field "name").field part).asStr

/-- The flag of a resource, which is active unless it says otherwise. -/
def activeOf (resource : Json) : Bool := ((resource.get "active").bind scimBool).getD true

/-- A user who is not to be active is deactivated. -/
def deactivated (user : Profile) (active : Bool) : Handler Unit :=
  if active then Program.done () else applyActive user false

/-- `users_create` of SCIM. -/
def scimCreate (body : Except Text Json) : Handler Reply := do
  let body ← checked (parseBody body)
  let userName ← require (present (body.field "userName").asStr)
    (invalidValue "userName is required")
  demand ('@' ∈ userName) (invalidValue "userName must be an email address")
  let known ← askWith scimStoreError (.userByEmail userName)
  demand known.isNone (scimError 409 "A user with this userName already exists"
    (some "uniqueness".toList))
  let user ← created settings scimStoreError
    ⟨userName, (nameOf "givenName" body).getD [], (nameOf "familyName" body).getD [],
      false⟩
  audit (some user.id) (some user.emailAddress) "scim.provision"
  Program.perform (.userRegistered user.id)
  deactivated user (activeOf body)
  return .resource user (activeOf body)

/-- The user that a replacement makes. -/
def replaced (body : Json) (user : Profile) : Except ApiError Profile :=
  let named := { user with
    firstName := (nameOf "givenName" body).getD []
    lastName := (nameOf "familyName" body).getD [] }
  match present (body.field "userName").asStr with
  | none => .ok named
  | some userName =>
      if '@' ∈ userName then .ok { named with emailAddress := userName }
      else .error (invalidValue "userName must be an email address")

/-- `users_replace`. -/
def scimReplace (id : Text) (body : Except Text Json) : Handler Reply := do
  let body ← checked (parseBody body)
  let user ← findUser id
  let user ← checked (replaced body user)
  let user ← askWith scimStoreError (.updateUser user)
  applyActive user (activeOf body)
  return .resource user (activeOf body)

/-- What the operations of a patch have come to. -/
structure Patch where
  user : Profile
  active : Option Bool := none
  changed : Bool := false

namespace Patch

def setUserName (userName : Text) (patch : Patch) : Patch :=
  { patch with user := { patch.user with emailAddress := userName }, changed := true }

def setGivenName (given : Text) (patch : Patch) : Patch :=
  { patch with user := { patch.user with firstName := given }, changed := true }

def setFamilyName (family : Text) (patch : Patch) : Patch :=
  { patch with user := { patch.user with lastName := family }, changed := true }

def setActive (flag : Bool) (patch : Patch) : Patch := { patch with active := some flag }

/-- A value that is set if it is there. -/
def ifPresent {α : Type} (set : α → Patch → Patch) (value : Option α) (patch : Patch) : Patch :=
  match value with
  | some value => set value patch
  | none => patch

/-- A value that has to be there. -/
def ifValid {α : Type} (set : α → Patch → Patch) (value : Option α) (detail : Text)
    (patch : Patch) : Except ApiError Patch :=
  match value with
  | some value => .ok (set value patch)
  | none => .error (invalidValue detail)

/-- An operation without a path, whose value is a resource. -/
def applyResource (value : Json) (patch : Patch) : Except ApiError Patch := do
  let patch ← match value.get "active" with
    | none => .ok patch
    | some flag => ifValid setActive (scimBool flag) "active must be a boolean" patch
  return ifPresent setFamilyName (nameOf "familyName" value)
    (ifPresent setGivenName (nameOf "givenName" value)
      (ifPresent setUserName (value.field "userName").asStr patch))

/-- An operation with a path. -/
def applyPath (debug : Text → Text) (path : Text) (value : Json) (patch : Patch) :
    Except ApiError Patch :=
  if Str.eqIgnoreAsciiCase path "active" then
    ifValid setActive (scimBool value) "active must be a boolean" patch
  else if Str.eqIgnoreAsciiCase path "username" then
    ifValid setUserName value.asStr "userName must be a string" patch
  else if Str.eqIgnoreAsciiCase path "name.givenname" then
    ifValid setGivenName value.asStr "name.givenName must be a string" patch
  else if Str.eqIgnoreAsciiCase path "name.familyname" then
    ifValid setFamilyName value.asStr "name.familyName must be a string" patch
  else .error (scimError 400 ("unsupported PATCH path " ++ debug path)
    (some "invalidPath".toList))

end Patch

def schemaPatch : Text := "urn:ietf:params:scim:api:messages:2.0:PatchOp"

/-- One operation of a patch. -/
def applyOperation (patch : Patch) (operation : Json) : Except ApiError Patch :=
  let op := Str.toAsciiLowercase ((operation.field "op").asStr.getD [])
  if op ≠ "replace" ∧ op ≠ "add" then
    .error (invalidValue ("unsupported PATCH op " ++ functions.debug op ++
      " (only add/replace)"))
  else
    match (operation.field "path").asStr with
    | none => patch.applyResource (operation.field "value")
    | some path => patch.applyPath functions.debug path (operation.field "value")

/-- What a patch makes of a user. -/
def patched (body : Json) (user : Profile) : Except ApiError Patch :=
  let operations := ((body.field "Operations").asArray).getD []
  if operations.isEmpty then
    .error (invalidValue "Operations must be a non-empty array")
  else operations.foldlM (applyOperation functions) { user := user }

/-- The user of a patch, written if it has changed. -/
def writePatched (patch : Patch) : Handler Profile :=
  if patch.changed then askWith scimStoreError (.updateUser patch.user) else Program.done patch.user

/-- The flag of a patch, if it has one. -/
def activatePatched (user : Profile) (active : Option Bool) : Handler Unit :=
  match active with
  | some active => applyActive user active
  | none => Program.done ()

/-- `users_patch`. -/
def scimPatch (id : Text) (body : Except Text Json) : Handler Reply := do
  let body ← checked (parseBody body)
  demand (((body.field "schemas").asArray).any (fun schemas =>
      schemas.any (Json.isString schemaPatch)))
    (invalidValue ("PATCH requires the " ++ schemaPatch ++ " schema"))
  let user ← findUser id
  let patch ← checked (patched functions body user)
  let user ← writePatched patch
  activatePatched user patch.active
  let active ← isActive user.id
  return .resource user active

/-- `users_delete` of SCIM, which deactivates. -/
def scimDelete (id : Text) : Handler Reply := do
  let user ← findUser id
  applyActive user false
  return .deleted

/-! ### Names of people -/

def emailLocalPart (email : Text) : Text :=
  let part := Str.trim (email.takeWhile (fun char => char ≠ '@'))
  if part = [] then "user" else part

/-- The two parts of a combined name. -/
def splitName (name : Text) : Text × Text :=
  match Str.splitOnce ' ' (Str.trim name) with
  | some (first, last) => (Str.trim first, Str.trim last)
  | none => (Str.trim name, [])

def provisionedName (name givenName familyName email : Text) : Text × Text :=
  let (first, last) := splitName name
  (if Str.trim givenName ≠ [] then Str.trim givenName
    else if first ≠ [] then first else emailLocalPart email,
   if Str.trim familyName ≠ [] then Str.trim familyName else last)

/-- The name that a connection takes from the claims. -/
def combinedName (claims : Claims) : Text :=
  if Str.trim claims.name ≠ [] then Str.trim claims.name
  else Str.trim (Str.trim claims.givenName ++ ' ' :: Str.trim claims.familyName)

def shortName (name : Text) : Text := name.rtakeWhile (fun char => char ≠ '/' ∧ char ≠ ':')

def attributeValue (attributes : List (Text × Text)) (candidates : List Text) : Option Text :=
  (attributes.find? (fun (name, value) =>
    value ≠ [] ∧ (name ∈ candidates ∨ shortName name ∈ candidates))).map Prod.snd

def nameIdEmail : Text := "urn:oasis:names:tc:SAML:1.1:nameid-format:emailAddress"

def extractEmail (assertion : Saml.ValidatedAssertion) : Option Text :=
  let named := assertion.nameId.filter (fun value => '@' ∈ value)
  let formatted := if assertion.nameIdFormat = some nameIdEmail then named else none
  let listed := (attributeValue assertion.attributes ["email", "emailaddress",
    "mail", "urn:oid:0.9.2342.19200300.100.1.3"]).filter (fun value => '@' ∈ value)
  (formatted.or (listed.or named)).map functions.toLowercase

/-- The display name of an assertion. -/
def displayName (assertion : Saml.ValidatedAssertion) : Option Text :=
  attributeValue assertion.attributes ["displayname", "cn", "name"]

def extractNames (assertion : Saml.ValidatedAssertion) : Text × Text :=
  let first := attributeValue assertion.attributes
    ["givenname", "firstname", "urn:oid:2.5.4.42"]
  let last := attributeValue assertion.attributes
    ["sn", "surname", "lastname", "urn:oid:2.5.4.4"]
  if first.isSome || last.isSome then (first.getD [], last.getD [])
  else
    let display := (displayName assertion).getD []
    (Str.splitOnce ' ' display).getD (display, [])

/-! ### Sign-ins -/

def accountDisabled : ApiError :=
  ⟨403, "AccountDisabled", "This account has been deactivated"⟩

/-- An account that is disabled is turned away. -/
def ensureEnabled (userId : Id) : Handler Unit := do
  let row ← ask (.userAuth userId)
  demand (!(row.getD false)) accountDisabled

/-- Whether the domain of an address is among those that are allowed, if any are named. -/
def isAllowed (allowed : List Text) (email : Text) : Bool :=
  allowed.isEmpty || allowed.any (fun domain => Str.eqIgnoreAsciiCase domain (domainOf email))

def notAllowed : ApiError := ssoError "this email domain is not allowed to sign in via SSO"

def notProvisioned : ApiError :=
  ssoError "no account exists for this identity and provisioning is disabled"

/-- The code and the state that a callback is given. -/
def givenCode (query : CallbackQuery) : Except ApiError (Text × Text) :=
  match query.error, query.code, query.state with
  | some error, _, _ => .error (ssoError ("the identity provider reported: " ++ error ++
      ' ' :: query.errorDescription.getD []))
  | none, some code, some state => .ok (code, state)
  | _, _, _ => .error (ssoError "missing code or state parameter")

/-- The address of the claims, in lower case. -/
def claimedEmail (claims : Claims) : Text := functions.toLowercase (claims.email.getD [])

/-- The event of a sign-in, and its session. -/
def completeLogin (user : Profile) (event : Text) : Handler Reply := do
  audit (some user.id) (some user.emailAddress) event
  let session ← issueSession functions settings user
  return .signedIn session.1 session.2 user

/-- A user who has not been there is created and registered. -/
def provisioned (new : NewUser) : Handler Profile := do
  let user ← created settings renderStoreError new
  Program.perform (.userRegistered user.id)
  return user

/-- The workspace of a new user, and the event. -/
def welcomed (user : Profile) (event : Text) : Handler Unit := do
  audit (some user.id) (some user.emailAddress) event
  Program.perform (.bootstrapWorkspace user.id)

/-- `oidc::resolve_user`, once no account is linked. -/
def linkOidcUser (claims : Claims) (email : Text) : Handler Profile := do
  demand (email ≠ []) (ssoError ("the ID token has no " ++
    functions.debug settings.emailAddressField ++ " claim"))
  demand (isAllowed settings.oidc.allowedEmailDomains email) notAllowed
  let known ← ask (.userByEmail email)
  match known with
  | some user => do
      ensureEnabled user.id
      ask (.setOidcSub user.id claims.subject)
      return user
  | none => do
      demand settings.oidc.autoProvision notProvisioned
      let (firstName, lastName) :=
        provisionedName claims.name claims.givenName claims.familyName email
      let user ← provisioned settings ⟨email, firstName, lastName, false⟩
      ask (.setOidcSub user.id claims.subject)
      welcomed user "sso.provision"
      return user

/-- `oidc::resolve_user`. -/
def resolveOidcUser (claims : Claims) : Handler Profile := do
  let linked ← ask (.userByOidcSub claims.subject)
  match linked with
  | some user => do
      ensureEnabled user.id
      return user
  | none => linkOidcUser functions settings claims (claimedEmail functions claims)

def oidcCallback (query : CallbackQuery) : Handler Reply := do
  let (code, state) ← checked (givenCode query)
  askOther (.redeem .enterprise state)
  let claims ← askOther (.identify .enterprise code)
  let user ← resolveOidcUser functions settings claims
  completeLogin functions settings user "sso.login"

def emailUnavailable (message : Text) : ApiError := ⟨422, "SSOEmailUnavailable", message⟩

/-- `sso::resolve_user`, once no account is linked. -/
def linkSsoUser (provider : Text) (federation : Federation) (claims : Claims) (email : Text) :
    Handler Profile := do
  demand (email ≠ []) (emailUnavailable "the identity provider supplied no email address")
  demand (isAllowed federation.allowedEmailDomains email) notAllowed
  let known ← ask (.userByEmail email)
  match known with
  | some user => do
      ask (.linkSsoIdentity user.id provider claims.subject)
      return user
  | none => do
      demand federation.autoProvision notProvisioned
      let (firstName, lastName) :=
        provisionedName claims.name claims.givenName claims.familyName email
      let user ← provisioned settings ⟨email, firstName, lastName, false⟩
      ask (.linkSsoIdentity user.id provider claims.subject)
      welcomed user "sso.provision"
      return user

/-- `sso::resolve_user`. -/
def resolveSsoUser (provider : Text) (federation : Federation) (claims : Claims) :
    Handler Profile := do
  let linked ← ask (.userBySsoIdentity provider claims.subject)
  match linked with
  | some user => return user
  | none => linkSsoUser settings provider federation claims (claimedEmail functions claims)

def ssoCallback (id : Text) (query : CallbackQuery) : Handler Reply := do
  let provider ← require (settings.ssoProviders.find? (fun provider => provider.1 = id))
    LoginStates.providerNotFound
  let (code, state) ← checked (givenCode query)
  askOther (.redeem (.social provider.1) state)
  let claims ← askOther (.identify (.social provider.1) code)
  let user ← resolveSsoUser functions settings provider.1 provider.2 claims
  completeLogin functions settings user "sso.login"

/-- A response answers a request of ours, and its assertion is new. -/
def acceptAssertion (assertion : Saml.ValidatedAssertion) : Handler Unit := do
  let outstanding ← ask (.consumeSamlRequest assertion.inResponseTo)
  demand outstanding
    (ssoError "the login request is unknown, already used, or has expired")
  let new ← ask (.registerSamlAssertion assertion.assertionId)
  demand new (ssoError "this assertion has already been used")

def noEmailAddress : ApiError :=
  ssoError "the assertion carries no email address (NameID or email attribute)"

/-- `saml::resolve_user`. -/
def resolveSamlUser (assertion : Saml.ValidatedAssertion) (email : Text) : Handler Profile := do
  demand (isAllowed settings.saml.allowedEmailDomains email) notAllowed
  let known ← ask (.userByEmail email)
  match known with
  | some user => do
      ensureEnabled user.id
      return user
  | none => do
      demand settings.saml.autoProvision notProvisioned
      let (firstName, lastName) := extractNames assertion
      let user ← provisioned settings ⟨email, firstName, lastName, false⟩
      welcomed user "saml.provision"
      return user

def samlAcs (response : Text) : Handler Reply := do
  let assertion ← askOther (.validateResponse .enterprise response)
  acceptAssertion assertion
  let email ← require (extractEmail functions assertion) noEmailAddress
  let user ← resolveSamlUser settings assertion email
  completeLogin functions settings user "saml.login"

/-! ### Sign-ins through a connection of an organization -/

/-- The provider under which the identities of a connection are linked. -/
def connectionProvider (id : Id) : Text := "org-sso-" ++ decimal id

def ensureMembership (organizationId userId : Id) (role : Role) : Handler Unit := do
  let found ← ask (.membership organizationId userId)
  match found with
  | some _ => Program.done ()
  | none => ask (.upsertMembership organizationId userId role)

/-- `resolve_org_user`, once no account has the identity or the address. -/
def provisionOrgUser (connection : OrgSsoConnection) (uid email name : Text) :
    Handler Profile := do
  demand connection.autoProvision (ssoError
    ("no account exists for this identity and provisioning is disabled for this " ++
      "connection").toList)
  let (firstName, lastName) := provisionedName name [] [] email
  let user ← provisioned settings ⟨email, firstName, lastName, false⟩
  ask (.linkSsoIdentity user.id (connectionProvider connection.id) uid)
  ask (.upsertMembership connection.organizationId user.id connection.defaultRole)
  audit (some user.id) (some user.emailAddress) "sso.provision"
  return user

/-- `resolve_org_user`, once no account is linked. -/
def linkOrgUser (connection : OrgSsoConnection) (uid email name : Text) : Handler Profile := do
  let known ← ask (.userByEmail email)
  match known with
  | some user => do
      ensureEnabled user.id
      ask (.linkSsoIdentity user.id (connectionProvider connection.id) uid)
      ensureMembership connection.organizationId user.id connection.defaultRole
      return user
  | none => provisionOrgUser settings connection uid email name

def resolveOrgUser (connection : OrgSsoConnection) (uid email name : Text) : Handler Profile := do
  demand (email ≠ []) (ssoError "the identity provider returned no email address")
  let owner ← ask (.organizationForVerifiedEmailDomain (domainOf email))
  demand (owner = some connection.organizationId)
    (ssoError "this email domain is not verified for the organization")
  let linked ← ask (.userBySsoIdentity (connectionProvider connection.id) uid)
  match linked with
  | some user => do
      ensureEnabled user.id
      ensureMembership connection.organizationId user.id connection.defaultRole
      return user
  | none => linkOrgUser settings connection uid email name

def loadEnabledConnection (id : Id) : Handler OrgSsoConnection := do
  let found ← ask (.orgSsoConnection id)
  require (found.filter (fun connection => connection.enabled))
    (ssoError "this single sign-on connection is not available")

/-- Whether a connection can sign in with a code: `issuer_for` has an issuer for it, or it is one
to GitHub. -/
def takesCode (connection : OrgSsoConnection) : Bool :=
  match connection.kind with
  | .oidc => (present (connection.config.field "issuer").asStr).isSome
  | .google => true
  | .microsoft => true
  | .github => true
  | .saml => false

def orgCallback (query : CallbackQuery) : Handler Reply := do
  let (code, state) ← checked (givenCode query)
  let id ← require (namedConnection state) (ssoError "malformed login state")
  askOther (.redeem (.connection id) state)
  let connection ← loadEnabledConnection id
  demand (takesCode connection)
    (ssoError "this connection type cannot be used for sign-in yet")
  let claims ← askOther (.identify (.connection id) code)
  let user ← resolveOrgUser settings connection claims.subject (claimedEmail functions claims)
    (combinedName claims)
  completeLogin functions settings user "sso.login"

/-- The name that a connection takes from an assertion. -/
def assertedName (assertion : Saml.ValidatedAssertion) : Text :=
  (displayName assertion).getD
    (Str.trim ((attributeValue assertion.attributes ["givenname"]).getD [] ++
      ' ' :: (attributeValue assertion.attributes ["sn", "surname"]).getD []))

def orgAcs (relayState samlResponse : Option Text) : Handler Reply := do
  let id ← require (relayState.bind parseNumber)
    (ssoError "missing or malformed RelayState")
  let connection ← loadEnabledConnection id
  demand (connection.kind = .saml) (ssoError "this connection does not speak SAML")
  let response ← require (present samlResponse)
    (ssoError "missing SAMLResponse parameter")
  let assertion ← askOther (.validateResponse (.connection id) response)
  demand (Str.startsWith assertion.inResponseTo ("_c" ++ decimal connection.id ++ ['.']))
    (ssoError "the response does not answer a login request of this connection")
  acceptAssertion assertion
  let email ← require (extractEmail functions assertion) noEmailAddress
  let uid := (present assertion.nameId).getD email
  let user ← resolveOrgUser settings connection uid email (assertedName assertion)
  completeLogin functions settings user "sso.login"

/-! ### The domains and connections of an organization -/

def requireOrg (permalink : Text) : Handler Id := do
  let found ← ask (.organizationByPermalink permalink)
  require found notFound

/-- A domain of an organization. -/
def requireDomain (organizationId id : Id) : Handler OrgEmailDomain := do
  let found ← ask (.orgEmailDomain id)
  require (found.filter (fun domain => domain.organizationId = organizationId)) notFound

/-- `sso_domains_create`. -/
def domainsCreate (permalink domain : Text) : Handler Reply := do
  let organizationId ← requireOrg permalink
  let token ← Program.perform .generateToken
  let domain ← ask (.createOrgEmailDomain ⟨organizationId, domain, token⟩)
  return .domain domain

/-- What proves the control of a domain. -/
def proveDomain (domain : OrgEmailDomain) : Handler Unit :=
  let recordName := settings.verificationRecordLabel ++ '.' :: domain.domain
  let expected := settings.verificationValuePrefix ++ '=' :: domain.verificationToken
  .send (.txtRecords recordName) (fun
    | .ok records => demand (records.any (fun text => Str.trim text = expected))
        (validationError ("Domain ownership is not proven yet: publish a TXT record at " ++
          recordName ++ " with the value \"" ++ expected ++
          "\", wait for DNS to propagate, then retry"))
    | .error error => .stop (validationError ("Could not check the TXT record at " ++
        recordName ++ ": " ++ error)))

/-- A verification is forced with the machine key only. -/
def proveOrForce (domain : OrgEmailDomain) (force isAdminKey : Bool) : Handler Unit :=
  if force then
    demand isAdminKey
      (forbidden "Forced verification requires the X-Admin-API-Key machine key")
  else proveDomain settings domain

/-- `sso_domains_verify`. -/
def domainsVerify (permalink : Text) (id : Id) (force isAdminKey : Bool) : Handler Reply := do
  let organizationId ← requireOrg permalink
  let domain ← requireDomain organizationId id
  proveOrForce settings domain force isAdminKey
  ask (.markOrgEmailDomainVerified domain.id)
  let refreshed ← Program.perform (.orgEmailDomain domain.id)
  return .domain (refreshed.toOption.join.getD domain)

/-- `sso_domains_destroy`. -/
def domainsDestroy (permalink : Text) (id : Id) : Handler Reply := do
  let organizationId ← requireOrg permalink
  let _ ← requireDomain organizationId id
  let _ ← ask (.deleteOrgEmailDomain id)
  return .deleted

/-- `SsoKind::parse`. -/
def parseKind (value : Text) : Option SsoKind :=
  [("oidc".toList, SsoKind.oidc), ("saml".toList, .saml), ("google".toList, .google),
    ("microsoft", .microsoft), ("github", .github)].lookup value

/-- `SsoKind::as_str`. -/
def kindName : SsoKind → Text
  | .oidc => "oidc"
  | .saml => "saml"
  | .google => "google"
  | .microsoft => "microsoft"
  | .github => "github"

def validateConfig (kind : SsoKind) (config : Json) : Except ApiError Unit :=
  let needed := match kind with
    | .oidc => ["issuer".toList, "client_id".toList]
    | .saml => ["idp_sso_url".toList]
    | _ => ["client_id".toList]
  match needed.find? (fun key => (present (config.field key).asStr).isNone) with
  | some key => .error (validationError
      (kindName kind ++ " requires a non-empty \"".toList ++ key ++ "\"".toList))
  | none => .ok ()

def mask : Text := List.replicate 8 '•'

def secretFields : List Text := ["client_secret", "secret"]

/-- One secret of `merge_secrets`. -/
def mergeSecret (stored fields : List (Text × Json)) (field : Text) : List (Text × Json) :=
  let others := fields.filter (fun entry => entry.1 ≠ field)
  let kept := match fields.find? (fun entry => entry.1 = field) with
    | none => true
    | some (_, .string text) => text = [] || text = mask
    | some _ => false
  if kept then
    match stored.find? (fun entry => entry.1 = field) with
    | some secret => secret :: others
    | none => others
  else fields

def mergeSecrets (incoming stored : Json) : Json :=
  match incoming, stored with
  | .object fields, .object storedFields =>
      .object (secretFields.foldl (mergeSecret storedFields) fields)
  | _, _ => incoming

/-- `parse_role` of a connection. -/
def connectionRole (value : Option Text) : Except ApiError Role :=
  match value with
  | none => .ok .member
  | some raw =>
      match Role.parse raw with
      | some role => .ok role
      | none => .error (validationError ("Unknown role \"" ++ raw ++ "\""))

/-- `sso_connections_create`. -/
def connectionsCreate (permalink : Text) (body : CreateConnection) : Handler Reply := do
  let organizationId ← requireOrg permalink
  let kind ← require (parseKind body.kind)
    (validationError "kind must be one of oidc, saml, google, microsoft, github")
  demand (Str.trim body.name ≠ []) (validationError "name is required")
  let defaultRole ← checked (connectionRole body.defaultRole)
  checked (validateConfig kind body.config)
  let connection ← ask (.createOrgSsoConnection ⟨organizationId, kind, body.name,
    body.enabled.getD true, body.config, defaultRole, body.autoProvision.getD true⟩)
  return .connection connection

def requireConnection (organizationId id : Id) : Handler OrgSsoConnection := do
  let found ← ask (.orgSsoConnection id)
  require (found.filter (fun connection => connection.organizationId = organizationId)) notFound

/-- What `sso_connections_update` makes of its body. -/
def connectionUpdate (body : UpdateConnection) (existing : OrgSsoConnection) :
    Except ApiError OrgSsoConnectionUpdate := do
  let defaultRole ← match body.defaultRole with
    | none => .ok none
    | some raw => (connectionRole (some raw)).map some
  let config ← match body.config with
    | none => .ok none
    | some incoming =>
        (validateConfig existing.kind (mergeSecrets incoming existing.config)).map
          (fun _ => some (mergeSecrets incoming existing.config))
  return { name := body.name, enabled := body.enabled, config := config,
           defaultRole := defaultRole, autoProvision := body.autoProvision }

/-- `sso_connections_update`. -/
def connectionsUpdate (permalink : Text) (id : Id) (body : UpdateConnection) : Handler Reply := do
  let organizationId ← requireOrg permalink
  let existing ← requireConnection organizationId id
  let update ← checked (connectionUpdate body existing)
  let updated ← ask (.updateOrgSsoConnection id update)
  let connection ← require updated notFound
  return .connection connection

/-- `sso_connections_destroy`. -/
def connectionsDestroy (permalink : Text) (id : Id) : Handler Reply := do
  let organizationId ← requireOrg permalink
  let _ ← requireConnection organizationId id
  let _ ← ask (.deleteOrgSsoConnection id)
  return .deleted

def handler : Call → Handler Reply
  | .register body => register functions settings body
  | .invitationsCreate permalink isOwner principal emailAddress role =>
      invitationsCreate functions settings permalink isOwner principal emailAddress role
  | .invitationAccept body => invitationAccept functions settings body
  | .usersCreate body => usersCreate settings body
  | .usersUpdate id body => usersUpdate id body
  | .usersDestroy id => usersDestroy id
  | .updateMe authorization firstName lastName => updateMe authorization firstName lastName
  | .scimCreate body => scimCreate settings body
  | .scimReplace id body => scimReplace id body
  | .scimPatch id body => scimPatch functions id body
  | .scimDelete id => scimDelete id
  | .oidcCallback query => oidcCallback functions settings query
  | .ssoCallback id query => ssoCallback functions settings id query
  | .samlAcs response => samlAcs functions settings response
  | .orgCallback query => orgCallback functions settings query
  | .orgAcs relayState samlResponse => orgAcs functions settings relayState samlResponse
  | .domainsCreate permalink domain => domainsCreate permalink domain
  | .domainsVerify permalink id force isAdminKey =>
      domainsVerify settings permalink id force isAdminKey
  | .domainsDestroy permalink id => domainsDestroy permalink id
  | .connectionsCreate permalink body => connectionsCreate permalink body
  | .connectionsUpdate permalink id body => connectionsUpdate permalink id body
  | .connectionsDestroy permalink id => connectionsDestroy permalink id

end Requests

/-- What happens beside the requests. -/
inductive Outside where
  | organizationDeleted (id : Id)
deriving DecidableEq

/-- The requests over their store. -/
def service (functions : Functions) (settings : Settings) :
    Service Tables Call Choice Outside Command ApiError Reply where
  handler := handler functions settings
  execute choice _ command tables := some (respond settings.store choice command tables)
  disturb outside tables := match outside with
    | .organizationDeleted id => some (tables.deleteOrganization id)

abbrev Requesting := Requests.State Tables Call Command ApiError Reply

abbrev DirectoryAction := Requests.Action Call Choice Outside

abbrev DirectoryStep := Event Tables Call Choice Outside Command ApiError Reply

/-! ## An installation -/

def exampleFunctions : Functions := ⟨id, id, id, fun _ member => member⟩

def exampleSettings : Settings where
  store := .postgres
  allowRegistration := false
  captchaEnabled := false
  minimumPasswordLength := 8
  sessionTimeoutDays := 14
  invitationExpiryDays := 7
  emailAddressField := "email"
  oidc := ⟨[], false⟩
  saml := ⟨[], false⟩
  ssoProviders := []
  verificationRecordLabel := "_camelmailer"
  verificationValuePrefix := "verify"

end Camelmailer.Api.Directory
