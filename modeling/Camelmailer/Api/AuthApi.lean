import Camelmailer.Api.Handler

/-!
# Accounts

The endpoints of an account: sign-in with a password and a second factor, the profile, the
change and the reset of a password, and the second factor itself. Every question to the
store, every look at the clock and every verification of a secret is a step of its own, so
that requests for one account can overtake each other between any two of them.

Hashes are parameters. Nothing is assumed of them, nor of tokens, secrets and digests that
are drawn.
-/

namespace Camelmailer.Api.AuthApi

open Utf8 Db Requests

/-! ## One-time codes -/

/-- The hashes of the crates that the program uses. -/
structure Crypto where
  /-- `auth::verify_password`. -/
  verifyPassword : Text → Text → Bool
  /-- `auth::hash_token`. -/
  hashToken : Text → Text
  /-- HMAC-SHA1, which takes a key of any length and has twenty bytes. -/
  hmacSha1 : Bytes → Bytes → Fin 20 → UInt8

def totpStepSeconds : Nat := 30

def totpDigits : Nat := 6

/-- `BASE32_ALPHABET`. -/
def base32Alphabet : Text := "ABCDEFGHIJKLMNOPQRSTUVWXYZ234567"

/-- The buffer of `base32_decode`, the number of bits in it, and the bytes so far. -/
structure Base32 where
  buffer : Nat
  bits : Nat
  out : Bytes

/-- One character of `base32_decode`. -/
def Base32.push (state : Base32) (byte : UInt8) : Option Base32 :=
  if byte = 61 ∨ byte = 32 then some state
  else
    match base32Alphabet.idxOf? (Char.ofNat byte.toNat).toUpper with
    | none => none
    | some value =>
        let buffer := (state.buffer * 32 + value) % 2 ^ 64
        let bits := state.bits + 5
        if 8 ≤ bits then
          some ⟨buffer, bits - 8, state.out ++ [UInt8.ofNat (buffer / 2 ^ (bits - 8))]⟩
        else some ⟨buffer, bits, state.out⟩

def base32Decode (encoded : Text) : Option Bytes :=
  ((encode encoded).foldlM Base32.push ⟨0, 0, []⟩).map Base32.out

def toBeBytes (value : Nat) : Bytes :=
  (List.range 8).map (fun place => UInt8.ofNat (value / 256 ^ (7 - place)))

/-- A number in decimal with zeros in front. -/
def zeroPadded (width value : Nat) : Text :=
  let digits := (toString value).toList
  List.replicate (width - digits.length) '0' ++ digits

def totpCode (crypto : Crypto) (secretBase32 : Text) (unixTime : Nat) : Option Text :=
  (base32Decode secretBase32).map (fun secret =>
    let digest := crypto.hmacSha1 secret (toBeBytes (unixTime / totpStepSeconds))
    let offset := (digest 19).toNat % 16
    let octet := fun place => (digest (Fin.ofNat 20 (offset + place))).toNat
    let binary := octet 0 % 128 * 2 ^ 24 + octet 1 * 2 ^ 16 + octet 2 * 2 ^ 8 + octet 3
    zeroPadded totpDigits (binary % 10 ^ totpDigits))

/-- The times of the step before, the present one and the one after. -/
def driftedTimes (unixTime : Nat) : List Nat :=
  [unixTime - totpStepSeconds, unixTime, min (unixTime + totpStepSeconds) (2 ^ 64 - 1)]

def verifyTotp (crypto : Crypto) (secretBase32 code : Text) (unixTime : Nat) : Bool :=
  Str.byteLen code = totpDigits ∧
    (driftedTimes unixTime).any (fun time => totpCode crypto secretBase32 time = some code) = true

/-! ## The store -/

/-- A row of `users`. -/
structure Profile extends User where
  uuid : Text
  firstName : Text
  lastName : Text
deriving DecidableEq

/-- `UserAuth`. Times are in microseconds. -/
structure UserAuth where
  passwordDigest : Option Text := none
  totpSecret : Option Text := none
  totpEnabled : Bool := false
  failedLoginAttempts : Nat := 0
  lockedUntil : Option Int := none
  lastLoginAt : Option Int := none
  disabled : Bool := false
deriving DecidableEq

structure NewAuthSession where
  userId : Id
  tokenHash : Text
  expiresAt : Int
deriving DecidableEq

structure AuthSession extends NewAuthSession where
  id : Id
  lastUsedAt : Int
deriving DecidableEq

structure PasswordReset where
  userId : Id
  tokenHash : Text
  expiresAt : Int
deriving DecidableEq

structure AuthEvent where
  userId : Option Id
  emailAddress : Option Text
  event : Text
deriving DecidableEq

/-- The tables, and the time. A user without a row in `user_auth` has the default. -/
structure Tables where
  clock : Int
  users : List Profile
  userAuth : Id → UserAuth
  sessions : List AuthSession
  passwordResets : List PasswordReset
  authEvents : List AuthEvent
  nextId : Id

inductive Command : Type → Type where
  | now : Command Int
  | generateAuthToken : Command Text
  | generateTotpSecret : Command Text
  | hashPassword (password : Text) : Command (Except Text Text)
  | verifyPassword (userId : Id) (password : Text) (digest : Option Text) : Command Bool
  | verifyTotp (userId : Id) (secret code : Text) (unixTime : Nat) : Command Bool
  | userByEmail (email : Text) : Command (Except StoreError (Option Profile))
  | userAuth (userId : Id) : Command (Except StoreError (Option UserAuth))
  | setPasswordDigest (userId : Id) (digest : Text) : Command (Except StoreError Unit)
  | setTotp (userId : Id) (secret : Option Text) (enabled : Bool) :
      Command (Except StoreError Unit)
  | setLoginState (userId : Id) (failedAttempts : Nat) (lockedUntil lastLoginAt : Option Int) :
      Command (Except StoreError Unit)
  | createSession (new : NewAuthSession) : Command (Except StoreError AuthSession)
  | sessionWithUser (tokenHash : Text) :
      Command (Except StoreError (Option (AuthSession × Profile)))
  | touchSession (sessionId : Id) (lastUsedAt expiresAt : Int) : Command (Except StoreError Unit)
  | deleteSessionsForUser (userId : Id) : Command (Except StoreError Nat)
  | updateUser (user : Profile) : Command (Except StoreError Profile)
  | createPasswordReset (reset : PasswordReset) : Command (Except StoreError Unit)
  | consumePasswordReset (tokenHash : Text) (now : Int) : Command (Except StoreError (Option Id))
  | recordAuthEvent (event : AuthEvent) : Command (Except StoreError Unit)

/-- What the tables do not determine: a failure of the store, what is drawn, the digest or the
error of a hash, and which of several users of one address is found. -/
structure Choice where
  fault : Option StoreError := none
  drawn : Text := []
  hashed : Except Text Text := .ok []
  picked : Nat := 0

namespace Tables

variable (tables : Tables)

def userByEmail (email : Text) (picked : Nat) : Option Profile :=
  match tables.users.filter (fun user => Str.eqIgnoreAsciiCase user.emailAddress email) with
  | [] => none
  | first :: others => some ((first :: others).getD picked first)

def userById (id : Id) : Option Profile := tables.users.find? (fun user => user.id = id)

/-- `user_auth`. -/
def readAuth (userId : Id) : Option UserAuth :=
  (tables.userById userId).map (fun _ => tables.userAuth userId)

/-- A write to the row of a user. -/
def putAuth (userId : Id) (row : UserAuth) : Tables :=
  { tables with userAuth := Function.update tables.userAuth userId row }

def setPasswordDigest (userId : Id) (digest : Text) : Tables :=
  tables.putAuth userId { tables.userAuth userId with passwordDigest := some digest }

def setTotp (userId : Id) (secret : Option Text) (enabled : Bool) : Tables :=
  tables.putAuth userId
    { tables.userAuth userId with totpSecret := secret, totpEnabled := enabled }

def setLoginState (userId : Id) (failedAttempts : Nat) (lockedUntil lastLoginAt : Option Int) :
    Tables :=
  tables.putAuth userId
    { tables.userAuth userId with
      failedLoginAttempts := failedAttempts
      lockedUntil := lockedUntil
      lastLoginAt := lastLoginAt.or (tables.userAuth userId).lastLoginAt }

def createSession (new : NewAuthSession) : AuthSession × Tables :=
  let session : AuthSession := { new with id := tables.nextId, lastUsedAt := tables.clock }
  (session, { tables with sessions := session :: tables.sessions, nextId := tables.nextId + 1 })

def sessionWithUser (tokenHash : Text) : Option (AuthSession × Profile) :=
  (tables.sessions.find? (fun session => session.tokenHash = tokenHash)).bind (fun session =>
    (tables.userById session.userId).map (session, ·))

def touchSession (sessionId : Id) (lastUsedAt expiresAt : Int) : Tables :=
  { tables with sessions := tables.sessions.map (fun session =>
      if session.id = sessionId then
        { session with lastUsedAt := lastUsedAt, expiresAt := expiresAt }
      else session) }

def deleteSessionsForUser (userId : Id) : Nat × Tables :=
  let kept := tables.sessions.filter (fun session => session.userId ≠ userId)
  (tables.sessions.length - kept.length, { tables with sessions := kept })

/-- `update_user`, which writes the row of the user whatever it has been. -/
def updateUser (user : Profile) : Tables :=
  { tables with users := user :: tables.users.filter (fun other => other.id ≠ user.id) }

def consumePasswordReset (tokenHash : Text) (now : Int) : Option Id × Tables :=
  let found := tables.passwordResets.find? (fun reset => reset.tokenHash = tokenHash)
  ((found.filter (fun reset => now ≤ reset.expiresAt)).map PasswordReset.userId,
    { tables with passwordResets := found.elim tables.passwordResets tables.passwordResets.erase })

end Tables

/-- The answer to a command. A store that fails has done nothing. -/
def respond (crypto : Crypto) (choice : Choice) {β : Type} (command : Command β)
    (tables : Tables) : β × Tables :=
  match command with
  | .now => (tables.clock, tables)
  | .generateAuthToken => (choice.drawn, tables)
  | .generateTotpSecret => (choice.drawn, tables)
  | .hashPassword _ => (choice.hashed, tables)
  | .verifyPassword _ password digest => (digest.any (crypto.verifyPassword password ·), tables)
  | .verifyTotp _ secret code unixTime => (verifyTotp crypto secret code unixTime, tables)
  | .userByEmail email =>
      attempted choice.fault (.ok (tables.userByEmail email choice.picked, tables)) tables
  | .userAuth userId => attempted choice.fault (.ok (tables.readAuth userId, tables)) tables
  | .setPasswordDigest userId digest =>
      attempted choice.fault (.ok ((), tables.setPasswordDigest userId digest)) tables
  | .setTotp userId secret enabled =>
      attempted choice.fault (.ok ((), tables.setTotp userId secret enabled)) tables
  | .setLoginState userId failedAttempts lockedUntil lastLoginAt =>
      attempted choice.fault
        (.ok ((), tables.setLoginState userId failedAttempts lockedUntil lastLoginAt)) tables
  | .createSession new => attempted choice.fault (.ok (tables.createSession new)) tables
  | .sessionWithUser tokenHash =>
      attempted choice.fault (.ok (tables.sessionWithUser tokenHash, tables)) tables
  | .touchSession sessionId lastUsedAt expiresAt =>
      attempted choice.fault (.ok ((), tables.touchSession sessionId lastUsedAt expiresAt)) tables
  | .deleteSessionsForUser userId =>
      attempted choice.fault (.ok (tables.deleteSessionsForUser userId)) tables
  | .updateUser user => attempted choice.fault (.ok (user, tables.updateUser user)) tables
  | .createPasswordReset reset =>
      attempted choice.fault
        (.ok ((), { tables with passwordResets := tables.passwordResets ++ [reset] })) tables
  | .consumePasswordReset tokenHash now =>
      attempted choice.fault (.ok (tables.consumePasswordReset tokenHash now)) tables
  | .recordAuthEvent event =>
      attempted choice.fault (.ok ((), { tables with authEvents := event :: tables.authEvents }))
        tables

/-- The rows of `user_auth` after an answer. -/
def authAfter (entry : Answered Command) (rows : Id → UserAuth) : Id → UserAuth :=
  match entry with
  | ⟨.setPasswordDigest userId digest, .ok ()⟩ =>
      Function.update rows userId { rows userId with passwordDigest := some digest }
  | ⟨.setTotp userId secret enabled, .ok ()⟩ =>
      Function.update rows userId
        { rows userId with totpSecret := secret, totpEnabled := enabled }
  | ⟨.setLoginState userId failedAttempts lockedUntil lastLoginAt, .ok ()⟩ =>
      Function.update rows userId
        { rows userId with
          failedLoginAttempts := failedAttempts
          lockedUntil := lockedUntil
          lastLoginAt := lastLoginAt.or (rows userId).lastLoginAt }
  | _ => rows

/-- Rows of `user_auth` change only by what is written to them, and no answer takes time. -/
theorem respond_auth {crypto : Crypto} {choice : Choice} {β : Type} {command : Command β}
    {answer : β} {tables after : Tables}
    (responds : respond crypto choice command tables = (answer, after)) :
    after.userAuth = authAfter ⟨command, answer⟩ tables.userAuth ∧ after.clock = tables.clock := by
  cases command <;> first
    | (cases responds; exact ⟨rfl, rfl⟩)
    | (obtain ⟨error, rfl, rfl⟩ | ⟨value, rfl, done⟩ := attempted_cases responds
       · exact ⟨rfl, rfl⟩
       · cases done
         exact ⟨rfl, rfl⟩)

/-! ## The endpoints -/

/-- What the endpoints read of the configuration. -/
structure Policy where
  sessionTimeoutDays : Nat
  maxLoginAttempts : Nat
  lockoutMinutes : Nat
  minimumPasswordLength : Nat
  passwordResetExpiryHours : Nat
  webHostname : Text

structure LoginBody where
  emailAddress : Option Text := none
  password : Option Text := none
  totpCode : Option Text := none
deriving DecidableEq

structure UpdateMe where
  firstName : Option Text := none
  lastName : Option Text := none
deriving DecidableEq

structure ChangePassword where
  currentPassword : Option Text := none
  newPassword : Option Text := none
deriving DecidableEq

structure ResetComplete where
  token : Option Text := none
  newPassword : Option Text := none
deriving DecidableEq

/-- A request, with the value of its `Authorization` header where the endpoint is one for
signed-in users. -/
inductive Call where
  | login (body : LoginBody)
  | passwordResetRequest (emailAddress : Option Text)
  | passwordResetComplete (body : ResetComplete)
  | updateMe (authorization : Option Text) (body : UpdateMe)
  | changePassword (authorization : Option Text) (body : ChangePassword)
  | totpEnroll (authorization : Option Text)
  | totpActivate (authorization : Option Text) (code : Option Text)
  | totpDisable (authorization : Option Text) (password : Option Text)
deriving DecidableEq

def isLogin : Call → Bool
  | .login _ => true
  | _ => false

/-- The data of an answer. -/
inductive Reply where
  | signedIn (sessionToken : Text) (expiresAt : Int) (user : Profile)
  | resetRequested
  | passwordReset
  | profile (user : Profile)
  | passwordChanged (sessionToken : Text) (expiresAt : Int)
  | enrolled (secret otpauthUrl : Text)
  | totpEnabled (enabled : Bool)
deriving DecidableEq

abbrev Handler : Type → Type 1 := Program Command ApiError

def invalidCredentials (message : Text) : ApiError :=
  ⟨401, "InvalidCredentials", message⟩

def incorrectLogin : ApiError :=
  invalidCredentials "The email address or password is incorrect"

def accountDisabled : ApiError :=
  ⟨403, "AccountDisabled", "This account has been deactivated"⟩

def accountLocked : ApiError :=
  ⟨403, "AccountLocked",
    "This account is temporarily locked after repeated failed logins"⟩

def totpRequired : ApiError :=
  ⟨401, "TOTPRequired", "A two-factor authentication code is required"⟩

def invalidTotpCode (status : Nat) : ApiError :=
  ⟨status, "InvalidTOTPCode", "The two-factor authentication code is incorrect"⟩

def invalidResetToken : ApiError :=
  ⟨422, "InvalidToken", "The reset token is invalid or has expired"⟩

def minutes (count : Nat) : Int := count * 60 * 1000000

def hours (count : Nat) : Int := minutes (count * 60)

def days (count : Nat) : Int := hours (count * 24)

/-- `timestamp() as u64`. -/
def unixTime (time : Int) : Nat := (time / 1000000 % 2 ^ 64).toNat

section Endpoints

variable (crypto : Crypto) (policy : Policy) {α : Type}

/-- `audit`, whose failure is ignored. -/
def audit (userId : Option Id) (emailAddress : Option Text) (event : Text) : Handler Unit := do
  let _ ← Program.perform (.recordAuthEvent ⟨userId, emailAddress, event⟩)
  return ()

def issueSession (user : Profile) : Handler (Text × AuthSession) := do
  let token ← Program.perform .generateAuthToken
  let now ← Program.perform .now
  let session ← ask (.createSession
    ⟨user.id, crypto.hashToken token, now + days policy.sessionTimeoutDays⟩)
  return (token, session)

/-- The number of attempts after a failed one. -/
def attemptsAfter (userAuth : UserAuth) : Nat := (userAuth.failedLoginAttempts + 1) % 2 ^ 32

/-- The end of the lock after a failed attempt, if the number of attempts has reached the
limit. -/
def lockAfter (userAuth : UserAuth) (now : Int) : Option Int :=
  if policy.maxLoginAttempts ≤ attemptsAfter userAuth then
    some (now + minutes policy.lockoutMinutes)
  else none

/-- A failed attempt to sign in, which is written back. -/
def loginFailure (user : Profile) (email : Text) (userAuth : UserAuth) (now : Int) (event : Text)
    (error : ApiError) : Handler α := do
  let _ ← Program.perform
    (.setLoginState user.id (attemptsAfter userAuth) (lockAfter policy userAuth now) none)
  audit (some user.id) (some email) event
  .stop error

/-- The password of a sign-in. -/
def checkPassword (user : Profile) (email password : Text) (userAuth : UserAuth) (now : Int) :
    Handler Unit :=
  .send (.verifyPassword user.id password userAuth.passwordDigest) (fun
    | true => .done ()
    | false => loginFailure policy user email userAuth now "login.failure" incorrectLogin)

/-- The code of a sign-in, if the second factor is enabled. -/
def checkTotp (user : Profile) (email : Text) (code : Option Text) (userAuth : UserAuth)
    (now : Int) : Handler Unit :=
  if userAuth.totpEnabled then
    match present code with
    | none => .stop totpRequired
    | some code =>
        .send (.verifyTotp user.id (userAuth.totpSecret.getD []) code (unixTime now)) (fun
          | true => .done ()
          | false => loginFailure policy user email userAuth now "login.totp_failure"
              (invalidTotpCode 401))
  else .done ()

/-- An account that must not be locked. -/
def checkLock (user : Profile) (email : Text) (userAuth : UserAuth) (now : Int) : Handler Unit :=
  if userAuth.lockedUntil.any (now < ·) then do
    audit (some user.id) (some email) "login.locked"
    .stop accountLocked
  else .done ()

/-- An account that must not be deactivated. -/
def checkActive (user : Profile) (email : Text) (userAuth : UserAuth) : Handler Unit :=
  if userAuth.disabled then do
    audit (some user.id) (some email) "login.disabled"
    .stop accountDisabled
  else .done ()

/-- The user who signs in. -/
def findLogin (email : Text) : Handler Profile :=
  .send (.userByEmail email) (fun
    | .error error => .stop (renderStoreError error)
    | .ok (some user) => .done user
    | .ok none => do
        audit none (some email) "login.failure"
        .stop incorrectLogin)

def login (body : LoginBody) : Handler Reply := do
  let email ← require (present body.emailAddress) (missing "email_address")
  let password ← require (present body.password) (missing "password")
  let user ← findLogin email
  let found ← ask (.userAuth user.id)
  let userAuth ← require found incorrectLogin
  checkActive user email userAuth
  let now ← Program.perform .now
  checkLock user email userAuth now
  checkPassword policy user email password userAuth now
  checkTotp policy user email body.totpCode userAuth now
  ask (.setLoginState user.id 0 none (some now))
  let issued ← issueSession crypto policy user
  audit (some user.id) (some email) "login.success"
  return .signedIn issued.1 issued.2.expiresAt user

/-- The token of an `Authorization` header. -/
def bearerToken (authorization : Option Text) : Text :=
  Str.trim ((authorization.bind (Str.stripPrefix "Bearer ")).getD [])

/-- `session_middleware`: the user of a session. -/
def sessionMiddleware (authorization : Option Text) : Handler Profile := do
  let token := bearerToken authorization
  demand (token ≠ []) (unauthorized "Missing Authorization: Bearer session token")
  let found ← ask (.sessionWithUser (crypto.hashToken token))
  let now ← Program.perform .now
  let (session, user) ← require (found.filter (fun pair => now < pair.1.expiresAt))
    (unauthorized "The session token is invalid or has expired")
  let _ ← Program.perform
    (.touchSession session.id now (now + days policy.sessionTimeoutDays))
  return user

def updateMe (authorization : Option Text) (body : UpdateMe) : Handler Reply := do
  let user ← sessionMiddleware crypto policy authorization
  let updated ← ask (.updateUser { user with
    firstName := (present body.firstName).getD user.firstName
    lastName := (present body.lastName).getD user.lastName })
  return .profile updated

/-- A new password, which must not be too short. -/
def newPassword (password : Option Text) : Handler Text := do
  let password ← require (present password) (missing "new_password")
  demand (policy.minimumPasswordLength ≤ Str.byteLen password % 2 ^ 32)
    (validationError ("Password must be at least " ++
      decimal policy.minimumPasswordLength ++ " characters"))
  return password

/-- `hash_password`, whose failure is the answer. -/
def hashPassword (password : Text) : Handler Text :=
  .send (.hashPassword password) (fun
    | .ok digest => .done digest
    | .error error => .stop (renderStoreError (.other error)))

/-- The password of the signed-in user, where one is set. -/
def confirmPassword (userId : Id) (password : Option Text) (userAuth : UserAuth)
    (message : Text) : Handler Unit :=
  match userAuth.passwordDigest, password with
  | none, _ => .done ()
  | some _, none => .stop (invalidCredentials message)
  | some digest, some password => do
      let passwordOk ← Program.perform (.verifyPassword userId password (some digest))
      demand passwordOk (invalidCredentials message)

def changePassword (authorization : Option Text) (body : ChangePassword) : Handler Reply := do
  let user ← sessionMiddleware crypto policy authorization
  let password ← newPassword policy body.newPassword
  let found ← ask (.userAuth user.id)
  let userAuth ← require found (unauthorized "Unknown user")
  confirmPassword user.id body.currentPassword userAuth
    "The current password is incorrect"
  let digest ← hashPassword password
  ask (.setPasswordDigest user.id digest)
  let _ ← Program.perform (.deleteSessionsForUser user.id)
  audit (some user.id) (some user.emailAddress) "password.change"
  let issued ← issueSession crypto policy user
  return .passwordChanged issued.1 issued.2.expiresAt

/-- The token of a reset, which is mailed or logged. -/
def requestReset (user : Profile) (email : Text) : Handler Reply := do
  let token ← Program.perform .generateAuthToken
  let now ← Program.perform .now
  let _ ← Program.perform (.createPasswordReset
    ⟨user.id, crypto.hashToken token, now + hours policy.passwordResetExpiryHours⟩)
  audit (some user.id) (some email) "password.reset_request"
  return .resetRequested

/-- Whether the store says that a user is deactivated. -/
def isDisabled (userId : Id) : Handler Bool := do
  let found ← Program.perform (.userAuth userId)
  return match found with
    | .ok (some userAuth) => userAuth.disabled
    | _ => false

def passwordResetRequest (emailAddress : Option Text) : Handler Reply := do
  let email ← require (present emailAddress) (missing "email_address")
  let found ← Program.perform (.userByEmail email)
  match found with
  | .ok (some user) => do
      let disabled ← isDisabled user.id
      if disabled then return .resetRequested else requestReset crypto policy user email
  | _ => return .resetRequested

def passwordResetComplete (body : ResetComplete) : Handler Reply := do
  let token ← require (present body.token) (missing "token")
  let password ← newPassword policy body.newPassword
  let now ← Program.perform .now
  let consumed ← ask (.consumePasswordReset (crypto.hashToken token) now)
  let userId ← require consumed invalidResetToken
  let disabled ← isDisabled userId
  demand (!disabled) accountDisabled
  let digest ← hashPassword password
  ask (.setPasswordDigest userId digest)
  let _ ← Program.perform (.deleteSessionsForUser userId)
  let _ ← Program.perform (.setLoginState userId 0 none none)
  audit (some userId) none "password.reset_complete"
  return .passwordReset

/-- The characters that `otpauth_url` does not escape. -/
def isUnreserved (byte : UInt8) : Bool :=
  let char := Char.ofNat byte.toNat
  char.isAlphanum || char = '-' || char = '.' || char = '_' || char = '~'

/-- `encode` in `otpauth_url`. -/
def percentEncode (value : Text) : Text :=
  (encode value).flatMap (fun byte =>
    if isUnreserved byte then [Char.ofNat byte.toNat]
    else ['%', (Nat.digitChar (byte.toNat / 16)).toUpper, (Nat.digitChar (byte.toNat % 16)).toUpper])

def otpauthUrl (secretBase32 account issuer : Text) : Text :=
  "otpauth://totp/" ++ percentEncode issuer ++ ':' :: percentEncode account ++
    "?secret=" ++ secretBase32 ++ "&issuer=" ++ percentEncode issuer ++
    "&algorithm=SHA1&digits=6&period=30"

def totpEnroll (authorization : Option Text) : Handler Reply := do
  let user ← sessionMiddleware crypto policy authorization
  let secret ← Program.perform .generateTotpSecret
  ask (.setTotp user.id (some secret) false)
  let issuer := "Camelmailer (" ++ policy.webHostname ++ [')']
  return .enrolled secret (otpauthUrl secret user.emailAddress issuer)

def notEnrolled : ApiError := validationError "TOTP enrollment has not been started"

/-- The secret of an enrolment. Whatever goes wrong, there is none. -/
def enrolledSecret (userId : Id) : Handler Text :=
  .send (.userAuth userId) (fun
    | .ok found => require (found.bind UserAuth.totpSecret) notEnrolled
    | .error _ => .stop notEnrolled)

def totpActivate (authorization code : Option Text) : Handler Reply := do
  let user ← sessionMiddleware crypto policy authorization
  let code ← require (present code) (missing "code")
  let secret ← enrolledSecret user.id
  let now ← Program.perform .now
  let valid ← Program.perform (.verifyTotp user.id secret code (unixTime now))
  demand valid (invalidTotpCode 422)
  ask (.setTotp user.id (some secret) true)
  audit (some user.id) (some user.emailAddress) "totp.activate"
  return .totpEnabled true

def totpDisable (authorization password : Option Text) : Handler Reply := do
  let user ← sessionMiddleware crypto policy authorization
  let found ← ask (.userAuth user.id)
  let userAuth ← require found (validationError "TOTP is not enabled")
  confirmPassword user.id password userAuth "The password is incorrect"
  ask (.setTotp user.id none false)
  audit (some user.id) (some user.emailAddress) "totp.disable"
  return .totpEnabled false

def handler : Call → Handler Reply
  | .login body => login crypto policy body
  | .passwordResetRequest emailAddress => passwordResetRequest crypto policy emailAddress
  | .passwordResetComplete body => passwordResetComplete crypto policy body
  | .updateMe authorization body => updateMe crypto policy authorization body
  | .changePassword authorization body => changePassword crypto policy authorization body
  | .totpEnroll authorization => totpEnroll crypto policy authorization
  | .totpActivate authorization code => totpActivate crypto policy authorization code
  | .totpDisable authorization password => totpDisable crypto policy authorization password

end Endpoints

/-- What happens beside the requests: time passes, users and sessions come and go, and an
account is deactivated or activated. -/
inductive Outside where
  | wait (duration : Nat)
  | users (rows : List Profile)
  | sessions (rows : List AuthSession)
  | setUserDisabled (userId : Id) (disabled : Bool)

def disturb (outside : Outside) (tables : Tables) : Tables :=
  match outside with
  | .wait duration => { tables with clock := tables.clock + duration }
  | .users rows => { tables with users := rows }
  | .sessions rows => { tables with sessions := rows }
  | .setUserDisabled userId disabled =>
      tables.putAuth userId { tables.userAuth userId with disabled := disabled }

/-- The account endpoints over their store. -/
def service (crypto : Crypto) (policy : Policy) :
    Service Tables Call Choice Outside Command ApiError Reply where
  handler := handler crypto policy
  execute choice _ command tables := some (respond crypto choice command tables)
  disturb outside tables := some (disturb outside tables)

abbrev Requesting := Requests.State Tables Call Command ApiError Reply

abbrev AuthAction := Requests.Action Call Choice Outside

abbrev AuthStep := Event Tables Call Choice Outside Command ApiError Reply

/-! ## What a request has read -/

/-- The row of a user that a command has read. -/
def reads (userId : Id) (entry : Answered Command) : Option UserAuth :=
  match entry with
  | ⟨.userAuth id, .ok found⟩ => if id = userId then found else none
  | _ => none

/-- The row of a user that a request has read first. -/
def readAuth (userId : Id) (history : List (Answered Command)) : Option UserAuth :=
  history.findSome? (reads userId)

@[simp] theorem readAuth_nil (userId : Id) : readAuth userId [] = none := rfl

theorem readAuth_append (userId : Id) (history : List (Answered Command))
    (entry : Answered Command) :
    readAuth userId (history ++ [entry]) = (readAuth userId history).or (reads userId entry) := by
  simp [readAuth]

variable {history : List (Answered Command)}

/-- What has been read is not read again. -/
theorem readAuth_kept {userId : Id} {row : UserAuth} (read : readAuth userId history = some row)
    (entry : Answered Command) :
    readAuth userId (history ++ [entry]) = some row := by
  rw [readAuth_append, read, Option.some_or]

theorem readAuth_read {userId : Id} (unread : readAuth userId history = none) (row : UserAuth) :
    readAuth userId (history ++ [⟨.userAuth userId, .ok (some row)⟩]) = some row := by
  rw [readAuth_append, unread]
  simp [reads]

/-- A command that reads no row. -/
theorem readAuth_other {userId : Id} {entry : Answered Command} (other : reads userId entry = none) :
    readAuth userId (history ++ [entry]) = readAuth userId history := by
  rw [readAuth_append, other, Option.or_none]

/-! ## Rules for the parts of the endpoints -/

/-- A command that touches no secret, no second factor and no login state, and opens no
session. -/
def isRoutine {β : Type} : Command β → Bool
  | .verifyPassword .. => false
  | .verifyTotp .. => false
  | .setTotp .. => false
  | .setLoginState .. => false
  | .createSession _ => false
  | _ => true

section Rules

variable {crypto : Crypto} {policy : Policy} {α : Type}
  {Before : List (Answered Command) → ∀ β, Command β → Prop}
  {history : List (Answered Command)} {user : Profile} {email : Text} {row : UserAuth} {now : Int}

/-- The demand on the end of a request that is always met. -/
def Any (_ : List (Answered Command)) (_ : Except ApiError α) : Prop := True

variable (routine : ∀ history β (command : Command β), isRoutine command = true →
    Before history β command)

include routine

variable {next : Unit → Handler α}

theorem audit_safe {userId : Option Id} {emailAddress : Option Text} {event : Text}
    (continues : ∀ history, Program.Safe Before Any (next ()) history) :
    Program.Safe Before Any (audit userId emailAddress event >>= next) history :=
  ⟨routine _ _ _ rfl, fun _ => continues _⟩

theorem issueSession_safe {next : Text × AuthSession → Handler α}
    (creates : ∀ token now,
      Before (history ++ [⟨.generateAuthToken, token⟩] ++ [⟨.now, now⟩]) _ (.createSession
        ⟨user.id, crypto.hashToken token, now + days policy.sessionTimeoutDays⟩))
    (continues : ∀ history issued, Program.Safe Before Any (next issued) history) :
    Program.Safe Before Any (issueSession crypto policy user >>= next) history := by
  refine ⟨routine _ _ _ rfl, fun token => ⟨routine _ _ _ rfl, fun now => ⟨creates token now, ?_⟩⟩⟩
  intro answer
  cases answer with
  | error error => trivial
  | ok session => exact continues _ _

/-- Nothing follows a failed attempt. -/
theorem loginFailure_safe {β : Type} {event : Text} {error : ApiError} {next : β → Handler α}
    (records : Before history _
      (.setLoginState user.id (attemptsAfter row) (lockAfter policy row now) none)) :
    Program.Safe Before Any (loginFailure policy user email row now event error >>= next) history :=
  ⟨records, fun _ => ⟨routine _ _ _ rfl, fun _ => trivial⟩⟩

theorem findLogin_safe {next : Profile → Handler α}
    (continues : ∀ user, Program.Safe Before Any (next user)
      (history ++ [⟨.userByEmail email, .ok (some user)⟩])) :
    Program.Safe Before Any (findLogin email >>= next) history := by
  refine ⟨routine _ _ _ rfl, fun answer => ?_⟩
  match answer with
  | .error error => trivial
  | .ok (some user) => exact continues user
  | .ok none => exact ⟨routine _ _ _ rfl, fun _ => trivial⟩

theorem checkActive_safe
    (continues : row.disabled = false → Program.Safe Before Any (next ()) history) :
    Program.Safe Before Any (checkActive user email row >>= next) history := by
  unfold checkActive
  split_ifs with disabled
  · exact ⟨routine _ _ _ rfl, fun _ => trivial⟩
  · exact continues (by simpa using disabled)

theorem checkLock_safe (continues : row.lockedUntil.any (now < ·) = false →
      Program.Safe Before Any (next ()) history) :
    Program.Safe Before Any (checkLock user email row now >>= next) history := by
  unfold checkLock
  split_ifs with locked
  · exact ⟨routine _ _ _ rfl, fun _ => trivial⟩
  · exact continues (by simpa using locked)

theorem checkPassword_safe {password : Text}
    (verifies : Before history _ (.verifyPassword user.id password row.passwordDigest))
    (records : Before (history ++ [⟨.verifyPassword user.id password row.passwordDigest, false⟩]) _
      (.setLoginState user.id (attemptsAfter row) (lockAfter policy row now) none))
    (continues : Program.Safe Before Any (next ())
      (history ++ [⟨.verifyPassword user.id password row.passwordDigest, true⟩])) :
    Program.Safe Before Any (checkPassword policy user email password row now >>= next)
      history := by
  refine ⟨verifies, fun answer => ?_⟩
  cases answer with
  | true => exact continues
  | false => exact loginFailure_safe routine records

theorem checkTotp_safe {code : Option Text}
    (without : row.totpEnabled = false → Program.Safe Before Any (next ()) history)
    (verifies : ∀ code, Before history _
      (.verifyTotp user.id (row.totpSecret.getD []) code (unixTime now))) (records : ∀ code, Before
      (history ++ [⟨.verifyTotp user.id (row.totpSecret.getD []) code (unixTime now), false⟩]) _
      (.setLoginState user.id (attemptsAfter row) (lockAfter policy row now) none))
    (continues : ∀ given, code = some given → Program.Safe Before Any (next ())
      (history ++ [⟨.verifyTotp user.id (row.totpSecret.getD []) given (unixTime now), true⟩])) :
    Program.Safe Before Any (checkTotp policy user email code row now >>= next) history := by
  unfold checkTotp
  split_ifs with enabled
  · split
    · trivial
    · next given there =>
        obtain ⟨same, -⟩ := Option.filter_eq_some_iff.mp there
        refine ⟨verifies given, fun answer => ?_⟩
        cases answer with
        | true => exact continues given same
        | false => exact loginFailure_safe routine (records given)
  · exact without (by simpa using enabled)

variable {authorization : Option Text}

/-- The middleware reads no row of `user_auth`. -/
theorem sessionMiddleware_safe {next : Profile → Handler α}
    (continues : ∀ history user, (∀ userId, readAuth userId history = none) →
      Program.Safe Before Any (next user) history) :
    Program.Safe Before Any (sessionMiddleware crypto policy authorization >>= next) [] := by
  unfold sessionMiddleware
  simp only [Program.bind_bind]
  apply demand_safe (fun _ => trivial)
  intro _
  apply ask_safe (routine _ _ _ rfl) (fun _ => trivial)
  intro found
  apply perform_safe (routine _ _ _ rfl)
  intro now
  apply require_safe (fun _ => trivial)
  rintro ⟨session, user⟩ _
  refine ⟨routine _ _ _ rfl, fun answer => continues _ user ?_⟩
  intro userId
  rw [readAuth_other rfl, readAuth_other rfl, readAuth_other rfl, readAuth_nil]

omit routine in
theorem newPassword_safe {password : Option Text} {next : Text → Handler α}
    (continues : ∀ password, Program.Safe Before Any (next password) history) :
    Program.Safe Before Any (newPassword policy password >>= next) history := by
  unfold newPassword
  simp only [Program.bind_bind]
  apply require_safe (fun _ => trivial)
  intro given _
  apply demand_safe (fun _ => trivial)
  intro _
  exact continues given

theorem hashPassword_safe {password : Text} {next : Text → Handler α}
    (continues : ∀ history digest, Program.Safe Before Any (next digest) history) :
    Program.Safe Before Any (hashPassword password >>= next) history := by
  refine ⟨routine _ _ _ rfl, fun answer => ?_⟩
  cases answer with
  | ok digest => exact continues _ digest
  | error error => trivial

theorem isDisabled_safe {userId : Id} {next : Bool → Handler α}
    (continues : ∀ history disabled, Program.Safe Before Any (next disabled) history) :
    Program.Safe Before Any (isDisabled userId >>= next) history :=
  ⟨routine _ _ _ rfl, fun _ => continues _ _⟩

omit routine in
/-- A password that is confirmed: none is set, or the one that is given is the one that is
set. -/
theorem confirmPassword_safe {userId : Id} {password : Option Text} {message : Text}
    (without : row.passwordDigest = none → Program.Safe Before Any (next ()) history)
    (verifies : ∀ given digest, Before history _ (.verifyPassword userId given (some digest)))
    (continues : ∀ given digest, password = some given → row.passwordDigest = some digest →
      Program.Safe Before Any (next ())
        (history ++ [⟨.verifyPassword userId given (some digest), true⟩])) :
    Program.Safe Before Any (confirmPassword userId password row message >>= next) history := by
  unfold confirmPassword
  split
  · next unset => exact without unset
  · trivial
  · next digest given set =>
      refine ⟨verifies _ _, fun answer => ?_⟩
      cases answer with
      | false => trivial
      | true => exact continues _ _ rfl set

/-! The endpoints without sign-in -/

theorem passwordResetRequest_safe {emailAddress : Option Text} :
    Program.Safe Before Any (passwordResetRequest crypto policy emailAddress) [] := by
  apply require_safe (fun _ => trivial)
  intro email _
  apply perform_safe (routine _ _ _ rfl)
  intro found
  split
  · apply isDisabled_safe routine
    intro history disabled
    split_ifs
    · trivial
    · apply perform_safe (routine _ _ _ rfl)
      intro token
      apply perform_safe (routine _ _ _ rfl)
      intro now
      apply perform_safe (routine _ _ _ rfl)
      intro _
      exact audit_safe routine (fun _ => trivial)
  · trivial

theorem passwordResetComplete_safe {body : ResetComplete}
    (resets : ∀ history userId, Before history _ (.setLoginState userId 0 none none)) :
    Program.Safe Before Any (passwordResetComplete crypto policy body) [] := by
  apply require_safe (fun _ => trivial)
  intro token _
  apply newPassword_safe
  intro password
  apply perform_safe (routine _ _ _ rfl)
  intro now
  apply ask_safe (routine _ _ _ rfl) (fun _ => trivial)
  intro consumed
  apply require_safe (fun _ => trivial)
  intro userId _
  apply isDisabled_safe routine
  intro history disabled
  apply demand_safe (fun _ => trivial)
  intro _
  apply hashPassword_safe routine
  intro history digest
  apply ask_safe (routine _ _ _ rfl) (fun _ => trivial)
  intro _
  apply perform_safe (routine _ _ _ rfl)
  intro _
  apply perform_safe (resets _ _)
  intro _
  exact audit_safe routine (fun _ => trivial)

theorem updateMe_safe {body : UpdateMe} :
    Program.Safe Before Any (updateMe crypto policy authorization body) [] := by
  apply sessionMiddleware_safe routine
  intro history user _
  apply ask_safe (routine _ _ _ rfl) (fun _ => trivial)
  intro _
  trivial

theorem changePassword_safe {body : ChangePassword} (verifies : ∀ history userId given digest,
      Before history _ (.verifyPassword userId given digest))
    (creates : ∀ history new, Before history _ (.createSession new)) :
    Program.Safe Before Any (changePassword crypto policy authorization body) [] := by
  apply sessionMiddleware_safe routine
  intro history user _
  apply newPassword_safe
  intro password
  apply ask_safe (routine _ _ _ rfl) (fun _ => trivial)
  intro found
  apply require_safe (fun _ => trivial)
  rintro row rfl
  have changes : ∀ history, Program.Safe Before Any (do
      let digest ← hashPassword password
      ask (.setPasswordDigest user.id digest)
      let _ ← Program.perform (.deleteSessionsForUser user.id)
      audit (some user.id) (some user.emailAddress) "password.change"
      let issued ← issueSession crypto policy user
      return Reply.passwordChanged issued.1 issued.2.expiresAt) history := by
    intro history
    apply hashPassword_safe routine
    intro history digest
    apply ask_safe (routine _ _ _ rfl) (fun _ => trivial)
    intro _
    apply perform_safe (routine _ _ _ rfl)
    intro _
    apply audit_safe routine
    intro history
    apply issueSession_safe routine (fun _ _ => creates _ _)
    intro history issued
    trivial
  apply confirmPassword_safe
  · intro _
    exact changes _
  · intro given digest
    exact verifies _ _ _ _
  · intro given digest _ _
    exact changes _

theorem totpEnroll_safe
    (enrolls : ∀ history userId secret, Before history _ (.setTotp userId (some secret) false)) :
    Program.Safe Before Any (totpEnroll crypto policy authorization) [] := by
  apply sessionMiddleware_safe routine
  intro history user _
  apply perform_safe (routine _ _ _ rfl)
  intro secret
  apply ask_safe (enrolls _ _ _) (fun _ => trivial)
  intro _
  trivial

theorem totpActivate_safe {code : Option Text} (verifies : ∀ history userId secret code time,
      Before history _ (.verifyTotp userId secret code time))
    (activates : ∀ history userId row secret, readAuth userId history = some row →
      row.totpSecret = some secret → Before history _ (.setTotp userId (some secret) true)) :
    Program.Safe Before Any (totpActivate crypto policy authorization code) [] := by
  apply sessionMiddleware_safe routine
  intro history user unread
  apply require_safe (fun _ => trivial)
  intro given _
  refine ⟨routine _ _ _ rfl, fun answer => ?_⟩
  match answer with
  | .error error => trivial
  | .ok none => trivial
  | .ok (some row) =>
      apply require_safe (fun _ => trivial)
      intro secret there
      apply perform_safe (routine _ _ _ rfl)
      intro now
      apply perform_safe (verifies _ _ _ _ _)
      intro valid
      apply demand_safe (fun _ => trivial)
      intro _
      have read := readAuth_read (unread user.id) row
      apply ask_safe (activates _ _ row _ (readAuth_kept (readAuth_kept read _) _) there)
        (fun _ => trivial)
      intro _
      exact audit_safe routine (fun _ => trivial)

/-- The second factor is given up by a user without a password, or after the password that
has been read is confirmed. -/
theorem totpDisable_safe {password : Option Text} (verifies : ∀ history userId given digest,
      Before history _ (.verifyPassword userId given digest))
    (disables : ∀ history userId row, readAuth userId history = some row →
      (∀ digest ∈ row.passwordDigest, ∃ given ∈ password,
        (⟨.verifyPassword userId given (some digest), true⟩ : Answered Command) ∈ history) →
      Before history _ (.setTotp userId none false)) :
    Program.Safe Before Any (totpDisable crypto policy authorization password) [] := by
  apply sessionMiddleware_safe routine
  intro history user unread
  apply ask_safe (routine _ _ _ rfl) (fun _ => trivial)
  intro found
  apply require_safe (fun _ => trivial)
  rintro row rfl
  have read := readAuth_read (unread user.id) row
  apply confirmPassword_safe
  · intro unset
    apply ask_safe (disables _ _ row read (fun digest set => ?_)) (fun _ => trivial)
    · intro _
      exact audit_safe routine (fun _ => trivial)
    · rw [unset] at set
      cases set
  · intro given digest
    exact verifies _ _ _ _
  · intro given digest there set
    apply ask_safe (disables _ _ row (readAuth_kept read _) ?_) (fun _ => trivial)
    · intro _
      exact audit_safe routine (fun _ => trivial)
    · intro other own
      obtain rfl := Option.some.inj (set.symm.trans own)
      exact ⟨given, there, by simp⟩

end Rules

/-! ## A small installation -/

def exampleCrypto : Crypto where
  verifyPassword password digest := password = digest
  hashToken token := token
  hmacSha1 _ _ _ := 0

def examplePolicy : Policy where
  sessionTimeoutDays := 14
  maxLoginAttempts := 3
  lockoutMinutes := 15
  minimumPasswordLength := 8
  passwordResetExpiryHours := 24
  webHostname := "mail.example"

def exampleUser : Profile where
  id := 1
  emailAddress := "a@b.example"
  admin := false
  uuid := []
  firstName := []
  lastName := []

/-- One user with a password. -/
def exampleTables : Tables where
  clock := 0
  users := [exampleUser]
  userAuth _ := { passwordDigest := some "secret".toList }
  sessions := []
  passwordResets := []
  authEvents := []
  nextId := 2

/-- Some commands of a request are answered. -/
def answerTimes (index times : Nat) : List AuthAction := List.replicate times (.answer index {})

end Camelmailer.Api.AuthApi
