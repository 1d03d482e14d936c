import Camelmailer.Api.AuthApi

/-!
# The second factor

Once a user has a password and a second factor, the factor should last, with the same secret,
until the user gives the password to `totp_disable`. Three endpoints write it. `totp_disable`
confirms the password that it has read, `totp_activate` writes the secret that it has read,
and `totp_enroll` writes a new secret and turns the factor off without any check.

The factor lasts in every run in which `totp_enroll` is not used by a user who already has one,
and in which the other two and the sign-ins write on the rows that they have read.
-/

namespace Camelmailer.Api.AuthApi.SecondFactor

open Utf8 Db Requests

/-! ## The condition -/

/-- The user whose second factor a command writes, and the secret. -/
def writesTotp {β : Type} : Command β → Option (Id × Option Text)
  | .setTotp userId secret _ => some (userId, secret)
  | _ => none

/-- The user for whom a command opens a session. -/
def opens {β : Type} : Command β → Option Id
  | .createSession new => some new.userId
  | _ => none

/-- A write to the second factor of a user who has a password and a second factor: not by
`totp_enroll`, by `totp_activate` with the secret that is stored, and by `totp_disable` while
the password is the one that it has read. -/
def permitted (request : Request Call Command ApiError Reply) (userId : Id) (secret : Option Text)
    (stored : UserAuth) : Bool :=
  match request.call with
  | .totpEnroll _ => false
  | .totpActivate _ _ => secret = stored.totpSecret
  | .totpDisable _ _ => (readAuth userId request.history).all
      (fun read => read.passwordDigest = stored.passwordDigest)
  | _ => true

/-- Where a user has a password and a second factor, it is written as permitted. Where a user has
a second factor, a sign-in opens a session only while the factor is the one that it has
read. -/
def Guarded (due : Due Tables Call Choice Command ApiError Reply) : Prop :=
  (∀ write ∈ writesTotp due.command,
    (due.state.tables.userAuth write.1).passwordDigest.isSome = true →
    (due.state.tables.userAuth write.1).totpEnabled = true →
    permitted due.request write.1 write.2 (due.state.tables.userAuth write.1) = true) ∧
  ∀ userId ∈ opens due.command, isLogin due.request.call = true →
    (due.state.tables.userAuth userId).totpEnabled = true →
    ∀ read ∈ readAuth userId due.request.history, read.totpEnabled = true ∧
      read.totpSecret = (due.state.tables.userAuth userId).totpSecret

instance : DecidablePred Guarded := fun due =>
  inferInstanceAs (Decidable ((∀ write ∈ writesTotp due.command, _) ∧ _))

/-! ## What the endpoints promise -/

/-- What a request has learned when it writes the second factor of a user. -/
inductive Writes (history : List (Answered Command)) (userId : Id) :
    Call → Option Text → Bool → Prop where
  | enroll {authorization : Option Text} {secret : Text} :
      Writes history userId (.totpEnroll authorization) (some secret) false
  | activate {authorization code : Option Text} {secret : Text} :
      Writes history userId (.totpActivate authorization code) (some secret) true
  | disable {authorization password : Option Text} {read : UserAuth}
      (learned : readAuth userId history = some read)
      (confirmed : ∀ digest ∈ read.passwordDigest, ∃ given ∈ password,
        (⟨.verifyPassword userId given (some digest), true⟩ : Answered Command) ∈ history) :
      Writes history userId (.totpDisable authorization password) none false

/-- A sign-in has read the row of the user, and has verified a code for the secret that it has
read if the second factor was enabled. -/
def SignsIn (history : List (Answered Command)) (userId : Id) (body : LoginBody) : Prop :=
  ∃ read now, readAuth userId history = some read ∧ (⟨.now, now⟩ : Answered Command) ∈ history ∧
    (read.totpEnabled = true → ∃ code ∈ body.totpCode,
      (⟨.verifyTotp userId (read.totpSecret.getD []) code (unixTime now), true⟩ :
        Answered Command) ∈ history)

def Bound (call : Call) (history : List (Answered Command)) (β : Type) (command : Command β) :
    Prop :=
  match command with
  | .setTotp userId secret enabled => Writes history userId call secret enabled
  | .createSession new => ∀ body, call = .login body → SignsIn history new.userId body
  | _ => True

section Promises

variable {crypto : Crypto} {policy : Policy}

theorem routine_bound (call : Call) (history : List (Answered Command)) (β : Type)
    (command : Command β) (routine : isRoutine command = true) :
    Bound call history β command := by
  cases command <;> trivial

/-- The end of a sign-in. -/
theorem signIn_bound {body : LoginBody} {user : Profile} {email : Text} {now : Int}
    {history : List (Answered Command)} (signs : SignsIn history user.id body) :
    Program.Safe (Bound (.login body)) Any (do
      ask (.setLoginState user.id 0 none (some now))
      let issued ← issueSession crypto policy user
      audit (some user.id) (some email) "login.success"
      return Reply.signedIn issued.1 issued.2.expiresAt user) history := by
  have routine := routine_bound (.login body)
  obtain ⟨read, time, learned, looked, verified⟩ := signs
  apply ask_safe trivial (fun _ => trivial)
  intro _
  apply issueSession_safe routine
  · rintro token now _ ⟨⟩
    refine ⟨read, time, readAuth_kept (readAuth_kept (readAuth_kept learned _) _) _, ?_, ?_⟩
    · simp [looked]
    · intro enabled
      obtain ⟨code, given, valid⟩ := verified enabled
      exact ⟨code, given, by simp [valid]⟩
  · intro history issued
    exact audit_safe routine (fun _ => trivial)

theorem login_bound {body : LoginBody} :
    Program.Safe (Bound (.login body)) Any (login crypto policy body) [] := by
  have routine := routine_bound (.login body)
  apply require_safe (fun _ => trivial)
  intro email _
  apply require_safe (fun _ => trivial)
  intro password _
  apply findLogin_safe routine
  intro user
  apply ask_safe (routine _ _ _ rfl) (fun _ => trivial)
  intro found
  apply require_safe (fun _ => trivial)
  rintro row rfl
  apply checkActive_safe routine
  intro _
  apply perform_safe (routine _ _ _ rfl)
  intro now
  apply checkLock_safe routine
  intro _
  apply checkPassword_safe routine
  · trivial
  · trivial
  have learned := readAuth_read
    (rfl : readAuth user.id [⟨.userByEmail email, .ok (some user)⟩] = none) row
  apply checkTotp_safe routine
  · intro unset
    apply signIn_bound
    refine ⟨row, now, readAuth_kept (readAuth_kept learned _) _, by simp, ?_⟩
    intro enabled
    rw [unset] at enabled
    cases enabled
  · intro code
    trivial
  · intro code
    trivial
  · intro code given
    apply signIn_bound
    refine ⟨row, now, readAuth_kept (readAuth_kept (readAuth_kept learned _) _) _, by simp, ?_⟩
    intro _
    exact ⟨code, given, by simp⟩

theorem handler_bound (crypto : Crypto) (policy : Policy) (call : Call) :
    Program.Safe (Bound call) Any ((service crypto policy).handler call) [] := by
  have routine := routine_bound call
  cases call with
  | login body => exact login_bound
  | passwordResetRequest emailAddress => exact passwordResetRequest_safe routine
  | passwordResetComplete body => exact passwordResetComplete_safe routine (fun _ _ => trivial)
  | updateMe authorization body => exact updateMe_safe routine
  | changePassword authorization body =>
      exact changePassword_safe routine (fun _ _ _ _ => trivial) (fun _ _ _ other => by cases other)
  | totpEnroll authorization => exact totpEnroll_safe routine (fun _ _ _ => .enroll)
  | totpActivate authorization code =>
      exact totpActivate_safe routine (fun _ _ _ _ _ => trivial) (fun _ _ _ _ _ _ => .activate)
  | totpDisable authorization password =>
      exact totpDisable_safe routine (fun _ _ _ _ => trivial)
        (fun _ _ _ learned confirmed => .disable learned confirmed)

end Promises

/-! ## Runs -/

/-- The second factor of a row. -/
def factor (row : UserAuth) : Bool × Option Text := (row.totpEnabled, row.totpSecret)

/-- The second factor of a user that a command has written. -/
def written (userId : Id) (entry : Answered Command) : Option (Bool × Option Text) :=
  match entry with
  | ⟨.setTotp id secret enabled, .ok ()⟩ => if id = userId then some (enabled, secret) else none
  | _ => none

/-- A verification says whether the secret is right. -/
def Truthful (crypto : Crypto) (entry : Answered Command) : Prop :=
  match entry with
  | ⟨.verifyPassword _ password digest, valid⟩ =>
      valid = digest.any (crypto.verifyPassword password ·)
  | ⟨.verifyTotp _ secret code time, valid⟩ => valid = verifyTotp crypto secret code time
  | _ => True

/-- All verifications have said so. -/
def Inv (crypto : Crypto) (state : Requesting) : Prop :=
  ∀ request ∈ state.requests, ∀ entry ∈ request.history, Truthful crypto entry

section Runs

variable {crypto : Crypto} {policy : Policy} {userId : Id} {state : Requesting}

/-- A second factor changes only when it is written. -/
theorem factor_after (entry : Answered Command) (rows : Id → UserAuth) (userId : Id) :
    factor (authAfter entry rows userId) = (written userId entry).getD (factor (rows userId)) := by
  obtain ⟨command, answer⟩ := entry
  cases command <;> try rfl
  all_goals
    cases answer with
    | error error => rfl
    | ok value =>
        simp only [authAfter, written, Function.update_apply]
        split_ifs <;> simp_all [factor]

theorem written_cases {entry : Answered Command} {enabled : Bool} {secret : Option Text}
    (writes : written userId entry = some (enabled, secret)) :
    entry = ⟨.setTotp userId secret enabled, .ok ()⟩ := by
  unfold written at writes
  split at writes
  · split_ifs at writes with own
    cases writes
    rw [own]
  · cases writes

variable {choice : Choice}

theorem respond_truthful {β : Type} {command : Command β} {answer : β} {tables after : Tables}
    (responds : respond crypto choice command tables = (answer, after)) :
    Truthful crypto ⟨command, answer⟩ := by
  cases command <;> first
    | trivial
    | exact (congrArg Prod.fst responds).symm

theorem Inv.kept : Kept (service crypto policy) Bound Guarded (Inv crypto) where
  start := by
    intro state call inv request member entry seen
    rcases List.mem_append.mp member with old | new
    · exact inv request old entry seen
    · cases List.mem_singleton.mp new
      cases seen
  answer := by
    intro state index choice request β command next answer tables inv found promise executed _
      other member entry seen
    obtain ⟨place, present⟩ := List.mem_iff_getElem?.mp member
    obtain ⟨rfl, rfl⟩ | ⟨-, unchanged⟩ := State.put_cases present
    · rcases List.mem_append.mp seen with old | new
      · exact inv request (List.mem_of_getElem? found) entry old
      · cases List.mem_singleton.mp new
        exact respond_truthful (Option.some.inj executed)
    · exact inv other (List.mem_of_getElem? unchanged) entry seen
  disturb := by
    intro state outside tables inv _
    exact inv

variable {request : Request Call Command ApiError Reply}

/-- What becomes of a second factor when a command is answered. -/
theorem Inv.lasts (inv : Inv crypto state) {index : Nat} {β : Type} {command : Command β}
    {answer : β} {tables : Tables} (found : state.requests[index]? = some request)
    (promise : Bound request.call request.history β command)
    (responds : respond crypto choice command state.tables = (answer, tables))
    (guarded : Guarded ⟨state, index, choice, request, command⟩) {digest : Text}
    (password : (state.tables.userAuth userId).passwordDigest = some digest)
    (enabled : (state.tables.userAuth userId).totpEnabled = true) :
    factor (tables.userAuth userId) = factor (state.tables.userAuth userId) ∨
    ∃ authorization given, request.call = .totpDisable authorization (some given) ∧
      (⟨command, answer⟩ : Answered Command) = ⟨.setTotp userId none false, .ok ()⟩ ∧
      crypto.verifyPassword given digest = true := by
  rw [(respond_auth responds).1, factor_after]
  cases writes : written userId ⟨command, answer⟩ with
  | none => exact .inl rfl
  | some pair =>
      obtain ⟨turned, secret⟩ := pair
      cases written_cases writes
      have wrote : Writes request.history userId request.call secret turned := promise
      have permit := guarded.1 (userId, secret) rfl (by simp [password]) enabled
      obtain ⟨call, history, program⟩ := request
      cases wrote with
      | enroll => cases permit
      | activate =>
          have same : some _ = (state.tables.userAuth userId).totpSecret := of_decide_eq_true permit
          exact .inl (by simp [factor, enabled, ← same])
      | @disable authorization offered read learned confirmed =>
          right
          have same : read.passwordDigest = some digest := by
            have unchanged : (readAuth userId history).all _ = true := permit
            rw [learned] at unchanged
            exact (of_decide_eq_true unchanged).trans password
          obtain ⟨given, rfl, verified⟩ := confirmed digest same
          have truthful := inv _ (List.mem_of_getElem? found) _ verified
          exact ⟨authorization, given, rfl, rfl, truthful.symm⟩

/-- A sign-in of a user with a second factor has been given a code for it. -/
theorem Inv.verified (inv : Inv crypto state) {index : Nat} {new : NewAuthSession}
    {body : LoginBody} (found : state.requests[index]? = some request)
    (promise : Bound request.call request.history _ (.createSession new))
    (guarded : Guarded ⟨state, index, choice, request, Command.createSession new⟩)
    (login : request.call = .login body)
    (enabled : (state.tables.userAuth new.userId).totpEnabled = true) :
    ∃ code ∈ body.totpCode, ∃ now, (⟨.now, now⟩ : Answered Command) ∈ request.history ∧
      verifyTotp crypto ((state.tables.userAuth new.userId).totpSecret.getD []) code
        (unixTime now) = true := by
  obtain ⟨read, now, learned, looked, verified⟩ := promise body login
  obtain ⟨was, same⟩ := guarded.2 new.userId rfl (by rw [login]; rfl) enabled read learned
  obtain ⟨code, given, valid⟩ := verified was
  have truthful := inv request (List.mem_of_getElem? found) _ valid
  exact ⟨code, given, now, looked, same ▸ truthful.symm⟩

/-- Nothing outside touches a second factor. -/
theorem disturb_factor (outside : Outside) (tables : Tables) (userId : Id) :
    factor ((disturb outside tables).userAuth userId) = factor (tables.userAuth userId) := by
  cases outside with
  | wait duration => rfl
  | users rows => rfl
  | sessions rows => rfl
  | setUserDisabled other disabled =>
      simp only [disturb, Tables.putAuth, Function.update_apply]
      split_ifs with same
      · rw [same]
        rfl
      · rfl

end Runs

/-! ## A session that is used to enrol again -/

/-- A user with a password, a second factor and a session. -/
def factorTables : Tables :=
  { exampleTables with
    userAuth := fun _ => { passwordDigest := some "secret".toList,
                           totpSecret := some "AAAA".toList, totpEnabled := true }
    sessions := [{ userId := 1, tokenHash := ['t'], expiresAt := 1, id := 1, lastUsedAt := 0 }] }

def bearer : Option Text := some "Bearer t".toList

/-- A sign-in with a code, and a `totp_disable` with the password. -/
def signInAndDisable : List AuthAction :=
  .start (.login { emailAddress := some "a@b.example".toList, password := some "secret".toList,
                   totpCode := some "000000".toList }) :: answerTimes 0 10 ++
    .start (.totpDisable bearer (some "secret".toList)) :: answerTimes 1 7

/-- A `totp_enroll` of somebody who has the session. -/
def enrollAgain : List AuthAction := .start (.totpEnroll bearer) :: answerTimes 0 5

end Camelmailer.Api.AuthApi.SecondFactor
