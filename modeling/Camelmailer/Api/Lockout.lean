import Camelmailer.Api.AuthApi

/-!
# The lock after failed sign-ins

A sign-in reads the number of failed attempts at its start and writes it back, one higher,
after a verification has failed. What limits guessing is counted along a run: the
verifications that have failed since the last sign-in, the last reset or the last lock.

A failed verification counts only once it has been written back, and what is written is one
more than what has been read. The count is kept as long as the login state of an account does
not rise between the time a sign-in reads it and the time it verifies a secret, and no other
failed verification is waiting to be written back at that time.
-/

namespace Camelmailer.Api.AuthApi.Lockout

open Utf8 Db Requests

/-! ## What is counted -/

def isReset : Call → Bool
  | .passwordResetComplete _ => true
  | _ => false

theorem isReset_login {call : Call} (login : isLogin call = true) : isReset call = false := by
  cases call <;> first
    | rfl
    | cases login

/-- The user whose password or code a command verifies. -/
def verifies {β : Type} : Command β → Option Id
  | .verifyPassword userId _ _ => some userId
  | .verifyTotp userId _ _ _ => some userId
  | _ => none

/-- Whether a verification for a user has failed. -/
def failed (userId : Id) (entry : Answered Command) : Bool :=
  match entry with
  | ⟨.verifyPassword id _ _, valid⟩ => id = userId && !valid
  | ⟨.verifyTotp id _ _ _, valid⟩ => id = userId && !valid
  | _ => false

/-- Whether a login state of a user has been sent to the store. -/
def recorded (userId : Id) (entry : Answered Command) : Bool :=
  match entry with
  | ⟨.setLoginState id _ _ _, _⟩ => id = userId
  | _ => false

/-- The failed verifications since the last sign-in, reset or lock, and the end of the last
lock that no sign-in or reset has lifted. -/
structure Guesses where
  failures : Nat
  lockedUntil : Option Int
deriving DecidableEq

/-- A login state that has been written. One that is neither a lock, nor of a sign-in, nor of
a reset leaves the count as it is. -/
def settle (call : Call) (lockedUntil lastLoginAt : Option Int) (guesses : Guesses) : Guesses :=
  match lockedUntil with
  | some time => ⟨0, some time⟩
  | none => if lastLoginAt.isSome || isReset call then ⟨0, none⟩ else guesses

/-- The count after an answer. -/
def count (userId : Id) (guesses : Guesses) (call : Call) (entry : Answered Command) : Guesses :=
  if isLogin call && failed userId entry then
    { guesses with failures := guesses.failures + 1 }
  else
    match entry with
    | ⟨.setLoginState id _ lockedUntil lastLoginAt, .ok ()⟩ =>
        if id = userId then settle call lockedUntil lastLoginAt guesses else guesses
    | _ => guesses

/-! ## The condition -/

/-- A sign-in whose verification has failed and has not been written back. -/
def unrecorded (userId : Id) (request : Request Call Command ApiError Reply) : Bool :=
  isLogin request.call && request.history.any (failed userId) &&
    !request.history.any (recorded userId)

/-- Since a row has been read, no failed attempt and no lock has been written. -/
def Current (stored read : UserAuth) : Prop :=
  stored.failedLoginAttempts ≤ read.failedLoginAttempts ∧
    (stored.lockedUntil = none ∨ stored.lockedUntil = read.lockedUntil)

instance (stored read : UserAuth) : Decidable (Current stored read) :=
  inferInstanceAs (Decidable (_ ∧ _))

/-- The user whose login state a command writes. -/
def records {β : Type} : Command β → Option Id
  | .setLoginState userId _ _ _ => some userId
  | _ => none

/-- A sign-in that verifies a secret does so on the present login state, with no failed
verification left to be written back and the number of attempts below its last value. What it
writes back after a failed verification is stored. -/
def Undisturbed (due : Due Tables Call Choice Command ApiError Reply) : Prop :=
  isLogin due.request.call = true →
    (∀ userId ∈ verifies due.command,
      (∀ read ∈ readAuth userId due.request.history,
        Current (due.state.tables.userAuth userId) read ∧
          read.failedLoginAttempts + 1 < 2 ^ 32) ∧
      ∀ request ∈ due.state.requests, unrecorded userId request = false) ∧
    ∀ userId ∈ records due.command,
      unrecorded userId due.request = true → due.choice.fault = none

instance : DecidablePred Undisturbed := fun due =>
  inferInstanceAs (Decidable (isLogin due.request.call = true → _ ∧ _))

/-! ## What a sign-in promises -/

/-- A lock that has passed. -/
def Expired (time : Int) (lockedUntil : Option Int) : Prop := ∀ lock ∈ lockedUntil, lock ≤ time

/-- What a sign-in has learned before it verifies anything: a row whose lock has passed. -/
structure Ready (userId : Id) (history : List (Answered Command)) (read : UserAuth) (now : Int) :
    Prop where
  learned : readAuth userId history = some read
  looked : (⟨.now, now⟩ : Answered Command) ∈ history
  unlocked : Expired now read.lockedUntil
  unfailed : history.any (failed userId) = false
  unrecorded : history.any (recorded userId) = false

/-- The login states that are written. -/
inductive Records (policy : Policy) (call : Call) (history : List (Answered Command))
    (userId : Id) : Nat → Option Int → Option Int → Prop where
  | failure {read : UserAuth} {now : Int} (login : isLogin call = true)
      (learned : readAuth userId history = some read)
      (looked : (⟨.now, now⟩ : Answered Command) ∈ history)
      (failed : history.any (failed userId) = true)
      (unrecorded : history.any (recorded userId) = false) :
      Records policy call history userId (attemptsAfter read) (lockAfter policy read now) none
  | success {now : Int} (login : isLogin call = true)
      (unfailed : history.any (failed userId) = false) :
      Records policy call history userId 0 none (some now)
  | reset (reset : isReset call = true) : Records policy call history userId 0 none none

def Bound (policy : Policy) (call : Call) (history : List (Answered Command)) (β : Type)
    (command : Command β) : Prop :=
  (isLogin call = true → ∀ userId ∈ verifies command, ∃ read now,
    Ready userId history read now) ∧
  match command with
  | .setLoginState userId attempts lockedUntil lastLoginAt =>
      Records policy call history userId attempts lockedUntil lastLoginAt
  | _ => True

section Promises

variable {crypto : Crypto} {policy : Policy}

theorem routine_bound (policy : Policy) (call : Call) (history : List (Answered Command)) (β : Type)
    (command : Command β) (routine : isRoutine command = true) :
    Bound policy call history β command := by
  refine ⟨fun _ userId own => ?_, ?_⟩
  · cases command <;> first
      | (cases own; done)
      | cases routine
  · cases command <;> trivial

variable {history : List (Answered Command)}

/-- What the other endpoints verify is not counted. -/
theorem other_bound {call : Call} (other : isLogin call = false) {β : Type} {command : Command β}
    (writes : records command = none) : Bound policy call history β command := by
  refine ⟨fun login => ?_, ?_⟩
  · rw [other] at login
    cases login
  · cases command <;> trivial

/-- The end of a sign-in without a failed verification. -/
theorem signIn_bound {body : LoginBody} {user : Profile} {email : Text} {now : Int}
    (unfailed : history.any (failed user.id) = false) :
    Program.Safe (Bound policy (.login body)) Any (do
      ask (.setLoginState user.id 0 none (some now))
      let issued ← issueSession crypto policy user
      audit (some user.id) (some email) "login.success"
      return Reply.signedIn issued.1 issued.2.expiresAt user) history := by
  have routine := routine_bound policy (.login body)
  refine ask_safe ⟨fun _ _ none => (by cases none), .success rfl unfailed⟩ (fun _ => trivial) ?_
  intro _
  apply issueSession_safe routine
  · intro token time
    exact ⟨fun _ _ none => (by cases none), trivial⟩
  · intro history issued
    exact audit_safe routine (fun _ => trivial)

theorem login_bound {body : LoginBody} :
    Program.Safe (Bound policy (.login body)) Any (login crypto policy body) [] := by
  have routine := routine_bound policy (.login body)
  have verifying {history β} {command : Command β} {userId : Id} {row : UserAuth} {now : Int}
      (verified : verifies command = some userId) (ready : Ready userId history row now) :
      Bound policy (.login body) history β command := by
    refine ⟨fun _ other own => ?_, ?_⟩
    · obtain rfl := Option.some.inj (verified.symm.trans own)
      exact ⟨row, now, ready⟩
    · cases command <;> trivial
  apply require_safe (fun _ => trivial)
  intro email _
  apply require_safe (fun _ => trivial)
  intro password _
  apply findLogin_safe routine
  intro user
  apply ask_safe (routine _ _ _ rfl) (fun _ => trivial)
  intro found
  apply require_safe (fun _ => trivial)
  rintro row rfl
  apply checkActive_safe routine
  intro _
  apply perform_safe (routine _ _ _ rfl)
  intro now
  apply checkLock_safe routine
  intro unlocked
  have expired : Expired now row.lockedUntil := by
    intro lock member
    rw [Option.mem_def.mp member] at unlocked
    simpa using unlocked
  have ready : Ready user.id
      ([] ++ [⟨.userByEmail email, .ok (some user)⟩] ++ [⟨.userAuth user.id, .ok (some row)⟩] ++
        [⟨.now, now⟩]) row now :=
    ⟨readAuth_kept (readAuth_read rfl row) _, by simp, expired, rfl, rfl⟩
  apply checkPassword_safe routine
  · exact verifying rfl ready
  · refine ⟨fun _ _ none => (by cases none), ?_⟩
    exact .failure rfl (readAuth_kept ready.learned _) (List.mem_append_left _ ready.looked)
      (by simp [failed]) rfl
  · have verified : Ready user.id _ row now :=
      ⟨readAuth_kept ready.learned ⟨.verifyPassword user.id password row.passwordDigest, true⟩,
        List.mem_append_left _ ready.looked, expired, by simp [failed], rfl⟩
    apply checkTotp_safe routine
    · intro _
      exact signIn_bound verified.unfailed
    · intro code
      exact verifying rfl verified
    · intro code
      refine ⟨fun _ _ none => (by cases none), ?_⟩
      exact .failure rfl (readAuth_kept verified.learned _)
        (List.mem_append_left _ verified.looked) (by simp [failed]) rfl
    · intro code _
      exact signIn_bound (by simp [failed])

theorem handler_bound (crypto : Crypto) (policy : Policy) (call : Call) :
    Program.Safe (Bound policy call) Any ((service crypto policy).handler call) [] := by
  have routine := routine_bound policy call
  have other (isOther : isLogin call = false) (history : List (Answered Command)) {β : Type}
      (command : Command β) (writes : records command = none) :
      Bound policy call history β command := other_bound isOther writes
  cases call with
  | login body => exact login_bound
  | passwordResetRequest emailAddress => exact passwordResetRequest_safe routine
  | passwordResetComplete body =>
      exact passwordResetComplete_safe routine (fun _ _ => ⟨fun login => (by cases login), .reset rfl⟩)
  | updateMe authorization body => exact updateMe_safe routine
  | changePassword authorization body =>
      exact changePassword_safe routine (fun _ _ _ _ => other rfl _ _ rfl)
        (fun _ _ => other rfl _ _ rfl)
  | totpEnroll authorization => exact totpEnroll_safe routine (fun _ _ _ => other rfl _ _ rfl)
  | totpActivate authorization code =>
      exact totpActivate_safe routine (fun _ _ _ _ _ => other rfl _ _ rfl)
        (fun _ _ _ _ _ _ => other rfl _ _ rfl)
  | totpDisable authorization password =>
      exact totpDisable_safe routine (fun _ _ _ _ => other rfl _ _ rfl)
        (fun _ _ _ _ _ => other rfl _ _ rfl)

end Promises

/-! ## The invariant -/

/-- The login state of a row. -/
def loginState (row : UserAuth) : Nat × Option Int := (row.failedLoginAttempts, row.lockedUntil)

/-- The login state of a user that a command has written. -/
def written (userId : Id) (entry : Answered Command) : Option (Nat × Option Int) :=
  match entry with
  | ⟨.setLoginState id attempts lockedUntil _, .ok ()⟩ =>
      if id = userId then some (attempts, lockedUntil) else none
  | _ => none

/-- No verification is waiting to be written back but that of one request. -/
def Waiting (userId : Id) (state : Requesting) (waiting : Option Nat) : Prop :=
  ∀ (index : Nat) request, state.requests[index]? = some request →
    unrecorded userId request = decide (waiting = some index)

/-- The count is bounded by the stored number of attempts, and is zero once that has reached the
limit. -/
def Counted (limit attempts failures : Nat) : Prop :=
  (attempts < limit ∧ failures ≤ attempts) ∨ (limit ≤ attempts ∧ failures = 0)

/-- The count is bounded by what is about to be written back. -/
def Owed (limit read failures : Nat) : Prop :=
  failures ≤ limit ∧ (read + 1 < limit → failures ≤ read + 1)

/-- How the count stands to the stored number of attempts, or to the number that the request
has read whose failed verification is waiting. -/
def Standing (policy : Policy) (userId : Id) (guesses : Guesses) (state : Requesting) :
    Option Nat → Prop
  | none => Counted policy.maxLoginAttempts (loginState (state.tables.userAuth userId)).1 guesses.failures
  | some index => ∃ request read, state.requests[index]? = some request ∧
      readAuth userId request.history = some read ∧ read.failedLoginAttempts + 1 < 2 ^ 32 ∧
      Owed policy.maxLoginAttempts read.failedLoginAttempts guesses.failures ∧
      Expired state.tables.clock guesses.lockedUntil

structure Inv (policy : Policy) (userId : Id) (guesses : Guesses) (state : Requesting) : Prop where
  /-- No request has seen a later time than the present one. -/
  past : ∀ request ∈ state.requests, ∀ now, (⟨.now, now⟩ : Answered Command) ∈ request.history →
    now ≤ state.tables.clock
  /-- A lock that has not passed is stored. -/
  locked : ∀ lock ∈ guesses.lockedUntil,
    lock ≤ state.tables.clock ∨ (loginState (state.tables.userAuth userId)).2 = some lock
  standing : ∃ waiting, Waiting userId state waiting ∧
    Standing policy userId guesses state waiting

section Steps

variable {crypto : Crypto} {policy : Policy} {userId : Id} {guesses : Guesses} {state : Requesting}
  {index : Nat} {request : Request Call Command ApiError Reply} {tables : Tables} {β : Type}
  {command : Command β} {answer : β} {next : β → Handler Reply}

/-- A login state changes only when it is written. -/
theorem loginState_after (entry : Answered Command) (rows : Id → UserAuth) (userId : Id) :
    loginState (authAfter entry rows userId) =
      (written userId entry).getD (loginState (rows userId)) := by
  obtain ⟨command, answer⟩ := entry
  cases command <;> first
    | rfl
    | skip
  all_goals
    cases answer with
    | error error => rfl
    | ok value =>
        simp only [authAfter, written, Function.update_apply]
        split_ifs <;> simp_all [loginState]

/-- A request waits after an answer if it waited before or has just failed, unless its login
state has now been sent. -/
theorem unrecorded_continued (program : Handler Reply) :
    unrecorded userId (request.continued command answer program) =
      (isLogin request.call &&
        (request.history.any (failed userId) || failed userId ⟨command, answer⟩) &&
        !(request.history.any (recorded userId) || recorded userId ⟨command, answer⟩)) := by
  simp [unrecorded, Request.continued]

variable {program : Handler Reply}

theorem Waiting.continued {before after : Option Nat} (waits : Waiting userId state before)
    (own : unrecorded userId (request.continued command answer program) =
      decide (after = some index))
    (others : ∀ other, other ≠ index → (after = some other ↔ before = some other)) :
    Waiting userId ({ state with tables := tables }.put index
      (request.continued command answer program)) after := by
  intro other there present
  obtain ⟨rfl, rfl⟩ | ⟨different, unchanged⟩ := State.put_cases present
  · exact own
  · rw [waits other there unchanged]
    simp only [others other different]

/-- A request is still there after an answer to another one. -/
theorem put_other {other : Nat} {there program : _} (different : other ≠ index)
    (present : state.requests[other]? = some there) :
    ({ state with tables := tables }.put index
      (request.continued command answer program)).requests[other]? = some there := by
  rw [Requests.State.put, List.getElem?_set_ne (Ne.symm different)]
  exact present

variable {choice : Choice}

/-- Times are seen as they are. -/
theorem Inv.past_continued (inv : Inv policy userId guesses state)
    (found : state.requests[index]? = some request)
    (responds : respond crypto choice command state.tables = (answer, tables))
    (program : Handler Reply) :
    ∀ other ∈ ({ state with tables := tables }.put index
        (request.continued command answer program)).requests,
      ∀ now, (⟨.now, now⟩ : Answered Command) ∈ other.history → now ≤ tables.clock := by
  intro other member now seen
  rw [(respond_auth responds).2]
  obtain ⟨place, present⟩ := List.mem_iff_getElem?.mp member
  obtain ⟨rfl, rfl⟩ | ⟨-, unchanged⟩ := State.put_cases present
  · rcases List.mem_append.mp seen with old | new
    · exact inv.past request (List.mem_of_getElem? found) now old
    · cases List.mem_singleton.mp new
      have same : (state.tables.clock, state.tables) = (now, tables) := responds
      exact le_of_eq (congrArg Prod.fst same).symm
  · exact inv.past other (List.mem_of_getElem? unchanged) now seen

/-- An answer that neither counts nor is written. -/
theorem Inv.quiet (inv : Inv policy userId guesses state)
    (found : state.requests[index]? = some request)
    (responds : respond crypto choice command state.tables = (answer, tables))
    (program : Handler Reply) (unwritten : written userId ⟨command, answer⟩ = none)
    (same : unrecorded userId (request.continued command answer program) =
      unrecorded userId request) :
    Inv policy userId guesses ({ state with tables := tables }.put index
      (request.continued command answer program)) := by
  obtain ⟨rows, clock⟩ := respond_auth responds
  have unchanged : loginState (tables.userAuth userId) =
      loginState (state.tables.userAuth userId) := by
    rw [rows, loginState_after, unwritten, Option.getD_none]
  obtain ⟨waiting, waits, stands⟩ := inv.standing
  refine ⟨inv.past_continued found responds program, ?_, waiting, ?_, ?_⟩
  · intro lock member
    change lock ≤ tables.clock ∨ (loginState (tables.userAuth userId)).2 = some lock
    rw [clock, unchanged]
    exact inv.locked lock member
  · apply waits.continued
    · rw [same, waits index request found]
    · intro other _
      exact Iff.rfl
  · cases waiting with
    | none =>
        change Counted _ (loginState (tables.userAuth userId)).1 _
        rw [unchanged]
        exact stands
    | some waiting =>
        obtain ⟨there, read, present, learned, room, owed, expired⟩ := stands
        by_cases own : waiting = index
        · subst own
          obtain rfl := Option.some.inj (present.symm.trans found)
          exact ⟨_, read, State.put_self found, readAuth_kept learned _, room, owed,
            clock ▸ expired⟩
        · exact ⟨there, read, put_other own present, learned, room, owed, clock ▸ expired⟩

variable {attempts : Nat}

theorem Counted.fail {limit read failures : Nat} (positive : 0 < limit)
    (counted : Counted limit attempts failures) (current : attempts ≤ read) :
    Owed limit read (failures + 1) := by
  unfold Counted at counted
  unfold Owed
  omega

theorem Owed.record {limit read failures : Nat} (owed : Owed limit read failures)
    (below : ¬ limit ≤ read + 1) : Counted limit (read + 1) failures := by
  unfold Owed at owed
  unfold Counted
  omega

theorem Counted.zero (limit attempts : Nat) : Counted limit attempts 0 := by
  unfold Counted
  omega

theorem Owed.zero (limit read : Nat) : Owed limit read 0 := by
  unfold Owed
  omega

variable {now : Int} {read : UserAuth}

/-- When a sign-in verifies a secret on the present login state, no lock is in force. -/
theorem Inv.unlocked (inv : Inv policy userId guesses state)
    (found : state.requests[index]? = some request) (ready : Ready userId request.history read now)
    (current : Current (state.tables.userAuth userId) read) :
    Expired state.tables.clock guesses.lockedUntil := by
  intro lock member
  rcases inv.locked lock member with passed | stored
  · exact passed
  · rcases current.2 with none | same
    · rw [loginState, none] at stored
      cases stored
    · have seen := inv.past request (List.mem_of_getElem? found) now ready.looked
      exact le_trans (ready.unlocked lock (same.symm.trans stored)) seen

/-- A verification of a sign-in fails. -/
theorem Inv.fail (inv : Inv policy userId guesses state) (positive : 0 < policy.maxLoginAttempts)
    (found : state.requests[index]? = some request)
    (responds : respond crypto choice command state.tables = (answer, tables))
    (program : Handler Reply) (login : isLogin request.call = true)
    (fails : failed userId ⟨command, answer⟩ = true) (ready : Ready userId request.history read now)
    (current : Current (state.tables.userAuth userId) read)
    (room : read.failedLoginAttempts + 1 < 2 ^ 32)
    (alone : ∀ request ∈ state.requests, unrecorded userId request = false) :
    Inv policy userId { guesses with failures := guesses.failures + 1 }
      ({ state with tables := tables }.put index (request.continued command answer program)) := by
  obtain ⟨-, clock⟩ := respond_auth responds
  have unsent : recorded userId ⟨command, answer⟩ = false := by
    cases command <;> first
      | rfl
      | cases fails
  obtain ⟨waiting, waits, stands⟩ := inv.standing
  have nobody : waiting = none := by
    cases waiting with
    | none => rfl
    | some other =>
        obtain ⟨there, -, present, -⟩ := stands
        have waits_on := waits other there present
        rw [alone there (List.mem_of_getElem? present)] at waits_on
        simp at waits_on
  subst nobody
  have expired := inv.unlocked found ready current
  refine ⟨inv.past_continued found responds program, ?_, some index, ?_, ?_⟩
  · intro lock member
    exact .inl (le_of_le_of_eq (expired lock member) clock.symm)
  · apply waits.continued
    · rw [unrecorded_continued, login, fails, ready.unrecorded, unsent]
      simp
    · intro other different
      simp [Ne.symm different]
  · exact ⟨_, read, State.put_self found, readAuth_kept ready.learned _, room,
      Counted.fail positive stands current.1, clock ▸ expired⟩

/-- A failed verification is written back. -/
theorem Inv.record (inv : Inv policy userId guesses state)
    (found : state.requests[index]? = some request) (responds : respond crypto choice
      (.setLoginState userId (attemptsAfter read) (lockAfter policy read now) none) state.tables =
      (.ok (), tables)) (login : isLogin request.call = true)
    (learned : readAuth userId request.history = some read)
    (waits_on : unrecorded userId request = true) :
    Inv policy userId (settle request.call (lockAfter policy read now) none guesses)
      ({ state with tables := tables }.put index (request.continued
        (.setLoginState userId (attemptsAfter read) (lockAfter policy read now) none) (.ok ())
        program)) := by
  obtain ⟨rows, clock⟩ := respond_auth responds
  have stored : loginState (tables.userAuth userId) =
      (attemptsAfter read, lockAfter policy read now) := by
    rw [rows, loginState_after]
    simp [written]
  obtain ⟨waiting, waits, stands⟩ := inv.standing
  have own : waiting = some index := by
    have := waits index request found
    rw [waits_on] at this
    exact of_decide_eq_true this.symm
  subst own
  obtain ⟨there, row, present, read_row, room, owed, expired⟩ := stands
  obtain rfl := Option.some.inj (present.symm.trans found)
  obtain rfl := Option.some.inj (read_row.symm.trans learned)
  have attempts : attemptsAfter row = row.failedLoginAttempts + 1 := Nat.mod_eq_of_lt room
  have waits_after : Waiting userId ({ state with tables := tables }.put index
      (there.continued (.setLoginState userId (attemptsAfter row) (lockAfter policy row now) none)
        (.ok ()) program)) none := by
    apply waits.continued
    · rw [unrecorded_continued]
      simp [recorded]
    · intro other different
      simp [Ne.symm different]
  have past := inv.past_continued found responds program
  by_cases reached : policy.maxLoginAttempts ≤ attemptsAfter row
  · have locks : lockAfter policy row now = some (now + minutes policy.lockoutMinutes) :=
      if_pos reached
    refine ⟨past, ?_, none, waits_after, ?_⟩
    · intro lock member
      rw [locks] at member stored
      right
      exact (congrArg Prod.snd stored).trans member
    · rw [locks]
      exact Counted.zero _ _
  · have unlocked : lockAfter policy row now = none := if_neg reached
    have unsettled : settle there.call (lockAfter policy row now) none guesses = guesses := by
      rw [unlocked, settle]
      simp [isReset_login login]
    rw [unsettled]
    refine ⟨past, ?_, none, waits_after, ?_⟩
    · intro lock member
      exact .inl (le_of_le_of_eq (expired lock member) clock.symm)
    · change Counted _ (loginState (tables.userAuth userId)).1 _
      rw [stored, attempts]
      exact owed.record (attempts ▸ reached)

variable {lastLoginAt : Option Int}

/-- A sign-in or a reset clears the login state. -/
theorem Inv.clear (inv : Inv policy userId guesses state)
    (found : state.requests[index]? = some request)
    (responds : respond crypto choice (.setLoginState userId 0 none lastLoginAt) state.tables =
      (.ok (), tables)) (idle : unrecorded userId request = false) :
    Inv policy userId ⟨0, none⟩ ({ state with tables := tables }.put index
      (request.continued (.setLoginState userId 0 none lastLoginAt) (.ok ()) program)) := by
  obtain ⟨waiting, waits, stands⟩ := inv.standing
  have elsewhere : waiting ≠ some index := by
    have := waits index request found
    rw [idle] at this
    exact of_decide_eq_false this.symm
  refine ⟨inv.past_continued found responds program, ?_, waiting, ?_, ?_⟩
  · intro lock member
    cases member
  · apply waits.continued
    · rw [unrecorded_continued]
      simp [recorded, elsewhere]
    · intro other _
      exact Iff.rfl
  · cases waiting with
    | none => exact Counted.zero _ _
    | some other =>
        obtain ⟨there, read, present, learned, room, -, -⟩ := stands
        have different : other ≠ index := fun same => elsewhere (congrArg some same)
        refine ⟨there, read, put_other different present, learned, room, Owed.zero _ _, ?_⟩
        intro lock member
        cases member

theorem verifies_failed (fails : failed userId ⟨command, answer⟩ = true) :
    verifies command = some userId := by
  cases command <;> first
    | cases fails
    | (simp only [failed, Bool.and_eq_true, decide_eq_true_eq] at fails
       exact congrArg some fails.1)

variable {entry : Answered Command}

theorem recorded_cases (sent : recorded userId entry = true) :
    ∃ attempts lockedUntil lastLoginAt answer,
      entry = ⟨.setLoginState userId attempts lockedUntil lastLoginAt, answer⟩ := by
  obtain ⟨command, answer⟩ := entry
  cases command <;> first
    | cases sent
    | exact ⟨_, _, _, _, by rw [of_decide_eq_true sent]⟩

variable {call : Call}

/-- What is not sent to the store does not settle the count. -/
theorem count_unsent (uncounted : ¬ (isLogin call && failed userId ⟨command, answer⟩) = true)
    (unsent : ¬ recorded userId ⟨command, answer⟩ = true) :
    count userId guesses call ⟨command, answer⟩ = guesses ∧
      written userId ⟨command, answer⟩ = none := by
  unfold count
  rw [if_neg uncounted]
  cases command <;> first
    | exact ⟨rfl, rfl⟩
    | (have other : _ ≠ userId := fun same => unsent (decide_eq_true same)
       cases answer <;> simp [written, other])

variable {lockedUntil : Option Int}

theorem count_sent :
    count userId guesses call
        ⟨.setLoginState userId attempts lockedUntil lastLoginAt, .ok ()⟩ =
      settle call lockedUntil lastLoginAt guesses := by
  simp [count, failed]

theorem count_unstored {error : StoreError} :
    count userId guesses call
        ⟨.setLoginState userId attempts lockedUntil lastLoginAt, .error error⟩ = guesses := by
  simp [count, failed]

/-- A sign-in or a reset has sent its login state to the store. -/
theorem Inv.cleared (inv : Inv policy userId guesses state)
    (found : state.requests[index]? = some request) {answer : Except StoreError Unit}
    (responds : respond crypto choice (.setLoginState userId 0 none lastLoginAt) state.tables =
      (answer, tables)) (clears : lastLoginAt.isSome = true ∨ isReset request.call = true)
    (idle : isLogin request.call = false ∨ request.history.any (failed userId) = false) :
    Inv policy userId
      (count userId guesses request.call ⟨.setLoginState userId 0 none lastLoginAt, answer⟩)
      ({ state with tables := tables }.put index
        (request.continued (.setLoginState userId 0 none lastLoginAt) answer program)) := by
  have unwaiting : unrecorded userId request = false := by
    rcases idle with other | unfailed
    · simp [unrecorded, other]
    · rw [unrecorded, unfailed, Bool.and_false, Bool.false_and]
  cases answer with
  | ok _ =>
      have settled : settle request.call none lastLoginAt guesses = ⟨0, none⟩ :=
        if_pos (by simpa using clears)
      rw [count_sent, settled]
      exact inv.clear found responds unwaiting
  | error error =>
      rw [count_unstored]
      apply inv.quiet found responds program rfl
      rw [unwaiting, unrecorded_continued]
      simp [recorded]

theorem Inv.opened (inv : Inv policy userId guesses state) (call : Call) :
    Inv policy userId guesses
      { state with requests := state.requests ++ [(service crypto policy).opened call] } := by
  obtain ⟨waiting, waits, stands⟩ := inv.standing
  have kept : ∀ {other : Nat} {there}, state.requests[other]? = some there →
      (state.requests ++ [(service crypto policy).opened call])[other]? = some there := by
    intro other there present
    obtain ⟨bound, -⟩ := List.getElem?_eq_some_iff.mp present
    rw [List.getElem?_append_left bound]
    exact present
  refine ⟨?_, inv.locked, waiting, ?_, ?_⟩
  · intro other member now seen
    rcases List.mem_append.mp member with old | new
    · exact inv.past other old now seen
    · cases List.mem_singleton.mp new
      cases seen
  · intro other there present
    obtain ⟨rfl, rfl⟩ | old := opened_cases present
    · have elsewhere : waiting ≠ some state.requests.length := by
        rintro rfl
        obtain ⟨there, -, present, -⟩ := stands
        simp at present
      have unwaiting : unrecorded userId ((service crypto policy).opened call) = false := by
        simp [unrecorded, Service.opened]
      rw [unwaiting, decide_eq_false elsewhere]
    · exact waits other there old
  · cases waiting with
    | none => exact stands
    | some other =>
        obtain ⟨there, read, present, rest⟩ := stands
        exact ⟨there, read, kept present, rest⟩

/-- Nothing outside writes a login state, and time does not run back. -/
theorem disturb_loginState (outside : Outside) (tables : Tables) (userId : Id) :
    loginState ((disturb outside tables).userAuth userId) =
        loginState (tables.userAuth userId) ∧
      tables.clock ≤ (disturb outside tables).clock := by
  cases outside with
  | wait duration => exact ⟨rfl, by simp [disturb]⟩
  | users rows => exact ⟨rfl, le_refl _⟩
  | sessions rows => exact ⟨rfl, le_refl _⟩
  | setUserDisabled other disabled =>
      refine ⟨?_, le_refl _⟩
      simp only [disturb, Tables.putAuth, Function.update_apply]
      split_ifs with same
      · rw [same]
        rfl
      · rfl

theorem Inv.disturbed (inv : Inv policy userId guesses state) (outside : Outside) :
    Inv policy userId guesses { state with tables := disturb outside state.tables } := by
  obtain ⟨unchanged, later⟩ := disturb_loginState outside state.tables userId
  obtain ⟨waiting, waits, stands⟩ := inv.standing
  refine ⟨?_, ?_, waiting, waits, ?_⟩
  · intro request member now seen
    exact le_trans (inv.past request member now seen) later
  · intro lock member
    rcases inv.locked lock member with passed | stored
    · exact .inl (le_trans passed later)
    · exact .inr ((congrArg Prod.snd unchanged).trans stored)
  · cases waiting with
    | none =>
        change Counted _ (loginState ((disturb outside state.tables).userAuth userId)).1 _
        rw [unchanged]
        exact stands
    | some other =>
        obtain ⟨there, read, present, learned, room, owed, expired⟩ := stands
        exact ⟨there, read, present, learned, room, owed,
          fun lock member => le_trans (expired lock member) later⟩

theorem Inv.booked (crypto : Crypto) (positive : 0 < policy.maxLoginAttempts) (userId : Id) :
    Booked (service crypto policy) (Bound policy) Undisturbed (count userId)
      (Inv policy userId) where
  start _ _ call inv := inv.opened call
  answer := by
    intro guesses state index choice request β command next answer tables inv found promise executed
      undisturbed
    have responds : respond crypto choice command state.tables = (answer, tables) :=
      Option.some.inj executed
    by_cases counted : (isLogin request.call && failed userId ⟨command, answer⟩) = true
    · unfold count
      rw [if_pos counted]
      obtain ⟨login, fails⟩ := Bool.and_eq_true_iff.mp counted
      have verified := verifies_failed fails
      obtain ⟨read, now, ready⟩ := promise.1 login userId verified
      obtain ⟨present, alone⟩ := (undisturbed login).1 userId verified
      obtain ⟨current, room⟩ := present read ready.learned
      exact inv.fail positive found responds _ login fails ready current room alone
    by_cases sent : recorded userId ⟨command, answer⟩ = true
    · obtain ⟨attempts, lockedUntil, lastLoginAt, reply, same⟩ := recorded_cases sent
      cases same
      have records : Records policy request.call request.history userId attempts lockedUntil
          lastLoginAt := promise.2
      cases records with
      | failure login learned looked fails unsent =>
          have waits_on : unrecorded userId request = true := by
            rw [unrecorded, login, fails, unsent]
            rfl
          have stored : choice.fault = none := (undisturbed login).2 userId rfl waits_on
          have replied : reply = .ok () := by
            have first := congrArg Prod.fst responds
            simpa [respond, attempted, stored] using first.symm
          subst replied
          rw [count_sent]
          exact inv.record found responds login learned waits_on
      | success login unfailed => exact inv.cleared found responds (.inl rfl) (.inr unfailed)
      | reset resets =>
          have other : isLogin request.call = false := by
            cases login : isLogin request.call with
            | false => rfl
            | true => cases (isReset_login login).symm.trans resets
          exact inv.cleared found responds (.inr resets) (.inl other)
    · obtain ⟨unchanged, unwritten⟩ := count_unsent counted sent
      rw [unchanged]
      apply inv.quiet found responds _ unwritten
      rw [unrecorded_continued, Bool.eq_false_iff.mpr sent, Bool.or_false]
      cases login : isLogin request.call with
      | false => simp [unrecorded, login]
      | true =>
          have unfailed : failed userId ⟨command, answer⟩ = false := by
            simpa [login] using counted
          rw [unrecorded, unfailed, Bool.or_false, login]
  disturb := by
    intro guesses state outside tables inv disturbed
    obtain rfl := Option.some.inj disturbed
    exact inv.disturbed outside

theorem Inv.bounded (inv : Inv policy userId guesses state) :
    guesses.failures ≤ policy.maxLoginAttempts := by
  obtain ⟨waiting, -, stands⟩ := inv.standing
  cases waiting with
  | none =>
      rcases stands with ⟨below, bounded⟩ | ⟨-, zero⟩
      · exact le_trans bounded (le_of_lt below)
      · rw [zero]
        exact Nat.zero_le _
  | some other =>
      obtain ⟨_, _, _, _, _, owed, _⟩ := stands
      exact owed.1

/-- What is answered in a step, in the terms of the count. -/
theorem Inv.answers (inv : Inv policy userId guesses state)
    (faithful : Faithful (Bound policy) (fun _ => Any) state) {after : Requesting}
    {action : AuthAction} {output : Unit}
    (reaction : (service crypto policy).step state action = some (output, after))
    (undisturbed : Answering Undisturbed ⟨state, action, output, after⟩)
    (answers : answered (⟨state, action, output, after⟩ : AuthStep) = some (call, entry)) :
    (isLogin call = true → verifies entry.command = some userId →
      Expired state.tables.clock guesses.lockedUntil) ∧
    ∀ attempts lock lastLoginAt reply,
      entry = ⟨.setLoginState userId attempts (some lock) lastLoginAt, reply⟩ →
      ∃ now, state.Recorded (fun other seen => other = call ∧ seen = ⟨.now, now⟩) ∧
        lock = now + minutes policy.lockoutMinutes := by
  obtain ⟨call, rfl, rfl⟩ | ⟨index, choice, request, β, command, next, answer, tables, rfl, found,
    sends, executed, rfl⟩ | ⟨outside, tables, rfl, disturbed, rfl⟩ :=
    (service crypto policy).step_cases reaction
  · cases answers
  · have promise := faithful index request found
    rw [sends] at promise
    rw [answered_continued found] at answers
    cases answers
    constructor
    · intro login verified
      obtain ⟨read, now, ready⟩ := promise.1.1 login userId verified
      obtain ⟨present, -⟩ := (undisturbed _ (due_answer found sends) login).1 userId verified
      exact inv.unlocked found ready (present read ready.learned).1
    · rintro attempts lock lastLoginAt reply same
      cases same
      have records : Records policy request.call request.history userId attempts (some lock)
          lastLoginAt := promise.1.2
      generalize locks : some lock = lockedUntil at records
      cases records with
      | failure login learned looked fails unsent =>
          refine ⟨_, ⟨index, request, found, _, looked, rfl, rfl⟩, ?_⟩
          unfold lockAfter at locks
          split_ifs at locks
          exact Option.some.inj locks
      | success => cases locks
      | reset => cases locks
  · cases answers

end Steps

/-- The count over some events. -/
def counted (userId : Id) (tables : Tables) (events : List AuthStep) : Guesses :=
  events.foldl (book (count userId)) ⟨0, (tables.userAuth userId).lockedUntil⟩

def exampleLogin (password : String) : AuthAction :=
  .start (.login { emailAddress := some "a@b.example".toList, password := some password.toList })

/-- Three sign-ins fail one after the other, a fourth one is refused, and a fifth one succeeds
when the lock has passed. -/
def loginsInTurn : List AuthAction :=
  (List.range 3).flatMap (fun index => exampleLogin "wrong" :: answerTimes index 6) ++
    exampleLogin "secret" :: answerTimes 3 4 ++
    [.disturb (.wait 900000000), exampleLogin "secret"] ++ answerTimes 4 9

/-- Four sign-ins overlap: each verifies its password before any of them has written anything
back. -/
def overlappingLogins : List AuthAction :=
  (List.range 4).flatMap (fun index => exampleLogin "wrong" :: answerTimes index 4)

end Camelmailer.Api.AuthApi.Lockout
