import Camelmailer.Api.SingleUse

/-!
# Tokens are used once

What is in a table under a key and what has been redeemed under it are together never more
than one, as long as no token is drawn twice. So the five kinds of tokens that are redeemed by
one statement are used at most once.

An invitation is used at most once, and not after it has been revoked or has expired, as long as
its row is unchanged and unexpired when an acceptance writes, and no other acceptance has
written under it that has not yet marked it.
-/

namespace Camelmailer.Api.SingleUse

open Utf8 Db Requests
open AuthApi (Profile)

/-! ## Keys -/

inductive Kind where
  | invitation
  | passwordReset
  | senderAddress
  | oidcState
  | webauthnState
  | samlRequest
deriving DecidableEq

/-- How many rows of a kind wait to be redeemed under a key. -/
def live (tables : Tables) : Kind → Text → Nat
  | .invitation, key => tables.invitations.countP (fun row => row.tokenHash = key)
  | .passwordReset, key => Keyed.occurrences key tables.passwordResets
  | .senderAddress, key => tables.senderAddresses.countP (SenderAddress.awaits key)
  | .oidcState, key => Keyed.occurrences key tables.oidcStates
  | .webauthnState, key => Keyed.occurrences key tables.webauthnStates
  | .samlRequest, key => Keyed.occurrences key tables.samlRequests

/-- The times at which the rows of a key expire. Sender addresses do not. -/
def expiries (tables : Tables) : Kind → Text → List Int
  | .invitation, key => (tables.invitations.filter (fun row => row.tokenHash = key)).map
      (fun row => row.expiresAt)
  | .passwordReset, key => (tables.passwordResets.filter (fun row => row.key = key)).map
      Keyed.expiresAt
  | .senderAddress, _ => []
  | .oidcState, key => (tables.oidcStates.filter (fun row => row.key = key)).map Keyed.expiresAt
  | .webauthnState, key => (tables.webauthnStates.filter (fun row => row.key = key)).map
      Keyed.expiresAt
  | .samlRequest, key => (tables.samlRequests.filter (fun row => row.key = key)).map
      Keyed.expiresAt

/-- The key that a command stores. -/
def stores {β : Type} : Command β → Option (Kind × Text)
  | .createInvitation new => some (.invitation, new.tokenHash)
  | .createPasswordReset _ tokenHash _ => some (.passwordReset, tokenHash)
  | .createSenderAddress new => some (.senderAddress, new.verificationTokenHash)
  | .createOidcState key _ _ _ => some (.oidcState, key)
  | .createWebauthnState key _ _ => some (.webauthnState, key)
  | .createSamlRequest requestId _ => some (.samlRequest, requestId)
  | _ => none

/-- The key that a command is to redeem, and the time that it takes for the present one. -/
def consumes {β : Type} : Command β → Option (Kind × Text × Int)
  | .consumePasswordReset tokenHash now => some (.passwordReset, tokenHash, now)
  | .consumeOidcState key now => some (.oidcState, key, now)
  | .consumeWebauthnState key now => some (.webauthnState, key, now)
  | .consumeSamlRequest requestId now => some (.samlRequest, requestId, now)
  | _ => none

/-- The key that has been redeemed. -/
def redeems (entry : Answered Command) : Option (Kind × Text) :=
  match entry with
  | ⟨.consumePasswordReset tokenHash _, .ok (some _)⟩ => some (.passwordReset, tokenHash)
  | ⟨.confirmSenderAddress tokenHash, .ok (some _)⟩ => some (.senderAddress, tokenHash)
  | ⟨.consumeOidcState key _, .ok (some _)⟩ => some (.oidcState, key)
  | ⟨.consumeWebauthnState key _, .ok (some _)⟩ => some (.webauthnState, key)
  | ⟨.consumeSamlRequest requestId _, .ok true⟩ => some (.samlRequest, requestId)
  | _ => none

/-- The invitation that has been found. -/
def finds (entry : Answered Command) : Option Invitation :=
  match entry with
  | ⟨.invitationByTokenHash _, .ok found⟩ => found
  | _ => none

/-- Whether an answer shows that a key has been in the store: it has been redeemed or found. -/
def shows (pair : Kind × Text) (entry : Answered Command) : Bool :=
  redeems entry = some pair ||
    (finds entry).any (fun invitation => pair = (.invitation, invitation.tokenHash))

/-! ## Invitations -/

/-- The hash of the token that a request accepts an invitation with. -/
def acceptKey (functions : Functions) : Call → Option Text
  | .invitationAccept body => (present body.token).map functions.hashToken
  | _ => none

/-- The invitation that a request has read. -/
def readInvitation (history : List (Answered Command)) : Option Invitation :=
  history.findSome? finds

/-- What an invitation is used for. -/
inductive Use where
  | account
  | membership
deriving DecidableEq

def useOf {β : Type} : Command β → Option Use
  | .createUser _ => some .account
  | .upsertMembership _ _ _ => some .membership
  | _ => none

/-- The use that has been made. -/
def used (entry : Answered Command) : Option Use :=
  match entry with
  | ⟨.createUser _, .ok _⟩ => some .account
  | ⟨.upsertMembership _ _ _, .ok _⟩ => some .membership
  | _ => none

/-- Whether a use has been made. -/
def wrote (use : Use) (entry : Answered Command) : Bool := used entry = some use

def marked (entry : Answered Command) : Bool :=
  match entry with
  | ⟨.markInvitationAccepted _, .ok _⟩ => true
  | _ => false

/-- An acceptance that has made a use of a token and has not marked the invitation. -/
def unmarked (functions : Functions) (use : Use) (key : Text)
    (request : Request Call Command ApiError Reply) : Bool :=
  acceptKey functions request.call = some key && request.history.any (wrote use) &&
    !request.history.any marked

/-! ## The condition -/

/-- A key that is stored is new. Keys are made from what is drawn at random. -/
def Fresh (due : Due Tables Call Choice Command ApiError Reply) : Prop :=
  ∀ pair ∈ stores due.command, live due.state.tables pair.1 pair.2 = 0 ∧
    ∀ request ∈ due.state.requests, ∀ entry ∈ request.history, shows pair entry = false

/-- No row expires between the time that a request has looked at the clock and the time that it
redeems the row. -/
def InTime (due : Due Tables Call Choice Command ApiError Reply) : Prop :=
  ∀ consumed ∈ consumes due.command,
    ∀ expiry ∈ expiries due.state.tables consumed.1 consumed.2.1, consumed.2.2 ≤ expiry →
      due.state.tables.clock ≤ expiry

/-- When an acceptance writes, the invitation is still stored as it has been read, has not
expired, and no acceptance that has made the same use of it has yet to mark it. -/
def Undisputed (functions : Functions) (due : Due Tables Call Choice Command ApiError Reply) :
    Prop :=
  ∀ use ∈ useOf due.command, ∀ invitation ∈ readInvitation due.request.history,
    invitation ∈ due.state.tables.invitations ∧
    due.state.tables.clock ≤ invitation.expiresAt ∧
    ∀ request ∈ due.state.requests,
      unmarked functions use invitation.tokenHash request = false

def Orderly (functions : Functions) (due : Due Tables Call Choice Command ApiError Reply) :
    Prop :=
  Fresh due ∧ InTime due ∧ Undisputed functions due

instance (functions : Functions) : DecidablePred (Orderly functions) := fun due =>
  inferInstanceAs (Decidable ((∀ pair ∈ stores due.command, _) ∧
    (∀ consumed ∈ consumes due.command, _) ∧ ∀ use ∈ useOf due.command, _))

/-! ## What an acceptance promises -/

/-- An acceptance that is about to write: it has read an invitation that was not accepted, has
not made this use of it, and has not marked it. -/
structure Accepting (history : List (Answered Command)) (use : Use) : Prop where
  reads : ∃ invitation, readInvitation history = some invitation ∧ invitation.acceptedAt = none
  unused : history.any (wrote use) = false
  unmarked : history.any marked = false

def Bound (functions : Functions) (call : Call) (history : List (Answered Command)) (β : Type)
    (command : Command β) : Prop :=
  match command with
  | .createUser _ => Accepting history .account
  | .upsertMembership _ _ _ => Accepting history .membership
  | .markInvitationAccepted id => ∃ invitation, readInvitation history = some invitation ∧
      id = invitation.id
  | .invitationByTokenHash tokenHash => acceptKey functions call = some tokenHash ∧
      readInvitation history = none
  | _ => True

/-- A command that has nothing to do with invitations. -/
def isRoutine {β : Type} : Command β → Bool
  | .createUser _ => false
  | .upsertMembership _ _ _ => false
  | .markInvitationAccepted _ => false
  | .invitationByTokenHash _ => false
  | _ => true

def Any (_ : Call) (_ : List (Answered Command)) (_ : Except ApiError Reply) : Prop := True

section Promises

variable {functions : Functions} {policy : Policy} {call : Call}
  {history : List (Answered Command)}

theorem routine_bound (functions : Functions) (call : Call) (history : List (Answered Command))
    (β : Type) (command : Command β) (routine : isRoutine command = true) :
    Bound functions call history β command := by
  cases command <;> trivial

variable {invitation : Invitation}

theorem readInvitation_kept (read : readInvitation history = some invitation)
    (entry : Answered Command) :
    readInvitation (history ++ [entry]) = some invitation := by
  rw [readInvitation]
  simp [show List.findSome? finds history = some invitation from read]

theorem Accepting.kept {use : Use} (accepting : Accepting history use) {entry : Answered Command}
    (unused : wrote use entry = false) (unmarked : marked entry = false) :
    Accepting (history ++ [entry]) use := by
  obtain ⟨invitation, read, pending⟩ := accepting.reads
  refine ⟨⟨invitation, readInvitation_kept read entry, pending⟩, ?_, ?_⟩
  · simp [accepting.unused, unused]
  · simp [accepting.unmarked, unmarked]

/-- The end of an acceptance. -/
theorem signInCreated_bound {user : Profile} {created : Bool}
    {next : Option (Text × Int) → Handler Reply}
    (continues : ∀ history session, Program.Safe (Bound functions call) (Any call) (next session)
      history) :
    Program.Safe (Bound functions call) (Any call)
      (signInCreated functions policy user created >>= next) history := by
  unfold signInCreated
  split_ifs
  · simp only [Program.bind_bind]
    apply perform_safe trivial
    intro token
    apply perform_safe trivial
    intro now
    apply ask_safe trivial (fun _ => trivial)
    intro _
    exact continues _ _
  · exact continues _ _

/-- The membership is written and the invitation marked. -/
theorem join_bound {user : Profile} {created : Bool} (accepting : Accepting history .membership)
    (read : readInvitation history = some invitation) :
    Program.Safe (Bound functions call) (Any call) (do
      ask (.upsertMembership invitation.organizationId user.id invitation.role)
      ask (.markInvitationAccepted invitation.id)
      audit (some user.id) (some user.emailAddress) "invitation.accepted"
      let session ← signInCreated functions policy user created
      return Reply.accepted user created session) history := by
  apply ask_safe accepting (fun _ => trivial)
  intro _
  apply ask_safe ⟨invitation, readInvitation_kept read _, rfl⟩ (fun _ => trivial)
  intro _
  apply perform_safe trivial
  intro _
  apply signInCreated_bound
  intro history session
  trivial

variable {body : AcceptInvitation}

/-- The account of an invitation is created. -/
theorem createInvited_bound {next : Profile → Handler Reply} (account : Accepting history .account)
    (membership : Accepting history .membership) (read : readInvitation history = some invitation)
    (continues : ∀ history user, Accepting history .membership →
      readInvitation history = some invitation →
      Program.Safe (Bound functions call) (Any call) (next user) history) :
    Program.Safe (Bound functions call) (Any call)
      (createInvited policy invitation body >>= next) history := by
  unfold createInvited
  simp only [Program.bind_bind]
  apply require_safe (fun _ => trivial)
  intro password _
  apply demand_safe (fun _ => trivial)
  intro _
  apply ask_safe account (fun _ => trivial)
  intro user
  refine ⟨trivial, fun hashed => ?_⟩
  cases hashed with
  | error error => trivial
  | ok digest =>
      apply ask_safe trivial (fun _ => trivial)
      intro _
      exact continues _ user (((membership.kept rfl rfl).kept rfl rfl).kept rfl rfl)
        (readInvitation_kept (readInvitation_kept (readInvitation_kept read _) _) _)

theorem invitationAccept_bound :
    Program.Safe (Bound functions (.invitationAccept body)) (Any (.invitationAccept body))
      (invitationAccept functions policy body) [] := by
  apply require_safe (fun _ => trivial)
  intro token given
  apply ask_safe ⟨by simp [acceptKey, given], rfl⟩ (fun _ => trivial)
  intro found
  apply require_safe (fun _ => trivial)
  rintro invitation rfl
  apply perform_safe trivial
  intro now
  apply demand_safe (fun _ => trivial)
  intro valid
  obtain ⟨pending, -⟩ := Bool.and_eq_true_iff.mp valid
  have accepting (use : Use) : Accepting
      ([] ++ [⟨.invitationByTokenHash (functions.hashToken token), .ok (some invitation)⟩] ++
        [⟨.now, now⟩]) use := by
    refine ⟨⟨invitation, rfl, of_decide_eq_true pending⟩, rfl, rfl⟩
  refine ⟨trivial, fun existing => ?_⟩
  match existing with
  | .error error => trivial
  | .ok (some user) =>
      exact join_bound ((accepting .membership).kept rfl rfl) rfl
  | .ok none =>
      change Program.Safe _ _
        (createInvited policy invitation body >>= (fun user => pure (user, true)) >>= _) _
      rw [Program.bind_bind]
      apply createInvited_bound ((accepting .account).kept rfl rfl)
        ((accepting .membership).kept rfl rfl) rfl
      intro history user membership read
      exact join_bound membership read

section Others

variable (routine : ∀ history β (command : Command β), isRoutine command = true →
    Bound functions call history β command)

include routine

variable {emailAddress : Option Text}

theorem invitationsCreate_bound {permalink : Text} {isOwner : Bool} {principal : Option Id}
    {role : Option Text} :
    Program.Safe (Bound functions call) (Any call)
      (invitationsCreate functions policy permalink isOwner principal emailAddress role) [] := by
  apply ask_safe (routine _ _ _ rfl) (fun _ => trivial)
  intro found
  apply require_safe (fun _ => trivial)
  intro organizationId _
  apply require_safe (fun _ => trivial)
  intro email _
  apply checked_safe (fun _ _ => trivial)
  intro role _
  apply demand_safe (fun _ => trivial)
  intro _
  have invites : ∀ history, Program.Safe (Bound functions call) (Any call) (do
      let token ← Program.perform .generateAuthToken
      let now ← Program.perform .now
      let invitation ← ask (.createInvitation ⟨organizationId, email, role,
        functions.hashToken token, principal.getD 0, now + AuthApi.days policy.invitationExpiryDays⟩)
      audit principal (some email) "invitation.created"
      return Reply.invited invitation token) history := by
    intro history
    apply perform_safe (routine _ _ _ rfl)
    intro token
    apply perform_safe (routine _ _ _ rfl)
    intro now
    apply ask_safe (routine _ _ _ rfl) (fun _ => trivial)
    intro invitation
    exact ⟨routine _ _ _ rfl, fun _ => trivial⟩
  refine ⟨routine _ _ _ rfl, fun existing => ?_⟩
  match existing with
  | .error error => exact invites _
  | .ok none => exact invites _
  | .ok (some user) =>
      refine ⟨routine _ _ _ rfl, fun member => ?_⟩
      apply demand_safe (fun _ => trivial)
      intro _
      exact invites _

theorem invitationsDestroy_bound {permalink : Text} {invitationId : Id} :
    Program.Safe (Bound functions call) (Any call)
      (invitationsDestroy permalink invitationId) [] := by
  apply ask_safe (routine _ _ _ rfl) (fun _ => trivial)
  intro found
  apply require_safe (fun _ => trivial)
  intro organizationId _
  apply ask_safe (routine _ _ _ rfl) (fun _ => trivial)
  intro deleted
  apply demand_safe (fun _ => trivial)
  intro _
  trivial

theorem passwordResetRequest_bound :
    Program.Safe (Bound functions call) (Any call)
      (passwordResetRequest functions policy emailAddress) [] := by
  apply require_safe (fun _ => trivial)
  intro email _
  refine ⟨routine _ _ _ rfl, fun existing => ?_⟩
  match existing with
  | .error error => trivial
  | .ok none => trivial
  | .ok (some user) =>
      apply perform_safe (routine _ _ _ rfl)
      intro token
      apply perform_safe (routine _ _ _ rfl)
      intro now
      apply perform_safe (routine _ _ _ rfl)
      intro _
      exact ⟨routine _ _ _ rfl, fun _ => trivial⟩

variable {token : Option Text}

theorem passwordResetComplete_bound :
    Program.Safe (Bound functions call) (Any call) (passwordResetComplete functions token) [] := by
  apply require_safe (fun _ => trivial)
  intro given _
  apply perform_safe (routine _ _ _ rfl)
  intro now
  apply ask_safe (routine _ _ _ rfl) (fun _ => trivial)
  intro consumed
  apply require_safe (fun _ => trivial)
  intro _ _
  trivial

theorem senderAddressesCreate_bound {serverId : Id} :
    Program.Safe (Bound functions call) (Any call)
      (senderAddressesCreate functions serverId emailAddress) [] := by
  apply require_safe (fun _ => trivial)
  intro email _
  apply demand_safe (fun _ => trivial)
  intro _
  apply perform_safe (routine _ _ _ rfl)
  intro token
  apply ask_safe (routine _ _ _ rfl) (fun _ => trivial)
  intro address
  trivial

theorem senderAddressConfirm_bound :
    Program.Safe (Bound functions call) (Any call) (senderAddressConfirm functions token) [] := by
  apply require_safe (fun _ => trivial)
  intro given _
  apply ask_safe (routine _ _ _ rfl) (fun _ => trivial)
  intro confirmed
  apply require_safe (fun _ => trivial)
  intro address _
  trivial

variable {flow : LoginStates.Flow}

theorem loginStart_bound :
    Program.Safe (Bound functions call) (Any call) (loginStart flow) [] := by
  apply perform_safe (routine _ _ _ rfl)
  intro token
  apply perform_safe (routine _ _ _ rfl)
  intro nonce
  apply perform_safe (routine _ _ _ rfl)
  intro pkceVerifier
  apply perform_safe (routine _ _ _ rfl)
  intro now
  apply ask_safe (routine _ _ _ rfl) (fun _ => trivial)
  intro _
  trivial

theorem loginCallback_bound {state : Text} :
    Program.Safe (Bound functions call) (Any call) (loginCallback flow state) [] := by
  apply perform_safe (routine _ _ _ rfl)
  intro now
  apply ask_safe (routine _ _ _ rfl) (fun _ => trivial)
  intro consumed
  apply require_safe (fun _ => trivial)
  intro _ _
  trivial

variable {ceremony : Ceremony}

theorem ceremonyStart_bound {userId : Id} :
    Program.Safe (Bound functions call) (Any call) (ceremonyStart ceremony userId) [] := by
  apply perform_safe (routine _ _ _ rfl)
  intro challenge
  apply perform_safe (routine _ _ _ rfl)
  intro now
  apply ask_safe (routine _ _ _ rfl) (fun _ => trivial)
  intro _
  trivial

theorem ceremonyFinish_bound {challenge : Text} :
    Program.Safe (Bound functions call) (Any call) (ceremonyFinish ceremony challenge) [] := by
  apply perform_safe (routine _ _ _ rfl)
  intro now
  apply ask_safe (routine _ _ _ rfl) (fun _ => trivial)
  intro consumed
  apply require_safe (fun _ => trivial)
  intro _ _
  trivial

theorem samlStart_bound {connection : Option Id} :
    Program.Safe (Bound functions call) (Any call) (samlStart connection) [] := by
  apply perform_safe (routine _ _ _ rfl)
  intro token
  apply perform_safe (routine _ _ _ rfl)
  intro now
  apply ask_safe (routine _ _ _ rfl) (fun _ => trivial)
  intro _
  trivial

theorem samlAcs_bound {inResponseTo : Text} :
    Program.Safe (Bound functions call) (Any call) (samlAcs inResponseTo) [] := by
  apply perform_safe (routine _ _ _ rfl)
  intro now
  apply ask_safe (routine _ _ _ rfl) (fun _ => trivial)
  intro outstanding
  apply demand_safe (fun _ => trivial)
  intro _
  trivial

end Others

theorem handler_bound (functions : Functions) (policy : Policy) (call : Call) :
    Program.Safe (Bound functions call) (Any call) ((service functions policy).handler call)
      [] := by
  have routine := routine_bound functions call
  cases call with
  | invitationsCreate permalink isOwner principal emailAddress role =>
      exact invitationsCreate_bound routine
  | invitationsDestroy permalink invitationId => exact invitationsDestroy_bound routine
  | invitationAccept body => exact invitationAccept_bound
  | passwordResetRequest emailAddress => exact passwordResetRequest_bound routine
  | passwordResetComplete token => exact passwordResetComplete_bound routine
  | senderAddressesCreate serverId emailAddress => exact senderAddressesCreate_bound routine
  | senderAddressConfirm token => exact senderAddressConfirm_bound routine
  | loginStart flow => exact loginStart_bound routine
  | loginCallback flow state => exact loginCallback_bound routine
  | ceremonyStart ceremony userId => exact ceremonyStart_bound routine
  | ceremonyFinish ceremony challenge => exact ceremonyFinish_bound routine
  | samlStart connection => exact samlStart_bound routine
  | samlAcs inResponseTo => exact samlAcs_bound routine

end Promises

/-! ## What is in the tables -/

/-- One for an answer that redeems a key. -/
def redemptions (kind : Kind) (key : Text) (entry : Answered Command) : Nat :=
  if redeems entry = some (kind, key) then 1 else 0

/-- One for a command that stores a key. -/
def storing {β : Type} (kind : Kind) (key : Text) (command : Command β) : Nat :=
  if stores command = some (kind, key) then 1 else 0

section Tables

variable {choice : Choice} {β : Type} {command : Command β} {answer : β} {tables after : Tables}

/-- A confirmed address no longer waits. -/
theorem countP_confirmFirst (key tokenHash : Text) (addresses : List SenderAddress) :
    (confirmFirst tokenHash addresses).2.countP (SenderAddress.awaits key) +
        (if (confirmFirst tokenHash addresses).1.isSome = true ∧ tokenHash = key then 1 else 0) ≤
      addresses.countP (SenderAddress.awaits key) := by
  induction addresses with
  | nil => simp [confirmFirst]
  | cons address others ih =>
      by_cases waits : address.awaits tokenHash = true
      · simp only [confirmFirst, if_pos waits, List.countP_cons]
        by_cases same : tokenHash = key
        · subst same
          rw [waits]
          simp [SenderAddress.awaits]
        · simp [same, SenderAddress.awaits]
      · simp only [confirmFirst, if_neg waits, List.countP_cons]
        omega

variable {entry : Answered Command}

/-- An answer that redeems nothing and adds nothing. -/
theorem live_unmoved (kind : Kind) (key : Text) (unredeemed : redeems entry = none)
    (fewer : live after kind key ≤ live tables kind key) (stored : Nat) :
    live after kind key + redemptions kind key entry ≤ live tables kind key + stored := by
  rw [redemptions, unredeemed, if_neg (by simp)]
  omega

/-- An answer that redeems nothing and stores one row. -/
theorem live_stored (kind : Kind) (key : Text) (unredeemed : redeems entry = none)
    {own : Kind × Text} (writes : stores command = some own)
    (others : (kind, key) ≠ own → live after kind key ≤ live tables kind key)
    (one : live after own.1 own.2 ≤ live tables own.1 own.2 + 1) :
    live after kind key + redemptions kind key entry ≤
      live tables kind key + storing kind key command := by
  rw [redemptions, unredeemed, if_neg (by simp), storing, writes]
  by_cases same : (kind, key) = own
  · subst same
    simpa using one
  · have fewer := others same
    omega

/-- An answer that takes a row out, and redeems it or not. -/
theorem live_consumed (kind : Kind) (key : Text) (own : Kind × Text) (taken : Bool)
    (takes : redeems entry = if taken then some own else none)
    (others : live after kind key ≤ live tables kind key)
    (one : taken = true → live after own.1 own.2 + 1 ≤ live tables own.1 own.2) (stored : Nat) :
    live after kind key + redemptions kind key entry ≤ live tables kind key + stored := by
  cases taken with
  | false => exact live_unmoved kind key takes others stored
  | true =>
      rw [redemptions, takes]
      by_cases same : own = (kind, key)
      · subst same
        rw [if_pos rfl, if_pos rfl]
        exact le_trans (one rfl) (Nat.le_add_right _ _)
      · rw [if_pos rfl, if_neg (fun equal => same (Option.some.inj equal))]
        omega

variable {α : Type}

/-- A row is put into a table of keyed rows. -/
theorem live_inserted (kind : Kind) (key : Text) (unredeemed : redeems entry = none) (own : Kind)
    (row : Keyed Text α) (rows : List (Keyed Text α))
    (writes : stores command = some (own, row.key))
    (was : ∀ key, live tables own key = Keyed.occurrences key rows)
    (becomes : ∀ key, live after own key = Keyed.occurrences key (Keyed.insert row rows))
    (others : ∀ other, other ≠ own → live after other key = live tables other key) :
    live after kind key + redemptions kind key entry ≤
      live tables kind key + storing kind key command := by
  apply live_stored kind key unredeemed writes
  · intro other
    by_cases same : kind = own
    · subst same
      have different : ¬ row.key = key := fun equal => other (by rw [equal])
      rw [was, becomes, Keyed.occurrences_insert, if_neg different]
    · exact le_of_eq (others kind same)
  · rw [becomes, Keyed.occurrences_insert, if_pos rfl]
    exact Nat.le_add_left _ _

/-- A row is taken out of a table of keyed rows. -/
theorem live_taken (kind : Kind) (key : Text) (own : Kind) (consumed : Text) (now : Int)
    (rows : List (Keyed Text α)) (takes : redeems entry =
      if (Keyed.consume consumed now rows).1.isSome then some (own, consumed) else none)
    (was : ∀ key, live tables own key = Keyed.occurrences key rows) (becomes : ∀ key,
      live after own key = Keyed.occurrences key (Keyed.consume consumed now rows).2)
    (others : ∀ other, other ≠ own → live after other key = live tables other key) (stored : Nat) :
    live after kind key + redemptions kind key entry ≤ live tables kind key + stored := by
  apply live_consumed kind key (own, consumed) _ takes
  · by_cases same : kind = own
    · subst same
      rw [was, becomes]
      exact Keyed.occurrences_consume_le consumed key now rows
    · exact le_of_eq (others kind same)
  · intro taken
    obtain ⟨value, redeemed⟩ := Option.isSome_iff_exists.mp taken
    rw [was, becomes]
    exact le_of_eq (Keyed.occurrences_redeemed redeemed)

/-- What is redeemed and what is left in a table is no more than what was there and what is
stored. -/
theorem respond_live (responds : respond choice command tables = (answer, after)) (kind : Kind)
    (key : Text) :
    live after kind key + redemptions kind key ⟨command, answer⟩ ≤
      live tables kind key + storing kind key command := by
  have unmoved {entry : Answered Command} (unredeemed : redeems entry = none) (stored : Nat) :
      live tables kind key + redemptions kind key entry ≤ live tables kind key + stored :=
    live_unmoved kind key unredeemed (le_refl _) stored
  cases command
  case createInvitation new =>
    obtain ⟨error, rfl, rfl⟩ | ⟨value, rfl, done⟩ := attempted_cases responds
    · exact unmoved rfl _
    · unfold Tables.createInvitation at done
      split_ifs at done
      cases done
      apply live_stored kind key rfl rfl
      · intro other
        cases kind <;> try exact le_refl _
        have different : ¬ new.tokenHash = key := fun same => other (by rw [same])
        simp [live, different]
      · simp [live]
  case createPasswordReset userId tokenHash expiresAt =>
    obtain ⟨error, rfl, rfl⟩ | ⟨rfl, rfl⟩ := attempted_ok_cases responds
    · exact unmoved rfl _
    · apply live_stored kind key rfl rfl
      · intro other
        cases kind <;> try exact le_refl _
        have different : ¬ tokenHash = key := fun same => other (by rw [same])
        simp [live, Tables.createPasswordReset, Keyed.occurrences, different]
      · simp [live, Tables.createPasswordReset, Keyed.occurrences]
  case createSenderAddress new =>
    obtain ⟨error, rfl, rfl⟩ | ⟨value, rfl, done⟩ := attempted_cases responds
    · exact unmoved rfl _
    · unfold Tables.createSenderAddress at done
      split_ifs at done
      cases done
      apply live_stored kind key rfl rfl
      · intro other
        cases kind <;> try exact le_refl _
        have different : ¬ new.verificationTokenHash = key := fun same => other (by rw [same])
        simp [live, SenderAddress.awaits, different]
      · simp [live, SenderAddress.awaits]
  case createOidcState stored pkceVerifier nonce expiresAt =>
    obtain ⟨error, rfl, rfl⟩ | ⟨rfl, rfl⟩ := attempted_ok_cases responds
    · exact unmoved rfl _
    · exact live_inserted kind key rfl .oidcState ⟨stored, expiresAt, (pkceVerifier, nonce)⟩
        tables.oidcStates rfl (fun _ => rfl) (fun _ => rfl)
        (fun other different => by cases other <;> first | rfl | exact absurd rfl different)
  case createWebauthnState stored userId expiresAt =>
    obtain ⟨error, rfl, rfl⟩ | ⟨rfl, rfl⟩ := attempted_ok_cases responds
    · exact unmoved rfl _
    · exact live_inserted kind key rfl .webauthnState ⟨stored, expiresAt, userId⟩
        tables.webauthnStates rfl (fun _ => rfl) (fun _ => rfl)
        (fun other different => by cases other <;> first | rfl | exact absurd rfl different)
  case createSamlRequest stored expiresAt =>
    obtain ⟨error, rfl, rfl⟩ | ⟨rfl, rfl⟩ := attempted_ok_cases responds
    · exact unmoved rfl _
    · exact live_inserted kind key rfl .samlRequest ⟨stored, expiresAt, ()⟩
        tables.samlRequests rfl (fun _ => rfl) (fun _ => rfl)
        (fun other different => by cases other <;> first | rfl | exact absurd rfl different)
  case consumePasswordReset consumed now =>
    obtain ⟨error, rfl, rfl⟩ | ⟨rfl, rfl⟩ := attempted_ok_cases responds
    · exact unmoved rfl _
    · exact live_taken kind key .passwordReset consumed now tables.passwordResets
        (by cases (Keyed.consume consumed now tables.passwordResets).1 <;> rfl)
        (fun _ => rfl) (fun _ => rfl)
        (fun other different => by cases other <;> first | rfl | exact absurd rfl different) _
  case confirmSenderAddress tokenHash =>
    obtain ⟨error, rfl, rfl⟩ | ⟨rfl, rfl⟩ := attempted_ok_cases responds
    · exact unmoved rfl _
    · apply live_consumed kind key (.senderAddress, tokenHash)
        (confirmFirst tokenHash tables.senderAddresses).1.isSome
      · cases (confirmFirst tokenHash tables.senderAddresses).1 <;> rfl
      · cases kind <;> try exact le_refl _
        exact le_trans (Nat.le_add_right _ _) (countP_confirmFirst key tokenHash _)
      · intro taken
        have less := countP_confirmFirst tokenHash tokenHash tables.senderAddresses
        rw [if_pos ⟨taken, rfl⟩] at less
        exact less
  case consumeOidcState consumed now =>
    obtain ⟨error, rfl, rfl⟩ | ⟨rfl, rfl⟩ := attempted_ok_cases responds
    · exact unmoved rfl _
    · exact live_taken kind key .oidcState consumed now tables.oidcStates
        (by cases (Keyed.consume consumed now tables.oidcStates).1 <;> rfl)
        (fun _ => rfl) (fun _ => rfl)
        (fun other different => by cases other <;> first | rfl | exact absurd rfl different) _
  case consumeWebauthnState consumed now =>
    obtain ⟨error, rfl, rfl⟩ | ⟨rfl, rfl⟩ := attempted_ok_cases responds
    · exact unmoved rfl _
    · exact live_taken kind key .webauthnState consumed now tables.webauthnStates
        (by cases (Keyed.consume consumed now tables.webauthnStates).1 <;> rfl)
        (fun _ => rfl) (fun _ => rfl)
        (fun other different => by cases other <;> first | rfl | exact absurd rfl different) _
  case consumeSamlRequest consumed now =>
    obtain ⟨error, rfl, rfl⟩ | ⟨rfl, rfl⟩ := attempted_ok_cases responds
    · exact unmoved rfl _
    · exact live_taken kind key .samlRequest consumed now tables.samlRequests
        (by cases (Keyed.consume consumed now tables.samlRequests).1 <;> rfl)
        (fun _ => rfl) (fun _ => rfl)
        (fun other different => by cases other <;> first | rfl | exact absurd rfl different) _
  case markInvitationAccepted invitationId =>
    obtain ⟨error, rfl, rfl⟩ | ⟨rfl, rfl⟩ := attempted_ok_cases responds
    · exact unmoved rfl _
    · cases kind <;> try exact le_refl _
      simp only [live, Tables.markInvitationAccepted, List.countP_map]
      apply List.countP_mono_left
      simpa [apply_ite] using same
  case deleteInvitation organizationId invitationId =>
    obtain ⟨error, rfl, rfl⟩ | ⟨rfl, rfl⟩ := attempted_ok_cases responds
    · exact unmoved rfl _
    · cases kind <;> try exact le_refl _
      exact List.filter_sublist.countP_le
  case createUser new =>
    obtain ⟨error, rfl, rfl⟩ | ⟨value, rfl, done⟩ := attempted_cases responds
    · exact unmoved rfl _
    · unfold Tables.createUser at done
      split_ifs at done
      cases done
      exact unmoved rfl _
  -- the other commands leave these tables alone
  all_goals first
    | (cases responds; exact unmoved rfl _)
    | (obtain ⟨error, rfl, rfl⟩ | ⟨value, rfl, done⟩ := attempted_cases responds
       · exact unmoved rfl _
       · cases done
         exact unmoved rfl _)

/-- A row of an invitation stays what it was, but for being accepted, or is new. -/
theorem respond_invitations (responds : respond choice command tables = (answer, after))
    {row : Invitation} (member : row ∈ after.invitations) :
    (∃ old ∈ tables.invitations, old.tokenHash = row.tokenHash ∧ old.id = row.id ∧
      (old.acceptedAt ≠ none → row.acceptedAt ≠ none)) ∨
    stores command = some (.invitation, row.tokenHash) := by
  have same (unchanged : row ∈ tables.invitations) :
      (∃ old ∈ tables.invitations, old.tokenHash = row.tokenHash ∧ old.id = row.id ∧
        (old.acceptedAt ≠ none → row.acceptedAt ≠ none)) ∨
      stores command = some (.invitation, row.tokenHash) :=
    .inl ⟨row, unchanged, rfl, rfl, id⟩
  cases command
  case createInvitation new =>
    obtain ⟨error, rfl, rfl⟩ | ⟨value, rfl, done⟩ := attempted_cases responds
    · exact same member
    · unfold Tables.createInvitation at done
      split_ifs at done
      cases done
      rcases List.mem_cons.mp member with rfl | old
      · exact .inr rfl
      · exact same old
  case markInvitationAccepted invitationId =>
    obtain ⟨error, rfl, rfl⟩ | ⟨rfl, rfl⟩ := attempted_ok_cases responds
    · exact same member
    · obtain ⟨old, there, rfl⟩ := List.mem_map.mp member
      left
      refine ⟨old, there, ?_⟩
      split_ifs
      · simp
      · simp
  case deleteInvitation organizationId invitationId =>
    obtain ⟨error, rfl, rfl⟩ | ⟨rfl, rfl⟩ := attempted_ok_cases responds
    · exact same member
    · exact same (List.mem_of_mem_filter member)
  case createUser new =>
    obtain ⟨error, rfl, rfl⟩ | ⟨value, rfl, done⟩ := attempted_cases responds
    · exact same member
    · unfold Tables.createUser at done
      split_ifs at done
      cases done
      exact same member
  case createSenderAddress new =>
    obtain ⟨error, rfl, rfl⟩ | ⟨value, rfl, done⟩ := attempted_cases responds
    · exact same member
    · unfold Tables.createSenderAddress at done
      split_ifs at done
      cases done
      exact same member
  all_goals first
    | (cases responds; exact same member)
    | (obtain ⟨error, rfl, rfl⟩ | ⟨value, rfl, done⟩ := attempted_cases responds
       · exact same member
       · cases done
         exact same member)

/-- The invitations that are marked. -/
theorem respond_marked {invitationId : Id}
    (responds : respond choice (.markInvitationAccepted invitationId) tables = (.ok (), after))
    {row : Invitation} (member : row ∈ after.invitations) (own : row.id = invitationId) :
    row.acceptedAt ≠ none := by
  have done := attempted_ok responds
  cases done
  obtain ⟨old, there, rfl⟩ := List.mem_map.mp member
  split_ifs at own ⊢ with same
  · simp
  · exact absurd own same

/-- An invitation that has been found. -/
theorem respond_found {invitation : Invitation}
    (responds : respond choice command tables = (answer, after))
    (found : finds ⟨command, answer⟩ = some invitation) :
    stores command = none ∧ after = tables ∧ invitation ∈ tables.invitations ∧
      ∀ functions call history, Bound functions call history β command →
        acceptKey functions call = some invitation.tokenHash := by
  unfold finds at found
  split at found
  · next tokenHash result same =>
      cases same
      cases found
      have done := attempted_ok responds
      obtain ⟨there, rfl⟩ := Prod.mk.inj (Except.ok.inj done)
      have own : invitation.tokenHash = tokenHash := by simpa using List.find?_some there
      refine ⟨rfl, rfl, List.mem_of_find?_eq_some there, ?_⟩
      intro functions call history bound
      rw [own]
      exact bound.1
  · cases found

theorem redeemed_expiry {key : Text} {now : Int} {rows : List (Keyed Text α)} {value : α}
    (redeemed : (Keyed.consume key now rows).1 = some value) :
    ∃ expiry ∈ (rows.filter (fun row => row.key = key)).map Keyed.expiresAt, now ≤ expiry := by
  obtain ⟨row, member, own, unexpired⟩ := Keyed.redeemed_row redeemed
  exact ⟨row.expiresAt, List.mem_map.mpr ⟨row, List.mem_filter.mpr ⟨member, by simpa using own⟩,
    rfl⟩, unexpired⟩

/-- What has been redeemed had not expired at the time that was taken for the present. -/
theorem respond_redeemed {kind : Kind} {key : Text}
    (responds : respond choice command tables = (answer, after))
    (redeemed : redeems ⟨command, answer⟩ = some (kind, key)) :
    kind = .senderAddress ∨ ∃ now, consumes command = some (kind, key, now) ∧
      ∃ expiry ∈ expiries tables kind key, now ≤ expiry := by
  cases command
  case confirmSenderAddress tokenHash =>
    match answer with
    | .error error => cases redeemed
    | .ok none => cases redeemed
    | .ok (some address) =>
        cases redeemed
        exact .inl rfl
  case consumePasswordReset consumed now | consumeOidcState consumed now |
      consumeWebauthnState consumed now =>
    obtain ⟨error, rfl, -⟩ | ⟨value, rfl, done⟩ := attempted_cases responds
    · cases redeemed
    · cases value with
      | none => cases redeemed
      | some value =>
          cases redeemed
          exact .inr ⟨now, rfl, redeemed_expiry (congrArg Prod.fst (Except.ok.inj done))⟩
  case consumeSamlRequest consumed now =>
    obtain ⟨error, rfl, -⟩ | ⟨value, rfl, done⟩ := attempted_cases responds
    · cases redeemed
    · cases value with
      | false => cases redeemed
      | true =>
          cases redeemed
          have taken : (Keyed.consume key now tables.samlRequests).1.isSome = true :=
            congrArg Prod.fst (Except.ok.inj done)
          obtain ⟨value, there⟩ := Option.isSome_iff_exists.mp taken
          exact .inr ⟨now, rfl, redeemed_expiry there⟩
  all_goals cases redeemed

end Tables

/-! ## The invariant -/

/-- One for a use that a request with a token has made of its invitation. -/
def usesOf (functions : Functions) (use : Use) (key : Text) (call : Call)
    (entry : Answered Command) : Nat :=
  if acceptKey functions call = some key ∧ wrote use entry = true then 1 else 0

/-- Every invitation of a token is accepted. -/
def Settled (tables : Tables) (key : Text) : Prop :=
  ∀ row ∈ tables.invitations, row.tokenHash = key → row.acceptedAt ≠ none

structure Inv (functions : Functions) (state : Requesting) : Prop where
  /-- A key is in the table or has been redeemed, once. -/
  balance : ∀ kind key, state.total (redemptions kind key) + live state.tables kind key ≤ 1
  /-- The invitation that a request has read is that of its token, as long as it is stored. -/
  reading : ∀ request ∈ state.requests, ∀ invitation,
    readInvitation request.history = some invitation →
    acceptKey functions request.call = some invitation.tokenHash ∧
      ∀ row ∈ state.tables.invitations, row.tokenHash = invitation.tokenHash →
        row.id = invitation.id
  /-- A use is made by a request that has read an invitation. -/
  known : ∀ request ∈ state.requests, ∀ use, request.history.any (wrote use) = true →
    (readInvitation request.history).isSome = true
  /-- Once a use has been made, its request has yet to mark the invitation, or it is
  accepted. -/
  uses : ∀ use key, state.totalBy (usesOf functions use key) ≤ 1 ∧
    (0 < state.totalBy (usesOf functions use key) →
      (∃ request ∈ state.requests, unmarked functions use key request = true) ∨
        Settled state.tables key)

section Steps

variable {functions : Functions} {policy : Policy} {state : Requesting} {index : Nat}
  {request other : Request Call Command ApiError Reply} {choice : Choice} {β : Type}
  {command : Command β} {answer : β} {tables : Tables} {program : Handler Reply}

/-- The requests after an answer. -/
theorem mem_put (member : other ∈ ({ state with tables := tables }.put index
      (request.continued command answer program)).requests) :
    other = request.continued command answer program ∨ other ∈ state.requests := by
  obtain ⟨place, present⟩ := List.mem_iff_getElem?.mp member
  obtain ⟨-, rfl⟩ | ⟨-, unchanged⟩ := State.put_cases present
  · exact .inl rfl
  · exact .inr (List.mem_of_getElem? unchanged)

/-- A request is still there after an answer, or is the one that has been answered. -/
theorem put_mem (member : other ∈ state.requests) (found : state.requests[index]? = some request) :
    other = request ∨ other ∈ ({ state with tables := tables }.put index
      (request.continued command answer program)).requests := by
  obtain ⟨place, present⟩ := List.mem_iff_getElem?.mp member
  by_cases same : place = index
  · subst same
    exact .inl (Option.some.inj (present.symm.trans found))
  · right
    apply List.mem_of_getElem? (i := place)
    rw [Requests.State.put, List.getElem?_set_ne (Ne.symm same)]
    exact present

theorem continued_mem (found : state.requests[index]? = some request) :
    request.continued command answer program ∈ ({ state with tables := tables }.put index
      (request.continued command answer program)).requests :=
  List.mem_of_getElem? (State.put_self found)

/-- A key that has been redeemed is not fresh. -/
theorem redeemed_zero {pair : Kind × Text}
    (unseen : ∀ request ∈ state.requests, ∀ entry ∈ request.history, shows pair entry = false) :
    state.total (redemptions pair.1 pair.2) = 0 := by
  by_contra positive
  rw [State.total_eq] at positive
  obtain ⟨request, member, entry, answered, counted⟩ :=
    exists_of_totalBy_pos (Nat.pos_of_ne_zero positive)
  have hidden := unseen request member entry answered
  have redeemed : redeems entry = some pair := by
    unfold redemptions at counted
    split_ifs at counted with same
    · exact same
    · cases counted
  simp [shows, redeemed] at hidden

theorem Inv.balance_answer (inv : Inv functions state)
    (found : state.requests[index]? = some request)
    (responds : respond choice command state.tables = (answer, tables))
    (fresh : Fresh ⟨state, index, choice, request, command⟩) (kind : Kind) (key : Text) :
    ({ state with tables := tables }.put index
        (request.continued command answer program)).total (redemptions kind key) +
      live tables kind key ≤ 1 := by
  rw [State.total_continued found]
  have moved := respond_live responds kind key
  by_cases stored : stores command = some (kind, key)
  · obtain ⟨absent, unseen⟩ := fresh (kind, key) stored
    have unredeemed : state.total (redemptions kind key) = 0 := redeemed_zero unseen
    dsimp only at absent
    rw [storing, if_pos stored] at moved
    omega
  · have balanced := inv.balance kind key
    rw [storing, if_neg stored] at moved
    omega

/-- Rows with one hash of a token are one row. -/
theorem Inv.unique (inv : Inv functions state) {first second : Invitation}
    (one : first ∈ state.tables.invitations) (other : second ∈ state.tables.invitations)
    (same : first.tokenHash = second.tokenHash) : first = second := by
  have balanced := inv.balance .invitation second.tokenHash
  have few : (state.tables.invitations.filter
      (fun row => row.tokenHash = second.tokenHash)).length ≤ 1 := by
    rw [← List.countP_eq_length_filter]
    exact le_trans (Nat.le_add_left _ _) balanced
  have mine : first ∈ state.tables.invitations.filter
      (fun row => row.tokenHash = second.tokenHash) :=
    List.mem_filter.mpr ⟨one, by simpa using same⟩
  have yours : second ∈ state.tables.invitations.filter
      (fun row => row.tokenHash = second.tokenHash) :=
    List.mem_filter.mpr ⟨other, by simp⟩
  obtain ⟨only, isOnly⟩ := List.length_eq_one_iff.mp
    (Nat.le_antisymm few (List.length_pos_of_mem mine))
  rw [isOnly, List.mem_singleton] at mine yours
  rw [mine, yours]

/-- An invitation that has been read is not stored anew. -/
theorem Inv.reading_kept (inv : Inv functions state)
    (responds : respond choice command state.tables = (answer, tables))
    (fresh : Fresh ⟨state, index, choice, request, command⟩) (member : other ∈ state.requests)
    {invitation : Invitation} (read : readInvitation other.history = some invitation) :
    acceptKey functions other.call = some invitation.tokenHash ∧
      ∀ row ∈ tables.invitations, row.tokenHash = invitation.tokenHash →
        row.id = invitation.id := by
  obtain ⟨own, same⟩ := inv.reading other member invitation read
  refine ⟨own, ?_⟩
  intro row present equal
  rcases respond_invitations responds present with ⟨old, there, hash, id, -⟩ | stored
  · rw [← id]
    exact same old there (hash.trans equal)
  · obtain ⟨entry, answered, finds_it⟩ := List.exists_of_findSome?_eq_some read
    have hidden := (fresh _ stored).2 other member entry answered
    simp [shows, finds_it, equal] at hidden

theorem Inv.reading_answer (inv : Inv functions state)
    (found : state.requests[index]? = some request)
    (promise : Bound functions request.call request.history β command)
    (responds : respond choice command state.tables = (answer, tables))
    (fresh : Fresh ⟨state, index, choice, request, command⟩) :
    ∀ other ∈ ({ state with tables := tables }.put index
        (request.continued command answer program)).requests, ∀ invitation,
      readInvitation other.history = some invitation →
      acceptKey functions other.call = some invitation.tokenHash ∧
        ∀ row ∈ tables.invitations, row.tokenHash = invitation.tokenHash →
          row.id = invitation.id := by
  intro other member invitation read
  rcases mem_put member with rfl | old
  · have here := List.mem_of_getElem? found
    cases before : readInvitation request.history with
    | some earlier =>
        have kept := readInvitation_kept before ⟨command, answer⟩
        obtain rfl := Option.some.inj (kept.symm.trans read)
        exact inv.reading_kept responds fresh here before
    | none =>
        have finds_it : finds ⟨command, answer⟩ = some invitation := by
          have split : (readInvitation request.history).or
              ([(⟨command, answer⟩ : Answered Command)].findSome? finds) = some invitation := by
            rw [readInvitation, ← List.findSome?_append]
            exact read
          simpa [before] using split
        obtain ⟨-, rfl, there, own⟩ := respond_found responds finds_it
        refine ⟨own functions _ _ promise, ?_⟩
        intro row present equal
        rw [inv.unique present there equal]
  · exact inv.reading_kept responds fresh old read

variable {use : Use}

/-- A use is made as promised. -/
theorem wrote_promised {call : Call} {history : List (Answered Command)}
    (writes : wrote use ⟨command, answer⟩ = true) (promise : Bound functions call history β command) :
    useOf command = some use ∧ Accepting history use ∧ marked ⟨command, answer⟩ = false ∧
      stores command = none := by
  have made : used ⟨command, answer⟩ = some use := of_decide_eq_true writes
  cases command <;> first
    | cases made
    | (cases answer with
       | error error => cases made
       | ok value =>
           cases made
           exact ⟨rfl, promise, rfl, rfl⟩)

theorem Inv.known_answer (inv : Inv functions state)
    (found : state.requests[index]? = some request)
    (promise : Bound functions request.call request.history β command) :
    ∀ other ∈ ({ state with tables := tables }.put index
        (request.continued command answer program)).requests, ∀ use,
      other.history.any (wrote use) = true → (readInvitation other.history).isSome = true := by
  intro other member use writes
  rcases mem_put member with rfl | old
  · have read : (readInvitation request.history).isSome = true := by
      rw [Request.continued, List.any_append, Bool.or_eq_true] at writes
      rcases writes with before | now
      · exact inv.known request (List.mem_of_getElem? found) use before
      · obtain ⟨-, accepting, -⟩ := wrote_promised (by simpa using now) promise
        obtain ⟨invitation, read, -⟩ := accepting.reads
        rw [read]
        rfl
    obtain ⟨invitation, there⟩ := Option.isSome_iff_exists.mp read
    rw [Request.continued, readInvitation_kept there]
    rfl
  · exact inv.known other old use writes

theorem unmarked_continued (use : Use) (key : Text) :
    unmarked functions use key (request.continued command answer program) =
      (decide (acceptKey functions request.call = some key) &&
        (request.history.any (wrote use) || wrote use ⟨command, answer⟩) &&
        !(request.history.any marked || marked ⟨command, answer⟩)) := by
  have appended (test : Answered Command → Bool) :
      (request.history ++ [(⟨command, answer⟩ : Answered Command)]).any test =
        (request.history.any test || test ⟨command, answer⟩) := by
    simp
  rw [← appended, ← appended]
  rfl

variable {key : Text}

section

variable (inv : Inv functions state) (found : state.requests[index]? = some request)
  (promise : Bound functions request.call request.history β command)
include inv found promise

/-- An acceptance that marks its invitation settles its token. -/
theorem Inv.marks (responds : respond choice command state.tables = (answer, tables))
    (own : acceptKey functions request.call = some key) (marks : marked ⟨command, answer⟩ = true) :
    Settled tables key := by
  cases command
  case markInvitationAccepted invitationId =>
    cases answer with
    | error error => cases marks
    | ok value =>
        obtain ⟨invitation, read, rfl⟩ := promise
        obtain ⟨hash, same⟩ := inv.reading request (List.mem_of_getElem? found) invitation read
        have equal : invitation.tokenHash = key := Option.some.inj (hash.symm.trans own)
        intro row present its
        rcases respond_invitations responds present with ⟨old, there, oldHash, id, -⟩ | stored
        · apply respond_marked responds present
          rw [← id]
          exact same old there (oldHash.trans (its.trans equal.symm))
        · cases stored
  all_goals cases marks

/-- A use that is made is the first one of its token. -/
theorem Inv.unused (undisputed : Undisputed functions ⟨state, index, choice, request, command⟩)
    (own : acceptKey functions request.call = some key)
    (writes : wrote use ⟨command, answer⟩ = true) :
    state.totalBy (usesOf functions use key) = 0 := by
  obtain ⟨makes, accepting, -, -⟩ := wrote_promised writes promise
  obtain ⟨invitation, read, pending⟩ := accepting.reads
  obtain ⟨stored, -, alone⟩ := undisputed use makes invitation read
  have hash : invitation.tokenHash = key := by
    have same := (inv.reading request (List.mem_of_getElem? found) invitation read).1
    exact Option.some.inj (same.symm.trans own)
  by_contra positive
  rcases (inv.uses use key).2 (Nat.pos_of_ne_zero positive) with ⟨other, member, waits⟩ | settled
  · have done := alone other member
    rw [hash, waits] at done
    cases done
  · exact settled invitation stored hash pending

end

/-- A token that has been used is not stored anew, so it stays settled. -/
theorem Inv.settled_kept (inv : Inv functions state)
    (responds : respond choice command state.tables = (answer, tables))
    (fresh : Fresh ⟨state, index, choice, request, command⟩)
    (positive : 0 < state.totalBy (usesOf functions use key)) (settled : Settled state.tables key) :
    Settled tables key := by
  intro row present equal
  rcases respond_invitations responds present with ⟨old, there, hash, -, stays⟩ | stored
  · exact stays (settled old there (hash.trans equal))
  · obtain ⟨other, member, entry, answered, counted⟩ := exists_of_totalBy_pos positive
    unfold usesOf at counted
    split_ifs at counted with both
    · obtain ⟨own, writes⟩ := both
      have known := inv.known other member use (List.any_eq_true.mpr ⟨entry, answered, writes⟩)
      obtain ⟨invitation, read⟩ := Option.isSome_iff_exists.mp known
      have hash : invitation.tokenHash = key :=
        Option.some.inj ((inv.reading other member invitation read).1.symm.trans own)
      obtain ⟨seen, there, finds_it⟩ := List.exists_of_findSome?_eq_some read
      have hidden := (fresh _ stored).2 other member seen there
      simp [shows, finds_it, equal, hash] at hidden
    · cases counted

theorem Inv.uses_answer (inv : Inv functions state)
    (found : state.requests[index]? = some request)
    (promise : Bound functions request.call request.history β command)
    (responds : respond choice command state.tables = (answer, tables))
    (orderly : Orderly functions ⟨state, index, choice, request, command⟩) (use : Use)
    (key : Text) :
    ({ state with tables := tables }.put index
        (request.continued command answer program)).totalBy (usesOf functions use key) ≤ 1 ∧
    (0 < ({ state with tables := tables }.put index
        (request.continued command answer program)).totalBy (usesOf functions use key) →
      (∃ other ∈ ({ state with tables := tables }.put index
          (request.continued command answer program)).requests,
        unmarked functions use key other = true) ∨ Settled tables key) := by
  obtain ⟨fresh, -, undisputed⟩ := orderly
  rw [State.totalBy_continued found]
  by_cases uses : acceptKey functions request.call = some key ∧
      wrote use ⟨command, answer⟩ = true
  · obtain ⟨own, writes⟩ := uses
    obtain ⟨-, accepting, unmarking, -⟩ := wrote_promised writes promise
    rw [inv.unused found promise undisputed own writes, usesOf, if_pos ⟨own, writes⟩]
    refine ⟨le_refl _, fun _ => .inl ⟨_, continued_mem found, ?_⟩⟩
    rw [unmarked_continued, writes, accepting.unmarked, unmarking]
    simp [own]
  · rw [usesOf, if_neg uses]
    obtain ⟨bounded, standing⟩ := inv.uses use key
    refine ⟨bounded, fun positive => ?_⟩
    rcases standing positive with ⟨other, member, waits⟩ | settled
    · rcases put_mem member found with rfl | still
      · simp only [unmarked, Bool.and_eq_true, decide_eq_true_eq, Bool.not_eq_true'] at waits
        obtain ⟨⟨own, before⟩, unmarking⟩ := waits
        cases marks : marked ⟨command, answer⟩ with
        | true => exact .inr (inv.marks found promise responds own marks)
        | false =>
            refine .inl ⟨_, continued_mem found, ?_⟩
            rw [unmarked_continued, before, unmarking, marks]
            simp [own]
      · exact .inl ⟨other, still, waits⟩
    · exact .inr (inv.settled_kept responds fresh positive settled)

/-- A request that has been opened has made no use and read nothing. -/
theorem mem_opened {call : Call}
    (member : other ∈ state.requests ++ [(service functions policy).opened call]) :
    other.history = [] ∨ other ∈ state.requests := by
  rcases List.mem_append.mp member with old | new
  · exact .inr old
  · exact .inl (by rw [List.mem_singleton.mp new]; rfl)

/-- Nothing outside adds a row under a key. -/
theorem disturb_live (outside : Outside) (tables : Tables) (kind : Kind) (key : Text) :
    live (disturb outside tables) kind key ≤ live tables kind key := by
  cases outside with
  | wait duration | users rows | memberships rows | organizations rows => exact le_refl _
  | purge kept =>
      cases kind
      · exact le_refl _
      all_goals exact List.filter_sublist.countP_le

theorem disturb_invitations (outside : Outside) (tables : Tables) :
    (disturb outside tables).invitations = tables.invitations := by
  cases outside <;> rfl

theorem Inv.kept :
    Kept (service functions policy) (Bound functions) (Orderly functions) (Inv functions) where
  start := by
    intro state call inv
    refine ⟨fun kind key => ?_, ?_, ?_, fun use key => ?_⟩
    · rw [State.total_opened]
      exact inv.balance kind key
    · intro other member invitation read
      rcases mem_opened member with new | old
      · rw [new] at read
        cases read
      · exact inv.reading other old invitation read
    · intro other member use writes
      rcases mem_opened member with new | old
      · rw [new] at writes
        cases writes
      · exact inv.known other old use writes
    · rw [State.totalBy_opened]
      obtain ⟨bounded, standing⟩ := inv.uses use key
      refine ⟨bounded, fun positive => ?_⟩
      rcases standing positive with ⟨other, member, waits⟩ | settled
      · exact .inl ⟨other, List.mem_append_left _ member, waits⟩
      · exact .inr settled
  answer := by
    intro state index choice request β command next answer tables inv found promise executed orderly
    have responds := Option.some.inj executed
    exact ⟨inv.balance_answer found responds orderly.1,
      inv.reading_answer found promise responds orderly.1,
      inv.known_answer found promise,
      inv.uses_answer found promise responds orderly⟩
  disturb := by
    intro state outside tables inv disturbed
    obtain rfl := Option.some.inj disturbed
    refine ⟨fun kind key => ?_, ?_, inv.known, ?_⟩
    · exact le_trans (Nat.add_le_add_left (disturb_live outside state.tables kind key) _)
        (inv.balance kind key)
    · rw [disturb_invitations]
      exact inv.reading
    · unfold Settled
      rw [disturb_invitations]
      exact inv.uses

/-- What is redeemed has not expired. -/
theorem redeemed_in_time {kind : Kind}
    (responds : respond choice command state.tables = (answer, tables))
    (inTime : InTime ⟨state, index, choice, request, command⟩)
    (redeemed : redeems ⟨command, answer⟩ = some (kind, key)) (expires : kind ≠ .senderAddress) :
    ∃ expiry ∈ expiries state.tables kind key, state.tables.clock ≤ expiry := by
  rcases respond_redeemed responds redeemed with never | ⟨now, consumed, expiry, stored, before⟩
  · exact absurd never expires
  · exact ⟨expiry, stored, inTime _ consumed expiry stored before⟩

/-- A use is made of an invitation that stands. -/
theorem Inv.standing (inv : Inv functions state) (found : state.requests[index]? = some request)
    (promise : Bound functions request.call request.history β command)
    (undisputed : Undisputed functions ⟨state, index, choice, request, command⟩)
    (own : acceptKey functions request.call = some key)
    (writes : wrote use ⟨command, answer⟩ = true) :
    ∃ invitation ∈ state.tables.invitations, invitation.tokenHash = key ∧
      invitation.acceptedAt = none ∧ state.tables.clock ≤ invitation.expiresAt := by
  obtain ⟨makes, accepting, -, -⟩ := wrote_promised writes promise
  obtain ⟨invitation, read, pending⟩ := accepting.reads
  obtain ⟨stored, unexpired, -⟩ := undisputed use makes invitation read
  have same := (inv.reading request (List.mem_of_getElem? found) invitation read).1
  exact ⟨invitation, stored, Option.some.inj (same.symm.trans own), pending, unexpired⟩

end Steps

def exampleFunctions : Functions := ⟨id, id⟩

def examplePolicy : Policy := ⟨8, 7, 14, 2⟩

def exampleTables : Tables :=
  { clock := 0, organizations := [("acme", 1)], users := [], memberships := [],
    invitations := [], senderAddresses := [], passwordResets := [], oidcStates := [],
    webauthnStates := [], samlRequests := [], nextId := 2 }

/-- Commands of a request are answered in turn, with a token where one is drawn. -/
def answerTimes (index times : Nat) (token : Text) : List TokenAction :=
  List.replicate times (.answer index { drawn := token })

/-- An invitation is created. -/
def invite : List TokenAction :=
  .start (.invitationsCreate "acme" true (some 1) (some "a@b.example".toList) none) ::
    answerTimes 0 6 "t"

def accept : TokenAction :=
  .start (.invitationAccept { token := some "t".toList, password := some "password".toList })

/-- It is accepted, and once more, and a password is reset. -/
def acceptInTurn : List TokenAction :=
  invite ++ accept :: answerTimes 1 11 "u" ++ accept :: answerTimes 2 2 [] ++
    .start (.passwordResetRequest (some "a@b.example".toList)) :: answerTimes 3 5 "v" ++
    .start (.passwordResetComplete (some "v".toList)) :: answerTimes 4 2 [] ++
    .start (.passwordResetComplete (some "v".toList)) :: answerTimes 5 2 []

/-- A second acceptance looks the invitation up before the first one has marked it. Between the
two, the role of the new member is changed. -/
def acceptAtOnce : List TokenAction :=
  invite ++ [accept, accept] ++ answerTimes 1 2 [] ++ answerTimes 2 2 [] ++
    answerTimes 1 9 "u" ++ .disturb (.memberships [⟨1, 3, .viewer⟩]) ::
    answerTimes 2 4 []

end Camelmailer.Api.SingleUse
