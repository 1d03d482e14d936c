import Camelmailer.Api.ProvisioningRules

/-!
# One user for an address

`user_by_email` ignores case, and the stores compare addresses exactly when a user is created, or
not at all when one is updated. So an address names one user as long as no endpoint writes an
address that another user has in another spelling, and those endpoints that do not look for an `@`
are given one.
-/

namespace Camelmailer.Api.Directory.EmailAddresses

open Utf8 Db Requests Paths
open AuthApi (Profile)
open SingleUse (NewUser Invitation)

/-! ## The property -/

/-- Every user has an address with an `@`, and two users never have one address in whatever
case. -/
structure OneUserEach (tables : Tables) : Prop where
  addressed : ∀ user ∈ tables.users.rows, '@' ∈ user.emailAddress
  apart : ∀ user ∈ tables.users.rows, ∀ other ∈ tables.users.rows,
    Str.eqIgnoreAsciiCase user.emailAddress other.emailAddress = true → user = other

theorem eqIgnoreAsciiCase_symm {first second : Text}
    (same : Str.eqIgnoreAsciiCase first second = true) :
    Str.eqIgnoreAsciiCase second first = true := by
  rw [Str.eqIgnoreAsciiCase, beq_iff_eq] at same ⊢
  exact same.symm

theorem eqIgnoreAsciiCase_trans {first second third : Text}
    (one : Str.eqIgnoreAsciiCase first second = true)
    (two : Str.eqIgnoreAsciiCase second third = true) :
    Str.eqIgnoreAsciiCase first third = true := by
  rw [Str.eqIgnoreAsciiCase, beq_iff_eq] at one two ⊢
  exact one.trans two

/-- So `user_by_email` finds the same user whichever row it picks. -/
theorem OneUserEach.unambiguous {tables : Tables} (each : OneUserEach tables) (email : Text)
    (first second : Nat) : tables.userByEmail email first = tables.userByEmail email second := by
  have both : (tables.userByEmail email first).isSome = (tables.userByEmail email second).isSome := by
    simp [Tables.userByEmail]
  cases one : tables.userByEmail email first with
  | none =>
      rw [one] at both
      exact (Option.isNone_iff_eq_none.mp (Option.isSome_eq_false_iff.mp both.symm)).symm
  | some user =>
      rw [one] at both
      obtain ⟨other, two⟩ := Option.isSome_iff_exists.mp both.symm
      obtain ⟨here, has⟩ := Tables.mem_of_userByEmail one
      obtain ⟨there, hasToo⟩ := Tables.mem_of_userByEmail two
      rw [two, each.apart user here other there
        (eqIgnoreAsciiCase_trans has (eqIgnoreAsciiCase_symm hasToo))]

/-! ## The condition -/

/-- The requests that do not look for an `@` in the address they are given. -/
def isUnchecked : Call → Bool
  | .usersUpdate _ _ => true
  | .scimPatch _ _ => true
  | .oidcCallback _ => true
  | .ssoCallback _ _ => true
  | .orgCallback _ => true
  | _ => false

/-- The address that a command gives to a user, and the user if there is one already. -/
def gives {β : Type} : Command β → Option (Text × Option Id)
  | .createUser new => some (new.emailAddress, none)
  | .updateUser user => some (user.emailAddress, some user.id)
  | _ => none

/-- No other user has the address in whatever case, unless it is in the same spelling and the
store refuses it for that. -/
def Unclaimed (store : StoreKind) (tables : Tables) (email : Text) (own : Option Id) : Prop :=
  ∀ user ∈ tables.users.rows, own ≠ some user.id →
    Str.eqIgnoreAsciiCase user.emailAddress email = true →
    store = .postgres ∧ user.emailAddress = email

/-- A request that does not look for an `@` is given one, and no address is given that another
user has. -/
def Fit (store : StoreKind) (due : Due Tables Call Choice Command ApiError Reply) : Prop :=
  ∀ given ∈ gives due.command, (isUnchecked due.request.call = true → '@' ∈ given.1) ∧
    Unclaimed store due.state.tables given.1 given.2

instance (store : StoreKind) : DecidablePred (Fit store) := fun due =>
  inferInstanceAs (Decidable (∀ given ∈ gives due.command, _ ∧ ∀ user ∈ due.state.tables.users.rows,
    _))

/-! ## What the requests promise -/

/-- The address that an answer shows, of a user or of an invitation. -/
def shows : Answered Command → Option Text
  | ⟨.userById _, found⟩ => found.toOption.join.map (fun user => user.emailAddress)
  | ⟨.currentUser _, found⟩ => found.toOption.map (fun user => user.emailAddress)
  | ⟨.invitationByTokenHash _, found⟩ =>
      found.toOption.join.map (fun invitation => invitation.emailAddress)
  | _ => none

/-- An address that is written has an `@`, or has been read before, or is in a request that does
not look. -/
def Allowed (call : Call) (history : List (Answered Command)) (email : Text) : Prop :=
  isUnchecked call = true ∨ '@' ∈ email ∨ ∃ entry ∈ history, shows entry = some email

def Bound (call : Call) (history : List (Answered Command)) (β : Type) (command : Command β) :
    Prop :=
  match command with
  | .createUser new => Allowed call history new.emailAddress
  | .updateUser user => Allowed call history user.emailAddress
  | .createInvitation new => '@' ∈ new.emailAddress
  | _ => True

def Any (_ : Call) (_ : List (Answered Command)) (_ : Except ApiError Reply) : Prop := True

/-- A command that writes no address. -/
def Quiet (β : Type) (command : Command β) : Prop := writesAddress command = false

section Promises

variable {functions : Functions} {settings : Settings} {call : Call}
  {history : List (Answered Command)}

theorem quiet_bound (call : Call) (history : List (Answered Command)) (β : Type)
    (command : Command β) (quiet : Quiet β command) : Bound call history β command := by
  cases command <;> trivial

theorem Quiet.of_plain {γ : Type} {program : Handler γ} (sends : program.Sends Plain) :
    program.Sends Quiet :=
  sends.mono (fun _ _ plain => plain.1)

theorem unchecked_bound (unchecked : isUnchecked call = true) (history : List (Answered Command))
    (β : Type) (command : Command β) (uninviting : invites command = false) :
    Bound call history β command := by
  cases command
  case createUser new => exact .inl unchecked
  case updateUser user => exact .inl unchecked
  all_goals trivial

/-- A part of a request that writes no address. -/
theorem plain_safe {γ : Type} {program : Handler γ} {next : γ → Handler Reply}
    (sends : program.Sends Plain)
    (continues : ∀ later result, history <+: later →
      Program.Safe (Bound call) (Any call) (next result) later) :
    Program.Safe (Bound call) (Any call) (program >>= next) history :=
  sends.safe_bind (fun later β command _ plain => quiet_bound call later β command plain.1)
    (fun _ _ _ => trivial) continues

variable {program : Handler Reply}

/-- The end of a request that writes no address any more. -/
theorem quiet_safe (sends : program.Sends Quiet) :
    Program.Safe (Bound call) (Any call) program history :=
  sends.safe (fun later β command quiet => quiet_bound call later β command quiet)
    (fun _ _ => trivial)

/-- A user is created with an address that has an `@`, or is not looked at. -/
theorem addressed_safe {render : StoreError → ApiError} {new : NewUser}
    {next : Profile → Handler Reply}
    (addressed : isUnchecked call = true ∨ '@' ∈ new.emailAddress)
    (continues : ∀ later user, history <+: later →
      Program.Safe (Bound call) (Any call) (next user) later) :
    Program.Safe (Bound call) (Any call) (created settings render new >>= next) history :=
  created_safe trivial (fun _ _ => addressed.imp_right .inl) (fun _ _ _ => trivial)
    (fun later user longer _ => continues later user longer)

variable {user : Profile}

theorem session_sends : (issueSession functions settings user).Sends Quiet :=
  issueSession_sends rfl rfl (fun _ _ => rfl)

theorem login_sends {event : Text} :
    (completeLogin functions settings user event).Sends Quiet :=
  (Quiet.of_plain audit_sends).bind (fun _ => session_sends.bind (fun _ => trivial))

theorem register_bound {body : Registration} :
    Program.Safe (Bound (.register body)) (Any (.register body))
      (register functions settings body) [] := by
  apply demand_safe (fun _ => trivial)
  intro _
  apply require_safe (fun _ => trivial)
  intro email _
  apply require_safe (fun _ => trivial)
  intro firstName _
  apply require_safe (fun _ => trivial)
  intro lastName _
  apply require_safe (fun _ => trivial)
  intro password _
  apply demand_safe (fun _ => trivial)
  intro addressed
  apply plain_safe checkLength_sends
  intro _ _ _
  apply plain_safe checkCaptcha_sends
  intro _ _ _
  apply addressed_safe (.inr (of_decide_eq_true addressed))
  intro later user _
  apply quiet_safe
  refine (Quiet.of_plain hashed_sends).bind (fun _ => (ask_sends rfl).bind (fun _ =>
    (Quiet.of_plain audit_sends).bind (fun _ => ?_)))
  exact (Program.Sends.perform rfl).bind (fun _ => (Program.Sends.perform rfl).bind (fun _ =>
    session_sends.bind (fun _ => trivial)))

theorem invitationsCreate_bound {permalink : Text} {isOwner : Bool} {principal : Option Id}
    {emailAddress role : Option Text} :
    Program.Safe (Bound call) (Any call)
      (invitationsCreate functions settings permalink isOwner principal emailAddress role) [] := by
  apply ask_safe trivial (fun _ => trivial)
  intro found
  apply require_safe (fun _ => trivial)
  intro organizationId _
  apply require_safe (fun _ => trivial)
  intro email given
  have addressed : '@' ∈ email := of_decide_eq_true (Option.filter_eq_some_iff.mp given).2
  apply checked_safe (fun _ _ => trivial)
  intro role _
  apply demand_safe (fun _ => trivial)
  intro _
  apply plain_safe isMember_sends
  intro _ _ _
  apply demand_safe (fun _ => trivial)
  intro _
  apply perform_safe trivial
  intro token
  apply perform_safe trivial
  intro now
  apply ask_safe addressed (fun _ => trivial)
  intro invitation
  exact quiet_safe ((Quiet.of_plain audit_sends).bind (fun _ => trivial))

/-- The end of an acceptance. -/
theorem join_sends {invitation : Invitation} {created : Bool} :
    (do
      ask (.upsertMembership invitation.organizationId user.id invitation.role)
      ask (.markInvitationAccepted invitation.id)
      audit (some user.id) (some user.emailAddress) "invitation.accepted"
      let session ← signInCreated functions settings user created
      return Reply.accepted user created session : Handler Reply).Sends Quiet := by
  refine (ask_sends rfl).bind (fun _ => (ask_sends rfl).bind (fun _ =>
    (Quiet.of_plain audit_sends).bind (fun _ => Program.Sends.bind ?_ (fun _ => trivial))))
  unfold signInCreated
  split_ifs
  · exact session_sends.bind (fun _ => trivial)
  · trivial

theorem invitationAccept_bound {body : SingleUse.AcceptInvitation} :
    Program.Safe (Bound call) (Any call) (invitationAccept functions settings body) [] := by
  apply require_safe (fun _ => trivial)
  intro token _
  apply ask_safe trivial (fun _ => trivial)
  intro found
  apply require_safe (fun _ => trivial)
  rintro invitation rfl
  apply perform_safe trivial
  intro now
  apply demand_safe (fun _ => trivial)
  intro _
  refine ⟨trivial, fun existing => ?_⟩
  match existing with
  | .error error => trivial
  | .ok (some user) => exact quiet_safe join_sends
  | .ok none =>
      change Program.Safe _ _
        (createInvited settings invitation body >>= (fun user => pure (user, true)) >>= _) _
      unfold createInvited
      simp only [Program.bind_bind]
      apply require_safe (fun _ => trivial)
      intro password _
      apply plain_safe checkLength_sends
      intro later _ longer
      refine created_safe trivial (fun last further => .inr (.inr ⟨⟨.invitationByTokenHash
        (functions.hashToken token), .ok (some invitation)⟩, ?_, rfl⟩))
        (fun _ _ _ => trivial) (fun last user _ _ => ?_)
      · exact (longer.trans further).subset (by simp)
      · exact quiet_safe ((Quiet.of_plain hashed_sends).bind (fun _ => (ask_sends rfl).bind (fun _ =>
          (Program.Sends.perform rfl).bind (fun _ => join_sends))))

theorem usersCreate_bound {body : CreateUser} :
    Program.Safe (Bound call) (Any call) (usersCreate settings body) [] := by
  apply require_safe (fun _ => trivial)
  intro email _
  apply demand_safe (fun _ => trivial)
  intro addressed
  apply plain_safe initialDigest_sends
  intro _ digest _
  apply addressed_safe (.inr (of_decide_eq_true addressed))
  intro later user _
  cases digest with
  | none => exact quiet_safe ((Program.Sends.perform rfl).bind (fun _ => trivial))
  | some digest =>
      exact quiet_safe ((ask_sends rfl).bind (fun _ =>
        (Program.Sends.perform rfl).bind (fun _ => trivial)))

theorem updateMe_bound {authorization firstName lastName : Option Text} :
    Program.Safe (Bound call) (Any call) (updateMe authorization firstName lastName) [] := by
  apply askOther_safe trivial (fun _ => trivial)
  intro user
  refine ask_safe (.inr (.inr ⟨⟨.currentUser authorization, .ok user⟩, by simp, rfl⟩))
    (fun _ => trivial) ?_
  intro _
  trivial

variable {body : Except Text Json}

theorem scimCreate_bound :
    Program.Safe (Bound call) (Any call) (scimCreate settings body) [] := by
  apply checked_safe (fun _ _ => trivial)
  intro resource _
  apply require_safe (fun _ => trivial)
  intro userName _
  apply demand_safe (fun _ => trivial)
  intro addressed
  apply askWith_safe trivial (fun _ => trivial)
  intro known
  apply demand_safe (fun _ => trivial)
  intro _
  apply addressed_safe (.inr (of_decide_eq_true addressed))
  intro later user _
  exact quiet_safe ((Quiet.of_plain audit_sends).bind (fun _ => (Program.Sends.perform rfl).bind
    (fun _ => (Quiet.of_plain deactivated_sends).bind (fun _ => trivial))))

/-- A replacement keeps the address or gives one with an `@`. -/
theorem replaced_address {body : Json} {written : Profile}
    (replaces : replaced body user = .ok written) :
    '@' ∈ written.emailAddress ∨ written.emailAddress = user.emailAddress := by
  unfold replaced at replaces
  split at replaces
  · cases replaces
    exact .inr rfl
  · split_ifs at replaces with addressed
    cases replaces
    exact .inl addressed

theorem scimReplace_bound {id : Text} :
    Program.Safe (Bound call) (Any call) (scimReplace id body) [] := by
  apply checked_safe (fun _ _ => trivial)
  intro resource _
  unfold findUser
  simp only [Program.bind_bind]
  apply require_safe (fun _ => trivial)
  intro number _
  apply askWith_safe trivial (fun _ => trivial)
  intro found
  apply require_safe (fun _ => trivial)
  rintro user rfl
  apply checked_safe (fun _ _ => trivial)
  intro written replaces
  refine askWith_safe (.inr ?_) (fun _ => trivial) (fun _ => ?_)
  · rcases replaced_address replaces with addressed | same
    · exact .inl addressed
    · exact .inr ⟨⟨.userById number, .ok (some user)⟩, by simp, congrArg some same.symm⟩
  · exact quiet_safe ((Quiet.of_plain applyActive_sends).bind (fun _ => trivial))

/-- The address that is taken from an assertion has an `@`. -/
theorem extractEmail_address {assertion : Saml.ValidatedAssertion} {email : Text}
    (extracted : extractEmail functions assertion = some email) : '@' ∈ email := by
  obtain ⟨value, chosen, rfl⟩ := Option.map_eq_some_iff.mp extracted
  apply functions.keepsAt
  have filtered {candidate : Option Text} {text : Text}
      (kept : candidate.filter (fun value => '@' ∈ value) = some text) : '@' ∈ text :=
    of_decide_eq_true (Option.filter_eq_some_iff.mp kept).2
  rcases Option.or_eq_some_iff.mp chosen with formatted | ⟨-, rest⟩
  · split_ifs at formatted
    exact filtered formatted
  · rcases Option.or_eq_some_iff.mp rest with listed | ⟨-, named⟩
    · exact filtered listed
    · exact filtered named

theorem samlAcs_bound {response : Text} :
    Program.Safe (Bound call) (Any call) (samlAcs functions settings response) [] := by
  apply askOther_safe trivial (fun _ => trivial)
  intro assertion
  apply plain_safe acceptAssertion_sends
  intro _ _ _
  apply require_safe (fun _ => trivial)
  intro email extracted
  unfold resolveSamlUser provisioned
  simp only [Program.bind_bind]
  apply demand_safe (fun _ => trivial)
  intro _
  apply ask_safe trivial (fun _ => trivial)
  intro known
  cases known with
  | some user =>
      simp only [Program.bind_bind]
      exact quiet_safe ((Quiet.of_plain ensureEnabled_sends).bind (fun _ => login_sends))
  | none =>
      simp only [Program.bind_bind]
      apply demand_safe (fun _ => trivial)
      intro _
      apply addressed_safe (.inr (extractEmail_address extracted))
      intro later user _
      exact quiet_safe ((Program.Sends.perform rfl).bind (fun _ =>
        (Quiet.of_plain welcomed_sends).bind (fun _ => login_sends)))

/-- A sign-in through a connection. -/
theorem resolveOrgUser_bound {connection : OrgSsoConnection} {uid email name event : Text}
    (addressed : isUnchecked call = true ∨ '@' ∈ email) :
    Program.Safe (Bound call) (Any call) (do
      let user ← resolveOrgUser settings connection uid email name
      completeLogin functions settings user event) history := by
  unfold resolveOrgUser
  simp only [Program.bind_bind]
  apply demand_safe (fun _ => trivial)
  intro _
  apply ask_safe trivial (fun _ => trivial)
  intro owner
  apply demand_safe (fun _ => trivial)
  intro _
  apply ask_safe trivial (fun _ => trivial)
  intro linked
  cases linked with
  | some user =>
      simp only [Program.bind_bind]
      exact quiet_safe ((Quiet.of_plain ensureEnabled_sends).bind (fun _ =>
        (Quiet.of_plain ensureMembership_sends).bind (fun _ => login_sends)))
  | none =>
      unfold linkOrgUser
      simp only [Program.bind_bind]
      apply ask_safe trivial (fun _ => trivial)
      intro known
      cases known with
      | some user =>
          simp only [Program.bind_bind]
          exact quiet_safe ((Quiet.of_plain ensureEnabled_sends).bind (fun _ =>
            (ask_sends rfl).bind (fun _ => (Quiet.of_plain ensureMembership_sends).bind (fun _ =>
              login_sends))))
      | none =>
          unfold provisionOrgUser provisioned
          simp only [Program.bind_bind]
          apply demand_safe (fun _ => trivial)
          intro _
          apply addressed_safe addressed
          intro later user _
          exact quiet_safe ((Program.Sends.perform rfl).bind (fun _ => (ask_sends rfl).bind (fun _ =>
            (ask_sends rfl).bind (fun _ => (Quiet.of_plain audit_sends).bind (fun _ =>
              login_sends)))))

theorem orgAcs_bound {relayState samlResponse : Option Text} :
    Program.Safe (Bound call) (Any call) (orgAcs functions settings relayState samlResponse) [] := by
  apply require_safe (fun _ => trivial)
  intro id _
  unfold loadEnabledConnection
  simp only [Program.bind_bind]
  apply ask_safe trivial (fun _ => trivial)
  intro found
  apply require_safe (fun _ => trivial)
  intro connection _
  apply demand_safe (fun _ => trivial)
  intro _
  apply require_safe (fun _ => trivial)
  intro response _
  apply askOther_safe trivial (fun _ => trivial)
  intro assertion
  apply demand_safe (fun _ => trivial)
  intro _
  apply plain_safe acceptAssertion_sends
  intro _ _ _
  apply require_safe (fun _ => trivial)
  intro email extracted
  exact resolveOrgUser_bound (.inr (extractEmail_address extracted))

theorem orgCallback_bound {query : LoginStates.CallbackQuery} :
    Program.Safe (Bound (.orgCallback query)) (Any (.orgCallback query))
      (orgCallback functions settings query) [] := by
  apply checked_safe (fun _ _ => trivial)
  rintro ⟨code, state⟩ _
  apply require_safe (fun _ => trivial)
  intro id _
  apply askOther_safe trivial (fun _ => trivial)
  intro _
  unfold loadEnabledConnection
  simp only [Program.bind_bind]
  apply ask_safe trivial (fun _ => trivial)
  intro found
  apply require_safe (fun _ => trivial)
  intro connection _
  apply demand_safe (fun _ => trivial)
  intro _
  apply askOther_safe trivial (fun _ => trivial)
  intro claims
  exact resolveOrgUser_bound (.inl rfl)

/-- The other requests that do not look for an `@`. -/
theorem uninviting_bound (unchecked : isUnchecked call = true) (sends : program.Sends Uninviting) :
    Program.Safe (Bound call) (Any call) program [] :=
  sends.safe (fun later β command uninviting => unchecked_bound unchecked later β command uninviting)
    (fun _ _ => trivial)

theorem handler_bound (functions : Functions) (settings : Settings) (call : Call) :
    Program.Safe (Bound call) (Any call) ((service functions settings).handler call) [] := by
  change Program.Safe (Bound call) (Any call) (handler functions settings call) []
  cases call with
  | register body => exact register_bound
  | invitationsCreate permalink isOwner principal emailAddress role => exact invitationsCreate_bound
  | invitationAccept body => exact invitationAccept_bound
  | usersCreate body => exact usersCreate_bound
  | usersUpdate id body => exact uninviting_bound rfl (Ordinary.uninviting usersUpdate_sends)
  | updateMe authorization firstName lastName => exact updateMe_bound
  | scimCreate body => exact scimCreate_bound
  | scimReplace id body => exact scimReplace_bound
  | scimPatch id body => exact uninviting_bound rfl (Ordinary.uninviting scimPatch_sends)
  | oidcCallback query => exact uninviting_bound rfl (Ordinary.uninviting oidcCallback_sends)
  | ssoCallback id query =>
      exact uninviting_bound rfl (ssoCallback_sends (fun _ _ ordinary => ordinary.2)
        (fun _ _ _ _ => rfl))
  | samlAcs response => exact samlAcs_bound
  | orgCallback query => exact orgCallback_bound
  | orgAcs relayState samlResponse => exact orgAcs_bound
  | _ => exact quiet_safe (Quiet.of_plain (handler_sends rfl))

end Promises

/-! ## What is true of the store -/

section Tables

variable {store : StoreKind} {choice : Choice} {tables after : Tables}

/-- A user is written whose address nobody else has. -/
theorem OneUserEach.written {written : Profile} (each : OneUserEach tables)
    (addressed : '@' ∈ written.emailAddress)
    (others : ∀ row ∈ after.users.rows, row = written ∨ (row ∈ tables.users.rows ∧
      Str.eqIgnoreAsciiCase row.emailAddress written.emailAddress ≠ true)) :
    OneUserEach after := by
  refine ⟨fun row member => ?_, fun row member other there same => ?_⟩
  · rcases others row member with rfl | ⟨old, -⟩
    · exact addressed
    · exact each.addressed row old
  · rcases others row member with rfl | ⟨old, different⟩
    · rcases others other there with rfl | ⟨-, different⟩
      · rfl
      · exact absurd (eqIgnoreAsciiCase_symm same) different
    · rcases others other there with rfl | ⟨oldToo, -⟩
      · exact absurd same different
      · exact each.apart row old other oldToo same

theorem OneUserEach.fewer (each : OneUserEach tables)
    (fewer : ∀ row ∈ after.users.rows, row ∈ tables.users.rows) : OneUserEach after :=
  ⟨fun row member => each.addressed row (fewer row member),
    fun row member other there => each.apart row (fewer row member) other (fewer other there)⟩

/-- The database has no user with the address of one that it creates. -/
theorem createUser_free {new : NewUser} {uuid : Text} {user row : Profile}
    (done : tables.createUser store new uuid = .ok (user, after))
    (member : row ∈ tables.users.rows) (postgres : store = .postgres) :
    row.emailAddress ≠ new.emailAddress := by
  intro same
  have taken : tables.emailTaken new.emailAddress = true :=
    List.any_eq_true.mpr ⟨row, member, decide_eq_true same⟩
  unfold Tables.createUser at done
  rw [if_pos ⟨postgres, taken⟩] at done
  cases done

/-- Nor has it another one with the address of one that it updates. -/
theorem updateUser_free {user written row : Profile}
    (done : tables.updateUser store user = .ok (written, after))
    (member : row ∈ tables.users.rows) (other : row.id ≠ user.id) (postgres : store = .postgres) :
    row.emailAddress ≠ user.emailAddress := by
  subst postgres
  intro same
  have taken : tables.users.rows.any (fun other =>
      other.id ≠ user.id && other.emailAddress = user.emailAddress) = true :=
    List.any_eq_true.mpr ⟨row, member, by simp [other, same]⟩
  unfold Tables.updateUser at done
  rw [if_pos taken] at done
  cases done

/-- An update leaves the users with other identifiers alone. -/
theorem mem_updateUser {user written row : Profile}
    (done : tables.updateUser store user = .ok (written, after))
    (member : row ∈ after.users.rows) :
    row = user ∨ (row ∈ tables.users.rows ∧ row.id ≠ user.id) := by
  rcases Tables.updateUser_ok done with rfl | rfl
  · exact Table.mem_put.mp member
  · exact (Table.mem_replace member).imp_left (fun replaced => replaced.1)

variable {β : Type} {command : Command β} {answer : β}

/-- An answer keeps the addresses apart if the one that is given has an `@` and is nobody's. -/
theorem OneUserEach.answered (each : OneUserEach tables)
    (given : ∀ given ∈ gives command, '@' ∈ given.1 ∧ Unclaimed store tables given.1 given.2)
    (responds : respond store choice command tables = (answer, after)) : OneUserEach after := by
  have frame := (respond_frame responds).users
  cases command
  case createUser new =>
    obtain ⟨error, rfl, rfl⟩ | ⟨user, rfl, done⟩ := attempted_cases responds
    · exact each
    · obtain ⟨addressed, unclaimed⟩ := given _ rfl
      obtain ⟨own, fresh, rfl⟩ := Tables.createUser_ok done
      rw [← own] at addressed
      refine each.written addressed (fun row member => ?_)
      rcases (Table.mem_insert fresh).mp member with rfl | old
      · exact .inl rfl
      · refine .inr ⟨old, fun same => ?_⟩
        rw [own] at same
        obtain ⟨postgres, spelled⟩ := unclaimed row old (by simp) same
        exact createUser_free done old postgres spelled
  case updateUser user =>
    obtain ⟨error, rfl, rfl⟩ | ⟨written, rfl, done⟩ := attempted_cases responds
    · exact each
    · obtain ⟨addressed, unclaimed⟩ := given _ rfl
      refine each.written addressed (fun row member => ?_)
      rcases mem_updateUser done member with rfl | ⟨old, other⟩
      · exact .inl rfl
      · refine .inr ⟨old, fun same => ?_⟩
        obtain ⟨postgres, spelled⟩ := unclaimed row old (by simpa using Ne.symm other) same
        exact updateUser_free done old other postgres spelled
  case deleteUser id =>
    obtain ⟨error, rfl, rfl⟩ | ⟨rfl, rfl⟩ := attempted_ok_cases responds
    · exact each
    · exact each.fewer (fun row member => (Table.mem_remove.mp member).1)
  all_goals
    refine each.fewer (fun row member => ?_)
    rwa [frame (by simp [changes])] at member

/-- An invitation keeps its address, and a new one has that of its command. -/
theorem respond_invitations (responds : respond store choice command tables = (answer, after))
    {row : Invitation} (member : row ∈ after.invitations) :
    (∃ old ∈ tables.invitations, old.emailAddress = row.emailAddress) ∨
      ∃ new answered, (⟨command, answer⟩ : Answered Command) = ⟨.createInvitation new, answered⟩ ∧
        row.emailAddress = new.emailAddress := by
  have frame := (respond_frame responds).invitations
  cases command
  case createInvitation new =>
    obtain ⟨error, rfl, rfl⟩ | ⟨value, rfl, done⟩ := attempted_cases responds
    · exact .inl ⟨row, member, rfl⟩
    · obtain ⟨own, rfl⟩ := Tables.createInvitation_ok done
      rcases List.mem_cons.mp member with rfl | old
      · exact .inr ⟨new, _, rfl, own⟩
      · exact .inl ⟨row, old, rfl⟩
  case markInvitationAccepted id =>
    obtain ⟨error, rfl, rfl⟩ | ⟨rfl, rfl⟩ := attempted_ok_cases responds
    · exact .inl ⟨row, member, rfl⟩
    · obtain ⟨old, there, rfl⟩ := List.mem_map.mp member
      refine .inl ⟨old, there, ?_⟩
      split_ifs <;> rfl
  all_goals
    rw [frame (by simp [changes])] at member
    exact .inl ⟨row, member, rfl⟩

/-- An address that an answer shows is that of a user or of an invitation. -/
theorem respond_shows {email : Text} (responds : respond store choice command tables = (answer, after))
    (shown : shows ⟨command, answer⟩ = some email) :
    (∃ user ∈ tables.users.rows, user.emailAddress = email) ∨
      ∃ invitation ∈ tables.invitations, invitation.emailAddress = email := by
  cases command
  case userById id =>
    obtain ⟨error, rfl, -⟩ | ⟨found, rfl, done⟩ := attempted_cases responds
    · cases shown
    · obtain ⟨user, rfl, rfl⟩ := Option.map_eq_some_iff.mp shown
      have there := Table.find_some (Prod.mk.inj (Except.ok.inj done)).1
      exact .inl ⟨user, there.1, rfl⟩
  case currentUser authorization =>
    obtain ⟨user, signedIn, rfl⟩ := Option.map_eq_some_iff.mp shown
    have found := (Prod.mk.inj responds).1
    split at found
    · next other chosen =>
        subst found
        obtain rfl := Option.some.inj signedIn
        obtain ⟨index, -, there⟩ := Option.bind_eq_some_iff.mp chosen
        exact .inl ⟨other, List.mem_of_getElem? there, rfl⟩
    · subst found
      cases signedIn
  case invitationByTokenHash tokenHash =>
    obtain ⟨error, rfl, -⟩ | ⟨found, rfl, done⟩ := attempted_cases responds
    · cases shown
    · obtain ⟨invitation, rfl, rfl⟩ := Option.map_eq_some_iff.mp shown
      have there := (Prod.mk.inj (Except.ok.inj done)).1
      exact .inr ⟨invitation, List.mem_of_find?_eq_some there, rfl⟩
  all_goals cases shown

end Tables

/-! ## The invariant -/

/-- With the addresses of the users, those of the invitations have an `@`, and those that a request
has been shown. -/
structure Inv (state : Requesting) : Prop where
  each : OneUserEach state.tables
  invited : ∀ invitation ∈ state.tables.invitations, '@' ∈ invitation.emailAddress
  shown : ∀ request ∈ state.requests, ∀ entry ∈ request.history, ∀ email,
    shows entry = some email → '@' ∈ email

theorem Inv.kept (functions : Functions) (settings : Settings) :
    Kept (service functions settings) Bound (Fit settings.store) Inv where
  start := by
    intro state call inv
    refine ⟨inv.each, inv.invited, ?_⟩
    intro request member entry seen
    rcases List.mem_append.mp member with old | new
    · exact inv.shown request old entry seen
    · cases List.mem_singleton.mp new
      cases seen
  answer := by
    intro state index choice request β command next answer tables inv found promise executed fit
    have responds := Option.some.inj executed
    have shownBefore := inv.shown request (List.mem_of_getElem? found)
    -- an address that is allowed has an `@`, from what has been seen or by the condition
    have allowed {email : Text} {own : Option Id} (gives : gives command = some (email, own))
        (allows : Allowed request.call request.history email) : '@' ∈ email := by
      rcases allows with unchecked | addressed | ⟨entry, seen, shown⟩
      · exact (fit (email, own) gives).1 unchecked
      · exact addressed
      · exact shownBefore entry seen email shown
    refine ⟨inv.each.answered (fun given gives => ⟨?_, (fit given gives).2⟩) responds, ?_, ?_⟩
    · cases command
      case createUser new | updateUser user =>
        obtain rfl := Option.some.inj gives
        exact allowed rfl promise
      all_goals cases gives
    · intro row member
      rcases respond_invitations responds member with ⟨old, there, same⟩ | ⟨new, answered, same, own⟩
      · rw [← same]
        exact inv.invited old there
      · cases same
        rw [own]
        exact promise
    · intro other member entry seen email shown
      obtain ⟨place, present⟩ := List.mem_iff_getElem?.mp member
      obtain ⟨-, rfl⟩ | ⟨-, unchanged⟩ := State.put_cases present
      · rcases List.mem_append.mp seen with old | new
        · exact shownBefore entry old email shown
        · cases List.mem_singleton.mp new
          rcases respond_shows responds shown with ⟨user, there, rfl⟩ | ⟨invitation, there, rfl⟩
          · exact inv.each.addressed user there
          · exact inv.invited invitation there
      · exact inv.shown other (List.mem_of_getElem? unchanged) entry seen email shown
  disturb := by
    intro state outside tables inv disturbed
    cases outside with
    | organizationDeleted deleted =>
        obtain rfl := Option.some.inj disturbed
        exact ⟨inv.each.fewer (fun _ member => member), inv.invited, inv.shown⟩

/-! ## Runs -/

/-- A state of a run. -/
def Reached (events : List DirectoryStep) (final state : Requesting) : Prop :=
  state = final ∨ ∃ event ∈ events, state = event.before ∨ state = event.after

def exampleTables : Tables where
  users := .empty 1
  identities := []
  invitations := []
  domains := .empty 1
  connections := .empty 1
  nextInvitation := 1

/-- An administrator creates a user. -/
def createsUser (index : Nat) (email : Text) : List DirectoryAction :=
  .start (.usersCreate { emailAddress := some email }) :: List.replicate 2 (.answer index {})

/-- Two users are created, and one of them gets another address. -/
def differentAddresses : List DirectoryAction :=
  createsUser 0 "a@b.example" ++ createsUser 1 "b@b.example" ++
    .start (.usersUpdate 1 { emailAddress := some "A@b.example".toList }) ::
    List.replicate 2 (.answer 2 {})

/-- Two users are created with the address of one mailbox in two spellings. -/
def oneAddressTwice : List DirectoryAction :=
  createsUser 0 "a@b.example" ++ createsUser 1 "A@b.example"

theorem exampleTables_each : OneUserEach exampleTables :=
  ⟨fun _ member => (by cases member), fun _ member => (by cases member)⟩

end Camelmailer.Api.Directory.EmailAddresses
