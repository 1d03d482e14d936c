import Mathlib.Data.List.Nodup
import Camelmailer.Api.Handler
import Camelmailer.Api.Send

/-!
# The members of an organization

`members_create`, `members_update` and `members_destroy` of `camelmailer-api/src/memberships.rs`. Only
owners give the role of an owner or take it, and the last owner keeps it: a request reads the
membership, counts the owners and writes then. Other requests are answered in between.
-/

namespace Camelmailer.Api.Members

open Utf8 Db Requests

/-! ## The table -/

structure Membership where
  organizationId : Id
  userId : Id
  role : Role
deriving DecidableEq

def Membership.key (row : Membership) : Id × Id := (row.organizationId, row.userId)

/-- `organization_memberships`, with one row for a person in an organization. -/
structure Memberships where
  rows : List Membership
  unique : (rows.map Membership.key).Nodup

namespace Memberships

variable (table : Memberships)

def without (key : Id × Id) : List Membership := table.rows.filter (fun row => row.key ≠ key)

def membership (organizationId userId : Id) : Option Role :=
  (table.rows.find? (fun row => row.key = (organizationId, userId))).map Membership.role

def membershipsForOrganization (organizationId : Id) : List Membership :=
  table.rows.filter (fun row => row.organizationId = organizationId)

theorem unique_without (key : Id × Id) : ((table.without key).map Membership.key).Nodup :=
  table.unique.sublist (List.filter_sublist.map _)

def upsertMembership (organizationId userId : Id) (role : Role) : Memberships where
  rows := ⟨organizationId, userId, role⟩ :: table.without (organizationId, userId)
  unique := by
    refine List.nodup_cons.mpr ⟨?_, table.unique_without _⟩
    intro present
    obtain ⟨row, member, same⟩ := List.mem_map.mp present
    exact of_decide_eq_true (List.mem_filter.mp member).2 same

def deleteMembership (organizationId userId : Id) : Bool × Memberships :=
  ((table.membership organizationId userId).isSome,
    ⟨table.without (organizationId, userId), table.unique_without _⟩)

end Memberships

def ownersAmong (rows : List Membership) : Nat := rows.countP (fun row => row.role = .owner)

/-! ## The requests -/

inductive Command : Type → Type where
  | organizationByPermalink (permalink : Text) : Command (Except StoreError (Option Id))
  | userByEmail (email : Text) : Command (Except StoreError (Option Id))
  | membership (organizationId userId : Id) : Command (Except StoreError (Option Role))
  | membershipsForOrganization (organizationId : Id) :
      Command (Except StoreError (List Membership))
  | upsertMembership (organizationId userId : Id) (role : Role) : Command (Except StoreError Unit)
  | deleteMembership (organizationId userId : Id) : Command (Except StoreError Bool)
  | recordAuthEvent (userId : Id) (event : Text) : Command (Except StoreError Unit)

inductive Reply where
  | member (userId : Id) (role : Role)
  | deleted

abbrev Handler : Type → Type 1 := Program Command ApiError

/-- `ActingRole::is_owner`. Who is no member acts for the operator. -/
def isOwner (acting : Option Role) : Bool := acting.isNone || acting = some .owner

def findOrganization (permalink : Text) : Handler Id := do
  let organization ← ask (.organizationByPermalink permalink)
  require organization notFound

/-- `owner_count`. A store that fails counts none. -/
def ownerCount (organizationId : Id) : Handler Nat := do
  let members ← Program.perform (.membershipsForOrganization organizationId)
  match members with
  | .ok rows => return ownersAmong rows
  | .error _ => return 0

def keepsOwner (organizationId : Id) : Handler Unit := do
  let owners ← ownerCount organizationId
  demand (1 < owners) (validationError "The organization must keep at least one owner")

def givenRole (role : Option Text) : Handler Role :=
  require (role.bind Role.parse) (validationError "role must be one of viewer, member, admin, owner")

/-- `members_create`. A store that fails to read the membership does not stop it. -/
def membersCreate (acting : Option Role) (permalink : Text) (email role : Option Text) :
    Handler Reply := do
  let organizationId ← findOrganization permalink
  let email ← require (present email) (missing "email_address")
  let role ← givenRole role
  demand (role ≠ .owner || isOwner acting) (forbidden "Only owners can grant the owner role")
  let user ← ask (.userByEmail email)
  let userId ← require user
    (validationError "No account exists for this email address — send an invitation instead")
  let existing ← Program.perform (.membership organizationId userId)
  demand (existing.toOption.join.isNone)
    (validationError "User is already a member of this organization")
  ask (.upsertMembership organizationId userId role)
  return .member userId role

def membersUpdate (acting : Option Role) (permalink : Text) (userId : Id) (role : Option Text) :
    Handler Reply := do
  let organizationId ← findOrganization permalink
  let role ← givenRole role
  let existing ← ask (.membership organizationId userId)
  let existing ← require existing notFound
  demand (!(role = .owner || existing = .owner) || isOwner acting)
    (forbidden "Only owners can change owner roles")
  if existing = .owner ∧ role ≠ .owner then keepsOwner organizationId
  let _ ← Program.perform (.recordAuthEvent userId ("membership.role_change." ++ role.asStr))
  ask (.upsertMembership organizationId userId role)
  return .member userId role

def membersDestroy (acting : Option Role) (permalink : Text) (userId : Id) : Handler Reply := do
  let organizationId ← findOrganization permalink
  let existing ← ask (.membership organizationId userId)
  let existing ← require existing notFound
  if existing = .owner then
    demand (isOwner acting) (forbidden "Only owners can remove an owner")
    keepsOwner organizationId
  let removed ← ask (.deleteMembership organizationId userId)
  demand removed notFound
  let _ ← Program.perform (.recordAuthEvent userId "membership.removed")
  return .deleted

inductive Call where
  | membersCreate (acting : Option Role) (permalink : Text) (email role : Option Text)
  | membersUpdate (acting : Option Role) (permalink : Text) (userId : Id) (role : Option Text)
  | membersDestroy (acting : Option Role) (permalink : Text) (userId : Id)

def handler : Call → Handler Reply
  | .membersCreate acting permalink email role => membersCreate acting permalink email role
  | .membersUpdate acting permalink userId role => membersUpdate acting permalink userId role
  | .membersDestroy acting permalink userId => membersDestroy acting permalink userId

/-- A failure of the store, and who is found under a permalink or an address. -/
structure Choice where
  fault : Option StoreError := none
  found : Option Id := none

def respond (choice : Choice) (table : Memberships) : {β : Type} → Command β → β × Memberships
  | _, .organizationByPermalink _ => attempted choice.fault (.ok (choice.found, table)) table
  | _, .userByEmail _ => attempted choice.fault (.ok (choice.found, table)) table
  | _, .membership organizationId userId =>
      attempted choice.fault (.ok (table.membership organizationId userId, table)) table
  | _, .membershipsForOrganization organizationId =>
      attempted choice.fault (.ok (table.membershipsForOrganization organizationId, table)) table
  | _, .upsertMembership organizationId userId role =>
      attempted choice.fault (.ok ((), table.upsertMembership organizationId userId role)) table
  | _, .deleteMembership organizationId userId =>
      attempted choice.fault (.ok (table.deleteMembership organizationId userId)) table
  | _, .recordAuthEvent _ _ => attempted choice.fault (.ok ((), table)) table

def service : Service Memberships Call Choice Empty Command ApiError Reply where
  handler := handler
  execute := fun choice _ command table => some (respond choice table command)
  disturb := fun outside _ => outside.elim

/-! ## What a request knows when it writes -/

/-- The role that has been read. -/
def readRole (organizationId userId : Id) (history : List (Answered Command)) :
    Option (Option Role) :=
  history.findSome? (fun
    | ⟨.membership organization user, .ok role⟩ =>
        if organization = organizationId ∧ user = userId then some role else none
    | _ => none)

/-- The owners that have been counted. -/
def counted (organizationId : Id) (history : List (Answered Command)) : Option Nat :=
  history.findSome? (fun
    | ⟨.membershipsForOrganization organization, .ok rows⟩ =>
        if organization = organizationId then some (ownersAmong rows) else none
    | _ => none)

/-- If an owner has been read, more than one has been counted. -/
def Spared (organizationId userId : Id) (history : List (Answered Command)) : Prop :=
  readRole organizationId userId history = some (some .owner) →
    ∃ owners ∈ counted organizationId history, 1 < owners

/-- What every write of a request keeps to. -/
def Promise (_ : Call) (history : List (Answered Command)) : (β : Type) → Command β → Prop
  | _, .upsertMembership organizationId userId role =>
      role = .owner ∨ Spared organizationId userId history
  | _, .deleteMembership organizationId userId => Spared organizationId userId history
  | _, _ => True

/-- What has been read and counted is what is there. -/
def UpToDate (table : Memberships) (organizationId userId : Id)
    (history : List (Answered Command)) : Prop :=
  readRole organizationId userId history = some (table.membership organizationId userId) ∧
    ∀ owners ∈ counted organizationId history,
      owners = ownersAmong (table.membershipsForOrganization organizationId)

instance (table : Memberships) (organizationId userId : Id) (history : List (Answered Command)) :
    Decidable (UpToDate table organizationId userId history) :=
  inferInstanceAs (Decidable (_ ∧ _))

def Writable (table : Memberships) (history : List (Answered Command)) :
    {β : Type} → Command β → Prop
  | _, .upsertMembership organizationId userId _ => UpToDate table organizationId userId history
  | _, .deleteMembership organizationId userId => UpToDate table organizationId userId history
  | _, _ => True

instance (table : Memberships) (history : List (Answered Command)) : {β : Type} →
    (command : Command β) → Decidable (Writable table history command)
  | _, .upsertMembership _ _ _ => inferInstanceAs (Decidable (UpToDate _ _ _ _))
  | _, .deleteMembership _ _ => inferInstanceAs (Decidable (UpToDate _ _ _ _))
  | _, .organizationByPermalink _ => instDecidableTrue
  | _, .userByEmail _ => instDecidableTrue
  | _, .membership _ _ => instDecidableTrue
  | _, .membershipsForOrganization _ => instDecidableTrue
  | _, .recordAuthEvent _ _ => instDecidableTrue

/-- A request writes on what it has read and counted. -/
def Current (due : Due Memberships Call Choice Command ApiError Reply) : Prop :=
  Writable due.state.tables due.request.history due.command

instance : DecidablePred Current := fun _ => inferInstanceAs (Decidable (Writable _ _ _))

/-! ## An owner remains -/

section Owners

variable {table after : Memberships} {organizationId : Id}

def Owned (organizationId : Id) (rows : List Membership) : Prop :=
  ∃ row ∈ rows, row.organizationId = organizationId ∧ row.role = .owner

theorem membership_of_mem {row : Membership} (member : row ∈ table.rows) :
    table.membership row.organizationId row.userId = some row.role := by
  have found : (table.rows.find? (fun other => other.key = row.key)).isSome = true := by
    rw [List.find?_isSome]
    exact ⟨row, member, decide_eq_true rfl⟩
  obtain ⟨other, first⟩ := Option.isSome_iff_exists.mp found
  have own : other.key = row.key := by simpa using List.find?_some first
  have same := List.inj_on_of_nodup_map table.unique (List.mem_of_find?_eq_some first) member own
  rw [Memberships.membership]
  change (table.rows.find? (fun other => other.key = row.key)).map Membership.role = _
  rw [first, same, Option.map_some]

/-- One person is one owner at most. -/
theorem ownersAmong_le (userId : Id) :
    ownersAmong (table.membershipsForOrganization organizationId) ≤
      ownersAmong ((table.without (organizationId, userId)).filter
        (fun row => row.organizationId = organizationId)) + 1 := by
  have single : table.rows.countP (fun row => row.key = (organizationId, userId)) ≤ 1 := by
    have once := List.nodup_iff_count_le_one.mp table.unique (organizationId, userId)
    rw [List.count, List.countP_map] at once
    refine le_trans (List.countP_mono_left fun row _ same => ?_) once
    simpa using same
  have rest : table.without (organizationId, userId) =
      table.rows.filter (fun row => !decide (row.key = (organizationId, userId))) := by
    simp [Memberships.without]
  simp only [ownersAmong, Memberships.membershipsForOrganization, List.countP_filter, rest]
  rw [List.countP_eq_countP_filter_add table.rows _
    (fun row => row.key = (organizationId, userId)), List.countP_filter, List.countP_filter]
  have one : table.rows.countP (fun row => (decide (row.role = .owner) &&
      decide (row.organizationId = organizationId)) &&
        decide (row.key = (organizationId, userId))) ≤ 1 := by
    refine le_trans (List.countP_mono_left fun row _ both => ?_) single
    exact (Bool.and_eq_true_iff.mp both).2
  omega

/-- Where an owner is not the only one, an owner remains without the person. -/
theorem owned_without {other userId : Id} (owned : Owned organizationId table.rows)
    (spared : table.membership other userId = some .owner →
      1 < ownersAmong (table.membershipsForOrganization other)) :
    Owned organizationId (table.without (other, userId)) := by
  obtain ⟨row, member, rfl, owner⟩ := owned
  by_cases removed : row.key = (other, userId)
  · obtain ⟨rfl, rfl⟩ := Prod.mk.inj removed
    have many := spared (by rw [membership_of_mem member, owner])
    have left : ownersAmong (table.membershipsForOrganization row.organizationId) ≤ _ :=
      ownersAmong_le row.userId
    have positive : 0 < ownersAmong ((table.without (row.organizationId, row.userId)).filter
        (fun other => other.organizationId = row.organizationId)) := by omega
    obtain ⟨remaining, present, still⟩ := List.countP_pos_iff.mp positive
    obtain ⟨there, own⟩ := List.mem_filter.mp present
    exact ⟨remaining, there, of_decide_eq_true own, of_decide_eq_true still⟩
  · exact ⟨row, List.mem_filter.mpr ⟨member, decide_eq_true removed⟩, rfl, owner⟩

/-- A role that is given leaves an owner, if it is that of an owner or an owner remains without. -/
theorem owned_upsert {other userId : Id} {role : Role} (owned : Owned organizationId table.rows)
    (spared : role = .owner ∨ (table.membership other userId = some .owner →
      1 < ownersAmong (table.membershipsForOrganization other))) :
    Owned organizationId (table.upsertMembership other userId role).rows := by
  rcases spared with rfl | spared
  · obtain ⟨row, member, own, owner⟩ := owned
    by_cases replaced : row.key = (other, userId)
    · exact ⟨_, List.mem_cons_self, (Prod.mk.inj replaced).1.symm.trans own, rfl⟩
    · refine ⟨row, List.mem_cons_of_mem _ ?_, own, owner⟩
      exact List.mem_filter.mpr ⟨member, decide_eq_true replaced⟩
  · obtain ⟨row, member, own⟩ := owned_without owned spared
    exact ⟨row, List.mem_cons_of_mem _ member, own⟩

theorem UpToDate.spared {userId : Id} {history : List (Answered Command)}
    (current : UpToDate table organizationId userId history)
    (spared : Spared organizationId userId history)
    (owner : table.membership organizationId userId = some .owner) :
    1 < ownersAmong (table.membershipsForOrganization organizationId) := by
  obtain ⟨owners, tallied, more⟩ := spared (current.1.trans (congrArg some owner))
  rw [← current.2 owners tallied]
  exact more

end Owners

/-! ## What the requests promise -/

abbrev Any (_ : Call) (_ : List (Answered Command)) (_ : Except ApiError Reply) : Prop := True

section Safe

variable {call : Call} {history : List (Answered Command)} {organizationId userId : Id}

theorem findOrganization_safe {permalink : Text} {next : Id → Handler Reply}
    (continues : ∀ found organizationId, Program.Safe (Promise call) (Any call)
      (next organizationId) (history ++ [⟨.organizationByPermalink permalink, .ok found⟩])) :
    Program.Safe (Promise call) (Any call) (findOrganization permalink >>= next) history := by
  rw [findOrganization, Program.bind_bind]
  refine ask_safe trivial (fun _ => trivial) (fun found => ?_)
  exact require_safe (fun _ => trivial) (fun organizationId _ => continues found organizationId)

/-- Behind the check more than one owner has been counted. -/
theorem keepsOwner_safe {next : Unit → Handler Reply}
    (continues : ∀ rows, 1 < ownersAmong rows → Program.Safe (Promise call) (Any call) (next ())
      (history ++ [⟨.membershipsForOrganization organizationId, .ok rows⟩])) :
    Program.Safe (Promise call) (Any call) (keepsOwner organizationId >>= next) history := by
  rw [keepsOwner, Program.bind_bind, ownerCount, Program.bind_bind]
  refine perform_safe trivial (fun members => ?_)
  cases members with
  | error error => exact demand_safe (fun _ => trivial) (fun more => by cases more)
  | ok rows =>
      exact demand_safe (fun _ => trivial) (fun more => continues rows (of_decide_eq_true more))

theorem handler_safe (call : Call) :
    Program.Safe (Promise call) (Any call) (handler call) [] := by
  cases call with
  | membersCreate acting permalink email role =>
      refine findOrganization_safe fun found organizationId => ?_
      refine require_safe (fun _ => trivial) fun email _ => ?_
      refine require_safe (fun _ => trivial) fun role _ => ?_
      refine demand_safe (fun _ => trivial) fun _ => ?_
      refine ask_safe trivial (fun _ => trivial) fun user => ?_
      refine require_safe (fun _ => trivial) fun userId _ => ?_
      refine perform_safe trivial fun existing => ?_
      refine demand_safe (fun _ => trivial) fun absent => ?_
      refine ask_safe (.inr fun read => ?_) (fun _ => trivial) (fun _ => trivial)
      -- who was read as a member has been refused
      rcases existing with error | (_ | existing) <;>
        simp [readRole, Except.toOption] at read absent
  | membersUpdate acting permalink userId role =>
      refine findOrganization_safe fun found organizationId => ?_
      refine require_safe (fun _ => trivial) fun role _ => ?_
      refine ask_safe trivial (fun _ => trivial) fun existing => ?_
      refine require_safe (fun _ => trivial) fun existing own => ?_
      refine demand_safe (fun _ => trivial) fun _ => ?_
      split_ifs with lowers
      · refine keepsOwner_safe fun rows more => perform_safe trivial fun _ => ?_
        refine ask_safe (.inr fun _ => ?_) (fun _ => trivial) (fun _ => trivial)
        exact ⟨ownersAmong rows, by simp [counted], more⟩
      · refine perform_safe trivial fun _ => ?_
        refine ask_safe ?_ (fun _ => trivial) (fun _ => trivial)
        by_cases raised : role = .owner
        · exact .inl raised
        · refine .inr fun read => absurd ⟨?_, raised⟩ lowers
          simpa [readRole, own] using read
  | membersDestroy acting permalink userId =>
      refine findOrganization_safe fun found organizationId => ?_
      refine ask_safe trivial (fun _ => trivial) fun existing => ?_
      refine require_safe (fun _ => trivial) fun existing own => ?_
      split_ifs with owner
      · refine demand_safe (fun _ => trivial) fun _ => keepsOwner_safe fun rows more => ?_
        refine ask_safe (fun _ => ⟨ownersAmong rows, by simp [counted], more⟩) (fun _ => trivial)
          fun removed => ?_
        exact demand_safe (fun _ => trivial) fun _ => perform_safe trivial fun _ => trivial
      · refine ask_safe (fun read => absurd ?_ owner) (fun _ => trivial) fun removed => ?_
        · simpa [readRole, own] using read
        · exact demand_safe (fun _ => trivial) fun _ => perform_safe trivial fun _ => trivial

end Safe

/-! ## Runs -/

/-- A write on what has been read leaves an owner. -/
theorem owned_kept (organizationId : Id) :
    Kept service Promise Current (fun state => Owned organizationId state.tables.rows) where
  start := fun _ _ owned => owned
  answer := by
    intro state index choice request β command next answer after owned found promise executed current
    have responds := Option.some.inj executed
    cases command with
    | upsertMembership other userId role =>
        obtain ⟨error, rfl, rfl⟩ | ⟨rfl, rfl⟩ := attempted_ok_cases responds
        · exact owned
        · exact owned_upsert owned (promise.imp_right current.spared)
    | deleteMembership other userId =>
        obtain ⟨error, rfl, rfl⟩ | ⟨rfl, rfl⟩ := attempted_ok_cases responds
        · exact owned
        · exact owned_without owned (current.spared promise)
    | _ =>
        obtain ⟨error, rfl, rfl⟩ | ⟨rfl, rfl⟩ := attempted_ok_cases responds
        · exact owned
        · exact owned
  disturb := fun _ outside => outside.elim

/-- Two owners of one organization. -/
def exampleTable : Memberships := ⟨[⟨1, 1, .owner⟩, ⟨1, 2, .owner⟩], by decide⟩

end Camelmailer.Api.Members
