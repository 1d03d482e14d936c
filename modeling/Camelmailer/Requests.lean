import Mathlib.Algebra.Order.BigOperators.Group.List
import Mathlib.Algebra.Order.Group.Nat
import Mathlib.Algebra.GroupWithZero.Nat
import Camelmailer.Db.Program
import Camelmailer.Machine

/-!
# Requests that share tables

Any number of requests are under way at once. Each of them is a program, and its commands
are answered one at a time by tables that all requests share. Between two commands of one
request any number of commands of the others can be answered, and the world outside can
change the tables. A request that is never continued is one that has been given up.

What a program has been answered so far is its history, and `Program.Safe` ties each command
to the history it is sent after. The rule `run_keeps` adds that to an invariant of the whole
state.
-/

namespace Camelmailer.Requests

open Db

variable {Tables Call Choice Outside : Type} {Command : Type → Type} {ε α : Type}

/-- What a request does, how a command is answered, and what can happen outside. A choice is
whatever the tables do not determine. A command that cannot be answered with a choice is not
answered with it. -/
structure Service (Tables Call Choice Outside : Type) (Command : Type → Type) (ε α : Type) where
  handler : Call → Program Command ε α
  execute : Choice → {β : Type} → Command β → Tables → Option (β × Tables)
  disturb : Outside → Tables → Option Tables

structure Request (Call : Type) (Command : Type → Type) (ε α : Type) : Type 1 where
  call : Call
  history : List (Answered Command)
  program : Program Command ε α

/-- The tables, and the requests in the order in which they have started. -/
structure State (Tables Call : Type) (Command : Type → Type) (ε α : Type) : Type 1 where
  tables : Tables
  requests : List (Request Call Command ε α)

inductive Action (Call Choice Outside : Type) where
  | start (call : Call)
  | answer (index : Nat) (choice : Choice)
  | disturb (outside : Outside)

/-- Tables before any request. -/
def State.idle (tables : Tables) : State Tables Call Command ε α := ⟨tables, []⟩

def State.put (state : State Tables Call Command ε α) (index : Nat)
    (request : Request Call Command ε α) : State Tables Call Command ε α :=
  { state with requests := state.requests.set index request }

/-- A request after one more answer. -/
def Request.continued {β : Type} (request : Request Call Command ε α) (command : Command β)
    (answer : β) (program : Program Command ε α) : Request Call Command ε α :=
  { request with history := request.history ++ [⟨command, answer⟩], program := program }

namespace Service

variable (service : Service Tables Call Choice Outside Command ε α)

/-- A request that has sent nothing yet. -/
def opened (call : Call) : Request Call Command ε α := ⟨call, [], service.handler call⟩

/-- The next command of a request is answered. -/
def answerNext (state : State Tables Call Command ε α) (index : Nat) (choice : Choice)
    (request : Request Call Command ε α) : Option (State Tables Call Command ε α) :=
  match request.program with
  | .send command next => (service.execute choice command state.tables).map (fun reaction =>
      { state with tables := reaction.2 }.put index
        (request.continued command reaction.1 (next reaction.1)))
  | _ => none

/-- One step of one request, or of the world outside. -/
def step (state : State Tables Call Command ε α) :
    Action Call Choice Outside → Option (Unit × State Tables Call Command ε α)
  | .start call => some ((), { state with requests := state.requests ++ [service.opened call] })
  | .answer index choice =>
      state.requests[index]?.bind (fun request =>
        (service.answerNext state index choice request).map ((), ·))
  | .disturb outside =>
      (service.disturb outside state.tables).map (fun tables => ((), { state with tables := tables }))

/-- The ways a step can go. -/
theorem step_cases {state after : State Tables Call Command ε α}
    {action : Action Call Choice Outside} {output : Unit}
    (reaction : service.step state action = some (output, after)) :
    (∃ call, action = .start call ∧
      after = { state with requests := state.requests ++ [service.opened call] }) ∨
    (∃ index choice request, ∃ β : Type, ∃ (command : Command β) (next : β → Program Command ε α)
        (answer : β) (tables : Tables), action = .answer index choice ∧
      state.requests[index]? = some request ∧ request.program = .send command next ∧
      service.execute choice command state.tables = some (answer, tables) ∧
      after = { state with tables := tables }.put index
        (request.continued command answer (next answer))) ∨
    ∃ outside tables, action = .disturb outside ∧
      service.disturb outside state.tables = some tables ∧
      after = { state with tables := tables } := by
  cases action with
  | start call =>
      left
      obtain ⟨-, rfl⟩ := Prod.mk.inj (Option.some.inj reaction)
      exact ⟨call, rfl, rfl⟩
  | answer index choice =>
      right
      left
      simp only [step, Option.bind_eq_some_iff, Option.map_eq_some_iff] at reaction
      obtain ⟨request, found, next, answered, same⟩ := reaction
      obtain ⟨-, rfl⟩ := Prod.mk.inj same
      unfold answerNext at answered
      split at answered
      · next β command continuation due =>
          obtain ⟨⟨answer, tables⟩, executed, rfl⟩ := Option.map_eq_some_iff.mp answered
          exact ⟨index, choice, request, β, command, continuation, answer, tables, rfl, found, due,
            executed, rfl⟩
      · cases answered
  | disturb outside =>
      right
      right
      simp only [step, Option.map_eq_some_iff] at reaction
      obtain ⟨tables, disturbed, same⟩ := reaction
      obtain ⟨-, rfl⟩ := Prod.mk.inj same
      exact ⟨outside, tables, rfl, disturbed, rfl⟩

end Service

variable {state : State Tables Call Command ε α}

/-- The requests after one of them has been replaced. -/
theorem State.put_cases {index other : Nat} {request found : Request Call Command ε α}
    (there : (state.put index request).requests[other]? = some found) :
    (other = index ∧ found = request) ∨
      (other ≠ index ∧ state.requests[other]? = some found) := by
  rw [State.put, List.getElem?_set] at there
  split_ifs at there with same
  · exact .inl ⟨same.symm, (Option.some.inj there).symm⟩
  · exact .inr ⟨fun reverse => same reverse.symm, there⟩

theorem State.put_self {index : Nat} {request found : Request Call Command ε α}
    (there : state.requests[index]? = some found) :
    (state.put index request).requests[index]? = some request := by
  obtain ⟨bound, -⟩ := List.getElem?_eq_some_iff.mp there
  simp [State.put, bound]

/-- The requests after one more has started. -/
theorem opened_cases {requests : List (Request Call Command ε α)} {other : Nat}
    {request found : Request Call Command ε α}
    (there : (requests ++ [request])[other]? = some found) :
    (other = requests.length ∧ found = request) ∨ requests[other]? = some found := by
  rw [List.getElem?_append] at there
  split_ifs at there with old
  · exact .inr there
  · left
    obtain ⟨bound, rfl⟩ := List.getElem?_eq_some_iff.mp there
    have last : other = requests.length := by
      simp only [List.length_singleton] at bound
      omega
    exact ⟨last, by simp [last]⟩

/-! ## What has been answered so far -/

section Tally

variable {count other : Answered Command → Nat}

/-- A number that is summed over the commands answered. -/
def tally (count : Answered Command → Nat) (history : List (Answered Command)) : Nat :=
  (history.map count).sum

@[simp] theorem tally_nil : tally count [] = 0 := rfl

@[simp] theorem tally_append (history : List (Answered Command)) (last : Answered Command) :
    tally count (history ++ [last]) = tally count history + count last := by
  simp [tally]

/-- The same over all requests, where the number can depend on the call. -/
def State.totalBy (count : Call → Answered Command → Nat)
    (state : State Tables Call Command ε α) : Nat :=
  (state.requests.map (fun request => tally (count request.call) request.history)).sum

/-- The same over all requests. -/
def State.total (count : Answered Command → Nat) (state : State Tables Call Command ε α) : Nat :=
  (state.requests.map (fun request => tally count request.history)).sum

section TotalBy

variable {number : Call → Answered Command → Nat}

@[simp] theorem State.totalBy_idle (tables : Tables) :
    (State.idle tables : State Tables Call Command ε α).totalBy number = 0 := rfl

theorem State.totalBy_opened (service : Service Tables Call Choice Outside Command ε α)
    (state : State Tables Call Command ε α) (call : Call) :
    { state with requests := state.requests ++ [service.opened call] }.totalBy number =
      state.totalBy number := by
  simp [State.totalBy, Service.opened]

variable {state : State Tables Call Command ε α}

/-- An answer adds its own number. -/
theorem State.totalBy_continued {index : Nat} {request : Request Call Command ε α}
    (found : state.requests[index]? = some request) (tables : Tables) {β : Type}
    (command : Command β) (answer : β) (program : Program Command ε α) :
    ({ state with tables := tables }.put index
        (request.continued command answer program)).totalBy number =
      state.totalBy number + number request.call ⟨command, answer⟩ := by
  obtain ⟨bound, rfl⟩ := List.getElem?_eq_some_iff.mp found
  have split := List.sum_take_add_sum_drop
    (state.requests.map (fun request => tally (number request.call) request.history)) index
  have rest := List.drop_eq_getElem_cons bound
  unfold State.totalBy State.put
  rw [List.set_eq_take_append_cons_drop, if_pos bound, List.map_append, List.map_cons,
    List.sum_append, List.sum_cons]
  rw [← split, ← List.map_take, ← List.map_drop, rest, List.map_cons, List.sum_cons]
  simp only [Request.continued, tally_append]
  omega

/-- A total that is not zero has a part that is not. -/
theorem exists_of_totalBy_pos (positive : 0 < state.totalBy number) :
    ∃ request ∈ state.requests, ∃ entry ∈ request.history, 0 < number request.call entry := by
  by_contra none
  push Not at none
  apply Nat.ne_of_gt positive
  apply List.sum_eq_zero
  intro part member
  obtain ⟨request, present, rfl⟩ := List.mem_map.mp member
  apply List.sum_eq_zero
  intro value counted
  obtain ⟨entry, answered, rfl⟩ := List.mem_map.mp counted
  exact Nat.le_zero.mp (none request present entry answered)

end TotalBy

theorem State.total_eq (state : State Tables Call Command ε α) :
    state.total count = state.totalBy (fun _ => count) := rfl

@[simp] theorem State.total_idle (tables : Tables) :
    (State.idle tables : State Tables Call Command ε α).total count = 0 := rfl

theorem State.total_opened (service : Service Tables Call Choice Outside Command ε α)
    (state : State Tables Call Command ε α) (call : Call) :
    { state with requests := state.requests ++ [service.opened call] }.total count =
      state.total count := by
  rw [State.total_eq, State.total_eq, State.totalBy_opened]

variable {state : State Tables Call Command ε α} {request : Request Call Command ε α}

theorem State.total_continued {index : Nat} (found : state.requests[index]? = some request)
    (tables : Tables) {β : Type} (command : Command β) (answer : β) (program : Program Command ε α) :
    ({ state with tables := tables }.put index
        (request.continued command answer program)).total count =
      state.total count + count ⟨command, answer⟩ := by
  rw [State.total_eq, State.total_eq, State.totalBy_continued found]

section

variable
  (bounded : ∀ (index : Nat) request, state.requests[index]? = some request → tally count request.history ≤ tally other request.history)
include bounded

theorem total_le_total :
    state.total count ≤ state.total other := by
  apply List.sum_le_sum
  intro request member
  obtain ⟨index, found⟩ := List.mem_iff_getElem?.mp member
  exact bounded index request found

theorem total_lt_total {index : Nat}
    (found : state.requests[index]? = some request)
    (strict : tally count request.history < tally other request.history) :
    state.total count < state.total other := by
  apply List.sum_lt_sum
  · intro request member
    obtain ⟨index, found⟩ := List.mem_iff_getElem?.mp member
    exact bounded index request found
  · exact ⟨request, List.mem_of_getElem? found, strict⟩

end

end Tally

section Number

variable {kind : Request Call Command ε α → Bool}

/-- How many requests are of a kind. -/
def State.number (kind : Request Call Command ε α → Bool) (state : State Tables Call Command ε α) :
    Nat :=
  state.requests.countP kind

variable {request : Request Call Command ε α}

theorem State.number_opened (state : State Tables Call Command ε α) (other : kind request = false) :
    { state with requests := state.requests ++ [request] }.number kind = state.number kind := by
  simp [State.number, other]

variable {state : State Tables Call Command ε α} {index : Nat}

/-- A request that has changed is counted for what it is now. -/
theorem State.number_put (kind : Request Call Command ε α → Bool)
    (found : state.requests[index]? = some request) (tables : Tables)
    (changed : Request Call Command ε α) :
    ({ state with tables := tables }.put index changed).number kind + (kind request).toNat =
      state.number kind + (kind changed).toNat := by
  obtain ⟨bound, rfl⟩ := List.getElem?_eq_some_iff.mp found
  have split : state.requests = state.requests.take index ++ state.requests[index] ::
      state.requests.drop (index + 1) := Machine.eq_take_cons_drop found
  have counted {items : List (Request Call Command ε α)} {item : Request Call Command ε α} :
      (item :: items).countP kind = items.countP kind + (kind item).toNat := by
    cases is : kind item <;> simp [is]
  have before : state.requests.countP kind = (state.requests.take index).countP kind +
      ((state.requests.drop (index + 1)).countP kind + (kind state.requests[index]).toNat) := by
    rw [← counted, ← List.countP_append, ← split]
  unfold State.number State.put
  rw [List.set_eq_take_append_cons_drop, if_pos bound, List.countP_append, counted]
  dsimp only
  omega

theorem State.number_unchanged (found : state.requests[index]? = some request) (tables : Tables)
    {changed : Request Call Command ε α} (same : kind changed = kind request) :
    ({ state with tables := tables }.put index changed).number kind = state.number kind := by
  have counted := State.number_put kind found tables changed
  rw [same] at counted
  omega

theorem State.number_zero (none : ∀ request ∈ state.requests, kind request = false) :
    state.number kind = 0 := by
  rw [State.number, List.countP_eq_zero]
  intro request member
  simp [none request member]

/-- Nobody but one request is of the kind. -/
theorem State.number_alone (found : state.requests[index]? = some request)
    (others : ∀ (place : Nat) other, place ≠ index → state.requests[place]? = some other →
      kind other = false) : state.number kind = (kind request).toNat := by
  have before : (state.requests.take index).countP kind = 0 := by
    rw [List.countP_eq_zero]
    intro other member
    obtain ⟨place, there⟩ := List.mem_iff_getElem?.mp member
    rw [List.getElem?_take] at there
    split_ifs at there with less
    simp [others place other (Nat.ne_of_lt less) there]
  have behind : (state.requests.drop (index + 1)).countP kind = 0 := by
    rw [List.countP_eq_zero]
    intro other member
    obtain ⟨place, there⟩ := List.mem_iff_getElem?.mp member
    rw [List.getElem?_drop] at there
    simp [others (index + 1 + place) other (by omega) there]
  rw [State.number, Machine.eq_take_cons_drop found, List.countP_append, List.countP_cons, before,
    behind]
  cases kind request <;> rfl

end Number

/-- Some request has been answered something. -/
def State.Recorded (P : Call → Answered Command → Prop) (state : State Tables Call Command ε α) :
    Prop :=
  ∃ (index : Nat) (request : Request Call Command ε α), state.requests[index]? = some request ∧
    ∃ entry ∈ request.history, P request.call entry

section Recorded

variable {P : Call → Answered Command → Prop} {state : State Tables Call Command ε α}

theorem State.Recorded.opened (recorded : state.Recorded P)
    (service : Service Tables Call Choice Outside Command ε α) (call : Call) :
    { state with requests := state.requests ++ [service.opened call] }.Recorded P := by
  obtain ⟨index, request, found, holds⟩ := recorded
  refine ⟨index, request, ?_, holds⟩
  obtain ⟨bound, -⟩ := List.getElem?_eq_some_iff.mp found
  rw [List.getElem?_append_left bound]
  exact found

variable {index : Nat} {request : Request Call Command ε α} {tables : Tables} {β : Type}
  {command : Command β} {answer : β} {program : Program Command ε α}

theorem State.Recorded.continued (recorded : state.Recorded P)
    (found : state.requests[index]? = some request) :
    ({ state with tables := tables }.put index
      (request.continued command answer program)).Recorded P := by
  obtain ⟨other, there, present, entry, member, holds⟩ := recorded
  by_cases same : other = index
  · subst same
    obtain rfl := Option.some.inj (present.symm.trans found)
    exact ⟨other, _, State.put_self found, entry, List.mem_append_left _ member, holds⟩
  · refine ⟨other, there, ?_, entry, member, holds⟩
    rw [State.put, List.getElem?_set_ne (Ne.symm same)]
    exact present

/-- The last answer is on record. -/
theorem State.Recorded.last (found : state.requests[index]? = some request)
    (holds : P request.call ⟨command, answer⟩) :
    ({ state with tables := tables }.put index
      (request.continued command answer program)).Recorded P :=
  ⟨index, _, State.put_self found, _, List.mem_append_right _ (List.mem_singleton_self _), holds⟩

theorem State.Recorded.of_opened {service : Service Tables Call Choice Outside Command ε α}
    {call : Call}
    (recorded : { state with requests := state.requests ++ [service.opened call] }.Recorded P) :
    state.Recorded P := by
  obtain ⟨other, there, present, entry, member, holds⟩ := recorded
  obtain ⟨-, rfl⟩ | unchanged := opened_cases present
  · cases member
  · exact ⟨other, there, unchanged, entry, member, holds⟩

theorem State.Recorded.of_continued (found : state.requests[index]? = some request)
    (recorded : ({ state with tables := tables }.put index
      (request.continued command answer program)).Recorded P) :
    state.Recorded P ∨ P request.call ⟨command, answer⟩ := by
  obtain ⟨other, there, present, entry, member, holds⟩ := recorded
  obtain ⟨-, rfl⟩ | ⟨-, unchanged⟩ := State.put_cases present
  · rcases List.mem_append.mp member with old | new
    · exact .inl ⟨index, request, found, entry, old, holds⟩
    · cases List.mem_singleton.mp new
      exact .inr holds
  · exact .inl ⟨other, there, unchanged, entry, member, holds⟩

end Recorded

/-! ## Histories only grow -/

/-- Every request of one state is in another one, with all that it has been answered. -/
def State.Extends (before after : State Tables Call Command ε α) : Prop :=
  ∀ (index : Nat) request, before.requests[index]? = some request →
    ∃ later, after.requests[index]? = some later ∧ later.call = request.call ∧
      request.history <+: later.history

theorem State.extends_opened (service : Service Tables Call Choice Outside Command ε α)
    (state : State Tables Call Command ε α) (call : Call) :
    state.Extends { state with requests := state.requests ++ [service.opened call] } := by
  intro index request found
  refine ⟨request, ?_, rfl, List.prefix_refl _⟩
  obtain ⟨bound, -⟩ := List.getElem?_eq_some_iff.mp found
  rw [List.getElem?_append_left bound]
  exact found

theorem State.extends_continued {state : State Tables Call Command ε α} {index : Nat}
    {request : Request Call Command ε α} {tables : Tables} {β : Type} {command : Command β}
    {answer : β} {program : Program Command ε α}
    (found : state.requests[index]? = some request) :
    state.Extends ({ state with tables := tables }.put index
      (request.continued command answer program)) := by
  intro place other there
  by_cases same : place = index
  · subst same
    obtain rfl := Option.some.inj (there.symm.trans found)
    exact ⟨_, State.put_self found, rfl, List.prefix_append _ _⟩
  · refine ⟨other, ?_, rfl, List.prefix_refl _⟩
    rw [State.put, List.getElem?_set_ne (Ne.symm same)]
    exact there

/-! ## The rule -/

section Rule

variable {service : Service Tables Call Choice Outside Command ε α}
  {Before : Call → List (Answered Command) → ∀ β, Command β → Prop}
  {After : Call → List (Answered Command) → Except ε α → Prop}

/-- Every request goes on as its handler has promised. -/
def Faithful (Before : Call → List (Answered Command) → ∀ β, Command β → Prop)
    (After : Call → List (Answered Command) → Except ε α → Prop)
    (state : State Tables Call Command ε α) : Prop :=
  ∀ (index : Nat) request, state.requests[index]? = some request →
    Program.Safe (Before request.call) (After request.call) request.program request.history

abbrev Event (Tables Call Choice Outside : Type) (Command : Type → Type) (ε α : Type) : Type 1 :=
  Machine.Event (State Tables Call Command ε α) (Action Call Choice Outside) Unit

/-- A command that is about to be answered, in the state before. -/
structure Due (Tables Call Choice : Type) (Command : Type → Type) (ε α : Type) : Type 1 where
  state : State Tables Call Command ε α
  index : Nat
  choice : Choice
  request : Request Call Command ε α
  {β : Type}
  command : Command β

/-- The command that an event answers. -/
def due (event : Event Tables Call Choice Outside Command ε α) :
    Option (Due Tables Call Choice Command ε α) :=
  match event.input with
  | .answer index choice =>
      event.before.requests[index]?.bind (fun request =>
        match request.program with
        | .send command _ => some ⟨event.before, index, choice, request, command⟩
        | _ => none)
  | _ => none

/-- A condition on the commands that are answered. -/
def Answering (Condition : Due Tables Call Choice Command ε α → Prop)
    (event : Event Tables Call Choice Outside Command ε α) : Prop :=
  ∀ command ∈ due event, Condition command

instance {Condition : Due Tables Call Choice Command ε α → Prop} [DecidablePred Condition]
    (event : Event Tables Call Choice Outside Command ε α) :
    Decidable (Answering Condition event) :=
  inferInstanceAs (Decidable (∀ command ∈ due event, Condition command))

variable {request : Request Call Command ε α} {β : Type}

theorem due_answer {state after : State Tables Call Command ε α} {index : Nat} {choice : Choice}
    {command : Command β} {next : β → Program Command ε α}
    (found : state.requests[index]? = some request) (sends : request.program = .send command next) :
    due (⟨state, .answer index choice, (), after⟩ :
        Event Tables Call Choice Outside Command ε α) =
      some ⟨state, index, choice, request, command⟩ := by
  simp only [due, found, Option.bind_some, sends]

/-- The command that an event has answered, and the request that had sent it. -/
def answered (event : Event Tables Call Choice Outside Command ε α) :
    Option (Call × Answered Command) :=
  match event.input with
  | .answer index _ =>
      event.after.requests[index]?.bind (fun request =>
        request.history.getLast?.map (request.call, ·))
  | _ => none

variable {tables : Tables}

theorem answered_continued {state : State Tables Call Command ε α} {index : Nat} {choice : Choice}
    {command : Command β} {answer : β} {program : Program Command ε α}
    (found : state.requests[index]? = some request) :
    answered (⟨state, .answer index choice, (), { state with tables := tables }.put index
        (request.continued command answer program)⟩ :
        Event Tables Call Choice Outside Command ε α) =
      some (request.call, ⟨command, answer⟩) := by
  have there : ({ state with tables := tables }.put index
      (request.continued command answer program)).requests[index]? =
      some (request.continued command answer program) := State.put_self found
  simp only [answered, there]
  simp [Request.continued]

/-- What an invariant has to be kept by: the start of a request, the answer to a command that
is sent as promised and meets the condition, and what happens outside. -/
structure Kept (service : Service Tables Call Choice Outside Command ε α)
    (Before : Call → List (Answered Command) → ∀ β, Command β → Prop)
    (Condition : Due Tables Call Choice Command ε α → Prop)
    (Inv : State Tables Call Command ε α → Prop) : Prop where
  start : ∀ (state : State Tables Call Command ε α) call, Inv state →
    Inv { state with requests := state.requests ++ [service.opened call] }
  answer : ∀ (state : State Tables Call Command ε α) index choice request {β : Type}
    (command : Command β) (next : β → Program Command ε α) answer tables, Inv state →
    state.requests[index]? = some request → Before request.call request.history β command →
    service.execute choice command state.tables = some (answer, tables) →
    Condition ⟨state, index, choice, request, command⟩ →
    Inv ({ state with tables := tables }.put index (request.continued command answer (next answer)))
  disturb : ∀ (state : State Tables Call Command ε α) outside tables, Inv state →
    service.disturb outside state.tables = some tables → Inv { state with tables := tables }

/-- A step keeps what the handlers have promised. -/
theorem Faithful.step {state after : State Tables Call Command ε α}
    {action : Action Call Choice Outside} {output : Unit}
    (promised : ∀ call, Program.Safe (Before call) (After call) (service.handler call) [])
    (faithful : Faithful Before After state)
    (reaction : service.step state action = some (output, after)) :
    Faithful Before After after := by
  obtain ⟨call, -, rfl⟩ | ⟨index, choice, request, β, command, next, answer, tables, -,
    found, due, -, rfl⟩ | ⟨outside, tables, -, -, rfl⟩ := service.step_cases reaction
  · intro other request there
    obtain ⟨-, rfl⟩ | unchanged := opened_cases there
    · exact promised call
    · exact faithful other request unchanged
  · intro other request there
    obtain ⟨-, rfl⟩ | ⟨-, unchanged⟩ := State.put_cases there
    · have promise := faithful index _ found
      rw [due] at promise
      exact promise.2 answer
    · exact faithful other request unchanged
  · exact faithful

section Booked

variable {Value : Type} {change : Value → Call → Answered Command → Value}
  {Condition : Due Tables Call Choice Command ε α → Prop}

/-- A value that changes with what is answered. -/
def book (change : Value → Call → Answered Command → Value) (value : Value)
    (event : Event Tables Call Choice Outside Command ε α) : Value :=
  match answered event with
  | some (call, entry) => change value call entry
  | none => value

/-- What a relation between a value and the state has to be kept by. -/
structure Booked (service : Service Tables Call Choice Outside Command ε α)
    (Before : Call → List (Answered Command) → ∀ β, Command β → Prop)
    (Condition : Due Tables Call Choice Command ε α → Prop)
    (change : Value → Call → Answered Command → Value)
    (Inv : Value → State Tables Call Command ε α → Prop) : Prop where
  start : ∀ value (state : State Tables Call Command ε α) call, Inv value state →
    Inv value { state with requests := state.requests ++ [service.opened call] }
  answer : ∀ value (state : State Tables Call Command ε α) index choice request {β : Type}
    (command : Command β) (next : β → Program Command ε α) answer tables, Inv value state →
    state.requests[index]? = some request → Before request.call request.history β command →
    service.execute choice command state.tables = some (answer, tables) →
    Condition ⟨state, index, choice, request, command⟩ →
    Inv (change value request.call ⟨command, answer⟩)
      ({ state with tables := tables }.put index (request.continued command answer (next answer)))
  disturb : ∀ value (state : State Tables Call Command ε α) outside tables, Inv value state →
    service.disturb outside state.tables = some tables → Inv value { state with tables := tables }

variable {Inv : Value → State Tables Call Command ε α → Prop}

/-- A step keeps such a relation. -/
theorem Booked.step (booked : Booked service Before Condition change Inv)
    (promised : ∀ call, Program.Safe (Before call) (After call) (service.handler call) [])
    (value : Value) {state after : State Tables Call Command ε α}
    {action : Action Call Choice Outside} {output : Unit}
    (holds : Inv value state ∧ Faithful Before After state)
    (reaction : service.step state action = some (output, after))
    (guard : Answering Condition ⟨state, action, output, after⟩) :
    Inv (book change value ⟨state, action, output, after⟩) after ∧
      Faithful Before After after := by
  obtain ⟨inv, faithful⟩ := holds
  refine ⟨?_, faithful.step promised reaction⟩
  obtain ⟨call, rfl, rfl⟩ | ⟨index, choice, request, β, command, next, answer, tables, rfl, found,
    sends, executed, rfl⟩ | ⟨outside, tables, rfl, disturbed, rfl⟩ := service.step_cases reaction
  · exact booked.start value state call inv
  · have promise := faithful index request found
    rw [sends] at promise
    rw [book, answered_continued found]
    exact booked.answer value state index choice request command next answer tables inv found
      promise.1 executed (guard _ (due_answer found sends))
  · exact booked.disturb value state outside tables inv disturbed

/-- The rule for a relation with a value that is booked along the run. -/
theorem run_booked
    (promised : ∀ call, Program.Safe (Before call) (After call) (service.handler call) [])
    (booked : Booked service Before Condition change Inv) (value : Value) {tables : Tables}
    (initial : Inv value (State.idle tables)) {actions : List (Action Call Choice Outside)}
    {events : List (Event Tables Call Choice Outside Command ε α)}
    {final : State Tables Call Command ε α}
    (ran : Machine.run service.step (State.idle tables) actions = some (events, final))
    (guarded : ∀ event ∈ events, Answering Condition event) :
    (Inv (events.foldl (book change) value) final ∧ Faithful Before After final) ∧
    ∀ front event back, events = front ++ event :: back →
      (Inv (front.foldl (book change) value) event.before ∧
        Faithful Before After event.before) ∧
      service.step event.before event.input = some (event.output, event.after) := by
  have start : Inv value (State.idle tables) ∧ Faithful Before After (State.idle tables) := by
    refine ⟨initial, ?_⟩
    intro index request there
    simp [State.idle] at there
  apply Machine.run_invariant
    (fun past state => Inv (past.foldl (book change) value) state ∧ Faithful Before After state)
    (Answering Condition) _ actions [] _ final events start ran guarded
  intro past before input output after holds reaction guard
  rw [List.foldl_append]
  exact booked.step promised _ holds reaction guard

end Booked

variable {Condition : Due Tables Call Choice Command ε α → Prop}
  {actions : List (Action Call Choice Outside)}
  {events : List (Event Tables Call Choice Outside Command ε α)}
  {final : State Tables Call Command ε α} {Inv : State Tables Call Command ε α → Prop}

section

variable (promised : ∀ call, Program.Safe (Before call) (After call) (service.handler call) [])
  (kept : Kept service Before Condition Inv) (initial : Inv (State.idle tables))
  (ran : Machine.run service.step (State.idle tables) actions = some (events, final))
  (guarded : ∀ event ∈ events, Answering Condition event)
include promised kept initial ran guarded

/-- The invariant rule for requests under way. -/
theorem run_keeps :
    (Inv final ∧ Faithful Before After final) ∧
    ∀ event ∈ events, (Inv event.before ∧ Faithful Before After event.before) ∧
      (Inv event.after ∧ Faithful Before After event.after) ∧
      service.step event.before event.input = some (event.output, event.after) := by
  -- nothing is booked
  have booked : Booked service Before Condition (fun (_ : Unit) _ _ => ()) (fun _ => Inv) :=
    ⟨fun _ => kept.start, fun _ => kept.answer, fun _ => kept.disturb⟩
  obtain ⟨last, holds⟩ := run_booked promised booked () initial ran guarded
  refine ⟨last, ?_⟩
  intro event member
  obtain ⟨front, back, split⟩ := List.append_of_mem member
  obtain ⟨before, reaction⟩ := holds front event back split
  exact ⟨before, booked.step promised () before reaction (guarded event member), reaction⟩

/-- The same for the states of a run. -/
theorem run_keeps_reached :
    ∀ state, Machine.Reached events final state → Inv state := by
  obtain ⟨last, steps⟩ := run_keeps promised kept initial ran guarded
  rintro state (rfl | ⟨event, member, rfl⟩)
  · exact last.1
  · exact (steps event member).1.1

end

/-- What an event has answered is what its command came to. -/
theorem answered_executed {event : Event Tables Call Choice Outside Command ε α} {call : Call}
    {command : Command β} {answer : β}
    (reaction : service.step event.before event.input = some (event.output, event.after))
    (answers : answered event = some (call, ⟨command, answer⟩)) :
    ∃ choice, service.execute choice command event.before.tables =
      some (answer, event.after.tables) := by
  obtain ⟨before, input, output, after⟩ := event
  dsimp only at reaction ⊢
  obtain ⟨call, rfl, rfl⟩ | ⟨index, choice, request, β, command, next, answer, tables, rfl, found,
    sends, executed, rfl⟩ | ⟨outside, tables, rfl, disturbed, rfl⟩ := service.step_cases reaction
  · cases answers
  · rw [answered_continued found] at answers
    obtain ⟨-, same⟩ := Prod.mk.inj (Option.some.inj answers)
    cases same
    exact ⟨choice, executed⟩
  · cases answers

/-- An event that answers a command of a request. -/
def AnswersTo (index : Nat) (call : Call) (entry : Answered Command)
    (event : Event Tables Call Choice Outside Command ε α) : Prop :=
  (∃ choice, event.input = .answer index choice) ∧ answered event = some (call, entry)

/-- What is in the history of a request has been answered before. -/
theorem run_history
    (ran : Machine.run service.step (State.idle tables) actions = some (events, final)) :
    ∀ front event back, events = front ++ event :: back →
      ∀ index request, event.before.requests[index]? = some request →
        ∀ entry ∈ request.history, ∃ past ∈ front, AnswersTo index request.call entry past := by
  let Inv := fun (past : List (Event Tables Call Choice Outside Command ε α))
      (state : State Tables Call Command ε α) =>
    ∀ (index : Nat) request, state.requests[index]? = some request →
      ∀ entry ∈ request.history, ∃ event ∈ past, AnswersTo index request.call entry event
  have start : Inv [] (State.idle tables) := by
    intro index request there
    simp [State.idle] at there
  have preserved : ∀ past before input output after, Inv past before →
      service.step before input = some (output, after) → True →
      Inv (past ++ [⟨before, input, output, after⟩]) after := by
    intro past before input output after inv reaction _ place other there entry member
    have earlier (request : Request Call Command ε α) (was : before.requests[place]? = some request)
        (inside : entry ∈ request.history) :
        ∃ event ∈ past ++ [⟨before, input, output, after⟩],
          AnswersTo place request.call entry event := by
      obtain ⟨event, old, answers⟩ := inv place request was entry inside
      exact ⟨event, List.mem_append_left _ old, answers⟩
    obtain ⟨call, rfl, rfl⟩ | ⟨index, choice, request, β, command, next, answer, tables, rfl, found,
      sends, executed, rfl⟩ | ⟨outside, tables, rfl, disturbed, rfl⟩ := service.step_cases reaction
    · obtain ⟨-, rfl⟩ | unchanged := opened_cases there
      · cases member
      · exact earlier other unchanged member
    · obtain ⟨rfl, rfl⟩ | ⟨-, unchanged⟩ := State.put_cases there
      · rcases List.mem_append.mp member with old | new
        · exact earlier request found old
        · cases List.mem_singleton.mp new
          exact ⟨_, List.mem_append_right _ (List.mem_singleton_self _), ⟨choice, rfl⟩,
            answered_continued found⟩
      · exact earlier other unchanged member
    · exact earlier other there member
  obtain ⟨-, steps⟩ := Machine.run_invariant Inv (fun _ => True) preserved actions [] _ final events
    start ran (fun _ _ => trivial)
  intro front event back split
  exact (steps front event back split).1

end Rule

end Camelmailer.Requests
