import Mathlib.Data.List.Basic

/-!
# Runs of a deterministic machine

A machine reacts to one input at a time with an output and a next state, or stops.
A run records every reaction as an event. The rules below carry an invariant of the
past and the present state along a run, and carry a relation between two machines
through their reactions.
-/

namespace Camelmailer.Machine

variable {State Input Output : Type*}

/-- One reaction of a machine. -/
structure Event (State Input Output : Type*) where
  before : State
  input : Input
  output : Output
  after : State

/-- The events of a run and the state it ends in. A machine that stops before the
last input has no run on these inputs. -/
def run (step : State → Input → Option (Output × State)) :
    State → List Input → Option (List (Event State Input Output) × State)
  | state, [] => some ([], state)
  | state, input :: inputs =>
      (step state input).bind (fun reaction =>
        (run step reaction.2 inputs).map (fun later =>
          (⟨state, input, reaction.1, reaction.2⟩ :: later.1, later.2)))

/-- The states of a run: those before its events and the one it ends in. -/
def Reached (events : List (Event State Input Output)) (final state : State) : Prop :=
  state = final ∨ ∃ event ∈ events, event.before = state

variable {step : State → Input → Option (Output × State)}

/-- A list is what is before one of its items, that item, and what is behind it. -/
theorem eq_take_cons_drop {Item : Type*} {items : List Item} {index : Nat} {item : Item}
    (found : items[index]? = some item) : items = items.take index ++ item :: items.drop (index + 1) := by
  obtain ⟨bound, rfl⟩ := List.getElem?_eq_some_iff.mp found
  rw [← List.drop_eq_getElem_cons bound, List.take_append_drop]

variable {events : List (Event State Input Output)} {inputs : List Input} {state final : State}

/-- A run on a first input is one reaction followed by a run from there. -/
theorem run_cons {input : Input} (ran : run step state (input :: inputs) = some (events, final)) :
    ∃ output next later, step state input = some (output, next) ∧
      run step next inputs = some (later, final) ∧
      events = ⟨state, input, output, next⟩ :: later := by
  simp only [run, Option.bind_eq_some_iff, Option.map_eq_some_iff] at ran
  obtain ⟨⟨output, next⟩, reaction, ⟨later, last⟩, rest, recorded⟩ := ran
  obtain ⟨rfl, rfl⟩ : _ = events ∧ last = final := by simpa using recorded
  exact ⟨output, next, later, reaction, rest, rfl⟩

/-- The end of a run is a run. -/
theorem run_suffix {front back : List (Event State Input Output)}
    (ran : run step state inputs = some (front ++ back, final)) :
    ∃ reached rest, run step reached rest = some (back, final) := by
  induction front generalizing state inputs with
  | nil => exact ⟨state, inputs, ran⟩
  | cons first front ih =>
      cases inputs with
      | nil => simp [run] at ran
      | cons input inputs =>
          obtain ⟨output, next, later, -, rest, split⟩ := run_cons ran
          obtain ⟨-, rfl⟩ := List.cons_eq_cons.mp split
          exact ih rest

/-- A run with a first event is a reaction followed by a run from there. -/
theorem run_event {first : Event State Input Output} {later : List (Event State Input Output)}
    (ran : run step state inputs = some (first :: later, final)) :
    step first.before first.input = some (first.output, first.after) ∧ first.before = state ∧
      ∃ rest, run step first.after rest = some (later, final) := by
  cases inputs with
  | nil => simp [run] at ran
  | cons input inputs =>
      obtain ⟨output, next, others, reaction, rest, split⟩ := run_cons ran
      obtain ⟨rfl, rfl⟩ := List.cons_eq_cons.mp split
      exact ⟨reaction, rfl, inputs, rest⟩

/-- Every event of a run is a reaction. -/
theorem run_reaction (ran : run step state inputs = some (events, final))
    {event : Event State Input Output} (member : event ∈ events) :
    step event.before event.input = some (event.output, event.after) := by
  obtain ⟨front, back, rfl⟩ := List.append_of_mem member
  obtain ⟨reached, rest, suffix⟩ := run_suffix ran
  exact (run_event suffix).1

variable {Keeps : Event State Input Output → Prop} {P : State → Prop}

section

variable
  (kept : ∀ event : Event State Input Output, step event.before event.input = some (event.output, event.after) → P event.before → Keeps event → P event.after)
include kept

/-- What holds at the start of a run lasts for as long as every event keeps it. -/
theorem run_while {later : Event State Input Output}
    {middle back : List (Event State Input Output)} (started : P state)
    (ran : run step state inputs = some (middle ++ later :: back, final))
    (keeps : ∀ event ∈ middle, Keeps event) :
    P later.before ∧ step later.before later.input = some (later.output, later.after) := by
  induction middle generalizing state inputs with
  | nil =>
      obtain ⟨reaction, rfl, -⟩ := run_event ran
      exact ⟨started, reaction⟩
  | cons event middle ih =>
      obtain ⟨reaction, rfl, rest, ran_on⟩ := run_event ran
      have held := kept event reaction started (keeps event (List.mem_cons_self ..))
      exact ih held ran_on
        (fun other member => keeps other (List.mem_cons_of_mem _ member))

/-- What an event brings about lasts for as long as every later event keeps it. -/
theorem run_since {first later : Event State Input Output}
    {front middle back : List (Event State Input Output)}
    (ran : run step state inputs = some (front ++ first :: (middle ++ later :: back), final))
    (starts : step first.before first.input = some (first.output, first.after) → P first.after)
    (keeps : ∀ event ∈ middle, Keeps event) :
    P later.before ∧ step later.before later.input = some (later.output, later.after) := by
  obtain ⟨reached, rest, suffix⟩ := run_suffix ran
  obtain ⟨reaction, -, rest, after⟩ := run_event suffix
  exact run_while kept (starts reaction) after keeps

end

/-- The invariant rule. `Inv` relates the events so far to the present state; every
reaction that meets the guard keeps it. Then it holds before every event of a run
whose events all meet the guard, each event is a reaction of the machine, and the
invariant holds at the end. -/
theorem run_invariant (Inv : List (Event State Input Output) → State → Prop)
    (Guard : Event State Input Output → Prop)
    (preserved : ∀ past before input output after, Inv past before →
      step before input = some (output, after) → Guard ⟨before, input, output, after⟩ →
      Inv (past ++ [⟨before, input, output, after⟩]) after)
    (inputs : List Input) (past : List (Event State Input Output)) (state final : State)
    (events : List (Event State Input Output)) (initial : Inv past state)
    (ran : run step state inputs = some (events, final))
    (guarded : ∀ event ∈ events, Guard event) :
    Inv (past ++ events) final ∧ ∀ front event back, events = front ++ event :: back →
      Inv (past ++ front) event.before ∧
        step event.before event.input = some (event.output, event.after) := by
  induction inputs generalizing past state events with
  | nil =>
      obtain ⟨rfl, rfl⟩ : [] = events ∧ state = final := by simpa [run] using ran
      refine ⟨by simpa using initial, ?_⟩
      intro front event back split
      simp at split
  | cons input inputs ih =>
      obtain ⟨output, next, later, reaction, rest, rfl⟩ := run_cons ran
      have kept := preserved past state input output next initial reaction
        (guarded _ (List.mem_cons_self ..))
      obtain ⟨last, holds⟩ := ih _ next later kept rest
        (fun event member => guarded event (List.mem_cons_of_mem _ member))
      refine ⟨by simpa using last, ?_⟩
      intro front event back split
      cases front with
      | nil =>
          obtain ⟨rfl, rfl⟩ : _ = event ∧ later = back := by simpa using split
          exact ⟨by simpa using initial, reaction⟩
      | cons first front =>
          obtain ⟨rfl, rfl⟩ : _ = first ∧ later = front ++ event :: back := by simpa using split
          simpa using holds front event back rfl

/-- The invariant rule for states alone. -/
theorem run_reaches {Inv : State → Prop} {Guard : Event State Input Output → Prop}
    (preserved : ∀ before input output after, Inv before → step before input = some (output, after) →
      Guard ⟨before, input, output, after⟩ → Inv after) (initial : Inv state)
    (ran : run step state inputs = some (events, final)) (guarded : ∀ event ∈ events, Guard event) :
    ∀ reached, Reached events final reached → Inv reached := by
  obtain ⟨last, before⟩ := run_invariant (fun _ => Inv) Guard
    (fun _ before input output after => preserved before input output after) inputs [] state final
    events initial ran guarded
  rintro reached (rfl | ⟨event, member, rfl⟩)
  · exact last
  · obtain ⟨front, back, split⟩ := List.append_of_mem member
    exact (before front event back split).1

/-- What is decided of a run that can be carried out holds of a run. -/
theorem exists_run {P : List (Event State Input Output) → State → Prop}
    [∀ events final, Decidable (P events final)]
    (checked : (run step state inputs).any (fun ran => decide (P ran.1 ran.2)) = true) :
    ∃ events final, run step state inputs = some (events, final) ∧ P events final := by
  obtain ⟨⟨events, final⟩, ran, holds⟩ := (Option.any_eq_true _ _).mp checked
  exact ⟨events, final, ran, of_decide_eq_true holds⟩

/-- The same of what follows from it. -/
theorem exists_run_of (P : List (Event State Input Output) → State → Prop)
    [∀ events final, Decidable (P events final)]
    {Q : List (Event State Input Output) → State → Prop}
    (checked : (run step state inputs).any (fun ran => decide (P ran.1 ran.2)) = true)
    (concludes : ∀ events final, run step state inputs = some (events, final) → P events final →
      Q events final) :
    ∃ events final, run step state inputs = some (events, final) ∧ Q events final := by
  obtain ⟨events, final, ran, holds⟩ := exists_run checked
  exact ⟨events, final, ran, concludes events final ran holds⟩

/-- A value that every event changes in a known way has been changed by all of them in
turn. -/
theorem run_fold {Value : Type*} (value : State → Value)
    (change : Value → Event State Input Output → Value)
    (ran : run step state inputs = some (events, final))
    (changes : ∀ event ∈ events, value event.after = change (value event.before) event) :
    value final = events.foldl change (value state) := by
  induction inputs generalizing state events with
  | nil =>
      obtain ⟨rfl, rfl⟩ : [] = events ∧ state = final := by simpa [run] using ran
      rfl
  | cons input inputs ih =>
      obtain ⟨output, next, later, -, rest, rfl⟩ := run_cons ran
      obtain ⟨first, others⟩ := List.forall_mem_cons.mp changes
      rw [ih rest others]
      exact congrArg (later.foldl change) first

/-! ## Two machines side by side -/

variable {α β γ δ : Type*} {Related : α → β → Prop} {Continued : γ → δ → Prop} {first : Option α}
  {second : Option β}

/-- Related results lead to related results, or both are missing. -/
theorem rel_bind {f : α → Option γ} {g : β → Option δ} (related : Option.Rel Related first second)
    (continued : ∀ left right, Related left right → Option.Rel Continued (f left) (g right)) :
    Option.Rel Continued (first.bind f) (second.bind g) := by
  cases related with
  | none => exact .none
  | some both => exact continued _ _ both

theorem rel_map {f : α → γ} {g : β → δ} (related : Option.Rel Related first second)
    (continued : ∀ left right, Related left right → Continued (f left) (g right)) :
    Option.Rel Continued (first.map f) (second.map g) := by
  cases related with
  | none => exact .none
  | some both => exact .some (continued _ _ both)

end Camelmailer.Machine
