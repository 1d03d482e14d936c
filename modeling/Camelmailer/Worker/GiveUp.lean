import Camelmailer.Worker.QueueRows

/-!
# Giving up

A row counts how often its message has been tried. The count goes up when a worker puts the row off,
and a worker that finds it at the limit gives the message up. A worker that dies after it has handed
a message to the outside leaves the count as it was, and the row is tried once more than it counts.
-/

namespace Camelmailer.Worker.GiveUp

open Utf8 Db Requests QueueRows

/-! ## Attempts -/

/-- A worker that has taken up a row and has handed its message to the outside. -/
def attemptsOn (id : Nat) (request : Request Work Command Fault Reply) : Bool :=
  (takenBy request.history).any (fun row => row.id = id) && attemptedBy request.history

/-- Such a worker that has settled the row. -/
def settledOn (id : Nat) (request : Request Work Command Fault Reply) : Bool :=
  attemptsOn id request && settledBy request.history

/-- Such a worker that has not settled the row. -/
def openOn (id : Nat) (request : Request Work Command Fault Reply) : Bool :=
  attemptsOn id request && !settledBy request.history

/-- An attempt is settled or open. -/
theorem attempts_number (state : Delivering) (id : Nat) :
    state.number (attemptsOn id) = state.number (settledOn id) + state.number (openOn id) := by
  unfold State.number
  induction state.requests with
  | nil => rfl
  | cons request requests ih =>
      cases attempted : attemptsOn id request <;> cases settled : settledBy request.history <;>
        simp [settledOn, openOn, attempted, settled]
      all_goals omega

section Continued

variable {settings : Settings} {tables : Tables} {β : Type} {command : Command β} {answer : β}
  {request : Request Work Command Fault Reply} {next : Handler Reply} {id : Nat}

/-- A worker that hands a message to the outside holds a row, and does not settle it with that. -/
theorem attempting (bound : Bound settings request.history β command)
    (attempted : attempts ⟨command, answer⟩ = true) :
    settles ⟨command, answer⟩ = false ∧ ∃ queued, Holds request.history queued := by
  cases command
  case send domain returnPath rcptTo rawMessage =>
    obtain ⟨queued, message, busy, -⟩ := bound
    exact ⟨rfl, queued, busy.toHolds⟩
  case post url message =>
    obtain ⟨-, -, queued, holds⟩ := bound
    exact ⟨rfl, queued, holds⟩
  all_goals cases attempted

/-- A worker that settles a row holds it. It puts it off below the limit, or removes it. -/
theorem settling (acquainted : Acquainted tables request.history)
    (bound : Bound settings request.history β command)
    (settled : settles ⟨command, answer⟩ = true) :
    attempts ⟨command, answer⟩ = false ∧ ∃ queued, Holds request.history queued ∧
      ((queued.attempts + 1 < settings.maximumDeliveryAttempts ∧
          moved ⟨command, answer⟩ queued = true) ∨
        removes ⟨command, answer⟩ queued = true) := by
  cases command
  case complete id =>
    obtain ⟨queued, holds, rfl, -⟩ := bound
    refine ⟨rfl, queued, holds, .inr ?_⟩
    rw [removes, Bool.and_eq_true, decide_eq_true_eq]
    exact ⟨settled, rfl⟩
  case retry id attempts =>
    obtain ⟨queued, holds, rfl, rfl, less, -⟩ := bound
    refine ⟨rfl, queued, holds, .inl ⟨less, ?_⟩⟩
    rw [moved, Bool.and_eq_true, decide_eq_true_eq]
    exact ⟨settled, rfl⟩
  case recordOutboundDelivery serverId messageId queuedId result action event payload =>
    obtain ⟨concerns, -, queued, holds, rfl, concludes⟩ := bound
    refine ⟨rfl, queued, holds, ?_⟩
    have isOf := QueueRow.isOf_some.mpr ⟨rfl, Concerns.row acquainted concerns holds⟩
    cases answer with
    | error error => cases settled
    | ok recorded =>
        rcases concludes.way with ⟨rfl, -⟩ | ⟨rfl, -, less⟩
        · simp [removes, Except.toBool, isOf]
        · cases recorded with
          | true => exact .inl ⟨less, by simp [moved, Except.toOption, isOf]⟩
          | false => exact .inr (by simp [removes, Except.toBool, Except.toOption, isOf])
  case recordUnmatchedBounce serverId bounceId queuedId category =>
    obtain ⟨concerns, queued, holds, rfl⟩ := bound
    refine ⟨rfl, queued, holds, .inr ?_⟩
    rw [removes, Bool.and_eq_true]
    exact ⟨settled, QueueRow.isOf_some.mpr ⟨rfl, Concerns.row acquainted concerns holds⟩⟩
  all_goals cases settled

/-- Whose attempts an answer can change: those of a worker that holds a row. -/
theorem attemptsOn_continued (bound : Bound settings request.history β command)
    (quiet : attempts ⟨command, answer⟩ = false) :
    attemptsOn id (request.continued command answer next) = attemptsOn id request := by
  rw [attemptsOn, attemptsOn, Request.continued, takenBy_append, attemptedBy_append, quiet,
    Bool.or_false]
  cases taken : takes ⟨command, answer⟩ with
  | none => rw [Option.or_none]
  | some queued =>
      obtain ⟨worker, same⟩ := takes_some taken
      cases same
      have started : request.history = [] := bound
      simp [started, attemptedBy]

end Continued

section Numbers

variable {settings : Settings} {state : Delivering} {after : Tables} {β : Type}
  {command : Command β} {answer : β} {index : Nat} {request : Request Work Command Fault Reply}
  {next : Handler Reply} {queued : QueueRow}

theorem openOn_holds (holds : Holds request.history queued) (id : Nat) :
    openOn id request = (decide (queued.id = id) && attemptedBy request.history) := by
  simp [openOn, attemptsOn, holds.taken, holds.unsettled]

theorem settledOn_holds (holds : Holds request.history queued) (id : Nat) :
    settledOn id request = false := by
  simp [settledOn, holds.unsettled]

/-- A worker that goes on without an attempt and without settling its row. -/
theorem continued_quiet (bound : Bound settings request.history β command)
    (quiet : attempts ⟨command, answer⟩ = false) (unsettling : settles ⟨command, answer⟩ = false)
    (next : Handler Reply) (id : Nat) :
    settledOn id (request.continued command answer next) = settledOn id request ∧
      openOn id (request.continued command answer next) = openOn id request := by
  have settled : settledBy (request.continued command answer next).history =
      settledBy request.history := by
    rw [Request.continued, settledBy_append, unsettling, Bool.or_false]
  rw [settledOn, openOn, attemptsOn_continued bound quiet, settled]
  exact ⟨rfl, rfl⟩

/-- A worker after an attempt. -/
theorem continued_attempt (holds : Holds request.history queued)
    (attempted : attempts ⟨command, answer⟩ = true) (unsettling : settles ⟨command, answer⟩ = false)
    (next : Handler Reply) (id : Nat) :
    settledOn id (request.continued command answer next) = false ∧
      openOn id (request.continued command answer next) = decide (queued.id = id) := by
  have still : Holds (request.continued command answer next).history queued :=
    holds.extend unsettling
  refine ⟨settledOn_holds still id, ?_⟩
  rw [openOn_holds still, Request.continued, attemptedBy_append, attempted, Bool.or_true,
    Bool.and_true]

/-- A worker that has settled its row. -/
theorem continued_settled (holds : Holds request.history queued)
    (bound : Bound settings request.history β command)
    (quiet : attempts ⟨command, answer⟩ = false) (settled : settles ⟨command, answer⟩ = true)
    (next : Handler Reply) (id : Nat) :
    settledOn id (request.continued command answer next) = openOn id request ∧
      openOn id (request.continued command answer next) = false := by
  have done : settledBy (request.continued command answer next).history = true := by
    rw [Request.continued, settledBy_append, settled, Bool.or_true]
  rw [settledOn, openOn, openOn, attemptsOn_continued bound quiet, done, holds.unsettled]
  exact ⟨rfl, Bool.and_false _⟩

end Numbers

/-! ## The limit -/

/-- The row that a command may take up. -/
def picks {β : Type} (choice : Choice) : Command β → Option Nat
  | .dequeue _ => choice.picked
  | _ => none

/-- A row is taken up again only when everyone who has tried its message has settled it. -/
def AfterSettling (due : Due Tables Work Choice Command Fault Reply) : Prop :=
  ∀ id ∈ picks due.choice due.command, ∀ request ∈ due.state.requests, openOn id request = false

instance : DecidablePred AfterSettling := fun due =>
  inferInstanceAs (Decidable (∀ id ∈ picks due.choice due.command,
    ∀ request ∈ due.state.requests, openOn id request = false))

/-- A row has room for one more attempt and counts those that are settled. Those that are open are
of the worker that holds it. -/
structure Limited (settings : Settings) (state : Delivering) : Prop where
  acquainted : AllAcquainted state
  leased : Leased settings state
  room : ∀ row ∈ state.tables.queue.rows, row.attempts < settings.maximumDeliveryAttempts
  counted : ∀ row ∈ state.tables.queue.rows, state.number (settledOn row.id) ≤ row.attempts
  alone : ∀ (first second : Nat) one other row, first ≠ second →
    state.requests[first]? = some one → state.requests[second]? = some other →
    Holds one.history row → InTime settings state.tables row → openOn row.id other = false
  all : ∀ id, state.number (settledOn id) + state.number (openOn id) ≤
    settings.maximumDeliveryAttempts

section Limited

variable {settings : Settings} {choice : Choice} {state : Delivering} {tables after : Tables}
  {β : Type} {command : Command β} {answer : β} {index : Nat}
  {request : Request Work Command Fault Reply} {next : Handler Reply} {queued : QueueRow}

theorem taken_picked (taken : takes ⟨command, answer⟩ = some queued)
    (responds : respond settings choice command tables = (answer, after)) :
    picks choice command = some queued.id := by
  obtain ⟨worker, entry⟩ := takes_some taken
  cases entry
  obtain ⟨error, failed, -⟩ | ⟨given, rfl⟩ := transacted_cases responds
  · cases failed
  · unfold Tables.dequeue at given
    split at given
    · cases given
    · next row found =>
        cases given
        obtain ⟨found, -⟩ := Option.filter_eq_some_iff.mp found
        obtain ⟨id, picked, found⟩ := Option.bind_eq_some_iff.mp found
        rw [picks, picked]
        exact congrArg some (Table.find_some found).2.symm

/-- A row that is put off has been settled and counts one more; every other row counts as before. -/
theorem requeues_attempts {row new : QueueRow}
    (requeues : Requeues settings tables ⟨command, answer⟩ row new) :
    (new.attempts = row.attempts ∧
        (settles ⟨command, answer⟩ = true → moved ⟨command, answer⟩ row = false)) ∨
      new.attempts = row.attempts + 1 := by
  cases requeues with
  | unchanged still => exact .inl ⟨rfl, fun _ => still⟩
  | taken ready => exact .inl ⟨rfl, nofun⟩
  | postponed => exact .inr rfl
  | delayed => exact .inr rfl
  | hastened unlocked => exact .inl ⟨rfl, nofun⟩

/-- Only who holds a row puts it off. -/
theorem requeues_mover (bound : Bound settings request.history β command) {row new : QueueRow}
    (requeues : Requeues settings tables ⟨command, answer⟩ row new) :
    new.attempts = row.attempts ∨
      (∃ holder, Holds request.history holder ∧ holder.id = row.id) ∧
        settles ⟨command, answer⟩ = true := by
  cases requeues with
  | unchanged still => exact .inl rfl
  | taken ready => exact .inl rfl
  | postponed =>
      obtain ⟨holder, holds, same, -⟩ := bound
      exact .inr ⟨⟨holder, holds, same⟩, rfl⟩
  | delayed =>
      obtain ⟨-, -, holder, holds, same, -⟩ := bound
      exact .inr ⟨⟨holder, holds, same⟩, rfl⟩
  | hastened unlocked => exact .inl rfl

theorem enqueues_attempts {row : QueueRow} (enqueues : Enqueues tables ⟨command, answer⟩ row) :
    row.attempts = 0 := by
  cases enqueues <;> rfl

/-- Where a row of the queue comes from, and what it counts. -/
theorem row_after (acquainted : Acquainted tables request.history)
    (present : ∀ holder, Holds request.history holder → holder ∈ tables.queue.rows)
    (bound : Bound settings request.history β command)
    (responds : respond settings choice command tables = (answer, after)) {row : QueueRow}
    (member : row ∈ after.queue.rows) :
    (row.id = tables.queue.next ∧ row.attempts = 0) ∨
      ∃ old ∈ tables.queue.rows, old.id = row.id ∧
        ((row.attempts = old.attempts ∧ (settles ⟨command, answer⟩ = true →
            ∀ holder, Holds request.history holder → holder.id ≠ old.id)) ∨
          (row.attempts = old.attempts + 1 ∧
            old.attempts + 1 < settings.maximumDeliveryAttempts)) := by
  rcases (respond_queue responds).origin row member with ⟨old, before, requeues, kept⟩ | enqueues
  · refine .inr ⟨old, before, requeues.same.1.symm, ?_⟩
    cases settled : settles ⟨command, answer⟩ with
    | false =>
        rcases requeues_mover bound requeues with same | ⟨-, other⟩
        · exact .inl ⟨same, nofun⟩
        · rw [settled] at other
          cases other
    | true =>
        obtain ⟨-, holder, holds, way⟩ := settling acquainted bound settled
        have unique {another : QueueRow} (holdsToo : Holds request.history another) :
            another = holder := Option.some.inj (holdsToo.taken.symm.trans holds.taken)
        by_cases own : holder.id = old.id
        · obtain rfl := Table.unique (present holder holds) before own
          rcases way with ⟨less, put⟩ | gone
          · rcases requeues_attempts requeues with ⟨-, still⟩ | more
            · rw [still settled] at put
              cases put
            · exact .inr ⟨more, less⟩
          · rw [gone] at kept
            cases kept
        · left
          rcases requeues_mover bound requeues with same | ⟨⟨another, holdsToo, sameId⟩, -⟩
          · refine ⟨same, fun _ another holdsToo sameId => own ?_⟩
            rw [← unique holdsToo]
            exact sameId
          · rw [unique holdsToo] at sameId
            exact absurd sameId own
  · exact .inl ⟨enqueues.fresh, enqueues_attempts enqueues⟩

/-- Nobody has tried the message of a row that is still to be added. -/
theorem settledOn_fresh (acquainted : AllAcquainted state) :
    state.number (settledOn state.tables.queue.next) = 0 := by
  apply State.number_zero
  intro other member
  cases taken : takenBy other.history with
  | none => simp [settledOn, attemptsOn, taken]
  | some row =>
      have below := (acquainted other member).row row taken
      have different : row.id ≠ state.tables.queue.next := Nat.ne_of_lt below.below
      simp [settledOn, attemptsOn, taken, different]

/-- What an answer does to the attempts on a row. -/
theorem attempts_after (acquainted : Acquainted state.tables request.history)
    (found : state.requests[index]? = some request)
    (bound : Bound settings request.history β command) {new : Delivering}
    (advanced : new = { state with tables := after }.put index
      (request.continued command answer next)) (id : Nat) :
    (new.number (settledOn id) = state.number (settledOn id) ∧
      new.number (openOn id) = state.number (openOn id)) ∨
    (∃ queued, Holds request.history queued ∧ queued.id = id ∧
      new.number (settledOn id) = state.number (settledOn id) ∧
      new.number (openOn id) + (openOn id request).toNat = state.number (openOn id) + 1) ∨
    ∃ queued, Holds request.history queued ∧ queued.id = id ∧
      settles ⟨command, answer⟩ = true ∧
      new.number (settledOn id) = state.number (settledOn id) + (openOn id request).toNat ∧
      new.number (openOn id) + (openOn id request).toNat = state.number (openOn id) := by
  subst advanced
  have settledCount := State.number_put (settledOn id) found after
    (request.continued command answer next)
  have openCount := State.number_put (openOn id) found after
    (request.continued command answer next)
  cases attempted : attempts ⟨command, answer⟩ with
  | true =>
      obtain ⟨unsettling, queued, holds⟩ := attempting bound attempted
      obtain ⟨settledNow, openNow⟩ := continued_attempt holds attempted unsettling next id
      rw [settledNow, settledOn_holds holds] at settledCount
      rw [openNow] at openCount
      by_cases own : queued.id = id
      · rw [decide_eq_true own] at openCount
        exact .inr (.inl ⟨queued, holds, own, settledCount, openCount⟩)
      · rw [openOn_holds holds, decide_eq_false own] at openCount
        exact .inl ⟨settledCount, openCount⟩
  | false =>
      cases settled : settles ⟨command, answer⟩ with
      | true =>
          obtain ⟨-, queued, holds, -⟩ := settling acquainted bound settled
          obtain ⟨settledNow, openNow⟩ := continued_settled holds bound attempted settled next id
          rw [settledNow, settledOn_holds holds] at settledCount
          rw [openNow] at openCount
          by_cases own : queued.id = id
          · exact .inr (.inr ⟨queued, holds, own, rfl, settledCount, openCount⟩)
          · rw [openOn_holds holds, decide_eq_false own] at settledCount openCount
            exact .inl ⟨settledCount, openCount⟩
      | false =>
          obtain ⟨settledNow, openNow⟩ := continued_quiet bound attempted settled next id
          exact .inl ⟨State.number_unchanged found after settledNow,
            State.number_unchanged found after openNow⟩

/-- The attempts that are open are those of the worker that holds the row. -/
theorem Limited.opened (limited : Limited settings state)
    (found : state.requests[index]? = some request) (holds : Holds request.history queued)
    (inTime : InTime settings state.tables queued) :
    state.number (openOn queued.id) = (openOn queued.id request).toNat := by
  apply State.number_alone found
  intro place other different there
  exact limited.alone index place request other queued (Ne.symm different) found there holds inTime

end Limited

/-- What is demanded of the answers of a run. -/
def Accountable (settings : Settings) (due : Due Tables Work Choice Command Fault Reply) : Prop :=
  OnTime settings due ∧ AfterSettling due

theorem limited_kept (functions : Functions) (settings : Settings)
    (positive : 0 < settings.maximumDeliveryAttempts) :
    Kept (delivery functions settings) (fun _ => Bound settings) (Accountable settings)
      (Limited settings) where
  start state call inv := by
    have idle (id : Nat) : settledOn id ((delivery functions settings).opened call) = false ∧
        openOn id ((delivery functions settings).opened call) = false := by
      simp [settledOn, openOn, attemptsOn, Service.opened, takenBy]
    refine ⟨(acquainted_kept functions settings).start state call inv.acquainted,
      (leased_kept functions settings).start state call inv.leased, inv.room, ?_, ?_, ?_⟩
    · intro row member
      rw [State.number_opened state (idle row.id).1]
      exact inv.counted row member
    · intro first second one other row different here there holds inTime
      obtain ⟨-, rfl⟩ | there := opened_cases there
      · exact (idle row.id).2
      · obtain ⟨-, rfl⟩ | here := opened_cases here
        · have taken := holds.taken
          simp [Service.opened, takenBy] at taken
        · exact inv.alone first second one other row different here there holds inTime
    · intro id
      rw [State.number_opened state (idle id).1, State.number_opened state (idle id).2]
      exact inv.all id
  answer state index choice request β command next answer tables inv found bound executed held := by
    obtain ⟨onTime, afterSettling⟩ := held
    have responds := Option.some.inj executed
    have member := List.mem_of_getElem? found
    have acquainted := inv.acquainted request member
    have inTime (queued : QueueRow) (holds : Holds request.history queued) :
        InTime settings state.tables queued := onTime holds.unsettled queued holds.taken
    have present (queued : QueueRow) (holds : Holds request.history queued) :
        queued ∈ state.tables.queue.rows :=
      inv.leased.present request member queued holds (inTime queued holds)
    obtain ⟨new, advanced⟩ : ∃ new, new = { state with tables := tables }.put index
        (request.continued command answer (next answer)) := ⟨_, rfl⟩
    have counts := attempts_after acquainted found bound advanced
    rw [← advanced]
    refine ⟨?_, ?_, ?_, ?_, ?_, ?_⟩
    · rw [advanced]
      exact (acquainted_kept functions settings).answer state index choice request command next answer
        tables inv.acquainted found bound executed trivial
    · rw [advanced]
      exact (leased_kept functions settings).answer state index choice request command next answer
        tables inv.leased found bound executed onTime
    · intro row inside
      rw [advanced] at inside
      rcases row_after acquainted present bound responds inside with ⟨-, zero⟩ |
        ⟨old, before, -, ⟨same, -⟩ | ⟨more, less⟩⟩
      · rw [zero]
        exact positive
      · rw [same]
        exact inv.room old before
      · rw [more]
        exact less
    · intro row inside
      rw [advanced] at inside
      rcases row_after acquainted present bound responds inside with ⟨fresh, zero⟩ |
        ⟨old, before, same, ⟨still, other⟩ | ⟨more, -⟩⟩
      · have none := settledOn_fresh inv.acquainted
        rw [← fresh] at none
        rcases counts row.id with ⟨settled, -⟩ | ⟨queued, -, -, settled, -⟩ |
          ⟨queued, holds, own, -⟩
        · rw [settled, none]
          exact Nat.zero_le _
        · rw [settled, none]
          exact Nat.zero_le _
        · exact absurd (own.trans fresh)
            (Nat.ne_of_lt (state.tables.queue.below queued (present queued holds)))
      · have counted := inv.counted old before
        rw [← same, still]
        rcases counts old.id with ⟨settled, -⟩ | ⟨queued, -, -, settled, -⟩ |
          ⟨queued, holds, own, settling, -⟩
        · rw [settled]
          exact counted
        · rw [settled]
          exact counted
        · exact absurd own (other settling queued holds)
      · have counted := inv.counted old before
        have one := (openOn old.id request).toNat_le
        rw [← same]
        rcases counts old.id with ⟨settled, -⟩ | ⟨queued, -, -, settled, -⟩ |
          ⟨queued, -, -, -, settled, -⟩
        · omega
        · omega
        · omega
    · intro first second one other row different foundOne foundOther holds still
      rw [advanced] at foundOne foundOther still
      have early := still.before responds
      obtain ⟨rfl, rfl⟩ | ⟨notFirst, here⟩ := State.put_cases foundOne
      · obtain ⟨rfl, -⟩ | ⟨notSecond, there⟩ := State.put_cases foundOther
        · exact absurd rfl different
        · rcases holds.of_append with ⟨before, -⟩ | ⟨-, taken⟩
          · exact inv.alone first second request other row different found there before early
          · exact afterSettling row.id (taken_picked taken responds) other
              (List.mem_of_getElem? there)
      · obtain ⟨rfl, rfl⟩ | ⟨notSecond, there⟩ := State.put_cases foundOther
        · have before := inv.alone first second one request row different here found holds early
          cases attempted : attempts ⟨command, answer⟩ with
          | true =>
              obtain ⟨unsettling, queued, own⟩ := attempting bound attempted
              have apart := inv.leased.apart second first request one queued row (Ne.symm different)
                found here own (inTime queued own) holds early
              rw [(continued_attempt own attempted unsettling (next answer) row.id).2]
              exact decide_eq_false apart
          | false =>
              cases settled : settles ⟨command, answer⟩ with
              | true =>
                  obtain ⟨-, queued, own, -⟩ := settling acquainted bound settled
                  exact (continued_settled own bound attempted settled (next answer) row.id).2
              | false =>
                  rw [(continued_quiet bound attempted settled (next answer) row.id).2]
                  exact before
        · exact inv.alone first second one other row different here there holds early
    · intro id
      rcases counts id with ⟨settled, opened⟩ | ⟨queued, holds, rfl, settled, opened⟩ |
        ⟨queued, holds, rfl, -, settled, opened⟩
      · rw [settled, opened]
        exact inv.all id
      · have counted := inv.counted queued (present queued holds)
        have room := inv.room queued (present queued holds)
        have alone := inv.opened found holds (inTime queued holds)
        omega
      · have all := inv.all queued.id
        omega
  disturb state elapsed tables inv disturbed := by
    have acquainted := (acquainted_kept functions settings).disturb state elapsed tables
      inv.acquainted disturbed
    have leased := (leased_kept functions settings).disturb state elapsed tables inv.leased disturbed
    cases disturbed
    refine ⟨acquainted, leased, inv.room, inv.counted, ?_, inv.all⟩
    intro first second one other row different here there holds inTime
    exact inv.alone first second one other row different here there holds inTime.earlier

/-! ## What becomes of a message that is given up -/

/-- The server, the message and the row of a message that is given up. -/
def givesUp {β : Type} : Command β → Option (Id × Nat × Nat)
  | .recordOutboundDelivery serverId messageId queuedId result .complete _ _ =>
      if result.status = .hardFail then some (serverId, messageId, queuedId) else none
  | _ => none

/-- A worker whose outgoing message has failed for the last time gives it up. -/
def Resolves (settings : Settings) (history : List (Answered Command)) (β : Type)
    (command : Command β) : Prop :=
  ∀ message, loadedBy history = some message → message.scope = .outgoing →
    ∀ response, sentBy history = some (.softFail response) →
      ∀ queued, takenBy history = some queued →
        settings.maximumDeliveryAttempts ≤ queued.attempts + 1 →
        givesUp command = some (message.serverId, message.id, queued.id)

section Resolves

variable {functions : Functions} {settings : Settings} {history : List (Answered Command)}
  {queued : QueueRow} {message : StoredMessage}

theorem resolves_unsent {β : Type} {command : Command β} (unsent : sentBy history = none) :
    Resolves settings history β command := by
  intro message _ _ response soft
  rw [unsent] at soft
  cases soft

theorem recordSend_resolves {outcome : SendOutcome} (busy : Busy history queued message)
    (sent : sentBy history = some outcome) :
    Program.Safe (Resolves settings) Any (recordSend functions settings queued message outcome)
      history := by
  have other {β : Type} {command : Command β}
      (different : ∀ response, outcome ≠ .softFail response) : Resolves settings history β command := by
    intro _ _ _ response soft
    rw [sent] at soft
    exact absurd (Option.some.inj soft) (different response)
  cases outcome with
  | sent response tls | hardFail response =>
      refine ⟨other nofun, fun answer => ?_⟩
      cases answer <;> trivial
  | softFail response =>
      unfold recordSend
      split_ifs with limit
      · refine ⟨?_, fun answer => ?_⟩
        · intro loaded load _ _ _ row taken _
          obtain rfl := Option.some.inj (busy.loaded.symm.trans load)
          obtain rfl := Option.some.inj (busy.taken.symm.trans taken)
          rfl
        · cases answer <;> trivial
      · refine ⟨?_, fun answer => ?_⟩
        · intro _ _ _ _ _ row taken reached
          obtain rfl := Option.some.inj (busy.taken.symm.trans taken)
          exact absurd reached limit
        · cases answer <;> trivial

theorem processOutgoing_resolves {serverToken : Text} (busy : Busy history queued message)
    (unsent : sentBy history = none) :
    Program.Safe (Resolves settings) Any
      (processOutgoing functions settings queued message serverToken) history := by
  have extend {rest : List (Answered Command)} (entry : Answered Command)
      (unsent : sentBy rest = none) (quiet : sends entry = none) : sentBy (rest ++ [entry]) = none := by
    rw [sentBy_append, unsent, quiet]
    rfl
  unfold processOutgoing
  split_ifs with bounced
  · refine ⟨resolves_unsent unsent, fun answer => ?_⟩
    cases answer <;> trivial
  · refine ⟨resolves_unsent unsent, fun answer => ?_⟩
    cases answer with
    | error error => trivial
    | ok suppressed =>
        have unsent := extend ⟨.addressSuppressed message.serverId message.rcptTo
          message.streamId, .ok suppressed⟩ unsent rfl
        cases suppressed with
        | true =>
            refine ⟨resolves_unsent unsent, fun answer => ?_⟩
            cases answer <;> trivial
        | false =>
            refine ⟨resolves_unsent unsent, fun answer => ?_⟩
            cases answer with
            | error error => trivial
            | ok rawMessage =>
                have unsent := extend ⟨.render message, .ok rawMessage⟩ unsent rfl
                refine ⟨resolves_unsent unsent, fun outcome => ?_⟩
                apply recordSend_resolves (((busy.extend rfl).extend rfl).extend rfl)
                rw [sentBy_append, unsent]
                rfl

theorem work_resolves (call : Work) :
    Program.Safe (Resolves settings) Any (work functions settings call) [] := by
  apply safe_of_loaded
  · intro rest β command unloaded message loaded
    rw [unloaded] at loaded
    cases loaded
  · intro history queued loaded busy unsent
    unfold processLoaded
    split
    · exact processOutgoing_resolves busy unsent
    · next incoming =>
        apply Program.Safe.of_prefix
        · intro later β command longer message again outgoing
          rw [Bounces.loadedBy_longer longer busy.loaded] at again
          obtain rfl := Option.some.inj again
          rw [incoming] at outgoing
          cases outgoing
        · exact fun _ _ _ => trivial

end Resolves

/-- What a worker has loaded is stored, and what it has sent is an outgoing message. -/
structure Traced (state : Delivering) : Prop where
  stored : ∀ request ∈ state.requests, ∀ message, loadedBy request.history = some message →
    ∃ row ∈ state.tables.messages.rows, row.id = message.id
  outgoing : ∀ request ∈ state.requests, (sentBy request.history).isSome = true →
    ∃ message, loadedBy request.history = some message ∧ message.scope = .outgoing

theorem sends_outgoing {settings : Settings} {history : List (Answered Command)} {β : Type}
    {command : Command β} {answer : β} (bound : Bound settings history β command)
    (sent : (sends ⟨command, answer⟩).isSome = true) :
    ∃ message, loadedBy history = some message ∧ message.scope = .outgoing := by
  cases command
  case send domain returnPath rcptTo rawMessage =>
    obtain ⟨queued, message, busy, outgoing, -⟩ := bound
    exact ⟨message, busy.loaded, outgoing⟩
  all_goals cases sent

theorem traced_kept (functions : Functions) (settings : Settings) :
    Kept (delivery functions settings) (fun _ => Bound settings) (fun _ => True) Traced where
  start state call inv := by
    refine ⟨?_, ?_⟩
    · intro request member message loaded
      rcases List.mem_append.mp member with old | new
      · exact inv.stored request old message loaded
      · cases List.mem_singleton.mp new
        simp [Service.opened, loadedBy] at loaded
    · intro request member sent
      rcases List.mem_append.mp member with old | new
      · exact inv.outgoing request old sent
      · cases List.mem_singleton.mp new
        simp [Service.opened, sentBy] at sent
  answer state index choice request β command next answer tables inv found bound executed _ := by
    have responds := Option.some.inj executed
    have present := List.mem_of_getElem? found
    have stays {id : Nat} (was : ∃ row ∈ state.tables.messages.rows, row.id = id) :
        ∃ row ∈ tables.messages.rows, row.id = id := by
      obtain ⟨row, there, rfl⟩ := was
      obtain ⟨new, member, rewrites⟩ := message_stays bound responds there
      exact ⟨new, member, rewrites.same.1⟩
    refine ⟨?_, ?_⟩
    · intro other member message loaded
      apply stays
      rcases List.mem_or_eq_of_mem_set member with old | rfl
      · exact inv.stored other old message loaded
      · rw [Request.continued, loadedBy_append] at loaded
        cases earlier : loadedBy request.history with
        | some known =>
            rw [earlier] at loaded
            obtain rfl : known = message := Option.some.inj loaded
            exact inv.stored request present _ earlier
        | none =>
            rw [earlier] at loaded
            exact ⟨message, (loaded_mem loaded responds).1, rfl⟩
    · intro other member sent
      rcases List.mem_or_eq_of_mem_set member with old | rfl
      · exact inv.outgoing other old sent
      · have known : ∃ message, loadedBy request.history = some message ∧
            message.scope = .outgoing := by
          rw [Request.continued, sentBy_append, Option.isSome_or, Bool.or_eq_true] at sent
          rcases sent with before | now
          · exact inv.outgoing request present before
          · exact sends_outgoing bound now
        obtain ⟨message, loaded, outgoing⟩ := known
        refine ⟨message, ?_, outgoing⟩
        rw [Request.continued, loadedBy_append, loaded]
        rfl
  disturb state elapsed tables inv disturbed := by
    cases disturbed
    exact ⟨inv.stored, inv.outgoing⟩

section LastAttempt

variable {settings : Settings} {choice : Choice} {tables after : Tables} {β : Type}
  {command : Command β} {answer : β} {message : StoredMessage} {queuedId : Nat}

/-- A message that is given up is marked so, unless it has bounced. -/
theorem given_up (responds : respond settings choice command tables = (answer, after))
    (gives : givesUp command = some (message.serverId, message.id, queuedId))
    (settled : settles ⟨command, answer⟩ = true) (there : message ∈ tables.messages.rows)
    (outgoing : message.scope = .outgoing) {new : StoredMessage}
    (rewrites : Rewrites tables ⟨command, answer⟩ message new) :
    new.status = .hardFail ∨ message.status = .bounced := by
  cases rewrites with
  | unchanged still =>
      right
      cases command
      case recordOutboundDelivery serverId messageId rowId result action event payload =>
        obtain ⟨rfl, rfl, -⟩ : serverId = message.serverId ∧ messageId = message.id ∧
            result.status = .hardFail := by
          cases action with
          | retry attempts => cases gives
          | complete =>
              rw [givesUp] at gives
              split_ifs at gives with failed
              cases gives
              exact ⟨rfl, rfl, failed⟩
        cases answer with
        | error error => cases settled
        | ok recorded =>
            cases recorded with
            | false => exact unrecorded_bounced responds there outgoing
            | true =>
                by_contra alive
                simp [written, StoredMessage.isOf, outgoing, alive, Except.toOption] at still
      all_goals cases gives
  | @sent _ _ result action _ _ _ alive =>
      left
      cases action with
      | retry attempts => cases gives
      | complete =>
          rw [givesUp] at gives
          split_ifs at gives with failed
          exact failed
  | delivered alive | unmatched is | classified is | restored is correlated
  | linked is uncorrelated present _ | cameBack _ present uncorrelated
  | requeuedInbound is | requeuedOutbound _ retryable stored | judged | purged
  | unlinked => cases gives

/-- Whether a row is removed depends on what it is a row of. -/
theorem removes_same {entry : Answered Command} {row other : QueueRow} (id : row.id = other.id)
    (ofMessage : row.messageId = other.messageId) (ofServer : row.serverId = other.serverId) :
    removes entry row = removes entry other := by
  obtain ⟨command, answer⟩ := entry
  cases command
  all_goals simp only [removes, QueueRow.isOf, id, ofMessage, ofServer]

end LastAttempt

/-- A worker that settles a row whose count is at the limit removes it, and if the delivery has failed
for now, the message is marked as failed for good, unless it has bounced. -/
def GivesUpAtLimit (settings : Settings) (event : DeliveryEvent) : Prop :=
  ∀ (index : Nat) request later queued, event.before.requests[index]? = some request →
    event.after.requests[index]? = some later → Holds request.history queued →
    settledBy later.history = true → settings.maximumDeliveryAttempts ≤ queued.attempts + 1 →
    (∀ row ∈ event.after.tables.queue.rows, row.id ≠ queued.id) ∧
    ∀ response, sentBy request.history = some (.softFail response) →
      ∃ message ∈ event.after.tables.messages.rows, message.id = queued.messageId ∧
        (message.status = .hardFail ∨ ∃ old ∈ event.before.tables.messages.rows,
          old.id = message.id ∧ old.status = .bounced)

section AtLimit

variable {functions : Functions} {settings : Settings}

theorem GivesUpAtLimit.of_same {event : DeliveryEvent}
    (requests : ∀ (index : Nat) request later, event.before.requests[index]? = some request →
      event.after.requests[index]? = some later → later = request) :
    GivesUpAtLimit settings event := by
  intro index request later queued here there holds settled
  rw [requests index request later here there, holds.unsettled] at settled
  cases settled

theorem givesUp_step {before after : Delivering} {action : Action Work Choice Elapsed}
    {output : Unit} (reaction : (delivery functions settings).step before action = some (output, after))
    (faithful : Faithful (fun _ => Bound settings) (fun _ => Any) before)
    (resolved : Faithful (fun _ => Resolves settings) (fun _ => Any) before)
    (known : AllAcquainted before) (traced : Traced before) :
    GivesUpAtLimit settings ⟨before, action, output, after⟩ := by
  obtain ⟨call, rfl, rfl⟩ | ⟨index, choice, request, β, command, next, answer, tables, rfl, found,
    sends, executed, rfl⟩ | ⟨elapsed, tables, rfl, disturbed, rfl⟩ :=
      (delivery functions settings).step_cases reaction
  · apply GivesUpAtLimit.of_same
    intro index request later here there
    obtain ⟨bound, -⟩ := List.getElem?_eq_some_iff.mp here
    rw [List.getElem?_append_left bound] at there
    exact Option.some.inj (there.symm.trans here)
  · intro place other later queued here there holds settled limit
    obtain ⟨rfl, rfl⟩ | ⟨-, unchanged⟩ := State.put_cases there
    · obtain rfl := Option.some.inj (here.symm.trans found)
      have responds := Option.some.inj executed
      have present := List.mem_of_getElem? found
      have acquainted := known _ present
      have bound := faithful place _ found
      have promise := resolved place _ found
      rw [sends] at bound promise
      have settles : settles ⟨command, answer⟩ = true := by
        rw [Request.continued, settledBy_append, holds.unsettled] at settled
        exact settled
      obtain ⟨-, holder, held, ⟨less, -⟩ | gone⟩ := settling acquainted bound.1 settles
      · obtain rfl := Option.some.inj (held.taken.symm.trans holds.taken)
        exact absurd limit (Nat.not_le_of_lt less)
      obtain rfl := Option.some.inj (held.taken.symm.trans holds.taken)
      obtain ⟨below, rows⟩ := acquainted.row _ holds.taken
      refine ⟨?_, ?_⟩
      · intro row member same
        rcases (respond_queue responds).origin row member with ⟨old, was, requeues, kept⟩ | enqueues
        · have sameId := requeues.same.1.symm.trans same
          obtain ⟨ofMessage, ofServer⟩ := rows old was sameId
          rw [removes_same sameId ofMessage ofServer, gone] at kept
          cases kept
        · exact absurd (same.symm.trans enqueues.fresh) (Nat.ne_of_lt below)
      · intro response soft
        obtain ⟨message, loaded, outgoing⟩ := traced.outgoing _ present (by rw [soft]; rfl)
        obtain ⟨row, stored, sameId⟩ := traced.stored _ present message loaded
        obtain ⟨scope, server, -⟩ := (acquainted.message message loaded).holds row stored sameId
        obtain ⟨again, taken, own, -⟩ := acquainted.own message loaded
        obtain rfl := Option.some.inj (taken.symm.trans holds.taken)
        have gives := promise.1 message loaded outgoing response soft _ taken limit
        rw [← server, ← sameId] at gives
        obtain ⟨new, member, rewrites⟩ := message_stays bound.1 responds stored
        refine ⟨new, member, rewrites.same.1.trans (sameId.trans own.symm), ?_⟩
        rcases given_up responds gives settles stored (scope.trans outgoing) rewrites with
          failed | bounced
        · exact .inl failed
        · exact .inr ⟨row, stored, rewrites.same.1.symm, bounced⟩
    · obtain rfl := Option.some.inj (here.symm.trans unchanged)
      rw [holds.unsettled] at settled
      cases settled
  · apply GivesUpAtLimit.of_same
    intro index request later here there
    exact Option.some.inj (there.symm.trans here)

end AtLimit

/-- A worker takes up the row and hands its message to the server of the recipient, which fails for
now. -/
def triesOnce (index : Nat) (worker : Text) : List (Action Work Choice Elapsed) :=
  [.start (.processNext worker), .answer index { picked := some 1 }, .answer index {},
    .answer index {}, .answer index {}, .answer index { outcome := .softFail [] }]

/-- One worker dies before it has tried anything. Two others try, with a request in between that makes
the row due at once. -/
def givenUpInTime : List (Action Work Choice Elapsed) :=
  [.start (.insertMessage (exampleMessage .outgoing "r@b.example")), .answer 0 {},
    .start (.processNext "first"), .answer 1 { picked := some 1 },
    .disturb ⟨100000000000000⟩] ++ triesOnce 2 "second" ++ [.answer 2 {},
    .start (.requeueOutbound 1 1), .answer 3 {}] ++ triesOnce 4 "third" ++ [.answer 4 {}]

/-- Three workers die one after the other when they have tried. -/
def triedAndDied : List (Action Work Choice Elapsed) :=
  [.start (.insertMessage (exampleMessage .outgoing "r@b.example")), .answer 0 {}] ++
    triesOnce 1 "first" ++ [.disturb ⟨100000000000000⟩] ++
    triesOnce 2 "second" ++ [.disturb ⟨100000000000000⟩] ++ triesOnce 3 "third"

end Camelmailer.Worker.GiveUp
