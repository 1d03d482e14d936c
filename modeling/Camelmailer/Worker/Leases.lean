import Camelmailer.Worker.Promises

/-!
# Rows that workers hold

A worker holds the row it has taken up until it settles it. What it has been told about the row and
about its message stays true of them. And as long as its lock is not stale, the row is in the queue
exactly as the worker has taken it, and no other worker holds it.
-/

namespace Camelmailer.Worker

open Utf8 Db Requests

/-! ## What is taken up -/

section Taking

variable {settings : Settings} {choice : Choice} {tables after : Tables} {β : Type}
  {command : Command β} {answer : β} {queued : QueueRow} {entry : Answered Command}

theorem takes_some (taken : takes entry = some queued) :
    ∃ worker, entry = ⟨.dequeue worker, .ok (some queued)⟩ := by
  obtain ⟨command, answer⟩ := entry
  cases command
  case dequeue worker =>
    cases answer with
    | error error => cases taken
    | ok found =>
        obtain rfl : found = some queued := taken
        exact ⟨worker, rfl⟩
  all_goals cases taken

/-- A row that is taken up was ready, and is in the queue with its lock. -/
theorem taken_row (taken : takes ⟨command, answer⟩ = some queued)
    (responds : respond settings choice command tables = (answer, after)) :
    ∃ row ∈ tables.queue.rows, row.isReady tables.now settings.lockWindow = true ∧
      (∃ worker, queued = row.locked tables.now worker) ∧ queued ∈ after.queue.rows := by
  obtain ⟨worker, entry⟩ := takes_some taken
  cases entry
  obtain ⟨error, failed, -⟩ | ⟨given, rfl⟩ := transacted_cases responds
  · cases failed
  · unfold Tables.dequeue at given ⊢
    split at given
    · cases given
    · next row found =>
        cases given
        obtain ⟨found, ready⟩ := Option.filter_eq_some_iff.mp found
        obtain ⟨id, -, found⟩ := Option.bind_eq_some_iff.mp found
        have there := (Table.find_some found).1
        refine ⟨row, there, ready, ⟨worker, rfl⟩, ?_⟩
        exact List.mem_map.mpr ⟨row, there, if_pos rfl⟩

/-- A row keeps its identity, whatever is done to it. -/
theorem Requeues.same {row new : QueueRow} (requeues : Requeues settings tables entry row new) :
    new.id = row.id ∧ new.messageId = row.messageId ∧ new.serverId = row.serverId ∧
      new.domain = row.domain := by
  cases requeues <;> exact ⟨rfl, rfl, rfl, rfl⟩

theorem Enqueues.fresh {row : QueueRow} (enqueues : Enqueues tables entry row) :
    row.id = tables.queue.next := by
  cases enqueues <;> rfl

end Taking

/-! ## What a worker has been told stays true -/

/-- The row with an identifier, now or later, is one of a message of a server. -/
structure RowOf (queued : QueueRow) (tables : Tables) : Prop where
  below : queued.id < tables.queue.next
  holds : ∀ row ∈ tables.queue.rows, row.id = queued.id →
    row.messageId = queued.messageId ∧ row.serverId = queued.serverId

variable {queued : QueueRow} {tables : Tables}

theorem RowOf.respond {settings : Settings} {choice : Choice} {after : Tables} {β : Type}
    {command : Command β} {answer : β} (rowOf : RowOf queued tables)
    (responds : Worker.respond settings choice command tables = (answer, after)) :
    RowOf queued after := by
  have requeued := respond_queue responds
  refine ⟨Nat.lt_of_lt_of_le rowOf.below requeued.next, ?_⟩
  intro row member same
  rcases requeued.origin row member with ⟨old, there, requeues, -⟩ | enqueues
  · obtain ⟨id, message, server, -⟩ := requeues.same
    obtain ⟨oldMessage, oldServer⟩ := rowOf.holds old there (id.symm.trans same)
    exact ⟨message.trans oldMessage, server.trans oldServer⟩
  · exact absurd (enqueues.fresh.symm.trans same) (Nat.ne_of_gt rowOf.below)

/-- An outgoing message that has bounced stays so. -/
def IsBounced (row : StoredMessage) : Prop := row.scope = .outgoing ∧ row.status = .bounced

variable {entry : Answered Command}

theorem bounced_stays {row new : StoredMessage} (rewrites : Rewrites tables entry row new)
    (bounced : IsBounced row) : IsBounced new := by
  obtain ⟨outgoing, status⟩ := bounced
  have other {claim : Prop} (is : row.isBounceMessage = true) : claim := by
    simp [StoredMessage.isBounceMessage, outgoing] at is
  cases rewrites with
  | unchanged | judged | purged | unlinked => exact ⟨outgoing, status⟩
  | delivered alive => exact absurd status alive
  | sent _ alive => exact absurd status alive
  | unmatched is | classified is | restored is correlated
  | linked is uncorrelated present _ => exact other is
  | cameBack _ present uncorrelated => exact ⟨outgoing, rfl⟩
  | requeuedInbound incoming => simp [outgoing] at incoming
  | requeuedOutbound _ retryable stored => simp [status, retryableOutboundStatuses] at retryable

/-- What the message that has been loaded says of the one in the table. -/
def Resembles (message row : StoredMessage) : Prop :=
  row.scope = message.scope ∧ row.serverId = message.serverId ∧ (IsBounced message → IsBounced row)

theorem resembles_stays {message : StoredMessage} {row new : StoredMessage}
    (rewrites : Rewrites tables entry row new) (resembles : Resembles message row) :
    Resembles message new := by
  obtain ⟨scope, server, bounced⟩ := resembles
  obtain ⟨-, sameServer, sameScope⟩ := rewrites.same
  exact ⟨sameScope.trans scope, sameServer.trans server,
    fun before => bounced_stays rewrites (bounced before)⟩

/-- What a worker has been told of its row and of its message is true of them. -/
structure Acquainted (tables : Tables) (history : List (Answered Command)) : Prop where
  row : ∀ queued, takenBy history = some queued → RowOf queued tables
  message : ∀ message, loadedBy history = some message → Fixed (Resembles message) message.id tables
  own : ∀ message, loadedBy history = some message → ∃ queued, takenBy history = some queued ∧
    queued.messageId = message.id ∧ queued.serverId = message.serverId

def AllAcquainted (state : Delivering) : Prop :=
  ∀ request ∈ state.requests, Acquainted state.tables request.history

section Acquainted

variable {settings : Settings} {choice : Choice} {tables after : Tables} {β : Type}
  {command : Command β} {answer : β} {history : List (Answered Command)}

theorem Acquainted.nil : Acquainted tables [] where
  row queued taken := by simp [takenBy] at taken
  message message loaded := by simp [loadedBy] at loaded
  own message loaded := by simp [loadedBy] at loaded

theorem Acquainted.respond (acquainted : Acquainted tables history)
    (responds : Worker.respond settings choice command tables = (answer, after)) :
    Acquainted after history where
  row queued taken := (acquainted.row queued taken).respond responds
  message message loaded := Fixed.respond (fun rewrites _ => resembles_stays rewrites)
    (acquainted.message message loaded) responds
  own := acquainted.own

/-- A message that has been loaded is the one that has been asked for. -/
theorem loaded_asked {message : StoredMessage} (loaded : loads ⟨command, answer⟩ = some message)
    (bound : Bound settings history β command)
    (responds : Worker.respond settings choice command tables = (answer, after)) :
    ∃ queued, Holds history queued ∧ queued.messageId = message.id ∧
      queued.serverId = message.serverId := by
  obtain ⟨serverId, messageId, token, same⟩ := loads_some loaded
  cases same
  obtain ⟨-, queued, holds, rfl, rfl⟩ := bound
  obtain ⟨error, failed, -⟩ | ⟨found, rfl⟩ := transacted_cases responds
  · cases failed
  · obtain ⟨row, there, same⟩ := Option.map_eq_some_iff.mp (Except.ok.inj found).symm
    cases same
    obtain ⟨-, id, server⟩ := Tables.message_some there
    exact ⟨queued, holds, id.symm, server.symm⟩

theorem Acquainted.answered (acquainted : Acquainted tables history)
    (bound : Bound settings history β command)
    (responds : Worker.respond settings choice command tables = (answer, after)) :
    Acquainted after (history ++ [⟨command, answer⟩]) := by
  have stays := acquainted.respond responds
  refine ⟨?_, ?_, ?_⟩
  · intro queued taken
    rw [takenBy_append] at taken
    cases earlier : takenBy history with
    | some known =>
        rw [earlier] at taken
        obtain rfl : known = queued := Option.some.inj taken
        exact stays.row _ earlier
    | none =>
        rw [earlier] at taken
        obtain ⟨row, -, -, -, there⟩ := taken_row taken responds
        refine ⟨after.queue.below queued there, ?_⟩
        intro other member same
        rw [Table.unique member there same]
        exact ⟨rfl, rfl⟩
  · intro message loaded
    rw [loadedBy_append] at loaded
    cases earlier : loadedBy history with
    | some known =>
        rw [earlier] at loaded
        obtain rfl : known = message := Option.some.inj loaded
        exact stays.message _ earlier
    | none =>
        rw [earlier] at loaded
        obtain ⟨there, unchanged⟩ := loaded_mem loaded responds
        exact Fixed.of_mem (unchanged ▸ there) ⟨rfl, rfl, id⟩
  · intro message loaded
    rw [loadedBy_append] at loaded
    have extend (queued : QueueRow) (taken : takenBy history = some queued) :
        takenBy (history ++ [⟨command, answer⟩]) = some queued := by
      rw [takenBy_append, taken]
      rfl
    cases earlier : loadedBy history with
    | some known =>
        rw [earlier] at loaded
        obtain rfl : known = message := Option.some.inj loaded
        obtain ⟨queued, taken, same⟩ := acquainted.own _ earlier
        exact ⟨queued, extend queued taken, same⟩
    | none =>
        rw [earlier] at loaded
        obtain ⟨queued, holds, same⟩ := loaded_asked loaded bound responds
        exact ⟨queued, extend queued holds.taken, same⟩

end Acquainted

/-- Workers stay acquainted with their rows and messages in every run. -/
theorem acquainted_kept (functions : Functions) (settings : Settings) :
    Kept (delivery functions settings) (fun _ => Bound settings) (fun _ => True) AllAcquainted where
  start state call inv := by
    intro request member
    rcases List.mem_append.mp member with old | new
    · exact inv request old
    · cases List.mem_singleton.mp new
      exact .nil
  answer state index choice request β command next answer tables inv found bound executed _ := by
    have responds := Option.some.inj executed
    intro other member
    rcases List.mem_or_eq_of_mem_set member with old | rfl
    · exact (inv other old).respond responds
    · exact (inv request (List.mem_of_getElem? found)).answered bound responds
  disturb state elapsed tables inv disturbed := by
    cases disturbed
    intro request member
    obtain ⟨row, message, own⟩ := inv request member
    refine ⟨fun queued taken => ?_, fun known loaded => ?_, own⟩
    · exact ⟨(row queued taken).below, (row queued taken).holds⟩
    · exact ⟨(message known loaded).below, (message known loaded).holds⟩

/-! ## Locks that are not stale -/

/-- The lock of a row that has been taken up is not stale. -/
def InTime (settings : Settings) (tables : Tables) (queued : QueueRow) : Prop :=
  ∀ since ∈ queued.lockedAt, tables.now ≤ since + settings.lockWindow

instance (settings : Settings) (tables : Tables) (queued : QueueRow) :
    Decidable (InTime settings tables queued) :=
  inferInstanceAs (Decidable (∀ since ∈ queued.lockedAt, _))

/-- No worker holds its row for longer than a lock lasts: what it asks while it holds the row is
asked in time. -/
def OnTime (settings : Settings) (due : Due Tables Work Choice Command Fault Reply) : Prop :=
  settledBy due.request.history = false → ∀ queued ∈ takenBy due.request.history,
    InTime settings due.state.tables queued

instance (settings : Settings) : DecidablePred (OnTime settings) := fun due =>
  inferInstanceAs (Decidable (settledBy due.request.history = false →
    ∀ queued ∈ takenBy due.request.history, InTime settings due.state.tables queued))

/-- A row that a worker has locked. -/
def IsLocked (queued : QueueRow) : Prop :=
  queued.lockedBy.isSome = true ∧ queued.lockedAt.isSome = true

theorem not_ready {settings : Settings} {tables : Tables} (locked : IsLocked queued)
    (inTime : InTime settings tables queued) :
    queued.isReady tables.now settings.lockWindow = false := by
  obtain ⟨worker, owner⟩ := Option.isSome_iff_exists.mp locked.1
  obtain ⟨since, moment⟩ := Option.isSome_iff_exists.mp locked.2
  have fresh : ¬since < tables.now - settings.lockWindow :=
    Int.not_lt.mpr (Int.sub_right_le_of_le_add (inTime since moment))
  simp [QueueRow.isReady, owner, moment, fresh]

/-- While its lock is not stale, a worker that holds a row finds it in the queue as it has taken it,
and it is the only one that holds it. -/
structure Leased (settings : Settings) (state : Delivering) : Prop where
  locked : ∀ request ∈ state.requests, ∀ queued, takenBy request.history = some queued →
    IsLocked queued
  present : ∀ request ∈ state.requests, ∀ queued, Holds request.history queued →
    InTime settings state.tables queued → queued ∈ state.tables.queue.rows
  apart : ∀ (first second : Nat) one other row another, first ≠ second →
    state.requests[first]? = some one → state.requests[second]? = some other →
    Holds one.history row → InTime settings state.tables row →
    Holds other.history another → InTime settings state.tables another → row.id ≠ another.id

section Leased

variable {settings : Settings} {choice : Choice} {tables after : Tables} {β : Type}
  {command : Command β} {answer : β} {history : List (Answered Command)} {row : QueueRow}

/-- A row is removed by the worker that holds it. -/
theorem Removes.holder (bound : Bound settings history β command)
    (removes : Removes ⟨command, answer⟩ row) :
    ∃ queued, Holds history queued ∧ queued.id = row.id := by
  cases removes with
  | completed =>
      obtain ⟨queued, holds, same, -⟩ := bound
      exact ⟨queued, holds, same⟩
  | recorded | stale =>
      obtain ⟨-, -, queued, holds, same, -⟩ := bound
      exact ⟨queued, holds, same⟩
  | unmatched =>
      obtain ⟨-, queued, holds, same⟩ := bound
      exact ⟨queued, holds, same⟩
  | pruned listed => cases bound

/-- A row with a lock that is not stale is changed by the worker that holds it. -/
theorem Requeues.holder (bound : Bound settings history β command) {new : QueueRow}
    (requeues : Requeues settings tables ⟨command, answer⟩ row new) (locked : IsLocked row)
    (inTime : InTime settings tables row) :
    new = row ∨ ∃ queued, Holds history queued ∧ queued.id = row.id := by
  cases requeues with
  | unchanged still => exact .inl rfl
  | taken ready =>
      rw [not_ready locked inTime] at ready
      cases ready
  | postponed =>
      obtain ⟨queued, holds, same, -⟩ := bound
      exact .inr ⟨queued, holds, same⟩
  | delayed =>
      obtain ⟨-, -, queued, holds, same, -⟩ := bound
      exact .inr ⟨queued, holds, same⟩
  | hastened unlocked =>
      have is := locked.1
      simp [unlocked] at is

/-- A row with a lock that is not stale is left alone by everyone else. -/
theorem left_alone (bound : Bound settings history β command)
    (responds : respond settings choice command tables = (answer, after)) (locked : IsLocked row)
    (inTime : InTime settings tables row) (there : row ∈ tables.queue.rows)
    (other : ∀ queued, Holds history queued → queued.id ≠ row.id) : row ∈ after.queue.rows := by
  have kept : removes ⟨command, answer⟩ row = false := by
    by_contra gone
    obtain ⟨queued, holds, same⟩ := (removes_cases (by simpa using gone)).holder bound
    exact other queued holds same
  obtain ⟨new, member, requeues⟩ := (respond_queue responds).fate row there kept
  obtain rfl | ⟨queued, holds, same⟩ := requeues.holder bound locked inTime
  · exact member
  · exact absurd same (other queued holds)

/-- A command that settles nothing leaves the row of its worker alone. -/
theorem settles_of_removes (removes : Removes ⟨command, answer⟩ row)
    (bound : Bound settings history β command) : settles ⟨command, answer⟩ = true := by
  cases removes with
  | pruned listed => cases bound
  | _ => rfl

theorem settles_of_requeues {new : QueueRow}
    (requeues : Requeues settings tables ⟨command, answer⟩ row new) (locked : IsLocked row)
    (inTime : InTime settings tables row) :
    new = row ∨ settles ⟨command, answer⟩ = true := by
  cases requeues with
  | unchanged still => exact .inl rfl
  | taken ready =>
      rw [not_ready locked inTime] at ready
      cases ready
  | postponed => exact .inr rfl
  | delayed => exact .inr rfl
  | hastened unlocked =>
      have is := locked.1
      simp [unlocked] at is

theorem kept_unsettled (bound : Bound settings history β command)
    (responds : respond settings choice command tables = (answer, after)) (locked : IsLocked row)
    (inTime : InTime settings tables row) (there : row ∈ tables.queue.rows)
    (unsettling : settles ⟨command, answer⟩ = false) : row ∈ after.queue.rows := by
  have kept : removes ⟨command, answer⟩ row = false := by
    by_contra gone
    have settled := settles_of_removes (removes_cases (by simpa using gone)) bound
    rw [unsettling] at settled
    cases settled
  obtain ⟨new, member, requeues⟩ := (respond_queue responds).fate row there kept
  obtain rfl | settled := settles_of_requeues requeues locked inTime
  · exact member
  · rw [unsettling] at settled
    cases settled

/-- What a worker holds after an answer, it held before, or it has just taken it up. -/
theorem Holds.of_append {entry : Answered Command} {queued : QueueRow}
    (holds : Holds (history ++ [entry]) queued) :
    (Holds history queued ∧ settles entry = false) ∨
      (takenBy history = none ∧ takes entry = some queued) := by
  obtain ⟨taken, unsettled⟩ := holds
  rw [settledBy_append, Bool.or_eq_false_iff] at unsettled
  rw [takenBy_append] at taken
  cases earlier : takenBy history with
  | some known =>
      rw [earlier] at taken
      obtain rfl : known = queued := Option.some.inj taken
      exact .inl ⟨⟨earlier, unsettled.1⟩, unsettled.2⟩
  | none =>
      rw [earlier] at taken
      exact .inr ⟨rfl, taken⟩

end Leased

variable {settings : Settings}

/-- The time of the tables does not change with an answer. -/
theorem InTime.before {choice : Choice} {tables after : Tables} {β : Type} {command : Command β}
    {answer : β} (responds : respond settings choice command tables = (answer, after))
    (inTime : InTime settings after queued) : InTime settings tables queued := by
  intro since moment
  rw [← (respond_logged responds).now]
  exact inTime since moment

/-- A lock that is not stale was not stale before. -/
theorem InTime.earlier {tables : Tables} {elapsed : Elapsed}
    (inTime : InTime settings { tables with now := tables.now + elapsed.duration } queued) :
    InTime settings tables queued := by
  intro since moment
  have later := inTime since moment
  have passed : (0 : Int) ≤ elapsed.duration := Int.natCast_nonneg _
  exact le_trans (Int.le_add_of_nonneg_right passed) later

theorem leased_kept (functions : Functions) (settings : Settings) :
    Kept (delivery functions settings) (fun _ => Bound settings) (OnTime settings)
      (Leased settings) where
  start state call inv := by
    have idle {queued : QueueRow} : ¬Holds [] queued := by
      intro holds
      have taken := holds.taken
      simp [takenBy] at taken
    refine ⟨?_, ?_, ?_⟩
    · intro request member queued taken
      rcases List.mem_append.mp member with old | new
      · exact inv.locked request old queued taken
      · cases List.mem_singleton.mp new
        simp [Service.opened, takenBy] at taken
    · intro request member queued holds
      rcases List.mem_append.mp member with old | new
      · exact inv.present request old queued holds
      · cases List.mem_singleton.mp new
        exact absurd holds idle
    · intro first second one other row another different here there holds inTime holdsToo
      obtain ⟨-, rfl⟩ | here := opened_cases here
      · exact absurd holds idle
      · obtain ⟨-, rfl⟩ | there := opened_cases there
        · exact absurd holdsToo idle
        · exact inv.apart first second one other row another different here there holds inTime
            holdsToo
  answer state index choice request β command next answer tables inv found bound executed onTime := by
    have responds := Option.some.inj executed
    have present := List.mem_of_getElem? found
    have locked (queued : QueueRow)
        (taken : takenBy (request.history ++ [⟨command, answer⟩]) = some queued) :
        IsLocked queued := by
      rw [takenBy_append] at taken
      cases earlier : takenBy request.history with
      | some known =>
          rw [earlier] at taken
          obtain rfl : known = queued := Option.some.inj taken
          exact inv.locked request present _ earlier
      | none =>
          rw [earlier] at taken
          obtain ⟨row, -, -, ⟨worker, rfl⟩, -⟩ := taken_row taken responds
          exact ⟨rfl, rfl⟩
    -- a row that another worker holds is not the one that has just been taken up or settled
    have others (place : Nat) (other : Request Work Command Fault Reply) (different : place ≠ index)
        (there : state.requests[place]? = some other) (row : QueueRow)
        (holds : Holds other.history row) (inTime : InTime settings state.tables row)
        (queued : QueueRow) (own : Holds request.history queued) : queued.id ≠ row.id :=
      inv.apart index place request other queued row (Ne.symm different) found there own
        (onTime own.unsettled queued own.taken) holds inTime
    have fresh (place : Nat) (other : Request Work Command Fault Reply)
        (there : state.requests[place]? = some other) (row : QueueRow)
        (holds : Holds other.history row) (inTime : InTime settings state.tables row)
        (queued : QueueRow) (taken : takes ⟨command, answer⟩ = some queued) : queued.id ≠ row.id := by
      intro same
      obtain ⟨old, before, ready, ⟨worker, rfl⟩, -⟩ := taken_row taken responds
      have member := List.mem_of_getElem? there
      have is := inv.present other member row holds inTime
      rw [Table.unique before is same,
        not_ready (inv.locked other member row holds.taken) inTime] at ready
      cases ready
    refine ⟨?_, ?_, ?_⟩
    · intro other member queued taken
      rcases List.mem_or_eq_of_mem_set member with old | rfl
      · exact inv.locked other old queued taken
      · exact locked queued taken
    · intro other member queued holds still
      have inTime := still.before responds
      obtain ⟨place, found⟩ := List.mem_iff_getElem?.mp member
      obtain ⟨rfl, rfl⟩ | ⟨different, there⟩ := State.put_cases found
      · rcases holds.of_append with ⟨before, unsettling⟩ | ⟨-, taken⟩
        · exact kept_unsettled bound responds (inv.locked request present queued before.taken)
            inTime (inv.present request present queued before inTime) unsettling
        · obtain ⟨row, -, -, -, is⟩ := taken_row taken responds
          exact is
      · have old := List.mem_of_getElem? there
        exact left_alone bound responds (inv.locked other old queued holds.taken) inTime
          (inv.present other old queued holds inTime)
          (others place other different there queued holds inTime)
    · intro first second one other row another different foundOne foundOther holds still holdsToo
        stillToo
      have inTime := still.before responds
      have inTimeToo := stillToo.before responds
      obtain ⟨rfl, rfl⟩ | ⟨notFirst, here⟩ := State.put_cases foundOne
      · obtain ⟨rfl, -⟩ | ⟨notSecond, there⟩ := State.put_cases foundOther
        · exact absurd rfl different
        · rcases holds.of_append with ⟨before, -⟩ | ⟨-, taken⟩
          · exact others second other notSecond there another holdsToo inTimeToo row before
          · exact fresh second other there another holdsToo inTimeToo row taken
      · obtain ⟨rfl, rfl⟩ | ⟨notSecond, there⟩ := State.put_cases foundOther
        · rcases holdsToo.of_append with ⟨before, -⟩ | ⟨-, taken⟩
          · exact (others first one notFirst here row holds inTime another before).symm
          · exact (fresh first one here row holds inTime another taken).symm
        · exact inv.apart first second one other row another different here there holds inTime
            holdsToo inTimeToo
  disturb state elapsed tables inv disturbed := by
    cases disturbed
    refine ⟨inv.locked, ?_, ?_⟩
    · intro request member queued holds inTime
      exact inv.present request member queued holds inTime.earlier
    · intro first second one other row another different here there holds inTime holdsToo inTimeToo
      exact inv.apart first second one other row another different here there holds
        inTime.earlier holdsToo inTimeToo.earlier

end Camelmailer.Worker
