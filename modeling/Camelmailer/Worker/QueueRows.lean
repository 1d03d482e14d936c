import Camelmailer.Worker.Bounces

/-!
# One row of the queue for a message

The status of a message and its row in the queue are in two tables. A worker writes both in one
transaction, or it is abandoned and writes nothing; retries and notifications come in between. In
the end an outgoing message that is to be sent has one row, and one that is not has none.

For incoming messages `requeue_inbound` adds a row without looking for one.
-/

namespace Camelmailer.Worker.QueueRows

open Utf8 Db Requests

/-! ## Rows and their messages -/

/-- A message that is still to be sent. -/
def Waits (status : MessageStatus) : Prop := status = .pending ∨ status = .softFail

/-- A message that is not to be sent any more. -/
def Rests (status : MessageStatus) : Prop := status = .sent ∨ status = .hardFail ∨ status = .held

/-- A message has at most one row. -/
def Once (tables : Tables) (messageId : Nat) : Prop :=
  ∀ row ∈ tables.queue.rows, ∀ other ∈ tables.queue.rows, row.messageId = messageId →
    other.messageId = messageId → row = other

/-- The rows of an outgoing message are those that its status calls for. -/
structure Placed (tables : Tables) (message : StoredMessage) : Prop where
  once : Once tables message.id
  waiting : Waits message.status → ∃ row ∈ tables.queue.rows, row.messageId = message.id
  resting : Rests message.status → ∀ row ∈ tables.queue.rows, row.messageId ≠ message.id

/-- Every row is one of a message. -/
def Owned (tables : Tables) : Prop :=
  ∀ row ∈ tables.queue.rows, ∃ message ∈ tables.messages.rows, message.id = row.messageId ∧
    message.serverId = row.serverId

section Rows

variable {settings : Settings} {choice : Choice} {tables after : Tables} {β : Type}
  {command : Command β} {answer : β} {history : List (Answered Command)} {message : StoredMessage}

/-- Whether an answered command can have added a row. -/
def enqueuing : Answered Command → Bool
  | ⟨.insertMessage _, _⟩ => true
  | ⟨.requeueInbound _ _ _, _⟩ => true
  | ⟨.requeueOutbound _ _, _⟩ => true
  | _ => false

variable {row : QueueRow}

theorem enqueuing_of_enqueues {entry : Answered Command} (enqueues : Enqueues tables entry row) :
    enqueuing entry = true := by
  cases enqueues <;> rfl

/-- A message is stored with its row. -/
theorem insertMessage_ok {inserted : QueuedMessage} {id : Nat}
    (responds : respond settings choice (.insertMessage inserted) tables = (.ok id, after)) :
    (∃ row ∈ after.messages.rows, row.id = tables.messages.next ∧
      row.serverId = inserted.serverId) ∧
    ∃ row ∈ after.queue.rows, row.messageId = tables.messages.next := by
  obtain ⟨error, failed, -⟩ | ⟨-, rfl⟩ := transacted_cases responds
  · cases failed
  · exact ⟨⟨_, List.mem_cons_self .., rfl, rfl⟩, _, List.mem_cons_self .., rfl⟩

/-- A message that workers and the API do not delete stays in the table. -/
theorem message_stays (bound : Bound settings history β command)
    (responds : respond settings choice command tables = (answer, after))
    (there : message ∈ tables.messages.rows) :
    ∃ new ∈ after.messages.rows, Rewrites tables ⟨command, answer⟩ message new := by
  rcases (respond_messages responds).fate message there with kept | pruned
  · exact kept
  · cases pruned
    cases bound

theorem Owned.respond (owned : Owned tables) (bound : Bound settings history β command)
    (responds : Worker.respond settings choice command tables = (answer, after)) : Owned after := by
  have stays {found : StoredMessage} (there : found ∈ tables.messages.rows) :
      ∃ new ∈ after.messages.rows, new.id = found.id ∧ new.serverId = found.serverId := by
    obtain ⟨new, member, rewrites⟩ := message_stays bound responds there
    exact ⟨new, member, rewrites.same.1, rewrites.same.2.1⟩
  intro row member
  rcases (respond_queue responds).origin row member with ⟨old, before, requeues, -⟩ | enqueues
  · obtain ⟨found, there, id, server⟩ := owned old before
    obtain ⟨new, present, sameId, sameServer⟩ := stays there
    obtain ⟨-, ofMessage, ofServer, -⟩ := requeues.same
    exact ⟨new, present, by rw [sameId, id, ofMessage], by rw [sameServer, server, ofServer]⟩
  · cases enqueues with
    | inserted => exact (insertMessage_ok responds).1
    | inbound present incoming => exact stays present
    | outbound present outgoing retryable stored absent => exact stays present

/-- The row of a message that is in the table. -/
theorem Owned.server (owned : Owned tables) (there : message ∈ tables.messages.rows)
    (member : row ∈ tables.queue.rows) (own : row.messageId = message.id) :
    row.serverId = message.serverId := by
  obtain ⟨other, present, id, server⟩ := owned row member
  rw [← server, Table.unique present there (id.trans own)]

/-- No row is one of a message that is still to be stored. -/
theorem Owned.fresh (owned : Owned tables) (member : row ∈ tables.queue.rows) :
    row.messageId ≠ tables.messages.next := by
  intro same
  obtain ⟨other, present, id, -⟩ := owned row member
  exact Nat.ne_of_lt (tables.messages.below other present) (id.trans same)

/-- Rows come from rows, and a new row is for a message without one. -/
theorem Once.respond (once : Once tables message.id)
    (added : ∀ row, Enqueues tables ⟨command, answer⟩ row → row.messageId = message.id →
      ∀ old ∈ tables.queue.rows, old.messageId ≠ message.id)
    (responds : Worker.respond settings choice command tables = (answer, after)) :
    Once after message.id := by
  intro row member other memberToo own ownToo
  apply Table.unique member memberToo
  rcases (respond_queue responds).origin row member with ⟨old, before, requeues, -⟩ | enqueues
  · have ofOld := requeues.same.2.1.symm.trans own
    rcases (respond_queue responds).origin other memberToo with ⟨older, beforeToo, again, -⟩ | new
    · have same := once old before older beforeToo ofOld (again.same.2.1.symm.trans ownToo)
      exact requeues.same.1.trans ((congrArg QueueRow.id same).trans again.same.1.symm)
    · exact absurd ofOld (added other new ownToo old before)
  · rcases (respond_queue responds).origin other memberToo with ⟨older, beforeToo, again, -⟩ | new
    · exact absurd (again.same.2.1.symm.trans ownToo) (added row enqueues own older beforeToo)
    · exact enqueues.fresh.trans new.fresh.symm

end Rows

/-! ## Outgoing messages -/

/-- Rows have messages, and outgoing messages have the rows that their status calls for. -/
structure Tidy (tables : Tables) : Prop where
  owned : Owned tables
  placed : ∀ message ∈ tables.messages.rows, message.scope = .outgoing → Placed tables message

/-- What is known of the worker that sends a command: what it has been told is true, its row is in
the queue, and it has not missed its message. -/
structure Informed (tables : Tables) (history : List (Answered Command)) : Prop where
  acquainted : Acquainted tables history
  present : ∀ queued, Holds history queued → queued ∈ tables.queue.rows
  unmissed : ∀ entry ∈ history, misses entry = false

section Outgoing

variable {settings : Settings} {choice : Choice} {tables after : Tables} {β : Type}
  {command : Command β} {answer : β} {history : List (Answered Command)}
  {message : StoredMessage}

/-- A worker has loaded the message that its command is about, in the scope of the table. -/
theorem Concerns.scope {scope : MessageScope} (acquainted : Acquainted tables history)
    (there : message ∈ tables.messages.rows)
    (concerns : Concerns history scope message.serverId message.id) : message.scope = scope := by
  obtain ⟨loaded, load, rfl, -, id⟩ := concerns
  exact ((acquainted.message loaded load).holds message there id.symm).1

/-- The row that a worker holds is one of the message that it has loaded. -/
theorem Concerns.row {scope : MessageScope} {serverId : Id} {messageId : Nat}
    (acquainted : Acquainted tables history)
    (concerns : Concerns history scope serverId messageId) {queued : QueueRow}
    (holds : Holds history queued) :
    queued.messageId = messageId ∧ queued.serverId = serverId := by
  obtain ⟨loaded, load, -, rfl, rfl⟩ := concerns
  obtain ⟨again, taken, id, server⟩ := acquainted.own loaded load
  obtain rfl := Option.some.inj (holds.taken.symm.trans taken)
  exact ⟨id, server⟩

variable {result : DeliveryResult} {payload : Payload} {action : QueueAction} {event : WebhookEvent}

/-- A delivery that is not recorded is one of a message that has bounced. -/
theorem unrecorded_bounced {queuedId : Nat}
    (responds : respond settings choice (.recordOutboundDelivery message.serverId message.id queuedId
      result action event payload) tables = (.ok false, after))
    (there : message ∈ tables.messages.rows) (outgoing : message.scope = .outgoing) :
    message.status = .bounced := by
  obtain ⟨error, failed, -⟩ | ⟨given, -⟩ := transacted_cases responds
  · cases failed
  · unfold Tables.recordOutboundDelivery at given
    dsimp only at given
    split_ifs at given with found
    · cases given
    · by_contra alive
      refine found (Bounces.hasMessage_iff.mpr ⟨message, there, rfl, rfl, ?_⟩)
      simp [outgoing, alive]

/-- A row of an outgoing message is removed when the message rests, or has bounced. -/
theorem removed_rests (tidy : Tidy tables) (informed : Informed tables history)
    (bound : Bound settings history β command)
    (responds : respond settings choice command tables = (answer, after)) {row : QueueRow}
    (there : message ∈ tables.messages.rows) (outgoing : message.scope = .outgoing)
    (member : row ∈ tables.queue.rows) (own : row.messageId = message.id)
    (gone : removes ⟨command, answer⟩ row = true) :
    message.status = .bounced ∨ written ⟨command, answer⟩ message = true := by
  have server := tidy.owned.server there member own
  -- the worker that removes the row has loaded the message
  have mine {queued : QueueRow} (holds : Holds history queued) (same : queued.id = row.id) :
      queued = row := Table.unique (informed.present queued holds) member same
  by_cases bounced : message.status = .bounced
  · exact .inl bounced
  cases removes_cases gone with
  | completed =>
      obtain ⟨queued, holds, same, missed | ⟨loaded, load, allowed⟩⟩ := bound
      · obtain ⟨entry, inside, missed⟩ := missed
        rw [informed.unmissed entry inside] at missed
        cases missed
      · obtain rfl := mine holds same
        obtain ⟨again, taken, id, -⟩ := informed.acquainted.own loaded load
        obtain rfl := Option.some.inj (holds.taken.symm.trans taken)
        have resembles := (informed.acquainted.message loaded load).holds message there
          (own.symm.trans id)
        have sent : loaded.scope = .outgoing := resembles.1.symm.trans outgoing
        exact absurd (resembles.2.2 ⟨sent, allowed sent⟩).2 bounced
  | @recorded _ result event payload recorded =>
      rw [own, server] at responds
      cases recorded with
      | true => simp [written, StoredMessage.isOf, own, server, outgoing, bounced, Except.toOption]
      | false => exact absurd (unrecorded_bounced responds there outgoing) bounced
  | stale =>
      rw [own, server] at responds
      exact absurd (unrecorded_bounced responds there outgoing) bounced
  | unmatched =>
      rw [own, server] at bound
      have incoming := Concerns.scope informed.acquainted there bound.1
      rw [outgoing] at incoming
      cases incoming
  | pruned listed => cases bound

/-- Rows are added for outgoing messages without one, which are pending then. -/
theorem enqueues_outgoing (tidy : Tidy tables) {row : QueueRow}
    (enqueues : Enqueues tables ⟨command, answer⟩ row) (there : message ∈ tables.messages.rows)
    (outgoing : message.scope = .outgoing) (own : row.messageId = message.id) :
    written ⟨command, answer⟩ message = true ∧
      ∀ old ∈ tables.queue.rows, old.messageId ≠ message.id := by
  cases enqueues with
  | inserted => exact absurd own (Nat.ne_of_gt (tables.messages.below message there))
  | inbound present incoming =>
      rw [Table.unique present there own, outgoing] at incoming
      cases incoming
  | outbound present _ retryable stored absent =>
      obtain rfl := Table.unique present there own
      refine ⟨by simp [written, StoredMessage.isOf, Except.toOption], ?_⟩
      intro old member ofMessage
      have server := tidy.owned.server there member ofMessage
      rw [Tables.isQueued, List.any_eq_false] at absent
      exact absent old member (by simp [ofMessage, server])

/-- A message that is put back into the queue has a row. -/
theorem requeueOutbound_queued
    (responds : respond settings choice (.requeueOutbound message.serverId message.id) tables =
      (.ok .requeued, after)) : ∃ row ∈ after.queue.rows, row.messageId = message.id := by
  obtain ⟨error, failed, -⟩ | ⟨given, rfl⟩ := transacted_cases responds
  · cases failed
  · unfold Tables.requeueOutbound at given ⊢
    split at given
    · cases given
    · next row found =>
        split_ifs at given ⊢ with retryable purged queued
        · cases given
        · simp only [Tables.isQueued, List.any_eq_true, Bool.and_eq_true, decide_eq_true_eq] at queued
          obtain ⟨old, member, own, -⟩ := queued
          refine ⟨_, List.mem_map_of_mem member, ?_⟩
          split_ifs <;> exact own
        · exact ⟨_, List.mem_cons_self .., rfl⟩
        · cases given

/-- A row that stays. -/
theorem row_stays (responds : respond settings choice command tables = (answer, after))
    {row : QueueRow} (member : row ∈ tables.queue.rows)
    (kept : removes ⟨command, answer⟩ row = false) :
    ∃ new ∈ after.queue.rows, new.messageId = row.messageId := by
  obtain ⟨new, there, requeues⟩ := (respond_queue responds).fate row member kept
  exact ⟨new, there, requeues.same.2.1⟩

/-- A message whose status has not been written has the row that it had. -/
theorem waiting_untouched (tidy : Tidy tables) (informed : Informed tables history)
    (bound : Bound settings history β command)
    (responds : respond settings choice command tables = (answer, after))
    (there : message ∈ tables.messages.rows) (outgoing : message.scope = .outgoing)
    (still : written ⟨command, answer⟩ message = false) (waits : Waits message.status) :
    ∃ row ∈ after.queue.rows, row.messageId = message.id := by
  obtain ⟨row, member, own⟩ := (tidy.placed message there outgoing).waiting waits
  have kept : removes ⟨command, answer⟩ row = false := by
    by_contra gone
    rcases removed_rests tidy informed bound responds there outgoing member own (by simpa using gone)
      with bounced | touched
    · rw [bounced] at waits
      rcases waits with pending | soft
      · cases pending
      · cases soft
    · rw [still] at touched
      cases touched
  obtain ⟨new, present, same⟩ := row_stays responds member kept
  exact ⟨new, present, same.trans own⟩

/-- A message whose status has not been written gets no row. -/
theorem resting_untouched (tidy : Tidy tables)
    (responds : respond settings choice command tables = (answer, after))
    (there : message ∈ tables.messages.rows) (outgoing : message.scope = .outgoing)
    (still : written ⟨command, answer⟩ message = false) (rests : Rests message.status) :
    ∀ row ∈ after.queue.rows, row.messageId ≠ message.id := by
  intro row member own
  rcases (respond_queue responds).origin row member with ⟨old, before, requeues, -⟩ | enqueues
  · exact (tidy.placed message there outgoing).resting rests old before
      (requeues.same.2.1.symm.trans own)
  · have touched := (enqueues_outgoing tidy enqueues there outgoing own).1
    rw [still] at touched
    cases touched

/-- What is recorded of a message that a worker has sent: the row of the worker is put off if the
message is to be sent again, and is removed if not. -/
theorem recorded_placed (tidy : Tidy tables) (informed : Informed tables history) {queuedId : Nat}
    (bound : Bound settings history _ (.recordOutboundDelivery message.serverId message.id queuedId
      result action event payload))
    (responds : respond settings choice (.recordOutboundDelivery message.serverId message.id queuedId
      result action event payload) tables = (.ok true, after))
    (there : message ∈ tables.messages.rows) (outgoing : message.scope = .outgoing) :
    (Waits result.status → ∃ row ∈ after.queue.rows, row.messageId = message.id) ∧
    (Rests result.status → ∀ row ∈ after.queue.rows, row.messageId ≠ message.id) := by
  obtain ⟨concerns, -, queued, holds, rfl, concludes⟩ := bound
  obtain ⟨own, server⟩ := Concerns.row informed.acquainted concerns holds
  have present := informed.present queued holds
  constructor
  · intro waits
    rcases concludes.way with ⟨-, rests⟩ | ⟨rfl, -, -⟩
    · rcases waits with status | status <;> simp [status] at rests
    · obtain ⟨new, member, same⟩ := row_stays responds present (by simp [removes, Except.toOption])
      exact ⟨new, member, same.trans own⟩
  · intro rests row member ofMessage
    rcases concludes.way with ⟨rfl, -⟩ | ⟨-, soft, -⟩
    · rcases (respond_queue responds).origin row member with ⟨old, before, requeues, kept⟩ | enqueues
      · have same := (tidy.placed message there outgoing).once old before queued present
          (requeues.same.2.1.symm.trans ofMessage) own
        have isOf : old.isOf queued.id (some (message.id, message.serverId)) = true := by
          rw [same]
          exact QueueRow.isOf_some.mpr ⟨rfl, own, server⟩
        rw [removes, isOf] at kept
        simp [Except.toBool] at kept
      · cases enqueuing_of_enqueues enqueues
    · rcases rests with status | status | status <;> simp [soft] at status

theorem Placed.rewritten (tidy : Tidy tables) (informed : Informed tables history)
    (bound : Bound settings history β command)
    (responds : respond settings choice command tables = (answer, after))
    (there : message ∈ tables.messages.rows) (outgoing : message.scope = .outgoing)
    {new : StoredMessage} (rewrites : Rewrites tables ⟨command, answer⟩ message new) :
    Placed after new := by
  have once : Once after message.id :=
    (tidy.placed message there outgoing).once.respond
      (fun row enqueues own => (enqueues_outgoing tidy enqueues there outgoing own).2) responds
  have incoming {claim : Prop} (is : message.scope = .incoming) : claim := by
    rw [outgoing] at is
    cases is
  have notification {claim : Prop} (is : message.isBounceMessage = true) : claim := by
    rw [StoredMessage.isBounceMessage, Bool.and_eq_true, decide_eq_true_eq] at is
    exact incoming is.1
  cases rewrites with
  | unchanged still =>
      exact ⟨once, waiting_untouched tidy informed bound responds there outgoing still,
        resting_untouched tidy responds there outgoing still⟩
  | delivered alive => exact incoming (Concerns.scope informed.acquainted there bound.1)
  | sent _ alive =>
      obtain ⟨waits, rests⟩ := recorded_placed tidy informed bound responds there outgoing
      exact ⟨once, waits, rests⟩
  | unmatched is | classified is | restored is correlated
  | linked is uncorrelated present _ => exact notification is
  | cameBack _ present uncorrelated =>
      refine ⟨once, fun waits => ?_, fun rests => ?_⟩
      · rcases waits with status | status <;> cases status
      · rcases rests with status | status | status <;> cases status
  | requeuedInbound is => exact incoming is
  | requeuedOutbound _ retryable stored =>
      refine ⟨once, fun _ => requeueOutbound_queued responds, fun rests => ?_⟩
      rcases rests with status | status | status <;> cases status
  | judged =>
      -- the verdicts are written, and neither the status nor the queue
      have waiting := waiting_untouched tidy informed bound responds there outgoing rfl
      have resting := resting_untouched tidy responds there outgoing rfl
      exact ⟨once, waiting, resting⟩
  | purged => cases bound
  | unlinked => cases bound

/-- A message that has just been stored has one row. -/
theorem Placed.stored (owned : Owned tables) {new : StoredMessage}
    (stores : Stores tables ⟨command, answer⟩ new)
    (responds : respond settings choice command tables = (answer, after)) : Placed after new := by
  cases stores with
  | inserted =>
      refine ⟨?_, fun _ => (insertMessage_ok responds).2, fun rests => ?_⟩
      · intro row member other memberToo own ownToo
        have fresh {any : QueueRow} (there : any ∈ after.queue.rows)
            (of : any.messageId = tables.messages.next) : any.id = tables.queue.next := by
          rcases (respond_queue responds).origin any there with ⟨old, before, requeues, -⟩ | enqueues
          · exact absurd (requeues.same.2.1.symm.trans of) (owned.fresh before)
          · exact enqueues.fresh
        exact Table.unique member memberToo ((fresh member own).trans (fresh memberToo ownToo).symm)
      · rcases rests with status | status | status <;> cases status

theorem Tidy.respond (tidy : Tidy tables) (informed : Informed tables history)
    (bound : Bound settings history β command)
    (responds : Worker.respond settings choice command tables = (answer, after)) : Tidy after := by
  refine ⟨tidy.owned.respond bound responds, ?_⟩
  intro message member outgoing
  rcases (respond_messages responds).origin message member with ⟨old, there, rewrites⟩ | stores
  · exact Placed.rewritten tidy informed bound responds there
      (rewrites.same.2.2.symm.trans outgoing) rewrites
  · exact Placed.stored tidy.owned stores responds

/-- A worker that asks in time does not miss its message. -/
theorem not_missed (owned : Owned tables) (informed : Informed tables history)
    (bound : Bound settings history β command)
    (responds : respond settings choice command tables = (answer, after)) :
    misses ⟨command, answer⟩ = false := by
  cases command
  case loadMessage serverId messageId =>
    obtain ⟨-, queued, holds, rfl, rfl⟩ := bound
    obtain ⟨message, there, id, server⟩ := owned queued (informed.present queued holds)
    obtain ⟨error, rfl, -⟩ | ⟨rfl, -⟩ := transacted_cases responds
    · rfl
    · have found : tables.message queued.serverId queued.messageId = some message := by
        rw [Tables.message, ← id, show tables.messages.find message.id = some message from
          Table.find_of_mem there]
        simp [server]
      simp [misses, found, Except.toOption]
  all_goals rfl

end Outgoing

/-- Workers are acquainted with what they hold and find their messages, and the tables are tidy. -/
structure Orderly (settings : Settings) (state : Delivering) : Prop where
  acquainted : AllAcquainted state
  leased : Leased settings state
  unmissed : ∀ request ∈ state.requests, ∀ entry ∈ request.history, misses entry = false
  tidy : Tidy state.tables

/-- A worker that asks in time is informed. -/
theorem Orderly.informed {settings : Settings} {state : Delivering}
    {request : Request Work Command Fault Reply} (orderly : Orderly settings state)
    (present : request ∈ state.requests)
    (inTime : settledBy request.history = false → ∀ queued ∈ takenBy request.history,
      InTime settings state.tables queued) : Informed state.tables request.history where
  acquainted := orderly.acquainted request present
  present queued holds := orderly.leased.present request present queued holds
    (inTime holds.unsettled queued holds.taken)
  unmissed := orderly.unmissed request present

theorem orderly_kept (functions : Functions) (settings : Settings) :
    Kept (delivery functions settings) (fun _ => Bound settings) (OnTime settings)
      (Orderly settings) where
  start state call inv := by
    refine ⟨(acquainted_kept functions settings).start state call inv.acquainted,
      (leased_kept functions settings).start state call inv.leased, ?_, inv.tidy⟩
    intro request member
    rcases List.mem_append.mp member with old | new
    · exact inv.unmissed request old
    · cases List.mem_singleton.mp new
      exact fun _ inside => absurd inside List.not_mem_nil
  answer state index choice request β command next answer tables inv found bound executed onTime := by
    have responds := Option.some.inj executed
    have informed := inv.informed (List.mem_of_getElem? found) onTime
    refine ⟨?_, ?_, ?_, inv.tidy.respond informed bound responds⟩
    · exact (acquainted_kept functions settings).answer state index choice request command next answer
        tables inv.acquainted found bound executed trivial
    · exact (leased_kept functions settings).answer state index choice request command next answer
        tables inv.leased found bound executed onTime
    · intro other member entry inside
      rcases List.mem_or_eq_of_mem_set member with old | rfl
      · exact inv.unmissed other old entry inside
      · rcases List.mem_append.mp inside with old | new
        · exact informed.unmissed entry old
        · cases List.mem_singleton.mp new
          exact not_missed inv.tidy.owned informed bound responds
  disturb state elapsed tables inv disturbed := by
    have acquainted := (acquainted_kept functions settings).disturb state elapsed tables
      inv.acquainted disturbed
    have leased := (leased_kept functions settings).disturb state elapsed tables inv.leased disturbed
    cases disturbed
    refine ⟨acquainted, leased, inv.unmissed, inv.tidy.owned, ?_⟩
    intro message member outgoing
    obtain ⟨once, waiting, resting⟩ := inv.tidy.placed message member outgoing
    exact ⟨once, waiting, resting⟩

theorem Tidy.empty : Tidy Tables.empty where
  owned _ member := absurd member List.not_mem_nil
  placed _ member := absurd member List.not_mem_nil

/-- In every run in which no worker holds a row for longer than its lock lasts, an outgoing message
that is still to be sent has one row in the queue, and one that is not has none. -/
theorem outgoing_queued_exactly_once (functions : Functions) (settings : Settings)
    (tables : Tables) (tidy : Tidy tables) (actions : List (Action Work Choice Elapsed))
    (events : List DeliveryEvent) (final : Delivering)
    (ran : Machine.run (delivery functions settings).step (State.idle tables) actions =
      some (events, final))
    (onTime : ∀ event ∈ events, Answering (OnTime settings) event) :
    ∀ state, Machine.Reached events final state →
      ∀ message ∈ state.tables.messages.rows, message.scope = .outgoing →
        (message.status = .pending ∨ message.status = .softFail →
          ∃! row, row ∈ state.tables.queue.rows ∧ row.messageId = message.id) ∧
        (message.status = .sent ∨ message.status = .hardFail ∨ message.status = .held →
          ∀ row ∈ state.tables.queue.rows, row.messageId ≠ message.id) := by
  have initial : Orderly settings (State.idle tables) := by
    refine ⟨fun _ member => absurd member List.not_mem_nil, ⟨?_, ?_, ?_⟩,
      fun _ member => absurd member List.not_mem_nil, tidy⟩
    · exact fun _ member => absurd member List.not_mem_nil
    · exact fun _ member => absurd member List.not_mem_nil
    · intro first second one other row another _ here
      simp [State.idle] at here
  intro state reached message member outgoing
  have orderly := run_keeps_reached (fun call => work_safe call) (orderly_kept functions settings)
    initial ran onTime state reached
  obtain ⟨once, waiting, resting⟩ := orderly.tidy.placed message member outgoing
  refine ⟨fun waits => ?_, resting⟩
  obtain ⟨row, there, own⟩ := waiting waits
  refine ⟨row, ⟨there, own⟩, ?_⟩
  rintro other ⟨present, same⟩
  exact once other present row there same own

/-- A message is delayed and put back into the queue; one worker dies with its row, and when the lock
is stale another one sends the message. -/
def sentAfterAbandonment : List (Action Work Choice Elapsed) :=
  [.start (.insertMessage (exampleMessage .outgoing "r@b.example")), .answer 0 {},
    .start (.processNext "first"), .answer 1 { picked := some 1 }, .answer 1 {}, .answer 1 {},
    .answer 1 {}, .answer 1 { outcome := .softFail [] }, .answer 1 {},
    .start (.requeueOutbound 1 1), .answer 2 {},
    .start (.processNext "second"), .answer 3 { picked := some 1 }, .answer 3 {},
    .disturb ⟨100000000000000⟩,
    .start (.processNext "third"), .answer 4 { picked := some 1 }, .answer 4 {}, .answer 4 {},
    .answer 4 {}, .answer 4 { outcome := .sent [] true }, .answer 4 {}]

theorem sent_after_abandonment :
    ∃ events final, Machine.run (delivery exampleFunctions exampleSettings).step
        (State.idle Tables.empty) sentAfterAbandonment = some (events, final) ∧
      final.tables.messages.rows.map (fun row => row.status) = [.sent] ∧
      ∀ state, Machine.Reached events final state →
        ∀ message ∈ state.tables.messages.rows, message.scope = .outgoing →
          (message.status = .pending ∨ message.status = .softFail →
            ∃! row, row ∈ state.tables.queue.rows ∧ row.messageId = message.id) ∧
          (message.status = .sent ∨ message.status = .hardFail ∨ message.status = .held →
            ∀ row ∈ state.tables.queue.rows, row.messageId ≠ message.id) := by
  refine Machine.exists_run_of (fun events final =>
    final.tables.messages.rows.map (fun row => row.status) = [.sent] ∧
    ∀ event ∈ events, Answering (OnTime exampleSettings) event) (by decide +kernel) ?_
  rintro events final ran ⟨statuses, onTime⟩
  exact ⟨statuses, outgoing_queued_exactly_once exampleFunctions exampleSettings Tables.empty
    Tidy.empty sentAfterAbandonment events final ran onTime⟩

/-! ## Incoming messages -/

/-- An incoming message has no row in the queue. -/
def Unqueued (tables : Tables) (message : StoredMessage) : Prop :=
  message.scope = .incoming → ∀ row ∈ tables.queue.rows, row.messageId ≠ message.id

instance (tables : Tables) (message : StoredMessage) : Decidable (Unqueued tables message) :=
  inferInstanceAs (Decidable (message.scope = .incoming → ∀ row ∈ tables.queue.rows, _))

/-- Rows have messages, and incoming messages have one row at most. -/
structure Single (tables : Tables) : Prop where
  owned : Owned tables
  once : ∀ message ∈ tables.messages.rows, message.scope = .incoming → Once tables message.id

section Single

variable {settings : Settings} {choice : Choice} {tables after : Tables} {β : Type}
  {command : Command β} {answer : β} {history : List (Answered Command)} {message : StoredMessage}

/-- A row that is added for an incoming message has been asked for. -/
theorem enqueues_incoming {row : QueueRow} (enqueues : Enqueues tables ⟨command, answer⟩ row)
    (there : message ∈ tables.messages.rows) (incoming : message.scope = .incoming)
    (own : row.messageId = message.id) :
    ∃ bypass record, (⟨command, answer⟩ : Answered Command) =
      ⟨.requeueInbound message.serverId message.id bypass, .ok (some record)⟩ := by
  cases enqueues with
  | inserted => exact absurd own (Nat.ne_of_gt (tables.messages.below message there))
  | inbound present _ =>
      obtain rfl := Table.unique present there own
      exact ⟨_, _, rfl⟩
  | outbound present outgoing retryable stored absent =>
      rw [Table.unique present there own, incoming] at outgoing
      cases outgoing

theorem Single.respond (single : Single tables) (bound : Bound settings history β command)
    (unqueued : ∀ target ∈ inboundTarget command, ∀ row ∈ tables.messages.rows,
      row.serverId = target.1 → row.id = target.2 → Unqueued tables row)
    (responds : Worker.respond settings choice command tables = (answer, after)) : Single after := by
  refine ⟨single.owned.respond bound responds, ?_⟩
  intro message member incoming
  rcases (respond_messages responds).origin message member with ⟨old, there, rewrites⟩ | stores
  · obtain ⟨id, -, scope⟩ := rewrites.same
    have was : old.scope = .incoming := scope.symm.trans incoming
    rw [id]
    refine (single.once old there was).respond ?_ responds
    intro row enqueues own
    obtain ⟨bypass, record, same⟩ := enqueues_incoming enqueues there was own
    cases same
    exact unqueued _ rfl old there rfl rfl was
  · exact (Placed.stored single.owned stores responds).once

end Single

/-! ### How often a message is done with -/

/-- Whether a worker is done with an incoming message. -/
def finishes : Answered Command → Bool
  | ⟨.complete _, answer⟩ => answer.isOk
  | ⟨.recordUnmatchedBounce _ _ _ _, answer⟩ => answer.isOk
  | _ => false

/-- A worker that has taken up a row of a message and is done with it. -/
def finishedWith (messageId : Nat) (request : Request Work Command Fault Reply) : Bool :=
  (takenBy request.history).any (fun row => row.messageId = messageId) &&
    request.history.any finishes

/-- Whether a message has been put back into the queue. -/
def putsBack (messageId : Nat) : Answered Command → Bool
  | ⟨.requeueInbound _ id _, answer⟩ => id = messageId && answer.toOption.join.isSome
  | _ => false

/-- A request that has put a message back into the queue. -/
def hasRequeued (messageId : Nat) (request : Request Work Command Fault Reply) : Bool :=
  request.history.any (putsBack messageId)

/-- Every time that a message is done with there was a row of it, and it has come with the message
or with a request. -/
structure Balanced (state : Delivering) (messageId : Nat) : Prop where
  all : state.number (finishedWith messageId) ≤ state.number (hasRequeued messageId) + 1
  queued : (∃ row ∈ state.tables.queue.rows, row.messageId = messageId) →
    state.number (finishedWith messageId) ≤ state.number (hasRequeued messageId)

section Balanced

variable {settings : Settings} {choice : Choice} {tables after : Tables} {β : Type}
  {command : Command β} {answer : β} {history : List (Answered Command)} {messageId : Nat}
  {request : Request Work Command Fault Reply} {next : Handler Reply}

theorem settles_of_finishes {entry : Answered Command} (finished : finishes entry = true) :
    settles entry = true := by
  obtain ⟨command, answer⟩ := entry
  cases command
  case complete id => exact finished
  case recordUnmatchedBounce serverId bounceId queuedId category => exact finished
  all_goals cases finished

theorem finishes_of_settled {history : List (Answered Command)} (unsettled : settledBy history = false) :
    history.any finishes = false := by
  rw [settledBy, List.any_eq_false] at unsettled
  rw [List.any_eq_false]
  intro entry inside finished
  exact unsettled entry inside (settles_of_finishes finished)

/-- A worker that is done with its message removes the row that it holds. -/
theorem finishing (acquainted : Acquainted tables history)
    (bound : Bound settings history β command) (finished : finishes ⟨command, answer⟩ = true) :
    ∃ queued, Holds history queued ∧ removes ⟨command, answer⟩ queued = true := by
  cases command
  case complete id =>
    obtain ⟨queued, holds, rfl, -⟩ := bound
    refine ⟨queued, holds, ?_⟩
    rw [removes, Bool.and_eq_true, decide_eq_true_eq]
    exact ⟨finished, rfl⟩
  case recordUnmatchedBounce serverId bounceId queuedId category =>
    obtain ⟨concerns, queued, holds, rfl⟩ := bound
    refine ⟨queued, holds, ?_⟩
    rw [removes, Bool.and_eq_true]
    exact ⟨finished, QueueRow.isOf_some.mpr ⟨rfl, Concerns.row acquainted concerns holds⟩⟩
  all_goals cases finished

/-- A request that goes on without an end is counted as before. -/
theorem finishedWith_continued (bound : Bound settings request.history β command)
    (unfinished : finishes ⟨command, answer⟩ = false) :
    finishedWith messageId (request.continued command answer next) =
      finishedWith messageId request := by
  rw [finishedWith, finishedWith, Request.continued, takenBy_append]
  cases taken : takes ⟨command, answer⟩ with
  | none => simp [unfinished]
  | some queued =>
      obtain ⟨worker, same⟩ := takes_some taken
      cases same
      have started : request.history = [] := bound
      simp [started, unfinished]

/-- A row that has been removed is not in the queue any more. -/
theorem removed_gone (responds : respond settings choice command tables = (answer, after))
    {queued : QueueRow} (there : queued ∈ tables.queue.rows)
    (gone : removes ⟨command, answer⟩ queued = true) :
    ∀ row ∈ after.queue.rows, row.id ≠ queued.id := by
  intro row member same
  rcases (respond_queue responds).origin row member with ⟨old, before, requeues, kept⟩ | enqueues
  · rw [Table.unique before there (requeues.same.1.symm.trans same), gone] at kept
    cases kept
  · exact absurd (same.symm.trans enqueues.fresh) (Nat.ne_of_lt (tables.queue.below queued there))

/-- The rows of a message that is in the table are those that it had, unless it has been put back. -/
theorem queued_before (responds : respond settings choice command tables = (answer, after))
    {message : StoredMessage} (there : message ∈ tables.messages.rows)
    (incoming : message.scope = .incoming) {row : QueueRow} (member : row ∈ after.queue.rows)
    (own : row.messageId = message.id) :
    (∃ old ∈ tables.queue.rows, old.id = row.id ∧ old.messageId = message.id) ∨
      ∃ bypass record, (⟨command, answer⟩ : Answered Command) =
        ⟨.requeueInbound message.serverId message.id bypass, .ok (some record)⟩ := by
  rcases (respond_queue responds).origin row member with ⟨old, before, requeues, -⟩ | enqueues
  · exact .inl ⟨old, before, requeues.same.1.symm, requeues.same.2.1.symm.trans own⟩
  · exact .inr (enqueues_incoming enqueues there incoming own)

end Balanced

/-- Incoming messages have one row at most, workers are acquainted with what they hold, and what they
are done with is balanced. -/
structure Accounted (settings : Settings) (state : Delivering) : Prop where
  acquainted : AllAcquainted state
  leased : Leased settings state
  single : Single state.tables
  below : ∀ request ∈ state.requests, ∀ queued, takenBy request.history = some queued →
    queued.messageId < state.tables.messages.next
  balanced : ∀ message ∈ state.tables.messages.rows, message.scope = .incoming →
    Balanced state message.id

section Accounted

variable {settings : Settings} {choice : Choice} {state : Delivering} {after : Tables} {β : Type}
  {command : Command β} {answer : β} {message : StoredMessage} {index : Nat}
  {request : Request Work Command Fault Reply} {next : Handler Reply}

/-- The requests that have put a message back, after one more answer. -/
theorem hasRequeued_number (messageId : Nat) (after : Tables) (answer : β) (next : Handler Reply)
    (found : state.requests[index]? = some request)
    (bound : Bound settings request.history β command) :
    ({ state with tables := after }.put index (request.continued command answer next)).number
        (hasRequeued messageId) =
      state.number (hasRequeued messageId) + (putsBack messageId ⟨command, answer⟩).toNat := by
  have counted := State.number_put (hasRequeued messageId) found after
    (request.continued command answer next)
  have continued : hasRequeued messageId (request.continued command answer next) =
      (hasRequeued messageId request || putsBack messageId ⟨command, answer⟩) := by
    simp [hasRequeued, Request.continued]
  cases back : putsBack messageId ⟨command, answer⟩ with
  | false =>
      rw [continued, back, Bool.or_false] at counted
      exact Nat.add_right_cancel counted
  | true =>
      -- a request that puts a message back has sent nothing before
      have first : hasRequeued messageId request = false := by
        cases command
        case requeueInbound serverId id bypass =>
          have started : request.history = [] := bound
          simp [hasRequeued, started]
        all_goals cases back
      rw [continued, back, first] at counted
      exact counted

/-- The balance of a message that was in the table before. -/
theorem Balanced.respond (balanced : Balanced state message.id) (once : Once state.tables message.id)
    (acquainted : Acquainted state.tables request.history)
    (present : ∀ queued, Holds request.history queued → queued ∈ state.tables.queue.rows)
    (found : state.requests[index]? = some request) (bound : Bound settings request.history β command)
    (responds : Worker.respond settings choice command state.tables = (answer, after))
    (there : message ∈ state.tables.messages.rows) (incoming : message.scope = .incoming) :
    Balanced ({ state with tables := after }.put index (request.continued command answer next))
      message.id := by
  have requeued := hasRequeued_number message.id after answer next found bound
  -- as long as no worker gets done with the message, rows come with requests
  have goesOn (same : ({ state with tables := after }.put index
      (request.continued command answer next)).number (finishedWith message.id) =
        state.number (finishedWith message.id)) :
      Balanced ({ state with tables := after }.put index (request.continued command answer next))
        message.id := by
    refine ⟨?_, ?_⟩
    · rw [same, requeued]
      exact Nat.le_trans balanced.all (Nat.add_le_add_right (Nat.le_add_right _ _) 1)
    · rintro ⟨row, member, own⟩
      rw [same, requeued]
      rcases queued_before responds there incoming member own with ⟨old, before, -, ofOld⟩ |
        ⟨bypass, record, asked⟩
      · exact Nat.le_trans (balanced.queued ⟨old, before, ofOld⟩) (Nat.le_add_right _ _)
      · have back : putsBack message.id ⟨command, answer⟩ = true := by
          rw [asked]
          simp [putsBack, Except.toOption]
        rw [back]
        exact balanced.all
  cases done : finishes ⟨command, answer⟩ with
  | false => exact goesOn (State.number_unchanged found after (finishedWith_continued bound done))
  | true =>
      obtain ⟨queued, holds, gone⟩ := finishing acquainted bound done
      have unfinished : finishedWith message.id request = false := by
        rw [finishedWith, finishes_of_settled holds.unsettled, Bool.and_false]
      have continued : finishedWith message.id (request.continued command answer next) =
          decide (queued.messageId = message.id) := by
        simp [finishedWith, Request.continued, takenBy_append, holds.taken, done]
      by_cases own : queued.messageId = message.id
      · have counted := State.number_put (finishedWith message.id) found after
          (request.continued command answer next)
        rw [continued, decide_eq_true own] at counted
        have was := balanced.queued ⟨queued, present queued holds, own⟩
        refine ⟨?_, ?_⟩
        · simp only [Bool.toNat_true] at counted
          omega
        · rintro ⟨row, member, ofMessage⟩
          exfalso
          rcases queued_before responds there incoming member ofMessage with
            ⟨old, before, sameId, ofOld⟩ | ⟨bypass, record, asked⟩
          · have same := once old before queued (present queued holds) ofOld own
            exact removed_gone responds (present queued holds) gone row member
              (sameId.symm.trans (congrArg QueueRow.id same))
          · rw [asked] at done
            cases done
      · apply goesOn
        apply State.number_unchanged found after
        rw [unfinished, continued, decide_eq_false own]

end Accounted

/-- A message that has just been stored is one that no worker has come to. -/
theorem Balanced.fresh {state : Delivering} {messageId : Nat}
    (below : ∀ request ∈ state.requests, ∀ queued, takenBy request.history = some queued →
      queued.messageId < messageId) : Balanced state messageId := by
  have none : state.number (finishedWith messageId) = 0 := by
    apply State.number_zero
    intro request member
    cases taken : takenBy request.history with
    | none => simp [finishedWith, taken]
    | some queued =>
        have other := Nat.ne_of_lt (below request member queued taken)
        simp [finishedWith, taken, other]
  refine ⟨?_, fun _ => ?_⟩
  · rw [none]
    exact Nat.zero_le _
  · rw [none]
    exact Nat.zero_le _

/-- What a worker has taken up is a row of a message that has been stored. -/
theorem taken_below {settings : Settings} {choice : Choice} {tables after : Tables} {β : Type}
    {command : Command β} {answer : β} {queued : QueueRow} (owned : Owned tables)
    (taken : takes ⟨command, answer⟩ = some queued)
    (responds : respond settings choice command tables = (answer, after)) :
    queued.messageId < tables.messages.next := by
  obtain ⟨row, there, -, ⟨worker, rfl⟩, -⟩ := taken_row taken responds
  obtain ⟨message, present, id, -⟩ := owned row there
  exact lt_of_eq_of_lt id.symm (tables.messages.below message present)

/-- The conditions on the answers of a run: locks are not stale, and messages are put back only when
they are not in the queue. -/
def Careful (settings : Settings) (due : Due Tables Work Choice Command Fault Reply) : Prop :=
  OnTime settings due ∧ RequeuesOnly Unqueued due

theorem accounted_kept (functions : Functions) (settings : Settings) :
    Kept (delivery functions settings) (fun _ => Bound settings) (Careful settings)
      (Accounted settings) where
  start state call inv := by
    refine ⟨(acquainted_kept functions settings).start state call inv.acquainted,
      (leased_kept functions settings).start state call inv.leased, inv.single, ?_, ?_⟩
    · intro request member queued taken
      rcases List.mem_append.mp member with old | new
      · exact inv.below request old queued taken
      · cases List.mem_singleton.mp new
        simp [Service.opened, takenBy] at taken
    · intro message member incoming
      obtain ⟨all, queued⟩ := inv.balanced message member incoming
      have finished : finishedWith message.id ((delivery functions settings).opened call) = false := by
        simp [finishedWith, Service.opened]
      have requeued : hasRequeued message.id ((delivery functions settings).opened call) = false := by
        simp [hasRequeued, Service.opened]
      refine ⟨?_, ?_⟩
      · rw [State.number_opened state finished, State.number_opened state requeued]
        exact all
      · rw [State.number_opened state finished, State.number_opened state requeued]
        exact queued
  answer state index choice request β command next answer tables inv found bound executed careful := by
    obtain ⟨onTime, unqueued⟩ := careful
    have responds := Option.some.inj executed
    have present := List.mem_of_getElem? found
    have below : ∀ other ∈ ({ state with tables := tables }.put index
        (request.continued command answer (next answer))).requests, ∀ queued,
        takenBy other.history = some queued → queued.messageId < state.tables.messages.next := by
      intro other member queued taken
      rcases List.mem_or_eq_of_mem_set member with old | rfl
      · exact inv.below other old queued taken
      · rw [Request.continued, takenBy_append] at taken
        cases earlier : takenBy request.history with
        | some known =>
            rw [earlier] at taken
            obtain rfl : known = queued := Option.some.inj taken
            exact inv.below request present _ earlier
        | none =>
            rw [earlier] at taken
            exact taken_below inv.single.owned taken responds
    refine ⟨?_, ?_, inv.single.respond bound unqueued responds, ?_, ?_⟩
    · exact (acquainted_kept functions settings).answer state index choice request command next answer
        tables inv.acquainted found bound executed trivial
    · exact (leased_kept functions settings).answer state index choice request command next answer
        tables inv.leased found bound executed onTime
    · intro other member queued taken
      exact Nat.lt_of_lt_of_le (below other member queued taken) (respond_messages responds).next
    · intro message member incoming
      rcases (respond_messages responds).origin message member with ⟨old, there, rewrites⟩ | stores
      · obtain ⟨id, -, scope⟩ := rewrites.same
        have was : old.scope = .incoming := scope.symm.trans incoming
        rw [id]
        apply (inv.balanced old there was).respond (inv.single.once old there was)
          (inv.acquainted request present) _ found bound responds there was
        intro queued holds
        exact inv.leased.present request present queued holds
          (onTime holds.unsettled queued holds.taken)
      · cases stores with
        | inserted => exact Balanced.fresh below
  disturb state elapsed tables inv disturbed := by
    have acquainted := (acquainted_kept functions settings).disturb state elapsed tables
      inv.acquainted disturbed
    have leased := (leased_kept functions settings).disturb state elapsed tables inv.leased disturbed
    cases disturbed
    refine ⟨acquainted, leased, ⟨inv.single.owned, inv.single.once⟩, inv.below, ?_⟩
    intro message member incoming
    obtain ⟨all, queued⟩ := inv.balanced message member incoming
    exact ⟨all, queued⟩

theorem single_kept (functions : Functions) (settings : Settings) :
    Kept (delivery functions settings) (fun _ => Bound settings) (RequeuesOnly Unqueued)
      (fun state => Single state.tables) where
  start state call inv := inv
  answer state index choice request β command next answer tables inv found bound executed unqueued :=
    inv.respond bound unqueued (Option.some.inj executed)
  disturb state elapsed tables inv disturbed := by
    cases disturbed
    exact ⟨inv.owned, inv.once⟩

/-- In every run in which incoming messages are put back only when they are not in the queue, they
have at most one row. If locks are not stale either, no two workers hold rows of one message, and a
message is done with once and once more for every request that has put it back. -/
theorem incoming_queued_at_most_once (functions : Functions) (settings : Settings)
    (tables : Tables) (single : Single tables) (actions : List (Action Work Choice Elapsed))
    (events : List DeliveryEvent) (final : Delivering)
    (ran : Machine.run (delivery functions settings).step (State.idle tables) actions =
      some (events, final))
    (unqueued : ∀ event ∈ events, Answering (RequeuesOnly Unqueued) event) :
    ∀ state, Machine.Reached events final state →
      ∀ message ∈ state.tables.messages.rows, message.scope = .incoming →
        (∀ row ∈ state.tables.queue.rows, ∀ other ∈ state.tables.queue.rows,
          row.messageId = message.id → other.messageId = message.id → row = other) ∧
        ((∀ event ∈ events, Answering (OnTime settings) event) →
          (∀ (first second : Nat) one other row another, first ≠ second →
            state.requests[first]? = some one → state.requests[second]? = some other →
            Holds one.history row → InTime settings state.tables row →
            Holds other.history another → InTime settings state.tables another →
            row.messageId = message.id → another.messageId ≠ message.id) ∧
          state.number (finishedWith message.id) ≤ state.number (hasRequeued message.id) + 1) := by
  intro state reached message member incoming
  have once := (run_keeps_reached (fun call => work_safe call) (single_kept functions settings)
    single ran unqueued state reached).once message member incoming
  refine ⟨once, fun onTime => ?_⟩
  have initial : Accounted settings (State.idle tables) := by
    refine ⟨fun _ member => absurd member List.not_mem_nil, ⟨?_, ?_, ?_⟩, single,
      fun _ member => absurd member List.not_mem_nil, fun message member incoming => ?_⟩
    · exact fun _ member => absurd member List.not_mem_nil
    · exact fun _ member => absurd member List.not_mem_nil
    · intro first second one other row another _ here
      simp [State.idle] at here
    · exact Balanced.fresh (fun _ member => absurd member List.not_mem_nil)
  have careful : ∀ event ∈ events, Answering (Careful settings) event :=
    fun event inside due isDue => ⟨onTime event inside due isDue, unqueued event inside due isDue⟩
  have accounted := run_keeps_reached (fun call => work_safe call) (accounted_kept functions settings)
    initial ran careful state reached
  refine ⟨?_, (accounted.balanced message member incoming).all⟩
  intro first second one other row another different here there holds inTime holdsToo inTimeToo own
    ownToo
  have present := accounted.leased.present one (List.mem_of_getElem? here) row holds inTime
  have presentToo := accounted.leased.present other (List.mem_of_getElem? there) another holdsToo
    inTimeToo
  exact accounted.leased.apart first second one other row another different here there holds inTime
    holdsToo inTimeToo (congrArg QueueRow.id (once row present another presentToo own ownToo))

theorem Single.empty : Single Tables.empty where
  owned _ member := absurd member List.not_mem_nil
  once _ member := absurd member List.not_mem_nil

/-- A message with a route. -/
def routedMessage : QueuedMessage :=
  { exampleMessage .incoming "r@b.example" with routeId := some 7 }

/-- The route leads to an endpoint, which accepts the message. -/
def acceptedByEndpoint : Choice :=
  { route := some ⟨.endpoint, some "https://c.example".toList⟩, posted := .ok 200, score := .ok 0 }

/-- A message is posted, and after that it is put back and posted again. -/
def requeuedAfterwards : List (Action Work Choice Elapsed) :=
  [.start (.insertMessage routedMessage), .answer 0 {},
    .start (.processNext "first"), .answer 1 { picked := some 1 }, .answer 1 {},
    .answer 1 acceptedByEndpoint, .answer 1 {}, .answer 1 acceptedByEndpoint, .answer 1 {},
    .answer 1 acceptedByEndpoint, .answer 1 {},
    .start (.requeueInbound 1 1 false), .answer 2 {},
    .start (.processNext "second"), .answer 3 { picked := some 2 }, .answer 3 {},
    .answer 3 acceptedByEndpoint, .answer 3 {}, .answer 3 acceptedByEndpoint, .answer 3 {}]

theorem requeued_afterwards :
    ∃ events final, Machine.run (delivery exampleFunctions exampleSettings).step
        (State.idle Tables.empty) requeuedAfterwards = some (events, final) ∧
      (∃ message ∈ final.tables.messages.rows, message.id = 1 ∧ message.scope = .incoming) ∧
      final.number (finishedWith 1) = 2 ∧ final.number (hasRequeued 1) = 1 ∧
      ∀ state, Machine.Reached events final state →
        ∀ message ∈ state.tables.messages.rows, message.scope = .incoming →
          (∀ row ∈ state.tables.queue.rows, ∀ other ∈ state.tables.queue.rows,
            row.messageId = message.id → other.messageId = message.id → row = other) ∧
          state.number (finishedWith message.id) ≤ state.number (hasRequeued message.id) + 1 := by
  refine Machine.exists_run_of (fun events final =>
    (∃ message ∈ final.tables.messages.rows, message.id = 1 ∧ message.scope = .incoming) ∧
    final.number (finishedWith 1) = 2 ∧ final.number (hasRequeued 1) = 1 ∧
    (∀ event ∈ events, Answering (OnTime exampleSettings) event) ∧
    ∀ event ∈ events, Answering (RequeuesOnly Unqueued) event) (by decide +kernel) ?_
  rintro events final ran ⟨there, finished, requeued, onTime, unqueued⟩
  refine ⟨there, finished, requeued, ?_⟩
  intro state reached message member incoming
  obtain ⟨once, inTime⟩ := incoming_queued_at_most_once exampleFunctions exampleSettings Tables.empty
    Single.empty requeuedAfterwards events final ran unqueued state reached message member incoming
  exact ⟨once, (inTime onTime).2⟩

/-- A message is put back while it is in the queue, and two workers take up its rows. -/
def requeuedWhileQueued : List (Action Work Choice Elapsed) :=
  [.start (.insertMessage routedMessage), .answer 0 {},
    .start (.requeueInbound 1 1 false), .answer 1 {},
    .start (.processNext "first"), .answer 2 { picked := some 1 }, .answer 2 {},
    .start (.processNext "second"), .answer 3 { picked := some 2 }, .answer 3 {},
    .answer 2 acceptedByEndpoint, .answer 2 {}, .answer 2 acceptedByEndpoint, .answer 2 {},
    .answer 3 acceptedByEndpoint, .answer 3 {}, .answer 3 acceptedByEndpoint, .answer 3 {},
    .answer 2 acceptedByEndpoint, .answer 3 acceptedByEndpoint]

/-- The message has two rows, and both workers have posted it. -/
theorem requeued_while_queued :
    ∃ events final, Machine.run (delivery exampleFunctions exampleSettings).step
        (State.idle Tables.empty) requeuedWhileQueued = some (events, final) ∧
      final.tables.messages.rows.map (fun message => (message.id, message.scope)) =
        [(1, .incoming)] ∧
      final.tables.queue.rows.map (fun row => (row.id, row.messageId)) = [(2, 1), (1, 1)] ∧
      (final.requests.drop 2).map (fun request => (attemptedBy request.history,
        settledBy request.history)) = [(true, false), (true, false)] := by
  exact Machine.exists_run (by decide +kernel)

end Camelmailer.Worker.QueueRows
