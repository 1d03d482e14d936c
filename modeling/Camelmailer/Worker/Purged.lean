import Camelmailer.Worker.QueueRows

/-!
# Content that has been purged

Retention selects messages that are not in the queue and empties them one by one. Retries are checked
against that in transactions of their own: `requeue_outbound` refuses a message without content,
`requeue_inbound` does not look. Between the selection of a message and its write a retry can put it
back into the queue.
-/

namespace Camelmailer.Worker.Purged

open Utf8 Db Requests

/-! ## The queue and what is in the messages -/

/-- The message of a row is of the row's server and has its content. -/
structure Intact (tables : Tables) : Prop where
  below : ∀ row ∈ tables.queue.rows, row.messageId < tables.messages.next
  server : ∀ row ∈ tables.queue.rows, ∀ message ∈ tables.messages.rows,
    message.id = row.messageId → message.serverId = row.serverId
  content : ∀ row ∈ tables.queue.rows, ∀ message ∈ tables.messages.rows,
    message.id = row.messageId → message.contentPurgedAt = none

/-- An incoming message has its content. -/
def HasContent (_ : Tables) (message : StoredMessage) : Prop :=
  message.scope = .incoming → message.contentPurgedAt = none

instance (tables : Tables) (message : StoredMessage) : Decidable (HasContent tables message) :=
  inferInstanceAs (Decidable (message.scope = .incoming → message.contentPurgedAt = none))

/-- The server and the message that a command empties. -/
def purges {β : Type} : Command β → Option (Id × Nat)
  | .purgeContent serverId messageId => some (serverId, messageId)
  | _ => none

/-- Messages are emptied only when they are not in the queue. -/
def PurgesUnqueued {Call : Type} (due : Due Tables Call Choice Command Fault Reply) : Prop :=
  ∀ target ∈ purges due.command, due.state.tables.isQueued target.1 target.2 = false

instance {Call : Type} :
    DecidablePred (PurgesUnqueued : Due Tables Call Choice Command Fault Reply → Prop) :=
  fun due => inferInstanceAs (Decidable (∀ target ∈ purges due.command,
    due.state.tables.isQueued target.1 target.2 = false))

section Intact

variable {settings : Settings} {choice : Choice} {tables after : Tables} {β : Type}
  {command : Command β} {answer : β}

/-- Nothing but a purge takes the content of a message. -/
theorem Rewrites.content {row new : StoredMessage}
    (rewrites : Rewrites tables ⟨command, answer⟩ row new) :
    new.contentPurgedAt = row.contentPurgedAt ∨
      purges command = some (row.serverId, row.id) := by
  cases rewrites with
  | purged => exact .inr rfl
  | _ => exact .inl rfl

variable {row : QueueRow} {message : StoredMessage}

/-- A message with a row is of the row's server, so it is found in the queue. -/
theorem Intact.isQueued (intact : Intact tables) (member : row ∈ tables.queue.rows)
    (there : message ∈ tables.messages.rows) (own : message.id = row.messageId) :
    tables.isQueued message.serverId message.id = true := by
  rw [Tables.isQueued, List.any_eq_true]
  refine ⟨row, member, ?_⟩
  simp [own, intact.server row member message there own]

/-- The server for which a command stores a message. -/
def storesFor : Answered Command → Option Id
  | ⟨.insertMessage message, _⟩ => some message.serverId
  | _ => none

variable {entry : Answered Command}

theorem Stores.fresh {new : StoredMessage} (stores : Stores tables entry new) :
    storesFor entry = some new.serverId ∧ new.id = tables.messages.next ∧
      new.contentPurgedAt = none := by
  cases stores
  exact ⟨rfl, rfl, rfl⟩

/-- A row comes with a message of its server, if it comes with one. -/
theorem Enqueues.server (enqueues : Enqueues tables entry row) :
    storesFor entry = some row.serverId ∨ storesFor entry = none := by
  cases enqueues with
  | inserted => exact .inl rfl
  | inbound present incoming => exact .inr rfl
  | outbound present outgoing retryable stored absent => exact .inr rfl

/-- A row that is added is one of a message that has been stored. -/
theorem enqueues_below (enqueues : Enqueues tables ⟨command, answer⟩ row)
    (responds : respond settings choice command tables = (answer, after)) :
    row.messageId < after.messages.next := by
  have next := (respond_messages responds).next
  cases enqueues with
  | inserted =>
      obtain ⟨⟨message, member, id, -⟩, -⟩ := QueueRows.insertMessage_ok responds
      exact lt_of_eq_of_lt id.symm (after.messages.below message member)
  | inbound present incoming => exact Nat.lt_of_lt_of_le (tables.messages.below _ present) next
  | outbound present outgoing retryable stored absent =>
      exact Nat.lt_of_lt_of_le (tables.messages.below _ present) next

/-- A row that is added is one of a message with content. -/
theorem enqueues_content (enqueues : Enqueues tables ⟨command, answer⟩ row)
    (requeues : ∀ target ∈ inboundTarget command, ∀ message ∈ tables.messages.rows,
      message.serverId = target.1 → message.id = target.2 → HasContent tables message)
    (there : message ∈ tables.messages.rows) (own : message.id = row.messageId) :
    message.serverId = row.serverId ∧ message.contentPurgedAt = none := by
  cases enqueues with
  | inserted => exact absurd own (Nat.ne_of_lt (tables.messages.below message there))
  | inbound present incoming =>
      obtain rfl := Table.unique there present own
      exact ⟨rfl, requeues _ rfl message there rfl rfl incoming⟩
  | outbound present outgoing retryable stored absent =>
      obtain rfl := Table.unique there present own
      exact ⟨rfl, stored⟩

theorem Intact.respond (intact : Intact tables)
    (requeues : ∀ target ∈ inboundTarget command, ∀ message ∈ tables.messages.rows,
      message.serverId = target.1 → message.id = target.2 → HasContent tables message)
    (unqueued : ∀ target ∈ purges command, tables.isQueued target.1 target.2 = false)
    (responds : Worker.respond settings choice command tables = (answer, after)) :
    Intact after := by
  have messages := respond_messages responds
  have queue := respond_queue responds
  -- a message that was there before, with a row that was there or has been added
  have was {row : QueueRow} (member : row ∈ after.queue.rows) {old new : StoredMessage}
      (there : old ∈ tables.messages.rows) (rewrites : Rewrites tables ⟨command, answer⟩ old new)
      (own : new.id = row.messageId) :
      old.serverId = row.serverId ∧ new.contentPurgedAt = none := by
    have ofOld : old.id = row.messageId := rewrites.same.1.symm.trans own
    rcases queue.origin row member with ⟨before, present, requeued, -⟩ | enqueues
    · have same := ofOld.trans requeued.same.2.1
      refine ⟨(intact.server before present old there same).trans requeued.same.2.2.1.symm, ?_⟩
      rcases Rewrites.content rewrites with unchanged | purge
      · exact unchanged.trans (intact.content before present old there same)
      · have absent := unqueued _ purge
        rw [intact.isQueued present there same] at absent
        cases absent
    · obtain ⟨server, content⟩ := enqueues_content enqueues requeues there ofOld
      refine ⟨server, ?_⟩
      rcases Rewrites.content rewrites with unchanged | purge
      · exact unchanged.trans content
      · cases enqueues <;> cases purge
  -- a message that has just been stored, with the row that came with it
  have fresh {row : QueueRow} (member : row ∈ after.queue.rows) {new : StoredMessage}
      (stores : Stores tables ⟨command, answer⟩ new) (own : new.id = row.messageId) :
      new.serverId = row.serverId ∧ new.contentPurgedAt = none := by
    obtain ⟨server, id, content⟩ := Stores.fresh stores
    refine ⟨?_, content⟩
    rcases queue.origin row member with ⟨before, present, requeued, -⟩ | enqueues
    · exact absurd (id.symm.trans (own.trans requeued.same.2.1)).symm
        (Nat.ne_of_lt (intact.below before present))
    · rcases Enqueues.server enqueues with same | none
      · exact Option.some.inj (server.symm.trans same)
      · rw [server] at none
        cases none
  refine ⟨?_, ?_, ?_⟩
  · intro row member
    rcases queue.origin row member with ⟨before, present, requeued, -⟩ | enqueues
    · rw [requeued.same.2.1]
      exact Nat.lt_of_lt_of_le (intact.below before present) messages.next
    · exact enqueues_below enqueues responds
  · intro row member message there own
    rcases messages.origin message there with ⟨old, before, rewrites⟩ | stores
    · exact rewrites.same.2.1.trans (was member before rewrites own).1
    · exact (fresh member stores own).1
  · intro row member message there own
    rcases messages.origin message there with ⟨old, before, rewrites⟩ | stores
    · exact (was member before rewrites own).2
    · exact (fresh member stores own).2

end Intact

/-! ## What workers send -/

/-- The server and the message that a command loads. -/
def loadTarget {β : Type} : Command β → Option (Id × Nat)
  | .loadMessage serverId messageId => some (serverId, messageId)
  | _ => none

/-- Messages are loaded while they are in the queue. -/
def LoadsQueued {Call : Type} (due : Due Tables Call Choice Command Fault Reply) : Prop :=
  ∀ target ∈ loadTarget due.command, due.state.tables.isQueued target.1 target.2 = true

instance {Call : Type} :
    DecidablePred (LoadsQueued : Due Tables Call Choice Command Fault Reply → Prop) :=
  fun due => inferInstanceAs (Decidable (∀ target ∈ loadTarget due.command,
    due.state.tables.isQueued target.1 target.2 = true))

/-- A command that neither loads a message nor hands one to the outside. -/
def Housekeeping (β : Type) (command : Command β) : Prop :=
  ∀ answer : β, attempts ⟨command, answer⟩ = false ∧ loads ⟨command, answer⟩ = none

variable {β : Type}

theorem ask_housekeeping {command : Command (Except Fault β)} (kind : Housekeeping _ command) :
    (ask command : Handler β).Sends Housekeeping := by
  refine ⟨kind, fun answer => ?_⟩
  cases answer <;> trivial

theorem purgeEach_housekeeping (serverId : Id) (ids : List Nat) :
    (purgeEach serverId ids).Sends Housekeeping := by
  induction ids with
  | nil => trivial
  | cons id rest ih =>
      apply (ask_housekeeping (fun _ => ⟨rfl, rfl⟩)).bind
      exact fun _ => ih

theorem retain_housekeeping (round : Retention) : (retain round).Sends Housekeeping := by
  cases round with
  | purgeMessageContent serverId cutoff batch =>
      refine Program.Sends.bind ?_ (fun _ => trivial)
      apply (ask_housekeeping (fun _ => ⟨rfl, rfl⟩)).bind
      intro selected
      exact (purgeEach_housekeeping serverId selected).bind (fun _ => trivial)
  | pruneMessageMetadata serverId cutoff batch =>
      refine Program.Sends.bind ?_ (fun _ => trivial)
      apply (ask_housekeeping (fun _ => ⟨rfl, rfl⟩)).bind
      intro selected
      apply (ask_housekeeping (fun _ => ⟨rfl, rfl⟩)).bind
      intro _
      exact (ask_housekeeping (fun _ => ⟨rfl, rfl⟩)).bind (fun _ => trivial)

/-- What workers, the API and retention promise. -/
def Promised (settings : Settings) :
    Work ⊕ Retention → List (Answered Command) → ∀ β, Command β → Prop
  | .inl _ => Bound settings
  | .inr _ => fun _ => Housekeeping

theorem operation_safe (functions : Functions) (settings : Settings) (call : Work ⊕ Retention) :
    Program.Safe (Promised settings call) Any ((operation functions settings).handler call) [] := by
  cases call with
  | inl call => exact work_safe call
  | inr round =>
      exact (retain_housekeeping round).safe (fun _ _ _ kind => kind) (fun _ _ => trivial)

variable {settings : Settings}

/-- Who hands a message to the outside has loaded it. -/
theorem attempts_loaded {call : Work ⊕ Retention} {history : List (Answered Command)}
    {command : Command β} {answer : β} (promised : Promised settings call history β command)
    (attempted : attempts ⟨command, answer⟩ = true) : (loadedBy history).isSome = true := by
  cases call with
  | inl call =>
      cases command
      case send domain returnPath rcptTo rawMessage =>
        obtain ⟨queued, message, busy, -⟩ := promised
        rw [busy.loaded]
        rfl
      case post url message =>
        obtain ⟨-, ⟨loaded, load, -⟩, -⟩ := promised
        rw [load]
        rfl
      all_goals cases attempted
  | inr round =>
      rw [(promised answer).1] at attempted
      cases attempted

/-- Messages in the queue have their content, and so has what workers have loaded and sent. -/
structure Undamaged (state : Operating) : Prop where
  intact : Intact state.tables
  loaded : ∀ request ∈ state.requests, ∀ message, loadedBy request.history = some message →
    message.contentPurgedAt = none
  attempted : ∀ request ∈ state.requests, attemptedBy request.history = true →
    (loadedBy request.history).isSome = true

/-- What is demanded of the answers of a run. -/
def Conserving (due : Due Tables (Work ⊕ Retention) Choice Command Fault Reply) : Prop :=
  (RequeuesOnly HasContent due ∧ PurgesUnqueued due) ∧ LoadsQueued due

/-- A message that is loaded while it is in the queue has its content. -/
theorem loaded_content {choice : Choice} {tables after : Tables} {command : Command β} {answer : β}
    {message : StoredMessage} (intact : Intact tables)
    (queued : ∀ target ∈ loadTarget command, tables.isQueued target.1 target.2 = true)
    (loaded : loads ⟨command, answer⟩ = some message)
    (responds : respond settings choice command tables = (answer, after)) :
    message.contentPurgedAt = none := by
  obtain ⟨serverId, messageId, token, same⟩ := loads_some loaded
  cases same
  obtain ⟨error, failed, -⟩ | ⟨found, -⟩ := transacted_cases responds
  · cases failed
  · obtain ⟨row, there, same⟩ := Option.map_eq_some_iff.mp (Except.ok.inj found).symm
    cases same
    obtain ⟨present, id, -⟩ := Tables.message_some there
    have inQueue := queued _ rfl
    rw [Tables.isQueued, List.any_eq_true] at inQueue
    obtain ⟨waiting, member, own⟩ := inQueue
    rw [Bool.and_eq_true, decide_eq_true_eq] at own
    exact intact.content waiting member message present (id.trans own.1.symm)

theorem undamaged_kept (functions : Functions) (settings : Settings) :
    Kept (operation functions settings) (Promised settings) Conserving Undamaged where
  start state call inv := by
    refine ⟨inv.intact, ?_, ?_⟩
    · intro request member message loaded
      rcases List.mem_append.mp member with old | new
      · exact inv.loaded request old message loaded
      · cases List.mem_singleton.mp new
        simp [Service.opened, loadedBy] at loaded
    · intro request member attempted
      rcases List.mem_append.mp member with old | new
      · exact inv.attempted request old attempted
      · cases List.mem_singleton.mp new
        simp [Service.opened, attemptedBy] at attempted
  answer state index choice request β command next answer tables inv found promised executed held := by
    obtain ⟨⟨requeues, unqueued⟩, queued⟩ := held
    have responds := Option.some.inj executed
    have present := List.mem_of_getElem? found
    refine ⟨inv.intact.respond requeues unqueued responds, ?_, ?_⟩
    · intro other member message loaded
      rcases List.mem_or_eq_of_mem_set member with old | rfl
      · exact inv.loaded other old message loaded
      · rw [Request.continued, loadedBy_append, Option.or_eq_some_iff] at loaded
        rcases loaded with before | ⟨-, now⟩
        · exact inv.loaded request present message before
        · exact loaded_content inv.intact queued now responds
    · intro other member attempted
      rcases List.mem_or_eq_of_mem_set member with old | rfl
      · exact inv.attempted other old attempted
      · rw [Request.continued, loadedBy_append, Option.isSome_or, Bool.or_eq_true]
        rw [Request.continued, attemptedBy_append, Bool.or_eq_true] at attempted
        rcases attempted with before | now
        · exact .inl (inv.attempted request present before)
        · exact .inl (attempts_loaded promised now)
  disturb state elapsed tables inv disturbed := by
    cases disturbed
    exact ⟨⟨inv.intact.below, inv.intact.server, inv.intact.content⟩, inv.loaded, inv.attempted⟩

theorem intact_kept (functions : Functions) (settings : Settings) :
    Kept (operation functions settings) (Promised settings)
      (fun due => RequeuesOnly HasContent due ∧ PurgesUnqueued due)
      (fun state => Intact state.tables) where
  start state call inv := inv
  answer state index choice request β command next answer tables inv found promised executed held :=
    inv.respond held.1 held.2 (Option.some.inj executed)
  disturb state elapsed tables inv disturbed := by
    cases disturbed
    exact ⟨inv.below, inv.server, inv.content⟩

theorem Intact.empty : Intact Tables.empty where
  below _ member := absurd member List.not_mem_nil
  server _ member := absurd member List.not_mem_nil
  content _ member := absurd member List.not_mem_nil

/-- A worker takes up a row of a message with a route, and posts the message. -/
def posts (index row : Nat) (inspects : Bool) :
    List (Action (Work ⊕ Retention) Choice Elapsed) :=
  [.start (.inl (.processNext [])), .answer index { picked := some row }, .answer index {}] ++
    (if inspects then [.answer index { score := .ok 0 }, .answer index {}] else []) ++
    [.answer index QueueRows.acceptedByEndpoint, .answer index {},
      .answer index QueueRows.acceptedByEndpoint]

/-- Of two messages the one that has been posted is emptied. The other one is in the queue, and is
posted after that. -/
def purgedAfterDelivery : List (Action (Work ⊕ Retention) Choice Elapsed) :=
  [.start (.inl (.insertMessage QueueRows.routedMessage)), .answer 0 {}] ++ posts 1 1 true ++
    [.answer 1 {}, .start (.inl (.insertMessage QueueRows.routedMessage)), .answer 2 {},
      .start (.inr (.purgeMessageContent 1 10 5)), .answer 3 { selected := [1, 2] }, .answer 3 {}] ++
    posts 4 2 true ++ [.answer 4 {}]

/-- An incoming message is posted and emptied, and after that it is put back and posted again. -/
def requeuedAfterPurge : List (Action (Work ⊕ Retention) Choice Elapsed) :=
  [.start (.inl (.insertMessage QueueRows.routedMessage)), .answer 0 {}] ++ posts 1 1 true ++
    [.answer 1 {}, .start (.inr (.purgeMessageContent 1 10 5)), .answer 2 { selected := [1] },
      .answer 2 {}, .start (.inl (.requeueInbound 1 1 false)), .answer 3 {}] ++ posts 4 2 false

/-- An outgoing message has failed. Retention selects it, a retry puts it back, and then it is
emptied. -/
def requeuedWhilePurging : List (Action (Work ⊕ Retention) Choice Elapsed) :=
  [.start (.inl (.insertMessage (exampleMessage .outgoing "r@b.example"))), .answer 0 {},
    .start (.inl (.processNext [])), .answer 1 { picked := some 1 }, .answer 1 {}, .answer 1 {},
    .answer 1 {}, .answer 1 { outcome := .hardFail [] }, .answer 1 {},
    .start (.inr (.purgeMessageContent 1 10 5)), .answer 2 { selected := [1] },
    .start (.inl (.requeueOutbound 1 1)), .answer 3 {}, .answer 2 {}]

end Camelmailer.Worker.Purged
