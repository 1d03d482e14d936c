import Camelmailer.Worker.Process

/-!
# What an answered command has written

One relation for each table says what a command that has been answered can have made of a row.
Every invariant of the delivery is a case analysis over these relations, and no proof beyond this
module looks into a transaction again.
-/

namespace Camelmailer.Worker

open Utf8 Db Requests

/-! ## Messages -/

/-- Whether a message is the one that a command names. -/
def StoredMessage.isOf (row : StoredMessage) (serverId : Id) (messageId : Nat) : Bool :=
  row.id = messageId && row.serverId = serverId

/-- Whether an answered command has changed the status of an outgoing message for certain. -/
def written : Answered Command → StoredMessage → Bool
  | ⟨.recordOutboundDelivery serverId messageId _ _ _ _ _, answer⟩, row =>
      answer.toOption = some true && row.isOf serverId messageId && row.scope = .outgoing &&
        row.status ≠ .bounced
  | ⟨.requeueOutbound serverId messageId, answer⟩, row =>
      answer.toOption = some .requeued && row.isOf serverId messageId
  | _, _ => false

/-- What an answered command has made of a message. -/
inductive Rewrites (tables : Tables) : Answered Command → StoredMessage → StoredMessage → Prop
  | unchanged {entry : Answered Command} {row : StoredMessage} (still : written entry row = false) :
      Rewrites tables entry row row
  | delivered {row : StoredMessage} {result : DeliveryResult} (alive : row.status ≠ .bounced) :
      Rewrites tables ⟨.recordDelivery row.serverId row.id result, .ok true⟩ row
        (row.concluded tables.now result)
  | sent {row : StoredMessage} {queuedId : Nat} {result : DeliveryResult} {action : QueueAction}
      {event : WebhookEvent} {payload : Payload} (outgoing : row.scope = .outgoing)
      (alive : row.status ≠ .bounced) :
      Rewrites tables
        ⟨.recordOutboundDelivery row.serverId row.id queuedId result action event payload, .ok true⟩
        row (row.concluded tables.now result)
  | unmatched {row : StoredMessage} {queuedId : Nat} {category : BounceCategory}
      (bounce : row.isBounceMessage = true) :
      Rewrites tables ⟨.recordUnmatchedBounce row.serverId row.id queuedId category, .ok true⟩ row
        (row.unmatched tables.now category)
  | classified {row : StoredMessage} {tokens : List Text} {category : BounceCategory}
      (bounce : row.isBounceMessage = true) :
      Rewrites tables ⟨.correlateBounce row.serverId row.id tokens category, .ok .notMatched⟩ row
        { row with bounceCategory := some category }
  | restored {row : StoredMessage} {tokens : List Text} {category : BounceCategory}
      (bounce : row.isBounceMessage = true) (correlated : row.bounceCorrelatedAt.isSome = true) :
      Rewrites tables ⟨.correlateBounce row.serverId row.id tokens category, .ok .alreadyCorrelated⟩
        row row.restored
  | linked {row original : StoredMessage} {tokens : List Text} {category : BounceCategory}
      (bounce : row.isBounceMessage = true) (uncorrelated : row.bounceCorrelatedAt = none)
      (present : original ∈ tables.messages.rows) (outgoing : original.scope = .outgoing) :
      Rewrites tables
        ⟨.correlateBounce row.serverId row.id tokens category, .ok (.correlated original.id)⟩ row
        (StoredMessage.linked tables.now original { row with bounceCategory := some category })
  | cameBack {row bounce : StoredMessage} {tokens : List Text} {category : BounceCategory}
      (outgoing : row.scope = .outgoing) (present : bounce ∈ tables.messages.rows)
      (uncorrelated : bounce.bounceCorrelatedAt = none) :
      Rewrites tables
        ⟨.correlateBounce row.serverId bounce.id tokens category, .ok (.correlated row.id)⟩ row
        (row.cameBack tables.now category)
  | requeuedInbound {row : StoredMessage} {bypass : Bool} (incoming : row.scope = .incoming) :
      Rewrites tables
        ⟨.requeueInbound row.serverId row.id bypass, .ok (some (row.requeuedInbound bypass))⟩ row
        (row.requeuedInbound bypass)
  | requeuedOutbound {row : StoredMessage} (outgoing : row.scope = .outgoing)
      (retryable : row.status ∈ retryableOutboundStatuses) (stored : row.contentPurgedAt = none) :
      Rewrites tables ⟨.requeueOutbound row.serverId row.id, .ok .requeued⟩ row
        row.requeuedOutbound
  | judged {row : StoredMessage} {verdict : Verdict} :
      Rewrites tables ⟨.recordInspection row.serverId row.id verdict, .ok ()⟩ row
        (row.judged verdict)
  | purged {row : StoredMessage} :
      Rewrites tables ⟨.purgeContent row.serverId row.id, .ok ()⟩ row (row.purged tables.now)
  | unlinked {row : StoredMessage} {ids : List Nat} :
      Rewrites tables ⟨.pruneReferences row.serverId ids, .ok ()⟩ row { row with bounceForId := none }

/-- A message that an answered command has stored. -/
inductive Stores (tables : Tables) : Answered Command → StoredMessage → Prop
  | inserted {message : QueuedMessage} {token : Text} :
      Stores tables ⟨.insertMessage message, .ok tables.messages.next⟩
        { message with id := tables.messages.next, token := token, createdAt := tables.now }

/-- A message that an answered command has deleted. -/
inductive Prunes : Answered Command → StoredMessage → Prop
  | pruned {row : StoredMessage} {ids : List Nat} (listed : row.id ∈ ids) :
      Prunes ⟨.pruneMessages row.serverId ids, .ok ()⟩ row

/-- What has become of the messages. -/
structure Rewritten (tables after : Tables) (entry : Answered Command) : Prop where
  origin : ∀ row ∈ after.messages.rows,
    (∃ old ∈ tables.messages.rows, Rewrites tables entry old row) ∨ Stores tables entry row
  fate : ∀ row ∈ tables.messages.rows,
    (∃ new ∈ after.messages.rows, Rewrites tables entry row new) ∨ Prunes entry row
  next : tables.messages.next ≤ after.messages.next

section Messages

variable {tables after : Tables} {entry : Answered Command}

theorem Rewritten.of_same (same : after.messages = tables.messages)
    (still : ∀ row, written entry row = false) : Rewritten tables after entry := by
  constructor
  · intro row member
    rw [same] at member
    exact .inl ⟨row, member, .unchanged (still row)⟩
  · intro row member
    rw [← same] at member
    exact .inl ⟨row, member, .unchanged (still row)⟩
  · rw [same]

variable {change : StoredMessage → StoredMessage}

/-- A change that does to each row what the relation allows. -/
theorem Rewritten.of_map (changed : after.messages.rows = tables.messages.rows.map change)
    (next : after.messages.next = tables.messages.next)
    (allowed : ∀ row ∈ tables.messages.rows, Rewrites tables entry row (change row)) :
    Rewritten tables after entry := by
  constructor
  · intro row member
    rw [changed] at member
    obtain ⟨old, there, rfl⟩ := List.mem_map.mp member
    exact .inl ⟨old, there, allowed old there⟩
  · intro row member
    left
    rw [changed]
    exact ⟨_, List.mem_map_of_mem member, allowed row member⟩
  · rw [next]

variable {serverId : Id} {messageId : Nat} {condition : StoredMessage → Bool}

/-- An update of one message of a server. -/
theorem Rewritten.of_update (updated : after.messages.rows = tables.messages.rows.map (fun row =>
      if row.id = messageId && row.serverId = serverId && condition row then change row else row))
    (next : after.messages.next = tables.messages.next) (still : ∀ row, written entry row = true →
      (row.id = messageId && row.serverId = serverId && condition row) = true)
    (allowed : ∀ row ∈ tables.messages.rows, row.id = messageId → row.serverId = serverId →
      condition row = true → Rewrites tables entry row (change row)) :
    Rewritten tables after entry := by
  apply Rewritten.of_map updated next
  intro row member
  split_ifs with holds
  · simp only [Bool.and_eq_true, decide_eq_true_eq] at holds
    exact allowed row member holds.1.1 holds.1.2 holds.2
  · exact .unchanged (Bool.eq_false_iff.mpr (fun touched => holds (still row touched)))

variable {row : StoredMessage}

theorem Tables.message_some (found : tables.message serverId messageId = some row) :
    row ∈ tables.messages.rows ∧ row.id = messageId ∧ row.serverId = serverId := by
  obtain ⟨found, same⟩ := Option.filter_eq_some_iff.mp found
  obtain ⟨member, id⟩ := Table.find_some found
  exact ⟨member, id, of_decide_eq_true same⟩

/-- A message of a server that meets a condition. -/
theorem Tables.filtered_some
    (found : (tables.message serverId messageId).filter condition = some row) :
    row ∈ tables.messages.rows ∧ row.id = messageId ∧ row.serverId = serverId ∧
      condition row = true := by
  obtain ⟨found, meets⟩ := Option.filter_eq_some_iff.mp found
  obtain ⟨member, id, server⟩ := Tables.message_some found
  exact ⟨member, id, server, meets⟩

variable {tokens : List Text}

theorem Tables.original_some (found : tables.original serverId tokens = some row) :
    row ∈ tables.messages.rows ∧ row.scope = .outgoing ∧ row.serverId = serverId := by
  obtain ⟨token, -, chosen⟩ := List.exists_of_findSome?_eq_some found
  have member := List.mem_filter.mp (List.argmin_mem chosen)
  simp only [Bool.and_eq_true, decide_eq_true_eq] at member
  exact ⟨member.1, member.2.1.2, member.2.2⟩

variable {category : BounceCategory} {webhooks : List Id}

/-- The notification is linked, its original has come back, and no other message changes. -/
theorem link_rewritten {bounce original : StoredMessage} (there : bounce ∈ tables.messages.rows)
    (server : bounce.serverId = serverId) (is : bounce.isBounceMessage = true)
    (uncorrelated : bounce.bounceCorrelatedAt = none) (present : original ∈ tables.messages.rows)
    (outgoing : original.scope = .outgoing) (same : original.serverId = serverId) :
    Rewritten tables (tables.link serverId bounce.id category original webhooks)
      ⟨.correlateBounce serverId bounce.id tokens category, .ok (.correlated original.id)⟩ := by
  subst server
  have different : original.id ≠ bounce.id := by
    intro equal
    rw [Table.unique present there equal] at outgoing
    simp [StoredMessage.isBounceMessage, outgoing] at is
  have mapped : (tables.link bounce.serverId bounce.id category original webhooks).messages.rows =
      _ := List.map_map
  refine Rewritten.of_map mapped rfl ?_
  intro row member
  by_cases isBounce : row.id = bounce.id
  · obtain rfl := Table.unique member there isBounce
    have changed : Rewrites tables
        ⟨.correlateBounce row.serverId row.id tokens category, .ok (.correlated original.id)⟩ row
        (StoredMessage.linked tables.now original { row with bounceCategory := some category }) :=
      .linked is uncorrelated present outgoing
    simpa [is, StoredMessage.linked, different.symm] using changed
  · by_cases isOriginal : row.id = original.id
    · obtain rfl := Table.unique member present isOriginal
      have changed : Rewrites tables
          ⟨.correlateBounce row.serverId bounce.id tokens category, .ok (.correlated row.id)⟩ row
          (row.cameBack tables.now category) := .cameBack outgoing there uncorrelated
      simpa [isBounce, same] using changed
    · simpa [isBounce, isOriginal] using Rewrites.unchanged rfl

variable {settings : Settings} {choice : Choice} {β : Type} {command : Command β} {answer : β}

theorem correlate_rewritten {bounceId : Nat} :
    Rewritten tables (tables.correlateBounce serverId bounceId tokens category webhooks).2
      ⟨.correlateBounce serverId bounceId tokens category,
        .ok (tables.correlateBounce serverId bounceId tokens category webhooks).1⟩ := by
  unfold Tables.correlateBounce
  split
  · exact .of_same rfl (fun _ => rfl)
  · next bounce found =>
      obtain ⟨there, rfl, rfl, is⟩ := Tables.filtered_some found
      split_ifs with correlated
      · apply Rewritten.of_update
        case updated => rfl
        case next => rfl
        case still => exact fun _ touched => (by cases touched)
        intro row member id _ _
        obtain rfl := Table.unique member there id
        exact .restored is correlated
      · split
        · apply Rewritten.of_update
          case updated => rfl
          case next => rfl
          case still => exact fun _ touched => (by cases touched)
          intro row member id server is
          rw [← id, ← server]
          exact .classified is
        · next original chosen =>
            obtain ⟨present, outgoing, same⟩ := Tables.original_some chosen
            exact link_rewritten there rfl is (by simpa using correlated) present outgoing same

/-- A message that can be retried is pending again, whatever has been done to the queue. -/
theorem requeued_rewritten {queued : Tables} (same : queued.messages = tables.messages)
    (there : row ∈ tables.messages.rows) (outgoing : row.scope = .outgoing)
    (retryable : row.status ∈ retryableOutboundStatuses) (stored : row.contentPurgedAt = none) :
    Rewritten tables (queued.updateMessage row.serverId row.id (fun _ => true)
      StoredMessage.requeuedOutbound (fun _ => rfl))
      ⟨.requeueOutbound row.serverId row.id, .ok .requeued⟩ := by
  apply Rewritten.of_update
  case updated => rw [← same]; rfl
  case next => rw [← same]; rfl
  case still =>
    intro row touched
    rw [written, Bool.and_eq_true] at touched
    rw [Bool.and_true]
    exact touched.2
  intro other member id _ _
  obtain rfl := Table.unique member there id
  exact .requeuedOutbound outgoing retryable stored

theorem requeueOutbound_rewritten :
    Rewritten tables (tables.requeueOutbound serverId messageId).2
      ⟨.requeueOutbound serverId messageId, .ok (tables.requeueOutbound serverId messageId).1⟩ := by
  unfold Tables.requeueOutbound
  split
  · exact .of_same rfl (fun _ => rfl)
  · next row found =>
      obtain ⟨there, rfl, rfl, outgoing⟩ := Tables.filtered_some found
      split_ifs with retryable purged queued
      · exact .of_same rfl (fun _ => rfl)
      · exact requeued_rewritten rfl there (of_decide_eq_true outgoing) retryable (by simpa using purged)
      · exact requeued_rewritten rfl there (of_decide_eq_true outgoing) retryable (by simpa using purged)
      · exact .of_same rfl (fun _ => rfl)

theorem requeueInbound_rewritten {bypass : Bool} :
    Rewritten tables (tables.requeueInbound serverId messageId bypass).2
      ⟨.requeueInbound serverId messageId bypass,
        .ok (tables.requeueInbound serverId messageId bypass).1⟩ := by
  unfold Tables.requeueInbound
  split
  · exact .of_same rfl (fun _ => rfl)
  · next row found =>
      obtain ⟨there, rfl, rfl, incoming⟩ := Tables.filtered_some found
      apply Rewritten.of_update
      case updated => rfl
      case next => rfl
      case still => exact fun _ touched => (by cases touched)
      intro other member id _ _
      obtain rfl := Table.unique member there id
      exact .requeuedInbound (of_decide_eq_true incoming)

variable {result : DeliveryResult}

theorem recordDelivery_rewritten :
    Rewritten tables (tables.recordDelivery serverId messageId result).2
      ⟨.recordDelivery serverId messageId result,
        .ok (tables.recordDelivery serverId messageId result).1⟩ := by
  unfold Tables.recordDelivery
  dsimp only
  split_ifs
  · apply Rewritten.of_update
    case updated => rfl
    case next => rfl
    case still => exact fun _ touched => (by cases touched)
    rintro row member rfl rfl alive
    exact .delivered (of_decide_eq_true alive)
  · exact .of_same rfl (fun _ => rfl)

variable {queuedId : Nat} {action : QueueAction}

theorem Tables.settle_messages {owner : Nat × Id} :
    (tables.settle action queuedId owner).messages = tables.messages := by
  cases action <;> rfl

theorem recordOutboundDelivery_rewritten {event : WebhookEvent} {payload : Payload} :
    Rewritten tables (tables.recordOutboundDelivery serverId messageId queuedId result action event
        payload webhooks).2
      ⟨.recordOutboundDelivery serverId messageId queuedId result action event payload,
        .ok (tables.recordOutboundDelivery serverId messageId queuedId result action event payload
          webhooks).1⟩ := by
  unfold Tables.recordOutboundDelivery
  dsimp only
  split_ifs
  · apply Rewritten.of_update
    case updated => exact congrArg Table.rows Tables.settle_messages
    case next => exact (congrArg Table.next Tables.settle_messages).trans rfl
    case still =>
      intro row touched
      simp only [written, StoredMessage.isOf, Bool.and_eq_true] at touched ⊢
      exact ⟨touched.1.1.2, touched.1.2, touched.2⟩
    rintro row member rfl rfl meets
    rw [Bool.and_eq_true, decide_eq_true_eq, decide_eq_true_eq] at meets
    exact .sent meets.1 meets.2
  · exact .of_same rfl (fun _ => rfl)

theorem recordUnmatchedBounce_rewritten {bounceId : Nat} :
    Rewritten tables (tables.recordUnmatchedBounce serverId bounceId queuedId category).2
      ⟨.recordUnmatchedBounce serverId bounceId queuedId category,
        .ok (tables.recordUnmatchedBounce serverId bounceId queuedId category).1⟩ := by
  unfold Tables.recordUnmatchedBounce
  split_ifs
  · apply Rewritten.of_update
    case updated => rfl
    case next => rfl
    case still => exact fun _ touched => (by cases touched)
    rintro row member rfl rfl is
    exact .unmatched is
  · exact .of_same rfl (fun _ => rfl)

/-- A transaction that fails writes no message. -/
theorem Rewritten.transacted {β : Type} {command : Command (Except Fault β)} {fault : Option Fault}
    {effect : β × Tables} {answer : Except Fault β}
    (tried : Worker.transacted fault effect tables = (answer, after))
    (still : ∀ error row, written ⟨command, .error error⟩ row = false)
    (done : Rewritten tables effect.2 ⟨command, .ok effect.1⟩) :
    Rewritten tables after ⟨command, answer⟩ := by
  obtain ⟨error, rfl, rfl⟩ | ⟨rfl, rfl⟩ := transacted_cases tried
  · exact .of_same rfl (still error)
  · exact done

/-- What a command that has been answered has made of the messages. -/
theorem respond_messages (responds : respond settings choice command tables = (answer, after)) :
    Rewritten tables after ⟨command, answer⟩ := by
  cases command
  case insertMessage message =>
    refine .transacted responds (fun _ _ => rfl) ?_
    constructor
    · intro row member
      rcases (Table.mem_insert rfl).mp member with rfl | old
      · exact .inr .inserted
      · exact .inl ⟨row, old, .unchanged rfl⟩
    · intro row member
      exact .inl ⟨row, (Table.mem_insert rfl).mpr (.inr member), .unchanged rfl⟩
    · exact Nat.le_succ _
  case pruneMessages serverId ids =>
    refine .transacted responds (fun _ _ => rfl) ?_
    constructor
    · intro row member
      exact .inl ⟨row, (Table.mem_keep.mp member).1, .unchanged rfl⟩
    · intro row member
      by_cases gone : row.serverId = serverId ∧ row.id ∈ ids
      · obtain ⟨rfl, listed⟩ := gone
        exact .inr (.pruned listed)
      · refine .inl ⟨row, Table.mem_keep.mpr ⟨member, ?_⟩, .unchanged rfl⟩
        simpa using Classical.not_and_iff_not_or_not.mp gone
    · exact Nat.le_refl _
  case pruneReferences serverId ids =>
    refine .transacted responds (fun _ _ => rfl) ?_
    apply Rewritten.of_map
    case changed => rfl
    case next => rfl
    intro row member
    split_ifs with named
    · rw [Bool.and_eq_true, decide_eq_true_eq] at named
      rw [← named.1]
      exact .unlinked
    · exact .unchanged rfl
  case recordInspection serverId messageId verdict =>
    refine .transacted responds (fun _ _ => rfl) ?_
    apply Rewritten.of_update
    case updated => rfl
    case next => rfl
    case still => exact fun _ touched => (by cases touched)
    rintro row member rfl rfl -
    exact .judged
  case purgeContent serverId messageId =>
    refine .transacted responds (fun _ _ => rfl) ?_
    apply Rewritten.of_update
    case updated => rfl
    case next => rfl
    case still => exact fun _ touched => (by cases touched)
    rintro row member rfl rfl -
    exact .purged
  case dequeue worker =>
    refine .transacted responds (fun _ _ => rfl) ?_
    refine .of_same ?_ (fun _ => rfl)
    unfold Tables.dequeue
    split <;> rfl
  case correlateBounce serverId bounceId tokens category =>
    exact .transacted responds (fun _ _ => rfl) correlate_rewritten
  case requeueOutbound serverId messageId =>
    exact .transacted responds (fun _ _ => rfl) requeueOutbound_rewritten
  case requeueInbound serverId messageId bypass =>
    exact .transacted responds (fun _ _ => rfl) requeueInbound_rewritten
  case recordDelivery serverId messageId result =>
    exact .transacted responds (fun _ _ => rfl) recordDelivery_rewritten
  case recordOutboundDelivery serverId messageId queuedId result action event payload =>
    exact .transacted responds (fun _ _ => rfl) recordOutboundDelivery_rewritten
  case recordUnmatchedBounce serverId bounceId queuedId category =>
    exact .transacted responds (fun _ _ => rfl) recordUnmatchedBounce_rewritten
  -- the other commands leave the messages alone
  all_goals first
    | (cases responds; exact .of_same rfl (fun _ => rfl))
    | (obtain ⟨error, rfl, rfl⟩ | ⟨rfl, rfl⟩ := transacted_cases responds <;>
        exact .of_same rfl (fun _ => rfl))

/-- A message keeps its identity, whatever is done to it. -/
theorem Rewrites.same {new : StoredMessage} (rewrites : Rewrites tables entry row new) :
    new.id = row.id ∧ new.serverId = row.serverId ∧ new.scope = row.scope := by
  cases rewrites <;> exact ⟨rfl, rfl, rfl⟩

/-- Whatever message has an identifier, now or later, has a property. -/
structure Fixed (P : StoredMessage → Prop) (id : Nat) (tables : Tables) : Prop where
  below : id < tables.messages.next
  holds : ∀ row ∈ tables.messages.rows, row.id = id → P row

variable {P : StoredMessage → Prop}

/-- A property that no command takes away stays. -/
theorem Fixed.respond {id : Nat}
    (stays : ∀ {row new}, Rewrites tables ⟨command, answer⟩ row new → row.id = id → P row → P new)
    (fixed : Fixed P id tables)
    (responds : respond settings choice command tables = (answer, after)) : Fixed P id after := by
  have rewritten := respond_messages responds
  refine ⟨Nat.lt_of_lt_of_le fixed.below rewritten.next, ?_⟩
  intro row member same
  rcases rewritten.origin row member with ⟨old, there, rewrites⟩ | stored
  · have before := rewrites.same.1.symm.trans same
    exact stays rewrites before (fixed.holds old there before)
  · -- a new message has an identifier of its own
    cases stored
    exact absurd same (Nat.ne_of_gt fixed.below)

/-- A message that is in the table has the property if it has it now. -/
theorem Fixed.of_mem (member : row ∈ tables.messages.rows) (holds : P row) :
    Fixed P row.id tables := by
  refine ⟨tables.messages.below row member, ?_⟩
  intro other there same
  rw [Table.unique there member same]
  exact holds

theorem Fixed.mono {Q : StoredMessage → Prop} {id : Nat} (fixed : Fixed P id tables)
    (weaker : ∀ row, P row → Q row) : Fixed Q id tables :=
  ⟨fixed.below, fun row member same => weaker row (fixed.holds row member same)⟩

end Messages

/-! ## The queue -/

/-- A row that a worker has locked. -/
def QueueRow.locked (now : DateTime) (worker : Text) (row : QueueRow) : QueueRow :=
  { row with lockedBy := some worker, lockedAt := some now }

/-- Whether an answered command has changed a row of the queue for certain. -/
def moved : Answered Command → QueueRow → Bool
  | ⟨.dequeue _, answer⟩, row => answer.toOption.join.any (fun taken => taken.id = row.id)
  | ⟨.retry id _, answer⟩, row => answer.isOk && row.id = id
  | ⟨.recordOutboundDelivery serverId messageId queuedId _ action _ _, answer⟩, row =>
      answer.toOption = some true && action ≠ .complete && row.isOf queuedId (some (messageId, serverId))
  | _, _ => false

/-- What an answered command has made of a row of the queue. -/
inductive Requeues (settings : Settings) (tables : Tables) :
    Answered Command → QueueRow → QueueRow → Prop
  | unchanged {entry : Answered Command} {row : QueueRow} (still : moved entry row = false) :
      Requeues settings tables entry row row
  | taken {row : QueueRow} {worker : Text}
      (ready : row.isReady tables.now settings.lockWindow = true) :
      Requeues settings tables ⟨.dequeue worker, .ok (some (row.locked tables.now worker))⟩ row
        (row.locked tables.now worker)
  | postponed {row : QueueRow} {attempts : Nat} :
      Requeues settings tables ⟨.retry row.id attempts, .ok ()⟩ row
        (row.postponed tables.now attempts)
  | delayed {row : QueueRow} {result : DeliveryResult} {attempts : Nat} {event : WebhookEvent}
      {payload : Payload} :
      Requeues settings tables
        ⟨.recordOutboundDelivery row.serverId row.messageId row.id result (.retry attempts) event
          payload, .ok true⟩ row (row.postponed tables.now attempts)
  | hastened {row : QueueRow} (unlocked : row.lockedBy = none) :
      Requeues settings tables ⟨.requeueOutbound row.serverId row.messageId, .ok .requeued⟩ row
        { row with retryAfter := none }

/-- A row that an answered command has removed from the queue. -/
inductive Removes : Answered Command → QueueRow → Prop
  | completed {row : QueueRow} : Removes ⟨.complete row.id, .ok ()⟩ row
  | recorded {row : QueueRow} {result : DeliveryResult} {event : WebhookEvent} {payload : Payload}
      {recorded : Bool} :
      Removes ⟨.recordOutboundDelivery row.serverId row.messageId row.id result .complete event
        payload, .ok recorded⟩ row
  | stale {row : QueueRow} {result : DeliveryResult} {action : QueueAction} {event : WebhookEvent}
      {payload : Payload} :
      Removes ⟨.recordOutboundDelivery row.serverId row.messageId row.id result action event
        payload, .ok false⟩ row
  | unmatched {row : QueueRow} {category : BounceCategory} {recorded : Bool} :
      Removes ⟨.recordUnmatchedBounce row.serverId row.messageId row.id category, .ok recorded⟩ row
  | pruned {row : QueueRow} {ids : List Nat} (listed : row.messageId ∈ ids) :
      Removes ⟨.pruneReferences row.serverId ids, .ok ()⟩ row

/-- A row that an answered command has added to the queue. -/
inductive Enqueues (tables : Tables) : Answered Command → QueueRow → Prop
  | inserted {message : QueuedMessage} :
      Enqueues tables ⟨.insertMessage message, .ok tables.messages.next⟩
        { id := tables.queue.next, messageId := tables.messages.next, serverId := message.serverId,
          domain := Tables.destination message.rcptTo, bulk := tables.isBulk message.streamId }
  | inbound {message : StoredMessage} {bypass : Bool} (present : message ∈ tables.messages.rows)
      (incoming : message.scope = .incoming) :
      Enqueues tables ⟨.requeueInbound message.serverId message.id bypass,
          .ok (some (message.requeuedInbound bypass))⟩
        { id := tables.queue.next, messageId := message.id, serverId := message.serverId,
          domain := Tables.destination message.rcptTo, bulk := false }
  | outbound {message : StoredMessage} (present : message ∈ tables.messages.rows)
      (outgoing : message.scope = .outgoing)
      (retryable : message.status ∈ retryableOutboundStatuses)
      (stored : message.contentPurgedAt = none)
      (absent : tables.isQueued message.serverId message.id = false) :
      Enqueues tables ⟨.requeueOutbound message.serverId message.id, .ok .requeued⟩
        { id := tables.queue.next, messageId := message.id, serverId := message.serverId,
          domain := splitPart message.rcptTo, bulk := tables.isBulk message.streamId }

/-- Whether an answered command has removed a row of the queue. -/
def removes : Answered Command → QueueRow → Bool
  | ⟨.complete id, answer⟩, row => answer.isOk && row.id = id
  | ⟨.recordOutboundDelivery serverId messageId queuedId _ action _ _, answer⟩, row =>
      answer.isOk && (action = .complete || answer.toOption = some false) &&
        row.isOf queuedId (some (messageId, serverId))
  | ⟨.recordUnmatchedBounce serverId bounceId queuedId _, answer⟩, row =>
      answer.isOk && row.isOf queuedId (some (bounceId, serverId))
  | ⟨.pruneReferences serverId ids, answer⟩, row =>
      answer.isOk && row.serverId = serverId && row.messageId ∈ ids
  | _, _ => false

theorem QueueRow.isOf_some {row : QueueRow} {id messageId : Nat} {serverId : Id} :
    row.isOf id (some (messageId, serverId)) = true ↔
      row.id = id ∧ row.messageId = messageId ∧ row.serverId = serverId := by
  simp [QueueRow.isOf]

theorem removes_cases {entry : Answered Command} {row : QueueRow}
    (gone : removes entry row = true) : Removes entry row := by
  obtain ⟨command, answer⟩ := entry
  cases command
  case complete id =>
    cases answer with
    | error error => cases gone
    | ok done =>
        rw [removes, Bool.and_eq_true, decide_eq_true_eq] at gone
        obtain ⟨-, rfl⟩ := gone
        exact .completed
  case recordOutboundDelivery serverId messageId queuedId result action event payload =>
    cases answer with
    | error error => cases gone
    | ok recorded =>
        rw [removes, Bool.and_eq_true, Bool.and_eq_true, QueueRow.isOf_some] at gone
        obtain ⟨⟨-, way⟩, rfl, rfl, rfl⟩ := gone
        rw [Bool.or_eq_true, decide_eq_true_eq] at way
        rcases way with rfl | stale
        · exact .recorded
        · obtain rfl : recorded = false := by simpa [Except.toOption] using stale
          exact .stale
  case recordUnmatchedBounce serverId bounceId queuedId category =>
    cases answer with
    | error error => cases gone
    | ok recorded =>
        rw [removes, Bool.and_eq_true, QueueRow.isOf_some] at gone
        obtain ⟨-, rfl, rfl, rfl⟩ := gone
        exact .unmatched
  case pruneReferences serverId ids =>
    cases answer with
    | error error => cases gone
    | ok done =>
        rw [removes, Bool.and_eq_true, Bool.and_eq_true, decide_eq_true_eq, decide_eq_true_eq] at gone
        obtain ⟨⟨-, rfl⟩, listed⟩ := gone
        exact .pruned listed
  all_goals cases gone

/-- What has become of the queue. -/
structure Requeued (settings : Settings) (tables after : Tables) (entry : Answered Command) :
    Prop where
  origin : ∀ row ∈ after.queue.rows,
    (∃ old ∈ tables.queue.rows, Requeues settings tables entry old row ∧
      removes entry old = false) ∨ Enqueues tables entry row
  fate : ∀ row ∈ tables.queue.rows, removes entry row = false →
    ∃ new ∈ after.queue.rows, Requeues settings tables entry row new
  next : tables.queue.next ≤ after.queue.next

section Queue

variable {settings : Settings} {choice : Choice} {tables after : Tables} {entry : Answered Command}
  {β : Type} {command : Command β} {answer : β}

theorem Requeued.of_same (same : after.queue = tables.queue)
    (still : ∀ row ∈ tables.queue.rows, moved entry row = false)
    (kept : ∀ row ∈ tables.queue.rows, removes entry row = false) :
    Requeued settings tables after entry := by
  constructor
  · intro row member
    rw [same] at member
    exact .inl ⟨row, member, .unchanged (still row member), kept row member⟩
  · intro row member _
    refine ⟨row, ?_, .unchanged (still row member)⟩
    rw [same]
    exact member
  · rw [same]

/-- Rows are removed, and the others stay. -/
theorem Requeued.of_keep
    (rows : after.queue.rows = tables.queue.rows.filter (fun row => !removes entry row))
    (next : after.queue.next = tables.queue.next)
    (still : ∀ row ∈ tables.queue.rows, removes entry row = false → moved entry row = false) :
    Requeued settings tables after entry := by
  constructor
  · intro row member
    rw [rows] at member
    obtain ⟨there, kept⟩ := List.mem_filter.mp member
    have kept : removes entry row = false := by simpa using kept
    exact .inl ⟨row, there, .unchanged (still row there kept), kept⟩
  · intro row member kept
    refine ⟨row, ?_, .unchanged (still row member kept)⟩
    rw [rows]
    exact List.mem_filter.mpr ⟨member, by simpa using kept⟩
  · rw [next]

/-- Rows are changed, and none is removed. -/
theorem Requeued.of_map {change : QueueRow → QueueRow}
    (changed : after.queue.rows = tables.queue.rows.map change)
    (next : after.queue.next = tables.queue.next)
    (kept : ∀ row ∈ tables.queue.rows, removes entry row = false)
    (allowed : ∀ row ∈ tables.queue.rows, Requeues settings tables entry row (change row)) :
    Requeued settings tables after entry := by
  constructor
  · intro row member
    rw [changed] at member
    obtain ⟨old, there, rfl⟩ := List.mem_map.mp member
    exact .inl ⟨old, there, allowed old there, kept old there⟩
  · intro row member _
    rw [changed]
    exact ⟨_, List.mem_map_of_mem member, allowed row member⟩
  · rw [next]

/-- A row is added. -/
theorem Requeued.of_insert {row : QueueRow} (rows : after.queue.rows = row :: tables.queue.rows)
    (next : after.queue.next = tables.queue.next + 1)
    (still : ∀ row ∈ tables.queue.rows, moved entry row = false)
    (kept : ∀ row ∈ tables.queue.rows, removes entry row = false)
    (enqueues : Enqueues tables entry row) :
    Requeued settings tables after entry := by
  constructor
  · intro other member
    rw [rows] at member
    rcases List.mem_cons.mp member with rfl | old
    · exact .inr enqueues
    · exact .inl ⟨other, old, .unchanged (still other old), kept other old⟩
  · intro other member _
    refine ⟨other, ?_, .unchanged (still other member)⟩
    rw [rows]
    exact List.mem_cons_of_mem _ member
  · omega

theorem dequeue_requeued {worker : Text} {picked : Option Nat} :
    Requeued settings tables (tables.dequeue worker settings.lockWindow picked).2
      ⟨.dequeue worker, .ok (tables.dequeue worker settings.lockWindow picked).1⟩ := by
  unfold Tables.dequeue
  split
  · exact .of_same rfl (fun _ _ => rfl) (fun _ _ => rfl)
  · next row found =>
      obtain ⟨found, ready⟩ := Option.filter_eq_some_iff.mp found
      obtain ⟨id, -, found⟩ := Option.bind_eq_some_iff.mp found
      have there := (Table.find_some found).1
      apply Requeued.of_map
      case changed => rfl
      case next => rfl
      case kept => exact fun _ _ => rfl
      intro other member
      unfold Table.exchanged
      split_ifs with same
      · obtain rfl := Table.unique member there same
        exact .taken ready
      · exact .unchanged (decide_eq_false (fun equal => same equal.symm))

theorem retryMessage_requeued {id attempts : Nat} :
    Requeued settings tables (tables.retryMessage id attempts none) ⟨.retry id attempts, .ok ()⟩ := by
  apply Requeued.of_map
  case changed => rfl
  case next => rfl
  case kept => exact fun _ _ => rfl
  intro row member
  split_ifs with same
  · obtain rfl : row.id = id := by simpa [QueueRow.isOf] using same
    exact .postponed
  · refine .unchanged ?_
    simpa [QueueRow.isOf, moved] using fun _ => same

variable {serverId : Id} {messageId : Nat}

theorem recordOutboundDelivery_requeued {queuedId : Nat} {result : DeliveryResult}
    {action : QueueAction} {event : WebhookEvent} {payload : Payload} {webhooks : List Id} :
    Requeued settings tables (tables.recordOutboundDelivery serverId messageId queuedId result action
        event payload webhooks).2
      ⟨.recordOutboundDelivery serverId messageId queuedId result action event payload,
        .ok (tables.recordOutboundDelivery serverId messageId queuedId result action event payload
          webhooks).1⟩ := by
  unfold Tables.recordOutboundDelivery
  dsimp only
  split_ifs
  · cases action with
    | complete =>
        apply Requeued.of_keep
        case rows => simp [removes, Tables.settle, Tables.completeMessage, Table.keep,
          Tables.updateMessage, Except.toBool]
        case next => rfl
        simp [moved]
    | retry attempts =>
        apply Requeued.of_map
        case changed => rfl
        case next => rfl
        case kept => intro row _; simp [removes, Except.toOption]
        intro row member
        split_ifs with same
        · obtain ⟨rfl, rfl, rfl⟩ := QueueRow.isOf_some.mp same
          exact .delayed
        · refine .unchanged ?_
          simpa [moved] using fun _ => same
  · apply Requeued.of_keep
    case rows => simp [removes, Tables.completeMessage, Table.keep, Except.toBool,
      Except.toOption]
    case next => rfl
    simp [moved, Except.toOption]

theorem recordUnmatchedBounce_requeued {bounceId queuedId : Nat} {category : BounceCategory} :
    Requeued settings tables (tables.recordUnmatchedBounce serverId bounceId queuedId category).2
      ⟨.recordUnmatchedBounce serverId bounceId queuedId category,
        .ok (tables.recordUnmatchedBounce serverId bounceId queuedId category).1⟩ := by
  have removed (recorded : Bool) (row : QueueRow) :
      removes ⟨.recordUnmatchedBounce serverId bounceId queuedId category, .ok recorded⟩ row =
        row.isOf queuedId (some (bounceId, serverId)) := rfl
  unfold Tables.recordUnmatchedBounce
  split_ifs
  all_goals
    apply Requeued.of_keep
    case rows => simp only [removed]; rfl
    case next => rfl
    exact fun _ _ _ => rfl

theorem requeueInbound_requeued {bypass : Bool} :
    Requeued settings tables (tables.requeueInbound serverId messageId bypass).2
      ⟨.requeueInbound serverId messageId bypass,
        .ok (tables.requeueInbound serverId messageId bypass).1⟩ := by
  unfold Tables.requeueInbound
  split
  · exact .of_same rfl (fun _ _ => rfl) (fun _ _ => rfl)
  · next row found =>
      obtain ⟨there, rfl, rfl, incoming⟩ := Tables.filtered_some found
      exact .of_insert rfl rfl (fun _ _ => rfl) (fun _ _ => rfl)
        (.inbound there (of_decide_eq_true incoming))

theorem requeueOutbound_requeued :
    Requeued settings tables (tables.requeueOutbound serverId messageId).2
      ⟨.requeueOutbound serverId messageId, .ok (tables.requeueOutbound serverId messageId).1⟩ := by
  unfold Tables.requeueOutbound
  split
  · exact .of_same rfl (fun _ _ => rfl) (fun _ _ => rfl)
  · next row found =>
      obtain ⟨there, rfl, rfl, outgoing⟩ := Tables.filtered_some found
      split_ifs with retryable purged queued
      · exact .of_same rfl (fun _ _ => rfl) (fun _ _ => rfl)
      · apply Requeued.of_map
        case changed => rfl
        case next => rfl
        case kept => exact fun _ _ => rfl
        intro other member
        split_ifs with waiting
        · simp only [Bool.and_eq_true, decide_eq_true_eq] at waiting
          obtain ⟨⟨id, server⟩, unlocked⟩ := waiting
          rw [← id, ← server]
          exact .hastened unlocked
        · exact .unchanged rfl
      · exact .of_insert rfl rfl (fun _ _ => rfl) (fun _ _ => rfl)
          (.outbound there (of_decide_eq_true outgoing) retryable (by simpa using purged)
            (by simpa using queued))
      · exact .of_same rfl (fun _ _ => rfl) (fun _ _ => rfl)

/-- A transaction that fails moves no row of the queue. -/
theorem Requeued.transacted {β : Type} {command : Command (Except Fault β)} {fault : Option Fault}
    {effect : β × Tables} {answer : Except Fault β}
    (tried : Worker.transacted fault effect tables = (answer, after))
    (still : ∀ error row, moved ⟨command, .error error⟩ row = false)
    (kept : ∀ error row, removes ⟨command, .error error⟩ row = false)
    (done : Requeued settings tables effect.2 ⟨command, .ok effect.1⟩) :
    Requeued settings tables after ⟨command, answer⟩ := by
  obtain ⟨error, rfl, rfl⟩ | ⟨rfl, rfl⟩ := transacted_cases tried
  · exact .of_same rfl (fun row _ => still error row) (fun row _ => kept error row)
  · exact done

/-- What a command that has been answered has made of the queue. -/
theorem respond_queue (responds : respond settings choice command tables = (answer, after)) :
    Requeued settings tables after ⟨command, answer⟩ := by
  cases command
  case dequeue worker =>
    exact .transacted responds (fun _ _ => rfl) (fun _ _ => rfl) dequeue_requeued
  case complete id =>
    refine .transacted responds (fun _ _ => rfl) (fun _ _ => rfl) ?_
    apply Requeued.of_keep
    case rows => simp [removes, Tables.completeMessage, Table.keep, QueueRow.isOf, Except.toBool]
    case next => rfl
    exact fun _ _ _ => rfl
  case retry id attempts =>
    exact .transacted responds (fun _ _ => rfl) (fun _ _ => rfl) retryMessage_requeued
  case recordOutboundDelivery serverId messageId queuedId result action event payload =>
    refine .transacted responds (fun _ _ => by simp [moved, Except.toOption]) (fun _ _ => rfl) ?_
    exact recordOutboundDelivery_requeued
  case recordUnmatchedBounce serverId bounceId queuedId category =>
    exact .transacted responds (fun _ _ => rfl) (fun _ _ => rfl) recordUnmatchedBounce_requeued
  case insertMessage message =>
    refine .transacted responds (fun _ _ => rfl) (fun _ _ => rfl) ?_
    exact .of_insert rfl rfl (fun _ _ => rfl) (fun _ _ => rfl) .inserted
  case requeueInbound serverId messageId bypass =>
    exact .transacted responds (fun _ _ => rfl) (fun _ _ => rfl) requeueInbound_requeued
  case requeueOutbound serverId messageId =>
    exact .transacted responds (fun _ _ => rfl) (fun _ _ => rfl) requeueOutbound_requeued
  case pruneReferences serverId ids =>
    refine .transacted responds (fun _ _ => rfl) (fun _ _ => rfl) ?_
    apply Requeued.of_keep
    case rows => rfl
    case next => rfl
    exact fun _ _ _ => rfl
  case correlateBounce serverId bounceId tokens category =>
    refine .transacted responds (fun _ _ => rfl) (fun _ _ => rfl) ?_
    refine .of_same ?_ (fun _ _ => rfl) (fun _ _ => rfl)
    unfold Tables.correlateBounce
    split
    · rfl
    · split_ifs
      · rfl
      · split <;> rfl
  case recordDelivery serverId messageId result =>
    refine .transacted responds (fun _ _ => rfl) (fun _ _ => rfl) ?_
    refine .of_same ?_ (fun _ _ => rfl) (fun _ _ => rfl)
    unfold Tables.recordDelivery
    dsimp only
    split_ifs <;> rfl
  -- the other commands leave the queue alone
  all_goals first
    | (cases responds; exact .of_same rfl (fun _ _ => rfl) (fun _ _ => rfl))
    | (obtain ⟨error, rfl, rfl⟩ | ⟨rfl, rfl⟩ := transacted_cases responds <;>
        exact .of_same rfl (fun _ _ => rfl) (fun _ _ => rfl))

end Queue

/-! ## Deliveries and requests to webhooks -/

/-- The deliveries that a correlation puts on record: one of the notification and one of its
original. -/
def correlationDeliveries (serverId : Id) (bounceId originalId : Nat) : List Delivery :=
  let processed : DeliveryResult := { status := .processed, details := .bounceFor originalId }
  let bounced : DeliveryResult := { status := .bounced, details := .bouncedBy bounceId }
  [processed.delivery serverId bounceId, bounced.delivery serverId originalId]

/-- The deliveries that an answered command has put on record. -/
def recordedDeliveries : Answered Command → List Delivery
  | ⟨.recordDelivery serverId messageId result, answer⟩ =>
      if answer.toOption = some true then [result.delivery serverId messageId] else []
  | ⟨.recordOutboundDelivery serverId messageId _ result _ _ _, answer⟩ =>
      if answer.toOption = some true then [result.delivery serverId messageId] else []
  | ⟨.recordUnmatchedBounce serverId bounceId _ _, answer⟩ =>
      let result : DeliveryResult := { status := .hardFail, details := .unmatchedBounce }
      if answer.toOption = some true then [result.delivery serverId bounceId] else []
  | ⟨.correlateBounce serverId bounceId _ _, answer⟩ =>
      match answer.toOption with
      | some (.correlated originalId) => correlationDeliveries serverId bounceId originalId
      | _ => []
  | _ => []

/-- The requests to webhooks that an answered command has led to. -/
def notified (webhooks : List Id) : Answered Command → List WebhookRequests
  | ⟨.recordOutboundDelivery serverId _ _ _ _ event payload, answer⟩ =>
      if answer.toOption = some true then [⟨serverId, event, payload, webhooks⟩] else []
  | ⟨.correlateBounce serverId bounceId _ _, answer⟩ =>
      match answer.toOption with
      | some (.correlated originalId) =>
          [⟨serverId, .messageBounced, .bounce originalId bounceId, webhooks⟩]
      | _ => []
  | _ => []

/-- Whether a command deletes deliveries. -/
def prunesDeliveries : Answered Command → Bool
  | ⟨.pruneReferences _ _, _⟩ => true
  | _ => false

/-- What has become of the records of deliveries, of the requests to webhooks and of the time. -/
structure Logged (webhooks : List Id) (tables after : Tables) (entry : Answered Command) :
    Prop where
  deliveries : prunesDeliveries entry = false →
    after.deliveries = tables.deliveries ++ recordedDeliveries entry
  webhookRequests : after.webhookRequests = tables.webhookRequests ++ notified webhooks entry
  now : after.now = tables.now

variable {tables : Tables}

theorem Tables.settle_now {action : QueueAction} {queuedId : Nat} {owner : Nat × Id} :
    (tables.settle action queuedId owner).now = tables.now := by
  cases action <;> rfl

variable {webhooks : List Id}

/-- A command that puts nothing on record. -/
theorem Logged.silent {entry : Answered Command} (none : recordedDeliveries entry = [])
    (silent : notified webhooks entry = []) :
    Logged webhooks tables tables entry := by
  refine ⟨fun _ => ?_, ?_, rfl⟩
  · rw [none, List.append_nil]
  · rw [silent, List.append_nil]

/-- A transaction that fails puts nothing on record. -/
theorem Logged.transacted {after : Tables} {β : Type} {command : Command (Except Fault β)}
    {fault : Option Fault} {effect : β × Tables} {answer : Except Fault β}
    (tried : Worker.transacted fault effect tables = (answer, after))
    (none : ∀ error, recordedDeliveries ⟨command, .error error⟩ = [])
    (silent : ∀ error, notified webhooks ⟨command, .error error⟩ = [])
    (done : Logged webhooks tables effect.2 ⟨command, .ok effect.1⟩) :
    Logged webhooks tables after ⟨command, answer⟩ := by
  obtain ⟨error, rfl, rfl⟩ | ⟨rfl, rfl⟩ := transacted_cases tried
  · exact .silent (none error) (silent error)
  · exact done

variable {settings : Settings}

theorem respond_logged {choice : Choice} {after : Tables} {β : Type} {command : Command β}
    {answer : β} (responds : respond settings choice command tables = (answer, after)) :
    Logged choice.webhooks tables after ⟨command, answer⟩ := by
  cases command
  case recordDelivery serverId messageId result =>
    refine .transacted responds (fun _ => rfl) (fun _ => rfl) ?_
    unfold Tables.recordDelivery
    dsimp only
    split_ifs
    · exact ⟨fun _ => rfl, (List.append_nil _).symm, rfl⟩
    · exact .silent rfl rfl
  case recordOutboundDelivery serverId messageId queuedId result action event payload =>
    refine .transacted responds (fun _ => rfl) (fun _ => rfl) ?_
    unfold Tables.recordOutboundDelivery
    dsimp only
    split_ifs
    · exact ⟨fun _ => rfl, rfl, Tables.settle_now⟩
    · exact ⟨fun _ => (List.append_nil _).symm, (List.append_nil _).symm, rfl⟩
  case recordUnmatchedBounce serverId bounceId queuedId category =>
    refine .transacted responds (fun _ => rfl) (fun _ => rfl) ?_
    unfold Tables.recordUnmatchedBounce
    split_ifs
    · exact ⟨fun _ => rfl, (List.append_nil _).symm, rfl⟩
    · exact ⟨fun _ => (List.append_nil _).symm, (List.append_nil _).symm, rfl⟩
  case correlateBounce serverId bounceId tokens category =>
    refine .transacted responds (fun _ => rfl) (fun _ => rfl) ?_
    unfold Tables.correlateBounce
    split
    · exact .silent rfl rfl
    · split_ifs
      · exact ⟨fun _ => (List.append_nil _).symm, (List.append_nil _).symm, rfl⟩
      · split
        · exact ⟨fun _ => (List.append_nil _).symm, (List.append_nil _).symm, rfl⟩
        · exact ⟨fun _ => rfl, rfl, rfl⟩
  case dequeue worker =>
    refine .transacted responds (fun _ => rfl) (fun _ => rfl) ?_
    unfold Tables.dequeue
    split
    · exact .silent rfl rfl
    · exact ⟨fun _ => (List.append_nil _).symm, (List.append_nil _).symm, rfl⟩
  case requeueInbound serverId messageId bypass =>
    refine .transacted responds (fun _ => rfl) (fun _ => rfl) ?_
    unfold Tables.requeueInbound
    split
    · exact .silent rfl rfl
    · exact ⟨fun _ => (List.append_nil _).symm, (List.append_nil _).symm, rfl⟩
  case requeueOutbound serverId messageId =>
    refine .transacted responds (fun _ => rfl) (fun _ => rfl) ?_
    unfold Tables.requeueOutbound
    split
    · exact .silent rfl rfl
    · split_ifs
      all_goals exact ⟨fun _ => (List.append_nil _).symm, (List.append_nil _).symm, rfl⟩
  case pruneReferences serverId ids =>
    refine .transacted responds (fun _ => rfl) (fun _ => rfl) ?_
    exact ⟨fun kept => (by cases kept), (List.append_nil _).symm, rfl⟩
  -- the other commands log nothing
  all_goals first
    | (cases responds; exact .silent rfl rfl)
    | exact .transacted responds (fun _ => rfl) (fun _ => rfl)
        ⟨fun _ => (List.append_nil _).symm, (List.append_nil _).symm, rfl⟩

/-! ## Steps -/

/-- A property of a message that no command takes away stays along every step. -/
theorem Fixed.step {functions : Functions} {P : StoredMessage → Prop} {id : Nat}
    (stays : ∀ {tables entry row new}, Rewrites tables entry row new → P row → P new)
    {before after : Delivering} {action : Action Work Choice Elapsed} {output : Unit}
    (reaction : (delivery functions settings).step before action = some (output, after))
    (fixed : Fixed P id before.tables) : Fixed P id after.tables := by
  obtain ⟨call, rfl, rfl⟩ | ⟨index, choice, request, β, command, next, answer, tables, rfl, found,
    sends, executed, rfl⟩ | ⟨elapsed, tables, rfl, disturbed, rfl⟩ :=
      (delivery functions settings).step_cases reaction
  · exact fixed
  · exact fixed.respond (fun rewrites _ => stays rewrites) (Option.some.inj executed)
  · cases disturbed
    exact ⟨fixed.below, fixed.holds⟩

/-! ## Conditions on `requeue_inbound` -/

/-- The server and the message of `requeue_inbound`. -/
def inboundTarget {β : Type} : Command β → Option (Id × Nat)
  | .requeueInbound serverId messageId _ => some (serverId, messageId)
  | _ => none

/-- `requeue_inbound` is executed for messages that meet a condition only. -/
def RequeuesOnly {Call : Type} (Meets : Tables → StoredMessage → Prop)
    (due : Due Tables Call Choice Command Fault Reply) : Prop :=
  ∀ target ∈ inboundTarget due.command, ∀ row ∈ due.state.tables.messages.rows,
    row.serverId = target.1 → row.id = target.2 → Meets due.state.tables row

instance {Call : Type} {Meets : Tables → StoredMessage → Prop}
    [∀ tables row, Decidable (Meets tables row)] :
    DecidablePred (RequeuesOnly Meets : Due Tables Call Choice Command Fault Reply → Prop) :=
  fun due => inferInstanceAs (Decidable (∀ target ∈ inboundTarget due.command,
    ∀ row ∈ due.state.tables.messages.rows, _))

end Camelmailer.Worker
