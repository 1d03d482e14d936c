import Camelmailer.Worker.Leases

/-!
# Messages that have bounced

A notification that is correlated with an outgoing message makes it bounced. A worker may be about
to send that very message, a client may retry it, and other notifications may arrive for it; each of
them comes to the message in a transaction of its own, and none of them takes the status away.
-/

namespace Camelmailer.Worker.Bounces

open Utf8 Db Requests

/-! ## What is written about a message that has bounced -/

/-- The notification that a correlation has linked. -/
def correlates : Answered Command → Option Nat
  | ⟨.correlateBounce _ bounceId _ _, answer⟩ =>
      match answer.toOption with
      | some (.correlated _) => some bounceId
      | _ => none
  | _ => none

/-- The delivery that a notification puts on record for its original. -/
def bouncedDelivery (row : StoredMessage) (bounceId : Nat) : Delivery :=
  ⟨row.serverId, row.id, .bounced, .bouncedBy bounceId, [], false⟩

/-- The message that a request to a webhook is about. -/
def about : Payload → Nat
  | .message messageId _ => messageId
  | .bounce originalId _ => originalId

section Written

variable {settings : Settings} {choice : Choice} {tables after : Tables} {β : Type}
  {command : Command β} {answer : β} {history : List (Answered Command)} {row : StoredMessage}

theorem eq_ok {answer : Except Fault Bool} (recorded : answer.toOption = some true) :
    answer = .ok true := by
  cases answer with
  | error error => cases recorded
  | ok value => rw [show value = true from Option.some.inj recorded]

variable {serverId : Id} {messageId : Nat}

/-- A condition that some message of a server meets. -/
theorem hasMessage_iff {condition : StoredMessage → Bool} :
    tables.hasMessage serverId messageId condition = true ↔
      ∃ row ∈ tables.messages.rows, row.id = messageId ∧ row.serverId = serverId ∧
        condition row = true := by
  simp [Tables.hasMessage, and_assoc]

variable {result : DeliveryResult}

theorem recordDelivery_alive
    (responds : respond settings choice (.recordDelivery serverId messageId result) tables =
      (.ok true, after)) :
    ∃ row ∈ tables.messages.rows, row.id = messageId ∧ row.status ≠ .bounced := by
  obtain ⟨error, failed, -⟩ | ⟨recorded, -⟩ := transacted_cases responds
  · cases failed
  · unfold Tables.recordDelivery at recorded
    dsimp only at recorded
    split_ifs at recorded with alive
    · obtain ⟨row, member, id, -, status⟩ := hasMessage_iff.mp alive
      exact ⟨row, member, id, of_decide_eq_true status⟩
    · cases recorded

theorem recordOutboundDelivery_alive {queuedId : Nat} {action : QueueAction} {event : WebhookEvent}
    {payload : Payload}
    (responds : respond settings choice (.recordOutboundDelivery serverId messageId queuedId result
      action event payload) tables = (.ok true, after)) :
    ∃ row ∈ tables.messages.rows, row.id = messageId ∧ row.status ≠ .bounced := by
  obtain ⟨error, failed, -⟩ | ⟨recorded, -⟩ := transacted_cases responds
  · cases failed
  · unfold Tables.recordOutboundDelivery at recorded
    dsimp only at recorded
    split_ifs at recorded with alive
    · obtain ⟨row, member, id, -, meets⟩ := hasMessage_iff.mp alive
      rw [Bool.and_eq_true, decide_eq_true_eq, decide_eq_true_eq] at meets
      exact ⟨row, member, id, meets.2⟩
    · cases recorded

variable {category : BounceCategory}

theorem recordUnmatchedBounce_incoming {bounceId queuedId : Nat}
    (responds : respond settings choice (.recordUnmatchedBounce serverId bounceId queuedId category)
      tables = (.ok true, after)) :
    ∃ row ∈ tables.messages.rows, row.id = bounceId ∧ row.scope = .incoming := by
  obtain ⟨error, failed, -⟩ | ⟨recorded, -⟩ := transacted_cases responds
  · cases failed
  · unfold Tables.recordUnmatchedBounce at recorded
    split_ifs at recorded with found
    · obtain ⟨row, member, id, -, meets⟩ := hasMessage_iff.mp found
      rw [StoredMessage.isBounceMessage, Bool.and_eq_true, decide_eq_true_eq] at meets
      exact ⟨row, member, id, meets.1⟩
    · cases recorded

/-- A correlation has found a notification without an original, and its original. -/
theorem correlateBounce_correlated {bounceId originalId : Nat} {tokens : List Text}
    (responds : respond settings choice (.correlateBounce serverId bounceId tokens category) tables =
      (.ok (.correlated originalId), after)) :
    ∃ bounce ∈ tables.messages.rows, bounce.id = bounceId ∧ bounce.serverId = serverId ∧
      bounce.isBounceMessage = true ∧ bounce.bounceCorrelatedAt = none ∧
      ∃ original ∈ tables.messages.rows, original.id = originalId ∧ original.serverId = serverId ∧
        after = tables.link serverId bounceId category original choice.webhooks := by
  obtain ⟨error, failed, -⟩ | ⟨given, rfl⟩ := transacted_cases responds
  · cases failed
  · unfold Tables.correlateBounce at given ⊢
    split at given
    · cases given
    · next bounce found =>
        obtain ⟨there, rfl, rfl, is⟩ := Tables.filtered_some found
        split_ifs at given ⊢ with correlated
        · cases given
        · split at given
          · cases given
          · next original chosen =>
              cases given
              obtain ⟨present, -, same⟩ := Tables.original_some chosen
              exact ⟨bounce, there, rfl, rfl, is, by simpa using correlated, original, present, rfl,
                same, rfl⟩

/-- Of a message that has bounced, at most one delivery is put on record, by a notification that has
not been correlated before. -/
theorem bounced_deliveries (there : row ∈ tables.messages.rows) (bounced : IsBounced row)
    (responds : respond settings choice command tables = (answer, after)) :
    (recordedDeliveries ⟨command, answer⟩).filter (fun delivery => delivery.messageId = row.id) = [] ∨
    ∃ bounce ∈ tables.messages.rows, bounce.bounceCorrelatedAt = none ∧
      correlates ⟨command, answer⟩ = some bounce.id ∧
      (recordedDeliveries ⟨command, answer⟩).filter (fun delivery => delivery.messageId = row.id) =
        [bouncedDelivery row bounce.id] := by
  have different {id : Nat} {other : StoredMessage} (member : other ∈ tables.messages.rows)
      (same : other.id = id) (is : other.status ≠ .bounced ∨ other.scope = .incoming) :
      id ≠ row.id := by
    rintro rfl
    rw [Table.unique member there same] at is
    rcases is with alive | incoming
    · exact alive bounced.2
    · rw [bounced.1] at incoming
      cases incoming
  cases command
  case recordDelivery serverId messageId result =>
    left
    simp only [recordedDeliveries]
    split_ifs with recorded
    · obtain rfl := eq_ok recorded
      obtain ⟨other, member, same, alive⟩ := recordDelivery_alive responds
      simp [DeliveryResult.delivery, different member same (.inl alive)]
    · rfl
  case recordOutboundDelivery serverId messageId queuedId result action event payload =>
    left
    simp only [recordedDeliveries]
    split_ifs with recorded
    · obtain rfl := eq_ok recorded
      obtain ⟨other, member, same, alive⟩ := recordOutboundDelivery_alive responds
      simp [DeliveryResult.delivery, different member same (.inl alive)]
    · rfl
  case recordUnmatchedBounce serverId bounceId queuedId category =>
    left
    simp only [recordedDeliveries]
    split_ifs with recorded
    · obtain rfl := eq_ok recorded
      obtain ⟨other, member, same, incoming⟩ := recordUnmatchedBounce_incoming responds
      simp [DeliveryResult.delivery, different member same (.inr incoming)]
    · rfl
  case correlateBounce serverId bounceId tokens category =>
    cases answer with
    | error error => exact .inl rfl
    | ok correlation =>
        cases correlation with
        | notMatched => exact .inl rfl
        | alreadyCorrelated => exact .inl rfl
        | correlated originalId =>
            obtain ⟨bounce, member, rfl, -, is, uncorrelated, original, present, rfl, rfl, -⟩ :=
              correlateBounce_correlated responds
            rw [StoredMessage.isBounceMessage, Bool.and_eq_true, decide_eq_true_eq] at is
            have apart := different member rfl (.inr is.1)
            by_cases own : original.id = row.id
            · obtain rfl := Table.unique present there own
              refine .inr ⟨bounce, member, uncorrelated, rfl, ?_⟩
              simp [recordedDeliveries, Except.toOption, correlationDeliveries,
                DeliveryResult.delivery, apart, bouncedDelivery]
            · simp [recordedDeliveries, Except.toOption, correlationDeliveries,
                DeliveryResult.delivery, apart, own]
  all_goals exact .inl rfl

/-- Of a message that has bounced, webhooks hear of its notifications only. -/
theorem bounced_notified (there : row ∈ tables.messages.rows) (bounced : IsBounced row)
    (bound : Bound settings history β command)
    (responds : respond settings choice command tables = (answer, after)) (webhooks : List Id)
    {request : WebhookRequests} (new : request ∈ notified webhooks ⟨command, answer⟩)
    (own : about request.payload = row.id) : request.event = .messageBounced := by
  cases command
  case recordOutboundDelivery serverId messageId queuedId result action event payload =>
    simp only [notified] at new
    split_ifs at new with recorded
    · cases List.mem_singleton.mp new
      obtain rfl := eq_ok recorded
      obtain ⟨-, ⟨response, rfl⟩, -⟩ := bound
      obtain ⟨other, member, same, alive⟩ := recordOutboundDelivery_alive responds
      rw [Table.unique member there (same.trans own)] at alive
      exact absurd bounced.2 alive
    · cases new
  case correlateBounce serverId bounceId tokens category =>
    simp only [notified] at new
    split at new
    · cases List.mem_singleton.mp new
      rfl
    · cases new
  all_goals cases new

/-- A message that has been put back into the queue had failed or not been sent. -/
theorem requeueOutbound_alive
    (responds : respond settings choice (.requeueOutbound serverId messageId) tables =
      (.ok .requeued, after)) :
    ∃ row ∈ tables.messages.rows, row.id = messageId ∧ row.status ≠ .bounced := by
  obtain ⟨error, failed, -⟩ | ⟨given, rfl⟩ := transacted_cases responds
  · cases failed
  · unfold Tables.requeueOutbound at given
    split at given
    · cases given
    · next row found =>
        obtain ⟨there, rfl, rfl, -⟩ := Tables.filtered_some found
        split_ifs at given with retryable purged
        all_goals first
          | cases given; done
          | (refine ⟨row, there, rfl, ?_⟩
             intro bounced
             simp [bounced, retryableOutboundStatuses] at retryable)

variable {queued : QueueRow}

/-- A worker that holds a row of the message. -/
theorem own_scope (acquainted : Acquainted tables history) (there : row ∈ tables.messages.rows)
    (taken : takenBy history = some queued) (own : queued.messageId = row.id)
    {message : StoredMessage} (loaded : loadedBy history = some message) :
    message.scope = row.scope ∧ message.id = row.id ∧ message.serverId = queued.serverId := by
  obtain ⟨again, takenToo, id, server⟩ := acquainted.own message loaded
  obtain rfl := Option.some.inj (taken.symm.trans takenToo)
  have same := (acquainted.message message loaded).holds row there (own.symm.trans id)
  exact ⟨same.1.symm, id.symm.trans own, server.symm⟩

section

variable (there : row ∈ tables.messages.rows) (bounced : IsBounced row)
  (acquainted : Acquainted tables history) (bound : Bound settings history β command)
  (responds : respond settings choice command tables = (answer, after))
include there bounced acquainted bound responds

/-- A row of the queue of a message that has bounced is neither new nor put off. -/
theorem bounced_queue {new : QueueRow}
    (member : new ∈ after.queue.rows) (own : new.messageId = row.id) :
    ∃ old ∈ tables.queue.rows, old.id = new.id ∧ old.attempts = new.attempts ∧
      old.retryAfter = new.retryAfter := by
  have alive {other : StoredMessage} (member : other ∈ tables.messages.rows)
      (same : other.id = row.id) (status : other.status ≠ .bounced) : False := by
    rw [Table.unique member there same] at status
    exact status bounced.2
  rcases (respond_queue responds).origin new member with ⟨old, before, requeues, -⟩ | enqueues
  · cases requeues with
    | unchanged still => exact ⟨new, before, rfl, rfl, rfl⟩
    | taken ready => exact ⟨old, before, rfl, rfl, rfl⟩
    | postponed =>
        obtain ⟨queued, holds, same, -, -, message, loaded, incoming⟩ := bound
        have ofRow := ((acquainted.row queued holds.taken).holds old before same.symm).1
        have scope := (own_scope acquainted there holds.taken (ofRow.symm.trans own) loaded).1
        rw [incoming, bounced.1] at scope
        cases scope
    | delayed =>
        obtain ⟨other, member, same, status⟩ := recordOutboundDelivery_alive responds
        exact (alive member (same.trans own) status).elim
    | hastened unlocked =>
        obtain ⟨other, member, same, status⟩ := requeueOutbound_alive responds
        exact (alive member (same.trans own) status).elim
  · cases enqueues with
    | inserted => exact absurd own (Nat.ne_of_gt (tables.messages.below row there))
    | inbound present incoming =>
        rw [Table.unique present there own, bounced.1] at incoming
        cases incoming
    | outbound present outgoing retryable stored absent =>
        rw [Table.unique present there own, bounced.2] at retryable
        simp [retryableOutboundStatuses] at retryable

/-- A worker that settles a row of a message that has bounced removes it. -/
theorem bounced_settled (taken : takenBy history = some queued) (own : queued.messageId = row.id)
    (settled : settles ⟨command, answer⟩ = true) {new : QueueRow} (member : new ∈ after.queue.rows) :
    new.id ≠ queued.id := by
  intro same
  obtain ⟨old, before, requeues, kept⟩ : ∃ old ∈ tables.queue.rows,
      Requeues settings tables ⟨command, answer⟩ old new ∧ removes ⟨command, answer⟩ old = false := by
    rcases (respond_queue responds).origin new member with origin | enqueues
    · exact origin
    · have below := (acquainted.row queued taken).below
      rw [← same, enqueues.fresh] at below
      exact absurd below (Nat.lt_irrefl _)
  have id : old.id = queued.id := requeues.same.1.symm.trans same
  obtain ⟨ofMessage, ofServer⟩ := (acquainted.row queued taken).holds old before id
  have outgoing {message : StoredMessage} (loaded : loadedBy history = some message) :
      message.scope = .outgoing := by
    rw [(own_scope acquainted there taken own loaded).1, bounced.1]
  cases command
  case complete completed =>
    obtain ⟨holder, holds, rfl, -⟩ := bound
    obtain rfl := Option.some.inj (taken.symm.trans holds.taken)
    cases answer with
    | error error => cases settled
    | ok done =>
        rw [removes, decide_eq_true id] at kept
        cases kept
  case retry retried attempts =>
    obtain ⟨-, -, -, -, -, message, loaded, incoming⟩ := bound
    rw [outgoing loaded] at incoming
    cases incoming
  case recordOutboundDelivery serverId messageId queuedId result action event payload =>
    obtain ⟨⟨message, loaded, -, rfl, rfl⟩, -, holder, holds, rfl, -⟩ := bound
    obtain rfl := Option.some.inj (taken.symm.trans holds.taken)
    obtain ⟨-, sameId, sameServer⟩ := own_scope acquainted there taken own loaded
    cases answer with
    | error error => cases settled
    | ok recorded =>
        cases recorded with
        | true =>
            obtain ⟨other, present, here, alive⟩ := recordOutboundDelivery_alive responds
            rw [Table.unique present there (here.trans sameId)] at alive
            exact alive bounced.2
        | false =>
            have isOf : old.isOf queued.id (some (message.id, message.serverId)) = true :=
              QueueRow.isOf_some.mpr ⟨id, ofMessage.trans (own.trans sameId.symm),
                ofServer.trans sameServer.symm⟩
            rw [removes, isOf] at kept
            simp [Except.toOption, Except.toBool] at kept
  case recordUnmatchedBounce serverId bounceId queuedId category =>
    obtain ⟨⟨message, loaded, incoming, -⟩, -⟩ := bound
    rw [outgoing loaded] at incoming
    cases incoming
  all_goals cases settled

end

end Written

/-! ## What a notification contributes -/

/-- A delivery that says of a notification which message it is about. -/
def processedFor (bounceId : Nat) (delivery : Delivery) : Bool :=
  delivery.messageId = bounceId && match delivery.details with
    | .bounceFor _ => true
    | _ => false

/-- A delivery that says of a message which notification it has come back with. -/
def bouncedBy (bounceId : Nat) (delivery : Delivery) : Bool := delivery.details = .bouncedBy bounceId

/-- The requests to webhooks that a notification has led to. -/
def announces (bounceId : Nat) (request : WebhookRequests) : Bool :=
  match request.payload with
  | .bounce _ id => id = bounceId
  | .message _ _ => false

/-- Notifications that have been correlated stay so. -/
def IsCorrelated (row : StoredMessage) : Prop := row.bounceCorrelatedAt.isSome = true

variable {entry : Answered Command}

theorem correlated_stays {tables : Tables} {row new : StoredMessage}
    (rewrites : Rewrites tables entry row new) (correlated : IsCorrelated row) :
    IsCorrelated new := by
  cases rewrites <;> first | exact correlated | rfl

/-- A notification contributes at most once, and not before it is correlated. -/
structure Contributed (bounceId : Nat) (tables : Tables) : Prop where
  processed : tables.deliveries.countP (processedFor bounceId) ≤ 1
  bounced : tables.deliveries.countP (bouncedBy bounceId) ≤ 1
  announced : tables.webhookRequests.countP (announces bounceId) ≤ 1
  correlated : (tables.deliveries.countP (processedFor bounceId) = 0 ∧
      tables.deliveries.countP (bouncedBy bounceId) = 0 ∧
      tables.webhookRequests.countP (announces bounceId) = 0) ∨ Fixed IsCorrelated bounceId tables

section Contributions

variable {settings : Settings} {choice : Choice} {tables after : Tables} {β : Type}
  {command : Command β} {answer : β} {history : List (Answered Command)}

/-- What an answered command contributes for a notification. -/
def contribution (entry : Answered Command) (bounceId : Nat) : Nat :=
  if correlates entry = some bounceId then 1 else 0

variable {bounceId : Nat}

theorem plain_delivery {serverId : Id} {messageId : Nat} {result : DeliveryResult}
    (details : (∀ id, result.details ≠ .bounceFor id) ∧ ∀ id, result.details ≠ .bouncedBy id) :
    processedFor bounceId (result.delivery serverId messageId) = false ∧
      bouncedBy bounceId (result.delivery serverId messageId) = false := by
  constructor
  · rw [processedFor, Bool.and_eq_false_iff]
    right
    split
    · next id is => exact absurd is (details.1 id)
    · rfl
  · exact decide_eq_false (details.2 bounceId)

theorem contributions (bound : Bound settings history β command) (answer : β) (webhooks : List Id)
    (bounceId : Nat) :
    (recordedDeliveries ⟨command, answer⟩).countP (processedFor bounceId) =
        contribution ⟨command, answer⟩ bounceId ∧
      (recordedDeliveries ⟨command, answer⟩).countP (bouncedBy bounceId) =
        contribution ⟨command, answer⟩ bounceId ∧
      (notified webhooks ⟨command, answer⟩).countP (announces bounceId) =
        contribution ⟨command, answer⟩ bounceId := by
  cases command
  case recordDelivery serverId messageId result =>
    obtain ⟨-, notes, -⟩ := bound
    obtain ⟨one, two⟩ : _ ∧ _ := plain_delivery notes.details
    simp only [recordedDeliveries]
    split_ifs
    · simpa [contribution, correlates, notified] using ⟨one, two⟩
    · exact ⟨rfl, rfl, rfl⟩
  case recordOutboundDelivery serverId messageId queuedId result action event payload =>
    obtain ⟨-, ⟨response, rfl⟩, queued, -, -, concludes⟩ := bound
    have details := concludes.details
    have plain : (∀ id, result.details ≠ .bounceFor id) ∧ ∀ id, result.details ≠ .bouncedBy id := by
      constructor <;> intro id is <;> simp [is] at details
    obtain ⟨one, two⟩ : _ ∧ _ := plain_delivery plain
    simp only [recordedDeliveries, notified]
    split_ifs
    · simpa [contribution, correlates, announces] using ⟨one, two⟩
    · exact ⟨rfl, rfl, rfl⟩
  case recordUnmatchedBounce serverId unmatched queuedId category =>
    simp only [recordedDeliveries]
    split_ifs
    · simp [contribution, correlates, notified, processedFor, bouncedBy, DeliveryResult.delivery]
    · exact ⟨rfl, rfl, rfl⟩
  case correlateBounce serverId correlated tokens category =>
    cases answer with
    | error error => exact ⟨rfl, rfl, rfl⟩
    | ok correlation =>
        cases correlation with
        | notMatched => exact ⟨rfl, rfl, rfl⟩
        | alreadyCorrelated => exact ⟨rfl, rfl, rfl⟩
        | correlated originalId =>
            by_cases same : correlated = bounceId
            · simp [recordedDeliveries, notified, contribution, correlates, Except.toOption,
                correlationDeliveries, DeliveryResult.delivery, processedFor, bouncedBy, announces,
                same]
            · simp [recordedDeliveries, notified, contribution, correlates, Except.toOption,
                correlationDeliveries, DeliveryResult.delivery, processedFor, bouncedBy, announces,
                same]
  all_goals exact ⟨rfl, rfl, rfl⟩

theorem correlates_some {entry : Answered Command} (correlated : correlates entry = some bounceId) :
    ∃ serverId tokens category originalId,
      entry = ⟨.correlateBounce serverId bounceId tokens category, .ok (.correlated originalId)⟩ := by
  obtain ⟨command, answer⟩ := entry
  cases command
  case correlateBounce serverId id tokens category =>
    cases answer with
    | error error => cases correlated
    | ok correlation =>
        cases correlation with
        | notMatched => cases correlated
        | alreadyCorrelated => cases correlated
        | correlated originalId =>
            obtain rfl : id = bounceId := Option.some.inj correlated
            exact ⟨serverId, tokens, category, originalId, rfl⟩
  all_goals cases correlated

/-- A notification that has been linked is correlated. -/
theorem link_correlated {category : BounceCategory} {bounce original row : StoredMessage}
    {webhooks : List Id} (there : bounce ∈ tables.messages.rows) (is : bounce.isBounceMessage = true)
    (member : row ∈ (tables.link bounce.serverId bounce.id category original webhooks).messages.rows)
    (same : row.id = bounce.id) : IsCorrelated row := by
  obtain ⟨linked, inside, rfl⟩ := List.mem_map.mp member
  obtain ⟨old, before, rfl⟩ := List.mem_map.mp inside
  have id : old.id = bounce.id := by
    split_ifs at same <;> exact same
  obtain rfl := Table.unique before there id
  have changed : (decide (old.id = old.id) && decide (old.serverId = old.serverId) &&
      old.isBounceMessage) = true := by simpa using is
  split_ifs <;> rfl

/-- A correlation is of a notification that has not been correlated before, and then is. -/
theorem newly_correlated (correlated : correlates ⟨command, answer⟩ = some bounceId)
    (responds : respond settings choice command tables = (answer, after)) :
    (∃ bounce ∈ tables.messages.rows, bounce.id = bounceId ∧ bounce.bounceCorrelatedAt = none) ∧
      Fixed IsCorrelated bounceId after := by
  obtain ⟨serverId, tokens, category, originalId, entry⟩ := correlates_some correlated
  cases entry
  obtain ⟨bounce, member, rfl, rfl, is, uncorrelated, original, present, rfl, server, rfl⟩ :=
    correlateBounce_correlated responds
  refine ⟨⟨bounce, member, rfl, uncorrelated⟩, tables.messages.below bounce member, ?_⟩
  intro row there same
  exact link_correlated member is there same

theorem Contributed.respond (contributed : Contributed bounceId tables)
    (bound : Bound settings history β command)
    (responds : Worker.respond settings choice command tables = (answer, after)) :
    Contributed bounceId after := by
  have logged := respond_logged responds
  obtain ⟨processed, bounced, announced⟩ : _ ∧ _ ∧ _ :=
    contributions bound answer choice.webhooks bounceId
  have deliveries := logged.deliveries (bound_prunes bound)
  have processed : after.deliveries.countP (processedFor bounceId) =
      tables.deliveries.countP (processedFor bounceId) + contribution ⟨command, answer⟩ bounceId := by
    rw [deliveries, List.countP_append, processed]
  have bounced : after.deliveries.countP (bouncedBy bounceId) =
      tables.deliveries.countP (bouncedBy bounceId) + contribution ⟨command, answer⟩ bounceId := by
    rw [deliveries, List.countP_append, bounced]
  have announced : after.webhookRequests.countP (announces bounceId) =
      tables.webhookRequests.countP (announces bounceId) +
        contribution ⟨command, answer⟩ bounceId := by
    rw [logged.webhookRequests, List.countP_append, announced]
  by_cases own : correlates ⟨command, answer⟩ = some bounceId
  · obtain ⟨⟨bounce, member, same, uncorrelated⟩, fixed⟩ := newly_correlated own responds
    rcases contributed.correlated with ⟨noneProcessed, noneBounced, noneAnnounced⟩ | before
    · rw [noneProcessed, contribution, if_pos own] at processed
      rw [noneBounced, contribution, if_pos own] at bounced
      rw [noneAnnounced, contribution, if_pos own] at announced
      exact ⟨processed.le, bounced.le, announced.le, .inr fixed⟩
    · have correlated := before.holds bounce member same
      simp [IsCorrelated, uncorrelated] at correlated
  · rw [contribution, if_neg own] at processed bounced announced
    refine ⟨processed ▸ contributed.processed, bounced ▸ contributed.bounced,
      announced ▸ contributed.announced, ?_⟩
    rw [processed, bounced, announced]
    exact contributed.correlated.imp_right (fun before =>
      Fixed.respond (fun rewrites _ => correlated_stays rewrites) before responds)

end Contributions

/-! ## The invariant -/

/-- Messages that have bounced are not held, and notifications have contributed at most once. -/
structure Sound (tables : Tables) : Prop where
  released : ∀ row ∈ tables.messages.rows, IsBounced row → row.held = false
  contributed : ∀ bounceId, Contributed bounceId tables

theorem concluded_released {now : DateTime} {result : DeliveryResult} {row : StoredMessage}
    (bounced : (row.concluded now result).status = .bounced) :
    (row.concluded now result).held = false := by
  have status : result.status = .bounced := bounced
  simp [StoredMessage.concluded, status]

theorem released_stays {tables : Tables} {row new : StoredMessage}
    (rewrites : Rewrites tables entry row new) (released : IsBounced row → row.held = false)
    (bounced : IsBounced new) : new.held = false := by
  cases rewrites with
  | unchanged | classified is | judged | purged | unlinked => exact released bounced
  | delivered alive => exact concluded_released bounced.2
  | sent outgoing alive => exact concluded_released bounced.2
  | requeuedInbound incoming => cases bounced.2
  | _ => rfl

theorem sound_kept (functions : Functions) (settings : Settings) :
    Kept (delivery functions settings) (fun _ => Bound settings) (fun _ => True)
      (fun state => Sound state.tables) where
  start _ _ sound := sound
  answer state index choice request β command next answer tables sound found bound executed _ := by
    have responds := Option.some.inj executed
    refine ⟨?_, fun bounceId => (sound.contributed bounceId).respond bound responds⟩
    intro row member bounced
    rcases (respond_messages responds).origin row member with ⟨old, there, rewrites⟩ | stored
    · exact released_stays rewrites (sound.released old there) bounced
    · cases stored
      cases bounced.2
  disturb state elapsed tables sound disturbed := by
    cases disturbed
    refine ⟨sound.released, fun bounceId => ?_⟩
    obtain ⟨processed, bounced, announced, correlated⟩ := sound.contributed bounceId
    exact ⟨processed, bounced, announced, correlated.imp_right (fun fixed =>
      ⟨fixed.below, fixed.holds⟩)⟩

/-! ## Workers that find a message bounced -/

/-- The row that a command completes. -/
def completes {β : Type} : Command β → Option Nat
  | .complete id => some id
  | _ => none

/-- A worker that has loaded a message that has bounced only completes its row. -/
def Resigns (history : List (Answered Command)) (β : Type) (command : Command β) : Prop :=
  ∀ message, loadedBy history = some message → IsBounced message →
    ∃ queued, takenBy history = some queued ∧ completes command = some queued.id

theorem loadedBy_longer {history later : List (Answered Command)} {message : StoredMessage}
    (longer : history <+: later) (loaded : loadedBy history = some message) :
    loadedBy later = some message := by
  obtain ⟨rest, rfl⟩ := longer
  rw [loadedBy, List.findSome?_append]
  exact Option.or_of_isSome (Option.isSome_of_eq_some loaded) ▸ loaded

section Resigns

variable {functions : Functions} {settings : Settings} {history : List (Answered Command)}

theorem processLoaded_resigns {queued : QueueRow} {loaded : StoredMessage × Text}
    (busy : Busy history queued loaded.1) :
    Program.Safe Resigns Any (processLoaded functions settings queued loaded) history := by
  by_cases bounced : IsBounced loaded.1
  · unfold processLoaded
    rw [bounced.1]
    rw [processOutgoing, if_pos bounced.2]
    refine ⟨fun _ _ _ => ⟨queued, busy.taken, rfl⟩, fun answer => ?_⟩
    cases answer <;> trivial
  · apply Program.Safe.of_prefix
    · intro later β command longer message again is
      rw [loadedBy_longer longer busy.loaded] at again
      obtain rfl := Option.some.inj again
      exact absurd is bounced
    · exact fun _ _ _ => trivial

theorem work_resigns (call : Work) :
    Program.Safe Resigns Any (work functions settings call) [] := by
  apply safe_of_loaded
  · intro rest β command unloaded message loaded
    rw [unloaded] at loaded
    cases loaded
  · exact fun _ _ _ busy _ => processLoaded_resigns busy

end Resigns

/-! ## Runs -/

/-- A notification is correlated by an event. -/
def NewlyCorrelated (event : DeliveryEvent) (bounceId : Nat) : Prop :=
  (∃ bounce ∈ event.before.tables.messages.rows, bounce.id = bounceId ∧
      bounce.bounceCorrelatedAt = none) ∧
    ∃ bounce ∈ event.after.tables.messages.rows, bounce.id = bounceId ∧ IsCorrelated bounce

/-- What an event can do with a message that has bounced: nothing but to record a notification that
is correlated now, and to remove its rows from the queue. -/
structure Absorbed (row : StoredMessage) (event : DeliveryEvent) : Prop where
  status : ∃ new ∈ event.after.tables.messages.rows, new.id = row.id ∧ new.scope = .outgoing ∧
    new.status = .bounced ∧ new.held = false
  deliveries : ∃ added, event.after.tables.deliveries = event.before.tables.deliveries ++ added ∧
    (added.filter (fun delivery => delivery.messageId = row.id) = [] ∨
      ∃ bounceId, NewlyCorrelated event bounceId ∧
        added.filter (fun delivery => delivery.messageId = row.id) = [bouncedDelivery row bounceId])
  webhooks : ∃ added, event.after.tables.webhookRequests =
      event.before.tables.webhookRequests ++ added ∧
    ∀ request ∈ added, about request.payload = row.id → request.event = .messageBounced
  retries : ∀ new ∈ event.after.tables.queue.rows, new.messageId = row.id →
    ∃ old ∈ event.before.tables.queue.rows, old.id = new.id ∧ old.attempts = new.attempts ∧
      old.retryAfter = new.retryAfter
  removed : ∀ (index : Nat) request later queued, event.before.requests[index]? = some request →
    event.after.requests[index]? = some later → Holds request.history queued →
    queued.messageId = row.id → settledBy later.history = true →
    ∀ new ∈ event.after.tables.queue.rows, new.id ≠ queued.id

section Absorbed

variable {functions : Functions} {settings : Settings} {row : StoredMessage}
  {action : Action Work Choice Elapsed}

/-- Nothing is done to the tables but that time goes by. -/
theorem Absorbed.of_same {before after : Delivering} {output : Unit}
    (messages : after.tables.messages = before.tables.messages)
    (queue : after.tables.queue = before.tables.queue)
    (deliveries : after.tables.deliveries = before.tables.deliveries)
    (webhooks : after.tables.webhookRequests = before.tables.webhookRequests)
    (requests : ∀ (index : Nat) request later, before.requests[index]? = some request →
      after.requests[index]? = some later → later.history = request.history)
    (there : row ∈ before.tables.messages.rows) (bounced : IsBounced row)
    (released : row.held = false) : Absorbed row ⟨before, action, output, after⟩ where
  status := ⟨row, messages ▸ there, rfl, bounced.1, bounced.2, released⟩
  deliveries := ⟨[], by rw [deliveries, List.append_nil], .inl rfl⟩
  webhooks := ⟨[], by rw [webhooks, List.append_nil], fun _ member => absurd member List.not_mem_nil⟩
  retries new member _ := ⟨new, queue ▸ member, rfl, rfl, rfl⟩
  removed index request later queued here there holds _ settled := by
    rw [requests index request later here there, holds.unsettled] at settled
    cases settled

theorem absorbed_step {before after : Delivering} {output : Unit}
    (reaction : (delivery functions settings).step before action = some (output, after))
    (faithful : Faithful (fun _ => Bound settings) (fun _ => Any) before)
    (acquainted : AllAcquainted before) (there : row ∈ before.tables.messages.rows)
    (bounced : IsBounced row) (released : row.held = false) :
    Absorbed row ⟨before, action, output, after⟩ := by
  obtain ⟨call, rfl, rfl⟩ | ⟨index, choice, request, β, command, next, answer, tables, rfl, found,
    sends, executed, rfl⟩ | ⟨elapsed, tables, rfl, disturbed, rfl⟩ :=
      (delivery functions settings).step_cases reaction
  · refine .of_same rfl rfl rfl rfl ?_ there bounced released
    intro index request later here there
    obtain ⟨bound, -⟩ := List.getElem?_eq_some_iff.mp here
    rw [List.getElem?_append_left bound] at there
    rw [Option.some.inj (here.symm.trans there)]
  · have responds := Option.some.inj executed
    have promise := faithful index request found
    rw [sends] at promise
    have bound := promise.1
    have known := acquainted request (List.mem_of_getElem? found)
    have logged := respond_logged responds
    constructor
    · rcases (respond_messages responds).fate row there with ⟨new, member, rewrites⟩ | pruned
      · have still := bounced_stays rewrites bounced
        exact ⟨new, member, rewrites.same.1, still.1, still.2,
          released_stays rewrites (fun _ => released) still⟩
      · cases pruned
        cases bound
    · refine ⟨_, logged.deliveries (bound_prunes bound), ?_⟩
      rcases bounced_deliveries there bounced responds with none | ⟨bounce, member, -, own, one⟩
      · exact .inl none
      · obtain ⟨uncorrelated, fixed⟩ := newly_correlated own responds
        refine .inr ⟨bounce.id, ⟨uncorrelated, ?_⟩, one⟩
        rcases (respond_messages responds).fate bounce member with ⟨new, is, rewrites⟩ | pruned
        · exact ⟨new, is, rewrites.same.1, fixed.holds new is rewrites.same.1⟩
        · cases pruned
          cases bound
    · exact ⟨_, logged.webhookRequests, fun webhook new own =>
        bounced_notified there bounced bound responds _ new own⟩
    · intro new member own
      exact bounced_queue there bounced known bound responds member own
    · intro place other later queued here later_found holds own settled new member
      obtain ⟨rfl, rfl⟩ | ⟨-, unchanged⟩ := State.put_cases later_found
      · obtain rfl := Option.some.inj (here.symm.trans found)
        have settled : settles ⟨command, answer⟩ = true := by
          rw [Request.continued, settledBy_append, holds.unsettled] at settled
          exact settled
        exact bounced_settled there bounced known bound responds holds.taken own settled member
      · obtain rfl := Option.some.inj (here.symm.trans unchanged)
        rw [holds.unsettled] at settled
        cases settled
  · cases disturbed
    refine .of_same rfl rfl rfl rfl ?_ there bounced released
    intro index request later here there
    rw [Option.some.inj (here.symm.trans there)]

end Absorbed

/-- While a worker is about to send a message, another one correlates a notification with it. -/
def bouncedWhileSending : List (Action Work Choice Elapsed) :=
  [.start (.insertMessage (exampleMessage .outgoing "r@b.example")),
    .answer 0 { drawn := "original" },
    .start (.insertMessage { exampleMessage .incoming "s@a.example" with bounce := true }),
    .answer 1 {}, .start (.processNext []), .answer 2 { picked := some 1 }, .answer 2 {},
    .answer 2 {}, .answer 2 {}, .start (.processNext []), .answer 3 { picked := some 2 },
    .answer 3 {}, .answer 3 { score := .ok 0 }, .answer 3 {}, .answer 3 {}, .answer 3 {},
    .answer 2 { outcome := .sent [] true }, .answer 2 {}]

end Camelmailer.Worker.Bounces
