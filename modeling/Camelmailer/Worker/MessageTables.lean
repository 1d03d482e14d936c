import Mathlib.Data.List.MinMax
import Camelmailer.Core.Message
import Camelmailer.Db.Table

/-!
# Messages and their queue

The tables of the delivery: the messages, the rows of the queue, the deliveries on record and the
requests to webhooks, with the transactions that write them.

A transaction that writes a message holds its row until it commits, and whoever wants to write
the same row waits for it. So these transactions follow one another on a message, and each of them
is one step here. Retention is different: it looks for its messages in one step and writes each of
them in another.

Row level security lets a transaction see the messages of its server only. The columns are those
that a modelled function reads or writes; the score of an inspection, links and the log of
webhooks are left out.
-/

namespace Camelmailer.Worker

open Utf8 Db

/-! ## The tables -/

inductive MessageStatus where
  | pending
  | sent
  | softFail
  | hardFail
  | held
  | bounced
  | processed
deriving DecidableEq

inductive SpamStatus where
  | notChecked
  | notSpam
  | spam
  | spamFailure
deriving DecidableEq

inductive BounceCategory where
  | hard
  | soft
  | undetermined
deriving DecidableEq

/-- A row of `messages`. -/
structure StoredMessage extends QueuedMessage where
  id : Nat
  token : Text
  createdAt : DateTime
  status : MessageStatus := .pending
  held : Bool := false
  bypassed : Bool := false
  spamStatus : SpamStatus := .notChecked
  threat : Bool := false
  inspected : Bool := false
  bounceForId : Option Nat := none
  bounceCorrelatedAt : Option DateTime := none
  bounceCategory : Option BounceCategory := none
  contentPurgedAt : Option DateTime := none
  lastDeliveryAttempt : Option DateTime := none
deriving DecidableEq

/-- A row of `queued_messages`. -/
structure QueueRow where
  id : Nat
  messageId : Nat
  serverId : Id
  domain : Text
  bulk : Bool
  attempts : Nat := 0
  retryAfter : Option DateTime := none
  lockedBy : Option Text := none
  lockedAt : Option DateTime := none
deriving DecidableEq

/-- What a delivery says, one for each text of the source. -/
inductive Details where
  | accepted
  | suppressed
  | exhausted
  | temporary
  | rejected
  | failedInspection
  | unparseableReport
  | reportStored (domain : Text) (id records : Nat)
  | unparseableFeedback
  | complaint (detail : Text)
  | noComplaint (feedbackType : Text)
  | bounceFor (originalId : Nat)
  | bouncedBy (bounceId : Nat)
  | unmatchedBounce
deriving DecidableEq

def Details.text : Details → Text
  | accepted => "message accepted by the remote server"
  | suppressed => "recipient is on the suppression list"
  | exhausted => "delivery attempts exhausted"
  | temporary => "temporary delivery failure"
  | rejected => "message rejected by the remote server"
  | failedInspection => "message failed inspection (spam or virus)"
  | unparseableReport => "message could not be parsed as a DMARC aggregate report"
  | reportStored domain id records => "DMARC aggregate report for " ++ domain ++
      " stored (#" ++ decimal id ++ ", " ++ decimal records ++ " records)"
  | unparseableFeedback => "message could not be parsed as an ARF feedback report"
  | complaint detail => detail
  | noComplaint feedbackType => "feedback report (" ++ feedbackType ++
      ") recorded; no complaint actioned"
  | bounceFor originalId => "This has been detected as a bounce message for <msg:" ++
      decimal originalId ++ ">."
  | bouncedBy bounceId => "We've received a bounce message for this e-mail. See <msg:" ++
      decimal bounceId ++ "> for details."
  | unmatchedBounce => ("This message was a bounce but we couldn't link it with any outgoing " ++
      "message and there was no route for it.").toList

/-- A row of `deliveries`. -/
structure Delivery where
  serverId : Id
  messageId : Nat
  status : MessageStatus
  details : Details
  output : Text
  sentWithSsl : Bool
deriving DecidableEq

inductive WebhookEvent where
  | messageSent
  | messageDelayed
  | messageDeliveryFailed
  | messageHeld
  | messageBounced
deriving DecidableEq

/-- What a request to a webhook is about. -/
inductive Payload where
  | message (messageId : Nat) (details : Text)
  | bounce (originalId bounceId : Nat)
deriving DecidableEq

/-- The rows of `webhook_requests` that one event has led to, one for each webhook. -/
structure WebhookRequests where
  serverId : Id
  event : WebhookEvent
  payload : Payload
  webhooks : List Id
deriving DecidableEq

def messageKey (message : StoredMessage) : Nat := message.id

def queueKey (row : QueueRow) : Nat := row.id

structure Tables where
  messages : Table messageKey
  queue : Table queueKey
  deliveries : List Delivery
  webhookRequests : List WebhookRequests
  /-- Whether a stream is a broadcast stream. -/
  broadcastStream : Id → Option Bool
  now : DateTime

/-- A database without rows. -/
def Tables.empty : Tables where
  messages := .empty 1
  queue := .empty 1
  deliveries := []
  webhookRequests := []
  broadcastStream := fun _ => none
  now := 0

/-! ## The queue -/

def retryDelayMinutes (attempts : Nat) : Nat := 2 ^ min attempts 10

def minutes (count : Int) : Int := count * 60 * 1000000000

/-- The condition that a delivery puts on the row of its queue. -/
def QueueRow.isOf (row : QueueRow) (id : Nat) (owner : Option (Nat × Id)) : Bool :=
  row.id = id && owner.all (fun owner => row.messageId = owner.1 && row.serverId = owner.2)

/-- A row that is due again after a while. -/
def QueueRow.postponed (now : DateTime) (attempts : Nat) (row : QueueRow) : QueueRow :=
  { row with
    lockedBy := none
    lockedAt := none
    attempts := row.attempts + 1
    retryAfter := some (now + minutes (retryDelayMinutes attempts)) }

/-- Whether a row can be taken up: nobody has locked it, or the lock is stale. -/
def QueueRow.isReady (row : QueueRow) (now : DateTime) (window : Int) : Bool :=
  (row.lockedBy = none || row.lockedAt.any (fun since => since < now - window)) &&
    row.retryAfter.all (fun due => due ≤ now)

namespace Tables

variable (tables : Tables)

def completeMessage (id : Nat) (owner : Option (Nat × Id)) : Tables :=
  { tables with queue := tables.queue.keep (fun row => !row.isOf id owner) }

def retryMessage (id attempts : Nat) (owner : Option (Nat × Id)) : Tables :=
  let queue := tables.queue.update (fun row => row.isOf id owner)
    (QueueRow.postponed tables.now attempts) (fun _ => rfl)
  { tables with queue := queue }

/-- `dequeue`. Which of the rows that are ready is taken, by the turns of the servers and the
filter of the worker, is left open. -/
def dequeue (worker : Text) (window : Int) (picked : Option Nat) : Option QueueRow × Tables :=
  match (picked.bind tables.queue.find).filter (fun row => row.isReady tables.now window) with
  | none => (none, tables)
  | some row =>
      let locked := { row with lockedBy := some worker, lockedAt := some tables.now }
      (some locked, { tables with queue := tables.queue.replace locked })

/-- A new row of the queue. -/
def enqueue (messageId : Nat) (serverId : Id) (domain : Text) (bulk : Bool) : Tables :=
  let row : QueueRow :=
    { id := tables.queue.next, messageId := messageId, serverId := serverId, domain := domain,
      bulk := bulk }
  { tables with queue := tables.queue.insert row rfl }

/-! ## Messages -/

/-- A message of a server. -/
def message (serverId : Id) (messageId : Nat) : Option StoredMessage :=
  (tables.messages.find messageId).filter (fun row => row.serverId = serverId)

/-- The domain that a recipient is queued for. -/
def destination (rcptTo : Text) : Text := ((Str.rsplitOnce '@' rcptTo).map Prod.snd).getD []

/-- Whether a message goes out in bulk. -/
def isBulk (streamId : Option Id) : Bool := (streamId.bind tables.broadcastStream).getD false

/-- `insert_message_in_tx`. -/
def insertMessage (message : QueuedMessage) (token : Text) : Nat × Tables :=
  let row : StoredMessage :=
    { message with id := tables.messages.next, token := token, createdAt := tables.now }
  let stored := { tables with messages := tables.messages.insert row rfl }
  (row.id, stored.enqueue row.id message.serverId (destination message.rcptTo)
    (tables.isBulk message.streamId))

/-- `UPDATE messages` on one message of a server, under a condition. -/
def updateMessage (serverId : Id) (messageId : Nat) (condition : StoredMessage → Bool)
    (change : StoredMessage → StoredMessage) (keeps : ∀ row, (change row).id = row.id) : Tables :=
  let messages := tables.messages.update
    (fun row => row.id = messageId && row.serverId = serverId && condition row) change keeps
  { tables with messages := messages }

/-- Whether a message of a server meets a condition. -/
def hasMessage (serverId : Id) (messageId : Nat) (condition : StoredMessage → Bool) : Bool :=
  tables.messages.rows.any (fun row =>
    row.id = messageId && row.serverId = serverId && condition row)

end Tables

/-- What is recorded of a delivery. -/
structure DeliveryResult where
  status : MessageStatus
  details : Details
  output : Text := []
  sentWithSsl : Bool := false
  bounceCategory : Option BounceCategory := none
deriving DecidableEq

def DeliveryResult.delivery (result : DeliveryResult) (serverId : Id) (messageId : Nat) :
    Delivery :=
  ⟨serverId, messageId, result.status, result.details, result.output, result.sentWithSsl⟩

/-- A message with the result of a delivery. -/
def StoredMessage.concluded (now : DateTime) (result : DeliveryResult) (row : StoredMessage) :
    StoredMessage :=
  { row with
    status := result.status
    held := result.status = .held
    lastDeliveryAttempt := some now
    bounceCategory := result.bounceCategory.or row.bounceCategory }

/-- `OutboundQueueAction`. -/
inductive QueueAction where
  | complete
  | retry (attempts : Nat)
deriving DecidableEq

/-- `BounceCorrelationOutcome`. -/
inductive BounceCorrelation where
  | notMatched
  | alreadyCorrelated
  | correlated (originalId : Nat)
deriving DecidableEq

inductive OutboundRetry where
  | notFound
  | notRetryable (status : MessageStatus)
  | contentPurged
  | requeued
deriving DecidableEq

/-- `RETRYABLE_OUTBOUND_STATUSES`. -/
def retryableOutboundStatuses : List MessageStatus := [.pending, .softFail, .hardFail]

/-- A notification that is not linked to a message yet, or is. -/
def StoredMessage.isBounceMessage (row : StoredMessage) : Bool :=
  row.scope = .incoming && row.bounce

def StoredMessage.unmatched (now : DateTime) (category : BounceCategory) (row : StoredMessage) :
    StoredMessage :=
  { row with
    status := .hardFail
    held := false
    lastDeliveryAttempt := some now
    bounceCategory := some category }

/-- A notification that an API retry may have reset. -/
def StoredMessage.restored (row : StoredMessage) : StoredMessage :=
  { row with status := .processed, held := false }

/-- A notification that is linked to its original. -/
def StoredMessage.linked (now : DateTime) (original : StoredMessage) (row : StoredMessage) :
    StoredMessage :=
  { row with
    bounceForId := some original.id
    bounceCorrelatedAt := some now
    domainId := original.domainId
    status := .processed
    held := false
    lastDeliveryAttempt := some now }

/-- A message that has come back. -/
def StoredMessage.cameBack (now : DateTime) (category : BounceCategory) (row : StoredMessage) :
    StoredMessage :=
  { row with
    status := .bounced
    held := false
    bounceCategory := some category
    lastDeliveryAttempt := some now }

def StoredMessage.requeuedInbound (bypass : Bool) (row : StoredMessage) : StoredMessage :=
  { row with status := .pending, bypassed := row.bypassed || bypass }

def StoredMessage.requeuedOutbound (row : StoredMessage) : StoredMessage :=
  { row with status := .pending, held := false }

/-- The verdict of an inspection. -/
structure Verdict where
  spamStatus : SpamStatus
  threat : Bool
deriving DecidableEq

def StoredMessage.judged (verdict : Verdict) (row : StoredMessage) : StoredMessage :=
  { row with spamStatus := verdict.spamStatus, threat := verdict.threat, inspected := true }

def StoredMessage.purged (now : DateTime) (row : StoredMessage) : StoredMessage :=
  { row with rawMessage := [], contentPurgedAt := some now }

/-- `split_part(text, '@', 2)`. -/
def splitPart (text : Text) : Text := ((text.splitOn '@')[1]?).getD []

namespace Tables

variable (tables : Tables)

/-- `record_delivery`. A message that has bounced is left alone. -/
def recordDelivery (serverId : Id) (messageId : Nat) (result : DeliveryResult) : Bool × Tables :=
  let condition := fun row : StoredMessage => decide (row.status ≠ .bounced)
  if tables.hasMessage serverId messageId condition then
    (true, { tables.updateMessage serverId messageId condition
        (StoredMessage.concluded tables.now result) (fun _ => rfl) with
      deliveries := tables.deliveries ++ [result.delivery serverId messageId] })
  else (false, tables)

/-- What is done to the row of the queue with a delivery. -/
def settle (action : QueueAction) (queuedId : Nat) (owner : Nat × Id) : Tables :=
  match action with
  | .complete => tables.completeMessage queuedId (some owner)
  | .retry attempts => tables.retryMessage queuedId attempts (some owner)

/-- `record_outbound_delivery`. For a message that has bounced only the row of the queue is
removed. -/
def recordOutboundDelivery (serverId : Id) (messageId queuedId : Nat) (result : DeliveryResult)
    (action : QueueAction) (event : WebhookEvent) (payload : Payload) (webhooks : List Id) :
    Bool × Tables :=
  let condition := fun row : StoredMessage => row.scope = .outgoing && decide (row.status ≠ .bounced)
  if tables.hasMessage serverId messageId condition then
    let updated := (tables.updateMessage serverId messageId condition
      (StoredMessage.concluded tables.now result) (fun _ => rfl)).settle action queuedId
        (messageId, serverId)
    (true, { updated with
      deliveries := tables.deliveries ++ [result.delivery serverId messageId]
      webhookRequests := tables.webhookRequests ++ [⟨serverId, event, payload, webhooks⟩] })
  else (false, tables.completeMessage queuedId (some (messageId, serverId)))

def recordUnmatchedBounce (serverId : Id) (bounceId queuedId : Nat) (category : BounceCategory) :
    Bool × Tables :=
  let result : DeliveryResult := { status := .hardFail, details := .unmatchedBounce }
  let completed := tables.completeMessage queuedId (some (bounceId, serverId))
  if tables.hasMessage serverId bounceId StoredMessage.isBounceMessage then
    (true, { completed.updateMessage serverId bounceId StoredMessage.isBounceMessage
        (StoredMessage.unmatched tables.now category) (fun _ => rfl) with
      deliveries := tables.deliveries ++ [result.delivery serverId bounceId] })
  else (false, completed)

/-- The original of a notification: the outgoing message of the first token that names one. -/
def original (serverId : Id) (tokens : List Text) : Option StoredMessage :=
  tokens.findSome? (fun token => (tables.messages.rows.filter (fun row =>
    row.token = token && row.scope = .outgoing && row.serverId = serverId)).argmin messageKey)

/-- The notification and its original are linked. -/
def link (serverId : Id) (bounceId : Nat) (category : BounceCategory) (original : StoredMessage)
    (webhooks : List Id) : Tables :=
  let processed : DeliveryResult := { status := .processed, details := .bounceFor original.id }
  let bounced : DeliveryResult := { status := .bounced, details := .bouncedBy bounceId }
  let linked := (tables.updateMessage serverId bounceId StoredMessage.isBounceMessage
    (fun row => StoredMessage.linked tables.now original
      { row with bounceCategory := some category })
    (fun _ => rfl)).updateMessage serverId original.id (fun _ => true)
      (StoredMessage.cameBack tables.now category) (fun _ => rfl)
  { linked with
    deliveries := tables.deliveries ++
      [processed.delivery serverId bounceId, bounced.delivery serverId original.id]
    webhookRequests := tables.webhookRequests ++
      [⟨serverId, .messageBounced, .bounce original.id bounceId, webhooks⟩] }

/-- `correlate_bounce`. The notification is locked first, so that only one correlation of it can
come to the end. -/
def correlateBounce (serverId : Id) (bounceId : Nat) (tokens : List Text)
    (category : BounceCategory) (webhooks : List Id) : BounceCorrelation × Tables :=
  match (tables.message serverId bounceId).filter StoredMessage.isBounceMessage with
  | none => (.notMatched, tables)
  | some bounce =>
      if bounce.bounceCorrelatedAt.isSome then
        (.alreadyCorrelated, tables.updateMessage serverId bounceId (fun _ => true)
          StoredMessage.restored (fun _ => rfl))
      else
        match tables.original serverId tokens with
        | none => (.notMatched, tables.updateMessage serverId bounceId
            StoredMessage.isBounceMessage
            (fun row => { row with bounceCategory := some category }) (fun _ => rfl))
        | some original =>
            (.correlated original.id, tables.link serverId bounceId category original webhooks)

def requeueInbound (serverId : Id) (messageId : Nat) (bypass : Bool) :
    Option StoredMessage × Tables :=
  match (tables.message serverId messageId).filter (fun row => row.scope = .incoming) with
  | none => (none, tables)
  | some row =>
      (some (row.requeuedInbound bypass),
        (tables.updateMessage serverId messageId (fun row => row.scope = .incoming)
          (StoredMessage.requeuedInbound bypass) (fun _ => rfl)).enqueue messageId serverId
            (destination row.rcptTo) false)

/-- Whether a message of a server is in the queue. -/
def isQueued (serverId : Id) (messageId : Nat) : Bool :=
  tables.queue.rows.any (fun row => row.messageId = messageId && row.serverId = serverId)

/-- The rows of a message that nobody has locked are due at once. -/
def makeDue (serverId : Id) (messageId : Nat) : Tables :=
  let queue := tables.queue.update
    (fun row => row.messageId = messageId && row.serverId = serverId && row.lockedBy = none)
    (fun row => { row with retryAfter := none }) (fun _ => rfl)
  { tables with queue := queue }

def requeueOutbound (serverId : Id) (messageId : Nat) : OutboundRetry × Tables :=
  match (tables.message serverId messageId).filter (fun row => row.scope = .outgoing) with
  | none => (.notFound, tables)
  | some row =>
      if row.status ∉ retryableOutboundStatuses then (.notRetryable row.status, tables)
      else if row.contentPurgedAt.isSome then (.contentPurged, tables)
      else
        let queued :=
          if tables.isQueued serverId messageId then tables.makeDue serverId messageId
          else tables.enqueue messageId serverId (splitPart row.rcptTo) (tables.isBulk row.streamId)
        (.requeued, queued.updateMessage serverId messageId (fun _ => true)
          StoredMessage.requeuedOutbound (fun _ => rfl))

def recordInspection (serverId : Id) (messageId : Nat) (verdict : Verdict) : Tables :=
  tables.updateMessage serverId messageId (fun _ => true) (StoredMessage.judged verdict)
    (fun _ => rfl)

/-! ## Retention -/

/-- The messages that `purge_message_content` selects. Which of them, if there are more than fit
in a batch, is left open. -/
def purgeable (serverId : Id) (cutoff : DateTime) (batch : Nat) (chosen : List Nat) : List Nat :=
  (chosen.filter (fun id => tables.hasMessage serverId id (fun row =>
    decide (row.createdAt < cutoff) && row.contentPurgedAt.isNone) &&
      !tables.isQueued serverId id)).take batch

/-- The content of a message that has been selected is emptied. -/
def purgeContent (serverId : Id) (messageId : Nat) : Tables :=
  tables.updateMessage serverId messageId (fun _ => true) (StoredMessage.purged tables.now)
    (fun _ => rfl)

/-- The messages that `prune_message_metadata` selects. -/
def expired (serverId : Id) (cutoff : DateTime) (batch : Nat) (chosen : List Nat) : List Nat :=
  (chosen.filter (fun id => tables.hasMessage serverId id (fun row =>
    decide (row.createdAt < cutoff)))).take batch

/-- The links to messages, their deliveries and their rows of the queue are deleted. -/
def pruneReferences (serverId : Id) (ids : List Nat) : Tables :=
  let messages := tables.messages.update
    (fun row => row.serverId = serverId && row.bounceForId.any (fun id => id ∈ ids))
    (fun row => { row with bounceForId := none }) (fun _ => rfl)
  { tables with
    messages := messages
    deliveries := tables.deliveries.filter (fun delivery =>
      !(delivery.serverId = serverId && delivery.messageId ∈ ids))
    queue := tables.queue.keep (fun row => !(row.serverId = serverId && row.messageId ∈ ids)) }

/-- The messages themselves are deleted. -/
def pruneMessages (serverId : Id) (ids : List Nat) : Tables :=
  { tables with messages := tables.messages.keep (fun row =>
      !(row.serverId = serverId && row.id ∈ ids)) }

end Tables

end Camelmailer.Worker
