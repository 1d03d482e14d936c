import Camelmailer.Core.SendLimit
import Camelmailer.Text.Lines

/-!
# Message intake

The record an accepted transaction hands over, the outcome of handing over a whole
batch, and the header reader that every later component applies to the stored
octets. `MemorySink` is the in-memory sink; the PostgreSQL sink is modelled with
the database.
-/

namespace Camelmailer

open Utf8

/-- One step of `parse_headers`: a folded line extends the last header, a line
with a colon starts a header, and any other line is ignored. -/
def parseHeaderLine (platform : Platform) (headers : List (Text × Text)) (text : Text) :
    List (Text × Text) :=
  if text.head? = some ' ' ∨ text.head? = some '\t' then
    headers.modifyLast (fun header => (header.1, header.2 ++ ' ' :: Str.trim text))
  else match Str.splitOnce ':' text with
    | some (key, value) =>
        headers ++ [(platform.toLowercase (Str.trim key), Str.trim value)]
    | none => headers

/-- The header lines of a message that has been cut at its line feeds, up to the
first empty one. -/
def parseHeaderLines (platform : Platform) :
    List (Text × Text) → List Bytes → List (Text × Text)
  | headers, [] => headers
  | headers, line :: rest =>
      let line := (Str.stripLast Lines.CR line).getD line
      if line = [] then headers
      else parseHeaderLines platform (parseHeaderLine platform headers (fromUtf8Lossy line)) rest

def parseHeaders (platform : Platform) (rawMessage : Bytes) : List (Text × Text) :=
  parseHeaderLines platform [] (rawMessage.splitOn Lines.LF)

/-- `message::header_value`: the first header of a name. -/
def headerValue (platform : Platform) (rawMessage : Bytes) (name : Text) : Option Text :=
  ((parseHeaders platform rawMessage).find? (fun header =>
    header.1 == platform.toLowercase name)).map Prod.snd

inductive MessageScope where
  | incoming
  | outgoing
deriving DecidableEq

/-- A message accepted by the SMTP server, ready to be stored and queued. -/
structure QueuedMessage where
  serverId : Id
  rcptTo : Text
  mailFrom : Text
  rawMessage : Bytes
  receivedWithSsl : Bool
  scope : MessageScope
  bounce : Bool
  domainId : Option Id
  credentialId : Option Id
  routeId : Option Id
  tag : Option Text
  /-- Per-message metadata, as the JSON text it serializes to. -/
  metadata : Option Text
  streamId : Option Id
deriving DecidableEq

inductive QueueMessagesOutcome where
  | stored
  | replayed
  | conflict
  | limitExceeded (message : Text)
  | failed (error : Text)
deriving DecidableEq

/-! ## Send operations

What the store is asked to store as a whole, and what it keeps and answers. -/

/-- A message as it has been stored. -/
structure SentMessage where
  id : Nat
  token : Text
  rcptTo : Text
deriving DecidableEq

structure PendingUnsubscribeToken where
  token : Text
  streamId : Option Id
  address : Text
deriving DecidableEq

structure SendPlanMessage where
  message : QueuedMessage
  unsubscribeToken : Option PendingUnsubscribeToken
deriving DecidableEq

/-- `SendPlanMessage::from`. -/
def QueuedMessage.planned (message : QueuedMessage) : SendPlanMessage := ⟨message, none⟩

/-- An item of a prepared send operation. Batch sends keep the entries that were refused. -/
inductive SendPlanItem where
  | messages (planned : List SendPlanMessage)
  | error (code message : Text)
deriving DecidableEq

structure StoredSendResult where
  messageId : Option Nat
  recipients : List SentMessage
deriving DecidableEq

inductive SendOperationItem where
  | success (result : StoredSendResult)
  | error (code message : Text)
deriving DecidableEq

/-- The response to a send operation, which a repetition is given again. -/
structure SendOperationResult where
  items : List SendOperationItem
deriving DecidableEq

inductive IdempotencyLookup where
  | new
  | replay (response : SendOperationResult)
  | conflict
deriving DecidableEq

inductive StoreSendOutcome where
  | stored (response : SendOperationResult)
  | replayed (response : SendOperationResult)
  | conflict
deriving DecidableEq

/-- The number of outgoing messages of a batch, which is what limits count. -/
def outgoingCount (messages : List QueuedMessage) : Int :=
  (messages.filter (fun message => message.scope = .outgoing)).length

/-- `MemorySinkInner`. A cached request keeps its hash, its operation and when it
expires, under the server and the hash of its key. -/
structure MemorySink where
  messages : List QueuedMessage
  idempotencyRequests : Id × Text → Option (Text × Text × DateTime)

namespace MemorySink

def new : MemorySink := ⟨[], fun _ => none⟩

def queueMessage (sink : MemorySink) (message : QueuedMessage) : MemorySink :=
  { sink with messages := sink.messages ++ [message] }

/-- The key a request is cached under: that of the first message's server. -/
def cacheKey (messages : List QueuedMessage) (request : IdempotencyRequest) : Id × Text :=
  ((messages.head?.map (·.serverId)).getD 0, request.keyHash)

/-- What an unexpired cached request answers to a batch. -/
def cached (sink : MemorySink) (now : DateTime) (messages : List QueuedMessage)
    (request : IdempotencyRequest) : Option QueueMessagesOutcome :=
  match sink.idempotencyRequests (cacheKey messages request) with
  | none => none
  | some (requestHash, operation, expiresAt) =>
      if expiresAt > now then
        if requestHash = request.requestHash ∧ operation = request.operation then some .replayed
        else some .conflict
      else none

def queueMessages (sink : MemorySink) (now : DateTime) (messages : List QueuedMessage)
    (idempotency : Option IdempotencyRequest) (allowance : SendAllowance) :
    MemorySink × QueueMessagesOutcome :=
  match idempotency.bind (sink.cached now messages) with
  | some outcome => (sink, outcome)
  | none =>
      if !allowance.allows (outgoingCount messages) then
        (sink, .limitExceeded allowance.rejectionMessage)
      else
        let requests := match idempotency with
          | none => sink.idempotencyRequests
          | some request => Function.update sink.idempotencyRequests (cacheKey messages request)
              (some (request.requestHash, request.operation, request.expiresAt))
        (⟨sink.messages ++ messages, requests⟩, .stored)

variable {request : IdempotencyRequest} {messages : List QueuedMessage} {sink : MemorySink}

/-- What is on record is not stored again. -/
theorem cached_ne_stored {now : DateTime} {outcome : QueueMessagesOutcome}
    (found : sink.cached now messages request = some outcome) : outcome ≠ .stored := by
  unfold cached at found
  split at found
  · cases found
  · split at found
    · split at found <;> cases found <;> simp
    · cases found

/-- An unexpired request is not replaced. -/
theorem queueMessages_keeps {now expiresAt : DateTime} {idempotency : Option IdempotencyRequest}
    {allowance : SendAllowance} {key : Id × Text} {hash operation : Text}
    (known : sink.idempotencyRequests key = some (hash, operation, expiresAt))
    (unexpired : now < expiresAt) :
    (sink.queueMessages now messages idempotency allowance).1.idempotencyRequests key =
      some (hash, operation, expiresAt) := by
  unfold queueMessages
  split
  case h_1 => exact known
  case h_2 unknown =>
    split
    case isTrue => exact known
    case isFalse =>
      cases idempotency with
      | none => exact known
      | some request =>
          have other : key ≠ cacheKey messages request := by
            rintro rfl
            rw [Option.bind_some, cached, known] at unknown
            dsimp only at unknown
            rw [if_pos unexpired] at unknown
            split at unknown <;> cases unknown
          exact (Function.update_of_ne other _ _).trans known

/-- A batch under an unexpired request is answered from it, for any allowance. -/
theorem queueMessages_replays {now expiresAt : DateTime}
    (known : sink.idempotencyRequests (cacheKey messages request) =
      some (request.requestHash, request.operation, expiresAt)) (unexpired : now < expiresAt)
    (allowance : SendAllowance) :
    sink.queueMessages now messages (some request) allowance = (sink, .replayed) := by
  have found : (some request).bind (sink.cached now messages) = some .replayed := by
    rw [Option.bind_some, cached, known]
    dsimp only
    rw [if_pos unexpired, if_pos ⟨rfl, rfl⟩]
  unfold queueMessages
  rw [found]

/-- A batch that is stored leaves its request on record. -/
theorem queueMessages_stores {now : DateTime} {allowance : SendAllowance}
    (stored : (sink.queueMessages now messages (some request) allowance).2 = .stored) :
    (sink.queueMessages now messages (some request) allowance).1.idempotencyRequests
      (cacheKey messages request) =
        some (request.requestHash, request.operation, request.expiresAt) := by
  unfold queueMessages at stored ⊢
  split at stored
  case h_1 outcome found =>
    exact absurd stored (cached_ne_stored found)
  case h_2 unknown =>
    split at stored
    case isTrue => cases stored
    case isFalse allowed =>
      rw [if_neg allowed]
      exact Function.update_self ..

end MemorySink

end Camelmailer
