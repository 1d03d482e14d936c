import Camelmailer.Core.Message
import Camelmailer.Db.Transaction

/-!
# Storing messages in PostgreSQL

The tables a message is written to, and `PgMessageSink` with the functions of `PgStore` it
uses. A message that arrives alone is stored in a transaction of its own. A batch under
an idempotency key is stored in one transaction together with the record of the request.

Other sessions work on the same tables. What they have committed before a transaction is
part of the tables it starts from. Within a transaction they matter in one place: another
request can claim the same key first, and then this one finds its record taken.

The columns are those that a modelled function reads or writes. The alerts that
`count_organization_send` raises at the thresholds of a limit are left out.
-/

namespace Camelmailer.Db

open Utf8

/-! ## The tables -/

/-- A row of `messages`. -/
structure MessageRow where
  id : Nat
  token : Text
  message : QueuedMessage
  subject : Option Text
  messageIdHeader : Option Text
  size : Nat
deriving DecidableEq

/-- The message as the response of its request names it. -/
def MessageRow.sent (row : MessageRow) : SentMessage := ⟨row.id, row.token, row.message.rcptTo⟩

/-- A row of `queued_messages`. -/
structure QueueRow where
  messageId : Nat
  serverId : Id
  domain : Text
  bulk : Bool
deriving DecidableEq

/-- A row of `idempotency_requests`. Its response is stored as JSON, which may fail to be
read back. -/
structure IdempotencyRow where
  serverId : Id
  keyHash : Text
  requestHash : Text
  operation : Text
  response : Except Text SendOperationResult
  expiresAt : DateTime

structure Tables where
  messages : List MessageRow
  queuedMessages : List QueueRow
  /-- Messages counted for a server on a day and for an organization in a month. -/
  serverSendCounters : Id → Int → Nat
  organizationSendCounters : Id → Int → Nat
  unsubscribeTokens : List (Id × PendingUnsubscribeToken)
  idempotencyRequests : List IdempotencyRow
  /-- The next value of the sequence of `messages.id`. -/
  nextMessageId : Nat
  /-- The organization of a server. -/
  organizationOf : Id → Option Id
  /-- Whether a stream is a broadcast stream. -/
  broadcastStream : Id → Option Bool

/-- A database without rows. -/
def Tables.empty : Tables where
  messages := []
  queuedMessages := []
  serverSendCounters := fun _ _ => 0
  organizationSendCounters := fun _ _ => 0
  unsubscribeTokens := []
  idempotencyRequests := []
  nextMessageId := 1
  organizationOf := fun _ => none
  broadcastStream := fun _ => none

/-! ## The statements -/

/-- The statements of the transactions below. Those that store a message are told apart
by its position in the batch. -/
inductive Statement where
  | begins
  | setTenantContext
  | deleteExpiredRequest
  | selectRequest
  | insertUnsubscribeToken (position : Nat)
  | insertMessage (position : Nat)
  | enqueueMessage (position : Nat)
  | countServerSend (position : Nat)
  | countOrganizationSend (position : Nat)
  | insertRequest
  | rollback
  | commit
deriving DecidableEq

/-- What a transaction meets: the time, the date and the month in UTC, the public tokens
it draws, and the error of each statement that fails. -/
structure Circumstances where
  now : DateTime
  day : Int
  month : Int
  token : Nat → Text
  fault : Statement → Option Text

abbrev PgTx : Type → Type := Tx Tables Statement Text

/-- A transaction on the tables. -/
def inTransaction {α : Type} (circumstances : Circumstances) (body : PgTx (Ending α)) :
    Tables → Except Text α × Tables :=
  Tx.transact .begins .commit .rollback body circumstances.fault

namespace Tables

def insertMessage (platform : Platform) (token : Text) (message : QueuedMessage)
    (tables : Tables) : Nat × Tables :=
  (tables.nextMessageId,
    { tables with
      messages := tables.messages ++ [{
        id := tables.nextMessageId
        token := token
        message := message
        subject := headerValue platform message.rawMessage "subject"
        messageIdHeader := headerValue platform message.rawMessage "message-id"
        size := message.rawMessage.length }]
      nextMessageId := tables.nextMessageId + 1 })

/-- Queue a message for its destination domain. Mail of a broadcast stream is bulk. -/
def enqueueMessage (messageId : Nat) (message : QueuedMessage) (tables : Tables) :
    Unit × Tables :=
  ((), { tables with queuedMessages := tables.queuedMessages ++ [{
    messageId := messageId
    serverId := message.serverId
    domain := ((Str.rsplitOnce '@' message.rcptTo).map Prod.snd).getD []
    bulk := (message.streamId.bind tables.broadcastStream).getD false }] })

/-- Count a message for its server today. -/
def countServerSend (day : Int) (serverId : Id) (tables : Tables) : Unit × Tables :=
  ((), { tables with
    serverSendCounters := Function.update tables.serverSendCounters serverId
      (Function.update (tables.serverSendCounters serverId) day
        (tables.serverSendCounters serverId day + 1)) })

def countOrganizationSend (month : Int) (serverId : Id) (tables : Tables) : Unit × Tables :=
  match tables.organizationOf serverId with
  | none => ((), tables)
  | some organizationId =>
      ((), { tables with
        organizationSendCounters := Function.update tables.organizationSendCounters organizationId
          (Function.update (tables.organizationSendCounters organizationId) month
            (tables.organizationSendCounters organizationId month + 1)) })

def insertUnsubscribeToken (serverId : Id) (token : PendingUnsubscribeToken) (tables : Tables) :
    Unit × Tables :=
  ((), { tables with unsubscribeTokens := tables.unsubscribeTokens ++ [(serverId, token)] })

/-- Whether a row stands under a server's key. -/
def isUnder (serverId : Id) (request : IdempotencyRequest) (row : IdempotencyRow) : Bool :=
  row.serverId == serverId && row.keyHash == request.keyHash

def deleteExpiredRequest (now : DateTime) (serverId : Id) (request : IdempotencyRequest)
    (tables : Tables) : Unit × Tables :=
  ((), { tables with idempotencyRequests := tables.idempotencyRequests.filter (fun row =>
    !(isUnder serverId request row && row.expiresAt ≤ now)) })

def selectRequest (serverId : Id) (request : IdempotencyRequest) (tables : Tables) :
    Option IdempotencyRow × Tables :=
  (tables.idempotencyRequests.find? (isUnder serverId request), tables)

/-- The row of a server's key that has not expired. -/
def selectUnexpiredRequest (now : DateTime) (serverId : Id) (request : IdempotencyRequest)
    (tables : Tables) : Option IdempotencyRow × Tables :=
  (tables.idempotencyRequests.find? (fun row =>
    isUnder serverId request row && decide (now < row.expiresAt)), tables)

/-- Insert the record of a request unless its key is taken. The result is the number of
rows affected. -/
def insertRequest (taken : Bool) (serverId : Id) (request : IdempotencyRequest)
    (response : SendOperationResult) (tables : Tables) : Nat × Tables :=
  if taken || tables.idempotencyRequests.any (isUnder serverId request) then (0, tables)
  else (1, { tables with idempotencyRequests := tables.idempotencyRequests ++ [{
    serverId := serverId
    keyHash := request.keyHash
    requestHash := request.requestHash
    operation := request.operation
    response := .ok response
    expiresAt := request.expiresAt }] })

end Tables

/-! ## Storing -/

/-- Outgoing messages count against the limits of their server and organization. -/
def countSend (circumstances : Circumstances) (position : Nat) (message : QueuedMessage) :
    PgTx Unit :=
  match message.scope with
  | .incoming => return ()
  | .outgoing => do
      Tx.statement (.countServerSend position)
        (Tables.countServerSend circumstances.day message.serverId)
      Tx.statement (.countOrganizationSend position)
        (Tables.countOrganizationSend circumstances.month message.serverId)

def insertMessageInTx (platform : Platform) (circumstances : Circumstances) (position : Nat)
    (message : QueuedMessage) : PgTx SentMessage := do
  let messageId ← Tx.statement (.insertMessage position)
    (Tables.insertMessage platform (circumstances.token position) message)
  Tx.statement (.enqueueMessage position) (Tables.enqueueMessage messageId message)
  countSend circumstances position message
  return ⟨messageId, circumstances.token position, message.rcptTo⟩

/-- `set_tenant_context`: what row level security compares with. -/
def setTenantContext : PgTx Unit :=
  Tx.statement .setTenantContext (fun tables => ((), tables))

/-- `PgMessageSink::insert_message_returning`. -/
def insertMessage (platform : Platform) (circumstances : Circumstances) (message : QueuedMessage) :
    Tables → Except Text SentMessage × Tables :=
  inTransaction circumstances do
    setTenantContext
    let sent ← insertMessageInTx platform circumstances 0 message
    return .commit sent

/-- What the record of a key says about a request. -/
def answerRequest (request : IdempotencyRequest) (row : IdempotencyRow) :
    Except Text IdempotencyLookup :=
  if row.requestHash ≠ request.requestHash ∨ row.operation ≠ request.operation then .ok .conflict
  else match row.response with
    | .error error => .error ("invalid cached send response: " ++ error)
    | .ok response => .ok (.replay response)

def idempotencyLookup (circumstances : Circumstances) (serverId : Id)
    (request : IdempotencyRequest) (tables : Tables) : Except Text IdempotencyLookup × Tables :=
  let found := inTransaction circumstances (do
    setTenantContext
    let row ← Tx.statement .selectRequest
      (Tables.selectUnexpiredRequest circumstances.now serverId request)
    return .commit row) tables
  (match found.1 with
    | .error error => .error error
    | .ok none => .ok .new
    | .ok (some row) => answerRequest request row, found.2)

/-- One message of a plan, which must be for the server of the operation. -/
def storePlanned (platform : Platform) (circumstances : Circumstances) (serverId : Id)
    (position : Nat) (planned : SendPlanMessage) : PgTx SentMessage :=
  if planned.message.serverId ≠ serverId then
    throw "send operation crossed server boundary".toList
  else match planned.unsubscribeToken with
    | none => insertMessageInTx platform circumstances position planned.message
    | some token => do
        Tx.statement (.insertUnsubscribeToken position)
          (Tables.insertUnsubscribeToken serverId token)
        insertMessageInTx platform circumstances position planned.message

/-- The messages of one item of a plan. -/
def storeMessages (platform : Platform) (circumstances : Circumstances) (serverId : Id) :
    Nat → List SendPlanMessage → PgTx (List SentMessage)
  | _, [] => return []
  | position, planned :: rest => do
      let sent ← storePlanned platform circumstances serverId position planned
      let later ← storeMessages platform circumstances serverId (position + 1) rest
      return sent :: later

/-- The items of a plan. -/
def storePlan (platform : Platform) (circumstances : Circumstances) (serverId : Id) :
    Nat → List SendPlanItem → PgTx (List SendOperationItem)
  | _, [] => return []
  | position, .messages planned :: rest => do
      let recipients ← storeMessages platform circumstances serverId position planned
      let items ← storePlan platform circumstances serverId (position + planned.length) rest
      return .success ⟨recipients.head?.map (·.id), recipients⟩ :: items
  | position, .error code message :: rest => do
      let items ← storePlan platform circumstances serverId position rest
      return .error code message :: items

/-- What a send operation has found when its transaction ends. -/
inductive OperationEnd where
  | stored (response : SendOperationResult)
  /-- The key of the request has a record already. -/
  | recorded (request : IdempotencyRequest) (row : IdempotencyRow)
  /-- Another request has claimed the key meanwhile. -/
  | overtaken (request : IdempotencyRequest)

/-- The request with the record of its key, after that has been deleted if it had
expired. -/
def findRequest (circumstances : Circumstances) (serverId : Id) :
    Option IdempotencyRequest → PgTx (Option (IdempotencyRequest × IdempotencyRow))
  | none => return none
  | some request => do
      Tx.statement .deleteExpiredRequest
        (Tables.deleteExpiredRequest circumstances.now serverId request)
      let row ← Tx.statement .selectRequest (Tables.selectRequest serverId request)
      return row.map (request, ·)

/-- Store a plan and the record of its request. The transaction is given up when the key
has been taken. -/
def recordOperation (platform : Platform) (circumstances : Circumstances) (taken : Bool)
    (serverId : Id) (plan : List SendPlanItem) :
    Option IdempotencyRequest → PgTx (Ending OperationEnd)
  | none => do
      let items ← storePlan platform circumstances serverId 0 plan
      return .commit (.stored ⟨items⟩)
  | some request => do
      let items ← storePlan platform circumstances serverId 0 plan
      let inserted ← Tx.statement .insertRequest
        (Tables.insertRequest taken serverId request ⟨items⟩)
      return if inserted = 0 then .rollback (.overtaken request) else .commit (.stored ⟨items⟩)

/-- The transaction of `store_send_operation`. -/
def sendOperation (platform : Platform) (circumstances : Circumstances) (taken : Bool)
    (serverId : Id) (plan : List SendPlanItem) (idempotency : Option IdempotencyRequest) :
    PgTx (Ending OperationEnd) := do
  setTenantContext
  match ← findRequest circumstances serverId idempotency with
  | some (request, row) => return .rollback (.recorded request row)
  | none => recordOperation platform circumstances taken serverId plan idempotency

/-- What a lookup means for a send operation that has stored nothing itself. -/
def lookupOutcome : Except Text IdempotencyLookup → Except Text StoreSendOutcome
  | .error error => .error error
  | .ok (.replay response) => .ok (.replayed response)
  | .ok .conflict => .ok .conflict
  | .ok .new => .error "concurrent idempotency result disappeared"

/-- `store_send_operation`. A rival is what another request for the same key has left of
the database when it has committed while this one was storing its messages. -/
def storeSendOperation (platform : Platform) (first again : Circumstances) (rival : Option Tables)
    (serverId : Id) (plan : List SendPlanItem) (idempotency : Option IdempotencyRequest)
    (tables : Tables) : Except Text StoreSendOutcome × Tables :=
  let ended := inTransaction first
    (sendOperation platform first rival.isSome serverId plan idempotency) tables
  match ended.1 with
  | .error error => (.error error, ended.2)
  | .ok (.stored response) => (.ok (.stored response), ended.2)
  | .ok (.recorded request row) => (lookupOutcome (answerRequest request row), ended.2)
  | .ok (.overtaken request) =>
      let looked := idempotencyLookup again serverId request (rival.getD ended.2)
      (lookupOutcome looked.1, looked.2)

namespace PgMessageSink

/-- `PgMessageSink::queue_message`. A failure is logged and otherwise ignored. -/
def queueMessage (platform : Platform) (circumstances : Circumstances) (message : QueuedMessage)
    (tables : Tables) : Tables :=
  (insertMessage platform circumstances message tables).2

/-- The sink's answer to a batch for which there is no room: that of a completed request
under the same key, if there is one. -/
def refuseMessages (circumstances : Circumstances) (serverId : Id)
    (idempotency : Option IdempotencyRequest) (allowance : SendAllowance) (tables : Tables) :
    QueueMessagesOutcome × Tables :=
  match idempotency with
  | none => (.limitExceeded allowance.rejectionMessage, tables)
  | some request =>
      let looked := idempotencyLookup circumstances serverId request tables
      (match looked.1 with
        | .ok (.replay _) => .replayed
        | .ok .conflict => .conflict
        | .ok .new => .limitExceeded allowance.rejectionMessage
        | .error error => .failed error, looked.2)

def queueMessages (platform : Platform) (first again : Circumstances) (rival : Option Tables)
    (messages : List QueuedMessage) (idempotency : Option IdempotencyRequest)
    (allowance : SendAllowance) (tables : Tables) : QueueMessagesOutcome × Tables :=
  match messages.head? with
  | none => (.stored, tables)
  | some message =>
      if !allowance.allows (outgoingCount messages) then
        refuseMessages first message.serverId idempotency allowance tables
      else
        let stored := storeSendOperation platform first again rival message.serverId
          [.messages (messages.map QueuedMessage.planned)] idempotency tables
        (match stored.1 with
          | .ok (.stored _) => .stored
          | .ok (.replayed _) => .replayed
          | .ok .conflict => .conflict
          | .error error => .failed error, stored.2)

end PgMessageSink

end Camelmailer.Db
