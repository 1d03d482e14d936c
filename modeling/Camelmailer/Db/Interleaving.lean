import Camelmailer.Db.Program
import Camelmailer.Db.Storing
import Camelmailer.Machine

/-!
# Send operations that run at the same time

Any number of calls of `store_send_operation` are under way, and their statements follow one
another in any order. A transaction reads what has been committed together with its own
writes, and its writes reach the others when it commits. Inserting the record of a request
waits while another transaction has inserted one under the same key and has not ended; once
that has committed, nothing is inserted.

The commands of a call are those of the transaction in `PgStore`: answered in one go they
are that transaction.
-/

namespace Camelmailer.Db

open Utf8

/-! ## The commands -/

/-- The statements of a send operation, with what each of them returns. -/
inductive Command : Type → Type where
  | setTenantContext : Command Unit
  | deleteExpiredRequest (now : DateTime) (serverId : Id) (request : IdempotencyRequest) :
      Command Unit
  | selectRequest (serverId : Id) (request : IdempotencyRequest) : Command (Option IdempotencyRow)
  | insertUnsubscribeToken (position : Nat) (serverId : Id) (token : PendingUnsubscribeToken) :
      Command Unit
  | insertMessage (position : Nat) (token : Text) (message : QueuedMessage) : Command Nat
  | enqueueMessage (position messageId : Nat) (message : QueuedMessage) : Command Unit
  | countServerSend (position : Nat) (day : Int) (serverId : Id) : Command Unit
  | countOrganizationSend (position : Nat) (month : Int) (serverId : Id) : Command Unit
  | insertRequest (serverId : Id) (request : IdempotencyRequest)
      (response : SendOperationResult) : Command Nat

/-- The record of a completed request. -/
def requestRow (serverId : Id) (request : IdempotencyRequest) (response : SendOperationResult) :
    IdempotencyRow where
  serverId := serverId
  keyHash := request.keyHash
  requestHash := request.requestHash
  operation := request.operation
  response := .ok response
  expiresAt := request.expiresAt

/-- The row of a message that gets an id. -/
def messageRow (platform : Platform) (token : Text) (message : QueuedMessage) (id : Nat) :
    MessageRow where
  id := id
  token := token
  message := message
  subject := headerValue platform message.rawMessage "subject"
  messageIdHeader := headerValue platform message.rawMessage "message-id"
  size := message.rawMessage.length

namespace Command

/-- The name under which a statement can fail. -/
def statement {β : Type} : Command β → Statement
  | setTenantContext => .setTenantContext
  | deleteExpiredRequest _ _ _ => .deleteExpiredRequest
  | selectRequest _ _ => .selectRequest
  | insertUnsubscribeToken position _ _ => .insertUnsubscribeToken position
  | insertMessage position _ _ => .insertMessage position
  | enqueueMessage position _ _ => .enqueueMessage position
  | countServerSend position _ _ => .countServerSend position
  | countOrganizationSend position _ _ => .countOrganizationSend position
  | insertRequest _ _ _ => .insertRequest

/-- What a statement returns on the tables it sees. -/
def answer (taken : Bool) (tables : Tables) {β : Type} : Command β → β
  | setTenantContext => ()
  | deleteExpiredRequest _ _ _ => ()
  | selectRequest serverId request => (tables.selectRequest serverId request).1
  | insertUnsubscribeToken _ _ _ => ()
  | insertMessage _ _ _ => tables.nextMessageId
  | enqueueMessage _ _ _ => ()
  | countServerSend _ _ _ => ()
  | countOrganizationSend _ _ _ => ()
  | insertRequest serverId request _ =>
      if taken || tables.idempotencyRequests.any (Tables.isUnder serverId request) then 0 else 1

/-- What a statement that has been answered writes. -/
def write (platform : Platform) {β : Type} : Command β → β → Tables → Tables
  | setTenantContext, _, tables => tables
  | deleteExpiredRequest now serverId request, _, tables =>
      (tables.deleteExpiredRequest now serverId request).2
  | selectRequest _ _, _, tables => tables
  | insertUnsubscribeToken _ serverId token, _, tables =>
      (tables.insertUnsubscribeToken serverId token).2
  | insertMessage _ token message, id, tables =>
      { tables with messages := tables.messages ++ [messageRow platform token message id] }
  | enqueueMessage _ messageId message, _, tables => (tables.enqueueMessage messageId message).2
  | countServerSend _ day serverId, _, tables => (tables.countServerSend day serverId).2
  | countOrganizationSend _ month serverId, _, tables =>
      (tables.countOrganizationSend month serverId).2
  | insertRequest serverId request response, count, tables =>
      if count = 0 then tables
      else { tables with idempotencyRequests :=
        tables.idempotencyRequests ++ [requestRow serverId request response] }

/-- What a statement takes from a sequence, which no transaction gives back. -/
def draw {β : Type} : Command β → Tables → Tables
  | insertMessage _ _ _, tables => { tables with nextMessageId := tables.nextMessageId + 1 }
  | _, tables => tables

/-- A statement of a transaction that is not interrupted. -/
def effect (platform : Platform) (taken : Bool) {β : Type} (command : Command β)
    (tables : Tables) : β × Tables :=
  (command.answer taken tables,
    command.draw (command.write platform (command.answer taken tables) tables))

end Command

abbrev PgProgram : Type → Type 1 := Program Command Text

namespace PgProgram

/-! ## The transaction as a program -/

variable (circumstances : Circumstances)

/-- `count_server_send` and `count_organization_send` for an outgoing message. -/
def countSend (position : Nat) (message : QueuedMessage) : PgProgram Unit :=
  match message.scope with
  | .incoming => return ()
  | .outgoing => do
      Program.perform (.countServerSend position circumstances.day message.serverId)
      Program.perform (.countOrganizationSend position circumstances.month message.serverId)

def insertMessageInTx (position : Nat) (message : QueuedMessage) : PgProgram SentMessage := do
  let messageId ← Program.perform
    (.insertMessage position (circumstances.token position) message)
  Program.perform (.enqueueMessage position messageId message)
  countSend circumstances position message
  return ⟨messageId, circumstances.token position, message.rcptTo⟩

def storePlanned (serverId : Id) (position : Nat) (planned : SendPlanMessage) :
    PgProgram SentMessage :=
  if planned.message.serverId ≠ serverId then
    .stop "send operation crossed server boundary"
  else match planned.unsubscribeToken with
    | none => insertMessageInTx circumstances position planned.message
    | some token => do
        Program.perform (.insertUnsubscribeToken position serverId token)
        insertMessageInTx circumstances position planned.message

def storeMessages (serverId : Id) : Nat → List SendPlanMessage → PgProgram (List SentMessage)
  | _, [] => return []
  | position, planned :: rest => do
      let sent ← storePlanned circumstances serverId position planned
      let later ← storeMessages serverId (position + 1) rest
      return sent :: later

def storePlan (serverId : Id) : Nat → List SendPlanItem → PgProgram (List SendOperationItem)
  | _, [] => return []
  | position, .messages planned :: rest => do
      let recipients ← storeMessages circumstances serverId position planned
      let items ← storePlan serverId (position + planned.length) rest
      return .success ⟨recipients.head?.map (·.id), recipients⟩ :: items
  | position, .error code message :: rest => do
      let items ← storePlan serverId position rest
      return .error code message :: items

def findRequest (serverId : Id) :
    Option IdempotencyRequest → PgProgram (Option (IdempotencyRequest × IdempotencyRow))
  | none => return none
  | some request => do
      Program.perform (.deleteExpiredRequest circumstances.now serverId request)
      let row ← Program.perform (.selectRequest serverId request)
      return row.map (request, ·)

def recordOperation (serverId : Id) (plan : List SendPlanItem) :
    Option IdempotencyRequest → PgProgram (Ending OperationEnd)
  | none => do
      let items ← storePlan circumstances serverId 0 plan
      return .commit (.stored ⟨items⟩)
  | some request => do
      let items ← storePlan circumstances serverId 0 plan
      let inserted ← Program.perform (.insertRequest serverId request ⟨items⟩)
      return if inserted = 0 then .rollback (.overtaken request) else .commit (.stored ⟨items⟩)

/-- The statements of `store_send_operation` after the transaction has begun. -/
def sendOperation (serverId : Id) (plan : List SendPlanItem)
    (idempotency : Option IdempotencyRequest) : PgProgram (Ending OperationEnd) := do
  Program.perform .setTenantContext
  match ← findRequest circumstances serverId idempotency with
  | some (request, row) => return .rollback (.recorded request row)
  | none => recordOperation circumstances serverId plan idempotency

/-! ## Answered in one go -/

/-- A transaction whose statements follow one another without interruption. -/
def inOneGo (platform : Platform) (taken : Bool) {α : Type} : PgProgram α → PgTx α :=
  Program.interpret (fun _ command => Tx.statement command.statement
    (command.effect platform taken)) (fun _ error => throw error)

variable {circumstances} {platform : Platform} {taken : Bool}

theorem inOneGo_bind {α β : Type} (program : PgProgram α) (continuation : α → PgProgram β) :
    inOneGo platform taken (program >>= continuation) =
      inOneGo platform taken program >>= fun result =>
        inOneGo platform taken (continuation result) := by
  apply Program.interpret_bind
  intro β δ error next
  rfl

theorem inOneGo_perform {α : Type} (command : Command α) :
    inOneGo platform taken (Program.perform command) =
      Tx.statement command.statement (command.effect platform taken) :=
  Program.interpret_perform command

theorem inOneGo_pure {α : Type} (result : α) :
    inOneGo platform taken (pure result) = pure result := rfl

theorem insertRequest_effect (serverId : Id) (request : IdempotencyRequest)
    (response : SendOperationResult) :
    (Command.insertRequest serverId request response).effect platform taken =
      Tables.insertRequest taken serverId request response := by
  funext tables
  unfold Command.effect Tables.insertRequest
  by_cases present : (taken || tables.idempotencyRequests.any (Tables.isUnder serverId request)) =
      true
  · simp [Command.answer, Command.write, Command.draw, present]
  · simp only [Command.answer, present]
    rfl

theorem inOneGo_countSend (position : Nat) (message : QueuedMessage) :
    inOneGo platform taken (countSend circumstances position message) =
      Db.countSend circumstances position message := by
  unfold countSend Db.countSend
  cases message.scope with
  | incoming => rfl
  | outgoing =>
      simp only [inOneGo_bind, inOneGo_perform]
      rfl

theorem inOneGo_insertMessageInTx (position : Nat) (message : QueuedMessage) :
    inOneGo platform taken (insertMessageInTx circumstances position message) =
      Db.insertMessageInTx platform circumstances position message := by
  unfold insertMessageInTx Db.insertMessageInTx
  simp only [inOneGo_bind, inOneGo_perform, inOneGo_countSend]
  rfl

theorem inOneGo_storePlanned (serverId : Id) (position : Nat) (planned : SendPlanMessage) :
    inOneGo platform taken (storePlanned circumstances serverId position planned) =
      Db.storePlanned platform circumstances serverId position planned := by
  unfold storePlanned Db.storePlanned
  split
  · rfl
  · cases planned.unsubscribeToken with
    | none => exact inOneGo_insertMessageInTx position planned.message
    | some token =>
        simp only [inOneGo_bind, inOneGo_perform, inOneGo_insertMessageInTx]
        rfl

theorem inOneGo_storeMessages (serverId : Id) (planned : List SendPlanMessage) (position : Nat) :
    inOneGo platform taken (storeMessages circumstances serverId position planned) =
      Db.storeMessages platform circumstances serverId position planned := by
  induction planned generalizing position with
  | nil => rfl
  | cons message rest ih =>
      simp only [storeMessages, Db.storeMessages, inOneGo_bind, inOneGo_storePlanned,
        ih, inOneGo_pure]

theorem inOneGo_storePlan (serverId : Id) (plan : List SendPlanItem) (position : Nat) :
    inOneGo platform taken (storePlan circumstances serverId position plan) =
      Db.storePlan platform circumstances serverId position plan := by
  induction plan generalizing position with
  | nil => rfl
  | cons item rest ih =>
      cases item with
      | messages planned =>
          simp only [storePlan, Db.storePlan, inOneGo_bind, inOneGo_storeMessages,
            ih, inOneGo_pure]
      | error code message =>
          simp only [storePlan, Db.storePlan, inOneGo_bind, ih, inOneGo_pure]

theorem inOneGo_recordOperation (serverId : Id) (plan : List SendPlanItem)
    (idempotency : Option IdempotencyRequest) :
    inOneGo platform taken (recordOperation circumstances serverId plan idempotency) =
      Db.recordOperation platform circumstances taken serverId plan idempotency := by
  cases idempotency with
  | none =>
      simp only [recordOperation, Db.recordOperation, inOneGo_bind, inOneGo_storePlan, inOneGo_pure]
  | some request =>
      simp only [recordOperation, inOneGo_bind, inOneGo_storePlan,
        inOneGo_perform, insertRequest_effect]
      rfl

/-- The statements of a call, without interruption, are the transaction of
`store_send_operation`. -/
theorem inOneGo_sendOperation (serverId : Id) (plan : List SendPlanItem)
    (idempotency : Option IdempotencyRequest) :
    inOneGo platform taken (sendOperation circumstances serverId plan idempotency) =
      Db.sendOperation platform circumstances taken serverId plan idempotency := by
  have found : inOneGo platform taken (findRequest circumstances serverId idempotency) =
      Db.findRequest circumstances serverId idempotency := by
    cases idempotency with
    | none => rfl
    | some request =>
        rfl
  unfold sendOperation Db.sendOperation
  simp only [inOneGo_bind, inOneGo_perform]
  congr 1
  funext entered
  congr 1
  funext located
  cases located with
  | none => exact inOneGo_recordOperation serverId plan idempotency
  | some pair => rfl

end PgProgram

/-! ## What a transaction has done so far -/

/-- The statements of a transaction so far, with their answers. -/
abbrev History := List (Answered Command)

/-- The row of a message that a statement has inserted. -/
def storedRow (platform : Platform) : Answered Command → Option MessageRow
  | ⟨.insertMessage _ token message, id⟩ => some (messageRow platform token message id)
  | _ => none

/-- The record of a request that a statement has inserted. -/
def recordedRow : Answered Command → Option IdempotencyRow
  | ⟨.insertRequest serverId request response, count⟩ =>
      if count = 0 then none else some (requestRow serverId request response)
  | _ => none

namespace History

def stored (platform : Platform) (history : History) : List MessageRow :=
  history.filterMap (storedRow platform)

def recorded (history : History) : List IdempotencyRow := history.filterMap recordedRow

/-- The tables as the transaction sees them. -/
def view (platform : Platform) (history : History) (tables : Tables) : Tables :=
  history.foldl (fun tables answered => answered.command.write platform answered.answer tables)
    tables

end History

theorem write_messages (platform : Platform) (answered : Answered Command) (tables : Tables) :
    (answered.command.write platform answered.answer tables).messages =
      tables.messages ++ (storedRow platform answered).toList := by
  obtain ⟨command, answer⟩ := answered
  cases command
  case insertMessage => rfl
  case insertRequest =>
    rw [Command.write]
    split <;> exact (List.append_nil _).symm
  case countOrganizationSend position month serverId =>
    unfold Command.write Tables.countOrganizationSend
    dsimp only
    split <;> exact (List.append_nil _).symm
  all_goals exact (List.append_nil _).symm

/-- What has been committed and what the transaction has stored. -/
theorem History.view_messages (platform : Platform) (history : History) (tables : Tables) :
    (history.view platform tables).messages = tables.messages ++ history.stored platform := by
  induction history generalizing tables with
  | nil => exact (List.append_nil _).symm
  | cons answered rest ih =>
      change (History.view platform rest _).messages = _
      rw [ih, write_messages]
      unfold History.stored
      cases found : storedRow platform answered <;> simp [found]

/-- A statement removes expired records only, and adds what it records. -/
theorem write_requests (platform : Platform) (answered : Answered Command) (tables : Tables)
    (row : IdempotencyRow) :
    (row ∈ (answered.command.write platform answered.answer tables).idempotencyRequests →
      row ∈ tables.idempotencyRequests ∨ recordedRow answered = some row) ∧
    ((∀ now serverId request, answered ≠ ⟨.deleteExpiredRequest now serverId request, ()⟩ ∨
        now < row.expiresAt) →
      row ∈ tables.idempotencyRequests ∨ recordedRow answered = some row →
      row ∈ (answered.command.write platform answered.answer tables).idempotencyRequests) := by
  obtain ⟨command, answer⟩ := answered
  have unrecorded {found : Option IdempotencyRow} (none : found = none) {kept : Prop}
      (either : kept ∨ found = some row) : kept := by
    rcases either with present | recorded
    · exact present
    · rw [none] at recorded
      cases recorded
  cases command
  case deleteExpiredRequest now serverId request =>
    constructor
    · intro member
      exact .inl (List.mem_filter.mp member).1
    · intro timely either
      refine List.mem_filter.mpr ⟨unrecorded rfl either, ?_⟩
      have later : now < row.expiresAt := (timely now serverId request).resolve_left (by simp)
      simp [not_le.mpr later]
  case insertRequest serverId request response =>
    change (row ∈ (if answer = 0 then _ else _ : Tables).idempotencyRequests → _ ∨
      (if answer = 0 then none else some _) = some row) ∧ (_ → _ ∨
      (if answer = 0 then none else some _) = some row → row ∈
        (if answer = 0 then _ else _ : Tables).idempotencyRequests)
    split
    · exact ⟨.inl, fun _ either => unrecorded rfl either⟩
    · constructor
      · intro member
        rcases List.mem_append.mp member with earlier | new
        · exact .inl earlier
        · exact .inr (congrArg some (List.mem_singleton.mp new).symm)
      · rintro - (earlier | new)
        · exact List.mem_append_left _ earlier
        · cases new
          exact List.mem_append_right _ (List.mem_singleton_self _)
  case countOrganizationSend position month serverId =>
    have kept : ((Command.countOrganizationSend position month serverId).write platform answer
        tables).idempotencyRequests = tables.idempotencyRequests := by
      unfold Command.write Tables.countOrganizationSend
      dsimp only
      split <;> rfl
    rw [kept]
    exact ⟨.inl, fun _ either => unrecorded rfl either⟩
  all_goals exact ⟨.inl, fun _ either => unrecorded rfl either⟩

/-- No statement of the transaction has found a row expired. -/
def History.Spares (history : History) (row : IdempotencyRow) : Prop :=
  ∀ now serverId request, ⟨.deleteExpiredRequest now serverId request, ()⟩ ∈ history →
    now < row.expiresAt

variable {history : History} {row : IdempotencyRow} {platform : Platform}

theorem History.mem_view {tables : Tables}
    (member : row ∈ (history.view platform tables).idempotencyRequests) :
    row ∈ tables.idempotencyRequests ∨ row ∈ history.recorded := by
  induction history generalizing tables with
  | nil => exact .inl member
  | cons answered rest ih =>
      rcases ih member with written | later
      · rcases (write_requests platform answered tables row).1 written with earlier | recorded
        · exact .inl earlier
        · exact .inr (List.mem_filterMap.mpr ⟨answered, List.mem_cons_self .., recorded⟩)
      · right
        obtain ⟨entry, listed, recorded⟩ := List.mem_filterMap.mp later
        exact List.mem_filterMap.mpr ⟨entry, List.mem_cons_of_mem _ listed, recorded⟩

theorem History.view_keeps {tables : Tables} (spared : history.Spares row)
    (present : row ∈ tables.idempotencyRequests ∨ row ∈ history.recorded) :
    row ∈ (history.view platform tables).idempotencyRequests := by
  induction history generalizing tables with
  | nil => exact present.resolve_right (by simp [recorded])
  | cons answered rest ih =>
      apply ih
      · intro now serverId request member
        exact spared now serverId request (List.mem_cons_of_mem _ member)
      · have written := (write_requests platform answered tables row).2 (by
          intro now serverId request
          by_cases same : answered = ⟨.deleteExpiredRequest now serverId request, ()⟩
          · exact .inr (spared now serverId request (same ▸ List.mem_cons_self ..))
          · exact .inl same)
        rcases present with earlier | recorded
        · exact .inl (written (.inl earlier))
        · obtain ⟨entry, listed, found⟩ := List.mem_filterMap.mp recorded
          rcases List.mem_cons.mp listed with rfl | later
          · exact .inl (written (.inr found))
          · exact .inr (List.mem_filterMap.mpr ⟨entry, later, found⟩)

/-- The arguments of `store_send_operation`. -/
structure SendOperation where
  serverId : Id
  plan : List SendPlanItem
  idempotency : Option IdempotencyRequest

/-- The answer to an item of a plan. -/
inductive Answering : SendPlanItem → SendOperationItem → Prop where
  | messages (planned : List SendPlanMessage) (result : StoredSendResult) :
      Answering (.messages planned) (.success result)
  | error (code text : Text) : Answering (.error code text) (.error code text)

/-- What holds when a call sends a statement: it searches and records under its own key,
and it has recorded nothing before. -/
def SendOperation.Sends (operation : SendOperation) (circumstances : Circumstances)
    (history : History) : ∀ β, Command β → Prop
  | _, .deleteExpiredRequest now _ _ => now = circumstances.now
  | _, .selectRequest serverId request => serverId = operation.serverId ∧
      operation.idempotency = some request ∧ history.recorded = []
  | _, .insertRequest serverId request _ => serverId = operation.serverId ∧
      operation.idempotency = some request ∧ history.recorded = []
  | _, _ => True

/-- What holds when the statements of a call are done. It commits with all of its messages
and the record of its request, or it has found that its key is taken, or its plan has a
message for another server. -/
def SendOperation.Ends (operation : SendOperation) (platform : Platform) (history : History) :
    Except Text (Ending OperationEnd) → Prop
  | .ok (.commit (.stored response)) =>
      (history.stored platform).map MessageRow.message = planMessages operation.plan ∧
      (history.stored platform).map MessageRow.sent = sentBy response ∧
      (∀ message ∈ planMessages operation.plan, message.serverId = operation.serverId) ∧
      List.Forall₂ Answering operation.plan response.items ∧
      history.recorded =
        (operation.idempotency.map (requestRow operation.serverId · response)).toList
  | .ok (.rollback (.recorded request row)) => operation.idempotency = some request ∧
      ⟨.selectRequest operation.serverId request, some row⟩ ∈ history
  | .ok (.rollback (.overtaken request)) => operation.idempotency = some request ∧
      ∃ response, ⟨.insertRequest operation.serverId request response, 0⟩ ∈ history
  | .error _ => ∃ message ∈ planMessages operation.plan, message.serverId ≠ operation.serverId
  | _ => False

namespace PgProgram

variable {platform : Platform} {circumstances : Circumstances} {operation : SendOperation}

/-- A part of a call has stored messages since an earlier moment, or it has stopped at a
message for another server. -/
def Stores (platform : Platform) (serverId : Id) (before : History)
    (messages : List QueuedMessage) {α : Type} (sent : α → List SentMessage) (history : History) :
    Except Text α → Prop
  | .ok result => ∃ rows, history.stored platform = before.stored platform ++ rows ∧
      rows.map MessageRow.message = messages ∧ rows.map MessageRow.sent = sent result ∧
      history.recorded = before.recorded ∧ ∀ message ∈ messages, message.serverId = serverId
  | .error _ => ∃ message ∈ messages, message.serverId ≠ serverId

theorem Stores.nil (serverId : Id) (history : History) {α : Type} (sent : α → List SentMessage)
    (result : α) (none : sent result = []) :
    Stores platform serverId history [] sent history (.ok result) := by
  refine ⟨[], (List.append_nil _).symm, rfl, ?_, rfl, by simp⟩
  rw [none]
  rfl

theorem Stores.trans {serverId : Id} {before middle history : History}
    {early late : List QueuedMessage} {α β : Type} {sentEarly : α → List SentMessage}
    {sentLate : β → List SentMessage} {first : α} {second : β}
    (start : Stores platform serverId before early sentEarly middle (.ok first))
    (rest : Stores platform serverId middle late sentLate history (.ok second)) :
    ∃ rows, history.stored platform = before.stored platform ++ rows ∧
      rows.map MessageRow.message = early ++ late ∧
      rows.map MessageRow.sent = sentEarly first ++ sentLate second ∧
      history.recorded = before.recorded ∧
      ∀ message ∈ early ++ late, message.serverId = serverId := by
  obtain ⟨rows, stored, messages, named, kept, own⟩ := start
  obtain ⟨more, storedMore, messagesMore, namedMore, keptMore, ownMore⟩ := rest
  refine ⟨rows ++ more, ?_, ?_, ?_, keptMore.trans kept, List.forall_mem_append.mpr ⟨own, ownMore⟩⟩
  · rw [storedMore, stored, List.append_assoc]
  · rw [List.map_append, messages, messagesMore]
  · rw [List.map_append, named, namedMore]

theorem insertMessageInTx_safe (position : Nat) (message : QueuedMessage) (history : History)
    (own : message.serverId = operation.serverId) :
    Program.Safe (operation.Sends circumstances)
      (Stores platform operation.serverId history [message] ([·]))
      (insertMessageInTx circumstances position message) history := by
  have finished (messageId : Nat) (later : History)
      (stored : later.stored platform = history.stored platform ++
        [messageRow platform (circumstances.token position) message messageId])
      (kept : later.recorded = history.recorded) :
      Stores platform operation.serverId history [message] ([·]) later
        (.ok ⟨messageId, circumstances.token position, message.rcptTo⟩) :=
    ⟨_, stored, rfl, rfl, kept, by simpa using own⟩
  unfold insertMessageInTx countSend
  refine ⟨trivial, fun messageId => ⟨trivial, fun _ => ?_⟩⟩
  cases message.scope with
  | incoming =>
      apply finished
      · simp [History.stored, storedRow]
      · simp [History.recorded, recordedRow]
  | outgoing =>
      refine ⟨trivial, fun _ => ⟨trivial, fun _ => ?_⟩⟩
      apply finished
      · simp [History.stored, storedRow]
      · simp [History.recorded, recordedRow]

theorem storePlanned_safe (position : Nat) (planned : SendPlanMessage) (history : History) :
    Program.Safe (operation.Sends circumstances)
      (Stores platform operation.serverId history [planned.message] ([·]))
      (storePlanned circumstances operation.serverId position planned) history := by
  unfold storePlanned
  by_cases foreign : planned.message.serverId ≠ operation.serverId
  · rw [if_pos foreign]
    exact ⟨planned.message, List.mem_singleton_self _, foreign⟩
  · rw [if_neg foreign]
    have own := not_not.mp foreign
    cases planned.unsubscribeToken with
    | none => exact insertMessageInTx_safe position planned.message history own
    | some token =>
        refine ⟨trivial, fun _ => ?_⟩
        apply (insertMessageInTx_safe position planned.message _ own).weaken
        intro later result stored
        cases result with
        | error error => exact stored
        | ok sent =>
            obtain ⟨rows, added, messages, named, kept, served⟩ := stored
            refine ⟨rows, ?_, messages, named, ?_, served⟩
            · rw [added]
              simp [History.stored, storedRow]
            · rw [kept]
              simp [History.recorded, recordedRow]

theorem storeMessages_safe (planned : List SendPlanMessage) (position : Nat) (history : History) :
    Program.Safe (operation.Sends circumstances)
      (Stores platform operation.serverId history (planned.map SendPlanMessage.message) id)
      (storeMessages circumstances operation.serverId position planned) history := by
  induction planned generalizing position history with
  | nil => exact Stores.nil _ history id [] rfl
  | cons first rest ih =>
      apply (storePlanned_safe position first history).bind
      · intro middle sent stored
        apply (ih (position + 1) middle).bind
        · intro later others storedRest
          exact stored.trans storedRest
        · rintro later error ⟨message, member, foreign⟩
          exact ⟨message, List.mem_cons_of_mem _ member, foreign⟩
      · rintro later error ⟨message, member, foreign⟩
        obtain rfl := List.mem_singleton.mp member
        exact ⟨first.message, List.mem_cons_self .., foreign⟩

theorem storePlan_safe (plan : List SendPlanItem) (position : Nat) (history : History) :
    Program.Safe (operation.Sends circumstances)
      (Stores platform operation.serverId history (planMessages plan) (fun items => sentBy ⟨items⟩))
      (storePlan circumstances operation.serverId position plan) history := by
  induction plan generalizing position history with
  | nil => exact Stores.nil _ history _ [] rfl
  | cons item rest ih =>
      cases item with
      | messages planned =>
          apply (storeMessages_safe planned position history).bind
          · intro middle recipients stored
            apply (ih (position + planned.length) middle).bind
            · intro later items storedRest
              exact stored.trans storedRest
            · rintro later error ⟨message, member, foreign⟩
              exact ⟨message, List.mem_append_right _ member, foreign⟩
          · rintro later error ⟨message, member, foreign⟩
            exact ⟨message, List.mem_append_left _ member, foreign⟩
      | error code text =>
          apply (ih position history).bind
          · intro later items stored
            exact stored
          · intro later error stopped
            exact stopped

/-- Every item of a plan is answered in its place. -/
theorem storePlan_answers (plan : List SendPlanItem) (position : Nat) (history : History) :
    Program.Safe (operation.Sends circumstances)
      (fun _ result => ∀ items, result = .ok items → List.Forall₂ Answering plan items)
      (storePlan circumstances operation.serverId position plan) history := by
  induction plan generalizing position history with
  | nil =>
      intro items same
      cases same
      exact .nil
  | cons item rest ih =>
      cases item with
      | messages planned =>
          apply (@storeMessages_safe .ascii circumstances operation planned position history).bind
          · intro middle recipients stored
            apply (ih (position + planned.length) middle).bind
            · intro later items answered all same
              cases same
              exact .cons (.messages ..) (answered items rfl)
            · intro later error answered items same
              cases same
          · intro later error stopped items same
            cases same
      | error code text =>
          apply (ih position history).bind
          · intro later items answered all same
            cases same
            exact .cons (.error code text) (answered items rfl)
          · intro later error answered items same
            cases same

theorem recordOperation_safe (history : History) (unstored : history.stored platform = [])
    (unrecorded : history.recorded = []) :
    Program.Safe (operation.Sends circumstances) (operation.Ends platform)
      (recordOperation circumstances operation.serverId operation.plan operation.idempotency)
      history := by
  cases given : operation.idempotency with
  | none =>
      apply ((storePlan_safe operation.plan 0 history).and (storePlan_answers ..)).bind
      · rintro later items ⟨⟨rows, added, messages, named, kept, own⟩, answered⟩
        rw [unstored] at added
        refine ⟨added ▸ messages, added ▸ named, own, answered items rfl, ?_⟩
        rw [kept, unrecorded, given]
        rfl
      · rintro later error ⟨stopped, -⟩
        exact stopped
  | some request =>
      apply ((storePlan_safe operation.plan 0 history).and (storePlan_answers ..)).bind
      · rintro later items ⟨⟨rows, added, messages, named, kept, own⟩, answered⟩
        rw [unstored, List.nil_append] at added
        rw [unrecorded] at kept
        refine ⟨⟨rfl, given, kept⟩, fun count => ?_⟩
        by_cases taken : count = 0
        · subst taken
          exact ⟨given, ⟨items⟩, List.mem_append_right _ (List.mem_singleton_self _)⟩
        · change operation.Ends platform _ (.ok (if count = 0 then _ else _))
          rw [if_neg taken]
          have same : History.stored platform (later ++
              [⟨.insertRequest operation.serverId request ⟨items⟩, count⟩]) = rows := by
            rw [← added]
            simp [History.stored, storedRow]
          refine ⟨same ▸ messages, same ▸ named, own, answered items rfl, ?_⟩
          unfold History.recorded at kept ⊢
          rw [List.filterMap_append, kept, given]
          simp [recordedRow, taken]
      · rintro later error ⟨stopped, -⟩
        exact stopped

/-- Whatever the statements of a call are answered, it ends as it should. -/
theorem sendOperation_safe (platform : Platform) (circumstances : Circumstances)
    (operation : SendOperation) :
    Program.Safe (operation.Sends circumstances) (operation.Ends platform)
      (sendOperation circumstances operation.serverId operation.plan operation.idempotency) [] := by
  refine ⟨trivial, fun _ => ?_⟩
  cases given : operation.idempotency with
  | none =>
      change Program.Safe _ _ (recordOperation circumstances operation.serverId operation.plan none)
        _
      rw [← given]
      exact recordOperation_safe _ rfl rfl
  | some request =>
      refine ⟨rfl, fun _ => ⟨⟨rfl, given, rfl⟩, fun row => ?_⟩⟩
      cases row with
      | none =>
          rw [← given]
          exact recordOperation_safe _ rfl rfl
      | some row => exact ⟨given, List.mem_append_right _ (List.mem_singleton_self _)⟩

end PgProgram

end Camelmailer.Db
