import Mathlib.Data.Rat.Init
import Mathlib.Algebra.Order.Ring.Rat
import Camelmailer.Api.Handler
import Camelmailer.Requests
import Camelmailer.Worker.MessageTables

/-!
# What workers do with the queue

`process_next` takes up a row of the queue, loads its message, and delivers it. An outgoing message
goes to the server of its recipient. An incoming message is inspected, read as a report or as a
notification, or posted to the endpoint of its route. Beside the workers there are the requests
that store messages, those that put a message back into the queue, and retention.

Each of them asks the database one question after another, and any number of them are under way. A
worker that dies is one that is not continued. The contents of messages are read by functions that
are left open, and so are the servers, endpoints and inspectors outside.
-/

namespace Camelmailer.Worker

open Utf8 Db Requests

/-- The error of a question to the database. -/
abbrev Fault := Text

/-! ## What is read of messages -/

/-- `arf::FeedbackReport`, as far as it is used. -/
structure FeedbackReport where
  feedbackType : Text
  complaint : Text
deriving DecidableEq

/-- `FeedbackComplaintOutcome`. -/
inductive ComplaintOutcome where
  | recorded (messageId : Option Nat) (address : Text) (suppressed : Bool)
  | notMatched
deriving DecidableEq

/-- A DMARC report as it has been stored. -/
structure StoredReport where
  domain : Text
  id : Nat
  records : Nat
deriving DecidableEq

/-- The readers of messages and of answers. -/
structure Functions where
  isFeedbackReport : Bytes → Bool
  extractFeedback : Bytes → Except Text FeedbackReport
  extractReport : Bytes → Except Text Text
  isFailedNotification : Bytes → Bool
  classifyNotification : Bytes → BounceCategory
  originalTokens : Bytes → List Text
  classifyResponse : Text → BounceCategory

/-- The configuration of a worker. -/
structure Settings where
  staleLockDays : Nat
  maximumDeliveryAttempts : Nat
  rspamd : Bool
  clamav : Bool
  spamThreshold : Rat
  spamFailureThreshold : Rat
  returnPathDomain : Option Text

/-- For how long a lock is kept. -/
def Settings.lockWindow (settings : Settings) : Int := hours (24 * max 1 settings.staleLockDays)

/-! ## Questions -/

inductive SendOutcome where
  | sent (response : Text) (tls : Bool)
  | softFail (response : Text)
  | hardFail (response : Text)
deriving DecidableEq

inductive ProcessOutcome where
  | delivered (response : Text)
  | delayed (response : Text)
  | failed (response : Text)
  | held
  | routed
  | dmarcReportIngested
  | feedbackReportIngested
  | bounceCorrelated
  | alreadyBounced
  | nothingToDo
  | messageMissing
deriving DecidableEq

/-- What is read of a route: its mode and its endpoint. -/
structure RouteTarget where
  mode : RouteMode
  endpointUrl : Option Text
deriving DecidableEq

inductive Command : Type → Type where
  | dequeue (worker : Text) : Command (Except Fault (Option QueueRow))
  /-- The message of a row with the token of its server. -/
  | loadMessage (serverId : Id) (messageId : Nat) :
      Command (Except Fault (Option (StoredMessage × Text)))
  | complete (id : Nat) : Command (Except Fault Unit)
  | retry (id attempts : Nat) : Command (Except Fault Unit)
  | addressSuppressed (serverId : Id) (address : Text) (streamId : Option Id) :
      Command (Except Fault Bool)
  /-- `apply_tracking` and the signature. -/
  | render (message : StoredMessage) : Command (Except Fault Bytes)
  | send (domain returnPath rcptTo : Text) (rawMessage : Bytes) : Command SendOutcome
  | recordOutboundDelivery (serverId : Id) (messageId queuedId : Nat) (result : DeliveryResult)
      (action : QueueAction) (event : WebhookEvent) (payload : Payload) : Command (Except Fault Bool)
  /-- The score that rspamd gives. -/
  | checkSpam (rawMessage : Bytes) : Command (Except Text Rat)
  /-- Whether clamav finds something. -/
  | scanVirus (rawMessage : Bytes) : Command (Except Text Bool)
  | recordInspection (serverId : Id) (messageId : Nat) (verdict : Verdict) :
      Command (Except Fault Unit)
  | recordDelivery (serverId : Id) (messageId : Nat) (result : DeliveryResult) :
      Command (Except Fault Bool)
  | recordFeedbackComplaint (serverId : Id) (report : FeedbackReport) :
      Command (Except Fault ComplaintOutcome)
  | storeReport (serverId : Id) (report : Text) : Command (Except Fault StoredReport)
  | correlateBounce (serverId : Id) (bounceId : Nat) (tokens : List Text)
      (category : BounceCategory) : Command (Except Fault BounceCorrelation)
  | recordUnmatchedBounce (serverId : Id) (bounceId queuedId : Nat) (category : BounceCategory) :
      Command (Except Fault Bool)
  | routeById (serverId routeId : Id) : Command (Except Fault (Option RouteTarget))
  | checkUrl (url : Text) : Command (Except Text Unit)
  /-- A message is posted to an endpoint, which answers with a status. -/
  | post (url : Text) (message : StoredMessage) : Command (Except Text Nat)
  | insertMessage (message : QueuedMessage) : Command (Except Fault Nat)
  | requeueInbound (serverId : Id) (messageId : Nat) (bypass : Bool) :
      Command (Except Fault (Option StoredMessage))
  | requeueOutbound (serverId : Id) (messageId : Nat) : Command (Except Fault OutboundRetry)
  | purgeable (serverId : Id) (cutoff : DateTime) (batch : Nat) : Command (Except Fault (List Nat))
  | purgeContent (serverId : Id) (messageId : Nat) : Command (Except Fault Unit)
  | expired (serverId : Id) (cutoff : DateTime) (batch : Nat) : Command (Except Fault (List Nat))
  | pruneReferences (serverId : Id) (ids : List Nat) : Command (Except Fault Unit)
  | pruneMessages (serverId : Id) (ids : List Nat) : Command (Except Fault Unit)

abbrev Handler : Type → Type 1 := Program Command Fault

/-- A question whose failure ends the request. -/
def ask {β : Type} (command : Command (Except Fault β)) : Handler β :=
  .send command (fun
    | .ok value => .done value
    | .error error => .stop error)

/-! ## Outgoing messages -/

section Outgoing

variable (functions : Functions) (settings : Settings) (queued : QueueRow)

/-- A result is recorded with what becomes of the row of the queue. A message that has bounced in
the meantime stays as it is. -/
def recordOutbound (message : StoredMessage) (result : DeliveryResult) (action : QueueAction)
    (event : WebhookEvent) (response : Text) (outcome : ProcessOutcome) :
    Handler ProcessOutcome := do
  let recorded ← ask (.recordOutboundDelivery message.serverId message.id queued.id result action
    event (.message message.id response))
  return if recorded then outcome else .alreadyBounced

/-- What is recorded of an answer of the server of the recipient. -/
def recordSend (message : StoredMessage) : SendOutcome → Handler ProcessOutcome
  | .sent response tls => recordOutbound queued message
      { status := .sent, details := .accepted, output := response, sentWithSsl := tls }
      .complete .messageSent response (.delivered response)
  | .softFail response =>
      if settings.maximumDeliveryAttempts ≤ queued.attempts + 1 then
        recordOutbound queued message
          { status := .hardFail, details := .exhausted, output := response,
            bounceCategory := some (functions.classifyResponse response) }
          .complete .messageDeliveryFailed response (.failed response)
      else
        recordOutbound queued message
          { status := .softFail, details := .temporary, output := response }
          (.retry queued.attempts) .messageDelayed response (.delayed response)
  | .hardFail response => recordOutbound queued message
      { status := .hardFail, details := .rejected, output := response,
        bounceCategory := some (functions.classifyResponse response) }
      .complete .messageDeliveryFailed response (.failed response)

/-- The envelope sender. -/
def returnPath (message : StoredMessage) (serverToken : Text) : Text :=
  match settings.returnPathDomain with
  | some domain => serverToken ++ '@' :: domain
  | none => message.mailFrom

def processOutgoing (message : StoredMessage) (serverToken : Text) : Handler ProcessOutcome :=
  if message.status = .bounced then do
    ask (.complete queued.id)
    return .alreadyBounced
  else do
    let suppressed ← ask (.addressSuppressed message.serverId message.rcptTo message.streamId)
    if suppressed then
      recordOutbound queued message { status := .held, details := .suppressed } .complete
        .messageHeld Details.suppressed.text .held
    else do
      let rawMessage ← ask (.render message)
      let outcome ← Program.perform (.send queued.domain (returnPath settings message serverToken)
        message.rcptTo rawMessage)
      recordSend functions settings queued message outcome

end Outgoing

/-! ## Incoming messages -/

section Incoming

variable (functions : Functions) (settings : Settings) (queued : QueueRow)

/-- The status that a score is given. -/
def spamStatusOf (score : Rat) : SpamStatus :=
  if settings.spamFailureThreshold ≤ score then .spamFailure
  else if settings.spamThreshold ≤ score then .spam
  else .notSpam

/-- The status that rspamd gives, if it is asked and answers. -/
def inspectSpam (rawMessage : Bytes) : Handler SpamStatus :=
  if settings.rspamd then
    .send (.checkSpam rawMessage) (fun
      | .ok score => .done (spamStatusOf settings score)
      | .error _ => .done .notChecked)
  else .done .notChecked

/-- Whether clamav finds something, if it is asked and answers. -/
def inspectVirus (rawMessage : Bytes) : Handler Bool :=
  if settings.clamav then
    .send (.scanVirus rawMessage) (fun
      | .ok found => .done found
      | .error _ => .done false)
  else .done false

/-- Whether a message with a verdict is to be held. -/
def Verdict.fails (verdict : Verdict) : Bool := verdict.threat || verdict.spamStatus = .spamFailure

def StoredMessage.verdict (message : StoredMessage) : Verdict := ⟨message.spamStatus, message.threat⟩

/-- `inspect`: whether the message is to be held, and the message with its verdict. -/
def inspect (message : StoredMessage) : Handler (Bool × StoredMessage) :=
  if !settings.rspamd && !settings.clamav then .done (false, message)
  else if message.inspected then .done (message.verdict.fails, message)
  else do
    let spamStatus ← inspectSpam settings message.rawMessage
    let threat ← inspectVirus settings message.rawMessage
    ask (.recordInspection message.serverId message.id ⟨spamStatus, threat⟩)
    return (Verdict.fails ⟨spamStatus, threat⟩, message.judged ⟨spamStatus, threat⟩)

/-- A delivery that has failed is tried again later, unless it has been tried often enough. -/
def retryOrFail (response : Text) : Handler ProcessOutcome :=
  if settings.maximumDeliveryAttempts ≤ queued.attempts + 1 then do
    ask (.complete queued.id)
    return .failed response
  else do
    ask (.retry queued.id queued.attempts)
    return .delayed response

/-- The row is completed, and then a delivery is recorded. -/
def completeAndRecord (message : StoredMessage) (result : DeliveryResult)
    (outcome : ProcessOutcome) : Handler ProcessOutcome := do
  ask (.complete queued.id)
  let _ ← ask (.recordDelivery message.serverId message.id result)
  return outcome

/-- What is recorded of a complaint. -/
def complaintDetails : ComplaintOutcome → Details
  | .recorded _ _ true => .complaint "spam complaint recorded for the broadcast recipient"
  | .recorded (some id) _ false =>
      .complaint ("spam complaint recorded for <msg:" ++ decimal id ++ ">")
  | .recorded none address false =>
      .complaint ("spam complaint recorded for " ++ address ++
        "; no matching message")
  | .notMatched =>
      .complaint "feedback report parsed; no matching message or recipient"

def ingestFeedbackReport (message : StoredMessage) : Handler ProcessOutcome :=
  match functions.extractFeedback message.rawMessage with
  | .error error => completeAndRecord queued message
      { status := .held, details := .unparseableFeedback, output := error } .held
  | .ok report =>
      if report.feedbackType = "abuse" then
        .send (.recordFeedbackComplaint message.serverId report) (fun
          | .ok outcome => completeAndRecord queued message
              { status := .processed, details := complaintDetails outcome } .feedbackReportIngested
          | .error error => retryOrFail settings queued
              ("could not record the feedback complaint: " ++ error))
      else completeAndRecord queued message
        { status := .processed, details := .noComplaint report.feedbackType }
        .feedbackReportIngested

/-- `Worker::correlate_bounce`: nothing, if the message is no notification of ours. -/
def correlateBounce (message : StoredMessage) : Handler (Option ProcessOutcome) :=
  if !message.bounce || !functions.isFailedNotification message.rawMessage then .done none
  else do
    let category := functions.classifyNotification message.rawMessage
    let correlation ← ask (.correlateBounce message.serverId message.id
      (functions.originalTokens message.rawMessage) category)
    match correlation with
    | .correlated _ => do
        ask (.complete queued.id)
        return some .bounceCorrelated
    | .alreadyCorrelated => do
        ask (.complete queued.id)
        return some .bounceCorrelated
    | .notMatched =>
        if message.routeId.isNone then do
          let _ ← ask (.recordUnmatchedBounce message.serverId message.id queued.id category)
          return some (.failed Details.unmatchedBounce.text)
        else return none

def ingestDmarcReport (message : StoredMessage) : Handler ProcessOutcome :=
  match functions.extractReport message.rawMessage with
  | .error error => completeAndRecord queued message
      { status := .held, details := .unparseableReport, output := error } .held
  | .ok report =>
      .send (.storeReport message.serverId report) (fun
        | .ok stored => completeAndRecord queued message
            { status := .processed,
              details := .reportStored stored.domain stored.id stored.records } .dmarcReportIngested
        | .error error => retryOrFail settings queued
            ("could not store the DMARC report: " ++ error))

/-- The endpoint of a route, if it has one. -/
def endpointOf (route : Option RouteTarget) : Option Text :=
  route.bind (fun route => if route.mode = .endpoint then route.endpointUrl else none)

/-- `DMARC_REPORTS_ENDPOINT`. -/
def dmarcReportsEndpoint : Text := "internal://dmarc-reports"

/-- The route of a message. A failure is taken for no route. -/
def routeOf (message : StoredMessage) : Handler (Option RouteTarget) :=
  match message.routeId with
  | none => .done none
  | some routeId => .send (.routeById message.serverId routeId) (fun
      | .ok route => .done route
      | .error _ => .done none)

/-- A message is posted to an endpoint that may be reached. -/
def postTo (message : StoredMessage) (url : Text) : Handler ProcessOutcome :=
  .send (.checkUrl url) (fun
    | .error error => retryOrFail settings queued
        ("route endpoint blocked by address guard: " ++ error)
    | .ok () => .send (.post url message) (fun
        | .ok status =>
            if 200 ≤ status ∧ status < 300 then do
              ask (.complete queued.id)
              return .routed
            else retryOrFail settings queued ("endpoint returned " ++ decimal status)
        | .error error => retryOrFail settings queued
            ("endpoint request failed: " ++ error)))

/-- A message is delivered to the endpoint of its route. -/
def deliverToRoute (message : StoredMessage) : Handler ProcessOutcome := do
  let route ← routeOf message
  match endpointOf route with
  | none => do
      ask (.complete queued.id)
      return .nothingToDo
  | some url =>
      if url = dmarcReportsEndpoint then ingestDmarcReport functions settings queued message
      else postTo settings queued message url

/-- What follows the inspection. -/
def handleInspected (message : StoredMessage) : Handler ProcessOutcome :=
  if functions.isFeedbackReport message.rawMessage then
    ingestFeedbackReport functions settings queued message
  else do
    let correlated ← correlateBounce functions queued message
    match correlated with
    | some outcome => return outcome
    | none => deliverToRoute functions settings queued message

/-- A message that has failed its inspection is held. -/
def holdInspected (message : StoredMessage) : Handler ProcessOutcome := do
  let _ ← ask (.recordDelivery message.serverId message.id
    { status := .held, details := .failedInspection })
  ask (.complete queued.id)
  return .held

def processIncoming (message : StoredMessage) : Handler ProcessOutcome := do
  let (fails, message) ← inspect settings message
  if fails then holdInspected queued message
  else handleInspected functions settings queued message

end Incoming

/-! ## Requests -/

/-- What workers and the API do, and one round of each kind of retention. -/
inductive Work where
  | processNext (worker : Text)
  | insertMessage (message : QueuedMessage)
  | requeueInbound (serverId : Id) (messageId : Nat) (bypass : Bool)
  | requeueOutbound (serverId : Id) (messageId : Nat)

inductive Retention where
  | purgeMessageContent (serverId : Id) (cutoff : DateTime) (batch : Nat)
  | pruneMessageMetadata (serverId : Id) (cutoff : DateTime) (batch : Nat)

inductive Reply where
  | processed (outcome : Option ProcessOutcome)
  | inserted (id : Nat)
  | requeuedInbound (record : Option StoredMessage)
  | requeuedOutbound (result : OutboundRetry)
  | removed (count : Nat)

section Requests

variable (functions : Functions) (settings : Settings)

/-- What is done with a message that has been loaded. -/
def processLoaded (queued : QueueRow) (loaded : StoredMessage × Text) : Handler ProcessOutcome :=
  match loaded.1.scope with
  | .outgoing => processOutgoing functions settings queued loaded.1 loaded.2
  | .incoming => processIncoming functions settings queued loaded.1

def processNext (worker : Text) : Handler (Option ProcessOutcome) := do
  let taken ← ask (.dequeue worker)
  match taken with
  | none => return none
  | some queued => do
      let loaded ← ask (.loadMessage queued.serverId queued.messageId)
      match loaded with
      | none => do
          ask (.complete queued.id)
          return some .messageMissing
      | some loaded => do
          let outcome ← processLoaded functions settings queued loaded
          return some outcome

/-- The content of the messages that have been selected is emptied one by one. -/
def purgeEach (serverId : Id) : List Nat → Handler Unit
  | [] => .done ()
  | id :: rest => do
      ask (.purgeContent serverId id)
      purgeEach serverId rest

/-- One round of `purge_message_content`. -/
def purgeMessageContent (serverId : Id) (cutoff : DateTime) (batch : Nat) : Handler Nat := do
  let selected ← ask (.purgeable serverId cutoff batch)
  purgeEach serverId selected
  return selected.length

/-- One round of `prune_message_metadata`. -/
def pruneMessageMetadata (serverId : Id) (cutoff : DateTime) (batch : Nat) : Handler Nat := do
  let selected ← ask (.expired serverId cutoff batch)
  ask (.pruneReferences serverId selected)
  ask (.pruneMessages serverId selected)
  return selected.length

def work : Work → Handler Reply
  | .processNext worker => do
      let outcome ← processNext functions settings worker
      return .processed outcome
  | .insertMessage message => do
      let id ← ask (.insertMessage message)
      return .inserted id
  | .requeueInbound serverId messageId bypass => do
      let record ← ask (.requeueInbound serverId messageId bypass)
      return .requeuedInbound record
  | .requeueOutbound serverId messageId => do
      let result ← ask (.requeueOutbound serverId messageId)
      return .requeuedOutbound result

def retain : Retention → Handler Reply
  | .purgeMessageContent serverId cutoff batch => do
      let count ← purgeMessageContent serverId cutoff batch
      return .removed count
  | .pruneMessageMetadata serverId cutoff batch => do
      let count ← pruneMessageMetadata serverId cutoff batch
      return .removed count

end Requests

/-! ## Answers -/

/-- What the tables do not determine: a failure of the database, which row is taken up, what is
drawn or selected, and what others answer. -/
structure Choice where
  fault : Option Fault := none
  picked : Option Nat := none
  drawn : Text := []
  selected : List Nat := []
  webhooks : List Id := []
  suppressed : Bool := false
  rendered : Bytes := []
  outcome : SendOutcome := .softFail []
  score : Except Text Rat := .error []
  infected : Except Text Bool := .error []
  complaint : ComplaintOutcome := .notMatched
  report : StoredReport := ⟨[], 0, 0⟩
  route : Option RouteTarget := none
  reachable : Except Text Unit := .ok ()
  posted : Except Text Nat := .error []

/-- A transaction that can fail, and then has not happened. -/
def transacted {β : Type} (fault : Option Fault) (effect : β × Tables) (tables : Tables) :
    Except Fault β × Tables :=
  match fault with
  | some error => (.error error, tables)
  | none => (.ok effect.1, effect.2)

/-- A transaction has failed without an effect, or its effect has happened. -/
theorem transacted_cases {β : Type} {fault : Option Fault} {effect : β × Tables}
    {tables after : Tables} {answer : Except Fault β}
    (tried : transacted fault effect tables = (answer, after)) :
    (∃ error, answer = .error error ∧ after = tables) ∨
      (answer = .ok effect.1 ∧ after = effect.2) := by
  cases fault with
  | some error =>
      obtain ⟨rfl, rfl⟩ := Prod.mk.inj tried
      exact .inl ⟨error, rfl, rfl⟩
  | none =>
      obtain ⟨rfl, rfl⟩ := Prod.mk.inj tried
      exact .inr ⟨rfl, rfl⟩

/-- The answer to a command. -/
def respond (settings : Settings) (choice : Choice) {β : Type} (command : Command β)
    (tables : Tables) : β × Tables :=
  match command with
  | .dequeue worker =>
      transacted choice.fault (tables.dequeue worker settings.lockWindow choice.picked) tables
  | .loadMessage serverId messageId => transacted choice.fault
      ((tables.message serverId messageId).map (fun message => (message, choice.drawn)), tables)
      tables
  | .complete id => transacted choice.fault ((), tables.completeMessage id none) tables
  | .retry id attempts => transacted choice.fault ((), tables.retryMessage id attempts none) tables
  | .addressSuppressed _ _ _ => transacted choice.fault (choice.suppressed, tables) tables
  | .render _ => transacted choice.fault (choice.rendered, tables) tables
  | .send _ _ _ _ => (choice.outcome, tables)
  | .recordOutboundDelivery serverId messageId queuedId result action event payload =>
      transacted choice.fault (tables.recordOutboundDelivery serverId messageId queuedId result
        action event payload choice.webhooks) tables
  | .checkSpam _ => (choice.score, tables)
  | .scanVirus _ => (choice.infected, tables)
  | .recordInspection serverId messageId verdict =>
      transacted choice.fault ((), tables.recordInspection serverId messageId verdict) tables
  | .recordDelivery serverId messageId result =>
      transacted choice.fault (tables.recordDelivery serverId messageId result) tables
  | .recordFeedbackComplaint _ _ => transacted choice.fault (choice.complaint, tables) tables
  | .storeReport _ _ => transacted choice.fault (choice.report, tables) tables
  | .correlateBounce serverId bounceId tokens category => transacted choice.fault
      (tables.correlateBounce serverId bounceId tokens category choice.webhooks) tables
  | .recordUnmatchedBounce serverId bounceId queuedId category => transacted choice.fault
      (tables.recordUnmatchedBounce serverId bounceId queuedId category) tables
  | .routeById _ _ => transacted choice.fault (choice.route, tables) tables
  | .checkUrl _ => (choice.reachable, tables)
  | .post _ _ => (choice.posted, tables)
  | .insertMessage message =>
      transacted choice.fault (tables.insertMessage message choice.drawn) tables
  | .requeueInbound serverId messageId bypass =>
      transacted choice.fault (tables.requeueInbound serverId messageId bypass) tables
  | .requeueOutbound serverId messageId =>
      transacted choice.fault (tables.requeueOutbound serverId messageId) tables
  | .purgeable serverId cutoff batch => transacted choice.fault
      (tables.purgeable serverId cutoff batch choice.selected, tables) tables
  | .purgeContent serverId messageId =>
      transacted choice.fault ((), tables.purgeContent serverId messageId) tables
  | .expired serverId cutoff batch => transacted choice.fault
      (tables.expired serverId cutoff batch choice.selected, tables) tables
  | .pruneReferences serverId ids =>
      transacted choice.fault ((), tables.pruneReferences serverId ids) tables
  | .pruneMessages serverId ids =>
      transacted choice.fault ((), tables.pruneMessages serverId ids) tables

/-- Time goes by. -/
structure Elapsed where
  duration : Nat

/-- Workers and the API over the database. -/
def delivery (functions : Functions) (settings : Settings) :
    Service Tables Work Choice Elapsed Command Fault Reply where
  handler := work functions settings
  execute choice _ command tables := some (respond settings choice command tables)
  disturb elapsed tables := some { tables with now := tables.now + elapsed.duration }

/-- The same with retention. -/
def operation (functions : Functions) (settings : Settings) :
    Service Tables (Work ⊕ Retention) Choice Elapsed Command Fault Reply where
  handler
    | .inl call => work functions settings call
    | .inr round => retain round
  execute choice _ command tables := some (respond settings choice command tables)
  disturb elapsed tables := some { tables with now := tables.now + elapsed.duration }

abbrev Delivering := State Tables Work Command Fault Reply

abbrev DeliveryEvent := Event Tables Work Choice Elapsed Command Fault Reply

abbrev Operating := State Tables (Work ⊕ Retention) Command Fault Reply

abbrev OperationEvent := Event Tables (Work ⊕ Retention) Choice Elapsed Command Fault Reply

/-! ## An installation -/

/-- An installation that delivers what it can and reads no reports. -/
def exampleFunctions : Functions where
  isFeedbackReport _ := false
  extractFeedback _ := .error []
  extractReport _ := .error []
  isFailedNotification _ := true
  classifyNotification _ := .hard
  originalTokens _ := ["original"]
  classifyResponse _ := .undetermined

def exampleSettings : Settings where
  staleLockDays := 1
  maximumDeliveryAttempts := 2
  rspamd := true
  clamav := false
  spamThreshold := 5
  spamFailureThreshold := 20
  returnPathDomain := none

/-- A message to one recipient. -/
def exampleMessage (scope : MessageScope) (rcptTo : Text) : QueuedMessage where
  serverId := 1
  rcptTo := rcptTo
  mailFrom := "s@a.example"
  rawMessage := []
  receivedWithSsl := true
  scope := scope
  bounce := false
  domainId := none
  credentialId := none
  routeId := none
  tag := none
  metadata := none
  streamId := none

/-- The row of the queue for a message. -/
def exampleRow : QueueRow where
  id := 1
  messageId := 1
  serverId := 1
  domain := "b.example"
  bulk := false

end Camelmailer.Worker
