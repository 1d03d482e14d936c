import Camelmailer.Api.Send
import Camelmailer.Db.ConcurrentSends

/-!
# Repeated submissions

A submission under an idempotency key looks its key up, is prepared, and is stored; when its
preparation fails the key is looked up once more before the error is given. Over SMTP
`queue_messages` looks the key up only when the allowance does not suffice. Another
submission of the same can be stored between any two of these steps, and preparation can
fail for whatever has changed meanwhile.

The machine below runs any number of submissions over the database of concurrent sends. A
submission that is answered after the other one has been stored is given its response.
-/

namespace Camelmailer.Api

open Utf8 Db

/-! ## The handlers -/

/-- A template: the sources of its fields and its layout. -/
structure Template where
  subject : Option Text
  htmlBody : Option Text
  textBody : Option Text
  layoutId : Option Id
deriving DecidableEq

structure Layout where
  htmlWrapper : Text
  textWrapper : Option Text
deriving DecidableEq

/-- The body of a templated send request. The model is the JSON text it serializes to. -/
structure SendWithTemplate where
  message : SendMessage
  template : Option Text
  templateModel : Option Text
deriving DecidableEq

/-- The template engine. -/
structure Rendering where
  renderTemplate : Text → Text → Except Text Text
  renderInLayout : Text → Text → Text → Except Text Text

/-- What the store answers about templates. -/
structure TemplateReads where
  templateByPermalink : Text → Except Text (Option Template)
  layoutById : Id → Except Text (Option Layout)

def storageError (error : Text) : ApiError := ⟨500, "InternalServerError", error⟩

/-- A field of a template, rendered with a model. -/
def renderField (rendering : Rendering) (model : Text) :
    Option Text → Except ApiError (Option Text)
  | none => .ok none
  | some source =>
      match rendering.renderTemplate source model with
      | .ok text => .ok (some text)
      | .error error => .error (validationError ("template render failed: " ++ error))

def renderTemplateFields (rendering : Rendering) (template : Template) (model : Text) :
    Except ApiError (Option Text × Option Text × Option Text) := do
  let subject ← renderField rendering model template.subject
  let htmlBody ← renderField rendering model template.htmlBody
  let textBody ← renderField rendering model template.textBody
  return (subject, htmlBody, textBody)

/-- A body in the wrapper of a layout, if both are there. -/
def wrapBody (rendering : Rendering) (model : Text) :
    Option Text → Option Text → Except ApiError (Option Text)
  | some wrapper, some content =>
      match rendering.renderInLayout wrapper model content with
      | .ok text => .ok (some text)
      | .error error => .error (validationError ("layout render failed: " ++ error))
  | _, body => .ok body

/-- The layout of a template. One that has been deleted is ignored. -/
def findLayout (reads : TemplateReads) : Option Id → Except ApiError (Option Layout)
  | none => .ok none
  | some layoutId => (reads.layoutById layoutId).mapError storageError

def renderTemplated (rendering : Rendering) (reads : TemplateReads) (template : Template)
    (model : Text) : Except ApiError (Option Text × Option Text × Option Text) := do
  let (subject, htmlBody, textBody) ← renderTemplateFields rendering template model
  let layout ← findLayout reads template.layoutId
  let htmlBody ← wrapBody rendering model (layout.map Layout.htmlWrapper) htmlBody
  let textBody ← wrapBody rendering model (layout.bind Layout.textWrapper) textBody
  return (subject, htmlBody, textBody)

/-- The template that a request names. -/
def findTemplate (api : ApiPlatform) (reads : TemplateReads) (body : SendWithTemplate) :
    Except ApiError Template :=
  match body.template.filter (fun permalink => permalink != []) with
  | none => .error ⟨400, "ParameterMissing",
      "param is missing or the value is empty: template"⟩
  | some permalink =>
      match reads.templateByPermalink permalink with
      | .error error => .error (storageError error)
      | .ok none => .error (validationError ("Message template " ++ api.debug permalink ++
          " does not exist"))
      | .ok (some template) => .ok template

def buildTemplatedMessage (api : ApiPlatform) (rendering : Rendering) (reads : TemplateReads)
    (body : SendWithTemplate) : Except ApiError SendMessage := do
  let template ← findTemplate api reads body
  let model := body.templateModel.getD ['\x7b', '\x7d']
  let (subject, htmlBody, textBody) ← renderTemplated rendering reads template model
  return { body.message with
    subject := subject <|> body.message.subject
    htmlBody := htmlBody <|> body.message.htmlBody
    textBody := textBody <|> body.message.textBody }

def invalidKey (message : Text) : ApiError := ⟨400, "InvalidIdempotencyKey", message⟩

/-- `idempotency_request`, for the values of the key header and the serialized payload. -/
def idempotencyRequest (platform : Platform) (now : DateTime) (operation : Text)
    (normalized : Bytes) : List Bytes → Except ApiError (Option IdempotencyRequest)
  | [] => .ok none
  | _ :: _ :: _ => .error (invalidKey "Idempotency-Key must be provided only once")
  | [key] =>
      if !key.all (fun octet => 0x20 ≤ octet && octet ≤ 0x7e) then
        .error (invalidKey "Idempotency-Key must contain visible ASCII characters")
      else if key.length = 0 ∨ key.length > 256 then
        .error (invalidKey "Idempotency-Key must be between 1 and 256 characters")
      else .ok (some {
        keyHash := sha256Hex platform key
        requestHash := sha256Hex platform normalized
        operation := operation
        expiresAt := now + hours 24 })

def idempotencyConflict : ApiError := ⟨409, "InvalidIdempotentRequest",
  "The same idempotency key was used with a different request"⟩

/-- `single_send_json`, as the data it renders. -/
def singleSend (response : SendOperationResult) : Except ApiError StoredSendResult :=
  match response.items with
  | [.success send] => .ok send
  | _ => .error (storageError "invalid stored send response")

/-- `store_send_plan` followed by the rendering of a single send. -/
def storedSend : Except Text StoreSendOutcome → Except ApiError StoredSendResult
  | .error error => .error (storageError error)
  | .ok (.stored response) => singleSend response
  | .ok (.replayed response) => singleSend response
  | .ok .conflict => .error idempotencyConflict

namespace Retries

/-! ## Submissions under way -/

/-- A submission: `messages_send` or `messages_send_with_template` with the normalized payload
and what is read of it, or a batch that an SMTP session hands to `queue_messages` with the
allowance of the moment. -/
inductive Submission where
  | messagesSend (server : Server) (payload : Bytes) (body : SendMessage)
  | messagesSendWithTemplate (server : Server) (payload : Bytes) (body : SendWithTemplate)
  | queueMessages (messages : List QueuedMessage) (allowance : SendAllowance)
deriving DecidableEq

/-- The server under which a submission is recorded. -/
def Submission.serverId : Submission → Id
  | .messagesSend server _ _ => server.id
  | .messagesSendWithTemplate server _ _ => server.id
  | .queueMessages messages _ => (messages.head?.map QueuedMessage.serverId).getD 0

inductive Reply where
  | http (result : Except ApiError StoredSendResult)
  | smtp (outcome : QueueMessagesOutcome)
deriving DecidableEq

/-- A lookup that finds nothing lets a request go on, or leaves the reply it would be given
otherwise. -/
inductive Phase where
  /-- The first lookup of a request is due. -/
  | arrived
  | preparing
  /-- The last lookup is due, before the submission is refused. -/
  | refusing (reply : Reply)
  | storing
  | answered (reply : Reply)
deriving DecidableEq

structure Handler where
  submission : Submission
  /-- The values of the key header of an HTTP request. -/
  keys : List Bytes
  request : Option IdempotencyRequest
  phase : Phase
deriving DecidableEq

structure State where
  database : ConcurrentSends.State
  handlers : Nat → Option Handler

/-- What a request is prepared from: the platform, and the answers of the stores. -/
structure Preparation where
  api : ApiPlatform
  templates : TemplateReads
  reads : SendReads

/-- The messages of a submission. Those of a batch are there already. -/
def prepare (rendering : Rendering) (preparation : Preparation) :
    Submission → Except ApiError (List SendPlanMessage)
  | .messagesSend server _ body => prepareSend preparation.api preparation.reads server body 0
  | .messagesSendWithTemplate server _ body => do
      let message ← buildTemplatedMessage preparation.api rendering preparation.templates body
      prepareSend preparation.api preparation.reads server message 0
  | .queueMessages messages _ => .ok (messages.map QueuedMessage.planned)

inductive Action where
  /-- An HTTP request, with the values of its key header. -/
  | arrive (index : Nat) (submission : Submission) (keys : List Bytes) (now : DateTime)
  /-- A batch of an SMTP session. -/
  | queue (index : Nat) (messages : List QueuedMessage) (request : Option IdempotencyRequest)
      (allowance : SendAllowance) (circumstances : Circumstances)
  | lookup (index : Nat) (now : DateTime)
  /-- A lookup that fails. -/
  | fault (index : Nat) (error : Text)
  | prepare (index : Nat) (preparation : Preparation) (circumstances : Circumstances)
  /-- The result of the send operation is rendered. -/
  | answer (index : Nat)
  /-- A step of the send operation of a submission, or of another send operation. -/
  | database (action : ConcurrentSends.Action)

/-- The reply to a submission whose key has been looked up and is on record. -/
def recordedReply (response : SendOperationResult) : Submission → Reply
  | .queueMessages _ _ => .smtp .replayed
  | _ => .http (singleSend response)

/-- The reply to a submission that has been stored or found on record. -/
def storedReply (result : Except Text StoreSendOutcome) : Submission → Reply
  | .queueMessages _ _ => .smtp (match result with
      | .ok (.stored _) => .stored
      | .ok (.replayed _) => .replayed
      | .ok .conflict => .conflict
      | .error error => .failed error)
  | _ => .http (storedSend result)

/-- The reply to a submission whose key has been used for something else. -/
def conflictReply : Submission → Reply
  | .queueMessages _ _ => .smtp .conflict
  | _ => .http (.error idempotencyConflict)

def faultReply (error : Text) : Submission → Reply
  | .queueMessages _ _ => .smtp (.failed error)
  | _ => .http (.error internalError)

/-- What follows a lookup, which is `cached_send_operation` over HTTP. -/
def afterLookup (submission : Submission) (otherwise : Phase) :
    Except Text IdempotencyLookup → Phase
  | .error error => .answered (faultReply error submission)
  | .ok (.replay response) => .answered (recordedReply response submission)
  | .ok .conflict => .answered (conflictReply submission)
  | .ok .new => otherwise

/-- The lookup of a key. A submission without one finds nothing. -/
def lookupKey (now : DateTime) (tables : Tables) (handler : Handler) :
    Except Text IdempotencyLookup :=
  match handler.request with
  | none => .ok .new
  | some request => ConcurrentSends.lookup now handler.submission.serverId request tables

def State.put (state : State) (index : Nat) (handler : Handler) : State :=
  { state with handlers := Function.update state.handlers index (some handler) }

/-- Hand the messages of a submission to `store_send_operation`. -/
def State.store (platform : Platform) (state : State) (index : Nat) (handler : Handler)
    (messages : List SendPlanMessage) (circumstances : Circumstances) : Option State :=
  (ConcurrentSends.step platform state.database (.start index
    ⟨handler.submission.serverId, [.messages messages], handler.request⟩ circumstances)).map
    (fun started => State.put ⟨started.2, state.handlers⟩ index { handler with phase := .storing })

/-- The request of a submission that arrives over HTTP. -/
def arrivingRequest (platform : Platform) (now : DateTime) (keys : List Bytes) :
    Submission → Except ApiError (Option IdempotencyRequest)
  | .messagesSend _ payload _ =>
      idempotencyRequest platform now "messages.send" payload keys
  | .messagesSendWithTemplate _ payload _ =>
      idempotencyRequest platform now "messages.send_with_template" payload keys
  | .queueMessages _ _ => .ok none

def Submission.isHttp : Submission → Bool
  | .queueMessages _ _ => false
  | _ => true

/-- A step of a submission that has arrived. -/
def advance (platform : Platform) (rendering : Rendering) (state : State) (index : Nat)
    (handler : Handler) : Action → Option State
  | .lookup _ now =>
      let found := lookupKey now state.database.committed handler
      match handler.phase with
      | .arrived => some (state.put index { handler with
          phase := afterLookup handler.submission .preparing found })
      | .refusing reply => some (state.put index { handler with
          phase := afterLookup handler.submission (.answered reply) found })
      | _ => none
  | .fault _ error =>
      match handler.phase with
      | .arrived => some (state.put index { handler with
          phase := .answered (faultReply error handler.submission) })
      | .refusing _ => some (state.put index { handler with
          phase := .answered (faultReply error handler.submission) })
      | _ => none
  | .prepare _ preparation circumstances =>
      match handler.phase with
      | .preparing =>
          match prepare rendering preparation handler.submission with
          | .ok messages => state.store platform index handler messages circumstances
          | .error error => some (state.put index { handler with
              phase := .refusing (.http (.error error)) })
      | _ => none
  | .answer _ =>
      match handler.phase, (state.database.calls index).map ConcurrentSends.SendCall.status with
      | .storing, some (.returned result) => some (state.put index { handler with
          phase := .answered (storedReply result handler.submission) })
      | .storing, some (.failed error) => some (state.put index { handler with
          phase := .answered (storedReply (.error error) handler.submission) })
      | _, _ => none
  | _ => none

/-- `queue_messages` is called: an empty batch is done, one that the allowance does not allow
is looked up, and any other is stored. -/
def State.queue (platform : Platform) (state : State) (index : Nat) (handler : Handler)
    (messages : List QueuedMessage) (allowance : SendAllowance) (circumstances : Circumstances) :
    Option State :=
  match messages with
  | [] => some (state.put index { handler with phase := .answered (.smtp .stored) })
  | _ :: _ =>
      if !allowance.allows (outgoingCount messages) then
        some (state.put index { handler with
          phase := .refusing (.smtp (.limitExceeded allowance.rejectionMessage)) })
      else state.store platform index handler (messages.map QueuedMessage.planned) circumstances

/-- A submission arrives on a free index. -/
def State.enter (platform : Platform) (state : State) : Action → Option State
  | .arrive index submission keys now =>
      if submission.isHttp then
        match arrivingRequest platform now keys submission with
        | .error error => some (state.put index ⟨submission, keys, none,
            .answered (.http (.error error))⟩)
        | .ok request => some (state.put index ⟨submission, keys, request, .arrived⟩)
      else none
  | .queue index messages request allowance circumstances =>
      state.queue platform index ⟨.queueMessages messages allowance, [], request, .arrived⟩
        messages allowance circumstances
  | _ => none

/-- The submission an action belongs to. -/
def Action.index : Action → Option Nat
  | .arrive index _ _ _ => some index
  | .queue index _ _ _ _ => some index
  | .lookup index _ => some index
  | .fault index _ => some index
  | .prepare index _ _ => some index
  | .answer index => some index
  | .database _ => none

/-- A step of the database on its own. The index of a submission is not given to another
call. -/
def State.databaseStep (platform : Platform) (state : State) (action : ConcurrentSends.Action) :
    Option State :=
  match action with
  | .start index _ _ =>
      if (state.handlers index).isSome then none
      else (ConcurrentSends.step platform state.database action).map (fun stepped =>
        ⟨stepped.2, state.handlers⟩)
  | _ => (ConcurrentSends.step platform state.database action).map (fun stepped =>
      ⟨stepped.2, state.handlers⟩)

def step (platform : Platform) (rendering : Rendering) (state : State) (action : Action) :
    Option (Unit × State) :=
  (match action with
    | .database inner => state.databaseStep platform inner
    | _ => action.index.bind (fun index =>
        match state.handlers index with
        | some handler => advance platform rendering state index handler action
        | none =>
            if (state.database.calls index).isSome then none
            else state.enter platform action)).map ((), ·)

/-! ## The property -/

/-- Two requests that are the same to the store. -/
def Repeats (first second : Option IdempotencyRequest) : Prop :=
  first.map (fun request => (request.keyHash, request.requestHash, request.operation)) =
    second.map (fun request => (request.keyHash, request.requestHash, request.operation))

/-- The same submission once more: over HTTP the same body under the same key for the same
server, over SMTP the same request for recipients of the same servers. The allowance may have
changed, and so may everything that preparation reads. -/
def Handler.Same (first second : Handler) : Prop :=
  match first.submission, second.submission with
  | .messagesSend server payload _, .messagesSend again same _ =>
      server.id = again.id ∧ payload = same ∧ first.keys = second.keys
  | .messagesSendWithTemplate server payload _, .messagesSendWithTemplate again same _ =>
      server.id = again.id ∧ payload = same ∧ first.keys = second.keys
  | .queueMessages messages _, .queueMessages others _ =>
      messages.map QueuedMessage.serverId = others.map QueuedMessage.serverId ∧
        Repeats first.request second.request
  | _, _ => False

/-- The reply that a submission which has been stored before must be given. -/
def Replays (response : SendOperationResult) (handler : Handler) (reply : Reply) : Prop :=
  if handler.submission.isHttp then
    ∃ send, response.items = [.success send] ∧ reply = .http (.ok send)
  else reply = .smtp .replayed

abbrev Event := Machine.Event State Action Unit

/-- A submission is answered by this step. -/
def Answers (event : Event) (index : Nat) (handler : Handler) (reply : Reply) : Prop :=
  event.after.handlers index = some handler ∧ handler.phase = .answered reply ∧
    ∀ before, event.before.handlers index = some before → before.phase ≠ handler.phase

/-- An internal server error, or a batch that could not be stored. -/
def Reply.Fault : Reply → Prop
  | .http (.error error) => error.status = 500
  | .smtp (.failed _) => True
  | _ => False

/-- A statement for the submission has failed. -/
def Fails (event : Event) (index : Nat) : Prop :=
  (∃ error, event.input = .fault index error) ∨
    ∃ call error, event.before.database.calls index = some call ∧ call.status = .failed error

/-- A submission has been stored under a key. -/
def Stored (key : Id × Text) (state : State) (index : Nat) (handler : Handler)
    (response : SendOperationResult) : Prop :=
  ∃ call request, state.handlers index = some handler ∧ state.database.calls index = some call ∧
    ConcurrentSends.Under key call request ∧ call.status = .returned (.ok (.stored response))

/-- Everything happens before a horizon, and no request under the key expires before it. -/
def Unexpired (platform : Platform) (key : Id × Text) (horizon : DateTime) (event : Event) :
    Prop :=
  match event.input with
  | .arrive _ submission keys now => ∀ request,
      arrivingRequest platform now keys submission = .ok (some request) →
      (submission.serverId, request.keyHash) = key → horizon ≤ request.expiresAt
  | .queue _ messages request allowance circumstances => circumstances.now < horizon ∧
      ∀ given, request = some given →
        ((Submission.queueMessages messages allowance).serverId, given.keyHash) = key →
        horizon ≤ given.expiresAt
  | .lookup _ now => now < horizon
  | .prepare _ _ circumstances => circumstances.now < horizon
  | .database action => ConcurrentSends.Unexpired key horizon
      ⟨event.before.database, action, (), event.after.database⟩
  | _ => True

/-! ## The invariant -/

/-- The send operation of a submission stores its messages under its request. -/
def Linked (handler : Handler) (operation : SendOperation) : Prop :=
  ∃ messages, operation = ⟨handler.submission.serverId, [.messages messages], handler.request⟩ ∧
    match handler.submission with
    | .queueMessages queued _ => messages = queued.map QueuedMessage.planned ∧ queued ≠ []
    | submission => ∀ planned ∈ messages, planned.message.serverId = submission.serverId

/-- The request of a submission is the one it has arrived with, if it was accepted. -/
def Handler.Requested (platform : Platform) (handler : Handler) : Prop :=
  ∃ now, (arrivingRequest platform now handler.keys handler.submission).toOption.join =
    handler.request

/-- What holds in every state while nothing under the key expires. -/
structure Inv (platform : Platform) (key : Id × Text) (horizon : DateTime)
    (state : State) : Prop where
  database : ∃ winner, ConcurrentSends.Inv key horizon platform winner state.database
  lasting : ∀ index handler request, state.handlers index = some handler →
    handler.request = some request → (handler.submission.serverId, request.keyHash) = key →
    horizon ≤ request.expiresAt
  requested : ∀ index handler, state.handlers index = some handler →
    handler.submission.isHttp = true → handler.Requested platform
  linked : ∀ index handler call, state.handlers index = some handler →
    state.database.calls index = some call → Linked handler call.operation
  prepared : ∀ index handler, state.handlers index = some handler →
    handler.phase = .arrived ∨ handler.phase = .preparing → handler.submission.isHttp = true

section Steps

variable {platform : Platform} {rendering : Rendering} {key : Id × Text} {horizon : DateTime}
  {state next : State} {index : Nat} {handler : Handler} {messages : List SendPlanMessage}

/-- Prepared messages belong to the server of the submission. -/
theorem prepare_linked {preparation : Preparation} (http : handler.submission.isHttp = true)
    (prepared : prepare rendering preparation handler.submission = .ok messages) :
    Linked handler ⟨handler.submission.serverId, [.messages messages], handler.request⟩ := by
  refine ⟨messages, rfl, ?_⟩
  cases given : handler.submission with
  | messagesSend server payload body =>
      rw [given] at prepared
      exact (prepareSend_ok prepared).2
  | messagesSendWithTemplate server payload body =>
      rw [given] at prepared
      obtain ⟨message, -, rest⟩ := bind_eq_ok.mp prepared
      exact (prepareSend_ok rest).2
  | queueMessages queued allowance =>
      rw [given] at http
      cases http

variable {other : Nat}

theorem State.put_handlers {found : Handler}
    (there : (state.put index handler).handlers other = some found) :
    (other = index ∧ found = handler) ∨ state.handlers other = some found := by
  by_cases same : other = index
  · subst same
    left
    exact ⟨rfl, by simpa [State.put, eq_comm] using there⟩
  · simpa [State.put, same] using there

/-- A submission changes its phase, and nothing else happens. -/
theorem Inv.put (inv : Inv platform key horizon state)
    (lasting : ∀ request, handler.request = some request →
      (handler.submission.serverId, request.keyHash) = key → horizon ≤ request.expiresAt)
    (requested : handler.submission.isHttp = true → handler.Requested platform)
    (linked : ∀ call, state.database.calls index = some call → Linked handler call.operation)
    (prepared : handler.phase = .arrived ∨ handler.phase = .preparing →
      handler.submission.isHttp = true) :
    Inv platform key horizon (state.put index handler) := by
  refine ⟨inv.database, ?_, ?_, ?_, ?_⟩
  · intro other found request there
    rcases State.put_handlers there with ⟨rfl, rfl⟩ | old
    · exact lasting request
    · exact inv.lasting other found request old
  · intro other found there
    rcases State.put_handlers there with ⟨rfl, rfl⟩ | old
    · exact requested
    · exact inv.requested other found old
  · intro other found call there
    rcases State.put_handlers there with ⟨rfl, rfl⟩ | old
    · exact linked call
    · exact inv.linked other found call old
  · intro other found there
    rcases State.put_handlers there with ⟨rfl, rfl⟩ | old
    · exact prepared
    · exact inv.prepared other found old

variable {database : ConcurrentSends.State}

/-- A step of the database keeps the operations of the submissions. -/
theorem Inv.databaseStep {action : ConcurrentSends.Action} (inv : Inv platform key horizon state)
    (stepped : ConcurrentSends.step platform state.database action = some ((), database))
    (unexpired : ConcurrentSends.Unexpired key horizon ⟨state.database, action, (), database⟩)
    (apart : ∀ index operation circumstances handler, action = .start index operation circumstances →
      state.handlers index = some handler → Linked handler operation) :
    Inv platform key horizon ⟨database, state.handlers⟩ := by
  obtain ⟨winner, holds⟩ := inv.database
  refine ⟨(holds.step stepped unexpired).1, inv.lasting, inv.requested, ?_, inv.prepared⟩
  intro index handler call there found
  obtain ⟨before, old, same⟩ | ⟨circumstances, starts⟩ :=
    ConcurrentSends.step_operation stepped found
  · rw [same]
    exact inv.linked index handler before there old
  · exact apart index call.operation circumstances handler starts there

variable {circumstances : Circumstances}

/-- The messages of a submission are handed to the database. -/
theorem Inv.store (inv : Inv platform key horizon state)
    (lasting : ∀ request, handler.request = some request →
      (handler.submission.serverId, request.keyHash) = key → horizon ≤ request.expiresAt)
    (requested : handler.submission.isHttp = true → handler.Requested platform)
    (linked : Linked handler
      ⟨handler.submission.serverId, [.messages messages], handler.request⟩)
    (timely : circumstances.now < horizon)
    (stored : state.store platform index handler messages circumstances = some next) :
    Inv platform key horizon next := by
  obtain ⟨⟨⟨⟩, database⟩, started, rfl⟩ := Option.map_eq_some_iff.mp stored
  have fresh : state.database.calls index = none := by
    cases found : state.database.calls index with
    | none => rfl
    | some call =>
        simp [ConcurrentSends.step, ConcurrentSends.Action.index, found,
          ConcurrentSends.advance] at started
  have entered : Inv platform key horizon
      (state.put index { handler with phase := .storing }) := by
    refine inv.put lasting requested ?_ (by simp)
    intro call there
    rw [fresh] at there
    cases there
  apply entered.databaseStep started ⟨timely, lasting⟩
  intro other operation given found starts there
  cases starts
  have same : found = { handler with phase := .storing } := by
    simpa [State.put, eq_comm] using there
  rw [same]
  exact linked

/-- One more phase of a submission. -/
theorem Inv.phase {phase : Phase} (inv : Inv platform key horizon state)
    (there : state.handlers index = some handler)
    (prepared : phase = .arrived ∨ phase = .preparing → handler.submission.isHttp = true) :
    Inv platform key horizon (state.put index { handler with phase := phase }) := by
  apply inv.put
  · intro request
    exact inv.lasting index handler request there
  · exact inv.requested index handler there
  · intro call
    exact inv.linked index handler call there
  · exact prepared

variable {otherwise : Phase}

/-- Only a request that has arrived is looked up before it is prepared. -/
theorem afterLookup_prepared {submission : Submission} {found : Except Text IdempotencyLookup}
    (early : afterLookup submission otherwise found = .arrived ∨
      afterLookup submission otherwise found = .preparing) :
    otherwise = .arrived ∨ otherwise = .preparing := by
  unfold afterLookup at early
  split at early
  case h_4 => exact early
  all_goals simp at early

variable {action : Action}

theorem Inv.advance (inv : Inv platform key horizon state)
    (there : state.handlers index = some handler)
    (advanced : advance platform rendering state index handler action = some next)
    (unexpired : Unexpired platform key horizon ⟨state, action, (), next⟩) :
    Inv platform key horizon next := by
  have http := inv.prepared index handler there
  unfold Retries.advance at advanced
  split at advanced
  · split at advanced
    case h_1 arrived =>
      cases advanced
      exact inv.phase there (fun _ => http (.inl arrived))
    case h_2 reply refusing =>
      cases advanced
      apply inv.phase there
      intro early
      rcases afterLookup_prepared early with absurdity | absurdity <;> cases absurdity
    case h_3 => cases advanced
  · split at advanced <;> cases advanced <;> exact inv.phase there (by simp)
  · split at advanced
    case h_1 prepares =>
      split at advanced
      case h_1 messages prepared =>
        exact inv.store (fun request => inv.lasting index handler request there)
          (inv.requested index handler there)
          (prepare_linked (http (.inr prepares)) prepared) unexpired advanced
      case h_2 =>
        cases advanced
        exact inv.phase there (by simp)
    case h_2 => cases advanced
  · split at advanced <;> cases advanced <;> exact inv.phase there (by simp)
  · cases advanced

/-- A submission arrives. -/
theorem Inv.enter (inv : Inv platform key horizon state) (given : action.index = some index)
    (fresh : state.database.calls index = none) (entered : state.enter platform action = some next)
    (unexpired : Unexpired platform key horizon ⟨state, action, (), next⟩) :
    Inv platform key horizon next := by
  have unlinked (handler : Handler) (call : ConcurrentSends.SendCall)
      (there : state.database.calls index = some call) : Linked handler call.operation := by
    rw [fresh] at there
    cases there
  unfold State.enter at entered
  split at entered
  case h_1 other submission keys now =>
    cases given
    split at entered
    case isFalse => cases entered
    case isTrue http =>
      split at entered
      case h_1 error refused =>
        cases entered
        refine inv.put (by simp) ?_ (unlinked _) (by simp)
        intro _
        exact ⟨now, by rw [refused]; rfl⟩
      case h_2 request accepted =>
        cases entered
        refine inv.put ?_ ?_ (unlinked _) (fun _ => http)
        · rintro found rfl own
          exact unexpired found accepted own
        · intro _
          exact ⟨now, by rw [accepted]; rfl⟩
  case h_2 other messages request allowance circumstances =>
    cases given
    unfold State.queue at entered
    split at entered
    case h_1 =>
      cases entered
      exact inv.put unexpired.2 (by simp [Submission.isHttp]) (unlinked _) (by simp)
    case h_2 message rest =>
      split at entered
      case isTrue =>
        cases entered
        exact inv.put unexpired.2 (by simp [Submission.isHttp]) (unlinked _) (by simp)
      case isFalse =>
        refine inv.store unexpired.2 (by simp [Submission.isHttp]) ?_ unexpired.1 entered
        exact ⟨_, rfl, rfl, by simp⟩
  case h_3 => cases entered

/-- A step of the database leaves the submissions alone. -/
theorem databaseStep_eq {inner : ConcurrentSends.Action}
    (done : state.databaseStep platform inner = some next) :
    ∃ database, ConcurrentSends.step platform state.database inner = some ((), database) ∧
      next = ⟨database, state.handlers⟩ := by
  unfold State.databaseStep at done
  split at done
  · split at done
    · cases done
    · obtain ⟨⟨⟨⟩, database⟩, started, rfl⟩ := Option.map_eq_some_iff.mp done
      exact ⟨database, started, rfl⟩
  · obtain ⟨⟨⟨⟩, database⟩, started, rfl⟩ := Option.map_eq_some_iff.mp done
    exact ⟨database, started, rfl⟩

theorem Inv.step (inv : Inv platform key horizon state)
    (stepped : step platform rendering state action = some ((), next))
    (unexpired : Unexpired platform key horizon ⟨state, action, (), next⟩) :
    Inv platform key horizon next := by
  obtain ⟨changed, done, same⟩ := Option.map_eq_some_iff.mp stepped
  cases same
  split at done
  case h_1 inner =>
    have apart : ∀ index operation circumstances handler,
        inner = .start index operation circumstances → state.handlers index = some handler →
        Linked handler operation := by
      rintro index operation circumstances handler rfl there
      simp [State.databaseStep, there] at done
    obtain ⟨database, started, rfl⟩ := databaseStep_eq done
    exact inv.databaseStep started unexpired apart
  case h_2 =>
    obtain ⟨index, given, rest⟩ := Option.bind_eq_some_iff.mp done
    split at rest
    case h_1 handler there => exact inv.advance there rest unexpired
    case h_2 =>
      split at rest
      case isTrue => cases rest
      case isFalse free =>
        exact inv.enter given (by simpa using free) rest unexpired

/-! ## The replies -/

variable {normalized : Bytes} {now : DateTime} {keys : List Bytes}

/-- The request of a submission is made from its key and its body. Only its expiry depends on
the time. -/
theorem idempotencyRequest_repeats {later : DateTime} {operation : Text}
    {request : Option IdempotencyRequest}
    (accepted : idempotencyRequest platform now operation normalized keys = .ok request) :
    ∃ again, idempotencyRequest platform later operation normalized keys = .ok again ∧
      Repeats request again := by
  unfold idempotencyRequest at accepted ⊢
  split at accepted
  · cases accepted
    exact ⟨none, rfl, rfl⟩
  · cases accepted
  · split at accepted
    · cases accepted
    case isFalse visible =>
      rw [if_neg visible]
      split at accepted
      · cases accepted
      case isFalse bounded =>
        rw [if_neg bounded]
        cases accepted
        exact ⟨_, rfl, rfl⟩

variable {request : IdempotencyRequest}

/-- A request is kept for a day. -/
theorem idempotencyRequest_expiry {operation : Text}
    (accepted : idempotencyRequest platform now operation normalized keys = .ok (some request)) :
    request.expiresAt = now + hours 24 := by
  unfold idempotencyRequest at accepted
  split at accepted
  · cases accepted
  · cases accepted
  · split at accepted
    · cases accepted
    · split at accepted <;> cases accepted
      rfl

/-- The same body under the same keys makes the same request at any time. -/
theorem Handler.Requested.repeats {first second : Handler} (requested : first.Requested platform)
    (repeated : second.Requested platform) (operation : Text) (normalized : Bytes)
    (early : ∀ now, arrivingRequest platform now first.keys first.submission =
      idempotencyRequest platform now operation normalized first.keys)
    (late : ∀ now, arrivingRequest platform now second.keys second.submission =
      idempotencyRequest platform now operation normalized first.keys)
    (given : first.request = some request) :
    Repeats (some request) second.request := by
  obtain ⟨now, first_request⟩ := requested
  obtain ⟨later, second_request⟩ := repeated
  rw [early, given] at first_request
  rw [late] at second_request
  cases accepted : idempotencyRequest platform now operation normalized first.keys with
  | error error =>
      rw [accepted] at first_request
      cases first_request
  | ok made =>
      rw [accepted] at first_request
      obtain ⟨again, made_again, repeats⟩ := idempotencyRequest_repeats accepted
      rw [made_again] at second_request
      obtain rfl : made = some request := first_request
      obtain rfl : again = second.request := second_request
      exact repeats

/-- The same submission asks for the same, for the same server. -/
theorem Handler.Same.repeats {first second : Handler} (same : first.Same second)
    (requested : first.submission.isHttp = true → first.Requested platform)
    (repeated : second.submission.isHttp = true → second.Requested platform)
    (given : first.request = some request) :
    first.submission.isHttp = second.submission.isHttp ∧
      first.submission.serverId = second.submission.serverId ∧
      Repeats (some request) second.request := by
  unfold Handler.Same at same
  split at same
  case h_1 server payload body other again _ first_is second_is =>
    obtain ⟨owner, rfl, keys⟩ := same
    simp only [first_is, second_is, Submission.isHttp, forall_const] at requested repeated ⊢
    refine ⟨trivial, owner, requested.repeats repeated "messages.send"
      payload ?_ ?_ given⟩
    · intro now
      rw [first_is, arrivingRequest]
    · intro now
      rw [second_is, ← keys, arrivingRequest]
  case h_2 server payload body other again _ first_is second_is =>
    obtain ⟨owner, rfl, keys⟩ := same
    simp only [first_is, second_is, Submission.isHttp, forall_const] at requested repeated ⊢
    refine ⟨trivial, owner, requested.repeats repeated "messages.send_with_template"
      payload ?_ ?_ given⟩
    · intro now
      rw [first_is, arrivingRequest]
    · intro now
      rw [second_is, ← keys, arrivingRequest]
  case h_3 messages allowance others changed first_is second_is =>
    obtain ⟨servers, repeats⟩ := same
    rw [given] at repeats
    refine ⟨?_, ?_, repeats⟩
    · rw [first_is, second_is]
      rfl
    · rw [first_is, second_is]
      simp only [Submission.serverId, ← List.head?_map, servers]
  case h_4 => exact same.elim

/-- The messages of a submission that has been stored belong to its server, and those of a
repeated one do too. -/
theorem Handler.Same.own {first second : Handler} {early late : SendOperation}
    (same : first.Same second) (linked : Linked first early) (repeated : Linked second late)
    (own : ∀ message ∈ planMessages early.plan, message.serverId = early.serverId) :
    ∀ message ∈ planMessages late.plan, message.serverId = late.serverId := by
  obtain ⟨stored, rfl, early_messages⟩ := linked
  obtain ⟨messages, rfl, late_messages⟩ := repeated
  unfold Handler.Same at same
  intro message member
  simp only [planMessages, List.flatMap_cons, List.flatMap_nil, List.append_nil] at own member
  split at same
  case h_1 server payload body other again _ first_is second_is |
      h_2 server payload body other again _ first_is second_is =>
    rw [second_is] at late_messages ⊢
    obtain ⟨planned, there, rfl⟩ := List.mem_map.mp member
    exact late_messages planned there
  case h_3 queued allowance others changed first_is second_is =>
    obtain ⟨servers, -⟩ := same
    simp only [first_is] at early_messages own
    simp only [second_is] at late_messages ⊢
    obtain ⟨rfl, -⟩ := early_messages
    obtain ⟨rfl, -⟩ := late_messages
    have planned (batch : List QueuedMessage) :
        (batch.map QueuedMessage.planned).map SendPlanMessage.message = batch := by
      rw [List.map_map]
      exact List.map_id _
    rw [planned] at own member
    have named : message.serverId ∈ queued.map QueuedMessage.serverId := by
      rw [servers]
      exact List.mem_map_of_mem member
    obtain ⟨twin, there, twin_server⟩ := List.mem_map.mp named
    rw [← twin_server, own twin there]
    simp only [Submission.serverId, ← List.head?_map, servers]
  case h_4 => exact same.elim

/-- A batch that has been stored is not empty, and one that repeats it is not either. -/
theorem Handler.Same.filled {first second : Handler} {operation : SendOperation}
    (same : first.Same second) (linked : Linked first operation) (allowance : SendAllowance) :
    second.submission ≠ .queueMessages [] allowance := by
  intro empty
  obtain ⟨messages, -, stored⟩ := linked
  unfold Handler.Same at same
  rw [empty] at same
  split at same
  case h_1 second_is => cases second_is
  case h_2 second_is => cases second_is
  case h_3 queued given others changed first_is second_is =>
    cases second_is
    rw [first_is] at stored
    exact stored.2 (List.map_eq_nil_iff.mp same.1)
  case h_4 => exact same.elim

variable {response : SendOperationResult}

/-- The response to a stored submission has one item, which is a success. -/
theorem answering_single (answers : List.Forall₂ Answering [.messages messages] response.items) :
    ∃ send, response.items = [.success send] := by
  cases items : response.items with
  | nil =>
      rw [items] at answers
      cases answers
  | cons item rest =>
      rw [items] at answers
      obtain _ | ⟨single, none⟩ := answers
      cases none
      cases single with
      | messages planned send => exact ⟨send, rfl⟩

/-- What a submission that repeats a stored one meets in the database. -/
structure Repeated (horizon : DateTime) (database : ConcurrentSends.State) (index : Nat)
    (handler : Handler) (response : SendOperationResult) : Prop where
  asked : handler.request ≠ none
  filled : ∀ allowance, handler.submission ≠ .queueMessages [] allowance
  single : ∃ send, response.items = [.success send]
  recorded : ∀ now < horizon, lookupKey now database.committed handler = .ok (.replay response)
  returned : ∀ call result, database.calls index = some call → Linked handler call.operation →
    call.status = .returned result → result = .ok (.replayed response)

/-- A submission that repeats a stored one is answered from its record wherever it asks. -/
theorem Inv.repeated {first second : Nat} {stored again : Handler}
    (inv : Inv platform key horizon state) (stored_is : Stored key state first stored response)
    (other : first ≠ second) (same : stored.Same again)
    (requested : again.submission.isHttp = true → again.Requested platform) :
    Repeated horizon state.database second again response := by
  obtain ⟨call, request, there, placed, own, status⟩ := stored_is
  obtain ⟨winner, database⟩ := inv.database
  have good := database.good first call placed
  rw [status] at good
  obtain ⟨known, wins, outcome⟩ := good request own
  obtain ⟨rfl, rfl⟩ : known.index = first ∧ known.response = response := by
    unfold ConcurrentSends.Winner.outcome at outcome
    split at outcome
    case isTrue is_first => exact ⟨is_first, (StoreSendOutcome.stored.inj outcome).symm⟩
    case isFalse => split at outcome <;> cases outcome
  obtain ⟨-, -, -, winning, found, under, -, own_messages, answers⟩ := database.present known wins
  rw [placed] at found
  cases found
  have linked := inv.linked known.index stored call there placed
  obtain ⟨messages, operation, -⟩ := linked
  rw [operation] at answers
  have given : stored.request = some known.request := by
    have asked := under.1
    rwa [operation] at asked
  obtain ⟨doors, servers, repeats⟩ :=
    same.repeats (inv.requested known.index stored there) requested given
  obtain ⟨repeated, asked, hashes⟩ := Option.map_eq_some_iff.mp repeats.symm
  obtain ⟨keys, bodies, operations⟩ : repeated.keyHash = known.request.keyHash ∧
      repeated.requestHash = known.request.requestHash ∧
      repeated.operation = known.request.operation := by
    simpa using hashes
  have again_own : (again.submission.serverId, repeated.keyHash) = key := by
    rw [← servers, keys]
    have owner := under.2
    rwa [operation] at owner
  refine ⟨by simp [asked], same.filled (inv.linked known.index stored call there placed),
    answering_single answers, ?_, ?_⟩
  · intro now timely
    unfold lookupKey
    rw [asked]
    dsimp only
    rw [database.lookup timely again_own wins]
    simp [answerRequest, ConcurrentSends.Winner.row, requestRow, bodies, operations]
  · intro second_call result second_placed second_linked returned
    have second_own : ConcurrentSends.Under key second_call repeated := by
      obtain ⟨_, second_operation, -⟩ := second_linked
      rw [ConcurrentSends.Under, second_operation]
      exact ⟨asked, again_own⟩
    have good := database.good second second_call second_placed
    rw [returned] at good
    cases result with
    | ok outcome =>
        obtain ⟨winner_again, wins_again, rfl⟩ := good repeated second_own
        rw [wins] at wins_again
        cases wins_again
        simp [ConcurrentSends.Winner.outcome, other, bodies, operations]
    | error error =>
        obtain ⟨message, member, foreign⟩ := good repeated second_own
        exact absurd (same.own (inv.linked known.index stored call there placed) second_linked
          own_messages message member) foreign

/-- The reply to a submission whose lookup finds the record. -/
theorem Repeated.recordedReply_replays (repeated : Repeated horizon database index handler response) :
    Replays response handler (recordedReply response handler.submission) := by
  obtain ⟨send, single⟩ := repeated.single
  unfold Replays recordedReply
  cases handler.submission with
  | queueMessages messages allowance => simp [Submission.isHttp]
  | messagesSend server payload body => simp [Submission.isHttp, singleSend, single]
  | messagesSendWithTemplate server payload body => simp [Submission.isHttp, singleSend, single]

/-- The reply to a submission whose send operation finds the record. -/
theorem Repeated.storedReply_replays (repeated : Repeated horizon database index handler response) :
    Replays response handler (storedReply (.ok (.replayed response)) handler.submission) := by
  obtain ⟨send, single⟩ := repeated.single
  unfold Replays storedReply
  cases handler.submission with
  | queueMessages messages allowance => simp [Submission.isHttp]
  | messagesSend server payload body
  | messagesSendWithTemplate server payload body => simp [Submission.isHttp, storedSend, singleSend, single]

variable {reply : Reply} {changed : Handler}

/-- A step that leaves a submission where it was does not answer it. -/
theorem Answers.placed {event : Event} (answers : Answers event index handler reply)
    (after : event.after.handlers = (event.before.put other changed).handlers) :
    other = index ∧ handler = changed := by
  obtain ⟨there, answered, moved⟩ := answers
  rw [after] at there
  rcases State.put_handlers there with ⟨rfl, same⟩ | old
  · exact ⟨rfl, same⟩
  · exact absurd rfl (moved handler old)

/-- A submission that is handed to the database is not answered yet. -/
theorem Answers.not_storing (answers : Answers ⟨state, action, (), next⟩ index handler reply)
    (stored : state.store platform other changed messages circumstances = some next) : False := by
  obtain ⟨⟨⟨⟩, database⟩, -, rfl⟩ := Option.map_eq_some_iff.mp stored
  obtain ⟨-, same⟩ := answers.placed rfl
  have answered := answers.2.1
  rw [same] at answered
  cases answered

/-- A lookup of a repeated submission finds the record, whatever it would be answered
otherwise. -/
theorem Repeated.lookup {before : Handler}
    (repeated : Repeated horizon state.database index handler response) (timely : now < horizon)
    (answers : Answers ⟨state, action, (), state.put other { before with
      phase := afterLookup before.submission otherwise
        (lookupKey now state.database.committed before) }⟩ index handler reply) :
    Replays response handler reply := by
  obtain ⟨rfl, rfl⟩ := answers.placed rfl
  have found : lookupKey now state.database.committed before = .ok (.replay response) :=
    repeated.recorded now timely
  have answered := answers.2.1
  rw [found] at answered
  cases answered
  exact repeated.recordedReply_replays

theorem faultReply_fault (error : Text) (submission : Submission) :
    (faultReply error submission).Fault := by
  cases submission <;> simp [faultReply, Reply.Fault, internalError]

theorem storedReply_fault (error : Text) (submission : Submission) :
    (storedReply (.error error) submission).Fault := by
  cases submission <;> simp [storedReply, storedSend, Reply.Fault, storageError]

/-- A step of a repeated submission answers it with the record, unless a statement has
failed. -/
theorem Repeated.advance {before : Handler}
    (repeated : Repeated horizon state.database index handler response)
    (given : action.index = some other)
    (linked : ∀ call, state.database.calls other = some call → Linked before call.operation)
    (advanced : Retries.advance platform rendering state other before action = some next)
    (unexpired : Unexpired platform key horizon ⟨state, action, (), next⟩)
    (answers : Answers ⟨state, action, (), next⟩ index handler reply) :
    Replays response handler reply ∨ Fails ⟨state, action, (), next⟩ index ∧ reply.Fault := by
  unfold Retries.advance at advanced
  split at advanced
  case h_1 now =>
    split at advanced
    · cases advanced
      exact .inl (repeated.lookup unexpired answers)
    · cases advanced
      exact .inl (repeated.lookup unexpired answers)
    · cases advanced
  case h_2 _ error =>
    cases given
    split at advanced
    case h_3 => cases advanced
    all_goals
      cases advanced
      obtain ⟨rfl, rfl⟩ := answers.placed rfl
      cases answers.2.1
      exact .inr ⟨.inl ⟨error, rfl⟩, faultReply_fault error before.submission⟩
  case h_3 _ preparation circumstances =>
    split at advanced
    · split at advanced
      · exact (answers.not_storing advanced).elim
      · cases advanced
        obtain ⟨-, same⟩ := answers.placed rfl
        have answered := answers.2.1
        rw [same] at answered
        cases answered
    · cases advanced
  case h_4 =>
    split at advanced
    case h_1 result _ status =>
      cases advanced
      obtain ⟨rfl, rfl⟩ := answers.placed rfl
      obtain ⟨call, placed, returned⟩ := Option.map_eq_some_iff.mp status
      obtain rfl := repeated.returned call result placed (linked call placed) returned
      cases answers.2.1
      exact .inl repeated.storedReply_replays
    case h_2 error _ status =>
      cases advanced
      obtain ⟨rfl, rfl⟩ := answers.placed rfl
      obtain ⟨call, placed, failed⟩ := Option.map_eq_some_iff.mp status
      cases answers.2.1
      exact .inr ⟨.inr ⟨call, error, placed, failed⟩, storedReply_fault error before.submission⟩
    case h_3 => cases advanced
  case h_5 => cases advanced

/-- A repeated submission is not answered when it arrives. -/
theorem Repeated.enter (repeated : Repeated horizon state.database index handler response)
    (entered : state.enter platform action = some next)
    (answers : Answers ⟨state, action, (), next⟩ index handler reply) : False := by
  unfold State.enter at entered
  split at entered
  case h_1 other submission keys now =>
    split at entered
    case isFalse => cases entered
    case isTrue =>
      split at entered
      all_goals
        cases entered
        obtain ⟨-, rfl⟩ := answers.placed rfl
      · exact repeated.asked rfl
      · cases answers.2.1
  case h_2 other messages request allowance circumstances =>
    unfold State.queue at entered
    split at entered
    case h_1 =>
      cases entered
      obtain ⟨-, rfl⟩ := answers.placed rfl
      exact repeated.filled allowance rfl
    case h_2 =>
      split at entered
      case isTrue =>
        cases entered
        obtain ⟨-, rfl⟩ := answers.placed rfl
        cases answers.2.1
      case isFalse => exact answers.not_storing entered
  case h_3 => cases entered

/-- A submission that is answered after one like it has been stored is given its response,
or fails with the database. -/
theorem Inv.replays {first : Nat} {stored : Handler} (inv : Inv platform key horizon state)
    (stepped : Retries.step platform rendering state action = some ((), next))
    (unexpired : Unexpired platform key horizon ⟨state, action, (), next⟩)
    (stored_is : Stored key state first stored response) (other : first ≠ index)
    (same : stored.Same handler) (answers : Answers ⟨state, action, (), next⟩ index handler reply) :
    Replays response handler reply ∨ Fails ⟨state, action, (), next⟩ index ∧ reply.Fault := by
  have requested := (inv.step stepped unexpired).requested index handler answers.1
  have repeated := inv.repeated stored_is other same requested
  obtain ⟨changed, done, step_is⟩ := Option.map_eq_some_iff.mp stepped
  cases step_is
  split at done
  case h_1 inner =>
    obtain ⟨database, -, rfl⟩ := databaseStep_eq done
    exact absurd rfl (answers.2.2 handler answers.1)
  case h_2 =>
    obtain ⟨acting, given, rest⟩ := Option.bind_eq_some_iff.mp done
    split at rest
    case h_1 before there =>
      exact repeated.advance given (fun call => inv.linked acting before call there) rest unexpired
        answers
    case h_2 =>
      split at rest
      case isTrue => cases rest
      case isFalse => exact (repeated.enter rest answers).elim

end Steps

/-! ## Runs -/

/-- The database, and no submission yet. -/
def State.initial (tables : Tables) : State where
  database := .initial tables
  handlers := fun _ => none

theorem Inv.initial (platform : Platform) {tables : Tables}
    {key : Id × Text} (horizon : DateTime)
    (fresh : ∀ row ∈ tables.idempotencyRequests, ConcurrentSends.rowKey row ≠ key) :
    Inv platform key horizon (.initial tables) := by
  refine ⟨⟨none, .initial platform horizon fresh⟩, ?_, ?_, ?_, ?_⟩
  · intro index handler request there
    cases there
  · intro index handler there
    cases there
  · intro index handler call there
    cases there
  · intro index handler there
    cases there

/-- A batch that is handed to the memory sink. -/
structure Batch where
  now : DateTime
  messages : List QueuedMessage
  request : Option IdempotencyRequest
  allowance : SendAllowance

def sinkStep (sink : MemorySink) (batch : Batch) : Option (QueueMessagesOutcome × MemorySink) :=
  let done := sink.queueMessages batch.now batch.messages batch.request batch.allowance
  some (done.2, done.1)

abbrev BatchEvent := Machine.Event MemorySink Batch QueueMessagesOutcome

/-- A batch under the same request as another one, for the same server. -/
def Batch.Same (first second : Batch) : Prop :=
  Repeats first.request second.request ∧
    first.messages.head?.map QueuedMessage.serverId =
      second.messages.head?.map QueuedMessage.serverId

/-- In the memory sink a batch that has been stored answers for itself until it expires. -/
theorem sink_replays {sink final : MemorySink} {batches : List Batch}
    {front middle back : List BatchEvent} {stored later : BatchEvent}
    {request : IdempotencyRequest}
    (ran : Machine.run sinkStep sink batches =
      some (front ++ stored :: (middle ++ later :: back), final))
    (given : stored.input.request = some request) (done : stored.output = .stored)
    (same : stored.input.Same later.input)
    (unexpired : ∀ event ∈ middle ++ [later], event.input.now < request.expiresAt) :
    later.output = .replayed ∧ later.after = later.before := by
  let key := MemorySink.cacheKey stored.input.messages request
  obtain ⟨known, stepped⟩ := Machine.run_since
    (P := fun sink => sink.idempotencyRequests key =
      some (request.requestHash, request.operation, request.expiresAt))
    (fun event stepped known timely => by
      obtain ⟨-, same⟩ := Prod.mk.inj (Option.some.inj stepped)
      rw [← same]
      exact MemorySink.queueMessages_keeps known timely) ran
    (fun stepped => by
      obtain ⟨outcome, same⟩ := Prod.mk.inj (Option.some.inj stepped)
      rw [← same]
      rw [done, given] at outcome
      rw [given]
      exact MemorySink.queueMessages_stores outcome)
    (fun event member => unexpired event (List.mem_append_left _ member))
  obtain ⟨repeats, servers⟩ := same
  rw [given] at repeats
  obtain ⟨again, asked, hashes⟩ := Option.map_eq_some_iff.mp repeats.symm
  obtain ⟨keys, bodies, operations⟩ : again.keyHash = request.keyHash ∧
      again.requestHash = request.requestHash ∧ again.operation = request.operation := by
    simpa using hashes
  have key_same : key = MemorySink.cacheKey later.input.messages again := by
    unfold key MemorySink.cacheKey
    rw [keys, servers]
  rw [key_same, ← bodies, ← operations] at known
  have replayed := MemorySink.queueMessages_replays known (unexpired later (by simp))
    later.input.allowance
  rw [sinkStep, asked, replayed] at stepped
  obtain ⟨outcome, unchanged⟩ := Prod.mk.inj (Option.some.inj stepped)
  exact ⟨outcome.symm, unchanged.symm⟩

/-- A submission that has been stored is never refused when it is repeated. In every
interleaving of submissions over HTTP and SMTP, a submission that is answered after another
one like it has been stored is given its response, or an internal error if a statement for it
has failed. In the memory sink the same holds for every sequence of batches, whatever is
allowed to be sent. -/
theorem stored_submission_never_refused (platform : Platform) (rendering : Rendering)
    (tables : Tables) (key : Id × Text) (horizon : DateTime)
    (fresh : ∀ row ∈ tables.idempotencyRequests, ConcurrentSends.rowKey row ≠ key) :
    (∀ actions events final,
      Machine.run (step platform rendering) (.initial tables) actions = some (events, final) →
      (∀ event ∈ events, Unexpired platform key horizon event) →
      ∀ event ∈ events, ∀ first second stored repeated response reply,
        Stored key event.before first stored response → first ≠ second → stored.Same repeated →
        Answers event second repeated reply →
        Replays response repeated reply ∨ Fails event second ∧ reply.Fault) ∧
    ∀ sink batches events final,
      Machine.run sinkStep sink batches = some (events, final) →
      ∀ front stored middle later back request,
        events = front ++ stored :: (middle ++ later :: back) →
        stored.input.request = some request → stored.output = .stored →
        stored.input.Same later.input →
        (∀ event ∈ middle ++ [later], event.input.now < request.expiresAt) →
        later.output = .replayed ∧ later.after = later.before := by
  constructor
  · intro actions events final ran unexpired event member first second stored repeated response
      reply stored_is other same answers
    obtain ⟨-, holds⟩ := Machine.run_invariant
      (fun _ state => Inv platform key horizon state)
      (Unexpired platform key horizon)
      (fun _ _ _ _ _ inv stepped guard => inv.step stepped guard) actions [] _ final events
      (.initial platform horizon fresh) ran unexpired
    obtain ⟨front, back, rfl⟩ := List.append_of_mem member
    obtain ⟨inv, stepped⟩ := holds front event back rfl
    exact inv.replays stepped (unexpired event member) stored_is other same answers
  · rintro sink batches events final ran front stored middle later back request rfl given done same
      unexpired
    exact sink_replays ran given done same unexpired

/-- A server without a limit. -/
def openServer : Server where
  id := 1
  organizationId := 1
  permalink := "mail"
  token := "token"
  suspended := false
  privacyMode := false
  allowSender := false
  sendLimit := none

def plainBody : SendMessage where
  sender := some ⟨none, "me@a.example"⟩
  sendTo := [⟨none, "x@y.example"⟩]
  cc := []
  bcc := []
  replyTo := []
  subject := some "a".toList
  htmlBody := none
  textBody := some "b".toList
  headers := []
  attachments := []
  tag := none
  metadata := none
  stream := none

def plainPayload : Bytes := encode
  ("\x7b\"attachments\":[],\"bcc\":[],\"cc\":[],\"from\":\"me@a.example\",\"headers\":" ++
    "\x7b\x7d,\"html_body\":null,\"metadata\":null,\"reply_to\":[],\"stream\":null," ++
    "\"subject\":\"a\",\"tag\":null,\"text_body\":\"b\",\"to\":[\"x@y.example\"]\x7d").toList

def plainKey : Bytes := encode "key"

/-- The digests of the key and of the payload. -/
def digesting : Platform where
  __ := Platform.ascii
  sha256 := fun data =>
    if data = plainKey then
      [44, 112, 225, 43, 122, 6, 70, 249, 34, 121, 244, 39, 199, 179, 142, 115, 52, 216, 229, 56,
        156, 255, 22, 122, 29, 195, 14, 115, 248, 38, 182, 131]
    else if data = plainPayload then
      [247, 2, 33, 159, 241, 152, 14, 221, 208, 221, 65, 63, 243, 247, 7, 50, 163, 250, 140, 126,
        130, 150, 140, 48, 67, 175, 17, 88, 37, 75, 208, 238]
    else []

def plainRendering : Rendering where
  renderTemplate := fun source _ => .ok source
  renderInLayout := fun wrapper _ _ => .ok wrapper

/-- The stores under a policy of the organization. -/
def underPolicy (policy : OrganizationPolicy) : Preparation where
  api := ⟨fun params => encode params.subject, fun _ => none, id, "https", "t"⟩
  templates := ⟨fun _ => .ok none, fun _ => .ok none⟩
  reads := {
    organizationPolicy := .ok policy
    organizationSendUsage := .ok 0
    sendUsage := .ok 0
    authenticatedDomain := fun _ => .ok (some 1)
    confirmedSenderAddress := fun _ => .ok false
    streamByPermalink := fun _ => .ok none
    listStreams := .ok []
    effectiveTrackDomain := .ok none
    isSubscribed := fun _ _ => .ok true
    unsubscribeToken := fun _ => "token" }

def calm : Circumstances := ⟨0, 0, 0, fun _ => "token", fun _ => none⟩

/-- A message is sent twice under one key. The organization is suspended after the first
request has been stored and before the second is prepared. -/
def suspendedRetry : List Action :=
  [.arrive 0 (.messagesSend openServer plainPayload plainBody) [plainKey] 0,
    .arrive 1 (.messagesSend openServer plainPayload plainBody) [plainKey] 0,
    .lookup 0 1, .lookup 1 1, .prepare 0 (underPolicy {}) calm] ++
  List.replicate 8 (.database (.send 0)) ++
  [.database (.finish 0), .answer 0, .prepare 1 (underPolicy { suspended := true }) calm,
    .lookup 1 2]

/-- The request of both submissions. -/
def plainRequest : IdempotencyRequest where
  keyHash := sha256Hex digesting plainKey
  requestHash := sha256Hex digesting plainPayload
  operation := "messages.send"
  expiresAt := hours 24

/-- One of the two submissions in a phase. -/
def plainHandler (phase : Phase) : Handler :=
  ⟨.messagesSend openServer plainPayload plainBody, [plainKey], some plainRequest, phase⟩

def plainSend : StoredSendResult := ⟨some 1, [⟨1, "token", "x@y.example"⟩]⟩

def suspensionError : ApiError := ⟨403, "OrganizationSuspended",
  "This organization has been suspended"⟩

/-- A bound on the times of an action, and on the expiry of its requests. -/
def Action.within (action : Action) (horizon : DateTime) : Bool :=
  match action with
  | .arrive _ _ _ now => decide (horizon ≤ now + hours 24)
  | .lookup _ now => decide (now < horizon)
  | .prepare _ _ circumstances => decide (circumstances.now < horizon)
  | .fault _ _ => true
  | .answer _ => true
  | .database (.send _) => true
  | .database (.finish _) => true
  | _ => false

theorem Action.within_unexpired {event : Event} {key : Id × Text} {horizon : DateTime}
    (bounded : event.input.within horizon = true) : Unexpired digesting key horizon event := by
  unfold Unexpired
  cases given : event.input with
  | arrive index submission keys now =>
      rw [given] at bounded
      intro request made _
      have expiry : request.expiresAt = now + hours 24 := by
        cases submission with
        | messagesSend server payload body => exact idempotencyRequest_expiry made
        | messagesSendWithTemplate server payload body => exact idempotencyRequest_expiry made
        | queueMessages messages allowance => cases made
      rw [expiry]
      exact of_decide_eq_true bounded
  | queue index messages request allowance circumstances =>
      rw [given] at bounded
      cases bounded
  | lookup index now | prepare index preparation circumstances =>
      rw [given] at bounded
      exact of_decide_eq_true bounded
  | fault index error => trivial
  | answer index => trivial
  | database action =>
      rw [given] at bounded
      cases action with
      | send index => trivial
      | finish index => trivial
      | start index operation circumstances => cases bounded
      | reread index now => cases bounded
      | fail index error => cases bounded

/-- A batch under the same request, with an allowance. -/
def plainBatch (now : DateTime) (allowance : SendAllowance) : Batch :=
  ⟨now, [⟨1, "x@y.example", "me@a.example", plainKey, false, .outgoing, false, none,
    none, none, none, none, none⟩], some plainRequest, allowance⟩

/-- The first of two batches is stored in the sink. -/
theorem sink_stores_first : ∃ stored later final,
    Machine.run sinkStep .new [plainBatch 0 .unlimited, plainBatch 1 ⟨some 0, 0, .server⟩] =
      some ([stored, later], final) ∧
    stored.output = .stored ∧ stored.input.request = some plainRequest ∧
    later.input.now < plainRequest.expiresAt ∧ stored.input.Same later.input := by
  have checked : (Machine.run sinkStep .new [plainBatch 0 .unlimited,
      plainBatch 1 ⟨some 0, 0, .server⟩]).any (fun ran =>
        ran.1.head?.any (fun stored => decide (stored.output = .stored))) = true := by
    decide
  obtain ⟨⟨events, final⟩, ran, holds⟩ := (Option.any_eq_true _ _).mp checked
  obtain ⟨outcome, middle, rest, -, ran_rest, rfl⟩ := Machine.run_cons ran
  obtain ⟨again, last, none, -, ended, rfl⟩ := Machine.run_cons ran_rest
  cases ended
  exact ⟨_, _, final, ran, of_decide_eq_true holds, rfl, (by decide : (1 : Int) < hours 24), rfl,
    rfl⟩

/-- A call that has returned what it stored. -/
def hasStored : Db.ConcurrentSends.Status → Bool
  | .returned (.ok (.stored _)) => true
  | _ => false

/-- The second request is given the response of the first, although the organization has been
suspended in between. A batch is answered from the sink although nothing more may be sent. -/
theorem suspended_retry_replayed :
    (∃ events final event response,
      Machine.run (step digesting plainRendering) (.initial .empty) suspendedRetry =
        some (events, final) ∧
      event ∈ events ∧
      event.before.handlers 1 = some (plainHandler (.refusing (.http (.error suspensionError)))) ∧
      Stored (1, plainRequest.keyHash) event.before 0
        (plainHandler (.answered (.http (.ok plainSend)))) response ∧
      Replays response (plainHandler (.answered (.http (.ok plainSend))))
        (.http (.ok plainSend))) ∧
    ∃ stored later final,
      Machine.run sinkStep .new [plainBatch 0 .unlimited, plainBatch 1 ⟨some 0, 0, .server⟩] =
        some ([stored, later], final) ∧
      stored.output = .stored ∧ later.output = .replayed := by
  have checked : (Machine.run (step digesting plainRendering) (.initial .empty)
      suspendedRetry).any (fun ran =>
        ran.1.all (fun event => event.input.within 5) && ran.1.getLast?.any (fun event =>
          decide (event.before.handlers 0 =
            some (plainHandler (.answered (.http (.ok plainSend))))) &&
          decide (event.before.handlers 1 =
            some (plainHandler (.refusing (.http (.error suspensionError))))) &&
          decide (event.after.handlers 1 =
            some (plainHandler (.answered (.http (.ok plainSend))))) &&
          (event.before.database.calls 0).any (fun call =>
            decide (call.operation.idempotency = some plainRequest) &&
            decide (call.operation.serverId = 1) && hasStored call.status))) = true := by
    decide +kernel
  obtain ⟨⟨events, final⟩, ran, holds⟩ := (Option.any_eq_true _ _).mp checked
  obtain ⟨timely, last⟩ := Bool.and_eq_true_iff.mp holds
  obtain ⟨event, is_last, facts⟩ := (Option.any_eq_true _ _).mp last
  simp only [Bool.and_eq_true, decide_eq_true_eq] at facts
  obtain ⟨⟨⟨first, before⟩, after⟩, stored⟩ := facts
  obtain ⟨call, placed, status⟩ := (Option.any_eq_true _ _).mp stored
  simp only [Bool.and_eq_true, decide_eq_true_eq] at status
  obtain ⟨⟨asked, server⟩, status⟩ := status
  unfold hasStored at status
  split at status
  case h_2 => cases status
  case h_1 response returned =>
    have member : event ∈ events := List.mem_of_getLast? is_last
    have stored_is : Stored (1, plainRequest.keyHash) event.before 0
        (plainHandler (.answered (.http (.ok plainSend)))) response :=
      ⟨call, plainRequest, first, placed, ⟨asked, by rw [server]⟩, returned⟩
    have answers : Answers event 1 (plainHandler (.answered (.http (.ok plainSend))))
        (.http (.ok plainSend)) := by
      refine ⟨after, rfl, ?_⟩
      intro found there
      rw [before] at there
      cases there
      simp [plainHandler]
    have same : (plainHandler (.answered (.http (.ok plainSend)))).Same
        (plainHandler (.answered (.http (.ok plainSend)))) := ⟨rfl, rfl, rfl⟩
    have replays := (stored_submission_never_refused digesting plainRendering .empty
      (1, plainRequest.keyHash) 5 (by simp [Tables.empty])).1 suspendedRetry events final ran
      (fun event member => Action.within_unexpired (List.all_eq_true.mp timely event member))
      event member 0 1 _ _ response _ stored_is (by decide) same answers
    refine ⟨⟨events, final, event, response, ran, member, before, stored_is,
      replays.resolve_right (by simp [Reply.Fault])⟩, ?_⟩
    obtain ⟨stored, later, sink, ran_sink, done, given, early, same⟩ := sink_stores_first
    refine ⟨stored, later, sink, ran_sink, done, ?_⟩
    refine ((stored_submission_never_refused digesting plainRendering .empty
      (1, plainRequest.keyHash) 5 (by simp [Tables.empty])).2 _ _ _ _ ran_sink [] stored [] later []
      plainRequest rfl given done same ?_).1
    intro event member
    obtain rfl := List.mem_singleton.mp member
    exact early

end Retries

end Camelmailer.Api
