import Camelmailer.Db.PgStore

/-!
# Sending over HTTP

`prepare_send` checks a send request and builds one message for each recipient, and
`messages_send` with its siblings stores what has been prepared. Every question to a store
is a step of its own, so the answers are arguments: nothing ties them to one moment.

Rendered responses are kept as the data they are rendered from.
-/

namespace Camelmailer.Api

open Utf8 Db

/-- A rendered error: HTTP status, code and message. -/
structure ApiError where
  status : Nat
  code : Text
  message : Text
deriving DecidableEq

def internalError : ApiError :=
  ⟨500, "InternalServerError", "An internal error occurred"⟩

def validationError (message : Text) : ApiError := ⟨422, "ValidationError", message⟩

structure Address where
  name : Option Text
  email : Text
deriving DecidableEq

structure AttachmentInput where
  name : Text
  contentType : Text
  dataBase64 : Text
  contentId : Option Text
deriving DecidableEq

structure Attachment where
  filename : Text
  contentType : Text
  data : Bytes
  contentId : Option Text
deriving DecidableEq

/-- The body of a send request. Metadata is the JSON text it serializes to. -/
structure SendMessage where
  sender : Option Address
  sendTo : List Address
  cc : List Address
  bcc : List Address
  replyTo : List Address
  subject : Option Text
  htmlBody : Option Text
  textBody : Option Text
  headers : List (Text × Text)
  attachments : List AttachmentInput
  tag : Option Text
  metadata : Option Text
  stream : Option Text
deriving DecidableEq

structure BuildParams where
  sender : Address
  sendTo : List Address
  cc : List Address
  bcc : List Address
  replyTo : List Address
  subject : Text
  htmlBody : Option Text
  textBody : Option Text
  headers : List (Text × Text)
  attachments : List Attachment
  messageId : Option Text
deriving DecidableEq

structure MessageStream where
  id : Id
  permalink : Text
  streamType : Text
  archived : Bool
deriving DecidableEq

/-- What the interface takes from elsewhere: the MIME writer, the padded Base64 decoder,
the debugging form of a text, and two settings of the installation. -/
structure ApiPlatform where
  buildMessage : BuildParams → Bytes
  base64Decode : Text → Option Bytes
  debug : Text → Text
  webProtocol : Text
  trackDomain : Text

/-- The answers that the stores give while a message is prepared, and the tokens drawn for
its recipients. A question can fail. -/
structure SendReads where
  organizationPolicy : Except Unit OrganizationPolicy
  organizationSendUsage : Except Unit Int
  sendUsage : Except Unit Int
  authenticatedDomain : Text → Except Unit (Option Id)
  confirmedSenderAddress : Text → Except Unit Bool
  streamByPermalink : Text → Except Unit (Option MessageStream)
  listStreams : Except Unit (List MessageStream)
  effectiveTrackDomain : Except Unit (Option Text)
  isSubscribed : Id → Text → Except Unit Bool
  unsubscribeToken : Nat → Text

/-- The answer to a question, or an internal error. -/
def asked {α : Type} (answer : Except Unit α) : Except ApiError α :=
  answer.mapError (fun _ => internalError)

/-- A computation that goes on after another one succeeds when both do. -/
theorem bind_eq_ok {ε α β : Type} {first : Except ε α} {next : α → Except ε β} {result : β} :
    first >>= next = .ok result ↔ ∃ value, first = .ok value ∧ next value = .ok result := by
  cases first with
  | error error =>
      constructor
      · intro failed
        cases failed
      · rintro ⟨value, started, -⟩
        cases started
  | ok value =>
      constructor
      · intro done
        exact ⟨value, rfl, done⟩
      · rintro ⟨other, started, done⟩
        cases started
        exact done

/-! ## The checks -/

/-- The senders and the recipients of a request. -/
def readAddresses (body : SendMessage) : Except ApiError (Address × List Address) :=
  match body.sender.filter (fun address => address.email != []) with
  | none => .error ⟨400, "ParameterMissing",
      "param is missing or the value is empty: from"⟩
  | some sender =>
      if body.sendTo.isEmpty && body.cc.isEmpty && body.bcc.isEmpty then
        .error ⟨400, "ParameterMissing",
          "param is missing or the value is empty: to"⟩
      else .ok (sender, body.sendTo ++ body.cc ++ body.bcc)

/-- The usage of an organization this month, which is only read for a limit. -/
def organizationUsage (reads : SendReads) (policy : OrganizationPolicy) : Except ApiError Int :=
  match policy.monthlySendLimit with
  | some _ => asked reads.organizationSendUsage
  | none => .ok 0

def organizationAllowance (reads : SendReads) :
    Except ApiError (OrganizationPolicy × SendAllowance) := do
  let policy ← asked reads.organizationPolicy
  let used ← organizationUsage reads policy
  return (policy, .organization policy.monthlySendLimit used)

/-- The allowance of the server itself, with the messages that wait in the same batch. -/
def serverAllowance (reads : SendReads) (server : Server) (pending : Int) :
    Except ApiError SendAllowance :=
  match server.sendLimit with
  | none => .ok .unlimited
  | some limit => do
      let used ← asked reads.sendUsage
      return .server (some limit) (used + pending)

/-- The limits of the organization and the server. -/
def checkLimits (reads : SendReads) (server : Server) (pending recipients : Int) :
    Except ApiError Unit := do
  let (policy, organization) ← organizationAllowance reads
  if policy.suspended then
    .error ⟨403, "OrganizationSuspended", match policy.suspensionReason with
      | some reason => "This organization has been suspended: " ++ reason
      | none => "This organization has been suspended"⟩
  else do
    let own ← serverAllowance reads server pending
    let allowance := own.stricter (.organization organization.limit (organization.used + pending))
    if !allowance.allows recipients then
      .error ⟨429, allowance.errorCode, allowance.rejectionMessage⟩
    else .ok ()

/-- The domain that authorises the sender, or none for a confirmed address. -/
def authorizeFrom (api : ApiPlatform) (reads : SendReads) (sender : Address) :
    Except ApiError (Option Id) :=
  match (Str.rsplitOnce '@' sender.email).map Prod.snd with
  | none => .error (validationError "From address is not a valid email")
  | some domain => do
      match ← asked (reads.authenticatedDomain domain) with
      | some domainId => return some domainId
      | none =>
          if ← asked (reads.confirmedSenderAddress sender.email) then return none
          else .error (validationError ("From domain " ++ api.debug domain ++
            " is not a verified sender for this server"))

/-- The stream of a message: its id, whether it is a broadcast stream, and its name. -/
def resolveStream (api : ApiPlatform) (reads : SendReads) (server : Server) :
    Option Text → Except ApiError (Option Id × Bool × Text)
  | some permalink => do
      match ← asked (reads.streamByPermalink permalink) with
      | some stream =>
          if stream.archived then
            .error (validationError ("Message stream " ++ api.debug permalink ++
              " is archived"))
          else return (some stream.id, stream.streamType == "broadcast", stream.permalink)
      | none => .error (validationError ("Message stream " ++ api.debug permalink ++
          " does not exist"))
  | none =>
      match server.defaultStreamId with
      | none => return (none, false, [])
      | some streamId => do
          let streams ← asked reads.listStreams
          match streams.find? (fun stream => stream.id == streamId) with
          | some stream =>
              return (some streamId, stream.streamType == "broadcast", stream.permalink)
          | none => return (some streamId, false, [])

def contentId (api : ApiPlatform) (raw : Option Text) (name : Text) :
    Except ApiError (Option Text) :=
  match raw with
  | none => .ok none
  | some raw =>
      let id := ((Str.trim raw).dropWhile (· == '<')).rdropWhile (· == '>')
      if id.isEmpty || Str.byteLen id > 250 ||
          !id.all (fun char => char.isAlphanum || ".-_@+$".toList.contains char) then
        .error (validationError ("attachment " ++ api.debug name ++
          " has an invalid content_id"))
      else .ok (some id)

def readAttachment (api : ApiPlatform) (input : AttachmentInput) : Except ApiError Attachment :=
  match api.base64Decode input.dataBase64 with
  | none => .error (validationError ("attachment " ++ api.debug input.name ++
      " has invalid base64 data"))
  | some data => do
      let id ← contentId api input.contentId input.name
      return ⟨input.name, input.contentType, data, id⟩

/-- A broadcast goes only to addresses that have opted in. -/
def checkSubscriptions (reads : SendReads) (streamId : Option Id) (isBroadcast : Bool)
    (label : Text) (recipients : List Address) : Except ApiError Unit :=
  match isBroadcast, streamId with
  | true, some streamId => recipients.forM (fun recipient => do
      if ← asked (reads.isSubscribed streamId recipient.email) then return ()
      else .error (validationError (recipient.email ++ " has not opted in to the " ++
        label ++ " stream")))
  | _, _ => .ok ()

/-! ## The messages -/

def htmlEscape (value : Text) : Text :=
  value.flatMap (fun char =>
    if char = '&' then "&amp;"
    else if char = '<' then "&lt;"
    else if char = '>' then "&gt;"
    else if char = '"' then "&quot;"
    else [char])

/-- The parameters of a broadcast to one recipient: the headers that take an opt-out, and
the footer with the link and the postal address. -/
def broadcastParams (server : Server) (trackBase trackHost token : Text) (params : BuildParams) :
    BuildParams :=
  let url := trackBase ++ "/track/u/".toList ++ token
  let address := server.broadcastPhysicalAddress
  let htmlFooter := "<div style=\"margin-top:24px;padding-top:16px;".toList ++
    "border-top:1px solid #e5e5e5;font-family:Arial,sans-serif;".toList ++
    "font-size:12px;color:#8a8a8a;\">You are receiving this because ".toList ++
    "you subscribed. <a href=\"".toList ++ url ++
    "\" style=\"color:#8a8a8a;\">Unsubscribe</a>.".toList ++
    (address.map (fun address => "<br>".toList ++ htmlEscape address)).getD [] ++ "</div>".toList
  let textFooter := "\n\n--\nUnsubscribe: ".toList ++ url ++
    (address.map (fun address => '\n' :: address)).getD []
  { params with
    headers := params.headers ++ [
      ("List-Unsubscribe".toList, "<".toList ++ url ++ ">, <mailto:unsubscribe@".toList ++
        trackHost ++ ">".toList),
      ("List-Unsubscribe-Post".toList, "List-Unsubscribe=One-Click".toList)]
    htmlBody := some ((params.htmlBody.map (· ++ htmlFooter)).getD htmlFooter)
    textBody := some ((params.textBody.map (· ++ textFooter)).getD (Str.trimStart textFooter)) }

/-- One message of a request. Only a broadcast is written for each recipient anew. -/
def planMessage (api : ApiPlatform) (reads : SendReads) (server : Server) (params : BuildParams)
    (body : SendMessage) (domainId streamId : Option Id) (isBroadcast : Bool) (position : Nat)
    (recipient : Address) : SendPlanMessage :=
  let trackHost := match reads.effectiveTrackDomain with
    | .ok (some domain) => domain
    | _ => api.trackDomain
  let trackBase := api.webProtocol ++ "://" ++ trackHost
  let token := reads.unsubscribeToken position
  { message := {
      serverId := server.id
      rcptTo := recipient.email
      mailFrom := params.sender.email
      rawMessage := api.buildMessage (if isBroadcast then
        broadcastParams server trackBase trackHost token params else params)
      receivedWithSsl := false
      scope := .outgoing
      bounce := false
      domainId := domainId
      credentialId := none
      routeId := none
      tag := body.tag
      metadata := body.metadata
      streamId := streamId }
    unsubscribeToken := if isBroadcast then some ⟨token, streamId, recipient.email⟩ else none }

/-- `prepare_send`: one message for each recipient. -/
def prepareSend (api : ApiPlatform) (reads : SendReads) (server : Server) (body : SendMessage)
    (pending : Int) : Except ApiError (List SendPlanMessage) := do
  let (sender, recipients) ← readAddresses body
  checkLimits reads server pending recipients.length
  let domainId ← authorizeFrom api reads sender
  let (streamId, isBroadcast, label) ← resolveStream api reads server body.stream
  let attachments ← body.attachments.mapM (readAttachment api)
  let params : BuildParams := {
    sender := sender
    sendTo := body.sendTo
    cc := body.cc
    bcc := body.bcc
    replyTo := body.replyTo
    subject := body.subject.getD []
    htmlBody := body.htmlBody
    textBody := body.textBody
    headers := body.headers
    attachments := attachments
    messageId := none }
  checkSubscriptions reads streamId isBroadcast label recipients
  return recipients.mapIdx (planMessage api reads server params body domainId streamId isBroadcast)

/-- What the messages of a request are built from. -/
def SendMessage.params (body : SendMessage) (sender : Address) (attachments : List Attachment) :
    BuildParams where
  sender := sender
  sendTo := body.sendTo
  cc := body.cc
  bcc := body.bcc
  replyTo := body.replyTo
  subject := body.subject.getD []
  htmlBody := body.htmlBody
  textBody := body.textBody
  headers := body.headers
  attachments := attachments
  messageId := none

variable {body : SendMessage}

theorem readAddresses_ok {sender : Address} {recipients : List Address}
    (read : readAddresses body = .ok (sender, recipients)) :
    body.sender = some sender ∧ recipients = body.sendTo ++ body.cc ++ body.bcc := by
  unfold readAddresses at read
  cases named : body.sender.filter (fun address => address.email != []) with
  | none =>
      rw [named] at read
      cases read
  | some address =>
      rw [named] at read
      split_ifs at read
      obtain ⟨rfl, rfl⟩ := Prod.mk.inj (Except.ok.inj read)
      exact ⟨(Option.filter_eq_some_iff.mp named).1, rfl⟩

variable {api : ApiPlatform} {pending : Int} {messages : List SendPlanMessage} {reads : SendReads}
  {server : Server}

section

variable (prepared : prepareSend api reads server body pending = .ok messages)
include prepared

/-- The messages of a request are built for its recipients, which are within the limits. -/
theorem prepareSend_built :
    ∃ (sender : Address) (attachments : List Attachment) (domainId streamId : Option Id)
      (isBroadcast : Bool) (label : Text),
      body.sender = some sender ∧ body.attachments.mapM (readAttachment api) = .ok attachments ∧
      resolveStream api reads server body.stream = .ok (streamId, isBroadcast, label) ∧
      checkLimits reads server pending (body.sendTo ++ body.cc ++ body.bcc).length = .ok () ∧
      messages = (body.sendTo ++ body.cc ++ body.bcc).mapIdx (planMessage api reads server
        (body.params sender attachments) body domainId streamId isBroadcast) := by
  obtain ⟨⟨sender, recipients⟩, addressed, rest⟩ := bind_eq_ok.mp prepared
  obtain ⟨⟨⟩, limited, rest⟩ := bind_eq_ok.mp rest
  obtain ⟨domainId, -, rest⟩ := bind_eq_ok.mp rest
  obtain ⟨⟨streamId, isBroadcast, label⟩, resolved, rest⟩ := bind_eq_ok.mp rest
  obtain ⟨attachments, read, rest⟩ := bind_eq_ok.mp rest
  obtain ⟨⟨⟩, -, rest⟩ := bind_eq_ok.mp rest
  obtain ⟨named, rfl⟩ := readAddresses_ok addressed
  exact ⟨sender, attachments, domainId, streamId, isBroadcast, label, named, read, resolved, limited,
    (Except.ok.inj rest).symm⟩

/-- The messages of a request are planned for its recipients, which are within the limits. -/
theorem prepareSend_planned :
    ∃ (recipients : List Address) (params : BuildParams) (domainId streamId : Option Id)
      (isBroadcast : Bool),
      checkLimits reads server pending recipients.length = .ok () ∧
      messages = recipients.mapIdx
        (planMessage api reads server params body domainId streamId isBroadcast) := by
  obtain ⟨sender, attachments, domainId, streamId, isBroadcast, label, -, -, -, limited, rfl⟩ :=
    prepareSend_built prepared
  exact ⟨_, _, domainId, streamId, isBroadcast, limited, rfl⟩

/-- The checked messages of a request are those of its server and within its limits. -/
theorem prepareSend_ok :
    checkLimits reads server pending messages.length = .ok () ∧
      ∀ planned ∈ messages, planned.message.serverId = server.id := by
  obtain ⟨recipients, params, domainId, streamId, isBroadcast, limited, rfl⟩ :=
    prepareSend_planned prepared
  refine ⟨by simpa using limited, ?_⟩
  intro planned member
  obtain ⟨index, bound, rfl⟩ := List.mem_mapIdx.mp member
  rfl

end

end Camelmailer.Api
