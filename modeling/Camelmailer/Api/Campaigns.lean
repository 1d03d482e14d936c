import Mathlib.Data.List.Nodup
import Camelmailer.Api.Handler

/-!
# Campaigns

A campaign is one message to everyone who has subscribed to a stream. It is planned as a
draft or for some time, and then expanded into one message for each subscriber: on request,
or when the scheduler finds it due. A campaign can also be sent at once when it is created.

An expansion that a request spawns goes on after the answer to the request. Nothing else of
such a request is left by then, so it is the rest of the same program here.
-/

namespace Camelmailer.Api.Campaigns

open Utf8 Db Requests

/-! ## The records -/

inductive CampaignStatus where
  | draft
  | scheduled
  | sending
  | sent
  | failed
  | canceled
deriving DecidableEq

def CampaignStatus.asStr : CampaignStatus → Text
  | draft => "draft"
  | scheduled => "scheduled"
  | sending => "sending"
  | sent => "sent"
  | failed => "failed"
  | canceled => "canceled"

/-- `campaign_is_planned`. -/
def CampaignStatus.isPlanned : CampaignStatus → Bool
  | draft => true
  | scheduled => true
  | _ => false

/-- Times are in microseconds. -/
structure Campaign where
  id : Id
  serverId : Id
  streamId : Id
  name : Option Text
  subject : Option Text
  fromAddress : Option Text
  htmlBody : Option Text
  textBody : Option Text
  status : CampaignStatus
  total : Int
  sent : Int
  scheduledAt : Option Int
  createdAt : Option Int
  completedAt : Option Int
deriving DecidableEq

structure NewCampaign where
  serverId : Id
  streamId : Id
  name : Option Text
  subject : Option Text
  fromAddress : Option Text
  htmlBody : Option Text
  textBody : Option Text
  total : Int
  status : CampaignStatus
  scheduledAt : Option Int
deriving DecidableEq

/-- `CampaignUpdate`. What is absent is left alone. -/
structure CampaignUpdate where
  name : Option (Option Text) := none
  subject : Option (Option Text) := none
  fromAddress : Option (Option Text) := none
  htmlBody : Option (Option Text) := none
  textBody : Option (Option Text) := none
  scheduledAt : Option (Option Int) := none
  status : Option CampaignStatus := none
  total : Option Int := none
deriving DecidableEq

inductive SubscriptionStatus where
  | subscribed
  | unsubscribed
deriving DecidableEq

structure Subscription where
  serverId : Id
  streamId : Id
  address : Text
  status : SubscriptionStatus
deriving DecidableEq

/-- What the subscriptions of a server are told apart by. -/
def Subscription.key (subscription : Subscription) : Id × Id × Text :=
  (subscription.serverId, subscription.streamId, subscription.address)

/-- The table of subscriptions, with its uniqueness constraint. -/
structure Subscriptions where
  rows : List Subscription
  distinct : (rows.map Subscription.key).Nodup

/-- The subscriptions of one stream. -/
structure Audience where
  rows : List Subscription
  distinct : (rows.map Subscription.address).Nodup

/-- The addresses that have opted in. -/
def Audience.subscribed (audience : Audience) : List Text :=
  (audience.rows.filter (fun subscription => subscription.status = .subscribed)).map
    Subscription.address

theorem Audience.subscribed_nodup (audience : Audience) : audience.subscribed.Nodup :=
  audience.distinct.sublist (List.filter_sublist.map _)

/-- A message of an expansion, and the campaign that it is attributed to. -/
structure ExpandedMessage where
  id : Id
  serverId : Id
  message : SendMessage
  campaignId : Option Id
deriving DecidableEq

/-- Campaigns have distinct identifiers, and no identifier is used again. -/
structure Tables where
  servers : List Server
  streams : List (Id × MessageStream)
  subscriptions : Subscriptions
  campaigns : List Campaign
  nextCampaignId : Id
  messages : List ExpandedMessage
  distinct : (campaigns.map Campaign.id).Nodup
  used : ∀ campaign ∈ campaigns, campaign.id < nextCampaignId

namespace Tables

def findCampaign (tables : Tables) (id : Id) : Option Campaign :=
  tables.campaigns.find? (fun campaign => campaign.id = id)

def listStreams (tables : Tables) (serverId : Id) : List MessageStream :=
  (tables.streams.filter (fun entry => entry.1 = serverId)).map Prod.snd

def listSubscriptions (tables : Tables) (serverId streamId : Id) : Audience where
  rows := tables.subscriptions.rows.filter (fun subscription =>
    subscription.serverId = serverId ∧ subscription.streamId = streamId)
  distinct := by
    apply List.Nodup.of_map (fun address => (serverId, streamId, address))
    have keys := tables.subscriptions.distinct.sublist (List.filter_sublist (p := fun subscription =>
      subscription.serverId = serverId ∧ subscription.streamId = streamId).map Subscription.key)
    rw [List.map_map]
    convert keys using 1
    apply List.map_congr_left
    intro subscription member
    simp only [List.mem_filter, decide_eq_true_eq] at member
    obtain ⟨-, rfl, rfl⟩ := member
    rfl

/-- Change every campaign in a way that keeps its identifier. -/
def mapCampaigns (tables : Tables) (change : Campaign → Campaign)
    (keeps : ∀ campaign, (change campaign).id = campaign.id) : Tables :=
  { tables with
    campaigns := tables.campaigns.map change
    distinct := by
      rw [List.map_map]
      simpa only [Function.comp_def, keeps] using tables.distinct
    used := by
      intro changed member
      obtain ⟨campaign, present, rfl⟩ := List.mem_map.mp member
      rw [keeps]
      exact tables.used campaign present }

def createCampaign (tables : Tables) (new : NewCampaign) (now : Int) : Campaign × Tables :=
  let campaign : Campaign := {
    id := tables.nextCampaignId
    serverId := new.serverId
    streamId := new.streamId
    name := new.name
    subject := new.subject
    fromAddress := new.fromAddress
    htmlBody := new.htmlBody
    textBody := new.textBody
    status := new.status
    total := new.total
    sent := 0
    scheduledAt := new.scheduledAt
    createdAt := some now
    completedAt := none }
  (campaign, { tables with
    campaigns := tables.campaigns ++ [campaign]
    nextCampaignId := tables.nextCampaignId + 1
    distinct := by
      rw [List.map_append, List.nodup_append]
      refine ⟨tables.distinct, List.nodup_singleton _, ?_⟩
      intro id old other new equal
      obtain ⟨existing, present, rfl⟩ := List.mem_map.mp old
      obtain rfl := List.mem_singleton.mp new
      exact absurd equal (Nat.ne_of_lt (tables.used existing present))
    used := by
      intro other member
      rcases List.mem_append.mp member with old | new
      · exact Nat.lt_succ_of_lt (tables.used other old)
      · obtain rfl := List.mem_singleton.mp new
        exact Nat.lt_succ_self _ })

def getCampaign (tables : Tables) (serverId id : Id) : Option Campaign :=
  (tables.findCampaign id).filter (fun campaign => campaign.serverId = serverId)

/-- The fields that an update names. -/
def applyUpdate (update : CampaignUpdate) (campaign : Campaign) : Campaign :=
  { campaign with
    name := update.name.getD campaign.name
    subject := update.subject.getD campaign.subject
    fromAddress := update.fromAddress.getD campaign.fromAddress
    htmlBody := update.htmlBody.getD campaign.htmlBody
    textBody := update.textBody.getD campaign.textBody
    scheduledAt := update.scheduledAt.getD campaign.scheduledAt
    status := update.status.getD campaign.status
    total := update.total.getD campaign.total }

/-- A change to one campaign of a server. -/
def onCampaign (serverId id : Id) (change : Campaign → Campaign) (campaign : Campaign) : Campaign :=
  if campaign.id = id ∧ campaign.serverId = serverId then change campaign else campaign

def updateCampaign (tables : Tables) (serverId id : Id) (update : CampaignUpdate) :
    Option Campaign × Tables :=
  ((tables.getCampaign serverId id).map (applyUpdate update),
    tables.mapCampaigns (onCampaign serverId id (applyUpdate update)) (by
      intro campaign
      unfold onCampaign
      split <;> rfl))

/-- Whether the scheduler takes a campaign. -/
def isDue (serverId : Id) (now : Int) (campaign : Campaign) : Bool :=
  campaign.serverId = serverId ∧ campaign.status = .scheduled ∧
    campaign.scheduledAt.any (fun time => time ≤ now)

def claimDueCampaigns (tables : Tables) (serverId : Id) (now : Int) : List Campaign × Tables :=
  ((tables.campaigns.filter (isDue serverId now)).map (fun campaign =>
      { campaign with status := .sending }),
    tables.mapCampaigns (fun campaign =>
      if isDue serverId now campaign then { campaign with status := .sending } else campaign) (by
      intro campaign
      split <;> rfl))

def setCampaignProgress (tables : Tables) (serverId id : Id) (sent : Int)
    (status : CampaignStatus) (completed : Option Int) : Tables :=
  tables.mapCampaigns (onCampaign serverId id (fun campaign =>
      { campaign with sent := sent, status := status, completedAt := completed })) (by
    intro campaign
    unfold onCampaign
    split <;> rfl)

/-- A message that `enqueue_send` has accepted. -/
def storeMessage (tables : Tables) (serverId : Id) (message : SendMessage) : Id × Tables :=
  (tables.messages.length, { tables with
    messages := tables.messages ++ [⟨tables.messages.length, serverId, message, none⟩] })

def setMessageCampaign (tables : Tables) (serverId messageId campaignId : Id) : Tables :=
  { tables with messages := tables.messages.map (fun stored =>
      if stored.id = messageId ∧ stored.serverId = serverId then
        { stored with campaignId := some campaignId }
      else stored) }

end Tables

/-! ## The requests -/

/-- The commands of a request. An expansion says when it starts, and for which campaign it
sends a message. -/
inductive Command : Type → Type where
  | now : Command Int
  | listAllServers : Command (Except StoreError (List Server))
  | streamByPermalink (serverId : Id) (permalink : Text) :
      Command (Except StoreError (Option MessageStream))
  | listStreams (serverId : Id) : Command (Except StoreError (List MessageStream))
  | listSubscriptions (serverId streamId : Id) : Command (Except StoreError Audience)
  | createCampaign (new : NewCampaign) : Command (Except StoreError Campaign)
  | getCampaign (serverId id : Id) : Command (Except StoreError (Option Campaign))
  | updateCampaign (serverId id : Id) (update : CampaignUpdate) :
      Command (Except StoreError (Option Campaign))
  | claimDueCampaigns (serverId : Id) (now : Int) : Command (Except StoreError (List Campaign))
  | setCampaignProgress (serverId id : Id) (sent : Int) (status : CampaignStatus)
      (completed : Option Int) : Command (Except StoreError Unit)
  | setMessageCampaign (serverId messageId campaignId : Id) : Command (Except StoreError Unit)
  | expandCampaign (id : Id) : Command Unit
  | enqueueSend (server : Server) (campaignId : Id) (message : SendMessage) :
      Command (Except ApiError Id)

abbrev Handler : Type → Type 1 := Program Command ApiError

/-! ### Expansion -/

def campaignBatchSize : Nat := 200

def chunks (size : Nat) (addresses : List Text) : List (List Text) :=
  (List.range ((addresses.length + size - 1) / size)).map (fun index =>
    (addresses.drop (index * size)).take size)

/-- The message of a campaign to an address. -/
def campaignMessage (campaign : Campaign) (permalink address : Text) : SendMessage where
  sender := campaign.fromAddress.map (fun email => ⟨none, email⟩)
  sendTo := [⟨none, address⟩]
  cc := []
  bcc := []
  replyTo := []
  subject := campaign.subject
  htmlBody := campaign.htmlBody
  textBody := campaign.textBody
  headers := []
  attachments := []
  tag := none
  metadata := none
  stream := some permalink

section Expansion

variable (server : Server) (campaign : Campaign) (permalink : Text)

/-- One recipient. A send that fails is skipped. -/
def sendTo (address : Text) (sent : Int) : Handler Int :=
  .send (.enqueueSend server campaign.id (campaignMessage campaign permalink address)) (fun
    | .ok id => .send (.setMessageCampaign server.id id campaign.id) (fun _ => .done (sent + 1))
    | .error _ => .done sent)

def sendBatch : List Text → Int → Handler Int
  | [], sent => .done sent
  | address :: rest, sent => sendTo server campaign permalink address sent >>= sendBatch rest

/-- The batches, each followed by the progress so far. -/
def sendBatches : List (List Text) → Int → Handler Int
  | [], sent => .done sent
  | batch :: rest, sent => do
      let sent ← sendBatch server campaign permalink batch sent
      let _ ← Program.perform (.setCampaignProgress server.id campaign.id sent .sending none)
      sendBatches rest sent

/-- The end of an expansion, or of a campaign that cannot be expanded. -/
def finishCampaign (sent : Int) (status : CampaignStatus) : Handler Unit := do
  let now ← Program.perform .now
  let _ ← Program.perform (.setCampaignProgress server.id campaign.id sent status (some now))
  return ()

def expandTo (subscribed : List Text) : Handler Unit := do
  let sent ← sendBatches server campaign permalink (chunks campaignBatchSize subscribed) 0
  finishCampaign server campaign sent .sent

def expandCampaign : Handler Unit := do
  Program.perform (.expandCampaign campaign.id)
  .send (.listSubscriptions server.id campaign.streamId) (fun
    | .ok audience => expandTo server campaign permalink audience.subscribed
    | .error _ => finishCampaign server campaign 0 .failed)

end Expansion

/-! ### Handlers -/

/-- The body of `campaigns_create`. -/
structure CreateCampaign where
  name : Option Text := none
  sender : Option Text := none
  subject : Option Text := none
  htmlBody : Option Text := none
  textBody : Option Text := none
deriving DecidableEq

/-- The body of `server_campaigns_create`. -/
structure CreateServerCampaign extends CreateCampaign where
  stream : Option Text := none
  scheduledAt : Option Int := none
  sendNow : Bool := false
deriving DecidableEq

/-- The body of `server_campaign_update`. -/
structure UpdateCampaign where
  name : Option (Option Text) := none
  sender : Option Text := none
  subject : Option (Option Text) := none
  htmlBody : Option (Option Text) := none
  textBody : Option (Option Text) := none
  scheduledAt : Option (Option Int) := none
deriving DecidableEq

inductive Call where
  | campaignsCreate (server : Server) (permalink : Text) (body : CreateCampaign)
  | serverCampaignsCreate (server : Server) (body : CreateServerCampaign)
  | serverCampaignUpdate (server : Server) (id : Id) (body : UpdateCampaign)
  | serverCampaignSend (server : Server) (id : Id)
  | serverCampaignCancel (server : Server) (id : Id)
  | runSchedulerTick

inductive Reply where
  | campaign (campaign : Campaign) (stream : Option MessageStream)
  | ticked
deriving DecidableEq

def campaignStream (serverId streamId : Id) : Handler (Option MessageStream) := do
  let streams ← Program.perform (.listStreams serverId)
  return (streams.toOption.getD []).find? (fun stream => stream.id = streamId)

def subscribedCount (serverId streamId : Id) : Handler Int := do
  let audience ← askInternally (.listSubscriptions serverId streamId)
  return audience.subscribed.length

def campaignsCreate (server : Server) (permalink : Text) (body : CreateCampaign) :
    Handler Reply := do
  let stream ← askInternally (.streamByPermalink server.id permalink)
  let stream ← require stream notFound
  demand (stream.streamType = "broadcast")
    (validationError "campaigns can only be created on a broadcast stream")
  let sender ← require (present body.sender) (missing "from")
  let total ← subscribedCount server.id stream.id
  let campaign ← askInternally (.createCampaign {
    serverId := server.id
    streamId := stream.id
    name := present body.name
    subject := body.subject
    fromAddress := some sender
    htmlBody := body.htmlBody
    textBody := body.textBody
    total := total
    status := .sending
    scheduledAt := none })
  expandCampaign server campaign permalink
  return .campaign campaign none

/-- The status that a new campaign starts in, and the time it is planned for. -/
def CreateServerCampaign.initial (body : CreateServerCampaign) : CampaignStatus × Option Int :=
  if body.sendNow then (.sending, none)
  else match body.scheduledAt with
    | some time => (.scheduled, some time)
    | none => (.draft, none)

/-- Only a campaign that is sent at once is expanded. -/
def expandNow (sendNow : Bool) (server : Server) (campaign : Campaign) (permalink : Text) :
    Handler Unit :=
  if sendNow then expandCampaign server campaign permalink else .done ()

def serverCampaignsCreate (debug : Text → Text) (server : Server) (body : CreateServerCampaign) :
    Handler Reply := do
  let permalink ← require (present body.stream) (missing "stream")
  let stream ← askInternally (.streamByPermalink server.id permalink)
  let stream ← require stream (validationError
    ("Message stream " ++ debug permalink ++ " does not exist"))
  demand (stream.streamType = "broadcast")
    (validationError "campaigns can only target a broadcast stream")
  let sender ← require (present body.sender) (missing "from")
  let total ← subscribedCount server.id stream.id
  let campaign ← askInternally (.createCampaign {
    serverId := server.id
    streamId := stream.id
    name := present body.name
    subject := body.subject
    fromAddress := some sender
    htmlBody := body.htmlBody
    textBody := body.textBody
    total := total
    status := body.initial.1
    scheduledAt := body.initial.2 })
  expandNow body.sendNow server campaign permalink
  return .campaign campaign (some stream)

/-- A campaign that is still planned. -/
def findPlanned (server : Server) (id : Id) (refusal : Text) : Handler Campaign := do
  let campaign ← askInternally (.getCampaign server.id id)
  let campaign ← require campaign notFound
  demand campaign.status.isPlanned
    (validationError ("a " ++ campaign.status.asStr ++ refusal))
  return campaign

/-- A campaign is updated, and answered with its stream. -/
def answerUpdated (server : Server) (id : Id) (update : CampaignUpdate) : Handler Reply := do
  let campaign ← askInternally (.updateCampaign server.id id update)
  let campaign ← require campaign notFound
  let stream ← campaignStream server.id campaign.streamId
  return .campaign campaign stream

/-- The update that a body asks for. A change of the schedule moves the campaign between
draft and scheduled. -/
def UpdateCampaign.update (body : UpdateCampaign) : CampaignUpdate where
  name := body.name
  subject := body.subject
  fromAddress := (present body.sender).map some
  htmlBody := body.htmlBody
  textBody := body.textBody
  scheduledAt := body.scheduledAt
  status := body.scheduledAt.map (fun time => if time.isSome then .scheduled else .draft)

def serverCampaignUpdate (server : Server) (id : Id) (body : UpdateCampaign) : Handler Reply := do
  let _ ← findPlanned server id " campaign can no longer be edited"
  answerUpdated server id body.update

def serverCampaignSend (server : Server) (id : Id) : Handler Reply := do
  let campaign ← findPlanned server id " campaign cannot be sent"
  let stream ← campaignStream server.id campaign.streamId
  let stream ← require stream ⟨500, "InternalServerError",
    "the campaign's audience stream is missing"⟩
  let total ← subscribedCount server.id stream.id
  let campaign ← askInternally (.updateCampaign server.id id
    { status := some .sending, total := some total })
  let campaign ← require campaign notFound
  expandCampaign server campaign stream.permalink
  return .campaign campaign (some stream)

def serverCampaignCancel (server : Server) (id : Id) : Handler Reply := do
  let _ ← findPlanned server id " campaign cannot be canceled"
  answerUpdated server id { status := some .canceled }

/-- A claimed campaign is expanded, unless its stream has gone missing. -/
def expandClaimed (server : Server) (campaign : Campaign) :
    Option MessageStream → Handler Unit
  | none => finishCampaign server campaign 0 .failed
  | some stream => expandCampaign server campaign stream.permalink

def expandAll (server : Server) : List Campaign → Handler Unit
  | [] => .done ()
  | campaign :: rest => do
      let stream ← campaignStream server.id campaign.streamId
      expandClaimed server campaign stream
      expandAll server rest

/-- The pass over the servers. A server whose campaigns cannot be claimed is skipped. -/
def tickServers (now : Int) : List Server → Handler Unit
  | [] => .done ()
  | server :: rest => do
      let due ← Program.perform (.claimDueCampaigns server.id now)
      expandAll server (due.toOption.getD [])
      tickServers now rest

def runSchedulerTick : Handler Reply :=
  .send .listAllServers (fun
    | .error _ => .done .ticked
    | .ok servers => do
        let now ← Program.perform .now
        tickServers now servers
        return .ticked)

/-- The handlers. -/
def handler (debug : Text → Text) : Call → Handler Reply
  | .campaignsCreate server permalink body => campaignsCreate server permalink body
  | .serverCampaignsCreate server body => serverCampaignsCreate debug server body
  | .serverCampaignUpdate server id body => serverCampaignUpdate server id body
  | .serverCampaignSend server id => serverCampaignSend server id
  | .serverCampaignCancel server id => serverCampaignCancel server id
  | .runSchedulerTick => runSchedulerTick

/-! ### Answers -/

/-- What the tables do not determine: whether a question fails, the time, and whether a
message is refused. -/
structure Choice where
  fault : Option StoreError := none
  time : Int := 0
  refusal : Option ApiError := none

def enqueued (refusal : Option ApiError) (tables : Tables) (serverId : Id)
    (message : SendMessage) : Except ApiError Id × Tables :=
  match refusal with
  | some error => (.error error, tables)
  | none => (.ok (tables.storeMessage serverId message).1, (tables.storeMessage serverId message).2)

/-- A command is answered by the tables, unless it fails. -/
def execute (choice : Choice) {β : Type} (command : Command β) (tables : Tables) :
    Option (β × Tables) :=
  some (match command with
    | .now => (choice.time, tables)
    | .listAllServers => attempted choice.fault (.ok (tables.servers, tables)) tables
    | .streamByPermalink serverId permalink => attempted choice.fault
        (.ok ((tables.listStreams serverId).find? (fun stream => stream.permalink = permalink),
          tables)) tables
    | .listStreams serverId =>
        attempted choice.fault (.ok (tables.listStreams serverId, tables)) tables
    | .listSubscriptions serverId streamId =>
        attempted choice.fault (.ok (tables.listSubscriptions serverId streamId, tables)) tables
    | .createCampaign new =>
        attempted choice.fault (.ok (tables.createCampaign new choice.time)) tables
    | .getCampaign serverId id =>
        attempted choice.fault (.ok (tables.getCampaign serverId id, tables)) tables
    | .updateCampaign serverId id update =>
        attempted choice.fault (.ok (tables.updateCampaign serverId id update)) tables
    | .claimDueCampaigns serverId now =>
        attempted choice.fault (.ok (tables.claimDueCampaigns serverId now)) tables
    | .setCampaignProgress serverId id sent status completed => attempted choice.fault
        (.ok ((), tables.setCampaignProgress serverId id sent status completed)) tables
    | .setMessageCampaign serverId messageId campaignId => attempted choice.fault
        (.ok ((), tables.setMessageCampaign serverId messageId campaignId)) tables
    | .expandCampaign _ => ((), tables)
    | .enqueueSend server _ message => enqueued choice.refusal tables server.id message)

/-- What others do: they change subscriptions, streams and servers, and with a stream or a
server its campaigns are deleted. -/
inductive Outside where
  | subscriptions (rows : Subscriptions)
  | streams (rows : List (Id × MessageStream))
  | servers (rows : List Server)
  | deleteCampaigns (kept : Campaign → Bool)

def disturb (outside : Outside) (tables : Tables) : Tables :=
  match outside with
  | .subscriptions rows => { tables with subscriptions := rows }
  | .streams rows => { tables with streams := rows }
  | .servers rows => { tables with servers := rows }
  | .deleteCampaigns kept => { tables with
      campaigns := tables.campaigns.filter kept
      distinct := tables.distinct.sublist (List.filter_sublist.map _)
      used := fun campaign member => tables.used campaign (List.mem_of_mem_filter member) }

def service (debug : Text → Text) :
    Service Tables Call Choice Outside Command ApiError Reply where
  handler := handler debug
  execute := execute
  disturb := fun outside tables => some (disturb outside tables)

end Camelmailer.Api.Campaigns
