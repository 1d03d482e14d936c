import Camelmailer.Api.Campaigns
import Camelmailer.Core.MemoryStore
import Camelmailer.Db.PgStore
import Camelmailer.Db.Table

/-!
# Suppressions and subscriptions

A suppression keeps mail from an address: the mail of one stream, or all mail of a server. A
subscription says whether an address takes the mail of a stream. Both lists are kept by
`MemoryStore` and by `PgStore`, next to the tokens that messages are sent with, and campaigns.

Every operation of a store is one step. `MemoryStore` keeps its rows in hash maps, and which row it
comes to first is left open. A transaction of `PgStore` can fail, and then it has not happened.
-/

namespace Camelmailer.Api.Suppressions

open Utf8 Db

/-! ## The two lists -/

structure Suppression where
  id : Nat
  serverId : Id
  suppressionType : Text
  address : Text
  reason : Option Text
  /-- Nothing for all streams of the server. -/
  streamId : Option Id
deriving DecidableEq

structure NewSuppression where
  serverId : Id
  suppressionType : Text
  address : Text
  reason : Option Text
  streamId : Option Id
deriving DecidableEq

structure Subscription where
  id : Nat
  serverId : Id
  streamId : Id
  address : Text
  status : Text
deriving DecidableEq

def suppressionKey (row : Suppression) : Nat := row.id

def subscriptionKey (row : Subscription) : Nat := row.id

/-- A suppression of an address on a server, of whatever stream. -/
def Suppression.isOf (row : Suppression) (serverId : Id) (address : Text) : Bool :=
  row.serverId = serverId && row.address = address

/-- The subscription of an address to a stream. -/
def Subscription.isOf (row : Subscription) (serverId streamId : Id) (address : Text) : Bool :=
  row.serverId = serverId && row.streamId = streamId && row.address = address

def subscribedStatus : Text := "subscribed"

def unsubscribedStatus : Text := "unsubscribed"

/-- An address has at most one subscription to a stream. -/
def Single (rows : List Subscription) : Prop :=
  ∀ row ∈ rows, ∀ other ∈ rows, row.isOf other.serverId other.streamId other.address = true →
    row = other

structure Lists where
  suppressions : Table suppressionKey
  subscriptions : Table subscriptionKey
  single : Single subscriptions.rows

namespace Lists

def empty : Lists := ⟨.empty 1, .empty 1, fun _ member => absurd member List.not_mem_nil⟩

variable (lists : Lists)

def addressSuppressed (serverId : Id) (address : Text) (streamId : Option Id) : Bool :=
  lists.suppressions.rows.any (fun row =>
    row.isOf serverId address && (row.streamId.isNone || row.streamId = streamId))

def isSubscribed (serverId streamId : Id) (address : Text) : Bool :=
  lists.subscriptions.rows.any (fun row =>
    row.isOf serverId streamId address && row.status = subscribedStatus)

/-- A new suppression. -/
def suppress (new : NewSuppression) : Suppression × Lists :=
  let row : Suppression :=
    { id := lists.suppressions.next, serverId := new.serverId,
      suppressionType := new.suppressionType, address := new.address, reason := new.reason,
      streamId := new.streamId }
  (row, { lists with suppressions := lists.suppressions.insert row rfl })

/-- Some of the suppressions. -/
def keepSuppressions (kept : Suppression → Bool) : Lists :=
  { lists with suppressions := lists.suppressions.keep kept }

/-- Some of the subscriptions. -/
def keepSubscriptions (kept : Subscription → Bool) : Lists :=
  { lists with
    subscriptions := lists.subscriptions.keep kept
    single := fun row member other another =>
      lists.single row (Table.mem_keep.mp member).1 other (Table.mem_keep.mp another).1 }

/-- The subscription of an address to a stream, if there is one. -/
def subscription (serverId streamId : Id) (address : Text) : Option Subscription :=
  lists.subscriptions.rows.find? (fun row => row.isOf serverId streamId address)

end Lists

/-- A subscription is the only one of its address to its stream. -/
theorem Lists.subscription_some {lists : Lists} {serverId streamId : Id} {address : Text}
    {existing row : Subscription}
    (found : lists.subscription serverId streamId address = some existing)
    (member : row ∈ lists.subscriptions.rows) :
    row.isOf serverId streamId address = true ↔ row = existing := by
  have there := List.mem_of_find?_eq_some found
  have own : existing.isOf serverId streamId address = true := by
    simpa using List.find?_some found
  constructor
  · intro same
    simp only [Subscription.isOf, Bool.and_eq_true, decide_eq_true_eq] at own
    obtain ⟨⟨rfl, rfl⟩, rfl⟩ := own
    exact lists.single row member existing there same
  · rintro rfl
    exact own

theorem Subscription.isOf_iff {row : Subscription} {serverId streamId : Id} {address : Text} :
    row.isOf serverId streamId address = true ↔
      row.serverId = serverId ∧ row.streamId = streamId ∧ row.address = address := by
  simp [Subscription.isOf, and_assoc]

namespace Lists

variable (lists : Lists)

/-- A subscription takes a status. -/
def setStatus (existing : Subscription) (status : Text) : Lists :=
  let changed := lists.subscriptions.update (fun row => row.id = existing.id)
    (fun row => { row with status := status }) (fun _ => rfl)
  { lists with
    subscriptions := changed
    single := by
      intro row member other another same
      obtain ⟨old, before, rfl⟩ := Table.mem_update.mp member
      obtain ⟨older, beforeToo, rfl⟩ := Table.mem_update.mp another
      have one : old = older := by
        apply lists.single old before older beforeToo
        split_ifs at same <;> exact same
      rw [one] }

/-- A new subscription, of an address that has none. -/
def subscribe (serverId streamId : Id) (address status : Text)
    (absent : lists.subscription serverId streamId address = none) : Subscription × Lists :=
  let row : Subscription :=
    { id := lists.subscriptions.next, serverId := serverId, streamId := streamId,
      address := address, status := status }
  (row, { lists with
    subscriptions := lists.subscriptions.insert row rfl
    single := by
      have none_of {old : Subscription} (before : old ∈ lists.subscriptions.rows) :
          old.isOf serverId streamId address ≠ true := List.find?_eq_none.mp absent old before
      intro first member second another same
      rcases List.mem_cons.mp member with rfl | old <;>
        rcases List.mem_cons.mp another with rfl | older
      · rfl
      · obtain ⟨server, stream, text⟩ := Subscription.isOf_iff.mp same
        exact absurd (Subscription.isOf_iff.mpr ⟨server.symm, stream.symm, text.symm⟩) (none_of older)
      · exact absurd same (none_of old)
      · exact lists.single first old second older same })

/-- The status of a subscription, which is added if it is not there. -/
def upsertSubscription (serverId streamId : Id) (address status : Text) : Subscription × Lists :=
  match found : lists.subscription serverId streamId address with
  | some existing => ({ existing with status := status }, lists.setStatus existing status)
  | none => lists.subscribe serverId streamId address status found

theorem upsertSubscription_suppressions (lists : Lists) (serverId streamId : Id)
    (address status : Text) :
    (lists.upsertSubscription serverId streamId address status).2.suppressions =
      lists.suppressions := by
  unfold Lists.upsertSubscription
  split <;> rfl

end Lists

section Upserts

variable {lists : Lists} {serverId streamId : Id} {address status : Text}

/-- The row that has been set and the rows that were there. -/
theorem mem_upsertSubscription {row : Subscription}
    (member : row ∈ (lists.upsertSubscription serverId streamId address status).2.subscriptions.rows) :
    (row ∈ lists.subscriptions.rows ∧ row.isOf serverId streamId address = false) ∨
      (row.isOf serverId streamId address = true ∧ row.status = status) := by
  unfold Lists.upsertSubscription at member
  split at member
  · next existing found =>
      have there := List.mem_of_find?_eq_some found
      obtain ⟨old, before, rfl⟩ := List.mem_map.mp member
      have own := Lists.subscription_some found before
      by_cases same : old = existing
      · right
        rw [if_pos (by simp [same])]
        exact ⟨own.mpr same, rfl⟩
      · left
        have other : old.id ≠ existing.id := fun equal => same (Table.unique before there equal)
        rw [if_neg (by simpa using other)]
        exact ⟨before, Bool.eq_false_iff.mpr (fun isOwn => same (own.mp isOwn))⟩
  · next absent =>
      rcases List.mem_cons.mp member with rfl | old
      · exact .inr ⟨Subscription.isOf_iff.mpr ⟨rfl, rfl, rfl⟩, rfl⟩
      · exact .inl ⟨old, Bool.eq_false_iff.mpr (List.find?_eq_none.mp absent row old)⟩

end Upserts

/-! ## The operations -/

/-- The campaigns, and those that messages are attributed to. -/
structure CampaignRows where
  campaigns : List Campaigns.Campaign
  messageCampaigns : List (Nat × Id)
  nextCampaignId : Id

/-- The operations that write to the lists, and those that send. -/
inductive Operation : Type → Type where
  | createSuppression (new : NewSuppression) : Operation (Except StoreError Suppression)
  | deleteSuppression (serverId : Id) (address : Text) : Operation (Except StoreError Bool)
  | createUnsubscribeToken (serverId : Id) (streamId : Option Id) (address : Text) :
      Operation (Except StoreError Text)
  | recordUnsubscribe (token : Text) : Operation (Except StoreError Bool)
  | recordComplaintByToken (token : Text) : Operation (Except StoreError Bool)
  | recordComplaint (serverId streamId : Id) (address : Text) :
      Operation (Except StoreError Subscription)
  | upsertSubscription (serverId streamId : Id) (address status : Text) :
      Operation (Except StoreError Subscription)
  | removeSubscription (serverId streamId : Id) (address : Text) :
      Operation (Except StoreError Bool)
  | insertSendOperation (serverId : Id) (plan : List SendPlanItem)
      (idempotency : Option IdempotencyRequest) : Operation (Except StoreError StoreSendOutcome)
  | createCampaign (new : Campaigns.NewCampaign) : Operation (Except StoreError Campaigns.Campaign)
  | updateCampaign (serverId id : Id) (update : Campaigns.CampaignUpdate) :
      Operation (Except StoreError (Option Campaigns.Campaign))
  | claimDueCampaigns (serverId : Id) (now : Int) :
      Operation (Except StoreError (List Campaigns.Campaign))
  | setCampaignProgress (serverId id : Id) (sent : Int) (status : Campaigns.CampaignStatus)
      (completed : Option Int) : Operation (Except StoreError Unit)
  | setMessageCampaign (serverId : Id) (messageId : Nat) (campaignId : Id) :
      Operation (Except StoreError Unit)

namespace CampaignRows

open Campaigns

variable (rows : CampaignRows)

def createCampaign (new : NewCampaign) (now : Int) : Campaign × CampaignRows :=
  let campaign : Campaign := {
    id := rows.nextCampaignId
    serverId := new.serverId
    streamId := new.streamId
    name := new.name
    subject := new.subject
    fromAddress := new.fromAddress
    htmlBody := new.htmlBody
    textBody := new.textBody
    status := new.status
    total := new.total
    sent := 0
    scheduledAt := new.scheduledAt
    createdAt := some now
    completedAt := none }
  (campaign, { rows with
    campaigns := rows.campaigns ++ [campaign]
    nextCampaignId := rows.nextCampaignId + 1 })

/-- A change to one campaign of a server. -/
def change (serverId id : Id) (change : Campaign → Campaign) : CampaignRows :=
  { rows with campaigns := rows.campaigns.map (Tables.onCampaign serverId id change) }

def updateCampaign (serverId id : Id) (update : CampaignUpdate) : Option Campaign × CampaignRows :=
  ((rows.campaigns.find? (fun campaign => campaign.id = id && campaign.serverId = serverId)).map
      (Tables.applyUpdate update),
    rows.change serverId id (Tables.applyUpdate update))

def claimDueCampaigns (serverId : Id) (now : Int) : List Campaign × CampaignRows :=
  ((rows.campaigns.filter (Tables.isDue serverId now)).map (fun campaign =>
      { campaign with status := .sending }),
    { rows with campaigns := rows.campaigns.map (fun campaign =>
        if Tables.isDue serverId now campaign then { campaign with status := .sending }
        else campaign) })

def setCampaignProgress (serverId id : Id) (sent : Int) (status : CampaignStatus)
    (completed : Option Int) : CampaignRows :=
  rows.change serverId id (fun campaign =>
    { campaign with sent := sent, status := status, completedAt := completed })

/-- A message is attributed to a campaign. -/
def assign (messageId : Nat) (campaignId : Id) : CampaignRows :=
  { rows with messageCampaigns :=
      (messageId, campaignId) :: rows.messageCampaigns.filter (fun entry => entry.1 ≠ messageId) }

end CampaignRows

/-- The server, stream and address that a token is for. -/
def resolveToken (tokens : List (Id × PendingUnsubscribeToken)) (token : Text) :
    Option (Id × Option Id × Text) :=
  (tokens.find? (fun entry => entry.2.token = token)).map (fun entry =>
    (entry.1, entry.2.streamId, entry.2.address))

def unsubscribeReason : Text := "Unsubscribed via List-Unsubscribe"

def feedbackReason : Text := "Spam complaint (feedback loop)"

def complaintReason : Text := "Marked as spam"

def alreadySuppressed : StoreError := .conflict "Address is already suppressed"

/-! ## In memory -/

/-- What `MemoryStore` holds of this. -/
structure MemoryLists extends Lists where
  store : MemoryStore
  campaigns : CampaignRows

/-- What an operation in memory draws from outside: which row of a hash map comes first, a token, a
time, and what a send operation draws. -/
structure MemoryChoice where
  turn : Nat
  token : Text
  now : Int
  platform : Platform
  calendar : Calendar
  draws : Draws

namespace MemoryLists

variable (choice : MemoryChoice) (lists : MemoryLists)

def createSuppression (new : NewSuppression) : Except StoreError Suppression × MemoryLists :=
  if lists.suppressions.rows.any (fun row =>
      row.isOf new.serverId new.address && row.streamId = new.streamId) then
    (.error alreadySuppressed, lists)
  else
    let (row, after) := lists.suppress new
    (.ok row, { lists with toLists := after })

/-- `delete_suppression`: the first row of the address is removed. -/
def deleteSuppression (serverId : Id) (address : Text) : Bool × MemoryLists :=
  match (lists.suppressions.rows.rotate choice.turn).find? (fun row =>
      row.isOf serverId address) with
  | some row =>
      (true, { lists with toLists := lists.keepSuppressions (fun other => other.id ≠ row.id) })
  | none => (false, lists)

def resolveUnsubscribeToken (token : Text) : Option (Id × Option Id × Text) :=
  resolveToken lists.store.unsubscribeTokens token

def upsertSubscription (serverId streamId : Id) (address status : Text) :
    Subscription × MemoryLists :=
  let (row, after) := lists.toLists.upsertSubscription serverId streamId address status
  (row, { lists with toLists := after })

/-- A suppression that is there already is not an error. -/
def suppressOnce (new : NewSuppression) : Except StoreError Unit × MemoryLists :=
  match lists.createSuppression new with
  | (.error (.other error), after) => (.error (.other error), after)
  | (_, after) => (.ok (), after)

/-- An opt-out that names its address with a token. -/
def recordByToken (suppressionType reason token : Text) : Except StoreError Bool × MemoryLists :=
  match lists.resolveUnsubscribeToken token with
  | none => (.ok false, lists)
  | some (serverId, streamId, address) =>
      match lists.suppressOnce ⟨serverId, suppressionType, address, some reason, streamId⟩ with
      | (.error error, after) => (.error error, after)
      | (.ok (), after) => (.ok true, match streamId with
          | some streamId =>
              (after.upsertSubscription serverId streamId address unsubscribedStatus).2
          | none => after)

def recordUnsubscribe (token : Text) : Except StoreError Bool × MemoryLists :=
  lists.recordByToken "unsubscribe" unsubscribeReason token

def recordComplaintByToken (token : Text) : Except StoreError Bool × MemoryLists :=
  lists.recordByToken "complaint" feedbackReason token

def recordComplaint (serverId streamId : Id) (address : Text) :
    Except StoreError Subscription × MemoryLists :=
  match lists.suppressOnce
      ⟨serverId, "complaint", address, some complaintReason, some streamId⟩ with
  | (.error error, after) => (.error error, after)
  | (.ok (), after) =>
      let (row, after) := after.upsertSubscription serverId streamId address unsubscribedStatus
      (.ok row, after)

def removeSubscription (serverId streamId : Id) (address : Text) : Bool × MemoryLists :=
  match lists.subscription serverId streamId address with
  | some row =>
      (true, { lists with toLists := lists.keepSubscriptions (fun other => other.id ≠ row.id) })
  | none => (false, lists)

def createUnsubscribeToken (serverId : Id) (streamId : Option Id) (address : Text) :
    Text × MemoryLists :=
  let entry := (serverId, { token := choice.token, streamId := streamId, address := address })
  let store := { lists.store with unsubscribeTokens := lists.store.unsubscribeTokens ++ [entry] }
  (choice.token, { lists with store := store })

def setMessageCampaign (serverId : Id) (messageId : Nat) (campaignId : Id) : MemoryLists :=
  if lists.store.messages.any (fun record =>
      record.id = messageId && record.message.serverId = serverId) then
    { lists with campaigns := lists.campaigns.assign messageId campaignId }
  else lists

/-- An operation of the store. -/
def respond {β : Type} (operation : Operation β) : β × MemoryLists :=
  match operation with
  | .createSuppression new => lists.createSuppression new
  | .deleteSuppression serverId address =>
      let (found, after) := lists.deleteSuppression choice serverId address
      (.ok found, after)
  | .createUnsubscribeToken serverId streamId address =>
      let (token, after) := lists.createUnsubscribeToken choice serverId streamId address
      (.ok token, after)
  | .recordUnsubscribe token => lists.recordUnsubscribe token
  | .recordComplaintByToken token => lists.recordComplaintByToken token
  | .recordComplaint serverId streamId address => lists.recordComplaint serverId streamId address
  | .upsertSubscription serverId streamId address status =>
      let (row, after) := lists.upsertSubscription serverId streamId address status
      (.ok row, after)
  | .removeSubscription serverId streamId address =>
      let (found, after) := lists.removeSubscription serverId streamId address
      (.ok found, after)
  | .insertSendOperation serverId plan idempotency =>
      let (outcome, store) := lists.store.insertSendOperation choice.platform choice.calendar
        choice.draws serverId plan idempotency
      (.ok outcome, { lists with store := store })
  | .createCampaign new =>
      let (campaign, campaigns) := lists.campaigns.createCampaign new choice.now
      (.ok campaign, { lists with campaigns := campaigns })
  | .updateCampaign serverId id update =>
      let (campaign, campaigns) := lists.campaigns.updateCampaign serverId id update
      (.ok campaign, { lists with campaigns := campaigns })
  | .claimDueCampaigns serverId now =>
      let (claimed, campaigns) := lists.campaigns.claimDueCampaigns serverId now
      (.ok claimed, { lists with campaigns := campaigns })
  | .setCampaignProgress serverId id sent status completed => (.ok (), { lists with
      campaigns := lists.campaigns.setCampaignProgress serverId id sent status completed })
  | .setMessageCampaign serverId messageId campaignId =>
      (.ok (), lists.setMessageCampaign serverId messageId campaignId)

end MemoryLists

/-! ## In PostgreSQL -/

/-- The tables of `PgStore`. Their rows refer to streams that exist, and no stream has the number
that stands for all of them in the index of the suppressions. -/
structure PgLists extends Lists where
  sends : Db.Tables
  campaigns : CampaignRows
  servers : Id → Bool
  streams : Id → Bool
  unused : streams 0 = false
  references : ∀ row ∈ suppressions.rows, row.streamId.all streams = true
  streamed : ∀ row ∈ subscriptions.rows, streams row.streamId = true

/-- What an operation in PostgreSQL meets: the error of the transaction, the text for a violated
constraint, a token, a time, and what a send operation meets. -/
structure PgChoice where
  fault : Option Text
  violation : Text
  token : Text
  now : Int
  platform : Platform
  first : Circumstances
  again : Circumstances
  rival : Option Db.Tables

namespace PgLists

variable (choice : PgChoice) (tables : PgLists)

/-- The unique index `suppressions_server_addr_stream`. -/
def isTaken (new : NewSuppression) : Bool :=
  tables.suppressions.rows.any (fun row =>
    row.isOf new.serverId new.address && row.streamId.getD 0 = new.streamId.getD 0)

/-- `INSERT INTO suppressions`, where the index has room. -/
def insertSuppression (new : NewSuppression) : Except StoreError (Suppression × PgLists) :=
  if known : tables.servers new.serverId = true ∧ new.streamId.all tables.streams = true then
    let inserted := tables.suppress new
    .ok (inserted.1, { tables with
      toLists := inserted.2
      references := by
        intro row member
        rcases List.mem_cons.mp member with rfl | old
        · exact known.2
        · exact tables.references row old })
  else .error (.other choice.violation)

def createSuppression (new : NewSuppression) : Except StoreError (Suppression × PgLists) :=
  if tables.isTaken new then .error alreadySuppressed else tables.insertSuppression choice new

/-- `ON CONFLICT (server_id, address, COALESCE(stream_id, 0)) DO NOTHING`. -/
def suppressOnce (new : NewSuppression) : Except StoreError PgLists :=
  if tables.isTaken new then .ok tables
  else (tables.insertSuppression choice new).map Prod.snd

def deleteSuppression (serverId : Id) (address : Text) : Bool × PgLists :=
  (tables.suppressions.rows.any (fun row => row.isOf serverId address),
    { tables with
      toLists := tables.keepSuppressions (fun row => !row.isOf serverId address)
      references := fun row member => tables.references row (Table.mem_keep.mp member).1 })

def resolveUnsubscribeToken (token : Text) : Option (Id × Option Id × Text) :=
  resolveToken tables.sends.unsubscribeTokens token

/-- A subscription that is there refers to a stream, and so does one that may be inserted. -/
theorem streamed_of_known {serverId streamId : Id} {address : Text}
    (known : (tables.subscription serverId streamId address).isSome = true ∨
      (tables.servers serverId = true ∧ tables.streams streamId = true)) :
    tables.streams streamId = true := by
  rcases known with found | ⟨-, stream⟩
  · obtain ⟨existing, found⟩ := Option.isSome_iff_exists.mp found
    have there := List.mem_of_find?_eq_some found
    have own := (Lists.subscription_some found there).mpr rfl
    obtain ⟨-, rfl, -⟩ := Subscription.isOf_iff.mp own
    exact tables.streamed existing there
  · exact stream

/-- `upsert_subscription`, with the constraints of its table. -/
def upsertSubscription (serverId streamId : Id) (address status : Text) :
    Except StoreError (Subscription × PgLists) :=
  if status ≠ subscribedStatus ∧ status ≠ unsubscribedStatus then .error (.other choice.violation)
  else if known : (tables.subscription serverId streamId address).isSome = true ∨
      (tables.servers serverId = true ∧ tables.streams streamId = true) then
    let upserted := tables.toLists.upsertSubscription serverId streamId address status
    .ok (upserted.1, { tables with
      toLists := upserted.2
      references := by
        rw [Lists.upsertSubscription_suppressions]
        exact tables.references
      streamed := by
        intro row member
        rcases mem_upsertSubscription member with ⟨old, -⟩ | ⟨own, -⟩
        · exact tables.streamed row old
        · obtain ⟨-, rfl, -⟩ := Subscription.isOf_iff.mp own
          exact tables.streamed_of_known known })
  else .error (.other choice.violation)

/-- An opt-out that names its address with a token. -/
def recordByToken (suppressionType reason token : Text) : Except StoreError (Bool × PgLists) :=
  match tables.resolveUnsubscribeToken token with
  | none => .ok (false, tables)
  | some (serverId, streamId, address) => do
      let after ← tables.suppressOnce choice
        ⟨serverId, suppressionType, address, some reason, streamId⟩
      match streamId with
      | some streamId => do
          let (_, after) ←
            after.upsertSubscription choice serverId streamId address unsubscribedStatus
          return (true, after)
      | none => return (true, after)

def recordUnsubscribe (token : Text) : Except StoreError (Bool × PgLists) :=
  tables.recordByToken choice "unsubscribe" unsubscribeReason token

def recordComplaintByToken (token : Text) : Except StoreError (Bool × PgLists) :=
  tables.recordByToken choice "complaint" feedbackReason token

def recordComplaint (serverId streamId : Id) (address : Text) :
    Except StoreError (Subscription × PgLists) := do
  let after ← tables.suppressOnce choice
    ⟨serverId, "complaint", address, some complaintReason, some streamId⟩
  after.upsertSubscription choice serverId streamId address unsubscribedStatus

def removeSubscription (serverId streamId : Id) (address : Text) : Bool × PgLists :=
  (tables.subscriptions.rows.any (fun row => row.isOf serverId streamId address),
    { tables with
      toLists := tables.keepSubscriptions (fun row => !row.isOf serverId streamId address)
      streamed := fun row member => tables.streamed row (Table.mem_keep.mp member).1 })

def createUnsubscribeToken (serverId : Id) (streamId : Option Id) (address : Text) :
    Except StoreError (Text × PgLists) :=
  if tables.sends.unsubscribeTokens.any (fun entry => entry.2.token = choice.token) then
    .error (.conflict "Permalink has already been taken")
  else if ¬ (tables.servers serverId = true ∧ streamId.all tables.streams = true) then
    .error (.other choice.violation)
  else
    let entry := { token := choice.token, streamId := streamId, address := address }
    .ok (choice.token, { tables with
      sends := (Db.Tables.insertUnsubscribeToken serverId entry tables.sends).2 })

def setMessageCampaign (serverId : Id) (messageId : Nat) (campaignId : Id) : PgLists :=
  if tables.sends.messages.any (fun row =>
      row.id = messageId && row.message.serverId = serverId) then
    { tables with campaigns := tables.campaigns.assign messageId campaignId }
  else tables

/-- A transaction that fails, at a constraint or for another reason, has not happened. -/
def transacted {α : Type} (effect : Except StoreError (α × PgLists)) :
    Except StoreError α × PgLists :=
  match choice.fault with
  | some error => (.error (.other error), tables)
  | none =>
      match effect with
      | .error error => (.error error, tables)
      | .ok (result, after) => (.ok result, after)

/-- An operation of the store. A send operation handles the failures of its transactions itself. -/
def respond {β : Type} (operation : Operation β) : β × PgLists :=
  match operation with
  | .createSuppression new => tables.transacted choice (tables.createSuppression choice new)
  | .deleteSuppression serverId address =>
      tables.transacted choice (.ok (tables.deleteSuppression serverId address))
  | .createUnsubscribeToken serverId streamId address =>
      tables.transacted choice (tables.createUnsubscribeToken choice serverId streamId address)
  | .recordUnsubscribe token => tables.transacted choice (tables.recordUnsubscribe choice token)
  | .recordComplaintByToken token =>
      tables.transacted choice (tables.recordComplaintByToken choice token)
  | .recordComplaint serverId streamId address =>
      tables.transacted choice (tables.recordComplaint choice serverId streamId address)
  | .upsertSubscription serverId streamId address status => tables.transacted choice
      (tables.upsertSubscription choice serverId streamId address status)
  | .removeSubscription serverId streamId address =>
      tables.transacted choice (.ok (tables.removeSubscription serverId streamId address))
  | .insertSendOperation serverId plan idempotency =>
      let (outcome, sends) := storeSendOperation choice.platform choice.first choice.again
        choice.rival serverId plan idempotency tables.sends
      (outcome.mapError .other, { tables with sends := sends })
  | .createCampaign new => tables.transacted choice
      (let (campaign, campaigns) := tables.campaigns.createCampaign new choice.now
      .ok (campaign, { tables with campaigns := campaigns }))
  | .updateCampaign serverId id update => tables.transacted choice
      (let (campaign, campaigns) := tables.campaigns.updateCampaign serverId id update
      .ok (campaign, { tables with campaigns := campaigns }))
  | .claimDueCampaigns serverId now => tables.transacted choice
      (let (claimed, campaigns) := tables.campaigns.claimDueCampaigns serverId now
      .ok (claimed, { tables with campaigns := campaigns }))
  | .setCampaignProgress serverId id sent status completed => tables.transacted choice
      (.ok ((), { tables with
        campaigns := tables.campaigns.setCampaignProgress serverId id sent status completed }))
  | .setMessageCampaign serverId messageId campaignId => tables.transacted choice
      (.ok ((), tables.setMessageCampaign serverId messageId campaignId))

end PgLists

end Camelmailer.Api.Suppressions
