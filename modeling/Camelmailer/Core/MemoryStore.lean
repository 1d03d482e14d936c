import Camelmailer.Core.Message
import Camelmailer.Machine
import Mathlib.Data.List.AList

/-!
# Send operations of the in-memory store

`MemoryStore` keeps its data behind one lock, so each of its functions is one step. A send
operation stores its messages, counts the outgoing ones and leaves a record under the
server and the hash of its key; a later operation under the same key is answered from the
record until that expires.

The second part is about sequences of calls: between the operation that is stored and the
expiry of its record, every call under its key is answered from it and changes nothing.
-/

namespace Camelmailer

open Utf8

/-! ## The data -/

/-- A calendar month in UTC. -/
structure UsageMonth where
  year : Int
  month : Nat
deriving DecidableEq

/-- What the date library says about points in time. -/
structure Calendar where
  date : DateTime → Int
  monthOf : Int → UsageMonth

/-- A stored message. Its remaining columns have the values of a message that nothing has
happened to yet. -/
structure MessageRecord where
  id : Nat
  token : Text
  message : QueuedMessage
  subject : Option Text
  messageIdHeader : Option Text
  size : Nat
  createdAt : DateTime
deriving DecidableEq

/-- The `organization.usage_threshold` event. -/
structure UsageThresholdEvent where
  id : Text
  createdAt : DateTime
  organization : Organization
  month : UsageMonth
  threshold : Nat
  sent : Int
  limit : Int
deriving DecidableEq

/-- `MemoryIdempotencyRecord`. -/
structure IdempotencyRecord where
  requestHash : Text
  operation : Text
  response : SendOperationResult
  expiresAt : DateTime
deriving DecidableEq

/-- Whether a threshold has been announced. -/
instance (alert : Id × UsageMonth × Nat) (alerts : List (Id × UsageMonth × Nat)) :
    Decidable (alert ∈ alerts) := inferInstance

/-- The fields of `MemoryStoreInner` that send operations read or write, and the next
identifier. -/
structure MemoryStore where
  sendCounters : Id → Int → Int
  organizationSendCounters : Id → UsageMonth → Int
  usageAlerts : List (Id × UsageMonth × Nat)
  organizationPolicies : Id → Option OrganizationPolicy
  lifecycleEvents : List UsageThresholdEvent
  organizations : Id → Option Organization
  servers : Id → Option Server
  unsubscribeTokens : List (Id × PendingUnsubscribeToken)
  messages : List MessageRecord
  idempotencyRequests : AList (fun _ : Id × Text => IdempotencyRecord)
  nextId : Nat

/-- What a call draws from outside: the time at which it compares expiries, and for each
message it stores a time, a token, and the identifiers and times of events. -/
structure Draws where
  now : DateTime
  createdAt : Nat → DateTime
  token : Nat → Text
  eventId : Nat → Nat → Text
  eventAt : Nat → Nat → DateTime

/-! ## Counting -/

/-- `USAGE_THRESHOLDS`. -/
def usageThresholds : List Nat := [80, 100]

def reachedThresholds (sent : Int) (limit : Option Int) : List Nat :=
  match limit with
  | some limit =>
      if limit > 0 then usageThresholds.filter (fun threshold => sent * 100 ≥ limit * threshold)
      else []
  | none => []

namespace MemoryStore

variable (platform : Platform) (calendar : Calendar) (draws : Draws)

def empty : MemoryStore where
  sendCounters := fun _ _ => 0
  organizationSendCounters := fun _ _ => 0
  usageAlerts := []
  organizationPolicies := fun _ => none
  lifecycleEvents := []
  organizations := fun _ => none
  servers := fun _ => none
  unsubscribeTokens := []
  messages := []
  idempotencyRequests := ∅
  nextId := 1

/-- Announce a threshold, once for an organization and a month. -/
def announce (position : Nat) (organization : Organization) (month : UsageMonth) (sent : Int)
    (limit : Option Int) (store : MemoryStore) (threshold : Nat) : MemoryStore :=
  if (organization.id, month, threshold) ∈ store.usageAlerts then store
  else { store with
    usageAlerts := (organization.id, month, threshold) :: store.usageAlerts
    lifecycleEvents := store.lifecycleEvents ++ [{
      id := draws.eventId position threshold
      createdAt := draws.eventAt position threshold
      organization := organization
      month := month
      threshold := threshold
      sent := sent
      limit := limit.getD 0 }] }

/-- Count a message for an organization, and announce the thresholds it reaches. -/
def countOrganization (position : Nat) (organization : Organization) (month : UsageMonth)
    (store : MemoryStore) : MemoryStore :=
  let sent := store.organizationSendCounters organization.id month + 1
  let limit := (store.organizationPolicies organization.id).bind
    OrganizationPolicy.monthlySendLimit
  (reachedThresholds sent limit).foldl (announce draws position organization month sent limit)
    { store with
      organizationSendCounters := Function.update store.organizationSendCounters organization.id
        (Function.update (store.organizationSendCounters organization.id) month sent) }

def countOutgoing (position : Nat) (serverId : Id) (moment : DateTime) (store : MemoryStore) :
    MemoryStore :=
  let date := calendar.date moment
  let counted := { store with
    sendCounters := Function.update store.sendCounters serverId
      (Function.update (store.sendCounters serverId) date (store.sendCounters serverId date + 1)) }
  match (store.servers serverId).bind (fun server => store.organizations server.organizationId) with
  | none => counted
  | some organization =>
      counted.countOrganization draws position organization (calendar.monthOf date)

/-! ## Storing -/

def buildMessageRecord (position : Nat) (message : QueuedMessage) (store : MemoryStore) :
    MessageRecord × SentMessage :=
  ({ id := store.nextId
     token := draws.token position
     message := message
     subject := headerValue platform message.rawMessage "subject"
     messageIdHeader := headerValue platform message.rawMessage "message-id"
     size := message.rawMessage.length
     createdAt := draws.createdAt position },
    ⟨store.nextId, draws.token position, message.rcptTo⟩)

/-- Store one message of a plan with its unsubscribe token. -/
def storePlanned (serverId : Id) (position : Nat) (planned : SendPlanMessage)
    (store : MemoryStore) : SentMessage × MemoryStore :=
  let tokens := match planned.unsubscribeToken with
    | some token => store.unsubscribeTokens ++ [(serverId, token)]
    | none => store.unsubscribeTokens
  let (record, sent) := store.buildMessageRecord platform draws position planned.message
  let prepared := { store with unsubscribeTokens := tokens, nextId := store.nextId + 1 }
  let counted := match record.message.scope with
    | .outgoing => prepared.countOutgoing calendar draws position record.message.serverId
        record.createdAt
    | .incoming => prepared
  (sent, { counted with messages := counted.messages ++ [record] })

def storeMessages (serverId : Id) :
    Nat → List SendPlanMessage → MemoryStore → List SentMessage × MemoryStore
  | _, [], store => ([], store)
  | position, planned :: rest, store =>
      let (sent, next) := store.storePlanned platform calendar draws serverId position planned
      let (later, final) := storeMessages serverId (position + 1) rest next
      (sent :: later, final)

def storePlan (serverId : Id) :
    Nat → List SendPlanItem → MemoryStore → List SendOperationItem × MemoryStore
  | _, [], store => ([], store)
  | position, .messages planned :: rest, store =>
      let (recipients, next) := storeMessages platform calendar draws serverId position planned store
      let (items, final) := storePlan serverId (position + planned.length) rest next
      (.success ⟨recipients.head?.map SentMessage.id, recipients⟩ :: items, final)
  | position, .error code message :: rest, store =>
      let (items, final) := storePlan serverId position rest store
      (.error code message :: items, final)

/-- What a record that has not expired says about a request. -/
def answer (now : DateTime) (request : IdempotencyRequest) :
    Option IdempotencyRecord → IdempotencyLookup
  | none => .new
  | some record =>
      if record.expiresAt ≤ now then .new
      else if record.requestHash ≠ request.requestHash ∨ record.operation ≠ request.operation then
        .conflict
      else .replay record.response

def idempotencyResult (now : DateTime) (serverId : Id) (request : IdempotencyRequest)
    (store : MemoryStore) : IdempotencyLookup :=
  answer now request (store.idempotencyRequests.lookup (serverId, request.keyHash))

/-- Store a plan without a key. -/
def insertPlan (serverId : Id) (plan : List SendPlanItem) (store : MemoryStore) :
    SendOperationResult × MemoryStore :=
  let (items, stored) := storePlan platform calendar draws serverId 0 plan store
  (⟨items⟩, stored)

def insertSendOperation (serverId : Id) (plan : List SendPlanItem)
    (idempotency : Option IdempotencyRequest) (store : MemoryStore) :
    StoreSendOutcome × MemoryStore :=
  match idempotency with
  | none =>
      let (response, stored) := store.insertPlan platform calendar draws serverId plan
      (.stored response, stored)
  | some request =>
      let key := (serverId, request.keyHash)
      match answer draws.now request (store.idempotencyRequests.lookup key) with
      | .replay response => (.replayed response, store)
      | .conflict => (.conflict, store)
      | .new =>
          let cleared := { store with idempotencyRequests := store.idempotencyRequests.erase key }
          let (response, stored) := cleared.insertPlan platform calendar draws serverId plan
          (.stored response, { stored with
            idempotencyRequests := stored.idempotencyRequests.insert key
              ⟨request.requestHash, request.operation, response, request.expiresAt⟩ })

/-- Keep the records that have not expired. -/
def retainUnexpired (now : DateTime) (records : AList (fun _ : Id × Text => IdempotencyRecord)) :
    AList (fun _ : Id × Text => IdempotencyRecord) :=
  ⟨records.entries.filter (fun entry => entry.2.expiresAt > now),
    records.nodupKeys.sublist List.filter_sublist⟩

/-- `prune_idempotency_requests_at`: the number of records removed. -/
def pruneIdempotencyRequestsAt (now : DateTime) (store : MemoryStore) : Nat × MemoryStore :=
  let kept := retainUnexpired now store.idempotencyRequests
  (store.idempotencyRequests.entries.length - kept.entries.length,
    { store with idempotencyRequests := kept })

/-! ## The records -/

variable {platform calendar draws}

theorem announce_records (position : Nat) (organization : Organization) (month : UsageMonth)
    (sent : Int) (limit : Option Int) (store : MemoryStore) (threshold : Nat) :
    (announce draws position organization month sent limit store
      threshold).idempotencyRequests = store.idempotencyRequests := by
  unfold announce
  split <;> rfl

theorem countOutgoing_records (position : Nat) (serverId : Id) (moment : DateTime)
    (store : MemoryStore) :
    (store.countOutgoing calendar draws position serverId moment).idempotencyRequests =
      store.idempotencyRequests := by
  have announced (organization : Organization) (month : UsageMonth) (sent : Int)
      (limit : Option Int) (thresholds : List Nat) (store : MemoryStore) :
      (thresholds.foldl (announce draws position organization month sent limit)
        store).idempotencyRequests = store.idempotencyRequests := by
    induction thresholds generalizing store with
    | nil => rfl
    | cons threshold rest ih =>
        rw [List.foldl_cons, ih, announce_records]
  unfold countOutgoing
  split
  · rfl
  · exact announced _ _ _ _ _ _

theorem storePlanned_records (serverId : Id) (position : Nat) (planned : SendPlanMessage)
    (store : MemoryStore) :
    (store.storePlanned platform calendar draws serverId position planned).2.idempotencyRequests =
      store.idempotencyRequests := by
  unfold storePlanned
  dsimp only
  split
  · exact countOutgoing_records ..
  · rfl

theorem storeMessages_records (serverId : Id) (planned : List SendPlanMessage) (position : Nat)
    (store : MemoryStore) :
    (storeMessages platform calendar draws serverId position planned
      store).2.idempotencyRequests = store.idempotencyRequests := by
  induction planned generalizing position store with
  | nil => rfl
  | cons message rest ih =>
      exact (ih ..).trans (storePlanned_records ..)

/-- Storing messages leaves the records of requests alone. -/
theorem storePlan_records (serverId : Id) (plan : List SendPlanItem) (position : Nat)
    (store : MemoryStore) :
    (storePlan platform calendar draws serverId position plan store).2.idempotencyRequests =
      store.idempotencyRequests := by
  induction plan generalizing position store with
  | nil => rfl
  | cons item rest ih =>
      cases item with
      | messages planned => exact (ih ..).trans (storeMessages_records ..)
      | error code message => exact ih ..

/-- A record that has not expired answers for its request. -/
theorem answer_unexpired {now : DateTime} (request : IdempotencyRequest)
    (record : IdempotencyRecord) (unexpired : now < record.expiresAt) :
    answer now request (some record) =
      if record.requestHash = request.requestHash ∧ record.operation = request.operation then
        .replay record.response
      else .conflict := by
  unfold answer
  dsimp only
  rw [if_neg (not_le.mpr unexpired)]
  by_cases same : record.requestHash = request.requestHash ∧ record.operation = request.operation
  · rw [if_pos same, if_neg (by simp [same])]
  · rw [if_neg same, if_pos (not_and_or.mp same)]

/-- What a send operation does: it is answered from a record and changes nothing, or it
stores its plan and leaves its record under its key alone. -/
theorem insertSendOperation_cases (platform : Platform) (calendar : Calendar) (draws : Draws)
    (serverId : Id) (plan : List SendPlanItem) (request : IdempotencyRequest)
    (store : MemoryStore) :
    (∃ response, store.insertSendOperation platform calendar draws serverId plan (some request) =
        (.replayed response, store) ∧
      answer draws.now request (store.idempotencyRequests.lookup (serverId, request.keyHash)) =
        .replay response) ∨
    (store.insertSendOperation platform calendar draws serverId plan (some request) =
        (.conflict, store) ∧
      answer draws.now request (store.idempotencyRequests.lookup (serverId, request.keyHash)) =
        .conflict) ∨
    ∃ response after, store.insertSendOperation platform calendar draws serverId plan
        (some request) = (.stored response, after) ∧
      answer draws.now request (store.idempotencyRequests.lookup (serverId, request.keyHash)) =
        .new ∧
      after.idempotencyRequests.lookup (serverId, request.keyHash) =
        some ⟨request.requestHash, request.operation, response, request.expiresAt⟩ ∧
      ∀ key ≠ (serverId, request.keyHash),
        after.idempotencyRequests.lookup key = store.idempotencyRequests.lookup key := by
  unfold insertSendOperation
  dsimp only
  cases answered : answer draws.now request
      (store.idempotencyRequests.lookup (serverId, request.keyHash)) with
  | replay response => exact .inl ⟨response, rfl, rfl⟩
  | conflict => exact .inr (.inl ⟨rfl, rfl⟩)
  | new =>
      right
      right
      refine ⟨_, _, rfl, rfl, AList.lookup_insert _, ?_⟩
      intro key different
      rw [AList.lookup_insert_ne different]
      unfold insertPlan
      rw [storePlan_records]
      exact AList.lookup_erase_ne different

/-- Pruning keeps the records that have not expired. -/
theorem lookup_retainUnexpired {now : DateTime}
    {records : AList (fun _ : Id × Text => IdempotencyRecord)} {key : Id × Text}
    {record : IdempotencyRecord} (found : records.lookup key = some record)
    (unexpired : now < record.expiresAt) :
    (retainUnexpired now records).lookup key = some record := by
  apply AList.mem_lookup_iff.mpr
  apply List.mem_filter.mpr
  exact ⟨AList.mem_lookup_iff.mp found, by simpa using unexpired⟩

/-! ## Sequences of calls -/

inductive Call where
  | insertSendOperation (draws : Draws) (serverId : Id) (plan : List SendPlanItem)
      (idempotency : Option IdempotencyRequest)
  | idempotencyResult (now : DateTime) (serverId : Id) (request : IdempotencyRequest)
  | pruneIdempotencyRequestsAt (now : DateTime)

inductive Answer where
  | outcome (outcome : StoreSendOutcome)
  | lookup (lookup : IdempotencyLookup)
  | pruned (count : Nat)
deriving DecidableEq

/-- The time with which a call compares expiries. The worker prunes with the time it has
just read from the clock. -/
def Call.time : Call → DateTime
  | .insertSendOperation draws _ _ _ => draws.now
  | .idempotencyResult now _ _ => now
  | .pruneIdempotencyRequestsAt now => now

def step (platform : Platform) (calendar : Calendar) (store : MemoryStore) :
    Call → Option (Answer × MemoryStore)
  | .insertSendOperation draws serverId plan idempotency =>
      let (outcome, after) := store.insertSendOperation platform calendar draws serverId plan
        idempotency
      some (.outcome outcome, after)
  | .idempotencyResult now serverId request =>
      some (.lookup (store.idempotencyResult now serverId request), store)
  | .pruneIdempotencyRequestsAt now =>
      let (count, after) := store.pruneIdempotencyRequestsAt now
      some (.pruned count, after)

abbrev CallEvent := Machine.Event MemoryStore Call Answer

/-- This call has stored an operation under a key. -/
def Stores (event : CallEvent) (serverId : Id) (request : IdempotencyRequest)
    (response : SendOperationResult) : Prop :=
  ∃ draws plan, event.input = .insertSendOperation draws serverId plan (some request) ∧
    event.output = .outcome (.stored response)

/-- The request of a call, and the server it is for. -/
def Call.request : Call → Option (Id × IdempotencyRequest)
  | .insertSendOperation _ serverId _ idempotency => idempotency.map (serverId, ·)
  | .idempotencyResult _ serverId request => some (serverId, request)
  | .pruneIdempotencyRequestsAt _ => none

/-- The answer of a call that repeats a stored operation, and of one that uses its key for
something else. -/
def Call.replay (response : SendOperationResult) : Call → Answer
  | .idempotencyResult _ _ _ => .lookup (.replay response)
  | _ => .outcome (.replayed response)

def Call.conflict : Call → Answer
  | .idempotencyResult _ _ _ => .lookup .conflict
  | _ => .outcome .conflict

/-- A call is answered from a stored operation: it gets the very response if it repeats the
operation, it is refused otherwise, and nothing changes. -/
def AnsweredFrom (event : CallEvent) (request other : IdempotencyRequest)
    (response : SendOperationResult) : Prop :=
  event.output = (if request.requestHash = other.requestHash ∧ request.operation = other.operation
    then event.input.replay response else event.input.conflict) ∧
  event.after = event.before

/-- Whether a call has been answered from a record. -/
def Answer.isReplay : Answer → Bool
  | .outcome (.replayed _) => true
  | .outcome .conflict => true
  | .lookup _ => true
  | _ => false

variable {before after : MemoryStore} {call : Call} {given : Answer} {serverId : Id}
  {request : IdempotencyRequest} {response : SendOperationResult}

/-- A record that has not expired answers every call under its key. -/
theorem step_answered {other : IdempotencyRequest}
    (found : before.idempotencyRequests.lookup (serverId, request.keyHash) =
      some ⟨request.requestHash, request.operation, response, request.expiresAt⟩)
    (stepped : step platform calendar before call = some (given, after))
    (timely : call.time < request.expiresAt) (asks : call.request = some (serverId, other))
    (same : other.keyHash = request.keyHash) :
    AnsweredFrom ⟨before, call, given, after⟩ request other response := by
  have answers (now : DateTime) (unexpired : now < request.expiresAt) := answer_unexpired other
    ⟨request.requestHash, request.operation, response, request.expiresAt⟩ unexpired
  cases call with
  | pruneIdempotencyRequestsAt now => cases asks
  | idempotencyResult now server asked =>
      cases asks
      cases stepped
      refine ⟨?_, rfl⟩
      change Answer.lookup (answer now other _) = _
      rw [same, found, answers now timely]
      split <;> rfl
  | insertSendOperation draws server plan idempotency =>
      obtain ⟨asked, rfl, rest⟩ := Option.map_eq_some_iff.mp asks
      cases rest
      have answered := answers draws.now timely
      rw [← found, ← same] at answered
      obtain ⟨replayed, performed, replays⟩ | ⟨performed, conflicts⟩ |
        ⟨stored, left, performed, unanswered, -⟩ :=
        insertSendOperation_cases platform calendar draws serverId plan other before
      · simp only [step, performed] at stepped
        cases stepped
        rw [replays] at answered
        split at answered
        case isTrue equal =>
          cases answered
          exact ⟨(if_pos equal).symm, rfl⟩
        case isFalse => cases answered
      · simp only [step, performed] at stepped
        cases stepped
        rw [conflicts] at answered
        split at answered
        case isTrue => cases answered
        case isFalse different => exact ⟨(if_neg different).symm, rfl⟩
      · rw [unanswered] at answered
        split at answered <;> cases answered

/-- A record stays until it expires, whatever is called. -/
theorem step_keeps_record (found : before.idempotencyRequests.lookup (serverId, request.keyHash) =
      some ⟨request.requestHash, request.operation, response, request.expiresAt⟩)
    (stepped : step platform calendar before call = some (given, after))
    (timely : call.time < request.expiresAt) :
    after.idempotencyRequests.lookup (serverId, request.keyHash) =
      some ⟨request.requestHash, request.operation, response, request.expiresAt⟩ := by
  cases call with
  | pruneIdempotencyRequestsAt now =>
      cases stepped
      exact lookup_retainUnexpired found timely
  | idempotencyResult now server asked =>
      cases stepped
      exact found
  | insertSendOperation draws server plan idempotency =>
      cases idempotency with
      | none =>
          cases stepped
          rw [storePlan_records]
          exact found
      | some other =>
          by_cases own : (serverId, request.keyHash) = (server, other.keyHash)
          · obtain ⟨rfl, same⟩ := Prod.mk.inj own
            have answered := step_answered found stepped timely rfl same.symm
            rw [show after = before from answered.2]
            exact found
          · obtain ⟨replayed, performed, -⟩ | ⟨performed, -⟩ |
              ⟨stored, left, performed, -, -, others⟩ :=
              insertSendOperation_cases platform calendar draws server plan other before
            · simp only [step, performed] at stepped
              cases stepped
              exact found
            · simp only [step, performed] at stepped
              cases stepped
              exact found
            · simp only [step, performed] at stepped
              cases stepped
              rw [others _ own]
              exact found

/-- An operation that is stored leaves its record. -/
theorem step_stores (stepped : step platform calendar before call = some (given, after))
    (stores : Stores ⟨before, call, given, after⟩ serverId request response) :
    after.idempotencyRequests.lookup (serverId, request.keyHash) =
      some ⟨request.requestHash, request.operation, response, request.expiresAt⟩ := by
  obtain ⟨draws, plan, rfl, rfl⟩ := stores
  obtain ⟨replayed, performed, -⟩ | ⟨performed, -⟩ | ⟨stored, left, performed, -, recorded, -⟩ :=
    insertSendOperation_cases platform calendar draws serverId plan request before
  · simp [step, performed] at stepped
  · simp [step, performed] at stepped
  · simp only [step, performed] at stepped
    cases stepped
    exact recorded

/-- What is answered from a record changes nothing. -/
theorem step_replay_unchanged (stepped : step platform calendar before call = some (given, after))
    (replays : given.isReplay = true) : after = before := by
  cases call with
  | pruneIdempotencyRequestsAt now =>
      cases stepped
      cases replays
  | idempotencyResult now server asked =>
      cases stepped
      rfl
  | insertSendOperation draws server plan idempotency =>
      cases idempotency with
      | none =>
          cases stepped
          cases replays
      | some request =>
          obtain ⟨replayed, performed, -⟩ | ⟨performed, -⟩ | ⟨stored, left, performed, -⟩ :=
            insertSendOperation_cases platform calendar draws server plan request before
          · simp only [step, performed] at stepped
            cases stepped
            rfl
          · simp only [step, performed] at stepped
            cases stepped
            rfl
          · simp only [step, performed] at stepped
            cases stepped
            cases replays

/-- For every sequence of calls on a store: from the call that stores an operation under a
key until its record expires, every call under the key is answered from it, so nothing is
stored again. Answers from a record never change the store. -/
theorem stored_operation_answers_until_expiry (platform : Platform) (calendar : Calendar)
    (store : MemoryStore) (calls : List Call) (events : List CallEvent) (final : MemoryStore)
    (ran : Machine.run (step platform calendar) store calls = some (events, final)) :
    (∀ front stored middle later back serverId request response other,
      events = front ++ stored :: (middle ++ later :: back) →
      Stores stored serverId request response →
      (∀ event ∈ middle ++ [later], event.input.time < request.expiresAt) →
      later.input.request = some (serverId, other) → other.keyHash = request.keyHash →
      AnsweredFrom later request other response) ∧
    ∀ event ∈ events, event.output.isReplay = true → event.after = event.before := by
  constructor
  · rintro front stored middle later back serverId request response other rfl stores timely asks
      same
    obtain ⟨found, stepped⟩ := Machine.run_since
      (P := fun store => store.idempotencyRequests.lookup (serverId, request.keyHash) =
        some ⟨request.requestHash, request.operation, response, request.expiresAt⟩)
      (fun event stepped found timely => step_keeps_record found stepped timely) ran
      (fun stepped => step_stores stepped stores)
      (fun event member => timely event (List.mem_append_left _ member))
    exact step_answered found stepped (timely later (by simp)) asks same
  · intro event member replays
    obtain ⟨front, back, rfl⟩ := List.append_of_mem member
    obtain ⟨reached, rest, suffix⟩ := Machine.run_suffix ran
    obtain ⟨stepped, -⟩ := Machine.run_event suffix
    exact step_replay_unchanged stepped replays

/-- A request under a key that expires at time ten. -/
def exampleRequest : IdempotencyRequest where
  keyHash := "key"
  requestHash := "body"
  operation := "messages.send"
  expiresAt := 10

/-- A message is stored at time one, and the request is repeated at time nine. -/
def repeatedRequest : List Call :=
  let message : QueuedMessage := {
    serverId := 1
    rcptTo := "x@y.example"
    mailFrom := "me@a.example"
    rawMessage := encode "Subject: a\r\n\r\n"
    receivedWithSsl := false
    scope := .outgoing
    bounce := false
    domainId := none
    credentialId := none
    routeId := none
    tag := none
    metadata := none
    streamId := none }
  let draws (now : DateTime) : Draws := ⟨now, fun _ => now, fun _ => "token",
    fun _ _ => "event", fun _ _ => now⟩
  [.insertSendOperation (draws 1) 1 [.messages [message.planned]] (some exampleRequest),
    .insertSendOperation (draws 9) 1 [.messages [message.planned]] (some exampleRequest)]

/-- An answer that a request has stored its messages. -/
def hasStored : Answer → Bool
  | .outcome (.stored _) => true
  | _ => false

/-- The repetition is given the stored response, and nothing is stored twice. -/
theorem repeated_request_replayed :
    ∃ stored later final response,
      Machine.run (step .ascii ⟨(· / hours 24), fun _ => ⟨1970, 1⟩⟩) .empty repeatedRequest =
        some ([stored, later], final) ∧
      Stores stored 1 exampleRequest response ∧ final.messages.length = 1 ∧
      AnsweredFrom later exampleRequest exampleRequest response := by
  have checked : (Machine.run (step .ascii ⟨(· / hours 24), fun _ => ⟨1970, 1⟩⟩) .empty
      repeatedRequest).any (fun ran => ran.2.messages.length == 1 &&
        ran.1.head?.any (fun stored => hasStored stored.output)) = true := by
    decide
  obtain ⟨⟨events, final⟩, ran, holds⟩ := (Option.any_eq_true _ _).mp checked
  obtain ⟨single, shape⟩ := Bool.and_eq_true_iff.mp holds
  obtain ⟨output, middle, rest, first, ranRest, rfl⟩ := Machine.run_cons ran
  obtain ⟨again, last, none, second, ended, rfl⟩ := Machine.run_cons ranRest
  cases ended
  simp only [List.head?_cons, Option.any_some] at shape
  unfold hasStored at shape
  split at shape
  case h_2 => cases shape
  case h_1 _ response =>
    refine ⟨_, _, final, response, ran, ⟨_, _, rfl, rfl⟩, beq_iff_eq.mp single, ?_⟩
    apply (stored_operation_answers_until_expiry .ascii _ .empty _ _ final ran).1 [] _ [] _ [] 1
      exampleRequest response exampleRequest rfl ⟨_, _, rfl, rfl⟩
    · intro event member
      obtain rfl := List.mem_singleton.mp member
      exact (by decide : (9 : Int) < 10)
    · rfl
    · rfl

end MemoryStore

end Camelmailer
