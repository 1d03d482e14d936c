import Camelmailer.Db.PgStore

/-!
# What storing leaves in the tables

For each function of `PgStore` the rows it adds when it succeeds. Everything that fails or
is rolled back leaves the tables as they were, which is the law of transactions, so it is
only stated for the functions that callers use.

`Sound` relates the records of requests to the messages: what the response of a request
names is stored. It is kept by every operation of the sink.
-/

namespace Camelmailer.Db

open Utf8

variable {platform : Platform} {circumstances first again : Circumstances}
  {faults : Statement → Option Text} {tables working : Tables}

/-! ## Storing messages -/

/-- Messages have been stored: their rows are added, and each of them is queued. -/
structure Tables.Stores (before after : Tables) (rows : List MessageRow) : Prop where
  messages : after.messages = before.messages ++ rows
  queued : ∃ entries, after.queuedMessages = before.queuedMessages ++ entries ∧
    entries.map QueueRow.messageId = rows.map MessageRow.id

/-- What storing messages does to the tables. The records of requests stay as they are. -/
structure Tables.Gains (before after : Tables) (rows : List MessageRow) : Prop extends
    Tables.Stores before after rows where
  requests : after.idempotencyRequests = before.idempotencyRequests

/-- Whether a message counts against the limits. -/
def isOutgoing (message : QueuedMessage) : Bool := message.scope == .outgoing

/-- Messages have been counted on a day of a month: the outgoing ones, for their servers
and the organizations of these. -/
structure Tables.Counts (circumstances : Circumstances) (before after : Tables)
    (messages : List QueuedMessage) : Prop where
  servers : ∀ serverId day, after.serverSendCounters serverId day =
    before.serverSendCounters serverId day + if day = circumstances.day then
      messages.countP (fun message => isOutgoing message && message.serverId == serverId) else 0
  organizations : ∀ organizationId month, after.organizationSendCounters organizationId month =
    before.organizationSendCounters organizationId month + if month = circumstances.month then
      messages.countP (fun message => isOutgoing message &&
        before.organizationOf message.serverId == some organizationId) else 0
  owners : after.organizationOf = before.organizationOf

/-- Messages have been stored and counted. -/
structure Tables.Gained (circumstances : Circumstances) (before after : Tables)
    (rows : List MessageRow) : Prop extends Tables.Gains before after rows where
  counts : Tables.Counts circumstances before after (rows.map MessageRow.message)

namespace Tables.Counts

theorem of_eq {before after : Tables}
    (servers : after.serverSendCounters = before.serverSendCounters)
    (organizations : after.organizationSendCounters = before.organizationSendCounters)
    (owners : after.organizationOf = before.organizationOf) :
    Counts circumstances before after [] :=
  ⟨by simp [servers], by simp [organizations], owners⟩

theorem trans {before middle after : Tables} {early late : List QueuedMessage}
    (start : Counts circumstances before middle early)
    (rest : Counts circumstances middle after late) :
    Counts circumstances before after (early ++ late) := by
  refine ⟨?_, ?_, rest.owners.trans start.owners⟩
  · intro serverId day
    rw [rest.servers, start.servers, List.countP_append]
    split <;> omega
  · intro organizationId month
    rw [rest.organizations, start.organizations, List.countP_append, start.owners]
    split <;> omega

end Tables.Counts

namespace Tables.Gains

theorem of_eq {before after : Tables} (messages : after.messages = before.messages)
    (queued : after.queuedMessages = before.queuedMessages)
    (requests : after.idempotencyRequests = before.idempotencyRequests) :
    Gains before after [] :=
  ⟨⟨by rw [messages, List.append_nil], [], by rw [queued, List.append_nil], rfl⟩, requests⟩

theorem trans {before middle after : Tables} {early late : List MessageRow}
    (start : Gains before middle early) (rest : Gains middle after late) :
    Gains before after (early ++ late) := by
  obtain ⟨entries, queued, named⟩ := start.queued
  obtain ⟨more, added, called⟩ := rest.queued
  refine ⟨⟨?_, entries ++ more, ?_, ?_⟩, rest.requests.trans start.requests⟩
  · rw [rest.messages, start.messages, List.append_assoc]
  · rw [added, queued, List.append_assoc]
  · rw [List.map_append, List.map_append, named, called]

end Tables.Gains

namespace Tables.Gained

theorem trans {before middle after : Tables} {early late : List MessageRow}
    (start : Gained circumstances before middle early)
    (rest : Gained circumstances middle after late) :
    Gained circumstances before after (early ++ late) := by
  refine ⟨start.toGains.trans rest.toGains, ?_⟩
  rw [List.map_append]
  exact start.counts.trans rest.counts

end Tables.Gained

/-- A counter of one key and date is raised by one. -/
theorem raised_counter (counters : Id → Int → Nat) (key id : Id) (date day : Int) :
    Function.update counters key (Function.update (counters key) date (counters key date + 1)) id
      day = counters id day + if id = key ∧ day = date then 1 else 0 := by
  by_cases same : id = key
  · subst same
    by_cases today : day = date
    · subst today
      simp
    · simp [today]
  · simp [same]

variable {position : Nat} {message : QueuedMessage}

/-- Counting a message leaves the rows alone. -/
theorem countSend_ok
    (done : countSend circumstances position message faults tables = .ok ((), working)) :
    Tables.Gains tables working [] ∧ tables.Counts circumstances working [message] := by
  unfold countSend at done
  cases scope : message.scope with
  | incoming =>
      rw [scope] at done
      obtain ⟨-, rfl⟩ := Tx.pure_ok.mp done
      refine ⟨.of_eq rfl rfl rfl, ?_, ?_, rfl⟩
      · simp [isOutgoing, scope]
      · simp [isOutgoing, scope]
  | outgoing =>
      rw [scope] at done
      obtain ⟨⟨⟩, middle, counted, rest⟩ := Tx.bind_ok.mp done
      obtain ⟨-, server⟩ := Tx.statement_ok.mp counted
      obtain ⟨-, organization⟩ := Tx.statement_ok.mp rest
      cases server
      have servers (serverId : Id) (day : Int) : Function.update tables.serverSendCounters
          message.serverId (Function.update (tables.serverSendCounters message.serverId)
            circumstances.day (tables.serverSendCounters message.serverId circumstances.day + 1))
          serverId day = tables.serverSendCounters serverId day + if day = circumstances.day then
            [message].countP (fun message => isOutgoing message && message.serverId == serverId)
            else 0 := by
        rw [raised_counter]
        by_cases own : message.serverId = serverId
        · simp [isOutgoing, scope, own]
        · simp [isOutgoing, own, Ne.symm own]
      unfold Tables.countOrganizationSend at organization
      cases owner : tables.organizationOf message.serverId with
      | none =>
          simp only [owner] at organization
          cases organization
          refine ⟨.of_eq rfl rfl rfl, servers, ?_, rfl⟩
          simp [owner]
      | some organizationId =>
          simp only [owner] at organization
          cases organization
          refine ⟨.of_eq rfl rfl rfl, servers, ?_, rfl⟩
          intro other month
          refine (raised_counter tables.organizationSendCounters organizationId other
            circumstances.month month).trans ?_
          by_cases own : organizationId = other
          · simp [isOutgoing, scope, owner, own]
          · simp [owner, own, Ne.symm own]

variable {sent : SentMessage}

theorem insertMessageInTx_ok
    (done : insertMessageInTx platform circumstances position message faults tables =
      .ok (sent, working)) :
    ∃ row, tables.Gained circumstances working [row] ∧ row.message = message ∧
      row.sent = sent := by
  obtain ⟨messageId, inserted, insertion, rest⟩ := Tx.bind_ok.mp done
  obtain ⟨⟨⟩, enqueued, queueing, rest⟩ := Tx.bind_ok.mp rest
  obtain ⟨⟨⟩, counted, counting, rest⟩ := Tx.bind_ok.mp rest
  obtain ⟨rfl, rfl⟩ := Tx.pure_ok.mp rest
  obtain ⟨-, insertion⟩ := Tx.statement_ok.mp insertion
  obtain ⟨-, queueing⟩ := Tx.statement_ok.mp queueing
  obtain ⟨row, stored, uncounted, recorded, named⟩ : ∃ row, Tables.Gains tables enqueued [row] ∧
      tables.Counts circumstances enqueued [] ∧ row.message = message ∧
      row.sent = ⟨messageId, circumstances.token position, message.rcptTo⟩ := by
    cases insertion
    cases queueing
    exact ⟨_, ⟨⟨rfl, [_], rfl, rfl⟩, rfl⟩, .of_eq rfl rfl rfl, rfl, rfl⟩
  obtain ⟨kept, counts⟩ := countSend_ok counting
  refine ⟨row, ⟨stored.trans kept, ?_⟩, recorded, named⟩
  rw [List.map_singleton, recorded]
  exact uncounted.trans counts

variable {serverId : Id}

/-- A message of a plan is stored for the server of the operation. -/
theorem storePlanned_ok {planned : SendPlanMessage}
    (done : storePlanned platform circumstances serverId position planned faults tables =
      .ok (sent, working)) :
    ∃ row, tables.Gained circumstances working [row] ∧ row.message = planned.message ∧
      row.sent = sent ∧ planned.message.serverId = serverId := by
  unfold storePlanned at done
  by_cases own : planned.message.serverId = serverId
  · rw [if_neg (not_not_intro own)] at done
    cases token : planned.unsubscribeToken with
    | none =>
        rw [token] at done
        obtain ⟨row, gains, recorded, named⟩ := insertMessageInTx_ok done
        exact ⟨row, gains, recorded, named, own⟩
    | some token' =>
        rw [token] at done
        obtain ⟨⟨⟩, middle, insertion, rest⟩ := Tx.bind_ok.mp done
        obtain ⟨-, insertion⟩ := Tx.statement_ok.mp insertion
        obtain ⟨row, gains, recorded, named⟩ := insertMessageInTx_ok rest
        have kept : tables.Gained circumstances middle [] := by
          cases insertion
          exact ⟨.of_eq rfl rfl rfl, .of_eq rfl rfl rfl⟩
        exact ⟨row, kept.trans gains, recorded, named, own⟩
  · rw [if_pos own] at done
    exact absurd done Tx.throw_ok

theorem storeMessages_ok (planned : List SendPlanMessage) {tables : Tables}
    {sent : List SentMessage}
    (done : storeMessages platform circumstances serverId position planned faults tables =
      .ok (sent, working)) :
    ∃ rows, tables.Gained circumstances working rows ∧
      rows.map MessageRow.message = planned.map SendPlanMessage.message ∧
      rows.map MessageRow.sent = sent ∧
      ∀ plannedMessage ∈ planned, plannedMessage.message.serverId = serverId := by
  induction planned generalizing position tables sent with
  | nil =>
      obtain ⟨rfl, rfl⟩ := Tx.pure_ok.mp done
      exact ⟨[], ⟨.of_eq rfl rfl rfl, .of_eq rfl rfl rfl⟩, rfl, rfl, by simp⟩
  | cons plannedMessage rest ih =>
      obtain ⟨head, middle, stored, later⟩ := Tx.bind_ok.mp done
      obtain ⟨tail, final, continued, ended⟩ := Tx.bind_ok.mp later
      obtain ⟨rfl, rfl⟩ := Tx.pure_ok.mp ended
      obtain ⟨row, gains, recorded, named, own⟩ := storePlanned_ok stored
      obtain ⟨rows, more, recordedRest, namedRest, ownRest⟩ := ih continued
      refine ⟨row :: rows, gains.trans more, ?_, ?_, ?_⟩
      · rw [List.map_cons, List.map_cons, recorded, recordedRest]
      · rw [List.map_cons, named, namedRest]
      · exact List.forall_mem_cons.mpr ⟨own, ownRest⟩

/-- The messages of a plan. -/
def planMessages (plan : List SendPlanItem) : List QueuedMessage :=
  plan.flatMap (fun item => match item with
    | .messages planned => planned.map SendPlanMessage.message
    | .error _ _ => [])

/-- The messages that an item of a response names. -/
def sentByItem : SendOperationItem → List SentMessage
  | .success result => result.recipients
  | .error _ _ => []

/-- The messages that a response names. -/
def sentBy (response : SendOperationResult) : List SentMessage :=
  response.items.flatMap sentByItem

theorem storePlan_ok (plan : List SendPlanItem) {tables : Tables} {items : List SendOperationItem}
    (done : storePlan platform circumstances serverId position plan faults tables =
      .ok (items, working)) :
    ∃ rows, tables.Gained circumstances working rows ∧
      rows.map MessageRow.message = planMessages plan ∧
      rows.map MessageRow.sent = sentBy ⟨items⟩ ∧
      ∀ message ∈ planMessages plan, message.serverId = serverId := by
  induction plan generalizing position tables items with
  | nil =>
      obtain ⟨rfl, rfl⟩ := Tx.pure_ok.mp done
      exact ⟨[], ⟨.of_eq rfl rfl rfl, .of_eq rfl rfl rfl⟩, rfl, rfl, by simp [planMessages]⟩
  | cons item rest ih =>
      cases item with
      | messages planned =>
          obtain ⟨recipients, middle, stored, later⟩ := Tx.bind_ok.mp done
          obtain ⟨tail, final, continued, ended⟩ := Tx.bind_ok.mp later
          obtain ⟨rfl, rfl⟩ := Tx.pure_ok.mp ended
          obtain ⟨rows, gains, recorded, named, own⟩ := storeMessages_ok planned stored
          obtain ⟨others, more, recordedRest, namedRest, ownRest⟩ := ih continued
          refine ⟨rows ++ others, gains.trans more, ?_, ?_, ?_⟩
          · rw [List.map_append, recorded, recordedRest]
            rfl
          · rw [List.map_append, named, namedRest]
            rfl
          · intro message member
            rcases List.mem_append.mp member with early | late
            · obtain ⟨plannedMessage, listed, rfl⟩ := List.mem_map.mp early
              exact own plannedMessage listed
            · exact ownRest message late
      | error code text =>
          obtain ⟨tail, final, continued, ended⟩ := Tx.bind_ok.mp done
          obtain ⟨rfl, rfl⟩ := Tx.pure_ok.mp ended
          obtain ⟨rows, gains, recorded, named, own⟩ := ih continued
          exact ⟨rows, gains, recorded, named, own⟩

/-! ## Send operations -/

/-- A send operation has stored its messages for its server, with the record of its
request. -/
structure OperationStored (circumstances : Circumstances) (before after : Tables) (serverId : Id)
    (messages : List QueuedMessage) (idempotency : Option IdempotencyRequest)
    (response : SendOperationResult) : Prop where
  stored : ∃ rows, before.Stores after rows ∧ rows.map MessageRow.message = messages ∧
    rows.map MessageRow.sent = sentBy response
  counts : before.Counts circumstances after messages
  own : ∀ message ∈ messages, message.serverId = serverId
  requests : ∀ row ∈ after.idempotencyRequests, row ∈ before.idempotencyRequests ∨
    ∃ request, idempotency = some request ∧ row = ⟨serverId, request.keyHash,
      request.requestHash, request.operation, .ok response, request.expiresAt⟩

variable {idempotency : Option IdempotencyRequest}

theorem findRequest_ok {found : Option (IdempotencyRequest × IdempotencyRow)}
    (done : findRequest circumstances serverId idempotency faults tables = .ok (found, working)) :
    working.messages = tables.messages ∧ working.queuedMessages = tables.queuedMessages ∧
      tables.Counts circumstances working [] ∧
      (∀ row ∈ working.idempotencyRequests, row ∈ tables.idempotencyRequests) ∧
      ∀ request row, found = some (request, row) → idempotency = some request ∧
        row ∈ tables.idempotencyRequests ∧ Tables.isUnder serverId request row = true := by
  cases idempotency with
  | none =>
      obtain ⟨rfl, rfl⟩ := Tx.pure_ok.mp done
      exact ⟨rfl, rfl, .of_eq rfl rfl rfl, fun row member => member,
        fun request row absent => by cases absent⟩
  | some request =>
      obtain ⟨⟨⟩, middle, deletion, rest⟩ := Tx.bind_ok.mp done
      obtain ⟨row, read, selection, ended⟩ := Tx.bind_ok.mp rest
      obtain ⟨rfl, rfl⟩ := Tx.pure_ok.mp ended
      obtain ⟨-, deletion⟩ := Tx.statement_ok.mp deletion
      obtain ⟨-, selection⟩ := Tx.statement_ok.mp selection
      cases deletion
      cases selection
      refine ⟨rfl, rfl, .of_eq rfl rfl rfl, fun row member => (List.mem_filter.mp member).1, ?_⟩
      intro other row located
      obtain ⟨row', selected, same⟩ := Option.map_eq_some_iff.mp located
      cases same
      exact ⟨rfl, (List.mem_filter.mp (List.mem_of_find?_eq_some selected)).1,
        List.find?_some selected⟩

variable {ended : Ending OperationEnd} {plan : List SendPlanItem}

theorem recordOperation_ok {taken : Bool}
    (done : recordOperation platform circumstances taken serverId plan idempotency faults tables =
      .ok (ended, working)) :
    (∃ response, ended = .commit (.stored response) ∧
      OperationStored circumstances tables working serverId (planMessages plan) idempotency
        response) ∨
    ∃ request, ended = .rollback (.overtaken request) ∧ idempotency = some request := by
  cases idempotency with
  | none =>
      obtain ⟨items, middle, stored, rest⟩ := Tx.bind_ok.mp done
      obtain ⟨rfl, rfl⟩ := Tx.pure_ok.mp rest
      obtain ⟨rows, gains, recorded, named, own⟩ := storePlan_ok plan stored
      left
      refine ⟨⟨items⟩, rfl, ⟨rows, gains.toStores, recorded, named⟩, recorded ▸ gains.counts, own, ?_⟩
      intro row member
      rw [gains.requests] at member
      exact .inl member
  | some request =>
      obtain ⟨items, middle, stored, rest⟩ := Tx.bind_ok.mp done
      obtain ⟨count, inserted, insertion, rest⟩ := Tx.bind_ok.mp rest
      obtain ⟨rfl, rfl⟩ := Tx.pure_ok.mp rest
      obtain ⟨rows, gains, recorded, named, own⟩ := storePlan_ok plan stored
      obtain ⟨-, insertion⟩ := Tx.statement_ok.mp insertion
      unfold Tables.insertRequest at insertion
      split at insertion
      · cases insertion
        exact .inr ⟨request, rfl, rfl⟩
      · cases insertion
        left
        have counts := gains.counts
        rw [recorded] at counts
        refine ⟨⟨items⟩, rfl, ⟨rows, ⟨gains.messages, gains.queued⟩, recorded, named⟩,
          ⟨counts.servers, counts.organizations, counts.owners⟩, own, ?_⟩
        intro row member
        rcases List.mem_append.mp member with earlier | new
        · rw [gains.requests] at earlier
          exact .inl earlier
        · exact .inr ⟨request, rfl, List.mem_singleton.mp new⟩

variable {response : SendOperationResult}

theorem OperationStored.after_search {before middle after : Tables} {messages : List QueuedMessage}
    (kept : middle.messages = before.messages)
    (queued : middle.queuedMessages = before.queuedMessages)
    (uncounted : before.Counts circumstances middle [])
    (fewer : ∀ row ∈ middle.idempotencyRequests, row ∈ before.idempotencyRequests)
    (stored : OperationStored circumstances middle after serverId messages idempotency response) :
    OperationStored circumstances before after serverId messages idempotency response := by
  obtain ⟨rows, ⟨added, entries, queuedRows, called⟩, recorded, named⟩ := stored.stored
  refine ⟨⟨rows, ⟨kept ▸ added, entries, queued ▸ queuedRows, called⟩, recorded, named⟩,
    uncounted.trans stored.counts, stored.own, ?_⟩
  intro row member
  rcases stored.requests row member with earlier | new
  · exact .inl (fewer row earlier)
  · exact .inr new

theorem sendOperation_ok {taken : Bool}
    (done : sendOperation platform circumstances taken serverId plan idempotency faults tables =
      .ok (ended, working)) :
    (∃ response, ended = .commit (.stored response) ∧
      OperationStored circumstances tables working serverId (planMessages plan) idempotency
        response) ∨
    (∃ request row, ended = .rollback (.recorded request row) ∧ idempotency = some request ∧
      row ∈ tables.idempotencyRequests ∧ Tables.isUnder serverId request row = true) ∨
    ∃ request, ended = .rollback (.overtaken request) ∧ idempotency = some request := by
  obtain ⟨⟨⟩, middle, tenant, rest⟩ := Tx.bind_ok.mp done
  obtain ⟨found, searched, search, decided⟩ := Tx.bind_ok.mp rest
  obtain ⟨-, tenant⟩ := Tx.statement_ok.mp tenant
  cases tenant
  obtain ⟨kept, queued, uncounted, fewer, known⟩ := findRequest_ok search
  cases found with
  | some pair =>
      obtain ⟨request, row⟩ := pair
      obtain ⟨rfl, rfl⟩ := Tx.pure_ok.mp decided
      obtain ⟨same, member, under⟩ := known request row rfl
      exact .inr (.inl ⟨request, row, rfl, same, member, under⟩)
  | none =>
      rcases recordOperation_ok decided with ⟨response, rfl, stored⟩ | overtaken
      · exact .inl ⟨response, rfl, stored.after_search kept queued uncounted fewer⟩
      · exact .inr (.inr overtaken)

/-- A lookup changes nothing. What it replays is the response of a record of the request. -/
theorem idempotencyLookup_spec (circumstances : Circumstances) (serverId : Id)
    (request : IdempotencyRequest) (tables : Tables) :
    (idempotencyLookup circumstances serverId request tables).2 = tables ∧
      ∀ response, (idempotencyLookup circumstances serverId request tables).1 =
          .ok (.replay response) →
        ∃ row ∈ tables.idempotencyRequests, Tables.isUnder serverId request row = true ∧
          answerRequest request row = .ok (.replay response) := by
  unfold idempotencyLookup
  dsimp only
  generalize lookup : inTransaction circumstances _ tables = found
  have shape : found.2 = tables ∧ ∀ row, found.1 = .ok (some row) →
      row ∈ tables.idempotencyRequests ∧ Tables.isUnder serverId request row = true := by
    subst lookup
    cases ended : (inTransaction circumstances _ tables).1 with
    | error error => exact ⟨Tx.transact_error ended, fun row absent => by cases absent⟩
    | ok selected =>
        obtain ⟨working, reached, left⟩ | ⟨working, reached, -⟩ := Tx.transact_ok ended
        · obtain ⟨⟨⟩, middle, tenant, rest⟩ := Tx.bind_ok.mp reached
          obtain ⟨row, read, selection, rest⟩ := Tx.bind_ok.mp rest
          obtain ⟨same, rfl⟩ := Tx.pure_ok.mp rest
          obtain ⟨-, tenant⟩ := Tx.statement_ok.mp tenant
          obtain ⟨-, selection⟩ := Tx.statement_ok.mp selection
          cases tenant
          cases selection
          cases same
          refine ⟨left, ?_⟩
          intro row located
          have selected := Except.ok.inj located
          have valid := List.find?_some selected
          exact ⟨List.mem_of_find?_eq_some selected, (Bool.and_eq_true_iff.mp valid).1⟩
        · obtain ⟨⟨⟩, middle, tenant, rest⟩ := Tx.bind_ok.mp reached
          obtain ⟨row, read, selection, rest⟩ := Tx.bind_ok.mp rest
          obtain ⟨same, -⟩ := Tx.pure_ok.mp rest
          cases same
  obtain ⟨kept, known⟩ := shape
  refine ⟨kept, ?_⟩
  intro response replayed
  split at replayed
  · cases replayed
  · cases replayed
  case h_3 row located =>
    obtain ⟨member, under⟩ := known row located
    exact ⟨row, member, under, replayed⟩

/-- What a record says when it is replayed. -/
theorem answerRequest_replay {request : IdempotencyRequest} {row : IdempotencyRow}
    (answered : answerRequest request row = .ok (.replay response)) :
    row.requestHash = request.requestHash ∧ row.operation = request.operation ∧
      row.response = .ok response := by
  unfold answerRequest at answered
  split at answered
  · cases answered
  case isFalse same =>
    obtain ⟨hash, operation⟩ := not_or.mp same
    refine ⟨not_not.mp hash, not_not.mp operation, ?_⟩
    split at answered
    · cases answered
    case h_2 recorded =>
      cases answered
      exact recorded

/-- A completed request is on record, and this response is what it was given. -/
def Recorded (tables : Tables) (serverId : Id) (request : IdempotencyRequest)
    (response : SendOperationResult) : Prop :=
  ∃ row ∈ tables.idempotencyRequests, Tables.isUnder serverId request row = true ∧
    row.requestHash = request.requestHash ∧ row.operation = request.operation ∧
    row.response = .ok response

/-- An operation that stores nothing itself leaves the tables as it found them, or as a
rival has left them. -/
def Untouched (tables after : Tables) (rival : Option Tables) : Prop :=
  after = tables ∨ rival = some after

theorem lookupOutcome_replayed {looked : Except Text IdempotencyLookup}
    (replayed : lookupOutcome looked = .ok (.replayed response)) :
    looked = .ok (.replay response) := by
  unfold lookupOutcome at replayed
  split at replayed <;> cases replayed
  rfl

theorem lookupOutcome_stored (looked : Except Text IdempotencyLookup)
    (response : SendOperationResult) : lookupOutcome looked ≠ .ok (.stored response) := by
  intro stored
  unfold lookupOutcome at stored
  split at stored <;> cases stored

/-- `store_send_operation` stores all messages with the record of the request, or it
stores nothing. It replays only what is on record. -/
theorem storeSendOperation_spec (platform : Platform) (first again : Circumstances)
    (rival : Option Tables) (serverId : Id) (plan : List SendPlanItem)
    (idempotency : Option IdempotencyRequest) (tables : Tables) :
    (∃ response,
      (storeSendOperation platform first again rival serverId plan idempotency tables).1 =
        .ok (.stored response) ∧
      OperationStored first tables
        (storeSendOperation platform first again rival serverId plan idempotency tables).2
        serverId (planMessages plan) idempotency response) ∨
    (Untouched tables
        (storeSendOperation platform first again rival serverId plan idempotency tables).2 rival ∧
      (∀ response,
        (storeSendOperation platform first again rival serverId plan idempotency tables).1 ≠
          .ok (.stored response)) ∧
      ∀ response,
        (storeSendOperation platform first again rival serverId plan idempotency tables).1 =
          .ok (.replayed response) →
        ∃ request, idempotency = some request ∧ Recorded
          (storeSendOperation platform first again rival serverId plan idempotency tables).2
          serverId request response) := by
  unfold storeSendOperation
  dsimp only
  generalize operation : inTransaction first _ tables = ended
  cases outcome : ended.1 with
  | error error =>
      right
      have kept : ended.2 = tables := by
        subst operation
        exact Tx.transact_error outcome
      exact ⟨.inl kept, by simp, by simp⟩
  | ok finish =>
      subst operation
      obtain ⟨working, reached, left⟩ | ⟨working, reached, left⟩ := Tx.transact_ok outcome
      · obtain ⟨response, ended, stored⟩ | ⟨_, _, ended, _⟩ | ⟨_, ended, _⟩ :=
          sendOperation_ok reached
        · cases ended
          left
          refine ⟨response, rfl, ?_⟩
          rw [← left] at stored
          exact stored
        · cases ended
        · cases ended
      · obtain ⟨_, ended, _⟩ | ⟨request, row, ended, same, member, under⟩ | ⟨request, ended, same⟩ :=
          sendOperation_ok reached
        · cases ended
        · cases ended
          right
          refine ⟨.inl left, lookupOutcome_stored _, ?_⟩
          intro response replayed
          obtain ⟨hash, operation, given⟩ := answerRequest_replay (lookupOutcome_replayed replayed)
          refine ⟨request, same, row, ?_, under, hash, operation, given⟩
          exact (congrArg Tables.idempotencyRequests left).symm ▸ member
        · cases ended
          right
          have unchanged : (inTransaction first (sendOperation platform first rival.isSome serverId
              plan idempotency) tables).2 = tables := left
          rw [unchanged]
          obtain ⟨kept, known⟩ := idempotencyLookup_spec again serverId request (rival.getD tables)
          refine ⟨?_, lookupOutcome_stored _, ?_⟩
          · rw [kept]
            cases rival with
            | none => exact .inl rfl
            | some others => exact .inr rfl
          · intro response replayed
            obtain ⟨row, member, under, answered⟩ := known response (lookupOutcome_replayed replayed)
            rw [← kept] at member
            exact ⟨request, same, row, member, under, answerRequest_replay answered⟩

/-! ## The sink -/

/-- The statements that store one message on a position of a batch. -/
def messageStatements (position : Nat) (message : QueuedMessage) : List Statement :=
  [.insertMessage position, .enqueueMessage position] ++ (match message.scope with
    | .incoming => []
    | .outgoing => [.countServerSend position, .countOrganizationSend position])

/-- The statements of the transaction that stores a message on its own. -/
def insertStatements (message : QueuedMessage) : List Statement :=
  .begins :: (.setTenantContext :: messageStatements 0 message) ++ [.commit]

theorem insertMessageInTx_sends (platform : Platform) (circumstances : Circumstances)
    (position : Nat) (message : QueuedMessage) :
    Tx.Sends (insertMessageInTx platform circumstances position message)
      (messageStatements position message) := by
  have counts : Tx.Sends (countSend circumstances position message) (match message.scope with
      | .incoming => []
      | .outgoing => [.countServerSend position, .countOrganizationSend position]) := by
    unfold countSend
    cases message.scope with
    | incoming => exact .pure ()
    | outgoing => exact (Tx.Sends.statement _ _).bind (fun _ => .statement _ _)
  unfold insertMessageInTx messageStatements
  have rest := fun messageId => (Tx.Sends.statement (.enqueueMessage position)
    (Tables.enqueueMessage messageId message)).bind (fun _ =>
      counts.bind (fun _ => Tx.Sends.pure (σ := Tables) (ε := Text)
        (⟨messageId, circumstances.token position, message.rcptTo⟩ : SentMessage)))
  have whole := (Tx.Sends.statement (ε := Text) (.insertMessage position)
    (Tables.insertMessage platform (circumstances.token position) message)).bind rest
  simpa using whole

/-- A message on its own is stored exactly when none of the statements that store it
fails. -/
theorem insertMessage_ok_iff (platform : Platform) (circumstances : Circumstances)
    (message : QueuedMessage) (tables : Tables) :
    (∃ sent, (insertMessage platform circumstances message tables).1 = .ok sent) ↔
      ∀ statement ∈ insertStatements message, circumstances.fault statement = none := by
  have sends := (Tx.Sends.statement (ε := Text) .setTenantContext
    (fun tables : Tables => ((), tables))).bind (fun _ =>
      (insertMessageInTx_sends platform circumstances 0 message).bind (fun sent =>
        Tx.Sends.pure (Ending.commit sent)))
  rw [List.append_nil] at sends
  refine sends.transact ?_ .begins .commit .rollback circumstances.fault tables
  intro faults tables result working reached
  obtain ⟨⟨⟩, middle, -, rest⟩ := Tx.bind_ok.mp reached
  obtain ⟨sent, inserted, -, ended⟩ := Tx.bind_ok.mp rest
  cases (Tx.pure_ok.mp ended).1

/-- A message on its own is stored with its row, or nothing is. -/
theorem queueMessage_spec (platform : Platform) (circumstances : Circumstances)
    (message : QueuedMessage) (tables : Tables) :
    ((∀ statement ∈ insertStatements message, circumstances.fault statement = none) ∧
      ∃ row, tables.Gained circumstances
        (PgMessageSink.queueMessage platform circumstances message tables) [row] ∧
        row.message = message) ∨
    (¬ (∀ statement ∈ insertStatements message, circumstances.fault statement = none) ∧
      PgMessageSink.queueMessage platform circumstances message tables = tables) := by
  rw [← insertMessage_ok_iff platform circumstances message tables]
  unfold PgMessageSink.queueMessage
  cases outcome : (insertMessage platform circumstances message tables).1 with
  | error error =>
      right
      exact ⟨by simp, Tx.transact_error outcome⟩
  | ok sent =>
      left
      refine ⟨⟨sent, rfl⟩, ?_⟩
      obtain ⟨working, reached, left⟩ | ⟨working, reached, -⟩ := Tx.transact_ok outcome
      · obtain ⟨⟨⟩, middle, tenant, rest⟩ := Tx.bind_ok.mp reached
        obtain ⟨inserted, stored, insertion, ended⟩ := Tx.bind_ok.mp rest
        obtain ⟨-, rfl⟩ := Tx.pure_ok.mp ended
        obtain ⟨-, tenant⟩ := Tx.statement_ok.mp tenant
        cases tenant
        obtain ⟨row, gains, recorded, -⟩ := insertMessageInTx_ok insertion
        refine ⟨row, ?_, recorded⟩
        unfold insertMessage inTransaction
        rw [left]
        exact gains
      · obtain ⟨⟨⟩, middle, -, rest⟩ := Tx.bind_ok.mp reached
        obtain ⟨inserted, stored, -, ended⟩ := Tx.bind_ok.mp rest
        cases (Tx.pure_ok.mp ended).1

/-- A batch is stored as a whole with the record of its request, or nothing of it is. A
replayed batch is on record. -/
theorem queueMessages_spec (platform : Platform) (first again : Circumstances)
    (rival : Option Tables) (messages : List QueuedMessage)
    (idempotency : Option IdempotencyRequest) (allowance : SendAllowance) (tables : Tables)
    (outcome : QueueMessagesOutcome) (after : Tables)
    (queued : PgMessageSink.queueMessages platform first again rival messages idempotency allowance
      tables = (outcome, after)) :
    (outcome = .stored ∧ messages = [] ∧ after = tables) ∨
    (outcome = .stored ∧ ∃ serverId response,
      OperationStored first tables after serverId messages idempotency response) ∨
    (outcome ≠ .stored ∧ Untouched tables after rival ∧ (outcome = .replayed →
      ∃ serverId request response, messages.head?.map QueuedMessage.serverId = some serverId ∧
        idempotency = some request ∧ Recorded after serverId request response)) := by
  unfold PgMessageSink.queueMessages at queued
  cases messages with
  | nil =>
      cases queued
      exact .inl ⟨rfl, rfl, rfl⟩
  | cons message rest =>
      dsimp only [List.head?_cons] at queued
      split at queued
      · right
        right
        unfold PgMessageSink.refuseMessages at queued
        cases idempotency with
        | none =>
            cases queued
            exact ⟨by simp, .inl rfl, by simp⟩
        | some request =>
            obtain ⟨kept, known⟩ := idempotencyLookup_spec first message.serverId request tables
            dsimp only at queued
            split at queued
            case h_1 response found =>
              cases queued
              refine ⟨by simp, .inl kept, fun _ => ?_⟩
              obtain ⟨row, member, under, answered⟩ := known response found
              rw [← kept] at member
              exact ⟨message.serverId, request, response, rfl, rfl, row, member, under,
                answerRequest_replay answered⟩
            all_goals
              cases queued
              exact ⟨by simp, .inl kept, by simp⟩
      · right
        have whole : planMessages [.messages ((message :: rest).map QueuedMessage.planned)] =
            message :: rest := by
          simp [planMessages, QueuedMessage.planned, Function.comp_def]
        have stored := storeSendOperation_spec platform first again rival message.serverId
          [.messages ((message :: rest).map QueuedMessage.planned)] idempotency tables
        rw [whole] at stored
        generalize storeSendOperation platform first again rival message.serverId
          [.messages ((message :: rest).map QueuedMessage.planned)] idempotency tables = operation
          at stored queued
        obtain ⟨result, left⟩ := operation
        rcases stored with ⟨response, given, recorded⟩ | ⟨kept, unstored, known⟩
        · cases given
          cases queued
          exact .inl ⟨rfl, message.serverId, response, recorded⟩
        · right
          dsimp only at queued kept unstored known
          split at queued
          case h_1 response => exact absurd rfl (unstored response)
          case h_2 response =>
            cases queued
            obtain ⟨request, same, onRecord⟩ := known response rfl
            exact ⟨by simp, kept, fun _ => ⟨message.serverId, request, response, rfl, same, onRecord⟩⟩
          all_goals
            cases queued
            exact ⟨by simp, kept, by simp⟩

/-! ## Records and messages -/

/-- A message that a response names is stored for the server. -/
def Tables.Holds (tables : Tables) (serverId : Id) (sent : SentMessage) : Prop :=
  ∃ row ∈ tables.messages, row.sent = sent ∧ row.message.serverId = serverId

section Sound

/- What the operation and the hash of a request tell about its recipients. -/
variable {describes : Text → Text → List Text → Prop}

/-- Every message that the response of a recorded request names is stored, and the request
describes its recipients. -/
def Sound (describes : Text → Text → List Text → Prop) (tables : Tables) : Prop :=
  ∀ row ∈ tables.idempotencyRequests, ∀ response, row.response = .ok response →
    (∀ sent ∈ sentBy response, tables.Holds row.serverId sent) ∧
    describes row.operation row.requestHash ((sentBy response).map SentMessage.rcptTo)

/-- Tables in which records and messages belong together. -/
structure Database (describes : Text → Text → List Text → Prop) where
  tables : Tables
  sound : Sound describes tables

variable {rows : List MessageRow}

theorem Tables.Holds.grow {before after : Tables} {serverId : Id} {sent : SentMessage}
    (held : before.Holds serverId sent) (added : after.messages = before.messages ++ rows) :
    after.Holds serverId sent := by
  obtain ⟨row, member, named, own⟩ := held
  refine ⟨row, ?_, named, own⟩
  rw [added]
  exact List.mem_append_left rows member

theorem Sound.gains {before after : Tables} (sound : Sound describes before)
    (gains : before.Gains after rows) :
    Sound describes after := by
  intro row member response given
  rw [gains.requests] at member
  obtain ⟨held, described⟩ := sound row member response given
  exact ⟨fun sent listed => (held sent listed).grow gains.messages, described⟩

/-- A send operation keeps records and messages together. -/
theorem Sound.operation {before after : Tables} {serverId : Id} {messages : List QueuedMessage}
    {idempotency : Option IdempotencyRequest} {response : SendOperationResult}
    (sound : Sound describes before)
    (stored : OperationStored circumstances before after serverId messages idempotency response)
    (describing : ∀ request, idempotency = some request →
      describes request.operation request.requestHash (messages.map QueuedMessage.rcptTo)) :
    Sound describes after := by
  obtain ⟨rows, added, recorded, named⟩ := stored.stored
  intro row member other given
  rcases stored.requests row member with earlier | ⟨request, same, rfl⟩
  · obtain ⟨held, described⟩ := sound row earlier other given
    exact ⟨fun sent listed => (held sent listed).grow added.messages, described⟩
  · cases given
    constructor
    · intro sent listed
      rw [← named] at listed
      obtain ⟨row, present, rfl⟩ := List.mem_map.mp listed
      refine ⟨row, ?_, rfl, ?_⟩
      · rw [added.messages]
        exact List.mem_append_right _ present
      · apply stored.own
        rw [← recorded]
        exact List.mem_map_of_mem present
    · have recipients : (sentBy response).map SentMessage.rcptTo =
          messages.map QueuedMessage.rcptTo := by
        rw [← named, ← recorded, List.map_map, List.map_map]
        rfl
      rw [recipients]
      exact describing request same

end Sound

end Camelmailer.Db
