import Camelmailer.Api.Send
import Camelmailer.Smtp.Conclusion
import Camelmailer.Smtp.Steps
import Camelmailer.Worker.MessageTables

/-!
# The domain of a recipient

The domain of an address is read in five places: the session splits at the first `@`, the queue is
filled from what follows the last one, a retry of an outgoing message takes the second piece, an
incoming one the last again, and the worker hands the whole address to the other side, for which the
domain begins behind the last `@`. Nobody checks that there is one `@` only.

A recipient that is named by the token of a route is stored under the address of the route, which
the session puts together from the name and the domain of the route.
-/

namespace Camelmailer.Worker.Domains

open Utf8 Db

/-! ## Reading a domain -/

/-- The domain of the mailbox that a RCPT TO command names: what follows the last `@`, since no
domain contains one. -/
def domainPart (address : Text) : Text :=
  if '@' ∈ address then address.rtakeWhile (fun char => char ≠ '@') else []

theorem domainPart_append {front back : Text} (absent : '@' ∉ back) :
    domainPart (front ++ '@' :: back) = back := by
  unfold domainPart
  rw [if_pos (by simp)]
  induction back using List.reverseRecOn with
  | nil => simp
  | append_singleton back last ih =>
      have others : '@' ∉ back := fun member => absent (by simp [member])
      have different : last ≠ '@' := fun same => absent (by simp [same])
      have longer : front ++ '@' :: (back ++ [last]) = front ++ '@' :: back ++ [last] := by simp
      rw [longer, List.rtakeWhile_concat_pos _ _ _ (by simpa using different),
        ih others]

/-- The queue is filled from the domain of the mailbox. -/
theorem destination_eq (address : Text) : Tables.destination address = domainPart address := by
  unfold Tables.destination
  cases split : Str.rsplitOnce '@' address with
  | none => rw [domainPart, if_neg (Str.rsplitOnce_eq_none.mp split)]; rfl
  | some halves =>
      obtain ⟨rfl, absent⟩ := Str.rsplitOnce_eq_some.mp split
      rw [domainPart_append absent]
      rfl

theorem at_not_mem_domainPart (address : Text) : '@' ∉ domainPart address := by
  rw [← destination_eq]
  unfold Tables.destination
  cases split : Str.rsplitOnce '@' address with
  | none => exact List.not_mem_nil
  | some halves => exact (Str.rsplitOnce_eq_some.mp split).2

/-- What precedes an `@` is not part of the domain. -/
theorem domainPart_suffix (front back : Text) :
    domainPart (front ++ '@' :: back) = domainPart ('@' :: back) := by
  cases split : Str.rsplitOnce '@' ('@' :: back) with
  | none => exact absurd (List.mem_cons_self ..) (Str.rsplitOnce_eq_none.mp split)
  | some halves =>
      obtain ⟨whole, absent⟩ := Str.rsplitOnce_eq_some.mp split
      rw [whole, ← List.append_assoc, domainPart_append absent, domainPart_append absent]

/-- A text behind an `@` is the domain if it has no `@` itself. -/
theorem domainPart_eq_iff (front back : Text) :
    domainPart (front ++ '@' :: back) = back ↔ '@' ∉ back := by
  constructor
  · intro same
    have absent := at_not_mem_domainPart (front ++ '@' :: back)
    rwa [same] at absent
  · exact domainPart_append

/-- The second piece of an address that is split at its first `@`. -/
theorem splitPart_append {front back : Text} (first : '@' ∉ front) (absent : '@' ∉ back) :
    splitPart (front ++ '@' :: back) = back := by
  unfold splitPart
  rw [List.splitOn_append_cons_self_of_not_mem first, List.splitOn_eq_singleton absent]
  rfl

/-- The pieces of an address end in its domain. -/
theorem splitOn_getLast {address : Text} (present : '@' ∈ address) :
    (address.splitOn '@').getLast? = some (domainPart address) := by
  cases split : Str.rsplitOnce '@' address with
  | none => exact absurd present (Str.rsplitOnce_eq_none.mp split)
  | some halves =>
      obtain ⟨rfl, absent⟩ := Str.rsplitOnce_eq_some.mp split
      rw [List.splitOn_append_cons_self, List.splitOn_eq_singleton absent, List.getLast?_concat,
        domainPart_append absent]

/-- A retry reads the domain of an address without an `@`, or if its second piece is its last. -/
theorem splitPart_eq_iff (address : Text) : splitPart address = domainPart address ↔
    ('@' ∉ address ∨ (address.splitOn '@')[1]? = (address.splitOn '@').getLast?) := by
  by_cases present : '@' ∈ address
  · rw [splitOn_getLast present]
    unfold splitPart
    have second : (address.splitOn '@')[1]?.isSome = true := by
      cases split : Str.splitOnce '@' address with
      | none => exact absurd present (Str.splitOnce_eq_none.mp split)
      | some halves =>
          obtain ⟨rfl, first⟩ := Str.splitOnce_eq_some.mp split
          rw [List.splitOn_append_cons_self_of_not_mem first, List.getElem?_cons_succ,
            ← List.head?_eq_getElem?]
          simp
    obtain ⟨piece, found⟩ := Option.isSome_iff_exists.mp second
    simp [found, present]
  · have alone : splitPart address = [] := by
      unfold splitPart
      rw [List.splitOn_eq_singleton present]
      rfl
    simp [alone, domainPart, present]

/-! ## Where a message goes -/

/-- The rows of the queue that a message is given are for a domain, and so is the RCPT TO that is
sent for it. A retry finds the message as it has been stored: with its address and its scope. -/
structure GoesTo (domain : Text) (message : QueuedMessage) : Prop where
  inserted : ∀ (tables : Tables) (token : Text),
    ∀ row ∈ (tables.insertMessage message token).2.queue.rows, row.id = tables.queue.next →
      row.domain = domain
  requeuedInbound : ∀ (tables : Tables) (bypass : Bool), ∀ stored ∈ tables.messages.rows,
    stored.rcptTo = message.rcptTo → stored.scope = message.scope →
    ∀ row ∈ (tables.requeueInbound stored.serverId stored.id bypass).2.queue.rows,
      row.id = tables.queue.next → row.domain = domain
  requeuedOutbound : ∀ (tables : Tables), ∀ stored ∈ tables.messages.rows,
    stored.rcptTo = message.rcptTo → stored.scope = message.scope →
    ∀ row ∈ (tables.requeueOutbound stored.serverId stored.id).2.queue.rows,
      row.id = tables.queue.next → row.domain = domain
  commanded : domainPart message.rcptTo = domain

section Rows

variable {tables : Tables} {message : QueuedMessage} {stored : StoredMessage} {row : QueueRow}

/-- A row with a new identifier is the one that has been added. -/
theorem enqueue_new {messageId : Nat} {serverId : Id} {domain : Text} {bulk : Bool}
    (member : row ∈ (tables.enqueue messageId serverId domain bulk).queue.rows)
    (new : row.id = tables.queue.next) : row.domain = domain := by
  rcases List.mem_cons.mp member with rfl | old
  · rfl
  · exact absurd new (Nat.ne_of_lt (tables.queue.below row old))

theorem message_of_mem (member : stored ∈ tables.messages.rows) :
    tables.message stored.serverId stored.id = some stored := by
  have found : tables.messages.find stored.id = some stored := Table.find_of_mem member
  simp [Tables.message, found]

theorem insertMessage_domain {token : Text}
    (member : row ∈ (tables.insertMessage message token).2.queue.rows)
    (new : row.id = tables.queue.next) : row.domain = domainPart message.rcptTo := by
  rw [← destination_eq]
  exact enqueue_new member new

theorem requeueInbound_domain {bypass : Bool} (there : stored ∈ tables.messages.rows)
    (member : row ∈ (tables.requeueInbound stored.serverId stored.id bypass).2.queue.rows)
    (new : row.id = tables.queue.next) : row.domain = domainPart stored.rcptTo := by
  unfold Tables.requeueInbound at member
  rw [message_of_mem there] at member
  rw [← destination_eq]
  split at member
  · exact absurd new (Nat.ne_of_lt (tables.queue.below row member))
  · next found =>
      obtain rfl := Option.some.inj (Option.filter_eq_some_iff.mp found).1
      exact enqueue_new member new

theorem requeueOutbound_domain (there : stored ∈ tables.messages.rows)
    (member : row ∈ (tables.requeueOutbound stored.serverId stored.id).2.queue.rows)
    (new : row.id = tables.queue.next) :
    stored.scope = .outgoing ∧ row.domain = splitPart stored.rcptTo := by
  have old (before : row ∈ tables.queue.rows) : False :=
    Nat.ne_of_lt (tables.queue.below row before) new
  unfold Tables.requeueOutbound at member
  rw [message_of_mem there] at member
  split at member
  · exact (old member).elim
  · next found =>
      obtain ⟨same, outgoing⟩ := Option.filter_eq_some_iff.mp found
      obtain rfl := Option.some.inj same
      refine ⟨of_decide_eq_true outgoing, ?_⟩
      split_ifs at member with retryable purged queued
      · exact (old member).elim
      · -- the rows that are there keep their identifiers
        obtain ⟨before, present, rfl⟩ := List.mem_map.mp member
        refine absurd ?_ (Nat.ne_of_lt (tables.queue.below before present))
        split_ifs at new <;> exact new
      · exact enqueue_new member new
      · exact (old member).elim

/-- A table with one message that is not in the queue. -/
def unqueued (message : QueuedMessage) : Tables :=
  { Tables.empty with
    messages := Tables.empty.messages.insert
      { message with id := 1, token := [], createdAt := 0 } rfl }

/-- A message goes to the domain that follows its last `@`, unless it is retried for another. -/
theorem goesTo_iff {domain : Text} : GoesTo domain message ↔ domainPart message.rcptTo = domain ∧
    (message.scope = .outgoing → splitPart message.rcptTo = domain) := by
  constructor
  · intro goes
    refine ⟨goes.commanded, fun outgoing => ?_⟩
    have retried := goes.requeuedOutbound (unqueued message) _ (List.mem_cons_self ..) rfl rfl
    unfold Tables.requeueOutbound at retried
    rw [message_of_mem (List.mem_cons_self ..)] at retried
    simp only [Option.filter_some, outgoing] at retried
    exact retried _ (List.mem_cons_self ..) rfl
  · rintro ⟨commanded, retried⟩
    refine ⟨?_, ?_, ?_, commanded⟩
    · intro tables token row member new
      rw [insertMessage_domain member new, commanded]
    · intro tables bypass stored there address _ row member new
      rw [requeueInbound_domain there member new, address, commanded]
    · intro tables stored there address scope row member new
      obtain ⟨outgoing, read⟩ := requeueOutbound_domain there member new
      rw [read, address, retried (scope ▸ outgoing)]

end Rows

/-! ## Recipients of a session -/

section Sessions

variable {platform : Platform} {env : Smtp.Env} {session : Smtp.Session} {data : Text}
  {step : Smtp.Step} {recipient : Smtp.Recipient}

/-- The address that a recipient is stored under: the one that was given, or one that ends in the
domain of the route that a token stands for. -/
inductive StoredUnder (recipient : Smtp.Recipient) (address : Text) : Prop
  | given (same : recipient.rcptTo = address)
  | formatted {resolved : ResolvedRoute} (front : Text) (incoming : recipient.kind = .route)
      (token : recipient.route = some resolved)
      (put : recipient.rcptTo = front ++ '@' :: resolved.domainName)

theorem designated_storedUnder (designated : Smtp.Designates platform env session data recipient) :
    ∃ address localPart domain, Smtp.Addressed data address localPart domain ∧
      StoredUnder recipient address := by
  cases designated with
  | bounce named | submission named | route named => exact ⟨_, _, _, named, .given rfl⟩
  | routeToken named =>
      exact ⟨_, _, _, named, .formatted _ rfl rfl (List.append_assoc ..)⟩

/-- A recipient that RCPT TO adds is stored under one of these addresses. -/
theorem recorded_storedUnder (reacted : Smtp.rcptTo platform env session data = some step)
    (recorded : step.session.recipients = session.recipients ++ [recipient]) :
    ∃ address localPart domain, Smtp.Addressed data address localPart domain ∧
      StoredUnder recipient address := by
  have moved (same : step.session.recipients = session.recipients) : False := by
    rw [same] at recorded
    simpa using congrArg List.length recorded
  by_cases ready : session.state = .mailFromReceived ∨ session.state = .rcptToReceived
  · obtain ⟨settled, calls, inner, checked, envelope, rfl⟩ := Smtp.rcptTo_enveloped ready reacted
    have before : settled.recipients = session.recipients := by cases checked <;> rfl
    cases envelope with
    | refused => exact (moved before).elim
    | recorded found designated =>
        rw [before] at recorded
        obtain rfl : found = recipient := by simpa using recorded
        exact designated_storedUnder designated
  · unfold Smtp.rcptTo Smtp.rcptToOnce at reacted
    rw [if_neg ready] at reacted
    cases reacted
    exact (moved rfl).elim

/-- What follows the first `@` is the domain if there is no other `@`. -/
theorem count_eq_one_iff {address localPart domain : Text}
    (split : Str.splitOnce '@' address = some (localPart, domain)) :
    address.count '@' = 1 ↔ '@' ∉ domain := by
  obtain ⟨rfl, first⟩ := Str.splitOnce_eq_some.mp split
  rw [List.count_append, List.count_cons_self, List.count_eq_zero.mpr first, Nat.zero_add,
    Nat.add_eq_right, List.count_eq_zero]

/-- A message goes to what follows the first `@` of its address if there is no other. -/
theorem goesTo_given_iff {message : QueuedMessage} {localPart domain : Text}
    (split : Str.splitOnce '@' message.rcptTo = some (localPart, domain)) :
    GoesTo domain message ↔ message.rcptTo.count '@' = 1 := by
  rw [count_eq_one_iff split, goesTo_iff]
  obtain ⟨whole, first⟩ := Str.splitOnce_eq_some.mp split
  rw [whole]
  constructor
  · rintro ⟨same, -⟩
    exact (domainPart_eq_iff localPart domain).mp same
  · intro absent
    exact ⟨domainPart_append absent, fun _ => splitPart_append first absent⟩

/-- An incoming message goes where its address ends. -/
theorem goesTo_formatted_iff {message : QueuedMessage} {front back domain : Text}
    (incoming : message.scope = .incoming) (put : message.rcptTo = front ++ '@' :: back) :
    GoesTo domain message ↔ domainPart ('@' :: back) = domain := by
  rw [goesTo_iff, put, domainPart_suffix, incoming]
  simp

end Sessions

/-! ## Both ways in -/

theorem prepareSend_outgoing {api : Api.ApiPlatform} {reads : Api.SendReads} {server : Server}
    {body : Api.SendMessage} {pending : Int} {messages : List SendPlanMessage}
    (prepared : Api.prepareSend api reads server body pending = .ok messages) :
    ∀ planned ∈ messages, planned.message.scope = .outgoing := by
  obtain ⟨recipients, params, domainId, streamId, isBroadcast, -, rfl⟩ :=
    Api.prepareSend_planned prepared
  intro planned member
  obtain ⟨index, bound, rfl⟩ := List.mem_mapIdx.mp member
  rfl

/-- A message goes to the domain that the session has split off, wherever that is read, exactly if
its address has one `@`. An address that is put together for the token of a route goes to the domain
of the route if that has none, and to the domain that was split off if the route's ends in it. A
message of the API goes to one domain exactly if its address has no `@`, or a second piece that is
its last. -/
theorem goes_where_accepted_iff (platform : Platform) (api : Api.ApiPlatform) :
    (∀ (env : Smtp.Env) (session : Smtp.Session) (data : Text)
      (step : Smtp.Step) (recipient : Smtp.Recipient),
      Smtp.rcptTo platform env session data = some step →
      step.session.recipients = session.recipients ++ [recipient] →
      ∀ (later : Smtp.Env) (closing : Smtp.Session) (content : Bytes) (domainId : Option Id)
        (message : QueuedMessage),
        Smtp.queuedMessage later closing content domainId recipient = some message →
        ∃ address localPart domain, Smtp.Addressed data address localPart domain ∧
          (recipient.rcptTo = address → (GoesTo domain message ↔ address.count '@' = 1)) ∧
          (recipient.rcptTo ≠ address → ∃ resolved, recipient.route = some resolved ∧
            (GoesTo resolved.domainName message ↔ '@' ∉ resolved.domainName) ∧
            (GoesTo domain message ↔ domainPart ('@' :: resolved.domainName) = domain))) ∧
    ∀ (reads : Api.SendReads) (server : Server) (body : Api.SendMessage)
      (pending : Int) (messages : List SendPlanMessage),
      Api.prepareSend api reads server body pending = .ok messages → ∀ planned ∈ messages,
        ((∃ domain, GoesTo domain planned.message) ↔ ('@' ∉ planned.message.rcptTo ∨
          (planned.message.rcptTo.splitOn '@')[1]? =
            (planned.message.rcptTo.splitOn '@').getLast?)) := by
  constructor
  · intro env session data step recipient reacted recorded later closing content domainId message
      built
    obtain ⟨-, stored, -, -, scope, -⟩ := Smtp.queuedMessage_spec built
    obtain ⟨address, localPart, domain, named, under⟩ := recorded_storedUnder reacted recorded
    refine ⟨address, localPart, domain, named, fun given => ?_, fun other => ?_⟩
    · have same := stored.trans given
      rw [← same]
      exact goesTo_given_iff (same ▸ named.2)
    · cases under with
      | given same => exact absurd same other
      | @formatted resolved front kind token put =>
          have incoming : message.scope = .incoming := by rw [scope, kind]; rfl
          have ends (domain : Text) :
              GoesTo domain message ↔ domainPart ('@' :: resolved.domainName) = domain :=
            goesTo_formatted_iff incoming (stored.trans put)
          refine ⟨resolved, token, ?_, ends domain⟩
          rw [ends]
          exact domainPart_eq_iff [] resolved.domainName
  · intro reads server body pending messages prepared planned member
    have outgoing := prepareSend_outgoing prepared planned member
    rw [← splitPart_eq_iff]
    constructor
    · rintro ⟨domain, goes⟩
      obtain ⟨read, retried⟩ := goesTo_iff.mp goes
      exact (retried outgoing).trans read.symm
    · intro same
      exact ⟨_, goesTo_iff.mpr ⟨rfl, fun _ => same⟩⟩

/-- A client with a credential that has named its sender. -/
def submitting : Smtp.Session :=
  { Smtp.exampleSession with
    state := .mailFromReceived
    credential := some ⟨10, 1, .smtp, ['a']⟩
    mailFrom := some "me@a.example".toList }

def outgoingTo (address : String) : Smtp.Recipient :=
  ⟨.credential, address.toList, Smtp.exampleServer 1, none⟩

/-- The command with an address is accepted, and its message is stored under that address. -/
theorem submitting_accepts (address : String)
    (accepted : (Smtp.rcptTo .ascii Smtp.exampleEnv submitting
      ("RCPT TO:<" ++ address ++ ">").toList).any (fun step =>
        step.session.recipients == [outgoingTo address]) = true) :
    ∃ step message, Smtp.rcptTo .ascii Smtp.exampleEnv submitting
        ("RCPT TO:<" ++ address ++ ">").toList = some step ∧
      step.session.recipients = submitting.recipients ++ [outgoingTo address] ∧
      Smtp.queuedMessage Smtp.exampleEnv submitting [] none (outgoingTo address) = some message ∧
      message.rcptTo = address.toList := by
  obtain ⟨step, reacted, recorded⟩ := (Option.any_eq_true _ _).mp accepted
  exact ⟨step, _, reacted, beq_iff_eq.mp recorded, rfl, rfl⟩

/-- A request to send to one address. -/
def requestTo (address : Text) : Api.SendMessage where
  sender := some ⟨none, "me@a.example"⟩
  sendTo := [⟨none, address⟩]
  cc := []
  bcc := []
  replyTo := []
  subject := none
  htmlBody := none
  textBody := none
  headers := []
  attachments := []
  tag := none
  metadata := none
  stream := none

def answering : Api.SendReads where
  organizationPolicy := .ok {}
  organizationSendUsage := .ok 0
  sendUsage := .ok 0
  authenticatedDomain := fun domain =>
    .ok (if domain = "a.example" then some 11 else none)
  confirmedSenderAddress := fun _ => .ok false
  streamByPermalink := fun _ => .ok none
  listStreams := .ok []
  effectiveTrackDomain := .ok none
  isSubscribed := fun _ _ => .ok false
  unsubscribeToken := fun _ => []

def sendingApi : Api.ApiPlatform where
  buildMessage := fun _ => []
  base64Decode := fun _ => none
  debug := id
  webProtocol := "https"
  trackDomain := []

/-- Messages for an address with one `@` go to its domain. -/
theorem plain_addresses_kept :
    (∃ step message, Smtp.rcptTo .ascii Smtp.exampleEnv submitting
        "RCPT TO:<x@y.example>".toList = some step ∧
      step.session.recipients = submitting.recipients ++ [outgoingTo "x@y.example"] ∧
      Smtp.queuedMessage Smtp.exampleEnv submitting [] none (outgoingTo "x@y.example") =
        some message ∧ GoesTo "y.example".toList message) ∧
    ∃ messages, Api.prepareSend sendingApi answering (Smtp.exampleServer 1)
        (requestTo "x@y.example".toList) 0 = .ok messages ∧
      messages.map (fun planned => planned.message.rcptTo) = ["x@y.example".toList] ∧
      ∀ planned ∈ messages, ∃ domain, GoesTo domain planned.message := by
  constructor
  · obtain ⟨step, message, reacted, recorded, built, stored⟩ :=
      submitting_accepts "x@y.example" (by decide +kernel)
    refine ⟨step, message, reacted, recorded, built, ?_⟩
    obtain ⟨address, localPart, domain, ⟨read, split⟩, given, -⟩ :=
      (goes_where_accepted_iff .ascii sendingApi).1 _ _ _ _ _ reacted recorded _ _ _ _ _ built
    have plain : Smtp.extractAddress "RCPT TO:<x@y.example>".toList "RCPT TO".toList =
        some "x@y.example".toList := by decide +kernel
    obtain rfl := Option.some.inj (plain.symm.trans read)
    have halves : Str.splitOnce '@' "x@y.example".toList = some (['x'], "y.example".toList) := by
      decide +kernel
    obtain ⟨rfl, rfl⟩ := Prod.mk.inj (Option.some.inj (halves.symm.trans split))
    exact (given rfl).mpr (by decide +kernel)
  · refine ⟨_, rfl, rfl, ?_⟩
    intro planned member
    apply ((goes_where_accepted_iff .ascii sendingApi).2 answering (Smtp.exampleServer 1)
      (requestTo "x@y.example".toList) 0 _ rfl planned member).mpr
    obtain rfl := List.mem_singleton.mp member
    decide +kernel

/-- The session splits an address with a quoted `@` before the domain that the queue is filled from,
and a retry would take what is between the two. -/
theorem quoted_at_split_apart :
    ∃ step message domain, Smtp.rcptTo .ascii Smtp.exampleEnv submitting
        "RCPT TO:<\"a@x.example\"@b.example>" = some step ∧
      step.session.recipients =
        submitting.recipients ++ [outgoingTo "\"a@x.example\"@b.example"] ∧
      Smtp.queuedMessage Smtp.exampleEnv submitting [] none
        (outgoingTo "\"a@x.example\"@b.example") = some message ∧
      Str.splitOnce '@' message.rcptTo = some ("\"a".toList, domain) ∧
      domain = "x.example\"@b.example" ∧
      Tables.destination message.rcptTo = "b.example" ∧
      splitPart message.rcptTo = "x.example\"" ∧ ¬ GoesTo domain message := by
  obtain ⟨step, message, reacted, recorded, built, stored⟩ :=
    submitting_accepts "\"a@x.example\"@b.example" (by decide +kernel)
  refine ⟨step, message, "x.example\"@b.example", reacted, recorded, built, ?_, rfl, ?_, ?_,
    fun goes => ?_⟩
  · rw [stored]
    decide +kernel
  · rw [stored]
    decide +kernel
  · rw [stored]
    decide +kernel
  · have read := goes.commanded
    rw [stored] at read
    exact absurd read (by decide +kernel)

end Camelmailer.Worker.Domains
