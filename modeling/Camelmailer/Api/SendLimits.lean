import Camelmailer.Api.Send
import Camelmailer.Db.Storing
import Camelmailer.Machine
import Camelmailer.Smtp.DurableAcceptance
import Mathlib.Algebra.BigOperators.Group.List.Basic

/-!
# Send limits under concurrent submissions

Any number of submissions are under way at once, over SMTP and over HTTP, for any servers.
A submission reads the usage of its server and organization, compares it with their
limits, and stores its messages in a later step. Between the two another submission can
store messages that the first one has not counted, so a limit can be exceeded.

It cannot when no submission stores messages while another one of the same organization
has checked messages that are still waiting, and when the outgoing messages of an SMTP
transaction belong to the server whose usage has been read.
-/

namespace Camelmailer.Api

open Utf8 Db Smtp

/-- What stays fixed while submissions are under way: the servers and the policies of
organizations. The interfaces accept no negative limit. -/
structure Directory where
  server : Id → Option Server
  policy : Id → OrganizationPolicy
  server_id : ∀ id found, server id = some found → found.id = id
  sendLimit_nonneg : ∀ id found limit, server id = some found → found.sendLimit = some limit →
    0 ≤ limit
  monthlySendLimit_nonneg : ∀ id limit, (policy id).monthlySendLimit = some limit → 0 ≤ limit

def Directory.organizationOf (directory : Directory) (serverId : Id) : Option Id :=
  (directory.server serverId).map Server.organizationId

/-! ## Submissions -/

/-- What a submission hands to the database in one transaction. -/
inductive Job where
  | single (message : QueuedMessage)
  | batch (messages : List QueuedMessage) (idempotency : Option IdempotencyRequest)
      (allowance : SendAllowance)
  | operation (serverId : Id) (plan : List SendPlanItem) (idempotency : Option IdempotencyRequest)

/-- The messages of a job that have been checked. A batch is only compared with the
allowance it carries when it is stored. -/
def Job.messages : Job → List QueuedMessage
  | .single message => [message]
  | .batch messages _ allowance => if allowance.allows (outgoingCount messages) then messages else []
  | .operation _ plan _ => planMessages plan

/-- The job that a call of an SMTP session is. -/
def Job.ofCall : Call → Option Job
  | .queueMessage message => some (.single message)
  | .queueMessages messages idempotency allowance => some (.batch messages idempotency allowance)
  | _ => none

/-- A submission under way. An HTTP request is prepared entry by entry; a single one fails
as a whole, and a batch keeps the entries that failed as errors. -/
inductive Submission where
  | preparing (server : Server) (remaining : List SendMessage) (plan : List SendPlanItem)
      (single : Bool) (idempotency : Option IdempotencyRequest)
  | storing (serverId : Id) (jobs : List Job)

/-- The server whose usage a submission reads. -/
def Submission.serverId : Submission → Id
  | .preparing server _ _ _ _ => server.id
  | .storing serverId _ => serverId

/-- The messages that have been checked and wait to be stored. -/
def Submission.checked : Submission → List QueuedMessage
  | .preparing _ _ plan _ _ => planMessages plan
  | .storing _ jobs => jobs.flatMap Job.messages

/-- The number of them that count against the limits. -/
def Submission.reserved (submission : Submission) : Nat := submission.checked.countP isOutgoing

/-- An outgoing message and when it has been stored. -/
structure Sent where
  message : QueuedMessage
  day : Int
  month : Int

structure State where
  tables : Tables
  day : Int
  month : Int
  /-- The outgoing messages stored so far. -/
  sent : List Sent
  waiting : Nat → Option Submission

/-- `send_usage`: today and the 29 days before. -/
def sendUsage (tables : Tables) (serverId : Id) (day : Int) : Nat :=
  ((List.range 30).map (fun back => tables.serverSendCounters serverId (day - back))).sum

/-! ## Steps -/

inductive Action where
  /-- The date moves on. -/
  | tick (day month : Int)
  /-- The end of an SMTP message. A usage that cannot be read is overstated. -/
  | finish (index : Nat) (platform : Platform) (env : Env) (session : Session) (excess : Nat)
  /-- An HTTP request. -/
  | request (index : Nat) (serverId : Id) (bodies : List SendMessage) (single : Bool)
      (idempotency : Option IdempotencyRequest)
  /-- The next entry of an HTTP request is prepared. -/
  | prepare (index : Nat) (api : ApiPlatform) (reads : SendReads)
  /-- The next transaction of a submission. -/
  | store (index : Nat) (platform : Platform) (first again : Circumstances)

/-- The environment of a session with the usage of the moment. -/
def meteredEnv (directory : Directory) (state : State) (excess : Nat) (env : Env) : Env :=
  { env with store := { env.store with
      server := directory.server
      sendPolicyForOrganization := directory.policy
      sendUsage := fun serverId => sendUsage state.tables serverId state.day + excess
      organizationMonthUsage := fun organizationId =>
        state.tables.organizationSendCounters organizationId state.month + excess
      server_id := directory.server_id } }

/-- The answers to a request with the usage of the moment. A question can still fail. -/
def meteredReads (directory : Directory) (state : State) (server : Server) (reads : SendReads) :
    SendReads :=
  { reads with
    organizationPolicy := reads.organizationPolicy.map (fun _ =>
      directory.policy server.organizationId)
    organizationSendUsage := reads.organizationSendUsage.map (fun _ =>
      (state.tables.organizationSendCounters server.organizationId state.month : Int))
    sendUsage := reads.sendUsage.map (fun _ => (sendUsage state.tables server.id state.day : Int)) }

/-- A submission after one more of its entries. -/
def prepareNext (directory : Directory) (state : State) (api : ApiPlatform) (reads : SendReads) :
    Submission → Option (Option Submission)
  | .storing _ _ => none
  | .preparing server remaining plan single idempotency =>
      match remaining with
      | [] => some (some (.storing server.id [.operation server.id plan idempotency]))
      | body :: rest =>
          match prepareSend api (meteredReads directory state server reads) server body
              (planMessages plan).length with
          | .ok messages => some (some (.preparing server rest (plan ++ [.messages messages])
              single idempotency))
          | .error error =>
              if single then some none
              else some (some (.preparing server rest
                (plan ++ [.error error.code error.message]) single idempotency))

/-- The tables after a job. -/
def Job.run (platform : Platform) (first again : Circumstances) (tables : Tables) : Job → Tables
  | .single message => PgMessageSink.queueMessage platform first message tables
  | .batch messages idempotency allowance =>
      (PgMessageSink.queueMessages platform first again none messages idempotency allowance
        tables).2
  | .operation serverId plan idempotency =>
      (storeSendOperation platform first again none serverId plan idempotency tables).2

/-- What is left of a submission after a job. -/
def Submission.rest (serverId : Id) : List Job → Option Submission
  | [] => none
  | jobs => some (.storing serverId jobs)

def State.put (state : State) (index : Nat) (submission : Option Submission) : State :=
  { state with waiting := Function.update state.waiting index submission }

/-- The state after a job. -/
def State.perform (state : State) (platform : Platform) (first again : Circumstances)
    (job : Job) : State :=
  let tables := job.run platform { first with day := state.day, month := state.month }
    { again with day := state.day, month := state.month } state.tables
  { state with
    tables := tables
    sent := state.sent ++ (((tables.messages.drop state.tables.messages.length).map
      MessageRow.message).filter isOutgoing).map (⟨·, state.day, state.month⟩) }

/-- One step of one submission. Indices of new submissions must be free. -/
def step (directory : Directory) (state : State) : Action → Option (Unit × State)
  | .tick day month =>
      if state.day ≤ day ∧ state.month ≤ month then
        some ((), { state with day := day, month := month })
      else none
  | .finish index platform env session excess =>
      if (state.waiting index).isSome then none
      else (finishData platform (meteredEnv directory state excess env) session).map
        (fun finished => ((), state.put index (Submission.rest
          ((session.credential.map Credential.serverId).getD 0)
          (finished.calls.filterMap Job.ofCall))))
  | .request index serverId bodies single idempotency =>
      if (state.waiting index).isSome then none
      else (directory.server serverId).map (fun server =>
        ((), state.put index (some (.preparing server bodies [] single idempotency))))
  | .prepare index api reads =>
      ((state.waiting index).bind (prepareNext directory state api reads)).map
        (fun submission => ((), state.put index submission))
  | .store index platform first again =>
      match state.waiting index with
      | some (.storing serverId (job :: rest)) =>
          some ((), (state.perform platform first again job).put index
            (Submission.rest serverId rest))
      | _ => none

/-! ## The property and the condition -/

/-- The outgoing messages of a server within the window of a day. -/
def sentFor (sent : List Sent) (serverId : Id) (day : Int) : Nat :=
  sent.countP (fun entry => entry.message.serverId == serverId &&
    (decide (day - 30 < entry.day) && decide (entry.day ≤ day)))

/-- The outgoing messages of an organization's servers in a month. -/
def sentIn (directory : Directory) (sent : List Sent) (organizationId : Id) (month : Int) : Nat :=
  sent.countP (fun entry =>
    directory.organizationOf entry.message.serverId == some organizationId &&
      entry.month == month)

/-- No limit is exceeded. -/
structure WithinLimits (directory : Directory) (state : State) : Prop where
  servers : ∀ id server limit, directory.server id = some server →
    server.sendLimit = some limit → sentFor state.sent id state.day ≤ limit
  organizations : ∀ id limit, (directory.policy id).monthlySendLimit = some limit →
    sentIn directory state.sent id state.month ≤ limit

/-- The outgoing messages of a session belong to the server of its credential. -/
def Owned (session : Session) : Prop :=
  ∀ recipient ∈ session.recipients, recipient.kind = .credential →
    ∃ credential, session.credential = some credential ∧
      recipient.server.id = credential.serverId

/-- Messages of this server can be stored without regard to what a submission has checked:
it waits for nothing, or no limit covers both. -/
def Submission.Apart (directory : Directory) (submission : Submission) (serverId : Id) : Prop :=
  submission.reserved ≠ 0 → ∀ server, directory.server submission.serverId = some server →
    (server.sendLimit.isSome → submission.serverId ≠ serverId) ∧
    ((directory.policy server.organizationId).monthlySendLimit.isSome →
      directory.organizationOf serverId ≠ some server.organizationId)

/-- A submission that stores outgoing messages is the only one that has checked such
messages under its limits. -/
def Alone (directory : Directory) (state : State) (index : Nat) : Prop :=
  ∀ own, state.waiting index = some own → own.reserved ≠ 0 →
    ∀ other submission, other ≠ index → state.waiting other = some submission →
      submission.Apart directory own.serverId

/-- The condition on a step. -/
def Orderly (directory : Directory) (event : Machine.Event State Action Unit) : Prop :=
  match event.input with
  | .finish _ _ _ session _ => Owned session
  | .store index _ _ _ => Alone directory event.before index
  | _ => True

/-! ## Usage -/

/-- A date of a window is one of its days. -/
theorem window_sum (day date : Int) (length : Nat) :
    ((List.range length).map (fun (back : Nat) => if date = day - back then 1 else 0)).sum =
      if day - length < date ∧ date ≤ day then 1 else 0 := by
  induction length with
  | zero =>
      rw [if_neg (by omega)]
      rfl
  | succ length ih =>
      rw [List.range_succ, List.map_append, List.sum_append, ih,
        List.map_singleton, List.sum_singleton]
      split_ifs <;> omega

theorem window_count (sent : List Sent) (serverId : Id) (day : Int) (length : Nat) :
    ((List.range length).map (fun (back : Nat) => sent.countP (fun entry =>
        entry.message.serverId == serverId && entry.day == day - back))).sum =
      sent.countP (fun entry => entry.message.serverId == serverId &&
        (decide (day - length < entry.day) && decide (entry.day ≤ day))) := by
  induction sent with
  | nil => simp
  | cons entry rest ih =>
      simp only [List.countP_cons, List.sum_map_add]
      rw [ih]
      by_cases own : entry.message.serverId = serverId
      · simpa [own] using window_sum day entry.day length
      · simp [own]

/-- The counters of a window count the messages in it. -/
theorem sendUsage_eq {tables : Tables} {sent : List Sent} (serverId : Id) (day : Int)
    (counted : ∀ date, tables.serverSendCounters serverId date =
      sent.countP (fun entry => entry.message.serverId == serverId && entry.day == date)) :
    sendUsage tables serverId day = sentFor sent serverId day := by
  unfold sendUsage sentFor
  simp only [counted]
  exact window_count sent serverId day 30

/-! ## What a submission may store -/

/-- So many messages fit beside those that have been sent. -/
def Room (directory : Directory) (state : State) (serverId : Id) (count : Nat) : Prop :=
  ∀ server, directory.server serverId = some server →
    (∀ limit, server.sendLimit = some limit →
      (sentFor state.sent serverId state.day + count : Int) ≤ limit) ∧
    ∀ limit, (directory.policy server.organizationId).monthlySendLimit = some limit →
      (sentIn directory state.sent server.organizationId state.month + count : Int) ≤ limit

variable {directory : Directory} {serverId : Id} {state : State}

theorem Room.fewer {count fewer : Nat} (room : Room directory state serverId count)
    (less : fewer ≤ count) :
    Room directory state serverId fewer := by
  intro server known
  obtain ⟨own, shared⟩ := room server known
  refine ⟨fun limit limited => ?_, fun limit limited => ?_⟩
  · have bound := own limit limited
    omega
  · have bound := shared limit limited
    omega

/-- What holds in every state: the counters count the messages sent, nothing has been sent
in the future, and whatever waits belongs to its server and fits beside what has been
sent. -/
structure Inv (directory : Directory) (state : State) : Prop where
  owners : state.tables.organizationOf = directory.organizationOf
  servers : ∀ id day, state.tables.serverSendCounters id day =
    state.sent.countP (fun entry => entry.message.serverId == id && entry.day == day)
  organizations : ∀ id month, state.tables.organizationSendCounters id month =
    sentIn directory state.sent id month
  past : ∀ entry ∈ state.sent, entry.day ≤ state.day ∧ entry.month ≤ state.month
  known : ∀ index server remaining plan single idempotency,
    state.waiting index = some (.preparing server remaining plan single idempotency) →
    directory.server server.id = some server
  own : ∀ index submission, state.waiting index = some submission →
    ∀ message ∈ submission.checked, isOutgoing message = true →
      message.serverId = submission.serverId
  room : ∀ index submission, state.waiting index = some submission → submission.reserved ≠ 0 →
    Room directory state submission.serverId submission.reserved
  within : WithinLimits directory state

theorem outgoingCount_eq (messages : List QueuedMessage) :
    outgoingCount messages = messages.countP isOutgoing := by
  rw [List.countP_eq_length_filter]
  rfl

variable {env : Env}

/-- The allowance of an SMTP transaction leaves room for what it allows. -/
theorem serverAllowance_room {excess : Nat} {count : Nat} (inv : Inv directory state)
    (allowed : (Smtp.serverAllowance (meteredEnv directory state excess env) serverId).1.allows
      count = true) (positive : count ≠ 0) : Room directory state serverId count := by
  intro server known
  unfold Smtp.serverAllowance at allowed
  rw [show (meteredEnv directory state excess env).store.server serverId = some server from known]
    at allowed
  obtain ⟨own, shared⟩ := (SendAllowance.stricter_allows _ _ _).mp allowed
  have same : server.id = serverId := directory.server_id serverId server known
  constructor
  · intro limit limited
    rw [limited] at own
    have bound := SendAllowance.allows_room own (by omega)
    change ((sendUsage state.tables server.id state.day : Int) + excess) + count ≤ limit at bound
    rw [sendUsage_eq server.id state.day (inv.servers server.id), same] at bound
    omega
  · intro limit limited
    rw [show ((meteredEnv directory state excess env).store.sendPolicyForOrganization
      server.organizationId).monthlySendLimit = some limit from limited] at shared
    have bound := SendAllowance.allows_room shared (by omega)
    change ((state.tables.organizationSendCounters server.organizationId state.month : Int) +
      excess) + count ≤ limit at bound
    rw [inv.organizations] at bound
    omega

theorem filterMap_quiet (calls : List Call) (quiet : ∀ call ∈ calls, call.stores = false) :
    calls.filterMap Job.ofCall = [] := by
  apply List.filterMap_eq_nil_iff.mpr
  intro call member
  have silent := quiet call member
  cases call
  case queueMessage => cases silent
  case queueMessages => cases silent
  all_goals rfl

variable {platform : Platform} {session : Session}

/-- The end of an SMTP message leaves nothing to store, or the records of its recipients,
which its allowance allows. -/
theorem finish_checked {finished : Step}
    (answered : finishData platform env session = some finished) :
    (finished.calls.filterMap Job.ofCall).flatMap Job.messages = [] ∨
    ∃ domainId key queued, session.recipients.mapM
        (queuedMessage env session (storedData session key) domainId) = some queued ∧
      (finished.calls.filterMap Job.ofCall).flatMap Job.messages = queued ∧
      (sendAllowance env session).1.allows (outgoingCount queued) = true := by
  obtain ⟨text, calls, conclusion, rfl⟩ := finishData_concluded answered
  generalize waiting : (conclude session text calls).calls.filterMap Job.ofCall = jobs
  change calls.filterMap Job.ofCall = jobs at waiting
  cases conclusion with
  | refused text calls unaccepted checks =>
      left
      have quiet : ∀ call ∈ calls, call.stores = false := by
        rcases checks with rfl | rfl
        · simp
        · exact authorizeSender_stores env session session.headerMap
      rw [← waiting, filterMap_quiet calls quiet]
      rfl
  | handed domainId checks key queued authorised keyed built outcome delivered =>
      have quietChecks := authorizeSender_stores env session session.headerMap
      rw [authorised] at quietChecks
      rw [List.filterMap_append, List.filterMap_append, filterMap_quiet checks quietChecks,
        filterMap_quiet _ (sendAllowance_stores env session), delivered] at waiting
      obtain ⟨-, handing⟩ | ⟨-, -, handing⟩ | ⟨-, fits, handing⟩ := deliver_cases env queued
        (key.map (Smtp.idempotencyRequest platform env session (storedData session key)))
        (sendAllowance env session).1 <;> rw [handing] at waiting <;> subst waiting
      · cases fits : (sendAllowance env session).1.allows (outgoingCount queued) with
        | false =>
            simp [Job.ofCall, Job.messages, fits]
        | true =>
            right
            refine ⟨domainId, key, queued, built, ?_, fits⟩
            simp [Job.ofCall, Job.messages, fits]
      · exact .inl rfl
      · right
        refine ⟨domainId, key, queued, built, ?_, fits⟩
        simp [Job.ofCall, Job.messages, Function.comp_def, List.flatMap_map]

/-- A question that is answered gets the answer of the moment. -/
theorem asked_const {α β : Type} {answer : Except Unit α} {value result : β}
    (answered : asked (answer.map (fun _ => value)) = .ok result) : value = result := by
  cases answer with
  | error error => cases answered
  | ok other => exact Except.ok.inj answered

variable {reads : SendReads}

/-- The limits of a request leave room for it and for what waits in the same batch. -/
theorem checkLimits_room {server : Server} {pending count : Nat} (inv : Inv directory state)
    (registered : directory.server server.id = some server)
    (limits : checkLimits (meteredReads directory state server reads) server pending count =
      .ok ()) (positive : count ≠ 0) : Room directory state server.id (pending + count) := by
  obtain ⟨⟨policy, organization⟩, read, rest⟩ := bind_eq_ok.mp limits
  obtain ⟨known, asking, later⟩ := bind_eq_ok.mp read
  obtain ⟨used, counting, given⟩ := bind_eq_ok.mp later
  obtain ⟨rfl, rfl⟩ := Prod.mk.inj (Except.ok.inj given)
  dsimp only at rest
  split at rest
  · cases rest
  obtain ⟨own, reading, rest⟩ := bind_eq_ok.mp rest
  split at rest
  · cases rest
  case isFalse allowing =>
  obtain ⟨ownAllows, sharedAllows⟩ := (SendAllowance.stricter_allows _ _ _).mp
    (by simpa using allowing)
  have policed : directory.policy server.organizationId = known := asked_const asking
  subst policed
  intro found listed
  obtain rfl : server = found := Option.some.inj (registered.symm.trans listed)
  constructor
  · intro limit limited
    unfold serverAllowance at reading
    simp only [limited] at reading
    obtain ⟨usage, asked, given⟩ := bind_eq_ok.mp reading
    obtain rfl := asked_const asked
    obtain rfl := Except.ok.inj given
    have bound := SendAllowance.allows_room ownAllows (by omega)
    rw [sendUsage_eq server.id state.day (inv.servers server.id)] at bound
    omega
  · intro limit limited
    unfold organizationUsage at counting
    simp only [limited] at counting
    obtain rfl := asked_const counting
    simp only [limited, SendAllowance.organization] at sharedAllows
    have bound := SendAllowance.allows_room sharedAllows (by omega)
    rw [inv.organizations] at bound
    omega

/-! ## The steps keep the invariant -/

variable {directory : Directory} {state : State}

theorem Inv.tick {day month : Int} (inv : Inv directory state) (later : state.day ≤ day)
    (follows : state.month ≤ month) :
    Inv directory { state with day := day, month := month } := by
  have fewer (serverId : Id) : sentFor state.sent serverId day ≤
      sentFor state.sent serverId state.day := by
    apply List.countP_mono_left
    intro entry member counted
    have before := (inv.past entry member).1
    simp only [Bool.and_eq_true, decide_eq_true_eq] at counted ⊢
    exact ⟨counted.1, by omega⟩
  have restarts (organizationId : Id) : sentIn directory state.sent organizationId month ≤
      sentIn directory state.sent organizationId state.month := by
    apply List.countP_mono_left
    intro entry member counted
    have before := (inv.past entry member).2
    simp only [Bool.and_eq_true, beq_iff_eq] at counted ⊢
    exact ⟨counted.1, by omega⟩
  refine ⟨inv.owners, inv.servers, inv.organizations, ?_, inv.known, inv.own, ?_, ?_, ?_⟩
  · intro entry member
    have before := inv.past entry member
    exact ⟨before.1.trans later, before.2.trans follows⟩
  · intro index submission waits reserved server known
    obtain ⟨own, shared⟩ := inv.room index submission waits reserved server known
    refine ⟨fun limit limited => ?_, fun limit limited => ?_⟩
    · have bound := own limit limited
      have less := fewer submission.serverId
      dsimp only
      omega
    · have bound := shared limit limited
      have less := restarts server.organizationId
      dsimp only
      omega
  · intro id server limit known limited
    have bound := inv.within.servers id server limit known limited
    have less := fewer id
    dsimp only
    omega
  · intro id limit limited
    have bound := inv.within.organizations id limit limited
    have less := restarts id
    dsimp only
    omega

variable {index : Nat}

/-- A submission can take its place when what it has checked belongs to its server and
fits. -/
theorem Inv.put {submission : Option Submission} (inv : Inv directory state)
    (known : ∀ server remaining plan single idempotency,
      submission = some (.preparing server remaining plan single idempotency) →
      directory.server server.id = some server)
    (own : ∀ present, submission = some present → ∀ message ∈ present.checked,
      isOutgoing message = true → message.serverId = present.serverId)
    (room : ∀ present, submission = some present → present.reserved ≠ 0 →
      Room directory state present.serverId present.reserved) :
    Inv directory (state.put index submission) := by
  have places {other : Nat} {present : Submission}
      (waits : (state.put index submission).waiting other = some present) :
      submission = some present ∨ state.waiting other = some present := by
    by_cases same : other = index
    · subst same
      left
      simpa [State.put] using waits
    · right
      simpa [State.put, same] using waits
  refine ⟨inv.owners, inv.servers, inv.organizations, inv.past, ?_, ?_, ?_,
    ⟨inv.within.servers, inv.within.organizations⟩⟩
  · intro other server remaining plan single idempotency waits
    rcases places waits with new | old
    · exact known server remaining plan single idempotency new
    · exact inv.known other server remaining plan single idempotency old
  · intro other present waits
    rcases places waits with new | old
    · exact own present new
    · exact inv.own other present old
  · intro other present waits reserved
    rcases places waits with new | old
    · exact room present new reserved
    · exact inv.room other present old reserved

theorem rest_checked {jobs : List Job} {present : Submission}
    (left : Submission.rest serverId jobs = some present) :
    present.serverId = serverId ∧ present.checked = jobs.flatMap Job.messages ∧
      ∀ server remaining plan single idempotency,
        present ≠ .preparing server remaining plan single idempotency := by
  cases jobs with
  | nil => cases left
  | cons job jobs =>
      obtain rfl := Option.some.inj left
      refine ⟨rfl, rfl, ?_⟩
      intro server remaining plan single idempotency same
      cases same

/-- The end of an SMTP message. -/
theorem Inv.finish {excess : Nat} {finished : Step} (inv : Inv directory state)
    (owned : Owned session)
    (answered : finishData platform (meteredEnv directory state excess env) session =
      some finished) :
    Inv directory (state.put index (Submission.rest
      ((session.credential.map Credential.serverId).getD 0)
      (finished.calls.filterMap Job.ofCall))) := by
  have checks := finish_checked answered
  generalize finished.calls.filterMap Job.ofCall = jobs at checks
  have belongs : ∀ message ∈ jobs.flatMap Job.messages, isOutgoing message = true →
      ∃ credential, session.credential = some credential ∧
        message.serverId = credential.serverId := by
    intro message member outgoing
    rcases checks with empty | ⟨domainId, key, queued, built, same, -⟩
    · rw [empty] at member
      cases member
    · rw [same] at member
      obtain ⟨recipient, listed, recorded⟩ := mem_of_mapM built member
      obtain ⟨server, -, -, -, scope, -⟩ := queuedMessage_spec recorded
      have kind : recipient.kind = .credential := by
        rw [isOutgoing, scope] at outgoing
        cases kind : recipient.kind <;> rw [kind] at outgoing <;> first | rfl | cases outgoing
      obtain ⟨credential, held, shared⟩ := owned recipient listed kind
      exact ⟨credential, held, server.trans shared⟩
  apply inv.put
  · intro server remaining plan single idempotency waits
    exact absurd rfl ((rest_checked waits).2.2 server remaining plan single idempotency)
  · intro present waits message member outgoing
    obtain ⟨own, listed, -⟩ := rest_checked waits
    rw [listed] at member
    obtain ⟨credential, held, shared⟩ := belongs message member outgoing
    rw [own, held]
    exact shared
  · intro present waits reserved
    obtain ⟨own, listed, -⟩ := rest_checked waits
    unfold Submission.reserved at reserved ⊢
    rw [listed] at reserved ⊢
    rw [own]
    obtain ⟨message, member, outgoing⟩ := List.countP_pos_iff.mp (Nat.pos_of_ne_zero reserved)
    obtain ⟨credential, held, -⟩ := belongs message member outgoing
    rcases checks with empty | ⟨domainId, key, queued, -, same, fits⟩
    · rw [empty] at member
      cases member
    · rw [same] at reserved ⊢
      rw [held]
      rw [outgoingCount_eq] at fits
      unfold sendAllowance at fits
      rw [held] at fits
      exact serverAllowance_room inv fits reserved

/-- One more entry of a request. -/
theorem Inv.prepare {api : ApiPlatform} {submission : Submission} {next : Option Submission}
    (inv : Inv directory state) (waits : state.waiting index = some submission)
    (prepared : prepareNext directory state api reads submission = some next) :
    Inv directory (state.put index next) := by
  unfold prepareNext at prepared
  cases submission with
  | storing serverId jobs => cases prepared
  | preparing server remaining plan single idempotency =>
      have registered := inv.known index server remaining plan single idempotency waits
      have own := inv.own index _ waits
      have room := inv.room index _ waits
      -- An entry that is refused changes nothing about what waits.
      have refused (items : List SendPlanItem) (rest : List SendMessage)
          (same : planMessages items = planMessages plan) :
          Inv directory (state.put index
            (some (.preparing server rest items single idempotency))) := by
        apply inv.put
        · intro other remaining plan single idempotency present
          cases present
          exact registered
        · intro present new
          cases new
          intro message member
          change message ∈ planMessages items at member
          rw [same] at member
          exact own message member
        · intro present new
          cases new
          change (planMessages items).countP isOutgoing ≠ 0 →
            Room directory state server.id ((planMessages items).countP isOutgoing)
          rw [same]
          exact room
      cases remaining with
      | nil =>
          obtain rfl := Option.some.inj prepared
          apply inv.put
          · intro other remaining plan single idempotency present
            cases present
          · intro present new
            cases new
            simpa [Submission.checked, Submission.serverId, Job.messages] using own
          · intro present new
            cases new
            simpa [Submission.reserved, Submission.checked, Submission.serverId, Job.messages]
              using room
      | cons body rest =>
          dsimp only at prepared
          cases checking : prepareSend api (meteredReads directory state server reads) server body
              (planMessages plan).length with
          | error error =>
              rw [checking] at prepared
              dsimp only at prepared
              split at prepared
              · obtain rfl := Option.some.inj prepared
                exact inv.put (by simp) (by simp) (by simp)
              · obtain rfl := Option.some.inj prepared
                apply refused
                simp [planMessages]
          | ok messages =>
              rw [checking] at prepared
              obtain rfl := Option.some.inj prepared
              obtain ⟨limits, served⟩ := prepareSend_ok checking
              have added : planMessages (plan ++ [.messages messages]) =
                  planMessages plan ++ messages.map SendPlanMessage.message := by
                simp [planMessages]
              cases messages with
              | nil =>
                  apply refused
                  simpa using added
              | cons first others =>
                  apply inv.put
                  · intro other remaining plan single idempotency present
                    cases present
                    exact registered
                  · intro present new
                    cases new
                    intro message member outgoing
                    change message ∈ planMessages (plan ++ [.messages (first :: others)]) at member
                    rw [added] at member
                    rcases List.mem_append.mp member with early | late
                    · exact own message early outgoing
                    · obtain ⟨planned, listed, rfl⟩ := List.mem_map.mp late
                      exact served planned listed
                  · intro present new reserved
                    cases new
                    have fits := checkLimits_room inv registered limits (Nat.succ_ne_zero _)
                    apply fits.fewer
                    change (planMessages (plan ++ [.messages (first :: others)])).countP isOutgoing ≤ _
                    rw [added, List.countP_append]
                    have early := List.countP_le_length (p := isOutgoing) (l := planMessages plan)
                    have late := List.countP_le_length (p := isOutgoing)
                      (l := (first :: others).map SendPlanMessage.message)
                    rw [List.length_map] at late
                    omega

/-! ## Storing -/

/-- A job stores the messages that have been checked, or nothing. -/
theorem Job.run_spec (platform : Platform) (first again : Circumstances) (tables : Tables)
    (job : Job) :
    ∃ rows, (job.run platform first again tables).messages = tables.messages ++ rows ∧
      tables.Counts first (job.run platform first again tables) (rows.map MessageRow.message) ∧
      (rows.map MessageRow.message = job.messages ∨ rows = []) := by
  -- Everything that is not stored leaves the tables alone.
  have idle {after : Tables} (kept : after = tables) :
      ∃ rows, after.messages = tables.messages ++ rows ∧
        tables.Counts first after (rows.map MessageRow.message) ∧
        (rows.map MessageRow.message = job.messages ∨ rows = []) := by
    subst kept
    exact ⟨[], (List.append_nil _).symm, .of_eq rfl rfl rfl, .inr rfl⟩
  cases job with
  | single message =>
      obtain ⟨-, row, gained, recorded⟩ | ⟨-, kept⟩ := queueMessage_spec platform first message tables
      · exact ⟨[row], gained.messages, gained.counts, .inl (by simp [Job.messages, recorded])⟩
      · exact idle kept
  | batch messages idempotency allowance =>
      cases fits : allowance.allows (outgoingCount messages) with
      | true =>
          obtain ⟨-, -, kept⟩ | ⟨-, serverId, response, stored⟩ | ⟨-, untouched, -⟩ :=
            queueMessages_spec platform first again none messages idempotency allowance tables _ _ rfl
          · exact idle kept
          · obtain ⟨rows, added, recorded, -⟩ := stored.stored
            have checked : (Job.batch messages idempotency allowance).messages = messages :=
              if_pos fits
            refine ⟨rows, added.messages, ?_, .inl (recorded.trans checked.symm)⟩
            rw [recorded]
            exact stored.counts
          · rcases untouched with kept | rival
            · exact idle kept
            · cases rival
      | false =>
          apply idle
          change (PgMessageSink.queueMessages platform first again none messages idempotency allowance
            tables).2 = tables
          unfold PgMessageSink.queueMessages
          cases messages with
          | nil => rfl
          | cons message rest =>
              simp only [fits]
              cases idempotency with
              | none => rfl
              | some request => exact (idempotencyLookup_spec first message.serverId request tables).1
  | operation serverId plan idempotency =>
      obtain ⟨response, -, stored⟩ | ⟨untouched, -⟩ := storeSendOperation_spec platform first again
        none serverId plan idempotency tables
      · obtain ⟨rows, added, recorded, -⟩ := stored.stored
        refine ⟨rows, added.messages, ?_, .inl recorded⟩
        rw [recorded]
        exact stored.counts
      · rcases untouched with kept | rival
        · exact idle kept
        · cases rival

/-- The outgoing messages of a list, stored now. -/
def State.stamp (state : State) (messages : List QueuedMessage) : List Sent :=
  (messages.filter isOutgoing).map (⟨·, state.day, state.month⟩)

theorem stamp_count (state : State) (messages : List QueuedMessage) (counted : Sent → Bool) :
    (state.stamp messages).countP counted = messages.countP (fun message =>
      isOutgoing message && counted ⟨message, state.day, state.month⟩) := by
  unfold State.stamp
  rw [List.countP_map, List.countP_filter]
  simp [Bool.and_comm]

theorem perform_spec (state : State) (platform : Platform) (first again : Circumstances)
    (job : Job) :
    ∃ stored, (stored = job.messages ∨ stored = []) ∧
      (state.perform platform first again job).sent = state.sent ++ state.stamp stored ∧
      state.tables.Counts { first with day := state.day, month := state.month }
        (state.perform platform first again job).tables stored := by
  obtain ⟨rows, added, counts, same⟩ := Job.run_spec platform
    { first with day := state.day, month := state.month }
    { again with day := state.day, month := state.month } state.tables job
  refine ⟨rows.map MessageRow.message, ?_, ?_, counts⟩
  · rcases same with all | none
    · exact .inl all
    · exact .inr (by rw [none]; rfl)
  · unfold State.perform State.stamp
    dsimp only
    rw [added, List.drop_left]

variable {messages : List QueuedMessage}

section

variable (own : ∀ message ∈ messages, isOutgoing message = true → message.serverId = serverId)
  (id : Id)
include own id

/-- Messages of one server that are stored now are within its present window. -/
theorem sentFor_stamp :
    sentFor (state.sent ++ state.stamp messages) id state.day =
      sentFor state.sent id state.day +
        if id = serverId then messages.countP isOutgoing else 0 := by
  unfold sentFor
  rw [List.countP_append, stamp_count]
  congr 1
  split
  case isTrue same =>
    apply List.countP_congr
    intro message member
    have belongs := own message member
    simp only [Bool.and_eq_true, beq_iff_eq, decide_eq_true_eq]
    constructor
    · intro counted
      exact counted.1
    · intro outgoing
      exact ⟨outgoing, (belongs outgoing).trans same.symm, by omega, le_refl _⟩
  case isFalse other =>
    apply List.countP_eq_zero.mpr
    intro message member counted
    simp only [Bool.and_eq_true, beq_iff_eq] at counted
    exact other (counted.2.1.symm.trans (own message member counted.1))

theorem sentIn_stamp :
    sentIn directory (state.sent ++ state.stamp messages) id state.month =
      sentIn directory state.sent id state.month +
        if directory.organizationOf serverId = some id then messages.countP isOutgoing else 0 := by
  unfold sentIn
  rw [List.countP_append, stamp_count]
  congr 1
  split
  case isTrue same =>
    apply List.countP_congr
    intro message member
    have belongs := own message member
    simp only [Bool.and_eq_true, beq_iff_eq]
    constructor
    · intro counted
      exact counted.1
    · intro outgoing
      refine ⟨outgoing, ?_, trivial⟩
      rw [belongs outgoing, same]
  case isFalse other =>
    apply List.countP_eq_zero.mpr
    intro message member counted
    simp only [Bool.and_eq_true, beq_iff_eq] at counted
    apply other
    rw [← own message member counted.1]
    exact counted.2.1

end

section Perform

variable {platform : Platform} {first again : Circumstances} {job : Job} {serverId : Id}

/-- Performing a job of a server raises what the server and its organization have sent by
what is stored, and nothing else. -/
theorem perform_sent (directory : Directory) (state : State) (platform : Platform)
    (first again : Circumstances)
    (own : ∀ message ∈ job.messages, isOutgoing message = true → message.serverId = serverId) :
    ∃ count ≤ job.messages.countP isOutgoing,
      (∀ id, sentFor (state.perform platform first again job).sent id state.day =
        sentFor state.sent id state.day + if id = serverId then count else 0) ∧
      ∀ id, sentIn directory (state.perform platform first again job).sent id state.month =
        sentIn directory state.sent id state.month +
          if directory.organizationOf serverId = some id then count else 0 := by
  obtain ⟨stored, same, sent, -⟩ := perform_spec state platform first again job
  rw [sent]
  have belongs : ∀ message ∈ stored, isOutgoing message = true → message.serverId = serverId := by
    intro message member
    rcases same with rfl | rfl
    · exact own message member
    · cases member
  refine ⟨stored.countP isOutgoing, ?_, sentFor_stamp belongs, sentIn_stamp belongs⟩
  rcases same with rfl | rfl
  · exact le_refl _
  · exact Nat.zero_le _

/-- The counters keep up with what is stored. -/
theorem perform_counts (platform : Platform) (first again : Circumstances) (job : Job)
    (inv : Inv directory state) :
    (state.perform platform first again job).tables.organizationOf = directory.organizationOf ∧
    (∀ id day, (state.perform platform first again job).tables.serverSendCounters id day =
      (state.perform platform first again job).sent.countP (fun entry =>
        entry.message.serverId == id && entry.day == day)) ∧
    (∀ id month, (state.perform platform first again job).tables.organizationSendCounters id month =
      sentIn directory (state.perform platform first again job).sent id month) ∧
    ∀ entry ∈ (state.perform platform first again job).sent,
      entry.day ≤ state.day ∧ entry.month ≤ state.month := by
  obtain ⟨stored, -, sent, counts⟩ := perform_spec state platform first again job
  rw [sent]
  refine ⟨counts.owners.trans inv.owners, ?_, ?_, ?_⟩
  · intro id day
    rw [counts.servers, inv.servers, List.countP_append, stamp_count]
    by_cases today : day = state.day
    · subst today
      simp
    · have apart : (state.day == day) = false := beq_false_of_ne (Ne.symm today)
      simp [today, apart]
  · intro id month
    unfold sentIn
    rw [counts.organizations, inv.organizations, List.countP_append, stamp_count, inv.owners]
    congr 1
    by_cases current : month = state.month
    · subst current
      simp
    · have apart : (state.month == month) = false := beq_false_of_ne (Ne.symm current)
      simp [current, apart]
  · intro entry member
    rcases List.mem_append.mp member with earlier | new
    · exact inv.past entry earlier
    · obtain ⟨message, -, rfl⟩ := List.mem_map.mp new
      exact ⟨le_refl _, le_refl _⟩

/-- A job that fits is performed while nothing waits for its organization. -/
theorem Inv.perform (inv : Inv directory state)
    (own : ∀ message ∈ job.messages, isOutgoing message = true → message.serverId = serverId)
    (room : job.messages.countP isOutgoing ≠ 0 →
      Room directory state serverId (job.messages.countP isOutgoing))
    (apart : job.messages.countP isOutgoing ≠ 0 → ∀ other submission,
      state.waiting other = some submission → submission.Apart directory serverId) :
    Inv directory (state.perform platform first again job) := by
  obtain ⟨count, fewer, window, month⟩ := perform_sent directory state platform first again own
  obtain ⟨owners, servers, organizations, past⟩ := perform_counts platform first again job inv
  refine ⟨owners, servers, organizations, past, inv.known, inv.own, ?_, ?_, ?_⟩
  · intro other submission present reserved server known
    obtain ⟨ownRoom, sharedRoom⟩ := inv.room other submission present reserved server known
    have separate : count ≠ 0 → _ := fun positive =>
      apart (by omega) other submission present reserved server known
    refine ⟨fun limit limited => ?_, fun limit limited => ?_⟩
    · have bound := ownRoom limit limited
      change ((sentFor _ _ state.day : Nat) + _ : Int) ≤ limit
      rw [window]
      split
      case isTrue same =>
        by_cases nothing : count = 0
        · omega
        · exact absurd same ((separate nothing).1 (by rw [limited]; rfl))
      case isFalse => exact bound
    · have bound := sharedRoom limit limited
      change ((sentIn _ _ _ state.month : Nat) + _ : Int) ≤ limit
      rw [month]
      split
      case isTrue same =>
        by_cases nothing : count = 0
        · omega
        · exact absurd same ((separate nothing).2 (by rw [limited]; rfl))
      case isFalse => exact bound
  · intro id server limit known limited
    change (sentFor _ _ state.day : Int) ≤ limit
    rw [window]
    have bound := inv.within.servers id server limit known limited
    split
    case isTrue same =>
      subst same
      by_cases nothing : job.messages.countP isOutgoing = 0
      · omega
      · have fits := (room nothing server known).1 limit limited
        omega
    case isFalse => exact bound
  · intro id limit limited
    change (sentIn _ _ _ state.month : Int) ≤ limit
    rw [month]
    have bound := inv.within.organizations id limit limited
    split
    case isTrue same =>
      obtain ⟨server, known, rfl⟩ := Option.map_eq_some_iff.mp same
      by_cases nothing : job.messages.countP isOutgoing = 0
      · omega
      · have fits := (room nothing server known).2 limit limited
        omega
    case isFalse => exact bound

/-- What a job leaves of the room it had is left for the jobs after it. -/
theorem Room.perform {more : Nat}
    (room : Room directory state serverId (job.messages.countP isOutgoing + more))
    (own : ∀ message ∈ job.messages, isOutgoing message = true → message.serverId = serverId) :
    Room directory (state.perform platform first again job) serverId more := by
  obtain ⟨count, fewer, window, month⟩ := perform_sent directory state platform first again own
  intro server known
  obtain ⟨ownRoom, sharedRoom⟩ := room server known
  refine ⟨fun limit limited => ?_, fun limit limited => ?_⟩
  · have bound := ownRoom limit limited
    change ((sentFor _ _ state.day : Nat) + _ : Int) ≤ limit
    rw [window, if_pos rfl]
    omega
  · have bound := sharedRoom limit limited
    change ((sentIn _ _ _ state.month : Nat) + _ : Int) ≤ limit
    rw [month]
    push_cast at bound ⊢
    omega

/-- A transaction of a submission that is alone. -/
theorem Inv.store {index : Nat} {rest : List Job} (inv : Inv directory state)
    (alone : Alone directory state index)
    (waits : state.waiting index = some (.storing serverId (job :: rest))) :
    Inv directory ((state.perform platform first again job).put index
      (Submission.rest serverId rest)) := by
  have owned : ∀ message ∈ job.messages ++ rest.flatMap Job.messages,
      isOutgoing message = true → message.serverId = serverId := inv.own index _ waits
  have own : ∀ message ∈ job.messages, isOutgoing message = true → message.serverId = serverId :=
    fun message member => owned message (List.mem_append_left _ member)
  have room : (job.messages ++ rest.flatMap Job.messages).countP isOutgoing ≠ 0 →
      Room directory state serverId
        ((job.messages ++ rest.flatMap Job.messages).countP isOutgoing) := inv.room index _ waits
  rw [List.countP_append] at room
  -- While the job is performed its submission is not among those that wait.
  have cleared : Inv directory (state.put index none) := inv.put (by simp) (by simp) (by simp)
  have performed : Inv directory ((state.put index none).perform platform first again job) := by
    apply cleared.perform own
    · intro positive
      exact (room (by omega)).fewer (Nat.le_add_right _ _)
    · intro positive other submission present
      by_cases same : other = index
      · subst same
        simp [State.put] at present
      · have reserves : (Submission.storing serverId (job :: rest)).reserved ≠ 0 := by
          change (job.messages ++ rest.flatMap Job.messages).countP isOutgoing ≠ 0
          rw [List.countP_append]
          omega
        apply alone _ waits reserves other submission same
        simpa [State.put, same] using present
  have same : (state.perform platform first again job).put index (Submission.rest serverId rest) =
      ((state.put index none).perform platform first again job).put index
        (Submission.rest serverId rest) := by
    simp [State.put, State.perform]
  rw [same]
  apply performed.put
  · intro server remaining plan single idempotency present
    exact absurd rfl ((rest_checked present).2.2 server remaining plan single idempotency)
  · intro submission present message member
    obtain ⟨placed, listed, -⟩ := rest_checked present
    rw [listed] at member
    rw [placed]
    exact owned message (List.mem_append_right _ member)
  · intro submission present reserved
    obtain ⟨placed, listed, -⟩ := rest_checked present
    unfold Submission.reserved at reserved ⊢
    rw [listed] at reserved ⊢
    rw [placed]
    have before : Room directory (state.put index none) serverId _ := room (by omega)
    exact before.perform own

end Perform

/-! ## Runs -/

/-- A database without messages, and no submission under way. -/
def State.initial (directory : Directory) (day month : Int) : State where
  tables := { Tables.empty with organizationOf := directory.organizationOf }
  day := day
  month := month
  sent := []
  waiting := fun _ => none

theorem Inv.initial (directory : Directory) (day month : Int) :
    Inv directory (State.initial directory day month) := by
  refine ⟨rfl, fun _ _ => rfl, fun _ _ => rfl, ?_, ?_, ?_, ?_, ?_, ?_⟩
  · intro entry member
    cases member
  · intro index server remaining plan single idempotency waits
    cases waits
  · intro index submission waits
    cases waits
  · intro index submission waits
    cases waits
  · intro id server limit known limited
    exact directory.sendLimit_nonneg id server limit known limited
  · intro id limit limited
    exact directory.monthlySendLimit_nonneg id limit limited

/-- Every step that meets the condition keeps the invariant. -/
theorem Inv.step {next : State} {action : Action} (inv : Inv directory state)
    (stepped : step directory state action = some ((), next))
    (orderly : Orderly directory ⟨state, action, (), next⟩) : Inv directory next := by
  cases action with
  | tick day month =>
      simp only [Api.step] at stepped
      split at stepped
      case isTrue later =>
        cases stepped
        exact inv.tick later.1 later.2
      case isFalse => cases stepped
  | finish index platform env session excess =>
      simp only [Api.step] at stepped
      split at stepped
      · cases stepped
      · obtain ⟨finished, answered, same⟩ := Option.map_eq_some_iff.mp stepped
        cases same
        exact inv.finish orderly answered
  | request index serverId bodies single idempotency =>
      simp only [Api.step] at stepped
      split at stepped
      · cases stepped
      · obtain ⟨server, known, same⟩ := Option.map_eq_some_iff.mp stepped
        cases same
        apply inv.put
        · intro found remaining plan single idempotency present
          cases present
          rw [directory.server_id serverId server known]
          exact known
        · intro present new message member
          cases new
          cases member
        · intro present new reserved
          cases new
          exact absurd rfl reserved
  | prepare index api reads =>
      obtain ⟨next, prepared, same⟩ := Option.map_eq_some_iff.mp stepped
      cases same
      obtain ⟨submission, waits, prepared⟩ := Option.bind_eq_some_iff.mp prepared
      exact inv.prepare waits prepared
  | store index platform first again =>
      simp only [Api.step] at stepped
      split at stepped
      case h_1 serverId job rest waits =>
        cases stepped
        exact inv.store orderly waits
      case h_2 => cases stepped

/-- One server that may send one message. -/
def limitedDirectory : Directory where
  server := fun id => if id = 1 then some { exampleServer 1 with sendLimit := some 1 } else none
  policy := fun _ => {}
  server_id := by
    intro id found known
    split at known <;> cases known
    case isTrue same => exact same.symm
  sendLimit_nonneg := by
    intro id found limit known limited
    split at known <;> cases known
    cases limited
    decide
  monthlySendLimit_nonneg := by
    intro id limit limited
    cases limited

/-- A session at the end of an outgoing message. -/
def sendingSession : Session :=
  { exampleSession with
    state := .rcptToReceived
    credential := some ⟨10, 1, .smtp, ['a']⟩
    mailFrom := some "me@a.example".toList
    recipients := [⟨.credential, "x@y.example", exampleServer 1, none⟩]
    data := some (encode "From: me@a.example\r\n\r\n")
    headers := some (HeaderMap.empty.push "from" "me@a.example") }

def finishing (index : Nat) : Action := .finish index .ascii exampleEnv sendingSession 0

def storing (index : Nat) : Action := .store index .ascii calmCircumstances calmCircumstances

end Camelmailer.Api
