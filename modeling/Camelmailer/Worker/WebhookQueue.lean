import Camelmailer.Core.Model
import Camelmailer.Db.Table
import Camelmailer.Machine
import Camelmailer.Text.Octets

/-!
# The queue of webhook requests

`process_next_webhook` of `camelmailer-worker/src/worker.rs` and the queue it works on,
`camelmailer-db/src/webhook_queue.rs`. Any number of workers take requests from the queue, and what they
do to the database interleaves. What is sent, and to whom, is any content; the answer of the receiver,
and whether the address guard lets the request through, is up to the environment.

A worker that panics, or that the database refuses a statement, leaves its request locked.
-/

namespace Camelmailer.Worker.Webhooks

open Utf8 Db Octets

def WEBHOOK_MAX_ATTEMPTS : Nat := 10

/-! ## The tables -/

/-- A row of `webhook_requests`. `locked_by` and `locked_at` are set and cleared together. -/
structure WebhookRequestRow (Content : Type) where
  id : Nat
  content : Content
  attempts : Nat
  lock : Option (Text × DateTime)
  retryAfter : Option DateTime
deriving DecidableEq

/-- A row of `webhook_request_log`. -/
structure WebhookLogEntry (Content : Type) where
  content : Content
  attempt : Nat
  statusCode : Option Nat
  success : Bool
  responseBody : Text
deriving DecidableEq

variable {Content : Type}

abbrev Requests (Content : Type) : Type := Table (fun row : WebhookRequestRow Content => row.id)

/-- A lock is older than the window, which is at least a day. -/
def isStale (staleLockDays : Int) (now : DateTime) (lock : Text × DateTime) : Bool :=
  lock.2 < now - hours (24 * max staleLockDays 1)

def WebhookRequestRow.isReady (staleLockDays : Int) (now : DateTime) (row : WebhookRequestRow Content) :
    Bool :=
  row.lock.all (isStale staleLockDays now) && row.retryAfter.all (· ≤ now)

def enqueue (content : Content) (requests : Requests Content) : Requests Content :=
  requests.insert ⟨requests.next, content, 0, none, none⟩ rfl

def WebhookRequestRow.locked (workerId : Text) (now : DateTime) (row : WebhookRequestRow Content) :
    WebhookRequestRow Content := { row with lock := some (workerId, now) }

/-- The lock of the row with an identifier is taken. -/
def lockRow (workerId : Text) (now : DateTime) (id : Nat) (requests : Requests Content) :
    Requests Content :=
  requests.update (fun row => row.id = id) (·.locked workerId now) (fun _ => rfl)

/-- `PgWebhookQueue::dequeue`. Rows that another statement has locked at the moment are skipped, so any
row that is ready can be the first. -/
def dequeue (staleLockDays : Int) (workerId : Text) (now : DateTime) (picked : Option Nat)
    (requests : Requests Content) : Option (WebhookRequestRow Content) × Requests Content :=
  match (picked.bind requests.find).filter (fun row => row.isReady staleLockDays now) with
  | none => (none, requests)
  | some row => (some (row.locked workerId now), lockRow workerId now row.id requests)

def complete (id : Nat) (requests : Requests Content) : Requests Content := requests.remove id

def retryDelayMinutes (attempts : Nat) : Int := 2 ^ min attempts 10

def WebhookRequestRow.rescheduled (attempts : Nat) (now : DateTime) (row : WebhookRequestRow Content) :
    WebhookRequestRow Content :=
  { row with
    lock := none
    attempts := row.attempts + 1
    retryAfter := some (now + retryDelayMinutes attempts * 60 * 1000000000) }

def retry (id attempts : Nat) (now : DateTime) (requests : Requests Content) : Requests Content :=
  requests.update (fun row => row.id = id) (·.rescheduled attempts now) (fun _ => rfl)

/-- Why an attempt is not recorded. -/
inductive Failure where
  /-- The text is cut inside a character. -/
  | panicked
  /-- The database stores no text with a null character. -/
  | refused
deriving DecidableEq

def logAttempt (request : WebhookRequestRow Content) (attempt : Nat) (statusCode : Option Nat)
    (success : Bool) (responseBody : Text) (log : List (WebhookLogEntry Content)) :
    Except Failure (List (WebhookLogEntry Content)) :=
  match Str.splitAtByte (min (Str.byteLen responseBody) 2048) responseBody with
  | none => .error .panicked
  | some (front, _) =>
      if '\x00' ∈ front then .error .refused
      else .ok (log ++ [⟨request.content, attempt, statusCode, success, front⟩])

/-! ## The workers -/

/-- What comes of a request: the address guard blocks it, the receiver answers, or the transport fails. -/
inductive Reaction where
  | blocked (error : Text)
  | answered (status : Nat) (body : Text)
  | failed (error : Text)

namespace Reaction

/-- The text that is logged. -/
def text : Reaction → Text
  | blocked error => "blocked by address guard: ".toList ++ error
  | answered _ body => body
  | failed error => error

def statusCode : Reaction → Option Nat
  | answered status _ => some status
  | _ => none

/-- `StatusCode::is_success`. -/
def success : Reaction → Bool
  | answered status _ => decide (200 ≤ status ∧ status < 300)
  | _ => false

/-- The request has been sent. -/
def posted : Reaction → Bool
  | blocked _ => false
  | _ => true

end Reaction

/-- What a worker has in hand: a request to send, or one whose attempt is recorded. -/
inductive Job (Content : Type) where
  | sending (request : WebhookRequestRow Content)
  | settling (request : WebhookRequestRow Content) (success : Bool)

def Job.request : Job Content → WebhookRequestRow Content
  | sending request => request
  | settling request _ => request

/-- A request that was sent, and whether with success. -/
structure Post where
  id : Nat
  success : Bool
deriving DecidableEq

structure State (Content : Type) where
  requests : Requests Content
  log : List (WebhookLogEntry Content)
  /-- The requests sent so far, in this order. -/
  posts : List Post
  workers : Nat → Option (Job Content)

def State.empty : State Content := ⟨Table.empty 0, [], [], fun _ => none⟩

inductive Action (Content : Type) where
  | enqueue (content : Content)
  | dequeue (worker : Nat) (workerId : Text) (now : DateTime) (picked : Option Nat)
  /-- The request is sent, unless it is blocked, and the attempt is recorded. -/
  | attempt (worker : Nat) (reaction : Reaction)
  | settle (worker : Nat) (now : DateTime)
  /-- The worker stops. -/
  | crash (worker : Nat)

inductive WebhookOutcome where
  | delivered
  | retrying
  | givenUp
deriving DecidableEq

inductive Output where
  | done
  | failed (failure : Failure)
  | outcome (outcome : WebhookOutcome)

/-- The part of `process_next_webhook` up to `log_attempt`. -/
def State.attempt (state : State Content) (worker : Nat) (request : WebhookRequestRow Content)
    (reaction : Reaction) : Output × State Content :=
  let posts := if reaction.posted then state.posts ++ [⟨request.id, reaction.success⟩] else state.posts
  match logAttempt request (request.attempts + 1) reaction.statusCode reaction.success reaction.text
      state.log with
  | .error failure =>
      (.failed failure, { state with posts, workers := Function.update state.workers worker none })
  | .ok log =>
      (.done, { state with
        posts, log, workers := Function.update state.workers worker (some (.settling request reaction.success)) })

/-- The part behind it. -/
def State.settle (state : State Content) (worker : Nat) (now : DateTime)
    (request : WebhookRequestRow Content) (success : Bool) : Output × State Content :=
  let workers := Function.update state.workers worker none
  if success then
    (.outcome .delivered, { state with requests := complete request.id state.requests, workers })
  else if WEBHOOK_MAX_ATTEMPTS ≤ request.attempts + 1 then
    (.outcome .givenUp, { state with requests := complete request.id state.requests, workers })
  else
    (.outcome .retrying,
      { state with requests := retry request.id request.attempts now state.requests, workers })

def step (staleLockDays : Int) (state : State Content) : Action Content → Option (Output × State Content)
  | .enqueue content => some (.done, { state with requests := enqueue content state.requests })
  | .dequeue worker workerId now picked =>
      match state.workers worker with
      | some _ => none
      | none =>
          let taken := dequeue staleLockDays workerId now picked state.requests
          some (.done, { state with
            requests := taken.2, workers := Function.update state.workers worker (taken.1.map .sending) })
  | .attempt worker reaction =>
      match state.workers worker with
      | some (.sending request) => some (state.attempt worker request reaction)
      | _ => none
  | .settle worker now =>
      match state.workers worker with
      | some (.settling request success) => some (state.settle worker now request success)
      | _ => none
  | .crash worker => some (.done, { state with workers := Function.update state.workers worker none })

/-! ## Attempts that are recorded -/

/-- The first 2048 bytes of a text, or all of it if it is shorter. -/
def Cut (front text : Text) : Prop :=
  front <+: text ∧ Str.byteLen front = min (Str.byteLen text) 2048

/-- A text is recorded if no character goes across byte 2048 and none before it is a null character. -/
def Recordable (text : Text) : Prop := ∃ front, Cut front text ∧ '\x00' ∉ front

variable {request : WebhookRequestRow Content}

/-- Exactly such a text is recorded, and what is stored is the front of it. -/
theorem logAttempt_ok_iff {attempt : Nat} {statusCode : Option Nat} {success : Bool} {text : Text}
    {log after : List (WebhookLogEntry Content)} :
    logAttempt request attempt statusCode success text log = .ok after ↔
      ∃ front, Cut front text ∧ '\x00' ∉ front ∧
        after = log ++ [⟨request.content, attempt, statusCode, success, front⟩] := by
  unfold logAttempt
  constructor
  · intro logged
    split at logged
    · cases logged
    · next front back cut =>
        obtain ⟨rfl, size⟩ := Str.splitAtByte_some _ _ _ _ cut
        split at logged
        · cases logged
        · next stored =>
            cases logged
            exact ⟨front, ⟨List.prefix_append _ _, size⟩, stored, rfl⟩
  · rintro ⟨front, ⟨⟨back, rfl⟩, size⟩, stored, rfl⟩
    rw [← size, Str.splitAtByte_append]
    exact if_neg stored

theorem cut_of_straddled {text : Text} (straddled : Straddled 2048 text) :
    Str.splitAtByte (min (Str.byteLen text) 2048) text = none := by
  have inside : 2048 < Str.byteLen text := by
    obtain ⟨front, char, back, rfl, -, late⟩ := straddled
    rw [Str.byteLen_append, Str.byteLen_cons]
    omega
  rw [min_eq_right inside.le]
  exact splitAtByte_eq_none.mpr (.inr straddled)

/-! ## What holds of a request -/

/-- The posts of a request in their order, and whether each succeeded. -/
def State.postsOf (state : State Content) (id : Nat) : List Bool :=
  (state.posts.filter (fun post => post.id = id)).map Post.success

/-- A request is not posted too often, and not again after a success. -/
def State.Bounded (state : State Content) (id : Nat) : Prop :=
  (state.postsOf id).length ≤ WEBHOOK_MAX_ATTEMPTS ∧
    (state.postsOf id).Pairwise (fun earlier _ => earlier = false)

/-- Every post of a request has failed and was counted. -/
def State.Failed (state : State Content) (id attempts : Nat) : Prop :=
  (state.postsOf id).length ≤ attempts ∧ ∀ success ∈ state.postsOf id, success = false

/-- The request that a worker has in hand. -/
def inHand (workers : Nat → Option (Job Content)) (worker : Nat) : Option (WebhookRequestRow Content) :=
  (workers worker).map Job.request

theorem inHand_update (workers : Nat → Option (Job Content)) (worker other : Nat) (job : Option (Job Content)) :
    inHand (Function.update workers worker job) other =
      if other = worker then job.map Job.request else inHand workers other := by
  unfold inHand
  rw [Function.update_apply]
  split <;> rfl

/-- A request that is being settled is so still if its worker has not moved. -/
theorem settling_update {workers : Nat → Option (Job Content)} {worker other : Nat}
    {job : Option (Job Content)} {success : Bool} (begun : job ≠ some (.settling request success))
    (given : Function.update workers worker job other = some (.settling request success)) :
    other ≠ worker ∧ workers other = some (.settling request success) := by
  rw [Function.update_apply] at given
  split at given
  · exact absurd given begun
  · next another => exact ⟨another, given⟩

/-- What holds while workers neither crash nor lose their locks. A request in hand is locked, and in one
hand only. The posts of a request have failed and are counted in its row, but for the one that is being
settled. -/
structure Inv (state : State Content) : Prop where
  held : ∀ worker request, inHand state.workers worker = some request → ∃ row ∈ state.requests.rows,
    row.id = request.id ∧ row.attempts = request.attempts ∧ row.lock.isSome = true
  apart : ∀ worker other request another, inHand state.workers worker = some request →
    inHand state.workers other = some another → request.id = another.id → worker = other
  counted : ∀ row ∈ state.requests.rows, row.attempts < WEBHOOK_MAX_ATTEMPTS ∧
    ((∀ worker request success, state.workers worker = some (.settling request success) →
      request.id ≠ row.id) → state.Failed row.id row.attempts)
  settled : ∀ worker request, state.workers worker = some (.settling request false) →
    state.Failed request.id (request.attempts + 1)
  bounded : ∀ id, state.Bounded id
  fresh : ∀ id, state.requests.next ≤ id → state.postsOf id = []

theorem inv_empty : Inv (@State.empty Content) where
  held := fun _ _ given => by cases given
  apart := fun _ _ _ _ given => by cases given
  counted := fun _ member => by cases member
  settled := fun _ _ given => by cases given
  bounded := fun _ => ⟨Nat.zero_le _, .nil⟩
  fresh := fun _ _ => rfl

section Steps

variable {state : State Content} {worker : Nat}

theorem Inv.enqueue (inv : Inv state) (content : Content) :
    Inv { state with requests := enqueue content state.requests } where
  held := by
    intro worker request given
    obtain ⟨row, member, own⟩ := inv.held worker request given
    exact ⟨row, (Table.mem_insert rfl).mpr (.inr member), own⟩
  apart := inv.apart
  counted := by
    intro row member
    rcases (Table.mem_insert rfl).mp member with rfl | old
    · have unposted : state.postsOf state.requests.next = [] := inv.fresh _ le_rfl
      refine ⟨Nat.zero_lt_succ _, fun _ => ?_⟩
      change state.Failed state.requests.next 0
      rw [State.Failed, unposted]
      exact ⟨le_rfl, fun _ posted => by cases posted⟩
    · exact inv.counted row old
  settled := inv.settled
  bounded := inv.bounded
  fresh := fun id later => inv.fresh id (Nat.le_of_succ_le later)

/-- No worker that holds a request has lost its lock. -/
def State.Leased (staleLockDays : Int) (now : DateTime) (state : State Content) : Prop :=
  ∀ worker request, inHand state.workers worker = some request → ∀ row ∈ state.requests.rows,
    row.id = request.id → ∀ lock ∈ row.lock, isStale staleLockDays now lock = false

variable {now : DateTime} {requests : Requests Content} {workerId : Text}
  {other : WebhookRequestRow Content}

theorem mem_lockRow {id : Nat} :
    other ∈ (lockRow workerId now id requests).rows ↔
      ∃ row ∈ requests.rows, (if row.id = id then row.locked workerId now else row) = other := by
  have updated : other ∈ (lockRow workerId now id requests).rows ↔ ∃ row ∈ requests.rows,
      (if decide (row.id = id) = true then row.locked workerId now else row) = other := Table.mem_update
  simpa only [decide_eq_true_eq] using updated

variable {request row : WebhookRequestRow Content} {staleLockDays : Int}

section

variable (inv : Inv state) (leased : state.Leased staleLockDays now)
  (member : row ∈ state.requests.rows) (ready : row.isReady staleLockDays now = true)
include inv leased member ready

/-- A request that is ready is in no hand. -/
theorem Inv.unheld {other : Nat} (given : inHand state.workers other = some request) :
    request.id ≠ row.id := by
  intro same
  obtain ⟨own, listed, named, -, locked⟩ := inv.held other request given
  obtain rfl := Table.unique listed member (named.trans same)
  obtain ⟨lock, taken⟩ := Option.isSome_iff_exists.mp locked
  have fresh := leased other request given own listed named lock taken
  simp [WebhookRequestRow.isReady, taken, fresh] at ready

theorem Inv.taken (idle : state.workers worker = none) :
    Inv { state with
      requests := lockRow workerId now row.id state.requests
      workers := Function.update state.workers worker (some (.sending (row.locked workerId now))) } := by
  have unheld {other : Nat} {request : WebhookRequestRow Content}
      (given : inHand state.workers other = some request) : request.id ≠ row.id :=
    inv.unheld leased member ready given
  refine ⟨?_, ?_, ?_, ?_, inv.bounded, inv.fresh⟩
  · intro other request given
    rw [inHand_update] at given
    split at given
    · cases given
      exact ⟨row.locked workerId now, mem_lockRow.mpr ⟨row, member, if_pos rfl⟩, rfl, rfl, rfl⟩
    · obtain ⟨own, listed, named, attempts, locked⟩ := inv.held other request given
      exact ⟨own, mem_lockRow.mpr ⟨own, listed, if_neg (named ▸ unheld given)⟩, named, attempts, locked⟩
  · intro one other request another given given' same
    rw [inHand_update] at given given'
    split at given <;> split at given'
    · next first second => exact first.trans second.symm
    · cases given
      exact absurd same.symm (unheld given')
    · cases given'
      exact absurd same (unheld given)
    · exact inv.apart one other request another given given' same
  · intro other listed
    obtain ⟨old, there, changed⟩ := mem_lockRow.mp listed
    have same : other.id = old.id ∧ other.attempts = old.attempts := by
      subst changed
      split <;> exact ⟨rfl, rfl⟩
    rw [same.1, same.2]
    obtain ⟨less, failed⟩ := inv.counted old there
    refine ⟨less, fun unsettled => failed (fun another request success given => ?_)⟩
    have busy : another ≠ worker := by
      rintro rfl
      rw [idle] at given
      cases given
    exact unsettled another request success ((Function.update_of_ne busy _ _).trans given)
  · intro other request given
    exact inv.settled other request (settling_update (by simp) given).2

end

theorem Inv.dequeue {picked : Option Nat} (inv : Inv state)
    (leased : state.Leased staleLockDays now) (idle : state.workers worker = none) :
    Inv { state with
      requests := (dequeue staleLockDays workerId now picked state.requests).2
      workers := Function.update state.workers worker
        ((dequeue staleLockDays workerId now picked state.requests).1.map .sending) } := by
  unfold Webhooks.dequeue
  split
  · rw [Option.map_none, ← idle, Function.update_eq_self]
    exact inv
  · next row found =>
      obtain ⟨listed, ready⟩ := Option.filter_eq_some_iff.mp found
      obtain ⟨id, -, named⟩ := Option.bind_eq_some_iff.mp listed
      exact inv.taken leased (Table.find_some named).1 ready idle

/-- The posts after an attempt. -/
theorem postsOf_attempt (request : WebhookRequestRow Content) (reaction : Reaction) (id : Nat)
    (log : List (WebhookLogEntry Content)) (workers : Nat → Option (Job Content)) :
    State.postsOf ⟨state.requests, log,
        if reaction.posted then state.posts ++ [⟨request.id, reaction.success⟩] else state.posts, workers⟩ id =
      if reaction.posted = true ∧ request.id = id then state.postsOf id ++ [reaction.success]
      else state.postsOf id := by
  unfold State.postsOf
  split_ifs <;> simp_all

theorem Inv.attempt {reaction : Reaction} (inv : Inv state)
    (sending : state.workers worker = some (.sending request))
    (log : List (WebhookLogEntry Content)) :
    Inv ⟨state.requests, log,
      if reaction.posted then state.posts ++ [⟨request.id, reaction.success⟩] else state.posts,
      Function.update state.workers worker (some (.settling request reaction.success))⟩ := by
  have own : inHand state.workers worker = some request := congrArg (Option.map Job.request) sending
  have hands : inHand (Function.update state.workers worker (some (.settling request reaction.success))) =
      inHand state.workers := by
    funext other
    rw [inHand_update]
    split
    · next same => exact (same ▸ own).symm
    · rfl
  have other_worker {other : Nat} {another : WebhookRequestRow Content} {success : Bool}
      (given : state.workers other = some (.settling another success)) : other ≠ worker := by
    rintro rfl
    cases sending.symm.trans given
  have other_request {other : Nat} {another : WebhookRequestRow Content} {success : Bool}
      (given : state.workers other = some (.settling another success)) : request.id ≠ another.id :=
    fun same => other_worker given (inv.apart other worker another request
      (congrArg (Option.map Job.request) given) own same.symm)
  obtain ⟨row, member, named, attempts, -⟩ := inv.held worker request own
  obtain ⟨less, failed⟩ := inv.counted row member
  rw [named, attempts] at failed
  obtain ⟨few, all_failed⟩ := failed (fun _ _ _ given => Ne.symm (other_request given))
  refine ⟨hands ▸ inv.held, hands ▸ inv.apart, ?_, ?_, ?_, ?_⟩
  · intro other listed
    obtain ⟨below, failed⟩ := inv.counted other listed
    refine ⟨below, fun unsettled => ?_⟩
    have apart : request.id ≠ other.id :=
      unsettled worker request reaction.success (Function.update_self ..)
    rw [State.Failed, postsOf_attempt, if_neg (fun both => apart both.2)]
    exact failed (fun another request success given => unsettled another request success
      ((Function.update_of_ne (other_worker given) _ _).trans given))
  · intro other another (given : Function.update state.workers worker _ other = _)
    rw [State.Failed, postsOf_attempt]
    by_cases same : other = worker
    · subst same
      rw [Function.update_self, Option.some_inj, Job.settling.injEq] at given
      obtain ⟨rfl, failed⟩ := given
      rw [failed]
      split
      · rw [List.length_append, List.length_singleton]
        refine ⟨by omega, fun success listed => ?_⟩
        rcases List.mem_append.mp listed with earlier | last
        · exact all_failed success earlier
        · exact List.mem_singleton.mp last
      · exact ⟨Nat.le_succ_of_le few, all_failed⟩
    · rw [Function.update_of_ne same] at given
      rw [if_neg (fun both => other_request given both.2)]
      exact inv.settled other another given
  · intro id
    rw [State.Bounded, postsOf_attempt]
    split
    · next both =>
        obtain ⟨-, rfl⟩ := both
        refine ⟨?_, List.pairwise_append.mpr ⟨(inv.bounded _).2, List.pairwise_singleton _ _, ?_⟩⟩
        · rw [List.length_append, List.length_singleton]
          omega
        · exact fun earlier listed _ _ => all_failed earlier listed
    · exact inv.bounded id
  · intro id (later : state.requests.next ≤ id)
    rw [postsOf_attempt, if_neg]
    · exact inv.fresh id later
    · have below := state.requests.below row member
      omega

variable {success : Bool}

/-- A worker lets a request go. The row of the request is gone, or counts the posts. -/
theorem Inv.released (inv : Inv state)
    (settling : state.workers worker = some (.settling request success))
    (next : requests.next = state.requests.next)
    (kept : ∀ row ∈ state.requests.rows, row.id ≠ request.id → row ∈ requests.rows)
    (came : ∀ row ∈ requests.rows, (row ∈ state.requests.rows ∧ row.id ≠ request.id) ∨
      (row.attempts < WEBHOOK_MAX_ATTEMPTS ∧ state.Failed row.id row.attempts)) :
    Inv { state with requests, workers := Function.update state.workers worker none } := by
  have own : inHand state.workers worker = some request := congrArg (Option.map Job.request) settling
  have released {other : Nat} {another : WebhookRequestRow Content}
      (given : inHand (Function.update state.workers worker none) other = some another) :
      other ≠ worker ∧ inHand state.workers other = some another := by
    rw [inHand_update] at given
    split at given
    · cases given
    · next different => exact ⟨different, given⟩
  refine ⟨?_, ?_, ?_, ?_, inv.bounded, fun id later => inv.fresh id (next ▸ later)⟩
  · intro other another given
    obtain ⟨different, held⟩ := released given
    obtain ⟨row, listed, named, rest⟩ := inv.held other another held
    refine ⟨row, kept row listed (fun same => ?_), named, rest⟩
    exact different (inv.apart other worker another request held own (named.symm.trans same))
  · intro one other first second given given' same
    exact inv.apart one other first second (released given).2 (released given').2 same
  · intro row listed
    rcases came row listed with ⟨old, different⟩ | ⟨less, failed⟩
    · obtain ⟨less, failed⟩ := inv.counted row old
      refine ⟨less, fun unsettled => failed (fun other another success given same => ?_)⟩
      by_cases mine : other = worker
      · subst mine
        cases settling.symm.trans given
        exact different same.symm
      · exact unsettled other another success ((Function.update_of_ne mine _ _).trans given) same
    · exact ⟨less, fun _ => failed⟩
  · intro other another given
    exact inv.settled other another (settling_update (by simp) given).2

theorem mem_retry {id attempts : Nat} :
    other ∈ (retry id attempts now requests).rows ↔
      ∃ row ∈ requests.rows, (if row.id = id then row.rescheduled attempts now else row) = other := by
  have updated : other ∈ (retry id attempts now requests).rows ↔ ∃ row ∈ requests.rows,
      (if decide (row.id = id) = true then row.rescheduled attempts now else row) = other := Table.mem_update
  simpa only [decide_eq_true_eq] using updated

theorem Inv.completed (inv : Inv state)
    (settling : state.workers worker = some (.settling request success)) :
    Inv { state with
      requests := complete request.id state.requests
      workers := Function.update state.workers worker none } :=
  inv.released settling rfl (fun _ listed different => Table.mem_remove.mpr ⟨listed, different⟩)
    (fun _ listed => .inl (Table.mem_remove.mp listed))

theorem Inv.retried (inv : Inv state) (now : DateTime)
    (settling : state.workers worker = some (.settling request false))
    (few : request.attempts + 1 < WEBHOOK_MAX_ATTEMPTS) :
    Inv { state with
      requests := retry request.id request.attempts now state.requests
      workers := Function.update state.workers worker none } := by
  refine inv.released settling rfl (fun row listed different => ?_) (fun row listed => ?_)
  · exact mem_retry.mpr ⟨row, listed, if_neg different⟩
  · obtain ⟨old, there, changed⟩ := mem_retry.mp listed
    split at changed
    · next named =>
        obtain ⟨own, member, same, attempts, -⟩ :=
          inv.held worker request (congrArg (Option.map Job.request) settling)
        obtain rfl := Table.unique there member (named.trans same.symm)
        subst changed
        refine .inr ⟨attempts ▸ few, ?_⟩
        change state.Failed old.id (old.attempts + 1)
        rw [named, attempts]
        exact inv.settled worker request settling
    · next different =>
        subst changed
        exact .inl ⟨there, different⟩

theorem Inv.settle (inv : Inv state) (now : DateTime)
    (settling : state.workers worker = some (.settling request success)) :
    Inv (state.settle worker now request success).2 := by
  unfold State.settle
  cases success with
  | true => exact inv.completed settling
  | false =>
      rw [if_neg Bool.false_ne_true]
      split
      · exact inv.completed settling
      · next few => exact inv.retried now settling (Nat.lt_of_not_le few)

end Steps

/-! ## Runs -/

/-- The condition of a step. A worker does not stop; a request is taken while no worker has lost its
lock; and what comes of a request can be recorded. -/
def Regular (staleLockDays : Int) (state : State Content) : Action Content → Prop
  | .dequeue _ _ now _ => state.Leased staleLockDays now
  | .attempt _ reaction => Recordable reaction.text
  | .crash _ => False
  | _ => True

/-- What an attempt and its settling do. One row is logged with a front of the text; then the request is
removed, after a success or the last attempt, or put back with one attempt more. -/
def Settles (event : Machine.Event (State Content) (Action Content) Output) : Prop :=
  match event.input with
  | .attempt worker reaction => ∃ request front,
      event.before.workers worker = some (.sending request) ∧ Cut front reaction.text ∧
      event.after.log = event.before.log ++
        [⟨request.content, request.attempts + 1, reaction.statusCode, reaction.success, front⟩] ∧
      event.after.workers worker = some (.settling request reaction.success)
  | .settle worker now => ∃ request success,
      event.before.workers worker = some (.settling request success) ∧
      event.after.workers worker = none ∧ event.after.log = event.before.log ∧
      ((event.after.requests.find request.id = none ∧
          (success = true ∨ request.attempts + 1 = WEBHOOK_MAX_ATTEMPTS)) ∨
        (success = false ∧ request.attempts + 1 < WEBHOOK_MAX_ATTEMPTS ∧
          ∃ row : WebhookRequestRow Content, row.attempts = request.attempts ∧
            event.after.requests.find request.id = some (row.rescheduled request.attempts now)))
  | _ => True

section Events

variable {staleLockDays : Int} {before after : State Content} {output : Output} {worker : Nat}
  {request : WebhookRequestRow Content}

theorem attempt_settles {reaction : Reaction} (inv : Inv before)
    (sending : before.workers worker = some (.sending request))
    (recordable : Recordable reaction.text)
    (done : before.attempt worker request reaction = (output, after)) :
    Inv after ∧ Settles ⟨before, .attempt worker reaction, output, after⟩ := by
  obtain ⟨front, cut, stored⟩ := recordable
  have logged : logAttempt request (request.attempts + 1) reaction.statusCode reaction.success
      reaction.text before.log = .ok _ := logAttempt_ok_iff.mpr ⟨front, cut, stored, rfl⟩
  unfold State.attempt at done
  rw [logged] at done
  cases done
  exact ⟨inv.attempt sending _, request, front, sending, cut, rfl, Function.update_self ..⟩

theorem find_complete (requests : Requests Content) (id : Nat) : (complete id requests).find id = none := by
  cases found : (complete id requests).find id with
  | none => rfl
  | some row =>
      obtain ⟨listed, named⟩ := Table.find_some found
      exact absurd named (Table.mem_remove.mp listed).2

theorem settle_settles {success : Bool} {now : DateTime} (inv : Inv before)
    (settling : before.workers worker = some (.settling request success))
    (done : before.settle worker now request success = (output, after)) :
    Settles ⟨before, .settle worker now, output, after⟩ := by
  obtain ⟨row, listed, named, attempts, -⟩ :=
    inv.held worker request (congrArg (Option.map Job.request) settling)
  have less := (inv.counted row listed).1
  refine ⟨request, success, settling, ?_⟩
  unfold State.settle at done
  split at done
  · next delivered =>
      cases done
      exact ⟨Function.update_self .., rfl, .inl ⟨find_complete .., .inl delivered⟩⟩
  · next undelivered =>
      split at done
      · next last =>
          cases done
          exact ⟨Function.update_self .., rfl, .inl ⟨find_complete .., .inr (by omega)⟩⟩
      · next few =>
          cases done
          refine ⟨Function.update_self .., rfl, .inr ⟨by simpa using undelivered, by omega, row, attempts, ?_⟩⟩
          have found := Table.find_of_mem (mem_retry.mpr ⟨row, listed, if_pos named⟩ :
            row.rescheduled request.attempts now ∈ (retry request.id request.attempts now before.requests).rows)
          rwa [show (row.rescheduled request.attempts now).id = request.id from named] at found

theorem step_settles {action : Action Content} (inv : Inv before)
    (reaction : step staleLockDays before action = some (output, after))
    (regular : Regular staleLockDays before action) : Inv after ∧ Settles ⟨before, action, output, after⟩ := by
  cases action with
  | enqueue content =>
      cases reaction
      exact ⟨inv.enqueue content, trivial⟩
  | dequeue worker workerId now picked =>
      rw [step] at reaction
      split at reaction
      · cases reaction
      · next idle =>
          cases reaction
          exact ⟨inv.dequeue regular idle, trivial⟩
  | attempt worker answer =>
      rw [step] at reaction
      split at reaction
      · next sending => exact attempt_settles inv sending regular (Option.some.inj reaction)
      · cases reaction
  | settle worker now =>
      rw [step] at reaction
      split at reaction
      · next settling =>
          have done := Option.some.inj reaction
          refine ⟨?_, settle_settles inv settling done⟩
          rw [show after = (before.settle worker now _ _).2 from congrArg Prod.snd done.symm]
          exact inv.settle now settling
      · cases reaction
  | crash worker => exact regular.elim

end Events

/-- Every attempt is settled in a run of workers that do not stop, keep their locks and get texts that can
be recorded. No request is posted more than ten times or after a success. -/
theorem webhooks_settled {staleLockDays : Int} {actions : List (Action Content)}
    {events : List (Machine.Event (State Content) (Action Content) Output)} {final : State Content}
    (ran : Machine.run (step staleLockDays) State.empty actions = some (events, final))
    (regular : ∀ event ∈ events, Regular staleLockDays event.before event.input) :
    (∀ event ∈ events, Settles event) ∧
      ∀ state, Machine.Reached events final state → ∀ id, state.Bounded id := by
  obtain ⟨last, earlier⟩ := Machine.run_invariant (fun _ => Inv)
    (fun event => Regular staleLockDays event.before event.input)
    (fun _ _ _ _ _ inv reaction regular => (step_settles inv reaction regular).1) actions [] _ final
    events inv_empty ran regular
  constructor
  · intro event member
    obtain ⟨front, back, split⟩ := List.append_of_mem member
    obtain ⟨inv, reaction⟩ := earlier front event back split
    exact (step_settles inv reaction (regular event member)).2
  · rintro state (rfl | ⟨event, member, rfl⟩)
    · exact last.bounded
    · obtain ⟨front, back, split⟩ := List.append_of_mem member
      exact (earlier front event back split).1.bounded

/-- A request that is delivered at once. -/
def deliveredOnce : List (Action Unit) :=
  [.enqueue (), .dequeue 0 "worker" 0 (some 0), .attempt 0 (.answered 200 "ok"), .settle 0 1]

theorem delivered_once_settled : ∃ events final,
    Machine.run (step 1) (@State.empty Unit) deliveredOnce = some (events, final) ∧
      (∀ event ∈ events, Settles event) ∧
      ∀ state, Machine.Reached events final state → ∀ id, state.Bounded id := by
  refine ⟨_, _, rfl, webhooks_settled (rfl : Machine.run (step 1) (@State.empty Unit) deliveredOnce = some _) ?_⟩
  simp only [List.forall_mem_cons]
  refine ⟨trivial, ?_, ?_, trivial, fun _ absent => by cases absent⟩
  · intro worker request given
    cases given
  · exact ⟨"ok", ⟨List.prefix_refl _, by decide⟩, by decide⟩

/-- A text with a character across byte 2048. -/
def longBody : Text := List.replicate 2047 'a' ++ ['é']

theorem longBody_cut : Str.splitAtByte (min (Str.byteLen longBody) 2048) longBody = none := by
  have front : Str.byteLen (List.replicate 2047 'a') = 2047 := by decide +kernel
  refine cut_of_straddled ⟨List.replicate 2047 'a', 'é', [], rfl, ?_, ?_⟩
  · omega
  · rw [front]
    decide

/-- A request whose receiver answers with a text. Another worker takes it again after two days. -/
def postedAgain (body : Text) : List (Action Unit) :=
  [.enqueue (), .dequeue 0 "worker" 0 (some 0), .attempt 0 (.answered 200 body),
    .dequeue 1 "other" (hours 48) (some 0), .attempt 1 (.answered 200 body)]

theorem long_body_posted_again :
    (∀ action ∈ postedAgain longBody, ∀ worker, action ≠ .crash worker) ∧
    ∃ events final, Machine.run (step 1) State.empty (postedAgain longBody) = some (events, final) ∧
      ¬final.Bounded 0 := by
  have panics (state : State Unit) (worker : Nat) (request : WebhookRequestRow Unit) :
      state.attempt worker request (.answered 200 longBody) = (.failed .panicked,
        ⟨state.requests, state.log, state.posts ++ [⟨request.id, true⟩],
          Function.update state.workers worker none⟩) := by
    unfold State.attempt logAttempt
    dsimp only [Reaction.text]
    rw [longBody_cut]
    rfl
  constructor
  · simp [postedAgain]
  · have posts : (Machine.run (step 1) State.empty (postedAgain longBody)).map (fun ran => ran.2.posts) =
        some [⟨0, true⟩, ⟨0, true⟩] := by
      simp only [postedAgain, Machine.run, step, panics]
      rfl
    obtain ⟨⟨events, final⟩, ran, posts⟩ := Option.map_eq_some_iff.mp posts
    refine ⟨events, final, ran, fun bounded => ?_⟩
    have again := bounded.2
    rw [State.postsOf, posts] at again
    exact absurd again (by decide)

/-! ## Requests are kept -/

section Kept

abbrev QueueEvent (Content : Type) := Machine.Event (State Content) (Action Content) Output

/-- An attempt at a request has failed, and the request is put back. -/
def putsBack (id : Nat) (event : QueueEvent Content) : Bool :=
  match event.input, event.output with
  | .settle worker _, .outcome .retrying =>
      (inHand event.before.workers worker).any (fun request => request.id = id)
  | _, _ => false

def timesBack (id : Nat) (past : List (QueueEvent Content)) : Nat := past.countP (putsBack id)

/-- A request is queued, or has been posted with success, or has had its last attempt. -/
def Kept (past : List (QueueEvent Content)) (state : State Content) (id : Nat) (content : Content) : Prop :=
  (∃ row ∈ state.requests.rows, row.id = id ∧ row.content = content) ∨
    Post.mk id true ∈ state.posts ∨ WEBHOOK_MAX_ATTEMPTS ≤ timesBack id past + 1

/-- What a worker has in hand has been tried as often as it says, and posted if it is a success. -/
def Job.Sound (past : List (QueueEvent Content)) (posts : List Post) (job : Job Content) : Prop :=
  job.request.attempts ≤ timesBack job.request.id past ∧
    (job = .settling job.request true → Post.mk job.request.id true ∈ posts)

/-- What holds whatever the workers do. -/
structure Keeping (past : List (QueueEvent Content)) (state : State Content) : Prop where
  counted : ∀ row ∈ state.requests.rows, row.attempts ≤ timesBack row.id past
  held : ∀ worker job, state.workers worker = some job → job.Sound past state.posts
  kept : ∀ event ∈ past, ∀ row ∈ event.after.requests.rows, Kept past state row.id row.content

variable {staleLockDays : Int} {actions : List (Action Content)} {before after final : State Content}
  {past events : List (QueueEvent Content)} {event : QueueEvent Content} {worker : Nat}
  {request row : WebhookRequestRow Content}

theorem timesBack_append (id : Nat) : timesBack id (past ++ [event]) =
    timesBack id past + if putsBack id event then 1 else 0 := by
  simp [timesBack, List.countP_append, List.countP_cons]

theorem timesBack_mono {attempts id : Nat} (counted : attempts ≤ timesBack id past) :
    attempts ≤ timesBack id (past ++ [event]) := by
  rw [timesBack_append]
  exact counted.trans (Nat.le_add_right _ _)

/-- The step rule. A reaction loses no post and no row but one that is done with, and what is in the
queue and in hand behind it was so before or is sound. -/
theorem Keeping.advance (keeping : Keeping past event.before)
    (posts : event.before.posts ⊆ event.after.posts)
    (rows : ∀ row ∈ event.before.requests.rows, Kept (past ++ [event]) event.after row.id row.content)
    (counted : ∀ row ∈ event.after.requests.rows, row.attempts ≤ timesBack row.id past ∨
      putsBack row.id event = true ∧ row.attempts ≤ timesBack row.id past + 1)
    (given : ∀ worker job, event.after.workers worker = some job →
      event.before.workers worker = some job ∨ job.Sound past event.after.posts) :
    Keeping (past ++ [event]) event.after where
  counted := by
    intro row member
    rcases counted row member with same | ⟨back, more⟩
    · exact timesBack_mono same
    · rwa [timesBack_append, if_pos back]
  held := by
    intro worker job held
    obtain ⟨counts, posted⟩ : job.Sound past event.after.posts := (given worker job held).elim
      (fun old => (keeping.held worker job old).imp_right (fun posted same => posts (posted same))) id
    exact ⟨timesBack_mono counts, posted⟩
  kept := by
    intro earlier member row listed
    rcases List.mem_append.mp member with past | now
    · rcases keeping.kept earlier past row listed with ⟨other, there, named, same⟩ | posted | last
      · exact named ▸ same ▸ rows other there
      · exact .inr (.inl (posts posted))
      · exact .inr (.inr (last.trans (Nat.succ_le_succ (timesBack_mono le_rfl))))
    · rw [List.mem_singleton.mp now] at listed
      exact .inl ⟨row, listed, rfl, rfl⟩

/-- A reaction that leaves the queue as it is. -/
theorem Keeping.working (keeping : Keeping past event.before)
    (requests : event.after.requests = event.before.requests)
    (posts : event.before.posts ⊆ event.after.posts)
    (given : ∀ worker job, event.after.workers worker = some job →
      event.before.workers worker = some job ∨ job.Sound past event.after.posts) :
    Keeping (past ++ [event]) event.after :=
  keeping.advance posts (fun row member => .inl ⟨row, requests ▸ member, rfl, rfl⟩)
    (fun row member => .inl (keeping.counted row (requests ▸ member))) given

theorem given_update {workers : Nat → Option (Job Content)} {other : Nat} {job : Job Content}
    {new : Option (Job Content)} (given : Function.update workers worker new other = some job) :
    workers other = some job ∨ new = some job := by
  rw [Function.update_apply] at given
  split at given
  · exact .inr given
  · exact .inl given

theorem given_none {workers : Nat → Option (Job Content)} {other : Nat} {job : Job Content} {P : Prop}
    (given : Function.update workers worker none other = some job) : workers other = some job ∨ P :=
  (given_update given).imp_right (by rintro ⟨⟩)

/-- A request that is removed has been posted with success, or has had its last attempt. -/
theorem Keeping.completed {now : DateTime} {output : Output} {success : Bool}
    (keeping : Keeping past before) (settling : before.workers worker = some (.settling request success))
    (done : success = true ∨ WEBHOOK_MAX_ATTEMPTS ≤ request.attempts + 1) :
    Keeping (past ++ [⟨before, .settle worker now, output, { before with
      requests := complete request.id before.requests
      workers := Function.update before.workers worker none }⟩]) { before with
      requests := complete request.id before.requests
      workers := Function.update before.workers worker none } := by
  refine keeping.advance (List.Subset.refl _) (fun row member => ?_)
    (fun row member => .inl (keeping.counted row (Table.mem_remove.mp member).1)) (fun _ _ => given_none)
  by_cases own : row.id = request.id
  · rw [own]
    rcases done with rfl | last
    · exact .inr (.inl ((keeping.held worker _ settling).2 rfl))
    · have counts := (keeping.held worker _ settling).1
      exact .inr (.inr (last.trans (Nat.succ_le_succ (timesBack_mono counts))))
  · exact .inl ⟨row, Table.mem_remove.mpr ⟨member, own⟩, rfl, rfl⟩

theorem Keeping.reaction {action : Action Content} {output : Output} (keeping : Keeping past before)
    (reaction : step staleLockDays before action = some (output, after)) :
    Keeping (past ++ [⟨before, action, output, after⟩]) after := by
  cases action with
  | enqueue content =>
      cases reaction
      refine keeping.advance (List.Subset.refl _)
        (fun row member => .inl ⟨row, (Table.mem_insert rfl).mpr (.inr member), rfl, rfl⟩)
        (fun row member => ?_) (fun _ _ => .inl)
      rcases (Table.mem_insert rfl).mp member with rfl | old
      · exact .inl (Nat.zero_le _)
      · exact .inl (keeping.counted row old)
  | dequeue worker workerId now picked =>
      rw [Webhooks.step] at reaction
      split at reaction
      case h_1 => cases reaction
      case h_2 =>
        cases reaction
        unfold dequeue
        split
        case h_1 => exact keeping.working rfl (List.Subset.refl _) (fun _ _ => given_none)
        case h_2 row found =>
          obtain ⟨there, -⟩ := Option.filter_eq_some_iff.mp found
          obtain ⟨id, -, named⟩ := Option.bind_eq_some_iff.mp there
          refine keeping.advance (List.Subset.refl _) (fun other listed => .inl
              ⟨_, mem_lockRow.mpr ⟨other, listed, rfl⟩, by split <;> exact ⟨rfl, rfl⟩⟩)
            (fun other listed => ?_) (fun other job given => ?_)
          · obtain ⟨old, member, rfl⟩ := mem_lockRow.mp listed
            split <;> exact .inl (keeping.counted old member)
          · refine (given_update given).imp_right ?_
            rintro ⟨⟩
            exact ⟨keeping.counted row (Table.find_some named).1, by rintro ⟨⟩⟩
  | attempt worker answer =>
      rw [Webhooks.step] at reaction
      split at reaction
      case h_2 => cases reaction
      case h_1 request sending =>
        have grown : before.posts ⊆ if answer.posted then before.posts ++ [⟨request.id, answer.success⟩]
            else before.posts := by
          split
          · exact List.subset_append_left _ _
          · exact List.Subset.refl _
        unfold State.attempt at reaction
        generalize logAttempt request _ _ _ _ _ = recorded at reaction
        cases recorded <;> cases reaction <;>
          refine keeping.working rfl grown (fun other job given => ?_)
        · exact given_none given
        · refine (given_update given).imp_right ?_
          rintro ⟨⟩
          refine ⟨(keeping.held worker _ sending).1, fun same => ?_⟩
          cases answer <;> simp_all [Reaction.success, Reaction.posted, Job.request]
  | settle worker now =>
      rw [Webhooks.step] at reaction
      split at reaction
      case h_2 => cases reaction
      case h_1 request success settling =>
        unfold State.settle at reaction
        split_ifs at reaction with delivered last <;> cases reaction
        · exact keeping.completed settling (.inl delivered)
        · exact keeping.completed settling (.inr last)
        · refine keeping.advance (List.Subset.refl _) (fun row member => .inl
              ⟨_, mem_retry.mpr ⟨row, member, rfl⟩, by split <;> exact ⟨rfl, rfl⟩⟩)
            (fun row listed => ?_) (fun _ _ => given_none)
          obtain ⟨old, member, rfl⟩ := mem_retry.mp listed
          split
          case isFalse => exact .inl (keeping.counted old member)
          case isTrue same =>
            exact .inr ⟨by simp [putsBack, inHand, settling, Job.request, same, WebhookRequestRow.rescheduled],
              Nat.succ_le_succ (keeping.counted old member)⟩
  | crash worker =>
      cases reaction
      exact keeping.working rfl (List.Subset.refl _) (fun _ _ => given_none)

/-- No request is lost, however the workers interleave, stop, and take over stale locks: what has been
queued is there with its content until it has been posted with success or has failed ten times. -/
theorem webhooks_kept
    (ran : Machine.run (step staleLockDays) State.empty actions = some (events, final))
    (member : event ∈ events) (queued : row ∈ event.after.requests.rows) :
    Kept events final row.id row.content := by
  have initial : Keeping [] (@State.empty Content) :=
    ⟨by rintro _ ⟨⟩, by rintro _ _ ⟨⟩, by rintro _ ⟨⟩⟩
  exact (Machine.run_invariant Keeping (fun _ => True)
    (fun _ _ _ _ _ keeping reaction _ => keeping.reaction reaction) actions [] _ final events initial ran
    (fun _ _ => trivial)).1.kept event member row queued

theorem delivered_once_kept : ∃ events final,
    Machine.run (step 1) (@State.empty Unit) deliveredOnce = some (events, final) ∧ Kept events final 0 () :=
  ⟨_, _, rfl, webhooks_kept (rfl : Machine.run (step 1) (@State.empty Unit) deliveredOnce = some _)
    (List.mem_cons_self ..) (List.mem_cons_self ..)⟩

end Kept

end Camelmailer.Worker.Webhooks
