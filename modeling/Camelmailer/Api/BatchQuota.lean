import Camelmailer.Api.Send
import Mathlib.Algebra.Order.BigOperators.Group.List

/-!
# The quota of a batch

`messages_send_batch` prepares the entries of a request one after the other. What has been prepared
so far waits to be stored and is added to the usage of the server and of the organization before
either is compared with its limit.

Usage and limits are fixed while a batch is prepared; every other question has its own answer for
every entry, and any question can fail.
-/

namespace Camelmailer.Api

open Utf8

/-! ## The loop -/

/-- The answers for an entry, with the usage and the policy of the request. -/
def fixedReads (policy : OrganizationPolicy) (serverUsed organizationUsed : Int)
    (reads : SendReads) : SendReads :=
  { reads with
    organizationPolicy := reads.organizationPolicy.map (fun _ => policy)
    organizationSendUsage := reads.organizationSendUsage.map (fun _ => organizationUsed)
    sendUsage := reads.sendUsage.map (fun _ => serverUsed) }

/-- The plan of `messages_send_batch`: one item for each entry, prepared beside the recipients of
those before it. -/
def batchPlan (api : ApiPlatform) (server : Server) :
    List (SendReads × SendMessage) → Int → List SendPlanItem
  | [], _ => []
  | (reads, body) :: rest, pending =>
      match prepareSend api reads server body pending with
      | .ok messages => .messages messages :: batchPlan api server rest (pending + messages.length)
      | .error error => .error error.code error.message :: batchPlan api server rest pending

/-- The item of an entry. -/
def planItem : Except ApiError (List SendPlanMessage) → SendPlanItem
  | .ok messages => .messages messages
  | .error error => .error error.code error.message

/-- The recipients of an entry that succeeds. -/
def plannedRecipients : SendPlanItem → Int
  | .messages planned => planned.length
  | .error _ _ => 0

/-- The recipients that some entries reserve. -/
def reserved (plan : List SendPlanItem) : Int := (plan.map plannedRecipients).sum

/-- The recipients that an entry names. -/
def SendMessage.recipients (body : SendMessage) : Int := (body.sendTo ++ body.cc ++ body.bcc).length

/-- The codes of a refusal for want of quota. -/
def quotaCodes : List Text := ["SendLimitExceeded", "OrganizationQuotaExceeded"]

/-! ## One entry -/

/-- A computation that goes on after another one fails where either does. -/
theorem bind_eq_error {ε α β : Type} {first : Except ε α} {next : α → Except ε β} {error : ε} :
    first >>= next = .error error ↔
      first = .error error ∨ ∃ value, first = .ok value ∧ next value = .error error := by
  cases first with
  | error other =>
      constructor
      · intro failed
        cases failed
        exact .inl rfl
      · rintro (failed | ⟨value, started, -⟩)
        · cases failed
          rfl
        · cases started
  | ok value =>
      constructor
      · exact fun failed => .inr ⟨value, rfl, failed⟩
      · rintro (started | ⟨other, started, failed⟩)
        · cases started
        · cases started
          exact failed

/-- A computation that does not fail for want of quota. -/
def Unmetered {α : Type} (computation : Except ApiError α) : Prop :=
  ∀ error, computation = .error error → error.code ∉ quotaCodes

namespace Unmetered

variable {α β : Type}

theorem ok (value : α) : Unmetered (.ok value : Except ApiError α) := nofun

theorem error {error : ApiError} (other : error.code ∉ quotaCodes) :
    Unmetered (.error error : Except ApiError α) := by
  intro fault failed
  cases failed
  exact other

theorem bind {first : Except ApiError α} {next : α → Except ApiError β} (start : Unmetered first)
    (rest : ∀ value, Unmetered (next value)) : Unmetered (first >>= next) := by
  intro error failed
  rcases bind_eq_error.mp failed with early | ⟨value, -, late⟩
  · exact start error early
  · exact rest value error late

theorem asked (answer : Except Unit α) : Unmetered (asked answer) := by
  cases answer with
  | error fault => exact .error (show internalError.code ∉ quotaCodes by decide)
  | ok value => exact .ok value

theorem validation (message : Text) :
    Unmetered (.error (validationError message) : Except ApiError α) :=
  .error (by decide : "ValidationError".toList ∉ quotaCodes)

theorem mapM {f : α → Except ApiError β} (each : ∀ item, Unmetered (f item)) (items : List α) :
    Unmetered (items.mapM f) := by
  induction items with
  | nil => exact .ok []
  | cons item rest ih =>
      rw [List.mapM_cons]
      exact (each item).bind (fun _ => ih.bind (fun _ => .ok _))

theorem forM {f : α → Except ApiError PUnit} (each : ∀ item, Unmetered (f item)) (items : List α) :
    Unmetered (items.forM f) := by
  induction items with
  | nil => exact .ok _
  | cons item rest ih => exact (each item).bind (fun _ => ih)

end Unmetered

theorem readAddresses_unmetered (body : SendMessage) : Unmetered (readAddresses body) := by
  unfold readAddresses
  split
  · exact .error (by decide)
  · split_ifs
    · exact .error (by decide)
    · exact .ok _

theorem authorizeFrom_unmetered (api : ApiPlatform) (reads : SendReads) (sender : Address) :
    Unmetered (authorizeFrom api reads sender) := by
  unfold authorizeFrom
  split
  · exact .validation _
  · refine (Unmetered.asked _).bind (fun domain => ?_)
    split
    · exact .ok _
    · refine (Unmetered.asked _).bind (fun confirmed => ?_)
      split_ifs
      · exact .ok _
      · exact .validation _

theorem resolveStream_unmetered (api : ApiPlatform) (reads : SendReads) (server : Server)
    (stream : Option Text) : Unmetered (resolveStream api reads server stream) := by
  unfold resolveStream
  split
  · refine (Unmetered.asked _).bind (fun found => ?_)
    split
    · split_ifs
      · exact .validation _
      · exact .ok _
    · exact .validation _
  · split
    · exact .ok _
    · refine (Unmetered.asked _).bind (fun streams => ?_)
      split <;> exact .ok _

theorem readAttachment_unmetered (api : ApiPlatform) (input : AttachmentInput) :
    Unmetered (readAttachment api input) := by
  have identified (raw : Option Text) (name : Text) : Unmetered (contentId api raw name) := by
    unfold contentId
    split
    · exact .ok _
    · dsimp only
      split_ifs
      · exact .validation _
      · exact .ok _
  unfold readAttachment
  split
  · exact .validation _
  · exact (identified _ _).bind (fun _ => .ok _)

theorem checkSubscriptions_unmetered (reads : SendReads) (streamId : Option Id)
    (isBroadcast : Bool) (label : Text) (recipients : List Address) :
    Unmetered (checkSubscriptions reads streamId isBroadcast label recipients) := by
  unfold checkSubscriptions
  split
  · refine Unmetered.forM (fun recipient => ?_) _
    refine (Unmetered.asked _).bind (fun subscribed => ?_)
    split_ifs
    · exact .ok _
    · exact .validation _
  · exact .ok _

variable {api : ApiPlatform} {pending : Int} {body : SendMessage} {reads : SendReads}

/-- An entry is refused for want of quota by the check of the limits alone. -/
theorem prepareSend_refused {server : Server} {error : ApiError}
    (refused : prepareSend api reads server body pending = .error error)
    (quota : error.code ∈ quotaCodes) :
    checkLimits reads server pending body.recipients = .error error := by
  rcases bind_eq_error.mp refused with early | ⟨⟨sender, recipients⟩, addressed, rest⟩
  · exact absurd quota (readAddresses_unmetered body error early)
  obtain ⟨-, rfl⟩ := readAddresses_ok addressed
  rcases bind_eq_error.mp rest with limited | ⟨⟨⟩, -, rest⟩
  · exact limited
  refine absurd quota (Unmetered.bind (authorizeFrom_unmetered api reads sender) (fun domainId => ?_)
    error rest)
  refine (resolveStream_unmetered api reads server body.stream).bind ?_
  rintro ⟨streamId, isBroadcast, label⟩
  refine (Unmetered.mapM (readAttachment_unmetered api) _).bind (fun attachments => ?_)
  exact (checkSubscriptions_unmetered reads streamId isBroadcast label _).bind (fun _ => .ok _)

/-- The messages of an entry are one for each recipient. -/
theorem prepareSend_recipients {server : Server} {messages : List SendPlanMessage}
    (prepared : prepareSend api reads server body pending = .ok messages) :
    (messages.length : Int) = body.recipients ∧
      checkLimits reads server pending body.recipients = .ok () := by
  obtain ⟨sender, attachments, domainId, streamId, isBroadcast, label, -, -, -, limited, rfl⟩ :=
    prepareSend_built prepared
  exact ⟨by simp [SendMessage.recipients], limited⟩

/-! ## The limits -/

/-- The largest count that the source's integers hold. -/
def maxCount : Int := 2 ^ 63 - 1

variable {scope : LimitScope} {limit : Option Int}

/-- What fits beside the recipients that wait fits into the room with them. -/
theorem allows_reserved {used count room : Int}
    (known : (SendAllowance.mk limit used scope).remaining = some room) (waiting : 0 ≤ pending) :
    (SendAllowance.mk limit (used + pending) scope).allows count = true ↔
      count ≤ 0 ∨ count + pending ≤ room := by
  obtain ⟨limit, rfl, rfl⟩ := Option.map_eq_some_iff.mp known
  simp only [SendAllowance.allows, SendAllowance.remaining, Option.map_some, Bool.or_eq_true,
    decide_eq_true_eq]
  omega

/-- What does not fit exceeds the room together with the recipients that wait. -/
theorem refused_reserved {used count : Int}
    (refused : (SendAllowance.mk limit (used + pending) scope).allows count = false)
    (waiting : 0 ≤ pending) :
    ∃ room, (SendAllowance.mk limit used scope).remaining = some room ∧ room < count + pending := by
  cases limit with
  | none => cases refused
  | some limit =>
      have known : (SendAllowance.mk (some limit) used scope).remaining =
          some (max (limit - used) 0) := rfl
      refine ⟨_, known, ?_⟩
      by_contra fits
      have allowed := (allows_reserved known waiting).mpr (.inr (not_lt.mp fits))
      rw [refused] at allowed
      cases allowed

/-- A question that is answered gets the fixed answer. -/
theorem asked_fixed {α β : Type} {answer : Except Unit α} {value result : β}
    (answered : asked (answer.map (fun _ => value)) = .ok result) : value = result := by
  cases answer with
  | error fault => cases answered
  | ok other => exact Except.ok.inj answered

section Limits

variable {policy : OrganizationPolicy} {serverUsed organizationUsed : Int} {reads : SendReads}
  {server : Server} {pending count : Int}

/-- The allowance of the server of a request. -/
def serverLimit (server : Server) (used : Int) : SendAllowance := .server server.sendLimit used

/-- The allowance of its organization. -/
def organizationLimit (policy : OrganizationPolicy) (used : Int) : SendAllowance :=
  .organization policy.monthlySendLimit used

theorem serverAllowance_allows {own : SendAllowance}
    (read : serverAllowance (fixedReads policy serverUsed organizationUsed reads) server pending =
      .ok own) :
    own.allows count = (serverLimit server (serverUsed + pending)).allows count := by
  unfold serverAllowance at read
  unfold serverLimit
  cases limited : server.sendLimit with
  | none =>
      rw [limited] at read
      obtain rfl := Except.ok.inj read
      rfl
  | some limit =>
      rw [limited] at read
      obtain ⟨used, answered, given⟩ := bind_eq_ok.mp read
      obtain rfl := asked_fixed answered
      obtain rfl := Except.ok.inj given
      rfl

theorem organizationAllowance_allows {known : OrganizationPolicy} {shared : SendAllowance}
    (read : organizationAllowance (fixedReads policy serverUsed organizationUsed reads) =
      .ok (known, shared)) :
    (SendAllowance.organization shared.limit (shared.used + pending)).allows count =
      (organizationLimit policy (organizationUsed + pending)).allows count := by
  obtain ⟨policed, asking, rest⟩ := bind_eq_ok.mp read
  obtain ⟨used, counting, given⟩ := bind_eq_ok.mp rest
  obtain ⟨rfl, rfl⟩ := Prod.mk.inj (Except.ok.inj given)
  obtain rfl := asked_fixed asking
  unfold organizationLimit SendAllowance.organization
  unfold organizationUsage at counting
  cases limited : policy.monthlySendLimit with
  | none => rfl
  | some limit =>
      rw [limited] at counting
      obtain rfl := asked_fixed counting
      rfl

/-- The limits are checked against the sum of what is used and what waits. -/
theorem checkLimits_ok
    (checked : checkLimits (fixedReads policy serverUsed organizationUsed reads) server pending count =
      .ok ()) :
    (serverLimit server (serverUsed + pending)).allows count = true ∧
      (organizationLimit policy (organizationUsed + pending)).allows count = true := by
  obtain ⟨⟨known, shared⟩, read, rest⟩ := bind_eq_ok.mp checked
  dsimp only at rest
  split at rest
  · cases rest
  obtain ⟨own, reading, rest⟩ := bind_eq_ok.mp rest
  split at rest
  · cases rest
  case isFalse allowing =>
    rw [← serverAllowance_allows reading, ← organizationAllowance_allows read]
    exact (SendAllowance.stricter_allows _ _ _).mp (by simpa using allowing)

theorem organizationAllowance_unmetered (reads : SendReads) :
    Unmetered (organizationAllowance reads) := by
  refine (Unmetered.asked _).bind (fun policy => Unmetered.bind ?_ (fun _ => .ok _))
  unfold organizationUsage
  split
  · exact .asked _
  · exact .ok _

theorem serverAllowance_unmetered (reads : SendReads) (server : Server) (pending : Int) :
    Unmetered (serverAllowance reads server pending) := by
  unfold serverAllowance
  split
  · exact .ok _
  · exact (Unmetered.asked _).bind (fun _ => .ok _)

/-- A refusal for want of quota is a refusal by one of the two limits. -/
theorem checkLimits_refused {error : ApiError}
    (refused : checkLimits (fixedReads policy serverUsed organizationUsed reads) server pending
      count = .error error) (quota : error.code ∈ quotaCodes) :
    (serverLimit server (serverUsed + pending)).allows count = false ∨
      (organizationLimit policy (organizationUsed + pending)).allows count = false := by
  rcases bind_eq_error.mp refused with early | ⟨⟨known, shared⟩, read, rest⟩
  · exact absurd quota (organizationAllowance_unmetered _ error early)
  dsimp only at rest
  split at rest
  · obtain rfl := Except.error.inj rest
    exact absurd quota (show "OrganizationSuspended".toList ∉ quotaCodes by decide)
  rcases bind_eq_error.mp rest with early | ⟨own, reading, rest⟩
  · exact absurd quota (serverAllowance_unmetered _ server pending error early)
  split at rest
  case isFalse => cases rest
  case isTrue denied =>
    rw [← serverAllowance_allows reading, ← organizationAllowance_allows read]
    have either := mt (SendAllowance.stricter_allows own (.organization shared.limit
      (shared.used + pending)) count).mpr (by simpa using denied)
    rw [not_and_or] at either
    simpa using either

end Limits

/-! ## The batch -/

theorem batchPlan_cons (api : ApiPlatform) (server : Server) (entry : SendReads × SendMessage)
    (rest : List (SendReads × SendMessage)) (pending : Int) :
    batchPlan api server (entry :: rest) pending =
      planItem (prepareSend api entry.1 server entry.2 pending) ::
        batchPlan api server rest (pending + plannedRecipients
          (planItem (prepareSend api entry.1 server entry.2 pending))) := by
  obtain ⟨reads, body⟩ := entry
  rw [batchPlan]
  cases prepareSend api reads server body pending with
  | ok messages => rfl
  | error error => simp [planItem, plannedRecipients]

/-- Every entry is prepared beside the recipients of the entries before it that succeed. -/
theorem batchPlan_at (api : ApiPlatform) (server : Server) (pending : Int)
    (front back : List (SendReads × SendMessage)) (entry : SendReads × SendMessage) :
    (batchPlan api server (front ++ entry :: back) pending)[front.length]? =
      some (planItem (prepareSend api entry.1 server entry.2 (pending + reserved
        ((batchPlan api server (front ++ entry :: back) pending).take front.length)))) := by
  induction front generalizing pending with
  | nil => simp [batchPlan_cons, reserved]
  | cons first front ih =>
      rw [List.cons_append, batchPlan_cons]
      simp only [List.length_cons, List.getElem?_cons_succ, List.take_succ_cons]
      rw [ih]
      simp only [reserved, List.map_cons, List.sum_cons, add_assoc]

theorem plannedRecipients_nonneg (item : SendPlanItem) : 0 ≤ plannedRecipients item := by
  cases item with
  | messages planned => exact Int.natCast_nonneg _
  | error => exact Int.le_refl _

theorem reserved_nonneg (plan : List SendPlanItem) : 0 ≤ reserved plan :=
  List.sum_nonneg (fun _ member => by
    obtain ⟨item, -, rfl⟩ := List.mem_map.mp member
    exact plannedRecipients_nonneg item)

section Batch

variable {policy : OrganizationPolicy} {serverUsed organizationUsed : Int} {server : Server}

/-- An entry that is prepared keeps to the room that both limits leave. -/
theorem planItem_within (api : ApiPlatform) (reads : SendReads) (body : SendMessage)
    {pending room : Int} (waiting : 0 ≤ pending) (within : pending ≤ room)
    (limit : (serverLimit server serverUsed).remaining = some room ∨
      (organizationLimit policy organizationUsed).remaining = some room) :
    pending + plannedRecipients (planItem (prepareSend api
      (fixedReads policy serverUsed organizationUsed reads) server body pending)) ≤ room := by
  cases prepared : prepareSend api (fixedReads policy serverUsed organizationUsed reads) server body
      pending with
  | error error =>
      dsimp only [planItem, plannedRecipients]
      omega
  | ok messages =>
      obtain ⟨counted, checked⟩ := prepareSend_recipients prepared
      obtain ⟨own, shared⟩ := checkLimits_ok checked
      have fits : body.recipients ≤ 0 ∨ body.recipients + pending ≤ room := by
        rcases limit with known | known
        · exact (allows_reserved known waiting).mp own
        · exact (allows_reserved known waiting).mp shared
      dsimp only [planItem, plannedRecipients]
      omega

/-- The recipients of the entries that succeed keep to the room that both limits leave. -/
theorem batchPlan_within (api : ApiPlatform) (entries : List (SendReads × SendMessage))
    {pending room : Int} (waiting : 0 ≤ pending) (within : pending ≤ room)
    (limit : (serverLimit server serverUsed).remaining = some room ∨
      (organizationLimit policy organizationUsed).remaining = some room) :
    pending + reserved (batchPlan api server (entries.map (fun entry =>
      (fixedReads policy serverUsed organizationUsed entry.1, entry.2))) pending) ≤ room := by
  induction entries generalizing pending with
  | nil => simpa [batchPlan, reserved] using within
  | cons entry rest ih =>
      rw [List.map_cons, batchPlan_cons]
      have first := planItem_within api entry.1 entry.2 waiting within limit
      have later := ih
        (Int.add_nonneg waiting (plannedRecipients_nonneg _)) first
      simpa only [reserved, List.map_cons, List.sum_cons, add_assoc] using later

theorem remaining_nonneg {allowance : SendAllowance} {room : Int}
    (known : allowance.remaining = some room) : 0 ≤ room := by
  obtain ⟨limit, -, rfl⟩ := Option.map_eq_some_iff.mp known
  exact Int.le_max_right _ _

end Batch

/-- The entries of a batch that succeed keep to the room that both limits leave. An entry is refused
for want of quota only if it exceeds one of them together with those before it that succeed, and
nothing else is counted for it. -/
theorem batch_within_quota (api : ApiPlatform) (server : Server) (policy : OrganizationPolicy)
    (serverUsed organizationUsed : Int) (entries : List (SendReads × SendMessage)) :
    let fixed := entries.map (fun entry =>
      (fixedReads policy serverUsed organizationUsed entry.1, entry.2))
    let plan := batchPlan api server fixed 0
    (∀ room, (serverLimit server serverUsed).remaining = some room ∨
      (organizationLimit policy organizationUsed).remaining = some room → reserved plan ≤ room) ∧
    (∀ front entry back, fixed = front ++ entry :: back →
      let earlier := reserved (plan.take front.length)
      let outcome := prepareSend api entry.1 server entry.2 earlier
      plan[front.length]? = some (planItem outcome) ∧
      (∀ messages, outcome = .ok messages → (messages.length : Int) = entry.2.recipients) ∧
      ∀ error, outcome = .error error → error.code ∈ quotaCodes → ∃ room,
        ((serverLimit server serverUsed).remaining = some room ∨
          (organizationLimit policy organizationUsed).remaining = some room) ∧
        room < entry.2.recipients + earlier) ∧
    ∀ (left right : SendAllowance) (count : Int),
      (left.stricter right).allows count = (left.allows count && right.allows count) := by
  intro fixed plan
  refine ⟨?_, ?_, ?_⟩
  · intro room limit
    have nonneg : 0 ≤ room := by
      rcases limit with known | known <;> exact remaining_nonneg known
    have within := batchPlan_within api entries (Int.le_refl 0) nonneg limit
    rwa [Int.zero_add] at within
  · intro front entry back split earlier outcome
    have placed := batchPlan_at api server 0 front back entry
    rw [← split, Int.zero_add] at placed
    refine ⟨placed, fun messages prepared => (prepareSend_recipients prepared).1, ?_⟩
    intro error refused quota
    have member : entry ∈ fixed := split ▸ List.mem_append_right _ List.mem_cons_self
    obtain ⟨original, -, rfl⟩ := List.mem_map.mp member
    rcases checkLimits_refused (prepareSend_refused refused quota) quota with own | shared
    · obtain ⟨room, known, exceeded⟩ := refused_reserved own (reserved_nonneg _)
      exact ⟨room, .inl known, exceeded⟩
    · obtain ⟨room, known, exceeded⟩ := refused_reserved shared (reserved_nonneg _)
      exact ⟨room, .inr known, exceeded⟩
  · intro left right count
    rw [Bool.eq_iff_iff, Bool.and_eq_true]
    exact SendAllowance.stricter_allows left right count

end Camelmailer.Api
