import Camelmailer.Core.MemoryStore
import Mathlib.Algebra.BigOperators.Group.Finset.Piecewise
import Mathlib.Algebra.BigOperators.Ring.Finset
import Mathlib.Tactic.Linarith

/-!
# What is counted, and what is announced

Every outgoing message is counted where it is stored: for its server and the day, and for the
organization of the server and the month. The counter of an organization announces the thresholds
it has reached of the limit that is in force at that moment.

What has been stored and what limits have been set is a history. The counters are what one counts
in the history, and a threshold has been announced once if some message of the history reached it,
and not otherwise. Nothing is announced of a limit of zero or less. That nothing is counted twice
or lost when messages are pruned follows: the history is not pruned.
-/

namespace Camelmailer.MemoryStore.Usage

open Utf8 Machine

/-! ## Calls -/

section Calls

variable (platform : Platform) (calendar : Calendar)

def insertOrganization (store : MemoryStore) (organization : Organization) : MemoryStore :=
  { store with
    organizations := Function.update store.organizations organization.id (some organization) }

def insertServer (store : MemoryStore) (server : Server) : MemoryStore :=
  { store with servers := Function.update store.servers server.id (some server) }

/-- A new store with organizations and servers. -/
def seeded (organizations : List Organization) (servers : List Server) : MemoryStore :=
  servers.foldl insertServer (organizations.foldl insertOrganization .empty)

def insertMessageRecord (draws : Draws) (message : QueuedMessage) (store : MemoryStore) :
    SentMessage × MemoryStore :=
  let (record, sent) := store.buildMessageRecord platform draws 0 message
  let drawn := { store with nextId := store.nextId + 1 }
  let counted := match record.message.scope with
    | .outgoing => drawn.countOutgoing calendar draws 0 record.message.serverId record.createdAt
    | .incoming => drawn
  (sent, { counted with messages := counted.messages ++ [record] })

/-- `set_organization_policy`. Only an organization that exists can be given one. -/
def setOrganizationPolicy (organizationId : Id) (policy : OrganizationPolicy)
    (store : MemoryStore) : Bool × MemoryStore :=
  if (store.organizations organizationId).isSome then
    (true, { store with
      organizationPolicies :=
        Function.update store.organizationPolicies organizationId (some policy) })
  else (false, store)

/-- `prune_messages_before`: the number of messages removed. -/
def pruneMessagesBefore (olderThan : DateTime) (store : MemoryStore) : Nat × MemoryStore :=
  let expired := (store.messages.filter (fun record => record.createdAt < olderThan)).map
    MessageRecord.id
  if expired = [] then (0, store)
  else (expired.dedup.length,
    { store with messages := store.messages.filter (fun record => record.id ∉ expired) })

inductive Call where
  | insertMessageRecord (draws : Draws) (message : QueuedMessage)
  | insertSendOperation (draws : Draws) (serverId : Id) (plan : List SendPlanItem)
      (idempotency : Option IdempotencyRequest)
  | setOrganizationPolicy (organizationId : Id) (policy : OrganizationPolicy)
  | pruneMessagesBefore (olderThan : DateTime)

inductive Answer where
  | sent (message : SentMessage)
  | outcome (outcome : StoreSendOutcome)
  | found (found : Bool)
  | pruned (count : Nat)

def step (store : MemoryStore) : Call → Option (Answer × MemoryStore)
  | .insertMessageRecord draws message =>
      let (sent, after) := insertMessageRecord platform calendar draws message store
      some (.sent sent, after)
  | .insertSendOperation draws serverId plan idempotency =>
      let (outcome, after) := store.insertSendOperation platform calendar draws serverId plan
        idempotency
      some (.outcome outcome, after)
  | .setOrganizationPolicy organizationId policy =>
      let (found, after) := setOrganizationPolicy organizationId policy store
      some (.found found, after)
  | .pruneMessagesBefore olderThan =>
      let (count, after) := pruneMessagesBefore olderThan store
      some (.pruned count, after)

end Calls

/-! ## Histories -/

/-- What a history is made of: messages that have been stored, and limits that have been set. -/
inductive Entry where
  | stored (record : MessageRecord)
  | limited (organizationId : Id) (limit : Option Int)
deriving DecidableEq

/-- What a call adds to the history: the messages that it has added to the log, or the limit of an
organization that exists. -/
def entries (event : Event MemoryStore Call Answer) : List Entry :=
  match event.input with
  | .setOrganizationPolicy organizationId policy =>
      if (event.before.organizations organizationId).isSome then
        [.limited organizationId policy.monthlySendLimit]
      else []
  | .pruneMessagesBefore _ => []
  | _ => (event.after.messages.drop event.before.messages.length).map .stored

section Histories

variable (calendar : Calendar) (owner : Id → Option Id)

/-- The message is one that a server sends on a day. -/
def ofServer (serverId : Id) (record : MessageRecord) : Bool :=
  record.message.scope = .outgoing && record.message.serverId = serverId

/-- The message is one that the servers of an organization send in a month. -/
def ofOrganization (organizationId : Id) (month : UsageMonth) (record : MessageRecord) : Bool :=
  record.message.scope = .outgoing && owner record.message.serverId = some organizationId &&
    calendar.monthOf (calendar.date record.createdAt) = month

def Entry.isStored (counted : MessageRecord → Bool) : Entry → Bool
  | .stored record => counted record
  | .limited _ _ => false

/-- How many messages of a kind a history has stored. -/
def storedCount (counted : MessageRecord → Bool) (history : List Entry) : Nat :=
  history.countP (Entry.isStored counted)

/-- The limit of an organization after a history. -/
def limitInForce (organizationId : Id) (history : List Entry) : Option Int :=
  history.foldl (fun limit entry => match entry with
    | .limited other set => if other = organizationId then set else limit
    | .stored _ => limit) none

/-- Some message of the history brought the counter of an organization to a percentage of the
limit that was in force, one above zero. -/
def Reached (organizationId : Id) (month : UsageMonth) (threshold : Nat) (history : List Entry) :
    Prop :=
  ∃ past record, past ++ [.stored record] <+: history ∧
    ofOrganization calendar owner organizationId month record = true ∧
    ∃ limit, limitInForce organizationId past = some limit ∧ 0 < limit ∧
      limit * threshold ≤
        (storedCount (ofOrganization calendar owner organizationId month) past + 1 : Nat) * 100

variable {calendar owner} {counted : MessageRecord → Bool} {organizationId other : Id}
  {month : UsageMonth} {threshold : Nat} {history more : List Entry} {record : MessageRecord}
  {limit : Option Int}

@[simp] theorem storedCount_append :
    storedCount counted (history ++ more) = storedCount counted history + storedCount counted more :=
  List.countP_append

@[simp] theorem storedCount_stored :
    storedCount counted [.stored record] = if counted record then 1 else 0 := by
  by_cases applies : counted record = true <;> simp [storedCount, Entry.isStored, applies]

@[simp] theorem storedCount_limited : storedCount counted [.limited other limit] = 0 := rfl

@[simp] theorem limitInForce_stored :
    limitInForce organizationId (history ++ [.stored record]) =
      limitInForce organizationId history := by
  simp [limitInForce]

@[simp] theorem limitInForce_limited :
    limitInForce organizationId (history ++ [.limited other limit]) =
      if other = organizationId then limit else limitInForce organizationId history := by
  simp [limitInForce]

/-- A message reaches a threshold now or the history has done so before. -/
theorem reached_stored :
    Reached calendar owner organizationId month threshold (history ++ [.stored record]) ↔
      Reached calendar owner organizationId month threshold history ∨
        (ofOrganization calendar owner organizationId month record = true ∧
          ∃ limit, limitInForce organizationId history = some limit ∧ 0 < limit ∧
            limit * threshold ≤ (storedCount (ofOrganization calendar owner organizationId month)
              history + 1 : Nat) * 100) := by
  constructor
  · rintro ⟨past, last, before, reached⟩
    rcases List.prefix_concat_iff.mp before with now | earlier
    · obtain ⟨rfl, same⟩ := List.append_inj' now rfl
      obtain rfl : last = record := by simpa using same
      exact .inr reached
    · exact .inl ⟨past, last, earlier, reached⟩
  · rintro (⟨past, last, earlier, reached⟩ | reached)
    · exact ⟨past, last, earlier.trans (List.prefix_append ..), reached⟩
    · exact ⟨history, record, List.prefix_refl _, reached⟩

/-- A limit that is set reaches nothing. -/
theorem reached_limited :
    Reached calendar owner organizationId month threshold (history ++ [.limited other limit]) ↔
      Reached calendar owner organizationId month threshold history := by
  constructor
  · rintro ⟨past, last, before, reached⟩
    rcases List.prefix_concat_iff.mp before with now | earlier
    · have same := (List.append_inj' now rfl).2
      simp at same
    · exact ⟨past, last, earlier, reached⟩
  · rintro ⟨past, last, earlier, reached⟩
    exact ⟨past, last, earlier.trans (List.prefix_append ..), reached⟩

/-- What is counted day by day adds up. -/
theorem sum_days {days : Finset Int} {date : MessageRecord → Int}
    (within : ∀ record, .stored record ∈ history → counted record = true → date record ∈ days) :
    ∑ day ∈ days, storedCount (fun record => counted record && date record = day) history =
      storedCount counted history := by
  induction history with
  | nil => simp [storedCount]
  | cons entry history ih =>
      have rest := ih (fun record member =>
        within record (List.mem_cons_of_mem _ member))
      have split (counted : MessageRecord → Bool) : storedCount counted (entry :: history) =
          storedCount counted [entry] + storedCount counted history :=
        @storedCount_append counted [entry] history
      simp only [split, Finset.sum_add_distrib, rest]
      cases entry with
      | limited other limit => simp
      | stored record =>
          by_cases applies : counted record = true
          · have inside := within record (List.mem_cons_self ..) applies
            simp [applies, inside]
          · simp [applies]

end Histories

/-! ## Announcements -/

/-- How often a threshold has been announced. -/
def announced (organizationId : Id) (month : UsageMonth) (threshold : Nat)
    (events : List UsageThresholdEvent) : Nat :=
  events.countP (fun event => event.organization.id = organizationId && event.month = month &&
    event.threshold = threshold)

/-- What is on record as announced has been announced once, and the rest never. -/
def Balanced (store : MemoryStore) : Prop :=
  ∀ organizationId month threshold, announced organizationId month threshold store.lifecycleEvents =
    if (organizationId, month, threshold) ∈ store.usageAlerts then 1 else 0

section Announcements

variable {draws : Draws} {position : Nat} {organization : Organization} {month : UsageMonth}
  {sent : Int} {limit : Option Int} {store : MemoryStore} {threshold : Nat}

theorem announce_balanced (balanced : Balanced store) :
    Balanced (announce draws position organization month sent limit store threshold) := by
  intro other later percent
  have before := balanced other later percent
  by_cases known : (organization.id, month, threshold) ∈ store.usageAlerts
  · rw [announce, if_pos known]
    exact before
  · rw [announce, if_neg known]
    simp only [announced, List.countP_append] at before ⊢
    rw [before]
    by_cases same : (other, later, percent) = (organization.id, month, threshold)
    · obtain ⟨rfl, rfl, rfl⟩ : other = _ ∧ later = _ ∧ percent = _ := by simpa using same
      simp [known]
    · have different : ¬ (organization.id = other ∧ month = later ∧ threshold = percent) := by
        rintro ⟨rfl, rfl, rfl⟩
        exact same rfl
      simp [same, and_assoc, different]

theorem mem_announce {key : Id × UsageMonth × Nat} :
    key ∈ (announce draws position organization month sent limit store threshold).usageAlerts ↔
      key ∈ store.usageAlerts ∨ key = (organization.id, month, threshold) := by
  by_cases known : (organization.id, month, threshold) ∈ store.usageAlerts
  · rw [announce, if_pos known]
    exact ⟨.inl, fun either => either.elim id (fun same => same ▸ known)⟩
  · rw [announce, if_neg known, List.mem_cons, or_comm]

variable (draws position organization month sent limit) in
/-- To announce thresholds changes what has been announced and nothing else. -/
theorem announce_only (thresholds : List Nat) (store : MemoryStore) :
    let after := thresholds.foldl (announce draws position organization month sent limit) store
    after = { store with
      usageAlerts := after.usageAlerts, lifecycleEvents := after.lifecycleEvents } := by
  induction thresholds generalizing store with
  | nil => rfl
  | cons threshold rest ih =>
      rw [List.foldl_cons]
      refine (ih _).trans ?_
      unfold announce
      split_ifs <;> rfl

variable (draws position organization month sent limit) in
theorem announce_all (thresholds : List Nat) (balanced : Balanced store) :
    let after := thresholds.foldl (announce draws position organization month sent limit) store
    Balanced after ∧
      (∀ other later percent, (other, later, percent) ∈ after.usageAlerts ↔
        (other, later, percent) ∈ store.usageAlerts ∨
          (other = organization.id ∧ later = month ∧ percent ∈ thresholds)) := by
  induction thresholds generalizing store with
  | nil => exact ⟨balanced, by simp⟩
  | cons threshold rest ih =>
      have announced :
          Balanced (announce draws position organization month sent limit store threshold) :=
        announce_balanced balanced
      obtain ⟨even, members⟩ := ih announced
      refine ⟨even, ?_⟩
      intro other later percent
      rw [List.foldl_cons, members, mem_announce, List.mem_cons]
      simp only [Prod.mk.injEq]
      tauto

theorem mem_reachedThresholds :
    threshold ∈ reachedThresholds sent limit ↔ threshold ∈ usageThresholds ∧
      ∃ bound, limit = some bound ∧ 0 < bound ∧ bound * threshold ≤ sent * 100 := by
  unfold reachedThresholds
  cases limit with
  | none => simp
  | some bound =>
      by_cases positive : 0 < bound
      · simp [positive]
      · simp [positive]

end Announcements

/-! ## The ledger -/

/-- The organization of a server, if both are there. -/
def ownerIn (store : MemoryStore) (serverId : Id) : Option Id :=
  (store.servers serverId).bind (fun server =>
    (store.organizations server.organizationId).map (fun _ => server.organizationId))

/-- An organization is found under its own identifier. -/
def Keyed (store : MemoryStore) : Prop :=
  ∀ id organization, store.organizations id = some organization → organization.id = id

/-- The counters, limits and announcements of a store are those of a history. -/
structure Ledger (calendar : Calendar) (start : MemoryStore) (history : List Entry)
    (store : MemoryStore) : Prop where
  organizations : store.organizations = start.organizations
  servers : store.servers = start.servers
  daily : ∀ serverId day, store.sendCounters serverId day =
    storedCount (fun record => ofServer serverId record && calendar.date record.createdAt = day)
      history
  monthly : ∀ organizationId month, store.organizationSendCounters organizationId month =
    storedCount (ofOrganization calendar (ownerIn start) organizationId month) history
  limits : ∀ organizationId, (store.organizationPolicies organizationId).bind
    OrganizationPolicy.monthlySendLimit = limitInForce organizationId history
  alerts : ∀ organizationId month threshold,
    (organizationId, month, threshold) ∈ store.usageAlerts ↔ threshold ∈ usageThresholds ∧
      Reached calendar (ownerIn start) organizationId month threshold history
  balanced : Balanced store

section Ledgers

variable {platform : Platform} {calendar : Calendar} {start store : MemoryStore}
  {history : List Entry} {record : MessageRecord} {draws : Draws} {position : Nat}

theorem ownerIn_eq (keyed : Keyed start) (serverId : Id) : ownerIn start serverId =
    ((start.servers serverId).bind (fun server => start.organizations server.organizationId)).map
      Organization.id := by
  unfold ownerIn
  cases start.servers serverId with
  | none => rfl
  | some server =>
      rw [Option.bind_some, Option.bind_some]
      cases found : start.organizations server.organizationId with
      | none => rfl
      | some organization => exact congrArg some (keyed _ _ found).symm

/-- The counters of the servers after one more message. -/
def dailyWith (calendar : Calendar) (record : MessageRecord) (store : MemoryStore) :
    Id → Int → Int :=
  let date := calendar.date record.createdAt
  let own := store.sendCounters record.message.serverId
  Function.update store.sendCounters record.message.serverId
    (Function.update own date (own date + 1))

section

variable (ledger : Ledger calendar start history store)
include ledger

theorem Ledger.daily_counted
    (outgoing : record.message.scope = .outgoing) (serverId : Id) (day : Int) :
    dailyWith calendar record store serverId day = storedCount (fun record => ofServer serverId record && calendar.date record.createdAt = day)
        (history ++ [.stored record]) := by
  have own : (ofServer serverId record && decide (calendar.date record.createdAt = day)) =
      decide (record.message.serverId = serverId ∧ calendar.date record.createdAt = day) := by
    simp [ofServer, outgoing]
  rw [dailyWith, storedCount_append, storedCount_stored, own, Nat.cast_add, ← ledger.daily]
  by_cases server : serverId = record.message.serverId
  · subst server
    by_cases today : day = calendar.date record.createdAt
    · subst today
      simp
    · simp [today, Ne.symm today]
  · simp [server, Ne.symm server]

/-- A message that belongs to no organization is counted for its server alone. -/
theorem Ledger.counted_unowned (keyed : Keyed start)
    (outgoing : record.message.scope = .outgoing)
    (unowned : (store.servers record.message.serverId).bind
      (fun server => store.organizations server.organizationId) = none) :
    Ledger calendar start (history ++ [.stored record])
      (store.countOutgoing calendar draws position record.message.serverId record.createdAt) := by
  have uncounted (organizationId : Id) (month : UsageMonth) :
      ofOrganization calendar (ownerIn start) organizationId month record = false := by
    have nobody : ownerIn start record.message.serverId = none := by
      rw [ownerIn_eq keyed, ← ledger.servers, ← ledger.organizations, unowned, Option.map_none]
    simp [ofOrganization, nobody]
  have same : store.countOutgoing calendar draws position record.message.serverId record.createdAt =
      { store with sendCounters := dailyWith calendar record store } := by
    simp only [countOutgoing, unowned]
    rfl
  rw [same]
  refine ⟨ledger.organizations, ledger.servers, ledger.daily_counted outgoing, ?_, ?_, ?_,
    ledger.balanced⟩
  · intro organizationId month
    rw [storedCount_append, storedCount_stored, uncounted]
    exact ledger.monthly organizationId month
  · intro organizationId
    rw [limitInForce_stored]
    exact ledger.limits organizationId
  · intro organizationId month threshold
    rw [reached_stored, uncounted]
    simpa using ledger.alerts organizationId month threshold

/-- A message of an organization is counted for it too, and what it reaches is announced. -/
theorem Ledger.counted_owned (keyed : Keyed start)
    (outgoing : record.message.scope = .outgoing) {organization : Organization}
    (owned : (store.servers record.message.serverId).bind
      (fun server => store.organizations server.organizationId) = some organization) :
    Ledger calendar start (history ++ [.stored record])
      (store.countOutgoing calendar draws position record.message.serverId record.createdAt) := by
  have owner : ownerIn start record.message.serverId = some organization.id := by
    rw [ownerIn_eq keyed, ← ledger.servers, ← ledger.organizations, owned, Option.map_some]
  let date := calendar.date record.createdAt
  have counts (organizationId : Id) (month : UsageMonth) :
      ofOrganization calendar (ownerIn start) organizationId month record =
        decide (organization.id = organizationId ∧ calendar.monthOf date = month) := by
    simp [ofOrganization, outgoing, owner, date]
  let sent := store.organizationSendCounters organization.id (calendar.monthOf date) + 1
  let raised : MemoryStore := { store with
    sendCounters := dailyWith calendar record store
    organizationSendCounters := Function.update store.organizationSendCounters organization.id
      (Function.update (store.organizationSendCounters organization.id) (calendar.monthOf date)
        sent) }
  let limit := (store.organizationPolicies organization.id).bind OrganizationPolicy.monthlySendLimit
  have same : store.countOutgoing calendar draws position record.message.serverId record.createdAt =
      (reachedThresholds sent limit).foldl
        (announce draws position organization (calendar.monthOf date) sent limit) raised := by
    simp only [countOutgoing, owned]
    rfl
  have even : Balanced raised := ledger.balanced
  have only := announce_only draws position organization (calendar.monthOf date) sent limit
    (reachedThresholds sent limit) raised
  obtain ⟨balanced, members⟩ := announce_all draws position organization (calendar.monthOf date)
    sent limit (reachedThresholds sent limit) even
  rw [← same] at balanced members only
  refine ⟨?_, ?_, ?_, ?_, ?_, ?_, balanced⟩
  · rw [only]
    exact ledger.organizations
  · rw [only]
    exact ledger.servers
  · rw [only]
    exact ledger.daily_counted outgoing
  · intro organizationId month
    rw [only, storedCount_append, storedCount_stored, counts, Nat.cast_add, ← ledger.monthly]
    by_cases own : organizationId = organization.id
    · subst own
      by_cases now : month = calendar.monthOf date
      · subst now
        simp [raised, sent]
      · simp [raised, now, Ne.symm now]
    · simp [raised, own, Ne.symm own]
  · intro organizationId
    rw [only, limitInForce_stored]
    exact ledger.limits organizationId
  · intro organizationId month threshold
    have before := ledger.alerts organizationId month threshold
    have total : sent = (storedCount (ofOrganization calendar (ownerIn start) organization.id
        (calendar.monthOf date)) history + 1 : Nat) := by
      rw [Nat.cast_add, ← ledger.monthly]
      rfl
    have bound : limit = limitInForce organization.id history := ledger.limits organization.id
    rw [members, reached_stored, mem_reachedThresholds, counts, total, bound, decide_eq_true_eq]
    constructor
    · rintro (earlier | ⟨rfl, rfl, known, reached⟩)
      · exact ⟨(before.mp earlier).1, .inl (before.mp earlier).2⟩
      · exact ⟨known, .inr ⟨⟨rfl, rfl⟩, reached⟩⟩
    · rintro ⟨known, earlier | ⟨⟨rfl, rfl⟩, reached⟩⟩
      · exact .inl (before.mpr ⟨known, earlier⟩)
      · exact .inr ⟨rfl, rfl, known, reached⟩

/-- A message that is not sent out is not counted. -/
theorem Ledger.uncounted (incoming : record.message.scope = .incoming) :
    Ledger calendar start (history ++ [.stored record]) store := by
  have nobody (organizationId : Id) (month : UsageMonth) :
      ofOrganization calendar (ownerIn start) organizationId month record = false := by
    simp [ofOrganization, incoming]
  have nothing (serverId : Id) (day : Int) :
      (ofServer serverId record && decide (calendar.date record.createdAt = day)) = false := by
    simp [ofServer, incoming]
  refine ⟨ledger.organizations, ledger.servers, ?_, ?_, ?_, ?_, ledger.balanced⟩
  · intro serverId day
    rw [storedCount_append, storedCount_stored, nothing]
    exact ledger.daily serverId day
  · intro organizationId month
    rw [storedCount_append, storedCount_stored, nobody]
    exact ledger.monthly organizationId month
  · intro organizationId
    rw [limitInForce_stored]
    exact ledger.limits organizationId
  · intro organizationId month threshold
    rw [reached_stored, nobody]
    simpa using ledger.alerts organizationId month threshold

end

/-- The ledger is about the counters, limits, announcements, organizations and servers alone. -/
theorem Ledger.of_eq {other : MemoryStore} (ledger : Ledger calendar start history store)
    (same : other = { store with
      unsubscribeTokens := other.unsubscribeTokens, messages := other.messages,
      idempotencyRequests := other.idempotencyRequests, nextId := other.nextId }) :
    Ledger calendar start history other := by
  rw [same]
  exact ⟨ledger.organizations, ledger.servers, ledger.daily, ledger.monthly, ledger.limits,
    ledger.alerts, ledger.balanced⟩

theorem countOutgoing_messages (serverId : Id) (moment : DateTime) :
    (store.countOutgoing calendar draws position serverId moment).messages = store.messages := by
  unfold countOutgoing
  split
  · rfl
  · exact (congrArg MemoryStore.messages (announce_only _ _ _ _ _ _ _ _)).trans rfl

variable (platform draws position) in
/-- One message of a plan is stored, and the ledger gains it. -/
theorem Ledger.storePlanned (ledger : Ledger calendar start history store) (keyed : Keyed start)
    (serverId : Id) (planned : SendPlanMessage) : ∃ record,
      (store.storePlanned platform calendar draws serverId position planned).2.messages =
        store.messages ++ [record] ∧
      Ledger calendar start (history ++ [.stored record])
        (store.storePlanned platform calendar draws serverId position planned).2 := by
  refine ⟨(store.buildMessageRecord platform draws position planned.message).1, ?_⟩
  unfold MemoryStore.storePlanned
  dsimp only
  generalize (store.buildMessageRecord platform draws position planned.message).1 = record
  split
  · next outgoing =>
      refine ⟨congrArg (· ++ [record]) (countOutgoing_messages _ _), ?_⟩
      refine Ledger.of_eq ?_ rfl
      cases owned : (store.servers record.message.serverId).bind
          (fun server => store.organizations server.organizationId) with
      | none => exact Ledger.counted_unowned (ledger.of_eq rfl) keyed outgoing owned
      | some organization => exact Ledger.counted_owned (ledger.of_eq rfl) keyed outgoing owned
  · next incoming =>
      exact ⟨rfl, (ledger.uncounted incoming).of_eq rfl⟩

variable (platform draws position) in
theorem Ledger.storeMessages (ledger : Ledger calendar start history store) (keyed : Keyed start)
    (serverId : Id) (planned : List SendPlanMessage) : ∃ records,
      (MemoryStore.storeMessages platform calendar draws serverId position planned
        store).2.messages = store.messages ++ records ∧
      Ledger calendar start (history ++ records.map .stored)
        (MemoryStore.storeMessages platform calendar draws serverId position planned store).2 := by
  induction planned generalizing position history store with
  | nil => exact ⟨[], by simp [MemoryStore.storeMessages], by simpa [MemoryStore.storeMessages] using ledger⟩
  | cons first rest ih =>
      obtain ⟨record, logged, next⟩ := ledger.storePlanned platform draws position keyed serverId first
      obtain ⟨records, more, last⟩ := ih (position + 1) next
      refine ⟨record :: records, ?_, ?_⟩
      · rw [MemoryStore.storeMessages, more, logged, List.append_assoc]
        rfl
      · rw [List.append_assoc] at last
        exact last

variable (platform draws position) in
/-- A plan is stored, and the ledger gains what is added to the log. -/
theorem Ledger.storePlan (ledger : Ledger calendar start history store) (keyed : Keyed start)
    (serverId : Id) (plan : List SendPlanItem) : ∃ records,
      (MemoryStore.storePlan platform calendar draws serverId position plan store).2.messages =
        store.messages ++ records ∧
      Ledger calendar start (history ++ records.map .stored)
        (MemoryStore.storePlan platform calendar draws serverId position plan store).2 := by
  induction plan generalizing position history store with
  | nil => exact ⟨[], by simp [MemoryStore.storePlan], by simpa [MemoryStore.storePlan] using ledger⟩
  | cons item rest ih =>
      cases item with
      | messages planned =>
          obtain ⟨first, logged, next⟩ := ledger.storeMessages platform draws position keyed
            serverId planned
          obtain ⟨records, more, last⟩ := ih (position + planned.length) next
          refine ⟨first ++ records, ?_, ?_⟩
          · rw [MemoryStore.storePlan, more, logged, List.append_assoc]
          · rw [List.append_assoc, ← List.map_append] at last
            exact last
      | error code message => exact ih position ledger

variable (platform draws) in
/-- An operation is answered and leaves the store alone, or it stores its plan and leaves a
record. -/
theorem Ledger.insertSendOperation (ledger : Ledger calendar start history store)
    (keyed : Keyed start) (serverId : Id) (plan : List SendPlanItem)
    (idempotency : Option IdempotencyRequest) : ∃ records,
      (store.insertSendOperation platform calendar draws serverId plan idempotency).2.messages =
        store.messages ++ records ∧
      Ledger calendar start (history ++ records.map .stored)
        (store.insertSendOperation platform calendar draws serverId plan idempotency).2 := by
  cases idempotency with
  | none => exact ledger.storePlan platform draws 0 keyed serverId plan
  | some request =>
      have unchanged : ∃ records, store.messages = store.messages ++ records ∧
          Ledger calendar start (history ++ records.map .stored) store :=
        ⟨[], by simp, by simpa using ledger⟩
      unfold MemoryStore.insertSendOperation
      dsimp only
      split
      · exact unchanged
      · exact unchanged
      · have cleared : Ledger calendar start history { store with
            idempotencyRequests :=
              store.idempotencyRequests.erase (serverId, request.keyHash) } := ledger.of_eq rfl
        obtain ⟨records, logged, after⟩ := cleared.storePlan platform draws 0 keyed serverId plan
        exact ⟨records, logged, after.of_eq rfl⟩

end Ledgers

/-! ## Every history -/

section Histories

variable {platform : Platform} {calendar : Calendar} {start before after : MemoryStore}
  {history : List Entry} {call : Call} {answer : Answer}

/-- To prune messages changes the log alone. -/
theorem pruned_only (olderThan : DateTime) (store : MemoryStore) :
    (pruneMessagesBefore olderThan store).2 =
      { store with messages := (pruneMessagesBefore olderThan store).2.messages } := by
  unfold pruneMessagesBefore
  dsimp only
  split_ifs <;> rfl

theorem pruned_step {olderThan : DateTime}
    (reaction : step platform calendar before (.pruneMessagesBefore olderThan) =
      some (answer, after)) : after = (pruneMessagesBefore olderThan before).2 := by
  exact (Prod.mk.inj (Option.some.inj reaction)).2.symm

/-- One call adds its entries to the ledger. -/
theorem step_ledger (ledger : Ledger calendar start history before) (keyed : Keyed start)
    (reaction : step platform calendar before call = some (answer, after)) :
    Ledger calendar start (history ++ entries ⟨before, call, answer, after⟩) after := by
  have logged {records : List MessageRecord} (grown : after.messages = before.messages ++ records) :
      (after.messages.drop before.messages.length).map Entry.stored = records.map .stored := by
    rw [grown, List.drop_left]
  cases call with
  | insertMessageRecord draws message =>
      obtain ⟨record, grown, next⟩ := ledger.storePlanned platform draws 0 keyed message.serverId
        message.planned
      obtain ⟨-, rfl⟩ := Prod.mk.inj (Option.some.inj reaction)
      change Ledger calendar start (history ++ List.map _ _) _
      rw [@logged [record] grown]
      exact next
  | insertSendOperation draws serverId plan idempotency =>
      obtain ⟨records, grown, next⟩ := ledger.insertSendOperation platform draws keyed serverId plan
        idempotency
      obtain ⟨-, rfl⟩ := Prod.mk.inj (Option.some.inj reaction)
      change Ledger calendar start (history ++ List.map _ _) _
      rw [logged grown]
      exact next
  | setOrganizationPolicy organizationId policy =>
      by_cases there : (before.organizations organizationId).isSome = true
      · simp only [step, setOrganizationPolicy] at reaction
        obtain ⟨-, rfl⟩ := Prod.mk.inj (Option.some.inj reaction)
        simp only [entries, if_pos there]
        refine ⟨ledger.organizations, ledger.servers, ?_, ?_, ?_, ?_, ledger.balanced⟩
        · intro serverId day
          rw [storedCount_append]
          exact ledger.daily serverId day
        · intro other month
          rw [storedCount_append]
          exact ledger.monthly other month
        · intro other
          rw [limitInForce_limited, ← ledger.limits]
          by_cases own : other = organizationId
          · simp [own]
          · simp [own, Ne.symm own]
        · intro other month threshold
          rw [reached_limited]
          exact ledger.alerts other month threshold
      · simp only [step, setOrganizationPolicy] at reaction
        obtain ⟨-, rfl⟩ := Prod.mk.inj (Option.some.inj reaction)
        simp only [entries, if_neg there, List.append_nil]
        exact ledger
  | pruneMessagesBefore olderThan =>
      simp only [entries, List.append_nil]
      rw [pruned_step reaction, pruned_only]
      exact ledger.of_eq rfl

theorem seeded_keyed (organizations : List Organization) (servers : List Server) :
    Keyed (seeded organizations servers) := by
  have placed (organizations : List Organization) (store : MemoryStore) (keyed : Keyed store) :
      Keyed (organizations.foldl insertOrganization store) := by
    induction organizations generalizing store with
    | nil => exact keyed
    | cons organization rest ih =>
        refine ih _ ?_
        intro id found there
        by_cases own : id = organization.id
        · subst own
          simp only [insertOrganization, Function.update_self] at there
          exact congrArg Organization.id (Option.some.inj there.symm)
        · simp only [insertOrganization, Function.update_of_ne own] at there
          exact keyed id found there
  have kept (servers : List Server) (store : MemoryStore) (keyed : Keyed store) :
      Keyed (servers.foldl insertServer store) := by
    induction servers generalizing store with
    | nil => exact keyed
    | cons server rest ih => exact ih _ keyed
  exact kept servers _ (placed organizations _ (fun id organization there => by cases there))

/-- A store with organizations and servers has counted, limited and announced nothing. -/
theorem seeded_ledger (organizations : List Organization) (servers : List Server) :
    Ledger calendar (seeded organizations servers) [] (seeded organizations servers) := by
  have fresh : ∃ placed kept, seeded organizations servers =
      { MemoryStore.empty with organizations := placed, servers := kept } := by
    have started : ∃ placed, organizations.foldl insertOrganization .empty =
        { MemoryStore.empty with organizations := placed } := by
      refine List.foldlRecOn (motive := fun store => ∃ placed, store =
        { MemoryStore.empty with organizations := placed }) organizations insertOrganization
        (b := .empty) ⟨_, rfl⟩ ?_
      rintro store ⟨placed, rfl⟩ organization -
      exact ⟨_, rfl⟩
    obtain ⟨placed, started⟩ := started
    rw [seeded, started]
    refine List.foldlRecOn (motive := fun store => ∃ placed kept, store =
      { MemoryStore.empty with organizations := placed, servers := kept }) servers insertServer
      (b := { MemoryStore.empty with organizations := placed }) ⟨placed, _, rfl⟩ ?_
    rintro store ⟨placed, kept, rfl⟩ server -
    exact ⟨_, _, rfl⟩
  obtain ⟨placed, kept, same⟩ := fresh
  rw [same]
  refine ⟨rfl, rfl, fun _ _ => rfl, fun _ _ => rfl, fun _ => rfl, ?_, fun _ _ _ => rfl⟩
  simp [MemoryStore.empty, Reached]

/-- A call that prunes messages changes no counter. -/
theorem pruned_counters {olderThan : DateTime}
    (reaction : step platform calendar before (.pruneMessagesBefore olderThan) =
      some (answer, after)) :
    after.sendCounters = before.sendCounters ∧
      after.organizationSendCounters = before.organizationSendCounters := by
  rw [pruned_step reaction, pruned_only]
  exact ⟨rfl, rfl⟩

end Histories

/-! ## The arithmetic of the thresholds -/

/-- The comparison of `reached_thresholds` in 128 bits, for a counter and a limit of 64 bits. -/
def reaches (sent limit : BitVec 64) (threshold : BitVec 8) : Bool :=
  (limit.signExtend 128 * threshold.setWidth 128).sle (sent.signExtend 128 * 100)

theorem reaches_iff (sent limit : BitVec 64) (threshold : BitVec 8) :
    reaches sent limit threshold = true ↔ limit.toInt * threshold.toNat ≤ sent.toInt * 100 := by
  have wide (value : BitVec 64) : (value.signExtend 128).toInt = value.toInt :=
    BitVec.toInt_signExtend_of_le (by decide)
  have percent : (threshold.setWidth 128).toInt = threshold.toNat := by
    rw [BitVec.toInt_eq_toNat_of_lt (by rw [BitVec.toNat_setWidth]; omega), BitVec.toNat_setWidth,
      Nat.mod_eq_of_lt (by omega)]
  have bounds (value : BitVec 64) : -2 ^ 63 ≤ value.toInt ∧ value.toInt < 2 ^ 63 :=
    ⟨BitVec.le_toInt value, BitVec.toInt_lt⟩
  have product : (limit.signExtend 128 * threshold.setWidth 128).toInt =
      limit.toInt * threshold.toNat := by
    have small : (threshold.toNat : Int) < 256 := by exact_mod_cast threshold.isLt
    obtain ⟨low, high⟩ := bounds limit
    have lower : -(2 ^ 63 * 256) ≤ limit.toInt * threshold.toNat := by nlinarith
    have upper : limit.toInt * threshold.toNat ≤ 2 ^ 63 * 256 := by nlinarith
    rw [BitVec.toInt_mul, wide, percent]
    refine Int.bmod_eq_of_le ?_ ?_ <;> omega
  have scaled : (sent.signExtend 128 * 100).toInt = sent.toInt * 100 := by
    obtain ⟨low, high⟩ := bounds sent
    rw [BitVec.toInt_mul, wide, show ((100 : BitVec 128)).toInt = 100 from rfl]
    refine Int.bmod_eq_of_le ?_ ?_ <;> omega
  rw [reaches, BitVec.sle_iff_toInt_le, product, scaled]

/-- `reached_thresholds` with the machine's arithmetic. -/
def reachedThresholds64 (sent : BitVec 64) (limit : Option (BitVec 64)) : List Nat :=
  match limit with
  | some limit =>
      if (0#64).slt limit then
        usageThresholds.filter (fun threshold => reaches sent limit (BitVec.ofNat 8 threshold))
      else []
  | none => []

/-- No counter and no limit of 64 bits overflows. -/
theorem reachedThresholds64_eq (sent : BitVec 64) (limit : Option (BitVec 64)) :
    reachedThresholds64 sent limit = reachedThresholds sent.toInt (limit.map BitVec.toInt) := by
  cases limit with
  | none => rfl
  | some limit =>
      have positive : (0#64).slt limit = true ↔ 0 < limit.toInt := by
        rw [BitVec.slt_iff_toInt_lt, BitVec.toInt_zero]
      have same : usageThresholds.filter (fun threshold =>
          reaches sent limit (BitVec.ofNat 8 threshold)) = usageThresholds.filter
            (fun threshold : Nat => sent.toInt * 100 ≥ limit.toInt * threshold) := by
        refine List.filter_congr ?_
        intro threshold member
        have small : threshold < 2 ^ 8 := by
          simp only [usageThresholds, List.mem_cons, List.not_mem_nil, or_false] at member
          omega
        rw [Bool.eq_iff_iff, reaches_iff, BitVec.toNat_ofNat, Nat.mod_eq_of_lt small,
          decide_eq_true_eq]
      simp only [reachedThresholds64, reachedThresholds, Option.map_some, positive, same]

/-! ## Every run -/

/-- What the calls of a run have stored, and the limits they have set. -/
def historyOf (events : List (Event MemoryStore Call Answer)) : List Entry :=
  events.flatMap entries

/-- In every run on a store with organizations and servers the counters are what has been stored
for an organization in a month and for a server in all days together, and to prune messages
changes no counter. Each threshold is announced once if some message reached it of the limit above
zero that was in force then, and never otherwise. The machine's arithmetic is exact. -/
theorem usage_counted_and_announced {platform : Platform} {calendar : Calendar}
    {organizations : List Organization} {servers : List Server} {calls : List Call}
    {events : List (Event MemoryStore Call Answer)} {final : MemoryStore}
    (ran : run (step platform calendar) (seeded organizations servers) calls =
      some (events, final)) :
    (∀ organizationId month, final.organizationSendCounters organizationId month =
      storedCount (ofOrganization calendar (ownerIn (seeded organizations servers)) organizationId
        month) (historyOf events)) ∧
    (∀ serverId (days : Finset Int),
      (∀ record, .stored record ∈ historyOf events → ofServer serverId record = true →
        calendar.date record.createdAt ∈ days) →
      ∑ day ∈ days, final.sendCounters serverId day =
        storedCount (ofServer serverId) (historyOf events)) ∧
    (∀ event ∈ events, ∀ olderThan, event.input = .pruneMessagesBefore olderThan →
      event.after.sendCounters = event.before.sendCounters ∧
        event.after.organizationSendCounters = event.before.organizationSendCounters) ∧
    (∀ organizationId month, ∀ threshold ∈ usageThresholds,
      (Reached calendar (ownerIn (seeded organizations servers)) organizationId month threshold
        (historyOf events) → announced organizationId month threshold final.lifecycleEvents = 1) ∧
      (¬ Reached calendar (ownerIn (seeded organizations servers)) organizationId month threshold
        (historyOf events) → announced organizationId month threshold final.lifecycleEvents = 0)) ∧
    ∀ sent limit, reachedThresholds64 sent limit =
      reachedThresholds sent.toInt (limit.map BitVec.toInt) := by
  obtain ⟨ledger, -⟩ := run_invariant
    (fun past state => Ledger calendar (seeded organizations servers) (historyOf past) state)
    (fun _ => True)
    (by
      intro past before input output after ledger reaction _
      rw [historyOf, List.flatMap_append, List.flatMap_singleton]
      exact step_ledger ledger (seeded_keyed _ _) reaction)
    calls [] _ final events (seeded_ledger _ _) ran (by simp)
  rw [List.nil_append] at ledger
  refine ⟨ledger.monthly, ?_, ?_, ?_, reachedThresholds64_eq⟩
  · intro serverId days within
    simp only [ledger.daily, ← Nat.cast_sum]
    rw [sum_days within]
  · intro event member olderThan pruned
    have reaction := run_reaction ran member
    rw [pruned] at reaction
    exact pruned_counters reaction
  · intro organizationId month threshold known
    have balanced := ledger.balanced organizationId month threshold
    have alerts := ledger.alerts organizationId month threshold
    constructor
    · intro reached
      rw [balanced, if_pos (alerts.mpr ⟨known, reached⟩)]
    · intro unreached
      rw [balanced, if_neg (fun there => unreached (alerts.mp there).2)]

section Examples

/-- A store with one organization and one server, and a message of that. -/
def acmeStore : MemoryStore :=
  seeded [⟨1, "acme"⟩] [{
    id := 7, organizationId := 1, permalink := "mail", token := "token"
    suspended := false, privacyMode := false, allowSender := false, sendLimit := none }]

def acmeMessage : QueuedMessage where
  serverId := 7
  rcptTo := "x@y.example"
  mailFrom := "me@a.example"
  rawMessage := []
  receivedWithSsl := false
  scope := .outgoing
  bounce := false
  domainId := none
  credentialId := none
  routeId := none
  tag := none
  metadata := none
  streamId := none

/-- One day and one month of time. -/
def noCalendar : Calendar := ⟨fun _ => 0, fun _ => ⟨1970, 1⟩⟩

def acmeDraws : Draws :=
  ⟨0, fun _ => 0, fun _ => "token", fun _ _ => "event", fun _ _ => 0⟩

theorem one_message_counted : ∃ events final,
    run (step .ascii noCalendar) acmeStore [.insertMessageRecord acmeDraws acmeMessage] =
      some (events, final) ∧ final.organizationSendCounters 1 ⟨1970, 1⟩ = 1 := by
  have ran : run (step .ascii noCalendar) acmeStore [.insertMessageRecord acmeDraws acmeMessage] =
    some (_, _) := rfl
  refine ⟨_, _, ran, ?_⟩
  rw [(usage_counted_and_announced ran).1]
  rfl

/-- A message brings the counter to every percentage of a limit of zero, and nothing is
announced. -/
theorem zero_limit_unannounced : ∃ events final,
    run (step .ascii noCalendar) acmeStore [.setOrganizationPolicy 1 { monthlySendLimit := some 0 },
      .insertMessageRecord acmeDraws acmeMessage] = some (events, final) ∧
    (final.organizationPolicies 1).bind OrganizationPolicy.monthlySendLimit = some 0 ∧
    0 * 80 ≤ final.organizationSendCounters 1 ⟨1970, 1⟩ * 100 ∧
    announced 1 ⟨1970, 1⟩ 80 final.lifecycleEvents = 0 := by
  refine ⟨_, _, rfl, rfl, ?_, rfl⟩
  decide

end Examples

end Camelmailer.MemoryStore.Usage
