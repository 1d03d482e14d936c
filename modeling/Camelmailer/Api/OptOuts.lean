import Mathlib.Data.List.Rotate
import Camelmailer.Api.Suppressions
import Camelmailer.Db.Program
import Camelmailer.Machine

/-!
# Opting out

Whoever has opted out of a stream stays suppressed until the suppressions of the address are
deleted, and is not subscribed until somebody subscribes it again. What an operation may do to the
two lists is said once for both stores, and the rule for whole runs follows from that.

Deleting is where the stores differ. `PgStore` deletes the suppressions of an address, whatever
their stream, and `MemoryStore` deletes the first one that it comes to.
-/

namespace Camelmailer.Api.OptOuts

open Utf8 Db Suppressions

/-! ## What an operation may do -/

/-- The server, the stream and the address that an operation has successfully opted out. -/
def optsOut (resolve : Text → Option (Id × Option Id × Text)) :
    Answered Operation → Option (Id × Option Id × Text)
  | ⟨.recordUnsubscribe token, .ok true⟩ => resolve token
  | ⟨.recordComplaintByToken token, .ok true⟩ => resolve token
  | ⟨.recordComplaint serverId streamId address, .ok _⟩ => some (serverId, some streamId, address)
  | _ => none

/-- Whether an operation deletes the suppressions of an address. -/
def deletes (serverId : Id) (address : Text) : Answered Operation → Bool
  | ⟨.deleteSuppression server deleted, _⟩ => server = serverId && deleted = address
  | _ => false

/-- Whether an operation subscribes an address to a stream. -/
def resubscribes (serverId streamId : Id) (address : Text) : Answered Operation → Bool
  | ⟨.upsertSubscription server stream subscribed status, _⟩ => server = serverId &&
      stream = streamId && subscribed = address && status = subscribedStatus
  | _ => false

/-- Whether an operation has returned from deleting the suppressions of an address. -/
def deleted (serverId : Id) (address : Text) : Answered Operation → Bool
  | ⟨.deleteSuppression server text, .ok _⟩ => server = serverId && text = address
  | _ => false

/-- An address has one suppression at most on a server. -/
def AtMostOne (lists : Lists) (serverId : Id) (address : Text) : Prop :=
  ∀ row ∈ lists.suppressions.rows, ∀ other ∈ lists.suppressions.rows,
    row.isOf serverId address = true → other.isOf serverId address = true → row = other

/-- What an operation may do to the lists. -/
structure Respects (resolve : Text → Option (Id × Option Id × Text)) (lists after : Lists)
    (entry : Answered Operation) : Prop where
  kept : ∀ row ∈ lists.suppressions.rows, deletes row.serverId row.address entry = false →
    row ∈ after.suppressions.rows
  recorded : ∀ serverId streamId address,
    optsOut resolve entry = some (serverId, streamId, address) →
    ∃ row ∈ after.suppressions.rows, row.isOf serverId address = true ∧ row.streamId = streamId
  opened : ∀ serverId streamId address, after.isSubscribed serverId streamId address = true →
    lists.isSubscribed serverId streamId address = true ∨
      resubscribes serverId streamId address entry = true
  closed : ∀ serverId streamId address,
    optsOut resolve entry = some (serverId, some streamId, address) →
    after.isSubscribed serverId streamId address = false

section Lists

variable {lists after : Lists} {serverId streamId : Id} {address status : Text}

theorem Suppression.isOf_iff {row : Suppression} :
    row.isOf serverId address = true ↔ row.serverId = serverId ∧ row.address = address := by
  simp [Suppression.isOf]

theorem isSubscribed_iff : lists.isSubscribed serverId streamId address = true ↔
    ∃ row ∈ lists.subscriptions.rows, row.isOf serverId streamId address = true ∧
      row.status = subscribedStatus := by
  simp [Lists.isSubscribed]

/-- Who is subscribed after a status has been set was so before, or has been given the status. -/
theorem isSubscribed_upsertSubscription {server stream : Id} {text : Text}
    (subscribed : (lists.upsertSubscription serverId streamId address status).2.isSubscribed server
      stream text = true) :
    (lists.isSubscribed server stream text = true ∧
      (server, stream, text) ≠ (serverId, streamId, address)) ∨
    (status = subscribedStatus ∧ (server, stream, text) = (serverId, streamId, address)) := by
  obtain ⟨row, member, own, open_⟩ := isSubscribed_iff.mp subscribed
  obtain ⟨rfl, rfl, rfl⟩ := Subscription.isOf_iff.mp own
  rcases mem_upsertSubscription member with ⟨old, other⟩ | ⟨same, given⟩
  · refine .inl ⟨isSubscribed_iff.mpr ⟨row, old, own, open_⟩, fun equal => ?_⟩
    obtain ⟨server, stream, text⟩ : row.serverId = serverId ∧ row.streamId = streamId ∧
        row.address = address := by simpa using equal
    exact absurd (Subscription.isOf_iff.mpr ⟨server, stream, text⟩) (by simp [other])
  · obtain ⟨rfl, rfl, rfl⟩ := Subscription.isOf_iff.mp same
    exact .inr ⟨given ▸ open_, rfl⟩

/-- Nobody is subscribed with fewer rows that was not so before. -/
theorem isSubscribed_keepSubscriptions {kept : Subscription → Bool}
    (subscribed : (lists.keepSubscriptions kept).isSubscribed serverId streamId address = true) :
    lists.isSubscribed serverId streamId address = true := by
  obtain ⟨row, member, own⟩ := isSubscribed_iff.mp subscribed
  exact isSubscribed_iff.mpr ⟨row, (Table.mem_keep.mp member).1, own⟩

theorem addressSuppressed_iff {scope : Option Id} :
    lists.addressSuppressed serverId address scope = true ↔
    ∃ row ∈ lists.suppressions.rows, row.isOf serverId address = true ∧
      (row.streamId = none ∨ row.streamId = scope) := by
  simp [Lists.addressSuppressed]

/-- An address that no stream is kept from has no suppression. -/
theorem unsuppressed_iff : (∀ scope, lists.addressSuppressed serverId address scope = false) ↔
    ∀ row ∈ lists.suppressions.rows, row.isOf serverId address = false := by
  constructor
  · intro free row member
    refine Bool.eq_false_iff.mpr (fun own => ?_)
    have suppressed := addressSuppressed_iff.mpr ⟨row, member, own, .inr rfl⟩
    rw [free row.streamId] at suppressed
    cases suppressed
  · intro none_ scope
    refine Bool.eq_false_iff.mpr (fun suppressed => ?_)
    obtain ⟨row, member, own, -⟩ := addressSuppressed_iff.mp suppressed
    rw [none_ row member] at own
    cases own

end Lists

namespace Respects

variable {resolve : Text → Option (Id × Option Id × Text)} {lists after : Lists}
  {entry : Answered Operation}

/-- An operation that opts nobody out and leaves the lists alone. -/
theorem of_same (same : after = lists) (nobody : optsOut resolve entry = none) :
    Respects resolve lists after entry := by
  subst same
  constructor
  · exact fun row member _ => member
  · intro serverId streamId address out
    rw [nobody] at out
    cases out
  · exact fun _ _ _ subscribed => .inl subscribed
  · intro serverId streamId address out
    rw [nobody] at out
    cases out

/-- An operation that opts nobody out and only writes suppressions. -/
theorem of_suppressions (same : after.subscriptions = lists.subscriptions)
    (nobody : optsOut resolve entry = none)
    (kept : ∀ row ∈ lists.suppressions.rows, deletes row.serverId row.address entry = false →
      row ∈ after.suppressions.rows) : Respects resolve lists after entry := by
  constructor
  · exact kept
  · intro serverId streamId address out
    rw [nobody] at out
    cases out
  · intro serverId streamId address subscribed
    unfold Lists.isSubscribed at subscribed ⊢
    rw [same] at subscribed
    exact .inl subscribed
  · intro serverId streamId address out
    rw [nobody] at out
    cases out

/-- An operation that opts nobody out and only writes subscriptions. -/
theorem of_subscriptions (same : after.suppressions = lists.suppressions)
    (nobody : optsOut resolve entry = none)
    (opened : ∀ serverId streamId address, after.isSubscribed serverId streamId address = true →
      lists.isSubscribed serverId streamId address = true ∨
        resubscribes serverId streamId address entry = true) :
    Respects resolve lists after entry := by
  constructor
  · intro row member _
    rwa [same]
  · intro serverId streamId address out
    rw [nobody] at out
    cases out
  · exact opened
  · intro serverId streamId address out
    rw [nobody] at out
    cases out

end Respects

/-- An address has a suppression of a scope, and the others have stayed. -/
structure Suppressed (lists after : Lists) (serverId : Id) (scope : Option Id) (address : Text) :
    Prop where
  kept : ∀ row ∈ lists.suppressions.rows, row ∈ after.suppressions.rows
  recorded : ∃ row ∈ after.suppressions.rows, row.isOf serverId address = true ∧
    row.streamId = scope
  same : after.subscriptions = lists.subscriptions

/-- The lists when the subscription to a stream has been closed, if the scope is a stream. -/
def withdrawn (lists : Lists) (serverId : Id) (scope : Option Id) (address : Text) : Lists :=
  match scope with
  | some streamId => (lists.upsertSubscription serverId streamId address unsubscribedStatus).2
  | none => lists

theorem withdrawn_suppressions (lists : Lists) (serverId : Id) (scope : Option Id) (address : Text) :
    (withdrawn lists serverId scope address).suppressions = lists.suppressions := by
  unfold withdrawn
  split
  · exact Lists.upsertSubscription_suppressions ..
  · rfl

/-- An opt-out is a suppression and a closed subscription. -/
theorem Respects.of_optOut {resolve : Text → Option (Id × Option Id × Text)}
    {lists middle : Lists} {entry : Answered Operation} {serverId : Id} {scope : Option Id}
    {address : Text} (suppressed : Suppressed lists middle serverId scope address)
    (out : optsOut resolve entry = some (serverId, scope, address)) :
    Respects resolve lists (withdrawn middle serverId scope address) entry := by
  have before : ∀ server stream text, middle.isSubscribed server stream text = true →
      lists.isSubscribed server stream text = true := by
    intro server stream text subscribed
    unfold Lists.isSubscribed at subscribed ⊢
    rwa [suppressed.same] at subscribed
  constructor
  · intro row member _
    rw [withdrawn_suppressions]
    exact suppressed.kept row member
  · intro server stream text other
    rw [out] at other
    cases other
    rw [withdrawn_suppressions]
    exact suppressed.recorded
  · intro server stream text subscribed
    left
    unfold withdrawn at subscribed
    split at subscribed
    · rcases isSubscribed_upsertSubscription subscribed with ⟨old, -⟩ | ⟨status, -⟩
      · exact before _ _ _ old
      · exact absurd status (by decide)
    · exact before _ _ _ subscribed
  · intro server stream text other
    rw [out] at other
    cases other
    apply Bool.eq_false_iff.mpr
    intro subscribed
    rcases isSubscribed_upsertSubscription subscribed with ⟨-, different⟩ | ⟨status, -⟩
    · exact different rfl
    · exact absurd status (show unsubscribedStatus ≠ subscribedStatus by decide)

/-! ## In memory -/

section Memory

variable {choice : MemoryChoice} {lists after : MemoryLists}

theorem createSuppression_suppressed (lists : MemoryLists) (new : NewSuppression) :
    Suppressed lists.toLists (lists.createSuppression new).2.toLists new.serverId new.streamId
      new.address := by
  unfold MemoryLists.createSuppression
  split_ifs with taken
  · obtain ⟨row, member, own⟩ := List.any_eq_true.mp taken
    simp only [Bool.and_eq_true, decide_eq_true_eq] at own
    exact ⟨fun _ there => there, ⟨row, member, own.1, own.2⟩, rfl⟩
  · refine ⟨fun row there => List.mem_cons_of_mem _ there, ?_, rfl⟩
    exact ⟨_, List.mem_cons_self .., Suppression.isOf_iff.mpr ⟨rfl, rfl⟩, rfl⟩

/-- In memory a suppression is never refused for another reason than that it is there. -/
theorem suppressOnce_ok (lists : MemoryLists) (new : NewSuppression) :
    lists.suppressOnce new = (.ok (), (lists.createSuppression new).2) := by
  unfold MemoryLists.suppressOnce MemoryLists.createSuppression
  split_ifs <;> rfl

/-- A token that is not known does nothing. Another one opts its address out. -/
theorem recordByToken_cases (lists : MemoryLists) (suppressionType reason token : Text) :
    (lists.resolveUnsubscribeToken token = none ∧
      lists.recordByToken suppressionType reason token = (.ok false, lists)) ∨
    ∃ serverId scope address middle after,
      lists.resolveUnsubscribeToken token = some (serverId, scope, address) ∧
      lists.recordByToken suppressionType reason token = (.ok true, after) ∧
      Suppressed lists.toLists middle serverId scope address ∧
      after.toLists = withdrawn middle serverId scope address := by
  unfold MemoryLists.recordByToken
  cases found : lists.resolveUnsubscribeToken token with
  | none => exact .inl ⟨rfl, rfl⟩
  | some target =>
      right
      obtain ⟨serverId, scope, address⟩ := target
      have suppressed := createSuppression_suppressed lists
        ⟨serverId, suppressionType, address, some reason, scope⟩
      simp only [suppressOnce_ok]
      refine ⟨serverId, scope, address, _, _, rfl, rfl, suppressed, ?_⟩
      cases scope with
      | some streamId => rfl
      | none => rfl

variable {serverId : Id} {address : Text}

/-- Only the first suppression of the address is deleted. -/
theorem deleteSuppression_kept {row : Suppression} (member : row ∈ lists.suppressions.rows)
    (other : row.isOf serverId address = false) :
    row ∈ (lists.deleteSuppression choice serverId address).2.suppressions.rows := by
  unfold MemoryLists.deleteSuppression
  split
  · next first found =>
      have own : first.isOf serverId address = true := by simpa using List.find?_some found
      have there := List.mem_rotate.mp (List.mem_of_find?_eq_some found)
      refine Table.mem_keep.mpr ⟨member, decide_eq_true (fun same => ?_)⟩
      rw [Table.unique member there same, own] at other
      cases other
  · exact member

/-- What an operation in memory does to the lists. -/
theorem memory_respects {β : Type} {operation : Operation β} {answer : β}
    (responds : lists.respond choice operation = (answer, after)) :
    Respects lists.resolveUnsubscribeToken lists.toLists after.toLists ⟨operation, answer⟩ := by
  have byToken {suppressionType reason token : Text} {operation : Operation (Except StoreError Bool)}
      {answer : Except StoreError Bool}
      (responds : lists.recordByToken suppressionType reason token = (answer, after))
      (missed : optsOut lists.resolveUnsubscribeToken ⟨operation, .ok false⟩ = none)
      (hit : optsOut lists.resolveUnsubscribeToken ⟨operation, .ok true⟩ =
        lists.resolveUnsubscribeToken token) :
      Respects lists.resolveUnsubscribeToken lists.toLists after.toLists ⟨operation, answer⟩ := by
    rcases recordByToken_cases lists suppressionType reason token with
      ⟨-, done⟩ | ⟨serverId, scope, address, middle, reached, found, done, suppressed, ends⟩
    · obtain ⟨rfl, rfl⟩ := Prod.mk.inj (done.symm.trans responds)
      exact .of_same rfl missed
    · obtain ⟨rfl, rfl⟩ := Prod.mk.inj (done.symm.trans responds)
      rw [ends]
      exact .of_optOut suppressed (hit.trans found)
  cases operation
  case createSuppression new =>
    have suppressed := createSuppression_suppressed lists new
    obtain rfl : (lists.createSuppression new).2 = after := congrArg Prod.snd responds
    exact .of_suppressions suppressed.same rfl (fun row member _ => suppressed.kept row member)
  case deleteSuppression serverId address =>
    obtain rfl : (lists.deleteSuppression choice serverId address).2 = after :=
      congrArg Prod.snd responds
    refine .of_suppressions ?_ rfl ?_
    · unfold MemoryLists.deleteSuppression
      split <;> rfl
    · intro row member stays
      refine deleteSuppression_kept member (Bool.eq_false_iff.mpr (fun own => ?_))
      obtain ⟨rfl, rfl⟩ := Suppression.isOf_iff.mp own
      simp [deletes] at stays
  case recordUnsubscribe token => exact byToken responds rfl rfl
  case recordComplaintByToken token => exact byToken responds rfl rfl
  case recordComplaint serverId streamId address =>
    have suppressed := createSuppression_suppressed lists
      ⟨serverId, "complaint", address, some complaintReason, some streamId⟩
    simp only [MemoryLists.respond, MemoryLists.recordComplaint, suppressOnce_ok] at responds
    obtain ⟨rfl, rfl⟩ := Prod.mk.inj responds
    exact .of_optOut suppressed rfl
  case upsertSubscription serverId streamId address status =>
    obtain ⟨rfl, rfl⟩ := Prod.mk.inj responds
    refine .of_subscriptions (Lists.upsertSubscription_suppressions ..) rfl ?_
    intro server stream text subscribed
    rcases isSubscribed_upsertSubscription subscribed with ⟨old, -⟩ | ⟨given, same⟩
    · exact .inl old
    · cases same
      exact .inr (by simp [resubscribes, given])
  case removeSubscription serverId streamId address =>
    obtain rfl : (lists.removeSubscription serverId streamId address).2 = after :=
      congrArg Prod.snd responds
    unfold MemoryLists.removeSubscription
    split
    · exact .of_subscriptions rfl rfl (fun _ _ _ subscribed =>
        .inl (isSubscribed_keepSubscriptions subscribed))
    · exact .of_same rfl rfl
  case setMessageCampaign serverId messageId campaignId =>
    obtain ⟨rfl, rfl⟩ := Prod.mk.inj responds
    refine .of_same ?_ rfl
    unfold MemoryLists.setMessageCampaign
    split_ifs <;> rfl
  all_goals
    obtain ⟨rfl, rfl⟩ := Prod.mk.inj responds
    exact .of_same rfl rfl

/-- The first suppression of an address has been deleted, and no other. -/
theorem deleteSuppression_unsuppressed_iff :
    (∀ scope, (lists.deleteSuppression choice serverId address).2.addressSuppressed serverId address
      scope = false) ↔ AtMostOne lists.toLists serverId address := by
  rw [unsuppressed_iff]
  unfold MemoryLists.deleteSuppression
  split
  · next first found =>
      have own : first.isOf serverId address = true := by simpa using List.find?_some found
      have there := List.mem_rotate.mp (List.mem_of_find?_eq_some found)
      constructor
      · intro free
        have only {row : Suppression} (member : row ∈ lists.suppressions.rows)
            (same : row.isOf serverId address = true) : row = first := by
          by_contra different
          have apart : row.id ≠ first.id := fun equal =>
            different (Table.unique member there equal)
          have kept := free row (Table.mem_keep.mpr ⟨member, decide_eq_true apart⟩)
          rw [same] at kept
          cases kept
        intro row member other another same sameToo
        rw [only member same, only another sameToo]
      · intro one row member
        obtain ⟨before, apart⟩ := Table.mem_keep.mp member
        refine Bool.eq_false_iff.mpr (fun same => of_decide_eq_true apart ?_)
        rw [one row before first there same own]
  · next absent =>
      have none_ (row : Suppression) (member : row ∈ lists.suppressions.rows) :
          row.isOf serverId address = false :=
        Bool.eq_false_iff.mpr (List.find?_eq_none.mp absent row (List.mem_rotate.mpr member))
      refine ⟨fun _ row member other _ same => ?_, fun _ => none_⟩
      rw [none_ row member] at same
      cases same

theorem memory_deleted {β : Type} {operation : Operation β} {answer : β}
    (responds : lists.respond choice operation = (answer, after))
    (done : deleted serverId address ⟨operation, answer⟩ = true) :
    (∀ scope, after.addressSuppressed serverId address scope = false) ↔
      AtMostOne lists.toLists serverId address := by
  cases operation
  case deleteSuppression server text =>
    obtain ⟨rfl, rfl⟩ := Prod.mk.inj responds
    obtain ⟨rfl, rfl⟩ : server = serverId ∧ text = address := by simpa [deleted] using done
    exact deleteSuppression_unsuppressed_iff
  all_goals cases done

end Memory

/-! ## In PostgreSQL -/

section Postgres

variable {choice : PgChoice} {tables after : PgLists}

/-- A transaction has failed and left the tables alone, or its effect has happened. -/
theorem transacted_cases {α : Type} {effect : Except StoreError (α × PgLists)}
    {answer : Except StoreError α} (responds : tables.transacted choice effect = (answer, after)) :
    (∃ error, answer = .error error ∧ after = tables) ∨
      ∃ result, answer = .ok result ∧ effect = .ok (result, after) := by
  unfold PgLists.transacted at responds
  split at responds
  · obtain ⟨rfl, rfl⟩ := Prod.mk.inj responds
    exact .inl ⟨_, rfl, rfl⟩
  · split at responds
    · obtain ⟨rfl, rfl⟩ := Prod.mk.inj responds
      exact .inl ⟨_, rfl, rfl⟩
    · obtain ⟨rfl, rfl⟩ := Prod.mk.inj responds
      exact .inr ⟨_, rfl, rfl⟩

variable {new : NewSuppression}

/-- The index has one entry for each scope, since no stream has the number of its default. -/
theorem isTaken_scope (tables : PgLists) (known : new.streamId.all tables.streams = true)
    (taken : tables.isTaken new = true) :
    ∃ row ∈ tables.suppressions.rows, row.isOf new.serverId new.address = true ∧
      row.streamId = new.streamId := by
  obtain ⟨row, member, own⟩ := List.any_eq_true.mp taken
  simp only [Bool.and_eq_true] at own
  refine ⟨row, member, own.1, ?_⟩
  have exists_ := tables.references row member
  have unused := tables.unused
  cases scope : row.streamId <;> cases given : new.streamId <;> simp_all

/-- A suppression that is there already is left alone, and another one is added. -/
theorem suppressOnce_suppressed (known : new.streamId.all tables.streams = true)
    (done : tables.suppressOnce choice new = .ok after) :
    Suppressed tables.toLists after.toLists new.serverId new.streamId new.address := by
  unfold PgLists.suppressOnce PgLists.insertSuppression at done
  split_ifs at done with taken valid
  · cases done
    exact ⟨fun _ there => there, isTaken_scope tables known taken, rfl⟩
  · cases done
    refine ⟨fun row there => List.mem_cons_of_mem _ there, ?_, rfl⟩
    exact ⟨_, List.mem_cons_self .., Suppression.isOf_iff.mpr ⟨rfl, rfl⟩, rfl⟩
  · cases done

theorem suppressOnce_streams (done : tables.suppressOnce choice new = .ok after) :
    after.streams = tables.streams := by
  unfold PgLists.suppressOnce PgLists.insertSuppression at done
  split_ifs at done <;> cases done <;> rfl

variable {row : Subscription}

theorem upsertSubscription_ok {serverId streamId : Id} {address status : Text}
    (done : tables.upsertSubscription choice serverId streamId address status = .ok (row, after)) :
    tables.streams streamId = true ∧
      after.toLists = (tables.toLists.upsertSubscription serverId streamId address status).2 := by
  unfold PgLists.upsertSubscription at done
  split_ifs at done with wrong known
  · cases done
    exact ⟨tables.streamed_of_known known, rfl⟩

/-- An opt-out of a stream that exists. -/
theorem suppressed_withdrawn {middle : PgLists} {streamId : Id}
    (scope : new.streamId = some streamId) (first : tables.suppressOnce choice new = .ok middle)
    (second : middle.upsertSubscription choice new.serverId streamId new.address
      unsubscribedStatus = .ok (row, after)) :
    Suppressed tables.toLists middle.toLists new.serverId new.streamId new.address ∧
      after.toLists = withdrawn middle.toLists new.serverId new.streamId new.address := by
  obtain ⟨stream, ends⟩ := upsertSubscription_ok second
  rw [suppressOnce_streams first] at stream
  refine ⟨suppressOnce_suppressed (by simp [scope, stream]) first, ?_⟩
  rw [ends, scope]
  rfl

/-- A token that is not known does nothing. Another one opts its address out. -/
theorem recordByToken_ok {suppressionType reason token : Text} {result : Bool}
    (done : tables.recordByToken choice suppressionType reason token = .ok (result, after)) :
    (result = false ∧ after = tables) ∨
    ∃ serverId scope address middle, result = true ∧
      tables.resolveUnsubscribeToken token = some (serverId, scope, address) ∧
      Suppressed tables.toLists middle serverId scope address ∧
      after.toLists = withdrawn middle serverId scope address := by
  unfold PgLists.recordByToken at done
  cases found : tables.resolveUnsubscribeToken token with
  | none =>
      rw [found] at done
      cases done
      exact .inl ⟨rfl, rfl⟩
  | some target =>
      right
      obtain ⟨serverId, scope, address⟩ := target
      rw [found] at done
      obtain ⟨middle, first, rest⟩ := bind_eq_ok.mp done
      cases scope with
      | none =>
          cases rest
          exact ⟨serverId, none, address, _, rfl, rfl, suppressOnce_suppressed rfl first, rfl⟩
      | some streamId =>
          obtain ⟨⟨row, last⟩, second, ended⟩ := bind_eq_ok.mp rest
          cases ended
          obtain ⟨suppressed, ends⟩ := suppressed_withdrawn rfl first second
          exact ⟨serverId, some streamId, address, _, rfl, rfl, suppressed, ends⟩

/-- What an operation in PostgreSQL does to the lists. -/
theorem postgres_respects {β : Type} {operation : Operation β} {answer : β}
    (responds : tables.respond choice operation = (answer, after)) :
    Respects tables.resolveUnsubscribeToken tables.toLists after.toLists ⟨operation, answer⟩ := by
  have byToken {suppressionType reason token : Text} {operation : Operation (Except StoreError Bool)}
      {answer : Except StoreError Bool}
      (responds : tables.transacted choice (tables.recordByToken choice suppressionType reason token) =
        (answer, after))
      (missed : ∀ error, optsOut tables.resolveUnsubscribeToken ⟨operation, .error error⟩ = none ∧
        optsOut tables.resolveUnsubscribeToken ⟨operation, .ok false⟩ = none)
      (hit : optsOut tables.resolveUnsubscribeToken ⟨operation, .ok true⟩ =
        tables.resolveUnsubscribeToken token) :
      Respects tables.resolveUnsubscribeToken tables.toLists after.toLists ⟨operation, answer⟩ := by
    obtain ⟨error, rfl, rfl⟩ | ⟨result, rfl, done⟩ := transacted_cases responds
    · exact .of_same rfl (missed error).1
    · rcases recordByToken_ok done with
        ⟨rfl, rfl⟩ | ⟨serverId, scope, address, middle, rfl, found, suppressed, ends⟩
      · exact .of_same rfl (missed alreadySuppressed).2
      · rw [ends]
        exact .of_optOut suppressed (hit.trans found)
  cases operation
  case recordUnsubscribe token => exact byToken responds (fun _ => ⟨rfl, rfl⟩) rfl
  case recordComplaintByToken token => exact byToken responds (fun _ => ⟨rfl, rfl⟩) rfl
  case insertSendOperation serverId plan idempotency =>
    obtain ⟨rfl, rfl⟩ := Prod.mk.inj responds
    exact .of_same rfl rfl
  all_goals
    simp only [PgLists.respond] at responds
    obtain ⟨error, rfl, rfl⟩ | ⟨result, rfl, done⟩ := transacted_cases responds
    · exact .of_same rfl rfl
  case createSuppression new =>
    unfold PgLists.createSuppression PgLists.insertSuppression at done
    split_ifs at done
    cases done
    exact .of_suppressions rfl rfl (fun row member _ => List.mem_cons_of_mem _ member)
  case deleteSuppression serverId address =>
    cases done
    refine .of_suppressions rfl rfl (fun row member stays => ?_)
    refine Table.mem_keep.mpr ⟨member, ?_⟩
    rw [Bool.not_eq_true']
    refine Bool.eq_false_iff.mpr (fun own => ?_)
    obtain ⟨rfl, rfl⟩ := Suppression.isOf_iff.mp own
    simp [deletes] at stays
  case createUnsubscribeToken serverId streamId address =>
    unfold PgLists.createUnsubscribeToken at done
    split_ifs at done
    cases done
    exact .of_same rfl rfl
  case recordComplaint serverId streamId address =>
    obtain ⟨middle, first, second⟩ := bind_eq_ok.mp done
    obtain ⟨suppressed, ends⟩ := suppressed_withdrawn rfl first second
    rw [ends]
    exact .of_optOut suppressed rfl
  case upsertSubscription serverId streamId address status =>
    obtain ⟨-, ends⟩ := upsertSubscription_ok done
    rw [ends]
    refine .of_subscriptions (Lists.upsertSubscription_suppressions ..) rfl ?_
    intro server stream text subscribed
    rcases isSubscribed_upsertSubscription subscribed with ⟨old, -⟩ | ⟨given, same⟩
    · exact .inl old
    · cases same
      exact .inr (by simp [resubscribes, given])
  case removeSubscription serverId streamId address =>
    cases done
    exact .of_subscriptions rfl rfl (fun _ _ _ subscribed =>
      .inl (isSubscribed_keepSubscriptions subscribed))
  case setMessageCampaign serverId messageId campaignId =>
    cases done
    refine .of_same ?_ rfl
    unfold PgLists.setMessageCampaign
    split_ifs <;> rfl
  all_goals
    cases done
    exact .of_same rfl rfl

theorem postgres_deleted {β : Type} {operation : Operation β} {answer : β} {serverId : Id}
    {address : Text} (responds : tables.respond choice operation = (answer, after))
    (done : deleted serverId address ⟨operation, answer⟩ = true) (scope : Option Id) :
    after.addressSuppressed serverId address scope = false := by
  cases operation
  case deleteSuppression server text =>
    simp only [PgLists.respond] at responds
    obtain ⟨error, rfl, rfl⟩ | ⟨found, rfl, effect⟩ := transacted_cases responds
    · cases done
    · cases effect
      obtain ⟨rfl, rfl⟩ : server = serverId ∧ text = address := by simpa [deleted] using done
      refine unsuppressed_iff.mpr (fun row member => ?_) scope
      simpa using (Table.mem_keep.mp member).2
  all_goals cases done

end Postgres

/-! ## Runs -/

/-- An operation and what it draws from outside. -/
structure Action (Choice : Type) : Type 1 where
  {β : Type}
  operation : Operation β
  choice : Choice

def memoryStep (lists : MemoryLists) (action : Action MemoryChoice) :
    Option (Answered Operation × MemoryLists) :=
  let response := lists.respond action.choice action.operation
  some (⟨action.operation, response.1⟩, response.2)

def postgresStep (tables : PgLists) (action : Action PgChoice) :
    Option (Answered Operation × PgLists) :=
  let response := tables.respond action.choice action.operation
  some (⟨action.operation, response.1⟩, response.2)

section Runs

variable {σ : Type} {Input : Type*} (view : σ → Lists)
  (resolve : σ → Text → Option (Id × Option Id × Text))

/-- Whoever has opted out in a run is suppressed at its end, unless its suppressions have been
deleted since, and is not subscribed, unless it has been subscribed again. -/
def OptOutsStay (events : List (Machine.Event σ Input (Answered Operation))) (final : σ) : Prop :=
  ∀ front event back, events = front ++ event :: back → ∀ serverId scope address,
    optsOut (resolve event.before) event.output = some (serverId, scope, address) →
    ((∀ later ∈ back, deletes serverId address later.output = false) →
      (view final).addressSuppressed serverId address scope = true) ∧
    ∀ streamId, scope = some streamId →
      (∀ later ∈ back, resubscribes serverId streamId address later.output = false) →
      (view final).isSubscribed serverId streamId address = false

variable {view resolve} {step : σ → Input → Option (Answered Operation × σ)}

/-- Opt-outs stay in every run of a store whose operations respect the lists. -/
theorem optOutsStay_of_respects
    (respects : ∀ before input output after, step before input = some (output, after) →
      Respects (resolve before) (view before) (view after) output)
    {start final : σ} {inputs : List Input}
    {events : List (Machine.Event σ Input (Answered Operation))}
    (ran : Machine.run step start inputs = some (events, final)) :
    OptOutsStay view resolve events final := by
  rintro front event back rfl serverId scope address out
  obtain ⟨reached, rest, suffix⟩ := Machine.run_suffix ran
  obtain ⟨reaction, -, others, later⟩ := Machine.run_event suffix
  have first := respects _ _ _ _ reaction
  constructor
  · intro undeleted
    obtain ⟨row, member, own, same⟩ := first.recorded serverId scope address out
    -- the row of the opt-out is there until the end
    obtain ⟨there, -⟩ := Machine.run_invariant (fun _ state => row ∈ (view state).suppressions.rows)
      (fun event => deletes serverId address event.output = false)
      (by
        intro past before input output after held stepped guard
        obtain ⟨rfl, rfl⟩ := Suppression.isOf_iff.mp own
        exact (respects _ _ _ _ stepped).kept row held guard)
      others [] event.after final back member later undeleted
    exact addressSuppressed_iff.mpr ⟨row, there, own, .inr same⟩
  · rintro streamId rfl unopened
    have shut := first.closed serverId streamId address out
    exact (Machine.run_invariant
      (fun _ state => (view state).isSubscribed serverId streamId address = false)
      (fun event => resubscribes serverId streamId address event.output = false)
      (by
        intro past before input output after held stepped guard
        refine Bool.eq_false_iff.mpr (fun subscribed => ?_)
        rcases (respects _ _ _ _ stepped).opened _ _ _ subscribed with old | opened
        · rw [held] at old
          cases old
        · rw [guard] at opened
          cases opened)
      others [] event.after final back shut later unopened).1

end Runs

/-- Opt-outs stay in both stores. When `PgStore` has deleted the suppressions of an address, it is
free again for every stream; in memory exactly if it had one suppression at most. -/
theorem opt_outs_in_force (memory : MemoryLists) (postgres : PgLists) :
    (∀ (actions : List (Action MemoryChoice))
      (events : List (Machine.Event MemoryLists (Action MemoryChoice) (Answered Operation)))
      (final : MemoryLists), Machine.run memoryStep memory actions = some (events, final) →
      OptOutsStay MemoryLists.toLists MemoryLists.resolveUnsubscribeToken events final ∧
      ∀ event ∈ events, ∀ serverId address, deleted serverId address event.output = true →
        ((∀ scope, event.after.addressSuppressed serverId address scope = false) ↔
          AtMostOne event.before.toLists serverId address)) ∧
    ∀ (actions : List (Action PgChoice))
      (events : List (Machine.Event PgLists (Action PgChoice) (Answered Operation)))
      (final : PgLists), Machine.run postgresStep postgres actions = some (events, final) →
      OptOutsStay PgLists.toLists PgLists.resolveUnsubscribeToken events final ∧
      ∀ event ∈ events, ∀ serverId address, deleted serverId address event.output = true →
        ∀ scope, event.after.addressSuppressed serverId address scope = false := by
  constructor
  · intro actions events final ran
    refine ⟨optOutsStay_of_respects ?_ ran, ?_⟩
    · intro before action output after stepped
      cases stepped
      exact memory_respects rfl
    · intro event member serverId address done
      obtain ⟨before, action, output, after⟩ := event
      have stepped : memoryStep before action = some (output, after) :=
        Machine.run_reaction ran member
      cases stepped
      exact memory_deleted rfl done
  · intro actions events final ran
    refine ⟨optOutsStay_of_respects ?_ ran, ?_⟩
    · intro before action output after stepped
      cases stepped
      exact postgres_respects rfl
    · intro event member serverId address done
      obtain ⟨before, action, output, after⟩ := event
      have stepped : postgresStep before action = some (output, after) :=
        Machine.run_reaction ran member
      cases stepped
      exact postgres_deleted rfl done

/-! ### A stream and a reader -/

def emptyMemory : MemoryLists := ⟨.empty, .empty, [], [], 1⟩

def plainMemory : MemoryChoice where
  turn := 0
  token := "token"
  now := 0
  platform := .ascii
  calendar := ⟨fun _ => 0, fun _ => ⟨1970, 1⟩⟩
  draws := ⟨0, fun _ => 0, fun _ => [], fun _ _ => [], fun _ _ => 0⟩

/-- One server with one stream. -/
def emptyPostgres : PgLists where
  toLists := .empty
  sends := .empty
  campaigns := ⟨[], [], 1⟩
  servers := fun id => id = 1
  streams := fun id => id = 7
  unused := rfl
  references := fun _ member => absurd member List.not_mem_nil
  streamed := fun _ member => absurd member List.not_mem_nil

def plainPostgres : PgChoice where
  fault := none
  violation := []
  token := "token"
  now := 0
  platform := .ascii
  first := ⟨0, 0, 0, fun _ => [], fun _ => none⟩
  again := ⟨0, 0, 0, fun _ => [], fun _ => none⟩
  rival := none

def reader : Text := "x@y.example"

/-- A reader unsubscribes with a token, and the address is suppressed for the server too. -/
def unsubscribing : List (Action MemoryChoice) :=
  [⟨.createUnsubscribeToken 1 (some 7) reader, plainMemory⟩,
    ⟨.recordUnsubscribe "token", plainMemory⟩,
    ⟨.createSuppression ⟨1, "recipient", reader, none, none⟩, plainMemory⟩]

/-- A reader complains about a stream, and the suppression of the address is deleted. -/
def pardoned : List (Action MemoryChoice) :=
  [⟨.recordComplaint 1 7 reader, plainMemory⟩, ⟨.deleteSuppression 1 reader, plainMemory⟩]

/-- An address is suppressed twice, and then its suppressions are deleted. -/
def suppressedTwice {Choice : Type} (choice : Choice) : List (Action Choice) :=
  [⟨.createSuppression ⟨1, "recipient", reader, none, none⟩, choice⟩,
    ⟨.recordComplaint 1 7 reader, choice⟩, ⟨.deleteSuppression 1 reader, choice⟩]

/-- Readers who have opted out stay out, and those whose suppressions have been deleted are free. -/
theorem opted_out_reader_stays_out :
    (∃ events final, Machine.run memoryStep emptyMemory unsubscribing = some (events, final) ∧
      final.addressSuppressed 1 reader (some 7) = true ∧ final.isSubscribed 1 7 reader = false) ∧
    (∃ events final, Machine.run memoryStep emptyMemory pardoned = some (events, final) ∧
      ∀ scope, final.addressSuppressed 1 reader scope = false) ∧
    ∃ events final, Machine.run postgresStep emptyPostgres (suppressedTwice plainPostgres) =
        some (events, final) ∧
      final.isSubscribed 1 7 reader = false ∧
      ∀ scope, final.addressSuppressed 1 reader scope = false := by
  refine ⟨?_, ?_, ?_⟩
  · have ran : Machine.run memoryStep emptyMemory unsubscribing = some (_, _) := rfl
    have stays := ((opt_outs_in_force emptyMemory emptyPostgres).1 _ _ _ ran).1 [_] _ [_] rfl 1
      (some 7) reader rfl
    refine ⟨_, _, ran, stays.1 ?_, stays.2 7 rfl ?_⟩
    · intro later member
      obtain rfl := List.mem_singleton.mp member
      rfl
    · intro later member
      obtain rfl := List.mem_singleton.mp member
      rfl
  · have ran : Machine.run memoryStep emptyMemory pardoned = some (_, _) := rfl
    refine ⟨_, _, ran, ?_⟩
    have forgotten := ((opt_outs_in_force emptyMemory emptyPostgres).1 _ _ _ ran).2
    apply (forgotten _ (List.mem_cons_of_mem _ (List.mem_cons_self ..)) 1 reader
      (by decide)).mpr
    intro row member other another _ _
    rw [List.mem_singleton.mp member, List.mem_singleton.mp another]
  · have ran : Machine.run postgresStep emptyPostgres (suppressedTwice plainPostgres) =
        some (_, _) := rfl
    have holds := (opt_outs_in_force emptyMemory emptyPostgres).2 _ _ _ ran
    refine ⟨_, _, ran, (holds.1 [_] _ [_] rfl 1 (some 7) reader rfl).2 7 rfl ?_, ?_⟩
    · intro later member
      obtain rfl := List.mem_singleton.mp member
      rfl
    · exact holds.2 _ (List.mem_cons_of_mem _ (List.mem_cons_of_mem _ (List.mem_cons_self ..))) 1
        reader (by decide)

/-- An address that is suppressed for the server and has complained about a stream keeps one of its
suppressions in memory when they are deleted. -/
theorem deleted_address_still_suppressed :
    ∃ events final, Machine.run memoryStep emptyMemory (suppressedTwice plainMemory) =
        some (events, final) ∧
      events.getLast?.any (fun event => deleted 1 reader event.output) = true ∧
      final.addressSuppressed 1 reader none = true ∧
      final.addressSuppressed 1 reader (some 7) = true := by
  refine ⟨_, _, rfl, ?_, ?_, ?_⟩
  · decide
  · decide
  · decide

end Camelmailer.Api.OptOuts
