import Camelmailer.Core.Model
import Mathlib.Data.Finset.Card
import Mathlib.Data.Finset.Image

/-!
# Removing old messages from the in-memory store

`prune_messages_before` of `camelmailer-core/src/store.rs` removes the messages that were created before
a point in time, together with what belongs to them. Seven collections refer to messages by their
identifiers: those of the deliveries, the opens, the clicks, the campaigns and the share links, and the
messages themselves, of which a bounce refers to the message that bounced.

A message gets its identifier from a counter, so no two messages have the same one.
-/

namespace Camelmailer.Retention

open Utf8

/-! ## The collections -/

/-- A `MessageRecord`. The other columns are neither read nor written here. -/
structure Message (Columns : Type) where
  id : Nat
  createdAt : DateTime
  bounceForId : Option Nat
  columns : Columns
deriving DecidableEq

structure MessageShare where
  id : Nat
  serverId : Id
  messageId : Nat
  tokenHash : Text
  expiresAt : DateTime
  createdAt : DateTime
deriving DecidableEq

/-- The collections of `MemoryStoreInner` that refer to messages, and the next identifier. -/
structure Tables (Columns Delivery Event : Type) where
  messages : List (Message Columns)
  messageDeliveries : List (Nat × Delivery)
  messageOpens : List (Nat × Event)
  messageClicks : List (Nat × Event)
  messageCampaigns : Nat → Option Id
  messageShares : List MessageShare
  nextId : Nat
  distinct : (messages.map Message.id).Nodup
  below : ∀ message ∈ messages, message.id < nextId

section Store

variable {Columns Delivery Event : Type}

namespace Tables

variable (tables : Tables Columns Delivery Event)

/-- The end of `insert_message_record` and of `import_message`: a message is stored under the next
identifier. -/
def insertMessage (createdAt : DateTime) (columns : Columns) : Tables Columns Delivery Event :=
  { tables with
    messages := tables.messages ++ [⟨tables.nextId, createdAt, none, columns⟩]
    nextId := tables.nextId + 1
    distinct := by
      rw [List.map_append, List.nodup_append]
      refine ⟨tables.distinct, List.nodup_singleton _, fun id member other single same => ?_⟩
      obtain ⟨message, stored, rfl⟩ := List.mem_map.mp member
      rw [List.map_singleton, List.mem_singleton] at single
      exact absurd (same.trans single) (Nat.ne_of_lt (tables.below message stored))
    below := by
      intro message member
      rcases List.mem_append.mp member with stored | new
      · exact Nat.lt_succ_of_lt (tables.below message stored)
      · rw [List.mem_singleton.mp new]
        exact Nat.lt_succ_self _ }

def insertMessageShare (serverId : Id) (messageId : Nat) (tokenHash : Text)
    (expiresAt createdAt : DateTime) : Tables Columns Delivery Event :=
  { tables with
    messageShares := tables.messageShares ++
      [⟨tables.nextId, serverId, messageId, tokenHash, expiresAt, createdAt⟩]
    nextId := tables.nextId + 1
    below := fun message member => Nat.lt_succ_of_lt (tables.below message member) }

/-- The identifiers of the messages that were created before a point in time. -/
def expired (olderThan : DateTime) : Finset Nat :=
  ((tables.messages.filter (fun message => message.createdAt < olderThan)).map Message.id).toFinset

end Tables

/-- A bounce of a message that is removed no longer refers to it. -/
def Message.unlinked (removed : Finset Nat) (message : Message Columns) : Message Columns :=
  if message.bounceForId.any (· ∈ removed) then { message with bounceForId := none } else message

@[simp] theorem Message.unlinked_id (removed : Finset Nat) (message : Message Columns) :
    (message.unlinked removed).id = message.id := by
  unfold Message.unlinked
  split <;> rfl

/-- What is left of the messages. -/
def remaining (removed : Finset Nat) (messages : List (Message Columns)) : List (Message Columns) :=
  (messages.map (Message.unlinked removed)).filter (fun message => message.id ∉ removed)

theorem remaining_ids (removed : Finset Nat) (messages : List (Message Columns)) :
    ((remaining removed messages).map Message.id).Sublist (messages.map Message.id) := by
  have same : (messages.map (Message.unlinked removed)).map Message.id = messages.map Message.id := by
    simp [Function.comp_def]
  rw [← same]
  exact List.filter_sublist.map _

/-- The tables without some messages and what belongs to them. -/
def Tables.without (removed : Finset Nat) (tables : Tables Columns Delivery Event) :
    Tables Columns Delivery Event :=
  { tables with
    messages := remaining removed tables.messages
    messageDeliveries := tables.messageDeliveries.filter (fun row => row.1 ∉ removed)
    messageOpens := tables.messageOpens.filter (fun row => row.1 ∉ removed)
    messageClicks := tables.messageClicks.filter (fun row => row.1 ∉ removed)
    messageCampaigns := fun id => if id ∈ removed then none else tables.messageCampaigns id
    distinct := (remaining_ids removed tables.messages).nodup tables.distinct
    below := by
      intro message member
      have stored := (remaining_ids removed tables.messages).subset (List.mem_map_of_mem member)
      obtain ⟨own, among, same⟩ := List.mem_map.mp stored
      rw [← same]
      exact tables.below own among }

/-- `prune_messages_before`: how many messages have been removed, and what is left. -/
def Tables.pruneMessagesBefore (olderThan : DateTime) (tables : Tables Columns Delivery Event) :
    Nat × Tables Columns Delivery Event :=
  let expired := tables.expired olderThan
  if expired = ∅ then (0, tables) else (expired.card, tables.without expired)

/-! ## What must hold afterwards -/

/-- No row refers to a message that has been removed. -/
structure NothingDangling (removed : Finset Nat) (tables : Tables Columns Delivery Event) : Prop where
  deliveries : ∀ row ∈ tables.messageDeliveries, row.1 ∉ removed
  opens : ∀ row ∈ tables.messageOpens, row.1 ∉ removed
  clicks : ∀ row ∈ tables.messageClicks, row.1 ∉ removed
  campaigns : ∀ id ∈ removed, tables.messageCampaigns id = none
  bounces : ∀ message ∈ tables.messages, ∀ original ∈ message.bounceForId, original ∉ removed
  shares : ∀ share ∈ tables.messageShares, share.messageId ∉ removed

/-- The messages from before a point in time are removed. What belongs to the others is as it was,
apart from the bounces of messages that have been removed. -/
structure OthersKept (olderThan : DateTime) (before after : Tables Columns Delivery Event) : Prop where
  messages : after.messages =
    (before.messages.filter (fun message => olderThan ≤ message.createdAt)).map
      (Message.unlinked (before.expired olderThan))
  deliveries : after.messageDeliveries.filter (fun row => row.1 ∉ before.expired olderThan) =
    before.messageDeliveries.filter (fun row => row.1 ∉ before.expired olderThan)
  opens : after.messageOpens.filter (fun row => row.1 ∉ before.expired olderThan) =
    before.messageOpens.filter (fun row => row.1 ∉ before.expired olderThan)
  clicks : after.messageClicks.filter (fun row => row.1 ∉ before.expired olderThan) =
    before.messageClicks.filter (fun row => row.1 ∉ before.expired olderThan)
  campaigns : ∀ id, id ∉ before.expired olderThan →
    after.messageCampaigns id = before.messageCampaigns id
  shares : after.messageShares.filter (fun share => share.messageId ∉ before.expired olderThan) =
    before.messageShares.filter (fun share => share.messageId ∉ before.expired olderThan)

section Pruning

variable {olderThan : DateTime} {tables : Tables Columns Delivery Event}

theorem Tables.mem_expired {id : Nat} :
    id ∈ tables.expired olderThan ↔
      ∃ message ∈ tables.messages, message.createdAt < olderThan ∧ message.id = id := by
  simp [Tables.expired, and_assoc]

/-- No two messages have the same identifier. -/
theorem Tables.same_message {one other : Message Columns} (first : one ∈ tables.messages)
    (second : other ∈ tables.messages) (same : one.id = other.id) : one = other :=
  List.inj_on_of_nodup_map tables.distinct first second same

/-- A stored message is removed if it is from before. -/
theorem Tables.id_mem_expired {message : Message Columns} (stored : message ∈ tables.messages) :
    message.id ∈ tables.expired olderThan ↔ message.createdAt < olderThan := by
  rw [Tables.mem_expired]
  constructor
  · rintro ⟨other, among, early, same⟩
    rwa [← tables.same_message among stored same]
  · intro early
    exact ⟨message, stored, early, rfl⟩

/-- As many identifiers are counted as messages are removed. -/
theorem Tables.card_expired : (tables.expired olderThan).card =
    (tables.messages.filter (fun message => message.createdAt < olderThan)).length := by
  rw [Tables.expired, List.toFinset_card_of_nodup, List.length_map]
  exact (List.filter_sublist.map _).nodup tables.distinct

theorem remaining_eq : remaining (tables.expired olderThan) tables.messages =
    (tables.messages.filter (fun message => olderThan ≤ message.createdAt)).map
      (Message.unlinked (tables.expired olderThan)) := by
  rw [remaining, List.filter_map]
  refine congrArg _ (List.filter_congr (fun message stored => ?_))
  have early : message.id ∈ tables.expired olderThan ↔ message.createdAt < olderThan :=
    Tables.id_mem_expired stored
  rw [Function.comp_apply, Message.unlinked_id, decide_eq_decide, early, not_lt]

theorem bounceForId_unlinked {removed : Finset Nat} {message : Message Columns} {original : Nat}
    (refers : original ∈ (message.unlinked removed).bounceForId) : original ∉ removed := by
  unfold Message.unlinked at refers
  split at refers
  · exact absurd refers (Option.not_mem_none _)
  · next other =>
      intro among
      refine other ?_
      rw [Option.mem_def.mp refers]
      exact decide_eq_true among

/-- A message that refers to nothing that is removed stays as it is. -/
theorem unlinked_of_not_mem {removed : Finset Nat} {message : Message Columns}
    (kept : ∀ original ∈ message.bounceForId, original ∉ removed) : message.unlinked removed = message := by
  rw [Message.unlinked, if_neg]
  intro refers
  cases given : message.bounceForId with
  | none =>
      rw [given] at refers
      exact Bool.false_ne_true refers
  | some original =>
      rw [given] at refers
      exact kept original given (of_decide_eq_true refers)

/-! ## What pruning does -/

theorem Tables.without_nothing (tables : Tables Columns Delivery Event) : tables.without ∅ = tables := by
  have linked : @Message.unlinked Columns ∅ = id :=
    funext (fun message => unlinked_of_not_mem (fun _ _ => Finset.notMem_empty _))
  unfold Tables.without remaining
  simp [linked]

/-- If there is nothing to remove, nothing is. -/
theorem Tables.pruneMessagesBefore_eq (olderThan : DateTime) (tables : Tables Columns Delivery Event) :
    tables.pruneMessagesBefore olderThan =
      ((tables.expired olderThan).card, tables.without (tables.expired olderThan)) := by
  unfold Tables.pruneMessagesBefore
  dsimp only
  split
  · next nothing => rw [nothing, Tables.without_nothing, Finset.card_empty]
  · rfl

/-- What is left is not from before. -/
theorem Tables.expired_without (olderThan : DateTime) (tables : Tables Columns Delivery Event) :
    (tables.without (tables.expired olderThan)).expired olderThan = ∅ := by
  rw [Finset.eq_empty_iff_forall_notMem]
  intro id among
  obtain ⟨message, stored, early, -⟩ := Tables.mem_expired.mp among
  have left : message ∈ remaining (tables.expired olderThan) tables.messages := stored
  rw [remaining_eq] at left
  obtain ⟨own, kept, rfl⟩ := List.mem_map.mp left
  have late := of_decide_eq_true (List.mem_filter.mp kept).2
  have same : (own.unlinked (tables.expired olderThan)).createdAt = own.createdAt := by
    unfold Message.unlinked
    split <;> rfl
  rw [same] at early
  exact absurd early (not_lt.mpr late)

/-- Rows of messages that are left are not touched. -/
theorem filter_filter_not_mem {Row : Type} (removed : Finset Nat) (idOf : Row → Nat) (rows : List Row) :
    (rows.filter (fun row => idOf row ∉ removed)).filter (fun row => idOf row ∉ removed) =
      rows.filter (fun row => idOf row ∉ removed) := by
  simp

theorem othersKept_without (olderThan : DateTime) (tables : Tables Columns Delivery Event) :
    OthersKept olderThan tables (tables.without (tables.expired olderThan)) where
  messages := remaining_eq
  deliveries := filter_filter_not_mem _ Prod.fst tables.messageDeliveries
  opens := filter_filter_not_mem _ Prod.fst tables.messageOpens
  clicks := filter_filter_not_mem _ Prod.fst tables.messageClicks
  campaigns := fun _ kept => if_neg kept
  shares := rfl

/-- Nothing but a share link can be left dangling. -/
theorem nothingDangling_without (removed : Finset Nat) (tables : Tables Columns Delivery Event)
    (shares : ∀ share ∈ tables.messageShares, share.messageId ∉ removed) :
    NothingDangling removed (tables.without removed) where
  deliveries := fun _ member => of_decide_eq_true (List.mem_filter.mp member).2
  opens := fun _ member => of_decide_eq_true (List.mem_filter.mp member).2
  clicks := fun _ member => of_decide_eq_true (List.mem_filter.mp member).2
  campaigns := fun _ among => if_pos among
  bounces := by
    intro message member original refers
    obtain ⟨own, -, rfl⟩ := List.mem_map.mp (List.mem_filter.mp member).1
    exact bounceForId_unlinked refers
  shares := shares

end Pruning

/-- The messages from before a point in time, with everything that belongs to them, are removed if
and only if there is no share link of one of them. -/
theorem retention_leaves_nothing (olderThan : DateTime) (tables : Tables Columns Delivery Event) :
    (NothingDangling (tables.expired olderThan) (tables.pruneMessagesBefore olderThan).2 ∧
        OthersKept olderThan tables (tables.pruneMessagesBefore olderThan).2 ∧
        (tables.pruneMessagesBefore olderThan).1 =
          (tables.messages.filter (fun message => message.createdAt < olderThan)).length ∧
        (tables.pruneMessagesBefore olderThan).2.pruneMessagesBefore olderThan =
          (0, (tables.pruneMessagesBefore olderThan).2)) ↔
      ∀ share ∈ tables.messageShares, ∀ message ∈ tables.messages,
        message.createdAt < olderThan → share.messageId ≠ message.id := by
  rw [Tables.pruneMessagesBefore_eq]
  constructor
  · rintro ⟨nothing, -⟩ share member message stored early same
    exact nothing.shares share member (same ▸ (Tables.id_mem_expired stored).mpr early)
  · intro unshared
    have shares : ∀ share ∈ tables.messageShares, share.messageId ∉ tables.expired olderThan := by
      intro share member among
      obtain ⟨message, stored, early, same⟩ := Tables.mem_expired.mp among
      exact unshared share member message stored early same.symm
    refine ⟨nothingDangling_without _ tables shares, othersKept_without olderThan tables,
      Tables.card_expired, ?_⟩
    rw [Tables.pruneMessagesBefore_eq, Tables.expired_without, Finset.card_empty,
      Tables.without_nothing]

end Store

/-- Tables without any rows. -/
def empty : Tables Unit Unit Unit where
  messages := []
  messageDeliveries := []
  messageOpens := []
  messageClicks := []
  messageCampaigns := fun _ => none
  messageShares := []
  nextId := 1
  distinct := List.nodup_nil
  below := fun _ member => absurd member List.not_mem_nil

/-- A message and a link to it. -/
def shared : Tables Unit Unit Unit :=
  (empty.insertMessage 0 ()).insertMessageShare 7 1 "hash" 100 0

/-- The link outlives the message. -/
theorem share_of_removed_message :
    shared.messages.map Message.id = [1] ∧
      (shared.pruneMessagesBefore 10).2.messages = [] ∧
      (shared.pruneMessagesBefore 10).2.messageShares.map MessageShare.messageId = [1] ∧
      ¬ NothingDangling (shared.expired 10) (shared.pruneMessagesBefore 10).2 := by
  refine ⟨by decide, by decide, by decide, fun nothing => ?_⟩
  exact nothing.shares ⟨2, 7, 1, "hash", 100, 0⟩ (by decide) (by decide)

end Camelmailer.Retention
