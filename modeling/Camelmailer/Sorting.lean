import Mathlib.Data.List.Sort
import Mathlib.Order.Lattice

/-!
# Sorting by a key

A stable sort by a key in a linear order. What is found first in the sorted list has the least key
of all that match. An item is among the first few if few enough come up to it; where the keys are
distinct, if and only if fewer are before it.
-/

namespace Camelmailer.Sorting

variable {Item Key : Type*} [LinearOrder Key] (key : Item → Key)

/-- A stable sort by a key. -/
def sortByKey (items : List Item) : List Item :=
  items.insertionSort (fun first second => key first ≤ key second)

variable {key} {items : List Item} {item : Item} {count : Nat}

@[simp] theorem mem_sortByKey : item ∈ sortByKey key items ↔ item ∈ items := List.mem_insertionSort _

variable (key items) in
theorem perm_sortByKey : (sortByKey key items).Perm items := List.perm_insertionSort _ _

variable (key items) in
theorem sortByKey_sorted :
    (sortByKey key items).Pairwise (fun first second => key first ≤ key second) := by
  have total : Std.Total (fun first second : Item => key first ≤ key second) :=
    ⟨fun _ _ => le_total _ _⟩
  have trans : IsTrans Item (fun first second => key first ≤ key second) :=
    ⟨fun _ _ _ => le_trans⟩
  exact List.pairwise_insertionSort _ _

/-- The first result in the order of the keys comes from an item with the least key of all items
that have a result. -/
theorem findSome_sortByKey {Result : Type*} {search : Item → Option Result} {result : Result}
    (found : (sortByKey key items).findSome? search = some result) :
    ∃ item ∈ items, search item = some result ∧
      ∀ other ∈ items, (search other).isSome = true → key item ≤ key other := by
  obtain ⟨before, item, after, split, own, skipped⟩ := List.findSome?_eq_some_iff.mp found
  have ordered := sortByKey_sorted key items
  rw [split] at ordered
  have member : item ∈ sortByKey key items := by simp [split]
  refine ⟨item, mem_sortByKey.mp member, own, ?_⟩
  intro other member finds
  have sorted : other ∈ sortByKey key items := mem_sortByKey.mpr member
  rw [split] at sorted
  rcases List.mem_append.mp sorted with earlier | rest
  · simp [skipped other earlier] at finds
  rcases List.mem_cons.mp rest with rfl | later
  · exact le_refl _
  · exact List.rel_of_pairwise_cons (List.pairwise_append.mp ordered).2.1 later

/-- The first item has the least key. -/
theorem head_sortByKey (first : (sortByKey key items).head? = some item) :
    item ∈ items ∧ ∀ other ∈ items, key item ≤ key other := by
  obtain ⟨rest, split⟩ := List.head?_eq_some_iff.mp first
  have ordered := sortByKey_sorted key items
  have member : item ∈ sortByKey key items := by simp [split]
  rw [split] at ordered
  refine ⟨mem_sortByKey.mp member, ?_⟩
  intro other there
  have sorted : other ∈ sortByKey key items := mem_sortByKey.mpr there
  rw [split] at sorted
  rcases List.mem_cons.mp sorted with rfl | later
  · exact le_refl _
  · exact List.rel_of_pairwise_cons ordered later

/-- An item that no more than some items come up to is among as many first ones. -/
theorem mem_take_sortByKey (member : item ∈ items)
    (few : items.countP (fun other => key other ≤ key item) ≤ count) :
    item ∈ (sortByKey key items).take count := by
  have ordered := sortByKey_sorted key items
  have counted := (perm_sortByKey key items).countP_eq
    (fun other => decide (key other ≤ key item))
  have sorted : item ∈ sortByKey key items := mem_sortByKey.mpr member
  rw [← List.take_append_drop count (sortByKey key items)] at sorted ordered counted
  rcases List.mem_append.mp sorted with taken | left
  · exact taken
  · have below : ∀ other ∈ (sortByKey key items).take count, key other ≤ key item :=
      fun other taken => (List.pairwise_append.mp ordered).2.2 other taken item left
    have all : ((sortByKey key items).take count).countP (fun other => key other ≤ key item) =
        ((sortByKey key items).take count).length :=
      List.countP_eq_length.mpr (by simpa using below)
    have own : 0 < ((sortByKey key items).drop count).countP
        (fun other => key other ≤ key item) :=
      List.countP_pos_iff.mpr ⟨item, left, by simp⟩
    have long : count < (sortByKey key items).length := by
      by_contra short
      rw [List.drop_eq_nil_of_le (by omega)] at left
      simp at left
    rw [List.countP_append, all, List.length_take] at counted
    omega

/-- An item behind as many others is not among the first ones. -/
theorem not_mem_take_sortByKey (many : count ≤ items.countP (fun other => key other < key item)) :
    item ∉ (sortByKey key items).take count := by
  intro taken
  have ordered := sortByKey_sorted key items
  have counted := (perm_sortByKey key items).countP_eq
    (fun other => decide (key other < key item))
  rw [← List.take_append_drop count (sortByKey key items)] at ordered counted
  have none_left : ((sortByKey key items).drop count).countP (fun other => key other < key item) =
      0 := by
    rw [List.countP_eq_zero]
    intro other left
    simpa using (List.pairwise_append.mp ordered).2.2 item taken other left
  have some_else : ((sortByKey key items).take count).countP (fun other => key other < key item) <
      ((sortByKey key items).take count).length := by
    refine Nat.lt_of_le_of_ne List.countP_le_length ?_
    intro all
    simpa using List.countP_eq_length.mp all item taken
  have bound := List.length_take_le count (sortByKey key items)
  rw [List.countP_append] at counted
  omega

section Distinct

variable (distinct : (items.map key).Nodup)

include distinct

theorem sortByKey_strictSorted :
    (sortByKey key items).Pairwise (fun first second => key first < key second) := by
  have apart : ((sortByKey key items).map key).Nodup :=
    ((perm_sortByKey key items).map key).nodup_iff.mpr distinct
  rw [List.nodup_iff_pairwise_ne, List.pairwise_map] at apart
  exact ((sortByKey_sorted key items).and apart).imp (fun both => lt_of_le_of_ne both.1 both.2)

/-- Apart from an item itself, those that come up to it are before it. -/
theorem countP_le_key : items.countP (fun other => key other ≤ key item) ≤
    items.countP (fun other => key other < key item) + 1 := by
  induction items with
  | nil => exact Nat.zero_le _
  | cons first items ih =>
      rw [List.map_cons, List.nodup_cons] at distinct
      rw [List.countP_cons, List.countP_cons]
      rcases lt_trichotomy (key first) (key item) with before | same | behind
      · simp only [before, before.le, decide_true]
        exact Nat.add_le_add_right (ih distinct.2) 1
      · have others : items.countP (fun other => key other ≤ key item) =
            items.countP (fun other => key other < key item) := by
          refine List.countP_congr (fun other member => ?_)
          simp only [decide_eq_true_eq]
          refine (lt_iff_le_and_ne.trans (and_iff_left ?_)).symm
          exact fun equal => distinct.1 (same ▸ equal ▸ List.mem_map_of_mem member)
        simp [same, others]
      · simp only [not_le.mpr behind, not_lt.mpr behind.le]
        exact ih distinct.2

/-- Among the first items are those that fewer are before. -/
theorem mem_take_sortByKey_iff (member : item ∈ items) :
    item ∈ (sortByKey key items).take count ↔
      items.countP (fun other => key other < key item) < count := by
  constructor
  · intro taken
    by_contra many
    exact not_mem_take_sortByKey (Nat.not_lt.mp many) taken
  · intro few
    exact mem_take_sortByKey member ((countP_le_key distinct).trans few)

end Distinct

end Camelmailer.Sorting
