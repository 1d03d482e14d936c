import Mathlib.Algebra.Group.Nat.Defs
import Mathlib.Data.List.Basic
import Mathlib.Data.Set.Basic

/-!
# Choosing the longest match

A block is the set of all words that begin with the same bits. Two blocks with a word in common
are nested, and the one that fixes more bits is the inner one.

A search in a list that has been sorted stably by descending length finds the item of greatest
length, and among those of equal length the one that came first.
-/

namespace Camelmailer.LongestMatch

/-! ## Blocks -/

/-- Agreement in the bits from some position on. -/
theorem shiftRight_eq {width count : Nat} {first second : BitVec width} :
    first >>> count = second >>> count ↔
      ∀ index, count ≤ index → first.getLsbD index = second.getLsbD index := by
  constructor
  · intro same index bound
    have bit : (first >>> count).getLsbD (index - count) =
        (second >>> count).getLsbD (index - count) := by rw [same]
    rw [BitVec.getLsbD_ushiftRight, BitVec.getLsbD_ushiftRight, Nat.add_sub_cancel' bound] at bit
    exact bit
  · intro agree
    refine BitVec.eq_of_getLsbD_eq (fun index _ => ?_)
    rw [BitVec.getLsbD_ushiftRight, BitVec.getLsbD_ushiftRight]
    exact agree _ (Nat.le_add_right ..)

/-- A word agrees with a base in the bits that a mask leaves. -/
theorem and_mask_iff {width count : Nat} {word base : BitVec width} :
    word &&& (BitVec.allOnes width <<< count) = base <<< count ↔
      word >>> count = (base <<< count) >>> count := by
  rw [shiftRight_eq]
  have masked (index : Nat) (within : index < width) :
      (word &&& (BitVec.allOnes width <<< count)).getLsbD index =
        (word.getLsbD index && !decide (index < count)) := by
    rw [BitVec.getLsbD_and, BitVec.getLsbD_shiftLeft, BitVec.getLsbD_allOnes]
    have bound : index - count < width := Nat.lt_of_le_of_lt (Nat.sub_le _ _) within
    simp [within, bound]
  constructor
  · intro same index bound
    by_cases within : index < width
    · rw [← same, masked index within, decide_eq_false (Nat.not_lt.mpr bound), Bool.not_false,
        Bool.and_true]
    · rw [BitVec.getLsbD_of_ge _ _ (Nat.le_of_not_lt within),
        BitVec.getLsbD_of_ge _ _ (Nat.le_of_not_lt within)]
  · intro agree
    refine BitVec.eq_of_getLsbD_eq (fun index within => ?_)
    rw [masked index within]
    by_cases low : index < count
    · simp [low]
    · rw [decide_eq_false low, Bool.not_false, Bool.and_true, agree index (Nat.le_of_not_lt low)]

/-- The words of a width that agree with a base in their first bits. -/
structure Block (width : Nat) where
  base : BitVec width
  length : Nat
  length_le : length ≤ width

namespace Block

variable {width : Nat}

def words (block : Block width) : Set (BitVec width) :=
  { word | word >>> (width - block.length) = block.base >>> (width - block.length) }

theorem base_mem (block : Block width) : block.base ∈ block.words := rfl

variable {word : BitVec width} {block : Block width}

/-- Membership, bit by bit. -/
theorem mem_words :
    word ∈ block.words ↔ ∀ index, width - block.length ≤ index →
      word.getLsbD index = block.base.getLsbD index :=
  shiftRight_eq

/-- Membership, as an equation between quotients. -/
theorem mem_words_div :
    word ∈ block.words ↔ word.toNat / 2 ^ (width - block.length) =
      block.base.toNat / 2 ^ (width - block.length) := by
  rw [words, Set.mem_ofPred_eq, ← BitVec.toNat_inj, BitVec.toNat_ushiftRight,
    BitVec.toNat_ushiftRight, Nat.shiftRight_eq_div_pow, Nat.shiftRight_eq_div_pow]

/-- Of two blocks with a word in common, the one that fixes at least as many bits is inside the
other. -/
theorem words_subset {inner outer : Block width} (inside : word ∈ inner.words)
    (outside : word ∈ outer.words) (longer : outer.length ≤ inner.length) :
    inner.words ⊆ outer.words := by
  intro other member
  rw [mem_words] at inside outside member ⊢
  intro index bound
  have covered : width - inner.length ≤ index := by omega
  rw [member index covered, ← inside index covered]
  exact outside index bound

/-- A block inside another fixes at least as many bits. -/
theorem length_le_of_subset {inner outer : Block width} (nested : inner.words ⊆ outer.words) :
    outer.length ≤ inner.length := by
  by_contra shorter
  have bound := outer.length_le
  -- the base with the first bit flipped that the inner block leaves open
  have member : inner.base ^^^ BitVec.twoPow width (width - outer.length) ∈ inner.words := by
    rw [mem_words]
    intro index covered
    have different : width - outer.length ≠ index := by omega
    simp [different]
  have agreed := mem_words.mp (nested member) (width - outer.length) (Nat.le_refl _)
  have based := mem_words.mp (nested inner.base_mem) (width - outer.length) (Nat.le_refl _)
  have position : width - outer.length < width := by omega
  rw [← based, BitVec.getLsbD_xor, BitVec.getLsbD_twoPow] at agreed
  simp [position] at agreed

end Block

/-! ## The first of the longest -/

section Search

variable {Item : Type*} (length : Item → Nat) (matching : Item → Bool) {items : List Item}

/-- An item with its position comes first in a stable sort by descending length. -/
theorem first_longest {found : Item}
    (search : (items.mergeSort (fun first second => decide (length second ≤ length first))).find?
      matching = some found) :
    matching found = true ∧ ∃ index : Nat, items[index]? = some found ∧
      ∀ other item, items[other]? = some item → matching item = true →
        length item < length found ∨ (length item = length found ∧ index ≤ other) := by
  rw [← List.mergeSort_zipIdx, List.find?_map] at search
  obtain ⟨⟨found, index⟩, searched, rfl⟩ := Option.map_eq_some_iff.mp search
  obtain ⟨matches_, earlier, later, split, skipped⟩ := List.find?_eq_some_iff_append.mp searched
  have sorted : (items.zipIdx.mergeSort (List.zipIdxLE (fun first second =>
      decide (length second ≤ length first)))).Pairwise (fun first second =>
        List.zipIdxLE (fun first second => decide (length second ≤ length first)) first second) := by
    refine List.pairwise_mergeSort (List.zipIdxLE_trans ?_) (List.zipIdxLE_total ?_) _
    · simp only [decide_eq_true_eq]
      omega
    · simp only [Bool.or_eq_true, decide_eq_true_eq]
      omega
  have sorting {item : Item} {position : Nat} :
      items[position]? = some item ↔ (item, position) ∈ items.zipIdx.mergeSort (List.zipIdxLE
        (fun first second => decide (length second ≤ length first))) := by
    rw [List.mem_mergeSort, List.mem_zipIdx_iff_getElem?]
  refine ⟨matches_, index, sorting.mpr (split ▸ by simp), ?_⟩
  dsimp only
  intro other item placed meets
  have member := sorting.mp placed
  rw [split] at member sorted
  rcases List.mem_append.mp member with before | rest
  · have refused := skipped _ before
    simp [meets] at refused
  rcases List.mem_cons.mp rest with same | after
  · obtain ⟨rfl, rfl⟩ := Prod.mk.inj same
    exact .inr ⟨rfl, Nat.le_refl _⟩
  · have ordered := List.rel_of_pairwise_cons (List.pairwise_append.mp sorted).2.1 after
    unfold List.zipIdxLE at ordered
    split_ifs at ordered with longer equal
    · simp only [decide_eq_true_eq] at longer equal ordered
      exact .inr ⟨by omega, ordered⟩
    · simp only [decide_eq_true_eq] at longer equal
      exact .inl (by omega)

theorem none_longest :
    (items.mergeSort (fun first second => decide (length second ≤ length first))).find?
      matching = none ↔ ∀ item ∈ items, matching item = false := by
  simp [List.find?_eq_none]

end Search

end Camelmailer.LongestMatch
