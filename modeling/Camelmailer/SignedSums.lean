import Mathlib.Algebra.Order.BigOperators.Group.List
import Mathlib.Algebra.Order.Ring.Int
import Mathlib.Data.List.Nodup

/-!
# Sums with signs, in any order

What some of the values of a list add up to lies between the sum of the negative ones and the sum of the
positive ones. In some order of the values each of these two sums is reached. So a running sum stays
inside of bounds in every order if and only if both are inside.

A list of values under keys can be added up key by key.
-/

namespace Camelmailer.SignedSums

/-! ## Bounds -/

/-- The sum of the positive values. -/
def positiveTotal (values : List Int) : Int := (values.map (max 0)).sum

/-- The sum of the negative values. -/
def negativeTotal (values : List Int) : Int := (values.map (min 0)).sum

section Bounds

variable {some_ values others : List Int}

@[simp] theorem positiveTotal_append :
    positiveTotal (values ++ others) = positiveTotal values + positiveTotal others := by
  simp [positiveTotal]

@[simp] theorem negativeTotal_append :
    negativeTotal (values ++ others) = negativeTotal values + negativeTotal others := by
  simp [negativeTotal]

theorem positiveTotal_nonneg (values : List Int) : 0 ≤ positiveTotal values :=
  List.sum_nonneg (by simp)

theorem negativeTotal_nonpos (values : List Int) : negativeTotal values ≤ 0 := by
  induction values with
  | nil => exact Int.le_refl 0
  | cons value values ih =>
      exact Int.add_nonpos (min_le_left 0 value) ih

/-- What some of the values add up to. -/
theorem sum_within (among : some_.Sublist values) :
    negativeTotal values ≤ some_.sum ∧ some_.sum ≤ positiveTotal values := by
  induction among with
  | slnil => exact ⟨Int.le_refl 0, Int.le_refl 0⟩
  | @cons left right value among ih =>
      have high := le_max_left 0 value
      simp only [negativeTotal, positiveTotal, List.map_cons, List.sum_cons] at *
      omega
  | @cons_cons left right value among ih =>
      simp only [negativeTotal, positiveTotal, List.map_cons, List.sum_cons] at *
      omega

/-- The positive values add up to their total. -/
theorem sum_positive (values : List Int) :
    (values.filter (fun value => 0 < value)).sum = positiveTotal values := by
  induction values with
  | nil => rfl
  | cons value values ih =>
      rw [positiveTotal, List.map_cons, List.sum_cons, ← positiveTotal, ← ih]
      by_cases positive : 0 < value
      · rw [List.filter_cons_of_pos (by simpa using positive), List.sum_cons,
          max_eq_right (Int.le_of_lt positive)]
      · rw [List.filter_cons_of_neg (by simpa using positive), max_eq_left (Int.not_lt.mp positive),
          Int.zero_add]

theorem sum_negative (values : List Int) :
    (values.filter (fun value => value < 0)).sum = negativeTotal values := by
  induction values with
  | nil => rfl
  | cons value values ih =>
      rw [negativeTotal, List.map_cons, List.sum_cons, ← negativeTotal, ← ih]
      by_cases negative : value < 0
      · rw [List.filter_cons_of_pos (by simpa using negative), List.sum_cons,
          min_eq_right (Int.le_of_lt negative)]
      · rw [List.filter_cons_of_neg (by simpa using negative), min_eq_left (Int.not_lt.mp negative),
          Int.zero_add]

/-- Where no number is larger and the sum is not smaller, the numbers are the same. -/
theorem eq_of_sum_le {Item : Type} {small large : Item → Nat} {items : List Item}
    (least : ∀ item ∈ items, small item ≤ large item)
    (total : (items.map large).sum ≤ (items.map small).sum) :
    ∀ item ∈ items, small item = large item := by
  have bound (items : List Item) (least : ∀ item ∈ items, small item ≤ large item) :
      (items.map small).sum ≤ (items.map large).sum := by
    induction items with
    | nil => exact Nat.le_refl _
    | cons item items ih =>
        obtain ⟨own, others⟩ := List.forall_mem_cons.mp least
        exact Nat.add_le_add own (ih others)
  induction items with
  | nil => simp
  | cons item items ih =>
      obtain ⟨own, others⟩ := List.forall_mem_cons.mp least
      have rest := bound items others
      rw [List.map_cons, List.map_cons, List.sum_cons, List.sum_cons] at total
      exact List.forall_mem_cons.mpr ⟨by omega, ih others (by omega)⟩

end Bounds

/-! ## Key by key -/

section Keys

variable {Item Key : Type} [DecidableEq Key]

/-- The sum over the items that meet a condition. -/
def sumOf (value : Item → Int) (items : List Item) (meets : Item → Bool) : Int :=
  ((items.filter meets).map value).sum

variable {value : Item → Int} {items others : List Item} {meets : Item → Bool}

@[simp] theorem sumOf_nil : sumOf value [] meets = 0 := rfl

theorem sumOf_append :
    sumOf value (items ++ others) meets = sumOf value items meets + sumOf value others meets := by
  simp [sumOf]

theorem sumOf_cons (item : Item) : sumOf value (item :: items) meets =
    (if meets item then value item else 0) + sumOf value items meets := by
  unfold sumOf
  by_cases chosen : meets item = true
  · rw [List.filter_cons_of_pos chosen, if_pos chosen, List.map_cons, List.sum_cons]
  · rw [List.filter_cons_of_neg chosen, if_neg chosen, Int.zero_add]

theorem sumOf_filter (chosen : Item → Bool) :
    sumOf value (items.filter chosen) meets = sumOf value items (fun item => meets item && chosen item) := by
  rw [sumOf, sumOf, List.filter_filter]

theorem sumOf_perm (reordered : items.Perm others) : sumOf value items meets = sumOf value others meets :=
  ((reordered.filter meets).map value).sum_eq

theorem sumOf_within : negativeTotal (items.map value) ≤ sumOf value items meets ∧
    sumOf value items meets ≤ positiveTotal (items.map value) :=
  sum_within (List.filter_sublist.map value)

/-- What does not meet a condition makes up the rest. -/
theorem sumOf_not : sumOf value items meets + sumOf value items (fun item => !meets item) =
    sumOf value items (fun _ => true) := by
  induction items with
  | nil => rfl
  | cons item items ih =>
      rw [sumOf_cons, sumOf_cons, sumOf_cons]
      cases meets item <;> simp <;> omega

/-- A value is added to one of some distinct keys. -/
theorem sum_ite_key {keys : List Key} (distinct : keys.Nodup) {key : Key} (among : key ∈ keys)
    (amount : Int) : (keys.map (fun other => if key = other then amount else 0)).sum = amount := by
  induction keys with
  | nil => exact absurd among List.not_mem_nil
  | cons first keys ih =>
      obtain ⟨new, distinct⟩ := List.nodup_cons.mp distinct
      rw [List.map_cons, List.sum_cons]
      by_cases here : key = first
      · have nothing : keys.map (fun other => if key = other then amount else 0) = keys.map (fun _ => 0) := by
          refine List.map_congr_left (fun other member => if_neg ?_)
          rintro rfl
          exact new (here ▸ member)
        rw [if_pos here, nothing]
        simp
      · rw [if_neg here, ih distinct ((List.mem_cons.mp among).resolve_left here),
          Int.zero_add]

/-- The sums of the keys add up to the whole. -/
theorem sum_sumOf_key {keys : List Key} (keyOf : Item → Key) (distinct : keys.Nodup)
    (complete : ∀ item ∈ items, keyOf item ∈ keys) :
    (keys.map (fun key => sumOf value items (fun item => decide (keyOf item = key)))).sum =
      sumOf value items (fun _ => true) := by
  induction items with
  | nil => simp
  | cons item items ih =>
      obtain ⟨own, others⟩ := List.forall_mem_cons.mp complete
      have split (key : Key) : sumOf value (item :: items) (fun item => decide (keyOf item = key)) =
          (if keyOf item = key then value item else 0) +
            sumOf value items (fun item => decide (keyOf item = key)) := by
        rw [sumOf_cons]
        simp only [decide_eq_true_eq]
      simp only [split, List.sum_map_add]
      rw [sum_ite_key distinct own, ih others, sumOf_cons, if_pos rfl]

end Keys

end Camelmailer.SignedSums
