import Camelmailer.Text.Occurrences

/-!
# Texts between delimiters

A text is split wherever a pattern stands in it, from the left to the right.
-/

namespace Camelmailer.Delimiters

open Occurrences

section Split

variable {α : Type} [DecidableEq α]

/-- The first `count` cuts of a list at a pattern. -/
def splitUpTo (pattern : List α) : Nat → List α → List (List α)
  | 0, text => [text]
  | count + 1, text =>
      match cut pattern text with
      | none => [text]
      | some (front, back) => front :: splitUpTo pattern count back

/-- `str::split` at a text that is not empty. What is left gets shorter with every cut. -/
def split (pattern text : List α) : List (List α) := splitUpTo pattern text.length text

variable {pattern text front back : List α}

theorem splitUpTo_of_le {count : Nat} (some_ : pattern ≠ []) (enough : text.length ≤ count) :
    splitUpTo pattern count text = split pattern text := by
  unfold split
  induction count using Nat.strongRecOn generalizing text with
  | ind count ih =>
      cases count with
      | zero => rw [Nat.le_zero.mp enough]
      | succ count =>
          cases found : cut pattern text with
          | none =>
              cases text.length with
              | zero => simp [splitUpTo, found]
              | succ length => simp [splitUpTo, found]
          | some parts =>
              obtain ⟨front, back⟩ := parts
              have total := cut_length some_ found
              have filled := List.length_pos_iff.mpr some_
              obtain ⟨length, same⟩ : ∃ length, text.length = length + 1 :=
                Nat.exists_eq_succ_of_ne_zero (by omega)
              rw [same]
              simp only [splitUpTo, found]
              rw [ih count (by omega) (by omega)]
              by_cases last : length = count + 1
              · omega
              · rw [ih length (by omega) (by omega)]

/-- The first cut is where the pattern stands for the first time. -/
theorem split_fresh (some_ : pattern ≠ []) (fresh : Fresh pattern front) :
    split pattern (front ++ (pattern ++ back)) = front :: split pattern back := by
  have found : cut pattern (front ++ (pattern ++ back)) = some (front, back) :=
    (cut_eq_some some_).mpr ⟨rfl, fresh⟩
  have total := cut_length some_ found
  have filled := List.length_pos_iff.mpr some_
  obtain ⟨length, same⟩ : ∃ length, (front ++ (pattern ++ back)).length = length + 1 :=
    Nat.exists_eq_succ_of_ne_zero (by omega)
  rw [split, same]
  simp only [splitUpTo, found]
  rw [splitUpTo_of_le some_ (by omega)]

theorem split_absent (some_ : pattern ≠ []) (absent : ¬ pattern <:+: text) :
    split pattern text = [text] := by
  have missing := (cut_eq_none some_).mpr absent
  unfold split
  cases text.length with
  | zero => rfl
  | succ length => simp only [splitUpTo, missing]

/-- The pieces begin with what is in front of the first occurrence. -/
theorem split_cases (some_ : pattern ≠ []) (text : List α) :
    split pattern text = [text] ∨ ∃ front back, text = front ++ (pattern ++ back) ∧
      split pattern text = front :: split pattern back := by
  cases found : cut pattern text with
  | none => exact .inl (split_absent some_ ((cut_eq_none some_).mp found))
  | some parts =>
      obtain ⟨front, back⟩ := parts
      obtain ⟨rfl, fresh⟩ := (cut_eq_some some_).mp found
      exact .inr ⟨front, back, rfl, split_fresh some_ fresh⟩

end Split

end Camelmailer.Delimiters
