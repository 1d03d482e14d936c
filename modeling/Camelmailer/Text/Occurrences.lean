import Mathlib.Data.List.Infix

/-!
# The first occurrence of a pattern

A list is searched for a pattern from its front and cut around the first place where the pattern
stands. That place is told by what is before it: written behind it, the pattern must not stand
anywhere else.
-/

namespace Camelmailer.Occurrences

variable {α : Type}

/-- The parts of a list before and behind the first occurrence of a pattern. -/
def cut [DecidableEq α] (pattern : List α) : List α → Option (List α × List α)
  | [] => if pattern = [] then some ([], []) else none
  | item :: rest =>
      if pattern <+: item :: rest then some ([], (item :: rest).drop pattern.length)
      else (cut pattern rest).map (fun parts => (item :: parts.1, parts.2))

/-- A pattern behind a front occurs there for the first time. -/
def Fresh (pattern front : List α) : Prop := ¬ pattern <:+: (front ++ pattern).dropLast

instance [DecidableEq α] (pattern front : List α) : Decidable (Fresh pattern front) :=
  inferInstanceAs (Decidable (¬ pattern <:+: _))

theorem fresh_nil {pattern : List α} (some : pattern ≠ []) : Fresh pattern [] := by
  intro inside
  have short := inside.length_le
  have long := List.length_pos_iff.mpr some
  rw [List.nil_append, List.length_dropLast] at short
  omega

theorem fresh_cons {pattern front : List α} {item : α} (some : pattern ≠ []) :
    Fresh pattern (item :: front) ↔
      ¬ pattern <+: item :: (front ++ pattern).dropLast ∧ Fresh pattern front := by
  have nonempty : front ++ pattern ≠ [] := fun nil => some (List.append_eq_nil_iff.mp nil).2
  rw [Fresh, Fresh, List.cons_append, List.dropLast_cons_of_ne_nil nonempty, List.infix_cons_iff,
    not_or]

section Search

variable [DecidableEq α]

theorem cut_eq_some {pattern text front back : List α} (some_ : pattern ≠ []) :
    cut pattern text = some (front, back) ↔
      text = front ++ (pattern ++ back) ∧ Fresh pattern front := by
  induction text generalizing front with
  | nil => simp [cut, some_]
  | cons item rest ih =>
      unfold cut
      split_ifs with here
      · obtain ⟨tail, split⟩ := here
        have behind : (item :: rest).drop pattern.length = tail := by rw [← split, List.drop_left]
        rw [behind, Option.some_inj, Prod.mk.injEq]
        constructor
        · rintro ⟨rfl, rfl⟩
          exact ⟨split.symm, fresh_nil some_⟩
        · rintro ⟨whole, fresh⟩
          cases front with
          | nil =>
              rw [← split] at whole
              exact ⟨rfl, List.append_cancel_left whole⟩
          | cons first more =>
              refine absurd ?_ ((fresh_cons some_).mp fresh).1
              have opens : pattern <+: first :: more ++ (pattern ++ back) := ⟨tail, split.trans whole⟩
              have within : first :: (more ++ pattern).dropLast <+: first :: more ++ (pattern ++ back) := by
                rw [List.cons_append, List.cons_prefix_cons, ← List.append_assoc]
                exact ⟨rfl, (List.dropLast_prefix _).trans (List.prefix_append _ _)⟩
              refine List.prefix_of_prefix_length_le opens within ?_
              rw [List.length_cons, List.length_dropLast, List.length_append]
              omega
      · rw [Option.map_eq_some_iff]
        constructor
        · rintro ⟨⟨before, behind⟩, found, same⟩
          cases same
          obtain ⟨rfl, fresh⟩ := ih.mp found
          refine ⟨rfl, (fresh_cons some_).mpr ⟨fun opens => here ?_, fresh⟩⟩
          refine opens.trans (List.cons_prefix_cons.mpr ⟨rfl, ?_⟩)
          rw [← List.append_assoc]
          exact (List.dropLast_prefix _).trans (List.prefix_append _ _)
        · rintro ⟨whole, fresh⟩
          cases front with
          | nil => exact absurd ⟨back, whole.symm⟩ here
          | cons first more =>
              obtain ⟨rfl, rest_⟩ := List.cons.inj whole
              exact ⟨(more, back), ih.mpr ⟨rest_, ((fresh_cons some_).mp fresh).2⟩, rfl⟩

theorem cut_eq_none {pattern text : List α} (some_ : pattern ≠ []) :
    cut pattern text = none ↔ ¬ pattern <:+: text := by
  induction text with
  | nil => simp [cut]
  | cons item rest ih =>
      unfold cut
      rw [List.infix_cons_iff]
      split_ifs with here
      · simp [here]
      · simp [here, ih]

/-- What is behind the first occurrence is shorter. -/
theorem cut_length {pattern text front back : List α} (some_ : pattern ≠ [])
    (found : cut pattern text = some (front, back)) :
    front.length + pattern.length + back.length = text.length := by
  obtain ⟨rfl, -⟩ := (cut_eq_some some_).mp found
  simp [Nat.add_assoc]

end Search

/-! ## Items that a pattern does not have -/

section Foreign

variable {pattern before after : List α} {item : α}

theorem prefix_of_foreign (foreign : item ∉ pattern) (opens : pattern <+: before ++ item :: after) :
    pattern <+: before := by
  have shorter : before <+: before ++ item :: after := List.prefix_append _ _
  rcases List.prefix_or_prefix_of_prefix opens shorter with within | beyond
  · exact within
  · obtain ⟨more, rfl⟩ := beyond
    cases more with
    | nil => exact ⟨[], by simp⟩
    | cons first more =>
        have same : first = item := (List.cons_prefix_cons.mp ((List.prefix_append_right_inj _).mp opens)).1
        exact absurd (List.mem_append_right before (same ▸ List.mem_cons_self)) foreign

/-- An occurrence does not go across an item that the pattern does not have. -/
theorem infix_of_foreign (foreign : item ∉ pattern) (inside : pattern <:+: before ++ item :: after) :
    pattern <:+: before ∨ pattern <:+: after := by
  induction before with
  | nil =>
      rcases List.infix_cons_iff.mp inside with opens | later
      · exact .inl (prefix_of_foreign foreign opens).isInfix
      · exact .inr later
  | cons first before ih =>
      rcases List.infix_cons_iff.mp inside with opens | later
      · exact .inl (prefix_of_foreign foreign opens).isInfix
      · rcases ih later with early | late
        · exact .inl (List.infix_cons_iff.mpr (.inr early))
        · exact .inr late

theorem not_infix_dropLast (some : pattern ≠ []) : ¬ pattern <:+: pattern.dropLast := by
  intro inside
  have short := inside.length_le
  have long := List.length_pos_iff.mpr some
  rw [List.length_dropLast] at short
  omega

/-- A foreign item does not hide an occurrence. -/
theorem fresh_foreign (some : pattern ≠ []) (foreign : item ∉ pattern) :
    Fresh pattern (item :: before) ↔ Fresh pattern before := by
  rw [fresh_cons some, and_iff_right]
  intro opens
  have first : pattern <+: [] ++ item :: (before ++ pattern).dropLast := opens
  exact some (List.prefix_nil.mp (prefix_of_foreign foreign first))

theorem fresh_closed (some : pattern ≠ []) (foreign : item ∉ pattern) (absent : ¬ pattern <:+: before) :
    Fresh pattern (before ++ [item]) := by
  intro inside
  rw [List.append_assoc, List.singleton_append, List.dropLast_append_cons,
    List.dropLast_cons_of_ne_nil some] at inside
  exact (infix_of_foreign foreign inside).elim absent (not_infix_dropLast some)

end Foreign

/-- Where a pattern is fresh it has not stood before. -/
theorem Fresh.absent {pattern front : List α} (fresh : Fresh pattern front) (some : pattern ≠ []) :
    ¬ pattern <:+: front := by
  intro inside
  refine fresh (inside.trans ?_)
  rw [List.dropLast_append_of_ne_nil some]
  exact (List.prefix_append _ _).isInfix

end Camelmailer.Occurrences
