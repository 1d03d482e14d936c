import Camelmailer.Text.Delimiters
import Mathlib.Algebra.GroupWithZero.Nat

/-!
# Replacement everywhere

A text is replaced wherever it stands, from left to right. Items that it does not have keep what is in
front of them and what is behind them apart. Where an item that it does not have is among those that it
is replaced by, the result has more of them for every replacement, so replacements can be counted.
-/

namespace Camelmailer.Replacement

open Occurrences Delimiters

variable {α : Type} [DecidableEq α]

def replace (pattern new text : List α) : List α := new.intercalate (split pattern text)

/-- Replacements one after the other. -/
def replaceEach (rules : List (List α × List α)) (text : List α) : List α :=
  rules.foldl (fun text rule => replace rule.1 rule.2 text) text

section Replace

variable {pattern new text front back : List α} {item : α}

section

variable (some_ : pattern ≠ [])
include some_

theorem split_ne_nil (text : List α) : split pattern text ≠ [] := by
  rcases split_cases some_ text with whole | ⟨front, back, -, whole⟩ <;> rw [whole] <;>
    exact List.cons_ne_nil _ _

theorem replace_absent (absent : ¬ pattern <:+: text) :
    replace pattern new text = text := by
  rw [replace, split_absent some_ absent, List.intercalate_singleton]

theorem replace_fresh (fresh : Fresh pattern front) (back : List α) :
    replace pattern new (front ++ (pattern ++ back)) = front ++ (new ++ replace pattern new back) := by
  rw [replace, split_fresh some_ fresh, List.intercalate_cons_of_ne_nil (split_ne_nil some_ back),
    List.append_assoc]
  rfl

/-- What has the pattern is a front, the pattern for the first time, and the rest. -/
theorem exists_fresh (inside : pattern <:+: text) :
    ∃ front back, text = front ++ (pattern ++ back) ∧ Fresh pattern front := by
  cases found : cut pattern text with
  | none => exact absurd inside ((cut_eq_none some_).mp found)
  | some parts => exact ⟨parts.1, parts.2, (cut_eq_some some_).mp found⟩

/-- The pattern itself is replaced once. -/
theorem replace_self : replace pattern new pattern = new := by
  have whole : replace pattern new ([] ++ (pattern ++ [])) = [] ++ (new ++ replace pattern new []) :=
    replace_fresh some_ (fresh_nil some_) []
  rw [List.append_nil, replace_absent some_ (fun inside => some_ (List.infix_nil.mp inside)),
    List.append_nil] at whole
  exact whole

/-- An item that the pattern does not have keeps the sides apart. The induction is on the length of what is
in front of it. -/
theorem replace_foreign (foreign : item ∉ pattern) (front back : List α) :
    replace pattern new (front ++ item :: back) =
      replace pattern new front ++ item :: replace pattern new back := by
  induction length : front.length using Nat.strongRecOn generalizing front with
  | ind length_ ih =>
      by_cases early : pattern <:+: front
      · obtain ⟨before, after, rfl, fresh⟩ := exists_fresh some_ early
        have filled := List.length_pos_iff.mpr some_
        simp only [List.length_append] at length
        rw [List.append_assoc, List.append_assoc, replace_fresh some_ fresh, replace_fresh some_ fresh,
          ih after.length (by omega) after rfl, List.append_assoc, List.append_assoc]
      · rw [replace_absent some_ early]
        by_cases late : pattern <:+: back
        · obtain ⟨before, after, rfl, fresh⟩ := exists_fresh some_ late
          have shifted : Fresh pattern (front ++ item :: before) := by
            intro inside
            rw [List.append_assoc, List.cons_append, List.dropLast_append_cons,
              List.dropLast_cons_of_ne_nil (by simp [some_])] at inside
            exact (infix_of_foreign foreign inside).elim early fresh
          have whole : front ++ item :: (before ++ (pattern ++ after)) =
              (front ++ item :: before) ++ (pattern ++ after) := by simp
          rw [whole, replace_fresh some_ shifted, replace_fresh some_ fresh]
          simp
        · rw [replace_absent some_ late, replace_absent some_]
          exact fun inside => (infix_of_foreign foreign inside).elim early late

end

end Replace

/-! ## Counting replacements -/

section Marks

variable {pattern new text : List α} {mark : α}

/-- A replacement does not take marks away, and what it finds gives it more of them. -/
theorem count_replace (some_ : pattern ≠ []) (unmarked : mark ∉ pattern) (marked : mark ∈ new)
    (text : List α) : text.count mark ≤ (replace pattern new text).count mark ∧
      (pattern <:+: text → text.count mark < (replace pattern new text).count mark) := by
  induction length : text.length using Nat.strongRecOn generalizing text with
  | ind length_ ih =>
      by_cases inside : pattern <:+: text
      · obtain ⟨before, after, rfl, fresh⟩ := exists_fresh some_ inside
        have filled := List.length_pos_iff.mpr some_
        simp only [List.length_append] at length
        have later := (ih after.length (by omega) after rfl).1
        have more := List.count_pos_iff.mpr marked
        have nothing := List.count_eq_zero.mpr unmarked
        have counts : (before ++ (pattern ++ after)).count mark <
            (replace pattern new (before ++ (pattern ++ after))).count mark := by
          rw [replace_fresh some_ fresh]
          simp only [List.count_append]
          omega
        exact ⟨Nat.le_of_lt counts, fun _ => counts⟩
      · rw [replace_absent some_ inside]
        exact ⟨Nat.le_refl _, fun found => absurd found inside⟩

/-- The rules replace texts without a mark by such with one. -/
def Marking (mark : α) (rules : List (List α × List α)) : Prop :=
  ∀ rule ∈ rules, rule.1 ≠ [] ∧ mark ∉ rule.1 ∧ mark ∈ rule.2

variable {rules : List (List α × List α)}

theorem replaceEach_append (rules others : List (List α × List α)) (text : List α) :
    replaceEach (rules ++ others) text = replaceEach others (replaceEach rules text) := List.foldl_append

theorem replaceEach_absent (marking : Marking mark rules) (absent : ∀ rule ∈ rules, ¬ rule.1 <:+: text) :
    replaceEach rules text = text := by
  induction rules with
  | nil => rfl
  | cons rule rules ih =>
      obtain ⟨own, others⟩ := List.forall_mem_cons.mp marking
      obtain ⟨first, later⟩ := List.forall_mem_cons.mp absent
      rw [replaceEach, List.foldl_cons, replace_absent own.1 first]
      exact ih others later

theorem count_replaceEach (marking : Marking mark rules) (text : List α) :
    text.count mark ≤ (replaceEach rules text).count mark := by
  induction rules generalizing text with
  | nil => exact Nat.le_refl _
  | cons rule rules ih =>
      obtain ⟨⟨some_, unmarked, marked⟩, others⟩ := List.forall_mem_cons.mp marking
      exact (count_replace some_ unmarked marked text).1.trans (ih others _)

/-- If there are no more marks, none of the rules has found anything. -/
theorem count_replaceEach_eq (marking : Marking mark rules) :
    text.count mark = (replaceEach rules text).count mark ↔ ∀ rule ∈ rules, ¬ rule.1 <:+: text := by
  constructor
  · intro same
    induction rules generalizing text with
    | nil => simp
    | cons rule rules ih =>
        obtain ⟨⟨some_, unmarked, marked⟩, others⟩ := List.forall_mem_cons.mp marking
        rw [replaceEach, List.foldl_cons] at same
        have later := count_replaceEach others (replace rule.1 rule.2 text)
        rw [replaceEach] at later
        have absent : ¬ rule.1 <:+: text := by
          intro inside
          have more := (count_replace some_ unmarked marked text).2 inside
          omega
        rw [replace_absent some_ absent] at same
        exact List.forall_mem_cons.mpr ⟨absent, ih others same⟩
  · intro absent
    rw [replaceEach_absent marking absent]

end Marks

/-! ## Fillings -/

/-- A text of parts with fillings between them: each filling is given with the part behind it. -/
def weave : List α → List (List α × List α) → List α
  | head, [] => head
  | head, link :: links => head ++ (link.1 ++ weave link.2 links)

/-- At both ends of every filling there are such items. -/
def Closed (apart : α → Prop) : List α → List (List α × List α) → Prop
  | _, [] => True
  | head, link :: links => (∃ item, apart item ∧ head.getLast? = some item) ∧
      (∃ item, apart item ∧ link.2.head? = some item) ∧ Closed apart link.2 links

/-- The rules find nothing that has such an item. -/
def Foreign (apart : α → Prop) (rules : List (List α × List α)) : Prop :=
  ∀ rule ∈ rules, rule.1 ≠ [] ∧ ∀ item, apart item → item ∉ rule.1

section Weave

variable {apart : α → Prop} {rules : List (List α × List α)} {pattern head text front back : List α}
variable {links : List (List α × List α)} {item mark : α}

theorem replaceEach_foreign (foreign : Foreign apart rules) (own : apart item) (front back : List α) :
    replaceEach rules (front ++ item :: back) =
      replaceEach rules front ++ item :: replaceEach rules back := by
  induction rules generalizing front back with
  | nil => rfl
  | cons rule rules ih =>
      obtain ⟨first, others⟩ := List.forall_mem_cons.mp foreign
      simp only [replaceEach, List.foldl_cons]
      rw [replace_foreign first.1 (first.2 item own)]
      exact ih others _ _

theorem replaceEach_nil (foreign : Foreign apart rules) : replaceEach rules ([] : List α) = [] := by
  induction rules with
  | nil => rfl
  | cons rule rules ih =>
      obtain ⟨first, others⟩ := List.forall_mem_cons.mp foreign
      exact ih others

theorem replaceEach_opened (foreign : Foreign apart rules) (own : apart item)
    (opens : back.head? = some item) (front : List α) :
    replaceEach rules (front ++ back) = replaceEach rules front ++ replaceEach rules back := by
  obtain ⟨rest, rfl⟩ := List.head?_eq_some_iff.mp opens
  have alone := replaceEach_foreign foreign own [] rest
  rw [List.nil_append, replaceEach_nil foreign, List.nil_append] at alone
  rw [replaceEach_foreign foreign own, alone]

theorem replaceEach_closed (foreign : Foreign apart rules) (own : apart item)
    (closes : front.getLast? = some item) (back : List α) :
    replaceEach rules (front ++ back) = replaceEach rules front ++ replaceEach rules back := by
  obtain ⟨before, rfl⟩ := List.getLast?_eq_some_iff.mp closes
  rw [List.append_assoc, List.singleton_append, replaceEach_foreign foreign own,
    replaceEach_foreign foreign own, replaceEach_nil foreign, List.append_assoc]
  rfl

omit [DecidableEq α] in
@[simp] theorem weave_append (front head : List α) (links : List (List α × List α)) :
    weave (front ++ head) links = front ++ weave head links := by
  cases links with
  | nil => rfl
  | cons link links => exact List.append_assoc _ _ _

omit [DecidableEq α] in
/-- Whether the fillings are closed does not depend on them. -/
theorem Closed.congr {others : List (List α × List α)} (closed : Closed apart head links)
    (same : links.map Prod.snd = others.map Prod.snd) : Closed apart head others := by
  induction links generalizing head others with
  | nil =>
      rw [List.map_eq_nil_iff.mp same.symm]
      exact trivial
  | cons link links ih =>
      obtain ⟨other, others, rfl, first, rest⟩ := List.map_eq_cons_iff.mp same.symm
      obtain ⟨closes, opens, later⟩ := closed
      refine ⟨closes, ?_, ?_⟩
      · rwa [first]
      · rw [first]
        exact ih later rest.symm

omit [DecidableEq α] in
theorem head?_weave (opens : head.head? = some item) : (weave head links).head? = some item := by
  obtain ⟨rest, rfl⟩ := List.head?_eq_some_iff.mp opens
  cases links <;> rfl

/-- Parts and fillings are replaced by themselves. -/
theorem replaceEach_weave (foreign : Foreign apart rules) (closed : Closed apart head links) :
    replaceEach rules (weave head links) = weave (replaceEach rules head)
      (links.map (fun link => (replaceEach rules link.1, replaceEach rules link.2))) := by
  induction links generalizing head with
  | nil => rfl
  | cons link links ih =>
      obtain ⟨⟨last, lastApart, closes⟩, ⟨first, firstApart, opens⟩, later⟩ := closed
      rw [weave, replaceEach_closed foreign lastApart closes,
        replaceEach_opened foreign firstApart (head?_weave opens), ih later]
      rfl

omit [DecidableEq α] in
/-- Without fillings, what a text has is in one of its parts. -/
theorem infix_weave_nil (foreign : ∀ item, apart item → item ∉ pattern)
    {parts : List (List α)} (closed : Closed apart head (parts.map (fun part => ([], part)))) :
    pattern <:+: weave head (parts.map (fun part => ([], part))) ↔
      pattern <:+: head ∨ ∃ part ∈ parts, pattern <:+: part := by
  induction parts generalizing head with
  | nil => simp [weave]
  | cons part parts ih =>
      obtain ⟨⟨last, lastApart, closes⟩, -, later⟩ := closed
      obtain ⟨before, rfl⟩ := List.getLast?_eq_some_iff.mp closes
      have rest := ih later
      rw [List.map_cons, weave, List.nil_append, List.exists_mem_cons_iff, ← rest]
      constructor
      · intro inside
        rw [List.append_assoc, List.singleton_append] at inside
        rcases infix_of_foreign (foreign last lastApart) inside with early | late
        · exact .inl (early.trans (List.prefix_append _ _).isInfix)
        · exact .inr late
      · rintro (early | late)
        · exact early.trans (List.prefix_append _ _).isInfix
        · exact late.trans (List.suffix_append _ _).isInfix

theorem count_weave (mark : α) (head : List α) (links : List (List α × List α)) :
    (weave head links).count mark = head.count mark +
      (links.map (fun link => link.1.count mark + link.2.count mark)).sum := by
  induction links generalizing head with
  | nil => rfl
  | cons link links ih =>
      rw [weave, List.count_append, List.count_append, ih, List.map_cons, List.sum_cons]
      omega

end Weave

end Camelmailer.Replacement
