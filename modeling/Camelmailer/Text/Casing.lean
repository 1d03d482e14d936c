import Camelmailer.Text.Str

/-!
# Lower case

What `str::to_lowercase` makes of a text depends on the tables of Unicode, which are a parameter here. Of
them only this is needed: ASCII letters become lower-case letters, and of all other characters only the
dotted capital I and the sign of the kelvin have ASCII in their lower case, an `i` and a `k`. The lower
case of a character may be longer or shorter than the character.

An ASCII pattern without these two letters is found in a lower-cased copy where it is found in the text
in any case of its letters, but not at the same offset.
-/

namespace Camelmailer

open Utf8

/-- The tables that `str::to_lowercase` uses. -/
structure Casing where
  /-- `char::to_lowercase`. -/
  lowerOf : Char → Text
  cased : Char → Bool
  caseIgnorable : Char → Bool
  ascii : ∀ char, Ascii char → lowerOf char = [char.toLower]
  some_ : ∀ char, lowerOf char ≠ []
  wide : ∀ char, ¬ Ascii char → ∀ low ∈ lowerOf char, Ascii low → low = 'i' ∨ low = 'k'

namespace Casing

variable (casing : Casing)

/-- The first character that counts is cased. -/
def thenCased (text : Text) : Bool :=
  ((text.dropWhile casing.caseIgnorable).head?).any casing.cased

/-- The lower case of a character, given what is in front of it, the last first, and what follows. A sigma
at the end of a word has a form of its own. -/
def lowerAt (seen : Text) (char : Char) (rest : Text) : Text :=
  if char = 'Σ' then [if casing.thenCased seen && !casing.thenCased rest then 'ς' else 'σ']
  else casing.lowerOf char

def lowerFrom (seen : Text) : Text → Text
  | [] => []
  | char :: rest => casing.lowerAt seen char rest ++ lowerFrom (char :: seen) rest

def toLowercase (text : Text) : Text := casing.lowerFrom [] text

end Casing

/-! ## Searching -/

/-- `str::rfind`: the offset of the last place where a pattern begins. -/
def rfind (pattern : Text) : Text → Option Nat
  | [] => if pattern = [] then some 0 else none
  | char :: rest =>
      match rfind pattern rest with
      | some offset => some (char.utf8Size + offset)
      | none => if pattern <+: char :: rest then some 0 else none

/-- A text begins with a pattern, whatever the case of its ASCII letters. -/
def Opens (pattern text : Text) : Prop := pattern <+: text.map Char.toLower

instance (pattern text : Text) : Decidable (Opens pattern text) :=
  inferInstanceAs (Decidable (pattern <+: text.map Char.toLower))

/-- A text is cut where a pattern begins for the last time. -/
def cutLast (pattern : Text) : Text → Option (Text × Text)
  | [] => if pattern = [] then some ([], []) else none
  | char :: rest =>
      match cutLast pattern rest with
      | some parts => some (char :: parts.1, parts.2)
      | none => if Opens pattern (char :: rest) then some ([], char :: rest) else none

/-- The characters of a pattern are ASCII, but not those of the lower case of others. -/
def Clear (pattern : Text) : Prop := ∀ char ∈ pattern, Ascii char ∧ char ≠ 'i' ∧ char ≠ 'k'

section Last

variable {pattern text front back : Text}

theorem cutLast_eq_none (some_ : pattern ≠ []) :
    cutLast pattern text = none ↔ ∀ front back, text = front ++ back → ¬ Opens pattern back := by
  induction text with
  | nil =>
      rw [cutLast, if_neg some_]
      refine iff_of_true rfl (fun front back whole opens => some_ ?_)
      rw [(List.append_eq_nil_iff.mp whole.symm).2] at opens
      exact List.prefix_nil.mp opens
  | cons char text ih =>
      rw [cutLast]
      cases found : cutLast pattern text with
      | some parts =>
          simp only [reduceCtorEq, false_iff]
          intro absent
          rw [found] at ih
          simp only [reduceCtorEq, false_iff] at ih
          exact ih (fun front back whole => absent (char :: front) back (by rw [whole]; rfl))
      | none =>
          have later := ih.mp found
          by_cases opens : Opens pattern (char :: text)
          · rw [if_pos opens]
            exact iff_of_false (by simp) (fun absent => absent [] _ rfl opens)
          · rw [if_neg opens]
            refine iff_of_true rfl (fun front back whole => ?_)
            cases front with
            | nil =>
                obtain rfl : char :: text = back := whole
                exact opens
            | cons first front =>
                obtain ⟨rfl, rest⟩ := List.cons.inj whole
                exact later front back rest

/-- A cut is in front of the pattern, and the pattern is at no later place. -/
theorem cutLast_eq_some (some_ : pattern ≠ []) : cutLast pattern text = some (front, back) ↔
    text = front ++ back ∧ Opens pattern back ∧
      ∀ before after, back = before ++ after → before ≠ [] → ¬ Opens pattern after := by
  induction text generalizing front back with
  | nil =>
      rw [cutLast, if_neg some_]
      refine iff_of_false (by simp) ?_
      rintro ⟨whole, opens, -⟩
      rw [(List.append_eq_nil_iff.mp whole.symm).2] at opens
      exact some_ (List.prefix_nil.mp opens)
  | cons char text ih =>
      rw [cutLast]
      cases found : cutLast pattern text with
      | some parts =>
          obtain ⟨whole, opens, last⟩ := ih.mp found
          constructor
          · intro same
            cases same
            exact ⟨by rw [whole]; rfl, opens, last⟩
          · rintro ⟨split, opened, nowhere⟩
            cases front with
            | nil =>
                obtain rfl : char :: text = back := split
                refine absurd opens (nowhere (char :: parts.1) parts.2 ?_ (List.cons_ne_nil _ _))
                rw [whole]
                rfl
            | cons first front =>
                obtain ⟨rfl, rest⟩ := List.cons.inj split
                have same := found.symm.trans (ih.mpr ⟨rest, opened, nowhere⟩)
                rw [Option.some.inj same]
      | none =>
          have later := (cutLast_eq_none some_).mp found
          dsimp only
          constructor
          · intro cut
            split at cut
            · next opens =>
                cases cut
                refine ⟨rfl, opens, fun before after whole moved => ?_⟩
                cases before with
                | nil => exact absurd rfl moved
                | cons first before => exact later before after (List.cons.inj whole).2
            · cases cut
          · rintro ⟨split, opened, -⟩
            cases front with
            | nil =>
                obtain rfl : char :: text = back := split
                rw [if_pos opened]
            | cons first front => exact absurd opened (later front back (List.cons.inj split).2)

end Last

/-! ## A lower-cased copy -/

section Copy

variable {casing : Casing} {pattern text seen rest : Text} {char : Char}

/-- The lower case of a character that is not ASCII has no character of a clear pattern. -/
theorem lowerAt_wide (wide : ¬ Ascii char) (clear : Clear pattern) :
    ∀ low ∈ casing.lowerAt seen char rest, low ∉ pattern := by
  intro low member inside
  obtain ⟨ascii, notI, notK⟩ := clear low inside
  unfold Casing.lowerAt at member
  split at member
  · obtain rfl := List.mem_singleton.mp member
    split at ascii <;> exact absurd ascii (by decide)
  · exact (casing.wide char wide low member ascii).elim notI notK

theorem lowerAt_ne_nil : casing.lowerAt seen char rest ≠ [] := by
  unfold Casing.lowerAt
  split
  · exact List.cons_ne_nil _ _
  · exact casing.some_ char

theorem lowerAt_ascii (ascii : Ascii char) : casing.lowerAt seen char rest = [char.toLower] := by
  have other : char ≠ 'Σ' := by
    rintro rfl
    exact absurd ascii (by decide)
  rw [Casing.lowerAt, if_neg other, casing.ascii char ascii]

theorem toLower_wide (wide : ¬ Ascii char) : char.toLower = char := by
  have large : ¬ char.toNat < 128 := wide
  refine dif_neg (fun upper => large ?_)
  exact Nat.lt_of_le_of_lt (UInt32.le_iff_toNat_le.mp upper.2) (by decide)

/-- A clear pattern opens the lower case of a text if it opens the text in some case. The induction is on
the pattern. -/
theorem prefix_lowerFrom (clear : Clear pattern) :
    pattern <+: casing.lowerFrom seen text ↔ Opens pattern text := by
  induction pattern generalizing seen text with
  | nil => simp [Opens]
  | cons first pattern ih =>
      obtain ⟨own, others⟩ := List.forall_mem_cons.mp clear
      cases text with
      | nil => simp [Opens, Casing.lowerFrom]
      | cons char text =>
          rw [Casing.lowerFrom, Opens, List.map_cons]
          by_cases ascii : Ascii char
          · rw [lowerAt_ascii ascii, List.singleton_append, List.cons_prefix_cons,
              List.cons_prefix_cons, ih others]
            rfl
          · have filled : casing.lowerAt seen char text ≠ [] := lowerAt_ne_nil
            have apart : ∀ low ∈ casing.lowerAt seen char text, low ∉ first :: pattern :=
              lowerAt_wide ascii clear
            obtain ⟨low, lows, found⟩ := List.exists_cons_of_ne_nil filled
            rw [found] at apart ⊢
            rw [List.cons_append, List.cons_prefix_cons, List.cons_prefix_cons, toLower_wide ascii]
            refine iff_of_false (fun both => ?_) (fun both => ?_)
            · exact apart low List.mem_cons_self (both.1 ▸ List.mem_cons_self)
            · exact ascii (both.1 ▸ own.1)

theorem byteLen_lowerAt (seen other rest last : Text) (char : Char) :
    Str.byteLen (casing.lowerAt seen char rest) = Str.byteLen (casing.lowerAt other char last) := by
  have sigma (final : Bool) : Str.byteLen [if final then 'ς' else 'σ'] = 2 := by
    cases final <;> decide
  unfold Casing.lowerAt
  split
  · rw [sigma, sigma]
  · rfl

/-- The length of a lower-cased text does not depend on what is in front of it. -/
theorem byteLen_lowerFrom (seen other : Text) (text : Text) :
    Str.byteLen (casing.lowerFrom seen text) = Str.byteLen (casing.lowerFrom other text) := by
  induction text generalizing seen other with
  | nil => rfl
  | cons char text ih =>
      rw [Casing.lowerFrom, Casing.lowerFrom, Str.byteLen_append, Str.byteLen_append,
        byteLen_lowerAt seen other text text, ih (char :: seen) (char :: other)]

/-- The length of the copy of some text in front of a rest. -/
theorem byteLen_toLowercase_cons (seen : Text) (char : Char) (front rest : Text) :
    Str.byteLen (casing.toLowercase (char :: front)) =
      Str.byteLen (casing.lowerAt seen char rest) + Str.byteLen (casing.toLowercase front) := by
  rw [Casing.toLowercase, Casing.lowerFrom, Str.byteLen_append, byteLen_lowerAt [] seen front rest,
    byteLen_lowerFrom [char] []]
  rfl

/-- In front of items that a pattern does not begin with, nothing is found. -/
theorem rfind_append {foreign : Text} (some_ : pattern ≠ [])
    (apart : ∀ char ∈ foreign, char ∉ pattern) : rfind pattern (foreign ++ text) =
      (rfind pattern text).map (fun offset => Str.byteLen foreign + offset) := by
  induction foreign with
  | nil => simp
  | cons char foreign ih =>
      obtain ⟨own, others⟩ := List.forall_mem_cons.mp apart
      have closed : ¬ pattern <+: char :: (foreign ++ text) := by
        intro opens
        obtain ⟨first, pattern, rfl⟩ := List.exists_cons_of_ne_nil some_
        exact own ((List.cons_prefix_cons.mp opens).1 ▸ List.mem_cons_self)
      rw [List.cons_append, rfind, ih others]
      cases rfind pattern text with
      | none => exact if_neg closed
      | some offset => simp [Nat.add_assoc]

/-- What is found last in a lower-cased copy is at the offset that the copy of what is in front has. -/
theorem rfind_lowerFrom (some_ : pattern ≠ []) (clear : Clear pattern) :
    rfind pattern (casing.lowerFrom seen text) =
      (cutLast pattern text).map (fun parts => Str.byteLen (casing.toLowercase parts.1)) := by
  induction text generalizing seen with
  | nil => simp [Casing.lowerFrom, rfind, cutLast, some_]
  | cons char text ih =>
      have here : pattern <+: casing.lowerFrom seen (char :: text) ↔ Opens pattern (char :: text) :=
        prefix_lowerFrom clear
      rw [Casing.lowerFrom] at here ⊢
      rw [cutLast]
      by_cases ascii : Ascii char
      · rw [lowerAt_ascii ascii] at here ⊢
        rw [List.singleton_append] at here ⊢
        rw [rfind, ih]
        cases found : cutLast pattern text with
        | none =>
            dsimp only [Option.map_none]
            simp only [here]
            split_ifs <;> rfl
        | some parts =>
            dsimp only [Option.map_some]
            rw [byteLen_toLowercase_cons seen char parts.1 text, lowerAt_ascii ascii]
            rfl
      · have closed : ¬ Opens pattern (char :: text) := by
          intro opens
          obtain ⟨first, pattern, rfl⟩ := List.exists_cons_of_ne_nil some_
          rw [Opens, List.map_cons, List.cons_prefix_cons, toLower_wide ascii] at opens
          exact ascii (opens.1 ▸ (clear first List.mem_cons_self).1)
        rw [rfind_append some_ (lowerAt_wide ascii clear), ih]
        cases found : cutLast pattern text with
        | none =>
            rw [if_neg closed]
            rfl
        | some parts =>
            dsimp only [Option.map_some]
            rw [byteLen_toLowercase_cons seen char parts.1 text]

end Copy

/-- Tables with the two characters whose lower case has ASCII in it. -/
def Casing.few : Casing where
  lowerOf char :=
    if char = '\u0130' then ['i', '\u0307'] else if char = '\u212A' then ['k'] else [char.toLower]
  cased := Char.isAlpha
  caseIgnorable char := char = '.'
  ascii char ascii := by
    have dotted : char ≠ '\u0130' := by
      rintro rfl
      exact absurd ascii (by decide)
    have kelvin : char ≠ '\u212A' := by
      rintro rfl
      exact absurd ascii (by decide)
    rw [if_neg dotted, if_neg kelvin]
  some_ char := by
    split
    · exact List.cons_ne_nil _ _
    · split <;> exact List.cons_ne_nil _ _
  wide char wide low member ascii := by
    split at member
    · rcases List.mem_cons.mp member with rfl | other
      · exact .inl rfl
      · obtain rfl := List.mem_singleton.mp other
        exact absurd ascii (by decide)
    · split at member
      · exact .inr (List.mem_singleton.mp member)
      · obtain rfl := List.mem_singleton.mp member
        rw [toLower_wide wide] at ascii
        exact absurd ascii wide

end Camelmailer
