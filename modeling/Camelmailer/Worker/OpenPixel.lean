import Camelmailer.Text.Casing
import Camelmailer.Text.Octets
import Mathlib.Data.Bool.AllAny

/-!
# The open pixel

`inject_open_pixel` of `camelmailer-worker/src/tracking.rs` looks for the end of the body in a lower-cased
copy of the HTML and cuts the HTML at the offset that is found there.
-/

namespace Camelmailer.Tracking

open Utf8

def bodyEnd : Text := "</body>"

def pixel (pixelUrl : Text) : Text :=
  "<img src=\"" ++ (pixelUrl ++
    "\" alt=\"\" width=\"1\" height=\"1\" style=\"display:none\"/>")

/-- `inject_open_pixel`. There is no result where a slice of the HTML panics. -/
def injectOpenPixel (casing : Casing) (html pixelUrl : Text) : Option Text :=
  match rfind bodyEnd (casing.toLowercase html) with
  | some position => (Str.splitAtByte position html).map (fun parts =>
      parts.1 ++ (pixel pixelUrl ++ parts.2))
  | none => some (html ++ pixel pixelUrl)

/-- Some text stands in front of the last end of the body, or at the end if there is none. -/
def InsertedLast (html inserted result : Text) : Prop :=
  (∃ front back, html = front ++ back ∧ Opens bodyEnd back ∧
    (∀ before after, back = before ++ after → before ≠ [] → ¬ Opens bodyEnd after) ∧
    result = front ++ (inserted ++ back)) ∨
  ((∀ front back, html = front ++ back → ¬ Opens bodyEnd back) ∧ result = html ++ inserted)

/-- The lower case of what is in front of the last end of the body is as long, or it is as long as what is
in front of some text that the inserted one can be exchanged with. -/
def KeepsPlace (casing : Casing) (html inserted : Text) : Prop :=
  ∀ front back, cutLast bodyEnd html = some (front, back) → ∃ kept moved, front = kept ++ moved ∧
    Str.byteLen kept = Str.byteLen (casing.toLowercase front) ∧ inserted ++ moved = moved ++ inserted

section Pixel

variable {html pixelUrl : Text}

theorem bodyEnd_clear : Clear bodyEnd := List.all_iff_forall_prop.mp (by decide)

theorem bodyEnd_ne_nil : bodyEnd ≠ [] := List.cons_ne_nil _ _

theorem insertedLast_none {inserted result : Text} (absent : cutLast bodyEnd html = none) :
    InsertedLast html inserted result ↔ result = html ++ inserted := by
  have nowhere := (cutLast_eq_none bodyEnd_ne_nil).mp absent
  constructor
  · rintro (⟨front, back, whole, opens, -⟩ | ⟨-, same⟩)
    · exact absurd opens (nowhere front back whole)
    · exact same
  · exact fun same => .inr ⟨nowhere, same⟩

theorem insertedLast_some {inserted result front back : Text}
    (found : cutLast bodyEnd html = some (front, back)) :
    InsertedLast html inserted result ↔ result = front ++ (inserted ++ back) := by
  have place := (cutLast_eq_some bodyEnd_ne_nil).mp found
  constructor
  · rintro (⟨other, rest, whole, opens, last, same⟩ | ⟨nowhere, -⟩)
    · have again := (cutLast_eq_some bodyEnd_ne_nil).mpr ⟨whole, opens, last⟩
      obtain ⟨rfl, rfl⟩ := Prod.mk.inj (Option.some.inj (again.symm.trans found))
      exact same
    · exact absurd place.2.1 (nowhere front back place.1)
  · exact fun same => .inl ⟨front, back, place.1, place.2.1, place.2.2, same⟩

theorem pixel_opens (pixelUrl : Text) : ∃ more, pixel pixelUrl = '<' :: 'i' :: more := ⟨_, rfl⟩

theorem bodyEnd_opens : ∃ more, bodyEnd = '<' :: '/' :: more := ⟨_, rfl⟩

/-- What begins with the end of a body cannot be exchanged with a pixel. -/
theorem pixel_apart {moved rest : Text} (some_ : moved ≠ []) (opens : Opens bodyEnd (moved ++ rest)) :
    pixel pixelUrl ++ moved ≠ moved ++ pixel pixelUrl := by
  intro same
  obtain ⟨more, image⟩ := pixel_opens pixelUrl
  obtain ⟨tag, closing⟩ := bodyEnd_opens
  rw [image] at same
  rw [Opens, closing] at opens
  cases moved with
  | nil => exact some_ rfl
  | cons first moved =>
      cases moved with
      | nil =>
          have second := (List.cons.inj (List.cons.inj same).2).1
          exact absurd second (by decide)
      | cons second moved =>
          have letter : 'i' = second := (List.cons.inj (List.cons.inj same).2).1
          have slash : '/' = second.toLower :=
            (List.cons_prefix_cons.mp (List.cons_prefix_cons.mp opens).2).1
          rw [← letter] at slash
          exact absurd slash (by decide)

/-- The pixel is inserted in front of the last end of the body if and only if lower-casing what is in front
of that keeps its place. -/
theorem insertedLast_iff (casing : Casing) (html pixelUrl : Text) : (∃ result, injectOpenPixel casing html pixelUrl = some result ∧
    InsertedLast html (pixel pixelUrl) result) ↔ KeepsPlace casing html (pixel pixelUrl) := by
  have searched : rfind bodyEnd (casing.toLowercase html) = (cutLast bodyEnd html).map
      (fun parts => Str.byteLen (casing.toLowercase parts.1)) :=
    rfind_lowerFrom bodyEnd_ne_nil bodyEnd_clear
  unfold injectOpenPixel KeepsPlace
  cases found : cutLast bodyEnd html with
  | none =>
      rw [searched, found]
      simp [insertedLast_none found]
  | some parts =>
      obtain ⟨front, back⟩ := parts
      obtain ⟨whole, opens, -⟩ := (cutLast_eq_some bodyEnd_ne_nil).mp found
      rw [searched, found]
      simp only [Option.map_some, insertedLast_some found, Option.map_eq_some_iff]
      constructor
      · rintro ⟨result, ⟨⟨kept, rest⟩, cut, rfl⟩, same⟩ _ _ ⟨rfl, rfl⟩
        obtain ⟨split, length⟩ := Str.splitAtByte_some _ _ _ _ cut
        have parts := whole.symm.trans split
        rcases List.append_eq_append_iff.mp parts with ⟨moved, rfl, rfl⟩ | ⟨moved, rfl, rfl⟩
        · simp only [List.append_assoc, List.append_cancel_left_eq] at same
          rw [← List.append_assoc, ← List.append_assoc, List.append_cancel_right_eq] at same
          have nothing : moved = [] := by
            by_contra some_
            exact pixel_apart some_ opens same.symm
          subst nothing
          rw [List.append_nil] at length
          exact ⟨front, [], (List.append_nil _).symm, length, List.append_nil _⟩
        · simp only [List.append_assoc, List.append_cancel_left_eq] at same
          rw [← List.append_assoc, ← List.append_assoc, List.append_cancel_right_eq] at same
          exact ⟨kept, moved, rfl, length, same⟩
      · intro place
        obtain ⟨kept, moved, rfl, length, exchanged⟩ := place front back rfl
        refine ⟨_, ⟨(kept, moved ++ back), ?_, rfl⟩, ?_⟩
        · rw [whole, List.append_assoc, ← length, Str.splitAtByte_append]
        · simp only [List.append_assoc, List.append_cancel_left_eq]
          rw [← List.append_assoc, exchanged, List.append_assoc]

end Pixel

/-! ## Characters that get longer or shorter -/

/-- The pixel is put inside of a tag, or the cut panics. -/
theorem moved_pixel :
    injectOpenPixel Casing.few "\u0130</body>" [] =
        some ("\u0130<" ++ (pixel [] ++ "/body>")) ∧
      injectOpenPixel Casing.few "\u212A</body>" [] = none := by
  decide +kernel

end Camelmailer.Tracking
