import Camelmailer.Text.Lossy
import Camelmailer.Text.Paths
import Camelmailer.Text.Relaxed

/-!
# Octets and texts that are cut by position

What Rust's slices of octets do, and what `str` does at a byte offset. A slice has no result where
Rust would panic. At a position that a search has found it always has one; at a fixed offset of a
text it has none when a character of the text goes across the offset.
-/

namespace Camelmailer.Octets

open Utf8 Lines

/-! ## Octets -/

def isAsciiWhitespace (octet : UInt8) : Bool :=
  octet = 0x20 || octet = 0x09 || octet = 0x0A || octet = 0x0C || octet = 0x0D

def isAsciiAlphanumeric (octet : UInt8) : Bool :=
  let code := octet.toNat
  (0x30 ≤ code && code ≤ 0x39) || (0x41 ≤ code && code ≤ 0x5A) || (0x61 ≤ code && code ≤ 0x7A)

/-- White space is taken off at both ends. -/
def trimAscii (octets : Bytes) : Bytes :=
  (octets.dropWhile isAsciiWhitespace).rdropWhile isAsciiWhitespace

/-- `[u8]::eq_ignore_ascii_case`. -/
def eqIgnoreAsciiCase (left right : Bytes) : Bool := left.map Relaxed.lower == right.map Relaxed.lower

/-- `&octets[..stop]`. -/
def sliceTo (stop : Nat) (octets : Bytes) : Option Bytes :=
  if stop ≤ octets.length then some (octets.take stop) else none

/-- `&octets[start..]`. -/
def sliceFrom (start : Nat) (octets : Bytes) : Option Bytes :=
  if start ≤ octets.length then some (octets.drop start) else none

/-- The parts before and behind the first separator, if there is one. They are cut at its
position. -/
def partsAt (separator : UInt8) (octets : Bytes) : Option (Option (Bytes × Bytes)) :=
  match octets.findIdx? (fun octet => octet = separator) with
  | none => some none
  | some position =>
      match sliceTo position octets, sliceFrom (position + 1) octets with
      | some front, some back => some (some (front, back))
      | _, _ => none

/-- The position of a separator is one where octets can be cut. -/
theorem partsAt_eq (separator : UInt8) (octets : Bytes) :
    partsAt separator octets = some (Relaxed.cutAt separator octets) := by
  unfold partsAt
  cases found : octets.findIdx? (fun octet => octet = separator) with
  | none =>
      have absent : separator ∉ octets := by
        intro member
        have other := List.findIdx?_eq_none_iff.mp found separator member
        simp at other
      cases cut : Relaxed.cutAt separator octets with
      | none => rfl
      | some parts =>
          obtain ⟨rfl, -⟩ := Relaxed.cutAt_eq_some.mp cut
          simp at absent
  | some position =>
      obtain ⟨within, here, before⟩ := List.findIdx?_eq_some_iff_getElem.mp found
      have split : octets = octets.take position ++ separator :: octets.drop (position + 1) := by
        have item : octets[position] = separator := by simpa using here
        rw [← item, List.cons_getElem_drop_succ, List.take_append_drop]
      have absent : separator ∉ octets.take position := by
        intro member
        obtain ⟨index, early, same⟩ := List.mem_take_iff_getElem.mp member
        have other := before index (by omega)
        simp [same] at other
      have cut : Relaxed.cutAt separator octets =
          some (octets.take position, octets.drop (position + 1)) :=
        Relaxed.cutAt_eq_some.mpr ⟨split, absent⟩
      rw [cut]
      simp [sliceTo, sliceFrom, Nat.le_of_lt within, Nat.succ_le_of_lt within]

/-- Pieces that are cut after line feeds: each ends with the only one that it has, apart from the last,
which may have none. -/
structure Pieces (pieces : List Bytes) : Prop where
  ended : pieces.Pairwise (fun piece _ => piece.getLast? = some LF)
  whole : ∀ piece ∈ pieces, piece ≠ [] ∧ LF ∉ piece.dropLast

theorem Pieces.sublist {some all : List Bytes} (cut : Pieces all) (part : some.Sublist all) :
    Pieces some :=
  ⟨cut.ended.sublist part, fun piece member => cut.whole piece (part.subset member)⟩

theorem pieces_cons {line : Bytes} (unbroken : LF ∉ line) {pieces : List Bytes} (cut : Pieces pieces) :
    Pieces ((line ++ [LF]) :: pieces) := by
  constructor
  · exact List.pairwise_cons.mpr ⟨fun _ _ => List.getLast?_concat, cut.ended⟩
  · refine List.forall_mem_cons.mpr ⟨⟨by simp, ?_⟩, cut.whole⟩
    rwa [List.dropLast_concat]

/-- A stream is cut into pieces. -/
theorem pieces_splitInclusive (octets : Bytes) : Pieces (splitInclusive octets) := by
  obtain ⟨tail, whole, open_, unbroken⟩ := stream_lines octets
  rw [whole, splitInclusive_unlines unbroken, splitInclusive_unbroken open_]
  generalize complete octets = lines at unbroken
  induction lines with
  | nil =>
      by_cases none : tail = []
      · rw [if_pos none]
        exact ⟨.nil, by simp⟩
      · rw [if_neg none]
        refine ⟨List.pairwise_singleton _ _, List.forall_mem_singleton.mpr ⟨none, ?_⟩⟩
        exact fun member => open_ (List.mem_of_mem_dropLast member)
  | cons line lines ih =>
      obtain ⟨first, others⟩ := List.forall_mem_cons.mp unbroken
      exact pieces_cons first (ih others)

/-- Pieces are what they make up is cut into. -/
theorem Pieces.splitInclusive_flatten {pieces : List Bytes} (cut : Pieces pieces) :
    splitInclusive pieces.flatten = pieces := by
  induction pieces with
  | nil => rfl
  | cons piece rest ih =>
      obtain ⟨ends, ended⟩ := List.pairwise_cons.mp cut.ended
      obtain ⟨⟨some, inside⟩, others⟩ := List.forall_mem_cons.mp cut.whole
      obtain ⟨line, last, rfl⟩ := (List.eq_nil_or_concat' piece).resolve_left some
      rw [List.dropLast_concat] at inside
      by_cases feed : last = LF
      · rw [feed, List.flatten_cons, List.append_assoc, List.singleton_append,
          splitInclusive_line line _ inside, ih ⟨ended, others⟩]
      · have alone : rest = [] := by
          refine List.eq_nil_iff_forall_not_mem.mpr (fun other member => feed ?_)
          simpa using ends other member
        have unbroken : LF ∉ line ++ [last] := by simp [inside, Ne.symm feed]
        rw [alone, List.flatten_singleton, splitInclusive_unbroken unbroken, if_neg some]

/-- ASCII octets are those of a text. -/
theorem encode_decode_ascii {octets : Bytes} (ascii : ∀ octet ∈ octets, octet.toNat < 0x80) :
    encode (fromUtf8Lossy octets) = octets := by
  induction octets with
  | nil => rfl
  | cons octet rest ih =>
      obtain ⟨small, others⟩ := List.forall_mem_cons.mp ascii
      have value : (Char.ofNat octet.toNat).toNat = octet.toNat := toNat_ofNat _ (.inl (by omega))
      rw [decode_cons_ascii octet rest small, encode_cons, ih others,
        encode_ascii _ (by rwa [Ascii, value]), value, UInt8.ofNat_toNat]
      rfl

/-- Letters and digits are text. -/
theorem fromUtf8_alphanumeric {octets : Bytes}
    (plain : ∀ octet ∈ octets, isAsciiAlphanumeric octet = true) :
    Paths.fromUtf8 octets = some (fromUtf8Lossy octets) := by
  refine if_pos (encode_decode_ascii (fun octet member => ?_))
  have codes := plain octet member
  simp only [isAsciiAlphanumeric, Bool.or_eq_true, Bool.and_eq_true, decide_eq_true_eq] at codes
  omega

/-! ## Texts -/

/-- A character of a text goes across an offset. -/
def Straddled (offset : Nat) (text : Text) : Prop :=
  ∃ front char back, text = front ++ char :: back ∧ Str.byteLen front < offset ∧
    offset < Str.byteLen front + char.utf8Size

/-- A text cannot be cut past its end and across a character. -/
theorem splitAtByte_eq_none {offset : Nat} {text : Text} : Str.splitAtByte offset text = none ↔
    Str.byteLen text < offset ∨ Straddled offset text := by
  induction text generalizing offset with
  | nil =>
      have none : ¬ Straddled offset [] := by
        rintro ⟨front, char, back, split, -⟩
        simp at split
      cases offset with
      | zero => simp [Str.splitAtByte, none]
      | succ offset => simp [Str.splitAtByte]
  | cons first rest ih =>
      cases offset with
      | zero =>
          have none : ¬ Straddled 0 (first :: rest) := by
            rintro ⟨front, char, back, -, before, -⟩
            exact absurd before (Nat.not_lt_zero _)
          simp [Str.splitAtByte, none]
      | succ offset =>
          rw [Str.splitAtByte]
          split_ifs with fits
          · rw [Option.map_eq_none_iff, ih, Str.byteLen_cons]
            refine or_congr (by omega) ?_
            constructor
            · rintro ⟨front, char, back, rfl, before, across⟩
              exact ⟨first :: front, char, back, rfl, by rw [Str.byteLen_cons]; omega,
                by rw [Str.byteLen_cons]; omega⟩
            · rintro ⟨front, char, back, split, before, across⟩
              cases front with
              | nil =>
                  obtain ⟨rfl, rfl⟩ := List.cons.inj split
                  simp only [Str.byteLen_nil] at across
                  omega
              | cons other front =>
                  obtain ⟨rfl, rfl⟩ := List.cons.inj split
                  rw [Str.byteLen_cons] at before across
                  exact ⟨front, char, back, rfl, by omega, by omega⟩
          · refine iff_of_true rfl (.inr ⟨[], first, rest, rfl, ?_, ?_⟩)
            · exact Nat.succ_pos offset
            · omega

theorem utf8Size_toLower (char : Char) : char.toLower.utf8Size = char.utf8Size := by
  rcases Str.toLower_cases char with same | ⟨low, high, moved⟩
  · rw [same]
  · have ascii {char : Char} (small : char.toNat ≤ 127) : char.utf8Size = 1 :=
      Char.utf8Size_eq_one_iff.mpr (UInt32.le_iff_toNat_le.mpr small)
    rw [ascii (by omega), ascii (by omega)]

/-- Texts that are the same but for the case have the same length. -/
theorem byteLen_of_eqIgnoreAsciiCase {left right : Text}
    (same : Str.eqIgnoreAsciiCase left right = true) : Str.byteLen left = Str.byteLen right := by
  have lower (text : Text) : Str.byteLen (Str.toAsciiLowercase text) = Str.byteLen text := by
    induction text with
    | nil => rfl
    | cons char rest ih =>
        rw [Str.byteLen_cons, ← ih, ← utf8Size_toLower char]
        rfl
  rw [← lower left, ← lower right, eq_of_beq same]

/-- `str::lines`. A carriage return that no line feed follows stays. -/
def lines (text : Text) : List Text :=
  let pieces := text.splitOn '\n'
  pieces.dropLast.map (fun line => (Str.stripLast '\r' line).getD line) ++
    (pieces.getLast?.filter (fun line => line ≠ [])).toList

end Camelmailer.Octets
