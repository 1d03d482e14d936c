import Mathlib.Data.List.Basic
import Mathlib.Tactic.IntervalCases
import Mathlib.Data.List.Induction
import Mathlib.Tactic.Common

/-!
# UTF-8 octets and lossy decoding

Text is the sequence of its Unicode scalar values. Encoding writes each scalar
value as its UTF-8 octets. Decoding is lossy: one U+FFFD stands for every
maximal ill-formed subsequence, as the Unicode standard recommends, so no input
is refused.

The decoder is a table of states between octets, and every octet is read once. A
first octet fixes how many octets are owed and the bounds of the next one; these
bounds exclude overlong forms, surrogates and values above U+10FFFF. An octet
outside the bounds abandons the pending sequence and is read again as a first one.

The laws below are what a line protocol needs of this format: decoding inverts
encoding, an ASCII octet always decodes to itself, and no other octet can produce
an ASCII character.
-/

namespace Camelmailer.Utf8

/-- Octets as they are stored and travel on the wire. -/
abbrev Bytes := List UInt8

/-- A string as the sequence of its Unicode scalar values. -/
abbrev Text := List Char

instance : LawfulBEq Text := inferInstance

instance : Coe String Text := ⟨String.toList⟩

/-- The octets of a text, one scalar value after another. -/
def encode (text : Text) : Bytes := text.flatMap String.utf8EncodeChar

/-- The character that stands for an ill-formed sequence. -/
def replacement : Char := '\uFFFD'

/-- Between two octets the decoder owes nothing, or `count` further octets: the
next one between `low` and `high`, with `code` read so far. -/
inductive Decoder where
  | start
  | owed (count low high code : Nat)
deriving DecidableEq

/-- Read a first octet. Octets that begin no well-formed sequence are replaced at
once: continuation octets, the overlong leads C0 and C1, and everything past F4. -/
def first (octet : Nat) : Decoder × Text :=
  if octet < 0x80 then (.start, [Char.ofNat octet])
  else if 0xC2 ≤ octet ∧ octet ≤ 0xDF then (.owed 1 0x80 0xBF (octet - 0xC0), [])
  else if octet = 0xE0 then (.owed 2 0xA0 0xBF 0, [])
  else if octet = 0xED then (.owed 2 0x80 0x9F 0xD, [])
  else if 0xE1 ≤ octet ∧ octet ≤ 0xEF then (.owed 2 0x80 0xBF (octet - 0xE0), [])
  else if octet = 0xF0 then (.owed 3 0x90 0xBF 0, [])
  else if 0xF1 ≤ octet ∧ octet ≤ 0xF3 then (.owed 3 0x80 0xBF (octet - 0xF0), [])
  else if octet = 0xF4 then (.owed 3 0x80 0x8F 4, [])
  else (.start, [replacement])

/-- Read one octet. A refused continuation replaces what was pending and starts
over with the same octet. -/
def step : Decoder → UInt8 → Decoder × Text
  | .start, octet => first octet.toNat
  | .owed count low high code, octet =>
      if low ≤ octet.toNat ∧ octet.toNat ≤ high then
        let extended := code * 64 + (octet.toNat - 0x80)
        if count ≤ 1 then (.start, [Char.ofNat extended])
        else (.owed (count - 1) 0x80 0xBF extended, [])
      else ((first octet.toNat).1, replacement :: (first octet.toNat).2)

/-- What the end of the input adds: an unfinished sequence is replaced. -/
def flush : Decoder → Text
  | .start => []
  | .owed _ _ _ _ => [replacement]

/-- Decode from a given state. -/
def decodeFrom : Decoder → Bytes → Text
  | state, [] => flush state
  | state, octet :: rest => (step state octet).2 ++ decodeFrom (step state octet).1 rest

/-- Rust's `String::from_utf8_lossy`. -/
def fromUtf8Lossy (bytes : Bytes) : Text := decodeFrom .start bytes

/-- A character of the ASCII range, which UTF-8 writes as a single octet. -/
def Ascii (char : Char) : Prop := char.toNat < 0x80

instance (char : Char) : Decidable (Ascii char) := inferInstanceAs (Decidable (char.toNat < 0x80))

@[simp] theorem encode_nil : encode [] = [] := rfl

@[simp] theorem encode_cons (char : Char) (rest : Text) :
    encode (char :: rest) = String.utf8EncodeChar char ++ encode rest := rfl

@[simp] theorem encode_append (left right : Text) :
    encode (left ++ right) = encode left ++ encode right := by
  simp [encode]

/-- The four encoded forms by code point, with the bounds that select each one.
Surrogates are not scalar values, which the three-octet form records. -/
theorem encode_forms (char : Char) :
    (char.toNat < 0x80 ∧ String.utf8EncodeChar char = [UInt8.ofNat char.toNat]) ∨
    (0x80 ≤ char.toNat ∧ char.toNat < 0x800 ∧ String.utf8EncodeChar char =
      [UInt8.ofNat (char.toNat / 64 + 0xC0), UInt8.ofNat (char.toNat % 64 + 0x80)]) ∨
    (0x800 ≤ char.toNat ∧ char.toNat < 0x10000 ∧
      (char.toNat < 0xD800 ∨ 0xDFFF < char.toNat) ∧ String.utf8EncodeChar char =
      [UInt8.ofNat (char.toNat / 4096 + 0xE0), UInt8.ofNat (char.toNat / 64 % 64 + 0x80),
        UInt8.ofNat (char.toNat % 64 + 0x80)]) ∨
    (0x10000 ≤ char.toNat ∧ char.toNat < 0x110000 ∧ String.utf8EncodeChar char =
      [UInt8.ofNat (char.toNat / 262144 + 0xF0), UInt8.ofNat (char.toNat / 4096 % 64 + 0x80),
        UInt8.ofNat (char.toNat / 64 % 64 + 0x80), UInt8.ofNat (char.toNat % 64 + 0x80)]) := by
  have scalar : char.toNat < 0xD800 ∨ 0xDFFF < char.toNat ∧ char.toNat < 0x110000 := char.valid
  simp only [String.utf8EncodeChar, Char.toNat_val]
  by_cases one : char.toNat ≤ 127
  · exact .inl ⟨by omega, by rw [if_pos one]⟩
  · rw [if_neg one]
    by_cases two : char.toNat ≤ 2047
    · refine .inr (.inl ⟨by omega, by omega, ?_⟩)
      rw [if_pos two, Nat.mod_eq_of_lt (by omega : char.toNat / 64 < 32)]
    · rw [if_neg two]
      by_cases three : char.toNat ≤ 65535
      · refine .inr (.inr (.inl ⟨by omega, by omega, by omega, ?_⟩))
        rw [if_pos three, Nat.mod_eq_of_lt (by omega : char.toNat / 4096 < 16)]
      · refine .inr (.inr (.inr ⟨by omega, by omega, ?_⟩))
        rw [if_neg three, Nat.mod_eq_of_lt (by omega : char.toNat / 262144 < 8)]

/-- An ASCII character is its own octet. -/
theorem encode_ascii (char : Char) (ascii : Ascii char) :
    String.utf8EncodeChar char = [UInt8.ofNat char.toNat] := by
  unfold Ascii at ascii
  rcases encode_forms char with ⟨_, form⟩ | ⟨low, _⟩ | ⟨low, _⟩ | ⟨low, _⟩
  all_goals omega

/-- An octet is its value while that value fits in eight bits. -/
theorem octet_value (value : Nat) (fits : value < 0x100) : (UInt8.ofNat value).toNat = value := by
  rw [UInt8.toNat_ofNat', Nat.mod_eq_of_lt fits]

/-- Every octet of a longer encoding has its high bit set. -/
theorem encode_high (char : Char) (wide : ¬ Ascii char) (octet : UInt8)
    (member : octet ∈ String.utf8EncodeChar char) : 0x80 ≤ octet.toNat := by
  unfold Ascii at wide
  rcases encode_forms char with ⟨small, _⟩ | ⟨_, _, form⟩ | ⟨_, _, _, form⟩ | ⟨_, _, form⟩
  · omega
  · simp only [form, List.mem_cons, List.not_mem_nil, or_false] at member
    rcases member with rfl | rfl <;> rw [octet_value] <;> omega
  · simp only [form, List.mem_cons, List.not_mem_nil, or_false] at member
    rcases member with rfl | rfl | rfl <;> rw [octet_value] <;> omega
  · simp only [form, List.mem_cons, List.not_mem_nil, or_false] at member
    rcases member with rfl | rfl | rfl | rfl <;> rw [octet_value] <;> omega

/-- An ASCII octet occurs only in the encoding of its own character. -/
theorem mem_encodeChar (char : Char) (octet : UInt8) (small : octet.toNat < 0x80) :
    octet ∈ String.utf8EncodeChar char ↔ char.toNat = octet.toNat := by
  by_cases ascii : Ascii char
  · rw [encode_ascii char ascii, List.mem_singleton, ← UInt8.toNat_inj,
      octet_value _ (Nat.lt_trans ascii (by decide))]
    exact eq_comm
  · constructor
    · intro member
      have high := encode_high char ascii octet member
      omega
    · intro same
      exact absurd (show char.toNat < 0x80 by omega) ascii

/-- The state reached after some octets, and the text they completed. -/
def scan : Decoder → Bytes → Decoder × Text
  | state, [] => (state, [])
  | state, octet :: rest =>
      let later := scan (step state octet).1 rest
      (later.1, (step state octet).2 ++ later.2)

/-- Decoding continues from the state the first part leaves. -/
theorem decode_append (state : Decoder) (left right : Bytes) :
    decodeFrom state (left ++ right) =
      (scan state left).2 ++ decodeFrom (scan state left).1 right := by
  induction left generalizing state with
  | nil => simp [scan]
  | cons octet rest ih =>
    simp [decodeFrom, scan, ih]

/-- A first octet given by its value. -/
theorem step_start (value : Nat) (fits : value < 0x100) :
    step .start (UInt8.ofNat value) = first value := by
  simp only [step, octet_value value fits]

/-- An admitted continuation octet that leaves further octets owed. -/
theorem step_continued (count low high code offset : Nat) (fits : offset < 64)
    (lower : low ≤ offset + 0x80) (upper : offset + 0x80 ≤ high) :
    step (.owed (count + 2) low high code) (UInt8.ofNat (offset + 0x80)) =
      (.owed (count + 1) 0x80 0xBF (code * 64 + offset), []) := by
  simp only [step, octet_value _ (by omega : offset + 0x80 < 0x100), lower, upper, and_self,
    if_true, Nat.add_sub_cancel]
  rfl

/-- An admitted last octet completes the character. -/
theorem step_completed (low high code offset : Nat) (fits : offset < 64)
    (lower : low ≤ offset + 0x80) (upper : offset + 0x80 ≤ high) :
    step (.owed 1 low high code) (UInt8.ofNat (offset + 0x80)) =
      (.start, [Char.ofNat (code * 64 + offset)]) := by
  simp only [step, octet_value _ (by omega : offset + 0x80 < 0x100), lower, upper, and_self,
    if_true, Nat.add_sub_cancel, Nat.le_refl]

/-- The lead octet of a three-octet form fixes the bounds of its second octet. -/
theorem first_three (lead : Nat) (bound : lead < 16) :
    ∃ low high, first (lead + 0xE0) = (.owed 2 low high lead, []) ∧
      low = (if lead = 0 then 0xA0 else 0x80) ∧ high = (if lead = 0xD then 0x9F else 0xBF) := by
  interval_cases lead <;> exact ⟨_, _, rfl, rfl, rfl⟩

/-- The lead octet of a four-octet form fixes the bounds of its second octet. -/
theorem first_four (lead : Nat) (bound : lead < 5) :
    ∃ low high, first (lead + 0xF0) = (.owed 3 low high lead, []) ∧
      low = (if lead = 0 then 0x90 else 0x80) ∧ high = (if lead = 4 then 0x8F else 0xBF) := by
  interval_cases lead <;> exact ⟨_, _, rfl, rfl, rfl⟩

/-- Reading the octets of one character from the start completes exactly that
character. Each encoded form walks through the states its lead octet selects. -/
theorem scan_encoded (char : Char) :
    scan .start (String.utf8EncodeChar char) = (.start, [char]) := by
  rcases encode_forms char with ⟨one, form⟩ | ⟨low, high, form⟩ | ⟨low, high, scalar, form⟩ |
      ⟨low, high, form⟩ <;> rw [form]
  · simp [scan, step_start _ (by omega : char.toNat < 0x100), first, one]
  · have begun : first (char.toNat / 64 + 0xC0) = (.owed 1 0x80 0xBF (char.toNat / 64), []) := by
      rw [first, if_neg (by omega), if_pos (by omega), Nat.add_sub_cancel]
    have whole : char.toNat / 64 * 64 + char.toNat % 64 = char.toNat := by omega
    simp only [scan, step_start _ (by omega : char.toNat / 64 + 0xC0 < 0x100), begun,
      step_completed 0x80 0xBF (char.toNat / 64) (char.toNat % 64) (by omega) (by omega) (by omega),
      whole, Char.ofNat_toNat, List.nil_append, List.append_nil]
  · obtain ⟨lower, upper, begun, lowest, highest⟩ := first_three (char.toNat / 4096) (by omega)
    have whole : (char.toNat / 4096 * 64 + char.toNat / 64 % 64) * 64 + char.toNat % 64 =
        char.toNat := by omega
    have admitted : lower ≤ char.toNat / 64 % 64 + 0x80 ∧ char.toNat / 64 % 64 + 0x80 ≤ upper := by
      rw [lowest, highest]
      split <;> split <;> omega
    simp only [scan, step_start _ (by omega : char.toNat / 4096 + 0xE0 < 0x100), begun,
      step_continued 0 lower upper (char.toNat / 4096) (char.toNat / 64 % 64) (by omega)
        admitted.1 admitted.2,
      step_completed 0x80 0xBF (char.toNat / 4096 * 64 + char.toNat / 64 % 64)
        (char.toNat % 64) (by omega) (by omega) (by omega),
      whole, Char.ofNat_toNat, List.nil_append, List.append_nil]
  · obtain ⟨lower, upper, begun, lowest, highest⟩ := first_four (char.toNat / 262144) (by omega)
    have whole : ((char.toNat / 262144 * 64 + char.toNat / 4096 % 64) * 64 +
        char.toNat / 64 % 64) * 64 + char.toNat % 64 = char.toNat := by omega
    have admitted : lower ≤ char.toNat / 4096 % 64 + 0x80 ∧
        char.toNat / 4096 % 64 + 0x80 ≤ upper := by
      rw [lowest, highest]
      split <;> split <;> omega
    simp only [scan, step_start _ (by omega : char.toNat / 262144 + 0xF0 < 0x100), begun,
      step_continued 1 lower upper (char.toNat / 262144) (char.toNat / 4096 % 64) (by omega)
        admitted.1 admitted.2,
      step_continued 0 0x80 0xBF (char.toNat / 262144 * 64 + char.toNat / 4096 % 64)
        (char.toNat / 64 % 64) (by omega) (by omega) (by omega),
      step_completed 0x80 0xBF ((char.toNat / 262144 * 64 + char.toNat / 4096 % 64) * 64 +
        char.toNat / 64 % 64) (char.toNat % 64) (by omega) (by omega) (by omega),
      whole, Char.ofNat_toNat, List.nil_append, List.append_nil]

/-- Decoding inverts encoding, whatever follows the encoded text. -/
theorem decode_encode_append (text : Text) (rest : Bytes) :
    decodeFrom .start (encode text ++ rest) = text ++ decodeFrom .start rest := by
  induction text with
  | nil => rfl
  | cons char text ih =>
    rw [encode_cons, List.append_assoc, decode_append, scan_encoded, ih]
    rfl

/-- Lossy decoding loses nothing of a well-formed text. -/
@[simp] theorem decode_encode (text : Text) : fromUtf8Lossy (encode text) = text := by
  simpa [fromUtf8Lossy, decodeFrom, flush] using decode_encode_append text []

theorem encode_injective {text other : Text} (same : encode text = encode other) : text = other := by
  rw [← decode_encode text, same, decode_encode]

theorem encode_eq_nil {text : Text} : encode text = [] ↔ text = [] := by
  constructor
  · intro vacant
    simpa [vacant, fromUtf8Lossy, decodeFrom, flush] using (decode_encode text).symm
  · rintro rfl
    rfl

/-- What a pending sequence can still complete to, as bounds on the final code
point: past the ASCII range, and wholly below or wholly above the surrogates. -/
def Decoder.Wide : Decoder → Prop
  | .start => True
  | .owed count low high code =>
      1 ≤ count ∧ count ≤ 3 ∧ 0x80 ≤ low ∧ high ≤ 0xBF ∧
        0x80 ≤ (code * 64 + (low - 0x80)) * 64 ^ (count - 1) ∧
        ((code * 64 + (high - 0x80) + 1) * 64 ^ (count - 1) ≤ 0xD800 ∨
          0xE000 ≤ (code * 64 + (low - 0x80)) * 64 ^ (count - 1) ∧
            (code * 64 + (high - 0x80) + 1) * 64 ^ (count - 1) ≤ 0x110000)

/-- A scalar value is the code point of its character. -/
theorem toNat_ofNat (code : Nat) (scalar : code.isValidChar) : (Char.ofNat code).toNat = code := by
  rw [Char.ofNat, dif_pos scalar]
  rfl

/-- A code point past the ASCII range that is a scalar value is not ASCII. -/
theorem wide_char (code : Nat) (past : 0x80 ≤ code)
    (scalar : code < 0xD800 ∨ 0xDFFF < code ∧ code < 0x110000) : ¬ Ascii (Char.ofNat code) := by
  have same : (Char.ofNat code).toNat = code := toNat_ofNat code scalar
  rw [Ascii]
  omega

/-- The replacement character is not ASCII. -/
theorem wide_replacement : ¬ Ascii replacement := by decide

/-- The end of the input adds no ASCII character. -/
theorem wide_flush (state : Decoder) (char : Char) (member : char ∈ flush state) :
    ¬ Ascii char := by
  cases state with
  | start => cases member
  | owed count low high code =>
    rw [List.mem_singleton.mp member]
    exact wide_replacement

/-- A first octet with its high bit set leaves a wide state, adds no ASCII
character, and leaves something to show: a replacement or a pending sequence. -/
theorem first_high (octet : Nat) (high : 0x80 ≤ octet) :
    (first octet).1.Wide ∧ (∀ char ∈ (first octet).2, ¬ Ascii char) ∧
      (first octet).2 ++ flush (first octet).1 ≠ [] := by
  have pending {count low high code : Nat} (wide : (Decoder.owed count low high code).Wide) :
      (Decoder.owed count low high code).Wide ∧ (∀ char ∈ ([] : Text), ¬ Ascii char) ∧
        [] ++ flush (.owed count low high code) ≠ [] := ⟨wide, by simp, by simp [flush]⟩
  unfold first
  rw [if_neg (by omega)]
  split
  · apply pending
    simp only [Decoder.Wide]
    omega
  split
  · exact pending (by simp [Decoder.Wide])
  split
  · exact pending (by simp [Decoder.Wide])
  split
  · apply pending
    simp only [Decoder.Wide]
    omega
  split
  · exact pending (by simp [Decoder.Wide])
  split
  · apply pending
    simp only [Decoder.Wide]
    omega
  split
  · exact pending (by simp [Decoder.Wide])
  · exact ⟨trivial, by simp [wide_replacement], by simp⟩

/-- An ASCII octet ends whatever was pending and decodes to itself. -/
theorem step_ascii (state : Decoder) (octet : UInt8) (wide : state.Wide)
    (ascii : octet.toNat < 0x80) :
    step state octet = (.start, flush state ++ [Char.ofNat octet.toNat]) := by
  have begun : first octet.toNat = (.start, [Char.ofNat octet.toNat]) := by
    rw [first, if_pos ascii]
  cases state with
  | start => exact begun
  | owed count low high code =>
    have refused : ¬ (low ≤ octet.toNat ∧ octet.toNat ≤ high) := by
      have lowest : 0x80 ≤ low := wide.2.2.1
      omega
    simp [step, refused, begun, flush]

/-- Any other octet keeps the state wide and shows no ASCII character.

A refused octet is read again as a first one. An admitted octet narrows the
interval of final code points, and at the last one that interval is a single
scalar value past the ASCII range. -/
theorem step_high (state : Decoder) (octet : UInt8) (wide : state.Wide)
    (high : 0x80 ≤ octet.toNat) :
    (step state octet).1.Wide ∧ (∀ char ∈ (step state octet).2, ¬ Ascii char) ∧
      (step state octet).2 ++ flush (step state octet).1 ≠ [] := by
  cases state with
  | start => exact first_high octet.toNat high
  | owed count low upper code =>
    obtain ⟨positive, bounded, lowest, highest, past, scalar⟩ := wide
    by_cases admitted : low ≤ octet.toNat ∧ octet.toNat ≤ upper
    · simp only [step, admitted, and_self, if_true]
      have cases : count = 1 ∨ count = 2 ∨ count = 3 := by omega
      rcases cases with rfl | rfl | rfl
      · refine ⟨trivial, ?_, by simp⟩
        intro char member
        rw [List.mem_singleton.mp member]
        simp only [Nat.sub_self] at past scalar
        exact wide_char _ (by omega) (by omega)
      · rw [if_neg (by omega)]
        refine ⟨?_, by simp, by simp [flush]⟩
        simp only [Decoder.Wide]
        omega
      · rw [if_neg (by omega)]
        refine ⟨?_, by simp, by simp [flush]⟩
        simp only [Decoder.Wide]
        omega
    · simp only [step, admitted]
      obtain ⟨next, shown, _⟩ := first_high octet.toNat high
      refine ⟨next, ?_, by simp⟩
      intro char member
      rcases List.mem_cons.mp member with rfl | later
      · exact wide_replacement
      · exact shown char later

/-- Every state a scan reaches is wide. -/
theorem scan_wide (state : Decoder) (bytes : Bytes) (wide : state.Wide) :
    (scan state bytes).1.Wide := by
  induction bytes generalizing state with
  | nil => exact wide
  | cons octet rest ih =>
    apply ih
    by_cases ascii : octet.toNat < 0x80
    · rw [step_ascii state octet wide ascii]
      trivial
    · exact (step_high state octet wide (by omega)).1

/-- A final ASCII octet decodes to itself after everything before it. -/
theorem decode_concat_ascii (bytes : Bytes) (octet : UInt8) (ascii : octet.toNat < 0x80) :
    fromUtf8Lossy (bytes ++ [octet]) = fromUtf8Lossy bytes ++ [Char.ofNat octet.toNat] := by
  have wide : (scan .start bytes).1.Wide := scan_wide .start bytes trivial
  have whole : fromUtf8Lossy bytes = (scan .start bytes).2 ++ flush (scan .start bytes).1 := by
    simpa [fromUtf8Lossy, decodeFrom] using decode_append .start bytes []
  rw [whole, fromUtf8Lossy, decode_append]
  simp [decodeFrom, step_ascii _ octet wide ascii, flush]

/-- A final octet with its high bit set leaves a last character that is not ASCII. -/
theorem decode_concat_high (bytes : Bytes) (octet : UInt8) (high : 0x80 ≤ octet.toNat) :
    ∃ front last, fromUtf8Lossy (bytes ++ [octet]) = front ++ [last] ∧ ¬ Ascii last := by
  obtain ⟨_, shown, some⟩ :=
    step_high (scan .start bytes).1 octet (scan_wide .start bytes trivial) high
  have split : fromUtf8Lossy (bytes ++ [octet]) = (scan .start bytes).2 ++
      ((step (scan .start bytes).1 octet).2 ++ flush (step (scan .start bytes).1 octet).1) := by
    rw [fromUtf8Lossy, decode_append]
    simp [decodeFrom]
  obtain ⟨front, last, ending⟩ := List.eq_nil_or_concat'
    ((step (scan .start bytes).1 octet).2 ++ flush (step (scan .start bytes).1 octet).1)
      |>.resolve_left some
  refine ⟨(scan .start bytes).2 ++ front, last, by rw [split, ending, List.append_assoc], ?_⟩
  have member : last ∈
      (step (scan .start bytes).1 octet).2 ++ flush (step (scan .start bytes).1 octet).1 := by
    rw [ending]
    simp
  rcases List.mem_append.mp member with emitted | flushed
  · exact shown last emitted
  · exact wide_flush _ last flushed

/-- Octets decode to an ASCII text exactly when they are its encoding. -/
theorem decode_eq_ascii_iff (bytes : Bytes) (text : Text) (ascii : ∀ char ∈ text, Ascii char) :
    fromUtf8Lossy bytes = text ↔ bytes = encode text := by
  constructor
  · intro decoded
    induction bytes using List.reverseRecOn generalizing text with
    | nil =>
      have empty : text = [] := decoded.symm
      rw [empty]
      rfl
    | append_singleton bytes octet ih =>
      by_cases small : octet.toNat < 0x80
      · rw [decode_concat_ascii bytes octet small] at decoded
        subst decoded
        have front : bytes = encode (fromUtf8Lossy bytes) := by
          apply ih _ _ rfl
          intro char member
          exact ascii char (List.mem_append_left _ member)
        have last : String.utf8EncodeChar (Char.ofNat octet.toNat) = [octet] := by
          rw [encode_ascii _ (ascii _ (by simp)),
            toNat_ofNat _ (.inl (by omega)), UInt8.ofNat_toNat]
        rw [encode_append, ← front, encode_cons, last]
        rfl
      · obtain ⟨front, last, ending, wide⟩ := decode_concat_high bytes octet (by omega)
        rw [ending] at decoded
        subst decoded
        exact absurd (ascii last (by simp)) wide
  · rintro rfl
    exact decode_encode text

/-- An ASCII character of the decoded text was one of the octets. -/
theorem ascii_mem_decode (bytes : Bytes) (char : Char) (ascii : Ascii char)
    (member : char ∈ fromUtf8Lossy bytes) : UInt8.ofNat char.toNat ∈ bytes := by
  have general (bytes : Bytes) (state : Decoder) (wide : state.Wide)
      (found : char ∈ decodeFrom state bytes) : UInt8.ofNat char.toNat ∈ bytes := by
    induction bytes generalizing state with
    | nil => exact absurd ascii (wide_flush state char found)
    | cons octet rest ih =>
      rcases List.mem_append.mp found with emitted | later
      · by_cases small : octet.toNat < 0x80
        · rw [step_ascii state octet wide small] at emitted
          rcases List.mem_append.mp emitted with flushed | itself
          · exact absurd ascii (wide_flush state char flushed)
          · rw [List.mem_singleton.mp itself,
              toNat_ofNat _ (.inl (by omega)), UInt8.ofNat_toNat]
            exact List.mem_cons_self
        · exact absurd ascii ((step_high state octet wide (by omega)).2.1 char emitted)
      · exact List.mem_cons_of_mem octet
          (ih _ (scan_wide state [octet] wide) later)
  exact general bytes .start trivial member

end Camelmailer.Utf8
