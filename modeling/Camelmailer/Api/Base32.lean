import Camelmailer.Api.AuthApi
import Mathlib.Data.Nat.Digits.Lemmas

/-!
# Base32 secrets

`base32_encode` and `base32_decode` of `camelmailer-core/src/auth.rs` keep a buffer of 64 bits that they
never mask. Of the bits in it only the last few are still to be written. What has been written and these
bits are one number with what has been read.
-/

namespace Camelmailer.Api.AuthApi

open Utf8

/-! ## `base32_encode` -/

/-- The character of five bits. -/
def base32Digit (value : Nat) : Char := base32Alphabet.getD (value % 32) 'A'

/-- The loop that takes groups of five bits out of the buffer, and how many bits it leaves. -/
def drain (buffer : Nat) : Nat → Nat × Text
  | bits + 5 =>
      let rest := drain buffer bits
      (rest.1, base32Digit (buffer / 2 ^ bits) :: rest.2)
  | bits => (bits, [])

/-- The buffer of `base32_encode`, the number of bits in it, and the characters so far. -/
structure Encoder where
  buffer : Nat
  bits : Nat
  out : Text

/-- One byte of `base32_encode`. -/
def Encoder.push (state : Encoder) (byte : UInt8) : Encoder :=
  let buffer := (state.buffer * 256 + byte.toNat) % 2 ^ 64
  let drained := drain buffer (state.bits + 8)
  ⟨buffer, drained.1, state.out ++ drained.2⟩

def base32Encode (data : Bytes) : Text :=
  let last := data.foldl Encoder.push ⟨0, 0, []⟩
  last.out ++
    if 0 < last.bits then [base32Digit (last.buffer * 2 ^ (5 - last.bits) % 2 ^ 64)] else []

/-! ## Bits in a buffer -/

section Buffer

/-- Of the last bits of a buffer of 64, those that have been there move to the front. -/
theorem low_push (buffer : Nat) {bits width value : Nat} (room : bits + width ≤ 64)
    (small : value < 2 ^ width) :
    (buffer * 2 ^ width + value) % 2 ^ 64 % 2 ^ (bits + width) = buffer % 2 ^ bits * 2 ^ width + value := by
  rw [Nat.mod_mod_of_dvd _ (Nat.pow_dvd_pow 2 room), Nat.pow_add, Nat.mul_comm (2 ^ bits), Nat.mod_mul,
    Nat.mul_comm buffer, Nat.mul_add_mod, Nat.mod_eq_of_lt small,
    Nat.mul_add_div (Nat.two_pow_pos width), Nat.div_eq_of_lt small, Nat.add_zero, Nat.add_comm,
    Nat.mul_comm]

/-- The first group of the last bits of a buffer. -/
theorem low_take (buffer bits width : Nat) : buffer % 2 ^ (bits + width) =
    buffer / 2 ^ bits % 2 ^ width * 2 ^ bits + buffer % 2 ^ bits := by
  rw [Nat.pow_add, Nat.mod_mul, Nat.add_comm, Nat.mul_comm]

/-- A number to a base with one more digit. -/
theorem ofDigits_concat (base : Nat) (digits : List Nat) (digit : Nat) :
    Nat.ofDigits base (digits ++ [digit]).reverse = Nat.ofDigits base digits.reverse * base + digit := by
  rw [List.reverse_concat, Nat.ofDigits_cons, Nat.mul_comm, Nat.add_comm]

end Buffer

/-! ## The encoder -/

section Encode

variable {data : Bytes} {codes : List Nat}

/-- Characters for groups of five bits. -/
structure Spells (codes : List Nat) (text : Text) : Prop where
  small : ∀ code ∈ codes, code < 32
  spelled : text = codes.map base32Digit

theorem Spells.append {more : List Nat} {text rest : Text} (front : Spells codes text)
    (back : Spells more rest) : Spells (codes ++ more) (text ++ rest) where
  small := List.forall_mem_append.mpr ⟨front.small, back.small⟩
  spelled := by rw [front.spelled, back.spelled, List.map_append]

theorem spells_digit (value : Nat) : Spells [value % 32] [base32Digit value] where
  small := by simp [Nat.mod_lt]
  spelled := by simp [base32Digit]

/-- What has been read is what has been written and the last bits of the buffer. -/
structure Encoder.Holds (state : Encoder) (data : Bytes) (codes : List Nat) : Prop where
  spells : Spells codes state.out
  few : state.bits < 5
  length : 8 * data.length = 5 * codes.length + state.bits
  value : Nat.ofDigits 256 (data.map UInt8.toNat).reverse =
    Nat.ofDigits 32 codes.reverse * 2 ^ state.bits + state.buffer % 2 ^ state.bits

/-- The groups that are taken out, and the bits that are left. -/
theorem drain_spec (buffer bits : Nat) : ∃ codes, Spells codes (drain buffer bits).2 ∧
    (drain buffer bits).1 < 5 ∧ bits = 5 * codes.length + (drain buffer bits).1 ∧
    ∀ front, Nat.ofDigits 32 front.reverse * 2 ^ bits + buffer % 2 ^ bits =
      Nat.ofDigits 32 (front ++ codes).reverse * 2 ^ (drain buffer bits).1 +
        buffer % 2 ^ (drain buffer bits).1 := by
  induction bits using Nat.strongRecOn with
  | ind bits ih =>
      by_cases many : 5 ≤ bits
      · obtain ⟨bits, rfl⟩ := Nat.exists_eq_add_of_le' many
        obtain ⟨codes, spells, few, length, value⟩ := ih bits (by omega)
        refine ⟨buffer / 2 ^ bits % 32 :: codes, (spells_digit _).append spells, few, ?_, ?_⟩
        · rw [List.length_cons, drain]
          omega
        · intro front
          have next := value (front ++ [buffer / 2 ^ bits % 32])
          rw [ofDigits_concat, List.append_assoc, List.singleton_append] at next
          rw [drain]
          have taken : buffer % 2 ^ (bits + 5) =
              buffer / 2 ^ bits % 32 * 2 ^ bits + buffer % 2 ^ bits := low_take buffer bits 5
          rw [← next, taken]
          ring
      · have stops : drain buffer bits = (bits, []) := by
          rw [drain]
          omega
        rw [stops]
        exact ⟨[], ⟨by simp, rfl⟩, by omega, by simp, by simp⟩

theorem Encoder.Holds.push {state : Encoder} (holds : state.Holds data codes) (byte : UInt8) :
    ∃ more, (state.push byte).Holds (data ++ [byte]) (codes ++ more) := by
  obtain ⟨more, spells, few, length, value⟩ :=
    drain_spec ((state.buffer * 256 + byte.toNat) % 2 ^ 64) (state.bits + 8)
  have bits := holds.few
  refine ⟨more, holds.spells.append spells, few, ?_, ?_⟩
  · have before := holds.length
    rw [List.length_append, List.length_append, List.length_singleton, Encoder.push]
    dsimp only
    omega
  · have low : (state.buffer * 256 + byte.toNat) % 2 ^ 64 % 2 ^ (state.bits + 8) =
        state.buffer % 2 ^ state.bits * 256 + byte.toNat :=
      low_push state.buffer (show state.bits + 8 ≤ 64 by omega) byte.toNat_lt
    rw [List.map_append, List.map_singleton, ofDigits_concat, holds.value, Encoder.push, ← value codes,
      low]
    ring

theorem encoder_holds (data : Bytes) : ∃ codes, (data.foldl Encoder.push ⟨0, 0, []⟩).Holds data codes := by
  induction data using List.reverseRecOn with
  | nil => exact ⟨[], ⟨by simp, rfl⟩, by simp, rfl, by simp⟩
  | append_singleton data byte ih =>
      obtain ⟨codes, holds⟩ := ih
      obtain ⟨more, pushed⟩ := holds.push byte
      rw [List.foldl_append]
      exact ⟨codes ++ more, pushed⟩

/-- The characters that are written spell the data, with fewer than five zeros behind it. -/
theorem base32Encode_spec (data : Bytes) : ∃ codes zeros, Spells codes (base32Encode data) ∧ zeros < 5 ∧
    8 * data.length + zeros = 5 * codes.length ∧
    Nat.ofDigits 32 codes.reverse = Nat.ofDigits 256 (data.map UInt8.toNat).reverse * 2 ^ zeros := by
  obtain ⟨codes, holds⟩ := encoder_holds data
  have length := holds.length
  have value := holds.value
  have few := holds.few
  unfold base32Encode
  dsimp only
  generalize data.foldl Encoder.push ⟨0, 0, []⟩ = last at holds length value few ⊢
  by_cases none_ : last.bits = 0
  · rw [if_neg (by omega), List.append_nil]
    refine ⟨codes, 0, holds.spells, by decide, by omega, ?_⟩
    rw [value, none_]
    simp [Nat.mod_one]
  · rw [if_pos (Nat.pos_of_ne_zero none_)]
    refine ⟨codes ++ [last.buffer * 2 ^ (5 - last.bits) % 2 ^ 64 % 32], 5 - last.bits,
      holds.spells.append (spells_digit _), by omega, ?_, ?_⟩
    · rw [List.length_append, List.length_singleton]
      omega
    · have width : last.bits + (5 - last.bits) = 5 := by omega
      have low := low_push last.buffer (show last.bits + (5 - last.bits) ≤ 64 by omega) (Nat.two_pow_pos _)
      rw [width, Nat.add_zero, Nat.add_zero] at low
      have last_ : last.buffer * 2 ^ (5 - last.bits) % 2 ^ 64 % 32 = _ := low
      have whole : 2 ^ last.bits * 2 ^ (5 - last.bits) = 32 := by
        rw [← pow_add, width]
        rfl
      rw [ofDigits_concat, value, last_, add_mul, mul_assoc, whole]

end Encode

/-! ## The decoder -/

section Decode

variable {codes : List Nat}

/-- What has been read is what has been written and the last bits of the buffer. -/
structure Base32.Holds (state : Base32) (codes : List Nat) : Prop where
  few : state.bits < 8
  length : 5 * codes.length = 8 * state.out.length + state.bits
  value : Nat.ofDigits 32 codes.reverse =
    Nat.ofDigits 256 (state.out.map UInt8.toNat).reverse * 2 ^ state.bits + state.buffer % 2 ^ state.bits

/-- A character of the alphabet, of either case. -/
theorem digit_char : ∀ code < 32, Ascii (base32Digit code) ∧
    base32Alphabet.idxOf? (base32Digit code) = some code ∧ (base32Digit code).toUpper = base32Digit code ∧
    base32Digit code ≠ '=' ∧ base32Digit code ≠ ' ' ∧ base32Digit code ∈ base32Alphabet := by
  decide

theorem ascii_of_toUpper {char : Char} (ascii : Ascii char.toUpper) : Ascii char := by
  have one := Str.utf8Size_of_toUpper char ascii
  rw [Char.utf8Size_eq_one_iff] at one
  exact Nat.lt_succ_of_le one

theorem Base32.Holds.push {state : Base32} {octet : UInt8} {code : Nat} (holds : state.Holds codes)
    (small : code < 32) (visible : ¬ (octet = 61 ∨ octet = 32))
    (read : base32Alphabet.idxOf? (Char.ofNat octet.toNat).toUpper = some code) :
    ∃ next, state.push octet = some next ∧ next.Holds (codes ++ [code]) := by
  obtain ⟨few, length, value⟩ := holds
  have low : (state.buffer * 32 + code) % 2 ^ 64 % 2 ^ (state.bits + 5) =
      state.buffer % 2 ^ state.bits * 32 + code :=
    low_push state.buffer (show state.bits + 5 ≤ 64 by omega) small
  unfold Base32.push
  rw [if_neg visible, read]
  dsimp only
  by_cases full : 8 ≤ state.bits + 5
  · rw [if_pos full]
    refine ⟨_, rfl, ?_, ?_, ?_⟩
    · dsimp only
      omega
    · simp only [List.length_append, List.length_singleton]
      omega
    · have taken := low_take ((state.buffer * 32 + code) % 2 ^ 64) (state.bits + 5 - 8) 8
      rw [Nat.sub_add_cancel full, low] at taken
      have written : (UInt8.ofNat ((state.buffer * 32 + code) % 2 ^ 64 / 2 ^ (state.bits + 5 - 8))).toNat =
          (state.buffer * 32 + code) % 2 ^ 64 / 2 ^ (state.bits + 5 - 8) % 2 ^ 8 := UInt8.toNat_ofNat'
      rw [List.map_append, List.map_singleton, ofDigits_concat, ofDigits_concat, value, written]
      have wide : (2 : Nat) ^ state.bits * 32 = 256 * 2 ^ (state.bits + 5 - 8) := by
        rw [show (32 : Nat) = 2 ^ 5 from rfl, show (256 : Nat) = 2 ^ 8 from rfl, ← pow_add, ← pow_add]
        congr 1
        omega
      calc
        _ = Nat.ofDigits 256 (state.out.map UInt8.toNat).reverse * (2 ^ state.bits * 32) +
            (state.buffer % 2 ^ state.bits * 32 + code) := by ring
        _ = _ := by rw [wide, taken]; ring
  · rw [if_neg full]
    refine ⟨_, rfl, by dsimp only; omega, ?_, ?_⟩
    · rw [List.length_append, List.length_singleton]
      dsimp only
      omega
    · rw [ofDigits_concat, value]
      rw [low]
      ring

/-- The octets of a text that spells some groups, in letters of any case and with characters in between
that are passed over. -/
theorem foldlM_push (text : Text) {state : Base32} (holds : state.Holds codes) {more : List Nat}
    (spells : Spells more ((text.filter (fun char => char ≠ '=' ∧ char ≠ ' ')).map Char.toUpper)) :
    ∃ last, (encode text).foldlM Base32.push state = some last ∧ last.Holds (codes ++ more) := by
  induction text generalizing state codes more with
  | nil =>
      obtain rfl : more = [] := List.map_eq_nil_iff.mp spells.spelled.symm
      exact ⟨state, rfl, by rwa [List.append_nil]⟩
  | cons char text ih =>
      by_cases passed : char = '=' ∨ char = ' '
      · have octets : encode (char :: text) = (if char = '=' then 61 else 32) :: encode text := by
          obtain rfl | rfl := passed <;> rfl
        have skipped : state.push (if char = '=' then 61 else 32) = some state := by
          unfold Base32.push
          rw [if_pos (by split_ifs <;> simp)]
        rw [List.filter_cons_of_neg (by simpa using fun other => passed.resolve_left other)] at spells
        rw [octets, List.foldlM_cons, skipped]
        exact ih holds spells
      · obtain ⟨notSign, notSpace⟩ := not_or.mp passed
        rw [List.filter_cons_of_pos (by simp [notSign, notSpace])] at spells
        obtain ⟨small, spelled⟩ := spells
        obtain ⟨code, more, rfl⟩ := List.exists_cons_of_ne_nil (l := more) (by rintro rfl; simp at spelled)
        obtain ⟨upper, rest⟩ := List.cons_eq_cons.mp (spelled.trans List.map_cons)
        obtain ⟨less, others⟩ := List.forall_mem_cons.mp small
        obtain ⟨ascii, index, -⟩ := digit_char code less
        have own : Ascii char := ascii_of_toUpper (upper ▸ ascii)
        have value : (UInt8.ofNat char.toNat).toNat = char.toNat :=
          UInt8.toNat_ofNat_of_lt' (Nat.lt_trans own (by decide))
        have visible : ¬ (UInt8.ofNat char.toNat = 61 ∨ UInt8.ofNat char.toNat = 32) := by
          rintro (sign | space)
          · exact notSign (Char.toNat_inj.mp (value ▸ congrArg UInt8.toNat sign))
          · exact notSpace (Char.toNat_inj.mp (value ▸ congrArg UInt8.toNat space))
        obtain ⟨next, pushed, holds⟩ := holds.push less visible (by rwa [value, Char.ofNat_toNat, upper])
        obtain ⟨last, ran, ends⟩ := ih holds ⟨others, rest⟩
        rw [encode_cons, encode_ascii char own, List.singleton_append, List.foldlM_cons, pushed]
        exact ⟨last, ran, by rwa [List.append_assoc] at ends⟩

/-- A text that is an encoding, but for the case of its letters and for signs and spaces in it. -/
theorem base32Decode_encode {data : Bytes} {text : Text}
    (same : (text.filter (fun char => char ≠ '=' ∧ char ≠ ' ')).map Char.toUpper = base32Encode data) :
    base32Decode text = some data := by
  obtain ⟨codes, zeros, spells, few, length, value⟩ := base32Encode_spec data
  have start : Base32.Holds ⟨0, 0, []⟩ [] := ⟨by decide, rfl, rfl⟩
  obtain ⟨last, ran, holds⟩ := foldlM_push text start (same ▸ spells)
  have read := holds.length
  have bits := holds.few
  have written := holds.value
  rw [List.nil_append] at read written
  have left : last.bits = zeros := by omega
  rw [value, left] at written
  have high : Nat.ofDigits 256 (data.map UInt8.toNat).reverse =
      Nat.ofDigits 256 (last.out.map UInt8.toNat).reverse := by
    have divided := congrArg (· / 2 ^ zeros) written
    rwa [Nat.mul_div_cancel _ (Nat.two_pow_pos zeros), Nat.mul_comm, Nat.mul_add_div (Nat.two_pow_pos zeros),
      Nat.div_eq_of_lt (Nat.mod_lt _ (Nat.two_pow_pos zeros))] at divided
  have octets (bytes : Bytes) : ∀ digit ∈ (bytes.map UInt8.toNat).reverse, digit < 256 := by
    intro digit member
    obtain ⟨byte, -, rfl⟩ := List.mem_map.mp (List.mem_reverse.mp member)
    exact byte.toNat_lt
  have reversed := Nat.ofDigits_inj_of_len_eq (by decide) (by simp; omega) (octets _) (octets _) high
  have same := List.map_injective_iff.mpr (fun _ _ => UInt8.toNat_inj.mp) (List.reverse_injective reversed)
  rw [base32Decode, ran, same]
  rfl

end Decode

/-- Decoding inverts encoding, also after the case of letters has been changed and signs or spaces have been
put in. An encoding has a character of the alphabet for every five bits that have begun. -/
theorem base32_round_trip (data : Bytes) :
    base32Decode (base32Encode data) = some data ∧
      (∀ text : Text, (text.filter (fun char => char ≠ '=' ∧ char ≠ ' ')).map Char.toUpper =
        base32Encode data → base32Decode text = some data) ∧
      (base32Encode data).length = (8 * data.length + 4) / 5 ∧
      ∀ char ∈ base32Encode data, char ∈ base32Alphabet := by
  obtain ⟨codes, zeros, ⟨small, spelled⟩, few, length, -⟩ := base32Encode_spec data
  have digits (char : Char) (member : char ∈ base32Encode data) :
      char.toUpper = char ∧ char ≠ '=' ∧ char ≠ ' ' ∧ char ∈ base32Alphabet := by
    rw [spelled] at member
    obtain ⟨code, inside, rfl⟩ := List.mem_map.mp member
    exact (digit_char code (small code inside)).2.2
  have own : ((base32Encode data).filter (fun char => char ≠ '=' ∧ char ≠ ' ')).map Char.toUpper =
      base32Encode data := by
    rw [List.filter_eq_self.mpr (fun char member => by
      obtain ⟨-, notSign, notSpace, -⟩ := digits char member
      simp [notSign, notSpace])]
    exact (List.map_congr_left (fun char member => (digits char member).1)).trans (List.map_id' _)
  refine ⟨base32Decode_encode own, fun text => base32Decode_encode, ?_, ?_⟩
  · rw [spelled, List.length_map]
    omega
  · exact fun char member => (digits char member).2.2.2

end Camelmailer.Api.AuthApi
