import Camelmailer.Core.DmarcSummary
import Camelmailer.Core.Model

/-!
# Signatures of webhooks

`signature_header` and `verify_signature` of `camelmailer-core/src/lifecycle.rs`. A header carries
the time of the request and a digest of the time and the body, in hexadecimal. The receiver reads the
header leniently and looks at the time before it looks at the digest.

HMAC-SHA256 is any function of a key and a message.
-/

namespace Camelmailer.Lifecycle

open Utf8 Dmarc

/-! ## The source -/

/-- The digest of a body sent at a time. -/
def mac (hmac : Bytes → Bytes → Bytes) (secret : Text) (timestamp : Int64) (body : Text) : Bytes :=
  hmac (encode secret) (encode (decimal timestamp.toInt ++ '.' :: body))

/-- The value of the signature header. -/
def signatureHeader (hmac : Bytes → Bytes → Bytes) (secret : Text) (timestamp : Int64) (body : Text) :
    Text :=
  (['t', '='] ++ decimal timestamp.toInt) ++
    ',' :: (['v', '1', '='] ++ hex (mac hmac secret timestamp body))

/-- The value of a hexadecimal digit of either case. -/
def digitValue (char : Char) : Option Nat :=
  if '0' ≤ char ∧ char ≤ '9' then some (char.toNat - 48)
  else if 'a' ≤ char ∧ char ≤ 'f' then some (char.toNat - 87)
  else if 'A' ≤ char ∧ char ≤ 'F' then some (char.toNat - 55)
  else none

/-- `u8::from_str_radix` of two characters. The first may be a plus sign. -/
def octetOf (high low : Char) : Option UInt8 :=
  if high = '+' then (digitValue low).map UInt8.ofNat
  else
    match digitValue high, digitValue low with
    | some high, some low => some (UInt8.ofNat (16 * high + low))
    | _, _ => none

/-- The source cuts the value into pairs of bytes. A character of several bytes is no digit, wherever
it is cut. -/
def decodeHex : Text → Option Bytes
  | [] => some []
  | [_] => none
  | high :: low :: rest =>
      match octetOf high low, decodeHex rest with
      | some octet, some octets => some (octet :: octets)
      | _, _ => none

/-- What has been read of a header. -/
structure Fields where
  timestamp : Option Int64
  signatures : List Text

/-- A later time takes the place of an earlier one, also if it is no number. -/
def Fields.read (fields : Fields) (part : Text) : Fields :=
  match Str.splitOnce '=' (Str.trim part) with
  | some (['t'], value) => { fields with timestamp := (parseI64 value).map Int64.ofInt }
  | some (['v', '1'], value) => { fields with signatures := fields.signatures ++ [value] }
  | _ => fields

def readHeader (header : Text) : Fields := (header.splitOn ',').foldl Fields.read ⟨none, []⟩

/-- Verify a received signature header. The difference of the times wraps around, and so does its
absolute value. -/
def verifySignature (hmac : Bytes → Bytes → Bytes) (secret header body : Text)
    (now toleranceSeconds : Int64) : Bool :=
  match (readHeader header).timestamp with
  | none => false
  | some timestamp =>
      if toleranceSeconds < (now - timestamp).abs then false
      else (readHeader header).signatures.any (fun signature =>
        match decodeHex signature with
        | some bytes => bytes == mac hmac secret timestamp body
        | none => false)

/-! ## Times -/

/-- Neither the difference of two times nor its absolute value leaves the integers of 64 bits. -/
def NoOverflow (now timestamp : Int64) : Prop :=
  IsI64 (now.toInt - timestamp.toInt) ∧ IsI64 |now.toInt - timestamp.toInt|

theorem noOverflow_iff {now timestamp : Int64} :
    NoOverflow now timestamp ↔ |now.toInt - timestamp.toInt| < 2 ^ 63 := by
  unfold NoOverflow IsI64 minI64 maxI64
  rw [abs_lt]
  constructor
  · have := neg_abs_le (now.toInt - timestamp.toInt)
    omega
  · rintro ⟨low, high⟩
    refine ⟨by omega, ?_, ?_⟩
    · have := abs_nonneg (now.toInt - timestamp.toInt)
      omega
    · have := abs_le.mpr (⟨by omega, by omega⟩ :
        -(2 ^ 63 - 1) ≤ now.toInt - timestamp.toInt ∧ now.toInt - timestamp.toInt ≤ 2 ^ 63 - 1)
      exact this

/-- Without overflow the window is the one that is meant. -/
theorem lt_abs_sub_iff {now timestamp tolerance : Int64}
    (fits : |now.toInt - timestamp.toInt| < 2 ^ 63) :
    tolerance < (now - timestamp).abs ↔ tolerance.toInt < |now.toInt - timestamp.toInt| := by
  obtain ⟨low, high⟩ := abs_lt.mp fits
  have exact_difference : (now - timestamp).toInt = now.toInt - timestamp.toInt := by
    rw [Int64.toInt_sub]
    exact Int.bmod_eq_of_le (by omega) (by omega)
  have moves : (now - timestamp).toBitVec ≠ BitVec.intMin 64 := by
    intro least
    have same : (now - timestamp).toInt = (BitVec.intMin 64).toInt := congrArg BitVec.toInt least
    rw [show (BitVec.intMin 64).toInt = -2 ^ 63 by decide] at same
    omega
  have exact_abs : (now - timestamp).abs.toInt = |now.toInt - timestamp.toInt| := by
    rw [← exact_difference, Int.abs_eq_natAbs]
    exact BitVec.toInt_abs_eq_natAbs_of_ne_intMin moves
  rw [Int64.lt_iff_toInt_lt, exact_abs]

/-! ## Hexadecimal digits -/

theorem digitValue_iff {char : Char} {value : Nat} :
    digitValue char = some value ↔ value < 16 ∧ Nat.digitChar value = char.toLower := by
  have ascii_digit (digit : Nat) (below : digit < 16) : (Nat.digitChar digit).toNat < 128 := by
    interval_cases digit <;> decide
  rcases Nat.lt_or_ge char.toNat 128 with ascii | wide
  · have bounded : ∀ code < 128, ∀ digit ∈ digitValue (Char.ofNat code), digit < 16 := by
      decide +kernel
    have agree : ∀ code < 128, ∀ digit < 16, (digitValue (Char.ofNat code) = some digit ↔
        Nat.digitChar digit = (Char.ofNat code).toLower) := by
      decide +kernel
    rw [← Char.ofNat_toNat char]
    constructor
    · intro read
      have below := bounded char.toNat ascii value read
      exact ⟨below, (agree char.toNat ascii value below).mp read⟩
    · rintro ⟨below, same⟩
      exact (agree char.toNat ascii value below).mpr same
  · have unread : digitValue char = none := by
      unfold digitValue
      rw [if_neg, if_neg, if_neg]
      all_goals
        rintro ⟨-, most⟩
        exact absurd (wide.trans most) (by decide)
    constructor
    · intro read
      rw [unread] at read
      cases read
    · rintro ⟨below, same⟩
      have small := ascii_digit value below
      rw [same] at small
      rcases Str.toLower_cases char with kept | ⟨-, most, -⟩
      · rw [kept] at small
        omega
      · omega

/-- Two characters are the digits of an octet if they are read as it and neither is a sign. -/
theorem hexByte_iff {high low : Char} {octet : UInt8} :
    [high.toLower, low.toLower] = hexByte octet ↔ octetOf high low = some octet ∧ high ≠ '+' := by
  have below := octet.toNat_lt
  constructor
  · intro same
    obtain ⟨first, second⟩ : high.toLower = Nat.digitChar (octet.toNat / 16) ∧
        low.toLower = Nat.digitChar (octet.toNat % 16) := by
      simpa [hexByte] using same
    have high_read := digitValue_iff.mpr ⟨by omega, first.symm⟩
    have low_read := digitValue_iff.mpr ⟨by omega, second.symm⟩
    have digit : high ≠ '+' := by
      rintro rfl
      cases high_read
    refine ⟨?_, digit⟩
    rw [octetOf, if_neg digit, high_read, low_read]
    dsimp only
    rw [Nat.div_add_mod, UInt8.ofNat_toNat]
  · rintro ⟨read, digit⟩
    rw [octetOf, if_neg digit] at read
    split at read
    · next first second high_read low_read =>
        obtain ⟨first_below, first_digit⟩ := digitValue_iff.mp high_read
        obtain ⟨second_below, second_digit⟩ := digitValue_iff.mp low_read
        cases read
        rw [hexByte, UInt8.toNat_ofNat', Nat.mod_eq_of_lt (by omega), ← first_digit, ← second_digit,
          Nat.mul_add_div (by decide), Nat.div_eq_of_lt second_below, Nat.add_zero, Nat.mul_add_mod,
          Nat.mod_eq_of_lt second_below]
    · cases read

theorem octetOf_low {high low : Char} {octet : UInt8} (read : octetOf high low = some octet) :
    low ≠ '+' := by
  rintro rfl
  unfold octetOf at read
  split at read
  · cases read
  · split at read
    · next given => cases given
    · cases read

theorem decodeHex_cons {high low : Char} {rest : Text} {octets : Bytes} :
    decodeHex (high :: low :: rest) = some octets ↔ ∃ octet others, octets = octet :: others ∧
      octetOf high low = some octet ∧ decodeHex rest = some others := by
  rw [decodeHex]
  constructor
  · intro read
    split at read
    · next octet others first later =>
        cases read
        exact ⟨octet, others, rfl, first, later⟩
    · cases read
  · rintro ⟨octet, others, rfl, first, later⟩
    rw [first, later]

/-- A value is the hexadecimal writing of some octets, in either case. -/
def IsHex (value : Text) (octets : Bytes) : Prop := Str.toAsciiLowercase value = hex octets

/-- Without plus signs the values that are read as some octets are those that write them. -/
theorem isHex_iff {value : Text} {octets : Bytes} :
    IsHex value octets ↔ decodeHex value = some octets ∧ '+' ∉ value := by
  induction value using List.twoStepInduction generalizing octets with
  | nil
  | singleton char => cases octets <;> simp [IsHex, decodeHex, Str.toAsciiLowercase, hex, hexByte]
  | cons_cons high low rest ih =>
      cases octets with
      | nil => simp [IsHex, decodeHex_cons, Str.toAsciiLowercase, hex]
      | cons octet others =>
          have split : IsHex (high :: low :: rest) (octet :: others) ↔
              [high.toLower, low.toLower] = hexByte octet ∧ IsHex rest others := by
            constructor
            · intro same
              have joined : [high.toLower, low.toLower] ++ Str.toAsciiLowercase rest =
                  hexByte octet ++ hex others := same
              exact List.append_inj joined rfl
            · rintro ⟨first, later⟩
              exact congrArg₂ (· ++ ·) first later
          rw [split, hexByte_iff, ih, decodeHex_cons]
          constructor
          · rintro ⟨⟨first, digit⟩, later, absent⟩
            refine ⟨⟨octet, others, rfl, first, later⟩, ?_⟩
            simp [Ne.symm digit, Ne.symm (octetOf_low first), absent]
          · rintro ⟨⟨octet', others', same, first, later⟩, absent⟩
            cases same
            simp only [List.mem_cons, not_or] at absent
            exact ⟨⟨first, Ne.symm absent.1⟩, later, absent.2.2⟩

theorem lower_hexByte (octet : UInt8) : Str.toAsciiLowercase (hexByte octet) = hexByte octet := by
  have lower : ∀ digit < 16, (Nat.digitChar digit).toLower = Nat.digitChar digit := by decide
  have below := octet.toNat_lt
  simp [Str.toAsciiLowercase, hexByte, lower (octet.toNat / 16) (by omega),
    lower (octet.toNat % 16) (by omega)]

theorem isHex_hex (octets : Bytes) : IsHex (hex octets) octets := by
  unfold IsHex
  induction octets with
  | nil => rfl
  | cons octet octets ih =>
      have split : hex (octet :: octets) = hexByte octet ++ hex octets := rfl
      rw [split, Str.toAsciiLowercase, List.map_append, ← Str.toAsciiLowercase, lower_hexByte]
      exact congrArg _ ih

/-! ## The header -/

/-- Characters of a number or a digest: they neither end a part nor are trimmed. -/
def Plain (char : Char) : Prop := Str.isWhitespace char = false ∧ char ≠ ','

instance (char : Char) : Decidable (Plain char) := inferInstanceAs (Decidable (_ ∧ _))

theorem plain_digit : ∀ digit < 16, Plain (Nat.digitChar digit) := by decide

theorem plain_hex {octets : Bytes} {char : Char} (member : char ∈ hex octets) : Plain char := by
  obtain ⟨octet, -, digit⟩ := List.mem_flatMap.mp member
  have below := octet.toNat_lt
  simp only [hexByte, List.mem_cons, List.not_mem_nil, or_false] at digit
  obtain rfl | rfl := digit
  · exact plain_digit _ (by omega)
  · exact plain_digit _ (by omega)

theorem decimal_cases (value : Int) : ∃ digits, digits = Nat.toDigits 10 value.natAbs ∧
    ((0 ≤ value ∧ decimal value = digits) ∨ (value < 0 ∧ decimal value = '-' :: digits)) := by
  refine ⟨_, rfl, ?_⟩
  cases value with
  | ofNat number => exact .inl ⟨Int.natCast_nonneg number, Nat.toList_repr⟩
  | negSucc number =>
      refine .inr ⟨Int.negSucc_lt_zero number, ?_⟩
      have negative : decimal (Int.negSucc number) = ("-" ++ Nat.repr (number + 1)).toList := rfl
      rw [negative, String.toList_append, Nat.toList_repr]
      rfl

theorem parseDigits_toDigits (number : Nat) : parseDigits (Nat.toDigits 10 number) = some number := by
  have digits : (Nat.toDigits 10 number).all Char.isDigit = true :=
    List.all_eq_true.mpr (fun char member => Nat.isDigit_of_mem_toDigits (by decide) (by decide) member)
  have value := Nat.ofDigitChars_ten_toDigits (n := number)
  rw [parseDigits, if_pos ⟨Nat.toDigits_ne_nil, digits⟩]
  exact congrArg some value

theorem parseI64_decimal (value : Int64) : parseI64 (decimal value.toInt) = some value.toInt := by
  have fits : decide (IsI64 value.toInt) = true :=
    decide_eq_true ⟨value.le_toInt, Int.le_sub_one_of_lt value.toInt_lt⟩
  obtain ⟨digits, given, ⟨positive, written⟩ | ⟨negative, written⟩⟩ := decimal_cases value.toInt
  · have unsigned (sign : Char) (letter : sign.isDigit = false) (rest : Text) : digits ≠ sign :: rest := by
      intro same
      have digit : sign.isDigit = true :=
        Nat.isDigit_of_mem_toDigits (n := value.toInt.natAbs) (by decide) (by decide)
          (given ▸ same ▸ List.mem_cons_self)
      exact Bool.false_ne_true (letter.symm.trans digit)
    rw [written, parseI64]
    · rw [given, parseDigits_toDigits, Option.map_some, Int.ofNat_eq_natCast, Int.natAbs_of_nonneg positive,
        Option.filter_some, if_pos fits]
    · exact fun rest => unsigned '-' (by decide) rest
    · exact fun rest => unsigned '+' (by decide) rest
  · have magnitude : -(value.toInt.natAbs : Int) = value.toInt := by omega
    rw [written, parseI64, given, parseDigits_toDigits]
    change Option.filter _ (some (-(value.toInt.natAbs : Int))) = _
    rw [magnitude, Option.filter_some, if_pos fits]

theorem plain_decimal {value : Int} {char : Char} (member : char ∈ decimal value) : Plain char := by
  have plain_of_digit (digit : char.isDigit = true) : Plain char := by
    have ascii : ∀ code < 128, (Char.ofNat code).isDigit = true → Plain (Char.ofNat code) := by
      decide +kernel
    have most : char.toNat ≤ 57 := UInt32.le_iff_toNat_le.mp (of_decide_eq_true (Bool.and_eq_true_iff.mp digit).2)
    have same := Char.ofNat_toNat char
    rw [← same]
    exact ascii char.toNat (by omega) (same.symm ▸ digit)
  obtain ⟨digits, given, ⟨-, written⟩ | ⟨-, written⟩⟩ := decimal_cases value
  all_goals rw [written, given] at member
  · exact plain_of_digit (Nat.isDigit_of_mem_toDigits (by decide) (by decide) member)
  · rcases List.mem_cons.mp member with rfl | digit
    · decide
    · exact plain_of_digit (Nat.isDigit_of_mem_toDigits (by decide) (by decide) digit)

theorem trim_plain {text : Text} (plain : ∀ char ∈ text, Str.isWhitespace char = false) :
    Str.trim text = text :=
  Str.trim_tight (fun char first => plain char (List.mem_of_mem_head? first))
    (fun char last => plain char (List.mem_of_mem_getLast? last))

section OwnHeader

variable (hmac : Bytes → Bytes → Bytes) (secret : Text) (timestamp : Int64) (body : Text)

/-- The header of a body is read as it was meant. -/
theorem readHeader_signatureHeader : readHeader (signatureHeader hmac secret timestamp body) =
    ⟨some timestamp, [hex (mac hmac secret timestamp body)]⟩ := by
  have time_plain : ∀ char ∈ ['t', '='] ++ decimal timestamp.toInt, Plain char := by
    intro char member
    rcases List.mem_append.mp member with name | value
    · have named : ∀ char ∈ ['t', '='], Plain char := by simp [Plain, Str.isWhitespace]
      exact named char name
    · exact plain_decimal value
  have digest_plain : ∀ char ∈ ['v', '1', '='] ++ hex (mac hmac secret timestamp body), Plain char := by
    intro char member
    rcases List.mem_append.mp member with name | value
    · have named : ∀ char ∈ ['v', '1', '='], Plain char := by simp [Plain, Str.isWhitespace]
      exact named char name
    · exact plain_hex value
  have parts : (signatureHeader hmac secret timestamp body).splitOn ',' =
      [['t', '='] ++ decimal timestamp.toInt, ['v', '1', '='] ++ hex (mac hmac secret timestamp body)] := by
    rw [signatureHeader, List.splitOn_append_cons_self_of_not_mem (fun inside => (time_plain ',' inside).2 rfl),
      List.splitOn_eq_singleton (fun inside => (digest_plain ',' inside).2 rfl)]
  have time : Fields.read ⟨none, []⟩ (['t', '='] ++ decimal timestamp.toInt) = ⟨some timestamp, []⟩ := by
    rw [Fields.read, trim_plain (fun char member => (time_plain char member).1)]
    change (⟨(parseI64 (decimal timestamp.toInt)).map Int64.ofInt, []⟩ : Fields) = _
    rw [parseI64_decimal, Option.map_some, Int64.ofInt_toInt]
  have digest : Fields.read ⟨some timestamp, []⟩ (['v', '1', '='] ++ hex (mac hmac secret timestamp body)) =
      ⟨some timestamp, [hex (mac hmac secret timestamp body)]⟩ := by
    rw [Fields.read, trim_plain (fun char member => (digest_plain char member).1)]
    rfl
  rw [readHeader, parts, List.foldl_cons, List.foldl_cons, List.foldl_nil, time, digest]

/-! ## Verification -/

variable {hmac secret timestamp body}

theorem verifySignature_iff {header : Text} {now tolerance : Int64} :
    verifySignature hmac secret header body now tolerance = true ↔
      ∃ timestamp, (readHeader header).timestamp = some timestamp ∧
        ¬tolerance < (now - timestamp).abs ∧
        ∃ value ∈ (readHeader header).signatures,
          decodeHex value = some (mac hmac secret timestamp body) := by
  unfold verifySignature
  cases given : (readHeader header).timestamp with
  | none => simp
  | some timestamp =>
      have read (value : Text) : (match decodeHex value with
          | some bytes => bytes == mac hmac secret timestamp body
          | none => false) = true ↔ decodeHex value = some (mac hmac secret timestamp body) := by
        cases decodeHex value <;> simp
      dsimp only
      split
      · next late => simp [late]
      · next window => simp [Int64.not_lt.mp window, read]

/-- The header of a body is accepted in the window around its time. -/
theorem verify_own_iff {now tolerance : Int64} (fits : |now.toInt - timestamp.toInt| < 2 ^ 63) :
    verifySignature hmac secret (signatureHeader hmac secret timestamp body) body now tolerance = true ↔
      |now.toInt - timestamp.toInt| ≤ tolerance.toInt := by
  rw [verifySignature_iff, readHeader_signatureHeader]
  have own := (isHex_iff.mp (isHex_hex (mac hmac secret timestamp body))).1
  constructor
  · rintro ⟨_, same, window, -⟩
    cases same
    exact not_lt.mp (mt (lt_abs_sub_iff fits).mpr window)
  · intro window
    exact ⟨timestamp, rfl, fun late => not_lt.mpr window ((lt_abs_sub_iff fits).mp late), _,
      List.mem_singleton_self _, own⟩

end OwnHeader

/-- What a signature is for. The header of a body is accepted exactly in the window around its time, the
arithmetic of the window does not overflow, and a header that is accepted writes the digest. -/
structure Authentic (hmac : Bytes → Bytes → Bytes) (secret header body : Text)
    (timestamp now tolerance : Int64) : Prop where
  fits : NoOverflow now timestamp
  received_fits : ∀ received, (readHeader header).timestamp = some received → NoOverflow now received
  own : verifySignature hmac secret (signatureHeader hmac secret timestamp body) body now tolerance = true ↔
    |now.toInt - timestamp.toInt| ≤ tolerance.toInt
  accepted : verifySignature hmac secret header body now tolerance = true →
    ∃ received value, (readHeader header).timestamp = some received ∧
      value ∈ (readHeader header).signatures ∧ IsHex value (mac hmac secret received body)

/-- Signatures do what they are for exactly when no time is out of reach and, where digests are read
inside the window, one of them is written without a sign. -/
theorem authentic_iff (hmac : Bytes → Bytes → Bytes) (secret header body : Text)
    (timestamp now tolerance : Int64) : Authentic hmac secret header body timestamp now tolerance ↔
      |now.toInt - timestamp.toInt| < 2 ^ 63 ∧
      ∀ received, (readHeader header).timestamp = some received →
        |now.toInt - received.toInt| < 2 ^ 63 ∧
        (|now.toInt - received.toInt| ≤ tolerance.toInt →
          (∃ value ∈ (readHeader header).signatures,
            decodeHex value = some (mac hmac secret received body)) →
          ∃ value ∈ (readHeader header).signatures,
            decodeHex value = some (mac hmac secret received body) ∧ '+' ∉ value) := by
  constructor
  · intro authentic
    refine ⟨noOverflow_iff.mp authentic.fits, fun received given => ?_⟩
    have fits := noOverflow_iff.mp (authentic.received_fits received given)
    refine ⟨fits, fun window read => ?_⟩
    obtain ⟨other, value, same, listed, written⟩ := authentic.accepted (verifySignature_iff.mpr
      ⟨received, given, fun late => not_lt.mpr window ((lt_abs_sub_iff fits).mp late), read⟩)
    cases Option.some.inj (given.symm.trans same)
    exact ⟨value, listed, isHex_iff.mp written⟩
  · rintro ⟨fits, received_fits⟩
    refine ⟨noOverflow_iff.mpr fits, fun received given => noOverflow_iff.mpr (received_fits received given).1,
      verify_own_iff fits, fun accepted => ?_⟩
    obtain ⟨received, given, window, read⟩ := verifySignature_iff.mp accepted
    obtain ⟨near, unsigned⟩ := received_fits received given
    obtain ⟨value, listed, written⟩ :=
      unsigned (not_lt.mp (mt (lt_abs_sub_iff near).mpr window)) read
    exact ⟨received, value, given, listed, isHex_iff.mpr written⟩

/-- A header with the least time of all overflows the window, and a digest with a sign is accepted. -/
theorem least_time_overflows :
    ¬Authentic (fun _ _ => [7]) "secret" "t=-9223372036854775808" "body" 0 0 300 ∧
    ¬Authentic (fun _ _ => [7]) "secret" "t=0,v1=+7" "body" 0 0 300 := by
  constructor
  · intro authentic
    have fits := authentic.received_fits Int64.minValue (by decide +kernel)
    exact absurd (noOverflow_iff.mp fits) (by decide)
  · intro authentic
    obtain ⟨_, value, -, listed, written⟩ := authentic.accepted (by decide +kernel)
    have only : ∀ value ∈ (readHeader "t=0,v1=+7").signatures, Str.toAsciiLowercase value ≠ hex [7] := by
      decide +kernel
    exact only value listed written

end Camelmailer.Lifecycle
