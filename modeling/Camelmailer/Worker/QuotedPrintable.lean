import Camelmailer.Text.Delimiters
import Camelmailer.Text.Octets
import Camelmailer.Text.Paths

/-!
# Quoted-printable bodies

Four files decode quoted-printable with a loop of their own, and `tracking.rs` of `camelmailer-worker`
encodes with it. An escape is read with `u8::from_str_radix`, which takes a plus in front of the digits.

The lines of a text are encoded one by one, without one carriage return at their end. Behind the last
line no line break is written.
-/

namespace Camelmailer

open Utf8 Lines

/-- `&octets[range]`. -/
def Tracking.slice (octets : Bytes) (range : Nat × Nat) : Bytes :=
  (octets.take range.2).drop range.1

namespace Mime

/-- `u8::from_str_radix` of two octets that are read as hexadecimal digits. The first may be a
plus. -/
def hexOctet (high low : UInt8) : Option UInt8 :=
  match if high = 0x2B then some 0 else Paths.hexDigit high, Paths.hexDigit low with
  | some high, some low => some (16 * high + low)
  | _, _ => none

/-- `decode_quoted_printable`, as both files have it. -/
def decodeQuotedPrintable : Bytes → Bytes
  | [] => []
  | [octet] => [octet]
  | [octet, next] =>
      if octet = 0x3D ∧ next = LF then [] else octet :: decodeQuotedPrintable [next]
  | octet :: next :: low :: rest =>
      if octet = 0x3D then
        if next = CR ∧ low = LF then decodeQuotedPrintable rest
        else if next = LF then decodeQuotedPrintable (low :: rest)
        else match hexOctet next low with
          | some byte => byte :: decodeQuotedPrintable rest
          | none => octet :: decodeQuotedPrintable (next :: low :: rest)
      else octet :: decodeQuotedPrintable (next :: low :: rest)

end Mime

/-! ## The decoders -/

namespace QuotedPrintable

/-- `char::to_digit` in base sixteen. -/
def toDigit (char : Char) : Option Nat :=
  if '0' ≤ char ∧ char ≤ '9' then some (char.toNat - 48)
  else if 'A' ≤ char ∧ char ≤ 'F' then some (char.toNat - 55)
  else if 'a' ≤ char ∧ char ≤ 'f' then some (char.toNat - 87)
  else none

/-- A digit behind a value, if both are an octet. -/
def shift (value : Nat) (digit : Char) : Option Nat :=
  (toDigit digit).bind (fun low => if 16 * value + low < 256 then some (16 * value + low) else none)

/-- The digits behind a plus. -/
def unsigned : Text → Text
  | '+' :: digits => digits
  | digits => digits

/-- `u8::from_str_radix` in base sixteen. -/
def fromStrRadix (text : Text) : Option UInt8 :=
  if unsigned text = [] then none
  else ((unsigned text).foldlM shift 0).map UInt8.ofNat

/-- `str::from_utf8` and `u8::from_str_radix`. -/
def escaped (octets : Bytes) : Option UInt8 := (Paths.fromUtf8 octets).bind fromStrRadix

/-- What a turn of a loop appends to the result, and how far it goes on. -/
structure Turn where
  pushed : Bytes
  advance : Nat

/-- A loop over the octets of a body from an offset on. The offset grows with every turn. -/
def decodeLoop (turn : Bytes → Nat → UInt8 → Turn) (body : Bytes) : Nat → Nat → Bytes
  | 0, _ => []
  | turns + 1, i =>
      match body[i]? with
      | none => []
      | some octet => (turn body i octet).pushed ++
          decodeLoop turn body turns (i + (turn body i octet).advance)

end QuotedPrintable

open QuotedPrintable (Turn escaped decodeLoop)

namespace Mime

/-- A turn of `decode_quoted_printable` in `camelmailer-core/src/mime.rs`. -/
def decodeTurn (body : Bytes) (i : Nat) (octet : UInt8) : Turn :=
  if octet = 0x3D ∧ body[i + 1]? = some CR ∧ body[i + 2]? = some LF then ⟨[], 3⟩
  else if octet = 0x3D ∧ body[i + 1]? = some LF then ⟨[], 2⟩
  else if octet = 0x3D ∧ i + 2 < body.length then
    match escaped (Tracking.slice body (i + 1, i + 3)) with
    | some byte => ⟨[byte], 3⟩
    | none => ⟨[octet], 1⟩
  else ⟨[octet], 1⟩

end Mime

namespace Tracking

/-- A turn of `decode_quoted_printable` in `camelmailer-worker/src/tracking.rs`. -/
def decodeTurn (body : Bytes) (i : Nat) (octet : UInt8) : Turn :=
  if octet = 0x3D ∧ CRLF <+: body.drop (i + 1) then ⟨[], 3⟩
  else if octet = 0x3D ∧ [LF] <+: body.drop (i + 1) then ⟨[], 2⟩
  else if octet = 0x3D ∧ i + 2 < body.length then
    match escaped (slice body (i + 1, i + 3)) with
    | some byte => ⟨[byte], 3⟩
    | none => ⟨[0x3D], 1⟩
  else ⟨[octet], 1⟩

end Tracking

namespace Arf

/-- A turn of `decode_quoted_printable` in `camelmailer-worker/src/arf.rs`. -/
def decodeTurn (body : Bytes) (i : Nat) (octet : UInt8) : Turn :=
  if octet = 0x3D then
    if body[i + 1]? = some CR ∧ body[i + 2]? = some LF then ⟨[], 3⟩
    else if body[i + 1]? = some LF then ⟨[], 2⟩
    else match (if i + 2 < body.length then escaped (Tracking.slice body (i + 1, i + 3)) else none) with
      | some byte => ⟨[byte], 3⟩
      | none => ⟨[octet], 1⟩
  else ⟨[octet], 1⟩

end Arf

namespace QuotedPrintable

/-- `decode_quoted_printable` of `camelmailer-core/src/mime.rs`. -/
def mimeDecoder (body : Bytes) : Bytes := decodeLoop Mime.decodeTurn body body.length 0

/-- `decode_quoted_printable` of `camelmailer-worker/src/tracking.rs`. -/
def trackingDecoder (body : Bytes) : Bytes := decodeLoop Tracking.decodeTurn body body.length 0

/-- `decode_quoted_printable` of `camelmailer-worker/src/arf.rs`. -/
def arfDecoder (body : Bytes) : Bytes := decodeLoop Arf.decodeTurn body body.length 0

/-- `decode_quoted_printable` of `camelmailer-worker/src/dmarc.rs`, where the same loop stands. -/
def dmarcDecoder (body : Bytes) : Bytes := decodeLoop Arf.decodeTurn body body.length 0

/-! ## The encoder -/

/-- The digits of `{:02X}`. -/
def hexOf (value : UInt8) : UInt8 := if value < 10 then 0x30 + value else 0x37 + value

/-- An octet as it is written. The last one of a line may not be a blank. -/
def piece (byte : UInt8) (last : Bool) : Bytes :=
  if ((byte = 0x20 ∨ byte = 0x09) ∧ last = false) ∨ ((33 ≤ byte ∧ byte ≤ 126) ∧ byte ≠ 0x3D) then [byte]
  else [0x3D, hexOf (byte / 16), hexOf (byte % 16)]

/-- `MAX`, which leaves room for the sign of a soft break. -/
def maxWidth : Nat := 75

/-- A soft line break. -/
def softBreak : Bytes := 0x3D :: CRLF

/-- The octets of a line, behind `width` octets that are written. -/
def encodeLine : Nat → Bytes → Bytes
  | _, [] => []
  | width, byte :: rest =>
      let next := piece byte rest.isEmpty
      if maxWidth < width + next.length then
        softBreak ++ (next ++ encodeLine next.length rest)
      else next ++ encodeLine (width + next.length) rest

/-- A line without one carriage return at its end. -/
def stripReturn (line : Bytes) : Bytes := if [CR] <:+ line then line.dropLast else line

def encodeQuotedPrintable (text : Bytes) : Bytes :=
  CRLF.intercalate ((text.splitOn LF).map (fun line => encodeLine 0 (stripReturn line)))

/-! ## Escapes -/

/-- What holds of every number below 256 holds of every octet. -/
theorem forall_octet {holds : UInt8 → Prop} (every : ∀ value : Fin 256, holds (UInt8.ofNat value.val))
    (octet : UInt8) : holds octet := by
  have own := every ⟨octet.toNat, octet.toNat_lt⟩
  rwa [UInt8.ofNat_toNat] at own

section Escapes

variable {high low octet : UInt8} {char : Char} {text : Text}

/-- What the digits are, for every octet at once. -/
theorem digit_octets : ∀ octet : UInt8,
    toDigit (Char.ofNat octet.toNat) = (Paths.hexDigit octet).map UInt8.toNat ∧
    (Char.ofNat octet.toNat = '+' ↔ octet = 0x2B) ∧
    (Paths.hexDigit octet).all (fun value => value.toNat < 16) = true ∧
    ((Paths.hexDigit octet).isSome = true → octet.toNat < 0x80) :=
  forall_octet (by decide +kernel)

theorem toDigit_octet (octet : UInt8) :
    toDigit (Char.ofNat octet.toNat) = (Paths.hexDigit octet).map UInt8.toNat := (digit_octets octet).1

theorem plus_octet (octet : UInt8) : Char.ofNat octet.toNat = '+' ↔ octet = 0x2B := (digit_octets octet).2.1

theorem hexDigit_lt {value : UInt8} (digit : Paths.hexDigit octet = some value) : value.toNat < 16 := by
  have own := (digit_octets octet).2.2.1
  rw [digit] at own
  exact of_decide_eq_true own

theorem hexDigit_ascii (octet : UInt8) : (Paths.hexDigit octet).isSome = true → octet.toNat < 0x80 :=
  (digit_octets octet).2.2.2

theorem toDigit_ascii (digit : (toDigit char).isSome = true) : Ascii char := by
  unfold toDigit at digit
  split at digit
  · next within => exact Nat.lt_of_le_of_lt (Char.le_def.mp within.2) (by decide)
  · split at digit
    · next within => exact Nat.lt_of_le_of_lt (Char.le_def.mp within.2) (by decide)
    · split at digit
      · next within => exact Nat.lt_of_le_of_lt (Char.le_def.mp within.2) (by decide)
      · cases digit

/-- Only digits are read. -/
theorem shift_digits {digits : Text} {value sum : Nat} (read : digits.foldlM shift value = some sum) :
    ∀ digit ∈ digits, Ascii digit := by
  induction digits generalizing value with
  | nil => exact fun _ member => absurd member List.not_mem_nil
  | cons digit digits ih =>
      obtain ⟨next, shifted, rest⟩ := Option.bind_eq_some_iff.mp read
      obtain ⟨low, found, -⟩ := Option.bind_eq_some_iff.mp shifted
      refine List.forall_mem_cons.mpr ⟨toDigit_ascii ?_, ih rest⟩
      rw [found]
      rfl

theorem fromStrRadix_ascii {byte : UInt8} (read : fromStrRadix text = some byte) :
    ∀ char ∈ text, Ascii char := by
  have plus : Ascii '+' := by decide
  unfold fromStrRadix at read
  split at read
  · cases read
  · obtain ⟨sum, folded, -⟩ := Option.map_eq_some_iff.mp read
    have digits := shift_digits folded
    unfold unsigned at digits
    split at digits
    · exact List.forall_mem_cons.mpr ⟨plus, digits⟩
    · exact digits

theorem encode_octets_ascii (ascii : ∀ char ∈ text, Ascii char) :
    ∀ octet ∈ encode text, octet.toNat < 0x80 := by
  induction text with
  | nil => exact fun _ member => absurd member List.not_mem_nil
  | cons char text ih =>
      obtain ⟨own, others⟩ := List.forall_mem_cons.mp ascii
      rw [encode_cons, encode_ascii char own, List.singleton_append, List.forall_mem_cons]
      refine ⟨?_, ih others⟩
      rwa [octet_value _ (Nat.lt_trans own (by decide))]

/-- Octets are read as digits only if all of them are ASCII. -/
theorem escaped_ascii {octets : Bytes} {byte : UInt8} (read : escaped octets = some byte) :
    ∀ octet ∈ octets, octet.toNat < 0x80 := by
  obtain ⟨text, decoded, digits⟩ := Option.bind_eq_some_iff.mp read
  unfold Paths.fromUtf8 at decoded
  split at decoded
  · next same =>
      obtain rfl := Option.some.inj decoded
      rw [← same]
      exact encode_octets_ascii (fromStrRadix_ascii digits)
  · cases decoded

theorem shift_octet (value : Nat) (octet : UInt8) : shift value (Char.ofNat octet.toNat) =
    (Paths.hexDigit octet).bind (fun low =>
      if 16 * value + low.toNat < 256 then some (16 * value + low.toNat) else none) := by
  rw [shift, toDigit_octet, Option.bind_map]
  rfl

theorem hexOctet_ascii {byte : UInt8} (read : Mime.hexOctet high low = some byte) :
    high.toNat < 0x80 ∧ low.toNat < 0x80 := by
  have plus : (0x2B : UInt8).toNat < 0x80 := by decide
  unfold Mime.hexOctet at read
  split at read
  · next first second leading trailing =>
      refine ⟨?_, hexDigit_ascii low (by rw [trailing]; rfl)⟩
      split_ifs at leading with sign
      · exact sign ▸ plus
      · exact hexDigit_ascii high (by rw [leading]; rfl)
  · cases read

/-- Two octets are read as two digits, or as one behind a plus. -/
theorem escaped_pair (high low : UInt8) : escaped [high, low] = Mime.hexOctet high low := by
  by_cases ascii : ∀ octet ∈ [high, low], octet.toNat < 0x80
  · have decoded : Paths.fromUtf8 [high, low] =
        some [Char.ofNat high.toNat, Char.ofNat low.toNat] := by
      have text : fromUtf8Lossy [high, low] = [Char.ofNat high.toNat, Char.ofNat low.toNat] := by
        rw [decode_cons_ascii high [low] (ascii high (by simp)),
          decode_cons_ascii low [] (ascii low (by simp))]
        rfl
      rw [Paths.fromUtf8, if_pos (Octets.encode_decode_ascii ascii), text]
    rw [escaped, decoded, Option.bind_some, fromStrRadix, Mime.hexOctet]
    by_cases plus : high = 0x2B
    · have rest : unsigned [Char.ofNat high.toNat, Char.ofNat low.toNat] = [Char.ofNat low.toNat] := by
        rw [(plus_octet high).mpr plus, unsigned]
      rw [rest, if_pos plus, List.foldlM_cons, shift_octet]
      cases digit : Paths.hexDigit low with
      | none => rfl
      | some value =>
          have small := hexDigit_lt digit
          have fits : 16 * 0 + value.toNat < 256 := by omega
          rw [Option.bind_some, if_pos fits]
          simp
    · have whole : unsigned [Char.ofNat high.toNat, Char.ofNat low.toNat] =
          [Char.ofNat high.toNat, Char.ofNat low.toNat] := by
        unfold unsigned
        split
        · next opened => exact absurd ((plus_octet high).mp (List.cons.inj opened).1) plus
        · rfl
      rw [whole, if_neg plus, List.foldlM_cons, shift_octet]
      cases digit : Paths.hexDigit high with
      | none => rfl
      | some first =>
          have small := hexDigit_lt digit
          have fits : 16 * 0 + first.toNat < 256 := by omega
          rw [Option.bind_some, if_pos fits, Option.bind_eq_bind, Option.bind_some, List.foldlM_cons,
            shift_octet]
          cases second : Paths.hexDigit low with
          | none => rfl
          | some value =>
              have lower := hexDigit_lt second
              have both : 16 * (16 * 0 + first.toNat) + value.toNat < 256 := by omega
              rw [Option.bind_some, if_pos both]
              simp [UInt8.ofNat_add]
  · have unread : escaped [high, low] = none := by
      cases read : escaped [high, low] with
      | none => rfl
      | some byte => exact absurd (escaped_ascii read) ascii
    rw [unread]
    cases paired : Mime.hexOctet high low with
    | none => rfl
    | some byte =>
        obtain ⟨first, second⟩ := hexOctet_ascii paired
        exact absurd (by simpa using ⟨first, second⟩) ascii

end Escapes

/-! ## The loops -/

/-- A turn, given by what is behind its octet. -/
def turnAt (octet : UInt8) (rest : Bytes) : Turn :=
  if octet = 0x3D then
    if CRLF <+: rest then ⟨[], 3⟩
    else if [LF] <+: rest then ⟨[], 2⟩
    else match rest with
      | high :: low :: _ =>
          match Mime.hexOctet high low with
          | some byte => ⟨[byte], 3⟩
          | none => ⟨[octet], 1⟩
      | _ => ⟨[octet], 1⟩
  else ⟨[octet], 1⟩

section Loops

variable {body front rest : Bytes} {octet high low byte : UInt8}

theorem drop_behind : (front ++ octet :: rest).drop (front.length + 1) = rest := by
  rw [List.drop_append, Nat.add_sub_cancel_left, List.drop_eq_nil_of_le (Nat.le_succ _)]
  rfl

theorem slice_pair :
    Tracking.slice (front ++ octet :: rest) (front.length + 1, front.length + 3) = rest.take 2 := by
  have width : front.length + 3 - (front.length + 1) = 2 := by omega
  rw [Tracking.slice, List.drop_take, drop_behind, width]

theorem getElem?_first : (front ++ octet :: rest)[front.length + 1]? = rest[0]? := by
  rw [List.getElem?_append_right (Nat.le_add_right _ 1), Nat.add_sub_cancel_left]
  rfl

theorem getElem?_second : (front ++ octet :: rest)[front.length + 2]? = rest[1]? := by
  rw [List.getElem?_append_right (Nat.le_add_right _ 2), Nat.add_sub_cancel_left]
  rfl

theorem mime_turn :
    Mime.decodeTurn (front ++ octet :: rest) front.length octet = turnAt octet rest := by
  simp only [Mime.decodeTurn, turnAt, getElem?_first, getElem?_second, slice_pair]
  by_cases sign : octet = 0x3D
  · cases rest with
    | nil => simp [CRLF]
    | cons high rest =>
        cases rest with
        | nil => simp [CRLF, sign, eq_comm]
        | cons low rest => simp [CRLF, sign, escaped_pair, eq_comm]
  · simp [sign]

theorem tracking_turn :
    Tracking.decodeTurn (front ++ octet :: rest) front.length octet = turnAt octet rest := by
  simp only [Tracking.decodeTurn, turnAt, slice_pair]
  by_cases sign : octet = 0x3D
  · cases rest with
    | nil => simp [CRLF]
    | cons high rest =>
        cases rest with
        | nil => simp [sign]
        | cons low rest => simp [sign, escaped_pair]
  · simp [sign]

theorem arf_turn :
    Arf.decodeTurn (front ++ octet :: rest) front.length octet = turnAt octet rest := by
  simp only [Arf.decodeTurn, turnAt, getElem?_first, slice_pair]
  by_cases sign : octet = 0x3D
  · cases rest with
    | nil => simp [CRLF]
    | cons high rest =>
        cases rest with
        | nil => simp [CRLF, eq_comm]
        | cons low rest => simp [CRLF, escaped_pair, eq_comm]
  · simp [sign]

/-- A turn of the decoder. -/
theorem decode_cons (octet : UInt8) (rest : Bytes) : Mime.decodeQuotedPrintable (octet :: rest) =
    (turnAt octet rest).pushed ++
      Mime.decodeQuotedPrintable ((octet :: rest).drop (turnAt octet rest).advance) := by
  unfold turnAt
  by_cases sign : octet = 0x3D
  · cases rest with
    | nil => simp [Mime.decodeQuotedPrintable, CRLF]
    | cons high rest =>
        cases rest with
        | nil =>
            by_cases feed : high = LF
            · simp [Mime.decodeQuotedPrintable, CRLF, sign, feed]
            · simp [Mime.decodeQuotedPrintable, CRLF, sign, feed, Ne.symm feed]
        | cons low rest =>
            simp only [Mime.decodeQuotedPrintable, CRLF, List.cons_prefix_cons,
              List.nil_prefix, and_true, eq_comm]
            split_ifs with soft feed
            · rfl
            · rfl
            · cases Mime.hexOctet high low with
              | none => rfl
              | some byte => rfl
  · rw [if_neg sign]
    cases rest with
    | nil => simp [Mime.decodeQuotedPrintable]
    | cons high rest =>
        cases rest with
        | nil => simp [Mime.decodeQuotedPrintable, sign]
        | cons low rest => simp [Mime.decodeQuotedPrintable, sign]

theorem turnAt_literal (plain : octet ≠ 0x3D) (rest : Bytes) : turnAt octet rest = ⟨[octet], 1⟩ :=
  if_neg plain

theorem one_le_advance (octet : UInt8) (rest : Bytes) : 1 ≤ (turnAt octet rest).advance := by
  unfold turnAt
  repeat' split
  all_goals exact Nat.le_of_ble_eq_true rfl

/-- A loop whose turns depend on what is behind an offset decodes that. The induction is on the turns
that are left. -/
theorem decodeLoop_eq {turn : Bytes → Nat → UInt8 → Turn}
    (turns : ∀ front octet rest, turn (front ++ octet :: rest) front.length octet = turnAt octet rest)
    (count i : Nat) (enough : body.length ≤ i + count) :
    decodeLoop turn body count i = Mime.decodeQuotedPrintable (body.drop i) := by
  induction count generalizing i with
  | zero =>
      have past : body.length ≤ i := enough
      rw [List.drop_eq_nil_of_le past]
      rfl
  | succ count ih =>
      unfold decodeLoop
      cases found : body[i]? with
      | none =>
          rw [List.drop_eq_nil_of_le (List.getElem?_eq_none_iff.mp found)]
          rfl
      | some octet =>
          obtain ⟨within, rfl⟩ := List.getElem?_eq_some_iff.mp found
          have own : turn body i body[i] = turnAt body[i] (body.drop (i + 1)) := by
            have whole := turns (body.take i) body[i] (body.drop (i + 1))
            rwa [← List.drop_eq_getElem_cons within, List.take_append_drop, List.length_take,
              Nat.min_eq_left (Nat.le_of_lt within)] at whole
          have further := one_le_advance body[i] (body.drop (i + 1))
          rw [List.drop_eq_getElem_cons within, decode_cons, ← List.drop_eq_getElem_cons within,
            List.drop_drop]
          simp only [own]
          rw [ih _ (by omega)]

end Loops

/-- The four decoders return the same octets. -/
theorem decoders_agree (body : Bytes) :
    mimeDecoder body = Mime.decodeQuotedPrintable body ∧
      trackingDecoder body = Mime.decodeQuotedPrintable body ∧
      arfDecoder body = Mime.decodeQuotedPrintable body ∧
      dmarcDecoder body = Mime.decodeQuotedPrintable body := by
  have enough : body.length ≤ 0 + body.length := Nat.le_add_left _ _
  refine ⟨?_, ?_, ?_, ?_⟩
  · exact decodeLoop_eq (fun _ _ _ => mime_turn) _ 0 enough
  · exact decodeLoop_eq (fun _ _ _ => tracking_turn) _ 0 enough
  · exact decodeLoop_eq (fun _ _ _ => arf_turn) _ 0 enough
  · exact decodeLoop_eq (fun _ _ _ => arf_turn) _ 0 enough

/-! ## Escapes with a plus -/

/-- What two hexadecimal digits stand for. -/
def digitPair (high low : UInt8) : Option UInt8 :=
  match Paths.hexDigit high, Paths.hexDigit low with
  | some high, some low => some (16 * high + low)
  | _, _ => none

/-- The decoding that leaves every sign in front of anything but two digits or a line break as it is. -/
def decodeStrictly : Bytes → Bytes
  | [] => []
  | [octet] => [octet]
  | [octet, next] => if octet = 0x3D ∧ next = LF then [] else octet :: decodeStrictly [next]
  | octet :: high :: low :: rest =>
      if octet = 0x3D then
        if high = CR ∧ low = LF then decodeStrictly rest
        else if high = LF then decodeStrictly (low :: rest)
        else match digitPair high low with
          | some byte => byte :: decodeStrictly rest
          | none => octet :: decodeStrictly (high :: low :: rest)
      else octet :: decodeStrictly (high :: low :: rest)

/-- Behind no sign there are a plus and a digit. -/
def NoPlus (octets : Bytes) : Prop :=
  ∀ digit, (Paths.hexDigit digit).isSome = true → ¬ [0x3D, 0x2B, digit] <:+: octets

section Strict

variable {octets rest : Bytes} {octet high low byte : UInt8}

theorem noPlus_nil : NoPlus [] := by
  intro digit _ inside
  cases List.infix_nil.mp inside

theorem noPlus_cons : NoPlus (octet :: rest) ↔
    (∀ digit, (Paths.hexDigit digit).isSome = true → ¬ [0x3D, 0x2B, digit] <+: octet :: rest) ∧
      NoPlus rest := by
  simp only [NoPlus, List.infix_cons_iff, not_or, forall_and]

theorem noPlus_literal (plain : octet ≠ 0x3D) : NoPlus (octet :: rest) ↔ NoPlus rest := by
  simp [noPlus_cons, Ne.symm plain]

theorem noPlus_sign (other : high ≠ 0x2B) : NoPlus (octet :: high :: rest) ↔ NoPlus (high :: rest) := by
  rw [noPlus_cons]
  simp [Ne.symm other]

theorem hexOctet_eq (other : high ≠ 0x2B) : Mime.hexOctet high low = digitPair high low := by
  rw [Mime.hexOctet, if_neg other]
  rfl

theorem digitPair_plus (low : UInt8) : digitPair 0x2B low = none := rfl

theorem hexOctet_plus {byte : UInt8} (read : Mime.hexOctet 0x2B low = some byte) :
    (Paths.hexDigit low).isSome = true := by
  cases digit : Paths.hexDigit low with
  | none =>
      rw [Mime.hexOctet, digit] at read
      cases read
  | some value => rfl

theorem hexOctet_plus_ne_none (digit : (Paths.hexDigit low).isSome = true) :
    Mime.hexOctet 0x2B low ≠ none := by
  intro unread
  obtain ⟨value, found⟩ := Option.isSome_iff_exists.mp digit
  rw [Mime.hexOctet, found] at unread
  cases unread

/-- Neither octet of an escape is a sign. -/
theorem hexOctet_plain {byte : UInt8} (read : Mime.hexOctet high low = some byte) :
    high ≠ 0x3D ∧ low ≠ 0x3D := by
  constructor
  · rintro rfl
    cases read
  · rintro rfl
    unfold Mime.hexOctet at read
    split at read
    · next trailing => cases trailing
    · cases read

theorem decodeStrictly_literal (plain : octet ≠ 0x3D) (rest : Bytes) :
    decodeStrictly (octet :: rest) = octet :: decodeStrictly rest := by
  cases rest with
  | nil => rfl
  | cons high rest =>
      cases rest with
      | nil => simp [decodeStrictly, plain]
      | cons low rest => simp [decodeStrictly, plain]

/-- The strict decoding leaves a sign in front of a plus and a digit as it is. -/
theorem decodeStrictly_plus (digit : (Paths.hexDigit low).isSome = true) (rest : Bytes) :
    decodeStrictly (0x3D :: 0x2B :: low :: rest) = 0x3D :: 0x2B :: low :: decodeStrictly rest := by
  have noReturn : ¬ ((0x2B : UInt8) = CR ∧ low = LF) := fun soft => absurd soft.1 (by decide)
  have noFeed : (0x2B : UInt8) ≠ LF := by decide
  have noSign : low ≠ 0x3D := by
    rintro rfl
    cases digit
  rw [decodeStrictly, if_pos rfl, if_neg noReturn, if_neg noFeed, digitPair_plus]
  rw [decodeStrictly_literal (by decide), decodeStrictly_literal noSign]

theorem decodeStrictly_unread (notSoft : ¬ (high = CR ∧ low = LF)) (notFeed : high ≠ LF)
    (unread : Mime.hexOctet high low = none) :
    decodeStrictly (0x3D :: high :: low :: rest) = 0x3D :: decodeStrictly (high :: low :: rest) := by
  have apart : digitPair high low = none := by
    by_cases plus : high = 0x2B
    · exact plus ▸ digitPair_plus low
    · exact hexOctet_eq plus ▸ unread
  rw [decodeStrictly, if_pos rfl, if_neg notSoft, if_neg notFeed, apart]

/-- Reading a plus makes the result shorter. -/
theorem length_decode_le (octets : Bytes) :
    (Mime.decodeQuotedPrintable octets).length ≤ (decodeStrictly octets).length := by
  fun_induction Mime.decodeQuotedPrintable octets with
  | case1 => exact Nat.le_refl _
  | case2 octet => exact Nat.le_refl _
  | case3 => simp
  | case4 octet next other ih =>
      rw [decodeStrictly, if_neg other]
      exact Nat.succ_le_succ ih
  | case5 high low rest soft ih =>
      rw [decodeStrictly, if_pos soft]
      exact ih
  | case6 low rest notSoft ih =>
      exact ih
  | case7 high low rest notSoft notFeed byte read ih =>
      by_cases plus : high = 0x2B
      · subst plus
        rw [decodeStrictly_plus (hexOctet_plus read)]
        exact Nat.succ_le_succ (Nat.le_add_right_of_le (Nat.le_add_right_of_le ih))
      · rw [decodeStrictly, if_neg notSoft, if_neg notFeed, ← hexOctet_eq plus, read]
        exact Nat.succ_le_succ ih
  | case8 high low rest notSoft notFeed unread ih =>
      rw [decodeStrictly_unread notSoft notFeed unread]
      exact Nat.succ_le_succ ih
  | case9 octet high low rest plain ih =>
      rw [decodeStrictly, if_neg plain]
      exact Nat.succ_le_succ ih

/-- The decoding is strict if and only if there is no escape with a plus. -/
theorem decode_eq_strictly_iff (octets : Bytes) :
    Mime.decodeQuotedPrintable octets = decodeStrictly octets ↔ NoPlus octets := by
  have alone (octet : UInt8) : NoPlus [octet] := by
    simp [noPlus_cons, noPlus_nil]
  have pair (octet next : UInt8) : NoPlus [octet, next] := by
    simp [noPlus_cons, noPlus_nil]
  fun_induction Mime.decodeQuotedPrintable octets with
  | case1 => exact iff_of_true rfl noPlus_nil
  | case2 octet => exact iff_of_true rfl (alone octet)
  | case3 octet next feed =>
      rw [decodeStrictly, if_pos feed]
      exact iff_of_true rfl (pair octet next)
  | case4 octet next other ih =>
      rw [decodeStrictly, if_neg other]
      exact iff_of_true rfl (pair octet next)
  | case5 high low rest soft ih =>
      obtain ⟨rfl, rfl⟩ := soft
      refine ih.trans (Iff.symm ?_)
      rw [noPlus_sign (by decide), noPlus_literal (by decide), noPlus_literal (by decide)]
  | case6 low rest notSoft ih =>
      refine ih.trans (Iff.symm ?_)
      rw [noPlus_sign (by decide), noPlus_literal (by decide)]
  | case7 high low rest notSoft notFeed byte read ih =>
      by_cases plus : high = 0x2B
      · subst plus
        have digit := hexOctet_plus read
        rw [decodeStrictly_plus digit]
        refine iff_of_false (fun same => ?_) (fun free => free low digit ⟨[], rest, rfl⟩)
        have shorter := length_decode_le rest
        have lengths := congrArg List.length same
        simp only [List.length_cons] at lengths
        omega
      · obtain ⟨noHigh, noLow⟩ := hexOctet_plain read
        rw [decodeStrictly, if_pos rfl, if_neg notSoft, if_neg notFeed, ← hexOctet_eq plus, read]
        simp only [List.cons.injEq, true_and]
        refine ih.trans (Iff.symm ?_)
        rw [noPlus_sign plus, noPlus_literal noHigh, noPlus_literal noLow]
  | case8 high low rest notSoft notFeed unread ih =>
      rw [decodeStrictly_unread notSoft notFeed unread]
      simp only [List.cons.injEq, true_and]
      refine ih.trans (Iff.symm ?_)
      rw [noPlus_cons]
      refine and_iff_right (fun digit some_ opens => ?_)
      obtain ⟨rest, same⟩ := opens
      cases same
      exact hexOctet_plus_ne_none some_ unread
  | case9 octet high low rest plain ih =>
      rw [decodeStrictly, if_neg plain, noPlus_literal plain]
      simp only [List.cons.injEq, true_and]
      exact ih

end Strict

/-! ## Texts that are encoded -/

/-- A text with each line break written as a carriage return and a line feed. -/
def toCrlf : Bytes → Bytes
  | [] => []
  | octet :: rest =>
      if octet = LF then CR :: LF :: toCrlf rest
      else if octet = CR ∧ rest.head? = some LF then toCrlf rest
      else octet :: toCrlf rest

section Encoding

variable {line rest front text : Bytes} {octet : UInt8}

/-- A text is a line, or a line in front of a text. -/
theorem line_induction {holds : Bytes → Prop} (last : ∀ line, LF ∉ line → holds line)
    (cons : ∀ line rest, LF ∉ line → holds rest → holds (line ++ LF :: rest)) (text : Bytes) :
    holds text := by
  induction length : text.length using Nat.strongRecOn generalizing text with
  | ind length_ ih =>
      rcases cutLine_spec text with ⟨-, open_⟩ | ⟨line, rest, -, rfl, unbroken⟩
      · exact last text open_
      · refine cons line rest unbroken (ih rest.length ?_ rest rfl)
        rw [← length, List.length_append, List.length_cons]
        omega

@[simp] theorem stripReturn_nil : stripReturn [] = [] := rfl

theorem stripReturn_concat (front : Bytes) (octet : UInt8) :
    stripReturn (front ++ [octet]) = if octet = CR then front else front ++ [octet] := by
  have ending : [CR] <:+ front ++ [octet] ↔ octet = CR := by
    rw [List.singleton_suffix_iff_getLast?_eq_some, List.getLast?_concat, Option.some_inj]
  simp only [stripReturn, ending, List.dropLast_concat]

theorem stripReturn_append (some_ : rest ≠ []) : stripReturn (front ++ rest) = front ++ stripReturn rest := by
  obtain rfl | ⟨before, octet, rfl⟩ := rest.eq_nil_or_concat
  · exact absurd rfl some_
  · rw [List.concat_eq_append, ← List.append_assoc, stripReturn_concat, stripReturn_concat]
    split_ifs
    · rfl
    · exact List.append_assoc _ _ _

theorem toCrlf_plain (noFeed : octet ≠ LF) (alone : octet = CR → rest.head? ≠ some LF) :
    toCrlf (octet :: rest) = octet :: toCrlf rest := by
  rw [toCrlf, if_neg noFeed, if_neg (fun both => alone both.1 both.2)]

/-- Only a carriage return in front of a line feed is dropped. -/
theorem toCrlf_line (unbroken : LF ∉ line) (rest : Bytes) :
    toCrlf (line ++ LF :: rest) = stripReturn line ++ (CRLF ++ toCrlf rest) := by
  induction line with
  | nil => simp [toCrlf, CRLF]
  | cons octet line ih =>
      rw [List.mem_cons, not_or] at unbroken
      obtain ⟨noFeed, others⟩ := unbroken
      cases line with
      | nil =>
          by_cases return_ : octet = CR
          · subst return_
            rfl
          · rw [List.singleton_append, toCrlf_plain (Ne.symm noFeed) (fun same => absurd same return_),
              ← List.nil_append [octet], stripReturn_concat, if_neg return_]
            rfl
      | cons next line =>
          have inside : next ≠ LF := fun same => others (same ▸ List.mem_cons_self)
          have stripped : stripReturn (octet :: next :: line) = octet :: stripReturn (next :: line) :=
            @stripReturn_append (next :: line) [octet] (List.cons_ne_nil next line)
          rw [List.cons_append, toCrlf_plain (Ne.symm noFeed) (fun _ => by simpa using inside),
            ih others, stripped]
          rfl

theorem toCrlf_last (unbroken : LF ∉ line) : toCrlf line = line := by
  induction line with
  | nil => rfl
  | cons octet line ih =>
      rw [List.mem_cons, not_or] at unbroken
      obtain ⟨noFeed, others⟩ := unbroken
      have inside : line.head? ≠ some LF := fun first => others (List.mem_of_head? first)
      rw [toCrlf_plain (Ne.symm noFeed) (fun _ => inside), ih others]

theorem toCrlf_return (front : Bytes) : toCrlf (front ++ [CR]) = toCrlf front ++ [CR] := by
  induction front with
  | nil => rfl
  | cons octet front ih =>
      have next : (front ++ [CR]).head? = some LF ↔ front.head? = some LF := by
        cases front with
        | nil => simp [CR, LF]
        | cons => rfl
      rw [List.cons_append, toCrlf, toCrlf, ih]
      simp only [next]
      split_ifs <;> rfl

/-- Leaving out a carriage return at the end changes a text that has one there. -/
theorem toCrlf_stripReturn_iff (text : Bytes) :
    toCrlf (stripReturn text) = toCrlf text ↔ text.getLast? ≠ some CR := by
  obtain rfl | ⟨front, octet, rfl⟩ := text.eq_nil_or_concat
  · simp
  · rw [List.concat_eq_append, stripReturn_concat]
    by_cases return_ : octet = CR
    · subst return_
      rw [toCrlf_return]
      simp
    · simp [return_]

/-! ### What an encoded text is decoded to -/

theorem decode_literal (plain : octet ≠ 0x3D) (rest : Bytes) :
    Mime.decodeQuotedPrintable (octet :: rest) = octet :: Mime.decodeQuotedPrintable rest := by
  rw [decode_cons, turnAt_literal plain]
  rfl

theorem decode_escape {high low byte : UInt8} (read : Mime.hexOctet high low = some byte) (rest : Bytes) :
    Mime.decodeQuotedPrintable (0x3D :: high :: low :: rest) =
      byte :: Mime.decodeQuotedPrintable rest := by
  have noFeed : high ≠ LF := by
    rintro rfl
    cases read
  have noReturn : ¬ (high = CR ∧ low = LF) := by
    rintro ⟨rfl, rfl⟩
    cases read
  rw [Mime.decodeQuotedPrintable, if_pos rfl, if_neg noReturn, if_neg noFeed, read]

theorem decode_softBreak (rest : Bytes) :
    Mime.decodeQuotedPrintable (softBreak ++ rest) = Mime.decodeQuotedPrintable rest := by
  change Mime.decodeQuotedPrintable (0x3D :: CR :: LF :: rest) = _
  rw [Mime.decodeQuotedPrintable, if_pos rfl, if_pos ⟨rfl, rfl⟩]

/-- What an octet is written as, for every octet at once. -/
theorem piece_octets : ∀ byte : UInt8,
    Mime.hexOctet (hexOf (byte / 16)) (hexOf (byte % 16)) = some byte ∧
    (∀ last, (piece byte last).all (fun octet => (0x20 ≤ octet ∧ octet ≤ 0x7E) ∨ octet = 0x09) = true ∧
      (piece byte last).length ≤ 3) ∧
    (piece byte true).getLast?.any (fun octet => octet ≠ 0x20 ∧ octet ≠ 0x09) = true :=
  forall_octet (by decide +kernel)

theorem hexOctet_hexOf (byte : UInt8) :
    Mime.hexOctet (hexOf (byte / 16)) (hexOf (byte % 16)) = some byte := (piece_octets byte).1

theorem piece_printable (last : Bool) (byte : UInt8) : (piece byte last).all
    (fun octet => (0x20 ≤ octet ∧ octet ≤ 0x7E) ∨ octet = 0x09) = true := ((piece_octets byte).2.1 last).1

theorem piece_length (last : Bool) (byte : UInt8) : (piece byte last).length ≤ 3 :=
  ((piece_octets byte).2.1 last).2

/-- The last octet of a line is no blank. -/
theorem piece_closed (byte : UInt8) : (piece byte true).getLast?.any
    (fun octet => octet ≠ 0x20 ∧ octet ≠ 0x09) = true := (piece_octets byte).2.2

theorem decode_piece (byte : UInt8) (last : Bool) (rest : Bytes) :
    Mime.decodeQuotedPrintable (piece byte last ++ rest) = byte :: Mime.decodeQuotedPrintable rest := by
  unfold piece
  split
  · next literal =>
      have plain : byte ≠ 0x3D := by
        rintro rfl
        exact absurd literal (by simp)
      exact decode_literal plain rest
  · exact decode_escape (hexOctet_hexOf byte) rest

/-- Soft breaks are left out again. -/
theorem decode_encodeLine (width : Nat) (line rest : Bytes) :
    Mime.decodeQuotedPrintable (encodeLine width line ++ rest) =
      line ++ Mime.decodeQuotedPrintable rest := by
  induction line generalizing width with
  | nil => rfl
  | cons byte line ih =>
      rw [encodeLine]
      split
      · rw [List.append_assoc, List.append_assoc, decode_softBreak, decode_piece, ih,
          List.cons_append]
      · rw [List.append_assoc, decode_piece, ih, List.cons_append]

theorem encode_last (unbroken : LF ∉ line) :
    encodeQuotedPrintable line = encodeLine 0 (stripReturn line) := by
  rw [encodeQuotedPrintable, List.splitOn_eq_singleton unbroken, List.map_singleton,
    List.intercalate_singleton]

theorem encode_line (unbroken : LF ∉ line) (rest : Bytes) : encodeQuotedPrintable (line ++ LF :: rest) =
    encodeLine 0 (stripReturn line) ++ (CRLF ++ encodeQuotedPrintable rest) := by
  have lines : (rest.splitOn LF).map (fun line => encodeLine 0 (stripReturn line)) ≠ [] :=
    fun none_ => List.splitOn_ne_nil LF rest (List.map_eq_nil_iff.mp none_)
  rw [encodeQuotedPrintable, List.splitOn_append_cons_self_of_not_mem unbroken, List.map_cons,
    List.intercalate_cons_of_ne_nil lines, List.append_assoc]
  rfl

/-- An encoded text is decoded to the text with its line breaks, without a carriage return at the end. -/
theorem decode_encode (text : Bytes) :
    Mime.decodeQuotedPrintable (encodeQuotedPrintable text) = toCrlf (stripReturn text) := by
  induction text using line_induction with
  | last line unbroken =>
      have still : LF ∉ stripReturn line := by
        unfold stripReturn
        split
        · exact fun inside => unbroken (List.dropLast_subset line inside)
        · exact unbroken
      rw [encode_last unbroken, ← List.append_nil (encodeLine _ _), decode_encodeLine, toCrlf_last still]
      exact List.append_nil _
  | cons line rest unbroken ih =>
      have stripped : stripReturn (line ++ LF :: rest) = line ++ LF :: stripReturn rest := by
        cases rest with
        | nil => exact stripReturn_concat line LF
        | cons =>
          rw [List.append_cons, stripReturn_append (List.cons_ne_nil _ _), ← List.append_cons]
      have break_ (rest : Bytes) : Mime.decodeQuotedPrintable (CRLF ++ rest) =
          CRLF ++ Mime.decodeQuotedPrintable rest := by
        change Mime.decodeQuotedPrintable (CR :: LF :: rest) = _
        rw [decode_literal (by decide), decode_literal (by decide)]
        rfl
      rw [encode_line unbroken, decode_encodeLine, break_, ih, stripped,
        toCrlf_line unbroken]

end Encoding

/-! ## Encoded lines -/

/-- A line has at most 76 printable characters, and no blank at its end. -/
structure Fine (line : Bytes) : Prop where
  short : line.length ≤ 76
  printable : ∀ octet ∈ line, (0x20 ≤ octet ∧ octet ≤ 0x7E) ∨ octet = 0x09
  closed : ∀ octet ∈ line.getLast?, octet ≠ 0x20 ∧ octet ≠ 0x09

/-- Lines with a line break between any two of them. -/
inductive Sheet : Bytes → Prop
  | last {line : Bytes} : Fine line → Sheet line
  | cons {line rest : Bytes} : Fine line → Sheet rest → Sheet (line ++ (CRLF ++ rest))

section Lines

variable {line rest text start : Bytes} {octet : UInt8}

theorem Sheet.append {one other : Bytes} (first : Sheet one) (second : Sheet other) :
    Sheet (one ++ (CRLF ++ other)) := by
  induction first with
  | last fine => exact .cons fine second
  | cons fine _ ih =>
      rw [List.append_assoc]
      exact .cons fine ih

theorem Fine.unbroken (fine : Fine line) : LF ∉ line := by
  intro inside
  exact absurd (fine.printable LF inside) (by decide)

/-- The lines are found again. -/
theorem Sheet.split (sheet : Sheet text) : ∀ line ∈ Delimiters.split CRLF text, Fine line := by
  have some_ : CRLF ≠ [] := List.cons_ne_nil _ _
  have feed : LF ∈ CRLF := by decide
  induction sheet with
  | @last line fine =>
      rw [Delimiters.split_absent some_ (fun inside => fine.unbroken (inside.subset feed))]
      exact List.forall_mem_singleton.mpr fine
  | @cons line rest fine _ ih =>
      have fresh : Occurrences.Fresh CRLF line := by
        intro inside
        rw [CRLF, List.dropLast_append_cons] at inside
        rcases List.mem_append.mp (inside.subset feed) with early | late
        · exact fine.unbroken early
        · exact absurd late (by decide)
      rw [Delimiters.split_fresh some_ fresh]
      exact List.forall_mem_cons.mpr ⟨fine, ih⟩

/-- Every line that is written is a fine one. The induction is on the line, with what has been written
since the last break. -/
theorem sheet_encodeLine (short : start.length ≤ maxWidth)
    (printable : ∀ octet ∈ start, (0x20 ≤ octet ∧ octet ≤ 0x7E) ∨ octet = 0x09)
    (closed : line = [] → ∀ octet ∈ start.getLast?, octet ≠ 0x20 ∧ octet ≠ 0x09) :
    Sheet (start ++ encodeLine start.length line) := by
  induction line generalizing start with
  | nil =>
      rw [encodeLine, List.append_nil]
      exact .last ⟨Nat.le_succ_of_le short, printable, closed rfl⟩
  | cons byte line ih =>
      have length := piece_length line.isEmpty byte
      have own : ∀ octet ∈ piece byte line.isEmpty, (0x20 ≤ octet ∧ octet ≤ 0x7E) ∨ octet = 0x09 := by
        simpa using piece_printable line.isEmpty byte
      have ended (before : Bytes) (last : line = []) :
          ∀ octet ∈ (before ++ piece byte line.isEmpty).getLast?, octet ≠ 0x20 ∧ octet ≠ 0x09 := by
        subst last
        have closing := piece_closed byte
        intro octet last
        rw [List.getLast?_append] at last
        cases found : (piece byte true).getLast? with
        | none =>
            rw [found] at closing
            cases closing
        | some ending =>
            rw [found] at closing
            rw [List.isEmpty_nil, found] at last
            obtain rfl := Option.some.inj last
            exact of_decide_eq_true closing
      rw [encodeLine]
      split
      · have broken : start ++ (softBreak ++ (piece byte line.isEmpty ++
            encodeLine (piece byte line.isEmpty).length line)) = (start ++ [0x3D]) ++ (CRLF ++
              (piece byte line.isEmpty ++ encodeLine (piece byte line.isEmpty).length line)) := by
          simp [softBreak]
        have sign : ∀ octet ∈ start ++ [0x3D], (0x20 ≤ octet ∧ octet ≤ 0x7E) ∨ octet = 0x09 := by
          refine List.forall_mem_append.mpr ⟨printable, List.forall_mem_singleton.mpr ?_⟩
          exact .inl (by decide)
        rw [broken]
        refine .cons ⟨?_, sign, ?_⟩ (ih ?_ own (ended []))
        · rw [List.length_append]
          exact Nat.succ_le_succ short
        · simp
        · exact length.trans (by decide)
      · next fits =>
          rw [← List.append_assoc, ← List.length_append]
          refine ih ?_ (List.forall_mem_append.mpr ⟨printable, own⟩) (ended start)
          rw [List.length_append]
          exact Nat.not_lt.mp fits

theorem sheet_encode (text : Bytes) : Sheet (encodeQuotedPrintable text) := by
  have lines (line : Bytes) : Sheet ([] ++ encodeLine 0 line) :=
    sheet_encodeLine (Nat.zero_le _) (by simp) (by simp)
  induction text using line_induction with
  | last line unbroken =>
      rw [encode_last unbroken]
      exact lines _
  | cons line rest unbroken ih =>
      rw [encode_line unbroken]
      exact (lines _).append ih

end Lines

/-! ## A text and a body -/

/-- A text comes back with its line breaks, in lines that fit, and the decoders agree on every body and
leave what is no escape, if and only if the text does not end with a carriage return and the body has no
plus between a sign and a digit. -/
theorem quotedPrintable_iff (text body : Bytes) :
    (trackingDecoder (encodeQuotedPrintable text) = toCrlf text ∧
      (∀ line ∈ Delimiters.split CRLF (encodeQuotedPrintable text), Fine line) ∧
      (mimeDecoder body = trackingDecoder body ∧ trackingDecoder body = arfDecoder body ∧
        arfDecoder body = dmarcDecoder body) ∧ trackingDecoder body = decodeStrictly body) ↔
      text.getLast? ≠ some CR ∧ NoPlus body := by
  obtain ⟨mime, tracking, arf, dmarc⟩ := decoders_agree body
  obtain ⟨-, own, -, -⟩ := decoders_agree (encodeQuotedPrintable text)
  rw [own, mime, tracking, arf, dmarc, decode_encode, toCrlf_stripReturn_iff, decode_eq_strictly_iff]
  constructor
  · rintro ⟨returns, -, -, strict⟩
    exact ⟨returns, strict⟩
  · rintro ⟨returns, strict⟩
    exact ⟨returns, (sheet_encode text).split, ⟨rfl, rfl, rfl⟩, strict⟩

/-- A carriage return at the end gets lost, and a plus is read as a digit. -/
theorem lost_return_and_plus :
    trackingDecoder (encodeQuotedPrintable [0x61, CR]) = [0x61] ∧ toCrlf [0x61, CR] = [0x61, CR] ∧
      trackingDecoder (encode "=+5") = [0x05] ∧
      decodeStrictly (encode "=+5") = encode "=+5" := by
  decide

end QuotedPrintable

end Camelmailer
