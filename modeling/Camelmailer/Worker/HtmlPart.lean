import Camelmailer.Worker.DeliveryStatus
import Camelmailer.Worker.HeaderEnds
import Camelmailer.Worker.QuotedPrintable

/-!
# The HTML part of a message

`html_of` and `with_html` of `camelmailer-worker/src/tracking.rs` look for the part that tracking may
rewrite, take its text out and put another one in its place. The search goes through the parts depth
first and counts where each one begins, so that the octets of the part can be replaced in the message
itself. A part that is nested deeper than eight times is not looked into.
-/

namespace Camelmailer.Tracking

open Utf8 Lines QuotedPrintable
open Worker.DeliveryStatus (trimMatches)

def header (headers : List (Text × Text)) (name : Text) : Option Text :=
  (headers.find? (fun header => header.1 == name)).map Prod.snd

inductive Encoding where
  | identity
  | quotedPrintable
  | base64
deriving DecidableEq

structure HtmlPart where
  start : Nat
  stop : Nat
  encoding : Encoding
deriving DecidableEq

def parameter (value name : Text) : Option Text :=
  ((value.splitOn ';').drop 1).findSome? (fun part =>
    (Str.splitOnce '=' (Str.trim part)).bind (fun pair =>
      if Str.eqIgnoreAsciiCase (Str.trim pair.1) name then some (trimMatches '"' (Str.trim pair.2))
      else none))

/-- The loop of `multipart_ranges` from an offset on: where a delimiter line begins, what follows it,
and whether it is the last. The offset grows with every turn. -/
def delimiterLines (delimiter body : Bytes) : Nat → Nat → List (Nat × Nat × Bool)
  | 0, _ => []
  | turns + 1, offset =>
      if offset + delimiter.length ≤ body.length then
        if (offset = 0 ∨ body[offset - 1]? = some LF) ∧ delimiter <+: body.drop offset then
          let rest := body.drop (offset + delimiter.length)
          let closing : Bool := encode "--" <+: rest
          let lineEnd := ((rest.findIdx? (fun octet => octet = LF)).map
            (fun position => offset + delimiter.length + position + 1)).getD body.length
          (offset, lineEnd, closing) ::
            if closing then [] else delimiterLines delimiter body turns lineEnd
        else delimiterLines delimiter body turns (offset + 1)
      else []

/-- The octets between two delimiter lines, without the line end in front of the second. -/
def rangeBetween (body : Bytes) (first second : Nat × Nat × Bool) : Nat × Nat :=
  let start := first.2.1
  let stop := second.1
  let stop :=
    if start < stop ∧ body[stop - 1]? = some LF then
      if start < stop - 1 ∧ body[stop - 2]? = some CR then stop - 2 else stop - 1
    else stop
  (start, max stop start)

def multipartRanges (body : Bytes) (boundary : Text) : List (Nat × Nat) :=
  let lines := delimiterLines (encode ("--" ++ boundary)) body (body.length + 1) 0
  (lines.zip lines.tail).map (fun pair => rangeBetween body pair.1 pair.2)

/-- The charsets that tracking rewrites. -/
def rewritable (charset : Text) : Bool :=
  Str.toAsciiLowercase charset ∈ ["utf-8".toList, "utf8".toList, "us-ascii".toList]

def encodingOf (headers : List (Text × Text)) : Encoding :=
  let given := Str.toAsciiLowercase
    (Str.trim ((header headers "content-transfer-encoding").getD []))
  if given = "quoted-printable" then .quotedPrintable
  else if given = "base64" then .base64
  else .identity

/-- `find_html`, with the levels that are left. -/
def findHtml (platform : Platform) : Nat → Bytes → Nat → Option HtmlPart
  | 0, _, _ => none
  | levels + 1, raw, base =>
      let headers := parseHeaders platform raw
      let contentType := (header headers "content-type").getD "text/plain"
      match bodyOffset raw with
      | none => none
      | some offset =>
          let body := raw.drop offset
          let media := Str.toAsciiLowercase (Str.trim (((contentType.splitOn ';').head?).getD []))
          if Str.startsWith media "multipart/" then
            if media = "multipart/signed" then none
            else (parameter contentType "boundary").bind (fun boundary =>
              (multipartRanges body boundary).findSome? (fun range =>
                findHtml platform levels (slice body range) (base + offset + range.1)))
          else if media ≠ "text/html" ∨
              ((header headers "content-disposition").any (fun disposition =>
                Str.startsWith (Str.toAsciiLowercase (Str.trim disposition)) "attachment")) then
            none
          else if (parameter contentType "charset").all rewritable then
            some ⟨base + offset, base + raw.length, encodingOf headers⟩
          else none

/-- The engine `STANDARD`. -/
structure Base64 where
  encode : Bytes → Bytes
  decode : Bytes → Option Bytes

/-- `chunks`, as many as there can be at most. -/
def chunks (size : Nat) : Nat → Bytes → List Bytes
  | 0, _ => []
  | most + 1, octets =>
      if octets = [] then [] else octets.take size :: chunks size most (octets.drop size)

/-- An octet that is not passed over in Base64. -/
def visible (octet : UInt8) : Bool := !Octets.isAsciiWhitespace octet

section Replace

variable (base64 : Base64) (platform : Platform)

def decode (encoding : Encoding) (body : Bytes) : Option Bytes :=
  match encoding with
  | .identity => some body
  | .quotedPrintable => some (trackingDecoder body)
  | .base64 => base64.decode (body.filter visible)

/-- `encode`. -/
def encodeAs (encoding : Encoding) (text : Bytes) : Bytes :=
  match encoding with
  | .identity => text
  | .quotedPrintable => encodeQuotedPrintable text
  | .base64 => CRLF.intercalate (chunks 76 (base64.encode text).length (base64.encode text))

def htmlOf (rawMessage : Bytes) : Option Text :=
  (findHtml platform 9 rawMessage 0).bind (fun part =>
    (decode base64 part.encoding (slice rawMessage (part.start, part.stop))).bind Paths.fromUtf8)

def withHtml (rawMessage : Bytes) (html : Text) : Option Bytes :=
  (findHtml platform 9 rawMessage 0).map (fun part =>
    rawMessage.take part.start ++ (encodeAs base64 part.encoding (encode html) ++
      rawMessage.drop part.stop))

end Replace

/-! ## Where the part lies -/

theorem delimiterLines_within (delimiter body : Bytes) (turns offset : Nat) :
    ∀ line ∈ delimiterLines delimiter body turns offset,
      line.1 ≤ body.length ∧ line.2.1 ≤ body.length := by
  induction turns generalizing offset with
  | zero => exact List.forall_mem_nil _
  | succ turns ih =>
      unfold delimiterLines
      split
      case isFalse => exact List.forall_mem_nil _
      case isTrue fits =>
      split
      case isFalse => exact ih (offset + 1)
      case isTrue =>
      have behind : ((((body.drop (offset + delimiter.length)).findIdx?
          (fun octet => octet = LF)).map (fun position => offset + delimiter.length + position + 1)).getD
            body.length) ≤ body.length := by
        cases found : (body.drop (offset + delimiter.length)).findIdx? (fun octet => octet = LF) with
        | none => exact Nat.le_refl _
        | some position =>
            have inside := (List.findIdx?_eq_some_iff_getElem.mp found).1
            rw [List.length_drop] at inside
            rw [Option.map_some, Option.getD_some]
            omega
      refine List.forall_mem_cons.mpr ⟨⟨by omega, behind⟩, ?_⟩
      split
      · exact List.forall_mem_nil _
      · exact ih _

theorem multipartRanges_within (body : Bytes) (boundary : Text) :
    ∀ range ∈ multipartRanges body boundary, range.1 ≤ range.2 ∧ range.2 ≤ body.length := by
  intro range member
  obtain ⟨⟨first, second⟩, pair, rfl⟩ := List.mem_map.mp member
  obtain ⟨left, right⟩ := List.of_mem_zip pair
  have within := delimiterLines_within (encode ("--" ++ boundary)) body (body.length + 1) 0
  have start := (within first left).2
  have stop := (within second (List.mem_of_mem_tail right)).1
  unfold rangeBetween
  dsimp only
  split_ifs <;> omega

/-- The part that is found lies behind the base, inside the octets that are searched. The induction is
on the levels, and a part of a part is where both offsets together say. -/
theorem findHtml_within {platform : Platform} {levels base : Nat} {raw : Bytes} {part : HtmlPart}
    (found : findHtml platform levels raw base = some part) :
    base ≤ part.start ∧ part.start ≤ part.stop ∧ part.stop ≤ base + raw.length := by
  induction levels generalizing raw base with
  | zero => cases found
  | succ levels ih =>
      unfold findHtml at found
      dsimp only at found
      have ends := offset_le raw
      cases offset_ : bodyOffset raw with
      | none => simp [offset_] at found
      | some offset =>
          rw [show offsetBehindBlank raw = some offset from offset_, Option.getD_some] at ends
          simp only [offset_] at found
          split at found
          · split at found
            · cases found
            · obtain ⟨boundary, -, searched⟩ := Option.bind_eq_some_iff.mp found
              obtain ⟨range, member, inner⟩ := List.exists_of_findSome?_eq_some searched
              obtain ⟨forward, inside⟩ := multipartRanges_within _ boundary range member
              have nested := ih inner
              simp only [slice, List.length_drop, List.length_take] at nested inside
              omega
          · split at found
            · cases found
            · split at found
              · cases found
                exact ⟨Nat.le_add_right _ _, Nat.add_le_add_left ends base, Nat.le_refl _⟩
              · cases found

/-! ## What is written is read -/

theorem chunks_flatten {size most : Nat} {octets : Bytes} (positive : 0 < size)
    (enough : octets.length ≤ most) : (chunks size most octets).flatten = octets := by
  induction most generalizing octets with
  | zero => exact (List.length_eq_zero_iff.mp (Nat.le_zero.mp enough)).symm
  | succ most ih =>
      unfold chunks
      split
      · next none_ => exact none_.symm
      · next some_ =>
          have filled := List.length_pos_iff.mpr some_
          rw [List.flatten_cons, ih (by rw [List.length_drop]; omega), List.take_append_drop]

theorem filter_intercalate {kept : UInt8 → Bool} {separator : Bytes}
    (dropped : separator.filter kept = []) (pieces : List Bytes) :
    (separator.intercalate pieces).filter kept = pieces.flatten.filter kept := by
  induction pieces with
  | nil => rfl
  | cons piece pieces ih =>
      cases pieces with
      | nil => rw [List.intercalate_singleton, List.flatten_singleton]
      | cons next others =>
          rw [List.intercalate_cons_of_ne_nil (List.cons_ne_nil _ _), List.filter_append,
            List.filter_append, dropped, List.append_nil, ih, ← List.filter_append]
          rfl

/-- What is read back of a text: quoted-printable gives it line breaks and loses a carriage return at the
end, and the engine gets what it has written itself, without the line breaks that have been put into it. -/
def readBack (base64 : Base64) (encoding : Encoding) (text : Bytes) : Option Bytes :=
  match encoding with
  | .identity => some text
  | .quotedPrintable => some (toCrlf (stripReturn text))
  | .base64 => base64.decode ((base64.encode text).filter visible)

theorem decode_encodeAs (base64 : Base64) (encoding : Encoding) (text : Bytes) :
    decode base64 encoding (encodeAs base64 encoding text) = readBack base64 encoding text := by
  cases encoding with
  | identity => rfl
  | quotedPrintable => rw [decode, encodeAs, (decoders_agree _).2.1, QuotedPrintable.decode_encode, readBack]
  | base64 =>
      rw [decode, encodeAs, filter_intercalate (by decide), chunks_flatten (by decide) (Nat.le_refl _),
        readBack]

/-- A message has no part to rewrite, or its HTML part is somewhere in it: the text is read from these
octets, and another text takes their place, is read back from there, and leaves all other octets as
they are. -/
theorem html_part_replaced (base64 : Base64) (platform : Platform) (raw : Bytes) (html : Text) :
    (htmlOf base64 platform raw = none ∧ withHtml base64 platform raw html = none) ∨
      ∃ front content back encoding, raw = front ++ (content ++ back) ∧
        findHtml platform 9 raw 0 =
          some ⟨front.length, front.length + content.length, encoding⟩ ∧
        htmlOf base64 platform raw = (decode base64 encoding content).bind Paths.fromUtf8 ∧
        withHtml base64 platform raw html =
          some (front ++ (encodeAs base64 encoding (encode html) ++ back)) ∧
        decode base64 encoding (encodeAs base64 encoding (encode html)) =
          readBack base64 encoding (encode html) := by
  cases found : findHtml platform 9 raw 0 with
  | none => exact .inl ⟨by rw [htmlOf, found]; rfl, by rw [withHtml, found]; rfl⟩
  | some part =>
      obtain ⟨-, forward, inside⟩ := findHtml_within found
      rw [Nat.zero_add] at inside
      have start : (raw.take part.start).length = part.start := by
        rw [List.length_take]
        omega
      have width : (slice raw (part.start, part.stop)).length = part.stop - part.start := by
        rw [slice, List.length_drop, List.length_take]
        omega
      refine .inr ⟨raw.take part.start, slice raw (part.start, part.stop), raw.drop part.stop,
        part.encoding, ?_, ?_, ?_, ?_, decode_encodeAs base64 _ _⟩
      · have front : raw.take part.start = (raw.take part.stop).take part.start := by
          rw [List.take_take, min_eq_left forward]
        rw [slice, front, ← List.append_assoc, List.take_append_drop, List.take_append_drop]
      · rw [start, width, Nat.add_sub_cancel' forward]
      · rw [htmlOf, found, Option.bind_some]
      · rw [withHtml, found, Option.map_some]

end Camelmailer.Tracking
