import Camelmailer.Text.Str

/-!
# Paths of requests

A path is matched segment by segment as it was sent, percent-encoded. What a handler is given
for a parameter is the decoded segment, if its octets are well-formed UTF-8. Both are the
rules of a router; nothing here is about particular routes.
-/

namespace Camelmailer.Paths

open Utf8

/-! ## Percent-encoding -/

/-- The value of a hexadecimal digit. -/
def hexDigit (octet : UInt8) : Option UInt8 :=
  if 0x30 ≤ octet ∧ octet ≤ 0x39 then some (octet - 0x30)
  else if 0x41 ≤ octet ∧ octet ≤ 0x46 then some (octet - 0x37)
  else if 0x61 ≤ octet ∧ octet ≤ 0x66 then some (octet - 0x57)
  else none

/-- `percent_encoding::percent_decode`. A percent sign that two digits do not follow stands
for itself. -/
def percentDecode : Bytes → Bytes
  | [] => []
  | [octet] => [octet]
  | octet :: next :: rest =>
      if octet = 0x25 then
        match rest with
        | low :: others =>
            match hexDigit next, hexDigit low with
            | some high, some low => (16 * high + low) :: percentDecode others
            | _, _ => octet :: percentDecode (next :: low :: others)
        | [] => octet :: percentDecode (next :: [])
      else octet :: percentDecode (next :: rest)

/-- `str::from_utf8`: octets are well-formed when the text they decode to is written with
them. -/
def fromUtf8 (octets : Bytes) : Option Text :=
  if encode (fromUtf8Lossy octets) = octets then some (fromUtf8Lossy octets) else none

/-- What a handler is given for a segment. -/
def decodeSegment (raw : Text) : Option Text := fromUtf8 (percentDecode (encode raw))

/-! ## Patterns -/

/-- A segment of a route. An identifier is a parameter that is read as a number. -/
inductive Segment where
  | literal (text : Text)
  | parameter
  | identifier
deriving DecidableEq

/-- The number an identifier is read as, `str::parse::<u64>`. -/
def parseNumber (text : Text) : Option Nat :=
  let digits := (Str.stripPrefix ['+'] text).getD text
  if digits ≠ [] ∧ digits.all Char.isDigit = true then
    let value := digits.foldl (fun sum digit => 10 * sum + (digit.toNat - 48)) 0
    if value < 2 ^ 64 then some value else none
  else none

/-- Match a path against a pattern. A parameter takes one segment that is not empty; the
result pairs the parameters with the segments they take. -/
def matchSegments : List Segment → List Text → Option (List (Segment × Text))
  | [], [] => some []
  | .literal text :: pattern, segment :: segments =>
      if text = segment then matchSegments pattern segments else none
  | kind :: pattern, segment :: segments =>
      if segment = [] then none
      else (matchSegments pattern segments).map ((kind, segment) :: ·)
  | _, _ => none

/-- What a handler is given for a parameter, if it can be read. -/
def readParameter : Segment × Text → Option Text
  | (.identifier, raw) => (decodeSegment raw).filter (fun text => (parseNumber text).isSome)
  | (_, raw) => decodeSegment raw

/-- The parameters of a handler, if all of them can be read. -/
def readParameters (taken : List (Segment × Text)) : Option (List Text) := taken.mapM readParameter

/-- `str::split`, without the empty segment before the first slash. -/
def pathSegments (path : Text) : Option (List Text) :=
  match path.splitOn '/' with
  | [] :: segments => some segments
  | _ => none

/-- The segments of a path that are not empty, `split('/').filter(|s| !s.is_empty())`. -/
def filledSegments (path : Text) : List Text := (path.splitOn '/').filter (fun segment => segment ≠ [])

section Matching

variable {pattern : List Segment} {segments : List Text} {taken : List (Segment × Text)}

theorem matchSegments_nil (matched : matchSegments [] segments = some taken) :
    segments = [] ∧ taken = [] := by
  cases segments with
  | nil => exact ⟨rfl, (Option.some.inj matched).symm⟩
  | cons segment segments => cases matched

theorem matchSegments_literal {text : Text}
    (matched : matchSegments (.literal text :: pattern) segments = some taken) :
    ∃ rest, segments = text :: rest ∧ matchSegments pattern rest = some taken := by
  cases segments with
  | nil => cases matched
  | cons segment rest =>
      unfold matchSegments at matched
      split at matched
      case isTrue same => exact ⟨rest, by rw [same], matched⟩
      case isFalse => cases matched

theorem matchSegments_parameter {kind : Segment} (open_kind : ∀ text, kind ≠ .literal text)
    (matched : matchSegments (kind :: pattern) segments = some taken) :
    ∃ segment rest others, segments = segment :: rest ∧ segment ≠ [] ∧
      taken = (kind, segment) :: others ∧ matchSegments pattern rest = some others := by
  cases segments with
  | nil =>
      cases kind with
      | literal text => exact absurd rfl (open_kind text)
      | parameter => cases matched
      | identifier => cases matched
  | cons segment rest =>
      rw [matchSegments.eq_3 kind pattern segment rest open_kind] at matched
      split at matched
      case isTrue => cases matched
      case isFalse filled =>
        obtain ⟨others, below, same⟩ := Option.map_eq_some_iff.mp matched
        exact ⟨segment, rest, others, rfl, filled, same.symm, below⟩

/-- A pattern without empty literals takes no empty segment. -/
theorem matchSegments_filled (filled : ∀ text, .literal text ∈ pattern → text ≠ [])
    (matched : matchSegments pattern segments = some taken) : ∀ segment ∈ segments, segment ≠ [] := by
  induction pattern generalizing segments taken with
  | nil =>
      obtain ⟨rfl, -⟩ := matchSegments_nil matched
      simp
  | cons kind pattern ih =>
      have below (text : Text) (listed : .literal text ∈ pattern) : text ≠ [] :=
        filled text (List.mem_cons_of_mem _ listed)
      have first_and_rest {segment : Text} {rest : List Text} {others : List (Segment × Text)}
          (first : segment ≠ []) (rest_matched : matchSegments pattern rest = some others) :
          ∀ other ∈ segment :: rest, other ≠ [] := by
        intro other listed
        rcases List.mem_cons.mp listed with rfl | later
        · exact first
        · exact ih below rest_matched other later
      cases kind with
      | literal text =>
          obtain ⟨rest, rfl, rest_matched⟩ := matchSegments_literal matched
          exact first_and_rest (filled text (List.mem_cons_self ..)) rest_matched
      | parameter | identifier =>
          obtain ⟨segment, rest, others, rfl, first, -, rest_matched⟩ :=
            matchSegments_parameter (by simp) matched
          exact first_and_rest first rest_matched

/-- Where no segment is empty, dropping the empty ones leaves the segments of the path. -/
theorem filledSegments_eq {path : Text} (split : pathSegments path = some segments)
    (filled : ∀ segment ∈ segments, segment ≠ []) : filledSegments path = segments := by
  unfold pathSegments at split
  unfold filledSegments
  cases parts : path.splitOn '/' with
  | nil =>
      rw [parts] at split
      cases split
  | cons first rest =>
      rw [parts] at split
      cases first with
      | cons char text => cases split
      | nil =>
          cases split
          rw [List.filter_cons_of_neg (by simp)]
          exact List.filter_eq_self.mpr (by simpa using filled)

/-- A path that begins with a slash, a word and another slash has the word as its first
segment. -/
theorem pathSegments_word {word rest : Text} (unbroken : '/' ∉ word)
    (split : pathSegments ('/' :: (word ++ '/' :: rest)) = some segments) :
    segments.head? = some word := by
  unfold pathSegments at split
  rw [show '/' :: (word ++ '/' :: rest) = [] ++ '/' :: (word ++ '/' :: rest) from rfl,
    List.splitOn_append_cons_self_of_not_mem (by simp),
    List.splitOn_append_cons_self_of_not_mem unbroken] at split
  cases split
  rfl

end Matching

end Camelmailer.Paths
