import Camelmailer.Api.Mime
import Camelmailer.Core.HeaderFields

/-!
# Headers of the client

A client may add headers to a message, but for the names that the builder controls. Only the name is
looked at, and name and value are written as they are, between the headers of the parameters and
those that mail-builder adds. What later components read there are lines: a line feed in a name or a
value begins another header, or ends the header block.

What mail-builder makes of the parameters is compared with the message without headers of the client.
-/

namespace Camelmailer.Api

open Utf8 Lines

/-! ## Vocabulary -/

/-- The fields that come from the parameters and from mail-builder. -/
def ownFields : List Text :=
  ["from", "to", "cc", "reply-to", "subject", "date",
    "message-id", "content-type", "content-transfer-encoding",
    "mime-version"]

/-- The headers of a client as they are written. -/
def customBytes (headers : List (Text × Text)) : Bytes :=
  (headers.filter (fun header => !isReservedHeader header.1)).flatMap
    (fun header => encode (header.1 ++ ": " ++ header.2) ++ CRLF)

/-- The lines of that. -/
def customLines (headers : List (Text × Text)) : List Bytes := complete (customBytes headers)

/-- The headers of a client are harmless: no line is empty, none begins a field that is not theirs to
begin, and none is added to a field in front of them. -/
def Harmless (platform : Platform) (headers : List (Text × Text)) : Prop :=
  (∀ line ∈ customLines headers, stripped line ≠ []) ∧
    keepsFields platform ownFields false (customLines headers) = true

instance (platform : Platform) (headers : List (Text × Text)) :
    Decidable (Harmless platform headers) :=
  inferInstanceAs (Decidable (_ ∧ _))

/-- A message is read as another one: at most one field of each name, with the same values, and the
same body. -/
structure Unforged (platform : Platform) (raw plain : Bytes) : Prop where
  once : ∀ name ∈ ownFields, (valuesOf name (parseHeaders platform raw)).length ≤ 1
  given : ∀ name ∈ ownFields,
    valuesOf name (parseHeaders platform raw) = valuesOf name (parseHeaders platform plain)
  body : bodyLines (raw.splitOn LF) = bodyLines (plain.splitOn LF)

/-- A value that is one line and lines that are folded. -/
def OneField (value : Bytes) : Prop :=
  ∃ first folds, value = unlines (first :: folds) ∧ LF ∉ first ∧
    ∀ fold ∈ folds, LF ∉ fold ∧ isFolded (lineText fold) = true

/-- The message without headers of the client is what mail-builder is meant to write: one field for
each header, further headers behind them, and no name twice. -/
structure WellWritten (platform : Platform) (builder : MailBuilder) (uuid : Text)
    (params : BuildParams) : Prop where
  fields : ∀ header ∈ dedicatedHeaders uuid params, OneField (builder.value header.2)
  opens : ∃ line more,
    builder.rest ((dedicatedHeaders uuid params).map Prod.fst) (messageBody params) =
      line ++ LF :: more ∧ LF ∉ line ∧ (fieldName platform (lineText line)).isSome = true
  once : ∀ name ∈ ownFields, (valuesOf name (parseHeaders platform
    (buildMessage builder uuid { params with headers := [] }))).length ≤ 1

/-! ## The lines of the parameters -/

/-- The names of the headers that have parameters. -/
def dedicatedNames : List Text :=
  ["From", "To", "Cc", "Bcc", "Reply-To", "Subject",
    "Message-ID"]

section Dedicated

variable {platform : Platform}

theorem dedicatedNames_plain : ∀ name ∈ dedicatedNames,
    ':' ∉ name ∧ Str.trim name = name ∧ name.head? ≠ none ∧ name.head? ≠ some ' ' ∧
      name.head? ≠ some '\t' := by
  decide

theorem dedicatedNames_ascii {name : Text} (known : name ∈ dedicatedNames) :
    ∀ char ∈ name, Ascii char := by
  have all : ∀ name ∈ dedicatedNames, name.all (fun char => decide (Ascii char)) = true := by
    decide
  intro char member
  exact of_decide_eq_true (List.all_eq_true.mp (all name known) char member)

theorem dedicatedNames_octets : ∀ name ∈ dedicatedNames,
    LF ∉ encode (name ++ ": ") ∧
      (encode (name ++ ": ")).getLast? ≠ some CR := by
  decide

/-- The first line of a header of the parameters begins a field of its name. -/
theorem fieldName_dedicated {name : Text} (known : name ∈ dedicatedNames) (rest : Text) :
    fieldName platform (name ++ ": " ++ rest) = some (Str.toAsciiLowercase name) := by
  obtain ⟨uncut, trimmed, visible, blank, tab⟩ := dedicatedNames_plain name known
  have head : (name ++ ": " ++ rest).head? = name.head? := by
    cases name with
    | nil => exact absurd rfl visible
    | cons char more => rfl
  have split : Str.splitOnce ':' (name ++ ": " ++ rest) = some (name, ' ' :: rest) :=
    Str.splitOnce_eq_some.mpr ⟨by simp, uncut⟩
  have filled : isFolded (name ++ ": " ++ rest) = false := by
    unfold isFolded
    rw [head]
    simp [blank, tab]
  unfold fieldName
  rw [filled, if_neg Bool.false_ne_true, split, Option.map_some, trimmed,
    platform.toLowercase_ascii name (dedicatedNames_ascii known)]

/-- A carriage return at the end of a line is not in front of it. -/
theorem stripped_append {front : Bytes} (ending : front.getLast? ≠ some CR) (line : Bytes) :
    ∃ rest, stripped (front ++ line) = front ++ rest := by
  unfold stripped Str.stripLast
  split_ifs with cr
  · cases line with
    | nil =>
        rw [List.append_nil] at cr
        exact absurd cr ending
    | cons octet more =>
        exact ⟨(octet :: more).dropLast, List.dropLast_append_of_ne_nil (by simp)⟩
  · exact ⟨line, rfl⟩

/-- A header of the parameters is one field. -/
theorem field_read (platform : Platform) {builder : MailBuilder} {header : Header}
    (known : header.1 ∈ dedicatedNames) (one : OneField (builder.value header.2)) :
    ∃ lines value, builder.field header = unlines lines ∧
      (∀ line ∈ lines, LF ∉ line ∧ stripped line ≠ []) ∧
      ∀ headers, foldLines platform headers lines =
        headers ++ [(Str.toAsciiLowercase header.1, value)] := by
  obtain ⟨first, folds, written, unbroken, folded⟩ := one
  obtain ⟨inline, ending⟩ := dedicatedNames_octets header.1 known
  obtain ⟨rest, begins⟩ := stripped_append ending first
  have opening : lineText (encode (header.1 ++ ": ") ++ first) =
      header.1 ++ ": " ++ fromUtf8Lossy rest := by
    unfold lineText
    rw [begins]
    exact decode_encode_append _ _
  have named : fieldName platform (lineText (encode (header.1 ++ ": ") ++ first)) =
      some (Str.toAsciiLowercase header.1) := by
    rw [opening]
    exact fieldName_dedicated known _
  obtain ⟨value, begun⟩ := parseHeaderLine_begun named
  have continued (folds : List Bytes) (value : Text)
      (folded : ∀ fold ∈ folds, LF ∉ fold ∧ isFolded (lineText fold) = true) :
      ∃ whole, ∀ headers, foldLines platform
        (headers ++ [(Str.toAsciiLowercase header.1, value)]) folds =
          headers ++ [(Str.toAsciiLowercase header.1, whole)] := by
    induction folds generalizing value with
    | nil => exact ⟨value, fun headers => rfl⟩
    | cons fold folds ih =>
        obtain ⟨whole, reads⟩ := ih (value ++ ' ' :: Str.trim (lineText fold))
          (fun other member => folded other (List.mem_cons_of_mem _ member))
        refine ⟨whole, fun headers => ?_⟩
        rw [← reads headers]
        unfold foldLines
        rw [List.foldl_cons, parseHeaderLine_folded (folded fold (List.mem_cons_self ..)).2,
          List.modifyLast_concat]
  obtain ⟨whole, reads⟩ := continued folds value folded
  refine ⟨(encode (header.1 ++ ": ") ++ first) :: folds, whole, ?_, ?_, fun headers => ?_⟩
  · unfold MailBuilder.field
    rw [written]
    simp
  · intro line member
    rcases List.mem_cons.mp member with rfl | later
    · refine ⟨fun feed => (List.mem_append.mp feed).elim inline unbroken, stripped_ne_nil ?_⟩
      rw [opening]
      simp
    · obtain ⟨whole, blank⟩ := folded line later
      refine ⟨whole, stripped_ne_nil ?_⟩
      intro empty
      rw [empty] at blank
      cases blank
  · rw [← reads headers]
    unfold foldLines
    rw [List.foldl_cons, begun]

/-- Headers of the parameters are one field each. -/
theorem fields_read (platform : Platform) {builder : MailBuilder} (headers : List Header)
    (known : ∀ header ∈ headers, header.1 ∈ dedicatedNames)
    (ones : ∀ header ∈ headers, OneField (builder.value header.2)) :
    ∃ lines added, builder.fields headers = unlines lines ∧
      (∀ line ∈ lines, LF ∉ line ∧ stripped line ≠ []) ∧
      added.map Prod.fst = headers.map (fun header => Str.toAsciiLowercase header.1) ∧
      ∀ fields, foldLines platform fields lines = fields ++ added := by
  induction headers with
  | nil => exact ⟨[], [], rfl, fun _ member => absurd member List.not_mem_nil, rfl, by simp [foldLines]⟩
  | cons header headers ih =>
      obtain ⟨first, value, written, filled, read⟩ := field_read platform
        (known header (List.mem_cons_self ..)) (ones header (List.mem_cons_self ..))
      obtain ⟨lines, added, rest, later, names, reads⟩ := ih
        (fun other member => known other (List.mem_cons_of_mem _ member))
        (fun other member => ones other (List.mem_cons_of_mem _ member))
      refine ⟨first ++ lines, (Str.toAsciiLowercase header.1, value) :: added, ?_, ?_, ?_, ?_⟩
      · rw [unlines_append, ← written, ← rest]
        rfl
      · intro line member
        exact (List.mem_append.mp member).elim (filled line) (later line)
      · rw [List.map_cons, names]
        rfl
      · intro fields
        have both : foldLines platform fields (first ++ lines) =
            foldLines platform (foldLines platform fields first) lines := List.foldl_append
        rw [both, read, reads, List.append_assoc]
        rfl

theorem dedicatedHeaders_names (uuid : Text) (params : BuildParams) :
    ∀ header ∈ dedicatedHeaders uuid params, header.1 ∈ dedicatedNames := by
  have addressed (name : Text) (known : name ∈ dedicatedNames) (addresses : List Address) :
      ∀ header ∈ addressesHeader name addresses, header.1 ∈ dedicatedNames := by
    intro header member
    unfold addressesHeader at member
    split_ifs at member
    · exact absurd member List.not_mem_nil
    · rw [List.mem_singleton.mp member]
      exact known
  intro header member
  unfold dedicatedHeaders messageIdHeader at member
  simp only [List.mem_append, List.mem_singleton, Option.mem_toList, Option.map_eq_some_iff,
    or_assoc] at member
  rcases member with rfl | first | second | third | fourth | rfl | ⟨id, -, rfl⟩
  · exact (by decide : "From".toList ∈ dedicatedNames)
  · exact addressed _ (by decide) _ header first
  · exact addressed _ (by decide) _ header second
  · exact addressed _ (by decide) _ header third
  · exact addressed _ (by decide) _ header fourth
  · exact (by decide : "Subject".toList ∈ dedicatedNames)
  · exact (by decide : "Message-ID".toList ∈ dedicatedNames)

/-- The last of them is the subject or the message id. -/
theorem dedicatedHeaders_last (uuid : Text) (params : BuildParams) :
    ∃ front last, dedicatedHeaders uuid params = front ++ [last] ∧
      last.1 ∈ ["Subject".toList, "Message-ID".toList] := by
  unfold dedicatedHeaders messageIdHeader
  cases messageId uuid params with
  | none =>
      refine ⟨_, ("Subject".toList, .text params.subject), List.append_nil _, ?_⟩
      exact List.mem_cons_self ..
  | some id =>
      refine ⟨_, ("Message-ID".toList, .messageId id), rfl, ?_⟩
      exact List.mem_cons_of_mem _ (List.mem_singleton_self _)

end Dedicated

/-! ## The lines of the client -/

theorem fields_custom (builder : MailBuilder) (headers : List (Text × Text)) :
    builder.fields (customHeaders headers) = customBytes headers := by
  unfold MailBuilder.fields customHeaders customBytes
  rw [List.flatMap_map]
  refine List.flatMap_congr (fun header _ => ?_)
  unfold MailBuilder.field
  rw [builder.value_raw]
  simp only [encode_append, List.append_assoc]

theorem customBytes_lines (headers : List (Text × Text)) :
    customBytes headers = unlines (customLines headers) := by
  unfold customLines
  rcases List.eq_nil_or_concat' (headers.filter (fun header => !isReservedHeader header.1)) with
    none | ⟨front, last, some⟩
  · unfold customBytes
    rw [none]
    rfl
  · have ends : customBytes headers = front.flatMap
        (fun header => encode (header.1 ++ ": " ++ header.2) ++ CRLF) ++
          (encode (last.1 ++ ": " ++ last.2) ++ [CR]) ++ [LF] := by
      unfold customBytes
      rw [some]
      simp [CRLF]
    rw [ends, unlines_complete]

/-- No header of the client is one that mail-builder adds. -/
theorem custom_names (headers : List (Text × Text)) {name : Text} (generated : name ∈ generatedNames) :
    name ∉ (customHeaders headers).map Prod.fst := by
  have reserved : ∀ name ∈ generatedNames, isReservedHeader name = true := by decide
  intro member
  obtain ⟨header, included, rfl⟩ := List.mem_map.mp member
  obtain ⟨given, kept, rfl⟩ := List.mem_map.mp included
  have free := (List.mem_filter.mp kept).2
  rw [reserved _ generated] at free
  cases free

/-! ## The message -/

section Message

variable {platform : Platform} {builder : MailBuilder} {uuid : Text} {params : BuildParams}

theorem mem_customNames (headers : List Header) (custom : List (Text × Text)) {name : Text}
    (generated : name ∈ generatedNames) :
    name ∈ (headers ++ customHeaders custom).map Prod.fst ↔ name ∈ headers.map Prod.fst := by
  rw [List.map_append, List.mem_append, or_iff_left (custom_names custom generated)]

/-- The headers of the client are between those of the parameters and the rest. -/
theorem buildMessage_custom : buildMessage builder uuid params =
    builder.fields (dedicatedHeaders uuid params) ++ (customBytes params.headers ++
      builder.rest ((dedicatedHeaders uuid params).map Prod.fst) (messageBody params)) := by
  unfold buildMessage
  rw [builder.writeToVec_eq, MailBuilder.fields_append, fields_custom,
    builder.rest_congr _ _ _ (fun _ => mem_customNames _ params.headers), List.append_assoc]

/-- The pieces of the message with headers of the client and without, and how they are read. -/
structure Pieces (platform : Platform) (raw plain : Bytes) (custom : List Bytes) where
  front : List Bytes
  rest : List Bytes
  fields : List (Text × Text)
  last : Text × Text
  raw_eq : raw.splitOn LF = front ++ (custom ++ rest)
  plain_eq : plain.splitOn LF = front ++ rest
  filled : ∀ line ∈ front, stripped line ≠ []
  read : foldLines platform [] front = fields ++ [last]
  controlled : last.1 ∈ ownFields
  some : rest ≠ []
  alone : ∀ headers, parseHeaderLines platform headers rest =
    headers ++ parseHeaderLines platform [] rest

theorem WellWritten.pieces (written : WellWritten platform builder uuid params) :
    Nonempty (Pieces platform (buildMessage builder uuid params)
      (buildMessage builder uuid { params with headers := [] }) (customLines params.headers)) := by
  obtain ⟨lines, added, shown, filled, names, reads⟩ := fields_read platform
    (dedicatedHeaders uuid params) (dedicatedHeaders_names uuid params) written.fields
  obtain ⟨line, more, opening, unbroken, begins⟩ := written.opens
  obtain ⟨early, newest, headers, known⟩ := dedicatedHeaders_last uuid params
  rw [headers, List.map_append] at names
  obtain ⟨fields, final, rfl, -, named⟩ := List.map_eq_append_iff.mp names
  obtain ⟨last, rfl, sameName⟩ := List.map_eq_singleton_iff.mp named
  have cut (custom : List (Text × Text)) (rest : Bytes) :
      (builder.fields (dedicatedHeaders uuid params) ++ (customBytes custom ++ rest)).splitOn LF =
        lines ++ (customLines custom ++ rest.splitOn LF) := by
    have single : ∀ line ∈ customLines custom, LF ∉ line :=
      (stream_lines (customBytes custom)).choose_spec.2.2
    rw [shown, splitOn_unlines lines _ (fun line member => (filled line member).1),
      customBytes_lines, splitOn_unlines _ _ single]
  have pieces : (builder.rest ((dedicatedHeaders uuid params).map Prod.fst)
      (messageBody params)).splitOn LF = line :: more.splitOn LF := by
    rw [opening, List.splitOn_append_cons_self_of_not_mem unbroken]
  have plain := @buildMessage_custom builder uuid { params with headers := [] }
  have same : Str.toAsciiLowercase newest.1 ∈ ownFields := by
    rcases List.mem_cons.mp known with subject | id
    · rw [subject]
      decide
    · rw [List.mem_singleton.mp id]
      decide
  refine ⟨{
    front := lines
    rest := line :: more.splitOn LF
    fields := fields
    last := last
    raw_eq := by rw [buildMessage_custom, cut, pieces]
    plain_eq := by
      rw [plain]
      exact (cut [] _).trans (congrArg (lines ++ ·) pieces)
    filled := fun line member => (filled line member).2
    read := reads []
    controlled := by rw [sameName]; exact same
    some := List.cons_ne_nil _ _
    alone := fun headers => parseHeaderLines_begun begins headers _ }⟩

/-- A message with an empty line among the headers of the client has another body. -/
theorem Pieces.early {raw plain : Bytes} {custom : List Bytes}
    (pieces : Pieces platform raw plain custom) {line : Bytes} (member : line ∈ custom)
    (empty : stripped line = []) :
    bodyLines (raw.splitOn LF) ≠ bodyLines (plain.splitOn LF) := by
  rw [pieces.raw_eq, pieces.plain_eq, bodyLines_append pieces.filled, bodyLines_append pieces.filled]
  intro same
  have longer := bodyLines_early member empty pieces.rest
  have shorter := bodyLines_length pieces.some
  rw [same] at longer
  omega

/-- Without one, the fields of a name are those in front and behind, and those of the client. -/
theorem Pieces.values {raw plain : Bytes} {custom : List Bytes}
    (pieces : Pieces platform raw plain custom) (filled : ∀ line ∈ custom, stripped line ≠ [])
    (name : Text) : valuesOf name (parseHeaders platform raw) =
        valuesOf name (parseHeaders platform plain) ↔
      valuesOf name (foldLines platform (pieces.fields ++ [pieces.last] ++ []) custom) =
        valuesOf name (pieces.fields ++ [pieces.last]) := by
  unfold parseHeaders
  rw [pieces.raw_eq, pieces.plain_eq, parseHeaderLines_append pieces.filled,
    parseHeaderLines_append pieces.filled, pieces.read, parseHeaderLines_append filled,
    pieces.alone (foldLines platform _ custom), pieces.alone (pieces.fields ++ [pieces.last]),
    valuesOf_append _ _ (parseHeaderLines platform [] pieces.rest),
    valuesOf_append _ _ (parseHeaderLines platform [] pieces.rest), List.append_left_inj,
    List.append_nil]

end Message

/-! ## A message with headers of the client -/

theorem oneField_line {text : Text} (unbroken : '\n' ∉ text) : OneField (encode text ++ CRLF) := by
  refine ⟨encode text ++ [CR], [], by simp [CRLF], ?_, fun _ member => absurd member List.not_mem_nil⟩
  intro feed
  rcases List.mem_append.mp feed with within | last
  · exact unbroken (feed_mem_encode.mp within)
  · exact absurd (List.mem_singleton.mp last) (by decide)

def exampleParams (headers : List (Text × Text)) : BuildParams where
  sender := ⟨some "Me".toList, "me@a.example"⟩
  sendTo := [⟨some "You".toList, "you@b.example"⟩]
  cc := []
  bcc := []
  replyTo := []
  subject := "Hi"
  htmlBody := none
  textBody := some "Hi".toList
  headers := headers
  attachments := []
  messageId := none

theorem exampleParams_written (headers : List (Text × Text)) :
    WellWritten .ascii exampleBuilder "0" (exampleParams headers) := by
  refine ⟨?_, ?_, ?_⟩
  · have lines : ∀ header ∈ dedicatedHeaders "0" (exampleParams []),
        '\n' ∉ exampleText header.2 := by decide
    exact fun header member => oneField_line (lines header member)
  · have opens : (cutLine (exampleBuilder.rest
        ((dedicatedHeaders "0" (exampleParams [])).map Prod.fst)
        (messageBody (exampleParams [])))).any (fun parts =>
          (fieldName .ascii (lineText parts.1)).isSome) = true := by decide +kernel
    obtain ⟨⟨line, more⟩, cut, begins⟩ := (Option.any_eq_true _ _).mp opens
    obtain ⟨missing, -⟩ | ⟨first, rest, found, whole, unbroken⟩ := cutLine_spec (exampleBuilder.rest
      ((dedicatedHeaders "0" (exampleParams [])).map Prod.fst) (messageBody (exampleParams [])))
    · cases missing.symm.trans cut
    · obtain ⟨rfl, rfl⟩ := Prod.mk.inj (Option.some.inj (found.symm.trans cut))
      exact ⟨first, rest, whole, unbroken, begins⟩
  · exact (by decide +kernel : ∀ name ∈ ownFields, (valuesOf name (parseHeaders .ascii
      (buildMessage exampleBuilder "0" (exampleParams [])))).length ≤ 1)

/-- A header whose value goes on in another line. -/
def forgedHeaders : List (Text × Text) :=
  [("X-Order", "7\r\nFrom: ceo@bank.example")]

end Camelmailer.Api
