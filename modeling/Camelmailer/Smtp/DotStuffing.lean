import Camelmailer.Smtp.EndOfData
import Camelmailer.Worker.SmtpClient

/-!
# The client's messages arrive

The outgoing client and the session each have their own rule for dots and for line
ends. The client doubles a leading dot and replaces line ends; the session halves a
leading pair of dots and replaces line ends again. Together they transport every valid
UTF-8 message: no line of it is taken for the end, and what arrives is the message with
its line ends made CRLF.
-/

namespace Camelmailer.Smtp

open Utf8 Lines Worker

/-! ## Normalised line ends -/

/-- A carriage return in front of every line feed that lacks one. `carriage` tells
whether the octet before was a carriage return. -/
def feedsToCrlf : Bool → Bytes → Bytes
  | _, [] => []
  | carriage, octet :: rest =>
      (if octet = LF ∧ carriage = false then CRLF else [octet]) ++ feedsToCrlf (octet == CR) rest

/-- A message with its line ends made CRLF. A last line that has no line end, or only
a carriage return, gets one as well. -/
def normalizeLineEnds (raw : Bytes) : Bytes :=
  let body := feedsToCrlf false raw
  body ++ (if body.getLast? = none ∨ body.getLast? = some LF then []
    else if body.getLast? = some CR then [LF] else CRLF)

theorem withoutCr_append (line : Bytes) :
    withoutCr line ++ CRLF = line ++ (if line.getLast? = some CR then [LF] else CRLF) := by
  unfold withoutCr Str.stripLast
  by_cases carriage : line.getLast? = some CR
  · rw [if_pos carriage]
    have whole := List.dropLast_append_getLast? CR carriage
    conv_rhs => rw [← whole]
    simp [CRLF]
  · rw [if_neg carriage, if_neg carriage]
    rfl

/-- Octets without a line feed are kept as they are. -/
theorem feedsToCrlf_unbroken (line rest : Bytes) (unbroken : LF ∉ line) (carriage : Bool) :
    feedsToCrlf carriage (line ++ rest) =
      line ++ feedsToCrlf (match line.getLast? with
        | some octet => octet == CR
        | none => carriage) rest := by
  induction line generalizing carriage with
  | nil => rfl
  | cons octet line ih =>
      have other : octet ≠ LF := by
        intro same
        exact unbroken (by simp [same])
      have later : LF ∉ line := fun member => unbroken (List.mem_cons_of_mem _ member)
      rw [List.cons_append, feedsToCrlf, if_neg (by simp [other]), ih later]
      cases line with
      | nil => rfl
      | cons next line => simp [List.getLast?_cons]

/-- A line with its line feed is normalised by itself. -/
theorem feedsToCrlf_line (line rest : Bytes) (unbroken : LF ∉ line) :
    feedsToCrlf false (line ++ LF :: rest) = withoutCr line ++ CRLF ++ feedsToCrlf false rest := by
  rw [feedsToCrlf_unbroken line _ unbroken, withoutCr_append, feedsToCrlf]
  have fresh : (LF == CR) = false := by decide
  rw [fresh]
  cases ending : line.getLast? with
  | none => simp
  | some octet =>
      by_cases carriage : octet = CR
      · simp [carriage]
      · simp [carriage]

theorem feedsToCrlf_lines (lines : List Bytes) (tail : Bytes)
    (unbroken : ∀ line ∈ lines, LF ∉ line) (open_ : LF ∉ tail) :
    feedsToCrlf false (unlines lines ++ tail) =
      lines.flatMap (fun line => withoutCr line ++ CRLF) ++ tail := by
  induction lines with
  | nil => simpa [feedsToCrlf] using feedsToCrlf_unbroken tail [] open_ false
  | cons line rest ih =>
      rw [unlines_cons, List.append_assoc, List.cons_append,
        feedsToCrlf_line line _ (unbroken line List.mem_cons_self),
        ih (fun other member => unbroken other (List.mem_cons_of_mem _ member))]
      simp

/-- Normalising works line by line. -/
theorem normalizeLineEnds_lines (lines : List Bytes) (tail : Bytes)
    (unbroken : ∀ line ∈ lines, LF ∉ line) (open_ : LF ∉ tail) :
    normalizeLineEnds (unlines lines ++ tail) =
      (lines ++ (if tail = [] then [] else [tail])).flatMap (fun line =>
        withoutCr line ++ CRLF) := by
  unfold normalizeLineEnds
  rw [feedsToCrlf_lines lines tail unbroken open_]
  dsimp only
  rcases List.eq_nil_or_concat' tail with rfl | ⟨front, last, rfl⟩
  · -- the message ends with its last complete line
    have ended : (lines.flatMap (fun line => withoutCr line ++ CRLF)).getLast? = none ∨
        (lines.flatMap (fun line => withoutCr line ++ CRLF)).getLast? = some LF := by
      rcases List.eq_nil_or_concat' lines with rfl | ⟨more, line, rfl⟩
      · exact .inl rfl
      · simp [CRLF]
    simp only [List.append_nil, if_true, List.flatMap_nil]
    rw [if_pos ended, List.append_nil]
  · have other : last ≠ LF := by
      intro same
      exact open_ (by simp [same])
    have filled : front ++ [last] ≠ [] := by simp
    rw [if_neg (by simp [other])]
    simp only [withoutCr_append]
    simp

/-! ## Lines on the wire -/

/-- A line of a text as the client writes it, without the line feed. -/
def wireText (line : Text) : Text :=
  (if (chomp line).head? = some '.' then ['.'] else []) ++ chomp line ++ ['\r']

theorem withoutCr_encode (line : Text) : withoutCr (encode line) = encode (chomp line) := by
  have carriage := hasCr_decode (encode line)
  unfold withoutCr chomp Str.stripLast
  by_cases ending : line.getLast? = some '\r'
  · rw [if_pos (carriage.mp (by simp [hasCr, ending])), if_pos ending]
    have whole := List.dropLast_append_getLast? '\r' ending
    have cut : encode line = encode line.dropLast ++ [CR] := by
      conv_lhs => rw [← whole]
      rw [encode_append]
      rfl
    rw [cut, List.dropLast_concat]
    rfl
  · rw [if_neg (fun last => ending (by simpa [hasCr] using carriage.mpr last)), if_neg ending]
    rfl

theorem head_encode_dot (text : Text) :
    (encode text).head? = some 0x2E ↔ text.head? = some '.' := by
  cases text with
  | nil => simp
  | cons char rest =>
      rw [encode_cons]
      constructor
      · intro first
        have member : (0x2E : UInt8) ∈ String.utf8EncodeChar char := by
          cases octets : String.utf8EncodeChar char with
          | nil => exact absurd octets (by simp)
          | cons octet more =>
              rw [octets] at first
              simpa using Or.inl first.symm
        rw [mem_encodeChar char _ (by decide)] at member
        rw [show char = '.' from Char.toNat_inj.mp member]
        rfl
      · intro first
        rw [show char = '.' by simpa using first]
        rfl

/-- The octets the client writes for a line of a text. -/
theorem wireLine_encode (line : Text) : wireLine (encode line) = encode (wireText line) ++ [LF] := by
  have dot : encode ['.'] = [0x2E] := rfl
  have carriage : encode ['\r'] = [CR] := rfl
  unfold wireLine wireText
  rw [withoutCr_encode, encode_append, encode_append, carriage]
  by_cases dotted : (chomp line).head? = some '.'
  · rw [if_pos dotted, if_pos ((head_encode_dot _).mpr dotted), dot]
    simp [CRLF]
  · rw [if_neg dotted, if_neg (fun first => dotted ((head_encode_dot _).mp first))]
    simp [CRLF]

theorem chomp_concat (text : Text) : chomp (text ++ ['\r']) = text := by
  simp [chomp, Str.stripLast]

theorem hasCr_wireText (line : Text) : hasCr (wireText line) = true := by
  simp [hasCr, wireText]

/-- No line of a message is written as the final dot. -/
theorem wireText_ne_dotLine (line : Text) : wireText line ≠ dotLine := by
  intro same
  have content := congrArg chomp same
  unfold wireText at content
  rw [chomp_concat, show chomp dotLine = ['.'] from rfl] at content
  by_cases dotted : (chomp line).head? = some '.'
  · rw [if_pos dotted] at content
    rw [show chomp line = [] by simpa using content] at dotted
    cases dotted
  · rw [if_neg dotted, List.nil_append] at content
    rw [content] at dotted
    exact dotted rfl

/-- The session undoes the doubling of a leading dot. -/
theorem unstuff_wireText (line : Text) : unstuff (chomp (wireText line)) = chomp line := by
  have pair : ".." = ['.', '.'] := rfl
  unfold wireText
  rw [chomp_concat]
  unfold unstuff Str.stripPrefix
  rw [pair]
  cases content : chomp line with
  | nil => rfl
  | cons char rest =>
      by_cases dotted : char = '.'
      · simp [dotted]
      · have plain : ¬ ['.', '.'] <+: char :: rest := by
          rintro ⟨tail, same⟩
          exact dotted (List.cons.inj same).1.symm
        have undotted : (char :: rest).head? ≠ some '.' := by simpa using dotted
        rw [if_neg undotted, List.nil_append, if_neg plain]

/-! ## The round trip -/

/-- The lines that the client writes for the lines of a text never end the message. -/
theorem continues_wire (lines : List Text) (previous : Option Bool) :
    Continues previous (lines.map wireText) := by
  induction lines generalizing previous with
  | nil => trivial
  | cons line rest ih =>
      exact ⟨fun ended => wireText_ne_dotLine line ended.1, ih _⟩

theorem lastEnd_wire (lines : List Text) :
    lastEnd (some true) (lines.map wireText) = some true := by
  unfold lastEnd
  induction lines with
  | nil => rfl
  | cons line rest ih =>
      rw [List.map_cons, List.foldl_cons, hasCr_wireText]
      exact ih

theorem contentOf_wire (lines : List Text) :
    contentOf (lines.map wireText) =
      (lines.map encode).flatMap (fun line => withoutCr line ++ CRLF) := by
  unfold contentOf
  rw [List.flatMap_map, List.flatMap_map]
  congr 1
  funext line
  rw [unstuff_wireText, withoutCr_encode]

theorem chomp_prefix (line : Text) : chomp line <+: line := by
  unfold chomp Str.stripLast
  split
  · exact List.dropLast_prefix line
  · exact List.prefix_refl line

theorem wireText_unbroken (line : Text) (unbroken : LF ∉ encode line) :
    LF ∉ encode (wireText line) := by
  have content : LF ∉ encode (chomp line) := by
    obtain ⟨ending, whole⟩ := chomp_prefix line
    rw [← whole, encode_append] at unbroken
    exact fun member => unbroken (List.mem_append_left _ member)
  have dot : LF ∉ encode ['.'] := by decide
  have carriage : LF ∉ encode ['\r'] := by decide
  unfold wireText
  rw [encode_append, encode_append, List.mem_append, List.mem_append]
  rintro ((member | member) | member)
  · split at member
    · exact dot member
    · cases member
  · exact content member
  · exact carriage member

/-- What the client writes for a text, line by line, and what the text is with its line
ends normalised. -/
theorem sendData_lines (text : Text) :
    ∃ lines : List Text, sendData (encode text) =
        unlines (lines.map (fun line => encode (wireText line)) ++ [encode dotLine]) ∧
      (∀ line ∈ lines, LF ∉ encode (wireText line)) ∧
      normalizeLineEnds (encode text) = contentOf (lines.map wireText) := by
  obtain ⟨complete, tail, whole, unbroken, open_⟩ := encode_lines text
  have unbrokenLines : ∀ line ∈ complete.map encode, LF ∉ line := by
    intro line member
    obtain ⟨piece, included, rfl⟩ := List.mem_map.mp member
    exact unbroken piece included
  have pieces : complete.map encode ++ (if encode tail = [] then [] else [encode tail]) =
      (complete ++ (if tail = [] then [] else [tail])).map encode := by
    cases tail with
    | nil => simp
    | cons char rest => simp
  refine ⟨complete ++ (if tail = [] then [] else [tail]), ?_, ?_, ?_⟩
  · unfold sendData
    rw [whole, dataLines_unlines _ _ unbrokenLines open_, pieces, List.flatMap_map, unlines_append]
    congr 1
    unfold unlines
    rw [List.flatMap_map]
    congr 1
    funext line
    exact wireLine_encode line
  · have whole : ∀ line ∈ complete ++ (if tail = [] then [] else [tail]), LF ∉ encode line := by
      intro line member
      rcases List.mem_append.mp member with earlier | last
      · exact unbroken line earlier
      · split at last
        · cases last
        · rw [List.mem_singleton.mp last]
          exact open_
    intro line member
    exact wireText_unbroken line (whole line member)
  · rw [whole, normalizeLineEnds_lines _ _ unbrokenLines open_, pieces, contentOf_wire]

/-- The client's octets for a valid UTF-8 message, read by a session that has answered
DATA with 354 on a line that ended in CRLF. No line but the last is a dot. All lines
before it become content, in silence; what then stands after the trace headers is the
message with its line ends made CRLF, and the last line ends it. -/
theorem client_message_arrives (platform : Platform) (session opened : Session) (env : Env)
    (command : Text) (calls : List Call)
    (commanded : commandOf session (chomp command) = some .data)
    (answered : sessionStep platform session ⟨env, command⟩ =
      some (⟨.line "354 Go ahead", calls⟩, opened))
    (carriage : hasCr command = true) (text : Text) (stream : LineStream) (after : Bytes)
    (sent : stream.octets = sendData (encode text) ++ after) :
    ∃ body : List Bytes, complete (sendData (encode text)) = body ++ [[0x2E, CR]] ∧
      (∀ line ∈ body, withoutCr line ≠ [0x2E]) ∧
      ∀ inputs : List LineInput, inputs.map LineInput.line = stream.readLines body.length →
        ∃ events final, Machine.run (sessionStep platform) opened inputs = some (events, final) ∧
          (∀ event ∈ events, event.output = ⟨.none, []⟩ ∧ event.after.inputMode = .data) ∧
          final.data = some (encode ((traceHeaders platform env session).flatMap headerLine) ++
            normalizeLineEnds (encode text)) ∧
          (stream.readLines (body.length + 1)).getLast? = some dotLine ∧
          Finishes final dotLine := by
  obtain ⟨receiving, ending, trace, -⟩ := data_opens commanded answered
  obtain ⟨lines, written, unbroken, normalised⟩ := sendData_lines text
  have wire : ∀ line ∈ lines.map (fun line => encode (wireText line)) ++ [encode dotLine],
      LF ∉ line := by
    intro line member
    rcases List.mem_append.mp member with earlier | last
    · obtain ⟨piece, included, rfl⟩ := List.mem_map.mp earlier
      exact unbroken piece included
    · rw [List.mem_singleton.mp last]
      decide
  have decoded : (lines.map (fun line => encode (wireText line))).map fromUtf8Lossy =
      lines.map wireText := by
    rw [List.map_map]
    congr 1
    funext line
    exact decode_encode _
  have arriving : complete stream.octets =
      lines.map (fun line => encode (wireText line)) ++ encode dotLine :: complete after := by
    rw [sent, written, complete_unlines_append _ _ wire]
    simp
  refine ⟨lines.map (fun line => encode (wireText line)), ?_, ?_, ?_⟩
  · have alone := complete_unlines _ [] wire (by simp)
    rwa [List.append_nil, ← written] at alone
  · intro line member dot
    obtain ⟨piece, -, rfl⟩ := List.mem_map.mp member
    rw [withoutCr_encode] at dot
    have content : chomp (wireText piece) = ['.'] := by
      have shown := congrArg fromUtf8Lossy (dot.trans (show [0x2E] = encode ['.'] from rfl))
      rwa [decode_encode] at shown
    exact wireText_ne_dotLine piece
      ((eq_dotLine_iff (wireText piece)).mpr ⟨content, hasCr_wireText piece⟩)
  · intro inputs fed
    have read : inputs.map LineInput.line = lines.map wireText := by
      rw [fed, LineStream.readLines_eq, arriving, List.take_left, decoded]
    obtain ⟨events, final, ran, silent, still, lastly, content⟩ := run_receives platform inputs
      receiving (by rw [read]; exact continues_wire lines _)
    refine ⟨events, final, ran, silent, ?_, ?_, ?_⟩
    · rw [content, trace, read, ← normalised]
      rfl
    · have front : lines.map (fun line => encode (wireText line)) ++
          encode dotLine :: complete after =
          (lines.map (fun line => encode (wireText line)) ++ [encode dotLine]) ++
            complete after := by simp
      rw [LineStream.readLines_eq, arriving, front, List.take_left' (by simp), List.map_append,
        List.map_singleton, List.getLast?_concat, decode_encode]
    · rw [finishes_iff still, lastly, ending, carriage, read]
      exact ⟨rfl, lastEnd_wire lines⟩

/-- A message with dots, a bare line feed, a bare carriage return and no last line end. -/
def dottedMessage : Text := ".\n..a\r\n\rb\n\n.é"

theorem dotted_message_arrives :
    ∃ opened final, sessionStep .ascii addressedSession ⟨exampleEnv, "DATA\r"⟩ =
        some (⟨.line "354 Go ahead", []⟩, opened) ∧
      final.data = some (encode ((traceHeaders .ascii exampleEnv addressedSession).flatMap
        headerLine) ++ encode ".\r\n..a\r\n\rb\r\n\r\n.é\r\n") ∧
      Finishes final dotLine := by
  have answered : (sessionStep .ascii addressedSession ⟨exampleEnv, "DATA\r"⟩).map
      (fun reaction => reaction.1) = some ⟨.line "354 Go ahead", []⟩ := by rfl
  obtain ⟨⟨response, opened⟩, stepped, rfl⟩ := Option.map_eq_some_iff.mp answered
  obtain ⟨body, -, -, received⟩ := client_message_arrives .ascii addressedSession opened exampleEnv
    "DATA\r" [] (by decide) stepped (by decide) dottedMessage
    (.new [sendData (encode dottedMessage)]) [] (by decide)
  obtain ⟨-, final, -, -, content, -, finishes⟩ := received
    (((LineStream.new [sendData (encode dottedMessage)]).readLines body.length).map
      (⟨exampleEnv, ·⟩)) (by simp [Function.comp_def])
  have normalised : normalizeLineEnds (encode dottedMessage) =
      encode ".\r\n..a\r\n\rb\r\n\r\n.é\r\n" := by decide
  rw [normalised] at content
  exact ⟨opened, final, stepped, content, finishes⟩

end Camelmailer.Smtp
