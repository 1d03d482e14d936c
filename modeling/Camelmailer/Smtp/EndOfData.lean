import Camelmailer.Smtp.Receiving

/-!
# Where a message ends

A message ends at the first `CRLF . CRLF` of the stream, where the CRLF that ended the
DATA line counts as the first one. Nothing else ends it: neither a dot between bare
line feeds or carriage returns, nor any other mixture of the two. The results relate
the octets of the stream to the lines the session sees, which are decoded and stripped.
-/

namespace Camelmailer.Smtp

open Utf8 Lines

/-- The octets that end a message. -/
def terminator : Bytes := [CR, LF, 0x2E, CR, LF]

/-- A line after an ended line completes the terminator only as a lone dot, and only
after CRLF. -/
theorem terminator_suffix (past line : Bytes) (ended : [LF] <:+ past) (unbroken : LF ∉ line)
    (completed : terminator <:+ past ++ line ++ [LF]) : CRLF <:+ past ∧ line = [0x2E, CR] := by
  obtain ⟨before, rfl⟩ := ended
  obtain ⟨front, whole⟩ := completed
  -- read from the end, a line without a line feed can only be a carriage return and a dot
  have backwards : CR :: 0x2E :: LF :: CR :: front.reverse = line.reverse ++ LF :: before.reverse := by
    have reversed := congrArg List.reverse whole
    simpa [terminator] using reversed
  have unbrokenBack : LF ∉ line.reverse := by simpa using unbroken
  cases backLine : line.reverse with
  | nil =>
      rw [backLine] at backwards
      cases backwards
  | cons last rest =>
      cases rest with
      | nil =>
          rw [backLine] at backwards
          cases backwards
      | cons dot rest =>
          cases rest with
          | nil =>
              rw [backLine] at backwards
              obtain ⟨rfl, rfl, backFront⟩ : CR = last ∧ 0x2E = dot ∧
                  CR :: front.reverse = before.reverse := by simpa using backwards
              constructor
              · have ending := congrArg List.reverse backFront
                exact ⟨front, by simp [CRLF, show before = front ++ [CR] by simpa using ending.symm]⟩
              · simpa using congrArg List.reverse backLine
          | cons feed rest =>
              rw [backLine] at backwards unbrokenBack
              have same : LF = feed := by
                simp only [List.cons_append, List.cons.injEq] at backwards
                exact backwards.2.2.1
              exact absurd (by simp [← same]) unbrokenBack

/-- An occurrence of the terminator ends with a line feed, so a further line completes
one only as a lone dot between two CRLF. -/
theorem terminator_line (past line : Bytes) (ended : [LF] <:+ past) (unbroken : LF ∉ line) :
    terminator <:+: past ++ line ++ [LF] ↔
      terminator <:+: past ∨ (CRLF <:+ past ∧ line = [0x2E, CR]) := by
  constructor
  · rintro ⟨front, back, whole⟩
    rcases List.eq_nil_or_concat' back with rfl | ⟨back, last, rfl⟩
    · exact .inr (terminator_suffix past line ended unbroken ⟨front, by simpa using whole⟩)
    · left
      have trimmed : front ++ terminator ++ back = past ++ line := by
        rw [← List.append_assoc] at whole
        exact (List.append_inj' whole rfl).1
      rcases List.append_eq_append_iff.mp trimmed with ⟨rest, rfl, -⟩ | ⟨rest, cut, rfl⟩
      · exact ⟨front, rest, rfl⟩
      · rcases List.eq_nil_or_concat' rest with rfl | ⟨rest, final, rfl⟩
        · exact ⟨front, [], by simpa using cut⟩
        · have ending : LF = final := by
            have same := congrArg List.getLast? cut
            simpa [terminator] using same
          exact absurd (by simp [← ending]) unbroken
  · rintro (⟨front, back, rfl⟩ | ⟨⟨front, rfl⟩, rfl⟩)
    · exact ⟨front, back ++ line ++ [LF], by simp⟩
    · exact ⟨front, [], by simp [terminator, CRLF]⟩

/-- A decoded line ends in a carriage return exactly when its octets do. -/
theorem hasCr_decode (octets : Bytes) :
    hasCr (fromUtf8Lossy octets) = true ↔ octets.getLast? = some CR := by
  unfold hasCr
  rw [beq_iff_eq]
  rcases List.eq_nil_or_concat' octets with rfl | ⟨front, last, rfl⟩
  · simp [fromUtf8Lossy, decodeFrom, flush]
  · by_cases ascii : last.toNat < 0x80
    · rw [decode_concat_ascii front last ascii, List.getLast?_concat, List.getLast?_concat,
        Option.some.injEq, Option.some.injEq]
      constructor
      · intro same
        have code : last.toNat = 0x0D := by
          rw [← toNat_ofNat last.toNat (.inl (by omega)), same]
          rfl
        exact UInt8.toNat_inj.mp code
      · rintro rfl
        rfl
    · obtain ⟨shown, char, decoded, wide⟩ := decode_concat_high front last (by omega)
      rw [decoded, List.getLast?_concat, List.getLast?_concat, Option.some.injEq, Option.some.injEq]
      constructor
      · rintro rfl
        exact absurd (by decide) wide
      · rintro rfl
        exact absurd (by decide) ascii

theorem decode_dotLine (octets : Bytes) :
    fromUtf8Lossy octets = dotLine ↔ octets = [0x2E, CR] := by
  have ascii : ∀ char ∈ dotLine, Ascii char := by
    intro char member
    obtain rfl | rfl : char = '.' ∨ char = '\r' := by simpa [dotLine] using member
    · decide
    · decide
  rw [decode_eq_ascii_iff octets dotLine ascii]
  rfl

/-- A line ends in CRLF exactly when the session sees its carriage return. -/
theorem hasCr_eq (past line : Bytes) (ended : [LF] <:+ past) :
    hasCr (fromUtf8Lossy line) = decide (CRLF <:+ past ++ line ++ [LF]) := by
  rw [Bool.eq_iff_iff, decide_eq_true_iff, hasCr_decode]
  obtain ⟨before, rfl⟩ := ended
  constructor
  · intro last
    refine ⟨before ++ [LF] ++ line.dropLast, ?_⟩
    have whole := List.dropLast_append_getLast? CR last
    conv_rhs => rw [← whole]
    simp [CRLF]
  · rintro ⟨front, whole⟩
    have trimmed : front ++ [CR] = before ++ [LF] ++ line :=
      List.append_cancel_right (show front ++ [CR] ++ [LF] = _ by simpa [CRLF] using whole)
    have lastOctet := congrArg List.getLast? trimmed
    rw [List.getLast?_concat, List.getLast?_append] at lastOctet
    cases ending : line.getLast? with
    | none =>
        rw [ending, List.getLast?_concat] at lastOctet
        exact absurd lastOctet (by decide)
    | some octet =>
        rw [ending] at lastOctet
        exact lastOctet.symm

/-- The session remembers whether the octets so far end in CRLF. -/
theorem lastEnd_eq (past : Bytes) (octets : List Bytes) (ended : [LF] <:+ past) :
    lastEnd (some (decide (CRLF <:+ past))) (octets.map fromUtf8Lossy) =
      some (decide (CRLF <:+ past ++ unlines octets)) := by
  induction octets generalizing past with
  | nil => simp [lastEnd]
  | cons line rest ih =>
      have split : past ++ unlines (line :: rest) = past ++ line ++ [LF] ++ unlines rest := by simp
      have later := ih (past ++ line ++ [LF]) (List.suffix_append _ _)
      rw [split, ← later, ← hasCr_eq past line ended]
      rfl

/-- Decoded lines continue a message exactly when the terminator does not occur in
their octets. -/
theorem continues_iff (past : Bytes) (octets : List Bytes) (ended : [LF] <:+ past)
    (clean : ¬ terminator <:+: past) (unbroken : ∀ line ∈ octets, LF ∉ line) :
    Continues (some (decide (CRLF <:+ past))) (octets.map fromUtf8Lossy) ↔
      ¬ terminator <:+: past ++ unlines octets := by
  induction octets generalizing past with
  | nil => simp [Continues, clean]
  | cons line rest ih =>
      have first := terminator_line past line ended (unbroken line List.mem_cons_self)
      have restUnbroken : ∀ line ∈ rest, LF ∉ line := by
        intro other member
        exact unbroken other (List.mem_cons_of_mem _ member)
      have split : past ++ unlines (line :: rest) = past ++ line ++ [LF] ++ unlines rest := by simp
      have completes : (fromUtf8Lossy line = dotLine ∧ some (decide (CRLF <:+ past)) = some true) ↔
          terminator <:+: past ++ line ++ [LF] := by
        rw [first, decode_dotLine, Option.some.injEq, decide_eq_true_iff]
        constructor
        · rintro ⟨dot, crlf⟩
          exact .inr ⟨crlf, dot⟩
        · rintro (occurred | ⟨crlf, dot⟩)
          · exact absurd occurred clean
          · exact ⟨dot, crlf⟩
      rw [split]
      show ¬ _ ∧ Continues (some (hasCr (fromUtf8Lossy line))) _ ↔ _
      rw [completes, hasCr_eq past line ended]
      by_cases occurred : terminator <:+: past ++ line ++ [LF]
      · constructor
        · rintro ⟨fresh, -⟩
          exact absurd occurred fresh
        · intro absent
          exact absurd (occurred.trans (List.prefix_append _ _).isInfix) absent
      · rw [ih (past ++ line ++ [LF]) (List.suffix_append _ _) occurred restUnbroken]
        constructor
        · rintro ⟨-, absent⟩
          exact absent
        · intro absent
          exact ⟨occurred, absent⟩

/-- Written lines end with a line feed. -/
theorem unlines_ended (past : Bytes) (lines : List Bytes) (ended : [LF] <:+ past) :
    [LF] <:+ past ++ unlines lines := by
  rcases List.eq_nil_or_concat' lines with rfl | ⟨front, last, rfl⟩
  · simpa using ended
  · exact ⟨past ++ unlines front ++ last, by simp⟩

section Opens

variable {platform : Platform} {session opened : Session} {env : Env} {command : Text}
  {calls : List Call}

section

variable (commanded : commandOf session (chomp command) = some .data)
  (answered : sessionStep platform session ⟨env, command⟩ = some (⟨.line "354 Go ahead", calls⟩, opened))
include commanded answered

/-- A DATA command that is answered 354 has been carried out. -/
theorem data_answered :
    session.state ≠ .preauth ∧ session.state = .rcptToReceived ∧ opened = (recordLineEnd
      (dataCommand platform env { session with crPresent := hasCr command })).session := by
  obtain ⟨step, dispatched, responded, rfl⟩ := sessionStep_dispatch answered
  have connected : session.state ≠ .preauth := by
    intro waiting
    rw [commandOf_preauth _ waiting] at commanded
    cases commanded
  have mode := commandOf_inputMode commanded
  rw [commandOf_command connected mode] at commanded
  unfold dispatch handleCommand at dispatched
  rw [if_neg connected] at dispatched
  rw [mode] at dispatched
  rw [Option.some.inj commanded] at dispatched
  obtain rfl := Option.some.inj dispatched
  by_cases ready : session.state = .rcptToReceived
  · refine ⟨connected, ready, ?_⟩
    rw [mode]
    rfl
  · unfold dataCommand at responded
    rw [if_pos ready] at responded
    have same : Reply.line "354 Go ahead" =
        .line "503 HELO/EHLO, MAIL FROM and RCPT TO before sending data" :=
      congrArg Response.reply responded
    exact absurd same (by decide)

/-- It starts a message. -/
theorem data_opens :
    Receiving opened ∧ opened.previousCrPresent = some (hasCr command) ∧
      opened.data = some (encode ((traceHeaders platform env session).flatMap headerLine)) ∧
      opened.headerKey = none ∧ opened.receivingHeaders = true := by
  obtain ⟨connected, ready, rfl⟩ := data_answered commanded answered
  unfold dataCommand
  rw [if_neg (not_not_intro ready)]
  exact ⟨⟨connected, rfl, rfl⟩, rfl, rfl, rfl, rfl⟩

/-- The content of the client starts behind the trace headers. -/
theorem data_offset :
    opened.clientDataOffset =
      (encode ((traceHeaders platform env session).flatMap headerLine)).length := by
  obtain ⟨-, ready, rfl⟩ := data_answered commanded answered
  unfold dataCommand
  rw [if_neg (not_not_intro ready)]
  rfl

end

end Opens

/-- After DATA has been answered 354 on a line that ended in CRLF, let any number of
lines of any stream have been read, without `CRLF . CRLF` in their octets. Then all of
them have become content, without a reply and without a call. The next line ends the
message exactly when it completes the first `CRLF . CRLF`, and then `finish_data` runs
on the message received so far. -/
theorem data_ends_at_first_terminator (platform : Platform) (session opened : Session) (env : Env)
    (command : Text) (calls : List Call)
    (commanded : commandOf session (chomp command) = some .data)
    (answered : sessionStep platform session ⟨env, command⟩ =
      some (⟨.line "354 Go ahead", calls⟩, opened))
    (carriage : hasCr command = true) (stream : LineStream) (count : Nat)
    (inputs : List LineInput) (fed : inputs.map LineInput.line = stream.readLines count)
    (absent : ¬ terminator <:+: CRLF ++ unlines ((complete stream.octets).take count)) :
    ∃ events final, Machine.run (sessionStep platform) opened inputs = some (events, final) ∧
      (∀ event ∈ events, event.output = ⟨.none, []⟩ ∧ event.after.inputMode = .data) ∧
      final.inputMode = .data ∧
      final.data = opened.data.map (· ++ contentOf (inputs.map LineInput.line)) ∧
      ∀ line, (complete stream.octets)[count]? = some line →
        (Finishes final (fromUtf8Lossy line) ↔
          terminator <:+: CRLF ++ unlines ((complete stream.octets).take (count + 1))) ∧
        (Finishes final (fromUtf8Lossy line) → ∀ env,
          handle platform env final (fromUtf8Lossy line) =
            (finishData platform env { final with crPresent := true, inputMode := .command }).map
              recordLineEnd) := by
  obtain ⟨receiving, ending, -⟩ := data_opens commanded answered
  rw [carriage] at ending
  obtain ⟨-, -, -, unbroken⟩ := stream_lines stream.octets
  have unbrokenFront : ∀ line ∈ (complete stream.octets).take count, LF ∉ line := by
    intro line member
    exact unbroken line (List.mem_of_mem_take member)
  have lines : inputs.map LineInput.line =
      ((complete stream.octets).take count).map fromUtf8Lossy := by
    rw [fed, LineStream.readLines_eq]
  have start : some true = some (decide (CRLF <:+ CRLF)) := by decide
  have continued : Continues opened.previousCrPresent (inputs.map LineInput.line) := by
    rw [ending, lines]
    exact (continues_iff CRLF _ (by decide) (by decide) unbrokenFront).mpr absent
  obtain ⟨events, final, ran, silent, still, lastly, content⟩ :=
    run_receives platform inputs receiving continued
  refine ⟨events, final, ran, silent, still.mode, content, ?_⟩
  intro line next
  have taken : (complete stream.octets).take (count + 1) =
      (complete stream.octets).take count ++ [line] := by
    rw [List.take_add_one, next]
    rfl
  constructor
  · have remembered : final.previousCrPresent =
        some (decide (CRLF <:+ CRLF ++ unlines ((complete stream.octets).take count))) := by
      rw [lastly, ending, lines, start, lastEnd_eq CRLF _ (by decide)]
    have ended : [LF] <:+ CRLF ++ unlines ((complete stream.octets).take count) :=
      unlines_ended CRLF _ (by decide)
    have split : CRLF ++ unlines ((complete stream.octets).take (count + 1)) =
        CRLF ++ unlines ((complete stream.octets).take count) ++ line ++ [LF] := by
      rw [taken]
      simp
    rw [finishes_iff still, remembered, decode_dotLine, split,
      terminator_line _ _ ended (unbroken line (List.mem_of_getElem? next)), Option.some.injEq,
      decide_eq_true_iff]
    constructor
    · rintro ⟨dot, crlf⟩
      exact .inr ⟨crlf, dot⟩
    · rintro (occurred | ⟨crlf, dot⟩)
      · exact absurd occurred absent
      · exact ⟨dot, crlf⟩
  · intro finishes env
    obtain ⟨dot, -⟩ := (finishes_iff still _).mp finishes
    unfold handle
    rw [dispatch_endsMessage finishes, dot]
    rfl

/-- A session in which DATA is due. -/
def addressedSession : Session :=
  { exampleSession with
    state := .rcptToReceived
    mailFrom := some "x@y.example".toList
    recipients := [⟨.route, "info@in.example", exampleServer 1, some exampleRoute⟩] }

/-- Two lines and the terminator, in two reads that divide a line. The first line has
a bare line feed, and a dot follows it. -/
def splitMessage : LineStream := ⟨[encode "a\n.\r", encode "\nb\r\n.\r\n"], []⟩

theorem split_message_continues :
    ∃ opened events final, sessionStep .ascii addressedSession ⟨exampleEnv, "DATA\r"⟩ =
        some (⟨.line "354 Go ahead", []⟩, opened) ∧
      Machine.run (sessionStep .ascii) opened
        ((splitMessage.readLines 3).map (⟨exampleEnv, ·⟩)) = some (events, final) ∧
      Finishes final dotLine := by
  have answered : (sessionStep .ascii addressedSession ⟨exampleEnv, "DATA\r"⟩).map
      (fun reaction => reaction.1) = some ⟨.line "354 Go ahead", []⟩ := by rfl
  obtain ⟨⟨response, opened⟩, stepped, rfl⟩ := Option.map_eq_some_iff.mp answered
  obtain ⟨events, final, ran, -, -, -, next⟩ := data_ends_at_first_terminator .ascii
    addressedSession opened exampleEnv "DATA\r" [] (by decide) stepped
    (by decide) splitMessage 3 ((splitMessage.readLines 3).map (⟨exampleEnv, ·⟩))
    (by simp [Function.comp_def])
    (by decide)
  have fourth : (complete splitMessage.octets)[3]? = some [0x2E, CR] := by decide
  refine ⟨opened, events, final, stepped, ran, ?_⟩
  have finishes := (next _ fourth).1.mpr (by decide)
  rwa [(decode_dotLine _).mpr rfl] at finishes

end Camelmailer.Smtp
