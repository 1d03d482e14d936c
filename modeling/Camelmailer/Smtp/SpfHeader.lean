import Camelmailer.Smtp.Server

/-!
# The Received-SPF header of a transaction

The server checks the SPF policy of an envelope right before DATA and hands the result
to the session, which writes it in front of the message. The check is made once in each
phase of a connection, and the session never forgets a result. So a later transaction
of the same phase carries the result of an earlier one, or none at all.

`SpfDue` says of a DATA command that the check has not been made yet in the phase, or
has been made in the same transaction. When all DATA commands are like this, every
message starts with the result for its own envelope.
-/

namespace Camelmailer.Smtp

open Utf8

/-! ## The first line of a message -/

/-- The first line of a message, with its line feed. -/
def firstLine (raw : Bytes) : Bytes := (Lines.splitInclusive raw).headD []

/-- What follows a line feed does not belong to the first line. -/
theorem firstLine_append (front more : Bytes) (broken : Lines.LF ∈ front) :
    firstLine (front ++ more) = firstLine front := by
  obtain ⟨line, rest, rfl, unbroken⟩ := List.eq_append_cons_of_mem broken
  unfold firstLine
  rw [List.append_assoc, List.cons_append, Lines.splitInclusive_line _ _ unbroken,
    Lines.splitInclusive_line _ _ unbroken]
  rfl

/-- A line feed or carriage return at the end of a line that contains another octet is
not that octet. -/
theorem stripLast_getD (front back : Bytes) (last octet : UInt8) (other : octet ≠ last) :
    ∃ rest, (Str.stripLast last (front ++ octet :: back)).getD (front ++ octet :: back) =
      front ++ octet :: rest := by
  unfold Str.stripLast
  split
  case isFalse => exact ⟨back, rfl⟩
  case isTrue ended =>
    cases back using List.reverseRecOn with
    | nil =>
        rw [List.getLast?_append_of_ne_nil _ (by simp)] at ended
        exact absurd (Option.some.inj ended) other
    | append_singleton back final _ =>
        refine ⟨back, ?_⟩
        rw [Option.getD_some, ← List.cons_append, ← List.append_assoc, List.dropLast_concat]

/-- Removing a header keeps a first line that belongs to another one. -/
theorem firstLine_stripMessageHeader (octet : UInt8) (label value rest name : Bytes)
    (visible : octet ≠ 0x20 ∧ octet ≠ 0x09) (unnamed : 0x3A ∉ octet :: label)
    (unbroken : Lines.LF ∉ octet :: label ++ 0x3A :: value)
    (other : (octet :: label).map octetLower ≠ name.map octetLower) :
    firstLine (stripMessageHeader (octet :: label ++ 0x3A :: value ++ Lines.LF :: rest) name) =
      firstLine (octet :: label ++ 0x3A :: value ++ Lines.LF :: rest) := by
  obtain ⟨content, stripped⟩ := stripLast_getD (octet :: label) (value ++ [Lines.LF]) Lines.LF 0x3A
    (by decide)
  obtain ⟨bare, chomped⟩ := stripLast_getD (octet :: label) content Lines.CR 0x3A (by decide)
  have named : namesHeader name (octet :: label ++ 0x3A :: bare) = false := by
    unfold namesHeader
    rw [List.takeWhile_append_of_pos (by
      intro found member
      simpa using fun same : found = 0x3A => unnamed (same ▸ member))]
    simpa using other
  unfold stripMessageHeader firstLine
  rw [Lines.splitInclusive_line _ _ unbroken, stripHeaderLines]
  dsimp only
  rw [show octet :: label ++ 0x3A :: value ++ [Lines.LF] =
      octet :: label ++ 0x3A :: (value ++ [Lines.LF]) by simp, stripped, chomped, if_neg (by simp),
    if_neg (by simpa using visible), named]
  rw [show octet :: label ++ 0x3A :: (value ++ [Lines.LF]) =
      octet :: label ++ 0x3A :: value ++ [Lines.LF] by simp]
  rw [if_neg (by simp), List.singleton_append, List.flatten_cons, List.append_assoc,
    List.singleton_append, Lines.splitInclusive_line _ _ unbroken]
  rfl

/-- The name of a header that intake writes first. -/
def LeadingName (name : Text) : Prop := name = "Received-SPF" ∨ name = "X-Envelope-From"

theorem LeadingName.octets {name : Text} (leading : LeadingName name) :
    ∃ octet label, encode name = octet :: label ∧ octet ≠ 0x20 ∧ octet ≠ 0x09 ∧
      0x3A ∉ octet :: label ∧ Lines.LF ∉ octet :: label ∧
      (octet :: label).map octetLower ≠ (encode idempotencyHeader).map octetLower := by
  rcases leading with rfl | rfl
  · exact ⟨0x52, _, rfl, by decide⟩
  · exact ⟨0x58, _, rfl, by decide⟩

/-- The first line of a stored message is that of the header written first, whether or
not the idempotency key has been removed. -/
theorem firstLine_storedData {session : Session} {key : Option Text} {header : Text × Text}
    {more : Bytes} (leading : LeadingName header.1)
    (content : session.data = some (encode (headerLine header) ++ more)) :
    firstLine (storedData session key) = firstLine (encode (headerLine header)) := by
  obtain ⟨octet, label, named, notBlank, notTab, unnamed, unbroken, other⟩ := leading.octets
  have written : encode (headerLine header) =
      octet :: label ++ 0x3A :: (0x20 :: encode header.2 ++ [Lines.CR]) ++ [Lines.LF] := by
    unfold headerLine
    rw [encode_append, encode_append, encode_append, named,
      show encode ": " = [0x3A, 0x20] by decide,
      show encode "\r\n" = [Lines.CR, Lines.LF] by decide]
    simp
  -- the value may itself contain the first line feed
  obtain ⟨value, rest, split, valueUnbroken⟩ : ∃ value rest, 0x20 :: encode header.2 ++ [Lines.CR] ++
      [Lines.LF] = value ++ Lines.LF :: rest ∧ Lines.LF ∉ value := by
    obtain ⟨value, rest, split, unbroken⟩ := List.eq_append_cons_of_mem
      (show Lines.LF ∈ 0x20 :: encode header.2 ++ [Lines.CR] ++ [Lines.LF] by simp)
    exact ⟨value, rest, split, unbroken⟩
  have line : encode (headerLine header) = octet :: label ++ 0x3A :: value ++ Lines.LF :: rest := by
    rw [written]
    simpa using split
  have whole : Lines.LF ∉ octet :: label ++ 0x3A :: value := by
    intro member
    rcases List.mem_append.mp member with inLabel | later
    · exact unbroken inLabel
    · rcases List.mem_cons.mp later with isColon | inValue
      · cases isColon
      · exact valueUnbroken inValue
  have ends : Lines.LF ∈ encode (headerLine header) := by rw [written]; simp
  unfold storedData
  rw [content, Option.getD_some]
  dsimp only
  split
  · have longer : encode (headerLine header) ++ more =
        octet :: label ++ 0x3A :: value ++ Lines.LF :: (rest ++ more) := by
      rw [line]
      simp
    have kept := firstLine_stripMessageHeader octet label value (rest ++ more)
      (encode idempotencyHeader) ⟨notBlank, notTab⟩ unnamed whole other
    rw [longer, kept, ← longer]
    exact firstLine_append _ _ ends
  · exact firstLine_append _ _ ends

variable {value : Text}

/-- A message that starts with another header does not start with a result. -/
theorem firstLine_other {raw : Bytes}
    (same : firstLine raw = firstLine (encode (headerLine ("X-Envelope-From", value)))) :
    ¬ encode "Received-SPF" <+: raw := by
  rintro ⟨rest, rfl⟩
  have heads (octet : UInt8) (bytes : Bytes) : (firstLine (octet :: bytes)).head? = some octet := by
    unfold firstLine
    rw [Lines.splitInclusive]
    split
    · rfl
    · cases Lines.splitInclusive bytes <;> rfl
  have first := congrArg List.head? same
  rw [show encode "Received-SPF" ++ rest = 0x52 :: _ from rfl, heads,
    show encode (headerLine ("X-Envelope-From", value)) = 0x58 :: _ from rfl, heads] at first
  cases first

/-! ## Transactions and their checks -/

/-- Whether a line is a MAIL FROM command that is accepted. -/
def opensTransaction (event : ServeEvent) : Prop :=
  commandOf event.before.session (chomp event.input.line) = some .mailFrom ∧
    event.output.reply = accepted

instance (event : ServeEvent) : Decidable (opensTransaction event) := by
  unfold opensTransaction
  infer_instance

/-- The lines of the current transaction: those since the last accepted MAIL FROM. -/
def transaction (past : List ServeEvent) : List ServeEvent :=
  past.foldl (fun lines event => if opensTransaction event then [event] else lines ++ [event]) []

/-- Whether a line makes the server check the SPF policy of the envelope. -/
def checksSpf (event : ServeEvent) : Prop :=
  event.before.spfEvaluated = false ∧ event.before.session.state = .rcptToReceived ∧
    isDataCommand event.input.line = some true

instance (event : ServeEvent) : Decidable (checksSpf event) := by
  unfold checksSpf
  infer_instance

/-- Whether a line is a DATA command that is accepted. -/
def acceptsData (event : ServeEvent) : Prop :=
  commandOf event.before.session (chomp event.input.line) = some .data ∧
    event.before.session.state = .rcptToReceived

instance (event : ServeEvent) : Decidable (acceptsData event) := by
  unfold acceptsData
  infer_instance

/-- Whether the client's address is known and the sender has a domain to check. -/
def evaluable (platform : Platform) (session : Session) : Bool :=
  (session.ipAddress.bind platform.parseIp).isSome && (session.mailFrom.bind spfDomain).isSome

/-- The same sender, HELO name and client. -/
structure SameEnvelope (first second : Session) : Prop where
  mailFrom : first.mailFrom = second.mailFrom
  heloName : first.heloName = second.heloName
  ipAddress : first.ipAddress = second.ipAddress

/-- The check of an envelope that can be checked is made in its own transaction, and
nothing is left over for an envelope that cannot. -/
def SpfDue (platform : Platform) (past : List ServeEvent) (event : ServeEvent) : Prop :=
  acceptsData event →
    (evaluable platform event.before.session = true →
      event.before.spfEvaluated = false ∨ ∃ check ∈ transaction past, checksSpf check) ∧
    (evaluable platform event.before.session = false → event.before.session.receivedSpf = none)

/-- A result that a line of the transaction computed for the envelope of a session. -/
structure ResultOf (platform : Platform) (context : SpfContext) (past : List ServeEvent)
    (session : Session) (value : Text) (check : ServeEvent) : Prop where
  within : check ∈ transaction past
  made : checksSpf check
  envelope : SameEnvelope check.before.session session
  computed : spfValue platform check.input.env context check.before.session = some value

/-- Every message handed over at a line starts with a result of its own transaction,
and with none if the envelope cannot be checked. -/
def SpfOwn (platform : Platform) (context : SpfContext) (past : List ServeEvent)
    (event : ServeEvent) : Prop :=
  ∀ call ∈ event.output.calls, ∀ message ∈ call.handed,
    (evaluable platform event.before.session = true →
      ∃ value check, ResultOf platform context past event.before.session value check ∧
        firstLine message.rawMessage =
          firstLine (encode (headerLine ("Received-SPF", value)))) ∧
    (evaluable platform event.before.session = false →
      ¬ encode "Received-SPF" <+: message.rawMessage)

theorem transaction_append (past : List ServeEvent) (event : ServeEvent) :
    transaction (past ++ [event]) =
      if opensTransaction event then [event] else transaction past ++ [event] := by
  simp [transaction]

variable {platform : Platform}

theorem evaluable_congr {first second : Session} (same : SameEnvelope first second) :
    evaluable platform first = evaluable platform second := by
  unfold evaluable
  rw [same.ipAddress, same.mailFrom]

/-- An envelope has a result exactly when it can be checked. -/
theorem spfValue_isSome (platform : Platform) (env : Env) (context : SpfContext)
    (session : Session) :
    (spfValue platform env context session).isSome = evaluable platform session := by
  unfold spfValue evaluable
  cases session.ipAddress.bind platform.parseIp with
  | none => rfl
  | some ip =>
      cases session.mailFrom with
      | none => rfl
      | some sender => simp

variable {context : SpfContext} {input : LineInput}

/-- The check changes the result alone, and only when it is made. -/
theorem checkSpf_spec {driver next : Driver} (response : Response) (after : Driver)
    (checked : checkSpf platform (some context) driver input = some next) :
    (checksSpf ⟨driver, input, response, after⟩ ∧
      next.session = evaluateInboundSpf platform input.env context driver.session) ∨
    (¬ checksSpf ⟨driver, input, response, after⟩ ∧ next.session = driver.session) := by
  unfold checkSpf at checked
  unfold checksSpf
  split at checked
  case isTrue due =>
    obtain ⟨isData, tested, rfl⟩ := Option.map_eq_some_iff.mp checked
    cases isData with
    | true => exact .inl ⟨⟨due.1, due.2, tested⟩, rfl⟩
    | false =>
        refine .inr ⟨?_, rfl⟩
        rintro ⟨-, -, isData⟩
        cases tested.symm.trans isData
  case isFalse undue =>
    cases checked
    exact .inr ⟨fun due => undue ⟨due.1, due.2.1⟩, rfl⟩

/-! ## One line -/

/-- The protocol states within a transaction. -/
def State.enveloped (state : State) : Prop := state = .mailFromReceived ∨ state = .rcptToReceived

/-- The invariant. Once a line of the transaction has made the check, the session holds
the result of one that did. A message being received starts as it should. -/
structure SpfTracked (platform : Platform) (context : SpfContext) (past : List ServeEvent)
    (session : Session) : Prop where
  checked : session.state.enveloped → (∃ check ∈ transaction past, checksSpf check) →
    evaluable platform session = true →
    ∃ value check, ResultOf platform context past session value check ∧
      session.receivedSpf = some value
  receiving : session.inputMode = .data → session.state = .rcptToReceived
  result : session.inputMode = .data → evaluable platform session = true →
    ∃ value check more, ResultOf platform context past session value check ∧
      session.data = some (encode (headerLine ("Received-SPF", value)) ++ more)
  missing : session.inputMode = .data → evaluable platform session = false →
    ∃ value more,
      session.data = some (encode (headerLine ("X-Envelope-From", value)) ++ more)

section Step

variable {platform : Platform} {env : Env} {session : Session} {data : Text} {step : Step}

section

variable (reaction : Reaction platform env session data step)
include reaction

/-- An accepted MAIL FROM command starts over, with a session that has not made the
check. -/
theorem Reaction.opens
    (command : commandOf session data = some .mailFrom) (positive : step.reply = accepted) :
    session.state ≠ .rcptToReceived ∧ step.session.inputMode = .command := by
  have mode := commandOf_inputMode command
  cases reaction
  case sender address recognized ready =>
    refine ⟨?_, mode⟩
    rcases ready with state | state <;> rw [state] <;> nofun
  case premature recognized early unaccepted => exact absurd positive unaccepted
  case proxied waiting => cases (commandOf_preauth _ waiting).symm.trans command
  case closing quitting =>
    rcases quitting with waiting | other
    · cases (commandOf_preauth _ waiting).symm.trans command
    · cases other.symm.trans command
  case secured other enabled | reset other | recipient other ready checked envelope |
      opened other ready written => cases other.symm.trans command
  case greeted other => rcases other with other | other <;> cases other.symm.trans command
  case inert other recognized harmless =>
    cases recognized.symm.trans command
    cases harmless
  case challenged begun =>
    rcases begun with ⟨mechanism, other, -⟩ | ⟨-, pending⟩
    · cases other.symm.trans command
    · cases pending.symm.trans mode
  case authenticated last outcome =>
    rcases last with ⟨other, -⟩ | ⟨-, pending | pending | ⟨challenge, pending⟩⟩
    · cases other.symm.trans command
    · cases pending.symm.trans mode
    · cases pending.symm.trans mode
    · cases pending.symm.trans mode
  case received receiving unfinished present => cases receiving.symm.trans mode
  case concluded receiving ended finished => cases receiving.symm.trans mode

/-- Any other line that ends within a transaction keeps its envelope. -/
theorem Reaction.within
    (other : ¬ (commandOf session data = some .mailFrom ∧ step.reply = accepted))
    (inside : step.session.state.enveloped) :
    session.state.enveloped ∧ SameEnvelope session step.session ∧
      step.session.receivedSpf = session.receivedSpf := by
  cases reaction
  case sender address recognized ready => exact absurd ⟨recognized, rfl⟩ other
  case proxied | greeted | reset => rcases inside with state | state <;> cases state
  case concluded finished =>
    obtain ⟨text, calls, -, rfl⟩ := finishData_concluded finished
    rcases inside with state | state <;> cases state
  case authenticated outcome =>
    cases outcome <;> exact ⟨inside, ⟨rfl, rfl, rfl⟩, rfl⟩
  case recipient ready checked envelope =>
    cases checked <;> cases envelope <;> exact ⟨ready, ⟨rfl, rfl, rfl⟩, rfl⟩
  all_goals exact ⟨inside, ⟨rfl, rfl, rfl⟩, rfl⟩

/-- A session is receiving a message because DATA has just opened it, or because it has
been receiving it already. -/
theorem Reaction.receives (connected : session.inputMode = .data → session.state ≠ .preauth)
    (mode : step.session.inputMode = .data) :
    (commandOf session data = some .data ∧ session.state = .rcptToReceived ∧
      step.session.state = .rcptToReceived ∧
      step.session.data = some (encode ((traceHeaders platform env session).flatMap headerLine))) ∨
    (session.inputMode = .data ∧ step.session.state = session.state ∧
      ∃ added, step.session.data = session.data.map (· ++ added)) := by
  have idle {command : Command} (recognized : commandOf session data = some command)
      (kept : session.inputMode = .data) : False := by
    cases (commandOf_inputMode recognized).symm.trans kept
  cases reaction
  case opened command ready written => exact .inl ⟨command, ready, ready, by rw [written]⟩
  case received receiving unfinished present =>
    exact .inr ⟨receiving, rfl, encode (unstuff data) ++ Lines.CRLF, by simp⟩
  case proxied waiting => exact absurd waiting (connected mode)
  case closing quitting =>
    rcases quitting with waiting | command
    · exact absurd waiting (connected mode)
    · exact (idle command mode).elim
  case secured command enabled | reset command | sender command ready => exact (idle command mode).elim
  case greeted command => rcases command with command | command <;> exact (idle command mode).elim
  case inert command recognized harmless => exact (idle recognized mode).elim
  case premature command recognized early unaccepted => exact (idle recognized mode).elim
  case challenged pending begun => exact absurd mode pending.2
  case authenticated last outcome => cases outcome <;> cases mode
  case recipient command ready checked envelope =>
    cases checked <;> cases envelope <;> exact (idle command mode).elim
  case concluded finished =>
    obtain ⟨text, calls, -, rfl⟩ := finishData_concluded finished
    cases mode

end

end Step

variable {platform : Platform} {session : Session}

/-- A session with a result writes it first. -/
theorem traceHeaders_some {env : Env} (held : session.receivedSpf = some value) :
    ∃ more, encode ((traceHeaders platform env session).flatMap headerLine) =
      encode (headerLine ("Received-SPF", value)) ++ more := by
  unfold traceHeaders
  rw [held]
  dsimp only
  rw [List.singleton_append, List.flatMap_cons, encode_append]
  exact ⟨_, rfl⟩

theorem traceHeaders_none {env : Env} (vacant : session.receivedSpf = none) :
    ∃ value more, encode ((traceHeaders platform env session).flatMap headerLine) =
      encode (headerLine ("X-Envelope-From", value)) ++ more := by
  unfold traceHeaders
  rw [vacant]
  dsimp only
  rw [List.nil_append, List.flatMap_cons, encode_append]
  exact ⟨_, _, rfl⟩

theorem ResultOf.later {past : List ServeEvent} {next : Session} {check event : ServeEvent}
    (result : ResultOf platform context past session value check)
    (inside : ¬ opensTransaction event) (same : SameEnvelope session next) :
    ResultOf platform context (past ++ [event]) next value check := by
  refine ⟨?_, result.made, ?_, result.computed⟩
  · rw [transaction_append, if_neg inside]
    exact List.mem_append_left _ result.within
  · exact ⟨result.envelope.mailFrom.trans same.mailFrom,
      result.envelope.heloName.trans same.heloName,
      result.envelope.ipAddress.trans same.ipAddress⟩

/-- What the server does before it hands a line to the session, and how the session
reads it. -/
theorem serveLine_reads {driver next : Driver} {response : Response}
    (served : serveLine platform (some context) driver input = some (response, next)) :
    ∃ spf step, Reaction platform input.env
        { driver.session with receivedSpf := spf, crPresent := hasCr input.line }
        (chomp input.line) step ∧
      response = ⟨step.reply, step.calls⟩ ∧
      next.session = { step.session with previousCrPresent := some step.session.crPresent } ∧
      ((checksSpf ⟨driver, input, response, next⟩ ∧
          spf = (evaluateInboundSpf platform input.env context driver.session).receivedSpf) ∨
        (¬ checksSpf ⟨driver, input, response, next⟩ ∧ spf = driver.session.receivedSpf)) := by
  obtain ⟨checked, spfChecked, stepped, -⟩ := serveLine_inv served
  obtain ⟨spf, annotated⟩ := checkSpf_frame spfChecked
  have spec := checkSpf_spec response next spfChecked
  rw [annotated] at stepped spec
  obtain ⟨step, reaction, responded, after⟩ := sessionStep_reaction stepped
  refine ⟨spf, step, reaction, responded, after, ?_⟩
  rcases spec with ⟨made, evaluated⟩ | ⟨unmade, unchanged⟩
  · exact .inl ⟨made, by rw [← evaluated]⟩
  · exact .inr ⟨unmade, by rw [← unchanged]⟩

section Line

variable {platform : Platform} {context : SpfContext} {past : List ServeEvent}
  {driver next : Driver} {input : LineInput} {response : Response}

/-- A line that does not open a transaction keeps the envelope, if it ends within one. -/
theorem serveLine_within
    (served : serveLine platform (some context) driver input = some (response, next))
    (inside : next.session.state.enveloped)
    (other : ¬ opensTransaction ⟨driver, input, response, next⟩) :
    driver.session.state.enveloped ∧ SameEnvelope driver.session next.session := by
  obtain ⟨spf, step, reaction, rfl, after, -⟩ := serveLine_reads served
  rw [after] at inside ⊢
  obtain ⟨before, same, -⟩ := reaction.within other inside
  exact ⟨before, same.mailFrom, same.heloName, same.ipAddress⟩

/-- Within a transaction whose check has been made, the session holds a result of it. -/
theorem serveLine_checked (tracked : SpfTracked platform context past driver.session)
    (served : serveLine platform (some context) driver input = some (response, next))
    (inside : next.session.state.enveloped)
    (made : ∃ check ∈ transaction (past ++ [⟨driver, input, response, next⟩]), checksSpf check)
    (known : evaluable platform next.session = true) :
    ∃ value check, ResultOf platform context (past ++ [⟨driver, input, response, next⟩])
        next.session value check ∧ next.session.receivedSpf = some value := by
  obtain ⟨check, member, checks⟩ := made
  rw [transaction_append] at member
  by_cases opening : opensTransaction ⟨driver, input, response, next⟩
  · -- the line that opens the transaction cannot make the check
    rw [if_pos opening] at member
    rw [List.mem_singleton.mp member] at checks
    obtain ⟨spf, step, reaction, rfl, -, -⟩ := serveLine_reads served
    exact absurd checks.2.1 (reaction.opens opening.1 opening.2).1
  rw [if_neg opening] at member
  obtain ⟨before, envelope⟩ := serveLine_within served inside opening
  obtain ⟨spf, step, reaction, rfl, after, result⟩ := serveLine_reads served
  have held : next.session.receivedSpf = spf := by
    rw [after] at inside ⊢
    exact (reaction.within opening inside).2.2
  have knownBefore : evaluable platform driver.session = true := by
    rw [evaluable_congr envelope]
    exact known
  rcases result with ⟨makes, rfl⟩ | ⟨unmade, rfl⟩
  · obtain ⟨value, computed⟩ := Option.isSome_iff_exists.mp
      ((spfValue_isSome platform input.env context driver.session).trans knownBefore)
    refine ⟨value, _, ⟨?_, makes, envelope, computed⟩, ?_⟩
    · rw [transaction_append, if_neg opening]
      simp
    · rw [held]
      unfold evaluateInboundSpf
      rw [computed]
  · have earlier : check ∈ transaction past := by
      rcases List.mem_append.mp member with earlier | last
      · exact earlier
      · rw [List.mem_singleton.mp last] at checks
        exact absurd checks unmade
    obtain ⟨value, found, result, keeps⟩ := tracked.checked before ⟨check, earlier, checks⟩
      knownBefore
    exact ⟨value, found, result.later opening envelope, held.trans keeps⟩

/-- Without a domain or an address to check, the result held stays as it was. -/
theorem serveLine_unchecked
    (served : serveLine platform (some context) driver input = some (response, next))
    (inside : next.session.state.enveloped)
    (other : ¬ opensTransaction ⟨driver, input, response, next⟩)
    (unknown : evaluable platform driver.session = false) :
    next.session.receivedSpf = driver.session.receivedSpf := by
  obtain ⟨spf, step, reaction, rfl, after, result⟩ := serveLine_reads served
  have held : next.session.receivedSpf = spf := by
    rw [after] at inside ⊢
    exact (reaction.within other inside).2.2
  rw [held]
  rcases result with ⟨-, rfl⟩ | ⟨-, rfl⟩
  · have none : spfValue platform input.env context driver.session = none := by
      rw [← Option.isNone_iff_eq_none, ← Option.not_isSome, spfValue_isSome, unknown]
      rfl
    unfold evaluateInboundSpf
    rw [none]
  · rfl

section

variable (tracked : SpfTracked platform context past driver.session)
  (served : serveLine platform (some context) driver input = some (response, next))
include tracked served

/-- A session that is receiving a message is still in the transaction that DATA was
given in, and either DATA has just been accepted or the message grows. -/
theorem serveLine_receiving (mode : next.session.inputMode = .data) :
    next.session.state = .rcptToReceived ∧
      ¬ opensTransaction ⟨driver, input, response, next⟩ ∧
      ((acceptsData ⟨driver, input, response, next⟩ ∧ ∃ reader : Session,
          reader.receivedSpf = next.session.receivedSpf ∧ next.session.data =
            some (encode ((traceHeaders platform input.env reader).flatMap headerLine))) ∨
        (driver.session.inputMode = .data ∧
          ∃ added, next.session.data = driver.session.data.map (· ++ added))) := by
  have connected : driver.session.inputMode = .data → driver.session.state ≠ .preauth := by
    intro receiving
    rw [tracked.receiving receiving]
    nofun
  obtain ⟨spf, step, reaction, rfl, after, -⟩ := serveLine_reads served
  rw [after] at mode ⊢
  have inside : ¬ (commandOf driver.session (chomp input.line) = some .mailFrom ∧
      step.reply = accepted) := by
    rintro ⟨command, positive⟩
    cases (reaction.opens command positive).2.symm.trans mode
  obtain ⟨command, ready, state, opened⟩ | ⟨receiving, kept, added, grown⟩ :=
    reaction.receives connected mode
  · have written := (reaction.within inside (.inr state)).2.2
    exact ⟨state, inside, .inl ⟨⟨command, ready⟩, _, written.symm, opened⟩⟩
  · exact ⟨kept.trans (tracked.receiving receiving), inside, .inr ⟨receiving, added, grown⟩⟩

/-- One line keeps the invariant, if a DATA command finds the check due. -/
theorem serveLine_tracked (due : SpfDue platform past ⟨driver, input, response, next⟩) :
    SpfTracked platform context (past ++ [⟨driver, input, response, next⟩]) next.session := by
  have checked := serveLine_checked tracked served
  refine ⟨checked, fun mode => (serveLine_receiving tracked served mode).1, ?_, ?_⟩
  · intro mode known
    obtain ⟨state, inside, opened | grown⟩ := serveLine_receiving tracked served mode
    · obtain ⟨⟨command, ready⟩, reader, written, opened⟩ := opened
      obtain ⟨-, envelope⟩ := serveLine_within served (.inr state) inside
      have made : ∃ check ∈ transaction (past ++ [⟨driver, input, response, next⟩]),
          checksSpf check := by
        rw [transaction_append, if_neg inside]
        rcases (due ⟨command, ready⟩).1 ((evaluable_congr envelope).trans known) with
          first | ⟨check, member, checks⟩
        · refine ⟨_, List.mem_append_right _ (List.mem_singleton_self _), first, ready, ?_⟩
          exact isDataCommand_recognized (by rw [commandOf_recognize command]; rfl)
        · exact ⟨check, List.mem_append_left _ member, checks⟩
      obtain ⟨value, check, found, held⟩ := checked (.inr state) made known
      obtain ⟨more, content⟩ := traceHeaders_some (written.trans held)
      exact ⟨value, check, more, found, by rw [← content]; exact opened⟩
    · obtain ⟨receiving, added, grown⟩ := grown
      obtain ⟨-, envelope⟩ := serveLine_within served (.inr state) inside
      obtain ⟨value, check, more, found, content⟩ := tracked.result receiving
        ((evaluable_congr envelope).trans known)
      refine ⟨value, check, more ++ added, found.later inside envelope, ?_⟩
      rw [grown, content, Option.map_some, List.append_assoc]
  · intro mode unknown
    obtain ⟨state, inside, opened | grown⟩ := serveLine_receiving tracked served mode
    · obtain ⟨accepts, reader, written, opened⟩ := opened
      obtain ⟨-, envelope⟩ := serveLine_within served (.inr state) inside
      have unknownBefore := (evaluable_congr envelope).trans unknown
      have vacant := (serveLine_unchecked served (.inr state) inside unknownBefore).trans
        ((due accepts).2 unknownBefore)
      obtain ⟨value, more, content⟩ := traceHeaders_none (written.trans vacant)
      exact ⟨value, more, by rw [← content]; exact opened⟩
    · obtain ⟨receiving, added, grown⟩ := grown
      obtain ⟨-, envelope⟩ := serveLine_within served (.inr state) inside
      obtain ⟨value, more, content⟩ := tracked.missing receiving
        ((evaluable_congr envelope).trans unknown)
      refine ⟨value, more ++ added, ?_⟩
      rw [grown, content, Option.map_some, List.append_assoc]

/-- A message handed over at a line starts as the invariant says. -/
theorem serveLine_own :
    SpfOwn platform context past ⟨driver, input, response, next⟩ := by
  obtain ⟨spf, step, reaction, rfl, -, -⟩ := serveLine_reads served
  intro call member message given
  have storing := Call.stores_of_handed given
  obtain ⟨⟨-, mode, -⟩, finished⟩ := reaction.stores member storing
  obtain ⟨text, calls, conclusion, rfl⟩ := finishData_concluded finished
  obtain ⟨domainId, checks, key, recipient, -, -, -, built⟩ := conclusion.origin member given
  obtain ⟨-, -, -, raw, -⟩ := queuedMessage_spec built
  rw [raw]
  constructor
  · intro known
    obtain ⟨value, check, more, found, content⟩ := tracked.result mode known
    exact ⟨value, check, found, firstLine_storedData (.inl rfl) content⟩
  · intro unknown
    obtain ⟨value, more, content⟩ := tracked.missing mode unknown
    exact firstLine_other (firstLine_storedData (.inr rfl) content)

end

end Line

variable {past : List ServeEvent} {platform : Platform} {context : SpfContext}

/-- Outside a transaction there is nothing to keep. -/
theorem SpfTracked.outside (state : ¬ session.state.enveloped) (mode : session.inputMode ≠ .data) :
    SpfTracked platform context past session := by
  refine ⟨?_, ?_, ?_, ?_⟩
  · intro inside
    exact absurd inside state
  all_goals
    intro receiving
    exact absurd receiving mode

theorem Listener.session_outside (platform : Platform) (listener : Listener) (traceId peer : Text) :
    ¬ (listener.session platform traceId peer).state.enveloped := by
  unfold Listener.session
  cases listener.proxyProtocol <;> rintro (state | state) <;> cases state

/-- A change of phase keeps the transaction and its result. -/
theorem SpfTracked.upgraded (tracked : SpfTracked platform context past session)
    (startTls tls : Bool) :
    SpfTracked platform context past { session with startTls := startTls, tls := tls } := by
  have carried {value : Text} {check : ServeEvent}
      (result : ResultOf platform context past session value check) :
      ResultOf platform context past { session with startTls := startTls, tls := tls } value
        check :=
    ⟨result.within, result.made,
      ⟨result.envelope.mailFrom, result.envelope.heloName, result.envelope.ipAddress⟩,
      result.computed⟩
  refine ⟨?_, tracked.receiving, ?_, tracked.missing⟩
  · intro inside made known
    obtain ⟨value, check, result, held⟩ := tracked.checked inside made known
    exact ⟨value, check, carried result, held⟩
  · intro mode known
    obtain ⟨value, check, more, result, content⟩ := tracked.result mode known
    exact ⟨value, check, more, carried result, content⟩

/-- Every DATA command of a trace finds the check due. -/
def AllDue (platform : Platform) (trace : List ServeEvent) : Prop :=
  ∀ front event back, trace = front ++ event :: back → SpfDue platform front event

theorem AllDue.earlier {front back : List ServeEvent} (due : AllDue platform (front ++ back)) :
    AllDue platform front := by
  intro first event rest split
  exact due first event (rest ++ back) (by rw [split]; simp)

/-- On every connection of a server with an SPF resolver whose DATA commands all find
the check due, every message handed to the sink starts with a Received-SPF header that
a line of its own transaction computed from its own MAIL FROM and HELO, or starts with
none if the sender has no domain or the client's address is not known. -/
theorem received_spf_belongs_to_transaction (platform : Platform) (listener : Listener)
    (context : SpfContext) (traceId peer : Text) (socket : List Bytes) (envs : List Env)
    (resolver : listener.spf = some context)
    (due : AllDue platform (handleConnection platform listener traceId peer socket envs).trace) :
    ∀ front event back, (handleConnection platform listener traceId peer socket envs).trace =
      front ++ event :: back → SpfOwn platform context front event := by
  have invariant := handleConnection_invariant platform listener
    (fun past driver => AllDue platform past →
      SpfTracked platform context past driver.session)
    traceId peer socket envs
    (fun _ _ => .outside (listener.session_outside platform traceId peer) nofun)
    (by
      intro past before input response after earlier served dues
      rw [resolver] at served
      exact serveLine_tracked (earlier dues.earlier) served (dues past _ [] rfl))
    (fun past driver earlier dues => (earlier dues).upgraded false true)
  intro front event back split
  obtain ⟨tracked, served⟩ := invariant front event back split
  rw [resolver] at served
  rw [split] at due
  exact serveLine_own (tracked due.earlier) served

instance (platform : Platform) (past : List ServeEvent) (event : ServeEvent) :
    Decidable (SpfDue platform past event) := by
  unfold SpfDue
  infer_instance

/-- A property of the lines before a line and the line itself can be checked line by
line. -/
theorem splits_checked (events : List ServeEvent) (check : List ServeEvent → ServeEvent → Bool)
    (checked : (List.range events.length).all (fun index =>
      (events[index]?).all (check (events.take index))) = true) :
    ∀ front event back, events = front ++ event :: back → check front event = true := by
  intro front event back split
  have holds := List.all_eq_true.mp checked front.length (by simp [split])
  simpa [split] using holds

/-- A server with an SPF resolver. -/
def checkingListener : Listener where
  config := exampleConfig
  mode := .smtp
  proxyProtocol := false
  spf := some ⟨"mx.example"⟩
  tlsAcceptor := none

/-- A client of that server that sends some lines. -/
def checkedConnection (lines : String) : Served :=
  handleConnection .ascii checkingListener "t" "192.0.2.1"
    [encode lines.toList] (List.replicate 12 exampleEnv)

/-- A client that sends one message. -/
def oneTransaction : String :=
  "EHLO c\r\nMAIL FROM:<a@b.example>\r\nRCPT TO:<info@in.example>\r\nDATA\r\n\r\n.\r\n"

/-- The first message of a connection carries the result for its own sender. -/
theorem first_transaction_checked :
    (handedOver (checkedConnection oneTransaction).trace).length = 1 ∧
      ∀ front event back, (checkedConnection oneTransaction).trace = front ++ event :: back →
        SpfOwn .ascii ⟨"mx.example"⟩ front event := by
  have due : AllDue .ascii (checkedConnection oneTransaction).trace := by
    intro front event back split
    have checked := splits_checked (checkedConnection oneTransaction).trace
      (fun front event => decide (SpfDue .ascii front event)) (by decide +kernel)
      front event back split
    exact of_decide_eq_true checked
  refine ⟨by decide +kernel, ?_⟩
  exact received_spf_belongs_to_transaction .ascii checkingListener ⟨"mx.example"⟩
    "t" "192.0.2.1" [encode oneTransaction.toList] (List.replicate 12 exampleEnv)
    rfl due

/-- The same client sends another message, from another sender. -/
def twoTransactions : String :=
  oneTransaction ++ "MAIL FROM:<x@y.example>\r\nRCPT TO:<info@in.example>\r\nDATA\r\n\r\n.\r\n"

/-- The second message carries the result for the first sender, and no line of its own
transaction has made the check. -/
theorem second_transaction_unchecked :
    ∃ front event back, (checkedConnection twoTransactions).trace = front ++ event :: back ∧
      (event.output.calls.flatMap Call.handed).any (fun message =>
        message.mailFrom == "x@y.example" && decide (encode
          "Received-SPF: pass (mx.example: domain of a@b.example" <+: message.rawMessage)) =
        true ∧
      ¬ SpfOwn .ascii ⟨"mx.example"⟩ front event := by
  have checked : (((checkedConnection twoTransactions).trace)[10]?).any (fun event =>
      (event.output.calls.flatMap Call.handed).any (fun message =>
        message.mailFrom == "x@y.example" && decide (encode
          "Received-SPF: pass (mx.example: domain of a@b.example" <+: message.rawMessage)) &&
      evaluable .ascii event.before.session &&
      (transaction ((checkedConnection twoTransactions).trace.take 10)).all (fun check =>
        !decide (checksSpf check))) = true := by
    decide +kernel
  obtain ⟨event, found, holds⟩ := (Option.any_eq_true _ _).mp checked
  simp only [Bool.and_eq_true] at holds
  obtain ⟨⟨stored, known⟩, unmade⟩ := holds
  obtain ⟨inside, present⟩ := List.getElem?_eq_some_iff.mp found
  refine ⟨(checkedConnection twoTransactions).trace.take 10, event,
    (checkedConnection twoTransactions).trace.drop 11, ?_, stored, ?_⟩
  · rw [← present]
    exact (List.take_append_drop 10 _).symm.trans (by rw [List.drop_eq_getElem_cons inside])
  · intro own
    obtain ⟨message, member, -⟩ := List.any_eq_true.mp stored
    obtain ⟨call, called, given⟩ := List.mem_flatMap.mp member
    obtain ⟨value, check, result, -⟩ := (own call called message given).1 known
    simpa [result.made] using List.all_eq_true.mp unmade check result.within

end Camelmailer.Smtp
