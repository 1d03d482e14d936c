import Camelmailer.Smtp.Steps

/-!
# The connection around a session

`LineStream` cuts what arrives into lines, `driveSession` feeds them to a session
until the client leaves, the session finishes or a TLS upgrade is due, and
`handleConnection` runs the two phases of a connection, as in
`camelmailer-smtp/src/server.rs`.

The network is the list of results that successive reads return; an empty one is the
end of the stream. The TLS library is a function from what is still to be read on the
raw socket to what it decrypts to, without a result when the handshake fails. One
environment is consumed for each line. When the environments are used up the loop is
still waiting, so the traces of all lists of environments are all the finite prefixes
of a connection. A reply that cannot be written ends the connection after the line
that caused it, which is again such a prefix.
-/

namespace Camelmailer.Smtp

open Utf8

/-- What the reads to come return, and what has been read but not yet cut. -/
structure LineStream where
  incoming : List Bytes
  buffer : Bytes
deriving DecidableEq

namespace LineStream

def new (incoming : List Bytes) : LineStream := ⟨incoming, []⟩

/-- The loop of `read_line`. -/
def readFrom (buffer : Bytes) (incoming : List Bytes) : Option (Text × LineStream) :=
  match Lines.cutLine buffer with
  | some (line, rest) => some (fromUtf8Lossy line, ⟨incoming, rest⟩)
  | none =>
      match incoming with
      | [] => none
      | chunk :: later => if chunk = [] then none else readFrom (buffer ++ chunk) later

/-- `LineStream::read_line`: one line without its line feed, none at the end. -/
def readLine (stream : LineStream) : Option (Text × LineStream) :=
  readFrom stream.buffer stream.incoming

/-- The octets still to be read. -/
def octets (stream : LineStream) : Bytes :=
  stream.buffer ++ (stream.incoming.takeWhile (· != [])).flatten

/-- At most `count` lines. -/
def readLines : Nat → LineStream → List Text
  | 0, _ => []
  | count + 1, stream =>
      match stream.readLine with
      | none => []
      | some (line, rest) => line :: readLines count rest

end LineStream

/-- `is_data_command`. The slice panics where the fourth byte is inside a character. -/
def isDataCommand (line : Text) : Option Bool :=
  let trimmed := Str.trimStart line
  if Str.byteLen trimmed ≥ 4 then
    (Str.splitAtByte 4 trimmed).map (fun parts =>
      Str.eqIgnoreAsciiCase parts.1 "DATA")
  else some false

/-- What the inbound SPF check needs besides the resolver. -/
structure SpfContext where
  receiver : Text
deriving DecidableEq

/-- The domain whose policy is checked: that of the envelope sender. -/
def spfDomain (envelopeFrom : Text) : Option Text :=
  ((Str.rsplitOnce '@' envelopeFrom).map Prod.snd).filter (· != [])

/-- The header value for the envelope of a session, if its parts are known. -/
def spfValue (platform : Platform) (env : Env) (spf : SpfContext) (session : Session) :
    Option Text :=
  match session.ipAddress.bind platform.parseIp with
  | none => none
  | some ip =>
      match session.mailFrom with
      | none => none
      | some envelopeFrom =>
          (spfDomain envelopeFrom).map (fun domain =>
            receivedSpfHeader platform (env.evaluateSpf domain ip) spf.receiver envelopeFrom ip
              (session.heloName.getD []))

/-- `evaluate_inbound_spf`. Without a value the session is left as it was. -/
def evaluateInboundSpf (platform : Platform) (env : Env) (spf : SpfContext) (session : Session) :
    Session :=
  match spfValue platform env spf session with
  | none => session
  | some value => { session with receivedSpf := some value }

/-- The session in the loop of `drive_session`. -/
structure Driver where
  session : Session
  spfEvaluated : Bool

/-- The SPF check made once, before the first DATA command after a recipient. -/
def checkSpf (platform : Platform) (spf : Option SpfContext) (driver : Driver)
    (input : LineInput) : Option Driver :=
  if driver.spfEvaluated = false ∧ driver.session.state = .rcptToReceived then
    (isDataCommand input.line).map (fun isData =>
      if isData then
        ⟨match spf with
          | some context => evaluateInboundSpf platform input.env context driver.session
          | none => driver.session, true⟩
      else driver)
  else some driver

/-- The body of the loop of `drive_session`, for one line. -/
def serveLine (platform : Platform) (spf : Option SpfContext) (driver : Driver)
    (input : LineInput) : Option (Response × Driver) :=
  (checkSpf platform spf driver input).bind (fun driver =>
    (sessionStep platform driver.session input).map (fun reaction =>
      (reaction.1, { driver with session := reaction.2 })))

/-- One line of a connection. -/
abbrev ServeEvent := Machine.Event Driver LineInput Response

/-- The messages some lines hand to the sink. -/
def handedOver (events : List ServeEvent) : List QueuedMessage :=
  events.flatMap (fun event => event.output.calls.flatMap Call.handed)

/-- Why `drive_session` returned, or that it still waits for a line. -/
inductive DriveOutcome where
  | waiting
  | closed
  | upgrade
  | panicked
deriving DecidableEq

structure Drive where
  outcome : DriveOutcome
  driver : Driver
  stream : LineStream
  /-- The environments not used. -/
  envs : List Env
  trace : List ServeEvent

def Driver.takeStartTls (driver : Driver) : Driver :=
  { driver with session := { driver.session with startTls := false } }

def driveSession (platform : Platform) (spf : Option SpfContext) :
    List Env → Driver → LineStream → Drive
  | [], driver, stream => ⟨.waiting, driver, stream, [], []⟩
  | env :: envs, driver, stream =>
      match stream.readLine with
      | none => ⟨.closed, driver, stream, env :: envs, []⟩
      | some (line, rest) =>
          match serveLine platform spf driver ⟨env, line⟩ with
          | none => ⟨.panicked, driver, rest, envs, []⟩
          | some (response, next) =>
              let event : ServeEvent := ⟨driver, ⟨env, line⟩, response, next⟩
              if next.session.startTls then ⟨.upgrade, next.takeStartTls, rest, envs, [event]⟩
              else if next.session.finished then ⟨.closed, next, rest, envs, [event]⟩
              else
                let later := driveSession platform spf envs next rest
                { later with trace := event :: later.trace }

inductive SmtpListenerMode where
  | smtp
  | smtps
deriving DecidableEq

/-- What a listener knows of a connection. -/
structure Listener where
  config : SessionConfig
  mode : SmtpListenerMode
  /-- With the PROXY protocol the client's address comes from its first line. -/
  proxyProtocol : Bool
  spf : Option SpfContext
  /-- The handshake, on what is still to be read from the socket. -/
  tlsAcceptor : Option (List Bytes → Option (List Bytes))

/-- What the client sees and what is done, phase by phase. -/
structure Served where
  greeting : Option Text
  plaintext : List ServeEvent
  encrypted : List ServeEvent

/-- The session a connection starts with. -/
def Listener.session (platform : Platform) (listener : Listener) (traceId peer : Text) : Session :=
  Session.new platform listener.config traceId
    (if listener.proxyProtocol then none else some peer)

/-- The phase after a handshake: the same session over what the TLS library decrypts. -/
def encryptedPhase (platform : Platform) (listener : Listener) (session : Session)
    (socket : List Bytes) (envs : List Env) : List ServeEvent :=
  match listener.tlsAcceptor.bind (fun accept => accept socket) with
  | none => []
  | some decrypted =>
      (driveSession platform listener.spf envs ⟨{ session with tls := true }, false⟩
        (.new decrypted)).trace

/-- `handle_connection`. What was read ahead of the handshake stays in the line
buffer, which is dropped with the plaintext stream. -/
def handleConnection (platform : Platform) (listener : Listener) (traceId peer : Text)
    (socket : List Bytes) (envs : List Env) : Served :=
  let session := listener.session platform traceId peer
  let banner := if listener.proxyProtocol then none else some session.banner
  match listener.mode with
  | .smtps =>
      let greeting := if (listener.tlsAcceptor.bind (fun accept => accept socket)).isSome then banner
        else none
      ⟨greeting, [], encryptedPhase platform listener session socket envs⟩
  | .smtp =>
      let first := driveSession platform listener.spf envs ⟨session, false⟩ (.new socket)
      if first.outcome = .upgrade then
        ⟨banner, first.trace, encryptedPhase platform listener first.driver.session
          first.stream.incoming first.envs⟩
      else ⟨banner, first.trace, []⟩

/-! ## Reading lines -/

namespace LineStream

/-- Reading a line cuts the octets to be read at their first line feed, however they
are divided into reads. -/
theorem readFrom_spec (buffer : Bytes) (incoming : List Bytes) :
    (Lines.cutLine (octets ⟨incoming, buffer⟩) = none ∧ readFrom buffer incoming = none) ∨
      ∃ line rest next, Lines.cutLine (octets ⟨incoming, buffer⟩) = some (line, rest) ∧
        readFrom buffer incoming = some (fromUtf8Lossy line, next) ∧ next.octets = rest := by
  induction incoming generalizing buffer with
  | nil =>
      unfold readFrom octets
      cases cut : Lines.cutLine buffer with
      | none => exact .inl ⟨by simpa using cut, rfl⟩
      | some parts =>
          exact .inr ⟨parts.1, parts.2, _, by simpa using cut, rfl, by simp⟩
  | cons chunk later ih =>
      unfold readFrom
      cases cut : Lines.cutLine buffer with
      | some parts =>
          exact .inr ⟨parts.1, parts.2 ++ _, ⟨chunk :: later, parts.2⟩,
            Lines.cutLine_append _ cut, rfl, rfl⟩
      | none =>
          dsimp only
          by_cases ended : chunk = []
          · rw [if_pos ended]
            exact .inl ⟨by simpa [octets, ended] using cut, rfl⟩
          · rw [if_neg ended]
            have same : octets ⟨chunk :: later, buffer⟩ = octets ⟨later, buffer ++ chunk⟩ := by
              simp [octets, ended]
            rw [same]
            exact ih (buffer ++ chunk)

/-- `read_line` yields the complete lines of the stream, one after the other. -/
theorem readLines_eq (count : Nat) (stream : LineStream) :
    readLines count stream =
      ((Lines.complete stream.octets).take count).map fromUtf8Lossy := by
  induction count generalizing stream with
  | zero => rfl
  | succ count ih =>
      have cutting := Lines.cutLine_spec stream.octets
      unfold readLines readLine
      obtain ⟨missing, ended⟩ | ⟨line, rest, next, found, read, remaining⟩ :=
        readFrom_spec stream.buffer stream.incoming
      · have unbroken : Lines.LF ∉ stream.octets := by
          rcases cutting with ⟨-, unbroken⟩ | ⟨line, rest, cut, -⟩
          · exact unbroken
          · cases missing.symm.trans cut
        rw [ended, Lines.complete_unbroken _ unbroken]
        rfl
      · obtain ⟨missing, -⟩ | ⟨first, remainder, cut, split, unbroken⟩ := cutting
        · cases found.symm.trans missing
        · cases found.symm.trans cut
          rw [read, split, Lines.complete_line _ _ unbroken]
          dsimp only
          rw [ih, remaining]
          rfl

end LineStream

/-! ## The test for DATA -/

/-- The four letters that open a command, for the commands that have such a word. -/
def Command.word : Command → Option Text
  | .quit => some "QUIT".toList
  | .ehlo => some "EHLO".toList
  | .helo => some "HELO".toList
  | .rset => some "RSET".toList
  | .noop => some "NOOP".toList
  | .data => some "DATA".toList
  | _ => none

theorem Command.recognize_word {data word : Text}
    (named : (Command.recognize data).word = some word) :
    Str.startsWith (Str.toAsciiUppercase (Str.trimStart data)) word = true := by
  unfold Command.recognize at named
  dsimp only at named
  repeat' split at named
  all_goals cases named
  all_goals assumption

theorem Command.word_spec {command : Command} {word : Text} (named : command.word = some word) :
    word.length = 4 ∧ ∀ char ∈ word, char.toNat < 128 := by
  cases command <;> cases named <;> refine ⟨rfl, ?_⟩ <;> simp

/-- A carriage return at the end of a line does not change how the line starts. -/
theorem trimStart_chomp {line front back : Text} (visible : front ≠ [])
    (trimmed : Str.trimStart (chomp line) = front ++ back) :
    ∃ rest, Str.trimStart line = front ++ rest := by
  have whole : ∃ ending, line = chomp line ++ ending := by
    unfold chomp Str.stripLast
    split
    case isTrue ended =>
      obtain ⟨front, split⟩ := List.getLast?_eq_some_iff.mp ended
      exact ⟨['\r'], by simp [split]⟩
    case isFalse => exact ⟨[], by simp⟩
  obtain ⟨ending, split⟩ := whole
  unfold Str.trimStart at trimmed ⊢
  rw [split, List.dropWhile_append, trimmed]
  simp [visible]

/-- The server's own test for DATA agrees with the session about the lines the session
recognises by a word of four letters. -/
theorem isDataCommand_recognized {line word : Text}
    (named : (Command.recognize (chomp line)).word = some word) :
    isDataCommand line = some (Str.eqIgnoreAsciiCase word "DATA") := by
  obtain ⟨four, ascii⟩ := Command.word_spec named
  obtain ⟨front, back, trimmed, size, lower⟩ :=
    Str.upper_word ascii (Command.recognize_word named)
  have visible : front ≠ [] := by
    rintro rfl
    rw [four] at size
    cases size
  obtain ⟨rest, uncut⟩ := trimStart_chomp visible trimmed
  have cut := Str.splitAtByte_append front rest
  rw [size, four] at cut
  unfold isDataCommand
  rw [uncut, if_pos (by rw [Str.byteLen_append]; omega), cut, Option.map_some]
  unfold Str.eqIgnoreAsciiCase
  rw [lower]
/-! ## One line of a connection -/

variable {input : LineInput} {spf : Option SpfContext} {platform : Platform}

/-- What the SPF check can change. -/
theorem checkSpf_frame {driver next : Driver}
    (checked : checkSpf platform spf driver input = some next) :
    ∃ value, next.session = { driver.session with receivedSpf := value } := by
  have evaluated (context : SpfContext) : ∃ value,
      evaluateInboundSpf platform input.env context driver.session =
        { driver.session with receivedSpf := value } := by
    unfold evaluateInboundSpf
    cases spfValue platform input.env context driver.session with
    | none => exact ⟨driver.session.receivedSpf, rfl⟩
    | some value => exact ⟨some value, rfl⟩
  unfold checkSpf at checked
  split at checked
  · obtain ⟨isData, -, rfl⟩ := Option.map_eq_some_iff.mp checked
    cases isData with
    | false => exact ⟨driver.session.receivedSpf, rfl⟩
    | true =>
        cases spf with
        | none => exact ⟨driver.session.receivedSpf, rfl⟩
        | some context => exact evaluated context
  · cases checked
    exact ⟨driver.session.receivedSpf, rfl⟩

/-- A line is served by the SPF check and then by the session. -/
theorem serveLine_inv {driver next : Driver} {response : Response}
    (served : serveLine platform spf driver input = some (response, next)) :
    ∃ checked, checkSpf platform spf driver input = some checked ∧
      sessionStep platform checked.session input = some (response, next.session) ∧
      next.spfEvaluated = checked.spfEvaluated := by
  obtain ⟨checked, spfChecked, reacted⟩ := Option.bind_eq_some_iff.mp served
  obtain ⟨⟨answer, session⟩, stepped, same⟩ := Option.map_eq_some_iff.mp reacted
  cases same
  exact ⟨checked, spfChecked, stepped, rfl⟩

/-- A message that a line hands over is the record of one of the recipients. -/
theorem serveLine_built {driver next : Driver} {response : Response}
    (served : serveLine platform spf driver input = some (response, next)) {message : QueuedMessage}
    (handed : message ∈ response.calls.flatMap Call.handed) :
    ∃ value content domainId, ∃ recipient ∈ driver.session.recipients,
      queuedMessage input.env
        { driver.session with receivedSpf := value, crPresent := hasCr input.line } content domainId
        recipient = some message := by
  obtain ⟨call, called, given⟩ := List.mem_flatMap.mp handed
  obtain ⟨checked, spfChecked, stepped, -⟩ := serveLine_inv served
  obtain ⟨value, annotated⟩ := checkSpf_frame spfChecked
  obtain ⟨step, reaction, responded, -⟩ := sessionStep_reaction stepped
  rw [responded] at called
  obtain ⟨-, finished⟩ := reaction.stores called (Call.stores_of_handed given)
  obtain ⟨text, calls, conclusion, rfl⟩ := finishData_concluded finished
  obtain ⟨domainId, checks, key, recipient, -, -, waiting, built⟩ := conclusion.origin called given
  rw [annotated] at waiting built
  exact ⟨value, _, domainId, recipient, waiting, built⟩

/-! ## The trace of a phase -/

/-- The trace of `drive_session` is a run of its loop body. The loop ends with the
line that asks for an upgrade, and the request is taken back. -/
theorem driveSession_run (platform : Platform) (spf : Option SpfContext) (envs : List Env)
    (driver : Driver) (stream : LineStream) (plain : driver.session.startTls = false) :
    ∃ inputs last, Machine.run (serveLine platform spf) driver inputs =
        some ((driveSession platform spf envs driver stream).trace, last) ∧
      (driveSession platform spf envs driver stream).driver = last.takeStartTls ∧
      ∀ event ∈ (driveSession platform spf envs driver stream).trace,
        event.before.session.startTls = false := by
  have quiet (state : Driver) (off : state.session.startTls = false) :
      state = state.takeStartTls := by
    unfold Driver.takeStartTls
    rw [← off]
  induction envs generalizing driver stream with
  | nil => exact ⟨[], driver, rfl, quiet driver plain, by simp [driveSession]⟩
  | cons env envs ih =>
      unfold driveSession
      cases read : stream.readLine with
      | none => exact ⟨[], driver, rfl, quiet driver plain, by simp⟩
      | some parts =>
          obtain ⟨line, rest⟩ := parts
          dsimp only
          cases served : serveLine platform spf driver ⟨env, line⟩ with
          | none => exact ⟨[], driver, rfl, quiet driver plain, by simp⟩
          | some reaction =>
              obtain ⟨response, next⟩ := reaction
              have one : Machine.run (serveLine platform spf) driver [⟨env, line⟩] =
                  some ([⟨driver, ⟨env, line⟩, response, next⟩], next) := by
                simp [Machine.run, served]
              dsimp only
              by_cases upgrading : next.session.startTls = true
              · rw [if_pos upgrading]
                exact ⟨_, next, one, rfl, by simpa using plain⟩
              have off : next.session.startTls = false := by simpa using upgrading
              rw [if_neg upgrading]
              by_cases leaving : next.session.finished = true
              · rw [if_pos leaving]
                exact ⟨_, next, one, quiet next off, by simpa using plain⟩
              rw [if_neg leaving]
              obtain ⟨inputs, last, ran, ended, started⟩ := ih next rest off
              refine ⟨⟨env, line⟩ :: inputs, last, ?_, ended, ?_⟩
              · simp [Machine.run, served, ran]
              · intro event member
                rcases List.mem_cons.mp member with rfl | later
                · exact plain
                · exact started event later

/-! ## Invariants of a connection -/

/-- Everything that happens on a connection, in order. -/
def Served.trace (served : Served) : List ServeEvent := served.plaintext ++ served.encrypted

section Invariant

variable {platform : Platform} {Inv : List ServeEvent → Driver → Prop}

/-- What holds before each line of a trace that starts with an invariant. -/
def HoldsAlong (platform : Platform) (spf : Option SpfContext)
    (Inv : List ServeEvent → Driver → Prop) (past trace : List ServeEvent) : Prop :=
  ∀ front event back, trace = front ++ event :: back →
    Inv (past ++ front) event.before ∧
      serveLine platform spf event.before event.input = some (event.output, event.after)

/-- Two traces, one after the other. -/
theorem HoldsAlong.append {spf : Option SpfContext} {past first second : List ServeEvent}
    (earlier : HoldsAlong platform spf Inv past first)
    (later : HoldsAlong platform spf Inv (past ++ first) second) :
    HoldsAlong platform spf Inv past (first ++ second) := by
  intro front event back split
  obtain ⟨shared, rfl, rest⟩ | ⟨shared, rfl, rest⟩ := List.append_eq_append_iff.mp split
  · rw [← List.append_assoc]
    exact later shared event back rest
  · cases shared with
    | nil =>
        simpa using later [] event back rest.symm
    | cons head shared =>
        obtain ⟨rfl, -⟩ : event = head ∧ _ := by simpa using rest
        exact earlier front event shared rfl

/-- An invariant of the loop body is an invariant of the loop. -/
theorem driveSession_invariant (spf : Option SpfContext) (envs : List Env) (driver : Driver)
    (stream : LineStream) (past : List ServeEvent) (plain : driver.session.startTls = false)
    (preserved : ∀ past before input response after, Inv past before →
      serveLine platform spf before input = some (response, after) →
      Inv (past ++ [⟨before, input, response, after⟩]) after)
    (initial : Inv past driver) :
    HoldsAlong platform spf Inv past (driveSession platform spf envs driver stream).trace ∧
      ∃ last : Driver,
        Inv (past ++ (driveSession platform spf envs driver stream).trace) last ∧
        (driveSession platform spf envs driver stream).driver = last.takeStartTls := by
  obtain ⟨inputs, last, ran, ended, -⟩ := driveSession_run platform spf envs driver stream plain
  have invariant := Machine.run_invariant Inv (fun _ => True)
    (fun past before input output after holds served _ =>
      preserved past before input output after holds served)
    inputs past driver last _ initial ran (fun _ _ => trivial)
  exact ⟨invariant.2, last, invariant.1, ended⟩

/-- The invariant rule for connections: it holds at the start of either mode, every
line keeps it, and so does the change of phase. -/
theorem handleConnection_invariant (platform : Platform) (listener : Listener)
    (Inv : List ServeEvent → Driver → Prop) (traceId peer : Text) (socket : List Bytes)
    (envs : List Env)
    (initial : ∀ tls, Inv [] ⟨{ listener.session platform traceId peer with tls := tls }, false⟩)
    (preserved : ∀ past before input response after, Inv past before →
      serveLine platform listener.spf before input = some (response, after) →
      Inv (past ++ [⟨before, input, response, after⟩]) after)
    (upgraded : ∀ past driver, Inv past driver →
      Inv past ⟨{ driver.takeStartTls.session with tls := true }, false⟩) :
    HoldsAlong platform listener.spf Inv []
      (handleConnection platform listener traceId peer socket envs).trace := by
  have vacant (past : List ServeEvent) : HoldsAlong platform listener.spf Inv past [] := by
    intro front event back split
    simp at split
  have encrypted (past : List ServeEvent) (session : Session) (incoming : List Bytes)
      (remaining : List Env) (plain : session.startTls = false)
      (holds : Inv past ⟨{ session with tls := true }, false⟩) :
      HoldsAlong platform listener.spf Inv past
        (encryptedPhase platform listener session incoming remaining) := by
    unfold encryptedPhase
    split
    · exact vacant past
    · exact (driveSession_invariant listener.spf remaining _ _ past plain preserved holds).1
  obtain ⟨first, last, holds, ended⟩ := driveSession_invariant listener.spf envs
    ⟨listener.session platform traceId peer, false⟩ (.new socket) [] rfl preserved (initial false)
  unfold handleConnection Served.trace
  cases listener.mode with
  | smtps => exact encrypted [] _ _ _ rfl (initial true)
  | smtp =>
      dsimp only
      split
      · refine first.append (encrypted _ _ _ _ ?_ ?_)
        · rw [ended]
          rfl
        · rw [ended]
          exact upgraded _ last holds
      · rw [List.append_nil]
        exact first

end Invariant

end Camelmailer.Smtp
