import Camelmailer.Core.Model
import Camelmailer.Text.Paths
import Camelmailer.Worker.Process
import Camelmailer.Worker.SmtpClient

/-!
# Sending one message

`send_message` of `camelmailer-worker/src/smtp_client.rs`: a connection to one of the addresses of a
host, the greeting, an upgrade with STARTTLS if it is offered, and the commands that hand a message
over. One function classifies the replies to all of them.

What the other side does is a script: the addresses that can be reached, the result of a TLS
handshake, the octets that arrive before and after it, the error that ends each of them, and the
writes that fail. How long the client waits for each is not modelled; a wait that is over is an error
like another. Beside its outcome, an attempt leaves a log of what went over its connection.
-/

namespace Camelmailer.Worker.Dialogue

open Utf8 Lines

/-! ## Parameters -/

inductive TlsMode where
  | verify
  | acceptAny
  | disabled
deriving DecidableEq

inductive ConnectionSecurity where
  | opportunistic
  | requireStartTls
  | implicitTls
deriving DecidableEq

structure SmtpAuth where
  username : Text
  password : Text
deriving DecidableEq

/-- `SendParams`, without the times to wait. -/
structure SendParams where
  host : Text
  port : Nat
  heloHostname : Text
  mailFrom : Text
  rcptTo : Text
  tlsMode : TlsMode
  security : ConnectionSecurity
  auth : Option SmtpAuth
  sourceIp : Option IpAddr
deriving DecidableEq

/-- What is taken from elsewhere: the upper case of Unicode, Base64, and the names that a TLS
handshake can be made for. -/
structure Externals where
  toUppercase : Text → Text
  base64 : Bytes → Text
  validServerName : Text → Bool

structure SocketAddr where
  ip : IpAddr
  port : Nat
deriving DecidableEq

def isIpv4 : IpAddr → Bool
  | .v4 _ => true
  | .v6 _ => false

def effectiveTlsMode (params : SendParams) : TlsMode :=
  match params.tlsMode, params.security with
  | .disabled, .requireStartTls => .verify
  | .disabled, .implicitTls => .verify
  | mode, _ => mode

/-! ## The other side -/

/-- What arrives, and the error of the read behind it. -/
structure Incoming where
  octets : Bytes
  ending : Text
deriving DecidableEq

/-- What the other side does during one attempt. -/
structure Peer where
  lookup : Except Text (List SocketAddr)
  connectTo : SocketAddr → Except Text Unit
  handshake : TlsMode → Except Text Unit
  plain : Incoming
  secure : Incoming
  failures : List (Option Text)

def remoteAddresses (addresses : List SocketAddr) (sourceIp : Option IpAddr) (host : Text) :
    Except Text (List SocketAddr) :=
  if addresses = [] then .error ("no address for ".toList ++ host)
  else
    let candidates := match sourceIp with
      | some source => addresses.filter (fun address => isIpv4 address.ip = isIpv4 source)
      | none => addresses.filter (fun address => isIpv4 address.ip) ++
          addresses.filter (fun address => !isIpv4 address.ip)
    if candidates = [] then
      let family := if sourceIp.any isIpv4 then "IPv4".toList else "IPv6".toList
      .error ("no ".toList ++ family ++ " address for ".toList ++ host ++
        " (required by the bound source address)".toList)
    else .ok candidates

/-- One candidate after the other. The error of the last one is the error of all. -/
def connectFirst (peer : Peer) (host : Text) : Option Text → List SocketAddr → Except Text Unit
  | lastError, [] => .error (lastError.getD ("no address for " ++ host))
  | _, address :: rest =>
      match peer.connectTo address with
      | .ok () => .ok ()
      | .error error => connectFirst peer host (some error) rest

def connect (params : SendParams) (peer : Peer) : Except Text Unit := do
  let addresses ← peer.lookup
  let candidates ← remoteAddresses addresses params.sourceIp params.host
  connectFirst peer params.host none candidates

/-- A TLS handshake with the name of the host. -/
def handshake (externals : Externals) (params : SendParams) (peer : Peer) : Except Text Unit :=
  if externals.validServerName params.host then peer.handshake (effectiveTlsMode params)
  else .error "invalid server name for TLS"

/-! ## Commands and replies -/

/-- What a reply is an answer to. -/
inductive Stage where
  | greeting
  | ehlo
  | helo
  | startTls
  | ehloSecure
  | auth
  | mailFrom
  | rcptTo
  | data
  | finalDot
deriving DecidableEq

/-- What goes over a connection. What is behind `secured` goes over an encrypted stream. -/
inductive Entry where
  | secured
  | wrote (octets : Bytes)
  | reply (stage : Stage) (code : Nat) (text : Text)
deriving DecidableEq

structure Connection where
  lines : List Bytes
  ending : Text
  failures : List (Option Text)
  log : List Entry

/-- What is done on a connection. A failure ends it, and the log stays. -/
abbrev Talk : Type → Type := ExceptT Text (StateM Connection)

/-- `write_all` and `flush`. -/
def write (octets : Bytes) : Talk Unit := fun connection =>
  match connection.failures.head?.join with
  | some error => (.error error, { connection with failures := connection.failures.tail })
  | none => (.ok (), { connection with
      failures := connection.failures.tail, log := connection.log ++ [.wrote octets] })

/-- `read_line`: a line that has arrived, without its line end. -/
def lineText (line : Bytes) : Text :=
  (fromUtf8Lossy (line ++ [LF])).rdropWhile (fun char => char = '\r' || char = '\n')

/-- The code of a reply, zero if it does not begin with one. -/
def replyCode (line : Text) : Nat :=
  ((Str.splitAtByte 3 line).bind (fun parts => Paths.parseNumber parts.1)).getD 0

/-- Whether another line of the reply follows. -/
def continues (line : Text) : Bool :=
  !(Str.byteLen line < 4 || (encode line)[3]? ≠ some 0x2D)

/-- The loop of `read_reply`, with what has been read so far. -/
def readLines (ending : Text) : Text → List Bytes → Except Text (Nat × Text) × List Bytes
  | _, [] => (.error ending, [])
  | full, line :: rest =>
      let text := lineText line
      let full := full ++ text ++ ['\n']
      if continues text then readLines ending full rest
      else (.ok (replyCode text, Str.trim full), rest)

def readReply (stage : Stage) : Talk (Nat × Text) := fun connection =>
  match readLines connection.ending [] connection.lines with
  | (.error error, lines) => (.error error, { connection with lines := lines })
  | (.ok (code, text), lines) => (.ok (code, text), { connection with
      lines := lines, log := connection.log ++ [.reply stage code text] })

def command (stage : Stage) (line : Text) : Talk (Nat × Text) := do
  write (sendLine line)
  readReply stage

/-- `send_data`: the body, and then the final dot. -/
def transmit (rawMessage : Bytes) : Talk (Nat × Text) := do
  write ((dataLines rawMessage).flatMap wireLine)
  command .finalDot ['.']

/-- From now on what arrives comes through TLS. What was buffered is dropped. -/
def switchTo (incoming : Incoming) : Talk Unit := fun connection =>
  (.ok (), { connection with
    lines := complete incoming.octets, ending := incoming.ending, log := connection.log ++ [.secured] })

/-! ## An attempt -/

def classify (code : Nat) (response : Text) (tls : Bool) : SendOutcome :=
  if 200 ≤ code ∧ code ≤ 399 then .sent response tls
  else if 400 ≤ code ∧ code ≤ 499 then .softFail response
  else .hardFail response

inductive Attempt where
  | complete (outcome : SendOutcome)
  | opportunisticStartTlsHandshakeFailed
deriving DecidableEq

def isSuccess (code : Nat) : Bool := 200 ≤ code && code ≤ 299

/-- A reply that is accepted is gone on from. Another one is classified, and ends the attempt. -/
def orStop (accepts : Nat → Bool) (tls : Bool) (reply : Talk (Nat × Text)) (next : Talk Attempt) :
    Talk Attempt := do
  let (code, response) ← reply
  if accepts code then next else return .complete (classify code response tls)

section Attempt

variable (externals : Externals) (params : SendParams) (rawMessage : Bytes)

/-- The host and the port as they are shown. -/
def SendParams.endpoint (params : SendParams) : Text := params.host ++ ':' :: decimal params.port

/-- The end of an attempt: a goodbye, whose failure does not matter. -/
def sayGoodbye (outcome : SendOutcome) : Talk Attempt := fun connection =>
  (.ok (.complete outcome), (write (sendLine "QUIT") connection).2)

/-- The message is handed over. -/
def transfer (tls : Bool) : Talk Attempt :=
  orStop isSuccess tls (command .mailFrom ("MAIL FROM:<" ++ params.mailFrom ++ ['>']))
    (orStop isSuccess tls (command .rcptTo ("RCPT TO:<" ++ params.rcptTo ++ ['>']))
      (orStop (fun code => code = 354) tls (command .data "DATA") (do
        let (code, response) ← transmit rawMessage
        sayGoodbye (classify code response tls))))

/-- The token of AUTH PLAIN. -/
def plainToken (auth : SmtpAuth) : Text :=
  externals.base64 (encode (Char.ofNat 0 :: auth.username ++ Char.ofNat 0 :: auth.password))

/-- Credentials are given, if there are any. -/
def authenticate (tls : Bool) : Talk Attempt :=
  match params.auth with
  | none => transfer params rawMessage tls
  | some auth => orStop (fun code => code = 235) tls
      (command .auth ("AUTH PLAIN " ++ plainToken externals auth))
      (transfer params rawMessage tls)

/-- A relay on the submission port is not used without TLS. -/
def demandTls (tls : Bool) : Talk Attempt :=
  if params.security = .requireStartTls ∧ tls = false then
    return .complete (.softFail ("relay " ++ params.endpoint ++ (" does not offer STARTTLS, " ++
      "which is required for smtp:// relays on the submission port").toList))
  else authenticate externals params rawMessage tls

/-- Whether STARTTLS is asked for. -/
def wantsStartTls (tls allowStartTls : Bool) (ehloResponse : Text) : Bool :=
  !tls && allowStartTls &&
    (params.tlsMode ≠ .disabled || params.security = .requireStartTls) &&
    Str.contains (externals.toUppercase ehloResponse) "STARTTLS"

/-- The connection is upgraded, and greeted again. -/
def upgrade (peer : Peer) : Talk Attempt :=
  match handshake externals params peer with
  | .error error =>
      if params.security = .opportunistic then return .opportunisticStartTlsHandshakeFailed
      else throw error
  | .ok () => do
      switchTo peer.secure
      orStop isSuccess true (command .ehloSecure ("EHLO " ++ params.heloHostname))
        (demandTls externals params rawMessage true)

/-- STARTTLS is asked for. -/
def startTls (peer : Peer) (tls : Bool) : Talk Attempt := do
  let (code, response) ← command .startTls "STARTTLS"
  if isSuccess code then upgrade externals params rawMessage peer
  else if params.security = .requireStartTls then
    return .complete (.softFail ("relay " ++ params.endpoint ++
      " refused mandatory STARTTLS: " ++ response))
  else demandTls externals params rawMessage tls

/-- The other side is greeted. -/
def sayHello (peer : Peer) (tls allowStartTls : Bool) : Talk Attempt := do
  let (code, ehloResponse) ← command .ehlo ("EHLO " ++ params.heloHostname)
  if !isSuccess code then
    orStop isSuccess tls (command .helo ("HELO " ++ params.heloHostname))
      (demandTls externals params rawMessage tls)
  else if wantsStartTls externals params tls allowStartTls ehloResponse then
    startTls externals params rawMessage peer tls
  else demandTls externals params rawMessage tls

/-- What is done on a new connection. -/
def dialogue (peer : Peer) (tls allowStartTls : Bool) : Talk Attempt :=
  orStop (fun code => code = 220) tls (readReply .greeting)
    (sayHello externals params rawMessage peer tls allowStartTls)

/-- `try_send`, with what went over the connection. -/
def trySend (peer : Peer) (allowStartTls : Bool) : Except Text Attempt × List Entry :=
  match connect params peer with
  | .error error => (.error error, [])
  | .ok () =>
      let tls := decide (params.security = .implicitTls)
      match if tls then handshake externals params peer else .ok () with
      | .error error => (.error error, [])
      | .ok () =>
          let incoming := if tls then peer.secure else peer.plain
          let talked := dialogue externals params rawMessage peer tls allowStartTls
            ⟨complete incoming.octets, incoming.ending, peer.failures, if tls then [.secured] else []⟩
          (talked.1, talked.2.log)

/-- The outcome of an attempt that has failed. -/
def connectionError (error : Text) : SendOutcome :=
  .softFail ("connection error to " ++ params.endpoint ++ ": " ++ error)

/-- `send_message`, with what went over the connection that was used. There is no result where the
source is `unreachable!`. -/
def sendMessage (first second : Peer) : Option (SendOutcome × List Entry) :=
  match trySend externals params rawMessage first true with
  | (.ok (.complete outcome), log) => some (outcome, log)
  | (.error error, log) => some (connectionError params error, log)
  | (.ok .opportunisticStartTlsHandshakeFailed, _) =>
      match trySend externals params rawMessage second false with
      | (.ok (.complete outcome), log) => some (outcome, log)
      | (.error error, log) => some (connectionError params error, log)
      | (.ok .opportunisticStartTlsHandshakeFailed, _) => none

/-- What went over each connection that `send_message` makes, the one that was used last. -/
def connectionLogs (first second : Peer) : List (List Entry) :=
  match trySend externals params rawMessage first true with
  | (.ok .opportunisticStartTlsHandshakeFailed, log) =>
      [log, (trySend externals params rawMessage second false).2]
  | (_, log) => [log]

end Attempt

/-! ## What an attempt leaves behind -/

/-- The replies that a command is meant to have. A reply to EHLO or STARTTLS is gone on from in any
case. -/
def Stage.expects : Stage → Nat → Bool
  | .greeting, code => code = 220
  | .ehlo, _ => true
  | .startTls, _ => true
  | .auth, code => code = 235
  | .data, code => code = 354
  | _, code => isSuccess code

/-- All replies are as they are meant to be. -/
def Regular (log : List Entry) : Prop :=
  ∀ stage code text, .reply stage code text ∈ log → stage.expects code = true

/-- No reply is there. -/
def Silent (log : List Entry) : Prop := ∀ stage code text, .reply stage code text ∉ log

/-- No reply that is not as it is meant to be has a code from 200 to 399. -/
def Clear (log : List Entry) : Prop :=
  ∀ stage code text, .reply stage code text ∈ log → stage.expects code = true ∨
    ¬(200 ≤ code ∧ code ≤ 399)

/-- A message has been handed over: the sender, the recipient and DATA have been accepted, the
message and the final dot have been written, and the final dot has been accepted. -/
def Delivered (params : SendParams) (rawMessage : Bytes) (log : List Entry) : Prop :=
  ∃ before sender senderText recipient recipientText dataText body dot dotText behind,
    log = before ++ [.wrote (sendLine ("MAIL FROM:<" ++ params.mailFrom ++ ['>'])),
      .reply .mailFrom sender senderText,
      .wrote (sendLine ("RCPT TO:<" ++ params.rcptTo ++ ['>'])),
      .reply .rcptTo recipient recipientText, .wrote (sendLine "DATA"),
      .reply .data 354 dataText, .wrote body, .wrote (sendLine ['.']),
      .reply .finalDot dot dotText] ++ behind ∧
    isSuccess sender = true ∧ isSuccess recipient = true ∧ isSuccess dot = true ∧
    body ++ sendLine ['.'] = sendData rawMessage

/-- All replies so far are as they are meant to be, and the final dot has not been answered. -/
structure Begun (log : List Entry) : Prop where
  regular : Regular log
  undotted : ∀ code text, .reply .finalDot code text ∉ log

/-- How an attempt ends. -/
inductive Ends (params : SendParams) (rawMessage : Bytes) :
    List Entry → Except Text Attempt → Prop
  | abandoned {log : List Entry} {result : Except Text Attempt} (regular : Regular log)
      (soft : ∀ outcome, result = .ok (.complete outcome) → ∃ response, outcome = .softFail response) :
      Ends params rawMessage log result
  | stopped {before behind : List Entry} {stage : Stage} {code : Nat} {text : Text} {tls : Bool}
      (begun : Begun before) (odd : stage.expects code = false) (quiet : Silent behind) :
      Ends params rawMessage (before ++ .reply stage code text :: behind)
        (.ok (.complete (classify code text tls)))
  | delivered {log : List Entry} {response : Text} {tls : Bool} (regular : Regular log)
      (delivered : Delivered params rawMessage log) :
      Ends params rawMessage log (.ok (.complete (.sent response tls)))

section Ends

variable {params : SendParams} {rawMessage : Bytes} {log front : List Entry}
  {result : Except Text Attempt}

theorem Silent.regular (silent : Silent log) : Regular log :=
  fun stage code text member => absurd member (silent stage code text)

theorem Regular.append (first : Regular front) (second : Regular log) : Regular (front ++ log) := by
  intro stage code text member
  rcases List.mem_append.mp member with early | late
  · exact first stage code text early
  · exact second stage code text late

theorem Delivered.prepend (front : List Entry) (delivered : Delivered params rawMessage log) :
    Delivered params rawMessage (front ++ log) := by
  obtain ⟨before, sender, senderText, recipient, recipientText, dataText, body, dot, dotText, behind,
    rfl, accepted⟩ := delivered
  exact ⟨front ++ before, sender, senderText, recipient, recipientText, dataText, body, dot, dotText,
    behind, by simp only [List.append_assoc], accepted⟩

theorem Begun.append (first : Begun front) (second : Begun log) : Begun (front ++ log) := by
  refine ⟨first.regular.append second.regular, ?_⟩
  intro code text member
  rcases List.mem_append.mp member with early | late
  · exact first.undotted code text early
  · exact second.undotted code text late

theorem Silent.begun (silent : Silent log) : Begun log := ⟨silent.regular, silent .finalDot⟩

theorem Silent.earlier (silent : Silent log) (early : front <+: log) : Silent front :=
  fun stage code text member => silent stage code text (early.subset member)

/-- A question before the final dot that has been answered as it is meant to be. -/
theorem Silent.asked (silent : Silent log) {stage : Stage} {code : Nat} (text : Text)
    (expected : stage.expects code = true) (early : stage ≠ .finalDot) :
    Begun (log ++ [.reply stage code text]) := by
  refine silent.begun.append ⟨?_, ?_⟩
  · intro other number words member
    cases List.mem_singleton.mp member
    exact expected
  · intro number words member
    cases List.mem_singleton.mp member
    exact early rfl

/-- What comes before the handing over does not change how an attempt ends. -/
theorem Ends.prepend (begun : Begun front) (ends : Ends params rawMessage log result) :
    Ends params rawMessage (front ++ log) result := by
  cases ends with
  | abandoned rest soft => exact .abandoned (begun.regular.append rest) soft
  | stopped rest odd quiet =>
      rw [← List.append_assoc]
      exact .stopped (begun.append rest) odd quiet
  | delivered rest delivered =>
      exact .delivered (begun.regular.append rest) (delivered.prepend front)

/-- A delivery ends with a reply to the final dot. -/
theorem Delivered.dotted (delivered : Delivered params rawMessage log) :
    ∃ code text, .reply .finalDot code text ∈ log ∧ isSuccess code = true := by
  obtain ⟨before, sender, senderText, recipient, recipientText, dataText, body, dot, dotText, behind,
    rfl, -, -, accepted, -⟩ := delivered
  exact ⟨dot, dotText, by simp, accepted⟩

/-- An outcome is reported rightly if and only if the reply that has ended the attempt is not one
that is taken for a success. -/
theorem Ends.sent_iff (ends : Ends params rawMessage log result) :
    ((∀ response tls, result = .ok (.complete (.sent response tls)) →
      Delivered params rawMessage log) ↔ Clear log) := by
  cases ends with
  | abandoned regular soft =>
      refine ⟨fun _ stage code text member => .inl (regular stage code text member), ?_⟩
      intro _ response tls sent
      obtain ⟨other, failed⟩ := soft _ sent
      cases failed
  | @stopped before behind stage code text tls begun odd quiet =>
      have undelivered : ¬Delivered params rawMessage (before ++ .reply stage code text :: behind) := by
        intro delivered
        obtain ⟨dot, dotText, member, accepted⟩ := delivered.dotted
        rcases List.mem_append.mp member with early | late
        · exact begun.undotted dot dotText early
        · rcases List.mem_cons.mp late with same | later
          · cases same
            have refused : isSuccess code = false := odd
            rw [accepted] at refused
            cases refused
          · exact quiet .finalDot dot dotText later
      refine ⟨?_, ?_⟩
      · intro reported other number words member
        rcases List.mem_append.mp member with early | late
        · exact .inl (begun.regular other number words early)
        · rcases List.mem_cons.mp late with same | later
          · cases same
            refine .inr (fun taken => undelivered (reported text tls ?_))
            rw [classify, if_pos taken]
          · exact absurd later (quiet other number words)
      · intro clear response secured sent
        rcases clear stage code text (by simp) with expected | untaken
        · rw [odd] at expected
          cases expected
        · rw [classify] at sent
          split_ifs at sent <;> cases sent
  | delivered regular delivered =>
      exact ⟨fun _ stage code text member => .inl (regular stage code text member),
        fun _ _ _ _ => delivered⟩

end Ends

/-! ## Every attempt ends so -/

section Talk

variable {params : SendParams} {rawMessage : Bytes} {α β : Type} {program : Talk α}

theorem bind_ok {next : α → Talk β} {connection later : Connection} {value : α}
    (ran : program connection = (.ok value, later)) :
    (program >>= next) connection = next value later := by
  change (match program connection with
    | (result, later) => ExceptT.bindCont next result later) = _
  rw [ran]
  rfl

theorem bind_error {next : α → Talk β} {connection later : Connection} {error : Text}
    (ran : program connection = (.error error, later)) :
    (program >>= next) connection = (.error error, later) := by
  change (match program connection with
    | (result, later) => ExceptT.bindCont next result later) = _
  rw [ran]
  rfl

/-- What a program adds to the log, with its result. -/
def Leaves (program : Talk α) (P : List Entry → Except Text α → Prop) : Prop :=
  ∀ connection, ∃ added, (program connection).2.log = connection.log ++ added ∧
    P added (program connection).1

variable {P : List Entry → Except Text α → Prop}

theorem Leaves.mono {Q : List Entry → Except Text α → Prop} (leaves : Leaves program P)
    (weaker : ∀ added result, P added result → Q added result) :
    Leaves program Q := by
  intro connection
  obtain ⟨added, log, holds⟩ := leaves connection
  exact ⟨added, log, weaker added _ holds⟩

/-- What is left behind by two programs one after the other. -/
theorem Leaves.bind {next : α → Talk β} {Q : List Entry → Except Text β → Prop}
    (leaves : Leaves program P)
    (fails : ∀ added error, P added (.error error) → Q added (.error error))
    (continues : ∀ added value, P added (.ok value) →
      Leaves (next value) (fun more result => Q (added ++ more) result)) :
    Leaves (program >>= next) Q := by
  intro connection
  obtain ⟨added, log, holds⟩ := leaves connection
  rcases ran : program connection with ⟨result, later⟩
  rw [ran] at log holds
  cases result with
  | error error =>
      rw [bind_error ran]
      exact ⟨added, log, fails added error holds⟩
  | ok value =>
      obtain ⟨more, moreLog, last⟩ := continues added value holds later
      rw [bind_ok ran]
      refine ⟨added ++ more, ?_, last⟩
      rw [moreLog, log, List.append_assoc]

theorem Leaves.pure (value : α) (holds : P [] (.ok value)) :
    Leaves (Pure.pure value) P :=
  fun _ => ⟨[], (List.append_nil _).symm, holds⟩

theorem leaves_write (octets : Bytes) :
    Leaves (write octets) (fun added result => match result with
      | .error _ => added = []
      | .ok () => added = [.wrote octets]) := by
  intro connection
  unfold write
  split
  · exact ⟨[], (List.append_nil _).symm, rfl⟩
  · exact ⟨_, rfl, rfl⟩

theorem leaves_readReply (stage : Stage) :
    Leaves (readReply stage) (fun added result => match result with
      | .error _ => added = []
      | .ok (code, text) => added = [.reply stage code text]) := by
  intro connection
  unfold readReply
  split
  · exact ⟨[], (List.append_nil _).symm, rfl⟩
  · exact ⟨_, rfl, rfl⟩

/-- What a question leaves: what has been written, and then the reply. A failure comes after some
of the writes. -/
def Asked (stage : Stage) (written : List Entry) (added : List Entry) :
    Except Text (Nat × Text) → Prop
  | .error _ => added <+: written
  | .ok (code, text) => added = written ++ [.reply stage code text]

theorem leaves_command (stage : Stage) (line : Text) :
    Leaves (command stage line) (Asked stage [.wrote (sendLine line)]) := by
  refine (leaves_write _).bind ?_ ?_
  · rintro added error rfl
    exact List.nil_prefix
  · rintro added ⟨⟩ rfl
    refine (leaves_readReply stage).mono ?_
    rintro more (error | ⟨code, text⟩) rfl
    · exact List.prefix_rfl
    · rfl

theorem leaves_transmit (rawMessage : Bytes) :
    Leaves (transmit rawMessage) (Asked .finalDot
      [.wrote ((dataLines rawMessage).flatMap wireLine), .wrote (sendLine ['.'])]) := by
  refine (leaves_write _).bind ?_ ?_
  · rintro added error rfl
    exact List.nil_prefix
  · rintro added ⟨⟩ rfl
    refine (leaves_command .finalDot ['.']).mono ?_
    rintro more (error | ⟨code, text⟩) asked
    · exact (List.prefix_append_right_inj _).mpr asked
    · obtain rfl := asked
      rfl

variable {accepts : Nat → Bool} {reply : Talk (Nat × Text)} {tls : Bool} {stage : Stage}
  {next : Talk Attempt}

/-- A question whose reply is accepted or ends the attempt, after what has been logged before. -/
theorem orStop_after {front written : List Entry} (begun : Begun front)
    (asked : Leaves reply (Asked stage written)) (silent : Silent written)
    (agrees : ∀ code, accepts code = stage.expects code)
    (continues : ∀ code text, stage.expects code = true → Leaves next (fun more result =>
      Ends params rawMessage (front ++ (written ++ [.reply stage code text]) ++ more) result)) :
    Leaves (orStop accepts tls reply next) (fun added result =>
      Ends params rawMessage (front ++ added) result) := by
  refine asked.bind ?_ ?_
  · intro added error early
    exact .abandoned (begun.regular.append (silent.earlier early).regular) (fun _ => nofun)
  · rintro added ⟨code, text⟩ rfl
    dsimp only
    rw [agrees]
    cases expected : stage.expects code with
    | true =>
        rw [if_pos rfl]
        simpa only [List.append_assoc] using continues code text expected
    | false =>
        refine Leaves.pure _ ?_
        rw [List.append_nil, ← List.append_assoc]
        exact .stopped (begun.append silent.begun) expected (fun _ _ _ => List.not_mem_nil)

/-- The same for a question before the message is handed over. -/
theorem orStop_ends {written : List Entry} (asked : Leaves reply (Asked stage written))
    (silent : Silent written) (agrees : ∀ code, accepts code = stage.expects code)
    (early : stage ≠ .finalDot) (continues : Leaves next (Ends params rawMessage)) :
    Leaves (orStop accepts tls reply next) (Ends params rawMessage) := by
  have none : Begun [] := Silent.begun (fun _ _ _ => List.not_mem_nil)
  refine orStop_after none asked silent agrees ?_
  intro code text expected
  refine continues.mono ?_
  intro added result ends
  exact ends.prepend (silent.asked text expected early)

theorem silent_wrote (octets : Bytes) : Silent [.wrote octets] := by
  intro stage code text member
  cases List.mem_singleton.mp member

theorem silent_secured : Silent [.secured] := by
  intro stage code text member
  cases List.mem_singleton.mp member

theorem leaves_switchTo (incoming : Incoming) :
    Leaves (switchTo incoming) (fun added result => added = [.secured] ∧ result = .ok ()) :=
  fun _ => ⟨[.secured], rfl, rfl, rfl⟩

theorem leaves_goodbye (outcome : SendOutcome) :
    Leaves (sayGoodbye outcome) (fun added result =>
      Silent added ∧ result = .ok (.complete outcome)) := by
  intro connection
  obtain ⟨added, log, holds⟩ := leaves_write (sendLine "QUIT") connection
  refine ⟨added, log, ?_, rfl⟩
  cases result : (write (sendLine "QUIT") connection).1 with
  | error error =>
      rw [result] at holds
      obtain rfl := holds
      exact fun _ _ _ => List.not_mem_nil
  | ok done =>
      rw [result] at holds
      obtain rfl := holds
      exact silent_wrote _

theorem transfer_ends (tls : Bool) :
    Leaves (transfer params rawMessage tls) (Ends params rawMessage) := by
  have none : Begun [] := Silent.begun (fun _ _ _ => List.not_mem_nil)
  refine orStop_after none (leaves_command .mailFrom _) (silent_wrote _) (fun _ => rfl) ?_
  intro sender senderText senderAccepted
  have first := (silent_wrote (sendLine ("MAIL FROM:<" ++ params.mailFrom ++ ['>']))).asked
    senderText senderAccepted nofun
  refine orStop_after (none.append first) (leaves_command .rcptTo _) (silent_wrote _)
    (fun _ => rfl) ?_
  intro recipient recipientText recipientAccepted
  have second := (silent_wrote (sendLine ("RCPT TO:<" ++ params.rcptTo ++ ['>']))).asked
    recipientText recipientAccepted nofun
  refine orStop_after ((none.append first).append second) (leaves_command .data _) (silent_wrote _)
    (fun _ => rfl) ?_
  intro data dataText dataAccepted
  have third := (silent_wrote (sendLine "DATA")).asked dataText dataAccepted nofun
  have begun := ((none.append first).append second).append third
  have written : Silent [.wrote ((dataLines rawMessage).flatMap wireLine),
      .wrote (sendLine ['.'])] := by
    intro stage code text member
    simp at member
  refine (leaves_transmit rawMessage).bind ?_ ?_
  · intro added error early
    exact .abandoned (begun.regular.append (written.earlier early).regular) (fun _ => nofun)
  · rintro added ⟨dot, dotText⟩ rfl
    refine (leaves_goodbye _).mono ?_
    rintro behind result ⟨quiet, rfl⟩
    cases accepted : Stage.finalDot.expects dot with
    | false =>
        have stopped : Ends params rawMessage (_ ++ .reply .finalDot dot dotText :: behind)
            (.ok (.complete (classify dot dotText tls))) :=
          .stopped (begun.append written.begun) accepted quiet
        simpa only [List.cons_append, List.nil_append] using stopped
    | true =>
        obtain rfl : data = 354 := of_decide_eq_true dataAccepted
        have answered : Regular [.reply .finalDot dot dotText] := by
          intro stage code text member
          cases List.mem_singleton.mp member
          exact accepted
        have regular := begun.regular.append ((written.regular.append answered).append quiet.regular)
        have classified : classify dot dotText tls = .sent dotText tls := by
          obtain ⟨least, most⟩ := Bool.and_eq_true_iff.mp accepted
          have low := of_decide_eq_true least
          have high := of_decide_eq_true most
          rw [classify, if_pos ⟨low, by omega⟩]
        rw [classified]
        refine .delivered regular ⟨[], sender, senderText, recipient, recipientText, dataText, _, dot,
          dotText, behind, ?_, senderAccepted, recipientAccepted, accepted, rfl⟩
        simp only [List.cons_append, List.nil_append]

theorem authenticate_ends (externals : Externals) (tls : Bool) :
    Leaves (authenticate externals params rawMessage tls) (Ends params rawMessage) := by
  unfold authenticate
  split
  · exact transfer_ends tls
  · exact orStop_ends (leaves_command .auth _) (silent_wrote _) (fun _ => rfl) nofun
      (transfer_ends tls)

/-- An attempt that is given up before anything has been said. -/
theorem Ends.nil (response : Text) :
    Ends params rawMessage [] (.ok (.complete (.softFail response))) := by
  refine .abandoned (fun _ _ _ member => absurd member List.not_mem_nil) ?_
  intro outcome same
  cases same
  exact ⟨response, rfl⟩

theorem demandTls_ends (externals : Externals) (tls : Bool) :
    Leaves (demandTls externals params rawMessage tls) (Ends params rawMessage) := by
  unfold demandTls
  split_ifs with required
  · exact Leaves.pure _ (.nil _)
  · exact authenticate_ends externals tls

/-- A reply that is gone on from in any case. -/
theorem command_ends {line : Text} {next : Nat × Text → Talk Attempt}
    (tolerant : ∀ code, stage.expects code = true) (early : stage ≠ .finalDot)
    (continues : ∀ reply, Leaves (next reply) (Ends params rawMessage)) :
    Leaves (command stage line >>= next) (Ends params rawMessage) := by
  refine (leaves_command stage line).bind ?_ ?_
  · intro added error written
    exact .abandoned ((silent_wrote _).earlier written).regular (fun _ => nofun)
  · rintro added ⟨code, text⟩ rfl
    refine (continues (code, text)).mono ?_
    intro more result ends
    exact ends.prepend ((silent_wrote _).asked text (tolerant code) early)

section

variable (externals : Externals) (peer : Peer)
include externals peer

theorem upgrade_ends :
    Leaves (upgrade externals params rawMessage peer) (Ends params rawMessage) := by
  have nothing : Regular [] := fun _ _ _ member => absurd member List.not_mem_nil
  unfold upgrade
  split
  · split_ifs with opportunistic
    · exact Leaves.pure _ (.abandoned nothing (fun _ => nofun))
    · exact fun _ => ⟨[], (List.append_nil _).symm, .abandoned nothing (fun _ => nofun)⟩
  · refine (leaves_switchTo peer.secure).bind (fun _ _ absurd => by cases absurd.2) ?_
    rintro added ⟨⟩ ⟨rfl, -⟩
    have greeted : Leaves (orStop isSuccess true (command .ehloSecure
        ("EHLO " ++ params.heloHostname)) (demandTls externals params rawMessage true))
        (Ends params rawMessage) :=
      orStop_ends (leaves_command .ehloSecure _) (silent_wrote _) (fun _ => rfl) nofun
        (demandTls_ends externals true)
    exact greeted.mono (fun _ _ ends => ends.prepend silent_secured.begun)

theorem startTls_ends (tls : Bool) :
    Leaves (startTls externals params rawMessage peer tls) (Ends params rawMessage) := by
  refine command_ends (fun _ => rfl) nofun ?_
  rintro ⟨code, response⟩
  dsimp only
  split_ifs with accepted required
  · exact upgrade_ends externals peer
  · exact Leaves.pure _ (.nil _)
  · exact demandTls_ends externals tls

theorem sayHello_ends (tls allowStartTls : Bool) :
    Leaves (sayHello externals params rawMessage peer tls allowStartTls)
      (Ends params rawMessage) := by
  refine command_ends (fun _ => rfl) nofun ?_
  rintro ⟨code, ehloResponse⟩
  dsimp only
  split_ifs with refused wanted
  · exact orStop_ends (leaves_command .helo _) (silent_wrote _) (fun _ => rfl) nofun
      (demandTls_ends externals tls)
  · exact startTls_ends externals peer tls
  · exact demandTls_ends externals tls

theorem dialogue_ends (tls allowStartTls : Bool) :
    Leaves (dialogue externals params rawMessage peer tls allowStartTls)
      (Ends params rawMessage) := by
  have asked : Leaves (readReply .greeting) (Asked .greeting []) := by
    refine (leaves_readReply .greeting).mono ?_
    rintro added (error | ⟨code, text⟩) rfl
    · exact List.prefix_rfl
    · rfl
  exact orStop_ends asked (fun _ _ _ => List.not_mem_nil) (fun _ => rfl) nofun
    (sayHello_ends externals peer tls allowStartTls)

end

theorem trySend_ends (externals : Externals) (params : SendParams) (rawMessage : Bytes) (peer : Peer)
    (allowStartTls : Bool) :
    Ends params rawMessage (trySend externals params rawMessage peer allowStartTls).2
      (trySend externals params rawMessage peer allowStartTls).1 := by
  have nothing : Regular [] := fun _ _ _ member => absurd member List.not_mem_nil
  unfold trySend
  split
  · exact .abandoned nothing (fun _ => nofun)
  · dsimp only
    split
    · exact .abandoned nothing (fun _ => nofun)
    · have leaves : Leaves (dialogue externals params rawMessage peer
          (decide (params.security = .implicitTls)) allowStartTls) (Ends params rawMessage) :=
        dialogue_ends externals peer _ allowStartTls
      have opened : Silent (if decide (params.security = .implicitTls) then [.secured] else []) := by
        split_ifs
        · exact silent_secured
        · exact fun _ _ _ => List.not_mem_nil
      obtain ⟨added, log, ends⟩ := leaves _
      rw [log]
      exact ends.prepend opened.begun

/-- A program that does not ask for another attempt. -/
def Completes (program : Talk Attempt) : Prop :=
  Leaves program (fun _ result => result ≠ .ok .opportunisticStartTlsHandshakeFailed)

theorem Completes.bind {next : α → Talk Attempt} (leaves : Leaves program P)
    (continues : ∀ value, Completes (next value)) : Completes (program >>= next) :=
  leaves.bind (fun _ _ _ => nofun) (fun _ value _ => continues value)

theorem orStop_completes {P : List Entry → Except Text (Nat × Text) → Prop}
    (leaves : Leaves reply P) (continues : Completes next) :
    Completes (orStop accepts tls reply next) := by
  refine Completes.bind leaves ?_
  rintro ⟨code, response⟩
  dsimp only
  split_ifs
  · exact continues
  · exact Leaves.pure _ nofun

theorem transfer_completes (tls : Bool) : Completes (transfer params rawMessage tls) := by
  refine orStop_completes (leaves_command .mailFrom _) ?_
  refine orStop_completes (leaves_command .rcptTo _) ?_
  refine orStop_completes (leaves_command .data _) ?_
  refine Completes.bind (leaves_transmit rawMessage) ?_
  rintro ⟨code, response⟩
  refine (leaves_goodbye _).mono ?_
  exact nofun

theorem demandTls_completes (externals : Externals) (tls : Bool) :
    Completes (demandTls externals params rawMessage tls) := by
  unfold demandTls authenticate
  split_ifs with required
  · exact Leaves.pure _ nofun
  · split
    · exact transfer_completes tls
    · exact orStop_completes (leaves_command .auth _) (transfer_completes tls)

/-- Without STARTTLS there is no handshake that can fail. -/
theorem dialogue_completes (externals : Externals) (peer : Peer) (tls : Bool) :
    Completes (dialogue externals params rawMessage peer tls false) := by
  refine orStop_completes (leaves_readReply .greeting) ?_
  refine Completes.bind (leaves_command .ehlo _) ?_
  rintro ⟨code, ehloResponse⟩
  have unwanted : wantsStartTls externals params tls false ehloResponse = false := by
    simp [wantsStartTls]
  dsimp only
  rw [unwanted, if_neg Bool.false_ne_true]
  split_ifs with refused
  · exact orStop_completes (leaves_command .helo _) (demandTls_completes externals tls)
  · exact demandTls_completes externals tls

theorem trySend_completes (externals : Externals) (params : SendParams) (rawMessage : Bytes)
    (peer : Peer) : (trySend externals params rawMessage peer false).1 ≠
      .ok .opportunisticStartTlsHandshakeFailed := by
  unfold trySend
  split
  · exact nofun
  · dsimp only
    split
    · exact nofun
    · have completes : Completes (dialogue externals params rawMessage peer
          (decide (params.security = .implicitTls)) false) := dialogue_completes externals peer _
      obtain ⟨added, -, other⟩ := completes _
      exact other

end Talk

variable {rawMessage : Bytes} {params : SendParams}

/-- The outcome of an attempt is reported rightly if and only if no reply that ended it is taken for
a success. -/
theorem Ends.outcome_iff {log : List Entry} {outcome : SendOutcome}
    (ends : Ends params rawMessage log (.ok (.complete outcome))) :
    ((∀ response tls, outcome = .sent response tls → Delivered params rawMessage log) ↔
      Clear log) := by
  rw [← ends.sent_iff]
  refine ⟨fun reported response tls same => ?_, fun reported response tls same => ?_⟩
  · cases same
    exact reported response tls rfl
  · cases same
    exact reported response tls rfl

theorem Ends.error_iff {log : List Entry} {error : Text}
    (ends : Ends params rawMessage log (.error error)) :
    ((∀ response tls, connectionError params error = .sent response tls →
      Delivered params rawMessage log) ↔ Clear log) := by
  rw [← ends.sent_iff]
  exact ⟨fun _ _ _ => nofun, fun _ _ _ => nofun⟩

/-- For every script of the other side: a message that is reported as sent has been handed over on
the connection that was used, if and only if every reply on it that is not as it is meant to be has a
code outside 200 to 399. -/
theorem reported_rightly_iff (externals : Externals) (params : SendParams) (rawMessage : Bytes)
    (first second : Peer) :
    ∃ outcome log, sendMessage externals params rawMessage first second = some (outcome, log) ∧
      ((∀ response tls, outcome = .sent response tls → Delivered params rawMessage log) ↔
        ∀ stage code text, .reply stage code text ∈ log →
          stage.expects code = true ∨ ¬(200 ≤ code ∧ code ≤ 399)) := by
  have ends := trySend_ends externals params rawMessage first true
  unfold sendMessage
  rcases tried : trySend externals params rawMessage first true with ⟨result, log⟩
  rw [tried] at ends
  cases result with
  | error error => exact ⟨_, log, rfl, ends.error_iff⟩
  | ok attempt =>
      cases attempt with
      | complete outcome => exact ⟨outcome, log, rfl, ends.outcome_iff⟩
      | opportunisticStartTlsHandshakeFailed =>
          have again := trySend_ends externals params rawMessage second false
          have completes := trySend_completes externals params rawMessage second
          rcases retried : trySend externals params rawMessage second false with ⟨result, later⟩
          rw [retried] at again completes
          cases result with
          | error error => exact ⟨_, later, rfl, again.error_iff⟩
          | ok attempt =>
              cases attempt with
              | complete outcome => exact ⟨outcome, later, rfl, again.outcome_iff⟩
              | opportunisticStartTlsHandshakeFailed => exact absurd rfl completes

/-! ## A server -/

def exampleExternals : Externals where
  toUppercase := Str.toAsciiUppercase
  base64 _ := []
  validServerName _ := true

def exampleParams : SendParams where
  host := "mx.b.example"
  port := 25
  heloHostname := "a.example"
  mailFrom := "s@a.example"
  rcptTo := "r@b.example"
  tlsMode := .acceptAny
  security := .opportunistic
  auth := none
  sourceIp := none

/-- A server that can be reached and sends some lines. -/
def examplePeer (lines : List String) : Peer where
  lookup := .ok [⟨.v4 1, 25⟩]
  connectTo _ := .ok ()
  handshake _ := .error []
  plain := ⟨lines.flatMap (fun line => sendLine line.toList), "connection closed"⟩
  secure := ⟨[], []⟩
  failures := []

/-- A reply in two lines, and every command accepted. -/
def agreeable : Peer := examplePeer
  ["220 mx", "250-mx", "250 SIZE", "250 ok", "250 ok", "354 go on", "250 queued"]

/-- The same, but DATA is answered with 250. -/
def confused : Peer := examplePeer ["220 mx", "250-mx", "250 SIZE", "250 ok", "250 ok", "250 ok"]

def exampleOctets : Bytes := [0x48, 0x69, 0x0A]

example : (sendMessage exampleExternals exampleParams exampleOctets agreeable agreeable).map
    Prod.fst = some (.sent "250 queued" false) := by
  decide +kernel

/-- Whether an entry is a reply to the final dot. -/
def answersDot : Entry → Bool
  | .reply .finalDot _ _ => true
  | _ => false

/-- The message is reported as sent, and nothing of it has been written. -/
theorem sent_without_delivery :
    ∃ log, sendMessage exampleExternals exampleParams exampleOctets confused confused =
        some (.sent "250 ok" false, log) ∧ ¬Delivered exampleParams exampleOctets log := by
  have checked : (sendMessage exampleExternals exampleParams exampleOctets confused confused).any
      (fun sent => decide (sent.1 = .sent "250 ok" false ∧ sent.2.any answersDot = false)) =
        true := by
    decide +kernel
  obtain ⟨⟨outcome, log⟩, sent, facts⟩ := (Option.any_eq_true _ _).mp checked
  obtain ⟨rfl, undotted⟩ := of_decide_eq_true facts
  refine ⟨log, sent, fun delivered => ?_⟩
  obtain ⟨code, text, member, -⟩ := delivered.dotted
  rw [List.any_eq_false] at undotted
  exact undotted _ member rfl

end Camelmailer.Worker.Dialogue
