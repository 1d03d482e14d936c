import Camelmailer.Smtp.Session

/-!
# The message phase and the dispatch of lines

DATA opens the message with trace headers, every following line is appended to it,
and a lone dot between two CRLF line ends closes it. At that point the message is
checked, one record is built for each recipient, and the records are handed to the
sink: one by one, or as a batch when the message carries an idempotency key.

`handle` strips one trailing carriage return, remembers whether there was one, and
passes the line to whatever the session is waiting for.
-/

namespace Camelmailer.Smtp

open Utf8

namespace HeaderMap

def empty : HeaderMap := fun _ => none

def insert (headers : HeaderMap) (key : Text) (values : List Text) : HeaderMap :=
  Function.update headers key (some values)

/-- `entry(key).or_default().push(value)`. -/
def push (headers : HeaderMap) (key value : Text) : HeaderMap :=
  headers.insert key ((headers key).getD [] ++ [value])

/-- Extend the last value under a key, if there is one. -/
def extendLast (headers : HeaderMap) (key line : Text) : HeaderMap :=
  match headers key with
  | none => headers
  | some values => headers.insert key (values.modifyLast (· ++ line))

/-- The values under a key, none if it is absent. -/
def values (headers : HeaderMap) (key : Text) : List Text := (headers key).getD []

end HeaderMap

/-! ## DATA -/

/-- The header lines written in front of a message, as keys and values. -/
def traceHeaders (platform : Platform) (env : Env) (session : Session) : List (Text × Text) :=
  let server := session.credential.bind (fun credential => env.store.server credential.serverId)
  let privacyMode := (server.map (·.privacyMode)).getD false
  let ip := session.ipAddress.getD []
  let resolvedHostname := session.resolvedHostname.getD ip
  let received := receivedHeader platform privacyMode (session.heloName.getD []) resolvedHostname
    ip .smtp session.config.smtpHostname env.now
  let spf := match session.receivedSpf with
    | some value => [("Received-SPF", value)]
    | none => []
  spf ++ [("X-Envelope-From".toList, "<".toList ++ session.mailFrom.getD [] ++ ">".toList),
    ("Received", received)]

/-- A header as it stands in the message. -/
def headerLine (header : Text × Text) : Text := header.1 ++ ": " ++ header.2 ++ "\r\n"

def dataCommand (platform : Platform) (env : Env) (session : Session) : Step :=
  if session.state ≠ .rcptToReceived then
    answer session "503 HELO/EHLO, MAIL FROM and RCPT TO before sending data"
  else
    let trace := traceHeaders platform env session
    let data := encode (trace.flatMap headerLine)
    let headers := trace.foldl (fun headers header =>
      headers.insert (Str.toAsciiLowercase header.1) [header.2]) HeaderMap.empty
    answer { session with
      receivingHeaders := true
      headerKey := none
      clientDataOffset := data.length
      data := some data
      headers := some headers
      inputMode := .data } "354 Go ahead"

/-! ## Message lines -/

/-- Dot-stuffing: a leading `..` becomes `.`. -/
def unstuff (line : Text) : Text :=
  match Str.stripPrefix ".." line with
  | some stripped => '.' :: stripped
  | none => line

/-- The header bookkeeping of one message line. The header map exists while a
message is received; without one, starting a header panics. -/
def receiveHeader (platform : Platform) (session : Session) (line : Text) : Option Session :=
  if line = [] then some { session with receivingHeaders := false }
  else if line.head?.any Str.isWhitespace then
    match session.headerKey with
    | none => some session
    | some key => some { session with
        headers := session.headers.map (fun headers =>
          headers.extendLast (platform.toLowercase key) line) }
  else
    let (key, value) := (splitHeader line).getD (line, [])
    session.headers.map (fun headers => { session with
      headerKey := some key
      headers := some (headers.push (platform.toLowercase key) value) })

/-- Add a line to the message, with a CRLF line end whatever the line's own was. -/
def appendData (session : Session) (line : Text) : Session :=
  { session with data := session.data.map (· ++ encode line ++ Lines.CRLF) }

/-- A message line that does not end the message. -/
def receiveLine (platform : Platform) (session : Session) (line : Text) : Option Step :=
  let line := unstuff line
  (if session.receivingHeaders then receiveHeader platform session line else some session).map
    (fun session => ⟨appendData session line, .none, []⟩)

/-! ## End of DATA -/

def idempotencyHeader : Text := "camelmailer-idempotency-key"

def idempotencyKeyMaxChars : Nat := 256

def octetLower (octet : UInt8) : UInt8 := if 0x41 ≤ octet ∧ octet ≤ 0x5A then octet + 0x20 else octet

/-- Whether a line without its line end is that of the named header. -/
def namesHeader (name content : Bytes) : Bool :=
  (content.takeWhile (· != 0x3A)).map octetLower == name.map octetLower

/-- The lines that remain when a header and its folded lines are removed.
`skipping` holds while the folded lines of the removed header follow. -/
def stripHeaderLines (name : Bytes) : Bool → List Bytes → List Bytes
  | _, [] => []
  | skipping, line :: rest =>
      let content := (Str.stripLast Lines.LF line).getD line
      let content := (Str.stripLast Lines.CR content).getD content
      -- an empty line ends the headers, and everything after it is kept
      if content = [] then line :: rest
      else if content.head? = some 0x20 ∨ content.head? = some 0x09 then
        (if skipping then [] else [line]) ++ stripHeaderLines name skipping rest
      else
        let skipping := namesHeader name content
        (if skipping then [] else [line]) ++ stripHeaderLines name skipping rest

def stripMessageHeader (raw name : Bytes) : Bytes :=
  (stripHeaderLines name false (Lines.splitInclusive raw)).flatten

/-- A length as eight octets, most significant first. -/
def lengthOctets (length : Nat) : Bytes :=
  (List.range 8).map (fun index => UInt8.ofNat (length / 256 ^ (7 - index)))

/-- `smtp_request_hash`: every part is preceded by its length. -/
def smtpRequestHash (platform : Platform) (mailFrom : Text) (recipients : List Recipient)
    (clientData : Bytes) : Text :=
  let part (bytes : Bytes) : Bytes := lengthOctets bytes.length ++ bytes
  sha256Hex platform (part (encode mailFrom) ++ lengthOctets recipients.length ++
    recipients.flatMap (fun recipient => part (encode recipient.rcptTo)) ++ part clientData)

/-- Answer a finished message. The transaction is over. -/
def conclude (session : Session) (text : Text) (calls : List Call) : Step :=
  ⟨{ session.transactionReset with state := .welcomed }, .line text, calls⟩

/-- `find_authenticated_domain`: the From header, then Sender if the server allows
it. The calls end with the one that found a domain. -/
def findAuthenticatedDomain (store : Store) (serverId : Id) (headers : HeaderMap)
    (server : Option Server) : Option Id × List Call :=
  let fromValues := headers.values "from"
  match store.findAuthenticatedDomain serverId fromValues with
  | some domain => (some domain, [.findAuthenticatedDomain serverId fromValues])
  | none =>
      if (server.map (·.allowSender)).getD false then
        let senderValues := headers.values "sender"
        (store.findAuthenticatedDomain serverId senderValues,
          [.findAuthenticatedDomain serverId fromValues,
            .findAuthenticatedDomain serverId senderValues])
      else (none, [.findAuthenticatedDomain serverId fromValues])

/-- The sender check of an authenticated session. The result is none when the
message is refused, and otherwise the domain that authorised it, if one did. -/
def authorizeSender (env : Env) (session : Session) (headers : HeaderMap) :
    Option (Option Id) × List Call :=
  match session.credential with
  | none => (some none, [])
  | some credential =>
      let server := env.store.server credential.serverId
      match findAuthenticatedDomain env.store credential.serverId headers server with
      | (some domain, calls) => (some (some domain), calls)
      | (none, calls) =>
          let fromValues := headers.values "from"
          (if env.store.findConfirmedSenderAddress credential.serverId fromValues then some none
            else none,
            calls ++ [.findConfirmedSenderAddress credential.serverId fromValues])

/-- Whether an idempotency key is one to 256 printable ASCII characters. -/
def validIdempotencyKey (key : Text) : Bool :=
  key != [] && Str.byteLen key ≤ idempotencyKeyMaxChars &&
    (encode key).all (fun octet => 0x20 ≤ octet && octet ≤ 0x7E)

/-- The idempotency key of a message, or the text that refuses it. -/
def idempotencyKey (session : Session) (headers : HeaderMap) : Except Text (Option Text) :=
  match headers idempotencyHeader with
  | none => .ok none
  | some [value] =>
      if session.recipients.any (fun recipient => recipient.kind != .credential) then
        .error "554 CamelMailer-Idempotency-Key is only valid for authenticated sends"
      else if validIdempotencyKey (Str.trim value) then .ok (some (Str.trim value))
      else .error "554 Invalid CamelMailer-Idempotency-Key"
  | some _ => .error "554 Invalid CamelMailer-Idempotency-Key"

/-- The record stored for one recipient. A route recipient carries its route;
without one this panics. -/
def queuedMessage (env : Env) (session : Session) (data : Bytes) (domainId : Option Id)
    (recipient : Recipient) : Option QueuedMessage :=
  let message : QueuedMessage := {
    serverId := recipient.server.id
    rcptTo := recipient.rcptTo
    mailFrom := session.mailFrom.getD []
    rawMessage := data
    receivedWithSsl := session.tls
    scope := .incoming
    bounce := false
    domainId := none
    credentialId := none
    routeId := none
    tag := none
    metadata := none
    streamId := none }
  match recipient.kind with
  | .credential => some { message with
      scope := .outgoing
      domainId := domainId
      credentialId := session.credential.map (·.id) }
  | .bounce =>
      match env.store.returnPathRouteForServer recipient.server.id with
      | some resolved => some { message with
          bounce := true
          domainId := resolved.route.domainId
          routeId := some resolved.route.id }
      | none => some { message with bounce := true }
  | .route => recipient.route.map (fun resolved => { message with
      domainId := resolved.route.domainId
      routeId := some resolved.route.id })

/-- The allowance of a server and its organization, with the usage reads it makes. -/
def serverAllowance (env : Env) (serverId : Id) : SendAllowance × List Call :=
  match env.store.server serverId with
  | none => (.unlimited, [])
  | some server =>
      let serverAllowance := match server.sendLimit with
        | some limit => SendAllowance.server (some limit) (env.store.sendUsage server.id)
        | none => .unlimited
      let policy := env.store.sendPolicyForOrganization server.organizationId
      let orgAllowance := match policy.monthlySendLimit with
        | some limit => SendAllowance.organization (some limit)
            (env.store.organizationMonthUsage server.organizationId)
        | none => .unlimited
      (serverAllowance.stricter orgAllowance,
        (if server.sendLimit.isSome then [.sendUsage server.id] else []) ++
        (if policy.monthlySendLimit.isSome then
          [.organizationMonthUsage server.organizationId] else []))

/-- The allowance a message is accepted under: that of the credential's server. -/
def sendAllowance (env : Env) (session : Session) : SendAllowance × List Call :=
  match session.credential with
  | none => (.unlimited, [])
  | some credential => serverAllowance env credential.serverId

/-- Hand the records to the sink. -/
def deliver (env : Env) (queued : List QueuedMessage) (idempotency : Option IdempotencyRequest)
    (allowance : SendAllowance) : QueueMessagesOutcome × List Call :=
  if idempotency.isSome then
    (env.queueMessages queued idempotency allowance, [.queueMessages queued idempotency allowance])
  else if !allowance.allows (outgoingCount queued) then
    (.limitExceeded allowance.rejectionMessage, [])
  else (.stored, queued.map .queueMessage)

def outcomeReply : QueueMessagesOutcome → Text
  | .stored => "250 OK"
  | .replayed => "250 OK"
  | .conflict => "554 Idempotency key reused with a different request"
  | .limitExceeded message => "550 5.7.1 " ++ message
  | .failed _ => "451 Temporary storage failure"

/-- The message as it is stored. The idempotency key is not part of it. -/
def storedData (session : Session) (key : Option Text) : Bytes :=
  let data := session.data.getD []
  if key.isSome then stripMessageHeader data (encode idempotencyHeader) else data

/-- The request that an idempotency key stands for. -/
def idempotencyRequest (platform : Platform) (env : Env) (session : Session) (data : Bytes)
    (key : Text) : IdempotencyRequest where
  keyHash := sha256Hex platform (encode key)
  requestHash := smtpRequestHash platform (session.mailFrom.getD []) session.recipients
    (data.drop (min session.clientDataOffset data.length))
  operation := "smtp.send"
  expiresAt := env.now + hours 24

/-- The last part of `finish_data`: the message is accepted in principle, and the
records are built and handed over. -/
def storeMessage (platform : Platform) (env : Env) (session : Session) (domainId : Option Id)
    (key : Option Text) (calls : List Call) : Option Step :=
  let data := storedData session key
  (session.recipients.mapM (queuedMessage env session data domainId)).map (fun queued =>
    let allowance := sendAllowance env session
    let outcome := deliver env queued (key.map (idempotencyRequest platform env session data))
      allowance.1
    conclude session (outcomeReply outcome.1) (calls ++ allowance.2 ++ outcome.2))

/-- Whether a message exceeds the configured size. The product is that of `u64`. -/
def tooLarge (session : Session) : Bool :=
  (session.data.getD []).length > session.config.maxMessageSize * 1024 * 1024 % 2 ^ 64

/-- Whether this server already stands in more than four Received headers. -/
def looping (session : Session) (headers : HeaderMap) : Bool :=
  (headers.values "received").countP (fun value =>
    Str.contains value ("by " ++ session.config.smtpHostname)) > 4

def finishData (platform : Platform) (env : Env) (session : Session) : Option Step :=
  let headers := session.headers.getD HeaderMap.empty
  if tooLarge session then
    some (conclude session ("552 Message too large (maximum size " ++
      decimal session.config.maxMessageSize ++ "MB)") [])
  else if looping session headers then some (conclude session "550 Loop detected" [])
  else match authorizeSender env session headers with
    | (none, calls) => some (conclude session "530 From/Sender name is not valid" calls)
    | (some domainId, calls) =>
      match idempotencyKey session headers with
      | .error text => some (conclude session text calls)
      | .ok key => storeMessage platform env session domainId key calls

/-! ## Dispatch -/

/-- Whether a message line ends the message. -/
def endsData (session : Session) (line : Text) : Bool :=
  line == ['.'] && session.crPresent && session.previousCrPresent == some true

def dataLine (platform : Platform) (env : Env) (session : Session) (line : Text) : Option Step :=
  if endsData session line then finishData platform env { session with inputMode := .command }
  else receiveLine platform session line

def handleCommand (platform : Platform) (env : Env) (session : Session) (data : Text) :
    Option Step :=
  match Command.recognize data with
  | .quit => some (quit session)
  | .starttls => some (starttls session)
  | .ehlo => some (ehlo session data)
  | .helo => some (helo session data)
  | .rset => some (rset session)
  | .noop => some (noop session)
  | .auth mechanism =>
      if !session.authPermitted then
        some (answer session
          "538 5.7.11 Encryption required for requested authentication mechanism")
      else match mechanism with
        | .plain => authPlain platform env session data
        | .login => authLogin session data
        | .cramMd5 => some (authCramMd5 platform env session)
        | .other => some (answer session "504 5.5.4 Unrecognized authentication type")
  | .mailFrom => mailFromCommand session data
  | .rcptTo => rcptTo platform env session data
  | .data => some (dataCommand platform env session)
  | .unknown => some (answer session "502 Invalid/unsupported command")

/-- The reaction of whatever the session waits for. -/
def dispatch (platform : Platform) (env : Env) (session : Session) (data : Text) : Option Step :=
  if session.state = .preauth then some (proxy session data)
  else match session.inputMode with
    | .command => handleCommand platform env session data
    | .authPlain => some (authPlainContinue platform env session data)
    | .authLoginUsername => some (authLoginUsername session)
    | .authLoginPassword => some (authLoginPassword platform env session data)
    | .authCramMd5 challenge => some (authCramMd5Continue platform env session data challenge)
    | .data => dataLine platform env session data

/-- A line without its trailing carriage return. -/
def chomp (line : Text) : Text := (Str.stripLast '\r' line).getD line

/-- Whether a line had a trailing carriage return. -/
def hasCr (line : Text) : Bool := line.getLast? == some '\r'

/-- Remember how the line that has just been handled ended. -/
def recordLineEnd (step : Step) : Step :=
  { step with session :=
      { step.session with previousCrPresent := some step.session.crPresent } }

/-- `Session::handle`: one line, without its line feed. -/
def handle (platform : Platform) (env : Env) (session : Session) (line : Text) : Option Step :=
  (dispatch platform env { session with crPresent := hasCr line } (chomp line)).map recordLineEnd

end Camelmailer.Smtp
