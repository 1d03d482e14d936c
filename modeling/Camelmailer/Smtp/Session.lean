import Camelmailer.Core.Message
import Camelmailer.Core.Store
import Camelmailer.Core.TraceHeaders
import Mathlib.Logic.Function.Basic

/-!
# The SMTP session state machine

`Session` is the state of one connection and `handle` its reaction to one line of
input, as in `camelmailer-smtp/src/session.rs`. A reaction has three parts: the
next session, the reply, and the calls made on the store and the message sink.
`none` is a panic, which ends the connection.

A line is handled against an `Env`: the content of the database at that moment,
the clock, a fresh random token, and the sink's answer to a batch. Environments of
different lines are unrelated, so other processes may change the database between
any two lines. Plain reads of servers, routes and policies are answered by the
store alone; the calls recorded are those that authenticate, authorise, count or
store.

A collection that is only looked up by key is a function. The random trace id of
the banner is a parameter of `new`.
-/

namespace Camelmailer.Smtp

open Utf8

/-- The runtime configuration a session needs. -/
structure SessionConfig where
  smtpHostname : Text
  tlsEnabled : Bool
  authRequiresTls : Bool
  /-- In megabytes. -/
  maxMessageSize : Nat
  returnPathDomain : Text
  customReturnPathPrefix : Text
  routeDomain : Text
deriving DecidableEq

inductive State where
  | preauth
  | welcome
  | welcomed
  | mailFromReceived
  | rcptToReceived
deriving DecidableEq

/-- The reply to one line: nothing inside a message, a line, or several lines that
already carry their prefixes. -/
inductive Reply where
  | none
  | line (text : Text)
  | lines (texts : List Text)
deriving DecidableEq

inductive RecipientKind where
  | bounce
  | route
  | credential
deriving DecidableEq

structure Recipient where
  kind : RecipientKind
  rcptTo : Text
  server : Server
  route : Option ResolvedRoute
deriving DecidableEq

/-- What the next line continues. -/
inductive InputMode where
  | command
  | authPlain
  | authLoginUsername
  | authLoginPassword
  | authCramMd5 (challenge : Text)
  | data
deriving DecidableEq

/-- Header values by lowercased key. -/
abbrev HeaderMap := Text → Option (List Text)

structure Session where
  config : SessionConfig
  state : State
  inputMode : InputMode
  traceId : Text
  ipAddress : Option Text
  resolvedHostname : Option Text
  receivedSpf : Option Text
  heloName : Option Text
  tls : Bool
  startTls : Bool
  finished : Bool
  credential : Option Credential
  recipients : List Recipient
  mailFrom : Option Text
  data : Option Bytes
  clientDataOffset : Nat
  headers : Option HeaderMap
  receivingHeaders : Bool
  headerKey : Option Text
  crPresent : Bool
  previousCrPresent : Option Bool

/-- The calls on the store and the sink that authenticate, authorise, count or
store, each with its arguments. -/
inductive Call where
  | findSmtpCredentialByKey (key : Text)
  | compareCramMd5 (credentialId : Id)
  | findIpCredential (ip : IpAddr)
  | recordCredentialUse (credentialId : Id)
  | findAuthenticatedDomain (serverId : Id) (values : List Text)
  | findConfirmedSenderAddress (serverId : Id) (values : List Text)
  | sendUsage (serverId : Id)
  | organizationMonthUsage (organizationId : Id)
  | queueMessage (message : QueuedMessage)
  | queueMessages (messages : List QueuedMessage) (idempotency : Option IdempotencyRequest)
      (allowance : SendAllowance)
deriving DecidableEq

/-- The world one line is handled in. -/
structure Env where
  store : Store
  now : DateTime
  /-- `token::generate_hex(20)`. -/
  randomHex : Text
  /-- The sink's answer to a batch. -/
  queueMessages : List QueuedMessage → Option IdempotencyRequest → SendAllowance →
    QueueMessagesOutcome
  /-- `evaluate_spf` of a domain against a client address, with the DNS answers of
  the moment. -/
  evaluateSpf : Text → IpAddr → SpfResult

/-- The reaction to one line. -/
structure Step where
  session : Session
  reply : Reply
  calls : List Call

/-- A reaction that only answers. -/
def answer (session : Session) (text : Text) : Step := ⟨session, .line text, []⟩

namespace Session

/-- `Session::new`. Without a client address the session waits for a PROXY line. -/
def new (platform : Platform) (config : SessionConfig) (traceId : Text)
    (ipAddress : Option Text) : Session where
  config := { config with
    returnPathDomain := (normalizeDnsDomainName platform config.returnPathDomain).getD []
    customReturnPathPrefix := Str.toAsciiLowercase config.customReturnPathPrefix }
  state := if ipAddress.isSome then .welcome else .preauth
  inputMode := .command
  traceId := traceId
  ipAddress := ipAddress
  resolvedHostname := none
  receivedSpf := none
  heloName := none
  tls := false
  startTls := false
  finished := false
  credential := none
  recipients := []
  mailFrom := none
  data := none
  clientDataOffset := 0
  headers := none
  receivingHeaders := false
  headerKey := none
  crPresent := false
  previousCrPresent := none

def banner (session : Session) : Text :=
  "220 " ++ session.config.smtpHostname ++ " ESMTP Camelmailer/" ++ session.traceId

def transactionReset (session : Session) : Session :=
  { session with
    recipients := []
    mailFrom := none
    data := none
    clientDataOffset := 0
    headers := none }

/-- Whether an AUTH command may start on this connection. -/
def authPermitted (session : Session) : Bool :=
  session.tls || !session.config.tlsEnabled || !session.config.authRequiresTls

end Session

/-! ## Text helpers -/

/-- Strip a command word from a line, ignoring ASCII case. The slice is taken at
the byte length of the word, and panics where that is inside a character. -/
def stripPrefixCi (data word : Text) : Option Text :=
  if Str.byteLen data ≥ Str.byteLen word then
    (Str.splitAtByte (Str.byteLen word) data).map (fun parts =>
      if Str.eqIgnoreAsciiCase parts.1 word then parts.2 else data)
  else some data

/-- The address of a `MAIL FROM:` or `RCPT TO:` line: the command word and an
optional colon are removed, then everything up to the last `<` and from the first
`>` on. -/
def extractAddress (data command : Text) : Option Text := do
  let rest ← stripPrefixCi data command
  let trimmed := Str.trimStart rest
  let rest := Str.trimStart ((Str.stripPrefix [':'] trimmed).getD trimmed)
  let rest := ((Str.rsplitOnce '<' rest).map Prod.snd).getD rest
  let rest := ((Str.splitOnce '>' rest).map Prod.fst).getD rest
  some (Str.trim rest)

/-- `split_header`: a header line at its first colon. -/
def splitHeader (line : Text) : Option (Text × Text) :=
  (Str.splitOnce ':' line).map (fun parts => (parts.1, Str.trimStart parts.2))

/-- `decode64_lenient`: characters outside the alphabet are skipped, and what then
does not decode is empty. -/
def decode64Lenient (platform : Platform) (input : Text) : Bytes :=
  (platform.base64Decode (input.filter (fun char =>
    char.isAlphanum || char == '+' || char == '/' || char == '='))).getD []

/-- The name after the first blank of a HELO or EHLO line. -/
def heloArgument (data : Text) : Option Text :=
  (Str.splitOnce ' ' (Str.trim data)).map Prod.snd

/-! ## Commands -/

inductive Mechanism where
  | plain
  | login
  | cramMd5
  | other
deriving DecidableEq

inductive Command where
  | quit
  | starttls
  | ehlo
  | helo
  | rset
  | noop
  | auth (mechanism : Mechanism)
  | mailFrom
  | rcptTo
  | data
  | unknown
deriving DecidableEq

/-- Recognise a command on the trimmed and upper-cased copy of the line, in the
order in which `handle_command` tests the words. -/
def Command.recognize (data : Text) : Command :=
  let upper := Str.toAsciiUppercase (Str.trimStart data)
  if Str.startsWith upper "QUIT" then .quit
  else if Str.startsWith upper "STARTTLS" then .starttls
  else if Str.startsWith upper "EHLO" then .ehlo
  else if Str.startsWith upper "HELO" then .helo
  else if Str.startsWith upper "RSET" then .rset
  else if Str.startsWith upper "NOOP" then .noop
  else if Str.startsWith upper "AUTH " || Str.trimEnd upper == "AUTH" then
    .auth (if Str.startsWith upper "AUTH PLAIN" then .plain
      else if Str.startsWith upper "AUTH LOGIN" then .login
      else if Str.startsWith upper "AUTH CRAM-MD5" then .cramMd5
      else .other)
  else if Str.startsWith upper "MAIL FROM" then .mailFrom
  else if Str.startsWith upper "RCPT TO" then .rcptTo
  else if Str.startsWith upper "DATA" then .data
  else .unknown

/-! ## Connection commands -/

/-- `PROXY inet-protocol client-ip proxy-ip client-port proxy-port`. -/
def proxy (session : Session) (data : Text) : Step :=
  match data.splitOn ' ' with
  | [word, protocol, client, proxyIp, clientPort, proxyPort] =>
      if word = "PROXY" ∧
          [word, protocol, client, proxyIp, clientPort, proxyPort].all (· != []) then
        let session := { session with ipAddress := some client, state := .welcome }
        ⟨session, .line session.banner, []⟩
      else answer { session with finished := true } "502 Proxy Error"
  | _ => answer { session with finished := true } "502 Proxy Error"

def quit (session : Session) : Step :=
  answer { session with finished := true } "221 Closing Connection"

def starttls (session : Session) : Step :=
  if session.config.tlsEnabled then
    answer { session with startTls := true, tls := true } "220 Ready to start TLS"
  else answer session "502 TLS not available"

/-- Every line of the EHLO reply continues the reply except the last one. -/
def frameCapabilities (lines : List Text) : List Text :=
  lines.mapIdx (fun index line =>
    (if index = lines.length - 1 then "250 ".toList else "250-".toList) ++ line)

def ehlo (session : Session) (data : Text) : Step :=
  let session := { session with heloName := heloArgument data }
  let session := { session.transactionReset with state := .welcomed }
  let capabilities :=
    (if session.config.tlsEnabled && !session.tls then ["STARTTLS".toList] else []) ++
    (if session.authPermitted then ["AUTH PLAIN LOGIN".toList] else [])
  ⟨session, .lines (frameCapabilities ("My capabilities are".toList :: capabilities)), []⟩

def helo (session : Session) (data : Text) : Step :=
  let session := { session with heloName := heloArgument data }
  let session := { session.transactionReset with state := .welcomed }
  answer session ("250 " ++ session.config.smtpHostname)

def rset (session : Session) : Step :=
  answer { session.transactionReset with state := .welcomed } "250 OK"

def noop (session : Session) : Step := answer session "250 OK"

/-! ## Authentication -/

/-- The text that names whose mail a credential may send. -/
def grantMessage (store : Store) (credential : Credential) : Text :=
  let server := store.server credential.serverId
  let organization := server.bind (fun server => store.organization server.organizationId)
  "235 Granted for " ++ (organization.map (·.permalink)).getD [] ++ "/" ++
    (server.map (·.permalink)).getD []

def authenticate (env : Env) (session : Session) (password : Text) : Step :=
  match env.store.findSmtpCredentialByKey password with
  | some credential =>
      ⟨{ session with credential := some credential }, .line (grantMessage env.store credential),
        [.findSmtpCredentialByKey password, .recordCredentialUse credential.id]⟩
  | none => ⟨session, .line "535 Invalid credential", [.findSmtpCredentialByKey password]⟩

/-- The password of a PLAIN response: the last of at least two parts. -/
def plainPassword (platform : Platform) (data : Text) : Option Text :=
  let parts := (fromUtf8Lossy (decode64Lenient platform data)).splitOn '\x00'
  if parts.length < 2 then none else some (parts.getLastD [])

def authPlainContinue (platform : Platform) (env : Env) (session : Session) (data : Text) : Step :=
  let session := { session with inputMode := .command }
  match plainPassword platform data with
  | none => answer session "535 Authenticated failed - protocol error"
  | some password => authenticate env session password

/-- The password of a LOGIN response. -/
def loginPassword (platform : Platform) (data : Text) : Text :=
  fromUtf8Lossy (decode64Lenient platform data)

/-- The argument of an AUTH command, after at most one blank. -/
def authArgument (data word : Text) : Option Text :=
  (stripPrefixCi data word).map (fun rest => (Str.stripPrefix [' '] rest).getD rest)

def authPlain (platform : Platform) (env : Env) (session : Session) (data : Text) : Option Step :=
  (authArgument data "AUTH PLAIN").map (fun rest =>
    if Str.trim rest = [] then answer { session with inputMode := .authPlain } "334"
    else authPlainContinue platform env session rest)

def authLoginUsername (session : Session) : Step :=
  answer { session with inputMode := .authLoginPassword } "334 UGFzc3dvcmQ6"

def authLogin (session : Session) (data : Text) : Option Step :=
  (authArgument data "AUTH LOGIN").map (fun rest =>
    if Str.trim rest = [] then
      answer { session with inputMode := .authLoginUsername } "334 VXNlcm5hbWU6"
    else authLoginUsername session)

def authLoginPassword (platform : Platform) (env : Env) (session : Session) (data : Text) : Step :=
  authenticate env { session with inputMode := .command } (loginPassword platform data)

def authCramMd5 (platform : Platform) (env : Env) (session : Session) : Step :=
  let challenge := "<" ++ env.randomHex ++ "@" ++ session.config.smtpHostname ++
    ">"
  answer { session with inputMode := .authCramMd5 challenge }
    ("334 " ++ platform.base64Encode (encode challenge))

/-- Compare a response with that of each credential until one matches. -/
def matchCramMd5 (platform : Platform) (challenge response : Text) :
    List Credential → Option Credential × List Call
  | [] => (none, [])
  | credential :: rest =>
      if response = hex (platform.hmacMd5 (encode credential.key) (encode challenge)) then
        (some credential, [.compareCramMd5 credential.id])
      else
        let later := matchCramMd5 platform challenge response rest
        (later.1, .compareCramMd5 credential.id :: later.2)

/-- A text without the line ends it may carry. -/
def trimLineEnd (text : Text) : Text := text.rdropWhile (fun char => char == '\r' || char == '\n')

/-- The organization and server permalinks of a CRAM-MD5 user name. -/
def splitPermalinks (username : Text) : Text × Text :=
  let front := username.takeWhile (fun char => !(char == '/' || char == '_'))
  (front, username.drop (front.length + 1))

/-- The credential a CRAM-MD5 response proves, with the comparisons made. -/
def cramMd5Credential (platform : Platform) (store : Store) (data challenge : Text) :
    Option Credential × List Call :=
  let decoded := fromUtf8Lossy (decode64Lenient platform data)
  let parts := (Str.splitOnce ' ' decoded).getD (decoded, [])
  let username := trimLineEnd parts.1
  let password := trimLineEnd parts.2
  let permalinks := splitPermalinks username
  match store.findServerByPermalinks permalinks.1 permalinks.2 with
  | none => (none, [])
  | some server =>
      matchCramMd5 platform challenge password (store.smtpCredentialsForServer server.id)

def authCramMd5Continue (platform : Platform) (env : Env) (session : Session)
    (data challenge : Text) : Step :=
  let session := { session with inputMode := .command }
  match cramMd5Credential platform env.store data challenge with
  | (some credential, calls) =>
      ⟨{ session with credential := some credential }, .line (grantMessage env.store credential),
        calls ++ [.recordCredentialUse credential.id]⟩
  | (none, calls) => ⟨session, .line "535 Denied", calls⟩

/-! ## The envelope -/

/-- A MAIL FROM line without its AUTH= parameter and what follows that. -/
def senderLine (data : Text) : Text := ((Str.before "AUTH=" data).map Str.trimEnd).getD data

def mailFromCommand (session : Session) (data : Text) : Option Step :=
  if session.state = .welcomed ∨ session.state = .mailFromReceived then
    let session := { session with state := .mailFromReceived }
    let session := session.transactionReset
    (extractAddress (senderLine data) "MAIL FROM").map (fun address =>
      answer { session with mailFrom := some address } "250 OK")
  else some (answer session "503 EHLO/HELO first please")

/-- Whether a domain receives bounces for the return path. -/
def isReturnPath (platform : Platform) (config : SessionConfig) (domain : Text) : Bool :=
  (normalizeDnsDomainName platform domain).any (fun domain =>
    (config.returnPathDomain != [] && domain == config.returnPathDomain) ||
      Str.startsWith domain (config.customReturnPathPrefix ++ ['.']))

/-- A recipient is accepted by recording it. -/
def acceptRecipient (session : Session) (recipient : Recipient) : Step :=
  answer { session with recipients := session.recipients ++ [recipient] } "250 OK"

def suspendedText : Text := "535 Mail server has been suspended"

/-- A recipient at the return path domain names a server by its token. -/
def rcptReturnPath (env : Env) (session : Session) (rcptTo uname : Text) : Step :=
  let session := { session with state := .rcptToReceived }
  match env.store.findServerByToken uname with
  | some server =>
      if server.suspended then answer session suspendedText
      else acceptRecipient session ⟨.bounce, rcptTo, server, none⟩
  | none => answer session "550 Invalid server token"

/-- A recipient at the route domain names a route by its token. The recipient
recorded is the route's own address. -/
def rcptRouteToken (env : Env) (session : Session) (uname : Text) (tag : Option Text) : Step :=
  let session := { session with state := .rcptToReceived }
  match env.store.findRouteByToken uname with
  | some resolved =>
      if resolved.server.suspended then answer session suspendedText
      else if resolved.route.mode = .reject then
        answer session "550 Route does not accept incoming messages"
      else
        let actualRcptTo := resolved.route.name ++ ((tag.map ('+' :: ·)).getD []) ++ "@" ++
          resolved.domainName
        acceptRecipient session ⟨.route, actualRcptTo, resolved.server, some resolved⟩
  | none => answer session "550 Invalid route token"

/-- Outgoing mail of an authenticated client. -/
def rcptCredential (env : Env) (session : Session) (credential : Credential) (rcptTo : Text) :
    Step :=
  let session := { session with state := .rcptToReceived }
  match env.store.server credential.serverId with
  | some server =>
      if server.suspended then answer session suspendedText
      else if (env.store.sendPolicyForOrganization server.organizationId).suspended then
        answer session "535 Organization has been suspended"
      else acceptRecipient session ⟨.credential, rcptTo, server, none⟩
  | none => answer session suspendedText

/-- Incoming mail for a route, by name and domain. -/
def rcptRoute (session : Session) (resolved : ResolvedRoute) (rcptTo : Text) : Step :=
  let session := { session with state := .rcptToReceived }
  if resolved.server.suspended then answer session suspendedText
  else if resolved.route.mode = .reject then
    answer session "550 Route does not accept incoming messages"
  else acceptRecipient session ⟨.route, rcptTo, resolved.server, some resolved⟩

/-- The user name and tag of a local part. -/
def splitTag (uname : Text) : Text × Option Text :=
  match Str.splitOnce '+' uname with
  | some (uname, tag) => (uname, some tag)
  | none => (uname, none)

/-- The last resort of a client without a credential: one that belongs to its
address. `retry` answers the line again for the session that holds it. -/
def rcptByAddress (platform : Platform) (env : Env) (retry : Session → Option Step)
    (session : Session) : Option Step :=
  match session.ipAddress.bind platform.parseIp with
  | none => some (answer session "530 Authentication required")
  | some ip =>
      match env.store.findIpCredential ip with
      | none => some ⟨session, .line "530 Authentication required", [.findIpCredential ip]⟩
      | some credential =>
          (retry { session with credential := some credential }).map (fun step =>
            { step with calls :=
                [.findIpCredential ip, .recordCredentialUse credential.id] ++ step.calls })

/-- Find out what kind of recipient an address is. -/
def rcptAddress (platform : Platform) (env : Env) (retry : Session → Option Step)
    (session : Session) (rcptTo localPart domain : Text) : Option Step :=
  let (uname, tag) := splitTag localPart
  if isReturnPath platform session.config domain then
    some (rcptReturnPath env session rcptTo uname)
  else if domain = session.config.routeDomain then some (rcptRouteToken env session uname tag)
  else match session.credential with
    | some credential => some (rcptCredential env session credential rcptTo)
    | none =>
        match env.store.findRouteByNameAndDomain uname domain with
        | some resolved => some (rcptRoute session resolved rcptTo)
        | none => rcptByAddress platform env retry session

/-- One pass of `rcpt_to`. `retry` is the recursive call made once a client has
been authenticated by its address. -/
def rcptToOnce (platform : Platform) (env : Env) (retry : Session → Option Step)
    (session : Session) (data : Text) : Option Step :=
  if session.state = .mailFromReceived ∨ session.state = .rcptToReceived then
    (extractAddress data "RCPT TO").bind (fun rcptTo =>
      if rcptTo = [] then some (answer session "501 RCPT TO should not be empty")
      else match Str.splitOnce '@' rcptTo with
        | none => some (answer session "501 Invalid RCPT TO")
        | some (localPart, domain) =>
            if domain = [] then some (answer session "501 Invalid RCPT TO")
            else rcptAddress platform env retry session rcptTo localPart domain)
  else some (answer session "503 EHLO/HELO and MAIL FROM first please")

/-- `rcpt_to`. The recursion is one deep, since a session that holds a credential
does not look for one again. -/
def rcptTo (platform : Platform) (env : Env) (session : Session) (data : Text) : Option Step :=
  rcptToOnce platform env
    (fun authenticated => rcptToOnce platform env (fun _ => none) authenticated data) session data

end Camelmailer.Smtp
