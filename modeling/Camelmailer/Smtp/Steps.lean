import Camelmailer.Machine
import Camelmailer.Smtp.Conclusion

/-!
# What one line can do to a session

`Reaction` lists, once, every effect a line can have: which fields of the session
change, what is answered, and which calls are made. The properties of whole runs are
case analyses over it. A run of a session is a run of the machine `sessionStep`,
whose inputs are lines, each with the environment it is handled in.
-/

namespace Camelmailer.Smtp

open Utf8

/-- A line and the world it is handled in. -/
structure LineInput where
  env : Env
  line : Text

/-- What a line brings about outside the session. -/
structure Response where
  reply : Reply
  calls : List Call

/-- One reaction of a session. -/
def sessionStep (platform : Platform) (session : Session) (input : LineInput) :
    Option (Response × Session) :=
  (handle platform input.env session input.line).map (fun step =>
    (⟨step.reply, step.calls⟩, step.session))

/-- One line of a run, with the sessions before and after it. -/
abbrev LineEvent := Machine.Event Session LineInput Response

/-- The command a line is recognised as, if the session waits for a command. -/
def commandOf (session : Session) (data : Text) : Option Command :=
  if session.state = .preauth then none
  else match session.inputMode with
    | .command => some (Command.recognize data)
    | _ => none

variable {command : Command} {session : Session} {data : Text}

theorem commandOf_inputMode (recognized : commandOf session data = some command) :
    session.inputMode = .command := by
  unfold commandOf at recognized
  split at recognized
  · cases recognized
  · split at recognized
    · assumption
    · cases recognized

theorem commandOf_recognize (recognized : commandOf session data = some command) :
    Command.recognize data = command := by
  unfold commandOf at recognized
  split at recognized
  · cases recognized
  · split at recognized
    · exact Option.some.inj recognized
    · cases recognized

theorem commandOf_preauth (data : Text) (waiting : session.state = .preauth) :
    commandOf session data = none := by
  unfold commandOf
  rw [if_pos waiting]

theorem commandOf_mode (data : Text) (mode : session.inputMode ≠ .command) :
    commandOf session data = none := by
  cases recognized : commandOf session data with
  | none => rfl
  | some command => exact absurd (commandOf_inputMode recognized) mode

/-! ## Authentication -/

/-- Whether a line is the last one of an AUTH exchange. -/
def completesAuth (session : Session) (data : Text) : Prop :=
  (commandOf session data = some (.auth .plain) ∧ session.authPermitted = true) ∨
    (session.state ≠ .preauth ∧ (session.inputMode = .authPlain ∨
      session.inputMode = .authLoginPassword ∨
      ∃ challenge, session.inputMode = .authCramMd5 challenge))

/-- The credential that the store knows for what the client presents with a line. -/
def presented (platform : Platform) (env : Env) (session : Session) (data : Text) :
    Option Credential :=
  if session.state = .preauth then none
  else match session.inputMode with
    | .command =>
        if Command.recognize data = .auth .plain ∧ session.authPermitted = true then
          ((authArgument data "AUTH PLAIN").filter (fun rest => Str.trim rest != [])).bind
            (fun rest => (plainPassword platform rest).bind env.store.findSmtpCredentialByKey)
        else none
    | .authPlain => (plainPassword platform data).bind env.store.findSmtpCredentialByKey
    | .authLoginPassword => env.store.findSmtpCredentialByKey (loginPassword platform data)
    | .authCramMd5 challenge => (cramMd5Credential platform env.store data challenge).1
    | _ => none

/-- The end of an AUTH exchange: the client holds the credential found, or what it
held before. -/
inductive Authenticated (session : Session) (found : Option Credential) : Step → Prop
  | denied (text : Text) (calls : List Call) (missing : found = none)
      (lookups : ∀ call ∈ calls, call.authenticates = true) :
      Authenticated session found
        ⟨{ session with inputMode := .command }, .line text, calls⟩
  | granted (credential : Credential) (text : Text) (calls : List Call)
      (known : found = some credential) (lookups : ∀ call ∈ calls, call.authenticates = true) :
      Authenticated session found
        ⟨{ session with inputMode := .command, credential := some credential }, .line text, calls⟩

theorem authenticate_authenticated (env : Env) (session : Session) (password : Text) :
    Authenticated session (env.store.findSmtpCredentialByKey password)
      (authenticate env { session with inputMode := .command } password) := by
  unfold authenticate
  cases known : env.store.findSmtpCredentialByKey password with
  | none => exact .denied _ _ rfl (by simp [Call.authenticates])
  | some credential => exact .granted credential _ _ rfl (by simp [Call.authenticates])

theorem authPlainContinue_authenticated (platform : Platform) (env : Env) (session : Session)
    (data : Text) :
    Authenticated session ((plainPassword platform data).bind env.store.findSmtpCredentialByKey)
      (authPlainContinue platform env session data) := by
  unfold authPlainContinue
  cases plainPassword platform data with
  | none => exact .denied _ _ rfl (by simp)
  | some password => exact authenticate_authenticated env session password

theorem matchCramMd5_calls (platform : Platform) (challenge response : Text)
    (credentials : List Credential) :
    ∀ call ∈ (matchCramMd5 platform challenge response credentials).2,
      call.authenticates = true := by
  induction credentials with
  | nil => simp [matchCramMd5]
  | cons credential rest ih =>
      unfold matchCramMd5
      split
      · simp [Call.authenticates]
      · simpa [Call.authenticates] using ih

theorem cramMd5Credential_calls (platform : Platform) (store : Store) (data challenge : Text) :
    ∀ call ∈ (cramMd5Credential platform store data challenge).2, call.authenticates = true := by
  unfold cramMd5Credential
  dsimp only
  split
  · simp
  · exact matchCramMd5_calls platform challenge _ _

theorem authCramMd5Continue_authenticated (platform : Platform) (env : Env) (session : Session)
    (data challenge : Text) :
    Authenticated session (cramMd5Credential platform env.store data challenge).1
      (authCramMd5Continue platform env session data challenge) := by
  have lookups := cramMd5Credential_calls platform env.store data challenge
  unfold authCramMd5Continue
  generalize cramMd5Credential platform env.store data challenge = outcome at lookups ⊢
  obtain ⟨found, calls⟩ := outcome
  cases found with
  | none => exact .denied _ _ rfl lookups
  | some credential =>
      refine .granted credential _ _ rfl ?_
      intro call member
      rcases List.mem_append.mp member with earlier | last
      · exact lookups call earlier
      · rw [List.mem_singleton.mp last]; rfl

/-! ## Recipients -/

/-- The address of an RCPT TO line and its two halves. -/
def Addressed (data address localPart domain : Text) : Prop :=
  extractAddress data "RCPT TO" = some address ∧
    Str.splitOnce '@' address = some (localPart, domain)

/-- A domain that is neither a return path nor the one for route tokens. -/
def Elsewhere (platform : Platform) (config : SessionConfig) (domain : Text) : Prop :=
  isReturnPath platform config domain = false ∧ domain ≠ config.routeDomain

/-- The recipient an RCPT TO line designates: a server's bounce address, a route by
its token, an address the client's own server sends to, or a route by its name. -/
inductive Designates (platform : Platform) (env : Env) (session : Session) (data : Text) :
    Recipient → Prop
  | bounce {address localPart domain : Text} {server : Server}
      (named : Addressed data address localPart domain)
      (returnPath : isReturnPath platform session.config domain = true)
      (token : env.store.findServerByToken (splitTag localPart).1 = some server)
      (active : server.suspended = false) :
      Designates platform env session data ⟨.bounce, address, server, none⟩
  | routeToken {address localPart domain : Text} {resolved : ResolvedRoute}
      (named : Addressed data address localPart domain)
      (foreign : isReturnPath platform session.config domain = false)
      (direct : domain = session.config.routeDomain)
      (token : env.store.findRouteByToken (splitTag localPart).1 = some resolved)
      (active : resolved.server.suspended = false) (open_ : resolved.route.mode ≠ .reject) :
      Designates platform env session data
        ⟨.route, resolved.route.name ++ (((splitTag localPart).2.map ('+' :: ·)).getD []) ++
          "@" ++ resolved.domainName, resolved.server, some resolved⟩
  | submission {address localPart domain : Text} {credential : Credential} {server : Server}
      (named : Addressed data address localPart domain)
      (elsewhere : Elsewhere platform session.config domain)
      (held : session.credential = some credential)
      (known : env.store.server credential.serverId = some server)
      (active : server.suspended = false)
      (permitted : (env.store.sendPolicyForOrganization server.organizationId).suspended = false) :
      Designates platform env session data ⟨.credential, address, server, none⟩
  | route {address localPart domain : Text} {resolved : ResolvedRoute}
      (named : Addressed data address localPart domain)
      (elsewhere : Elsewhere platform session.config domain)
      (anonymous : session.credential = none)
      (found : env.store.findRouteByNameAndDomain (splitTag localPart).1 domain = some resolved)
      (active : resolved.server.suspended = false) (open_ : resolved.route.mode ≠ .reject) :
      Designates platform env session data
        ⟨.route, address, resolved.server, some resolved⟩

/-- The answer to an RCPT TO line, once the client's credential is settled. -/
inductive Enveloped (platform : Platform) (env : Env) (session : Session) (data : Text) :
    Step → Prop
  | refused (state : State) (text : Text)
      (reached : state = session.state ∨ state = .rcptToReceived)
      (unaccepted : .line text ≠ accepted) :
      Enveloped platform env session data ⟨{ session with state := state }, .line text, []⟩
  | recorded (recipient : Recipient) (designated : Designates platform env session data recipient) :
      Enveloped platform env session data
        ⟨{ session with state := .rcptToReceived, recipients := session.recipients ++ [recipient] },
          accepted, []⟩

/-- The look for a credential of the client's address, made for a client that holds
none. It settles the session the recipient is judged in. -/
inductive AddressChecked (platform : Platform) (env : Env) (session : Session) :
    Session → List Call → Prop
  | unneeded : AddressChecked platform env session session []
  | unknown (ip : IpAddr) (anonymous : session.credential = none) :
      AddressChecked platform env session session [.findIpCredential ip]
  | known (ip : IpAddr) (credential : Credential) (anonymous : session.credential = none)
      (found : env.store.findIpCredential ip = some credential) :
      AddressChecked platform env session { session with credential := some credential }
        [.findIpCredential ip, .recordCredentialUse credential.id]

/-- Only the look for a credential calls the store in a way that is recorded. -/
theorem Enveloped.quiet {platform : Platform} {env : Env} {step : Step}
    (envelope : Enveloped platform env session data step) :
    step = ⟨step.session, step.reply, []⟩ := by
  cases envelope <;> rfl

section Recipients

variable {platform : Platform} {env : Env} {session : Session} {data address localPart : Text}

/-- Where a condition refuses a recipient, it is not met by one that is recorded. -/
theorem Enveloped.unless {condition : Prop} [Decidable condition] {text : Text} {step : Step}
    (unaccepted : .line text ≠ accepted)
    (otherwise : ¬condition → Enveloped platform env session data step) :
    Enveloped platform env session data
      (if condition then answer { session with state := .rcptToReceived } text else step) := by
  split
  · exact .refused _ _ (.inr rfl) unaccepted
  · next holds => exact otherwise holds

theorem rcptReturnPath_enveloped {domain : Text} (named : Addressed data address localPart domain)
    (returnPath : isReturnPath platform session.config domain = true) :
    Enveloped platform env session data
      (rcptReturnPath env session address (splitTag localPart).1) := by
  unfold rcptReturnPath
  cases token : env.store.findServerByToken (splitTag localPart).1 with
  | none => exact .refused _ _ (.inr rfl) (by decide)
  | some server =>
      refine .unless (by decide) fun active => ?_
      exact .recorded _ (.bounce named returnPath token (by simpa using active))

theorem rcptRouteToken_enveloped {domain : Text} (named : Addressed data address localPart domain)
    (foreign : isReturnPath platform session.config domain = false)
    (direct : domain = session.config.routeDomain) :
    Enveloped platform env session data
      (rcptRouteToken env session (splitTag localPart).1 (splitTag localPart).2) := by
  unfold rcptRouteToken
  cases token : env.store.findRouteByToken (splitTag localPart).1 with
  | none => exact .refused _ _ (.inr rfl) (by decide)
  | some resolved =>
      refine .unless (by decide) fun active => .unless (by decide) fun open_ => ?_
      exact .recorded _ (.routeToken named foreign direct token (by simpa using active) open_)

theorem rcptCredential_enveloped {domain : Text} {credential : Credential}
    (named : Addressed data address localPart domain)
    (elsewhere : Elsewhere platform session.config domain)
    (held : session.credential = some credential) :
    Enveloped platform env session data (rcptCredential env session credential address) := by
  unfold rcptCredential
  cases known : env.store.server credential.serverId with
  | none => exact .refused _ _ (.inr rfl) (by decide)
  | some server =>
      refine .unless (by decide) fun active => .unless (by decide) fun permitted => ?_
      exact .recorded _ (.submission named elsewhere held known (by simpa using active)
        (by simpa using permitted))

theorem rcptRoute_enveloped {domain : Text} {resolved : ResolvedRoute}
    (named : Addressed data address localPart domain)
    (elsewhere : Elsewhere platform session.config domain) (anonymous : session.credential = none)
    (found : env.store.findRouteByNameAndDomain (splitTag localPart).1 domain = some resolved) :
    Enveloped platform env session data (rcptRoute session resolved address) := by
  unfold rcptRoute
  refine .unless (by decide) fun active => .unless (by decide) fun open_ => ?_
  exact .recorded _ (.route named elsewhere anonymous found (by simpa using active) open_)

variable {step : Step}

/-- The pass of a ready session reads an address and judges it, or refuses the line. -/
theorem rcptToOnce_cases {retry : Session → Option Step}
    (ready : session.state = .mailFromReceived ∨ session.state = .rcptToReceived)
    (reacted : rcptToOnce platform env retry session data = some step) :
    (∃ text, .line text ≠ accepted ∧ step = answer session text) ∨
      ∃ address localPart domain, Addressed data address localPart domain ∧ domain ≠ [] ∧
        (∀ again credential, rcptToOnce platform env again
          { session with credential := some credential } data =
            rcptAddress platform env again { session with credential := some credential }
              address localPart domain) ∧
        rcptAddress platform env retry session address localPart domain = some step := by
  unfold rcptToOnce at reacted ⊢
  rw [if_pos ready] at reacted
  unfold Addressed
  generalize extractAddress data "RCPT TO" = extracted at reacted ⊢
  cases extracted with
  | none => cases reacted
  | some address =>
      rw [Option.bind_some] at reacted
      by_cases vacant : address = []
      · rw [if_pos vacant] at reacted
        exact .inl ⟨_, by decide, (Option.some.inj reacted).symm⟩
      rw [if_neg vacant] at reacted
      cases halves : Str.splitOnce '@' address with
      | none =>
          rw [halves] at reacted
          exact .inl ⟨_, by decide, (Option.some.inj reacted).symm⟩
      | some parts =>
          obtain ⟨localPart, domain⟩ := parts
          rw [halves] at reacted
          dsimp only at reacted
          by_cases blank : domain = []
          · rw [if_pos blank] at reacted
            exact .inl ⟨_, by decide, (Option.some.inj reacted).symm⟩
          rw [if_neg blank] at reacted
          refine .inr ⟨address, localPart, domain, ⟨rfl, halves⟩, blank, ?_, reacted⟩
          intro again credential
          rw [if_pos ready, Option.bind_some, if_neg vacant, halves]
          exact if_neg blank

/-- A client whose address has just been authenticated is judged as the holder of
that credential. -/
theorem rcptByAddress_enveloped {domain : Text} (named : Addressed data address localPart domain)
    (elsewhere : Elsewhere platform session.config domain) (anonymous : session.credential = none)
    (again : ∀ retry credential, rcptToOnce platform env retry
      { session with credential := some credential } data =
        rcptAddress platform env retry { session with credential := some credential }
          address localPart domain) (reacted : rcptByAddress platform env (fun authenticated =>
      rcptToOnce platform env (fun _ => none) authenticated data) session = some step) :
    ∃ settled calls inner, AddressChecked platform env session settled calls ∧
      Enveloped platform env settled data inner ∧ step = ⟨inner.session, inner.reply, calls⟩ := by
  have refusal : Enveloped platform env session data
      (answer session "530 Authentication required") :=
    .refused session.state _ (.inl rfl) (by decide)
  unfold rcptByAddress at reacted
  cases located : session.ipAddress.bind platform.parseIp with
  | none =>
      rw [located] at reacted
      cases reacted
      exact ⟨session, [], _, .unneeded, refusal, rfl⟩
  | some ip =>
      rw [located] at reacted
      dsimp only at reacted
      cases found : env.store.findIpCredential ip with
      | none =>
          rw [found] at reacted
          cases reacted
          exact ⟨session, _, _, .unknown ip anonymous, refusal, rfl⟩
      | some credential =>
          have judged : rcptAddress platform env (fun _ => none)
              { session with credential := some credential } address localPart domain =
              some (rcptCredential env { session with credential := some credential }
                credential address) := by
            unfold rcptAddress
            dsimp only
            rw [if_neg (by simp [elsewhere.1]), if_neg elsewhere.2]
          rw [found] at reacted
          dsimp only at reacted
          rw [again, judged] at reacted
          cases reacted
          have envelope : Enveloped platform env { session with credential := some credential }
              data _ := rcptCredential_enveloped named elsewhere rfl
          refine ⟨_, _, _, .known ip credential anonymous found, envelope, ?_⟩
          rw [envelope.quiet]
          rfl

/-- An RCPT TO line settles who the client is and then answers for the recipient. -/
theorem rcptTo_enveloped
    (ready : session.state = .mailFromReceived ∨ session.state = .rcptToReceived)
    (reacted : rcptTo platform env session data = some step) :
    ∃ settled calls inner, AddressChecked platform env session settled calls ∧
      Enveloped platform env settled data inner ∧ step = ⟨inner.session, inner.reply, calls⟩ := by
  unfold rcptTo at reacted
  obtain ⟨text, unaccepted, rfl⟩ | ⟨address, localPart, domain, named, -, again, judged⟩ :=
    rcptToOnce_cases ready reacted
  · exact ⟨session, [], _, .unneeded, .refused session.state text (.inl rfl) unaccepted, rfl⟩
  unfold rcptAddress at judged
  dsimp only at judged
  by_cases returnPath : isReturnPath platform session.config domain = true
  · rw [if_pos returnPath] at judged
    cases judged
    have envelope : Enveloped platform env session data _ :=
      rcptReturnPath_enveloped named returnPath
    exact ⟨session, [], _, .unneeded, envelope, envelope.quiet⟩
  rw [if_neg returnPath] at judged
  have foreign : isReturnPath platform session.config domain = false := by simpa using returnPath
  by_cases direct : domain = session.config.routeDomain
  · rw [if_pos direct] at judged
    cases judged
    have envelope : Enveloped platform env session data _ :=
      rcptRouteToken_enveloped named foreign direct
    exact ⟨session, [], _, .unneeded, envelope, envelope.quiet⟩
  rw [if_neg direct] at judged
  have elsewhere : Elsewhere platform session.config domain := ⟨foreign, direct⟩
  cases held : session.credential with
  | some credential =>
      rw [held] at judged
      cases judged
      have envelope : Enveloped platform env session data _ :=
      rcptCredential_enveloped named elsewhere held
      exact ⟨session, [], _, .unneeded, envelope, envelope.quiet⟩
  | none =>
      rw [held] at judged
      cases found : env.store.findRouteByNameAndDomain (splitTag localPart).1 domain with
      | some resolved =>
          rw [found] at judged
          cases judged
          have envelope : Enveloped platform env session data _ :=
      rcptRoute_enveloped named elsewhere held found
          exact ⟨session, [], _, .unneeded, envelope, envelope.quiet⟩
      | none =>
          rw [found] at judged
          exact rcptByAddress_enveloped named elsewhere held again judged

end Recipients

/-! ## Every line -/

/-- A command that is answered without any effect, whatever the transaction. -/
def Command.inert : Command → Bool
  | .starttls => true
  | .noop => true
  | .auth _ => true
  | .unknown => true
  | _ => false

/-- Every effect a line can have on a session. -/
inductive Reaction (platform : Platform) (env : Env) (session : Session) (data : Text) :
    Step → Prop
  | proxied (client : Text) (reply : Reply) (waiting : session.state = .preauth) :
      Reaction platform env session data
        ⟨{ session with ipAddress := some client, state := .welcome }, reply, []⟩
  | closing (text : Text)
      (command : session.state = .preauth ∨ commandOf session data = some .quit) :
      Reaction platform env session data ⟨{ session with finished := true }, .line text, []⟩
  | secured (text : Text) (command : commandOf session data = some .starttls)
      (enabled : session.config.tlsEnabled = true) :
      Reaction platform env session data
        ⟨{ session with startTls := true, tls := true }, .line text, []⟩
  | greeted (name : Option Text) (reply : Reply)
      (command : commandOf session data = some .ehlo ∨ commandOf session data = some .helo) :
      Reaction platform env session data
        ⟨{ session.transactionReset with heloName := name, state := .welcomed }, reply, []⟩
  | reset (command : commandOf session data = some .rset) :
      Reaction platform env session data
        ⟨{ session.transactionReset with state := .welcomed }, accepted, []⟩
  | inert (command : Command) (text : Text) (recognized : commandOf session data = some command)
      (harmless : command.inert = true) :
      Reaction platform env session data ⟨session, .line text, []⟩
  | premature (command : Command) (text : Text) (recognized : commandOf session data = some command)
      (early : command = .mailFrom ∨ command = .rcptTo ∨ command = .data)
      (unaccepted : .line text ≠ accepted) :
      Reaction platform env session data ⟨session, .line text, []⟩
  | challenged (mode : InputMode) (text : Text)
      (pending : mode ≠ .command ∧ mode ≠ .data)
      (begun : (∃ mechanism, commandOf session data = some (.auth mechanism) ∧
          session.authPermitted = true) ∨
        (session.state ≠ .preauth ∧ session.inputMode = .authLoginUsername)) :
      Reaction platform env session data ⟨{ session with inputMode := mode }, .line text, []⟩
  | authenticated (step : Step) (last : completesAuth session data)
      (outcome : Authenticated session (presented platform env session data) step) :
      Reaction platform env session data step
  | sender (address : Text) (command : commandOf session data = some .mailFrom)
      (ready : session.state = .welcomed ∨ session.state = .mailFromReceived) :
      Reaction platform env session data
        ⟨{ session.transactionReset with state := .mailFromReceived, mailFrom := some address },
          accepted, []⟩
  | recipient (settled : Session) (calls : List Call) (inner : Step)
      (command : commandOf session data = some .rcptTo)
      (ready : session.state = .mailFromReceived ∨ session.state = .rcptToReceived)
      (checked : AddressChecked platform env session settled calls)
      (envelope : Enveloped platform env settled data inner) :
      Reaction platform env session data ⟨inner.session, inner.reply, calls⟩
  | opened (content : Bytes) (headers : HeaderMap) (command : commandOf session data = some .data)
      (ready : session.state = .rcptToReceived)
      (written : content = encode ((traceHeaders platform env session).flatMap headerLine)) :
      Reaction platform env session data
        ⟨{ session with
            receivingHeaders := true
            headerKey := none
            clientDataOffset := content.length
            data := some content
            headers := some headers
            inputMode := .data }, .line "354 Go ahead", []⟩
  | received (headers : Option HeaderMap) (key : Option Text) (receiving : Bool)
      (connected : session.state ≠ .preauth) (mode : session.inputMode = .data)
      (unfinished : endsData session data = false)
      (present : headers.isSome = session.headers.isSome) :
      Reaction platform env session data
        ⟨{ session with
            data := session.data.map (· ++ encode (unstuff data) ++ Lines.CRLF)
            headers := headers
            headerKey := key
            receivingHeaders := receiving }, .none, []⟩
  | concluded (step : Step) (connected : session.state ≠ .preauth) (mode : session.inputMode = .data)
      (ended : endsData session data = true)
      (finished : finishData platform env { session with inputMode := .command } = some step) :
      Reaction platform env session data step

section Dispatch

variable {platform : Platform} {env : Env} {session : Session} {data : Text} {step : Step}

theorem commandOf_command (connected : session.state ≠ .preauth)
    (mode : session.inputMode = .command) :
    commandOf session data = some (Command.recognize data) := by
  unfold commandOf
  rw [if_neg connected, mode]

theorem proxy_reaction (waiting : session.state = .preauth) :
    Reaction platform env session data (proxy session data) := by
  unfold proxy
  split
  · split
    · exact .proxied _ _ waiting
    · exact .closing _ (.inl waiting)
  · exact .closing _ (.inl waiting)

/-- The header bookkeeping changes only the header fields, and succeeds while there
is a header map. -/
theorem receiveHeader_frame (platform : Platform) (session : Session) (line : Text) :
    (session.headers = none ∧ receiveHeader platform session line = none) ∨
      ∃ headers key receiving, headers.isSome = session.headers.isSome ∧
        receiveHeader platform session line = some { session with
          headers := headers, headerKey := key, receivingHeaders := receiving } := by
  unfold receiveHeader
  split
  · exact .inr ⟨_, _, _, rfl, rfl⟩
  · split
    · split
      · exact .inr ⟨_, _, _, rfl, rfl⟩
      · exact .inr ⟨_, _, _, Option.isSome_map .., rfl⟩
    · cases present : session.headers with
      | none => exact .inl ⟨rfl, rfl⟩
      | some headers => exact .inr ⟨_, _, _, by rfl, rfl⟩

/-- A message line that does not end the message adds to it. -/
theorem receiveLine_frame (platform : Platform) (session : Session) (line : Text) :
    (session.headers = none ∧ receiveLine platform session line = none) ∨
      ∃ headers key receiving, headers.isSome = session.headers.isSome ∧
        receiveLine platform session line = some ⟨{ session with
          data := session.data.map (· ++ encode (unstuff line) ++ Lines.CRLF)
          headers := headers
          headerKey := key
          receivingHeaders := receiving }, .none, []⟩ := by
  unfold receiveLine
  dsimp only
  by_cases receiving : session.receivingHeaders = true
  · rw [if_pos receiving]
    obtain ⟨missing, failed⟩ | ⟨headers, key, still, present, headed⟩ :=
      receiveHeader_frame platform session (unstuff line)
    · rw [failed]
      exact .inl ⟨missing, rfl⟩
    · rw [headed]
      exact .inr ⟨headers, key, still, present, rfl⟩
  · rw [if_neg receiving]
    exact .inr ⟨session.headers, session.headerKey, session.receivingHeaders, rfl, rfl⟩

theorem receiveLine_reaction (connected : session.state ≠ .preauth)
    (mode : session.inputMode = .data) (unfinished : endsData session data = false)
    (reacted : receiveLine platform session data = some step) :
    Reaction platform env session data step := by
  obtain ⟨-, failed⟩ | ⟨headers, key, receiving, present, received⟩ :=
    receiveLine_frame platform session data
  · cases failed.symm.trans reacted
  · cases received.symm.trans reacted
    exact .received headers key receiving connected mode unfinished present

/-- AUTH PLAIN with an argument completes the exchange at once. -/
theorem authPlain_reaction (connected : session.state ≠ .preauth)
    (mode : session.inputMode = .command) (recognized : Command.recognize data = .auth .plain)
    (permitted : session.authPermitted = true)
    (reacted : authPlain platform env session data = some step) :
    Reaction platform env session data step := by
  have command : commandOf session data = some (.auth .plain) := by
    rw [commandOf_command connected mode, recognized]
  obtain ⟨rest, argument, rfl⟩ := Option.map_eq_some_iff.mp reacted
  by_cases bare : Str.trim rest = []
  · rw [if_pos bare]
    exact .challenged .authPlain _ (by decide) (.inl ⟨_, command, permitted⟩)
  · rw [if_neg bare]
    have found : presented platform env session data =
        (plainPassword platform rest).bind env.store.findSmtpCredentialByKey := by
      unfold presented
      rw [if_neg connected, mode]
      rw [if_pos ⟨recognized, permitted⟩, argument]
      simp only [Option.filter, bne_iff_ne, ne_eq, bare, not_false_eq_true, if_true,
        Option.bind_some]
    refine .authenticated _ (.inl ⟨command, permitted⟩) ?_
    rw [found]
    exact authPlainContinue_authenticated platform env session rest

theorem authLogin_reaction (command : commandOf session data = some (.auth .login))
    (permitted : session.authPermitted = true) (reacted : authLogin session data = some step) :
    Reaction platform env session data step := by
  obtain ⟨rest, -, rfl⟩ := Option.map_eq_some_iff.mp reacted
  split
  · exact .challenged .authLoginUsername _ (by decide) (.inl ⟨_, command, permitted⟩)
  · exact .challenged .authLoginPassword _ (by decide) (.inl ⟨_, command, permitted⟩)

theorem mailFromCommand_reaction (command : commandOf session data = some .mailFrom)
    (reacted : mailFromCommand session data = some step) :
    Reaction platform env session data step := by
  unfold mailFromCommand at reacted
  by_cases ready : session.state = .welcomed ∨ session.state = .mailFromReceived
  · rw [if_pos ready] at reacted
    obtain ⟨address, -, rfl⟩ := Option.map_eq_some_iff.mp reacted
    exact .sender address command ready
  · rw [if_neg ready] at reacted
    cases reacted
    exact .premature _ _ command (.inl rfl) (by decide)

theorem rcptTo_reaction (command : commandOf session data = some .rcptTo)
    (reacted : rcptTo platform env session data = some step) :
    Reaction platform env session data step := by
  by_cases ready : session.state = .mailFromReceived ∨ session.state = .rcptToReceived
  · obtain ⟨settled, calls, inner, checked, envelope, rfl⟩ := rcptTo_enveloped ready reacted
    exact .recipient settled calls inner command ready checked envelope
  · unfold rcptTo rcptToOnce at reacted
    rw [if_neg ready] at reacted
    cases reacted
    exact .premature _ _ command (.inr (.inl rfl)) (by decide)

theorem dataCommand_reaction (command : commandOf session data = some .data) :
    Reaction platform env session data (dataCommand platform env session) := by
  unfold dataCommand
  by_cases ready : session.state = .rcptToReceived
  · rw [if_neg (not_not_intro ready)]
    exact .opened _ _ command ready rfl
  · rw [if_pos ready]
    exact .premature _ _ command (.inr (.inr rfl)) (by decide)

theorem starttls_reaction (command : commandOf session data = some .starttls) :
    Reaction platform env session data (starttls session) := by
  unfold starttls
  split
  case isTrue enabled => exact .secured _ command enabled
  case isFalse => exact .inert _ _ command rfl

theorem handleCommand_reaction (connected : session.state ≠ .preauth)
    (mode : session.inputMode = .command)
    (reacted : handleCommand platform env session data = some step) :
    Reaction platform env session data step := by
  have command : commandOf session data = some (Command.recognize data) :=
    commandOf_command connected mode
  unfold handleCommand at reacted
  cases recognized : Command.recognize data <;> rw [recognized] at reacted command <;>
    dsimp only at reacted
  case quit => cases reacted; exact .closing _ (.inr command)
  case starttls => cases reacted; exact starttls_reaction command
  case ehlo => cases reacted; exact .greeted _ _ (.inl command)
  case helo => cases reacted; exact .greeted _ _ (.inr command)
  case rset => cases reacted; exact .reset command
  case noop => cases reacted; exact .inert _ _ command rfl
  case unknown => cases reacted; exact .inert _ _ command rfl
  case mailFrom => exact mailFromCommand_reaction command reacted
  case rcptTo => exact rcptTo_reaction command reacted
  case data => cases reacted; exact dataCommand_reaction command
  case auth mechanism =>
    by_cases permitted : session.authPermitted = true
    · rw [if_neg (by simpa using permitted)] at reacted
      cases mechanism with
      | plain => exact authPlain_reaction connected mode recognized permitted reacted
      | login => exact authLogin_reaction command permitted reacted
      | cramMd5 =>
          cases reacted
          exact .challenged _ _ ⟨nofun, nofun⟩ (.inl ⟨_, command, permitted⟩)
      | other => cases reacted; exact .inert _ _ command rfl
    · rw [if_pos (by simpa using permitted)] at reacted
      cases reacted
      exact .inert _ _ command rfl

/-- Every reaction of a session is one of those listed. -/
theorem dispatch_reaction (reacted : dispatch platform env session data = some step) :
    Reaction platform env session data step := by
  unfold dispatch at reacted
  by_cases waiting : session.state = .preauth
  · rw [if_pos waiting] at reacted
    cases reacted
    exact proxy_reaction waiting
  rw [if_neg waiting] at reacted
  cases mode : session.inputMode <;> rw [mode] at reacted <;> dsimp only at reacted
  case command => exact handleCommand_reaction waiting mode reacted
  case authPlain =>
    cases reacted
    refine .authenticated _ (.inr ⟨waiting, .inl mode⟩) ?_
    unfold presented
    rw [if_neg waiting, mode]
    exact authPlainContinue_authenticated platform env session data
  case authLoginUsername =>
    cases reacted
    exact .challenged .authLoginPassword _ (by decide) (.inr ⟨waiting, mode⟩)
  case authLoginPassword =>
    cases reacted
    refine .authenticated _ (.inr ⟨waiting, .inr (.inl mode)⟩) ?_
    unfold presented
    rw [if_neg waiting, mode]
    exact authenticate_authenticated env session (loginPassword platform data)
  case authCramMd5 challenge =>
    cases reacted
    refine .authenticated _ (.inr ⟨waiting, .inr (.inr ⟨challenge, mode⟩)⟩) ?_
    unfold presented
    rw [if_neg waiting, mode]
    exact authCramMd5Continue_authenticated platform env session data challenge
  case data =>
    unfold dataLine at reacted
    by_cases ended : endsData session data = true
    · rw [if_pos ended] at reacted
      exact .concluded step waiting mode ended reacted
    · rw [if_neg ended] at reacted
      exact receiveLine_reaction waiting mode (by simpa using ended) reacted

/-- Whether a line ends the message that the session is receiving. -/
def endsMessage (session : Session) (data : Text) : Prop :=
  session.state ≠ .preauth ∧ session.inputMode = .data ∧ endsData session data = true

theorem dispatch_endsMessage (ended : endsMessage session data) :
    dispatch platform env session data =
      finishData platform env { session with inputMode := .command } := by
  unfold dispatch dataLine
  rw [if_neg ended.1, ended.2.1]
  exact if_pos ended.2.2

theorem AddressChecked.stores {settled : Session} {calls : List Call}
    (checked : AddressChecked platform env session settled calls) :
    ∀ call ∈ calls, call.stores = false := by
  cases checked <;> simp [Call.stores]

theorem Authenticated.lookups {found : Option Credential}
    (outcome : Authenticated session found step) :
    ∀ call ∈ step.calls, call.authenticates = true := by
  cases outcome <;> assumption

/-- Messages are handed over at the end of DATA only. -/
theorem Reaction.stores (reaction : Reaction platform env session data step) {call : Call}
    (member : call ∈ step.calls) (stores : call.stores = true) :
    endsMessage session data ∧
      finishData platform env { session with inputMode := .command } = some step := by
  cases reaction
  case concluded connected mode ended finished => exact ⟨⟨connected, mode, ended⟩, finished⟩
  case authenticated last outcome =>
    have lookup := outcome.lookups call member
    cases call <;> simp_all [Call.stores, Call.authenticates]
  case recipient checked envelope =>
    have quiet := checked.stores call member
    rw [quiet] at stores
    cases stores
  all_goals cases member

end Dispatch

variable {input : LineInput} {platform : Platform} {response : Response}

/-- A step of the session machine dispatches the line without its carriage return
and then remembers the line's end. -/
theorem sessionStep_dispatch {session next : Session}
    (stepped : sessionStep platform session input = some (response, next)) :
    ∃ step, dispatch platform input.env { session with crPresent := hasCr input.line }
        (chomp input.line) = some step ∧
      response = ⟨step.reply, step.calls⟩ ∧
      next = { step.session with previousCrPresent := some step.session.crPresent } := by
  unfold sessionStep handle at stepped
  rw [Option.map_map] at stepped
  obtain ⟨step, dispatched, same⟩ := Option.map_eq_some_iff.mp stepped
  obtain ⟨rfl, rfl⟩ := Prod.mk.inj same
  exact ⟨step, dispatched, rfl, rfl⟩

theorem sessionStep_reaction {session next : Session}
    (stepped : sessionStep platform session input = some (response, next)) :
    ∃ step, Reaction platform input.env { session with crPresent := hasCr input.line }
        (chomp input.line) step ∧
      response = ⟨step.reply, step.calls⟩ ∧
      next = { step.session with previousCrPresent := some step.session.crPresent } := by
  obtain ⟨step, dispatched, responded, after⟩ := sessionStep_dispatch stepped
  exact ⟨step, dispatch_reaction dispatched, responded, after⟩

/-! ## Conversations with a small installation

Two servers with one credential each, one incoming route, and a client that ends its
lines with CRLF. -/

def exampleConfig : SessionConfig where
  smtpHostname := "mx.example"
  tlsEnabled := false
  authRequiresTls := true
  maxMessageSize := 10
  returnPathDomain := "rp.example"
  customReturnPathPrefix := "rp"
  routeDomain := "routes.example"

def exampleServer (id : Id) : Server where
  id := id
  organizationId := 1
  permalink := "mail"
  token := "token"
  suspended := false
  privacyMode := false
  allowSender := false
  sendLimit := none

def exampleRoute : ResolvedRoute where
  route := ⟨5, 1, some 11, "info", "route", .endpoint⟩
  server := exampleServer 1
  domainName := "in.example"

def exampleStore : Store :=
  { Store.empty with
    server := fun id => if id = 1 ∨ id = 2 then some (exampleServer id) else none
    findSmtpCredentialByKey := fun key =>
      if key = ['a'] then some ⟨10, 1, .smtp, ['a']⟩
      else if key = ['b'] then some ⟨20, 2, .smtp, ['b']⟩
      else none
    findRouteByNameAndDomain := fun name domain =>
      if name = "info".toList ∧ domain = "in.example".toList then some exampleRoute else none
    findAuthenticatedDomain := fun id values =>
      if id = 1 ∧ values = ["me@a.example".toList] then some 11
      else if id = 2 ∧ values = ["me@b.example".toList] then some 22
      else none
    server_id := by
      intro id found known
      split at known <;> cases known
      rfl }

def exampleEnv : Env where
  store := exampleStore
  now := 0
  randomHex := []
  queueMessages := fun _ _ _ => .stored
  evaluateSpf := fun _ _ => .pass

def exampleSession : Session :=
  Session.new .ascii exampleConfig "t" (some "192.0.2.1".toList)

/-- The run of a conversation in one unchanging environment. -/
def conversation (lines : List String) : Option (List LineEvent × Session) :=
  Machine.run (sessionStep .ascii) exampleSession
    (lines.map (fun line => ⟨exampleEnv, line.toList ++ ['\r']⟩))

/-- A computed check of a conversation holds of its run. -/
theorem conversation_checked (lines : List String) (check : List LineEvent → Bool)
    (checked : (conversation lines).any (fun ran => check ran.1) = true) :
    ∃ events final, conversation lines = some (events, final) ∧ check events = true := by
  obtain ⟨⟨events, final⟩, ran, holds⟩ := (Option.any_eq_true _ _).mp checked
  exact ⟨events, final, ran, holds⟩

end Camelmailer.Smtp
