import Camelmailer.Smtp.Server
import Mathlib.Data.Option.Basic

/-!
# What survives a TLS upgrade

After STARTTLS the server goes on with the same session over the encrypted stream. The
envelope, the protocol state, the name the client gave, its credential, its address and
the SPF result are carried over; everything else is reset or can no longer be observed.
A client that greets again loses the envelope, the state and the name as well.

Two sessions are `Alike` when they differ in what no later line can tell apart. The
server answers alike sessions in the same way and keeps them alike.
-/

namespace Camelmailer.Smtp

open Utf8

/-! ## Sessions that cannot be told apart -/

/-- What earlier lines leave behind in a session that is not receiving a message. -/
structure Leftover where
  traceId : Text
  data : Option Bytes
  clientDataOffset : Nat
  headers : Option HeaderMap
  receivingHeaders : Bool
  headerKey : Option Text
  previousCrPresent : Option Bool

/-- A session with other leftovers. -/
def Session.leaving (session : Session) (left : Leftover) : Session :=
  { session with
    traceId := left.traceId
    data := left.data
    clientDataOffset := left.clientDataOffset
    headers := left.headers
    receivingHeaders := left.receivingHeaders
    headerKey := left.headerKey
    previousCrPresent := left.previousCrPresent }

/-- The leftovers of a session. -/
def Session.leftover (session : Session) : Leftover where
  traceId := session.traceId
  data := session.data
  clientDataOffset := session.clientDataOffset
  headers := session.headers
  receivingHeaders := session.receivingHeaders
  headerKey := session.headerKey
  previousCrPresent := session.previousCrPresent

/-- The leftovers once a transaction has been reset. -/
def Leftover.transactionReset (left : Leftover) : Leftover :=
  { left with data := none, clientDataOffset := 0, headers := none }

/-- A session of a connection with another trace id. -/
def Session.traced (session : Session) (traceId : Text) : Session :=
  { session with traceId := traceId }

/-- Sessions that no later line can tell apart. How the last line ended matters only
inside a message, and the next line's own end replaces `crPresent`. -/
inductive Alike : Session → Session → Prop
  | idle (session : Session) (left : Leftover) (crPresent : Bool)
      (connected : session.state ≠ .preauth) (mode : session.inputMode ≠ .data) :
      Alike session { session.leaving left with crPresent := crPresent }
  | receiving (session : Session) (traceId : Text) (connected : session.state ≠ .preauth)
      (mode : session.inputMode = .data) :
      Alike session (session.traced traceId)

/-- Reactions that answer and call the same, before the line's end is recorded. -/
inductive SameStep : Step → Step → Prop
  | idle (session : Session) (left : Leftover) (reply : Reply) (calls : List Call)
      (mode : session.inputMode ≠ .data) :
      SameStep ⟨session, reply, calls⟩ ⟨session.leaving left, reply, calls⟩
  | receiving (session : Session) (traceId : Text) (previous : Option Bool) (reply : Reply)
      (calls : List Call) (mode : session.inputMode = .data) :
      SameStep ⟨session, reply, calls⟩
        ⟨{ session.traced traceId with previousCrPresent := previous }, reply, calls⟩

/-! ## Commands do not read the leftovers -/

section Commands

variable (platform : Platform) (env : Env) (session : Session) (left : Leftover)

/-- A reaction of a session with other leftovers. -/
def Step.leaving (step : Step) (left : Leftover) : Step :=
  { step with session := step.session.leaving left }

def Step.traced (step : Step) (traceId : Text) : Step :=
  { step with session := step.session.traced traceId }

theorem rcptReturnPath_leaving (address uname : Text) :
    rcptReturnPath env (session.leaving left) address uname =
      (rcptReturnPath env session address uname).leaving left := by
  unfold rcptReturnPath
  split
  · split <;> rfl
  · rfl

theorem rcptRouteToken_leaving (uname : Text) (tag : Option Text) :
    rcptRouteToken env (session.leaving left) uname tag =
      (rcptRouteToken env session uname tag).leaving left := by
  unfold rcptRouteToken
  split
  · split
    · rfl
    · split <;> rfl
  · rfl

theorem rcptCredential_leaving (credential : Credential) (address : Text) :
    rcptCredential env (session.leaving left) credential address =
      (rcptCredential env session credential address).leaving left := by
  unfold rcptCredential
  split
  · split
    · rfl
    · split <;> rfl
  · rfl

theorem rcptRoute_leaving (resolved : ResolvedRoute) (address : Text) :
    rcptRoute (session.leaving left) resolved address =
      (rcptRoute session resolved address).leaving left := by
  unfold rcptRoute
  split
  · rfl
  · split <;> rfl

theorem rcptByAddress_leaving (retry : Session → Option Step)
    (uniform : ∀ session : Session, retry (session.leaving left) =
      (retry session).map (Step.leaving · left)) :
    rcptByAddress platform env retry (session.leaving left) =
      (rcptByAddress platform env retry session).map (Step.leaving · left) := by
  have address : (session.leaving left).ipAddress = session.ipAddress := rfl
  unfold rcptByAddress
  rw [address]
  split
  · rfl
  · split
    · rfl
    · have again := uniform { session with credential := some ‹Credential› }
      simp only [Session.leaving] at again ⊢
      rw [again, Option.map_map, Option.map_map]
      rfl

theorem rcptAddress_leaving (retry : Session → Option Step) (address localPart domain : Text)
    (uniform : ∀ session : Session, retry (session.leaving left) =
      (retry session).map (Step.leaving · left)) :
    rcptAddress platform env retry (session.leaving left) address localPart domain =
      (rcptAddress platform env retry session address localPart domain).map
        (Step.leaving · left) := by
  have config : (session.leaving left).config = session.config := rfl
  have credential : (session.leaving left).credential = session.credential := rfl
  unfold rcptAddress
  rw [config, credential]
  dsimp only
  split
  · rw [rcptReturnPath_leaving]
    rfl
  · split
    · rw [rcptRouteToken_leaving]
      rfl
    · split
      · rw [rcptCredential_leaving]
        rfl
      · split
        · rw [rcptRoute_leaving]
          rfl
        · exact rcptByAddress_leaving platform env session left retry uniform

theorem rcptToOnce_leaving (retry : Session → Option Step) (data : Text)
    (uniform : ∀ session : Session, retry (session.leaving left) =
      (retry session).map (Step.leaving · left)) :
    rcptToOnce platform env retry (session.leaving left) data =
      (rcptToOnce platform env retry session data).map (Step.leaving · left) := by
  have state : (session.leaving left).state = session.state := rfl
  unfold rcptToOnce
  rw [state]
  split
  · cases extractAddress data "RCPT TO" with
    | none => rfl
    | some address =>
        dsimp only [Option.bind_some]
        split
        · rfl
        · split
          · rfl
          · split
            · rfl
            · exact rcptAddress_leaving platform env session left retry _ _ _ uniform
  · rfl

/-- A recipient is judged without regard to the leftovers. -/
theorem rcptTo_leaving (data : Text) :
    rcptTo platform env (session.leaving left) data =
      (rcptTo platform env session data).map (Step.leaving · left) := by
  refine rcptToOnce_leaving platform env session left _ data ?_
  intro authenticated
  exact rcptToOnce_leaving platform env authenticated left _ data (fun _ => rfl)

end Commands

section Lines

variable {platform : Platform} {env : Env} {session : Session} {data : Text}

/-- The end of an AUTH exchange outside a message. -/
theorem authPlainContinue_same (left : Leftover) (data : Text) :
    SameStep (authPlainContinue platform env session data)
      (authPlainContinue platform env (session.leaving left) data) := by
  unfold authPlainContinue
  cases plainPassword platform data with
  | none => exact .idle _ left _ _ nofun
  | some password =>
      dsimp only [authenticate]
      cases env.store.findSmtpCredentialByKey password with
      | none => exact .idle _ left _ _ nofun
      | some credential => exact .idle _ left _ _ nofun

theorem authLoginPassword_same (left : Leftover) (data : Text) :
    SameStep (authLoginPassword platform env session data)
      (authLoginPassword platform env (session.leaving left) data) := by
  unfold authLoginPassword authenticate
  cases env.store.findSmtpCredentialByKey (loginPassword platform data) with
  | none => exact .idle _ left _ _ nofun
  | some credential => exact .idle _ left _ _ nofun

theorem authCramMd5Continue_same (left : Leftover) (data challenge : Text) :
    SameStep (authCramMd5Continue platform env session data challenge)
      (authCramMd5Continue platform env (session.leaving left) data challenge) := by
  unfold authCramMd5Continue
  generalize cramMd5Credential platform env.store data challenge = outcome
  obtain ⟨_ | credential, calls⟩ := outcome
  · exact .idle _ left _ _ nofun
  · exact .idle _ left _ _ nofun

/-- Judging a recipient does not start a message. -/
theorem rcptTo_inputMode {step : Step} (mode : session.inputMode ≠ .data)
    (reacted : rcptTo platform env session data = some step) :
    step.session.inputMode ≠ .data := by
  by_cases ready : session.state = .mailFromReceived ∨ session.state = .rcptToReceived
  · obtain ⟨settled, calls, inner, checked, envelope, rfl⟩ := rcptTo_enveloped ready reacted
    have settledMode : settled.inputMode ≠ .data := by cases checked <;> exact mode
    cases envelope <;> exact settledMode
  · unfold rcptTo rcptToOnce at reacted
    rw [if_neg ready] at reacted
    cases reacted
    exact mode

/-- A command is answered without regard to the leftovers, and opens the same message. -/
theorem handleCommand_same (left : Leftover) (mode : session.inputMode = .command) :
    Option.Rel SameStep (handleCommand platform env session data)
      (handleCommand platform env (session.leaving left) data) := by
  have command : session.inputMode ≠ .data := by rw [mode]; nofun
  have permitted : (session.leaving left).authPermitted = session.authPermitted := rfl
  unfold handleCommand
  cases Command.recognize data with
  | quit | noop | unknown => exact .some (.idle _ left _ _ command)
  | starttls =>
      dsimp only [starttls]
      rw [show (session.leaving left).config = session.config from rfl]
      split
      · exact .some (.idle _ left _ _ command)
      · exact .some (.idle _ left _ _ command)
  | ehlo | helo | rset => exact .some (.idle _ left.transactionReset _ _ command)
  | auth mechanism =>
      dsimp only
      rw [permitted]
      split
      · exact .some (.idle _ left _ _ command)
      · cases mechanism with
        | plain =>
            dsimp only [authPlain]
            cases authArgument data "AUTH PLAIN" with
            | none => exact .none
            | some rest =>
                dsimp only [Option.map_some]
                split
                · exact .some (.idle _ left _ _ nofun)
                · exact .some (authPlainContinue_same left rest)
        | login =>
            dsimp only [authLogin]
            cases authArgument data "AUTH LOGIN" with
            | none => exact .none
            | some rest =>
                dsimp only [Option.map_some]
                split
                · exact .some (.idle _ left _ _ nofun)
                · exact .some (.idle _ left _ _ nofun)
        | cramMd5 => exact .some (.idle _ left _ _ nofun)
        | other => exact .some (.idle _ left _ _ command)
  | mailFrom =>
      dsimp only [mailFromCommand]
      rw [show (session.leaving left).state = session.state from rfl]
      split
      · cases extractAddress (senderLine data) "MAIL FROM" with
        | none => exact .none
        | some address => exact .some (.idle _ left.transactionReset _ _ command)
      · exact .some (.idle _ left _ _ command)
  | rcptTo =>
      rw [rcptTo_leaving]
      cases reacted : rcptTo platform env session data with
      | none => exact .none
      | some step => exact .some (.idle _ left _ _ (rcptTo_inputMode command reacted))
  | data =>
      dsimp only [dataCommand]
      rw [show (session.leaving left).state = session.state from rfl]
      split
      · exact .some (.idle _ left _ _ command)
      · exact .some (.receiving _ left.traceId left.previousCrPresent _ _ rfl)

/-- Outside a message every line is answered without regard to the leftovers. -/
theorem dispatch_leaving (left : Leftover) (connected : session.state ≠ .preauth)
    (mode : session.inputMode ≠ .data) :
    Option.Rel SameStep (dispatch platform env session data)
      (dispatch platform env (session.leaving left) data) := by
  unfold dispatch
  rw [show (session.leaving left).state = session.state from rfl,
    show (session.leaving left).inputMode = session.inputMode from rfl,
    if_neg connected, if_neg connected]
  cases current : session.inputMode with
  | command => exact handleCommand_same left current
  | authPlain => exact .some (authPlainContinue_same left data)
  | authLoginUsername => exact .some (.idle _ left _ _ nofun)
  | authLoginPassword => exact .some (authLoginPassword_same left data)
  | authCramMd5 challenge => exact .some (authCramMd5Continue_same left data challenge)
  | data => exact absurd current mode

/-- The trace id has no part in how a message ends. -/
theorem finishData_traced (session : Session) (traceId : Text) :
    finishData platform env (session.traced traceId) =
      (finishData platform env session).map (Step.traced · traceId) := by
  unfold finishData
  dsimp only
  rw [show tooLarge (session.traced traceId) = tooLarge session from rfl,
    show looping (session.traced traceId) = looping session from rfl,
    show (session.traced traceId).headers = session.headers from rfl,
    show authorizeSender env (session.traced traceId) = authorizeSender env session from rfl,
    show idempotencyKey (session.traced traceId) = idempotencyKey session from rfl]
  split
  · rfl
  · split
    · rfl
    · split
      · rfl
      · split
        · rfl
        · unfold storeMessage
          rw [Option.map_map]
          rfl

theorem receiveHeader_traced (session : Session) (traceId line : Text) :
    receiveHeader platform (session.traced traceId) line =
      (receiveHeader platform session line).map (Session.traced · traceId) := by
  unfold receiveHeader
  rw [show (session.traced traceId).headerKey = session.headerKey from rfl]
  split
  · rfl
  · split
    · split <;> rfl
    · rw [Option.map_map]
      rfl

theorem receiveLine_traced (session : Session) (traceId line : Text) :
    receiveLine platform (session.traced traceId) line =
      (receiveLine platform session line).map (Step.traced · traceId) := by
  unfold receiveLine
  dsimp only
  rw [receiveHeader_traced,
    show (session.traced traceId).receivingHeaders = session.receivingHeaders from rfl]
  split
  · rw [Option.map_map, Option.map_map]
    rfl
  · rfl

/-- Inside a message the trace id has no part either. -/
theorem dispatch_traced (traceId : Text) (connected : session.state ≠ .preauth)
    (mode : session.inputMode = .data) :
    Option.Rel SameStep (dispatch platform env session data)
      (dispatch platform env (session.traced traceId) data) := by
  unfold dispatch
  rw [show (session.traced traceId).state = session.state from rfl,
    show (session.traced traceId).inputMode = session.inputMode from rfl,
    if_neg connected, mode]
  unfold dataLine
  rw [show endsData (session.traced traceId) data = endsData session data from rfl]
  dsimp only
  split
  · have same : finishData platform env { session.traced traceId with inputMode := .command } = _ :=
      finishData_traced { session with inputMode := .command } traceId
    rw [same]
    cases finished : finishData platform env { session with inputMode := .command } with
    | none => exact .none
    | some step =>
        obtain ⟨text, calls, -, rfl⟩ := finishData_concluded finished
        exact .some (.idle _ { session.transactionReset.leftover with traceId := traceId } _ _
          nofun)
  · rw [receiveLine_traced]
    cases received : receiveLine platform session data with
    | none => exact .none
    | some step =>
        obtain ⟨-, failed⟩ | ⟨headers, key, receiving, -, kept⟩ :=
          receiveLine_frame platform session data
        · cases failed.symm.trans received
        · cases kept.symm.trans received
          exact .some (.receiving _ traceId session.previousCrPresent _ _ mode)

/-- A client that has been greeted stays so. -/
theorem Reaction.connected {step : Step} (reaction : Reaction platform env session data step)
    (connected : session.state ≠ .preauth) : step.session.state ≠ .preauth := by
  cases reaction
  case greeted => exact nofun
  case reset => exact nofun
  case sender => exact nofun
  case proxied => exact nofun
  case authenticated outcome => cases outcome <;> exact connected
  case concluded finished =>
    obtain ⟨text, calls, -, rfl⟩ := finishData_concluded finished
    exact nofun
  case recipient checked envelope =>
    have settled : ∀ state, state = session.state → state ≠ .preauth := by
      rintro state rfl
      exact connected
    cases envelope with
    | recorded => exact nofun
    | refused state text reached unaccepted =>
        rcases reached with kept | advanced
        · cases checked <;> exact settled state kept
        · rw [advanced]
          exact nofun
  all_goals exact connected

/-- The server answers alike sessions in the same way and keeps them alike. -/
theorem Alike.sessionStep {first second : Session} (alike : Alike first second)
    (input : LineInput) :
    Option.Rel (fun left right => left.1 = right.1 ∧ Alike left.2 right.2)
      (sessionStep platform first input) (sessionStep platform second input) := by
  let heard (session : Session) : Session := { session with crPresent := hasCr input.line }
  have dispatched : Option.Rel SameStep (dispatch platform input.env (heard first) (chomp input.line))
      (dispatch platform input.env (heard second) (chomp input.line)) := by
    cases alike with
    | idle left crPresent connected mode =>
        exact dispatch_leaving left connected mode
    | receiving traceId connected mode =>
        exact dispatch_traced traceId connected mode
  have present : (heard first).state ≠ .preauth := by
    cases alike <;> assumption
  unfold Smtp.sessionStep handle
  generalize dispatch platform input.env (heard second) (chomp input.line) = other at dispatched ⊢
  cases reacted : dispatch platform input.env (heard first) (chomp input.line) with
  | none =>
      rw [reacted] at dispatched
      cases dispatched
      exact .none
  | some step =>
      have connected := (dispatch_reaction reacted).connected present
      rw [reacted] at dispatched
      cases dispatched with
      | some same =>
          cases same with
          | idle session left reply calls mode =>
              exact .some ⟨rfl, .idle _ { left with
                previousCrPresent := some session.crPresent } session.crPresent connected mode⟩
          | receiving session traceId previous reply calls mode =>
              exact .some ⟨rfl, .receiving _ traceId connected mode⟩

end Lines

/-! ## Phases that cannot be told apart -/

/-- Alike sessions in the loop of `drive_session`. -/
structure Driver.Alike (first second : Driver) : Prop where
  spfEvaluated : first.spfEvaluated = second.spfEvaluated
  session : Smtp.Alike first.session second.session

theorem Alike.flags {first second : Session} (alike : Alike first second) :
    first.startTls = second.startTls ∧ first.finished = second.finished := by
  cases alike <;> exact ⟨rfl, rfl⟩

theorem Alike.state {first second : Session} (alike : Alike first second) :
    first.state = second.state := by
  cases alike <;> rfl

/-- The SPF check reads the envelope, the address and the name, which alike sessions
share. -/
theorem Alike.evaluateInboundSpf (platform : Platform) (env : Env) (context : SpfContext)
    {first second : Session} (alike : Alike first second) :
    Alike (evaluateInboundSpf platform env context first)
      (evaluateInboundSpf platform env context second) := by
  have value : spfValue platform env context second = spfValue platform env context first := by
    cases alike <;> rfl
  unfold Smtp.evaluateInboundSpf
  rw [value]
  cases spfValue platform env context first with
  | none => exact alike
  | some value =>
      cases alike with
      | idle left crPresent connected mode => exact .idle _ left crPresent connected mode
      | receiving traceId connected mode => exact .receiving _ traceId connected mode

theorem Driver.Alike.checkSpf (platform : Platform) (spf : Option SpfContext)
    {first second : Driver} (alike : first.Alike second) (input : LineInput) :
    Option.Rel Driver.Alike (checkSpf platform spf first input)
      (checkSpf platform spf second input) := by
  unfold Smtp.checkSpf
  rw [alike.spfEvaluated, alike.session.state]
  split
  · cases isDataCommand input.line with
    | none => exact .none
    | some isData =>
        cases isData with
        | false => exact .some alike
        | true =>
            cases spf with
            | none => exact .some ⟨rfl, alike.session⟩
            | some context =>
                exact .some ⟨rfl, alike.session.evaluateInboundSpf platform input.env context⟩
  · exact .some alike

/-- One line is served in the same way to alike sessions. -/
theorem Driver.Alike.serveLine (platform : Platform) (spf : Option SpfContext)
    {first second : Driver} (alike : first.Alike second) (input : LineInput) :
    Option.Rel (fun left right => left.1 = right.1 ∧ left.2.Alike right.2)
      (serveLine platform spf first input) (serveLine platform spf second input) := by
  refine Machine.rel_bind (alike.checkSpf platform spf input) ?_
  intro left right same
  refine Machine.rel_map (same.session.sessionStep input) ?_
  rintro ⟨response, after⟩ ⟨_, other⟩ ⟨rfl, next⟩
  exact ⟨rfl, same.spfEvaluated, next⟩

/-- Streams from which the same lines are read. -/
def SameLines (first second : LineStream) : Prop :=
  ∀ count, LineStream.readLines count first = LineStream.readLines count second

theorem SameLines.readLine {first second : LineStream} (same : SameLines first second) :
    Option.Rel (fun left right => left.1 = right.1 ∧ SameLines left.2 right.2)
      first.readLine second.readLine := by
  have unfolded (count : Nat) := same (count + 1)
  simp only [LineStream.readLines] at unfolded
  cases left : first.readLine with
  | none =>
      cases right : second.readLine with
      | none => exact .none
      | some parts => simpa [left, right] using unfolded 0
  | some parts =>
      cases right : second.readLine with
      | none => simpa [left, right] using unfolded 0
      | some others =>
          simp only [left, right, List.cons.injEq] at unfolded
          exact .some ⟨(unfolded 0).1, fun count => (unfolded count).2⟩

/-- The replies and the calls of a phase. -/
def responses (events : List ServeEvent) : List Response := events.map (·.output)

/-- A phase answers in the same way when its first line is served alike and the rest
of it is. -/
theorem driveSession_first (platform : Platform) (spf : Option SpfContext) (env : Env)
    (envs : List Env) {first second : Driver} {left right : LineStream}
    (lines : SameLines left right)
    (served : ∀ line rest, left.readLine = some (line, rest) →
      Option.Rel (fun one other => one.1 = other.1 ∧ one.2.Alike other.2)
        (serveLine platform spf first ⟨env, line⟩) (serveLine platform spf second ⟨env, line⟩))
    (later : ∀ (first second : Driver) (left right : LineStream), first.Alike second →
      SameLines left right →
      responses (driveSession platform spf envs first left).trace =
        responses (driveSession platform spf envs second right).trace) :
    responses (driveSession platform spf (env :: envs) first left).trace =
      responses (driveSession platform spf (env :: envs) second right).trace := by
  have read := lines.readLine
  unfold driveSession
  cases leftRead : left.readLine with
  | none =>
      rw [leftRead] at read
      generalize right.readLine = rightRead at read ⊢
      cases read
      rfl
  | some parts =>
      obtain ⟨line, rest⟩ := parts
      have reaction := served line rest leftRead
      rw [leftRead] at read
      generalize right.readLine = rightRead at read ⊢
      cases read with
      | some agreement =>
          rename_i others
          obtain ⟨other, remaining⟩ := others
          obtain ⟨rfl, remainder⟩ := agreement
          dsimp only
          generalize serveLine platform spf first ⟨env, line⟩ = firstServed at reaction ⊢
          generalize serveLine platform spf second ⟨env, line⟩ = secondServed at reaction ⊢
          cases reaction with
          | none => rfl
          | some same =>
              rename_i one another
              obtain ⟨response, next⟩ := one
              obtain ⟨_, following⟩ := another
              obtain ⟨rfl, alike⟩ := same
              obtain ⟨upgrading, leaving⟩ := alike.session.flags
              dsimp only at upgrading leaving ⊢
              rw [upgrading, leaving]
              split
              · rfl
              · split
                · rfl
                · have rest := later next following rest remaining alike remainder
                  simp only [responses, List.map_cons] at rest ⊢
                  rw [rest]

/-- Alike sessions that read the same lines give the same answers to the end. -/
theorem driveSession_alike (platform : Platform) (spf : Option SpfContext) (envs : List Env)
    (first second : Driver) (left right : LineStream) (alike : first.Alike second)
    (lines : SameLines left right) :
    responses (driveSession platform spf envs first left).trace =
      responses (driveSession platform spf envs second right).trace := by
  induction envs generalizing first second left right with
  | nil => rfl
  | cons env envs ih =>
      refine driveSession_first platform spf env envs lines ?_ ih
      intro line rest _
      exact alike.serveLine platform spf ⟨env, line⟩

/-! ## The upgrade -/

/-- A session at the moment the handshake begins. -/
structure AtHandshake (config : SessionConfig) (session : Session) : Prop where
  config : session.config = config
  resolvedHostname : session.resolvedHostname = none
  startTls : session.startTls = false
  finished : session.finished = false
  connected : session.state ≠ .preauth
  mode : session.inputMode = .command

variable {platform : Platform} {session : Session}

/-- Lines change neither the configuration nor the client's resolved name. -/
theorem Reaction.constant {env : Env} {data : Text} {step : Step}
    (reaction : Reaction platform env session data step) :
    step.session.config = session.config ∧
      step.session.resolvedHostname = session.resolvedHostname := by
  cases reaction
  case authenticated outcome => cases outcome <;> exact ⟨rfl, rfl⟩
  case concluded finished =>
    obtain ⟨text, calls, -, rfl⟩ := finishData_concluded finished
    exact ⟨rfl, rfl⟩
  case recipient checked envelope => cases checked <;> cases envelope <;> exact ⟨rfl, rfl⟩
  all_goals exact ⟨rfl, rfl⟩

/-- Only an accepted STARTTLS command asks for an upgrade. -/
theorem Reaction.secures {env : Env} {data : Text} {step : Step}
    (reaction : Reaction platform env session data step) (plain : session.startTls = false)
    (secured : step.session.startTls = true) :
    commandOf session data = some .starttls ∧
      step.session = { session with startTls := true, tls := true } := by
  have unsecured (next : Session) (kept : next.startTls = session.startTls)
      (secured : next.startTls = true) : False := by
    rw [kept, plain] at secured
    cases secured
  cases reaction
  case secured command enabled => exact ⟨command, rfl⟩
  case authenticated outcome => cases outcome <;> exact (unsecured _ rfl secured).elim
  case concluded finished =>
    obtain ⟨text, calls, -, rfl⟩ := finishData_concluded finished
    exact (unsecured _ rfl secured).elim
  case recipient checked envelope =>
    cases checked <;> cases envelope <;> exact (unsecured _ rfl secured).elim
  all_goals exact (unsecured _ rfl secured).elim

/-- What one line does to the fields that matter for an upgrade. -/
theorem serveLine_upgrade {spf : Option SpfContext} {driver next : Driver} {input : LineInput}
    {response : Response} (served : serveLine platform spf driver input = some (response, next))
    (plain : driver.session.startTls = false) :
    next.session.config = driver.session.config ∧
      next.session.resolvedHostname = driver.session.resolvedHostname ∧
      (next.session.startTls = true → next.session.finished = driver.session.finished ∧
        next.session.state ≠ .preauth ∧ next.session.inputMode = .command) := by
  obtain ⟨checked, spfChecked, stepped, -⟩ := serveLine_inv served
  obtain ⟨value, annotated⟩ := checkSpf_frame spfChecked
  rw [annotated] at stepped
  obtain ⟨step, reaction, rfl, after⟩ := sessionStep_reaction stepped
  obtain ⟨config, hostname⟩ := reaction.constant
  rw [after]
  refine ⟨config, hostname, ?_⟩
  intro secured
  obtain ⟨command, same⟩ := reaction.secures plain secured
  rw [same]
  refine ⟨rfl, ?_, commandOf_inputMode command⟩
  intro waiting
  cases (commandOf_preauth _ waiting).symm.trans command

/-- A plaintext phase that ends in an upgrade leaves the session at the handshake. -/
theorem driveSession_atHandshake (platform : Platform) (spf : Option SpfContext)
    (envs : List Env) (driver : Driver) (stream : LineStream)
    (resolvedHostname : driver.session.resolvedHostname = none)
    (plain : driver.session.startTls = false) (unfinished : driver.session.finished = false)
    (upgraded : (driveSession platform spf envs driver stream).outcome = .upgrade) :
    AtHandshake driver.session.config
      (driveSession platform spf envs driver stream).driver.session := by
  induction envs generalizing driver stream with
  | nil => cases upgraded
  | cons env envs ih =>
      unfold driveSession at upgraded ⊢
      cases read : stream.readLine with
      | none => rw [read] at upgraded; cases upgraded
      | some parts =>
          obtain ⟨line, rest⟩ := parts
          rw [read] at upgraded
          dsimp only at upgraded ⊢
          cases served : serveLine platform spf driver ⟨env, line⟩ with
          | none => rw [served] at upgraded; cases upgraded
          | some reaction =>
              obtain ⟨response, next⟩ := reaction
              obtain ⟨config, hostname, secures⟩ := serveLine_upgrade served plain
              rw [served] at upgraded
              dsimp only at upgraded ⊢
              by_cases upgrading : next.session.startTls = true
              · obtain ⟨finished, connected, mode⟩ := secures upgrading
                rw [if_pos upgrading]
                exact ⟨config, hostname.trans resolvedHostname, rfl, finished.trans unfinished,
                  connected, mode⟩
              · rw [if_neg upgrading] at upgraded ⊢
                by_cases leaving : next.session.finished = true
                · rw [if_pos leaving] at upgraded
                  cases upgraded
                · rw [if_neg leaving] at upgraded ⊢
                  rw [← config]
                  exact ih next rest (hostname.trans resolvedHostname)
                    (by simpa using upgrading) (by simpa using leaving) upgraded

/-- A phase that ends in an upgrade has used one environment for each line. -/
theorem driveSession_envs (platform : Platform) (spf : Option SpfContext) (envs : List Env)
    (driver : Driver) (stream : LineStream)
    (upgraded : (driveSession platform spf envs driver stream).outcome = .upgrade) :
    (driveSession platform spf envs driver stream).envs =
      envs.drop (driveSession platform spf envs driver stream).trace.length := by
  induction envs generalizing driver stream with
  | nil => cases upgraded
  | cons env envs ih =>
      unfold driveSession at upgraded ⊢
      cases read : stream.readLine with
      | none => rw [read] at upgraded; cases upgraded
      | some parts =>
          rw [read] at upgraded
          dsimp only at upgraded ⊢
          cases served : serveLine platform spf driver ⟨env, parts.1⟩ with
          | none => rw [served] at upgraded; cases upgraded
          | some reaction =>
              rw [served] at upgraded
              dsimp only at upgraded ⊢
              split at upgraded
              case isTrue upgrading => rw [if_pos upgrading]; rfl
              case isFalse upgrading =>
                split at upgraded
                case isTrue => cases upgraded
                case isFalse leaving =>
                  rw [if_neg upgrading, if_neg leaving]
                  exact ih reaction.2 parts.2 upgraded

/-- What a session carries over whatever the client says next. -/
structure Carried (first second : Session) : Prop where
  ipAddress : first.ipAddress = second.ipAddress
  credential : first.credential = second.credential
  receivedSpf : first.receivedSpf = second.receivedSpf

/-- What a session carries over until the client greets again. -/
structure SameTransaction (first second : Session) : Prop where
  state : first.state = second.state
  heloName : first.heloName = second.heloName
  mailFrom : first.mailFrom = second.mailFrom
  recipients : first.recipients = second.recipients

/-- Whether the first line of a stream is a HELO or EHLO command. -/
def Greets (stream : LineStream) : Prop :=
  ∃ line rest, stream.readLine = some (line, rest) ∧
    (Command.recognize (chomp line) = .ehlo ∨ Command.recognize (chomp line) = .helo)

section Handshake

variable {config : SessionConfig} {first second : Session}

/-- Of two sessions at the handshake, one is the other with its own transaction and
leftovers. -/
theorem AtHandshake.eq (atFirst : AtHandshake config first) (atSecond : AtHandshake config second)
    (carried : Carried first second) :
    { second with tls := true } =
      { ({ first with
          tls := true
          state := second.state
          heloName := second.heloName
          mailFrom := second.mailFrom
          recipients := second.recipients } : Session).leaving second.leftover with
        crPresent := second.crPresent } := by
  have sameConfig := atFirst.config.trans atSecond.config.symm
  have sameHostname := atFirst.resolvedHostname.trans atSecond.resolvedHostname.symm
  have sameStartTls := atFirst.startTls.trans atSecond.startTls.symm
  have sameFinished := atFirst.finished.trans atSecond.finished.symm
  have sameMode := atFirst.mode.trans atSecond.mode.symm
  have sameAddress := carried.ipAddress
  have sameCredential := carried.credential
  have sameSpf := carried.receivedSpf
  simp_all [Session.leaving, Session.leftover]

/-- Sessions with the same transaction are alike after the handshake. -/
theorem AtHandshake.alike (atFirst : AtHandshake config first)
    (atSecond : AtHandshake config second) (carried : Carried first second)
    (transaction : SameTransaction first second) :
    Alike { first with tls := true } { second with tls := true } := by
  rw [atFirst.eq atSecond carried, ← transaction.state, ← transaction.heloName,
    ← transaction.mailFrom, ← transaction.recipients]
  refine .idle _ _ _ atFirst.connected ?_
  rw [atFirst.mode]
  nofun

variable {platform : Platform}

/-- A line that is not DATA passes the SPF check. -/
theorem checkSpf_other {spf : Option SpfContext} {input : LineInput} (driver : Driver)
    (other : isDataCommand input.line = some false) :
    checkSpf platform spf driver input = some driver := by
  unfold checkSpf
  rw [other]
  split <;> rfl

theorem dispatch_command {env : Env} {session : Session} {data : Text}
    (connected : session.state ≠ .preauth) (mode : session.inputMode = .command) :
    dispatch platform env session data = handleCommand platform env session data := by
  unfold dispatch
  rw [if_neg connected, mode]

/-- A greeting makes sessions alike, whatever their transactions were. -/
theorem AtHandshake.greeted (platform : Platform) (spf : Option SpfContext) (input : LineInput)
    (atFirst : AtHandshake config first) (atSecond : AtHandshake config second)
    (carried : Carried first second)
    (greeting : Command.recognize (chomp input.line) = .ehlo ∨
      Command.recognize (chomp input.line) = .helo) :
    Option.Rel (fun left right => left.1 = right.1 ∧ left.2.Alike right.2)
      (serveLine platform spf ⟨{ first with tls := true }, false⟩ input)
      (serveLine platform spf ⟨{ second with tls := true }, false⟩ input) := by
  have other : isDataCommand input.line = some false := by
    obtain hello | hello := greeting
    · exact isDataCommand_recognized (by rw [hello]; rfl)
    · exact isDataCommand_recognized (by rw [hello]; rfl)
  let heard (session : Session) : Session :=
    { session with tls := true, crPresent := hasCr input.line }
  have served (session : Session) (connected : session.state ≠ .preauth)
      (mode : session.inputMode = .command) :
      serveLine platform spf ⟨{ session with tls := true }, false⟩ input =
        ((handleCommand platform input.env (heard session) (chomp input.line)).map
          recordLineEnd).map (fun step => (⟨step.reply, step.calls⟩, ⟨step.session, false⟩)) := by
    unfold serveLine
    rw [checkSpf_other _ other, Option.bind_some]
    have command : dispatch platform input.env (heard session) (chomp input.line) = _ :=
      dispatch_command connected mode
    rw [← command]
    unfold sessionStep handle
    rw [Option.map_map]
    rfl
  have same : heard second = _ :=
    congrArg (fun session : Session => { session with crPresent := hasCr input.line })
      (atFirst.eq atSecond carried)
  have quiet : first.inputMode ≠ .data := by
    rw [atFirst.mode]
    nofun
  let left : Leftover :=
    { second.leftover.transactionReset with previousCrPresent := some (hasCr input.line) }
  rw [served first atFirst.connected atFirst.mode, served second atSecond.connected atSecond.mode,
    same]
  unfold handleCommand
  obtain hello | hello := greeting
  · rw [hello]
    exact .some ⟨rfl, rfl, .idle _ left (hasCr input.line) nofun quiet⟩
  · rw [hello]
    exact .some ⟨rfl, rfl, .idle _ left (hasCr input.line) nofun quiet⟩

end Handshake

/-- One client's connection. -/
structure Connection where
  traceId : Text
  peer : Text
  socket : List Bytes
  envs : List Env

/-- The plaintext phase of a connection. -/
def Listener.plaintextPhase (platform : Platform) (listener : Listener)
    (connection : Connection) : Drive :=
  driveSession platform listener.spf connection.envs
    ⟨listener.session platform connection.traceId connection.peer, false⟩ (.new connection.socket)

/-- All that happens on a connection. -/
def Listener.serve (platform : Platform) (listener : Listener) (connection : Connection) :
    Served :=
  handleConnection platform listener connection.traceId connection.peer connection.socket
    connection.envs

/-- What is decrypted after the handshake that follows a plaintext phase. -/
def Listener.decrypts (platform : Platform) (listener : Listener) (connection : Connection) :
    Option (List Bytes) :=
  listener.tlsAcceptor.bind (fun accept =>
    accept (listener.plaintextPhase platform connection).stream.incoming)

variable {listener : Listener}

theorem Listener.serve_encrypted {connection : Connection} {decrypted : List Bytes}
    (mode : listener.mode = .smtp)
    (upgraded : (listener.plaintextPhase platform connection).outcome = .upgrade)
    (handshake : listener.decrypts platform connection = some decrypted) :
    (listener.serve platform connection).encrypted =
      (driveSession platform listener.spf (listener.plaintextPhase platform connection).envs
        ⟨{ (listener.plaintextPhase platform connection).driver.session with tls := true }, false⟩
        (.new decrypted)).trace := by
  have phases : (listener.serve platform connection).encrypted =
      if (listener.plaintextPhase platform connection).outcome = .upgrade then
        encryptedPhase platform listener
          (listener.plaintextPhase platform connection).driver.session
          (listener.plaintextPhase platform connection).stream.incoming
          (listener.plaintextPhase platform connection).envs
      else [] := by
    unfold Listener.serve handleConnection Listener.plaintextPhase
    rw [mode]
    dsimp only
    split <;> rfl
  unfold Listener.decrypts at handshake
  rw [phases, if_pos upgraded]
  unfold encryptedPhase
  rw [handshake]

/-- The TLS phase continues the plaintext session. For any two connections whose
plaintext phases end in an accepted STARTTLS command, the same lines after the
handshake get the same replies and make the same calls, so queue the same messages,
as soon as the sessions agree on the client's address, its credential and the SPF
result, and agree on the protocol state, the HELO name, the sender and the recipients
or greet again. Nothing else that was sent or buffered in plaintext matters. -/
theorem encrypted_phase_continues_session (platform : Platform) (listener : Listener)
    (mode : listener.mode = .smtp) (first second : Connection)
    (upgradedFirst : (listener.plaintextPhase platform first).outcome = .upgrade)
    (upgradedSecond : (listener.plaintextPhase platform second).outcome = .upgrade)
    (decryptedFirst decryptedSecond : List Bytes)
    (handshakeFirst : listener.decrypts platform first = some decryptedFirst)
    (handshakeSecond : listener.decrypts platform second = some decryptedSecond)
    (lines : SameLines (.new decryptedFirst) (.new decryptedSecond))
    (world : (listener.plaintextPhase platform first).envs =
      (listener.plaintextPhase platform second).envs)
    (carried : Carried (listener.plaintextPhase platform first).driver.session
      (listener.plaintextPhase platform second).driver.session)
    (transaction : SameTransaction (listener.plaintextPhase platform first).driver.session
        (listener.plaintextPhase platform second).driver.session ∨
      Greets (.new decryptedFirst)) :
    responses (listener.serve platform first).encrypted =
      responses (listener.serve platform second).encrypted := by
  have atFirst := driveSession_atHandshake platform listener.spf first.envs
    ⟨listener.session platform first.traceId first.peer, false⟩ (.new first.socket) rfl rfl rfl
    upgradedFirst
  have atSecond := driveSession_atHandshake platform listener.spf second.envs
    ⟨listener.session platform second.traceId second.peer, false⟩ (.new second.socket) rfl rfl rfl
    upgradedSecond
  rw [Listener.serve_encrypted mode upgradedFirst handshakeFirst,
    Listener.serve_encrypted mode upgradedSecond handshakeSecond, world]
  rcases transaction with same | ⟨line, rest, read, greeting⟩
  · exact driveSession_alike platform listener.spf _ _ _ _ _
      ⟨rfl, atFirst.alike atSecond carried same⟩ lines
  · cases (listener.plaintextPhase platform second).envs with
    | nil => rfl
    | cons env envs =>
        refine driveSession_first platform listener.spf env envs lines ?_
          (driveSession_alike platform listener.spf envs)
        intro found remaining again
        cases read.symm.trans again
        exact atFirst.greeted platform listener.spf ⟨env, line⟩ atSecond carried greeting

/-- A server that offers STARTTLS and then decrypts some lines. -/
def upgradingListener (encrypted : String) : Listener where
  config := { exampleConfig with tlsEnabled := true }
  mode := .smtp
  proxyProtocol := false
  spf := none
  tlsAcceptor := some (fun _ => some [encode encrypted.toList])

/-- A client that sends some lines in the clear. There is an environment for each of
them and for three more. -/
def upgradingClient (plaintext : String) (lines : Nat) : Connection where
  traceId := "t"
  peer := "192.0.2.1"
  socket := [encode plaintext.toList]
  envs := List.replicate lines exampleEnv ++ List.replicate 3 exampleEnv

theorem upgradingClient_envs {plaintext : String} {lines : Nat}
    (upgraded : (listener.plaintextPhase .ascii (upgradingClient plaintext lines)).outcome =
        .upgrade ∧
      (listener.plaintextPhase .ascii (upgradingClient plaintext lines)).trace.length = lines) :
    (listener.plaintextPhase .ascii (upgradingClient plaintext lines)).envs =
      List.replicate 3 exampleEnv := by
  refine (driveSession_envs _ _ _ _ _ upgraded.1).trans ?_
  rw [show (driveSession _ _ _ _ _).trace.length = lines from upgraded.2]
  simp [upgradingClient]

theorem upgradingListener_decrypts (encrypted : String) (connection : Connection) :
    (upgradingListener encrypted).decrypts .ascii connection = some [encode encrypted.toList] :=
  rfl

/-- An envelope sent and a command buffered in plaintext make no difference to a client
that greets again. -/
theorem greeting_client_unaffected :
    let listener := upgradingListener "EHLO c\r\nMAIL FROM:<a@b.example>\r\nDATA\r\n"
    let first := upgradingClient "EHLO x\r\nMAIL FROM:<x@b.example>\r\nSTARTTLS\r\nQUIT\r\n" 3
    let second := upgradingClient "STARTTLS\r\n" 1
    (listener.serve .ascii first).encrypted.length = 3 ∧
      responses (listener.serve .ascii first).encrypted =
        responses (listener.serve .ascii second).encrypted := by
  intro listener first second
  have upgradedFirst : (listener.plaintextPhase .ascii first).outcome = .upgrade ∧
      (listener.plaintextPhase .ascii first).trace.length = 3 := by
    decide
  have upgradedSecond : (listener.plaintextPhase .ascii second).outcome = .upgrade ∧
      (listener.plaintextPhase .ascii second).trace.length = 1 := by
    decide
  have carried : Carried (listener.plaintextPhase .ascii first).driver.session
      (listener.plaintextPhase .ascii second).driver.session :=
    ⟨by decide, by decide, by decide⟩
  have greets : Greets (.new [encode "EHLO c\r\nMAIL FROM:<a@b.example>\r\nDATA\r\n"]) :=
    ⟨_, _, rfl, .inl (by decide)⟩
  refine ⟨by decide, ?_⟩
  exact encrypted_phase_continues_session .ascii listener rfl first second upgradedFirst.1
    upgradedSecond.1 _ _ (upgradingListener_decrypts _ first) (upgradingListener_decrypts _ second)
    (fun _ => rfl) ((upgradingClient_envs upgradedFirst).trans
      (upgradingClient_envs upgradedSecond).symm) carried (.inr greets)

/-- The same lines after the handshake, from the same address and with the same store,
store a message addressed in plaintext, or are refused. -/
theorem plaintext_envelope_survives_upgrade :
    let listener := upgradingListener "DATA\r\n\r\n.\r\n"
    let first := upgradingClient
      "EHLO c\r\nMAIL FROM:<a@b.example>\r\nRCPT TO:<info@in.example>\r\nSTARTTLS\r\n" 4
    let second := upgradingClient "EHLO c\r\nSTARTTLS\r\n" 2
    let decrypted := [encode "DATA\r\n\r\n.\r\n"]
    (listener.plaintextPhase .ascii first).outcome = .upgrade ∧
      (listener.plaintextPhase .ascii second).outcome = .upgrade ∧
      first.peer = second.peer ∧
      (listener.plaintextPhase .ascii first).envs = (listener.plaintextPhase .ascii second).envs ∧
      listener.decrypts .ascii first = some decrypted ∧
      listener.decrypts .ascii second = some decrypted ∧
      (responses (listener.serve .ascii first).encrypted).map (·.reply) ≠
        (responses (listener.serve .ascii second).encrypted).map (·.reply) ∧
      (handedOver (listener.serve .ascii first).encrypted).length = 1 ∧
      (handedOver (listener.serve .ascii second).encrypted).length = 0 := by
  intro listener first second decrypted
  have upgradedFirst : (listener.plaintextPhase .ascii first).outcome = .upgrade ∧
      (listener.plaintextPhase .ascii first).trace.length = 4 := by
    decide
  have upgradedSecond : (listener.plaintextPhase .ascii second).outcome = .upgrade ∧
      (listener.plaintextPhase .ascii second).trace.length = 2 := by
    decide
  have world := (upgradingClient_envs upgradedFirst).trans (upgradingClient_envs upgradedSecond).symm
  refine ⟨upgradedFirst.1, upgradedSecond.1, rfl, world, upgradingListener_decrypts _ first,
    upgradingListener_decrypts _ second, ?_⟩
  decide +kernel

end Camelmailer.Smtp
