import Camelmailer.Core.Credentials
import Camelmailer.Smtp.Server

/-!
# Credentials on hold

A connection meets the credentials table at every line, and an operator may put a credential on
hold between any two of them. A session takes a credential over from a lookup that does not read
the flag, and keeps it.

The results are exact about how a held credential gets into a session: a line shows one, or one
that the session has is put on hold. As long as neither happens, no message is handed over on the
authority of a credential that is on hold at that moment.
-/

namespace Camelmailer.Smtp

open Utf8
open Spf (IpSyntax)

/-! ## Lines that show a credential -/

/-- The credential of the client's address, if an RCPT TO line makes a session look for it. -/
def addressCredential (platform : Platform) (env : Env) (session : Session) (data : Text) :
    Option Credential :=
  if commandOf session data = some .rcptTo ∧ session.credential = none ∧
      (session.state = .mailFromReceived ∨ session.state = .rcptToReceived) then
    ((extractAddress data "RCPT TO").bind (Str.splitOnce '@')).bind (fun parts =>
      if parts.2 = [] ∨ isReturnPath platform session.config parts.2 = true ∨
          parts.2 = session.config.routeDomain ∨
          (env.store.findRouteByNameAndDomain (splitTag parts.1).1 parts.2).isSome = true then none
      else (session.ipAddress.bind platform.parseIp).bind env.store.findIpCredential)
  else none

/-- A line shows a credential: by the end of an AUTH exchange or by the client's address. -/
def Shows (platform : Platform) (env : Env) (session : Session) (data : Text)
    (credential : Credential) : Prop :=
  presented platform env session data = some credential ∨
    addressCredential platform env session data = some credential

instance (platform : Platform) (env : Env) (session : Session) (data : Text)
    (credential : Credential) : Decidable (Shows platform env session data credential) :=
  inferInstanceAs (Decidable (_ ∨ _))

section Step

variable {platform : Platform} {env : Env} {session : Session} {data : Text} {step : Step}

theorem Enveloped.credential (envelope : Enveloped platform env session data step) :
    step.session.credential = session.credential := by
  cases envelope <;> rfl

/-- A client without a credential is judged as the one its address belongs to, if any. -/
theorem rcptByAddress_credential {address localPart domain : Text}
    (named : Addressed data address localPart domain)
    (elsewhere : Elsewhere platform session.config domain) (anonymous : session.credential = none)
    (again : ∀ retry credential, rcptToOnce platform env retry
      { session with credential := some credential } data =
        rcptAddress platform env retry { session with credential := some credential }
          address localPart domain)
    (reacted : rcptByAddress platform env (fun authenticated =>
      rcptToOnce platform env (fun _ => none) authenticated data) session = some step) :
    step.session.credential = (session.ipAddress.bind platform.parseIp).bind
      env.store.findIpCredential := by
  unfold rcptByAddress at reacted
  cases located : session.ipAddress.bind platform.parseIp with
  | none =>
      rw [located] at reacted
      cases reacted
      exact anonymous
  | some ip =>
      rw [located] at reacted
      dsimp only at reacted
      rw [Option.bind_some]
      cases found : env.store.findIpCredential ip with
      | none =>
          rw [found] at reacted
          cases reacted
          exact anonymous
      | some credential =>
          rw [found] at reacted
          obtain ⟨inner, judged, rfl⟩ := Option.map_eq_some_iff.mp reacted
          rw [again] at judged
          unfold rcptAddress at judged
          dsimp only at judged
          rw [if_neg (by simp [elsewhere.1]), if_neg elsewhere.2] at judged
          obtain rfl := Option.some.inj judged
          have envelope : Enveloped platform env { session with credential := some credential }
              data _ := rcptCredential_enveloped named elsewhere rfl
          exact envelope.credential

/-- An RCPT TO line leaves the session its credential or gives it that of its address. -/
theorem rcptTo_credential
    (ready : session.state = .mailFromReceived ∨ session.state = .rcptToReceived)
    (command : commandOf session data = some .rcptTo)
    (reacted : rcptTo platform env session data = some step) :
    step.session.credential = session.credential ∨
      step.session.credential = addressCredential platform env session data := by
  obtain ⟨text, -, rfl⟩ | ⟨address, localPart, domain, named, visible, again, judged⟩ :=
    rcptToOnce_cases ready reacted
  · exact .inl rfl
  unfold rcptAddress at judged
  dsimp only at judged
  by_cases returnPath : isReturnPath platform session.config domain = true
  · rw [if_pos returnPath] at judged
    obtain rfl := Option.some.inj judged
    have envelope : Enveloped platform env session data _ :=
      rcptReturnPath_enveloped named returnPath
    exact .inl envelope.credential
  rw [if_neg returnPath] at judged
  have foreign : isReturnPath platform session.config domain = false := by simpa using returnPath
  by_cases direct : domain = session.config.routeDomain
  · rw [if_pos direct] at judged
    obtain rfl := Option.some.inj judged
    have envelope : Enveloped platform env session data _ :=
      rcptRouteToken_enveloped named foreign direct
    exact .inl envelope.credential
  rw [if_neg direct] at judged
  have elsewhere : Elsewhere platform session.config domain := ⟨foreign, direct⟩
  cases held : session.credential with
  | some credential =>
      rw [held] at judged
      obtain rfl := Option.some.inj judged
      have envelope : Enveloped platform env session data _ :=
        rcptCredential_enveloped named elsewhere held
      exact .inl (envelope.credential.trans held)
  | none =>
      rw [held] at judged
      cases found : env.store.findRouteByNameAndDomain (splitTag localPart).1 domain with
      | some resolved =>
          rw [found] at judged
          obtain rfl := Option.some.inj judged
          have envelope : Enveloped platform env session data _ :=
            rcptRoute_enveloped named elsewhere held found
          exact .inl (envelope.credential.trans held)
      | none =>
          rw [found] at judged
          have settled := rcptByAddress_credential named elsewhere held again judged
          refine .inr (settled.trans ?_)
          unfold addressCredential
          rw [if_pos ⟨command, held, ready⟩, named.1, Option.bind_some, named.2, Option.bind_some,
            if_neg (by simp [visible, foreign, direct, found])]

/-- A line leaves the session its credential or gives it one that the line shows. -/
theorem dispatch_credential (reacted : dispatch platform env session data = some step) :
    ∀ credential, step.session.credential = some credential →
      session.credential = some credential ∨ Shows platform env session data credential := by
  intro credential held
  have reaction := dispatch_reaction reacted
  cases reaction
  case authenticated last outcome =>
    cases outcome with
    | denied => exact .inl held
    | granted found text calls known lookups =>
        obtain rfl := Option.some.inj held
        exact .inr (.inl known)
  case recipient settled calls inner command ready checked envelope =>
    have connected : session.state ≠ .preauth := by
      rcases ready with ready | ready <;> rw [ready] <;> decide
    have judged : rcptTo platform env session data = some ⟨inner.session, inner.reply, calls⟩ := by
      unfold dispatch handleCommand at reacted
      rw [if_neg connected, commandOf_inputMode command] at reacted
      rw [commandOf_recognize command] at reacted
      exact reacted
    rcases rcptTo_credential ready command judged with same | shown
    · exact .inl (same.symm.trans held)
    · exact .inr (.inr (shown.symm.trans held))
  case concluded connected mode ended finished =>
    obtain ⟨text, calls, -, rfl⟩ := finishData_concluded finished
    exact .inl held
  all_goals exact .inl held

/-- The credential of an outgoing record is the one that the session has. -/
theorem queuedMessage_credentialId {content : Bytes} {domainId : Option Id} {recipient : Recipient}
    {message : QueuedMessage}
    (built : queuedMessage env session content domainId recipient = some message) {id : Id}
    (recorded : message.credentialId = some id) :
    ∃ credential, session.credential = some credential ∧ credential.id = id := by
  unfold queuedMessage at built
  cases kind : recipient.kind <;> rw [kind] at built <;> dsimp only at built
  case credential =>
    obtain rfl := Option.some.inj built
    exact Option.map_eq_some_iff.mp recorded
  case bounce =>
    split at built <;> obtain rfl := Option.some.inj built <;> cases recorded
  case route =>
    obtain ⟨resolved, -, rfl⟩ := Option.map_eq_some_iff.mp built
    cases recorded

end Step

section Serve

variable {platform : Platform} {spf : Option SpfContext} {driver next : Driver} {input : LineInput}
  {response : Response}

theorem serveLine_credential
    (served : serveLine platform spf driver input = some (response, next)) :
    ∀ credential, next.session.credential = some credential →
      driver.session.credential = some credential ∨
        Shows platform input.env driver.session (chomp input.line) credential := by
  intro credential held
  obtain ⟨checked, spfChecked, stepped, -⟩ := serveLine_inv served
  obtain ⟨value, annotated⟩ := checkSpf_frame spfChecked
  obtain ⟨step, dispatched, -, after⟩ := sessionStep_dispatch stepped
  rw [annotated] at dispatched
  rw [after] at held
  exact dispatch_credential dispatched credential held

/-- Whoever hands a message over on the authority of a credential has that credential. -/
theorem serveLine_authority
    (served : serveLine platform spf driver input = some (response, next)) {message : QueuedMessage}
    (handed : message ∈ response.calls.flatMap Call.handed) {id : Id}
    (recorded : message.credentialId = some id) :
    ∃ credential, driver.session.credential = some credential ∧ credential.id = id := by
  obtain ⟨value, content, domainId, recipient, -, built⟩ := serveLine_built served handed
  exact queuedMessage_credentialId built recorded

end Serve

/-! ## The environments of a connection -/

/-- Every line of a phase is handled in the next environment, and a phase that ends in an upgrade
leaves the others to the phase after it. -/
theorem driveSession_environments (platform : Platform) (spf : Option SpfContext) (envs : List Env)
    (driver : Driver) (stream : LineStream) :
    ∃ others, envs =
        (driveSession platform spf envs driver stream).trace.map (·.input.env) ++ others ∧
      ((driveSession platform spf envs driver stream).outcome = .upgrade →
        (driveSession platform spf envs driver stream).envs = others) := by
  induction envs generalizing driver stream with
  | nil => exact ⟨[], rfl, fun never => by cases never⟩
  | cons env envs ih =>
      unfold driveSession
      cases read : stream.readLine with
      | none => exact ⟨env :: envs, rfl, fun never => by cases never⟩
      | some parts =>
          obtain ⟨line, rest⟩ := parts
          dsimp only
          cases serveLine platform spf driver ⟨env, line⟩ with
          | none => exact ⟨env :: envs, rfl, fun never => by cases never⟩
          | some reaction =>
              dsimp only
              split_ifs
              · exact ⟨envs, rfl, fun _ => rfl⟩
              · exact ⟨envs, rfl, fun never => by cases never⟩
              · obtain ⟨others, used, left⟩ := ih reaction.2 rest
                exact ⟨others, congrArg (env :: ·) used, left⟩

/-- Every line of a connection is handled in the next environment. -/
theorem handleConnection_environments (platform : Platform) (listener : Listener)
    (traceId peer : Text) (socket : List Bytes) (envs : List Env) :
    (handleConnection platform listener traceId peer socket envs).trace.map (·.input.env) <+:
      envs := by
  have encrypted (session : Session) (incoming : List Bytes) (remaining : List Env) :
      (encryptedPhase platform listener session incoming remaining).map (·.input.env) <+:
        remaining := by
    unfold encryptedPhase
    split
    · exact List.nil_prefix
    · obtain ⟨others, used, -⟩ := driveSession_environments platform listener.spf remaining _ _
      exact ⟨others, used.symm⟩
  unfold handleConnection Served.trace
  cases listener.mode with
  | smtps => exact encrypted _ _ _
  | smtp =>
      obtain ⟨others, used, left⟩ := driveSession_environments platform listener.spf envs
        ⟨listener.session platform traceId peer, false⟩ (.new socket)
      dsimp only
      generalize driveSession platform listener.spf envs
        ⟨listener.session platform traceId peer, false⟩ (.new socket) = first at used left ⊢
      obtain rfl := used
      split
      case isTrue upgraded =>
        rw [left upgraded, List.map_append]
        exact (List.prefix_append_right_inj _).mpr (encrypted _ _ _)
      case isFalse =>
        rw [List.append_nil]
        exact List.prefix_append _ _

/-! ## Moments -/

/-- What a line meets: the world, and the rows of the credentials table in it. -/
structure Moment where
  env : Env
  credentials : List CredentialRow

/-- The world of a moment. Its store looks credentials up in the rows. -/
def Moment.world (syn : IpSyntax) (moment : Moment) : Env :=
  { moment.env with store := moment.env.store.withCredentials syn moment.credentials }

/-- Whether a credential is on hold. -/
def Moment.OnHold (moment : Moment) (id : Id) : Prop := CredentialRow.OnHold moment.credentials id

instance (moment : Moment) (id : Id) : Decidable (moment.OnHold id) :=
  inferInstanceAs (Decidable (CredentialRow.OnHold moment.credentials id))

/-- What keeps a held credential out of a session at a line that comes after others: the line shows
none that is on hold, and the one that the session has was not put on hold since the line before. -/
structure Unheld (platform : Platform) (moments : List Moment) (front : List ServeEvent)
    (event : ServeEvent) : Prop where
  shown : ∀ moment ∈ moments[front.length]?, ∀ credential,
    Shows platform event.input.env event.before.session (chomp event.input.line) credential →
      ¬ moment.OnHold credential.id
  kept : ∀ earlier ∈ moments[front.length - 1]?, ∀ moment ∈ moments[front.length]?,
    ∀ credential ∈ event.before.session.credential,
      ¬ earlier.OnHold credential.id → ¬ moment.OnHold credential.id

/-- Lines are handled in the moments in turn. -/
def Timed (syn : IpSyntax) (moments : List Moment) (events : List ServeEvent) : Prop :=
  events.map (·.input.env) <+: moments.map (Moment.world syn)

/-- The credential of a session was not on hold at the last line. -/
def Clear (moments : List Moment) (past : List ServeEvent) (session : Session) : Prop :=
  ∀ credential, session.credential = some credential →
    past ≠ [] ∧ ∀ moment ∈ moments[past.length - 1]?, ¬ moment.OnHold credential.id

section Moments

variable {platform : Platform} {syn : IpSyntax} {moments : List Moment}

theorem Timed.moment {front back : List ServeEvent} {event : ServeEvent}
    (timed : Timed syn moments (front ++ event :: back)) :
    ∃ moment, moments[front.length]? = some moment ∧ moment.world syn = event.input.env := by
  obtain ⟨others, split⟩ := timed
  have reached : (moments.map (Moment.world syn))[front.length]? = some event.input.env := by
    rw [← split]
    simp
  rw [List.getElem?_map] at reached
  exact Option.map_eq_some_iff.mp reached

/-- The credential of a session is not on hold at a line either. -/
theorem Clear.now {front : List ServeEvent} {event : ServeEvent}
    (clear : Clear moments front event.before.session)
    (unheld : Unheld platform moments front event) {credential : Credential}
    (held : event.before.session.credential = some credential) :
    ∀ moment ∈ moments[front.length]?, ¬ moment.OnHold credential.id := by
  intro moment reached
  obtain ⟨-, earlier⟩ := clear credential held
  have bound : front.length < moments.length := (List.getElem?_eq_some_iff.mp reached).1
  have before : front.length - 1 < moments.length := by omega
  exact unheld.kept _ (List.getElem?_eq_getElem before) moment reached credential held
    (earlier _ (List.getElem?_eq_getElem before))

theorem serveLine_clear {spf : Option SpfContext} {past : List ServeEvent} (event : ServeEvent)
    (served : serveLine platform spf event.before event.input = some (event.output, event.after))
    (clear : Clear moments past event.before.session)
    (unheld : Unheld platform moments past event) :
    Clear moments (past ++ [event]) event.after.session := by
  intro credential held
  refine ⟨by simp, ?_⟩
  intro moment reached
  rw [List.length_append] at reached
  rcases serveLine_credential served credential held with before | shown
  · exact clear.now unheld before moment reached
  · exact unheld.shown moment reached credential shown

end Moments

/-- As long as no line shows a credential that is on hold, and none that a session has is put on
hold, no message is handed over on the authority of a credential that is on hold at that moment. A
key on hold authenticates no API request, ever. -/
theorem held_credentials_send_nothing (platform : Platform) (syn : IpSyntax) (listener : Listener)
    (traceId peer : Text) (socket : List Bytes) (moments : List Moment) :
    let trace := (handleConnection platform listener traceId peer socket
      (moments.map (Moment.world syn))).trace
    ((∀ front event back, trace = front ++ event :: back → Unheld platform moments front event) →
      ∀ front event back, trace = front ++ event :: back → ∃ moment,
        moments[front.length]? = some moment ∧ moment.world syn = event.input.env ∧
        ∀ message ∈ event.output.calls.flatMap Call.handed, ∀ id ∈ message.credentialId,
          ¬ moment.OnHold id) ∧
    ∀ (rows : List CredentialRow) (servers : Id → Option Server) (key : Text) (server : Server),
      CredentialRow.serverForApiToken rows servers key = some server →
        ∃ row ∈ rows, row.credentialType = .api ∧ row.key = key ∧ row.hold = false ∧
          servers row.serverId = some server := by
  intro trace
  have timed : Timed syn moments trace :=
    handleConnection_environments platform listener traceId peer socket _
  refine ⟨?_, fun rows servers key server found => CredentialRow.serverForApiToken_unheld found⟩
  intro unheld front event back split
  have invariant := handleConnection_invariant platform listener
    (fun past driver => (∃ later, trace = past ++ later) → Clear moments past driver.session)
    traceId peer socket (moments.map (Moment.world syn))
    (by
      intro tls _ credential held
      unfold Listener.session at held
      split_ifs at held <;> cases held)
    (by
      rintro past before input response after clear served ⟨later, reached⟩
      rw [List.append_assoc] at reached
      exact serveLine_clear ⟨before, input, response, after⟩ served (clear ⟨_, reached⟩)
        (unheld past _ later reached))
    (fun past driver clear reached => clear reached)
  obtain ⟨clear, served⟩ := invariant front event back split
  obtain ⟨moment, reached, same⟩ := (split ▸ timed : Timed syn moments _).moment
  refine ⟨moment, reached, same, ?_⟩
  intro message handed id recorded
  obtain ⟨credential, held, rfl⟩ := serveLine_authority served handed recorded
  exact (clear ⟨_, split⟩).now (unheld front event back split) held moment reached

/-- Two SMTP credentials, the second of which is on hold. -/
def exampleMoment : Moment where
  env := exampleEnv
  credentials := [⟨⟨10, 1, .smtp, ['a']⟩, false⟩, ⟨⟨20, 2, .smtp, ['b']⟩, true⟩]

/-- No key of an example is a network. -/
def hostSyntax : IpSyntax where
  parseNet := fun _ => none
  parseIp := parseIpv4

def exampleListener : Listener where
  config := { exampleConfig with authRequiresTls := false }
  mode := .smtp
  proxyProtocol := false
  spf := none
  tlsAcceptor := none

/-- What a client writes that authenticates and submits one message. -/
def submission (argument sender : String) : Bytes :=
  encode ("EHLO c\r\nAUTH PLAIN " ++ argument ++ "\r\nMAIL FROM:<" ++ sender ++
    ">\r\nRCPT TO:<x@y.example>\r\nDATA\r\nFrom: " ++ sender ++ "\r\n\r\n.\r\n").toList

/-- What happens when it does. -/
def submitting (argument sender : String) : List ServeEvent :=
  (handleConnection .ascii exampleListener "t" "192.0.2.1"
    [submission argument sender]
    ((List.replicate 8 exampleMoment).map (Moment.world hostSyntax))).trace

/-- Whether a message is handed over on the authority of a credential. -/
def sendsAs (id : Id) (event : ServeEvent) : Bool :=
  (event.output.calls.flatMap Call.handed).any (fun message => message.credentialId == some id)

/-- A client sends on the authority of the credential that is not on hold. -/
theorem unheld_credential_sends :
    (submitting "AABh" "me@a.example").any (sendsAs 10) = true ∧
    ∀ front event back, submitting "AABh" "me@a.example" = front ++ event :: back → ∃ moment,
      (List.replicate 8 exampleMoment)[front.length]? = some moment ∧
      moment.world hostSyntax = event.input.env ∧
      ∀ message ∈ event.output.calls.flatMap Call.handed, ∀ id ∈ message.credentialId,
        ¬ moment.OnHold id := by
  refine ⟨by decide +kernel, ?_⟩
  apply (held_credentials_send_nothing .ascii hostSyntax exampleListener "t"
    "192.0.2.1" [submission "AABh" "me@a.example"] (List.replicate 8 exampleMoment)).1
  intro front event back split
  have lines : (submitting "AABh" "me@a.example").all (fun event =>
      (presented .ascii event.input.env event.before.session (chomp event.input.line)).all
        (fun credential => decide (¬ exampleMoment.OnHold credential.id)) &&
      (addressCredential .ascii event.input.env event.before.session (chomp event.input.line)).all
        (fun credential => decide (¬ exampleMoment.OnHold credential.id))) = true := by
    decide +kernel
  have member : event ∈ submitting "AABh" "me@a.example" := by
    rw [submitting, split]
    exact List.mem_append_right _ List.mem_cons_self
  have line := List.all_eq_true.mp lines event member
  obtain ⟨authenticated, addressed⟩ := Bool.and_eq_true_iff.mp line
  have same {index : Nat} {moment : Moment}
      (reached : (List.replicate 8 exampleMoment)[index]? = some moment) :
      moment = exampleMoment := List.eq_of_mem_replicate (List.mem_of_getElem? reached)
  constructor
  · intro moment reached credential shown
    rw [same reached]
    rcases shown with shown | shown
    · exact of_decide_eq_true ((Option.all_eq_true _ _).mp authenticated credential shown)
    · exact of_decide_eq_true ((Option.all_eq_true _ _).mp addressed credential shown)
  · intro earlier before moment reached credential _ unheld
    rw [same reached]
    rw [same before] at unheld
    exact unheld

/-- A client authenticates with the credential that is on hold, and its message is handed over on
the authority of that credential. -/
theorem held_credential_sends :
    ∃ front event back, submitting "AABi" "me@b.example" = front ++ event :: back ∧
      (List.replicate 8 exampleMoment)[front.length]? = some exampleMoment ∧
      ∃ message ∈ event.output.calls.flatMap Call.handed, ∃ id ∈ message.credentialId,
        exampleMoment.OnHold id := by
  have sends : (submitting "AABi" "me@b.example").any (sendsAs 20) = true := by decide +kernel
  obtain ⟨event, member, sent⟩ := List.any_eq_true.mp sends
  obtain ⟨message, handed, recorded⟩ := List.any_eq_true.mp sent
  obtain ⟨front, back, split⟩ := List.append_of_mem member
  have size : (submitting "AABi" "me@b.example").length = 8 := by decide +kernel
  rw [split, List.length_append, List.length_cons] at size
  refine ⟨front, event, back, split, List.getElem?_replicate_of_lt (by omega), message, handed, 20,
    beq_iff_eq.mp recorded, by decide⟩

end Camelmailer.Smtp
