import Camelmailer.Smtp.Server

/-!
# No password in the clear

When TLS is enabled and required for authentication, no key is looked up and no
CRAM-MD5 response is compared for a line that arrives before the handshake. An AUTH
exchange cannot begin while the session is not permitted to authenticate, and STARTTLS,
which grants that permission before the handshake has happened, ends the plaintext
phase with the line it stands on. What a plaintext session can hold is the credential
of the client's address.
-/

namespace Camelmailer.Smtp

open Utf8

/-- The calls that check a secret sent by the client. -/
def Call.checksSecret : Call → Bool
  | .findSmtpCredentialByKey _ => true
  | .compareCramMd5 _ => true
  | _ => false

/-- A credential that one of the lines found by the client's address. -/
def FoundByAddress (past : List ServeEvent) (credential : Credential) : Prop :=
  ∃ event ∈ past, ∃ ip, .findIpCredential ip ∈ event.output.calls ∧
    event.input.env.store.findIpCredential ip = some credential

/-- The invariant of the plaintext phase. -/
structure Cleartext (past : List ServeEvent) (session : Session) : Prop where
  enabled : session.config.tlsEnabled = true
  required : session.config.authRequiresTls = true
  plain : session.startTls = false → session.tls = false
  mode : session.inputMode = .command ∨ session.inputMode = .data
  credential : ∀ credential, session.credential = some credential → FoundByAddress past credential

theorem FoundByAddress.later {past : List ServeEvent} {credential : Credential}
    (found : FoundByAddress past credential) (event : ServeEvent) :
    FoundByAddress (past ++ [event]) credential := by
  obtain ⟨earlier, member, looked⟩ := found
  exact ⟨earlier, List.mem_append_left _ member, looked⟩

section Step

variable {platform : Platform} {env : Env} {session : Session} {step : Step}

/-- In the clear no AUTH exchange completes. -/
theorem Cleartext.unauthenticated {past : List ServeEvent} (clear : Cleartext past session)
    (unencrypted : session.startTls = false) (data : Text) : session.authPermitted = false ∧
      ¬ completesAuth session data := by
  have forbidden : session.authPermitted = false := by
    unfold Session.authPermitted
    rw [clear.plain unencrypted, clear.enabled, clear.required]
    rfl
  refine ⟨forbidden, ?_⟩
  rintro (⟨-, permitted⟩ | ⟨-, mode | mode | ⟨challenge, mode⟩⟩)
  · rw [forbidden] at permitted
    cases permitted
  all_goals rcases clear.mode with current | current <;> rw [current] at mode <;> cases mode

/-- In the clear a line keeps the configuration and the phase, asks for no further
line of an AUTH exchange, checks no secret, and may find the client's address. -/
theorem Reaction.cleartext {past : List ServeEvent} {data : Text}
    (reaction : Reaction platform env session data step) (event : ServeEvent) (clear : Cleartext past session)
    (unencrypted : session.startTls = false) (world : event.input.env = env)
    (called : event.output.calls = step.calls) :
    Cleartext (past ++ [event]) step.session ∧
      ∀ call ∈ step.calls, call.checksSecret = false := by
  obtain ⟨forbidden, incomplete⟩ := clear.unauthenticated unencrypted data
  have kept : ∀ credential, session.credential = some credential →
      FoundByAddress (past ++ [event]) credential :=
    fun credential held => (clear.credential credential held).later event
  cases reaction
  case secured => exact ⟨⟨clear.enabled, clear.required, nofun, clear.mode, kept⟩, List.forall_mem_nil _⟩
  case challenged mode text pending begun =>
    rcases begun with ⟨mechanism, -, permitted⟩ | ⟨-, waiting⟩
    · rw [forbidden] at permitted
      cases permitted
    · rcases clear.mode with current | current <;> rw [current] at waiting <;> cases waiting
  case authenticated last outcome => exact absurd last incomplete
  case opened => exact ⟨⟨clear.enabled, clear.required, clear.plain, .inr rfl, kept⟩, List.forall_mem_nil _⟩
  case concluded finished =>
    obtain ⟨text, calls, conclusion, rfl⟩ := finishData_concluded finished
    refine ⟨⟨clear.enabled, clear.required, clear.plain, .inl rfl, kept⟩, ?_⟩
    intro call member
    have silent := conclusion.authenticates call member
    cases call <;> first | rfl | cases silent
  case recipient settled calls inner command ready checked envelope =>
    have quiet : ∀ call ∈ calls, call.checksSecret = false := by
      cases checked <;> simp [Call.checksSecret]
    have settledClear : Cleartext (past ++ [event]) settled := by
      cases checked with
      | unneeded | unknown => exact ⟨clear.enabled, clear.required, clear.plain, clear.mode, kept⟩
      | known ip credential anonymous found =>
          refine ⟨clear.enabled, clear.required, clear.plain, clear.mode, ?_⟩
          rintro other held
          cases held
          exact ⟨event, by simp, ip, by simp [called], by rw [world]; exact found⟩
    refine ⟨?_, quiet⟩
    cases envelope <;> exact ⟨settledClear.enabled, settledClear.required, settledClear.plain,
      settledClear.mode, settledClear.credential⟩
  all_goals exact ⟨⟨clear.enabled, clear.required, clear.plain, clear.mode, kept⟩, List.forall_mem_nil _⟩

end Step

/-- One line of the plaintext phase. -/
theorem serveLine_cleartext {platform : Platform} {spf : Option SpfContext}
    {past : List ServeEvent} {driver next : Driver} {input : LineInput} {response : Response}
    (clear : Cleartext past driver.session) (unencrypted : driver.session.startTls = false)
    (served : serveLine platform spf driver input = some (response, next)) :
    Cleartext (past ++ [⟨driver, input, response, next⟩]) next.session ∧
      ∀ call ∈ response.calls, call.checksSecret = false := by
  obtain ⟨checked, spfChecked, stepped, -⟩ := serveLine_inv served
  obtain ⟨value, annotated⟩ := checkSpf_frame spfChecked
  rw [annotated] at stepped
  obtain ⟨step, reaction, rfl, after⟩ := sessionStep_reaction stepped
  obtain ⟨kept, quiet⟩ := reaction.cleartext ⟨driver, input, ⟨step.reply, step.calls⟩, next⟩
    ⟨clear.enabled, clear.required, clear.plain, clear.mode, clear.credential⟩ unencrypted rfl rfl
  refine ⟨?_, quiet⟩
  rw [after]
  exact ⟨kept.enabled, kept.required, kept.plain, kept.mode, kept.credential⟩

/-- With TLS enabled and required, no line of the plaintext phase of any connection
makes a key lookup or a CRAM-MD5 comparison, and a credential held after such a line
has been found by the client's address. -/
theorem no_secret_checked_in_the_clear (platform : Platform) (listener : Listener)
    (traceId peer : Text) (socket : List Bytes) (envs : List Env)
    (enabled : listener.config.tlsEnabled = true)
    (required : listener.config.authRequiresTls = true) :
    ∀ past event later, (handleConnection platform listener traceId peer socket envs).plaintext =
        past ++ event :: later →
      (∀ call ∈ event.output.calls, call.checksSecret = false) ∧
      ∀ credential, event.after.session.credential = some credential →
        FoundByAddress (past ++ [event]) credential := by
  intro past event later split
  have trace : (handleConnection platform listener traceId peer socket envs).plaintext = [] ∨
      (handleConnection platform listener traceId peer socket envs).plaintext =
        (driveSession platform listener.spf envs
          ⟨listener.session platform traceId peer, false⟩ (.new socket)).trace := by
    unfold handleConnection
    cases listener.mode with
    | smtps => exact .inl rfl
    | smtp =>
        right
        dsimp only
        split <;> rfl
  rcases trace with vacant | driven
  · rw [vacant] at split
    simp at split
  obtain ⟨inputs, last, ran, -, unencrypted⟩ := driveSession_run platform listener.spf envs
    ⟨listener.session platform traceId peer, false⟩ (.new socket) rfl
  have initial : Cleartext [] (listener.session platform traceId peer) :=
    ⟨enabled, required, fun _ => rfl, .inl rfl, nofun⟩
  have invariant := Machine.run_invariant (fun past driver => Cleartext past driver.session)
    (fun event => event.before.session.startTls = false)
    (fun past before input output after clear served guard =>
      (serveLine_cleartext clear guard served).1)
    inputs [] _ last _ initial ran unencrypted
  rw [driven] at split
  obtain ⟨clear, served⟩ := invariant.2 past event later split
  obtain ⟨after, quiet⟩ := serveLine_cleartext clear
    (unencrypted event (by rw [split]; simp)) served
  exact ⟨quiet, after.credential⟩

/-- A listener that requires TLS, with a client that then sends an AUTH command. -/
def secureListener : Listener where
  config := { exampleConfig with tlsEnabled := true }
  mode := .smtp
  proxyProtocol := false
  spf := none
  tlsAcceptor := some (fun _ => some [encode "AUTH PLAIN AABh\r\n"])

/-- A client that tries AUTH before and after STARTTLS. -/
def secureConnection : Served :=
  handleConnection .ascii secureListener "t" "192.0.2.1"
    [encode "EHLO c\r\nAUTH PLAIN AABh\r\nSTARTTLS\r\n"] (List.replicate 5 exampleEnv)

/-- The first attempt looks nothing up, the second one does. -/
theorem secure_connection_checks_after_handshake :
    secureConnection.plaintext.length = 3 ∧
      secureConnection.encrypted.any (fun event =>
        event.output.calls.any Call.checksSecret) = true ∧
      ∀ event ∈ secureConnection.plaintext, ∀ call ∈ event.output.calls,
        call.checksSecret = false := by
  refine ⟨by decide, by decide, ?_⟩
  intro event member
  obtain ⟨past, later, split⟩ := List.append_of_mem member
  exact (no_secret_checked_in_the_clear .ascii secureListener "t" "192.0.2.1"
    [encode "EHLO c\r\nAUTH PLAIN AABh\r\nSTARTTLS\r\n"] (List.replicate 5 exampleEnv)
    rfl rfl past event later split).1

end Camelmailer.Smtp
