import Camelmailer.Smtp.Server

/-!
# When a line panics

A command is recognised on a trimmed copy of the line, but its operand is cut from the
line itself at a fixed byte offset. White space in front of the command that takes more
than one byte can put the offset inside a character, and slicing there panics. The
server's own test for DATA cuts the trimmed line after four bytes, which the client can
fill as it likes.

These are the only ways to panic. The two failures that the code guards with `expect`
cannot happen: `Sound` is the invariant that excludes them.
-/

namespace Camelmailer.Smtp

open Utf8

/-- A byte offset at which a text can be cut, or past its end. -/
def Boundary (offset : Nat) (text : Text) : Prop :=
  Str.byteLen text < offset ∨ (Str.splitAtByte offset text).isSome = true

instance (offset : Nat) (text : Text) : Decidable (Boundary offset text) := by
  unfold Boundary
  infer_instance

/-- Where the operand of a command is cut: a byte offset, which is the length of the
command word, and the text it is cut from. Only commands the session is ready for are
cut. -/
def operandCut (session : Session) (data : Text) : Option (Nat × Text) :=
  match commandOf session data with
  | some (.auth .plain) => if session.authPermitted then some (10, data) else none
  | some (.auth .login) => if session.authPermitted then some (10, data) else none
  | some .mailFrom =>
      if session.state = .welcomed ∨ session.state = .mailFromReceived then
        some (9, senderLine data)
      else none
  | some .rcptTo =>
      if session.state = .mailFromReceived ∨ session.state = .rcptToReceived then some (7, data)
      else none
  | _ => none

/-- Every cut that a line calls for is between characters. -/
structure Sliceable (session : Session) (line : Text) : Prop where
  operand : ∀ cut ∈ operandCut session (chomp line), Boundary cut.1 cut.2
  dataTest : session.state = .rcptToReceived → Boundary 4 (Str.trimStart line)

/-- The sessions that lines, the transport and the server around them can lead to. -/
inductive Reachable (platform : Platform) : Session → Prop
  | new (config : SessionConfig) (traceId : Text) (ipAddress : Option Text) :
      Reachable platform (Session.new platform config traceId ipAddress)
  | line {session next : Session} (input : LineInput) (response : Response)
      (earlier : Reachable platform session)
      (stepped : sessionStep platform session input = some (response, next)) :
      Reachable platform next
  | transport {session : Session} (startTls tls : Bool) (earlier : Reachable platform session) :
      Reachable platform { session with startTls := startTls, tls := tls }
  | annotated {session : Session} (hostname spf : Option Text)
      (earlier : Reachable platform session) :
      Reachable platform { session with resolvedHostname := hostname, receivedSpf := spf }

/-- The invariant behind the two `expect`s of the source. -/
structure Sound (session : Session) : Prop where
  headers : session.inputMode = .data → session.headers.isSome = true
  routes : ∀ recipient ∈ session.recipients, recipient.kind = .route →
    recipient.route.isSome = true

section Invariant

variable {platform : Platform} {env : Env} {session : Session} {data : Text} {step : Step}

theorem Designates.routed {recipient : Recipient}
    (designated : Designates platform env session data recipient)
    (kind : recipient.kind = .route) : recipient.route.isSome = true := by
  cases designated with
  | bounce => cases kind
  | routeToken => rfl
  | submission => cases kind
  | route => rfl

/-- Without recipients and outside a message there is nothing to keep. -/
theorem Sound.idle (mode : session.inputMode ≠ .data) (vacant : session.recipients = []) :
    Sound session := by
  constructor
  · intro receiving
    exact absurd receiving mode
  · intro recipient member
    rw [vacant] at member
    cases member

theorem Sound.outside (sound : Sound session) {next : Session} (mode : next.inputMode ≠ .data)
    (recipients : next.recipients = session.recipients) : Sound next := by
  constructor
  · intro receiving
    exact absurd receiving mode
  · rw [recipients]
    exact sound.routes

theorem Reaction.sound (reaction : Reaction platform env session data step)
    (sound : Sound session) : Sound step.session := by
  have outside {command : Command} (recognized : commandOf session data = some command) :
      session.inputMode ≠ .data := by
    rw [commandOf_inputMode recognized]
    decide
  cases reaction
  case proxied | closing | secured => exact ⟨sound.headers, sound.routes⟩
  case inert => exact sound
  case premature => exact sound
  case greeted command => exact .idle (command.elim outside outside) rfl
  case reset command => exact .idle (outside command) rfl
  case challenged mode text pending begun => exact sound.outside pending.2 rfl
  case authenticated last outcome => cases outcome <;> exact sound.outside nofun rfl
  case sender address command ready => exact .idle (outside command) rfl
  case opened => exact ⟨fun _ => rfl, sound.routes⟩
  case received headers key receiving connected mode unfinished present =>
    exact ⟨fun _ => present.trans (sound.headers mode), sound.routes⟩
  case concluded finished =>
    obtain ⟨text, calls, -, rfl⟩ := finishData_concluded finished
    exact .idle nofun rfl
  case recipient settled calls inner command ready checked envelope =>
    have settledSound : Sound settled := by
      cases checked <;> exact ⟨sound.headers, sound.routes⟩
    cases envelope with
    | refused state text reached unaccepted => exact ⟨settledSound.headers, settledSound.routes⟩
    | recorded recipient designated =>
        refine ⟨settledSound.headers, ?_⟩
        intro other member kind
        rcases List.mem_append.mp member with earlier | last
        · exact settledSound.routes other earlier kind
        · rw [List.mem_singleton.mp last] at kind ⊢
          exact designated.routed kind

theorem Reachable.sound (reachable : Reachable platform session) : Sound session := by
  induction reachable with
  | new config traceId ipAddress => exact .idle nofun rfl
  | line input response earlier stepped ih =>
      obtain ⟨step, reaction, -, rfl⟩ := sessionStep_reaction stepped
      have sound := reaction.sound ⟨ih.headers, ih.routes⟩
      exact ⟨sound.headers, sound.routes⟩
  | transport startTls tls earlier ih =>
      exact ⟨ih.headers, ih.routes⟩
  | annotated hostname spf earlier ih =>
      exact ⟨ih.headers, ih.routes⟩

end Invariant

/-! ## Operands -/

theorem stripPrefixCi_isSome (data word : Text) :
    (stripPrefixCi data word).isSome = true ↔ Boundary (Str.byteLen word) data := by
  unfold stripPrefixCi Boundary
  by_cases long : Str.byteLen data ≥ Str.byteLen word
  · rw [if_pos long, Option.isSome_map]
    constructor
    · exact .inr
    · rintro (short | cut)
      · omega
      · exact cut
  · rw [if_neg long]
    constructor
    · intro _
      exact .inl (by omega)
    · intro _
      rfl

theorem extractAddress_isSome (data word : Text) :
    (extractAddress data word).isSome = true ↔ Boundary (Str.byteLen word) data := by
  rw [← stripPrefixCi_isSome]
  unfold extractAddress
  cases stripPrefixCi data word with
  | none => rfl
  | some rest => exact iff_of_true rfl rfl

theorem authPlain_isSome (platform : Platform) (env : Env) (session : Session) (data : Text) :
    (authPlain platform env session data).isSome = true ↔ Boundary 10 data := by
  unfold authPlain authArgument
  rw [Option.isSome_map, Option.isSome_map, stripPrefixCi_isSome]
  rfl

theorem authLogin_isSome (session : Session) (data : Text) :
    (authLogin session data).isSome = true ↔ Boundary 10 data := by
  unfold authLogin authArgument
  rw [Option.isSome_map, Option.isSome_map, stripPrefixCi_isSome]
  rfl

theorem mailFromCommand_isSome (session : Session) (data : Text)
    (ready : session.state = .welcomed ∨ session.state = .mailFromReceived) :
    (mailFromCommand session data).isSome = true ↔ Boundary 9 (senderLine data) := by
  unfold mailFromCommand
  rw [if_pos ready]
  rw [Option.isSome_map, extractAddress_isSome]
  rfl

/-- An address is always judged, provided a client found by its address can be. -/
theorem rcptAddress_isSome (platform : Platform) (env : Env) (retry : Session → Option Step)
    (session : Session) (address localPart domain : Text)
    (again : session.credential = none → ∀ credential,
      (retry { session with credential := some credential }).isSome = true) :
    (rcptAddress platform env retry session address localPart domain).isSome = true := by
  unfold rcptAddress
  dsimp only
  split
  · rfl
  · split
    · rfl
    · split
      · rfl
      case h_2 anonymous =>
        split
        · rfl
        · unfold rcptByAddress
          split
          · rfl
          · split
            · rfl
            · rw [Option.isSome_map]
              exact again anonymous _

theorem rcptToOnce_isSome (platform : Platform) (env : Env) (retry : Session → Option Step)
    (session : Session) (data : Text)
    (ready : session.state = .mailFromReceived ∨ session.state = .rcptToReceived)
    (again : Boundary 7 data → session.credential = none → ∀ credential,
      (retry { session with credential := some credential }).isSome = true) :
    (rcptToOnce platform env retry session data).isSome = true ↔ Boundary 7 data := by
  have cut := extractAddress_isSome data "RCPT TO"
  unfold rcptToOnce
  rw [if_pos ready]
  generalize extractAddress data "RCPT TO" = extracted at cut ⊢
  cases extracted with
  | none => exact cut
  | some address =>
      have whole : Boundary 7 data := cut.mp rfl
      refine iff_of_true ?_ whole
      rw [Option.bind_some]
      split
      · rfl
      · split
        · rfl
        · split
          · rfl
          · exact rcptAddress_isSome platform env retry session address _ _ (again whole)

theorem rcptTo_isSome (platform : Platform) (env : Env) (session : Session) (data : Text)
    (ready : session.state = .mailFromReceived ∨ session.state = .rcptToReceived) :
    (rcptTo platform env session data).isSome = true ↔ Boundary 7 data := by
  apply rcptToOnce_isSome platform env _ session data ready
  intro whole _ credential
  exact (rcptToOnce_isSome platform env (fun _ => none) { session with credential := some credential }
    data ready (fun _ held => by cases held)).mpr whole

/-! ## Messages -/

theorem mapM_isSome {α β : Type} {f : α → Option β} (inputs : List α)
    (each : ∀ input ∈ inputs, (f input).isSome = true) : (inputs.mapM f).isSome = true := by
  induction inputs with
  | nil => rfl
  | cons input inputs ih =>
      obtain ⟨result, first⟩ := Option.isSome_iff_exists.mp (each input List.mem_cons_self)
      obtain ⟨results, rest⟩ := Option.isSome_iff_exists.mp
        (ih (fun other member => each other (List.mem_cons_of_mem _ member)))
      simp [first, rest]

/-- The end of a message never panics, since route recipients carry a route. -/
theorem finishData_isSome (platform : Platform) (env : Env) (session : Session)
    (routes : ∀ recipient ∈ session.recipients, recipient.kind = .route →
      recipient.route.isSome = true) :
    (finishData platform env session).isSome = true := by
  have built (data : Bytes) (domainId : Option Id) :
      (session.recipients.mapM (queuedMessage env session data domainId)).isSome = true := by
    apply mapM_isSome
    intro recipient member
    unfold queuedMessage
    split
    · rfl
    · split <;> rfl
    case h_3 kind => rw [Option.isSome_map]; exact routes recipient member kind
  unfold finishData
  dsimp only
  split
  · rfl
  · split
    · rfl
    · split
      · rfl
      · split
        · rfl
        · unfold storeMessage
          rw [Option.isSome_map]
          exact built _ _

/-! ## Every line -/

theorem handleCommand_isSome (platform : Platform) (env : Env) (session : Session) (data : Text)
    (connected : session.state ≠ .preauth) (mode : session.inputMode = .command) :
    (handleCommand platform env session data).isSome = true ↔
      ∀ cut ∈ operandCut session data, Boundary cut.1 cut.2 := by
  have command : commandOf session data = some (Command.recognize data) :=
    commandOf_command connected mode
  have uncut {step : Step} : (some step).isSome = true ↔
      ∀ cut ∈ (none : Option (Nat × Text)), Boundary cut.1 cut.2 := iff_of_true rfl nofun
  have one {offset : Nat} {text : Text} :
      Boundary offset text ↔ ∀ cut ∈ some (offset, text), Boundary cut.1 cut.2 := by simp
  unfold handleCommand operandCut
  rw [command]
  cases Command.recognize data <;> dsimp only
  case mailFrom =>
    by_cases ready : session.state = .welcomed ∨ session.state = .mailFromReceived
    · rw [if_pos ready, mailFromCommand_isSome session data ready]
      exact one
    · unfold mailFromCommand
      rw [if_neg ready, if_neg ready]
      exact uncut
  case rcptTo =>
    by_cases ready : session.state = .mailFromReceived ∨ session.state = .rcptToReceived
    · rw [if_pos ready, rcptTo_isSome platform env session data ready]
      exact one
    · unfold rcptTo rcptToOnce
      rw [if_neg ready, if_neg ready]
      exact uncut
  case auth mechanism =>
    by_cases permitted : session.authPermitted = true
    · rw [if_neg (by simpa using permitted)]
      cases mechanism with
      | plain =>
          rw [if_pos permitted, authPlain_isSome]
          exact one
      | login =>
          rw [if_pos permitted, authLogin_isSome]
          exact one
      | cramMd5 => exact uncut
      | other => exact uncut
    · rw [if_pos (by simpa using permitted)]
      cases mechanism <;> dsimp only <;> first | exact uncut | (rw [if_neg permitted]; exact uncut)
  all_goals exact uncut

/-- In a sound session a line is answered exactly when its operand can be cut. -/
theorem dispatch_isSome (platform : Platform) (env : Env) (session : Session) (data : Text)
    (sound : Sound session) :
    (dispatch platform env session data).isSome = true ↔
      ∀ cut ∈ operandCut session data, Boundary cut.1 cut.2 := by
  unfold dispatch
  by_cases waiting : session.state = .preauth
  · have silent : operandCut session data = none := by
      unfold operandCut
      rw [commandOf_preauth _ waiting]
    rw [if_pos waiting, silent]
    exact iff_of_true rfl nofun
  rw [if_neg waiting]
  by_cases commanding : session.inputMode = .command
  · rw [commanding]
    exact handleCommand_isSome platform env session data waiting commanding
  · have silent : operandCut session data = none := by
      unfold operandCut
      rw [commandOf_mode _ commanding]
    rw [silent]
    refine iff_of_true ?_ nofun
    cases mode : session.inputMode
    case command => exact absurd mode commanding
    case data =>
      dsimp only
      unfold dataLine
      split
      · exact finishData_isSome platform env _ sound.routes
      · obtain ⟨missing, -⟩ | ⟨headers, key, receiving, -, received⟩ :=
          receiveLine_frame platform session data
        · have present := sound.headers mode
          rw [missing] at present
          cases present
        · rw [received]
          rfl
    all_goals rfl

/-- The test for DATA returns exactly when the line can be cut after four bytes. -/
theorem isDataCommand_isSome (line : Text) :
    (isDataCommand line).isSome = true ↔ Boundary 4 (Str.trimStart line) := by
  unfold isDataCommand Boundary
  by_cases long : Str.byteLen (Str.trimStart line) ≥ 4
  · rw [if_pos long, Option.isSome_map]
    constructor
    · exact .inr
    · rintro (short | cut)
      · omega
      · exact cut
  · rw [if_neg long]
    exact iff_of_true rfl (.inl (by omega))

instance (session : Session) (line : Text) : Decidable (Sliceable session line) :=
  decidable_of_iff ((∀ cut ∈ operandCut session (chomp line), Boundary cut.1 cut.2) ∧
      (session.state = .rcptToReceived → Boundary 4 (Str.trimStart line)))
    ⟨fun both => ⟨both.1, both.2⟩, fun sliceable => ⟨sliceable.operand, sliceable.dataTest⟩⟩

theorem Reachable.conversed {lines : List String} {events : List LineEvent} {final : Session}
    (ran : conversation lines = some (events, final)) : Reachable .ascii final :=
  (Machine.run_invariant (fun _ session => Reachable .ascii session) (fun _ => True)
    (fun _ _ input output _ earlier stepped _ => .line input output earlier stepped)
    _ [] _ final events (.new ..) ran (fun _ _ => trivial)).1

end Camelmailer.Smtp
