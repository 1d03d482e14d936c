import Camelmailer.Smtp.Steps

/-!
# Taking responsibility for a message

A 250 at the end of DATA tells the client that the server now answers for the
message. `ledger` reads off a run which RCPT TO lines have been accepted since the
last accepted MAIL FROM, RSET, EHLO or HELO, from the replies alone. The results
below relate it to the messages the sink takes.

A refused RCPT TO may still move the session on to where DATA is allowed. DATA then
opens a message without recipients, and its end is answered 250 although nothing is
stored. Apart from that case, a message accepted without an idempotency key has been
handed over for every recipient of the ledger, and there is at least one.
-/

namespace Camelmailer.Smtp

open Utf8

/-- The messages that the sink takes in at a call. A batch is taken as a whole or
not at all. -/
def Call.taken (env : Env) : Call → List QueuedMessage
  | .queueMessage message => [message]
  | .queueMessages messages request allowance =>
      if env.queueMessages messages request allowance = .stored then messages else []
  | _ => []

/-- The messages that the sink takes in at a line. -/
def taken (event : LineEvent) : List QueuedMessage :=
  event.output.calls.flatMap (Call.taken event.input.env)

/-- The effect of one line on the accepted recipients of the transaction. -/
def ledgerStep (ledger : List LineEvent) (event : LineEvent) : List LineEvent :=
  match commandOf event.before (chomp event.input.line) with
  | some .ehlo => []
  | some .helo => []
  | some .rset => []
  | some .mailFrom => if event.output.reply = accepted then [] else ledger
  | some .rcptTo => if event.output.reply = accepted then ledger ++ [event] else ledger
  | _ => ledger

/-- The RCPT TO lines accepted since the transaction began. -/
def ledger (past : List LineEvent) : List LineEvent := past.foldl ledgerStep []

/-- The session as it reads the line of an event. -/
def LineEvent.reading (event : LineEvent) : Session :=
  { event.before with crPresent := hasCr event.input.line }

/-- An accepted RCPT TO line stands for the recipient it designates. -/
def StandsFor (platform : Platform) (event : LineEvent) (recipient : Recipient) : Prop :=
  ∃ settled calls, AddressChecked platform event.input.env (LineEvent.reading event) settled calls ∧
    Designates platform event.input.env settled (chomp event.input.line) recipient

/-- A message is the one for a recipient. -/
def IsFor (message : QueuedMessage) (recipient : Recipient) : Prop :=
  message.rcptTo = recipient.rcptTo ∧ message.serverId = recipient.server.id ∧
    message.scope = recipient.kind.scope

/-- Whether a line ends a message. -/
def EndsMessage (event : LineEvent) : Prop :=
  endsMessage (LineEvent.reading event) (chomp event.input.line)

/-- What a line does is in keeping with the responsibility its reply takes. -/
structure Responsible (platform : Platform) (past : List LineEvent) (event : LineEvent) :
    Prop where
  transferred : EndsMessage event → event.output.reply = accepted →
    event.before.headerMap idempotencyHeader = none →
    ledger past ≠ [] ∧ List.Forall₂ (fun rcpt message => ∃ recipient,
      StandsFor platform rcpt recipient ∧ IsFor message recipient) (ledger past) (taken event)
  refused : EndsMessage event → event.output.reply ≠ accepted → taken event = []
  elsewhere : ¬ EndsMessage event → ∀ call ∈ event.output.calls, call.stores = false

instance (event : LineEvent) : Decidable (EndsMessage event) := by
  unfold EndsMessage endsMessage
  infer_instance

/-- DATA is not given in a transaction without accepted recipients. -/
def Addressee (event : LineEvent) : Prop :=
  commandOf event.before (chomp event.input.line) = some .data →
    event.before.state = .rcptToReceived → event.before.recipients ≠ []

instance (event : LineEvent) : Decidable (Addressee event) := by
  unfold Addressee
  infer_instance

/-- The invariant: within a transaction the recipients held are those of the ledger,
and a message being received has one. -/
structure Ledgered (platform : Platform) (past : List LineEvent) (session : Session) : Prop where
  envelope : session.state = .mailFromReceived ∨ session.state = .rcptToReceived →
    List.Forall₂ (StandsFor platform) (ledger past) session.recipients
  message : session.inputMode = .data → session.state = .rcptToReceived ∧ session.recipients ≠ []

theorem ledger_append (past : List LineEvent) (event : LineEvent) :
    ledger (past ++ [event]) = ledgerStep (ledger past) event := by
  simp [ledger]

/-- The commands that begin a transaction or name a recipient. -/
def Command.envelopes : Command → Bool
  | .ehlo => true
  | .helo => true
  | .rset => true
  | .mailFrom => true
  | .rcptTo => true
  | _ => false

theorem ledgerStep_other {event : LineEvent} (before : List LineEvent)
    (other : ∀ command, commandOf event.before (chomp event.input.line) = some command →
      command.envelopes = false) :
    ledgerStep before event = before := by
  unfold ledgerStep
  split <;> first | rfl | (rename_i recognized; cases other _ recognized)

/-! ## One line -/

section Step

variable {platform : Platform} {past : List LineEvent} {event : LineEvent} {step : Step}

/-- A line that is no envelope command leaves the ledger. If it also leaves the
protocol state, the recipients and data mode alone, the invariant stays. -/
theorem Ledgered.unchanged {session : Session} (kept : Ledgered platform past event.before)
    (other : ∀ command, commandOf event.before (chomp event.input.line) = some command →
      command.envelopes = false)
    (state : session.state = event.before.state)
    (recipients : session.recipients = event.before.recipients)
    (mode : session.inputMode = .data → event.before.inputMode = .data) :
    Ledgered platform (past ++ [event]) session := by
  constructor
  · intro within
    rw [ledger_append, ledgerStep_other _ other, recipients]
    exact kept.envelope (by rwa [state] at within)
  · intro receiving
    rw [state, recipients]
    exact kept.message (mode receiving)

/-- Outside a transaction, and outside a message, there is nothing to keep. -/
theorem Ledgered.idle {session : Session} (state : session.state = .welcome ∨
    session.state = .welcomed) (mode : session.inputMode ≠ .data) :
    Ledgered platform past session := by
  constructor
  · intro within
    rcases state with waiting | waiting <;> rw [waiting] at within <;> simp at within
  · intro receiving
    exact absurd receiving mode

/-- A refused command leaves the ledger. -/
theorem ledgerStep_refused (before : List LineEvent)
    (command : commandOf event.before (chomp event.input.line) = some .mailFrom ∨
      commandOf event.before (chomp event.input.line) = some .rcptTo)
    (refused : event.output.reply ≠ accepted) : ledgerStep before event = before := by
  unfold ledgerStep
  rcases command with recognized | recognized <;> rw [recognized] <;> exact if_neg refused

/-- What settles the client's credential leaves the envelope alone. -/
theorem AddressChecked.envelope {env : Env} {session settled : Session} {calls : List Call}
    (checked : AddressChecked platform env session settled calls) :
    settled.state = session.state ∧ settled.recipients = session.recipients ∧
      settled.inputMode = session.inputMode := by
  cases checked <;> exact ⟨rfl, rfl, rfl⟩

/-- The answer to RCPT TO enters the ledger exactly when it records a recipient. -/
theorem Ledgered.recipient {settled : Session} {calls : List Call}
    (kept : Ledgered platform past event.before)
    (command : commandOf event.before (chomp event.input.line) = some .rcptTo)
    (ready : event.before.state = .mailFromReceived ∨ event.before.state = .rcptToReceived)
    (checked : AddressChecked platform event.input.env (LineEvent.reading event) settled calls)
    (envelope : Enveloped platform event.input.env settled (chomp event.input.line) step)
    (replied : event.output.reply = step.reply) :
    Ledgered platform (past ++ [event]) step.session := by
  obtain ⟨-, recipients, mode⟩ := checked.envelope
  have outside : settled.inputMode ≠ .data := by
    rw [mode]
    intro receiving
    exact absurd ((commandOf_inputMode command).symm.trans receiving) (by decide)
  have held := kept.envelope ready
  cases envelope with
  | refused state text reached unaccepted =>
      refine ⟨fun _ => ?_, fun receiving => absurd receiving outside⟩
      rw [ledger_append, ledgerStep_refused _ (.inr command) (by rwa [replied])]
      exact recipients ▸ held
  | recorded recipient designated =>
      refine ⟨fun _ => ?_, fun receiving => absurd receiving outside⟩
      have entered : ledgerStep (ledger past) event = ledger past ++ [event] := by
        unfold ledgerStep
        rw [command]
        exact if_pos replied
      rw [ledger_append, entered]
      rw [recipients]
      exact List.rel_append held (.cons ⟨settled, calls, checked, designated⟩ .nil)

/-- Every line keeps the invariant, unless it opens a message without recipients. -/
theorem Reaction.ledgered
    (reaction : Reaction platform event.input.env (LineEvent.reading event)
      (chomp event.input.line) step)
    (replied : event.output.reply = step.reply) (kept : Ledgered platform past event.before)
    (addressee : Addressee event) : Ledgered platform (past ++ [event]) step.session := by
  have outside {command : Command}
      (recognized : commandOf event.before (chomp event.input.line) = some command) :
      event.before.inputMode ≠ .data := by
    rw [commandOf_inputMode recognized]
    decide
  cases reaction
  case proxied waiting =>
    refine .idle (.inl rfl) ?_
    intro receiving
    have state := (kept.message receiving).1
    rw [show event.before.state = .preauth from waiting] at state
    cases state
  case closing command =>
    refine kept.unchanged ?_ rfl rfl id
    intro other recognized
    rcases command with waiting | quit
    · have silent : commandOf event.before (chomp event.input.line) = none :=
        commandOf_preauth _ waiting
      cases silent.symm.trans recognized
    · cases quit.symm.trans recognized
      rfl
  case secured command enabled =>
    refine kept.unchanged ?_ rfl rfl id
    intro other recognized
    cases command.symm.trans recognized
    rfl
  case greeted command => exact .idle (.inr rfl) (command.elim outside outside)
  case reset command => exact .idle (.inr rfl) (outside command)
  case inert command text recognized harmless =>
    refine kept.unchanged ?_ rfl rfl id
    intro other same
    cases recognized.symm.trans same
    cases command <;> first | rfl | cases harmless
  case premature command text recognized early unaccepted =>
    have refused : event.output.reply ≠ accepted := by rwa [replied]
    rcases early with rfl | rfl | rfl
    · refine ⟨fun within => ?_, fun receiving => absurd receiving (outside recognized)⟩
      rw [ledger_append, ledgerStep_refused _ (.inl recognized) refused]
      exact kept.envelope within
    · refine ⟨fun within => ?_, fun receiving => absurd receiving (outside recognized)⟩
      rw [ledger_append, ledgerStep_refused _ (.inr recognized) refused]
      exact kept.envelope within
    · refine kept.unchanged ?_ rfl rfl id
      intro other same
      cases recognized.symm.trans same
      rfl
  case challenged mode text pending begun =>
    refine kept.unchanged ?_ rfl rfl (fun receiving => absurd receiving pending.2)
    intro other recognized
    rcases begun with ⟨mechanism, command, -⟩ | ⟨-, waiting⟩
    · cases command.symm.trans recognized
      rfl
    · cases (commandOf_inputMode recognized).symm.trans waiting
  case authenticated last outcome =>
    have other : ∀ command, commandOf event.before (chomp event.input.line) = some command →
        command.envelopes = false := by
      intro command recognized
      rcases last with ⟨plain, -⟩ | ⟨-, mode⟩
      · cases plain.symm.trans recognized
        rfl
      · have waiting := commandOf_inputMode recognized
        rcases mode with mode | mode | ⟨challenge, mode⟩ <;> cases waiting.symm.trans mode
    cases outcome <;> exact kept.unchanged other rfl rfl nofun
  case sender address command ready =>
    refine ⟨fun _ => ?_, fun receiving => absurd receiving (outside command)⟩
    have cleared : ledgerStep (ledger past) event = [] := by
      unfold ledgerStep
      rw [show commandOf event.before (chomp event.input.line) = some .mailFrom from command]
      exact if_pos replied
    rw [ledger_append, cleared]
    exact .nil
  case recipient settled calls inner command ready checked envelope =>
    have entered : Ledgered platform (past ++ [event]) inner.session :=
      kept.recipient command ready checked envelope replied
    exact entered
  case opened content headers command ready written =>
    have other : ∀ command, commandOf event.before (chomp event.input.line) = some command →
        command.envelopes = false := by
      intro other recognized
      cases command.symm.trans recognized
      rfl
    refine ⟨fun within => ?_, fun _ => ⟨ready, addressee command ready⟩⟩
    rw [ledger_append, ledgerStep_other _ other]
    exact kept.envelope within
  case received connected mode unfinished present =>
    refine kept.unchanged ?_ rfl rfl id
    intro other recognized
    cases (commandOf_inputMode recognized).symm.trans mode
  case concluded finished =>
    obtain ⟨text, calls, -, rfl⟩ := finishData_concluded finished
    exact .idle (.inr rfl) nofun

end Step

/-! ## The end of a message -/

section Conclusion

variable {platform : Platform} {env : Env} {session : Session} {text : Text} {calls : List Call}

theorem Call.taken_nil (env : Env) (call : Call) (stores : call.stores = false) :
    call.taken env = [] := by
  cases call <;> first | rfl | cases stores

theorem idempotencyKey_absent {headers : HeaderMap} {key : Option Text}
    (absent : headers idempotencyHeader = none) (keyed : idempotencyKey session headers = .ok key) :
    key = none := by
  unfold idempotencyKey at keyed
  rw [absent] at keyed
  cases keyed
  rfl

/-- A message accepted without a key has been taken once for each recipient. -/
theorem Concluded.transferred (conclusion : Concluded platform env session text calls)
    (replied : .line text = accepted) (unkeyed : session.headerMap idempotencyHeader = none) :
    List.Forall₂ (fun recipient message => IsFor message recipient) session.recipients
      (calls.flatMap (Call.taken env)) := by
  cases conclusion with
  | refused text calls unaccepted checks => exact absurd replied unaccepted
  | handed domainId checks key queued authorised keyed built outcome delivered =>
      obtain rfl := idempotencyKey_absent unkeyed keyed
      rw [flatMap_delivery _ _ (Call.taken_nil env) authorised]
      rw [Option.map_none] at delivered
      obtain ⟨requested, -⟩ | ⟨-, -, handing⟩ | ⟨-, -, handing⟩ :=
        deliver_cases env queued none (sendAllowance env session).1
      · cases requested
      · rw [delivered, handing] at replied
        cases replied
      · rw [delivered, handing, List.flatMap_map]
        have one : (queued.flatMap fun message => (Call.queueMessage message).taken env) = queued := by
          simp [Call.taken]
        rw [one]
        refine (mapM_forall₂ built).imp ?_
        intro recipient message recorded
        obtain ⟨server, address, -, -, scope, -⟩ := queuedMessage_spec recorded
        exact ⟨address, server, scope⟩

/-- A message that is not accepted has not been taken. -/
theorem Concluded.untaken (conclusion : Concluded platform env session text calls)
    (replied : .line text ≠ accepted) : calls.flatMap (Call.taken env) = [] := by
  cases conclusion with
  | refused text calls unaccepted checks =>
      apply List.flatMap_eq_nil_iff.mpr
      intro call member
      apply Call.taken_nil
      rcases checks with rfl | rfl
      · cases member
      · exact authorizeSender_stores env session session.headerMap call member
  | handed domainId checks key queued authorised keyed built outcome delivered =>
      rw [flatMap_delivery _ _ (Call.taken_nil env) authorised, delivered]
      rw [delivered] at replied
      obtain ⟨-, handing⟩ | ⟨-, -, handing⟩ | ⟨-, -, handing⟩ := deliver_cases env queued
          (key.map (idempotencyRequest platform env session (storedData session key)))
          (sendAllowance env session).1 <;> rw [handing] at replied ⊢
      · have unstored : env.queueMessages queued
            (key.map (idempotencyRequest platform env session (storedData session key)))
            (sendAllowance env session).1 ≠ .stored := by
          intro stored
          rw [stored] at replied
          exact replied rfl
        simp [Call.taken, unstored]
      · rfl
      · exact absurd rfl replied

end Conclusion

/-! ## Runs -/

theorem forall₂_composed {α β γ : Type} {R : α → β → Prop} {S : β → γ → Prop} {first : List α}
    {second : List β} {third : List γ} (left : List.Forall₂ R first second)
    (right : List.Forall₂ S second third) :
    List.Forall₂ (fun x z => ∃ y, R x y ∧ S y z) first third := by
  induction left generalizing third with
  | nil =>
      cases right
      exact .nil
  | cons related rest ih =>
      cases right with
      | cons followed later => exact .cons ⟨_, related, followed⟩ (ih later)

/-- One line keeps the invariant and acts responsibly. -/
theorem sessionStep_responsible {platform : Platform} {past : List LineEvent}
    {session next : Session} {input : LineInput} {response : Response}
    (kept : Ledgered platform past session)
    (stepped : sessionStep platform session input = some (response, next))
    (addressee : Addressee ⟨session, input, response, next⟩) :
    Ledgered platform (past ++ [⟨session, input, response, next⟩]) next ∧
      Responsible platform past ⟨session, input, response, next⟩ := by
  obtain ⟨step, dispatched, rfl, rfl⟩ := sessionStep_dispatch stepped
  have reaction := dispatch_reaction dispatched
  have ledgered := reaction.ledgered rfl kept addressee
  have concluded (ended : endsMessage { session with crPresent := hasCr input.line }
      (chomp input.line)) : ∃ text, step.reply = .line text ∧ Concluded platform input.env
        { session with crPresent := hasCr input.line, inputMode := .command } text step.calls := by
    rw [dispatch_endsMessage ended] at dispatched
    obtain ⟨text, calls, conclusion, rfl⟩ := finishData_concluded dispatched
    exact ⟨text, rfl, conclusion⟩
  refine ⟨⟨ledgered.envelope, ledgered.message⟩, ?_, ?_, ?_⟩
  · intro ended replied unkeyed
    obtain ⟨text, reply, conclusion⟩ := concluded ended
    obtain ⟨state, present⟩ := kept.message ended.2.1
    have standing := kept.envelope (.inr state)
    have carried := conclusion.transferred (reply.symm.trans replied) unkeyed
    refine ⟨?_, ?_⟩
    · intro vacant
      rw [vacant] at standing
      exact present (List.forall₂_nil_left_iff.mp standing)
    · exact forall₂_composed standing carried
  · intro ended unaccepted
    obtain ⟨text, reply, conclusion⟩ := concluded ended
    exact conclusion.untaken (by rwa [← reply])
  · intro continued call member
    by_contra storing
    exact continued (reaction.stores member (by simpa using storing)).1

/-- In every run in which DATA is only given with an accepted recipient: a message
accepted without an idempotency key has been handed over, in order, once for every
RCPT TO accepted in its transaction, of which there is at least one; a message that is
not accepted has not been taken; and no other line hands anything over. -/
theorem accepted_messages_handed_over (platform : Platform) (config : SessionConfig)
    (traceId : Text) (ipAddress : Option Text) (inputs : List LineInput)
    (events : List LineEvent) (final : Session)
    (ran : Machine.run (sessionStep platform) (Session.new platform config traceId ipAddress)
      inputs = some (events, final))
    (addressed : ∀ event ∈ events, Addressee event) :
    ∀ past event later, events = past ++ event :: later → Responsible platform past event := by
  have initial : Ledgered platform [] (Session.new platform config traceId ipAddress) := by
    constructor
    · intro _
      exact .nil
    · exact nofun
  have invariant := Machine.run_invariant (Ledgered platform) Addressee
    (fun past before input output after kept stepped guard =>
      (sessionStep_responsible kept stepped guard).1)
    inputs [] _ final events initial ran addressed
  intro past event later split
  obtain ⟨kept, stepped⟩ := invariant.2 past event later split
  exact (sessionStep_responsible kept stepped (addressed event (by simp [split]))).2

/-- Mail for a route. -/
def incomingMessage : List String :=
  ["EHLO c", "MAIL FROM:<x@y.example>", "RCPT TO:<info@in.example>", "DATA", "Subject: a", "", "."]

theorem incoming_message_handed_over :
    ∃ events final, conversation incomingMessage = some (events, final) ∧
      events.any (fun event => EndsMessage event && event.output.reply == accepted) = true ∧
      ∀ past event later, events = past ++ event :: later → Responsible .ascii past event := by
  obtain ⟨events, final, ran, checked⟩ := conversation_checked incomingMessage
    (fun events => events.any (fun event => EndsMessage event && event.output.reply == accepted) &&
      events.all (fun event => Addressee event))
    (by decide +kernel)
  obtain ⟨ended, addressed⟩ := Bool.and_eq_true_iff.mp checked
  refine ⟨events, final, ran, ended, ?_⟩
  apply accepted_messages_handed_over .ascii exampleConfig "t" (some "192.0.2.1".toList) _
    events final ran
  simpa using addressed

/-- The only recipient is refused, and DATA follows. -/
def recipientRefused : List String :=
  ["EHLO c", "MAIL FROM:<x@y.example>", "RCPT TO:<nobody@rp.example>", "DATA", "Subject: a", "",
    "."]

/-- The message is accepted although there is no recipient. -/
theorem refused_recipient_irresponsible :
    ∃ events final, conversation recipientRefused = some (events, final) ∧
      ∃ past event later, events = past ++ event :: later ∧ ¬ Responsible .ascii past event := by
  obtain ⟨events, final, ran, checked⟩ := conversation_checked recipientRefused
    (fun events => events.getLast?.any (fun event => decide (EndsMessage event) &&
      event.output.reply == accepted && (event.before.headerMap idempotencyHeader).isNone &&
      (ledger events.dropLast).isEmpty))
    (by decide +kernel)
  obtain ⟨event, last, holds⟩ := (Option.any_eq_true _ _).mp checked
  simp only [Bool.and_eq_true, decide_eq_true_eq, beq_iff_eq, Option.isNone_iff_eq_none,
    List.isEmpty_iff] at holds
  obtain ⟨⟨⟨ended, replied⟩, unkeyed⟩, vacant⟩ := holds
  refine ⟨events, final, ran, events.dropLast, event, [],
    (List.dropLast_append_getLast? event last).symm, ?_⟩
  intro responsible
  exact (responsible.transferred ended replied unkeyed).1 vacant

end Camelmailer.Smtp
