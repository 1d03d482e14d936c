import Camelmailer.Worker.Promises

/-!
# A bypass

`requeue_inbound` can mark a message as one that is to bypass the inspection. `inspect` does not
look at the mark: as soon as an inspector is configured, a message with a verdict goes by its
verdict. A message that has been held by its inspection has a verdict, and keeps having one.
-/

namespace Camelmailer.Worker.Bypass

open Utf8 Db Requests

/-! ## What follows a verdict -/

section Verdicts

variable (functions : Functions) (settings : Settings) (queued : QueueRow) (message : StoredMessage)

/-- The message goes straight to its reports, notifications and routes. -/
def Honoured : Prop :=
  processIncoming functions settings queued message =
    handleInspected functions settings queued message

/-- The message goes to its route without an inspection, or with a verdict that does not fail. -/
theorem processIncoming_passed
    (passed : (settings.rspamd = false ∧ settings.clamav = false) ∨
      (message.inspected = true ∧ message.verdict.fails = false)) :
    Honoured functions settings queued message := by
  rcases passed with ⟨spam, virus⟩ | ⟨inspected, verdict⟩
  · simp only [Honoured, processIncoming, inspect, spam, virus]
    rfl
  · by_cases disabled : (!settings.rspamd && !settings.clamav) = true
    · simp only [Honoured, processIncoming, inspect, if_pos disabled]
      rfl
    · simp only [Honoured, processIncoming, inspect, if_neg disabled, if_pos inspected, verdict]
      rfl

/-- With an inspector, a message whose verdict fails is held. -/
theorem processIncoming_failed (enabled : ¬(settings.rspamd = false ∧ settings.clamav = false))
    (inspected : message.inspected = true) (verdict : message.verdict.fails = true) :
    processIncoming functions settings queued message = holdInspected queued message := by
  have disabled : ¬(!settings.rspamd && !settings.clamav) = true := by simpa using enabled
  simp only [processIncoming, inspect, if_neg disabled, if_pos inspected, verdict]
  rfl

/-- Whether a program begins with holding a message for its verdict. -/
def holdsFirst : Handler ProcessOutcome → Bool
  | .send (.recordDelivery _ _ result) _ => result.details = .failedInspection
  | _ => false

theorem holdsFirst_handleInspected :
    holdsFirst (handleInspected functions settings queued message) = false := by
  unfold handleInspected
  split_ifs
  · unfold ingestFeedbackReport
    split
    · rfl
    · split_ifs <;> rfl
  · unfold correlateBounce
    split_ifs
    · unfold deliverToRoute routeOf
      split <;> rfl
    · rfl
    · rfl

/-- A message with a verdict is not held for it exactly without inspectors, or if the verdict does
not fail. -/
theorem honoured_iff (inspected : message.inspected = true) :
    Honoured functions settings queued message ↔
      (settings.rspamd = false ∧ settings.clamav = false) ∨ message.verdict.fails = false := by
  constructor
  · intro honoured
    by_contra neither
    obtain ⟨enabled, verdict⟩ := not_or.mp neither
    have fails : message.verdict.fails = true := by simpa using verdict
    rw [Honoured, processIncoming_failed functions settings queued message enabled inspected fails]
      at honoured
    have first := holdsFirst_handleInspected functions settings queued message
    rw [← honoured] at first
    cases first
  · rintro (disabled | verdict)
    · exact processIncoming_passed functions settings queued message (.inl disabled)
    · exact processIncoming_passed functions settings queued message (.inr ⟨inspected, verdict⟩)

end Verdicts

/-! ## A message that has been held has a verdict -/

variable {entry : Answered Command}

/-- A verdict is never taken back. -/
theorem inspected_stays {tables : Tables} {row new : StoredMessage}
    (rewrites : Rewrites tables entry row new) (inspected : row.inspected = true) :
    new.inspected = true := by
  cases rewrites <;> first | exact inspected | rfl

/-- The mark of a bypass is never taken back. -/
theorem bypassed_stays {tables : Tables} {row new : StoredMessage}
    (rewrites : Rewrites tables entry row new) (bypassed : row.bypassed = true) :
    new.bypassed = true := by
  cases rewrites with
  | requeuedInbound incoming => simp [StoredMessage.requeuedInbound, bypassed]
  | _ => exact bypassed

/-- A message is inspected. -/
def Inspected (id : Nat) (tables : Tables) : Prop := Fixed (fun row => row.inspected = true) id tables

/-- A message has been held by its inspection. -/
def HeldByInspection (tables : Tables) (messageId : Nat) : Prop :=
  ∃ delivery ∈ tables.deliveries, delivery.messageId = messageId ∧ delivery.status = .held ∧
    delivery.details = .failedInspection

instance (tables : Tables) (messageId : Nat) : Decidable (HeldByInspection tables messageId) :=
  inferInstanceAs (Decidable (∃ delivery ∈ tables.deliveries, _))

/-- Whoever has been held by an inspection has a verdict. -/
def Consistent (tables : Tables) : Prop :=
  ∀ delivery ∈ tables.deliveries, delivery.details = .failedInspection →
    Inspected delivery.messageId tables

/-- What a worker knows of the message it has loaded: whose it is, and that it has a verdict as soon
as the worker has seen or stored one. -/
def Known (history : List (Answered Command)) (message row : StoredMessage) : Prop :=
  row.serverId = message.serverId ∧ (Judged history → row.inspected = true)

structure Inv (state : Delivering) : Prop where
  consistent : Consistent state.tables
  loaded : ∀ request ∈ state.requests, ∀ message, loadedBy request.history = some message →
    Fixed (Known request.history message) message.id state.tables
  judged : ∀ request ∈ state.requests, ∀ entry ∈ request.history, judges entry = true →
    ∃ message, loadedBy request.history = some message

section Kept

variable {settings : Settings} {choice : Choice} {tables after : Tables} {β : Type}
  {command : Command β} {answer : β} {history : List (Answered Command)} {message : StoredMessage}

/-- Commands of others take nothing away of what a worker knows. -/
theorem known_respond (known : Fixed (Known history message) message.id tables)
    (responds : respond settings choice command tables = (answer, after)) :
    Fixed (Known history message) message.id after := by
  apply Fixed.respond _ known responds
  intro row new rewrites _ holds
  exact ⟨rewrites.same.2.1.trans holds.1, fun judged => inspected_stays rewrites (holds.2 judged)⟩

/-- A verdict that has been stored is there. -/
theorem judges_inspected {serverId : Id} {messageId : Nat} {verdict : Verdict}
    (responds : respond settings choice (.recordInspection serverId messageId verdict) tables =
      (.ok (), after)) {row : StoredMessage} (member : row ∈ after.messages.rows)
    (id : row.id = messageId) (server : row.serverId = serverId) : row.inspected = true := by
  obtain ⟨error, failed, -⟩ | ⟨-, rfl⟩ := transacted_cases responds
  · cases failed
  · obtain ⟨old, there, rfl⟩ := List.mem_map.mp member
    split_ifs at id server ⊢ with named
    · rfl
    · simp [id, server] at named

theorem judges_cases {entry : Answered Command} (judged : judges entry = true) :
    ∃ serverId messageId verdict,
      entry = ⟨.recordInspection serverId messageId verdict, .ok ()⟩ := by
  obtain ⟨command, answer⟩ := entry
  cases command
  case recordInspection serverId messageId verdict =>
    cases answer with
    | error error => cases judged
    | ok stored => exact ⟨serverId, messageId, verdict, rfl⟩
  all_goals cases judged

/-- What a worker knows after its own command. -/
theorem known_answered (known : Fixed (Known history message) message.id tables)
    (loaded : loadedBy history = some message) (bound : Bound settings history β command)
    (responds : respond settings choice command tables = (answer, after)) :
    Fixed (Known (history ++ [⟨command, answer⟩]) message) message.id after := by
  have stays := known_respond known responds
  refine ⟨stays.below, fun row member same => ⟨(stays.holds row member same).1, ?_⟩⟩
  rintro (⟨other, again, inspected⟩ | ⟨entry, inside, judged⟩)
  · rw [loadedBy_append, loaded] at again
    exact (stays.holds row member same).2 (.inl ⟨other, loaded.trans again, inspected⟩)
  · rcases List.mem_append.mp inside with old | new
    · exact (stays.holds row member same).2 (.inr ⟨entry, old, judged⟩)
    · cases List.mem_singleton.mp new
      obtain ⟨serverId, messageId, verdict, entry⟩ := judges_cases judged
      cases entry
      obtain ⟨own, here, -, server, id⟩ := bound
      obtain rfl := Option.some.inj (loaded.symm.trans here)
      exact judges_inspected responds member (same.trans id)
        ((stays.holds row member same).1.trans server)

/-- A message that is held for its verdict has one. -/
theorem recorded_inspected (bound : Bound settings history β command)
    (known : ∀ message, loadedBy history = some message →
      Fixed (Known history message) message.id tables)
    {delivery : Delivery} (new : delivery ∈ recordedDeliveries ⟨command, answer⟩)
    (failed : delivery.details = .failedInspection) : Inspected delivery.messageId tables := by
  cases command
  case recordDelivery serverId messageId result =>
    obtain ⟨⟨message, loaded, -, -, rfl⟩, -, judged⟩ := bound
    simp only [recordedDeliveries] at new
    split_ifs at new
    · cases List.mem_singleton.mp new
      exact (known message loaded).mono (fun row holds => holds.2 (judged failed))
    · cases new
  case recordOutboundDelivery serverId messageId queuedId result action event payload =>
    obtain ⟨-, -, queued, -, -, concludes⟩ := bound
    simp only [recordedDeliveries] at new
    split_ifs at new
    · cases List.mem_singleton.mp new
      have other := concludes.details
      rw [show result.details = .failedInspection from failed] at other
      simp at other
    · cases new
  case recordUnmatchedBounce serverId bounceId queuedId category =>
    simp only [recordedDeliveries] at new
    split_ifs at new
    · cases List.mem_singleton.mp new
      cases failed
    · cases new
  case correlateBounce serverId bounceId tokens category =>
    simp only [recordedDeliveries] at new
    split at new
    · simp only [correlationDeliveries, List.mem_cons, List.not_mem_nil, or_false] at new
      rcases new with rfl | rfl <;> cases failed
    · cases new
  all_goals cases new

theorem inv_kept (functions : Functions) (settings : Settings) :
    Kept (delivery functions settings) (fun _ => Bound settings) (fun _ => True) Inv where
  start state call inv := by
    refine ⟨inv.consistent, ?_, ?_⟩
    · intro request member message loaded
      rcases List.mem_append.mp member with old | new
      · exact inv.loaded request old message loaded
      · cases List.mem_singleton.mp new
        cases loaded
    · intro request member entry inside
      rcases List.mem_append.mp member with old | new
      · exact inv.judged request old entry inside
      · cases List.mem_singleton.mp new
        cases inside
  answer state index choice request β command next answer tables inv found bound executed _ := by
    have responds := Option.some.inj executed
    have present := List.mem_of_getElem? found
    refine ⟨?_, ?_, ?_⟩
    · intro delivery member failed
      change delivery ∈ tables.deliveries at member
      rw [(respond_logged responds).deliveries (bound_prunes bound)] at member
      have before : Inspected delivery.messageId state.tables := by
        rcases List.mem_append.mp member with old | new
        · exact inv.consistent delivery old failed
        · exact recorded_inspected bound (inv.loaded request present) new failed
      exact Fixed.respond (fun rewrites _ => inspected_stays rewrites) before responds
    · intro other member message loaded
      rcases List.mem_or_eq_of_mem_set member with old | rfl
      · exact known_respond (inv.loaded other old message loaded) responds
      · rw [Request.continued, loadedBy_append] at loaded
        cases earlier : loadedBy request.history with
        | some known =>
            rw [earlier] at loaded
            obtain rfl : known = message := Option.some.inj loaded
            exact known_answered (inv.loaded request present _ earlier) earlier bound responds
        | none =>
            rw [earlier] at loaded
            obtain ⟨there, unchanged⟩ := loaded_mem loaded responds
            refine Fixed.of_mem (unchanged ▸ there) ⟨rfl, ?_⟩
            rintro (⟨again, same, inspected⟩ | ⟨entry, inside, judged⟩)
            · rw [Request.continued, loadedBy_append, earlier, loaded] at same
              cases same
              exact inspected
            · rcases List.mem_append.mp inside with old | new
              · obtain ⟨known, seen⟩ := inv.judged request present entry old judged
                rw [earlier] at seen
                cases seen
              · cases List.mem_singleton.mp new
                obtain ⟨serverId, messageId, token, same⟩ := loads_some loaded
                rw [same] at judged
                cases judged
    · intro other member entry inside judged
      rcases List.mem_or_eq_of_mem_set member with old | rfl
      · exact inv.judged other old entry inside judged
      · rcases List.mem_append.mp inside with old | new
        · obtain ⟨message, seen⟩ := inv.judged request present entry old judged
          exact ⟨message, by rw [Request.continued, loadedBy_append, seen]; rfl⟩
        · cases List.mem_singleton.mp new
          obtain ⟨serverId, messageId, verdict, same⟩ := judges_cases judged
          cases same
          obtain ⟨message, loaded, -⟩ := bound
          exact ⟨message, by rw [Request.continued, loadedBy_append, loaded]; rfl⟩
  disturb state elapsed tables inv disturbed := by
    cases disturbed
    refine ⟨?_, ?_, inv.judged⟩
    · intro delivery member failed
      have before := inv.consistent delivery member failed
      exact ⟨before.below, before.holds⟩
    · intro request member message loaded
      have before := inv.loaded request member message loaded
      exact ⟨before.below, before.holds⟩

end Kept

/-! ## Runs -/

/-- An incoming message of a server that has a verdict and is marked for a bypass. -/
def Marked (serverId : Id) (row : StoredMessage) : Prop :=
  row.scope = .incoming ∧ row.serverId = serverId ∧ row.inspected = true ∧ row.bypassed = true

theorem marked_stays {serverId : Id} {tables : Tables} {row new : StoredMessage}
    (rewrites : Rewrites tables entry row new) (marked : Marked serverId row) :
    Marked serverId new := by
  obtain ⟨incoming, server, inspected, bypassed⟩ := marked
  obtain ⟨-, sameServer, sameScope⟩ := rewrites.same
  exact ⟨sameScope.trans incoming, sameServer.trans server, inspected_stays rewrites inspected,
    bypassed_stays rewrites bypassed⟩

/-- `requeue_inbound` marks the message. -/
theorem requeueInbound_marked {settings : Settings} {choice : Choice} {tables after : Tables}
    {serverId : Id} {messageId : Nat} {record : StoredMessage}
    (inspected : Inspected messageId tables)
    (responds : respond settings choice (.requeueInbound serverId messageId true) tables =
      (.ok (some record), after)) : Fixed (Marked serverId) messageId after := by
  obtain ⟨error, failed, -⟩ | ⟨given, rfl⟩ := transacted_cases responds
  · cases failed
  · unfold Tables.requeueInbound at given ⊢
    split at given
    · cases given
    · next row found =>
        obtain ⟨there, rfl, rfl, incoming⟩ := Tables.filtered_some found
        refine ⟨inspected.below, ?_⟩
        intro other member same
        obtain ⟨old, before, rfl⟩ := List.mem_map.mp member
        have same : old.id = row.id := by
          split_ifs at same <;> exact same
        obtain rfl := Table.unique before there same
        have changed : (decide (old.id = old.id) && decide (old.serverId = old.serverId) &&
            decide (old.scope = .incoming)) = true := by simpa using incoming
        rw [if_pos changed]
        refine ⟨of_decide_eq_true incoming, rfl, inspected.holds old there rfl, ?_⟩
        simp [StoredMessage.requeuedInbound]

/-- A message that has been held by its inspection is put back for a bypass, and is loaded again
later. Then it is marked, and it is not held for its verdict again exactly if no inspector is
configured or if the verdict that is stored does not fail. -/
theorem bypass_honoured_iff (functions : Functions) (settings configured : Settings)
    (tables : Tables) (consistent : Consistent tables) (actions : List (Action Work Choice Elapsed))
    (front middle back : List DeliveryEvent) (first later : DeliveryEvent) (final : Delivering)
    (ran : Machine.run (delivery functions settings).step (State.idle tables) actions =
      some (front ++ first :: (middle ++ later :: back), final))
    (serverId : Id) (messageId : Nat) (record row : StoredMessage) (token : Text)
    (caller worker : Work)
    (held : HeldByInspection first.before.tables messageId)
    (requeued : answered first = some (caller,
      ⟨.requeueInbound serverId messageId true, .ok (some record)⟩))
    (loaded : answered later = some (worker,
      ⟨.loadMessage serverId messageId, .ok (some (row, token))⟩)) (queued : QueueRow) :
    row.bypassed = true ∧
    (processIncoming functions configured queued row =
        handleInspected functions configured queued row ↔
      (configured.rspamd = false ∧ configured.clamav = false) ∨ row.verdict.fails = false) := by
  have initial : Inv (State.idle tables) :=
    ⟨consistent, fun _ member => absurd member List.not_mem_nil,
      fun _ member => absurd member List.not_mem_nil⟩
  obtain ⟨-, steps⟩ := run_keeps (fun call => work_safe call) (inv_kept functions settings) initial
    ran (fun _ _ _ _ => trivial)
  obtain ⟨⟨inv, -⟩, -, reaction⟩ := steps first (by simp)
  obtain ⟨delivery, inside, rfl, -, failed⟩ := held
  have inspected := inv.consistent delivery inside failed
  have starts : Fixed (Marked serverId) delivery.messageId first.after.tables := by
    obtain ⟨choice, executed⟩ := answered_executed reaction requeued
    exact requeueInbound_marked inspected (Option.some.inj executed)
  obtain ⟨marked, reaction⟩ := Machine.run_since
    (P := fun state : Delivering => Fixed (Marked serverId) delivery.messageId state.tables)
    (fun _ reaction fixed (_ : True) => Fixed.step marked_stays reaction fixed) ran
    (fun _ => starts) (fun _ _ => trivial)
  obtain ⟨choice, executed⟩ := answered_executed reaction loaded
  obtain ⟨there, -⟩ := loaded_mem rfl (Option.some.inj executed)
  obtain ⟨error, failed, -⟩ | ⟨found, -⟩ := transacted_cases (Option.some.inj executed)
  · cases failed
  · obtain ⟨again, present, same⟩ := Option.map_eq_some_iff.mp (Except.ok.inj found).symm
    cases same
    obtain ⟨-, -, verdict, bypassed⟩ := marked.holds row there (Tables.message_some present).2.1
    exact ⟨bypassed, honoured_iff functions configured queued row verdict⟩

/-- A message is held as spam, put back for a bypass, and processed again. -/
def heldAndBypassed : List (Action Work Choice Elapsed) :=
  [.start (.insertMessage (exampleMessage .incoming "r@b.example")), .answer 0 {},
    .start (.processNext []), .answer 1 { picked := some 1 }, .answer 1 {},
    .answer 1 { score := .ok 30 }, .answer 1 {}, .answer 1 {}, .answer 1 {},
    .start (.requeueInbound 1 1 true), .answer 2 {},
    .start (.processNext []), .answer 3 { picked := some 2 }, .answer 3 {}, .answer 3 {},
    .answer 3 {}]

/-- A worker without inspectors lets the message pass. -/
theorem bypass_without_inspectors :
    ∃ row : StoredMessage, row.bypassed = true ∧ ∀ queued,
      processIncoming exampleFunctions { exampleSettings with rspamd := false } queued row =
        handleInspected exampleFunctions { exampleSettings with rspamd := false } queued row := by
  have run : ∃ record row, (Machine.run (delivery exampleFunctions exampleSettings).step
      (State.idle Tables.empty) heldAndBypassed).bind (fun ran =>
        ran.1[10]?.bind (fun first => (ran.1.drop 11)[2]?.bind (fun later =>
          if HeldByInspection first.before.tables 1 then
            (answered first).bind (fun one => (answered later).map (fun two => (one, two)))
          else none))) =
      some ((.requeueInbound 1 1 true, ⟨.requeueInbound 1 1 true, .ok (some record)⟩),
        (.processNext [], ⟨.loadMessage 1 1, .ok (some (row, []))⟩)) := ⟨_, _, rfl⟩
  obtain ⟨record, row, run⟩ := run
  simp only [Option.bind_eq_some_iff] at run
  obtain ⟨⟨events, final⟩, ran, first, tenth, later, third, both⟩ := run
  split_ifs at both with held
  obtain ⟨one, requeued, same⟩ := Option.bind_eq_some_iff.mp both
  obtain ⟨two, loaded, same⟩ := Option.map_eq_some_iff.mp same
  cases same
  have split : events = events.take 10 ++ first ::
      ((events.drop 11).take 2 ++ later :: (events.drop 11).drop 3) := by
    rw [← Machine.eq_take_cons_drop third, ← Machine.eq_take_cons_drop tenth]
  rw [split] at ran
  have marked (queued : QueueRow) := bypass_honoured_iff exampleFunctions exampleSettings
    { exampleSettings with rspamd := false } Tables.empty
    (fun _ member => absurd member List.not_mem_nil) heldAndBypassed _ _ _ first later final ran 1 1
    record row [] _ _ held requeued loaded queued
  exact ⟨row, (marked exampleRow).1, fun queued => (marked queued).2.mpr (.inl ⟨rfl, rfl⟩)⟩

/-- With its inspector the worker holds the message again, although it is marked. -/
theorem bypassed_message_held_again :
    ∃ events final, Machine.run (delivery exampleFunctions exampleSettings).step
        (State.idle Tables.empty) heldAndBypassed = some (events, final) ∧
      final.tables.messages.rows.map (fun row => (row.bypassed, row.status)) = [(true, .held)] ∧
      final.tables.deliveries.map (fun delivery => delivery.details) =
        [.failedInspection, .failedInspection] := by
  exact Machine.exists_run (by decide +kernel)

end Camelmailer.Worker.Bypass
