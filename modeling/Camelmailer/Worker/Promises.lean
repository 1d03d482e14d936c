import Camelmailer.Worker.Writes

/-!
# What workers and the API promise

A worker takes up one row, loads its message, and settles the row once: it completes it, has it
tried again later, or records a result that does one of both. The commands it sends are about that
row and that message, and depend on what it has been answered before. `Bound` says so for every
command, once for all results about the delivery.
-/

namespace Camelmailer.Worker

open Utf8 Db Requests

/-! ## What a request has been answered -/

/-- The row that an answer hands to a worker. -/
def takes : Answered Command → Option QueueRow
  | ⟨.dequeue _, answer⟩ => answer.toOption.join
  | _ => none

/-- The message that an answer shows to a worker. -/
def loads : Answered Command → Option StoredMessage
  | ⟨.loadMessage _ _, answer⟩ => answer.toOption.join.map Prod.fst
  | _ => none

/-- Whether an answer says that the message of a row is missing. -/
def misses : Answered Command → Bool
  | ⟨.loadMessage _ _, answer⟩ => answer.toOption.any Option.isNone
  | _ => false

/-- What the server of a recipient has answered. -/
def sends : Answered Command → Option SendOutcome
  | ⟨.send _ _ _ _, outcome⟩ => some outcome
  | _ => none

/-- Whether a message has been handed to the outside. -/
def attempts : Answered Command → Bool
  | ⟨.send _ _ _ _, _⟩ => true
  | ⟨.post _ _, _⟩ => true
  | _ => false

/-- Whether an answer ends what a worker has to do with its row. -/
def settles : Answered Command → Bool
  | ⟨.complete _, answer⟩ => answer.isOk
  | ⟨.retry _ _, answer⟩ => answer.isOk
  | ⟨.recordOutboundDelivery _ _ _ _ _ _ _, answer⟩ => answer.isOk
  | ⟨.recordUnmatchedBounce _ _ _ _, answer⟩ => answer.isOk
  | _ => false

/-- Whether an answer says that a verdict has been stored. -/
def judges : Answered Command → Bool
  | ⟨.recordInspection _ _ _, answer⟩ => answer.isOk
  | _ => false

section History

variable (history : List (Answered Command))

def takenBy : Option QueueRow := history.findSome? takes

def loadedBy : Option StoredMessage := history.findSome? loads

def sentBy : Option SendOutcome := history.findSome? sends

def attemptedBy : Bool := history.any attempts

def settledBy : Bool := history.any settles

end History

/-- A worker has taken up a row and has not settled it. -/
structure Holds (history : List (Answered Command)) (queued : QueueRow) : Prop where
  taken : takenBy history = some queued
  unsettled : settledBy history = false

/-- A worker that has loaded the message as well. -/
structure Busy (history : List (Answered Command)) (queued : QueueRow) (message : StoredMessage) :
    Prop extends Holds history queued where
  loaded : loadedBy history = some message

section Extend

variable {history : List (Answered Command)} {entry : Answered Command} {queued : QueueRow}
  {message : StoredMessage}

theorem takenBy_append :
    takenBy (history ++ [entry]) = (takenBy history).or (takes entry) := by
  simp [takenBy]

theorem loadedBy_append :
    loadedBy (history ++ [entry]) = (loadedBy history).or (loads entry) := by
  simp [loadedBy]

theorem sentBy_append : sentBy (history ++ [entry]) = (sentBy history).or (sends entry) := by
  simp [sentBy]

theorem attemptedBy_append :
    attemptedBy (history ++ [entry]) = (attemptedBy history || attempts entry) := by
  simp [attemptedBy]

theorem settledBy_append :
    settledBy (history ++ [entry]) = (settledBy history || settles entry) := by
  simp [settledBy]

theorem Holds.extend (holds : Holds history queued) (unsettling : settles entry = false) :
    Holds (history ++ [entry]) queued := by
  constructor
  · rw [takenBy_append, holds.taken]
    rfl
  · rw [settledBy_append, holds.unsettled, unsettling, Bool.or_false]

theorem Busy.extend (busy : Busy history queued message) (unsettling : settles entry = false) :
    Busy (history ++ [entry]) queued message := by
  refine ⟨busy.toHolds.extend unsettling, ?_⟩
  rw [loadedBy_append, busy.loaded]
  rfl

/-- A worker that has just loaded the message of its row. -/
theorem Holds.load (holds : Holds history queued) (unloaded : loadedBy history = none)
    (unsettling : settles entry = false) (loaded : loads entry = some message) :
    Busy (history ++ [entry]) queued message := by
  refine ⟨holds.extend unsettling, ?_⟩
  rw [loadedBy_append, unloaded, loaded]
  rfl

end Extend

/-! ## What is loaded -/

section Load

variable {settings : Settings} {choice : Choice} {tables after : Tables} {β : Type}
  {command : Command β} {answer : β} {message : StoredMessage}

theorem loads_some {entry : Answered Command} (loaded : loads entry = some message) :
    ∃ serverId messageId token,
      entry = ⟨.loadMessage serverId messageId, .ok (some (message, token))⟩ := by
  obtain ⟨command, answer⟩ := entry
  cases command
  case loadMessage serverId messageId =>
    cases answer with
    | error error => cases loaded
    | ok found =>
        obtain ⟨⟨row, token⟩, rfl, rfl⟩ := Option.map_eq_some_iff.mp loaded
        exact ⟨serverId, messageId, token, rfl⟩
  all_goals cases loaded

/-- A message that has been loaded is in the table. -/
theorem loaded_mem (loaded : loads ⟨command, answer⟩ = some message)
    (responds : respond settings choice command tables = (answer, after)) :
    message ∈ tables.messages.rows ∧ after = tables := by
  obtain ⟨serverId, messageId, token, same⟩ := loads_some loaded
  cases same
  obtain ⟨error, failed, -⟩ | ⟨found, rfl⟩ := transacted_cases responds
  · cases failed
  · obtain ⟨row, there, same⟩ := Option.map_eq_some_iff.mp (Except.ok.inj found).symm
    cases same
    exact ⟨(Tables.message_some there).1, rfl⟩

end Load

/-! ## The promise -/

/-- The results that are recorded of outgoing messages, with what becomes of the row. -/
structure Concludes (settings : Settings) (history : List (Answered Command)) (queued : QueueRow)
    (result : DeliveryResult) (action : QueueAction) (event : WebhookEvent) : Prop where
  way : (action = .complete ∧
      (result.status = .sent ∨ result.status = .hardFail ∨ result.status = .held)) ∨
    (action = .retry queued.attempts ∧ result.status = .softFail ∧
      queued.attempts + 1 < settings.maximumDeliveryAttempts)
  details : result.details ∈ [.accepted, .suppressed, .exhausted, .temporary, .rejected]
  event : event ≠ .messageBounced
  /-- A delivery that has failed for the last time is not tried again. -/
  exhausted : ∀ response, sentBy history = some (.softFail response) →
    settings.maximumDeliveryAttempts ≤ queued.attempts + 1 →
    action = .complete ∧ result.status = .hardFail

/-- What is recorded of incoming messages. -/
structure Notes (result : DeliveryResult) : Prop where
  status : result.status = .held ∨ result.status = .processed
  details : (∀ id, result.details ≠ .bounceFor id) ∧ ∀ id, result.details ≠ .bouncedBy id

/-- The message that a worker has loaded has a verdict. -/
def Judged (history : List (Answered Command)) : Prop :=
  (∃ message, loadedBy history = some message ∧ message.inspected = true) ∨
    ∃ entry ∈ history, judges entry = true

/-- A command about the message that a worker has loaded. -/
def Concerns (history : List (Answered Command)) (scope : MessageScope) (serverId : Id)
    (messageId : Nat) : Prop :=
  ∃ message, loadedBy history = some message ∧ message.scope = scope ∧
    message.serverId = serverId ∧ message.id = messageId

/-- When a command is sent. -/
def Bound (settings : Settings) (history : List (Answered Command)) (β : Type)
    (command : Command β) : Prop :=
  match command with
  | .dequeue _ => history = []
  | .loadMessage serverId messageId => loadedBy history = none ∧
      ∃ queued, Holds history queued ∧ queued.serverId = serverId ∧ queued.messageId = messageId
  | .complete id => ∃ queued, Holds history queued ∧ queued.id = id ∧
      ((∃ entry ∈ history, misses entry = true) ∨ ∃ message, loadedBy history = some message ∧
        (message.scope = .outgoing → message.status = .bounced))
  | .retry id attempts => ∃ queued, Holds history queued ∧ queued.id = id ∧
      queued.attempts = attempts ∧ attempts + 1 < settings.maximumDeliveryAttempts ∧
      ∃ message, loadedBy history = some message ∧ message.scope = .incoming
  | .send domain _ rcptTo _ => ∃ queued message, Busy history queued message ∧
      message.scope = .outgoing ∧ message.status ≠ .bounced ∧ domain = queued.domain ∧
      rcptTo = message.rcptTo
  | .recordOutboundDelivery serverId messageId queuedId result action event payload =>
      Concerns history .outgoing serverId messageId ∧ (∃ response, payload = .message messageId response) ∧
      ∃ queued, Holds history queued ∧ queued.id = queuedId ∧
        Concludes settings history queued result action event
  | .recordInspection serverId messageId _ => Concerns history .incoming serverId messageId
  | .recordDelivery serverId messageId result =>
      Concerns history .incoming serverId messageId ∧ Notes result ∧
        (result.details = .failedInspection → Judged history)
  | .correlateBounce serverId bounceId _ _ => Concerns history .incoming serverId bounceId ∧
      ∃ queued, Holds history queued
  | .recordUnmatchedBounce serverId bounceId queuedId _ =>
      Concerns history .incoming serverId bounceId ∧ ∃ queued, Holds history queued ∧
        queued.id = queuedId
  | .post _ message => message.scope = .incoming ∧
      Concerns history .incoming message.serverId message.id ∧ ∃ queued, Holds history queued
  | .insertMessage _ => history = []
  | .requeueInbound _ _ _ => history = []
  | .requeueOutbound _ _ => history = []
  | .purgeable _ _ _ => False
  | .purgeContent _ _ => False
  | .expired _ _ _ => False
  | .pruneReferences _ _ => False
  | .pruneMessages _ _ => False
  | _ => True

/-- Workers and the API delete no deliveries. -/
theorem bound_prunes {settings : Settings} {history : List (Answered Command)} {β : Type}
    {command : Command β} {answer : β} (bound : Bound settings history β command) :
    prunesDeliveries ⟨command, answer⟩ = false := by
  cases command
  case pruneReferences serverId ids => cases bound
  all_goals rfl

def Any {α : Type} (_ : List (Answered Command)) (_ : Except Fault α) : Prop := True

/-! ## Every request keeps it -/

section Kept

variable {functions : Functions} {settings : Settings} {history : List (Answered Command)}
  {queued : QueueRow} {message : StoredMessage}

theorem ask_safe {β γ : Type} {command : Command (Except Fault β)} {next : β → Handler γ}
    (bound : Bound settings history _ command)
    (continues : ∀ value, Program.Safe (Bound settings) Any (next value)
      (history ++ [⟨command, .ok value⟩])) :
    Program.Safe (Bound settings) Any (ask command >>= next) history := by
  refine ⟨bound, fun answer => ?_⟩
  cases answer with
  | error error => trivial
  | ok value => exact continues value

/-- A command that nothing is demanded of, and that settles nothing. -/
def Plain (β : Type) (command : Command β) : Prop :=
  (∀ settings history, Bound settings history β command) ∧
    ∀ answer : β, settles ⟨command, answer⟩ = false

/-- A part of a request with such commands only. -/
theorem plain_safe {β γ : Type} {program : Handler β} {next : β → Handler γ}
    (plain : program.Sends Plain) (busy : Busy history queued message)
    (continues : ∀ later result, Busy later queued message →
      Program.Safe (Bound settings) Any (next result) later) :
    Program.Safe (Bound settings) Any (program >>= next) history := by
  induction program generalizing history with
  | done result => exact continues history result busy
  | stop error => trivial
  | send command rest ih =>
      refine ⟨plain.1.1 settings history, fun answer => ?_⟩
      exact ih answer (plain.2 answer) (busy.extend (plain.1.2 answer))

theorem Busy.concerns (busy : Busy history queued message) :
    Concerns history message.scope message.serverId message.id :=
  ⟨message, busy.loaded, rfl, rfl, rfl⟩

/-- The row is completed. -/
theorem complete_safe {γ : Type} {next : Unit → Handler γ} (busy : Busy history queued message)
    (allowed : message.scope = .outgoing → message.status = .bounced)
    (continues : Program.Safe (Bound settings) Any (next ())
      (history ++ [⟨.complete queued.id, .ok ()⟩])) :
    Program.Safe (Bound settings) Any (ask (.complete queued.id) >>= next) history :=
  ask_safe ⟨queued, busy.toHolds, rfl, .inr ⟨message, busy.loaded, allowed⟩⟩ (fun _ => continues)

variable {result : DeliveryResult} {outcome : ProcessOutcome}

theorem recordOutbound_safe {action : QueueAction} {event : WebhookEvent} {response : Text}
    (busy : Busy history queued message) (outgoing : message.scope = .outgoing)
    (concludes : Concludes settings history queued result action event) :
    Program.Safe (Bound settings) Any
      (recordOutbound queued message result action event response outcome) history := by
  apply ask_safe
  · refine ⟨?_, ⟨response, rfl⟩, queued, busy.toHolds, rfl, concludes⟩
    rw [← outgoing]
    exact busy.concerns
  · exact fun _ => trivial

theorem recordSend_safe {outcome : SendOutcome} (busy : Busy history queued message)
    (outgoing : message.scope = .outgoing) (sent : sentBy history = some outcome) :
    Program.Safe (Bound settings) Any (recordSend functions settings queued message outcome)
      history := by
  cases outcome with
  | sent response tls =>
      apply recordOutbound_safe busy outgoing
      refine ⟨.inl ⟨rfl, .inl rfl⟩, by simp, nofun, ?_⟩
      intro other soft
      rw [sent] at soft
      cases soft
  | softFail response =>
      unfold recordSend
      split_ifs with limit
      · apply recordOutbound_safe busy outgoing
        exact ⟨.inl ⟨rfl, .inr (.inl rfl)⟩, by simp, nofun,
          fun _ _ _ => ⟨rfl, rfl⟩⟩
      · apply recordOutbound_safe busy outgoing
        refine ⟨.inr ⟨rfl, rfl, Nat.lt_of_not_le limit⟩, by simp, nofun, ?_⟩
        intro _ _ reached
        exact absurd reached limit
  | hardFail response =>
      apply recordOutbound_safe busy outgoing
      refine ⟨.inl ⟨rfl, .inr (.inl rfl)⟩, by simp, nofun, ?_⟩
      intro other soft
      rw [sent] at soft
      cases soft

theorem processOutgoing_safe {serverToken : Text} (busy : Busy history queued message)
    (outgoing : message.scope = .outgoing) (unsent : sentBy history = none) :
    Program.Safe (Bound settings) Any
      (processOutgoing functions settings queued message serverToken) history := by
  unfold processOutgoing
  split_ifs with bounced
  · exact complete_safe busy (fun _ => bounced) trivial
  · apply ask_safe
    · trivial
    intro suppressed
    cases suppressed with
    | true =>
        apply recordOutbound_safe (busy.extend rfl) outgoing
        refine ⟨.inl ⟨rfl, .inr (.inr rfl)⟩, by simp, nofun, ?_⟩
        intro other soft
        rw [sentBy_append, unsent] at soft
        cases soft
    | false =>
        apply ask_safe
        · trivial
        intro rawMessage
        refine ⟨⟨queued, message, (busy.extend rfl).extend rfl, outgoing, bounced, rfl, rfl⟩, ?_⟩
        intro outcome
        apply recordSend_safe (((busy.extend rfl).extend rfl).extend rfl) outgoing
        rw [sentBy_append, sentBy_append, sentBy_append, unsent]
        rfl

/-! ### Incoming messages -/

theorem retryOrFail_safe {response : Text} (busy : Busy history queued message)
    (incoming : message.scope = .incoming) :
    Program.Safe (Bound settings) Any (retryOrFail settings queued response) history := by
  unfold retryOrFail
  split_ifs with limit
  · exact complete_safe busy (fun outgoing => by simp [incoming] at outgoing) trivial
  · apply ask_safe
    · exact ⟨queued, busy.toHolds, rfl, rfl, Nat.lt_of_not_le limit, message, busy.loaded, incoming⟩
    · exact fun _ => trivial

/-- A message as it has been inspected is the one that has been loaded. -/
def StoredMessage.Same (first second : StoredMessage) : Prop :=
  first.scope = second.scope ∧ first.serverId = second.serverId ∧ first.id = second.id

variable {inspected : StoredMessage}

theorem Busy.concerns_same (busy : Busy history queued message) (same : inspected.Same message) :
    Concerns history inspected.scope inspected.serverId inspected.id :=
  ⟨message, busy.loaded, same.1.symm, same.2.1.symm, same.2.2.symm⟩

theorem completeAndRecord_safe (busy : Busy history queued message)
    (incoming : inspected.scope = .incoming) (same : inspected.Same message) (notes : Notes result)
    (other : result.details ≠ .failedInspection) :
    Program.Safe (Bound settings) Any (completeAndRecord queued inspected result outcome)
      history := by
  apply complete_safe busy
  · intro outgoing
    rw [← same.1, incoming] at outgoing
    cases outgoing
  · apply ask_safe
    · refine ⟨⟨message, ?_, same.1.symm.trans incoming, same.2.1.symm, same.2.2.symm⟩, notes,
        fun failed => absurd failed other⟩
      rw [loadedBy_append, busy.loaded]
      rfl
    · exact fun _ => trivial

theorem complaintDetails_eq (outcome : ComplaintOutcome) :
    ∃ detail, complaintDetails outcome = .complaint detail := by
  cases outcome with
  | recorded id address suppressed => cases suppressed <;> cases id <;> exact ⟨_, rfl⟩
  | notMatched => exact ⟨_, rfl⟩

theorem ingestFeedbackReport_safe (busy : Busy history queued message)
    (incoming : inspected.scope = .incoming) (same : inspected.Same message) :
    Program.Safe (Bound settings) Any (ingestFeedbackReport functions settings queued inspected)
      history := by
  unfold ingestFeedbackReport
  split
  · exact completeAndRecord_safe busy incoming same ⟨.inl rfl, fun _ => nofun, fun _ => nofun⟩ nofun
  · split_ifs
    · refine ⟨trivial, fun answer => ?_⟩
      cases answer with
      | error error => exact retryOrFail_safe (busy.extend rfl) (same.1.symm.trans incoming)
      | ok outcome =>
          obtain ⟨detail, complaint⟩ := complaintDetails_eq outcome
          apply completeAndRecord_safe (busy.extend rfl) incoming same
          · refine ⟨.inr rfl, ?_⟩
            rw [complaint]
            exact ⟨fun _ => nofun, fun _ => nofun⟩
          · rw [complaint]
            exact nofun
    · exact completeAndRecord_safe busy incoming same ⟨.inr rfl, fun _ => nofun, fun _ => nofun⟩ nofun

theorem ingestDmarcReport_safe (busy : Busy history queued message)
    (incoming : inspected.scope = .incoming) (same : inspected.Same message) :
    Program.Safe (Bound settings) Any (ingestDmarcReport functions settings queued inspected)
      history := by
  unfold ingestDmarcReport
  split
  · exact completeAndRecord_safe busy incoming same ⟨.inl rfl, fun _ => nofun, fun _ => nofun⟩ nofun
  · refine ⟨trivial, fun answer => ?_⟩
    cases answer with
    | error error => exact retryOrFail_safe (busy.extend rfl) (same.1.symm.trans incoming)
    | ok stored =>
        exact completeAndRecord_safe (busy.extend rfl) incoming same
          ⟨.inr rfl, fun _ => nofun, fun _ => nofun⟩ nofun

theorem routeOf_sends : (routeOf inspected).Sends Plain := by
  unfold routeOf
  split
  · trivial
  · refine ⟨⟨fun _ _ => trivial, fun _ => rfl⟩, fun answer => ?_⟩
    cases answer <;> trivial

theorem postTo_safe {url : Text} (busy : Busy history queued message)
    (incoming : inspected.scope = .incoming) (same : inspected.Same message) :
    Program.Safe (Bound settings) Any (postTo settings queued inspected url) history := by
  have scope := same.1.symm.trans incoming
  refine ⟨trivial, fun checked => ?_⟩
  have busy := busy.extend (rfl : settles ⟨.checkUrl url, checked⟩ = false)
  cases checked with
  | error error => exact retryOrFail_safe busy scope
  | ok reachable =>
      have concerns := busy.concerns_same same
      rw [incoming] at concerns
      refine ⟨⟨incoming, concerns, queued, busy.toHolds⟩, fun posted => ?_⟩
      have busy := busy.extend (rfl : settles ⟨.post url inspected, posted⟩ = false)
      cases posted with
      | error error => exact retryOrFail_safe busy scope
      | ok status =>
          dsimp only
          split_ifs
          · exact complete_safe busy (fun outgoing => by simp [scope] at outgoing) trivial
          · exact retryOrFail_safe busy scope

section

variable (busy : Busy history queued message) (incoming : inspected.scope = .incoming)
  (same : inspected.Same message)
include busy incoming same

theorem deliverToRoute_safe :
    Program.Safe (Bound settings) Any (deliverToRoute functions settings queued inspected)
      history := by
  apply plain_safe routeOf_sends busy
  intro later route busy
  split
  · refine complete_safe busy ?_ trivial
    intro outgoing
    rw [← same.1, incoming] at outgoing
    cases outgoing
  · split_ifs
    · exact ingestDmarcReport_safe busy incoming same
    · exact postTo_safe busy incoming same

/-- The notification is correlated, and then the row is settled or the message goes on to its
route. -/
theorem correlateBounce_safe :
    Program.Safe (Bound settings) Any (do
      let correlated ← correlateBounce functions queued inspected
      match correlated with
      | some outcome => return outcome
      | none => deliverToRoute functions settings queued inspected) history := by
  have scope := same.1.symm.trans incoming
  by_cases other : (!inspected.bounce || !functions.isFailedNotification inspected.rawMessage) = true
  · rw [correlateBounce, if_pos other]
    exact deliverToRoute_safe busy incoming same
  · rw [correlateBounce, if_neg other]
    rw [Program.bind_bind]
    have concerns := busy.concerns_same same
    rw [incoming] at concerns
    apply ask_safe
    · exact ⟨concerns, queued, busy.toHolds⟩
    intro correlation
    have busy := busy.extend (rfl : settles ⟨.correlateBounce inspected.serverId inspected.id
      (functions.originalTokens inspected.rawMessage)
      (functions.classifyNotification inspected.rawMessage), .ok correlation⟩ = false)
    have concerns := busy.concerns_same same
    rw [incoming] at concerns
    have completed : Program.Safe (Bound settings) Any (do
        ask (.complete queued.id)
        return ProcessOutcome.bounceCorrelated) _ :=
      complete_safe busy (fun outgoing => by simp [scope] at outgoing) trivial
    cases correlation with
    | correlated original | alreadyCorrelated =>
        rw [Program.bind_bind]
        exact completed
    | notMatched =>
        split_ifs
        · rw [Program.bind_bind]
          apply ask_safe
          · exact ⟨concerns, queued, busy.toHolds, rfl⟩
          · exact fun _ => trivial
        · exact deliverToRoute_safe busy incoming same

theorem handleInspected_safe :
    Program.Safe (Bound settings) Any (handleInspected functions settings queued inspected)
      history := by
  unfold handleInspected
  split_ifs
  · exact ingestFeedbackReport_safe busy incoming same
  · exact correlateBounce_safe busy incoming same

theorem holdInspected_safe (judged : Judged history) :
    Program.Safe (Bound settings) Any (holdInspected queued inspected) history := by
  have concerns := busy.concerns_same same
  rw [incoming] at concerns
  apply ask_safe
  · exact ⟨concerns, ⟨.inl rfl, fun _ => nofun, fun _ => nofun⟩, fun _ => judged⟩
  intro recorded
  refine complete_safe (busy.extend rfl) ?_ trivial
  intro outgoing
  rw [← same.1, incoming] at outgoing
  cases outgoing

end

variable {rawMessage : Bytes}

theorem inspectSpam_sends : (inspectSpam settings rawMessage).Sends Plain := by
  unfold inspectSpam
  split_ifs
  · refine ⟨⟨fun _ _ => trivial, fun _ => rfl⟩, fun answer => ?_⟩
    cases answer <;> trivial
  · trivial

theorem inspectVirus_sends :
    (inspectVirus settings rawMessage).Sends Plain := by
  unfold inspectVirus
  split_ifs
  · refine ⟨⟨fun _ _ => trivial, fun _ => rfl⟩, fun answer => ?_⟩
    cases answer <;> trivial
  · trivial

/-- Whatever the inspection says, the message stays the one that has been loaded. -/
theorem inspect_safe {next : Bool × StoredMessage → Handler ProcessOutcome}
    (busy : Busy history queued message) (incoming : message.scope = .incoming)
    (continues : ∀ later fails inspected, Busy later queued message →
      inspected.scope = .incoming → inspected.Same message → (fails = true → Judged later) →
      Program.Safe (Bound settings) Any (next (fails, inspected)) later) :
    Program.Safe (Bound settings) Any (inspect settings message >>= next) history := by
  by_cases disabled : (!settings.rspamd && !settings.clamav) = true
  · rw [inspect, if_pos disabled]
    exact continues history _ message busy incoming ⟨rfl, rfl, rfl⟩ nofun
  · rw [inspect, if_neg disabled]
    by_cases before : message.inspected = true
    · rw [if_pos before]
      exact continues history _ message busy incoming ⟨rfl, rfl, rfl⟩
        (fun _ => .inl ⟨message, busy.loaded, before⟩)
    · rw [if_neg before, Program.bind_bind]
      apply plain_safe inspectSpam_sends busy
      intro later spamStatus busy
      rw [Program.bind_bind]
      apply plain_safe inspectVirus_sends busy
      intro later threat busy
      rw [Program.bind_bind]
      have concerns := busy.concerns
      rw [incoming] at concerns
      apply ask_safe
      · exact concerns
      · intro recorded
        exact continues _ _ (message.judged _) (busy.extend rfl) incoming ⟨rfl, rfl, rfl⟩
          (fun _ => .inr ⟨_, List.mem_append_right _ (List.mem_singleton_self _), rfl⟩)

theorem processIncoming_safe (busy : Busy history queued message)
    (incoming : message.scope = .incoming) :
    Program.Safe (Bound settings) Any (processIncoming functions settings queued message)
      history := by
  apply inspect_safe busy incoming
  intro later fails inspected busy incoming same judged
  cases fails with
  | true => exact holdInspected_safe busy incoming same (judged rfl)
  | false => exact handleInspected_safe busy incoming same

theorem processLoaded_safe {loaded : StoredMessage × Text} (busy : Busy history queued loaded.1)
    (unsent : sentBy history = none) :
    Program.Safe (Bound settings) Any (processLoaded functions settings queued loaded) history := by
  unfold processLoaded
  split
  · next outgoing => exact processOutgoing_safe busy outgoing unsent
  · next incoming => exact processIncoming_safe busy incoming

theorem processNext_safe {worker : Text} :
    Program.Safe (Bound settings) Any (processNext functions settings worker) [] := by
  apply ask_safe
  · rfl
  intro taken
  cases taken with
  | none => trivial
  | some queued =>
      have holds : Holds ([] ++ [⟨.dequeue worker, .ok (some queued)⟩]) queued := ⟨rfl, rfl⟩
      apply ask_safe
      · exact ⟨rfl, queued, holds, rfl, rfl⟩
      intro loaded
      cases loaded with
      | none =>
          apply ask_safe
          · refine ⟨queued, holds.extend rfl, rfl, .inl ⟨_, List.mem_append_right _
              (List.mem_singleton_self _), rfl⟩⟩
          · exact fun _ => trivial
      | some loaded =>
          apply (processLoaded_safe (holds.load rfl rfl rfl) rfl).bind
          · exact fun _ _ _ => trivial
          · exact fun _ _ _ => trivial

/-- Every request of workers and of the API keeps the promise. -/
theorem work_safe (call : Work) :
    Program.Safe (Bound settings) Any (work functions settings call) [] := by
  cases call with
  | processNext worker =>
      apply processNext_safe.bind
      · exact fun _ _ _ => trivial
      · exact fun _ _ _ => trivial
  | insertMessage message
  | requeueInbound serverId messageId bypass
  | requeueOutbound serverId messageId => exact ask_safe rfl (fun _ => trivial)

/-- A promise that demands nothing before a message is loaded is kept by every request if it is kept
with the message. -/
theorem safe_of_loaded {Before : List (Answered Command) → ∀ β, Command β → Prop}
    (unloaded : ∀ rest β (command : Command β), loadedBy rest = none → Before rest β command)
    (processes : ∀ history queued (loaded : StoredMessage × Text), Busy history queued loaded.1 →
      sentBy history = none →
      Program.Safe Before Any (processLoaded functions settings queued loaded) history)
    (call : Work) : Program.Safe Before Any (work functions settings call) [] := by
  cases call with
  | processNext worker =>
      refine ⟨unloaded _ _ _ rfl, fun taken => ?_⟩
      cases taken with
      | error error => trivial
      | ok taken =>
          cases taken with
          | none => trivial
          | some queued =>
              refine ⟨unloaded _ _ _ rfl, fun loaded => ?_⟩
              cases loaded with
              | error error => trivial
              | ok loaded =>
                  cases loaded with
                  | none =>
                      refine ⟨unloaded _ _ _ rfl, fun completed => ?_⟩
                      cases completed <;> trivial
                  | some loaded =>
                      have holds : Holds ([] ++ [⟨.dequeue worker, .ok (some queued)⟩]) queued :=
                        ⟨rfl, rfl⟩
                      have busy := holds.load rfl (rfl : settles ⟨.loadMessage queued.serverId
                        queued.messageId, .ok (some loaded)⟩ = false) rfl
                      change Program.Safe Before Any
                        ((processLoaded functions settings queued loaded >>= _) >>= _) _
                      rw [Program.bind_bind]
                      apply (processes _ _ _ busy rfl).bind
                      · exact fun _ _ _ => trivial
                      · exact fun _ _ _ => trivial
  | insertMessage message | requeueInbound serverId messageId bypass
  | requeueOutbound serverId messageId =>
      refine ⟨unloaded _ _ _ rfl, fun answer => ?_⟩
      cases answer <;> trivial

end Kept

end Camelmailer.Worker
