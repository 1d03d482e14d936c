import Camelmailer.Worker.Writes

/-!
# The held flag

A message has a status and, beside it, a flag that says whether it is held. The transactions of the
delivery write both; `requeue_inbound` writes the status only, in the database as well as in the
store in memory. So the flag says what the status says as long as no held message is put back into
the queue that way.
-/

namespace Camelmailer.Worker.HeldFlag

open Utf8 Db Requests

/-- The flag says what the status says. -/
def Agrees (row : StoredMessage) : Prop := row.held = true ↔ row.status = .held

instance : DecidablePred Agrees := fun row =>
  inferInstanceAs (Decidable (row.held = true ↔ row.status = .held))

/-- So a list by the flag is a list by the status. -/
theorem filter_agrees {rows : List StoredMessage} (agree : ∀ row ∈ rows, Agrees row) :
    rows.filter (fun row => row.held) = rows.filter (fun row => row.status = .held) := by
  apply List.filter_congr
  intro row member
  rw [Bool.eq_iff_iff, decide_eq_true_eq]
  exact agree row member

/-- A message that has not been held is pending in both. -/
theorem Agrees.requeuedInbound {row : StoredMessage} {bypass : Bool} (released : row.held = false) :
    Agrees (row.requeuedInbound bypass) := by
  simp [Agrees, StoredMessage.requeuedInbound, released]

theorem Agrees.requeuedOutbound (row : StoredMessage) : Agrees row.requeuedOutbound := by
  simp [Agrees, StoredMessage.requeuedOutbound]

/-! ## The database -/

/-- A message that is not held. -/
def Released (_ : Tables) (row : StoredMessage) : Prop := row.held = false

instance (tables : Tables) (row : StoredMessage) : Decidable (Released tables row) :=
  inferInstanceAs (Decidable (row.held = false))

/-- Every statement that writes the status writes the flag, but for that of `requeue_inbound`. -/
theorem agrees_of_rewrites {tables : Tables} {entry : Answered Command} {row new : StoredMessage}
    (rewrites : Rewrites tables entry row new) (agrees : Agrees row)
    (released : inboundTarget entry.command = some (row.serverId, row.id) → row.held = false) :
    Agrees new := by
  cases rewrites with
  | unchanged | classified bounce | judged | purged | unlinked => exact agrees
  | delivered alive => simp [Agrees, StoredMessage.concluded]
  | sent outgoing alive => simp [Agrees, StoredMessage.concluded]
  | unmatched bounce => simp [Agrees, StoredMessage.unmatched]
  | restored bounce correlated => simp [Agrees, StoredMessage.restored]
  | linked bounce uncorrelated present outgoing => simp [Agrees, StoredMessage.linked]
  | cameBack outgoing present uncorrelated => simp [Agrees, StoredMessage.cameBack]
  | requeuedInbound incoming => exact .requeuedInbound (released rfl)
  | requeuedOutbound outgoing retryable stored => exact .requeuedOutbound row

/-- All messages agree. -/
def Inv {Call : Type} (state : State Tables Call Command Fault Reply) : Prop :=
  ∀ row ∈ state.tables.messages.rows, Agrees row

theorem inv_kept (functions : Functions) (settings : Settings) :
    Kept (operation functions settings) (fun _ _ _ _ => True) (RequeuesOnly Released) Inv where
  start _ _ inv := inv
  answer state index choice request β command next answer tables inv found sends executed
      released := by
    have rewritten := respond_messages (Option.some.inj executed)
    intro row member
    rcases rewritten.origin row member with ⟨old, there, rewrites⟩ | stored
    · apply agrees_of_rewrites rewrites (inv old there)
      intro target
      exact released _ target old there rfl rfl
    · cases stored
      exact ⟨nofun, nofun⟩
  disturb state elapsed tables inv disturbed := by
    cases disturbed
    exact inv

/-! ## The store in memory -/

/-- `ImportMessage`, with the status of each of its deliveries. -/
structure ImportMessage where
  serverId : Id
  scope : MessageScope
  mailFrom : Text
  rcptTo : Text
  rawMessage : Bytes
  receivedWithSsl : Bool
  bounce : Bool
  tag : Option Text
  domainId : Option Id
  credentialId : Option Id
  createdAt : DateTime
  deliveries : List MessageStatus
deriving DecidableEq

def ImportMessage.resultingStatus (message : ImportMessage) : MessageStatus :=
  message.deliveries.getLast?.getD .pending

/-- `DELIVERY_STATUSES`. -/
def deliveryStatuses : List MessageStatus := [.sent, .softFail, .hardFail, .held, .bounced]

namespace Memory

/-- The messages of the store in memory. -/
abbrev Messages := Table messageKey

section Operations

variable (messages : Messages)

/-- `build_message_record` and what adds the record. -/
def insert (message : QueuedMessage) (token : Text) (now : DateTime) : Messages :=
  let row : StoredMessage :=
    { message with id := messages.next, token := token, createdAt := now }
  messages.insert row rfl

def importMessageRecord (message : ImportMessage) (token : Text) : Option Nat × Messages :=
  if message.deliveries.all (fun status => status ∈ deliveryStatuses) then
    let status := message.resultingStatus
    let row : StoredMessage :=
      { serverId := message.serverId, scope := message.scope, mailFrom := message.mailFrom,
        rcptTo := message.rcptTo, rawMessage := message.rawMessage,
        receivedWithSsl := message.receivedWithSsl, bounce := message.bounce, tag := message.tag,
        domainId := message.domainId, credentialId := message.credentialId, routeId := none,
        metadata := none, streamId := none, id := messages.next, token := token,
        createdAt := message.createdAt, status := status, held := status = .held }
    (some row.id, messages.insert row rfl)
  else (none, messages)

/-- The message of a server in a scope. -/
def find (serverId : Id) (messageId : Nat) (scope : MessageScope) : Option StoredMessage :=
  (messages.find messageId).filter (fun row => row.serverId = serverId && row.scope = scope)

def requeueInbound (serverId : Id) (messageId : Nat) (bypass : Bool) :
    Option StoredMessage × Messages :=
  match find messages serverId messageId .incoming with
  | none => (none, messages)
  | some row => (some (row.requeuedInbound bypass), messages.replace (row.requeuedInbound bypass))

/-- `MemoryStore::requeue_outbound`. An empty message counts as purged. -/
def requeueOutbound (serverId : Id) (messageId : Nat) : OutboundRetry × Messages :=
  match find messages serverId messageId .outgoing with
  | none => (.notFound, messages)
  | some row =>
      if row.status ∉ retryableOutboundStatuses then (.notRetryable row.status, messages)
      else if row.rawMessage = [] then (.contentPurged, messages)
      else (.requeued, messages.replace row.requeuedOutbound)

end Operations

inductive Call where
  | insert (message : QueuedMessage) (token : Text) (now : DateTime)
  | importMessageRecord (message : ImportMessage) (token : Text)
  | requeueInbound (serverId : Id) (messageId : Nat) (bypass : Bool)
  | requeueOutbound (serverId : Id) (messageId : Nat)

inductive Answer where
  | inserted
  | imported (id : Option Nat)
  | requeuedInbound (row : Option StoredMessage)
  | requeuedOutbound (result : OutboundRetry)

/-- Each function holds the lock from its first line to its last. -/
def step (messages : Messages) : Call → Option (Answer × Messages)
  | .insert message token now => some (.inserted, insert messages message token now)
  | .importMessageRecord message token =>
      let imported := importMessageRecord messages message token
      some (.imported imported.1, imported.2)
  | .requeueInbound serverId messageId bypass =>
      let requeued := requeueInbound messages serverId messageId bypass
      some (.requeuedInbound requeued.1, requeued.2)
  | .requeueOutbound serverId messageId =>
      let requeued := requeueOutbound messages serverId messageId
      some (.requeuedOutbound requeued.1, requeued.2)

abbrev Event := Machine.Event Messages Call Answer

/-- A held message is not put back by `requeue_inbound`. -/
def RequeuesReleased (event : Event) : Prop :=
  match event.input with
  | .requeueInbound serverId messageId _ => ∀ row ∈ event.before.rows,
      row.serverId = serverId → row.id = messageId → row.held = false
  | _ => True

instance : DecidablePred RequeuesReleased := by
  intro event
  unfold RequeuesReleased
  split <;> infer_instance

theorem find_some {messages : Messages} {serverId : Id} {messageId : Nat} {scope : MessageScope}
    {row : StoredMessage} (found : find messages serverId messageId scope = some row) :
    row ∈ messages.rows ∧ row.serverId = serverId ∧ row.id = messageId := by
  obtain ⟨found, meets⟩ := Option.filter_eq_some_iff.mp found
  obtain ⟨member, id⟩ := Table.find_some found
  simp only [Bool.and_eq_true, decide_eq_true_eq] at meets
  exact ⟨member, meets.1, id⟩

/-- A row takes the place of one, and agrees. -/
theorem replace_agrees {messages : Messages} {row : StoredMessage} (agrees : Agrees row)
    (all : ∀ row ∈ messages.rows, Agrees row) :
    ∀ other ∈ (messages.replace row).rows, Agrees other := by
  intro other member
  rcases Table.mem_replace member with ⟨rfl, -⟩ | ⟨kept, -⟩
  · exact agrees
  · exact all other kept

theorem step_agrees (before : Messages) (call : Call) (answer : Answer) (after : Messages)
    (all : ∀ row ∈ before.rows, Agrees row) (stepped : step before call = some (answer, after))
    (released : RequeuesReleased ⟨before, call, answer, after⟩) :
    ∀ row ∈ after.rows, Agrees row := by
  cases call with
  | insert message token now =>
      cases stepped
      intro row member
      rcases (Table.mem_insert rfl).mp member with rfl | old
      · exact ⟨nofun, nofun⟩
      · exact all row old
  | importMessageRecord message token =>
      cases stepped
      unfold importMessageRecord
      split_ifs
      · intro row member
        rcases (Table.mem_insert rfl).mp member with rfl | old
        · exact decide_eq_true_iff
        · exact all row old
      · exact all
  | requeueInbound serverId messageId bypass =>
      cases stepped
      unfold requeueInbound
      split
      · exact all
      · next row found =>
          obtain ⟨member, server, id⟩ := find_some found
          exact replace_agrees (.requeuedInbound (released row member server id)) all
  | requeueOutbound serverId messageId =>
      cases stepped
      unfold requeueOutbound
      split
      · exact all
      · next row found =>
          split_ifs
          · exact all
          · exact replace_agrees (.requeuedOutbound row) all
          · exact all

end Memory

/-! ## Runs -/

/-- As long as `requeue_inbound` is executed for messages that are not held only, the flag says what
the status says in every state of every run, in the database and in the store in memory, and lists
by one are lists by the other. -/
theorem held_flag_is_status (functions : Functions) (settings : Settings) :
    (∀ (tables : Tables) actions (events : List OperationEvent) (final : Operating),
      (∀ row ∈ tables.messages.rows, Agrees row) →
      Machine.run (operation functions settings).step (State.idle tables) actions =
        some (events, final) →
      (∀ event ∈ events, Answering (RequeuesOnly Released) event) →
      ∀ state, Machine.Reached events final state →
        (∀ row ∈ state.tables.messages.rows, row.held = true ↔ row.status = .held) ∧
        state.tables.messages.rows.filter (fun row => row.held) =
          state.tables.messages.rows.filter (fun row => row.status = .held)) ∧
    ∀ (messages : Memory.Messages) calls (events : List Memory.Event) final,
      (∀ row ∈ messages.rows, Agrees row) →
      Machine.run Memory.step messages calls = some (events, final) →
      (∀ event ∈ events, Memory.RequeuesReleased event) →
      ∀ state, Machine.Reached events final state →
        (∀ row ∈ state.rows, row.held = true ↔ row.status = .held) ∧
        state.rows.filter (fun row => row.held) =
          state.rows.filter (fun row => row.status = .held) := by
  constructor
  · intro tables actions events final agree ran released state reached
    have anything (call : Work ⊕ Retention) : Program.Safe (fun _ _ _ => True) (fun _ _ => True)
        ((operation functions settings).handler call) [] :=
      Program.Safe.of_forall _ (fun _ _ _ => trivial) (fun _ _ => trivial)
    have all := run_keeps_reached anything (inv_kept functions settings) agree ran released state
      reached
    exact ⟨all, filter_agrees all⟩
  · intro messages calls events final agree ran released state reached
    have all := Machine.run_reaches Memory.step_agrees agree ran released state reached
    exact ⟨all, filter_agrees all⟩

/-- A message comes in, is found to be spam, and is held. -/
def heldBySpam : List (Action (Work ⊕ Retention) Choice Elapsed) :=
  [.start (.inl (.insertMessage (exampleMessage .incoming "r@b.example"))), .answer 0 {},
    .start (.inl (.processNext [])), .answer 1 { picked := some 1 }, .answer 1 {},
    .answer 1 { score := .ok 30 }, .answer 1 {}, .answer 1 {}, .answer 1 {}]

/-- It is put back into the queue. -/
def requeuedBypass : List (Action (Work ⊕ Retention) Choice Elapsed) :=
  [.start (.inl (.requeueInbound 1 1 true)), .answer 2 {}]

/-- A message that has been imported as held. -/
def importedHeld : Memory.Call :=
  .importMessageRecord
    { serverId := 1, scope := .incoming, mailFrom := [], rcptTo := "r@b.example",
      rawMessage := [], receivedWithSsl := false, bounce := false, tag := none, domainId := none,
      credentialId := none, createdAt := 0, deliveries := [.held] } []

/-- Before it is put back, a held message has the flag and the status. -/
theorem held_flag_of_spam :
    ∃ events final, Machine.run (operation exampleFunctions exampleSettings).step
        (State.idle Tables.empty) heldBySpam = some (events, final) ∧
      final.tables.messages.rows.map (fun row => (row.held, row.status)) = [(true, .held)] ∧
      ∀ state, Machine.Reached events final state →
        ∀ row ∈ state.tables.messages.rows, row.held = true ↔ row.status = .held := by
  refine Machine.exists_run_of (fun events final =>
    final.tables.messages.rows.map (fun row => (row.held, row.status)) = [(true, .held)] ∧
    ∀ event ∈ events, Answering (RequeuesOnly Released) event) (by decide +kernel) ?_
  rintro events final ran ⟨held, released⟩
  refine ⟨held, fun state reached => ?_⟩
  exact ((held_flag_is_status exampleFunctions exampleSettings).1 Tables.empty heldBySpam events
    final (fun _ member => absurd member List.not_mem_nil) ran released state reached).1

/-- After it has been put back, a held message is pending and still has the flag, in both stores. -/
theorem requeued_message_keeps_flag :
    (∃ events final, Machine.run (operation exampleFunctions exampleSettings).step
        (State.idle Tables.empty) (heldBySpam ++ requeuedBypass) = some (events, final) ∧
      ∃ row ∈ final.tables.messages.rows, row.held = true ∧ row.status = .pending) ∧
    ∃ events final, Machine.run Memory.step (.empty 1) [importedHeld, .requeueInbound 1 1 true] =
        some (events, final) ∧
      ∃ row ∈ final.rows, row.held = true ∧ row.status = .pending := by
  constructor
  · exact Machine.exists_run (by decide +kernel)
  · exact Machine.exists_run (by decide +kernel)

end Camelmailer.Worker.HeldFlag
