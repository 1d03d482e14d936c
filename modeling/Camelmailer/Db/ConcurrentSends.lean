import Camelmailer.Db.Interleaving

/-!
# One of many concurrent sends is stored

The machine below takes the calls of `store_send_operation` apart into their statements.
Under one key, while nothing expires, the first call that commits is the only one that
stores messages, and every other call that succeeds is answered from its record. A call that
fails has written nothing and holds nothing.

The invariant has one idea: which call has won, if one has. A transaction that has inserted
a record under the key excludes a winner, so at most one can appear.
-/

namespace Camelmailer.Db.ConcurrentSends

open Utf8

/-! ## Calls under way -/

inductive Status where
  | running (history : History) (program : PgProgram (Ending OperationEnd))
  /-- The transaction has been given up, and the record of its key is to be read. -/
  | rereading (request : IdempotencyRequest)
  | returned (result : Except Text StoreSendOutcome)
  /-- A statement has failed. -/
  | failed (error : Text)

structure SendCall where
  operation : SendOperation
  circumstances : Circumstances
  status : Status

structure State where
  committed : Tables
  calls : Nat → Option SendCall
  /-- The transaction that has inserted a record under a key and has not ended. -/
  holder : Id × Text → Option Nat

inductive Action where
  /-- A call begins its transaction. -/
  | start (index : Nat) (operation : SendOperation) (circumstances : Circumstances)
  /-- The next statement of a transaction is answered. -/
  | send (index : Nat)
  /-- A transaction commits or is rolled back. -/
  | finish (index : Nat)
  /-- The lookup after a transaction that has been overtaken. -/
  | reread (index : Nat) (now : DateTime)
  /-- The statement that is due fails, which rolls the transaction back. -/
  | fail (index : Nat) (error : Text)

/-- What a call does when its transaction has ended. -/
def ended : OperationEnd → Status
  | .stored response => .returned (.ok (.stored response))
  | .recorded request row => .returned (lookupOutcome (answerRequest request row))
  | .overtaken request => .rereading request

/-- `idempotency_lookup` on the tables it sees. -/
def lookup (now : DateTime) (serverId : Id) (request : IdempotencyRequest) (tables : Tables) :
    Except Text IdempotencyLookup :=
  match (tables.selectUnexpiredRequest now serverId request).1 with
  | none => .ok .new
  | some row => answerRequest request row

def rowKey (row : IdempotencyRow) : Id × Text := (row.serverId, row.keyHash)

/-- The key under which a statement inserts a record. -/
def insertedKey {β : Type} : Command β → Option (Id × Text)
  | .insertRequest serverId request _ => some (serverId, request.keyHash)
  | _ => none

namespace State

def put (state : State) (index : Nat) (call : SendCall) : State :=
  { state with calls := Function.update state.calls index (some call) }

/-- The end of a transaction frees the keys it has held. -/
def release (state : State) (index : Nat) : State :=
  { state with holder := fun key =>
      if state.holder key = some index then none else state.holder key }

/-- A statement waits for the transaction that holds its key. -/
def blocked (state : State) (index : Nat) {β : Type} (command : Command β) : Bool :=
  ((insertedKey command).bind state.holder).any (fun other => other != index)

/-- A statement is answered. -/
def answer (platform : Platform) (state : State) (index : Nat) (call : SendCall)
    (history : History) {β : Type} (command : Command β)
    (next : β → PgProgram (Ending OperationEnd)) : State :=
  let answered : Answered Command :=
    ⟨command, command.answer false (history.view platform state.committed)⟩
  { committed := command.draw state.committed
    calls := Function.update state.calls index (some { call with
      status := .running (history ++ [answered]) (next answered.answer) })
    holder := match recordedRow answered with
      | none => state.holder
      | some row => Function.update state.holder (rowKey row) (some index) }

end State

/-- One step of one call. -/
def advance (platform : Platform) (state : State) (index : Nat) (call : SendCall) :
    Action → Option State
  | .start _ _ _ => none
  | .send _ =>
      match call.status with
      | .running history (.send command next) =>
          if state.blocked index command then none
          else some (state.answer platform index call history command next)
      | _ => none
  | .finish _ =>
      match call.status with
      | .running history (.done (.commit result)) =>
          some ({ state with committed := history.view platform state.committed }.release index
            |>.put index { call with status := ended result })
      | .running _ (.done (.rollback result)) =>
          some ((state.release index).put index { call with status := ended result })
      | .running _ (.stop error) =>
          some ((state.release index).put index { call with status := .returned (.error error) })
      | _ => none
  | .reread _ now =>
      match call.status with
      | .rereading request =>
          some (state.put index { call with status := .returned (lookupOutcome
            (lookup now call.operation.serverId request state.committed)) })
      | _ => none
  | .fail _ error =>
      match call.status with
      | .running _ _ =>
          some ((state.release index).put index { call with status := .failed error })
      | .rereading _ => some (state.put index { call with status := .failed error })
      | _ => none

def Action.index : Action → Nat
  | .start index _ _ => index
  | .send index => index
  | .finish index => index
  | .reread index _ => index
  | .fail index _ => index

/-- A call starts on a free index, and any other step belongs to a call under way. -/
def step (platform : Platform) (state : State) (action : Action) : Option (Unit × State) :=
  match state.calls action.index, action with
  | none, .start index operation circumstances =>
      some ((), state.put index ⟨operation, circumstances, .running []
        (PgProgram.sendOperation circumstances operation.serverId operation.plan
          operation.idempotency)⟩)
  | some call, action => (advance platform state action.index call action).map ((), ·)
  | none, _ => none

/-! ## The property -/

/-- A call has a request under a key. -/
def Under (key : Id × Text) (call : SendCall) (request : IdempotencyRequest) : Prop :=
  call.operation.idempotency = some request ∧ (call.operation.serverId, request.keyHash) = key

/-- The call that has stored its messages under the key. -/
structure Winner where
  index : Nat
  request : IdempotencyRequest
  response : SendOperationResult

/-- What a call that succeeds returns when there is a winner. -/
def Winner.outcome (winner : Winner) (index : Nat) (request : IdempotencyRequest) :
    StoreSendOutcome :=
  if winner.index = index then .stored winner.response
  else if winner.request.requestHash = request.requestHash ∧
      winner.request.operation = request.operation then .replayed winner.response
  else .conflict

/-- As soon as one call under the key has succeeded there is exactly one call that has
stored messages, and every call that has succeeded is answered accordingly. Errors come from
statements that fail or from a plan with a message for another server. Calls that have
failed hold no key. -/
structure Agreement (key : Id × Text) (state : State) : Prop where
  won : ∀ index call request outcome, state.calls index = some call → Under key call request →
    call.status = .returned (.ok outcome) →
    ∃ winner : Winner, (∃ winning, state.calls winner.index = some winning ∧
        Under key winning winner.request ∧
        winning.status = .returned (.ok (.stored winner.response))) ∧
      (∀ other call request outcome, state.calls other = some call → Under key call request →
        call.status = .returned (.ok outcome) → outcome = winner.outcome other request)
  stopped : ∀ index call request error, state.calls index = some call → Under key call request →
    call.status = .returned (.error error) →
    ∃ message ∈ planMessages call.operation.plan, message.serverId ≠ call.operation.serverId
  released : ∀ index call error, state.calls index = some call → call.status = .failed error →
    ∀ key, state.holder key ≠ some index

/-- Messages and records only reach the others when a call commits, and then all of its
messages do. -/
def Atomic (event : Machine.Event State Action Unit) : Prop :=
  (event.after.committed.messages = event.before.committed.messages ∧
    event.after.committed.idempotencyRequests = event.before.committed.idempotencyRequests) ∨
  ∃ index call response rows, event.input = .finish index ∧
    event.after.calls index = some call ∧ call.status = .returned (.ok (.stored response)) ∧
    event.after.committed.messages = event.before.committed.messages ++ rows ∧
    rows.map MessageRow.message = planMessages call.operation.plan ∧
    rows.map MessageRow.sent = sentBy response

/-- Everything happens before a horizon, and no request under the key expires before it. -/
def Unexpired (key : Id × Text) (horizon : DateTime) (event : Machine.Event State Action Unit) :
    Prop :=
  match event.input with
  | .start _ operation circumstances => circumstances.now < horizon ∧
      ∀ request, operation.idempotency = some request →
        (operation.serverId, request.keyHash) = key → horizon ≤ request.expiresAt
  | .reread _ now => now < horizon
  | _ => True

/-! ## The invariant -/

/-- The record of the winner. -/
def Winner.row (key : Id × Text) (winner : Winner) : IdempotencyRow :=
  requestRow key.1 winner.request winner.response

/-- What holds of a call, given who has won and who holds the key. -/
def Status.Good (key : Id × Text) (horizon : DateTime) (platform : Platform)
    (winner : Option Winner) (holder : Option Nat) (index : Nat) (call : SendCall) :
    Status → Prop
  | .running history program =>
      Program.Safe (call.operation.Sends call.circumstances) (call.operation.Ends platform)
        program history ∧
      (∀ now serverId request, ⟨.deleteExpiredRequest now serverId request, ()⟩ ∈ history →
        now < horizon) ∧
      (∀ row ∈ history.recorded, rowKey row = key → holder = some index) ∧
      (∀ serverId request row, ⟨.selectRequest serverId request, some row⟩ ∈ history →
        (serverId, request.keyHash) = key → ∃ known, winner = some known ∧ row = known.row key) ∧
      ∀ serverId request response, ⟨.insertRequest serverId request response, 0⟩ ∈ history →
        (serverId, request.keyHash) = key → winner ≠ none
  | .rereading request => call.operation.idempotency = some request ∧
      (Under key call request → winner ≠ none)
  | .returned (.ok outcome) => ∀ request, Under key call request →
      ∃ known, winner = some known ∧ outcome = known.outcome index request
  | .returned (.error _) => ∀ request, Under key call request →
      ∃ message ∈ planMessages call.operation.plan, message.serverId ≠ call.operation.serverId
  | .failed _ => True

/-- What holds in every state while nothing under the key expires. -/
structure Inv (key : Id × Text) (horizon : DateTime) (platform : Platform) (winner : Option Winner)
    (state : State) : Prop where
  timely : ∀ index call, state.calls index = some call → call.circumstances.now < horizon
  lasting : ∀ index call request, state.calls index = some call → Under key call request →
    horizon ≤ request.expiresAt
  good : ∀ index call, state.calls index = some call →
    call.status.Good key horizon platform winner (state.holder key) index call
  rows : ∀ row ∈ state.committed.idempotencyRequests, rowKey row = key →
    ∃ known, winner = some known ∧ row = known.row key
  present : ∀ known, winner = some known → known.row key ∈ state.committed.idempotencyRequests ∧
    horizon ≤ known.request.expiresAt ∧ known.request.keyHash = key.2 ∧
    ∃ call, state.calls known.index = some call ∧ Under key call known.request ∧
      call.status = .returned (.ok (.stored known.response)) ∧
      (∀ message ∈ planMessages call.operation.plan,
        message.serverId = call.operation.serverId) ∧
      List.Forall₂ Answering call.operation.plan known.response.items
  free : ∀ index, state.holder key = some index → winner = none
  held : ∀ other index, state.holder other = some index →
    ∃ call history program, state.calls index = some call ∧ call.status = .running history program

section Steps

variable {key : Id × Text} {horizon : DateTime} {platform : Platform} {winner later : Option Winner}
  {holder next : Option Nat} {index : Nat} {call : SendCall} {state : State}
  {request : IdempotencyRequest} {row : IdempotencyRow}

theorem rowKey_isUnder {serverId : Id} :
    Tables.isUnder serverId request row = true ↔ rowKey row = (serverId, request.keyHash) := by
  simp [Tables.isUnder, rowKey]

variable {known : Winner}

theorem Winner.row_key (named : known.request.keyHash = key.2) :
    rowKey (known.row key) = key := by
  unfold rowKey Winner.row requestRow
  rw [named]

/-- What holds of a call stays when a winner appears, and when others take or free the
key. -/
theorem Status.Good.mono {status : Status}
    (good : status.Good key horizon platform winner holder index call)
    (appears : winner = none ∨ later = winner)
    (kept : ∀ history program, status = .running history program → holder = some index →
      next = some index) :
    status.Good key horizon platform later next index call := by
  have wins {known : Winner} (found : winner = some known) : later = some known := by
    rcases appears with none | same
    · rw [none] at found
      cases found
    · exact same.trans found
  have exists_later (found : winner ≠ none) : later ≠ none := by
    rcases appears with none | same
    · exact absurd none found
    · rwa [same]
  cases status with
  | running history program =>
      obtain ⟨safe, deletes, holds, seen, overtaken⟩ := good
      refine ⟨safe, deletes, ?_, ?_, ?_⟩
      · intro row member own
        exact kept history program rfl (holds row member own)
      · intro serverId request row member own
        obtain ⟨known, found, same⟩ := seen serverId request row member own
        exact ⟨known, wins found, same⟩
      · intro serverId request response member own
        exact exists_later (overtaken serverId request response member own)
  | rereading request => exact ⟨good.1, fun own => exists_later (good.2 own)⟩
  | returned result =>
      cases result with
      | error error => exact good
      | ok outcome =>
          intro request own
          obtain ⟨known, found, same⟩ := good request own
          exact ⟨known, wins found, same⟩
  | failed error => trivial

variable {history : History}

/-- A row of the key that a transaction sees is the winner's or one of its own. -/
theorem Inv.seen (inv : Inv key horizon platform winner state) (unrecorded : history.recorded = [])
    (member : row ∈ (history.view platform state.committed).idempotencyRequests)
    (own : rowKey row = key) : ∃ known, winner = some known ∧ row = known.row key := by
  rcases History.mem_view member with committed | recorded
  · exact inv.rows row committed own
  · rw [unrecorded] at recorded
    cases recorded

theorem update_placed {calls : Nat → Option SendCall} {other : Nat} {found : SendCall}
    (there : Function.update calls index (some call) other = some found) :
    (other = index ∧ found = call) ∨ (other ≠ index ∧ calls other = some found) := by
  by_cases same : other = index
  · subst same
    rw [Function.update_self] at there
    exact .inl ⟨rfl, (Option.some.inj there).symm⟩
  · rw [Function.update_of_ne same] at there
    exact .inr ⟨same, there⟩

/-- What a step of one call has to show when nobody wins by it. -/
theorem Inv.replace {changed : State} {call : SendCall}
    (inv : Inv key horizon platform winner state)
    (calls : changed.calls = Function.update state.calls index (some call))
    (undecided : ∀ before outcome, state.calls index = some before →
      before.status ≠ .returned (.ok outcome))
    (timely : call.circumstances.now < horizon)
    (lasting : ∀ request, Under key call request → horizon ≤ request.expiresAt)
    (good : call.status.Good key horizon platform winner (changed.holder key) index call)
    (rows : ∀ row, rowKey row = key → (row ∈ changed.committed.idempotencyRequests ↔
      row ∈ state.committed.idempotencyRequests))
    (kept : ∀ other, other ≠ index → state.holder key = some other →
      changed.holder key = some other)
    (free : ∀ other, changed.holder key = some other → winner = none)
    (held : ∀ any other, changed.holder any = some other →
      (other = index ∧ ∃ history program, call.status = .running history program) ∨
      (other ≠ index ∧ state.holder any = some other)) :
    Inv key horizon platform winner changed := by
  have placed {other : Nat} {found : SendCall} (there : changed.calls other = some found) :
      (other = index ∧ found = call) ∨ (other ≠ index ∧ state.calls other = some found) := by
    rw [calls] at there
    exact update_placed there
  have elsewhere {other : Nat} (different : other ≠ index) :
      changed.calls other = state.calls other := by
    rw [calls, Function.update_of_ne different]
  refine ⟨?_, ?_, ?_, ?_, ?_, free, ?_⟩
  · intro other found there
    rcases placed there with ⟨-, rfl⟩ | ⟨-, old⟩
    · exact timely
    · exact inv.timely other found old
  · intro other found request there
    rcases placed there with ⟨-, rfl⟩ | ⟨-, old⟩
    · exact lasting request
    · exact inv.lasting other found request old
  · intro other found there
    rcases placed there with ⟨rfl, rfl⟩ | ⟨different, old⟩
    · exact good
    · exact (inv.good other found old).mono (.inr rfl) (fun _ _ _ holds => kept other different holds)
  · intro row member own
    exact inv.rows row ((rows row own).mp member) own
  · intro known wins
    obtain ⟨there, lasts, named, winning, found, own, stored, answered⟩ := inv.present known wins
    refine ⟨(rows _ (Winner.row_key named)).mpr there, lasts, named, winning, ?_, own, stored,
      answered⟩
    rw [elsewhere]
    · exact found
    · rintro rfl
      exact undecided winning _ found stored
  · intro any other holds
    rcases held any other holds with ⟨rfl, running⟩ | ⟨different, old⟩
    · obtain ⟨history, program, same⟩ := running
      exact ⟨call, history, program, by rw [calls, Function.update_self], same⟩
    · obtain ⟨found, history, program, there, same⟩ := inv.held any other old
      exact ⟨found, history, program, (elsewhere different).trans there, same⟩

/-- A call enters, with nothing done. -/
theorem Inv.start {operation : SendOperation} {circumstances : Circumstances}
    (inv : Inv key horizon platform winner state) (fresh : state.calls index = none)
    (timely : circumstances.now < horizon)
    (lasting : ∀ request, operation.idempotency = some request →
      (operation.serverId, request.keyHash) = key → horizon ≤ request.expiresAt) :
    Inv key horizon platform winner (state.put index ⟨operation, circumstances, .running []
      (PgProgram.sendOperation circumstances operation.serverId operation.plan
        operation.idempotency)⟩) := by
  apply inv.replace rfl
  · intro before outcome there
    rw [fresh] at there
    cases there
  · exact timely
  · intro request own
    exact lasting request own.1 own.2
  · refine ⟨PgProgram.sendOperation_safe platform circumstances operation, ?_, ?_, ?_, ?_⟩
    · intro now serverId request member
      cases member
    · intro row member
      cases member
    · intro serverId request row member
      cases member
    · intro serverId request response member
      cases member
  · intro row own
    rfl
  · intro other different holds
    exact holds
  · exact inv.free
  · intro any other holds
    by_cases same : other = index
    · exact .inl ⟨same, [], _, rfl⟩
    · exact .inr ⟨same, holds⟩

theorem release_held {any : Id × Text} {other : Nat} :
    (state.release index).holder any = some other ↔
      other ≠ index ∧ state.holder any = some other := by
  unfold State.release
  dsimp only
  by_cases own : state.holder any = some index
  · rw [if_pos own, own]
    constructor
    · intro absurdity
      cases absurdity
    · rintro ⟨different, same⟩
      exact absurd (Option.some.inj same).symm different
  · rw [if_neg own]
    constructor
    · intro holds
      refine ⟨?_, holds⟩
      rintro rfl
      exact own holds
    · exact And.right

/-- A transaction ends without writing anything. -/
theorem Inv.give_up {status : Status} (inv : Inv key horizon platform winner state)
    (there : state.calls index = some call)
    (undecided : ∀ outcome, call.status ≠ .returned (.ok outcome))
    (good : status.Good key horizon platform winner ((state.release index).holder key) index call) :
    Inv key horizon platform winner
      ((state.release index).put index { call with status := status }) := by
  apply inv.replace rfl
  · intro before outcome found
    rw [there] at found
    cases found
    exact undecided outcome
  · exact inv.timely index call there
  · intro request
    exact inv.lasting index call request there
  · cases status with
    | running history program => exact good
    | rereading request => exact good
    | returned result =>
        cases result with
        | ok outcome => exact good
        | error error => exact good
    | failed error => trivial
  · intro row own
    rfl
  · intro other different holds
    exact release_held.mpr ⟨different, holds⟩
  · intro other holds
    exact inv.free other (release_held.mp holds).2
  · intro any other holds
    exact .inr (release_held.mp holds)

/-- A call whose transaction has ended holds no key. -/
theorem Inv.release_idle (inv : Inv key horizon platform winner state)
    (there : state.calls index = some call)
    (idle : ∀ history program, call.status ≠ .running history program) :
    state.release index = state := by
  have unheld (any : Id × Text) : state.holder any ≠ some index := by
    intro holds
    obtain ⟨found, history, program, same, running⟩ := inv.held any index holds
    rw [there] at same
    cases same
    exact idle history program running
  unfold State.release
  congr 1
  funext any
  exact if_neg (unheld any)

variable {β : Type}

/-- The key of a statement that records a request. -/
theorem recordedRow_key {command : Command β} {answer : β}
    (records : recordedRow ⟨command, answer⟩ = some row) :
    insertedKey command = some (rowKey row) := by
  cases command
  case insertRequest serverId request response =>
    change (if answer = 0 then none else some _) = some row at records
    split at records
    · cases records
    · cases records
      rfl
  all_goals cases records

/-- A record is inserted only where the transaction sees none. -/
theorem recordedRow_unseen {command : Command β} {tables : Tables}
    (records : recordedRow ⟨command, command.answer false tables⟩ = some row) :
    ∀ other ∈ tables.idempotencyRequests, rowKey other ≠ rowKey row := by
  have own := recordedRow_key records
  cases command
  case insertRequest serverId request response =>
    have named : rowKey row = (serverId, request.keyHash) := (Option.some.inj own).symm
    change (if (if _ then 0 else 1) = 0 then none else some _) = some row at records
    split at records
    case isTrue => cases records
    case isFalse inserted =>
      intro other member same
      apply inserted
      exact List.any_eq_true.mpr ⟨other, member, rowKey_isUnder.mpr (same.trans named)⟩
  all_goals cases records

/-- What a statement leaves of the records committed. -/
theorem draw_requests (command : Command β) (tables : Tables) :
    (command.draw tables).idempotencyRequests = tables.idempotencyRequests ∧
      (command.draw tables).messages = tables.messages := by
  cases command <;> exact ⟨rfl, rfl⟩

/-- A statement of a transaction is answered. -/
theorem Inv.answer {command : Command β} {next : β → PgProgram (Ending OperationEnd)}
    (inv : Inv key horizon platform winner state) (there : state.calls index = some call)
    (running : call.status = .running history (.send command next))
    (unblocked : state.blocked index command = false) :
    Inv key horizon platform winner
      (state.answer platform index call history command next) := by
  have good := inv.good index call there
  rw [running] at good
  obtain ⟨⟨sends, continues⟩, deletes, holds, seen, overtaken⟩ := good
  generalize given : command.answer false (history.view platform state.committed) = answer
  have unchanged : state.answer platform index call history command next =
      { committed := command.draw state.committed
        calls := Function.update state.calls index (some { call with
          status := .running (history ++ [⟨command, answer⟩]) (next answer) })
        holder := match recordedRow ⟨command, answer⟩ with
          | none => state.holder
          | some row => Function.update state.holder (rowKey row) (some index) } := by
    subst given
    rfl
  rw [unchanged]
  -- A statement that records under the key has found it free.
  have records : ∀ row, recordedRow ⟨command, answer⟩ = some row → rowKey row = key →
      winner = none ∧ ∀ other, state.holder key = some other → other = index := by
    intro row recorded own
    constructor
    · by_contra taken
      obtain ⟨known, wins⟩ := Option.ne_none_iff_exists'.mp taken
      obtain ⟨present, lasts, named, -⟩ := inv.present known wins
      have spared : history.Spares (known.row key) := by
        intro now serverId request member
        exact (deletes now serverId request member).trans_le lasts
      subst given
      exact recordedRow_unseen recorded _ (History.view_keeps spared (.inl present))
        ((Winner.row_key named).trans own.symm)
    · intro other holds
      have inserts := recordedRow_key recorded
      rw [own] at inserts
      unfold State.blocked at unblocked
      rw [inserts, Option.bind_some, holds] at unblocked
      simpa using unblocked
  have holder (any : Id × Text) : (match recordedRow ⟨command, answer⟩ with
      | none => state.holder
      | some row => Function.update state.holder (rowKey row) (some index)) any = some index ∧
        (∃ row, recordedRow ⟨command, answer⟩ = some row ∧ rowKey row = any) ∨
      (match recordedRow ⟨command, answer⟩ with
      | none => state.holder
      | some row => Function.update state.holder (rowKey row) (some index)) any =
        state.holder any ∧ ∀ row, recordedRow ⟨command, answer⟩ = some row → rowKey row ≠ any := by
    cases recorded : recordedRow ⟨command, answer⟩ with
    | none => exact .inr ⟨rfl, by simp⟩
    | some row =>
        by_cases same : rowKey row = any
        · subst same
          exact .inl ⟨Function.update_self .., row, rfl, rfl⟩
        · right
          refine ⟨Function.update_of_ne (Ne.symm same) .., ?_⟩
          intro other equal
          cases equal
          exact same
  apply inv.replace rfl
  · intro before outcome found
    rw [there] at found
    cases found
    rw [running]
    simp
  · exact inv.timely index call there
  · intro request
    exact inv.lasting index call request there
  · refine ⟨continues answer, ?_, ?_, ?_, ?_⟩
    · intro now serverId request member
      rcases List.mem_append.mp member with earlier | new
      · exact deletes now serverId request earlier
      · cases List.mem_singleton.mp new
        have same : now = call.circumstances.now := sends
        rw [same]
        exact inv.timely index call there
    · intro row member own
      obtain ⟨entry, listed, recorded⟩ := List.mem_filterMap.mp member
      rcases holder key with ⟨taken, -⟩ | ⟨kept, others⟩
      · exact taken
      · refine kept.trans ?_
        rcases List.mem_append.mp listed with earlier | new
        · exact holds row (List.mem_filterMap.mpr ⟨entry, earlier, recorded⟩) own
        · cases List.mem_singleton.mp new
          exact absurd own (others row recorded)
    · intro serverId request row member own
      rcases List.mem_append.mp member with earlier | new
      · exact seen serverId request row earlier own
      · cases List.mem_singleton.mp new
        obtain ⟨-, -, unrecorded⟩ := sends
        exact inv.seen unrecorded (List.mem_of_find?_eq_some given)
          ((rowKey_isUnder.mp (List.find?_some given)).trans own)
    · intro serverId request response member own
      rcases List.mem_append.mp member with earlier | new
      · exact overtaken serverId request response earlier own
      · cases List.mem_singleton.mp new
        obtain ⟨-, -, unrecorded⟩ := sends
        have present : (history.view platform state.committed).idempotencyRequests.any
            (Tables.isUnder serverId request) = true := by
          by_contra absent
          change (if _ then 0 else 1) = 0 at given
          rw [Bool.false_or, if_neg absent] at given
          cases given
        obtain ⟨row, viewed, under⟩ := List.any_eq_true.mp present
        obtain ⟨known, wins, -⟩ := inv.seen unrecorded viewed
          ((rowKey_isUnder.mp under).trans own)
        rw [wins]
        simp
  · intro row own
    rw [(draw_requests command state.committed).1]
  · intro other different holds
    rcases holder key with ⟨-, row, recorded, own⟩ | ⟨kept, -⟩
    · exact absurd ((records row recorded own).2 other holds) different
    · exact kept.trans holds
  · intro other holds
    rcases holder key with ⟨-, row, recorded, own⟩ | ⟨kept, -⟩
    · exact (records row recorded own).1
    · exact inv.free other (kept.symm.trans holds)
  · intro any other holds
    by_cases same : other = index
    · exact .inl ⟨same, _, _, rfl⟩
    · refine .inr ⟨same, ?_⟩
      rcases holder any with ⟨taken, -⟩ | ⟨kept, -⟩
      · exact absurd (Option.some.inj (holds.symm.trans taken)) same
      · exact kept.symm.trans holds

variable {result : OperationEnd}

/-- A call that commits has stored its plan. -/
theorem Inv.committing (inv : Inv key horizon platform winner state)
    (there : state.calls index = some call)
    (running : call.status = .running history (.done (.commit result))) :
    ∃ response, result = .stored response ∧
      call.operation.Ends platform history (.ok (.commit (.stored response))) := by
  have good := inv.good index call there
  rw [running] at good
  have ends : call.operation.Ends platform history (.ok (.commit result)) := good.1
  cases result with
  | stored response => exact ⟨response, rfl, ends⟩
  | recorded request row => exact ends.elim
  | overtaken request => exact ends.elim

variable {response : SendOperationResult}

section

variable (inv : Inv key horizon platform winner state) (there : state.calls index = some call)
  (running : call.status = .running history (.done (.commit (.stored response))))
include inv there running

/-- A call under the key commits: it is the winner. -/
theorem Inv.win (own : Under key call request) :
    Inv key horizon platform (some ⟨index, request, response⟩)
      ({ state with committed := history.view platform state.committed }.release index |>.put index
        { call with status := .returned (.ok (.stored response)) }) := by
  have good := inv.good index call there
  rw [running] at good
  obtain ⟨⟨-, -, served, answered, recorded⟩, deletes, holds, -, -⟩ := good
  rw [own.1] at recorded
  have records : history.recorded = [requestRow call.operation.serverId request response] :=
    recorded
  have same : call.operation.serverId = key.1 := congrArg Prod.fst own.2
  have named : request.keyHash = key.2 := congrArg Prod.snd own.2
  rw [same] at records
  have holder : state.holder key = some index := by
    apply holds (requestRow key.1 request response)
    · rw [records]
      exact List.mem_singleton_self _
    · rw [rowKey, requestRow, named]
  have unwon : winner = none := inv.free index holder
  have lasts := inv.lasting index call request there own
  have unheld (other : Nat) : (state.release index).holder key ≠ some other := by
    intro held
    obtain ⟨different, before⟩ := release_held.mp held
    exact different (Option.some.inj (before.symm.trans holder))
  refine ⟨?_, ?_, ?_, ?_, ?_, ?_, ?_⟩
  · intro other found new
    rcases update_placed new with ⟨-, rfl⟩ | ⟨-, old⟩
    · exact inv.timely index call there
    · exact inv.timely other found old
  · intro other found asked new
    rcases update_placed new with ⟨-, rfl⟩ | ⟨-, old⟩
    · exact inv.lasting index call asked there
    · exact inv.lasting other found asked old
  · intro other found new
    rcases update_placed new with ⟨rfl, rfl⟩ | ⟨different, old⟩
    · intro asked under
      refine ⟨_, rfl, ?_⟩
      exact (if_pos rfl).symm
    · apply (inv.good other found old).mono (.inl unwon)
      intro _ _ _ held
      exact absurd (Option.some.inj (held.symm.trans holder)) different
  · intro row member under
    rcases History.mem_view member with committed | new
    · obtain ⟨known, wins, -⟩ := inv.rows row committed under
      rw [unwon] at wins
      cases wins
    · rw [records] at new
      exact ⟨_, rfl, List.mem_singleton.mp new⟩
  · intro known wins
    cases wins
    refine ⟨?_, lasts, named, _, Function.update_self .., own, rfl, served,
      answered⟩
    apply History.view_keeps
    · intro now serverId asked member
      exact (deletes now serverId asked member).trans_le lasts
    · right
      rw [records]
      exact List.mem_singleton_self _
  · intro other held
    exact absurd held (unheld other)
  · intro any other held
    obtain ⟨different, before⟩ := release_held.mp held
    obtain ⟨found, past, program, old, status⟩ := inv.held any other before
    exact ⟨found, past, program, (Function.update_of_ne different ..).trans old, status⟩

/-- A call under another key, or without one, commits. -/
theorem Inv.commit_apart (apart : ∀ request, ¬ Under key call request) :
    Inv key horizon platform winner
      ({ state with committed := history.view platform state.committed }.release index |>.put index
        { call with status := .returned (.ok (.stored response)) }) := by
  have good := inv.good index call there
  rw [running] at good
  obtain ⟨⟨-, -, -, -, recorded⟩, deletes, -, -, -⟩ := good
  apply inv.replace rfl
  · intro before outcome found
    rw [there] at found
    cases found
    rw [running]
    simp
  · exact inv.timely index call there
  · intro request
    exact inv.lasting index call request there
  · intro request own
    exact absurd own (apart request)
  · intro row own
    constructor
    · intro member
      rcases History.mem_view member with committed | new
      · exact committed
      · rw [recorded] at new
        obtain ⟨request, given, rfl⟩ := Option.map_eq_some_iff.mp (Option.mem_toList.mp new)
        exact absurd ⟨given, own⟩ (apart request)
    · intro member
      apply History.view_keeps _ (.inl member)
      obtain ⟨known, wins, rfl⟩ := inv.rows row member own
      obtain ⟨-, lasts, -⟩ := inv.present known wins
      intro now serverId request deleted
      exact (deletes now serverId request deleted).trans_le lasts
  · intro other different holds
    exact release_held.mpr ⟨different, holds⟩
  · intro other holds
    exact inv.free other (release_held.mp holds).2
  · intro any other holds
    exact .inr (release_held.mp holds)

end

/-- The record of the winner answers for any other call. -/
theorem Winner.answers (other : known.index ≠ index) (request : IdempotencyRequest) :
    lookupOutcome (answerRequest request (known.row key)) = .ok (known.outcome index request) := by
  unfold Winner.outcome
  rw [if_neg other]
  by_cases same : known.request.requestHash = request.requestHash ∧
      known.request.operation = request.operation
  · simp [answerRequest, Winner.row, requestRow, same, lookupOutcome]
  · rw [if_neg same]
    have different : known.request.requestHash ≠ request.requestHash ∨
        known.request.operation ≠ request.operation := not_and_or.mp same
    simp [answerRequest, Winner.row, requestRow, different, lookupOutcome]

/-- The winner has returned. -/
theorem Inv.winner_returned (inv : Inv key horizon platform winner state)
    (there : state.calls index = some call) (undecided : ∀ outcome, call.status ≠
      .returned (.ok outcome)) (wins : winner = some known) : known.index ≠ index := by
  rintro rfl
  obtain ⟨-, -, -, winning, found, -, stored, -⟩ := inv.present known wins
  rw [there] at found
  cases found
  exact undecided _ stored

/-- A lookup under the key finds the record of the winner. -/
theorem Inv.lookup {now : DateTime} {serverId : Id} (inv : Inv key horizon platform winner state)
    (timely : now < horizon) (own : (serverId, request.keyHash) = key) (wins : winner = some known) :
    lookup now serverId request state.committed = answerRequest request (known.row key) := by
  obtain ⟨present, lasts, named, -⟩ := inv.present known wins
  have found : ∃ row, (state.committed.selectUnexpiredRequest now serverId
      request).1 = some row := by
    apply Option.isSome_iff_exists.mp
    apply List.find?_isSome.mpr
    refine ⟨known.row key, present, Bool.and_eq_true_iff.mpr ⟨?_, ?_⟩⟩
    · exact rowKey_isUnder.mpr ((Winner.row_key named).trans own.symm)
    · exact decide_eq_true (timely.trans_le lasts)
  obtain ⟨row, selected⟩ := found
  have valid := List.find?_some selected
  have under := (Bool.and_eq_true_iff.mp valid).1
  obtain ⟨other, same, rfl⟩ := inv.rows row (List.mem_of_find?_eq_some selected)
    ((rowKey_isUnder.mp under).trans own)
  rw [wins] at same
  cases same
  unfold ConcurrentSends.lookup
  rw [selected]

/-- A call under the key that is answered with the winner's record. -/
theorem good_answer {result : Except Text StoreSendOutcome}
    (given : call.operation.idempotency = some request)
    (answers : Under key call request → ∃ known, winner = some known ∧
      result = .ok (known.outcome index request)) :
    (Status.returned result).Good key horizon platform winner holder index call := by
  have only {other : IdempotencyRequest} (own : Under key call other) : other = request := by
    have same := own.1
    rw [given] at same
    exact (Option.some.inj same).symm
  cases result with
  | ok outcome =>
      intro other own
      obtain rfl := only own
      obtain ⟨known, wins, answered⟩ := answers own
      exact ⟨known, wins, Except.ok.inj answered⟩
  | error error =>
      intro other own
      obtain rfl := only own
      obtain ⟨known, -, answered⟩ := answers own
      cases answered

/-- The end of a transaction that is rolled back. -/
theorem Inv.rollback (inv : Inv key horizon platform winner state)
    (there : state.calls index = some call)
    (running : call.status = .running history (.done (.rollback result))) :
    Inv key horizon platform winner
      ((state.release index).put index { call with status := ended result }) := by
  have undecided : ∀ outcome, call.status ≠ .returned (.ok outcome) := by
    rw [running]
    simp
  have good := inv.good index call there
  rw [running] at good
  obtain ⟨ends, -, -, seen, overtaken⟩ := good
  apply inv.give_up there undecided
  cases result with
  | stored response => exact ends.elim
  | recorded request row =>
      obtain ⟨given, selected⟩ := ends
      apply good_answer given
      intro own
      obtain ⟨known, wins, rfl⟩ := seen _ request row selected own.2
      exact ⟨known, wins, Winner.answers (inv.winner_returned there undecided wins) request⟩
  | overtaken request =>
      obtain ⟨given, response, refused⟩ := ends
      exact ⟨given, fun own => overtaken _ request response refused own.2⟩

/-- The lookup of a call that has been overtaken. -/
theorem Inv.reread {now : DateTime} (inv : Inv key horizon platform winner state)
    (there : state.calls index = some call) (waiting : call.status = .rereading request)
    (timely : now < horizon) :
    Inv key horizon platform winner (state.put index { call with
      status := .returned (lookupOutcome
        (ConcurrentSends.lookup now call.operation.serverId request state.committed)) }) := by
  have undecided : ∀ outcome, call.status ≠ .returned (.ok outcome) := by
    rw [waiting]
    simp
  have good := inv.good index call there
  rw [waiting] at good
  obtain ⟨given, overtaken⟩ := good
  rw [← inv.release_idle there (by rw [waiting]; simp)]
  apply inv.give_up there undecided
  apply good_answer given
  intro own
  obtain ⟨known, wins⟩ := Option.ne_none_iff_exists'.mp (overtaken own)
  refine ⟨known, wins, ?_⟩
  change lookupOutcome (ConcurrentSends.lookup now _ request state.committed) = _
  rw [inv.lookup timely own.2 wins]
  exact Winner.answers (inv.winner_returned there undecided wins) request

/-- The end of a transaction that commits. -/
theorem Inv.commit (inv : Inv key horizon platform winner state)
    (there : state.calls index = some call)
    (running : call.status = .running history (.done (.commit result))) :
    ∃ winner, Inv key horizon platform winner
      ({ state with committed := history.view platform state.committed }.release index |>.put index
        { call with status := ended result }) := by
  obtain ⟨response, rfl, -⟩ := inv.committing there running
  by_cases own : ∃ request, Under key call request
  · obtain ⟨request, own⟩ := own
    exact ⟨_, inv.win there running own⟩
  · exact ⟨winner, inv.commit_apart there running (not_exists.mp own)⟩

variable {action : Action} {next : State}

/-- Every step of a call keeps the invariant, with the winner it had or a new one, and
writes all or nothing. -/
theorem Inv.advance (inv : Inv key horizon platform winner state)
    (there : state.calls action.index = some call)
    (advanced : advance platform state action.index call action = some next)
    (unexpired : Unexpired key horizon ⟨state, action, (), next⟩) :
    (∃ winner, Inv key horizon platform winner next) ∧ Atomic ⟨state, action, (), next⟩ := by
  unfold ConcurrentSends.advance at advanced
  have undecided {history : History} {program : PgProgram (Ending OperationEnd)}
      (running : call.status = .running history program) (outcome : StoreSendOutcome) :
      call.status ≠ .returned (.ok outcome) := by
    rw [running]
    simp
  cases action with
  | start index operation circumstances => cases advanced
  | send index =>
      dsimp only at advanced
      split at advanced
      case h_1 history _ command next running =>
        split at advanced
        case isTrue => cases advanced
        case isFalse free =>
          cases advanced
          refine ⟨⟨winner, inv.answer there running (by simpa using free)⟩, .inl ?_⟩
          exact (draw_requests command state.committed).symm
      case h_2 => cases advanced
  | finish index =>
      dsimp only at advanced
      split at advanced
      case h_1 history result running =>
        cases advanced
        refine ⟨inv.commit there running, .inr ?_⟩
        obtain ⟨response, rfl, messages, named, -⟩ := inv.committing there running
        exact ⟨index, _, response, history.stored platform, rfl, Function.update_self .., rfl,
          History.view_messages .., messages, named⟩
      case h_2 history result running =>
        cases advanced
        exact ⟨⟨winner, inv.rollback there running⟩, .inl ⟨rfl, rfl⟩⟩
      case h_3 history error running =>
        cases advanced
        have good := inv.good index call there
        rw [running] at good
        refine ⟨⟨winner, inv.give_up there (undecided running) ?_⟩, .inl ⟨rfl, rfl⟩⟩
        intro request own
        exact good.1
      case h_4 => cases advanced
  | reread index now =>
      dsimp only at advanced
      split at advanced
      case h_1 request waiting =>
        cases advanced
        exact ⟨⟨winner, inv.reread there waiting unexpired⟩, .inl ⟨rfl, rfl⟩⟩
      case h_2 => cases advanced
  | fail index error =>
      dsimp only at advanced
      split at advanced
      case h_1 history program running =>
        cases advanced
        exact ⟨⟨winner, inv.give_up there (undecided running) trivial⟩, .inl ⟨rfl, rfl⟩⟩
      case h_2 request waiting =>
        cases advanced
        have idle : state.release index = state :=
          inv.release_idle there (by rw [waiting]; simp)
        have stays : Inv key horizon platform winner
            ((state.release index).put index { call with status := .failed error }) :=
          inv.give_up there (by rw [waiting]; simp) trivial
        rw [idle] at stays
        exact ⟨⟨winner, stays⟩, .inl ⟨rfl, rfl⟩⟩
      case h_3 => cases advanced

theorem Inv.step (inv : Inv key horizon platform winner state)
    (stepped : step platform state action = some ((), next))
    (unexpired : Unexpired key horizon ⟨state, action, (), next⟩) :
    (∃ winner, Inv key horizon platform winner next) ∧ Atomic ⟨state, action, (), next⟩ := by
  unfold ConcurrentSends.step at stepped
  split at stepped
  case h_1 index operation circumstances fresh =>
    cases stepped
    exact ⟨⟨winner, inv.start fresh unexpired.1 unexpired.2⟩, .inl ⟨rfl, rfl⟩⟩
  case h_2 call there =>
    obtain ⟨changed, advanced, same⟩ := Option.map_eq_some_iff.mp stepped
    cases same
    exact inv.advance there advanced unexpired
  case h_3 => cases stepped

/-- The invariant gives the property. -/
theorem Inv.agreement (inv : Inv key horizon platform winner state) : Agreement key state := by
  refine ⟨?_, ?_, ?_⟩
  · intro index call request outcome there own returned
    have answered {other : Nat} {found : SendCall} {asked : IdempotencyRequest}
        {result : StoreSendOutcome} (found_there : state.calls other = some found)
        (under : Under key found asked) (status : found.status = .returned (.ok result)) :
        ∃ known, winner = some known ∧ result = known.outcome other asked := by
      have good := inv.good other found found_there
      rw [status] at good
      exact good asked under
    obtain ⟨known, wins, -⟩ := answered there own returned
    obtain ⟨-, -, -, winning, found, under, stored, -⟩ := inv.present known wins
    refine ⟨known, ⟨winning, found, under, stored⟩, ?_⟩
    intro other found asked result found_there under status
    obtain ⟨same, wins', result_eq⟩ := answered found_there under status
    rw [wins] at wins'
    cases wins'
    exact result_eq
  · intro index call request error there own returned
    have good := inv.good index call there
    rw [returned] at good
    exact good request own
  · intro index call error there failed any holds
    obtain ⟨found, history, program, same, running⟩ := inv.held any index holds
    rw [there] at same
    cases same
    rw [failed] at running
    cases running

/-- No step changes what a call has been asked for. -/
theorem step_operation {found : SendCall} (stepped : step platform state action = some ((), next))
    (there : next.calls index = some found) :
    (∃ before, state.calls index = some before ∧ found.operation = before.operation) ∨
      ∃ circumstances, action = .start index found.operation circumstances := by
  have unchanged {calls : Nat → Option SendCall} {other : Nat} {call : SendCall} {status : Status}
      (placed : calls other = some call)
      (now : Function.update calls other (some { call with status := status }) index =
        some found) :
      ∃ before, calls index = some before ∧ found.operation = before.operation := by
    rcases update_placed now with ⟨rfl, rfl⟩ | ⟨-, old⟩
    · exact ⟨call, placed, rfl⟩
    · exact ⟨found, old, rfl⟩
  unfold step at stepped
  split at stepped
  case h_1 other operation circumstances fresh =>
    cases stepped
    rcases update_placed there with ⟨rfl, rfl⟩ | ⟨-, old⟩
    · exact .inr ⟨circumstances, rfl⟩
    · exact .inl ⟨found, old, rfl⟩
  case h_2 call placed =>
    left
    obtain ⟨changed, advanced, same⟩ := Option.map_eq_some_iff.mp stepped
    cases same
    unfold advance at advanced
    split at advanced
    · cases advanced
    · split at advanced
      · split at advanced
        · cases advanced
        · cases advanced
          exact unchanged placed there
      · cases advanced
    · split at advanced <;> cases advanced <;> exact unchanged placed there
    · split at advanced <;> cases advanced
      exact unchanged placed there
    · split at advanced <;> cases advanced <;> exact unchanged placed there
  case h_3 => cases stepped

end Steps

/-! ## Runs -/

/-- The database, and no call yet. -/
def State.initial (tables : Tables) : State where
  committed := tables
  calls := fun _ => none
  holder := fun _ => none

/-- Nobody has won before the first call. -/
theorem Inv.initial (platform : Platform) {tables : Tables} {key : Id × Text} (horizon : DateTime)
    (fresh : ∀ row ∈ tables.idempotencyRequests, rowKey row ≠ key) :
    Inv key horizon platform none (State.initial tables) := by
  refine ⟨?_, ?_, ?_, ?_, ?_, ?_, ?_⟩
  · intro index call there
    cases there
  · intro index call request there
    cases there
  · intro index call there
    cases there
  · intro row member own
    exact absurd own (fresh row member)
  · intro known wins
    cases wins
  · intro index holds
    cases holds
  · intro any index holds
    cases holds

/-- For every interleaving of the statements of any number of calls, with any of them
failing, while nothing under the key expires: as soon as one call under the key has
succeeded exactly one has stored its messages, and all that succeed are answered from it. A
call that does not commit leaves no message and no record, and holds no key. -/
theorem concurrent_sends_store_once (platform : Platform) (tables : Tables) (key : Id × Text)
    (horizon : DateTime) (fresh : ∀ row ∈ tables.idempotencyRequests, rowKey row ≠ key)
    (actions : List Action) (events : List (Machine.Event State Action Unit)) (final : State)
    (ran : Machine.run (step platform) (State.initial tables) actions = some (events, final))
    (unexpired : ∀ event ∈ events, Unexpired key horizon event) :
    Agreement key final ∧ ∀ event ∈ events, Agreement key event.before ∧ Atomic event := by
  obtain ⟨⟨winner, last⟩, holds⟩ := Machine.run_invariant
    (fun _ state => ∃ winner, Inv key horizon platform winner state) (Unexpired key horizon)
    (fun _ _ _ _ _ inv stepped guard => by
      obtain ⟨winner, inv⟩ := inv
      exact (inv.step stepped guard).1)
    actions [] _ final events ⟨none, .initial platform horizon fresh⟩ ran unexpired
  refine ⟨last.agreement, ?_⟩
  intro event member
  obtain ⟨front, back, rfl⟩ := List.append_of_mem member
  obtain ⟨⟨winner, inv⟩, stepped⟩ := holds front event back rfl
  exact ⟨inv.agreement, (inv.step stepped (unexpired event member)).2⟩

/-- A request under a key that expires at time ten. -/
def sharedRequest : IdempotencyRequest where
  keyHash := "key"
  requestHash := "body"
  operation := "messages.send"
  expiresAt := 10

/-- An outgoing message under that key. -/
def sharedOperation : SendOperation where
  serverId := 1
  plan := [.messages [⟨{
    serverId := 1
    rcptTo := "x@y.example"
    mailFrom := "me@a.example"
    rawMessage := encode "Subject: a\r\n\r\n"
    receivedWithSsl := false
    scope := .outgoing
    bounce := false
    domainId := none
    credentialId := none
    routeId := none
    tag := none
    metadata := none
    streamId := none }, none⟩]]
  idempotency := some sharedRequest

def calmStart (index : Nat) : Action :=
  .start index sharedOperation ⟨0, 0, 0, fun _ => "token", fun _ => none⟩

/-- Two calls store their message side by side, and the second one finds its key taken when
it comes to record its request. -/
def racingCalls : List Action :=
  [calmStart 0, calmStart 1] ++ (List.replicate 7 [Action.send 0, Action.send 1]).flatten ++
    [.send 0, .finish 0, .send 1, .finish 1, .reread 1 1]

def State.outcome (state : State) (index : Nat) : Option StoreSendOutcome :=
  (state.calls index).bind (fun call => match call.status with
    | .returned (.ok outcome) => some outcome
    | _ => none)

/-- A bound on the times of an action. -/
def Action.within (action : Action) (horizon : DateTime) : Bool :=
  match action with
  | .start _ operation circumstances => decide (circumstances.now < horizon) &&
      operation.idempotency.all (fun request => decide (horizon ≤ request.expiresAt))
  | .reread _ now => decide (now < horizon)
  | _ => true

/-- One call has stored a message, the other was given the same result again. -/
def agreed : Option StoreSendOutcome → Option StoreSendOutcome → Bool
  | some (.stored first), some (.replayed second) => first == second
  | _, _ => false

/-- The second call is given the result of the first, and one message is stored. -/
theorem racing_calls_agree :
    ∃ events final response,
      Machine.run (step .ascii) (State.initial .empty) racingCalls = some (events, final) ∧
      final.outcome 0 = some (.stored response) ∧ final.outcome 1 = some (.replayed response) ∧
      final.committed.messages.length = 1 ∧ Agreement (1, "key") final := by
  have checked : (Machine.run (step .ascii) (State.initial .empty) racingCalls).any (fun ran =>
      ran.1.all (fun event => event.input.within 5) && ran.2.committed.messages.length == 1 &&
        agreed (ran.2.outcome 0) (ran.2.outcome 1)) = true := by
    decide
  obtain ⟨⟨events, final⟩, ran, holds⟩ := (Option.any_eq_true _ _).mp checked
  simp only [Bool.and_eq_true, List.all_eq_true, beq_iff_eq] at holds
  obtain ⟨⟨timely, single⟩, outcomes⟩ := holds
  unfold agreed at outcomes
  split at outcomes
  case h_2 => cases outcomes
  case h_1 first second stored replayed =>
    obtain rfl := beq_iff_eq.mp outcomes
    refine ⟨events, final, first, ran, stored, replayed, single, ?_⟩
    refine (concurrent_sends_store_once .ascii .empty (1, "key") 5 (by simp [Tables.empty]) _
      events final ran ?_).1
    intro event member
    have bounded := timely event member
    unfold Unexpired
    cases given : event.input with
    | start index operation circumstances =>
        rw [given] at bounded
        obtain ⟨early, late⟩ := Bool.and_eq_true_iff.mp bounded
        refine ⟨of_decide_eq_true early, ?_⟩
        intro request asked own
        rw [asked] at late
        exact of_decide_eq_true late
    | reread index now =>
        rw [given] at bounded
        exact of_decide_eq_true bounded
    | send index => trivial
    | finish index => trivial
    | fail index error => trivial

end Camelmailer.Db.ConcurrentSends
