import Camelmailer.Db.Storing
import Camelmailer.Smtp.Responsibility

/-!
# What an answer to a message says about the database

`finish_data` with the PostgreSQL sink under it. A batch under an idempotency key is
stored in one transaction, and the answer follows from its outcome. Without a key the
messages are handed over one by one and the answer is positive whatever becomes of them:
a failure to store one is only logged.

A positive answer ought to mean that every message of the transaction is stored, and a
negative one that none is. It is so exactly when none of the statements that store the
messages of an unkeyed transaction fails.
-/

namespace Camelmailer.Smtp

open Utf8 Db

/-- What the hash of an SMTP request tells: it is the hash of a sender, these recipients
and some content. -/
def smtpDescribes (platform : Platform) (operation requestHash : Text) (rcptTos : List Text) :
    Prop :=
  operation = "smtp.send" → ∃ mailFrom recipients clientData,
    requestHash = smtpRequestHash platform mailFrom recipients clientData ∧
    rcptTos = recipients.map Recipient.rcptTo

/-- The database under the SMTP server. -/
abbrev SmtpDatabase (platform : Platform) : Type := Database (smtpDescribes platform)

/-- The sink at the end of a message. A call for a single message meets the circumstances
of its place in the order of such calls, a batch those of two transactions. -/
structure Sink where
  circumstances : Nat → Circumstances
  rival : Option Tables

/-- A session's environment with the sink in it. -/
def Env.storing (env : Env) (platform : Platform) (sink : Sink) (tables : Tables) : Env :=
  { env with queueMessages := fun messages idempotency allowance =>
      (PgMessageSink.queueMessages platform (sink.circumstances 0) (sink.circumstances 1)
        sink.rival messages idempotency allowance tables).1 }

/-- What the calls of a session do to the tables. -/
def Sink.perform (platform : Platform) (sink : Sink) : Nat → List Call → Tables → Tables
  | _, [], tables => tables
  | place, .queueMessage message :: rest, tables =>
      sink.perform platform (place + 1) rest
        (PgMessageSink.queueMessage platform (sink.circumstances place) message tables)
  | place, .queueMessages messages idempotency allowance :: rest, tables =>
      sink.perform platform (place + 2) rest
        (PgMessageSink.queueMessages platform (sink.circumstances place)
          (sink.circumstances (place + 1)) sink.rival messages idempotency allowance tables).2
  | place, _ :: rest, tables => sink.perform platform place rest tables

/-- The messages of a transaction: one for each recipient. -/
def IsTransaction (env : Env) (session : Session) (key : Option Text)
    (messages : List QueuedMessage) : Prop :=
  ∃ domainId checks, authorizeSender env session session.headerMap = (some domainId, checks) ∧
    idempotencyKey session session.headerMap = .ok key ∧
    session.recipients.mapM (queuedMessage env session (storedData session key) domainId) =
      some messages

/-- An earlier submission under the same key has been stored completely, and its sender,
recipients and content have the hash of this one's. -/
def Replays (platform : Platform) (env : Env) (session : Session) (tables : Tables) : Prop :=
  ∃ key serverId response, idempotencyKey session session.headerMap = .ok (some key) ∧
    Recorded tables serverId
      (idempotencyRequest platform env session (storedData session (some key)) key) response ∧
    (∀ sent ∈ sentBy response, tables.Holds serverId sent) ∧
    ∃ mailFrom recipients clientData,
      (idempotencyRequest platform env session (storedData session (some key)) key).requestHash =
        smtpRequestHash platform mailFrom recipients clientData ∧
      (sentBy response).map SentMessage.rcptTo = recipients.map Recipient.rcptTo

/-- The answer to a message agrees with what the database holds after it. -/
structure Durable (platform : Platform) (env : Env) (session : Session) (rival : Option Tables)
    (before after : Tables) (reply : Reply) : Prop where
  kept : reply = accepted →
    (∃ key messages rows, IsTransaction env session key messages ∧ before.Stores after rows ∧
      rows.map MessageRow.message = messages) ∨
    (Untouched before after rival ∧ Replays platform env session after)
  left : reply ≠ accepted → Untouched before after rival

/-- The messages of a transaction without a key that is accepted. -/
def IsPlain (env : Env) (session : Session) (messages : List QueuedMessage) : Prop :=
  tooLarge session = false ∧ looping session session.headerMap = false ∧
    IsTransaction env session none messages ∧
    (sendAllowance env session).1.allows (outgoingCount messages) = true

/-- No statement fails that stores one of these messages, which are handed over from a
place on. -/
def Undisturbed (circumstances : Nat → Circumstances) (place : Nat)
    (messages : List QueuedMessage) : Prop :=
  ∀ index message, messages[index]? = some message →
    ∀ statement ∈ insertStatements message,
      (circumstances (place + index)).fault statement = none

variable {circumstances : Nat → Circumstances}

theorem undisturbed_cons {place : Nat} {message : QueuedMessage} {rest : List QueuedMessage} :
    Undisturbed circumstances place (message :: rest) ↔
      (∀ statement ∈ insertStatements message, (circumstances place).fault statement = none) ∧
        Undisturbed circumstances (place + 1) rest := by
  constructor
  · intro calm
    refine ⟨calm 0 message rfl, ?_⟩
    intro index later found
    have shifted := calm (index + 1) later found
    rwa [show place + (index + 1) = place + 1 + index by omega] at shifted
  · rintro ⟨head, tail⟩ index later found
    cases index with
    | zero =>
        cases found
        exact head
    | succ index =>
        have shifted := tail index later found
        rwa [show place + 1 + index = place + (index + 1) by omega] at shifted

namespace Sink

variable (platform : Platform) (sink : Sink)

theorem perform_quiet (quiet calls : List Call) (place : Nat) (tables : Tables)
    (unstored : ∀ call ∈ quiet, call.stores = false) :
    sink.perform platform place (quiet ++ calls) tables =
      sink.perform platform place calls tables := by
  induction quiet with
  | nil => rfl
  | cons call rest ih =>
      have own := unstored call List.mem_cons_self
      have tail := ih (fun other member => unstored other (.tail call member))
      cases call
      case queueMessage => cases own
      case queueMessages => cases own
      all_goals exact tail

/-- Messages handed over one by one are all stored exactly when no statement fails. -/
theorem perform_messages (messages : List QueuedMessage) (place : Nat) (tables : Tables) :
    ∃ rows, tables.Gains (sink.perform platform place (messages.map .queueMessage) tables) rows ∧
      rows.length ≤ messages.length ∧
      (Undisturbed sink.circumstances place messages → rows.map MessageRow.message = messages) ∧
      (rows.length = messages.length → Undisturbed sink.circumstances place messages) := by
  induction messages generalizing place tables with
  | nil =>
      refine ⟨[], .of_eq rfl rfl rfl, Nat.le_refl 0, fun _ => rfl, fun _ => ?_⟩
      intro index message found
      cases found
  | cons message rest ih =>
      obtain ⟨rows, gains, fewer, complete, calm⟩ := ih (place + 1)
        (PgMessageSink.queueMessage platform (sink.circumstances place) message tables)
      rw [undisturbed_cons]
      rcases queueMessage_spec platform (sink.circumstances place) message tables with
        ⟨undisturbed, row, stored, recorded⟩ | ⟨disturbed, unchanged⟩
      · refine ⟨row :: rows, stored.toGains.trans gains, Nat.succ_le_succ fewer, ?_, ?_⟩
        · rintro ⟨-, later⟩
          rw [List.map_cons, recorded, complete later]
        · intro full
          exact ⟨undisturbed, calm (Nat.succ.inj full)⟩
      · refine ⟨rows, ?_, Nat.le_succ_of_le fewer, ?_, ?_⟩
        · change tables.Gains (sink.perform platform (place + 1) (rest.map .queueMessage)
            (PgMessageSink.queueMessage platform (sink.circumstances place) message tables)) rows
          rw [unchanged] at gains ⊢
          exact gains
        · rintro ⟨calmHead, -⟩
          exact absurd calmHead disturbed
        · intro full
          rw [full] at fewer
          exact absurd fewer (Nat.not_succ_le_self _)

end Sink

variable {env : Env} {session : Session}

/-- Nothing is stored before the records are handed over. -/
theorem quiet_before_delivery {domainId : Option Id} {checks : List Call}
    (authorised : authorizeSender env session session.headerMap = (some domainId, checks)) :
    ∀ call ∈ checks ++ (sendAllowance env session).2, call.stores = false := by
  intro call member
  rcases List.mem_append.mp member with check | usage
  · have silent := authorizeSender_stores env session session.headerMap
    rw [authorised] at silent
    exact silent call check
  · exact sendAllowance_stores env session call usage

variable {platform : Platform}

/-- A message is answered positively only when it is neither too large nor looping. -/
theorem finishData_admitted {step : Step} (finished : finishData platform env session = some step)
    (positive : step.reply = accepted) :
    tooLarge session = false ∧ looping session session.headerMap = false := by
  unfold finishData at finished
  by_cases large : tooLarge session = true
  · rw [if_pos large] at finished
    cases finished
    cases positive
  rw [if_neg large] at finished
  by_cases loop : looping session (session.headers.getD HeaderMap.empty) = true
  · rw [if_pos loop] at finished
    cases finished
    have refused : Reply.line "550 Loop detected" ≠ accepted := by decide
    exact absurd positive refused
  exact ⟨Bool.not_eq_true _ ▸ large, Bool.not_eq_true _ ▸ loop⟩

variable {messages : List QueuedMessage}

theorem isTransaction_unique {key other : Option Text} {others : List QueuedMessage}
    (one : IsTransaction env session key messages) (two : IsTransaction env session other others) :
    key = other ∧ messages = others := by
  obtain ⟨domainId, checks, authorised, keyed, built⟩ := one
  obtain ⟨otherDomain, otherChecks, authorisedToo, keyedToo, builtToo⟩ := two
  rw [authorised] at authorisedToo
  cases authorisedToo
  rw [keyed] at keyedToo
  cases keyedToo
  rw [built] at builtToo
  exact ⟨rfl, Option.some.inj builtToo⟩

theorem outcomeReply_accepted (outcome : QueueMessagesOutcome) :
    Reply.line (outcomeReply outcome) = accepted ↔ outcome = .stored ∨ outcome = .replayed := by
  cases outcome with
  | stored => exact ⟨fun _ => .inl rfl, fun _ => rfl⟩
  | replayed => exact ⟨fun _ => .inr rfl, fun _ => rfl⟩
  | conflict =>
      have negative : Reply.line (outcomeReply .conflict) ≠ accepted := by decide
      simp [negative]
  | limitExceeded text =>
      have negative : Reply.line (outcomeReply (.limitExceeded text)) ≠ accepted := by
        intro same
        have head : some '5' = some '2' := congrArg List.head? (Reply.line.inj same)
        exact absurd head (by decide)
      simp [negative]
  | failed error =>
      have negative : Reply.line (outcomeReply (.failed error)) ≠ accepted := by
        intro same
        have head : some '4' = some '2' := congrArg List.head? (Reply.line.inj same)
        exact absurd head (by decide)
      simp [negative]

variable {rival : Option (SmtpDatabase platform)} {database : SmtpDatabase platform}

/-- Under a key the answer follows from the outcome of one transaction. -/
theorem keyed_durable {key : Text} {first again : Circumstances} {outcome : QueueMessagesOutcome}
    {after : Tables} (transaction : IsTransaction env session (some key) messages)
    (queued : PgMessageSink.queueMessages platform first again (rival.map Database.tables) messages
      (some (idempotencyRequest platform env session (storedData session (some key)) key))
      (sendAllowance env session).1 database.tables = (outcome, after)) :
    Durable platform env session (rival.map Database.tables) database.tables after
      (.line (outcomeReply outcome)) := by
  have sound {tables : Tables}
      (kept : Untouched database.tables tables (rival.map Database.tables)) :
      Sound (smtpDescribes platform) tables := by
    rcases kept with rfl | won
    · exact database.sound
    · obtain ⟨other, -, rfl⟩ := Option.map_eq_some_iff.mp won
      exact other.sound
  have positive := (outcomeReply_accepted outcome).not
  rcases queueMessages_spec platform first again _ messages _ _ _ outcome after queued with
    ⟨rfl, rfl, rfl⟩ | ⟨rfl, serverId, response, stored⟩ | ⟨unstored, kept, replayed⟩
  · refine ⟨fun _ => .inl ⟨some key, [], [], transaction, ?_, rfl⟩, fun _ => .inl rfl⟩
    exact (Tables.Gains.of_eq rfl rfl rfl).toStores
  · refine ⟨fun _ => .inl ?_, fun refused => absurd (.inl rfl) (positive.mp refused)⟩
    obtain ⟨rows, added, recorded, -⟩ := stored.stored
    exact ⟨some key, messages, rows, transaction, added, recorded⟩
  · refine ⟨fun accepts => .inr ⟨kept, ?_⟩, fun _ => kept⟩
    rcases (outcomeReply_accepted outcome).mp accepts with same | repeated
    · exact absurd same unstored
    obtain ⟨serverId, request, response, -, asked, row, member, under, hash, operation, given⟩ :=
      replayed repeated
    cases asked
    obtain ⟨held, described⟩ := sound kept row member response given
    obtain ⟨-, -, -, keyed, -⟩ := transaction
    have own : row.serverId = serverId := by
      have sides := Bool.and_eq_true_iff.mp under
      exact beq_iff_eq.mp sides.1
    obtain ⟨mailFrom, recipients, clientData, hashed, named⟩ := described operation
    refine ⟨key, serverId, response, keyed, ⟨row, member, under, hash, operation, given⟩, ?_,
      mailFrom, recipients, clientData, hash ▸ hashed, named⟩
    intro sent listed
    exact own ▸ held sent listed

/-- A transaction without a key agrees with the database exactly when its messages are
stored undisturbed. -/
theorem plain_durable_iff (sink : Sink) {tables : Tables}
    (transaction : IsTransaction env session none messages) :
    Durable platform env session sink.rival tables
        (sink.perform platform 0 (messages.map .queueMessage) tables) accepted ↔
      Undisturbed sink.circumstances 0 messages := by
  obtain ⟨rows, gains, -, complete, calm⟩ := sink.perform_messages platform messages 0 tables
  constructor
  · intro durable
    rcases durable.kept rfl with ⟨key, others, stored, same, added, recorded⟩ |
      ⟨-, key, -, -, keyed, -⟩
    · obtain ⟨-, rfl⟩ := isTransaction_unique same transaction
      apply calm
      have lengths := congrArg List.length (added.messages.symm.trans gains.messages)
      have counted := congrArg List.length recorded
      simp only [List.length_append, List.length_map] at lengths counted
      omega
    · obtain ⟨-, -, -, unkeyed, -⟩ := transaction
      rw [unkeyed] at keyed
      cases keyed
  · intro undisturbed
    refine ⟨fun _ => .inl ?_, fun refused => absurd rfl refused⟩
    exact ⟨none, messages, rows, transaction, gains.toStores, complete undisturbed⟩

/-- An accepted transaction without a key is answered positively, and its messages are
handed over one by one. -/
theorem finishData_plain (platform : Platform) (env : Env) (plain : IsPlain env session messages) :
    finishData platform env session = some (conclude session "250 OK"
      ((authorizeSender env session session.headerMap).2 ++ (sendAllowance env session).2 ++
        messages.map .queueMessage)) := by
  obtain ⟨small, straight, ⟨domainId, checks, authorised, keyed, built⟩, fits⟩ := plain
  have delivery : deliver env messages none (sendAllowance env session).1 =
      (.stored, messages.map .queueMessage) := by
    unfold deliver
    rw [fits]
    rfl
  unfold Session.headerMap at straight authorised keyed ⊢
  unfold finishData
  rw [if_neg (by simp [small]), if_neg (by simp [straight]), authorised]
  rw [keyed]
  unfold storeMessage
  dsimp only
  rw [built, Option.map_some, Option.map_none, delivery]
  rfl

/-- What is not an accepted transaction without a key agrees with the database. -/
theorem unplain_durable {text : Text} {calls : List Call}
    (conclusion : Concluded platform (env.storing platform ⟨circumstances,
      rival.map Database.tables⟩ database.tables) session text calls)
    (admitted : Reply.line text = accepted →
      tooLarge session = false ∧ looping session session.headerMap = false)
    (unplain : ∀ messages, ¬ IsPlain env session messages) :
    Durable platform env session (rival.map Database.tables) database.tables
      (Sink.perform platform ⟨circumstances, rival.map Database.tables⟩ 0 calls database.tables)
      (.line text) := by
  have quiet (calls : List Call) (silent : ∀ call ∈ calls, call.stores = false) :
      Sink.perform platform ⟨circumstances, rival.map Database.tables⟩ 0 calls database.tables =
        database.tables := by
    have skipped := Sink.perform_quiet platform
      ⟨circumstances, rival.map Database.tables⟩ calls [] 0 database.tables silent
    rw [List.append_nil] at skipped
    exact skipped
  cases conclusion with
  | refused text calls unaccepted checks =>
      have silent : ∀ call ∈ calls, call.stores = false := by
        rcases checks with rfl | rfl
        · simp
        · exact authorizeSender_stores _ session session.headerMap
      rw [quiet calls silent]
      exact ⟨fun positive => absurd positive unaccepted, fun _ => .inl rfl⟩
  | handed domainId checks key queued authorised keyed built outcome delivered =>
      have transaction : IsTransaction env session key queued :=
        ⟨domainId, checks, authorised, keyed, built⟩
      have negative (message : Text) :
          ¬ Reply.line (outcomeReply (.limitExceeded message)) = accepted := by
        rw [outcomeReply_accepted]
        simp
      rw [Sink.perform_quiet _ _ _ _ _ _ (quiet_before_delivery authorised)]
      cases key with
      | some key =>
          have handing : outcome = (_, _) := delivered
          subst handing
          exact keyed_durable transaction rfl
      | none =>
          obtain ⟨keyed, -⟩ | ⟨-, -, handing⟩ | ⟨-, fits, handing⟩ :=
            deliver_cases (env.storing platform ⟨circumstances, rival.map Database.tables⟩
              database.tables) queued none (sendAllowance env session).1
          · cases keyed
          · have same : outcome = _ := delivered.trans handing
            subst same
            exact ⟨fun positive => absurd positive (negative _), fun _ => .inl rfl⟩
          · have same : outcome = _ := delivered.trans handing
            subst same
            obtain ⟨small, straight⟩ := admitted rfl
            exact absurd ⟨small, straight, transaction, fits⟩ (unplain queued)

/-- For every session at the end of a message, every content of the database, and every
pattern of failing statements: the answer agrees with what the database holds afterwards
exactly when, if the transaction is accepted without a key, no statement that stores one
of its messages fails. -/
theorem finish_data_durable_iff (platform : Platform) (env : Env) (session : Session)
    (circumstances : Nat → Circumstances) (rival : Option (SmtpDatabase platform))
    (database : SmtpDatabase platform) (step : Step)
    (finished : finishData platform (env.storing platform ⟨circumstances,
      rival.map Database.tables⟩ database.tables) session = some step) :
    Durable platform env session (rival.map Database.tables) database.tables
        (Sink.perform platform ⟨circumstances, rival.map Database.tables⟩ 0 step.calls
          database.tables) step.reply ↔
      ∀ messages, IsPlain env session messages → Undisturbed circumstances 0 messages := by
  by_cases exists_plain : ∃ messages, IsPlain env session messages
  · obtain ⟨messages, plain⟩ := exists_plain
    have answered := finishData_plain platform (env.storing platform
      ⟨circumstances, rival.map Database.tables⟩ database.tables) plain
    rw [answered] at finished
    obtain rfl := Option.some.inj finished
    obtain ⟨domainId, checks, authorised, -⟩ := plain.2.2.1
    have silent : ∀ call ∈ checks ++ (sendAllowance (env.storing platform ⟨circumstances,
        rival.map Database.tables⟩ database.tables) session).2, call.stores = false :=
      quiet_before_delivery authorised
    change Durable platform env session _ _ (Sink.perform platform _ 0 (_ ++ _) _) accepted ↔ _
    rw [show (authorizeSender (env.storing platform ⟨circumstances, rival.map Database.tables⟩
      database.tables) session session.headerMap).2 = checks from congrArg Prod.snd authorised,
      Sink.perform_quiet _ _ _ _ _ _ silent, plain_durable_iff ⟨circumstances, rival.map Database.tables⟩ plain.2.2.1]
    constructor
    · intro undisturbed others plainToo
      obtain ⟨-, rfl⟩ := isTransaction_unique plain.2.2.1 plainToo.2.2.1
      exact undisturbed
    · intro all
      exact all messages plain
  · have unplain := not_exists.mp exists_plain
    obtain ⟨text, calls, conclusion, rfl⟩ := finishData_concluded finished
    have durable := unplain_durable conclusion (finishData_admitted finished) unplain
    exact ⟨fun _ messages plain => absurd plain (unplain messages), fun _ => durable⟩

theorem isTransaction_rcptTos {key : Option Text}
    (transaction : IsTransaction env session key messages) :
    messages.map QueuedMessage.rcptTo = session.recipients.map Recipient.rcptTo := by
  obtain ⟨domainId, checks, -, -, built⟩ := transaction
  have paired := mapM_forall₂ built
  clear built
  generalize session.recipients = recipients at paired ⊢
  induction paired with
  | nil => rfl
  | cons first rest ih =>
      rw [List.map_cons, List.map_cons, ih, (queuedMessage_spec first).2.1]

/-- A session at the end of a message for two recipients. -/
def finishingSession : Session :=
  { exampleSession with
    state := .rcptToReceived
    mailFrom := some "x@y.example".toList
    recipients := [⟨.route, "info@in.example", exampleServer 1, some exampleRoute⟩,
      ⟨.route, "sales@in.example", exampleServer 1, some exampleRoute⟩]
    data := some (encode "Subject: a\r\n\r\n")
    headers := some HeaderMap.empty }

/-- A transaction without failures. -/
def calmCircumstances : Circumstances where
  now := 0
  day := 0
  month := 0
  token := fun _ => "token"
  fault := fun _ => none

def emptyDatabase : SmtpDatabase .ascii where
  tables := .empty
  sound := by
    intro row member
    cases member

/-- Without failures both messages are stored behind the positive answer. -/
theorem undisturbed_message_durable :
    ∃ step, finishData .ascii (exampleEnv.storing .ascii ⟨fun _ => calmCircumstances, none⟩
        emptyDatabase.tables) finishingSession = some step ∧
      step.reply = accepted ∧
      Durable .ascii exampleEnv finishingSession none emptyDatabase.tables
        (Sink.perform .ascii ⟨fun _ => calmCircumstances, none⟩ 0 step.calls emptyDatabase.tables)
        step.reply := by
  have checked : (finishData .ascii (exampleEnv.storing .ascii ⟨fun _ => calmCircumstances, none⟩
      emptyDatabase.tables) finishingSession).any (fun step => step.reply == accepted) = true := by
    decide
  obtain ⟨step, finished, positive⟩ := (Option.any_eq_true _ _).mp checked
  refine ⟨step, finished, beq_iff_eq.mp positive, ?_⟩
  apply (finish_data_durable_iff .ascii exampleEnv finishingSession (fun _ => calmCircumstances)
    none emptyDatabase step finished).mpr
  intro messages plain index message found statement member
  rfl

/-- The second message cannot be inserted. -/
def failingSink : Sink where
  circumstances := fun place =>
    { calmCircumstances with
      fault := fun statement =>
        if place = 1 ∧ statement = .insertMessage 0 then some "connection lost".toList else none }
  rival := none

/-- It is lost, and the answer is positive all the same. -/
theorem failed_insert_accepted :
    ∃ step, finishData .ascii (exampleEnv.storing .ascii failingSink emptyDatabase.tables)
        finishingSession = some step ∧
      step.reply = accepted ∧
      ¬ Durable .ascii exampleEnv finishingSession none emptyDatabase.tables
        (failingSink.perform .ascii 0 step.calls emptyDatabase.tables) step.reply := by
  have checked : (finishData .ascii (exampleEnv.storing .ascii failingSink emptyDatabase.tables)
      finishingSession).any (fun step => step.reply == accepted &&
        (failingSink.perform .ascii 0 step.calls emptyDatabase.tables).messages.length == 1) =
      true := by
    decide
  obtain ⟨step, finished, holds⟩ := (Option.any_eq_true _ _).mp checked
  simp only [Bool.and_eq_true, beq_iff_eq] at holds
  obtain ⟨positive, single⟩ := holds
  refine ⟨step, finished, positive, ?_⟩
  intro durable
  rcases durable.kept positive with ⟨key, messages, rows, transaction, stored, recorded⟩ |
    ⟨-, key, -, -, keyed, -⟩
  · obtain ⟨domainId, checks, -, -, built⟩ := transaction
    have two : messages.length = 2 := (mapM_forall₂ built).length_eq.symm
    have counted := congrArg List.length recorded
    have grown := congrArg List.length stored.messages
    rw [List.length_map] at counted
    rw [single, List.length_append, counted, two] at grown
    cases grown
  · cases keyed

end Camelmailer.Smtp
