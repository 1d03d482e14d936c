import Camelmailer.Worker.Dialogue

/-!
# Permanent failures

A permanent failure ends the delivery of a message and is recorded with a bounce category; a
temporary one is tried again while there are attempts left. Which one an attempt ends with is
decided by `classify`, from the code of the reply it stops at. A reply that does not begin with
a number has the code zero, and every code that is neither a success nor temporary is taken for
permanent, so the codes below 200 and from 600 on have to be told from those the receiver means.
-/

namespace Camelmailer.Worker.Dialogue

open Utf8 Db

/-! ## Vocabulary -/

/-- Some command has been answered with a code of a permanent failure. -/
def Rejected (logs : List (List Entry)) : Prop :=
  ∃ log ∈ logs, ∃ stage code text, .reply stage code text ∈ log ∧ 500 ≤ code ∧ code ≤ 599

/-- A reply that is not gone on from says neither success nor failure. -/
def OddlyStopped (logs : List (List Entry)) : Prop :=
  ∃ log ∈ logs, ∃ stage code text, .reply stage code text ∈ log ∧ stage.expects code = false ∧
    ¬(200 ≤ code ∧ code ≤ 599)

/-- A record that leaves the message to be tried again. -/
def Postpones : List (Answered Command) → ∀ β, Command β → Prop
  | _, _, .recordOutboundDelivery _ _ _ result action _ _ =>
      result.status = .softFail ∧ result.bounceCategory = none ∧ ∃ attempts, action = .retry attempts
  | _, _, _ => False

/-- Only what the other side means as permanent ends the delivery of a message. -/
structure FailsRightly (logs : List (List Entry)) (outcome : SendOutcome) : Prop where
  permanent : ∀ response, outcome = .hardFail response → Rejected logs
  odd : OddlyStopped logs → ∃ response, outcome = .softFail response
  /-- Without a reply that stops it, an exchange ends with an error of the connection, a refusal of
  the client, or the delivery. -/
  broken : (∀ log ∈ logs, Regular log) → ∀ response, outcome ≠ .hardFail response
  retried : ∀ response, outcome = .softFail response →
    ∀ (functions : Functions) (settings : Settings) (queued : QueueRow) (message : StoredMessage),
      queued.attempts + 1 < settings.maximumDeliveryAttempts →
      (recordSend functions settings queued message outcome).Safe Postpones (fun _ _ => True) []

/-! ## Recording a temporary failure -/

theorem recordSend_postpones {functions : Functions} {settings : Settings} {queued : QueueRow}
    {message : StoredMessage} (response : Text)
    (room : queued.attempts + 1 < settings.maximumDeliveryAttempts) :
    (recordSend functions settings queued message (.softFail response)).Safe Postpones
      (fun _ _ => True) [] := by
  unfold recordSend
  split_ifs with exhausted
  · exact absurd room (Nat.not_lt_of_le exhausted)
  · refine ⟨⟨rfl, rfl, queued.attempts, rfl⟩, ?_⟩
    intro answer
    cases answer <;> trivial

/-! ## Attempts -/

section Verdict

variable {params : SendParams} {rawMessage : Bytes} {log : List Entry} {logs : List (List Entry)}
  {result : Except Text Attempt} {outcome : SendOutcome}

/-- An attempt ends either without a reply that stops it, and then with no permanent failure, or
with the verdict on the one reply that does. -/
def Judged (log : List Entry) (outcome : SendOutcome) : Prop :=
  (Regular log ∧ ∀ response, outcome ≠ .hardFail response) ∨
    ∃ stage code text tls, .reply stage code text ∈ log ∧ stage.expects code = false ∧
      outcome = classify code text tls ∧
      ∀ other number words, .reply other number words ∈ log →
        other.expects number = true ∨ number = code

theorem Ends.judged (ends : Ends params rawMessage log (.ok (.complete outcome))) :
    Judged log outcome := by
  generalize complete : Except.ok (Attempt.complete outcome) = result at ends
  cases ends with
  | abandoned regular soft =>
      obtain ⟨response, rfl⟩ := soft outcome complete.symm
      exact .inl ⟨regular, fun _ => nofun⟩
  | delivered regular delivered =>
      cases complete
      exact .inl ⟨regular, fun _ => nofun⟩
  | @stopped before behind stage code text tls begun odd quiet =>
      cases complete
      refine .inr ⟨stage, code, text, tls, by simp, odd, rfl, ?_⟩
      intro other number words member
      rcases List.mem_append.mp member with early | late
      · exact .inl (begun.regular other number words early)
      · rcases List.mem_cons.mp late with same | later
        · cases same
          exact .inr rfl
        · exact absurd later (quiet other number words)

/-- An attempt that does not come to an outcome has not been stopped by a reply. -/
theorem Ends.regular (ends : Ends params rawMessage log result)
    (incomplete : ∀ outcome, result ≠ .ok (.complete outcome)) : Regular log := by
  cases ends with
  | abandoned regular _ => exact regular
  | delivered regular _ => exact regular
  | stopped _ _ _ => exact absurd rfl (incomplete _)

/-- The codes that are taken for permanent. -/
theorem classify_hardFail {code : Nat} {text response : Text} {tls : Bool}
    (failed : classify code text tls = .hardFail response) : ¬(200 ≤ code ∧ code ≤ 499) := by
  unfold classify at failed
  split_ifs at failed with success temporary
  omega

/-- A code that says neither success nor failure is taken for permanent. -/
theorem classify_odd {code : Nat} (text : Text) (tls : Bool) (odd : ¬(200 ≤ code ∧ code ≤ 599)) :
    classify code text tls = .hardFail text := by
  unfold classify
  rw [if_neg (by omega), if_neg (by omega)]

/-- With one reply at most that stops the exchange, its code decides. -/
theorem Judged.rightly_iff (judged : Judged log outcome) (used : log ∈ logs)
    (others : ∀ other ∈ logs, other = log ∨ Regular other) :
    FailsRightly logs outcome ↔ ∀ log ∈ logs, ∀ stage code text, .reply stage code text ∈ log →
      stage.expects code = true ∨ (200 ≤ code ∧ code ≤ 599) := by
  have retried (soft : SendOutcome) : ∀ response, soft = .softFail response →
      ∀ (functions : Functions) (settings : Settings) (queued : QueueRow) (message : StoredMessage),
        queued.attempts + 1 < settings.maximumDeliveryAttempts →
        (recordSend functions settings queued message soft).Safe Postpones (fun _ _ => True) [] := by
    rintro response rfl functions settings queued message room
    exact recordSend_postpones response room
  constructor
  · intro rightly other member stage code text there
    by_contra refused
    obtain ⟨unexpected, odd⟩ := not_or.mp refused
    have stops : stage.expects code = false := Bool.eq_false_iff.mpr unexpected
    obtain ⟨response, soft⟩ := rightly.odd ⟨other, member, stage, code, text, there, stops, odd⟩
    rcases others other member with rfl | regular
    · rcases judged with ⟨regular, -⟩ | ⟨stage', code', text', tls, -, -, classified, only⟩
      · exact unexpected (regular stage code text there)
      · rcases only stage code text there with expected | same
        · exact unexpected expected
        · rw [classified, ← same, classify_odd text' tls odd] at soft
          cases soft
    · exact unexpected (regular stage code text there)
  · intro clear
    rcases judged with ⟨regular, lasting⟩ | ⟨stage, code, text, tls, there, stops, classified, only⟩
    · refine ⟨fun response failed => absurd failed (lasting response), ?_, fun _ => lasting,
        retried outcome⟩
      rintro ⟨other, member, stage, code, text, there, stops, odd⟩
      rcases clear other member stage code text there with expected | plain
      · rw [stops] at expected
        cases expected
      · exact absurd plain odd
    · have plain : 200 ≤ code ∧ code ≤ 599 := by
        refine (clear log used stage code text there).resolve_left ?_
        rw [stops]
        exact Bool.false_ne_true
      refine ⟨?_, ?_, ?_, retried outcome⟩
      · intro response failed
        rw [classified] at failed
        have permanent := classify_hardFail failed
        exact ⟨log, used, stage, code, text, there, by omega, plain.2⟩
      · rintro ⟨other, member, stage', code', text', there', stops', odd⟩
        rcases clear other member stage' code' text' there' with expected | plain'
        · rw [stops'] at expected
          cases expected
        · exact absurd plain' odd
      · intro regular
        have expected := regular log used stage code text there
        rw [stops] at expected
        cases expected

end Verdict

/-- For every script of the other side: a message fails for good only on a code from 500 to 599 of
the other side, and every other end of an exchange leaves it to be tried again, if and only if no
reply that is not gone on from has a code below 200 or above 599. -/
theorem failed_rightly_iff (externals : Externals) (params : SendParams) (rawMessage : Bytes)
    (first second : Peer) :
    ∃ outcome log, sendMessage externals params rawMessage first second = some (outcome, log) ∧
      (FailsRightly (connectionLogs externals params rawMessage first second) outcome ↔
        ∀ log ∈ connectionLogs externals params rawMessage first second,
          ∀ stage code text, .reply stage code text ∈ log →
            stage.expects code = true ∨ (200 ≤ code ∧ code ≤ 599)) := by
  have failed {log : List Entry} {error : Text}
      (ends : Ends params rawMessage log (.error error)) :
      Judged log (connectionError params error) :=
    .inl ⟨ends.regular (fun _ => nofun), fun _ => nofun⟩
  have ends := trySend_ends externals params rawMessage first true
  unfold sendMessage connectionLogs
  rcases tried : trySend externals params rawMessage first true with ⟨result, log⟩
  rw [tried] at ends
  have alone : ∀ other ∈ [log], other = log ∨ Regular other :=
    fun other member => .inl (List.mem_singleton.mp member)
  cases result with
  | error error => exact ⟨_, log, rfl, (failed ends).rightly_iff (by simp) alone⟩
  | ok attempt =>
      cases attempt with
      | complete outcome => exact ⟨outcome, log, rfl, ends.judged.rightly_iff (by simp) alone⟩
      | opportunisticStartTlsHandshakeFailed =>
          have again := trySend_ends externals params rawMessage second false
          have completes := trySend_completes externals params rawMessage second
          rcases retried : trySend externals params rawMessage second false with ⟨result, later⟩
          rw [retried] at again completes
          have both : ∀ other ∈ [log, later], other = later ∨ Regular other := by
            intro other member
            rcases List.mem_cons.mp member with rfl | last
            · exact .inr (ends.regular (fun _ => nofun))
            · exact .inl (List.mem_singleton.mp last)
          cases result with
          | error error => exact ⟨_, later, rfl, (failed again).rightly_iff (by simp) both⟩
          | ok attempt =>
              cases attempt with
              | complete outcome =>
                  exact ⟨outcome, later, rfl, again.judged.rightly_iff (by simp) both⟩
              | opportunisticStartTlsHandshakeFailed => exact absurd rfl completes

/-! ## A server that does not begin with a number -/

/-- Whether an entry is a reply with a code of a permanent failure. -/
def rejects : Entry → Bool
  | .reply _ code _ => decide (500 ≤ code ∧ code ≤ 599)
  | _ => false

/-- The greeting has no code, and the message has failed for good. -/
theorem unreadable_greeting_permanent :
    ∃ log, sendMessage exampleExternals exampleParams exampleOctets (examplePeer ["hello"])
        (examplePeer []) = some (.hardFail "hello", log) ∧
      ¬Rejected (connectionLogs exampleExternals exampleParams exampleOctets (examplePeer ["hello"])
        (examplePeer [])) := by
  have checked : (sendMessage exampleExternals exampleParams exampleOctets (examplePeer ["hello"])
      (examplePeer [])).any (fun sent => decide (sent.1 = .hardFail "hello")) = true := by
    decide +kernel
  have quiet : (connectionLogs exampleExternals exampleParams exampleOctets (examplePeer ["hello"])
      (examplePeer [])).any (fun log => log.any rejects) = false := by
    decide +kernel
  obtain ⟨⟨outcome, log⟩, sent, failed⟩ := (Option.any_eq_true _ _).mp checked
  obtain rfl := of_decide_eq_true failed
  refine ⟨log, sent, ?_⟩
  rintro ⟨other, member, stage, code, text, there, permanent⟩
  have unrejected := List.any_eq_false.mp (Bool.eq_false_iff.mpr
    (List.any_eq_false.mp quiet other member)) _ there
  exact unrejected (decide_eq_true permanent)

end Camelmailer.Worker.Dialogue
