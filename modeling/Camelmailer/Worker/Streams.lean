import Camelmailer.Worker.Dialogue

/-!
# What goes over an unencrypted stream

A relay can demand TLS, from the first byte or by an upgrade. An attempt to such a relay says no
more than its name and STARTTLS before the handshake, whatever the other side answers. Only where
TLS is optional is there a second attempt, in plain text, and the first one has then handed nothing
over.

A write that fails is not in the log of its connection. What is said here holds for every script,
and so for the one in which that write succeeds.
-/

namespace Camelmailer.Worker.Dialogue

open Utf8

/-! ## Vocabulary -/

def Entry.written : Entry → Option Bytes
  | .wrote octets => some octets
  | _ => none

/-- What has been written on a connection. -/
def writes (log : List Entry) : List Bytes := log.filterMap Entry.written

/-- What has been written before the stream was encrypted. -/
def clearWrites (log : List Entry) : List Bytes := writes (log.takeWhile (· ≠ .secured))

def ehloLine (params : SendParams) : Bytes := sendLine ("EHLO " ++ params.heloHostname)

def heloLine (params : SendParams) : Bytes := sendLine ("HELO " ++ params.heloHostname)

def startTlsLine : Bytes := sendLine "STARTTLS"

/-- Nothing but the name of the client and STARTTLS. -/
def Introduces (params : SendParams) (lines : List Bytes) : Prop :=
  lines <+: [ehloLine params, heloLine params] ∨ lines <+: [ehloLine params, startTlsLine]

/-- A connection on which more is written than an introduction. -/
def handsOver (params : SendParams) (log : List Entry) : Bool :=
  (writes log).any (fun octets =>
    octets ∉ [ehloLine params, heloLine params, startTlsLine])

theorem writes_append (front back : List Entry) :
    writes (front ++ back) = writes front ++ writes back :=
  List.filterMap_append

theorem clearWrites_append {front : List Entry} (back : List Entry) (plain : .secured ∉ front) :
    clearWrites (front ++ back) = writes front ++ clearWrites back := by
  have before : ∀ entry ∈ front, decide (entry ≠ .secured) = true := by
    intro entry member
    refine decide_eq_true ?_
    rintro rfl
    exact plain member
  unfold clearWrites
  rw [List.takeWhile_append_of_pos before, writes_append]

@[simp] theorem clearWrites_secured (back : List Entry) : clearWrites (.secured :: back) = [] := by
  rfl

/-- On a stream that is never encrypted all writes are in the clear. -/
theorem clearWrites_plain {log : List Entry} (plain : .secured ∉ log) :
    clearWrites log = writes log := by
  have all := clearWrites_append [] plain
  rw [List.append_nil] at all
  rw [all]
  exact List.append_nil _

/-! ## Without an upgrade -/

section Plain

variable {params : SendParams} {rawMessage : Bytes} {α β : Type}

/-- A program that does not encrypt the stream. -/
def Plain (program : Talk α) : Prop := Leaves program (fun added _ => .secured ∉ added)

theorem Plain.bind {program : Talk α} {next : α → Talk β} (first : Plain program)
    (second : ∀ value, Plain (next value)) : Plain (program >>= next) := by
  refine Leaves.bind first (fun _ _ plain => plain) ?_
  intro added value plain
  refine (second value).mono ?_
  intro more result rest
  simp [plain, rest]

theorem Plain.pure (value : α) : Plain (Pure.pure value : Talk α) :=
  Leaves.pure _ List.not_mem_nil

/-- A question is asked on the stream there is. -/
theorem Asked.plain {stage : Stage} {written added : List Entry} {result : Except Text (Nat × Text)}
    (asked : Asked stage written added result) (unsecured : .secured ∉ written) :
    .secured ∉ added := by
  cases result with
  | error error => exact fun member => unsecured (List.IsPrefix.subset asked member)
  | ok reply =>
      obtain rfl := asked
      simp [unsecured]

theorem plain_command (stage : Stage) (line : Text) : Plain (command stage line) :=
  (leaves_command stage line).mono (fun _ _ asked => asked.plain (by simp))

theorem plain_transmit (rawMessage : Bytes) : Plain (transmit rawMessage) :=
  (leaves_transmit rawMessage).mono (fun _ _ asked => asked.plain (by simp))

theorem plain_goodbye (outcome : SendOutcome) : Plain (sayGoodbye outcome) := by
  intro connection
  obtain ⟨added, log, holds⟩ := leaves_write (sendLine "QUIT") connection
  refine ⟨added, log, ?_⟩
  cases result : (write (sendLine "QUIT") connection).1 with
  | error error =>
      rw [result] at holds
      rw [holds]
      exact List.not_mem_nil
  | ok done =>
      rw [result] at holds
      rw [holds]
      simp

theorem plain_orStop {accepts : Nat → Bool} {tls : Bool} {reply : Talk (Nat × Text)}
    {next : Talk Attempt} (asks : Plain reply) (continues : Plain next) :
    Plain (orStop accepts tls reply next) := by
  refine asks.bind ?_
  rintro ⟨code, response⟩
  dsimp only
  split_ifs
  · exact continues
  · exact Plain.pure _

theorem plain_transfer (tls : Bool) : Plain (transfer params rawMessage tls) := by
  refine plain_orStop (plain_command .mailFrom _) ?_
  refine plain_orStop (plain_command .rcptTo _) ?_
  refine plain_orStop (plain_command .data _) ?_
  exact (plain_transmit rawMessage).bind (fun _ => plain_goodbye _)

theorem plain_demandTls (externals : Externals) (tls : Bool) :
    Plain (demandTls externals params rawMessage tls) := by
  unfold demandTls authenticate
  split_ifs with required
  · exact Plain.pure _
  · split
    · exact plain_transfer tls
    · exact plain_orStop (plain_command .auth _) (plain_transfer tls)

theorem leaves_greeting : Leaves (readReply .greeting) (Asked .greeting []) := by
  refine (leaves_readReply .greeting).mono ?_
  rintro added (error | ⟨code, text⟩) rfl
  · exact List.prefix_rfl
  · rfl

/-- Where STARTTLS is not allowed the stream stays as it is. -/
theorem plain_dialogue (externals : Externals) (peer : Peer) (tls : Bool) :
    Plain (dialogue externals params rawMessage peer tls false) := by
  refine plain_orStop (leaves_greeting.mono (fun _ _ asked => asked.plain List.not_mem_nil)) ?_
  refine (plain_command .ehlo _).bind ?_
  rintro ⟨code, ehloResponse⟩
  have unwanted : wantsStartTls externals params tls false ehloResponse = false := by
    simp [wantsStartTls]
  dsimp only
  rw [unwanted, if_neg Bool.false_ne_true]
  split_ifs with refused
  · exact plain_orStop (plain_command .helo _) (plain_demandTls externals tls)
  · exact plain_demandTls externals tls

end Plain

/-- What an attempt leaves behind: nothing, or what is left by the dialogue on its connection. -/
theorem trySend_leaves {params : SendParams} {rawMessage : Bytes} {peer : Peer}
    {externals : Externals} {allowStartTls : Bool} {P : List Entry → Except Text Attempt → Prop}
    (leaves : Leaves (dialogue externals params rawMessage peer
      (decide (params.security = .implicitTls)) allowStartTls) P) :
    (∃ error, trySend externals params rawMessage peer allowStartTls = (.error error, [])) ∨
      ∃ added result, trySend externals params rawMessage peer allowStartTls =
        (result, (if params.security = .implicitTls then [.secured] else []) ++ added) ∧
        P added result := by
  unfold trySend
  split
  · exact .inl ⟨_, rfl⟩
  · dsimp only
    split
    · exact .inl ⟨_, rfl⟩
    · obtain ⟨added, log, holds⟩ := leaves _
      exact .inr ⟨added, _, by rw [log]; simp, holds⟩

/-! ## Where TLS is mandatory -/

section Mandatory

variable {params : SendParams} {rawMessage : Bytes}

/-- What a program writes in the clear is within some lines. -/
def Within (lines : List Bytes) (program : Talk Attempt) : Prop :=
  Leaves program (fun added _ => clearWrites added <+: lines)

theorem Within.silent {lines : List Bytes} (attempt : Attempt) :
    Within lines (Pure.pure attempt : Talk Attempt) :=
  Leaves.pure _ List.nil_prefix

/-- A command is written in front of what the reply leads to. -/
theorem Asked.clearWrites {stage : Stage} {line : Text} {added : List Entry}
    {result : Except Text (Nat × Text)} (asked : Asked stage [.wrote (sendLine line)] added result)
    (more : List Entry) :
    match result with
    | .error _ => clearWrites added <+: [sendLine line]
    | .ok _ => clearWrites (added ++ more) = sendLine line :: clearWrites more := by
  have plain := asked.plain (by simp)
  cases result with
  | error error =>
      rw [clearWrites_plain plain]
      exact List.IsPrefix.filterMap Entry.written asked
  | ok reply =>
      obtain rfl := asked
      rfl

theorem within_orStop {stage : Stage} {line : Text} {accepts : Nat → Bool} {tls : Bool}
    {lines : List Bytes} {next : Talk Attempt} (continues : Within lines next) :
    Within (sendLine line :: lines) (orStop accepts tls (command stage line) next) := by
  refine (leaves_command stage line).bind ?_ ?_
  · intro added error asked
    exact (asked.clearWrites []).trans (by simp)
  · rintro added ⟨code, response⟩ asked
    have rest : Within lines (if accepts code then next
        else return .complete (classify code response tls)) := by
      split_ifs
      · exact continues
      · exact Within.silent _
    refine rest.mono ?_
    intro more result within
    rw [asked.clearWrites more]
    exact (List.cons_prefix_cons).mpr ⟨rfl, within⟩

section

variable (externals : Externals)
include externals

/-- Without TLS a relay that demands it is left at once. -/
theorem within_demandTls (required : params.security = .requireStartTls)
    (lines : List Bytes) : Within lines (demandTls externals params rawMessage false) := by
  unfold demandTls
  rw [if_pos ⟨required, rfl⟩]
  exact Within.silent _

theorem within_upgrade (peer : Peer) (lines : List Bytes) :
    Within lines (upgrade externals params rawMessage peer) := by
  unfold upgrade
  split
  · split_ifs
    · exact Within.silent _
    · exact fun _ => ⟨[], (List.append_nil _).symm, List.nil_prefix⟩
  · refine (leaves_switchTo peer.secure).bind (fun _ _ failed => by cases failed.2) ?_
    rintro added ⟨⟩ ⟨rfl, -⟩
    have any : Leaves (orStop isSuccess true (command .ehloSecure (("EHLO " ++
        params.heloHostname))) (demandTls externals params rawMessage true)) (fun _ _ => True) :=
      (plain_orStop (plain_command .ehloSecure _) (plain_demandTls externals true)).mono
        (fun _ _ _ => trivial)
    refine any.mono ?_
    intro more result _
    exact List.nil_prefix

theorem within_startTls (peer : Peer)
    (required : params.security = .requireStartTls) :
    Within [startTlsLine] (startTls externals params rawMessage peer false) := by
  refine (leaves_command .startTls _).bind ?_ ?_
  · intro added error asked
    exact asked.clearWrites []
  · rintro added ⟨code, response⟩ asked
    dsimp only
    rw [if_pos required]
    have rest : Within [] (if isSuccess code = true then upgrade externals params rawMessage peer
        else return .complete (.softFail ("relay " ++ params.endpoint ++
          " refused mandatory STARTTLS: " ++ response))) := by
      split_ifs
      · exact within_upgrade externals peer []
      · exact Within.silent _
    refine rest.mono ?_
    intro more result within
    rw [asked.clearWrites more]
    exact (List.cons_prefix_cons).mpr ⟨rfl, within⟩

/-- A relay that demands STARTTLS is told no more than the name of the client in the clear. -/
theorem sayHello_introduces (peer : Peer) (allowStartTls : Bool)
    (required : params.security = .requireStartTls) :
    Leaves (sayHello externals params rawMessage peer false allowStartTls)
      (fun added _ => Introduces params (clearWrites added)) := by
  refine (leaves_command .ehlo _).bind ?_ ?_
  · intro added error asked
    exact .inl ((asked.clearWrites []).trans (by simp [ehloLine]))
  · rintro added ⟨code, ehloResponse⟩ asked
    dsimp only
    have after {lines : List Bytes} {program : Talk Attempt} (within : Within lines program)
        (known : lines = [heloLine params] ∨ lines = [startTlsLine]) :
        Leaves program (fun more _ => Introduces params (clearWrites (added ++ more))) := by
      refine within.mono ?_
      intro more result rest
      rw [asked.clearWrites more]
      rcases known with rfl | rfl
      · exact .inl ((List.cons_prefix_cons).mpr ⟨rfl, rest⟩)
      · exact .inr ((List.cons_prefix_cons).mpr ⟨rfl, rest⟩)
    split_ifs with refused wanted
    · exact after (within_orStop (within_demandTls externals required [])) (.inl rfl)
    · exact after (within_startTls externals peer required) (.inr rfl)
    · exact after (within_demandTls externals required _) (.inl rfl)

theorem dialogue_introduces (peer : Peer) (allowStartTls : Bool)
    (required : params.security = .requireStartTls) :
    Leaves (dialogue externals params rawMessage peer false allowStartTls)
      (fun added _ => Introduces params (clearWrites added)) := by
  have nothing : Introduces params [] := .inl List.nil_prefix
  refine leaves_greeting.bind ?_ ?_
  · intro added error asked
    obtain rfl := List.prefix_nil.mp asked
    exact nothing
  · rintro added ⟨code, text⟩ rfl
    dsimp only
    split_ifs with greeted
    · exact sayHello_introduces externals peer allowStartTls required
    · exact Leaves.pure _ nothing

theorem trySend_introduces (params : SendParams) (rawMessage : Bytes)
    (peer : Peer) (allowStartTls : Bool) (mandatory : params.security ≠ .opportunistic) :
    Introduces params (clearWrites (trySend externals params rawMessage peer allowStartTls).2) := by
  by_cases implicit : params.security = .implicitTls
  · -- The handshake comes first, and everything is behind it.
    obtain ⟨error, tried⟩ | ⟨added, result, tried, -⟩ :=
      trySend_leaves (dialogue_ends externals peer _ allowStartTls)
    · rw [tried]
      exact .inl List.nil_prefix
    · rw [tried, if_pos implicit]
      exact .inl List.nil_prefix
  · have required : params.security = .requireStartTls := by
      cases security : params.security with
      | opportunistic => exact absurd security mandatory
      | requireStartTls => rfl
      | implicitTls => exact absurd security implicit
    have introduces : Leaves (dialogue externals params rawMessage peer
        (decide (params.security = .implicitTls)) allowStartTls)
        (fun added _ => Introduces params (clearWrites added)) := by
      rw [decide_eq_false implicit]
      exact dialogue_introduces externals peer allowStartTls required
    obtain ⟨error, tried⟩ | ⟨added, result, tried, within⟩ := trySend_leaves introduces
    · rw [tried]
      exact .inl List.nil_prefix
    · rw [tried, if_neg implicit]
      exact within

end

end Mandatory

/-! ## The second attempt -/

section Retry

variable {params : SendParams} {rawMessage : Bytes}

/-- A program asks for a second attempt only after some writes, on an opportunistic connection that
has not been encrypted. -/
def Retries (params : SendParams) (lines : List Bytes) (program : Talk Attempt) : Prop :=
  Leaves program (fun added result => result = .ok .opportunisticStartTlsHandshakeFailed →
    params.security = .opportunistic ∧ .secured ∉ added ∧ writes added = lines)

theorem completes_pure (outcome : SendOutcome) :
    Completes (Pure.pure (.complete outcome) : Talk Attempt) :=
  Leaves.pure _ nofun

theorem Completes.retries {program : Talk Attempt} (completes : Completes program)
    (lines : List Bytes) : Retries params lines program :=
  completes.mono (fun _ _ other same => absurd same other)

theorem Asked.retries {stage : Stage} {line : Text} {added : List Entry} {reply : Nat × Text}
    {lines : List Bytes} {program : Talk Attempt}
    (asked : Asked stage [.wrote (sendLine line)] added (.ok reply))
    (retries : Retries params lines program) :
    Leaves program (fun more result => result = .ok .opportunisticStartTlsHandshakeFailed →
      params.security = .opportunistic ∧ .secured ∉ added ++ more ∧
        writes (added ++ more) = sendLine line :: lines) := by
  refine retries.mono ?_
  intro more result holds retry
  obtain rfl := asked
  obtain ⟨opportunistic, plain, rest⟩ := holds retry
  refine ⟨opportunistic, by simp [plain], ?_⟩
  rw [writes_append, rest]
  rfl

section

variable (externals : Externals)
include externals

theorem upgrade_retries (peer : Peer) :
    Retries params [] (upgrade externals params rawMessage peer) := by
  unfold upgrade
  split
  · split_ifs with opportunistic
    · exact Leaves.pure _ (fun _ => ⟨opportunistic, List.not_mem_nil, rfl⟩)
    · exact fun _ => ⟨[], (List.append_nil _).symm, nofun⟩
  · have completes : Completes (switchTo peer.secure >>= fun _ => orStop isSuccess true
        (command .ehloSecure ("EHLO " ++ params.heloHostname))
        (demandTls externals params rawMessage true)) :=
      Completes.bind (leaves_switchTo peer.secure) (fun _ =>
        orStop_completes (leaves_command .ehloSecure _) (demandTls_completes externals true))
    exact completes.retries []

theorem startTls_retries (peer : Peer) (tls : Bool) :
    Retries params [startTlsLine] (startTls externals params rawMessage peer tls) := by
  refine (leaves_command .startTls _).bind (fun _ _ _ => nofun) ?_
  rintro added ⟨code, response⟩ asked
  refine asked.retries ?_
  dsimp only
  split_ifs with accepted required
  · exact upgrade_retries externals peer
  · exact (completes_pure _).retries []
  · exact (demandTls_completes externals tls).retries []

theorem sayHello_retries (peer : Peer) (tls allowStartTls : Bool) :
    Retries params [ehloLine params, startTlsLine]
      (sayHello externals params rawMessage peer tls allowStartTls) := by
  refine (leaves_command .ehlo _).bind (fun _ _ _ => nofun) ?_
  rintro added ⟨code, ehloResponse⟩ asked
  refine asked.retries ?_
  dsimp only
  split_ifs with refused wanted
  · exact (orStop_completes (leaves_command .helo _) (demandTls_completes externals tls)).retries _
  · exact startTls_retries externals peer tls
  · exact (demandTls_completes externals tls).retries _

theorem dialogue_retries (peer : Peer) (tls allowStartTls : Bool) :
    Retries params [ehloLine params, startTlsLine]
      (dialogue externals params rawMessage peer tls allowStartTls) := by
  refine leaves_greeting.bind (fun _ _ _ => nofun) ?_
  rintro added ⟨code, text⟩ rfl
  have next : Retries params [ehloLine params, startTlsLine]
      (if code = 220 then sayHello externals params rawMessage peer tls allowStartTls
        else return .complete (classify code text tls)) := by
    split_ifs
    · exact sayHello_retries externals peer tls allowStartTls
    · exact (completes_pure _).retries _
  simp only [decide_eq_true_eq]
  refine next.mono ?_
  intro more result holds retry
  obtain ⟨opportunistic, plain, rest⟩ := holds retry
  exact ⟨opportunistic, by simp [plain], by rw [writes_append, rest]; rfl⟩

theorem trySend_retries (params : SendParams) (rawMessage : Bytes)
    (peer : Peer) {log : List Entry} (retry : trySend externals params rawMessage peer true =
      (.ok .opportunisticStartTlsHandshakeFailed, log)) :
    params.security = .opportunistic ∧ .secured ∉ log ∧
      writes log = [ehloLine params, startTlsLine] := by
  obtain ⟨error, tried⟩ | ⟨added, result, tried, holds⟩ :=
    trySend_leaves (dialogue_retries externals peer _ true)
  · rw [tried] at retry
    cases retry
  · rw [tried] at retry
    obtain ⟨rfl, rfl⟩ := Prod.mk.inj retry
    obtain ⟨opportunistic, plain, rest⟩ := holds rfl
    have optional : params.security ≠ .implicitTls := by
      rw [opportunistic]
      exact fun same => ConnectionSecurity.noConfusion same
    rw [if_neg optional]
    exact ⟨opportunistic, plain, rest⟩

theorem trySend_plain (params : SendParams) (rawMessage : Bytes)
    (peer : Peer) (opportunistic : params.security = .opportunistic) :
    .secured ∉ (trySend externals params rawMessage peer false).2 := by
  obtain ⟨error, tried⟩ | ⟨added, result, tried, plain⟩ :=
    trySend_leaves (plain_dialogue externals peer (decide (params.security = .implicitTls)))
  · rw [tried]
    exact List.not_mem_nil
  · rw [tried]
    simp [opportunistic, plain]

end

end Retry

/-! ## Every script -/

/-- For every script of the other side: with TLS demanded, nothing but the name of the client and
STARTTLS is written before the stream is encrypted. A second connection is only made where TLS is
optional, after a first one on which nothing else has been written; so at most one connection
carries more than that. -/
theorem mandatory_tls_never_downgraded (externals : Externals) (params : SendParams)
    (rawMessage : Bytes) (first second : Peer) :
    (params.security ≠ .opportunistic →
      ∀ log ∈ connectionLogs externals params rawMessage first second,
        Introduces params (clearWrites log)) ∧
    ((connectionLogs externals params rawMessage first second).length = 1 ∨
      params.security = .opportunistic ∧ ∃ refused plain,
        connectionLogs externals params rawMessage first second = [refused, plain] ∧
        writes refused = [ehloLine params, startTlsLine] ∧
        .secured ∉ refused ∧ .secured ∉ plain) ∧
    (connectionLogs externals params rawMessage first second).countP (handsOver params) ≤ 1 := by
  have one (log : List Entry) : List.countP (handsOver params) [log] ≤ 1 := List.countP_le_length
  have introduces := trySend_introduces externals params rawMessage first true
  unfold connectionLogs
  split
  · next log tried =>
    obtain ⟨opportunistic, plain, written⟩ := trySend_retries externals params rawMessage first tried
    refine ⟨fun mandatory => absurd opportunistic mandatory, .inr ⟨opportunistic, log, _, rfl,
      written, plain, trySend_plain externals params rawMessage second opportunistic⟩, ?_⟩
    have little : handsOver params log = false := by
      unfold handsOver
      rw [written]
      simp
    rw [List.countP_cons_of_neg (by simp [little])]
    exact one _
  · next result log other tried =>
    rw [tried] at introduces
    refine ⟨fun mandatory log' member => ?_, .inl rfl, one log⟩
    rw [List.mem_singleton.mp member]
    exact introduces mandatory

end Camelmailer.Worker.Dialogue
