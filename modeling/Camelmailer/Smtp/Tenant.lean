import Camelmailer.Smtp.Steps

/-!
# Submission for one server

The server of an outgoing recipient is fixed when RCPT TO is answered. The
credential that authorises the message, pays for it and is recorded with it is read
at the end of DATA. Between the two the client may authenticate again, and a
credential of another server is then combined with the earlier recipients.

The results below are exact about that gap. As long as no line presents a credential
of another server while outgoing recipients are waiting, every outgoing message
belongs to the server of its credential, and so does every check made for it.
-/

namespace Camelmailer.Smtp

open Utf8

/-- The calls hand messages over within an allowance: a batch carries it, and single
messages are handed over only when all outgoing ones fit. -/
structure WithinAllowance (allowance : SendAllowance) (calls : List Call) : Prop where
  batch : ∀ messages request used, .queueMessages messages request used ∈ calls → used = allowance
  singles : ∀ message, .queueMessage message ∈ calls →
    allowance.allows (outgoingCount (calls.flatMap Call.handed)) = true

/-- A message is submitted for one server: that of the credential recorded with it.
The sender, the domain and the allowance were all looked up there. -/
structure SubmittedFor (env : Env) (session : Session) (calls : List Call)
    (message : QueuedMessage) (credential : Credential) : Prop where
  held : session.credential = some credential
  recorded : message.credentialId = some credential.id
  server : message.serverId = credential.serverId
  checks : ∀ call ∈ calls, ∀ serverId, call.checkedServer = some serverId →
    serverId = message.serverId
  domain : message.domainId = (findAuthenticatedDomain env.store message.serverId
    session.headerMap (env.store.server message.serverId)).1
  sender : message.domainId.isSome = true ∨ env.store.findConfirmedSenderAddress message.serverId
    (session.headerMap.values "from") = true
  allowance : WithinAllowance (serverAllowance env message.serverId).1 calls

/-- Every outgoing message that a line hands to the sink is submitted for one server. -/
def TenantConsistent (event : LineEvent) : Prop :=
  ∀ call ∈ event.output.calls, ∀ message ∈ call.handed, message.scope = .outgoing →
    ∃ credential, SubmittedFor event.input.env event.before event.output.calls message credential

/-- A line presents no credential of another server than that of the outgoing
recipients waiting. -/
def Unmixed (platform : Platform) (event : LineEvent) : Prop :=
  ∀ recipient ∈ event.before.recipients, recipient.kind = .credential →
    ∀ credential ∈ presented platform event.input.env event.before (chomp event.input.line),
      credential.serverId = recipient.server.id

instance (platform : Platform) (event : LineEvent) : Decidable (Unmixed platform event) := by
  unfold Unmixed
  infer_instance

/-- The invariant: outgoing recipients are of the server whose credential is held. -/
def RecipientsOwned (session : Session) : Prop :=
  ∀ recipient ∈ session.recipients, recipient.kind = .credential →
    ∃ credential, session.credential = some credential ∧ recipient.server.id = credential.serverId

theorem RecipientsOwned.of_nil {session : Session} (vacant : session.recipients = []) :
    RecipientsOwned session := by
  intro recipient member
  rw [vacant] at member
  cases member

section Step

variable {platform : Platform} {env : Env} {session : Session} {data : Text} {step : Step}

/-- A recipient accepted for a client is of the server of the client's credential. -/
theorem Designates.owned {recipient : Recipient}
    (designated : Designates platform env session data recipient)
    (outgoing : recipient.kind = .credential) :
    ∃ credential, session.credential = some credential ∧
      recipient.server.id = credential.serverId := by
  cases designated with
  | submission named elsewhere held known active permitted =>
      exact ⟨_, held, env.store.server_id _ _ known⟩
  | bounce => cases outgoing
  | routeToken => cases outgoing
  | route => cases outgoing

theorem Enveloped.owned (envelope : Enveloped platform env session data step)
    (owned : RecipientsOwned session) : RecipientsOwned step.session := by
  cases envelope with
  | refused state text reached unaccepted => exact owned
  | recorded recipient designated =>
      intro other member outgoing
      rcases List.mem_append.mp member with earlier | last
      · exact owned other earlier outgoing
      · rw [List.mem_singleton.mp last] at outgoing ⊢
        exact designated.owned outgoing

/-- A client that is authenticated by its address had no outgoing recipients. -/
theorem AddressChecked.owned {settled : Session} {calls : List Call}
    (checked : AddressChecked platform env session settled calls)
    (owned : RecipientsOwned session) : RecipientsOwned settled := by
  cases checked with
  | unneeded => exact owned
  | unknown ip anonymous => exact owned
  | known ip credential anonymous found =>
      intro recipient member outgoing
      obtain ⟨other, held, -⟩ := owned recipient member outgoing
      rw [anonymous] at held
      cases held

/-- No line breaks the invariant unless it presents a credential of another server. -/
theorem Reaction.owned (reaction : Reaction platform env session data step)
    (owned : RecipientsOwned session)
    (unmixed : ∀ recipient ∈ session.recipients, recipient.kind = .credential →
      ∀ credential, presented platform env session data = some credential →
        credential.serverId = recipient.server.id) :
    RecipientsOwned step.session := by
  cases reaction
  case greeted => exact .of_nil rfl
  case reset => exact .of_nil rfl
  case sender => exact .of_nil rfl
  case authenticated last outcome =>
    cases outcome with
    | denied => exact owned
    | granted credential text calls known lookups =>
        intro recipient member outgoing
        exact ⟨credential, rfl, (unmixed recipient member outgoing credential known).symm⟩
  case recipient checked envelope => exact envelope.owned (checked.owned owned)
  case concluded finished =>
    obtain ⟨text, calls, -, rfl⟩ := finishData_concluded finished
    exact .of_nil rfl
  all_goals exact owned

/-- The calls at the end of a message stay within the allowance of the credential's
server. -/
theorem Concluded.within {text : Text} {calls : List Call}
    (conclusion : Concluded platform env session text calls) :
    WithinAllowance (sendAllowance env session).1 calls := by
  cases conclusion with
  | refused text calls unaccepted checks =>
      have quiet : ∀ call ∈ calls, call.stores = false := by
        rcases checks with rfl | rfl
        · exact List.forall_mem_nil _
        · exact authorizeSender_stores env session session.headerMap
      constructor
      · intro messages request used member
        cases quiet _ member
      · intro message member
        cases quiet _ member
  | handed domainId checks key queued authorised keyed built outcome delivered =>
      obtain ⟨-, handing⟩ | ⟨-, -, handing⟩ | ⟨-, fits, handing⟩ := deliver_cases env queued
          (key.map (idempotencyRequest platform env session (storedData session key)))
          (sendAllowance env session).1 <;>
        rw [← delivered] at handing <;> subst handing
      · constructor
        · intro messages request used member
          cases List.mem_singleton.mp (mem_delivery authorised member rfl)
          rfl
        · intro message member
          cases List.mem_singleton.mp (mem_delivery authorised member rfl)
      · constructor
        · intro messages request used member
          cases mem_delivery authorised member rfl
        · intro message member
          cases mem_delivery authorised member rfl
      · constructor
        · intro messages request used member
          obtain ⟨_, _, impossible⟩ :=
            List.mem_map.mp (mem_delivery authorised member rfl)
          cases impossible
        · intro message member
          rw [flatMap_delivery _ _ Call.handed_nil authorised, List.flatMap_map]
          simpa [Call.handed] using fits

/-- At the end of a message, outgoing records are for the credential's server. -/
theorem Concluded.submitted {text : Text} {calls : List Call}
    (conclusion : Concluded platform env session text calls) (owned : RecipientsOwned session) :
    ∀ call ∈ calls, ∀ message ∈ call.handed, message.scope = .outgoing →
      ∃ credential, SubmittedFor env session calls message credential := by
  intro call member message given outgoing
  obtain ⟨domainId, checks, key, recipient, authorised, -, waiting, built⟩ :=
    conclusion.origin member given
  obtain ⟨server, -, -, -, scope, details⟩ := queuedMessage_spec built
  have kind : recipient.kind = .credential := by
    rw [outgoing] at scope
    cases kind : recipient.kind <;> rw [kind] at scope <;> first | rfl | cases scope
  obtain ⟨domain, recorded⟩ := details kind
  obtain ⟨credential, held, owner⟩ := owned recipient waiting kind
  obtain ⟨found, confirmed⟩ := authorizeSender_some held authorised
  have same : message.serverId = credential.serverId := server.trans owner
  have within := conclusion.within
  unfold sendAllowance at within
  rw [held] at within
  refine ⟨credential, held, ?_, same, ?_, ?_, ?_, ?_⟩
  · rw [recorded, held]
    rfl
  · intro other included serverId checked
    obtain ⟨holder, holds, named⟩ := conclusion.checks included checked
    rw [held] at holds
    cases holds
    exact named.trans same.symm
  · rw [domain, same]
    exact found
  · rw [domain, same]
    exact confirmed
  · rw [same]
    exact within

end Step

/-- One line of a run keeps the invariant and submits for one server. -/
theorem sessionStep_owned {platform : Platform} {session next : Session} {input : LineInput}
    {response : Response} (owned : RecipientsOwned session)
    (stepped : sessionStep platform session input = some (response, next))
    (unmixed : Unmixed platform ⟨session, input, response, next⟩) :
    RecipientsOwned next ∧ TenantConsistent ⟨session, input, response, next⟩ := by
  obtain ⟨step, reaction, rfl, rfl⟩ := sessionStep_reaction stepped
  refine ⟨reaction.owned owned unmixed, ?_⟩
  intro call member message given outgoing
  have storing := Call.stores_of_handed given
  obtain ⟨-, finished⟩ := reaction.stores member storing
  obtain ⟨text, calls, conclusion, rfl⟩ := finishData_concluded finished
  obtain ⟨credential, submitted⟩ := conclusion.submitted owned call member message given outgoing
  exact ⟨credential, submitted.held, submitted.recorded, submitted.server, submitted.checks,
    submitted.domain, submitted.sender, submitted.allowance⟩

/-- In every run in which no line presents a credential of another server while
outgoing recipients wait, every outgoing message handed to the sink is for the server
of the credential recorded with it, and it was authorised and counted there. -/
theorem outgoing_messages_tenant_consistent (platform : Platform) (config : SessionConfig)
    (traceId : Text) (ipAddress : Option Text) (inputs : List LineInput)
    (events : List LineEvent) (final : Session)
    (ran : Machine.run (sessionStep platform) (Session.new platform config traceId ipAddress)
      inputs = some (events, final))
    (unmixed : ∀ event ∈ events, Unmixed platform event) :
    ∀ event ∈ events, TenantConsistent event := by
  have invariant := Machine.run_invariant (fun _ session => RecipientsOwned session)
    (Unmixed platform) (fun past before input output after owned stepped guard =>
      (sessionStep_owned owned stepped guard).1)
    inputs [] _ final events (.of_nil rfl) ran unmixed
  intro event member
  obtain ⟨front, back, rfl⟩ := List.append_of_mem member
  obtain ⟨owned, stepped⟩ := invariant.2 front event back rfl
  exact (sessionStep_owned owned stepped (unmixed event member)).2

/-- Whether a line hands over an outgoing message. -/
def submits (event : LineEvent) : Bool :=
  (event.output.calls.flatMap Call.handed).any (fun message => message.scope == .outgoing)

/-- A client that authenticates once and sends one message. -/
def singleSubmission : List String :=
  ["EHLO c", "AUTH PLAIN AABh", "MAIL FROM:<me@a.example>", "RCPT TO:<x@y.example>", "DATA",
    "From: me@a.example", "", "."]

theorem single_submission_consistent :
    ∃ events final, conversation singleSubmission = some (events, final) ∧
      events.any submits = true ∧ ∀ event ∈ events, TenantConsistent event := by
  obtain ⟨events, final, ran, checked⟩ := conversation_checked singleSubmission
    (fun events => events.any submits && events.all (fun event => Unmixed .ascii event))
    (by decide +kernel)
  obtain ⟨submitted, unmixed⟩ := Bool.and_eq_true_iff.mp checked
  refine ⟨events, final, ran, submitted, ?_⟩
  apply outgoing_messages_tenant_consistent .ascii exampleConfig "t"
    (some "192.0.2.1".toList) _ events final ran
  simpa using unmixed

/-- A client authenticates for one server, names a recipient, and authenticates for
another server before DATA. -/
def mixedSubmission : List String :=
  ["EHLO c", "AUTH PLAIN AABh", "MAIL FROM:<me@b.example>", "RCPT TO:<x@y.example>",
    "AUTH PLAIN AABi", "DATA", "From: me@b.example", "", "."]

/-- Its message is stored for the first server under the credential of the second. -/
theorem mixed_submission_inconsistent :
    ∃ events final, conversation mixedSubmission = some (events, final) ∧
      ∃ event ∈ events, ¬ TenantConsistent event := by
  obtain ⟨events, final, ran, checked⟩ := conversation_checked mixedSubmission
    (fun events => events.any (fun event => event.output.calls.any (fun call =>
      call.handed.any (fun message => message.scope == .outgoing &&
        event.before.credential.any (fun credential =>
          message.serverId != credential.serverId)))))
    (by decide +kernel)
  simp only [List.any_eq_true, Bool.and_eq_true, beq_iff_eq, Option.any_eq_true,
    bne_iff_ne] at checked
  obtain ⟨event, member, call, made, message, given, outgoing, credential, held, foreign⟩ := checked
  refine ⟨events, final, ran, event, member, ?_⟩
  intro consistent
  obtain ⟨owner, submitted⟩ := consistent call made message given outgoing
  have same := submitted.held
  rw [held] at same
  cases same
  exact foreign submitted.server

end Camelmailer.Smtp
