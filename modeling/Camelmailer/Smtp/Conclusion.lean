import Camelmailer.Smtp.Handle
import Mathlib.Data.List.Forall2

/-!
# The end of a message

What `finish_data` does, stated once. A message is refused before anything is handed
over, or one record for each recipient is handed to the sink and the sink's answer
is passed on. The lemmas say which records these are and which calls are made.
-/

namespace Camelmailer.Smtp

open Utf8

/-- The reply that accepts a sender, a recipient or a message. -/
def accepted : Reply := .line "250 OK"

namespace Call

/-- The calls that check or note a credential a client has presented. -/
def authenticates : Call → Bool
  | .findSmtpCredentialByKey _ => true
  | .compareCramMd5 _ => true
  | .recordCredentialUse _ => true
  | _ => false

/-- The calls that hand messages to the sink. -/
def stores : Call → Bool
  | .queueMessage _ => true
  | .queueMessages .. => true
  | _ => false

/-- The messages a call hands to the sink. -/
def handed : Call → List QueuedMessage
  | .queueMessage message => [message]
  | .queueMessages messages _ _ => messages
  | _ => []

/-- The server whose domains, addresses or usage a call reads. -/
def checkedServer : Call → Option Id
  | .findAuthenticatedDomain serverId _ => some serverId
  | .findConfirmedSenderAddress serverId _ => some serverId
  | .sendUsage serverId => some serverId
  | _ => none

theorem handed_nil (call : Call) (stores : call.stores = false) : call.handed = [] := by
  cases call <;> first | rfl | cases stores

theorem stores_of_handed {call : Call} {message : QueuedMessage} (given : message ∈ call.handed) :
    call.stores = true := by
  cases call <;> first | rfl | cases given

theorem stores_checkedServer {call : Call} {serverId : Id}
    (checked : call.checkedServer = some serverId) : call.stores = false := by
  cases call <;> first | rfl | cases checked

theorem authenticates_checkedServer {call : Call} {serverId : Id}
    (checked : call.checkedServer = some serverId) : call.authenticates = false := by
  cases call <;> first | rfl | cases checked

end Call

/-- The headers a session has read of the message. -/
def Session.headerMap (session : Session) : HeaderMap := session.headers.getD HeaderMap.empty

/-- The answer to the end of a message and the calls made for it: the message is
refused before anything is handed over, or the records of its recipients are. -/
inductive Concluded (platform : Platform) (env : Env) (session : Session) :
    Text → List Call → Prop
  | refused (text : Text) (calls : List Call) (unaccepted : .line text ≠ accepted)
      (checks : calls = [] ∨ calls = (authorizeSender env session session.headerMap).2) :
      Concluded platform env session text calls
  | handed (domainId : Option Id) (checks : List Call) (key : Option Text)
      (queued : List QueuedMessage)
      (authorised : authorizeSender env session session.headerMap = (some domainId, checks))
      (keyed : idempotencyKey session session.headerMap = .ok key)
      (built : session.recipients.mapM
        (queuedMessage env session (storedData session key) domainId) = some queued)
      (outcome : QueueMessagesOutcome × List Call)
      (delivered : outcome = deliver env queued
        (key.map (idempotencyRequest platform env session (storedData session key)))
        (sendAllowance env session).1) :
      Concluded platform env session (outcomeReply outcome.1)
        (checks ++ (sendAllowance env session).2 ++ outcome.2)

variable {session : Session} {text : Text}

theorem idempotencyKey_error {headers : HeaderMap}
    (refused : idempotencyKey session headers = .error text) : .line text ≠ accepted := by
  unfold idempotencyKey at refused
  split at refused
  · cases refused
  · split at refused
    · cases refused
      decide
    · split at refused <;> cases refused
      decide
  · cases refused
    decide

/-- A message has no key only when it has no header for one. -/
theorem idempotencyKey_none {headers : HeaderMap}
    (keyed : idempotencyKey session headers = .ok none) : headers idempotencyHeader = none := by
  unfold idempotencyKey at keyed
  split at keyed
  · assumption
  · split at keyed
    · cases keyed
    · split at keyed <;> cases keyed
  · cases keyed

variable {env : Env} {platform : Platform}

theorem finishData_concluded {step : Step} (finished : finishData platform env session = some step) :
    ∃ text calls, Concluded platform env session text calls ∧
      step = conclude session text calls := by
  unfold finishData at finished
  by_cases large : tooLarge session = true
  · rw [if_pos large] at finished
    cases finished
    refine ⟨_, _, .refused _ _ ?_ (.inl rfl), rfl⟩
    intro same
    cases same
  rw [if_neg large] at finished
  by_cases loop : looping session (session.headers.getD HeaderMap.empty) = true
  · rw [if_pos loop] at finished
    cases finished
    exact ⟨_, _, .refused _ _ (by decide) (.inl rfl), rfl⟩
  rw [if_neg loop] at finished
  cases authorised : authorizeSender env session (session.headers.getD HeaderMap.empty) with
  | mk verdict checks =>
      rw [authorised] at finished
      cases verdict with
      | none =>
          cases finished
          refine ⟨_, _, .refused _ _ (by decide) (.inr ?_), rfl⟩
          exact (congrArg Prod.snd authorised).symm
      | some domainId =>
          cases keyed : idempotencyKey session (session.headers.getD HeaderMap.empty) with
          | error text =>
              rw [keyed] at finished
              cases finished
              refine ⟨_, _, .refused _ _ (idempotencyKey_error keyed) (.inr ?_), rfl⟩
              exact (congrArg Prod.snd authorised).symm
          | ok key =>
              rw [keyed] at finished
              obtain ⟨queued, built, rfl⟩ := Option.map_eq_some_iff.mp finished
              exact ⟨_, _, .handed domainId checks key queued authorised keyed built _ rfl, rfl⟩

/-! ## The calls -/

/-- The sender is checked for the server of the credential held. -/
theorem authorizeSender_calls (env : Env) (session : Session) (headers : HeaderMap) :
    ∀ call ∈ (authorizeSender env session headers).2, ∃ credential,
      session.credential = some credential ∧ call.checkedServer = some credential.serverId := by
  unfold authorizeSender
  cases held : session.credential with
  | none => simp
  | some credential =>
      have lookups : ∀ call ∈ (findAuthenticatedDomain env.store credential.serverId headers
          (env.store.server credential.serverId)).2,
          call.checkedServer = some credential.serverId := by
        unfold findAuthenticatedDomain
        dsimp only
        split
        · simp [Call.checkedServer]
        · split <;> simp [Call.checkedServer]
      dsimp only
      generalize findAuthenticatedDomain env.store credential.serverId headers
        (env.store.server credential.serverId) = found at lookups ⊢
      intro call member
      refine ⟨credential, rfl, ?_⟩
      obtain ⟨_ | domain, calls⟩ := found
      · rcases List.mem_append.mp member with earlier | last
        · exact lookups call earlier
        · rw [List.mem_singleton.mp last]
          rfl
      · exact lookups call member

variable {domainId : Option Id}

/-- A sender is authorised by a domain of its server or as a confirmed address. -/
theorem authorizeSender_some {headers : HeaderMap} {credential : Credential} {checks : List Call}
    (held : session.credential = some credential)
    (authorised : authorizeSender env session headers = (some domainId, checks)) :
    domainId = (findAuthenticatedDomain env.store credential.serverId headers
        (env.store.server credential.serverId)).1 ∧
      (domainId.isSome = true ∨ env.store.findConfirmedSenderAddress credential.serverId
        (headers.values "from") = true) := by
  unfold authorizeSender at authorised
  rw [held] at authorised
  dsimp only at authorised
  generalize findAuthenticatedDomain env.store credential.serverId headers
    (env.store.server credential.serverId) = found at authorised ⊢
  obtain ⟨_ | domain, calls⟩ := found
  · dsimp only at authorised
    split at authorised
    case isTrue confirmed =>
      cases authorised
      exact ⟨rfl, .inr confirmed⟩
    case isFalse => cases authorised
  · cases authorised
    exact ⟨rfl, .inl rfl⟩

theorem serverAllowance_calls (env : Env) (serverId : Id) :
    ∀ call ∈ (serverAllowance env serverId).2, call.checkedServer = some serverId ∨
      ∃ organizationId, call = .organizationMonthUsage organizationId := by
  unfold serverAllowance
  cases found : env.store.server serverId with
  | none => simp
  | some server =>
      have named := env.store.server_id serverId server found
      intro call member
      rcases List.mem_append.mp member with usage | month
      · left
        split at usage
        · rw [List.mem_singleton.mp usage, ← named]
          rfl
        · cases usage
      · right
        split at month
        · exact ⟨_, List.mem_singleton.mp month⟩
        · cases month

/-- The usage reads are made for the server of the credential held. -/
theorem sendAllowance_calls (env : Env) (session : Session) :
    ∀ call ∈ (sendAllowance env session).2,
      (∃ credential, session.credential = some credential ∧
        call.checkedServer = some credential.serverId) ∨
      ∃ organizationId, call = .organizationMonthUsage organizationId := by
  unfold sendAllowance
  cases held : session.credential with
  | none => simp
  | some credential =>
      intro call member
      rcases serverAllowance_calls env credential.serverId call member with checked | month
      · exact .inl ⟨credential, rfl, checked⟩
      · exact .inr month

theorem authorizeSender_stores (env : Env) (session : Session) (headers : HeaderMap) :
    ∀ call ∈ (authorizeSender env session headers).2, call.stores = false := by
  intro call member
  obtain ⟨credential, -, checked⟩ := authorizeSender_calls env session headers call member
  exact Call.stores_checkedServer checked

theorem sendAllowance_stores (env : Env) (session : Session) :
    ∀ call ∈ (sendAllowance env session).2, call.stores = false := by
  intro call member
  obtain ⟨credential, -, checked⟩ | ⟨organizationId, rfl⟩ :=
    sendAllowance_calls env session call member
  · exact Call.stores_checkedServer checked
  · rfl

/-- A call that stores is one of those that hand the records over. -/
theorem mem_delivery {checks : List Call} {delivery : List Call} {call : Call}
    (authorised : authorizeSender env session session.headerMap = (some domainId, checks))
    (member : call ∈ checks ++ (sendAllowance env session).2 ++ delivery)
    (stores : call.stores = true) : call ∈ delivery := by
  have quietChecks := authorizeSender_stores env session session.headerMap
  rw [authorised] at quietChecks
  rcases List.mem_append.mp member with earlier | last
  · rcases List.mem_append.mp earlier with check | usage
    · rw [quietChecks call check] at stores
      cases stores
    · rw [sendAllowance_stores env session call usage] at stores
      cases stores
  · exact last

/-- What is collected from the calls that store comes from the delivery alone. -/
theorem flatMap_delivery {β : Type} {checks : List Call} (collect : Call → List β)
    (delivery : List Call) (silent : ∀ call, call.stores = false → collect call = [])
    (authorised : authorizeSender env session session.headerMap = (some domainId, checks)) :
    (checks ++ (sendAllowance env session).2 ++ delivery).flatMap collect =
      delivery.flatMap collect := by
  have quiet (calls : List Call) (unstored : ∀ call ∈ calls, call.stores = false) :
      calls.flatMap collect = [] :=
    List.flatMap_eq_nil_iff.mpr (fun call member => silent call (unstored call member))
  have quietChecks := authorizeSender_stores env session session.headerMap
  rw [authorised] at quietChecks
  rw [List.flatMap_append, List.flatMap_append, quiet checks quietChecks,
    quiet _ (sendAllowance_stores env session)]
  rfl

/-- Records are handed over as a batch under a key, or one by one when they fit. -/
theorem deliver_cases (env : Env) (queued : List QueuedMessage)
    (request : Option IdempotencyRequest) (allowance : SendAllowance) :
    (request.isSome = true ∧ deliver env queued request allowance =
      (env.queueMessages queued request allowance, [.queueMessages queued request allowance])) ∨
    (request = none ∧ allowance.allows (outgoingCount queued) = false ∧
      deliver env queued request allowance = (.limitExceeded allowance.rejectionMessage, [])) ∨
    (request = none ∧ allowance.allows (outgoingCount queued) = true ∧
      deliver env queued request allowance = (.stored, queued.map .queueMessage)) := by
  unfold deliver
  cases request with
  | some request => exact .inl ⟨rfl, rfl⟩
  | none =>
      cases fits : allowance.allows (outgoingCount queued) with
      | false => exact .inr (.inl ⟨rfl, rfl, rfl⟩)
      | true => exact .inr (.inr ⟨rfl, rfl, rfl⟩)

theorem deliver_calls (env : Env) (queued : List QueuedMessage)
    (request : Option IdempotencyRequest) (allowance : SendAllowance) :
    ∀ call ∈ (deliver env queued request allowance).2,
      call = .queueMessages queued request allowance ∨
        ∃ record ∈ queued, call = .queueMessage record := by
  intro call member
  obtain ⟨-, handing⟩ | ⟨-, -, handing⟩ | ⟨-, -, handing⟩ :=
    deliver_cases env queued request allowance <;> rw [handing] at member
  · exact .inl (List.mem_singleton.mp member)
  · cases member
  · obtain ⟨record, recorded, rfl⟩ := List.mem_map.mp member
    exact .inr ⟨record, recorded, rfl⟩

/-! ## The records -/

/-- The scope of a message for a kind of recipient. -/
def RecipientKind.scope : RecipientKind → MessageScope
  | .credential => .outgoing
  | .bounce => .incoming
  | .route => .incoming

/-- A record is for its recipient's server and address and carries the message. Only
an outgoing one carries the credential and the domain that authorised it. -/
theorem queuedMessage_spec {data : Bytes} {recipient : Recipient} {message : QueuedMessage}
    (built : queuedMessage env session data domainId recipient = some message) :
    message.serverId = recipient.server.id ∧ message.rcptTo = recipient.rcptTo ∧
      message.mailFrom = session.mailFrom.getD [] ∧ message.rawMessage = data ∧
      message.scope = recipient.kind.scope ∧ (recipient.kind = .credential →
        message.domainId = domainId ∧ message.credentialId = session.credential.map (·.id)) := by
  unfold queuedMessage at built
  cases kind : recipient.kind <;> rw [kind] at built <;> dsimp only at built
  case credential =>
    cases built
    exact ⟨rfl, rfl, rfl, rfl, rfl, fun _ => ⟨rfl, rfl⟩⟩
  case bounce =>
    split at built <;> cases built <;> exact ⟨rfl, rfl, rfl, rfl, rfl, nofun⟩
  case route =>
    obtain ⟨resolved, -, rfl⟩ := Option.map_eq_some_iff.mp built
    exact ⟨rfl, rfl, rfl, rfl, rfl, nofun⟩

/-- A successful traversal pairs every element with its result. -/
theorem mapM_forall₂ {α β : Type} {f : α → Option β} {inputs : List α} {results : List β}
    (mapped : inputs.mapM f = some results) :
    List.Forall₂ (fun input result => f input = some result) inputs results := by
  induction inputs generalizing results with
  | nil =>
      obtain rfl : [] = results := by simpa using mapped
      exact .nil
  | cons input inputs ih =>
      simp only [List.mapM_cons, Option.bind_eq_bind, Option.bind_eq_some_iff, Option.pure_def,
        Option.some.injEq] at mapped
      obtain ⟨result, first, later, rest, rfl⟩ := mapped
      exact .cons first (ih rest)

theorem mem_of_mapM {α β : Type} {f : α → Option β} {inputs : List α} {results : List β}
    {result : β} (mapped : inputs.mapM f = some results) (member : result ∈ results) :
    ∃ input ∈ inputs, f input = some result := by
  have paired := mapM_forall₂ mapped
  clear mapped
  induction paired with
  | nil => cases member
  | cons first rest ih =>
      rcases List.mem_cons.mp member with rfl | later
      · exact ⟨_, List.mem_cons_self .., first⟩
      · obtain ⟨input, included, image⟩ := ih later
        exact ⟨input, List.mem_cons_of_mem _ included, image⟩

variable {calls : List Call}

section

variable (conclusion : Concluded platform env session text calls)
include conclusion

/-- A message handed over is the record of one of the recipients, made for an
authorised sender. -/
theorem Concluded.origin {call : Call}
    {message : QueuedMessage} (member : call ∈ calls) (given : message ∈ call.handed) :
    ∃ domainId checks key recipient,
      authorizeSender env session session.headerMap = (some domainId, checks) ∧
      idempotencyKey session session.headerMap = .ok key ∧
      recipient ∈ session.recipients ∧
      queuedMessage env session (storedData session key) domainId recipient = some message := by
  have storing := Call.stores_of_handed given
  cases conclusion with
  | refused text calls unaccepted checks =>
      rcases checks with rfl | rfl
      · cases member
      · rw [authorizeSender_stores env session session.headerMap call member] at storing
        cases storing
  | handed domainId checks key queued authorised keyed built outcome delivered =>
      have included : message ∈ queued := by
        have delivery := mem_delivery authorised member storing
        rw [delivered] at delivery
        obtain rfl | ⟨record, recorded, rfl⟩ := deliver_calls _ _ _ _ call delivery
        · exact given
        · rw [List.mem_singleton.mp given]
          exact recorded
      obtain ⟨recipient, waiting, recorded⟩ := mem_of_mapM built included
      exact ⟨domainId, checks, key, recipient, authorised, keyed, waiting, recorded⟩

/-- The From values are given to the store before anything is handed over. -/
theorem Concluded.authorises {call : Call}
    {credential : Credential} (member : call ∈ calls) (held : session.credential = some credential) :
    .findAuthenticatedDomain credential.serverId (session.headerMap.values "from") ∈
      calls := by
  have looked : .findAuthenticatedDomain credential.serverId
      (session.headerMap.values "from") ∈
        (authorizeSender env session session.headerMap).2 := by
    have first : .findAuthenticatedDomain credential.serverId
        (session.headerMap.values "from") ∈
          (findAuthenticatedDomain env.store credential.serverId session.headerMap
            (env.store.server credential.serverId)).2 := by
      unfold findAuthenticatedDomain
      dsimp only
      split
      · exact List.mem_cons_self
      · split
        · exact List.mem_cons_self
        · exact List.mem_cons_self
    unfold authorizeSender
    rw [held]
    dsimp only
    generalize findAuthenticatedDomain env.store credential.serverId session.headerMap
      (env.store.server credential.serverId) = found at first ⊢
    obtain ⟨_ | domain, lookups⟩ := found
    · exact List.mem_append_left _ first
    · exact first
  cases conclusion with
  | refused text calls unaccepted checks =>
      rcases checks with rfl | rfl
      · cases member
      · exact looked
  | handed domainId checks key queued authorised keyed built outcome delivered =>
      rw [authorised] at looked
      exact List.mem_append_left _ (List.mem_append_left _ looked)

/-- Whatever is looked up at the end of a message is looked up for the server of the
credential held. -/
theorem Concluded.looks {call : Call} (member : call ∈ calls) :
    (∃ credential, session.credential = some credential ∧
      call.checkedServer = some credential.serverId) ∨
    call.authenticates = false ∧ call.checkedServer = none := by
  cases conclusion with
  | refused text calls unaccepted checks =>
      rcases checks with rfl | rfl
      · cases member
      · exact .inl (authorizeSender_calls env session _ call member)
  | handed domainId checks key queued authorised keyed built outcome delivered =>
      rcases List.mem_append.mp member with earlier | delivery
      · rcases List.mem_append.mp earlier with check | usage
        · exact .inl (authorizeSender_calls env session _ call (by rw [authorised]; exact check))
        · obtain looked | ⟨organizationId, rfl⟩ := sendAllowance_calls env session call usage
          · exact .inl looked
          · exact .inr ⟨rfl, rfl⟩
      · rw [delivered] at delivery
        obtain rfl | ⟨record, -, rfl⟩ := deliver_calls _ _ _ _ call delivery <;>
          exact .inr ⟨rfl, rfl⟩

/-- No credential is checked at the end of a message. -/
theorem Concluded.authenticates :
    ∀ call ∈ calls, call.authenticates = false := by
  intro call member
  obtain ⟨credential, -, named⟩ | ⟨quiet, -⟩ := conclusion.looks member
  · exact Call.authenticates_checkedServer named
  · exact quiet

theorem Concluded.checks {call : Call}
    {serverId : Id} (member : call ∈ calls) (checked : call.checkedServer = some serverId) :
    ∃ credential, session.credential = some credential ∧ serverId = credential.serverId := by
  obtain ⟨credential, held, named⟩ | ⟨-, none⟩ := conclusion.looks member
  · exact ⟨credential, held, Option.some.inj (checked.symm.trans named)⟩
  · rw [none] at checked
    cases checked

end

end Camelmailer.Smtp
