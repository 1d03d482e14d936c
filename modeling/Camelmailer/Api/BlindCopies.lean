import Camelmailer.Api.Mime

/-!
# Blind copies

A request over HTTP names its recipients in three lists, and all of them are headers of the message
that is stored for each of them. What a recipient of a plain copy is sent so depends on the list of
blind copies as far as the Bcc header does.
-/

namespace Camelmailer.Api

open Utf8 Db

/-- The Bcc header of a message, if it has one. -/
def bccField (builder : MailBuilder) (bcc : List Address) : Bytes :=
  builder.fields (addressesHeader "Bcc" bcc)

section Build

variable (builder : MailBuilder) (uuid : Text) (params : BuildParams)

/-- The headers in front of Bcc. -/
def beforeBcc : List Header :=
  [("From".toList, .address (params.sender.name.getD []) params.sender.email)] ++
    addressesHeader "To" params.sendTo ++ addressesHeader "Cc" params.cc

/-- The headers behind it. -/
def behindBcc : List Header :=
  addressesHeader "Reply-To".toList params.replyTo ++ [("Subject".toList, .text params.subject)] ++
    messageIdHeader uuid params ++ customHeaders params.headers

theorem headers_eq : dedicatedHeaders uuid params ++ customHeaders params.headers =
    beforeBcc params ++ addressesHeader "Bcc".toList params.bcc ++ behindBcc uuid params := by
  unfold dedicatedHeaders beforeBcc behindBcc
  simp only [List.append_assoc]

/-- Bcc is none of the headers that mail-builder adds. -/
theorem generated_not_bcc (bcc : List Address) {name : Text} (generated : name ∈ generatedNames) :
    name ∉ (addressesHeader "Bcc" bcc).map Prod.fst := by
  have others : ∀ name ∈ generatedNames, name ≠ "Bcc" := by decide
  unfold addressesHeader
  split_ifs
  · exact List.not_mem_nil
  · intro member
    exact others name generated (List.mem_singleton.mp member)

/-- The list of blind copies is in the message as the Bcc header, and nowhere else. -/
theorem buildMessage_bcc : ∃ front back, ∀ bcc,
    buildMessage builder uuid { params with bcc := bcc } = front ++ bccField builder bcc ++ back := by
  refine ⟨builder.fields (beforeBcc params), builder.fields (behindBcc uuid params) ++
    builder.rest ((beforeBcc params ++ behindBcc uuid params).map Prod.fst) (messageBody params), ?_⟩
  intro bcc
  have names (name : Text) (generated : name ∈ generatedNames) :
      name ∈ (beforeBcc params ++ addressesHeader "Bcc".toList bcc ++
          behindBcc uuid params).map Prod.fst ↔
        name ∈ (beforeBcc params ++ behindBcc uuid params).map Prod.fst := by
    have absent := generated_not_bcc bcc generated
    rw [List.map_append, List.map_append, List.map_append, List.mem_append, List.mem_append,
      List.mem_append]
    tauto
  have written : buildMessage builder uuid { params with bcc := bcc } =
      builder.writeToVec (beforeBcc params ++ addressesHeader "Bcc".toList bcc ++
        behindBcc uuid params) (messageBody params) := by
    unfold buildMessage
    rw [headers_eq]
    rfl
  rw [written, MailBuilder.writeToVec_eq, builder.rest_congr _ _ _ names]
  unfold bccField
  simp only [MailBuilder.fields_append, List.append_assoc]

theorem buildMessage_bcc_iff (bcc others : List Address) :
    buildMessage builder uuid { params with bcc := bcc } =
        buildMessage builder uuid { params with bcc := others } ↔
      bccField builder bcc = bccField builder others := by
  obtain ⟨front, back, written⟩ := buildMessage_bcc builder uuid params
  rw [written, written, List.append_left_inj, List.append_right_inj]

end Build

/-- The interface with `build_message`. -/
def building (builder : MailBuilder) (uuid : Text) (api : ApiPlatform) : ApiPlatform :=
  { api with buildMessage := buildMessage builder uuid }

section Send

variable {builder : MailBuilder} {uuid : Text} {api : ApiPlatform} {reads : SendReads}
  {server : Server}

/-- What a recipient is sent depends on the blind copies as far as the Bcc header does. -/
theorem planMessage_bcc_iff (params : BuildParams) (body : SendMessage) (bcc : List Address)
    (domainId other streamId : Option Id) (isBroadcast : Bool) (position : Nat) (recipient : Address) :
    (planMessage (building builder uuid api) reads server params body domainId streamId isBroadcast
        position recipient).message.rawMessage =
      (planMessage (building builder uuid api) reads server { params with bcc := bcc }
        { body with bcc := bcc } other streamId isBroadcast position
        recipient).message.rawMessage ↔
      bccField builder params.bcc = bccField builder bcc := by
  cases isBroadcast with
  | false => exact buildMessage_bcc_iff builder uuid params params.bcc bcc
  | true => exact buildMessage_bcc_iff builder uuid (broadcastParams server _ _ _ params) params.bcc bcc

/-- The messages of the recipients in a first part of a list. -/
theorem take_mapIdx {α β : Type} (front back : List α) (f : Nat → α → β) :
    ((front ++ back).mapIdx f).take front.length = front.mapIdx f := by
  rw [List.mapIdx_append]
  exact List.take_left' (by simp)

theorem map_mapIdx {α β γ : Type} (items : List α) (f : Nat → α → β) (g : β → γ) :
    (items.mapIdx f).map g = items.mapIdx (fun index item => g (f index item)) := by
  symm
  rw [List.mapIdx_eq_iff]
  simp [Function.comp_def]

/-- Two requests that differ in their blind copies only, while everything that is looked up or drawn
is the same. -/
theorem bcc_hidden_iff (body : SendMessage) (bcc : List Address) (pending : Int)
    {messages others : List SendPlanMessage}
    (prepared : prepareSend (building builder uuid api) reads server body pending = .ok messages)
    (again : prepareSend (building builder uuid api) reads server { body with bcc := bcc } pending =
      .ok others) :
    let plain := body.sendTo ++ body.cc
    (messages.take plain.length).map (fun planned => planned.message.rcptTo) =
        plain.map Address.email ∧
      (others.take plain.length).map (fun planned => planned.message.rcptTo) =
        plain.map Address.email ∧
      ((messages.take plain.length).map (fun planned => planned.message.rawMessage) =
          (others.take plain.length).map (fun planned => planned.message.rawMessage) ↔
        plain = [] ∨ bccField builder body.bcc = bccField builder bcc) := by
  intro plain
  obtain ⟨sender, attachments, domainId, streamId, isBroadcast, label, named, read, resolved, -, rfl⟩ :=
    prepareSend_built prepared
  obtain ⟨sameSender, sameAttachments, other, sameStream, sameKind, sameLabel, namedAgain, readAgain,
    resolvedAgain, -, rfl⟩ := prepareSend_built again
  obtain rfl := Option.some.inj (named.symm.trans namedAgain)
  obtain rfl := Except.ok.inj (read.symm.trans readAgain)
  obtain ⟨rfl, same⟩ := Prod.mk.inj (Except.ok.inj (resolved.symm.trans resolvedAgain))
  obtain ⟨rfl, -⟩ := Prod.mk.inj same
  have shown (params : BuildParams) (request : SendMessage) (domainId : Option Id) :
      (plain.mapIdx (planMessage (building builder uuid api) reads server params request domainId
        streamId isBroadcast)).map (fun planned => planned.message.rcptTo) =
      plain.map Address.email := by
    rw [map_mapIdx, List.mapIdx_eq_iff]
    simp [planMessage]
  rw [take_mapIdx, take_mapIdx]
  refine ⟨shown _ _ _, shown _ _ _, ?_⟩
  rw [map_mapIdx, map_mapIdx]
  constructor
  · intro alike
    cases recipients : plain with
    | nil => exact .inl rfl
    | cons first later =>
        right
        rw [recipients, List.mapIdx_cons, List.mapIdx_cons] at alike
        exact (planMessage_bcc_iff (body.params sender attachments) body bcc domainId other streamId
          isBroadcast 0 first).mp (List.cons.inj alike).1
  · rintro (none | same)
    · rw [none]
      rfl
    · refine List.mapIdx_eq_mapIdx_iff.mpr ?_
      intro position bound
      exact (planMessage_bcc_iff (body.params sender attachments) body bcc domainId other streamId
        isBroadcast position _).mpr same

end Send

/-- A request with one recipient and some blind copies. -/
def copying (bcc : List Address) : SendMessage where
  sender := some ⟨some "Me".toList, "me@a.example"⟩
  sendTo := [⟨some "You".toList, "you@b.example"⟩]
  cc := []
  bcc := bcc
  replyTo := []
  subject := some "Hi".toList
  htmlBody := none
  textBody := some "Hi".toList
  headers := []
  attachments := []
  tag := none
  metadata := none
  stream := none

def copyServer : Server where
  id := 1
  organizationId := 1
  permalink := "mail"
  token := "token"
  suspended := false
  privacyMode := false
  allowSender := false
  sendLimit := none

def copyReads : SendReads where
  organizationPolicy := .ok {}
  organizationSendUsage := .ok 0
  sendUsage := .ok 0
  authenticatedDomain := fun domain => .ok (if domain = "a.example" then some 11 else none)
  confirmedSenderAddress := fun _ => .ok false
  streamByPermalink := fun _ => .ok none
  listStreams := .ok []
  effectiveTrackDomain := .ok none
  isSubscribed := fun _ _ => .ok false
  unsubscribeToken := fun _ => []

def copyApi : ApiPlatform where
  buildMessage := buildMessage exampleBuilder "0"
  base64Decode := fun _ => none
  debug := id
  webProtocol := "https"
  trackDomain := []

/-- The messages that are prepared for such a request. -/
def prepare (bcc : List Address) : Except ApiError (List SendPlanMessage) :=
  prepareSend (building exampleBuilder "0" copyApi) copyReads copyServer (copying bcc) 0

def blind (name : Option Text) : List Address := [⟨name, "blind@c.example"⟩]

/-- A name that is missing and one that is empty are written alike. -/
theorem unnamed_copies_alike : ∃ messages others,
    prepare (blind none) = .ok messages ∧ prepare (blind (some [])) = .ok others ∧
      (messages.take 1).map (fun planned => planned.message.rawMessage) =
        (others.take 1).map (fun planned => planned.message.rawMessage) := by
  obtain ⟨messages, first⟩ : ∃ messages, prepare (blind none) = .ok messages := ⟨_, rfl⟩
  obtain ⟨others, second⟩ : ∃ others, prepare (blind (some [])) = .ok others := ⟨_, rfl⟩
  have alike := bcc_hidden_iff (copying (blind none)) (blind (some [])) 0 first second
  exact ⟨messages, others, first, second, alike.2.2.mpr (.inr rfl)⟩

/-- The recipient of a message is shown the address of its blind copy. -/
theorem blind_copy_shown : ∃ messages others,
    prepare (blind (some "Hidden".toList)) = .ok messages ∧ prepare [] = .ok others ∧
      (messages[0]?).map (fun planned => planned.message.rcptTo) = some "you@b.example".toList ∧
      (messages[0]?).any (fun planned => decide (
        encode "Bcc: \"Hidden\" <blind@c.example>".toList <:+: planned.message.rawMessage)) = true ∧
      (messages.take 1).map (fun planned => planned.message.rawMessage) ≠
        (others.take 1).map (fun planned => planned.message.rawMessage) := by
  refine ⟨_, _, rfl, rfl, rfl, by decide +kernel, by decide +kernel⟩

end Camelmailer.Api
