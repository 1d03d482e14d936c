import Camelmailer.Api.Campaigns

/-!
# Licences to expand a campaign

Two views of a campaign are set up here. In the first it is seen on its own: the status that
is stored for it, the licences to expand it that have been granted, and the expansions that
have been concluded. In the second a request keeps a ledger of the licences it has been
answered with, and every handler is shown to expand only what it holds a licence for.
-/

namespace Camelmailer.Api.Campaigns

open Utf8 Db Requests

/-! ## The life of one campaign -/

/-- The changes of status that are meant to happen. -/
inductive Follows : CampaignStatus → CampaignStatus → Prop where
  | edit {before after : CampaignStatus} (planned : before.isPlanned = true)
      (still : after.isPlanned = true) : Follows before after
  | send {before : CampaignStatus} (planned : before.isPlanned = true) : Follows before .sending
  | cancel {before : CampaignStatus} (planned : before.isPlanned = true) : Follows before .canceled
  | complete : Follows .sending .sent
  | fail : Follows .sending .failed

/-- A campaign as it is stored, whether its identifier has been used, the licences granted
to expand it and the expansions concluded. -/
structure View where
  status : Option CampaignStatus
  used : Prop
  licences : Nat
  concluded : Nat

/-- The statuses that progress is recorded with. -/
def CampaignStatus.isProgress : CampaignStatus → Bool
  | sending => true
  | sent => true
  | failed => true
  | _ => false

/-- What one step can do to a campaign. With care a campaign is canceled only while it is
planned. -/
inductive Move (care : Prop) (view : View) : View → Prop where
  | keep : Move care view view
  | delete : Move care view { view with status := none }
  | create (status : CampaignStatus) (unused : ¬ view.used)
      (initial : status.isPlanned = true ∨ status = .sending) :
      Move care view { view with
        status := some status
        used := True
        licences := view.licences + if status = .sending then 1 else 0 }
  | edit {before : CampaignStatus} (after : CampaignStatus) (there : view.status = some before)
      (planned : before.isPlanned = true) (still : after.isPlanned = true) :
      Move care view { view with status := some after }
  | send {before : CampaignStatus} (there : view.status = some before)
      (planned : before.isPlanned = true) :
      Move care view { view with status := some .sending, licences := view.licences + 1 }
  | cancel {before : CampaignStatus} (there : view.status = some before)
      (planned : care → before.isPlanned = true) :
      Move care view { view with status := some .canceled }
  | progress (status : CampaignStatus) (licensed : view.concluded < view.licences)
      (progress : status.isProgress = true) :
      Move care view { view with
        status := view.status.map (fun _ => status)
        concluded := view.concluded + if status = .sending then 0 else 1 }
  | report (status : CampaignStatus) (licensed : view.concluded < view.licences) :
      Move care view { view with
        concluded := view.concluded + if status = .sending then 0 else 1 }

/-- A campaign is licensed once at most, and not while it is planned. -/
structure View.Licensed (view : View) : Prop where
  single : view.licences ≤ 1
  planned : ∀ status, view.status = some status → status.isPlanned = true → view.licences = 0
  unused : ¬ view.used → view.licences = 0 ∧ view.status = none

variable {care : Prop}

theorem View.Licensed.move {view after : View} (licensed : view.Licensed)
    (move : Move care view after) : after.Licensed := by
  obtain ⟨single, planned, unused⟩ := licensed
  cases move with
  | keep => exact ⟨single, planned, unused⟩
  | delete => exact ⟨single, by simp, fun fresh => ⟨(unused fresh).1, rfl⟩⟩
  | create status fresh initial =>
      obtain ⟨none, -⟩ := unused fresh
      refine ⟨?_, ?_, fun absurd => (absurd trivial).elim⟩
      · simp only [none]
        split <;> omega
      · rintro other same plans
        obtain rfl := Option.some.inj same
        cases status <;> simp_all [CampaignStatus.isPlanned]
  | edit status there plans still =>
      have none := planned _ there plans
      exact ⟨single, fun _ _ _ => none, fun fresh => by simp [(unused fresh).2] at there⟩
  | send there plans =>
      have none := planned _ there plans
      refine ⟨by simp only [none]; omega, ?_, fun fresh => by simp [(unused fresh).2] at there⟩
      rintro status same still
      obtain rfl := Option.some.inj same
      cases still
  | cancel there plans =>
      refine ⟨single, ?_, fun fresh => by simp [(unused fresh).2] at there⟩
      rintro status same still
      obtain rfl := Option.some.inj same
      cases still
  | progress status held progress =>
      refine ⟨single, ?_, fun fresh => ?_⟩
      · rintro other same still
        obtain ⟨before, -, rfl⟩ := Option.map_eq_some_iff.mp same
        cases status <;> simp_all [CampaignStatus.isPlanned, CampaignStatus.isProgress]
      · rw [(unused fresh).1] at held
        omega
  | report status held => exact ⟨single, planned, unused⟩

/-- An expansion under way is that of a sending campaign, and a canceled campaign has not
been licensed. -/
structure View.Orderly (view : View) : Prop extends view.Licensed where
  balanced : view.concluded ≤ view.licences
  underway : view.concluded < view.licences → ∀ status, view.status = some status →
    status = .sending
  canceled : view.status = some .canceled → view.licences = 0

theorem View.Orderly.move {view after : View} (careful : care) (orderly : view.Orderly)
    (move : Move care view after) : after.Orderly := by
  refine ⟨orderly.toLicensed.move move, ?_, ?_, ?_⟩
  all_goals obtain ⟨⟨single, planned, unused⟩, balanced, underway, canceled⟩ := orderly
  · cases move with
    | keep | delete | edit status there plans still | cancel there plans => exact balanced
    | create status fresh initial => exact Nat.le_add_right_of_le balanced
    | send there plans => exact Nat.le_add_right_of_le balanced
    | progress status held progress =>
        simp only
        split <;> omega
    | report status held =>
        simp only
        split <;> omega
  · intro more other same
    cases move with
    | keep => exact underway more other same
    | delete => cases same
    | create status fresh initial =>
        obtain ⟨none, -⟩ := unused fresh
        obtain rfl := Option.some.inj same
        by_contra different
        simp only [if_neg different] at more
        omega
    | edit status there plans still =>
        rw [planned _ there plans] at more
        exact absurd more (Nat.not_lt_zero _)
    | send there plans => exact (Option.some.inj same).symm
    | cancel there plans =>
        rw [planned _ there (plans careful)] at more
        exact absurd more (Nat.not_lt_zero _)
    | progress status held progress =>
        obtain ⟨before, -, rfl⟩ := Option.map_eq_some_iff.mp same
        by_contra different
        simp only [if_neg different] at more
        omega
    | report status held => exact underway held other same
  · intro off
    cases move with
    | keep => exact canceled off
    | delete => cases off
    | create status fresh initial =>
        obtain rfl := Option.some.inj off
        rcases initial with planned | same
        · cases planned
        · cases same
    | edit status there plans still => exact planned _ there plans
    | send there plans => cases off
    | cancel there plans => exact planned _ there (plans careful)
    | progress status held progress =>
        obtain ⟨before, -, rfl⟩ := Option.map_eq_some_iff.mp off
        cases progress
    | report status held => exact canceled off

/-- With care, every change of status is meant to happen. -/
theorem Move.follows {view after : View} {old new : CampaignStatus} (careful : care)
    (orderly : view.Orderly) (move : Move care view after) (before : view.status = some old)
    (now : after.status = some new) :
    new = old ∨ Follows old new := by
  cases move with
  | keep => exact .inl (Option.some.inj (now.symm.trans before))
  | delete => cases now
  | create status fresh initial =>
      rw [(orderly.unused fresh).2] at before
      cases before
  | edit status there plans still =>
      obtain rfl := Option.some.inj (there.symm.trans before)
      obtain rfl := Option.some.inj now
      exact .inr (.edit plans still)
  | send there plans =>
      obtain rfl := Option.some.inj (there.symm.trans before)
      obtain rfl := Option.some.inj now
      exact .inr (.send plans)
  | cancel there plans =>
      obtain rfl := Option.some.inj (there.symm.trans before)
      obtain rfl := Option.some.inj now
      exact .inr (.cancel (plans careful))
  | progress status held progress =>
      obtain rfl := orderly.underway held old before
      simp only [before, Option.map_some, Option.some.injEq] at now
      subst now
      cases status <;> simp_all [CampaignStatus.isProgress, Follows.complete, Follows.fail]
  | report status held => exact .inl (Option.some.inj (now.symm.trans before))

/-- A campaign that has been called off, and may have been deleted since. -/
structure View.Off (view : View) : Prop where
  used : view.used
  licences : view.licences = 0
  status : ∀ status, view.status = some status → status = .canceled

theorem View.Off.move {view after : View} (off : view.Off) (move : Move care view after) :
    after.Off := by
  obtain ⟨used, none, canceled⟩ := off
  cases move with
  | keep => exact ⟨used, none, canceled⟩
  | delete => exact ⟨used, none, by simp⟩
  | create status fresh initial => exact absurd used fresh
  | edit status there plans still | send there plans =>
      rw [canceled _ there] at plans
      cases plans
  | cancel there plans => exact ⟨used, none, fun _ same => (Option.some.inj same).symm⟩
  | progress status held progress | report status held =>
      rw [none] at held
      exact absurd held (Nat.not_lt_zero _)

/-! ## The ledger of a request -/

/-- The licences to expand a campaign that an answer grants. -/
def licencesFor (id : Id) : Answered Command → Nat
  | ⟨.claimDueCampaigns _ _, .ok claimed⟩ => (claimed.map Campaign.id).count id
  | ⟨.updateCampaign _ _ update, .ok (some campaign)⟩ =>
      if campaign.id = id ∧ update.status = some .sending then 1 else 0
  | ⟨.createCampaign new, .ok campaign⟩ =>
      if campaign.id = id ∧ new.status = .sending then 1 else 0
  | _ => 0

/-- The expansions of a campaign that start. -/
def startsOf (id : Id) : Answered Command → Nat
  | ⟨.expandCampaign other, _⟩ => if other = id then 1 else 0
  | _ => 0

/-- The expansions of a campaign that are concluded. -/
def conclusionsOf (id : Id) : Answered Command → Nat
  | ⟨.setCampaignProgress _ other _ status _, _⟩ =>
      if other = id ∧ status ≠ .sending then 1 else 0
  | _ => 0

/-- The messages of a campaign to an address. -/
def messagesTo (id : Id) (address : Text) : Answered Command → Nat
  | ⟨.enqueueSend _ other message, _⟩ =>
      if other = id ∧ message.sendTo = [⟨none, address⟩] then 1 else 0
  | _ => 0

/-- The licences of a request cover its expansions, and those that are still pending. -/
structure Ledger (pending : List Id) (history : List (Answered Command)) : Prop where
  concluded : ∀ id, tally (conclusionsOf id) history + pending.count id ≤ tally (licencesFor id) history
  started : ∀ id, tally (startsOf id) history + pending.count id ≤ tally (licencesFor id) history
  addressed : ∀ id address, tally (messagesTo id address) history ≤ tally (startsOf id) history

/-- The same during an expansion, which has addresses left to send to. -/
structure Expanding (id : Id) (addresses : List Text) (pending : List Id)
    (history : List (Answered Command)) : Prop where
  concluded : ∀ other,
    tally (conclusionsOf other) history + (id :: pending).count other ≤ tally (licencesFor other) history
  started : ∀ other,
    tally (startsOf other) history + pending.count other ≤ tally (licencesFor other) history
  addressed : ∀ other address,
    tally (messagesTo other address) history ≤ tally (startsOf other) history
  left : ∀ address ∈ addresses, tally (messagesTo id address) history < tally (startsOf id) history

/-- Commands that neither start nor conclude an expansion, and send no message. -/
def Silent : Answered Command → Prop
  | ⟨.expandCampaign _, _⟩ => False
  | ⟨.setCampaignProgress _ _ _ status _, _⟩ => status = .sending
  | ⟨.enqueueSend _ _ _, _⟩ => False
  | _ => True

section Entries

variable {entry : Answered Command} {id : Id} {address : Text}

theorem Silent.started (silent : Silent entry) : startsOf id entry = 0 := by
  obtain ⟨command, answer⟩ := entry
  cases command <;> first | rfl | exact silent.elim

theorem Silent.concluded (silent : Silent entry) : conclusionsOf id entry = 0 := by
  obtain ⟨command, answer⟩ := entry
  cases command with
  | setCampaignProgress serverId other sent status completed =>
      exact if_neg (fun both => both.2 silent)
  | _ => rfl

theorem Silent.addressed (silent : Silent entry) : messagesTo id address entry = 0 := by
  obtain ⟨command, answer⟩ := entry
  cases command <;> first | rfl | exact silent.elim

end Entries

section Ledgers

variable {pending : List Id} {history : List (Answered Command)} {entry : Answered Command}
  {id : Id} {addresses : List Text}

theorem Ledger.nil : Ledger [] [] :=
  ⟨fun _ => Nat.le_refl _, fun _ => Nat.le_refl _, fun _ _ => Nat.le_refl _⟩

theorem Ledger.silent (ledger : Ledger pending history) (silent : Silent entry) :
    Ledger pending (history ++ [entry]) := by
  refine ⟨fun id => ?_, fun id => ?_, fun id address => ?_⟩
  · have covered := ledger.concluded id
    simp only [tally_append, silent.concluded]
    omega
  · have covered := ledger.started id
    simp only [tally_append, silent.started]
    omega
  · simpa only [tally_append, silent.started, silent.addressed, Nat.add_zero]
      using ledger.addressed id address

/-- Silent commands need no licence. -/
theorem Ledger.quiet (silent : ∀ entry ∈ history, Silent entry) : Ledger [] history := by
  induction history using List.reverseRecOn with
  | nil => exact .nil
  | append_singleton history entry ih =>
      apply Ledger.silent
      · exact ih (fun other member => silent other (List.mem_append_left _ member))
      · exact silent entry (by simp)

/-- A grant covers the expansions that it is for. -/
theorem Ledger.grant (ledger : Ledger [] history) (silent : Silent entry)
    (granted : ∀ id, pending.count id ≤ licencesFor id entry) :
    Ledger pending (history ++ [entry]) := by
  refine ⟨fun id => ?_, fun id => ?_, fun id address => ?_⟩
  · have covered := ledger.concluded id
    have more := granted id
    simp only [tally_append, silent.concluded] at covered ⊢
    omega
  · have covered := ledger.started id
    have more := granted id
    simp only [tally_append, silent.started] at covered ⊢
    omega
  · simpa only [tally_append, silent.started, silent.addressed, Nat.add_zero]
      using ledger.addressed id address

theorem Ledger.expanding (ledger : Ledger (id :: pending) history) :
    Expanding id [] pending history := by
  refine ⟨ledger.concluded, fun other => ?_, ledger.addressed, by simp⟩
  have covered := ledger.started other
  rw [List.count_cons] at covered
  omega

theorem Expanding.silent (expanding : Expanding id addresses pending history)
    (silent : Silent entry) : Expanding id addresses pending (history ++ [entry]) := by
  refine ⟨fun other => ?_, fun other => ?_, fun other address => ?_, fun address member => ?_⟩
  · have covered := expanding.concluded other
    simp only [tally_append, silent.concluded]
    omega
  · have covered := expanding.started other
    simp only [tally_append, silent.started]
    omega
  · simpa only [tally_append, silent.started, silent.addressed, Nat.add_zero]
      using expanding.addressed other address
  · simpa only [tally_append, silent.started, silent.addressed, Nat.add_zero]
      using expanding.left address member

/-- The start of an expansion uses a licence. -/
theorem Ledger.start (ledger : Ledger (id :: pending) history) (nothing : Unit)
    (addresses : List Text) :
    Expanding id addresses pending (history ++ [⟨.expandCampaign id, nothing⟩]) := by
  refine ⟨fun other => ?_, fun other => ?_, fun other address => ?_, fun address _ => ?_⟩
  · simpa [conclusionsOf, licencesFor] using ledger.concluded other
  · have covered := ledger.started other
    simp only [tally_append, startsOf, List.count_cons, beq_iff_eq]
      at covered ⊢
    omega
  · have bounded := ledger.addressed other address
    simp only [tally_append, messagesTo]
    omega
  · have bounded := ledger.addressed id address
    simp only [tally_append, messagesTo, startsOf, if_true]
    omega

/-- A message to one of the addresses that are left. -/
theorem Expanding.send {server : Server} {campaign : Campaign} {permalink address : Text}
    {answer : Except ApiError Id}
    (expanding : Expanding campaign.id (address :: addresses) pending history)
    (distinct : (address :: addresses).Nodup) :
    Expanding campaign.id addresses pending (history ++ [⟨.enqueueSend server campaign.id
      (campaignMessage campaign permalink address), answer⟩]) := by
  refine ⟨fun other => ?_, fun other => ?_, fun other recipient => ?_,
    fun recipient member => ?_⟩
  · simpa [conclusionsOf, licencesFor] using expanding.concluded other
  · simpa [startsOf, licencesFor] using expanding.started other
  · have bounded := expanding.addressed other recipient
    have fresh := expanding.left address (List.mem_cons_self ..)
    simp only [tally_append, messagesTo, campaignMessage]
    split_ifs with same
    · obtain ⟨rfl, equal⟩ := same
      simp only [List.cons.injEq, Address.mk.injEq, true_and, and_true] at equal
      subst equal
      omega
    · omega
  · have fresh := expanding.left recipient (List.mem_cons_of_mem _ member)
    have other : address ≠ recipient := by
      rintro rfl
      exact (List.nodup_cons.mp distinct).1 member
    simpa [messagesTo, startsOf, campaignMessage, other] using fresh

/-- The end of an expansion. -/
theorem Expanding.conclude {serverId : Id} {sent : Int} {status : CampaignStatus}
    {completed : Option Int} {answer : Except StoreError Unit}
    (expanding : Expanding id addresses pending history) :
    Ledger pending (history ++
      [⟨.setCampaignProgress serverId id sent status completed, answer⟩]) := by
  refine ⟨fun other => ?_, fun other => ?_, fun other address => ?_⟩
  · have covered := expanding.concluded other
    simp only [tally_append, conclusionsOf, List.count_cons]
      at covered ⊢
    split_ifs at covered ⊢ <;> first | omega | simp_all
  · simpa [startsOf, licencesFor] using expanding.started other
  · simpa [startsOf, messagesTo] using expanding.addressed other address

end Ledgers

/-! ## What the handlers promise -/

/-- A request starts, reports and concludes only expansions that it holds a licence for, sends
each address one message in an expansion, and moves a campaign to one of the statuses of a
plan, of a start or of a cancellation. -/
def Licensed (history : List (Answered Command)) : ∀ β, Command β → Prop
  | _, .expandCampaign id => tally (startsOf id) history < tally (licencesFor id) history
  | _, .setCampaignProgress _ id _ status _ => status.isProgress = true ∧
      tally (conclusionsOf id) history < tally (licencesFor id) history
  | _, .enqueueSend _ id message =>
      tally (conclusionsOf id) history < tally (licencesFor id) history ∧
      ∀ address, message.sendTo = [⟨none, address⟩] →
        tally (messagesTo id address) history < tally (startsOf id) history
  | _, .updateCampaign _ _ update => update.status ≠ some .sent ∧ update.status ≠ some .failed
  | _, .createCampaign new => new.status.isPlanned = true ∨ new.status = .sending
  | _, _ => True

/-- An answer that says that a campaign has been canceled. -/
def Cancels (serverId id : Id) : Answered Command → Prop
  | ⟨.updateCampaign otherServer other update, .ok (some _)⟩ =>
      otherServer = serverId ∧ other = id ∧ update.status = some .canceled
  | _ => False

/-- A cancellation that succeeds has canceled its campaign. -/
def Finished : Call → List (Answered Command) → Except ApiError Reply → Prop
  | .serverCampaignCancel server id, history, .ok _ => ∃ entry ∈ history, Cancels server.id id entry
  | _, _, _ => True

section Expansions

variable {server : Server} {campaign : Campaign} {permalink : Text} {pending : List Id}
  {history : List (Answered Command)} {addresses : List Text}

theorem Expanding.held {id : Id} (expanding : Expanding id addresses pending history) :
    tally (conclusionsOf id) history < tally (licencesFor id) history := by
  have covered := expanding.concluded id
  rw [List.count_cons_self] at covered
  omega

variable {sent : Int}

theorem sendTo_safe {address : Text}
    (expanding : Expanding campaign.id (address :: addresses) pending history)
    (distinct : (address :: addresses).Nodup) :
    Program.Safe Licensed (Program.Returns (Expanding campaign.id addresses pending))
      (sendTo server campaign permalink address sent) history := by
  refine ⟨⟨expanding.held, ?_⟩, fun answer => ?_⟩
  · intro recipient only
    simp only [campaignMessage, List.cons.injEq, Address.mk.injEq, true_and, and_true] at only
    subst only
    exact expanding.left address (List.mem_cons_self ..)
  · cases answer with
    | error error => exact ⟨rfl, expanding.send distinct⟩
    | ok id => exact ⟨trivial, fun _ => ⟨rfl, (expanding.send distinct).silent trivial⟩⟩

theorem sendBatch_safe {batch later : List Text}
    (expanding : Expanding campaign.id (batch ++ later) pending history)
    (distinct : (batch ++ later).Nodup) :
    Program.Safe Licensed (Program.Returns (Expanding campaign.id later pending))
      (sendBatch server campaign permalink batch sent) history := by
  induction batch generalizing history sent with
  | nil => exact ⟨rfl, expanding⟩
  | cons address batch ih =>
      apply (sendTo_safe expanding distinct).bind_returns
      intro after sent expanding
      exact ih expanding (List.nodup_cons.mp distinct).2

theorem sendBatches_safe {batches : List (List Text)}
    (expanding : Expanding campaign.id batches.flatten pending history)
    (distinct : batches.flatten.Nodup) :
    Program.Safe Licensed (Program.Returns (Expanding campaign.id [] pending))
      (sendBatches server campaign permalink batches sent) history := by
  induction batches generalizing history sent with
  | nil => exact ⟨rfl, expanding⟩
  | cons batch batches ih =>
      apply (sendBatch_safe expanding distinct).bind_returns
      intro after sent expanding
      apply perform_safe ⟨rfl, expanding.held⟩
      intro answer
      exact ih (expanding.silent rfl) (List.nodup_append.mp distinct).2.1

/-- The chunks are the list in order. -/
theorem chunks_flatten {size : Nat} (positive : 0 < size) (addresses : List Text) :
    (chunks size addresses).flatten = addresses := by
  have pieces (count : Nat) : ((List.range count).map (fun index =>
      (addresses.drop (index * size)).take size)).flatten = addresses.take (count * size) := by
    induction count with
    | zero => simp
    | succ count ih =>
        rw [List.range_succ, List.map_append, List.flatten_append, ih,
          Nat.succ_mul, List.take_add]
        simp
  have enough : addresses.length ≤ (addresses.length + size - 1) / size * size := by
    have exact := Nat.div_add_mod (addresses.length + size - 1) size
    have less := Nat.mod_lt (addresses.length + size - 1) positive
    rw [Nat.mul_comm] at exact
    omega
  rw [chunks, pieces, List.take_of_length_le enough]

theorem finishCampaign_safe {status : CampaignStatus}
    (expanding : Expanding campaign.id addresses pending history)
    (progress : status.isProgress = true) :
    Program.Safe Licensed (Program.Returns (Ledger pending))
      (finishCampaign server campaign sent status) history := by
  apply perform_safe trivial
  intro now
  have timed : Expanding campaign.id addresses pending (history ++ [⟨.now, now⟩]) :=
    expanding.silent trivial
  apply perform_safe ⟨progress, timed.held⟩
  intro answer
  exact ⟨rfl, timed.conclude⟩

/-- An expansion uses the licence it is started with. -/
theorem expandCampaign_safe (ledger : Ledger (campaign.id :: pending) history) :
    Program.Safe Licensed (Program.Returns (Ledger pending))
      (expandCampaign server campaign permalink) history := by
  have held : tally (startsOf campaign.id) history < tally (licencesFor campaign.id) history := by
    have covered := ledger.started campaign.id
    rw [List.count_cons_self] at covered
    omega
  apply perform_safe held
  intro nothing
  refine ⟨trivial, fun answer => ?_⟩
  cases answer with
  | error error =>
      exact finishCampaign_safe ((ledger.start nothing []).silent trivial) rfl
  | ok audience =>
      have flat : (chunks campaignBatchSize audience.subscribed).flatten = audience.subscribed :=
        chunks_flatten (by decide) audience.subscribed
      apply Program.Safe.bind_returns (P := Expanding campaign.id [] pending)
      · apply sendBatches_safe
        · rw [flat]
          exact (ledger.start nothing audience.subscribed).silent trivial
        · rw [flat]
          exact audience.subscribed_nodup
      · intro after sent expanding
        exact finishCampaign_safe expanding rfl

theorem expandAll_safe {campaigns : List Campaign}
    (ledger : Ledger (campaigns.map Campaign.id) history) :
    Program.Safe Licensed (Program.Returns (Ledger [])) (expandAll server campaigns) history := by
  induction campaigns generalizing history with
  | nil => exact ⟨rfl, ledger⟩
  | cons campaign campaigns ih =>
      apply perform_safe trivial
      intro streams
      have ledger : Ledger (campaign.id :: campaigns.map Campaign.id)
          (history ++ [⟨.listStreams server.id, streams⟩]) := ledger.silent trivial
      apply Program.Safe.bind_returns (P := Ledger (campaigns.map Campaign.id))
      · generalize List.find? _ _ = stream
        cases stream with
        | none => exact finishCampaign_safe ledger.expanding rfl
        | some stream => exact expandCampaign_safe ledger
      · intro after nothing ledger
        exact ih ledger

theorem tickServers_safe {now : Int} {servers : List Server} (ledger : Ledger [] history) :
    Program.Safe Licensed (Program.Returns (Ledger [])) (tickServers now servers) history := by
  induction servers generalizing history with
  | nil => exact ⟨rfl, ledger⟩
  | cons server servers ih =>
      apply perform_safe trivial
      intro claimed
      apply Program.Safe.bind_returns (P := Ledger [])
      · apply expandAll_safe
        refine ledger.grant ?_ (fun id => ?_)
        · trivial
        cases claimed with
        | error error => exact Nat.zero_le _
        | ok claimed => exact Nat.le_refl _
      · intro after nothing ledger
        exact ih ledger

end Expansions

section Handlers

variable {server : Server} {id : Id} {history : List (Answered Command)}

theorem Ledger.created {new : NewCampaign} {campaign : Campaign} (ledger : Ledger [] history)
    (sending : new.status = .sending) :
    Ledger [campaign.id] (history ++ [⟨.createCampaign new, .ok campaign⟩]) := by
  refine ledger.grant ?_ (fun other => ?_)
  · trivial
  · simp only [licencesFor, List.count_singleton, sending, and_true, beq_iff_eq]
    exact Nat.le_refl _

theorem campaignsCreate_safe {permalink : Text} {body : CreateCampaign} :
    Program.Safe Licensed (Finished (.campaignsCreate server permalink body))
      (campaignsCreate server permalink body) [] := by
  simp only [campaignsCreate, subscribedCount, Program.bind_bind]
  apply askInternally_safe trivial (fun _ => trivial)
  intro found
  apply require_safe (fun _ => trivial)
  intro stream _
  apply demand_safe (fun _ => trivial)
  intro _
  apply require_safe (fun _ => trivial)
  intro sender _
  apply askInternally_safe trivial (fun _ => trivial)
  intro audience
  apply askInternally_safe (.inr rfl) (fun _ => trivial)
  intro campaign
  apply Program.Safe.bind_returns (P := Ledger [])
  · apply expandCampaign_safe
    exact Ledger.created (Ledger.quiet (by simp [Silent])) rfl
  · intro after nothing ledger
    trivial

theorem CreateServerCampaign.initial_status (body : CreateServerCampaign) :
    body.initial.1.isPlanned = true ∨ body.initial.1 = .sending := by
  unfold initial
  split
  · exact .inr rfl
  · split <;> exact .inl rfl

theorem serverCampaignsCreate_safe {debug : Text → Text} {body : CreateServerCampaign} :
    Program.Safe Licensed (Finished (.serverCampaignsCreate server body))
      (serverCampaignsCreate debug server body) [] := by
  simp only [serverCampaignsCreate, subscribedCount, Program.bind_bind]
  apply require_safe (fun _ => trivial)
  intro permalink _
  apply askInternally_safe trivial (fun _ => trivial)
  intro found
  apply require_safe (fun _ => trivial)
  intro stream _
  apply demand_safe (fun _ => trivial)
  intro _
  apply require_safe (fun _ => trivial)
  intro sender _
  apply askInternally_safe trivial (fun _ => trivial)
  intro audience
  apply askInternally_safe body.initial_status (fun _ => trivial)
  intro campaign
  unfold expandNow
  split
  · next now =>
      apply Program.Safe.bind_returns (P := Ledger [])
      · apply expandCampaign_safe
        apply Ledger.created (Ledger.quiet (by simp [Silent]))
        simp only [CreateServerCampaign.initial, now, if_true]
      · intro after nothing ledger
        trivial
  · trivial

/-- What follows on a campaign that has been found planned. -/
theorem findPlanned_safe {refusal : Text} {next : Campaign → Handler Reply} {call : Call}
    (stops : ∀ history error, Finished call history (.error error))
    (continues : ∀ campaign, Program.Safe Licensed (Finished call) (next campaign)
      ([] ++ [⟨.getCampaign server.id id, .ok (some campaign)⟩])) :
    Program.Safe Licensed (Finished call) (findPlanned server id refusal >>= next) [] := by
  simp only [findPlanned, Program.bind_bind]
  apply askInternally_safe trivial (fun _ => stops _ _)
  intro found
  apply require_safe (fun _ => stops _ _)
  rintro campaign rfl
  apply demand_safe (fun _ => stops _ _)
  intro _
  exact continues campaign

theorem serverCampaignUpdate_safe {body : UpdateCampaign} :
    Program.Safe Licensed (Finished (.serverCampaignUpdate server id body))
      (serverCampaignUpdate server id body) [] := by
  refine findPlanned_safe ?_ (fun planned => ?_)
  · intro history error
    trivial
  have statuses : body.update.status ≠ some .sent ∧ body.update.status ≠ some .failed := by
    unfold UpdateCampaign.update
    cases body.scheduledAt with
    | none => simp
    | some time => cases time <;> simp
  apply askInternally_safe statuses (fun _ => trivial)
  intro updated
  apply require_safe (fun _ => trivial)
  intro campaign _
  apply perform_safe trivial
  intro streams
  trivial

theorem serverCampaignSend_safe :
    Program.Safe Licensed (Finished (.serverCampaignSend server id))
      (serverCampaignSend server id) [] := by
  refine findPlanned_safe ?_ (fun planned => ?_)
  · intro history error
    trivial
  simp only [subscribedCount, Program.bind_bind]
  apply perform_safe trivial
  intro streams
  apply require_safe (fun _ => trivial)
  intro stream _
  apply askInternally_safe trivial (fun _ => trivial)
  intro audience
  apply askInternally_safe (by simp [Licensed]) (fun _ => trivial)
  intro updated
  apply require_safe (fun _ => trivial)
  rintro campaign rfl
  apply Program.Safe.bind_returns (P := Ledger [])
  · apply expandCampaign_safe
    refine Ledger.grant (Ledger.quiet (by simp [Silent])) ?_ (fun other => ?_)
    · trivial
    · simp only [licencesFor, List.count_singleton, and_true, beq_iff_eq]
      exact Nat.le_refl _
  · intro after nothing ledger
    trivial

theorem serverCampaignCancel_safe :
    Program.Safe Licensed (Finished (.serverCampaignCancel server id))
      (serverCampaignCancel server id) [] := by
  refine findPlanned_safe ?_ (fun planned => ?_)
  · intro history error
    trivial
  apply askInternally_safe (by simp [Licensed]) (fun _ => trivial)
  intro updated
  apply require_safe (fun _ => trivial)
  rintro campaign rfl
  apply perform_safe trivial
  intro streams
  refine ⟨⟨.updateCampaign server.id id { status := some .canceled }, .ok (some campaign)⟩, ?_,
    rfl, rfl, rfl⟩
  simp

theorem runSchedulerTick_safe :
    Program.Safe Licensed (Finished .runSchedulerTick) runSchedulerTick [] := by
  refine ⟨trivial, fun answer => ?_⟩
  cases answer with
  | error error => trivial
  | ok servers =>
      apply perform_safe trivial
      intro now
      apply Program.Safe.bind_returns (P := Ledger [])
      · exact tickServers_safe (Ledger.quiet (by simp [Silent]))
      · intro after nothing ledger
        trivial

theorem handler_licensed (debug : Text → Text) (call : Call) :
    Program.Safe Licensed (Finished call) ((service debug).handler call) [] := by
  cases call with
  | campaignsCreate => exact campaignsCreate_safe
  | serverCampaignsCreate => exact serverCampaignsCreate_safe
  | serverCampaignUpdate => exact serverCampaignUpdate_safe
  | serverCampaignSend => exact serverCampaignSend_safe
  | serverCampaignCancel => exact serverCampaignCancel_safe
  | runSchedulerTick => exact runSchedulerTick_safe

end Handlers

end Camelmailer.Api.Campaigns
