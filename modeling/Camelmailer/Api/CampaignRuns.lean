import Camelmailer.Api.CampaignLedger

/-!
# Runs of campaigns

Every step of every request moves each campaign in one of the ways that its life allows, as
long as no update is carried out that was decided on an older status. A licence is then
granted only for a planned campaign, and a campaign is licensed once at most.
-/

namespace Camelmailer.Api.Campaigns

open Utf8 Db Requests

/-! ## What the tables hold -/

def Tables.status (tables : Tables) (id : Id) : Option CampaignStatus :=
  (tables.findCampaign id).map Campaign.status

section Store

variable {tables : Tables} {serverId id other : Id}

theorem findCampaign_map (change : Campaign → Campaign)
    (keeps : ∀ campaign, (change campaign).id = campaign.id) :
    (tables.mapCampaigns change keeps).findCampaign id = (tables.findCampaign id).map change := by
  unfold Tables.findCampaign Tables.mapCampaigns
  rw [List.find?_map]
  simp only [Function.comp_def, keeps]

variable {campaign : Campaign}

theorem findCampaign_id (found : tables.findCampaign id = some campaign) :
    campaign.id = id := by
  simpa using List.find?_some found

/-- A campaign in the table is found under its identifier. -/
theorem findCampaign_mem (member : campaign ∈ tables.campaigns) :
    tables.findCampaign campaign.id = some campaign := by
  cases found : tables.findCampaign campaign.id with
  | none => simpa using List.find?_eq_none.mp found campaign member
  | some first =>
      have same : first = campaign := List.inj_on_of_nodup_map tables.distinct
        (List.mem_of_find?_eq_some found) member (findCampaign_id found)
      rw [same]

theorem getCampaign_eq :
    tables.getCampaign serverId id = some campaign ↔
      tables.findCampaign id = some campaign ∧ campaign.serverId = serverId := by
  simp [Tables.getCampaign]

variable {change : Campaign → Campaign}

/-- A change that is not to a campaign. -/
theorem status_onCampaign_elsewhere {keeps} (elsewhere : ∀ campaign,
    tables.findCampaign other = some campaign → ¬(campaign.id = id ∧ campaign.serverId = serverId)) :
    (tables.mapCampaigns (Tables.onCampaign serverId id change) keeps).status other =
      tables.status other := by
  unfold Tables.status
  rw [findCampaign_map]
  cases found : tables.findCampaign other with
  | none => rfl
  | some campaign =>
      simp only [Option.map_some, Function.comp_apply, Tables.onCampaign,
        if_neg (elsewhere campaign found)]

/-- A change to a campaign that is not there. -/
theorem status_onCampaign_none {keeps} (absent : tables.getCampaign serverId id = none) :
    (tables.mapCampaigns (Tables.onCampaign serverId id change) keeps).status other =
      tables.status other := by
  refine status_onCampaign_elsewhere fun campaign found => ?_
  rintro ⟨rfl, owned⟩
  have there := getCampaign_eq.mpr ⟨(findCampaign_id found) ▸ found, owned⟩
  rw [absent] at there
  cases there

theorem status_onCampaign_self {keeps} (there : tables.getCampaign serverId id = some campaign) :
    (tables.mapCampaigns (Tables.onCampaign serverId id change) keeps).status id =
      some (change campaign).status := by
  obtain ⟨found, owned⟩ := getCampaign_eq.mp there
  have own : campaign.id = id ∧ campaign.serverId = serverId := ⟨findCampaign_id found, owned⟩
  unfold Tables.status
  rw [findCampaign_map, found]
  simp only [Option.map_some, Tables.onCampaign, if_pos own]

theorem status_onCampaign_other {keeps} (apart : other ≠ id) :
    (tables.mapCampaigns (Tables.onCampaign serverId id change) keeps).status other =
      tables.status other :=
  status_onCampaign_elsewhere fun _ found both => apart ((findCampaign_id found).symm.trans both.1)

theorem status_create (new : NewCampaign) (now : Int) :
    (tables.createCampaign new now).2.status id =
      if id = tables.nextCampaignId then some new.status else tables.status id := by
  unfold Tables.status Tables.findCampaign Tables.createCampaign
  rw [List.find?_append]
  split_ifs with same
  · have unused : tables.campaigns.find? (fun campaign => campaign.id = id) = none := by
      rw [List.find?_eq_none]
      intro campaign member
      simp only [same, decide_eq_true_eq]
      exact Nat.ne_of_lt (tables.used campaign member)
    rw [unused]
    simp [same]
  · cases found : tables.campaigns.find? (fun campaign => campaign.id = id) with
    | none => simp [Ne.symm same]
    | some campaign => rfl

/-- A campaign is claimed once at most, and only when it is scheduled. -/
theorem claimed_cases (serverId : Id) (now : Int) (id : Id) :
    (((tables.claimDueCampaigns serverId now).1.map Campaign.id).count id = 0 ∧
      (tables.claimDueCampaigns serverId now).2.status id = tables.status id) ∨
    (((tables.claimDueCampaigns serverId now).1.map Campaign.id).count id = 1 ∧
      tables.status id = some .scheduled ∧
      (tables.claimDueCampaigns serverId now).2.status id = some .sending) := by
  have ids : (tables.claimDueCampaigns serverId now).1.map Campaign.id =
      (tables.campaigns.filter (Tables.isDue serverId now)).map Campaign.id := by
    simp only [Tables.claimDueCampaigns, List.map_map]
    rfl
  have distinct : ((tables.campaigns.filter (Tables.isDue serverId now)).map Campaign.id).Nodup :=
    tables.distinct.sublist (List.filter_sublist.map _)
  rw [ids]
  by_cases claimed : id ∈ (tables.campaigns.filter (Tables.isDue serverId now)).map Campaign.id
  · right
    obtain ⟨campaign, due, rfl⟩ := List.mem_map.mp claimed
    obtain ⟨member, due⟩ := List.mem_filter.mp due
    have found := findCampaign_mem member
    have scheduled : campaign.status = .scheduled := by
      simp only [Tables.isDue, decide_eq_true_eq] at due
      exact due.2.1
    refine ⟨List.count_eq_one_of_mem distinct claimed, ?_, ?_⟩
    · rw [Tables.status, found, Option.map_some, scheduled]
    · simp only [Tables.status, Tables.claimDueCampaigns, findCampaign_map, found, Option.map_some,
        due, if_true]
  · left
    refine ⟨List.count_eq_zero_of_not_mem claimed, ?_⟩
    simp only [Tables.status, Tables.claimDueCampaigns, findCampaign_map]
    cases found : tables.findCampaign id with
    | none => rfl
    | some campaign =>
        have idle : Tables.isDue serverId now campaign = false := by
          rw [Bool.eq_false_iff]
          intro due
          apply claimed
          refine List.mem_map.mpr ⟨campaign, List.mem_filter.mpr ⟨?_, due⟩, findCampaign_id found⟩
          exact List.mem_of_find?_eq_some found
        simp [idle]

end Store

/-! ## Steps as moves -/

/-- The status that a command is about to write to a campaign that is there. -/
def rewritten : Due Tables Call Choice Command ApiError Reply → Option (CampaignStatus × Campaign)
  | ⟨state, _, _, _, .updateCampaign serverId id update⟩ =>
      update.status.bind (fun status =>
        (state.tables.getCampaign serverId id).map (fun campaign => (status, campaign)))
  | _ => none

/-- A campaign is sent or scheduled anew only while it is planned. -/
def Planned (due : Due Tables Call Choice Command ApiError Reply) : Prop :=
  ∀ change ∈ rewritten due, change.1 ≠ .canceled → change.2.status.isPlanned = true

/-- The status of a campaign is updated only while it is planned. -/
def Careful (due : Due Tables Call Choice Command ApiError Reply) : Prop :=
  ∀ change ∈ rewritten due, change.2.status.isPlanned = true

instance : DecidablePred Planned := fun due =>
  inferInstanceAs (Decidable (∀ change ∈ rewritten due, change.1 ≠ .canceled →
    change.2.status.isPlanned = true))

instance : DecidablePred Careful := fun due =>
  inferInstanceAs (Decidable (∀ change ∈ rewritten due, change.2.status.isPlanned = true))

abbrev CampaignState := Requests.State Tables Call Command ApiError Reply

/-- One campaign in the state of all requests. -/
def view (state : CampaignState) (id : Id) : View where
  status := state.tables.status id
  used := id < state.tables.nextCampaignId
  licences := state.total (licencesFor id)
  concluded := state.total (conclusionsOf id)

/-- Every request has kept its ledger. -/
def Balanced (state : CampaignState) : Prop :=
  ∀ (index : Nat) request, state.requests[index]? = some request → Ledger [] request.history

/-- A command that meets the promise keeps the ledger. -/
theorem Ledger.answer {history : List (Answered Command)} {β : Type} {command : Command β}
    (ledger : Ledger [] history) (promise : Licensed history β command) (answer : β) :
    Ledger [] (history ++ [⟨command, answer⟩]) := by
  cases command with
  | expandCampaign id =>
      refine ⟨fun other => ?_, fun other => ?_, fun other address => ?_⟩
      · simpa [conclusionsOf, licencesFor] using ledger.concluded other
      · have covered := ledger.started other
        simp only [tally_append, startsOf, List.count_nil] at covered ⊢
        split_ifs with same
        · subst same
          simp only [Licensed] at promise
          omega
        · exact covered
      · have bounded := ledger.addressed other address
        simp only [tally_append, messagesTo]
        omega
  | setCampaignProgress serverId id sent status completed =>
      refine ⟨fun other => ?_, fun other => ?_, fun other address => ?_⟩
      · have covered := ledger.concluded other
        simp only [tally_append, conclusionsOf, List.count_nil] at covered ⊢
        split_ifs with same
        · obtain ⟨rfl, -⟩ := same
          have held := promise.2
          omega
        · exact covered
      · simpa [startsOf, licencesFor] using ledger.started other
      · simpa [startsOf, messagesTo] using ledger.addressed other address
  | enqueueSend server id message =>
      refine ⟨fun other => ?_, fun other => ?_, fun other address => ?_⟩
      · simpa [conclusionsOf, licencesFor] using ledger.concluded other
      · simpa [startsOf, licencesFor] using ledger.started other
      · have bounded := ledger.addressed other address
        simp only [tally_append, messagesTo]
        split_ifs with same
        · obtain ⟨rfl, only⟩ := same
          have fresh := promise.2 address only
          omega
        · exact bounded
  | _ => exact ledger.silent trivial

section Steps

variable {state : CampaignState} {index : Nat} {choice : Choice}
  {request : Request Call Command ApiError Reply} {tables : Tables} {β : Type}
  {command : Command β} {answer : β} {program : Program Command ApiError Reply} {care : Prop}

/-- One campaign after an answer. -/
theorem view_continued (found : state.requests[index]? = some request) (id : Id) :
    view ({ state with tables := tables }.put index (request.continued command answer program)) id =
      ⟨tables.status id, id < tables.nextCampaignId,
        state.total (licencesFor id) + licencesFor id ⟨command, answer⟩,
        state.total (conclusionsOf id) + conclusionsOf id ⟨command, answer⟩⟩ := by
  simp only [view, State.total_continued found]
  rfl

/-- A step that does not touch campaigns. -/
theorem Move.unchanged {id : Id} {entry : Answered Command}
    (status : tables.status id = state.tables.status id)
    (next : tables.nextCampaignId = state.tables.nextCampaignId)
    (ungranted : licencesFor id entry = 0) (silent : Silent entry) :
    Move care (view state id) ⟨tables.status id, id < tables.nextCampaignId,
      state.total (licencesFor id) + licencesFor id entry,
      state.total (conclusionsOf id) + conclusionsOf id entry⟩ := by
  rw [status, next, ungranted, silent.concluded]
  exact .keep

/-- A license held by one request is held by all of them together. -/
theorem Balanced.held {id : Id} (balanced : Balanced state)
    (found : state.requests[index]? = some request)
    (held : tally (conclusionsOf id) request.history < tally (licencesFor id) request.history) :
    state.total (conclusionsOf id) < state.total (licencesFor id) := by
  apply total_lt_total _ found held
  intro other request there
  simpa using (balanced other request there).concluded id

theorem create_moves {new : NewCampaign} (now : Int) (id : Id)
    (initial : new.status.isPlanned = true ∨ new.status = .sending) :
    Move care (view state id) ⟨(state.tables.createCampaign new now).2.status id,
      id < (state.tables.createCampaign new now).2.nextCampaignId,
      state.total (licencesFor id) +
        licencesFor id ⟨.createCampaign new, .ok (state.tables.createCampaign new now).1⟩,
      state.total (conclusionsOf id) + 0⟩ := by
  have next : (state.tables.createCampaign new now).2.nextCampaignId =
      state.tables.nextCampaignId + 1 := rfl
  have given : (state.tables.createCampaign new now).1.id = state.tables.nextCampaignId := rfl
  rw [status_create, next]
  simp only [licencesFor, given]
  by_cases same : id = state.tables.nextCampaignId
  · subst same
    have used : (state.tables.nextCampaignId < state.tables.nextCampaignId + 1) = True :=
      eq_true (Nat.lt_succ_self _)
    simp only [true_and, used]
    exact Move.create new.status (Nat.lt_irrefl _) initial
  · have used : (id < state.tables.nextCampaignId + 1) = (id < state.tables.nextCampaignId) := by
      rw [Nat.lt_succ_iff_lt_or_eq, eq_false same, or_false]
    simp only [if_neg same, Ne.symm same, used]
    exact .keep

/-- The update of a campaign that is there. -/
theorem update_moves {serverId id : Id} {update : CampaignUpdate} {campaign : Campaign}
    (there : state.tables.getCampaign serverId id = some campaign)
    (promise : update.status ≠ some .sent ∧ update.status ≠ some .failed)
    (planned : ∀ status ∈ update.status, status ≠ .canceled → campaign.status.isPlanned = true)
    (careful : care → ∀ status ∈ update.status, campaign.status.isPlanned = true) :
    Move care (view state id) ⟨some (update.status.getD campaign.status),
      id < state.tables.nextCampaignId,
      state.total (licencesFor id) + (if update.status = some .sending then 1 else 0),
      state.total (conclusionsOf id) + 0⟩ := by
  have before : (view state id).status = some campaign.status := by
    simp only [view, Tables.status, (getCampaign_eq.mp there).1, Option.map_some]
  cases named : update.status with
  | none =>
      simp only [Option.getD_none, ← before]
      exact .keep
  | some status =>
      rw [named] at promise planned careful
      cases status with
      | draft => exact Move.edit .draft before (planned _ rfl (by decide)) rfl
      | scheduled => exact Move.edit .scheduled before (planned _ rfl (by decide)) rfl
      | sending => exact Move.send before (planned _ rfl (by decide))
      | canceled => exact Move.cancel before (fun care => careful care _ rfl)
      | sent => exact absurd rfl promise.1
      | failed => exact absurd rfl promise.2

variable {status : CampaignStatus} {completed : Option Int}

theorem progress_moves {serverId id : Id} (other : Id) {sent : Int}
    (answer : Except StoreError Unit) (progress : status.isProgress = true)
    (held : state.total (conclusionsOf id) < state.total (licencesFor id)) :
    Move care (view state other)
      ⟨(state.tables.setCampaignProgress serverId id sent status completed).status other,
        other < state.tables.nextCampaignId, state.total (licencesFor other),
        state.total (conclusionsOf other) +
          conclusionsOf other ⟨.setCampaignProgress serverId id sent status completed, answer⟩⟩ := by
  simp only [conclusionsOf, Tables.setCampaignProgress]
  by_cases same : id = other
  · subst same
    have counted : (if id = id ∧ status ≠ .sending then 1 else 0) =
        if status = .sending then 0 else 1 := by
      split_ifs <;> simp_all
    rw [counted]
    cases there : state.tables.getCampaign serverId id with
    | none =>
        rw [status_onCampaign_none there]
        exact Move.report status held
    | some campaign =>
        rw [status_onCampaign_self there]
        have before : (view state id).status = some campaign.status := by
          simp only [view, Tables.status, (getCampaign_eq.mp there).1, Option.map_some]
        have moves : Move care (view state id) { view state id with
            status := (view state id).status.map (fun _ => status)
            concluded := (view state id).concluded + if status = .sending then 0 else 1 } :=
          .progress status held progress
        rw [before] at moves
        exact moves
  · rw [status_onCampaign_other (Ne.symm same), if_neg (fun both => same both.1)]
    exact .keep

theorem claim_moves (serverId : Id) (now : Int) (id : Id) :
    Move care (view state id) ⟨(state.tables.claimDueCampaigns serverId now).2.status id,
      id < state.tables.nextCampaignId,
      state.total (licencesFor id) + licencesFor id ⟨.claimDueCampaigns serverId now,
        .ok (state.tables.claimDueCampaigns serverId now).1⟩,
      state.total (conclusionsOf id) + 0⟩ := by
  simp only [licencesFor]
  rcases claimed_cases serverId now id with ⟨none, same⟩ | ⟨one, scheduled, sending⟩
  · rw [none, same]
    exact .keep
  · rw [one, sending]
    exact Move.send scheduled rfl

/-- Progress that could not be recorded. -/
theorem report_moves {serverId id : Id} (other : Id) {sent : Int} (answer : Except StoreError Unit)
    (held : state.total (conclusionsOf id) < state.total (licencesFor id)) :
    Move care (view state other)
      ⟨state.tables.status other, other < state.tables.nextCampaignId,
        state.total (licencesFor other), state.total (conclusionsOf other) +
          conclusionsOf other ⟨.setCampaignProgress serverId id sent status completed, answer⟩⟩ := by
  simp only [conclusionsOf]
  by_cases same : id = other
  · subst same
    have counted : (if id = id ∧ status ≠ .sending then 1 else 0) =
        if status = .sending then 0 else 1 := by
      split_ifs <;> simp_all
    rw [counted]
    exact Move.report status held
  · rw [if_neg (fun both => same both.1)]
    exact .keep

/-- An answered command moves every campaign. -/
theorem answer_moves (balanced : Balanced state) (found : state.requests[index]? = some request)
    (promise : Licensed request.history β command)
    (executed : execute choice command state.tables = some (answer, tables))
    (planned : Planned ⟨state, index, choice, request, command⟩)
    (careful : care → Careful ⟨state, index, choice, request, command⟩) (id : Id) :
    Move care (view state id) (view ({ state with tables := tables }.put index
      (request.continued command answer program)) id) := by
  rw [view_continued found]
  obtain executed := Option.some.inj executed
  cases command with
  | now =>
      obtain ⟨rfl, rfl⟩ := Prod.mk.inj executed
      exact Move.unchanged rfl rfl rfl trivial
  | expandCampaign other =>
      obtain ⟨rfl, rfl⟩ := Prod.mk.inj executed
      exact .keep
  | enqueueSend server other message =>
      obtain ⟨fault, time, refusal⟩ := choice
      cases refusal with
      | some error | none =>
          obtain ⟨rfl, rfl⟩ := Prod.mk.inj executed
          exact .keep
  | createCampaign new =>
      obtain ⟨error, rfl, rfl⟩ | ⟨rfl, rfl⟩ := attempted_ok_cases executed
      · exact Move.unchanged rfl rfl rfl trivial
      · exact create_moves _ id promise
  | updateCampaign serverId other update =>
      obtain ⟨error, rfl, rfl⟩ | ⟨rfl, rfl⟩ := attempted_ok_cases executed
      · exact Move.unchanged rfl rfl rfl trivial
      · cases there : state.tables.getCampaign serverId other with
        | none =>
            exact Move.unchanged (status_onCampaign_none there) rfl rfl trivial
        | some campaign =>
            obtain ⟨own, -⟩ := getCampaign_eq.mp there
            have same : campaign.id = other := findCampaign_id own
            rw [Option.map_some]
            by_cases apart : id = other
            · subst apart
              rw [status_onCampaign_self there]
              simp only [licencesFor, Tables.applyUpdate, same, true_and]
              have change (status) (named : status ∈ update.status) :
                  (status, campaign) ∈ rewritten ⟨state, index, choice, request,
                    .updateCampaign serverId id update⟩ := by
                simp only [rewritten, Option.mem_def.mp named, Option.bind_some, there,
                  Option.map_some, Option.mem_def]
              exact update_moves there promise
                (fun status named active => planned _ (change status named) active)
                (fun care status named => careful care _ (change status named))
            · refine Move.unchanged (status_onCampaign_other apart) rfl ?_ trivial
              exact if_neg (fun both => apart (both.1.symm.trans same))
  | claimDueCampaigns serverId now =>
      obtain ⟨error, rfl, rfl⟩ | ⟨rfl, rfl⟩ := attempted_ok_cases executed
      · exact Move.unchanged rfl rfl rfl trivial
      · exact claim_moves serverId now id
  | setCampaignProgress serverId other sent status completed =>
      have held := balanced.held found promise.2
      obtain ⟨error, rfl, rfl⟩ | ⟨rfl, rfl⟩ := attempted_ok_cases executed
      · exact report_moves id _ held
      · exact progress_moves id _ promise.1 held
  | _ =>
      obtain ⟨error, rfl, rfl⟩ | ⟨rfl, rfl⟩ := attempted_ok_cases executed
      · exact Move.unchanged rfl rfl rfl trivial
      · exact Move.unchanged rfl rfl rfl trivial

end Steps

/-! ## Runs -/

section Runs

variable {debug : Text → Text} {state : CampaignState} {care : Prop}

theorem view_opened (call : Call) (id : Id) :
    view { state with requests := state.requests ++ [(service debug).opened call] } id =
      view state id := by
  simp only [view, State.total_opened]

/-- What others do deletes a campaign at most. -/
theorem disturb_moves (outside : Outside) (id : Id) :
    Move care (view state id) (view { state with tables := disturb outside state.tables } id) := by
  cases outside with
  | subscriptions rows => exact .keep
  | streams rows => exact .keep
  | servers rows => exact .keep
  | deleteCampaigns kept =>
      cases found : (state.tables.campaigns.filter kept).find? (fun campaign => campaign.id = id) with
      | none =>
          have gone : view { state with tables := disturb (.deleteCampaigns kept) state.tables } id =
              { view state id with status := none } := by
            simp only [view, Tables.status, Tables.findCampaign, disturb, found]
            rfl
          rw [gone]
          exact .delete
      | some campaign =>
          have member := List.mem_of_mem_filter (List.mem_of_find?_eq_some found)
          have own : campaign.id = id := by simpa using List.find?_some found
          have still : state.tables.findCampaign id = some campaign := own ▸ findCampaign_mem member
          have same : view { state with tables := disturb (.deleteCampaigns kept) state.tables } id =
              view state id := by
            simp only [view, Tables.status, still]
            simp only [Tables.findCampaign, disturb, found]
            rfl
          rw [same]
          exact .keep

theorem Balanced.opened (balanced : Balanced state) (call : Call) :
    Balanced { state with requests := state.requests ++ [(service debug).opened call] } := by
  intro other request there
  obtain ⟨-, rfl⟩ | old := opened_cases there
  · exact .nil
  · exact balanced other request old

variable {request : Request Call Command ApiError Reply} {tables : Tables} {β : Type}

theorem Balanced.continued {index : Nat} {command : Command β} (balanced : Balanced state)
    (found : state.requests[index]? = some request) (promise : Licensed request.history β command)
    (answer : β) (program : Program Command ApiError Reply) :
    Balanced ({ state with tables := tables }.put index
      (request.continued command answer program)) := by
  intro other request there
  obtain ⟨-, rfl⟩ | ⟨-, old⟩ := State.put_cases there
  · exact (balanced index _ found).answer promise answer
  · exact balanced other request old

/-- What is kept while campaigns are sent and scheduled anew only as long as they are
planned. -/
structure Inv (state : CampaignState) : Prop where
  balanced : Balanced state
  licensed : ∀ id, (view state id).Licensed

theorem Inv.kept : Kept (service debug) (fun _ => Licensed) Planned Inv where
  start := by
    intro state call inv
    refine ⟨inv.balanced.opened call, fun id => ?_⟩
    rw [view_opened]
    exact inv.licensed id
  answer := by
    intro state index choice request β command next answer tables inv found promise executed planned
    refine ⟨inv.balanced.continued found promise answer _, fun id => ?_⟩
    have moves : Move False (view state id) (view ({ state with tables := tables }.put index
        (request.continued command answer (next answer))) id) :=
      answer_moves inv.balanced found promise executed planned (fun absurd => absurd.elim) id
    exact (inv.licensed id).move moves
  disturb := by
    intro state outside tables inv disturbed
    obtain rfl := Option.some.inj disturbed
    refine ⟨inv.balanced, fun id => ?_⟩
    have moves : Move False (view state id) _ := disturb_moves outside id
    exact (inv.licensed id).move moves

theorem Inv.idle (tables : Tables) : Inv (State.idle tables) := by
  refine ⟨?_, fun id => ⟨Nat.zero_le _, fun _ _ _ => rfl, fun unused => ⟨rfl, ?_⟩⟩⟩
  · intro index request there
    simp [State.idle] at there
  · cases found : tables.findCampaign id with
    | none => simp [view, Tables.status, State.idle, found]
    | some campaign =>
        have member := List.mem_of_find?_eq_some found
        have used : campaign.id < tables.nextCampaignId := tables.used campaign member
        rw [findCampaign_id found] at used
        exact absurd used unused

/-- The same invariant with care, and what follows for canceled campaigns. -/
structure CarefulInv (state : CampaignState) : Prop where
  balanced : Balanced state
  orderly : ∀ id, (view state id).Orderly
  off : ∀ (index : Nat) request, state.requests[index]? = some request →
    ∀ entry ∈ request.history, ∀ serverId id, Cancels serverId id entry → (view state id).Off

/-- A campaign that an answer says is canceled is. -/
theorem Cancels.status {choice : Choice} {command : Command β} {answer : β} {after : Tables}
    {serverId id : Id} (cancels : Cancels serverId id ⟨command, answer⟩)
    (executed : execute choice command tables = some (answer, after)) :
    after.status id = some .canceled := by
  obtain executed := Option.some.inj executed
  cases command with
  | updateCampaign otherServer other update =>
      obtain ⟨error, rfl, rfl⟩ | ⟨rfl, rfl⟩ := attempted_ok_cases executed
      · exact cancels.elim
      · cases there : tables.getCampaign otherServer other with
        | none =>
            rw [there] at cancels
            exact cancels.elim
        | some campaign =>
            rw [there] at cancels
            obtain ⟨-, rfl, named⟩ := cancels
            rw [status_onCampaign_self there, Tables.applyUpdate, named]
            rfl
  | _ => exact cancels.elim

theorem View.Orderly.off {view : View} (orderly : view.Orderly)
    (canceled : view.status = some .canceled) : view.Off := by
  refine ⟨?_, orderly.canceled canceled, fun status same => ?_⟩
  · by_contra unused
    rw [(orderly.unused unused).2] at canceled
    cases canceled
  · exact Option.some.inj (same.symm.trans canceled)

theorem Careful.planned {due : Due Tables Call Choice Command ApiError Reply}
    (careful : Careful due) : Planned due :=
  fun change member _ => careful change member

theorem CarefulInv.moves {index : Nat} {choice : Choice} {command : Command β} {answer : β}
    (inv : CarefulInv state) (found : state.requests[index]? = some request)
    (promise : Licensed request.history β command)
    (executed : execute choice command state.tables = some (answer, tables))
    (careful : Careful ⟨state, index, choice, request, command⟩)
    (program : Program Command ApiError Reply) (id : Id) :
    Move True (view state id) (view ({ state with tables := tables }.put index
      (request.continued command answer program)) id) :=
  answer_moves inv.balanced found promise executed careful.planned (fun _ => careful) id

theorem CarefulInv.kept :
    Kept (service debug) (fun _ => Licensed) Careful CarefulInv where
  start := by
    intro state call inv
    refine ⟨inv.balanced.opened call, fun id => ?_, ?_⟩
    · rw [view_opened]
      exact inv.orderly id
    · intro other request there entry member serverId id cancels
      rw [view_opened]
      obtain ⟨-, rfl⟩ | old := opened_cases there
      · cases member
      · exact inv.off other request old entry member serverId id cancels
  answer := by
    intro state index choice request β command next answer tables inv found promise executed careful
    have moves := inv.moves found promise executed careful (next answer)
    refine ⟨inv.balanced.continued found promise answer _,
      fun id => (inv.orderly id).move trivial (moves id), ?_⟩
    intro other request there entry member serverId id cancels
    obtain ⟨-, rfl⟩ | ⟨-, old⟩ := State.put_cases there
    · rcases List.mem_append.mp member with old | new
      · exact (inv.off index _ found entry old serverId id cancels).move (moves id)
      · obtain rfl := List.mem_singleton.mp new
        exact ((inv.orderly id).move trivial (moves id)).off (cancels.status executed)
    · exact (inv.off other request old entry member serverId id cancels).move (moves id)
  disturb := by
    intro state outside tables inv disturbed
    obtain rfl := Option.some.inj disturbed
    refine ⟨inv.balanced, fun id => ?_, ?_⟩
    · exact (inv.orderly id).move trivial (disturb_moves outside id)
    · intro other request there entry member serverId id cancels
      have moves : Move True (view state id) _ := disturb_moves outside id
      exact (inv.off other request there entry member serverId id cancels).move moves

theorem CarefulInv.idle (tables : Tables) : CarefulInv (State.idle tables) := by
  have inv := Inv.idle tables
  refine ⟨inv.balanced, fun id => ⟨inv.licensed id, Nat.le_refl _, ?_, fun _ => rfl⟩, ?_⟩
  · intro more
    exact absurd more (Nat.lt_irrefl _)
  · intro index request there
    simp [State.idle] at there

variable {action : Requests.Action Call Choice Outside} {after : CampaignState}

/-- A step with care moves every campaign. -/
theorem CarefulInv.step_moves {output : Unit} (inv : CarefulInv state)
    (faithful : Faithful (fun _ => Licensed) Finished state)
    (reaction : (service debug).step state action = some (output, after))
    (careful : Answering Careful ⟨state, action, output, after⟩) (id : Id) :
    Move True (view state id) (view after id) := by
  obtain ⟨call, rfl, rfl⟩ | ⟨index, choice, request, β, command, next, answer, tables, rfl, found,
    sends, executed, rfl⟩ | ⟨outside, tables, rfl, disturbed, rfl⟩ := (service debug).step_cases reaction
  · rw [view_opened]
    exact .keep
  · have promise := faithful index request found
    rw [sends] at promise
    exact inv.moves found promise.1 executed (careful _ (due_answer found sends)) _ id
  · obtain rfl := Option.some.inj disturbed
    exact disturb_moves outside id

/-- Whether a request is a cancellation of a campaign that has been answered with success. -/
def canceledBy (id : Id) (request : Request Call Command ApiError Reply) : Bool :=
  match request.call, request.program with
  | .serverCampaignCancel _ other, .done _ => other = id
  | _, _ => false

def cancelAnswered (state : CampaignState) (id : Id) : Bool :=
  state.requests.any (canceledBy id)

theorem CarefulInv.called_off {id : Id} (inv : CarefulInv state)
    (faithful : Faithful (fun _ => Licensed) Finished state)
    (answered : cancelAnswered state id = true) : (view state id).Off := by
  obtain ⟨request, member, canceled⟩ := List.any_eq_true.mp answered
  obtain ⟨index, there⟩ := List.mem_iff_getElem?.mp member
  have finished := faithful index request there
  unfold canceledBy at canceled
  split at canceled
  · next server other reply call done =>
      obtain rfl : other = id := by simpa using canceled
      rw [call, done] at finished
      obtain ⟨entry, member, cancels⟩ := finished
      exact inv.off index request there entry member server.id other cancels
  · cases canceled

/-- Whether a command sends a message of a campaign. -/
def messageOf (id : Id) : Answered Command → Bool
  | ⟨.enqueueSend _ other _, _⟩ => other = id
  | _ => false

/-- No message of a campaign that is off is sent. -/
theorem CarefulInv.silent {output : Unit} {id : Id} (inv : CarefulInv state)
    (faithful : Faithful (fun _ => Licensed) Finished state)
    (reaction : (service debug).step state action = some (output, after))
    (off : (view state id).Off) :
    ∀ entry ∈ answered (⟨state, action, output, after⟩ :
        Event Tables Call Choice Outside Command ApiError Reply),
      messageOf id entry.2 = false := by
  obtain ⟨call, rfl, rfl⟩ | ⟨index, choice, request, β, command, next, answer, tables, rfl, found,
    sends, executed, rfl⟩ | ⟨outside, tables, rfl, disturbed, rfl⟩ := (service debug).step_cases reaction
  · rintro entry ⟨⟩
  · have promise := faithful index request found
    rw [sends] at promise
    intro entry answers
    rw [answered_continued found] at answers
    obtain rfl := Option.some.inj answers
    cases command with
    | enqueueSend server other message =>
        rw [messageOf, decide_eq_false_iff_not]
        rintro rfl
        have held := inv.balanced.held found promise.1.1
        have none : state.total (licencesFor other) = 0 := off.licences
        omega
    | _ => rfl
  · rintro entry ⟨⟩

end Runs

/-! ## One campaign and two requests -/

def exampleCampaign : Campaign where
  id := 5
  serverId := 1
  streamId := 3
  name := none
  subject := none
  fromAddress := some "me@a.example".toList
  htmlBody := none
  textBody := some ['t']
  status := .draft
  total := 0
  sent := 0
  scheduledAt := none
  createdAt := none
  completedAt := none

def exampleServer : Server :=
  { id := 1, organizationId := 1, permalink := ['s'], token := ['t'], suspended := false
    privacyMode := false, allowSender := false, sendLimit := none }

/-- A draft for a stream with one subscriber. -/
def exampleTables : Tables where
  servers := [exampleServer]
  streams := [(1, ⟨3, ['n'], "broadcast", false⟩)]
  subscriptions := ⟨[⟨1, 3, "x@y.example", .subscribed⟩], by decide⟩
  campaigns := [exampleCampaign]
  nextCampaignId := 6
  messages := []
  distinct := by decide
  used := by decide

abbrev CampaignAction := Requests.Action Call Choice Outside

def sendDraft : CampaignAction := .start (.serverCampaignSend exampleServer 5)

def cancelDraft : CampaignAction := .start (.serverCampaignCancel exampleServer 5)

/-- A number of answers to a request. -/
def answers (index count : Nat) : List CampaignAction :=
  List.replicate count (.answer index {})

end Camelmailer.Api.Campaigns
