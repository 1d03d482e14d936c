import Camelmailer.Worker.MessageTables
import Camelmailer.Machine
import Camelmailer.Sorting
import Mathlib.Data.List.AList
import Mathlib.Data.List.Dedup
import Mathlib.Data.Prod.Lex

/-!
# The turns of the servers

A dequeue lists the servers that have ready mail, the least busy ones first and no more than a
thousand. It tries them in an order that puts those first that have been served longest ago, and
locks a message of the first one that still has one. When each server was served is remembered in
a table; when that has grown over ten thousand, it is emptied.

A server that waits is served between two services of another one if it is on the list and the
table is not emptied in between. The thousand first servers on the list can keep the next one
waiting for as long as they have mail.
-/

namespace Camelmailer.Worker.FairQueue

open Utf8 Machine Sorting

/-! ## What a worker serves -/

/-- Which kind of mail a worker delivers. -/
inductive QueueKind where
  | all
  | transactional
  | bulk
deriving DecidableEq

/-- The part of the queue that a worker serves. -/
structure QueueFilter where
  servers : Option (List Id) := none
  excludeServers : List Id := []
  kind : QueueKind := .all
deriving DecidableEq

namespace QueueFilter

def bulkParam (filter : QueueFilter) : Option Bool :=
  match filter.kind with
  | .all => none
  | .transactional => some false
  | .bulk => some true

/-- The conditions that the filter puts on a row of the list. -/
def admits (filter : QueueFilter) (row : QueueRow) : Bool :=
  filter.servers.all (fun ids => decide (row.serverId ∈ ids)) &&
    decide (row.serverId ∉ filter.excludeServers) &&
    filter.bulkParam.all (fun bulk => row.bulk = bulk)

end QueueFilter

/-! ## Turns -/

/-- When a queue last served each server, as a turn number. -/
structure Turns where
  counter : Nat
  last : AList (fun _ : Id => Nat)

namespace Turns

def new : Turns := ⟨0, ∅⟩

def lastServed (turns : Turns) (serverId : Id) : Option Nat := turns.last.lookup serverId

/-- `served`. When too many servers are remembered, all of them are forgotten first. -/
def served (turns : Turns) (serverId : Id) : Turns :=
  let last := if turns.last.entries.length > 10000 then ∅ else turns.last
  ⟨turns.counter + 1, last.insert serverId turns.counter⟩

/-- Every turn that is remembered has been given out. -/
def Past (turns : Turns) : Prop :=
  ∀ serverId, ∀ turn ∈ turns.lastServed serverId, turn < turns.counter

/-- A server has been served, and another one not since then. -/
def Behind (busy waiting : Id) (turns : Turns) : Prop :=
  ∃ turn, turns.lastServed busy = some turn ∧ ∀ earlier ∈ turns.lastServed waiting, earlier < turn

end Turns

/-! ## One dequeue -/

/-- What a statement sees: the time, and the rows that no other transaction holds. -/
structure View where
  now : DateTime
  rows : List QueueRow

/-- What the statements of one dequeue see: that which lists the servers, and for each server that
which locks one of its rows. -/
structure Sight where
  listing : View
  attempt : Id → View

/-- A server with ready mail, as seen by one dequeue. -/
structure Candidate where
  serverId : Id
  inFlight : Nat
  oldest : Nat
deriving DecidableEq

section Dequeue

variable (filter : QueueFilter) (window : Int) (view : View)

/-- The rows that are ready and in the worker's part of the queue. -/
def View.ready : List QueueRow :=
  view.rows.filter (fun row => row.isReady view.now window && filter.admits row)

/-- How many messages of a server workers hold. -/
def View.inFlight (serverId : Id) : Nat :=
  view.rows.countP (fun row => row.serverId = serverId && row.lockedBy.isSome &&
    row.lockedAt.any (fun since => view.now - window ≤ since))

/-- The identifier of a server's oldest ready message. -/
def View.oldest (serverId : Id) : Nat :=
  (((view.ready filter window).filter (fun row => row.serverId = serverId)).map
    QueueRow.id).min?.getD 0

def View.candidate (serverId : Id) : Candidate :=
  ⟨serverId, view.inFlight window serverId, view.oldest filter window serverId⟩

/-- The servers with ready mail. -/
def View.candidates : List Candidate :=
  ((view.ready filter window).map QueueRow.serverId).dedup.map (view.candidate filter window)

/-- The order of the list. -/
def Candidate.age (candidate : Candidate) : Nat ×ₗ Nat :=
  toLex (candidate.inFlight, candidate.oldest)

/-- The first statement: the servers with ready mail, but no more than a thousand. -/
def View.listed : List Candidate :=
  (sortByKey Candidate.age (view.candidates filter window)).take 1000

/-- The order in which the servers are tried. -/
def Candidate.turn (lastServed : Id → Option Nat) (candidate : Candidate) : Nat ×ₗ Nat ×ₗ Nat :=
  toLex (candidate.inFlight,
    toLex ((lastServed candidate.serverId).elim 0 (fun turn => turn + 1), candidate.oldest))

def turnOrder (candidates : List Candidate) (lastServed : Id → Option Nat) : List Id :=
  (sortByKey (Candidate.turn lastServed) candidates).map Candidate.serverId

/-- Transactional mail goes before bulk mail, and then older mail before newer. -/
def kindOrder (row : QueueRow) : Bool ×ₗ Nat := toLex (row.bulk, row.id)

/-- The row that the second statement locks: the first ready one of a server. -/
def View.firstReady (serverId : Id) : Option QueueRow :=
  (sortByKey kindOrder (view.rows.filter (fun row => row.serverId = serverId &&
    row.isReady view.now window && filter.bulkParam.all (fun bulk => row.bulk = bulk)))).head?

/-- A row that a worker has locked. -/
def lockedRow (worker : Text) (now : DateTime) (row : QueueRow) : QueueRow :=
  { row with lockedBy := some worker, lockedAt := some now }

/-- `PgQueue::dequeue`. A server whose mail has been taken since it was listed is skipped. -/
def dequeue (worker : Text) (turns : Turns) (sight : Sight) : Option QueueRow × Turns :=
  match (turnOrder (sight.listing.listed filter window) turns.lastServed).findSome?
      (fun serverId => (sight.attempt serverId).firstReady filter window serverId) with
  | some row =>
      (some (lockedRow worker (sight.attempt row.serverId).now row), turns.served row.serverId)
  | none => (none, turns)

/-- A queue as a machine that reacts to what its dequeues see. -/
def step (worker : Text) (turns : Turns) (sight : Sight) : Option (Option QueueRow × Turns) :=
  some (dequeue filter window worker turns sight)

end Dequeue

namespace Turns

variable {turns : Turns} {serverId other busy waiting : Id}

theorem past_new : new.Past := by
  intro serverId turn remembered
  simp [new, lastServed] at remembered

/-- What is remembered after a service. -/
theorem lastServed_served : (turns.served serverId).lastServed other =
    if other = serverId then some turns.counter
    else if turns.last.entries.length > 10000 then none
    else turns.lastServed other := by
  unfold lastServed Turns.served
  by_cases same : other = serverId
  · subst same
    simp
  · rw [AList.lookup_insert_ne same]
    split_ifs with full
    · rfl
    · rfl

theorem Past.served (past : turns.Past) : (turns.served serverId).Past := by
  intro other turn remembered
  have next : (turns.served serverId).counter = turns.counter + 1 := rfl
  rw [lastServed_served] at remembered
  split_ifs at remembered with same full
  · obtain rfl : turns.counter = turn := by simpa using remembered
    omega
  · simp at remembered
  · have earlier := past other turn remembered
    omega

/-- A service puts the server behind it that waits. -/
theorem behind_served (past : turns.Past) (distinct : waiting ≠ busy) :
    Behind busy waiting (turns.served busy) := by
  refine ⟨turns.counter, by simp [lastServed_served], ?_⟩
  intro earlier remembered
  rw [lastServed_served, if_neg distinct] at remembered
  split_ifs at remembered with full
  · simp at remembered
  · exact past waiting earlier remembered

/-- The one that waits stays behind for as long as it is not served and nobody is forgotten. -/
theorem Behind.served (behind : Behind busy waiting turns) (past : turns.Past)
    (passed : other ≠ waiting) (room : turns.last.entries.length ≤ 10000) :
    Behind busy waiting (turns.served other) := by
  obtain ⟨turn, last, before⟩ := behind
  have kept : ∀ earlier ∈ (turns.served other).lastServed waiting, earlier < turn := by
    intro earlier remembered
    rw [lastServed_served, if_neg passed.symm, if_neg (by omega)] at remembered
    exact before earlier remembered
  by_cases same : busy = other
  · refine ⟨turns.counter, by simp [lastServed_served, same], ?_⟩
    intro earlier remembered
    have least := kept earlier remembered
    have most := past busy turn last
    omega
  · refine ⟨turn, ?_, kept⟩
    rw [lastServed_served, if_neg same, if_neg (by omega)]
    exact last

end Turns

section Spec

variable {filter : QueueFilter} {window : Int} {worker : Text} {view : View} {turns after : Turns}
  {sight : Sight} {row : QueueRow} {serverId : Id} {candidate : Candidate}

theorem mem_ready : row ∈ view.ready filter window ↔
    row ∈ view.rows ∧ row.isReady view.now window = true ∧ filter.admits row = true := by
  simp [View.ready]

theorem mem_candidates : candidate ∈ view.candidates filter window ↔
    candidate = view.candidate filter window candidate.serverId ∧
      ∃ row ∈ view.ready filter window, row.serverId = candidate.serverId := by
  simp only [View.candidates, List.mem_map, List.mem_dedup]
  constructor
  · rintro ⟨serverId, ⟨row, ready, rfl⟩, rfl⟩
    exact ⟨rfl, row, ready, rfl⟩
  · rintro ⟨own, row, ready, same⟩
    exact ⟨candidate.serverId, ⟨row, ready, same⟩, own.symm⟩

/-- The row that is locked is a ready one of the server, and none of those comes before it. -/
theorem firstReady_spec (found : view.firstReady filter window serverId = some row) :
    (row ∈ view.rows ∧ row.serverId = serverId ∧ row.isReady view.now window = true) ∧
      ∀ other ∈ view.ready filter window, other.serverId = serverId →
        kindOrder row ≤ kindOrder other := by
  obtain ⟨member, least⟩ := head_sortByKey found
  simp only [List.mem_filter, Bool.and_eq_true, decide_eq_true_eq] at member
  refine ⟨⟨member.1, member.2.1.1, member.2.1.2⟩, ?_⟩
  intro other ready own
  obtain ⟨there, due, admitted⟩ := mem_ready.mp ready
  simp only [QueueFilter.admits, Bool.and_eq_true] at admitted
  exact least other (List.mem_filter.mpr ⟨there, by simp [own, due, admitted.2]⟩)

theorem firstReady_isSome (ready : ∃ row ∈ view.ready filter window, row.serverId = serverId) :
    (view.firstReady filter window serverId).isSome = true := by
  obtain ⟨row, ready, own⟩ := ready
  obtain ⟨there, due, admitted⟩ := mem_ready.mp ready
  simp only [QueueFilter.admits, Bool.and_eq_true] at admitted
  rw [View.firstReady, List.isSome_head?]
  intro empty
  have member : row ∈ sortByKey kindOrder (view.rows.filter (fun row => row.serverId = serverId &&
      row.isReady view.now window && filter.bulkParam.all (fun bulk => row.bulk = bulk))) :=
    mem_sortByKey.mpr (List.mem_filter.mpr ⟨there, by simp [own, due, admitted.2]⟩)
  simp [empty] at member

/-- What a dequeue that locks a row has done: the row is the first one of a server on the list
whose turn it is, and the server has been served. -/
theorem dequeue_some (locked : dequeue filter window worker turns sight = (some row, after)) :
    after = turns.served row.serverId ∧
      (∃ picked, (sight.attempt row.serverId).firstReady filter window row.serverId = some picked ∧
        row = lockedRow worker (sight.attempt row.serverId).now picked) ∧
      ∃ candidate ∈ sight.listing.listed filter window, candidate.serverId = row.serverId ∧
        ∀ other ∈ sight.listing.listed filter window,
          ((sight.attempt other.serverId).firstReady filter window other.serverId).isSome = true →
          candidate.turn turns.lastServed ≤ other.turn turns.lastServed := by
  unfold dequeue at locked
  split at locked
  · next picked found =>
      obtain ⟨rfl, rfl⟩ : _ = row ∧ _ = after := by simpa using locked
      rw [turnOrder, List.findSome?_map] at found
      obtain ⟨candidate, member, own, least⟩ := findSome_sortByKey found
      have of_candidate : picked.serverId = candidate.serverId := (firstReady_spec own).1.2.1
      refine ⟨rfl, ⟨picked, ?_, rfl⟩, candidate, member, of_candidate.symm, least⟩
      change (sight.attempt picked.serverId).firstReady filter window picked.serverId = _
      rw [of_candidate]
      exact own
  · simp at locked

theorem dequeue_none (nothing : dequeue filter window worker turns sight = (none, after)) :
    after = turns ∧ ∀ candidate ∈ sight.listing.listed filter window,
      (sight.attempt candidate.serverId).firstReady filter window candidate.serverId = none := by
  unfold dequeue at nothing
  split at nothing
  · simp at nothing
  · next missing =>
      obtain rfl : turns = after := by simpa using nothing
      refine ⟨rfl, ?_⟩
      rw [turnOrder, List.findSome?_map, List.findSome?_eq_none_iff] at missing
      exact fun candidate member => missing candidate (mem_sortByKey.mpr member)

/-- The tables allow what is done: where the second statement sees the queue as it is, the row that
has been picked is taken up and locked. -/
theorem dequeue_refines {tables : Tables} {serverId : Id} {picked : QueueRow}
    (found : View.firstReady filter window ⟨tables.now, tables.queue.rows⟩ serverId = some picked) :
    tables.dequeue worker window (some picked.id) =
      (some (lockedRow worker tables.now picked),
        { tables with queue := tables.queue.replace (lockedRow worker tables.now picked) }) := by
  obtain ⟨member, -, due⟩ := (firstReady_spec found).1
  have placed : tables.queue.find picked.id = some picked := Db.Table.find_of_mem member
  have kept : (some picked).filter (fun row => row.isReady tables.now window) = some picked := by
    simpa using due
  rw [Tables.dequeue, Option.bind_some, placed, kept]
  rfl

end Spec

/-! ## Turns in a run -/

section Fair

variable (filter : QueueFilter) (window : Int)

/-- A server has ready mail in both statements of a dequeue, and no server with ready mail has
less in flight. -/
structure Waits (waiting : Id) (sight : Sight) : Prop where
  listed : ∃ row ∈ sight.listing.ready filter window, row.serverId = waiting
  ready : ∃ row ∈ (sight.attempt waiting).ready filter window, row.serverId = waiting
  idle : ∀ candidate ∈ sight.listing.candidates filter window,
    sight.listing.inFlight window waiting ≤ candidate.inFlight

/-- No more than a thousand servers with ready mail come up to a server: itself, those with less
in flight, and those with as much in flight whose oldest mail is at least as old. -/
def Within (waiting : Id) (sight : Sight) : Prop :=
  (sight.listing.candidates filter window).countP (fun candidate =>
    candidate.age ≤ (sight.listing.candidate filter window waiting).age) ≤ 1000

instance (waiting : Id) (sight : Sight) : Decidable (Within filter window waiting sight) :=
  inferInstanceAs (Decidable (_ ≤ _))

variable {filter window} {worker : Text} {waiting busy : Id} {turns after : Turns} {sight : Sight}
  {row : QueueRow}

theorem Waits.mem_candidates (waits : Waits filter window waiting sight) :
    sight.listing.candidate filter window waiting ∈ sight.listing.candidates filter window :=
  FairQueue.mem_candidates.mpr ⟨rfl, waits.listed⟩

theorem Waits.mem_listed (waits : Waits filter window waiting sight)
    (within : Within filter window waiting sight) :
    sight.listing.candidate filter window waiting ∈ sight.listing.listed filter window :=
  mem_take_sortByKey waits.mem_candidates within

/-- A server that waits and is on the list is not passed over for one that has been served since
it was. -/
theorem Waits.not_passed (waits : Waits filter window waiting sight)
    (within : Within filter window waiting sight) (behind : Turns.Behind busy waiting turns)
    (locked : dequeue filter window worker turns sight = (some row, after)) :
    row.serverId ≠ busy := by
  rintro rfl
  obtain ⟨-, -, candidate, member, own, least⟩ := dequeue_some locked
  have first := least _ (waits.mem_listed within) (firstReady_isSome waits.ready)
  have lighter := waits.idle candidate (mem_sortByKey.mp (List.mem_of_mem_take member))
  obtain ⟨turn, last, earlier⟩ := behind
  rw [← own] at last
  rcases Prod.Lex.toLex_le_toLex.mp first with fewer | ⟨-, sooner⟩
  · exact absurd fewer (Nat.not_lt.mpr lighter)
  · simp only [last, Option.elim_some, View.candidate] at sooner
    cases remembered : turns.lastServed waiting with
    | none =>
        rw [remembered] at sooner
        rcases Prod.Lex.toLex_le_toLex.mp sooner with less | ⟨same, -⟩
        · exact absurd less (Nat.not_lt_zero _)
        · exact absurd same (Nat.succ_ne_zero _)
    | some before =>
        have order := earlier before remembered
        rw [remembered, Option.elim_some] at sooner
        rcases Prod.Lex.toLex_le_toLex.mp sooner with less | ⟨same, -⟩ <;> omega

/-- A server's bulk mail is taken when none of its transactional mail is ready. -/
theorem bulk_last (locked : dequeue filter window worker turns sight = (some row, after))
    (bulk : row.bulk = true) :
    ∀ other ∈ (sight.attempt row.serverId).ready filter window, other.serverId = row.serverId →
      other.bulk = true := by
  intro other ready own
  obtain ⟨-, ⟨picked, found, made⟩, -⟩ := dequeue_some locked
  have same : picked.bulk = row.bulk := by rw [made]; rfl
  have kinds : picked.bulk ≤ other.bulk :=
    Prod.Lex.monotone_fst _ _ ((firstReady_spec found).2 other ready own)
  rw [same, bulk] at kinds
  exact le_antisymm (Bool.le_true _) kinds

/-- One dequeue keeps what is remembered in order, and the server that waits behind. -/
theorem dequeue_behind {output : Option QueueRow} (past : turns.Past)
    (behind : Turns.Behind busy waiting turns)
    (reaction : dequeue filter window worker turns sight = (output, after))
    (passed : output.map QueueRow.serverId ≠ some waiting)
    (room : turns.last.entries.length ≤ 10000) : after.Past ∧ Turns.Behind busy waiting after := by
  cases output with
  | none =>
      obtain ⟨rfl, -⟩ := dequeue_none reaction
      exact ⟨past, behind⟩
  | some row =>
      obtain ⟨rfl, -, -⟩ := dequeue_some reaction
      exact ⟨past.served, behind.served past (fun same => passed (congrArg some same)) room⟩

theorem dequeue_past {output : Option QueueRow} (past : turns.Past)
    (reaction : dequeue filter window worker turns sight = (output, after)) : after.Past := by
  cases output with
  | none =>
      obtain ⟨rfl, -⟩ := dequeue_none reaction
      exact past
  | some row =>
      obtain ⟨rfl, -, -⟩ := dequeue_some reaction
      exact past.served

/-- In every run, between two services of one server any other one is served that has ready mail
at every dequeue from the first service to the second, never more in flight than any server with
ready mail, is not kept off the list, and is not forgotten in between. And no bulk mail of a
server is taken while transactional mail of it is ready. -/
theorem served_between {filter : QueueFilter} {window : Int} {worker : Text} {sights : List Sight}
    {events : List (Event Turns Sight (Option QueueRow))} {final : Turns}
    (ran : run (step filter window worker) .new sights = some (events, final)) :
    (∀ front middle back first second busy waiting,
      events = front ++ first :: (middle ++ second :: back) →
      first.output.map QueueRow.serverId = some busy →
      second.output.map QueueRow.serverId = some busy → waiting ≠ busy →
      (∀ event ∈ first :: (middle ++ [second]), Waits filter window waiting event.input) →
      (∀ event ∈ first :: (middle ++ [second]), Within filter window waiting event.input) →
      (∀ event ∈ middle, event.before.last.entries.length ≤ 10000) →
      ∃ event ∈ middle, event.output.map QueueRow.serverId = some waiting) ∧
    ∀ event ∈ events, ∀ row, event.output = some row → row.bulk = true →
      ∀ other ∈ (event.input.attempt row.serverId).ready filter window,
        other.serverId = row.serverId → other.bulk = true := by
  constructor
  · intro front middle back first second busy waiting split served_first served_second distinct
      waits within room
    subst split
    by_contra unserved
    push Not at unserved
    have past : ∀ turns, Reached _ final turns → turns.Past :=
      run_reaches
        (fun before input output after held reaction _ => dequeue_past held (Option.some.inj reaction))
        Turns.past_new ran (fun _ _ => trivial : ∀ event ∈ _, True)
    obtain ⟨⟨-, behind⟩, reaction⟩ := run_since
      (P := fun turns => turns.Past ∧ Turns.Behind busy waiting turns)
      (fun event reaction held (keeps : event.output.map QueueRow.serverId ≠ some waiting ∧
          event.before.last.entries.length ≤ 10000) =>
        dequeue_behind held.1 held.2 (Option.some.inj reaction) keeps.1 keeps.2)
      ran
      (by
        intro reaction
        obtain ⟨row, locked, rfl⟩ := Option.map_eq_some_iff.mp served_first
        have started : first.before.Past := past _ (.inr ⟨first, by simp, rfl⟩)
        rw [locked] at reaction
        obtain ⟨after, -, -⟩ := dequeue_some (Option.some.inj reaction)
        rw [after]
        exact ⟨started.served, Turns.behind_served started distinct⟩)
      (fun event member => ⟨unserved event member, room event member⟩)
    obtain ⟨row, locked, own⟩ := Option.map_eq_some_iff.mp served_second
    rw [locked] at reaction
    exact (waits second (by simp)).not_passed (within second (by simp)) behind
      (Option.some.inj reaction) own
  · intro event member row locked bulk
    have reaction := run_reaction ran member
    rw [locked] at reaction
    exact bulk_last (Option.some.inj reaction) bulk

end Fair

/-! ## Two servers, and a thousand and one -/

/-- A message that is ready. -/
def waitingRow (serverId : Id) : QueueRow where
  id := serverId
  messageId := serverId
  serverId := serverId
  domain := "example.com"
  bulk := false

/-- The servers `1` to `count` have one ready message each, the later ones newer ones. Nothing is
in flight, and no other worker takes anything. -/
def crowd (count : Nat) : Sight :=
  let view : View := ⟨0, (List.range' 1 count).map waitingRow⟩
  ⟨view, fun _ => view⟩

/-- One day. -/
def day : Int := minutes 1440

theorem second_server_served : ∃ events final,
    run (step {} day "worker") .new (List.replicate 3 (crowd 2)) = some (events, final) ∧
      ∃ event ∈ events, event.output.map QueueRow.serverId = some 2 := by
  have ran : run (step {} day "worker") .new (List.replicate 3 (crowd 2)) = some (_, _) := rfl
  refine ⟨_, _, ran, ?_⟩
  have waits : Waits {} day 2 (crowd 2) :=
    ⟨⟨waitingRow 2, by decide, rfl⟩, ⟨waitingRow 2, by decide, rfl⟩, by decide⟩
  obtain ⟨event, member, own⟩ := (served_between ran).1 [] [_] [] _ _ 1 2 rfl rfl rfl (by decide)
    (by simpa using waits) (by decide) (by decide)
  exact ⟨event, by simp [List.mem_singleton.mp member], own⟩

section Crowd

variable {count serverId : Nat}

theorem crowd_ready : (crowd count).listing.ready {} day = (List.range' 1 count).map waitingRow := by
  refine List.filter_eq_self.mpr ?_
  intro row member
  obtain ⟨serverId, -, rfl⟩ := List.mem_map.mp member
  rfl

theorem crowd_inFlight : (crowd count).listing.inFlight day serverId = 0 := by
  refine List.countP_eq_zero.mpr ?_
  intro row member
  obtain ⟨other, -, rfl⟩ := List.mem_map.mp member
  simp [waitingRow]

theorem crowd_candidate (member : serverId ∈ List.range' 1 count) :
    (crowd count).listing.candidate {} day serverId = ⟨serverId, 0, serverId⟩ := by
  have oldest : (crowd count).listing.oldest {} day serverId = serverId := by
    have least : ((((List.range' 1 count).map waitingRow).filter
        (fun row => row.serverId = serverId)).map QueueRow.id).min? = some serverId := by
      refine List.min?_eq_some_iff.mpr ⟨?_, ?_⟩
      · exact List.mem_map.mpr ⟨waitingRow serverId,
          List.mem_filter.mpr ⟨List.mem_map_of_mem member, by simp [waitingRow]⟩, rfl⟩
      · intro id there
        obtain ⟨row, kept, rfl⟩ := List.mem_map.mp there
        obtain ⟨made, own⟩ := List.mem_filter.mp kept
        obtain ⟨other, -, rfl⟩ := List.mem_map.mp made
        have same : other = serverId := of_decide_eq_true own
        exact Nat.le_of_eq same.symm
    rw [View.oldest, crowd_ready, least]
    rfl
  rw [View.candidate, crowd_inFlight, oldest]

theorem crowd_candidates : (crowd count).listing.candidates {} day =
    (List.range' 1 count).map (fun serverId => ⟨serverId, 0, serverId⟩) := by
  have own : QueueRow.serverId ∘ waitingRow = id := rfl
  rw [View.candidates, crowd_ready, List.map_map, own, List.map_id,
    List.Nodup.dedup List.nodup_range']
  exact List.map_congr_left (fun serverId member => crowd_candidate member)

theorem crowd_waits (member : serverId ∈ List.range' 1 count) :
    Waits {} day serverId (crowd count) := by
  have ready : ∃ row ∈ (crowd count).listing.ready {} day, row.serverId = serverId :=
    ⟨waitingRow serverId, crowd_ready ▸ List.mem_map_of_mem member, rfl⟩
  refine ⟨ready, ready, ?_⟩
  rw [crowd_inFlight]
  exact fun candidate _ => Nat.zero_le _

/-- The server with the newest mail is not on the list. -/
theorem crowd_listed {candidate : Candidate}
    (member : candidate ∈ (crowd 1001).listing.listed {} day) :
    candidate.serverId ∈ List.range' 1 1000 := by
  have ahead : 1000 ≤ ((crowd 1001).listing.candidates {} day).countP
      (fun other => other.age < Candidate.age ⟨1001, 0, 1001⟩) := by
    rw [crowd_candidates, show List.range' 1 1001 = List.range' 1 1000 ++ [1001] from
      List.range'_concat, List.map_append, List.countP_append]
    refine Nat.le_add_right_of_le (Nat.le_of_eq ?_)
    rw [List.countP_eq_length.mpr, List.length_map, List.length_range']
    intro other there
    obtain ⟨serverId, within, rfl⟩ := List.mem_map.mp there
    have bound := (List.mem_range'_1.mp within).2
    simp only [Candidate.age, decide_eq_true_eq, Prod.Lex.toLex_lt_toLex]
    exact .inr ⟨trivial, by omega⟩
  have there := mem_sortByKey.mp (List.mem_of_mem_take member)
  rw [crowd_candidates] at there
  obtain ⟨serverId, within, rfl⟩ := List.mem_map.mp there
  have bound := List.mem_range'_1.mp within
  have other : serverId ≠ 1001 := by
    rintro rfl
    exact not_mem_take_sortByKey ahead member
  change serverId ∈ List.range' 1 1000
  exact List.mem_range'_1.mpr (by omega)

/-- Every dequeue serves one of the first thousand servers. -/
theorem crowd_dequeue (worker : Text) (turns : Turns) : ∃ row after,
    dequeue {} day worker turns (crowd 1001) = (some row, after) ∧
      row.serverId ∈ List.range' 1 1000 := by
  rcases reaction : dequeue {} day worker turns (crowd 1001) with ⟨_ | row, after⟩
  · obtain ⟨-, missing⟩ := dequeue_none reaction
    have filled : 0 < ((crowd 1001).listing.listed {} day).length := by
      rw [View.listed, List.length_take, (perm_sortByKey _ _).length_eq, crowd_candidates,
        List.length_map, List.length_range']
      exact Nat.lt_min.mpr ⟨by decide, by decide⟩
    obtain ⟨candidate, member⟩ := List.exists_mem_of_length_pos filled
    have bound := List.mem_range'_1.mp (crowd_listed member)
    have waits : Waits {} day candidate.serverId (crowd 1001) :=
      crowd_waits (List.mem_range'_1.mpr (by omega))
    have found := firstReady_isSome waits.ready
    rw [missing candidate member] at found
    simp at found
  · obtain ⟨-, -, candidate, member, own, -⟩ := dequeue_some reaction
    exact ⟨row, after, rfl, own ▸ crowd_listed member⟩

theorem crowd_run (worker : Text) (number : Nat) (turns : Turns) : ∃ events final,
    run (step {} day worker) turns (List.replicate number (crowd 1001)) = some (events, final) ∧
      events.length = number ∧ ∀ event ∈ events, event.input = crowd 1001 ∧
        ∃ row, event.output = some row ∧ row.serverId ∈ List.range' 1 1000 := by
  induction number generalizing turns with
  | zero => exact ⟨[], turns, rfl, rfl, by simp⟩
  | succ number ih =>
      obtain ⟨row, after, reaction, bound⟩ := crowd_dequeue worker turns
      obtain ⟨events, final, ran, long, all⟩ := ih after
      refine ⟨⟨turns, crowd 1001, some row, after⟩ :: events, final, ?_, by simp [long], ?_⟩
      · simp [List.replicate_succ, run, step, reaction, ran]
      · exact List.forall_mem_cons.mpr ⟨⟨rfl, row, rfl, bound⟩, all⟩

end Crowd

/-- In a list in which not all items are related in pairs, there are two that are not. -/
theorem exists_unrelated {Item : Type*} {Related : Item → Item → Prop} {items : List Item}
    (unrelated : ¬ items.Pairwise Related) : ∃ front first middle second back,
      items = front ++ first :: (middle ++ second :: back) ∧ ¬ Related first second := by
  induction items with
  | nil => exact absurd .nil unrelated
  | cons item items ih =>
      rw [List.pairwise_cons, not_and_or] at unrelated
      rcases unrelated with here | later
      · push Not at here
        obtain ⟨second, member, apart⟩ := here
        obtain ⟨middle, back, rfl⟩ := List.append_of_mem member
        exact ⟨[], item, middle, second, back, rfl, apart⟩
      · obtain ⟨front, first, middle, second, back, rfl, apart⟩ := ih later
        exact ⟨item :: front, first, middle, second, back, rfl, apart⟩

/-- A thousand and one servers have ready mail at every dequeue and nothing in flight. The one with
the newest mail is not served between two services of another one. -/
theorem newest_server_starves : ∃ events final,
    run (step {} day "worker") .new (List.replicate 1001 (crowd 1001)) =
      some (events, final) ∧
    ∃ front first middle second back busy, events = front ++ first :: (middle ++ second :: back) ∧
      first.output.map QueueRow.serverId = some busy ∧
      second.output.map QueueRow.serverId = some busy ∧ 1001 ≠ busy ∧
      (∀ event ∈ first :: (middle ++ [second]), Waits {} day 1001 event.input) ∧
      ∀ event ∈ middle, event.output.map QueueRow.serverId ≠ some 1001 := by
  obtain ⟨events, final, ran, long, all⟩ := crowd_run "worker" 1001 .new
  refine ⟨events, final, ran, ?_⟩
  have repeated : ¬ events.Pairwise (fun first second =>
      first.output.map QueueRow.serverId ≠ second.output.map QueueRow.serverId) := by
    intro distinct
    have few : (events.map (fun event => event.output.map QueueRow.serverId)).Subperm
        ((List.range' 1 1000).map some) := by
      refine List.subperm_of_subset (List.pairwise_map.mpr distinct) ?_
      intro served member
      obtain ⟨event, there, rfl⟩ := List.mem_map.mp member
      obtain ⟨-, row, output, bound⟩ := all event there
      rw [output]
      exact List.mem_map_of_mem bound
    have bound := few.length_le
    rw [List.length_map, List.length_map, List.length_range', long] at bound
    exact absurd bound (by decide)
  obtain ⟨front, first, middle, second, back, rfl, same⟩ := exists_unrelated repeated
  obtain ⟨-, row, output, bound⟩ := all first (by simp)
  have served : first.output.map QueueRow.serverId = some row.serverId := by rw [output]; rfl
  have outside : 1001 ∉ List.range' 1 1000 := by
    intro inside
    exact absurd (List.mem_range'_1.mp inside).2 (by decide)
  refine ⟨front, first, middle, second, back, row.serverId, rfl, served,
    (not_not.mp same) ▸ served, fun same => outside (same ▸ bound), ?_, ?_⟩
  · intro event member
    have there : event ∈ front ++ first :: (middle ++ second :: back) := by
      rcases List.mem_cons.mp member with rfl | later
      · simp
      · rcases List.mem_append.mp later with between | last
        · simp [between]
        · simp [List.mem_singleton.mp last]
    rw [(all event there).1]
    exact crowd_waits (List.mem_range'_1.mpr ⟨by decide, by decide⟩)
  · intro event member taken
    obtain ⟨-, other, locked, limit⟩ := all event (by simp [member])
    rw [locked] at taken
    have same : other.serverId = 1001 := Option.some.inj taken
    exact outside (same ▸ limit)

end Camelmailer.Worker.FairQueue
