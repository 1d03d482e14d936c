import Camelmailer.Core.Spf
import Mathlib.Data.List.Infix

/-!
# The budget of an SPF evaluation

Nesting is paid for: a check inside another one has taken from the budget before it starts. So the
depth of an evaluation is bounded by the budget and its length by the terms of the policies that
are read, whatever the resolver answers, and a policy that refers to itself runs out of budget like
a long chain.

A part of an evaluation is described by the events that it adds. What it leaves of the budget, and
the first unsupported term, follow from these.
-/

namespace Camelmailer.Spf

open Utf8

/-! ## Vocabulary -/

def Event.isTxt : Event → Bool
  | .asked (.txt _) => true
  | _ => false

def Event.isMx : Event → Bool
  | .asked (.mxHosts _) => true
  | _ => false

def Event.isAddress : Event → Bool
  | .asked (.ipAddresses _) => true
  | _ => false

def Event.term : Event → Option UnsupportedTerm
  | .noted term => some term
  | _ => none

/-- The terms that have been noted. -/
def notedTerms (log : List Event) : List UnsupportedTerm := log.filterMap Event.term

/-- The address queries for the exchanges of an `mx` are the ones right behind its query. There is
a limit to their number. -/
def ExchangesLimited (log : List Event) : Prop :=
  ∀ name back, .asked (.mxHosts name) :: back <:+ log →
    (back.takeWhile Event.isAddress).length ≤ maxMxAddressLookups

/-- An evaluation within its budget. -/
structure Bounded (log : List Event) : Prop where
  charged : log.count .charged ≤ maxDnsLookups
  policies : log.countP Event.isTxt ≤ 1 + maxDnsLookups
  exchanges : log.countP Event.isMx ≤ maxDnsLookups
  addresses : ExchangesLimited log

theorem exchangesLimited_append {front back : List Event} (first : ExchangesLimited front)
    (second : ExchangesLimited back) (opened : ∀ event ∈ back.head?, event.isAddress = false) :
    ExchangesLimited (front ++ back) := by
  intro name rest suffix
  induction front with
  | nil => exact second name rest suffix
  | cons event front ih =>
      rcases List.suffix_cons_iff.mp suffix with whole | inner
      · obtain ⟨rfl, rfl⟩ := List.cons.inj whole
        change ((front ++ back).takeWhile Event.isAddress).length ≤ _
        rw [List.takeWhile_append]
        split_ifs with all
        · have closed : back.takeWhile Event.isAddress = [] := by
            cases back with
            | nil => rfl
            | cons event back =>
                rw [List.takeWhile_cons_of_neg]
                rw [opened event rfl]
                exact Bool.false_ne_true
          rw [closed, List.append_nil, ← all]
          exact first name front (List.suffix_refl _)
        · exact first name front (List.suffix_refl _)
      · exact ih (fun name rest more => first name rest
          (more.trans (List.suffix_cons _ _))) inner

/-- Events without a query for exchanges. -/
theorem exchangesLimited_of_countP {log : List Event} (none : log.countP Event.isMx = 0) :
    ExchangesLimited log := by
  intro name back suffix
  exact absurd (List.countP_eq_zero.mp none _ (suffix.subset List.mem_cons_self)) (by simp [Event.isMx])

/-! ## What a part of an evaluation adds -/

/-- The events that an evaluator has gone through. -/
structure Extends (before : Evaluator) (added : List Event) (after : Evaluator) : Prop where
  log : after.log = before.log ++ added
  budget : after.budget + added.count .charged = before.budget
  blocked : after.blocked = before.blocked.or (notedTerms added).head?

theorem Extends.refl (evaluator : Evaluator) : Extends evaluator [] evaluator where
  log := (List.append_nil _).symm
  budget := rfl
  blocked := (Option.or_none).symm

theorem Extends.trans {before middle after : Evaluator} {first second : List Event}
    (one : Extends before first middle) (other : Extends middle second after) :
    Extends before (first ++ second) after where
  log := by rw [other.log, one.log, List.append_assoc]
  budget := by
    rw [List.count_append]
    have := one.budget
    have := other.budget
    omega
  blocked := by
    rw [other.blocked, one.blocked, Option.or_assoc, notedTerms, notedTerms, notedTerms,
      List.filterMap_append, List.head?_append]

/-- Started with no more than some budget, a part of an evaluation has a result. It is described by
the events that it adds. -/
def Walks {α : Type} (bound : Nat) (walk : Walk α) (P : List Event → α → Prop) : Prop :=
  ∀ evaluator, evaluator.budget ≤ bound → ∃ result added after,
    walk evaluator = some (result, after) ∧ Extends evaluator added after ∧ P added result

section Rules

variable {α β : Type} {bound : Nat} {P : List Event → α → Prop} {Q : List Event → β → Prop}

theorem Walks.pure {result : α} (holds : P [] result) : Walks bound (Pure.pure result) P :=
  fun evaluator _ => ⟨result, [], evaluator, rfl, Extends.refl evaluator, holds⟩

theorem Walks.mono {walk : Walk α} {R : List Event → α → Prop} (walks : Walks bound walk P)
    (weaker : ∀ added result, P added result → R added result) : Walks bound walk R := by
  intro evaluator within
  obtain ⟨result, added, after, ran, extends_, holds⟩ := walks evaluator within
  exact ⟨result, added, after, ran, extends_, weaker added result holds⟩

/-- The rule for parts that follow one another. -/
theorem Walks.bind {walk : Walk α} {next : α → Walk β} (walks : Walks bound walk P)
    (continues : ∀ added result, P added result →
      Walks bound (next result) (fun more value => Q (added ++ more) value)) :
    Walks bound (walk >>= next) Q := by
  intro evaluator within
  obtain ⟨result, added, middle, ran, first, holds⟩ := walks evaluator within
  have less : middle.budget ≤ bound := by
    have := first.budget
    omega
  obtain ⟨value, more, after, went, second, done⟩ := continues added result holds middle less
  refine ⟨value, added ++ more, after, ?_, first.trans second, done⟩
  change (walk evaluator).bind (fun walked => next walked.1 walked.2) = _
  rw [ran]
  exact went

theorem walks_ask {query : Query} {answer : List Query → α} :
    Walks bound (ask query answer) (fun added _ => added = [.asked query]) := by
  intro evaluator within
  exact ⟨_, [.asked query], _, rfl, ⟨rfl, rfl, (Option.or_none).symm⟩, rfl⟩

theorem walks_noteUnsupported {term : UnsupportedTerm} :
    Walks bound (noteUnsupported term) (fun added _ => added = [.noted term]) := by
  intro evaluator within
  exact ⟨_, [.noted term], _, rfl, ⟨rfl, rfl, rfl⟩, rfl⟩

/-- What follows a charge is bound by what is left. -/
theorem Walks.spend {granted refused : Walk α} (stops : Walks 0 refused (fun more => P (.refused :: more)))
    (continues : ∀ rest, bound = rest + 1 → Walks rest granted (fun more => P (.charged :: more))) :
    Walks bound (do if ← spendLookup then granted else refused) P := by
  intro evaluator within
  obtain ⟨budget, blocked, log⟩ := evaluator
  cases budget with
  | zero =>
      have spent : Extends ⟨0, blocked, log⟩ [.refused] ⟨0, blocked, log ++ [.refused]⟩ :=
        ⟨rfl, rfl, (Option.or_none).symm⟩
      obtain ⟨result, added, after, ran, more, holds⟩ :=
        stops ⟨0, blocked, log ++ [.refused]⟩ (Nat.le_refl 0)
      exact ⟨result, .refused :: added, after, ran, spent.trans more, holds⟩
  | succ remaining =>
      obtain ⟨rest, rfl⟩ : ∃ rest, bound = rest + 1 :=
        ⟨bound - 1, by have : remaining + 1 ≤ bound := within; omega⟩
      have spent : Extends ⟨remaining + 1, blocked, log⟩ [.charged]
          ⟨remaining, blocked, log ++ [.charged]⟩ := ⟨rfl, rfl, (Option.or_none).symm⟩
      obtain ⟨result, added, after, ran, more, holds⟩ :=
        continues rest rfl ⟨remaining, blocked, log ++ [.charged]⟩ (Nat.le_of_succ_le_succ within)
      exact ⟨result, .charged :: added, after, ran, spent.trans more, holds⟩

end Rules

/-! ## Terms and policies -/

/-- Every query but the address queries is paid for, apart from the ones that are free. -/
structure Fair (free : Nat) (added : List Event) : Prop where
  paid : added.countP Event.isTxt + added.countP Event.isMx ≤ free + added.count .charged
  exchanges : added.countP Event.isMx ≤ added.count .charged
  limited : ExchangesLimited added
  opened : ∀ event ∈ added.head?, event.isAddress = false

theorem Fair.append {free more : Nat} {front back : List Event} (first : Fair free front)
    (second : Fair more back) : Fair (free + more) (front ++ back) where
  paid := by
    rw [List.countP_append, List.countP_append, List.count_append]
    have := first.paid
    have := second.paid
    omega
  exchanges := by
    rw [List.countP_append, List.count_append]
    exact Nat.add_le_add first.exchanges second.exchanges
  limited := exchangesLimited_append first.limited second.limited second.opened
  opened := by
    intro event first_
    cases front with
    | nil => exact second.opened event first_
    | cons other front => exact first.opened event first_

theorem Fair.nil : Fair 0 [] :=
  ⟨Nat.le_refl 0, Nat.le_refl 0, exchangesLimited_of_countP rfl, fun _ => nofun⟩

theorem Fair.more {free : Nat} {added : List Event} (fair : Fair free added) :
    Fair (free + 1) added :=
  ⟨by have := fair.paid; omega, fair.exchanges, fair.limited, fair.opened⟩

theorem Fair.noted (term : UnsupportedTerm) : Fair 0 [.noted term] :=
  ⟨Nat.le_refl 0, Nat.le_refl 0, exchangesLimited_of_countP rfl, fun _ same => by cases same; rfl⟩

theorem Fair.refused : Fair 0 [.refused] :=
  ⟨Nat.le_refl 0, Nat.le_refl 0, exchangesLimited_of_countP rfl, fun _ same => by cases same; rfl⟩

theorem Fair.policy (name : Text) : Fair 1 [.asked (.txt name)] :=
  ⟨Nat.le_refl 1, Nat.le_refl 0, exchangesLimited_of_countP rfl, fun _ same => by cases same; rfl⟩

/-- A charge pays for what follows. -/
theorem Fair.pay {added : List Event} (fair : Fair 1 added) : Fair 0 (.charged :: added) where
  paid := by
    have paid := fair.paid
    simp only [List.countP_cons, List.count_cons, Event.isTxt, Event.isMx, beq_self_eq_true]
    simp only [if_true, Bool.false_eq_true, if_false]
    omega
  exchanges := by
    simp only [List.count_cons]
    exact Nat.le_succ_of_le fair.exchanges
  limited := by
    have alone : ExchangesLimited [.charged] := exchangesLimited_of_countP rfl
    exact exchangesLimited_append alone fair.limited fair.opened
  opened := fun _ same => by cases same; rfl

/-- What a mechanism adds: without budget it is a permanent error. -/
def Matches (added : List Event) (outcome : MechanismOutcome) : Prop :=
  Fair 0 added ∧ (.refused ∈ added → outcome = .error .permError)

/-- What a check adds. -/
def Checks (free : Nat) (added : List Event) (result : SpfResult) : Prop :=
  Fair free added ∧ (.refused ∈ added → result = .permError)

section Evaluation

variable {resolver : SpfResolver} {syn : IpSyntax} {ip : IpAddr} {mode : MacroMode} {bound : Nat}

theorem walks_fetchSpfRecord (domain : Text) : Walks bound (fetchSpfRecord resolver domain)
    (fun added _ => added = [.asked (.txt domain)]) := by
  refine walks_ask.bind ?_
  rintro added (error | records) rfl
  · exact Walks.pure rfl
  · dsimp only
    split
    · exact Walks.pure rfl
    · exact Walks.pure rfl
    · exact Walks.pure rfl

/-- Nothing is left to pay a mechanism from. -/
theorem matches_refused : Matches [.refused] (.error .permError) := ⟨Fair.refused, fun _ => rfl⟩

/-- A query that is paid for, and the addresses that are asked for behind it. -/
theorem matches_lookup {query : Query} {addresses : List Event} (outcome : MechanismOutcome)
    (many : addresses.length ≤ maxMxAddressLookups)
    (only : ∀ event ∈ addresses, event.isAddress = true) :
    Matches (.charged :: .asked query :: addresses) outcome := by
  have other (kind : Event → Bool) (apart : ∀ event : Event, event.isAddress = true → kind event = false) :
      addresses.countP kind = 0 :=
    List.countP_eq_zero.mpr (fun event member => by simp [apart event (only event member)])
  have noTxt : addresses.countP Event.isTxt = 0 :=
    other _ (fun event => by cases event with | asked query => cases query <;> simp [Event.isAddress, Event.isTxt] | _ => simp [Event.isAddress])
  have noMx : addresses.countP Event.isMx = 0 :=
    other _ (fun event => by cases event with | asked query => cases query <;> simp [Event.isAddress, Event.isMx] | _ => simp [Event.isAddress])
  refine ⟨⟨?_, ?_, ?_, fun _ same => by cases same; rfl⟩, ?_⟩
  · cases query <;> simp [List.countP_cons, Event.isTxt, Event.isMx, noTxt, noMx]
  · cases query <;> simp [List.countP_cons, Event.isMx, noMx]
  · intro name back suffix
    rcases List.suffix_cons_iff.mp suffix with whole | inner
    · cases whole
    · rcases List.suffix_cons_iff.mp inner with whole | deeper
      · obtain ⟨-, rfl⟩ := List.cons.inj whole
        exact (List.takeWhile_sublist _).length_le.trans many
      · cases only _ (deeper.subset List.mem_cons_self)
  · intro member
    rcases List.mem_cons.mp member with same | later
    · cases same
    · rcases List.mem_cons.mp later with same | inside
      · cases same
      · cases only _ inside

theorem walks_matchA (mechanism currentDomain : Text) :
    Walks bound (matchA resolver ip mechanism currentDomain) Matches := by
  refine Walks.spend (Walks.pure matches_refused) ?_
  intro rest spent
  refine walks_ask.bind ?_
  have looked (query : Query) (outcome : MechanismOutcome) : Matches [.charged, .asked query] outcome :=
    matches_lookup outcome (Nat.zero_le _) (fun _ member => absurd member List.not_mem_nil)
  rintro added (error | addresses) rfl
  · exact Walks.pure (looked _ _)
  · dsimp only
    split_ifs
    · exact Walks.pure (looked _ _)
    · exact Walks.pure (looked _ _)

/-- Every exchange is asked for at most once. -/
theorem walks_matchExchanges (cidr : Option Nat) (hosts : List Text) :
    Walks bound (matchExchanges resolver ip cidr hosts) (fun added _ =>
      added.length ≤ hosts.length ∧ ∀ event ∈ added, event.isAddress = true) := by
  induction hosts with
  | nil => exact Walks.pure ⟨Nat.le_refl 0, fun _ member => absurd member List.not_mem_nil⟩
  | cons host hosts ih =>
      refine walks_ask.bind ?_
      rintro added (error | addresses) rfl
      · exact Walks.pure ⟨by simp, by simp [Event.isAddress]⟩
      · dsimp only
        split_ifs
        · exact Walks.pure ⟨by simp, by simp [Event.isAddress]⟩
        · refine ih.mono ?_
          rintro more outcome ⟨fewer, only⟩
          refine ⟨Nat.succ_le_succ fewer, ?_⟩
          intro event member
          rcases List.mem_cons.mp member with rfl | later
          · rfl
          · exact only event later

theorem walks_matchMx (mechanism currentDomain : Text) :
    Walks bound (matchMx resolver ip mechanism currentDomain) Matches := by
  refine Walks.spend (Walks.pure matches_refused) ?_
  intro rest spent
  refine walks_ask.bind ?_
  have looked (query : Query) (outcome : MechanismOutcome) : Matches [.charged, .asked query] outcome :=
    matches_lookup outcome (Nat.zero_le _) (fun _ member => absurd member List.not_mem_nil)
  rintro added (error | hosts) rfl
  · exact Walks.pure (looked _ _)
  · dsimp only
    split_ifs with many
    · exact Walks.pure (looked _ _)
    · refine (walks_matchExchanges _ hosts).mono ?_
      rintro more outcome ⟨fewer, only⟩
      exact matches_lookup outcome (fewer.trans (Nat.le_of_not_lt many)) only

/-- What holds of a nested check that is paid for. -/
def Nested (bound : Nat) (checkHost : Text → Walk SpfResult) : Prop :=
  ∀ rest, bound = rest + 1 → ∀ domain, Walks rest (checkHost domain) (Checks 1)

section

variable {checkHost : Text → Walk SpfResult} (nested : Nested bound checkHost)
include checkHost nested

theorem walks_matchInclude
    (target : Text) : Walks bound (matchInclude checkHost target) Matches := by
  refine Walks.spend (Walks.pure matches_refused) ?_
  intro rest spent
  refine (nested rest spent target).bind ?_
  rintro added result ⟨fair, denied⟩
  refine Walks.pure ⟨by simpa using fair.pay, ?_⟩
  intro member
  have inside : .refused ∈ added := by simpa using member
  rw [denied inside]
  rfl

theorem walks_matchSupported (mechanism currentDomain : Text) :
    Walks bound (matchSupported resolver syn ip checkHost mechanism currentDomain) Matches := by
  have settled (outcome : MechanismOutcome) : Walks bound (pure outcome) Matches :=
    Walks.pure ⟨Fair.nil, fun member => absurd member List.not_mem_nil⟩
  unfold matchSupported
  dsimp only
  split
  · exact settled _
  · split
    · split
      · exact settled _
      · exact settled _
      · exact settled _
    · split
      · exact walks_matchA mechanism currentDomain
      · split
        · exact walks_matchMx mechanism currentDomain
        · split
          · exact walks_matchInclude nested _
          · exact settled _

theorem walks_matchMechanism (mechanism currentDomain : Text) :
    Walks bound (matchMechanism resolver syn ip mode checkHost mechanism currentDomain) Matches := by
  unfold matchMechanism
  split
  · refine walks_noteUnsupported.bind ?_
    rintro added - rfl
    exact Walks.pure ⟨Fair.noted _, fun member => by simp at member⟩
  · exact walks_matchSupported nested mechanism currentDomain

theorem walks_followRedirect
    (redirect : Option Text) : Walks bound (followRedirect checkHost redirect) (Checks 0) := by
  cases redirect with
  | none => exact Walks.pure ⟨Fair.nil, fun member => absurd member List.not_mem_nil⟩
  | some target =>
      refine Walks.spend (Walks.pure ⟨Fair.refused, fun _ => rfl⟩) ?_
      intro rest spent
      refine (nested rest spent target).mono ?_
      rintro added result ⟨fair, denied⟩
      exact ⟨fair.pay, fun member => denied (by simpa using member)⟩

end

/-- Behind a mechanism that has not matched the terms go on. -/
theorem Matches.goOn {added : List Event} {bound : Nat} {walk : Walk SpfResult}
    (fair : Fair 0 added) (granted : .refused ∉ added) (walks : Walks bound walk (Checks 0)) :
    Walks bound walk (fun more => Checks 0 (added ++ more)) := by
  refine walks.mono ?_
  rintro more result ⟨later, denied⟩
  refine ⟨fair.append later, fun member => denied ?_⟩
  exact (List.mem_append.mp member).resolve_left granted

theorem walks_checkTerms {checkHost : Text → Walk SpfResult} (nested : Nested bound checkHost)
    (domain : Text) (redirect : Option Text) (terms : List Text) :
    Walks bound (checkTerms resolver syn ip mode checkHost domain redirect terms) (Checks 0) := by
  induction terms generalizing redirect with
  | nil => exact walks_followRedirect nested redirect
  | cons term terms ih =>
      unfold checkTerms
      split
      · split_ifs
        · refine walks_noteUnsupported.bind ?_
          rintro added - rfl
          exact Matches.goOn (Fair.noted _) (by simp) (ih redirect)
        · exact ih _
      · split_ifs
        · exact ih redirect
        · refine (walks_matchMechanism nested _ domain).bind ?_
          rintro added outcome ⟨fair, denied⟩
          have unmet (other : outcome ≠ .error .permError) : .refused ∉ added :=
            fun member => other (denied member)
          cases outcome with
          | matched =>
              refine Walks.pure ⟨by simpa using fair, fun member => ?_⟩
              exact absurd (by simpa using member) (unmet nofun)
          | noMatch => exact Matches.goOn fair (unmet nofun) (ih redirect)
          | error result =>
              refine Walks.pure ⟨by simpa using fair, fun member => ?_⟩
              exact MechanismOutcome.error.inj (denied (by simpa using member))

theorem walks_policy {depth : Nat} (nested : Nested bound (checkHost resolver syn ip mode depth))
    (domain : Text) :
    Walks bound (checkHost resolver syn ip mode (depth + 1) domain) (Checks 1) := by
  have settled (result : SpfResult) :
      Walks bound (pure result) (fun more => Checks 1 ([.asked (.txt domain)] ++ more)) :=
    Walks.pure ⟨Fair.policy domain, fun member => by simp at member⟩
  refine (walks_fetchSpfRecord domain).bind ?_
  rintro added (result | (nothing | record)) rfl
  · exact settled _
  · exact settled _
  · refine (walks_checkTerms nested domain none _).mono ?_
    rintro more result ⟨fair, denied⟩
    exact ⟨(Fair.policy domain).append fair, fun member => denied (by simpa using member)⟩

/-- A check with a depth above what is left of the budget has a result, and pays for what it asks.
The induction is on the depth: a nested check has been paid for. -/
theorem walks_checkHost (depth : Nat) (domain : Text) :
    Walks depth (checkHost resolver syn ip mode (depth + 1) domain) (Checks 1) := by
  induction depth generalizing domain with
  | zero => exact walks_policy (fun rest spent => absurd spent (Nat.succ_ne_zero rest).symm) domain
  | succ depth ih =>
      refine walks_policy ?_ domain
      intro rest spent target
      obtain rfl := Nat.succ.inj spent
      exact ih target

end Evaluation

/-! ## More depth than needed -/

/-- Where one part of an evaluation has a result, another one has the same. -/
def Finishes {α : Type} (walk other : Walk α) : Prop :=
  ∀ evaluator walked, walk evaluator = some walked → other evaluator = some walked

section Depth

variable {α β : Type}

theorem Finishes.refl (walk : Walk α) : Finishes walk walk := fun _ _ same => same

theorem Finishes.bind {walk other : Walk α} {next more : α → Walk β} (first : Finishes walk other)
    (second : ∀ result, Finishes (next result) (more result)) :
    Finishes (walk >>= next) (other >>= more) := by
  intro evaluator walked ran
  obtain ⟨middle, start, rest⟩ := Option.bind_eq_some_iff.mp ran
  refine Option.bind_eq_some_iff.mpr ⟨middle, first evaluator middle start, ?_⟩
  exact second middle.1 middle.2 walked rest

variable {resolver : SpfResolver} {syn : IpSyntax} {ip : IpAddr} {mode : MacroMode}
  {shallow deeper : Text → Walk SpfResult}

section

variable (finishes : ∀ domain, Finishes (shallow domain) (deeper domain))
include finishes

theorem finishes_matchInclude
    (target : Text) : Finishes (matchInclude shallow target) (matchInclude deeper target) := by
  refine (Finishes.refl _).bind ?_
  intro granted
  cases granted with
  | false => exact Finishes.refl _
  | true => exact (finishes target).bind (fun _ => Finishes.refl _)

theorem finishes_matchMechanism (mechanism currentDomain : Text) :
    Finishes (matchMechanism resolver syn ip mode shallow mechanism currentDomain)
      (matchMechanism resolver syn ip mode deeper mechanism currentDomain) := by
  have supported : Finishes (matchSupported resolver syn ip shallow mechanism currentDomain)
      (matchSupported resolver syn ip deeper mechanism currentDomain) := by
    unfold matchSupported
    dsimp only
    split
    · exact Finishes.refl _
    · split
      · exact Finishes.refl _
      · split_ifs
        · exact Finishes.refl _
        · exact Finishes.refl _
        · split
          · exact finishes_matchInclude finishes _
          · exact Finishes.refl _
  unfold matchMechanism
  split
  · exact Finishes.refl _
  · exact supported

theorem finishes_checkTerms (domain : Text) (redirect : Option Text) (terms : List Text) :
    Finishes (checkTerms resolver syn ip mode shallow domain redirect terms)
      (checkTerms resolver syn ip mode deeper domain redirect terms) := by
  induction terms generalizing redirect with
  | nil =>
      cases redirect with
      | none => exact Finishes.refl _
      | some target =>
          refine (Finishes.refl _).bind ?_
          intro granted
          cases granted with
          | false => exact Finishes.refl _
          | true => exact finishes target
  | cons term terms ih =>
      unfold checkTerms
      split
      · split_ifs
        · exact (Finishes.refl _).bind (fun _ => ih redirect)
        · exact ih _
      · split_ifs
        · exact ih redirect
        · refine (finishes_matchMechanism finishes _ domain).bind ?_
          intro outcome
          cases outcome with
          | matched => exact Finishes.refl _
          | noMatch => exact ih redirect
          | error result => exact Finishes.refl _

end

theorem finishes_checkHost (depth : Nat) (domain : Text) :
    Finishes (checkHost resolver syn ip mode depth domain)
      (checkHost resolver syn ip mode (depth + 1) domain) := by
  induction depth generalizing domain with
  | zero =>
      intro evaluator walked ran
      cases ran
  | succ depth ih =>
      refine (Finishes.refl _).bind ?_
      rintro (result | (nothing | record))
      · exact Finishes.refl _
      · exact Finishes.refl _
      · exact finishes_checkTerms ih domain none _

theorem Finishes.trans {walk middle other : Walk α} (first : Finishes walk middle)
    (second : Finishes middle other) : Finishes walk other :=
  fun evaluator walked ran => second evaluator walked (first evaluator walked ran)

theorem finishes_deeper {depth greater : Nat} (deeper : depth ≤ greater) (domain : Text) :
    Finishes (checkHost resolver syn ip mode depth domain)
      (checkHost resolver syn ip mode greater domain) := by
  induction deeper with
  | refl => exact Finishes.refl _
  | step _ ih => exact ih.trans (finishes_checkHost _ domain)

end Depth

/-! ## Evaluations -/

section Whole

/-- A whole check, however much depth above the budget it is given. -/
theorem checkHost_bounded (resolver : SpfResolver) (syn : IpSyntax) (ip : IpAddr) (mode : MacroMode) (domain : Text) :
    ∃ result after, (∀ depth, maxDnsLookups < depth →
        checkHost resolver syn ip mode depth domain Evaluator.new = some (result, after)) ∧
      Bounded after.log ∧ after.blocked = (notedTerms after.log).head? ∧
      (.refused ∈ after.log → result = .permError) := by
  have walks : Walks maxDnsLookups (checkHost resolver syn ip mode (maxDnsLookups + 1) domain)
      (Checks 1) := walks_checkHost maxDnsLookups domain
  obtain ⟨result, log, after, ran, extended, fair, denied⟩ := walks Evaluator.new (Nat.le_refl _)
  obtain rfl : after.log = log := extended.log
  have charged : after.log.count .charged ≤ maxDnsLookups := by
    have spent : after.budget + after.log.count .charged = maxDnsLookups := extended.budget
    omega
  have paid := fair.paid
  refine ⟨result, after, fun depth enough => finishes_deeper enough domain _ _ ran,
    ⟨charged, by omega, fair.exchanges.trans charged, fair.limited⟩, extended.blocked, denied⟩

/-- An evaluation ends, whatever it is told, within its budget. A lookup that is not in the budget
makes the result a permanent error; it is reported as such, or as not verifiable because of a term
that has been met before. -/
theorem evaluation_bounded (resolver : SpfResolver) (syn : IpSyntax) (ip : IpAddr) (domain : Text) :
    (∃ result log, (∀ depth, maxDnsLookups < depth →
        evaluate resolver syn ip depth domain = some (result, log)) ∧
      Bounded log ∧ (.refused ∈ log → result = .permError)) ∧
    (∃ verdict log, (∀ depth, maxDnsLookups < depth →
        evaluateVerifiable resolver syn ip depth domain = some (verdict, log)) ∧
      Bounded log ∧ (.refused ∈ log → verdict =
        ((notedTerms log).head?.map .unverifiable).getD (.determined .permError))) := by
  have quiet : Bounded [] :=
    ⟨Nat.zero_le _, Nat.zero_le _, Nat.zero_le _, exchangesLimited_of_countP rfl⟩
  by_cases nameless : Str.trim domain = []
  · refine ⟨⟨.none, [], fun depth _ => if_pos nameless, quiet, ?_⟩,
      ⟨.determined .none, [], fun depth _ => if_pos nameless, quiet, ?_⟩⟩
    · exact fun member => absurd member List.not_mem_nil
    · exact fun member => absurd member List.not_mem_nil
  · constructor
    · obtain ⟨result, after, ran, bounded, -, denied⟩ := checkHost_bounded resolver syn ip .lenient domain
      refine ⟨result, after.log, fun depth enough => ?_, bounded, denied⟩
      unfold evaluate
      rw [if_neg nameless, ran depth enough]
      rfl
    · obtain ⟨result, after, ran, bounded, blocked, denied⟩ := checkHost_bounded resolver syn ip .report domain
      refine ⟨verdictOf result after.blocked, after.log, fun depth enough => ?_, bounded, ?_⟩
      · unfold evaluateVerifiable
        rw [if_neg nameless, ran depth enough]
        rfl
      · intro member
        rw [denied member, blocked]
        cases (notedTerms after.log).head? <;> rfl

/-! ## A budget that is used up behind an unsupported term -/

/-- A resolver that knows some policies and nothing else. -/
def SpfResolver.ofPolicies (policies : List (Text × Text)) : SpfResolver where
  txt := fun _ name => .ok ((policies.filter (fun policy => policy.1 = name)).map Prod.snd)
  ipAddresses := fun _ _ => .ok []
  mxHosts := fun _ _ => .ok []

def exampleSyntax : IpSyntax where
  parseNet := fun _ => none
  parseIp := parseIpv4

/-- An eleventh lookup is needed, and the verdict is not a permanent error. -/
theorem looping_behind_ptr : ∃ verdict log,
    evaluateVerifiable (.ofPolicies [("a.example", "v=spf1 ptr include:a.example")])
      exampleSyntax (.v4 0) 11 "a.example" = some (verdict, log) ∧
    .refused ∈ log ∧ verdict ≠ .determined .permError := by
  have checked : (evaluateVerifiable
      (.ofPolicies [("a.example", "v=spf1 ptr include:a.example")])
      exampleSyntax (.v4 0) 11 "a.example").any (fun evaluated =>
        decide (.refused ∈ evaluated.2 ∧ evaluated.1 ≠ .determined .permError)) = true := by
    decide +kernel
  obtain ⟨⟨verdict, log⟩, evaluated, holds⟩ := (Option.any_eq_true _ _).mp checked
  exact ⟨verdict, log, evaluated, of_decide_eq_true holds⟩

end Whole

end Camelmailer.Spf
