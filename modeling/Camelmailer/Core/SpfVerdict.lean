import Camelmailer.Core.SpfBudget

/-!
# What a determined verdict leaves open

A receiver that can resolve all terms finds for each unsupported one that it matches or that it
does not, and pays for it as for any other. The ways in which an evaluation can go then are all
listed here. `evaluate_verifiable` goes by unsupported terms as if they did not match, and calls a
pass behind them determined.

Where a policy is read says what its result leads to: at the top it is the result, and inside an
include a pass makes the include match, which may decide the policy around it in turn. Only where
the include would not match is it open what comes next.
-/

namespace Camelmailer.Spf

open Utf8

/-! ## Where a policy is read -/

/-- What the result of a policy means for the whole evaluation. -/
inductive Consequence where
  /-- The evaluation passes. -/
  | passes
  /-- The evaluation ends with another result. -/
  | differs
  /-- The evaluation goes on. -/
  | goesOn
deriving DecidableEq

/-- Where a policy is read: what a pass leads to, and what a result that is neither a pass nor an
error does. -/
structure Place where
  onPass : Consequence
  onOther : Consequence

def Place.top : Place := ⟨.passes, .differs⟩

def Place.leadsTo (place : Place) : SpfResult → Consequence
  | .pass => place.onPass
  | .fail => place.onOther
  | .softFail => place.onOther
  | .neutral => place.onOther
  | _ => .differs

/-- Inside an include with some qualifier. -/
def Place.inside (place : Place) (qualifier : Char) : Place :=
  ⟨place.leadsTo (fromQualifier qualifier), .goesOn⟩

/-! ## Ways to go -/

/-- The ways in which a part of an evaluation can go. -/
abbrev Ways (α : Type) : Type := Evaluator → List (α × Evaluator)

section Ways

variable {α β : Type}

def Ways.pure (result : α) : Ways α := fun evaluator => [(result, evaluator)]

def Ways.bind (ways : Ways α) (next : α → Ways β) : Ways β :=
  fun evaluator => (ways evaluator).flatMap (fun way => next way.1 way.2)

/-- A part of an evaluation in which nothing is open. -/
def Ways.ofWalk (walk : Walk α) : Ways α := fun evaluator => (walk evaluator).toList

def Ways.among (results : List α) : Ways α :=
  fun evaluator => results.map (fun result => (result, evaluator))

/-- What is taken from the budget first. -/
def Ways.afterSpending (next : Ways α) (denied : α) : Ways α :=
  (Ways.ofWalk spendLookup).bind (fun granted => if granted then next else Ways.pure denied)

end Ways

/-- How unsupported terms are decided: whether a mechanism matches, where it is known what a match
leads to, and the results that a redirect can have. -/
structure Choices where
  matching : Consequence → List Bool
  results : List SpfResult

/-- Every way of deciding. -/
def Choices.every : Choices where
  matching := fun _ => [true, false]
  results := [.pass, .fail, .softFail, .neutral, .none, .tempError, .permError]

/-- The decisions that speak against a pass: no match where it would be a pass, and a match where
it would be another result. Where a match would only keep an include from matching, both. -/
def Choices.adverse : Choices where
  matching := fun
    | .passes => [false]
    | .differs => [true]
    | .goesOn => [true, false]
  results := [.permError]

def outcomeOf (matching : Bool) : MechanismOutcome := if matching then .matched else .noMatch

section Evaluation

variable (resolver : SpfResolver) (syn : IpSyntax) (ip : IpAddr) (choices : Choices)

/-- An unsupported mechanism is decided. -/
def mechanismChoice (place : Place) (qualifier : Char) (term : UnsupportedTerm) :
    Ways MechanismOutcome :=
  (Ways.ofWalk (noteUnsupported term)).bind (fun _ => Ways.afterSpending
    (Ways.among ((choices.matching (place.leadsTo (fromQualifier qualifier))).map outcomeOf))
    (.error .permError))

/-- An unsupported redirect is decided. -/
def redirectChoice (term : UnsupportedTerm) : Ways SpfResult :=
  (Ways.ofWalk (noteUnsupported term)).bind (fun _ => Ways.afterSpending
    (Ways.among choices.results) .permError)

/-- The ways of a mechanism with its qualifier. -/
def mechanismWays (hostWays : Place → Text → Ways SpfResult) (place : Place) (domain : Text)
    (qualifier : Char) (mechanism : Text) : Ways MechanismOutcome :=
  match unsupportedKind mechanism with
  | some kind => mechanismChoice choices place qualifier ⟨mechanism, domain, kind⟩
  | none =>
      match Str.stripPrefix "include:" (Str.toAsciiLowercase mechanism) with
      | some target => Ways.afterSpending
          ((hostWays (place.inside qualifier) target).bind (fun result => Ways.pure (includeOutcome result)))
          (.error .permError)
      | none => Ways.ofWalk
          (matchSupported resolver syn ip (fun _ => return .permError) mechanism domain)

/-- The ways when no mechanism has matched. -/
def redirectWays (hostWays : Place → Text → Ways SpfResult) (place : Place) (domain : Text) :
    Option Text → Ways SpfResult
  | none => Ways.pure .neutral
  | some target =>
      if termUsesMacro target then
        redirectChoice choices ⟨"redirect=" ++ target, domain, .macros⟩
      else Ways.afterSpending (hostWays place target) .permError

/-- The ways of the terms of a policy. -/
def termWays (hostWays : Place → Text → Ways SpfResult) (place : Place) (domain : Text) :
    Option Text → List Text → Ways SpfResult
  | redirect, [] => redirectWays choices hostWays place domain redirect
  | redirect, term :: rest =>
      match Str.stripPrefix "redirect=" term with
      | some target => termWays hostWays place domain (some target) rest
      | none =>
          if '=' ∈ term then termWays hostWays place domain redirect rest
          else (mechanismWays resolver syn ip choices hostWays place domain (splitQualifier term).1
            (splitQualifier term).2).bind (fun outcome =>
              match outcome with
              | .matched => Ways.pure (fromQualifier (splitQualifier term).1)
              | .noMatch => termWays hostWays place domain redirect rest
              | .error result => Ways.pure result)

/-- The ways of a policy. -/
def hostWays : Nat → Place → Text → Ways SpfResult
  | 0, _, _ => fun _ => []
  | depth + 1, place, domain =>
      (Ways.ofWalk (fetchSpfRecord resolver domain)).bind (fun fetched =>
        match fetched with
        | .error result => Ways.pure result
        | .ok none => Ways.pure .none
        | .ok (some record) => termWays resolver syn ip choices (hostWays depth) place domain none
            ((splitWhitespace record).drop 1))

/-- The results of an evaluation. -/
def possibleResults (domain : Text) : List SpfResult :=
  if Str.trim domain = [] then [.none]
  else (hostWays resolver syn ip choices (maxDnsLookups + 1) .top domain Evaluator.new).map Prod.fst

end Evaluation

/-! ## Without unsupported terms -/

section Undisturbed

variable {α β : Type} {bound : Nat}

/-- As long as a walk that reports unsupported terms meets none, the lenient one is the same, and
there is no other way. -/
def Undisturbed (bound : Nat) (report lenient : Walk α) (ways : Ways α) : Prop :=
  ∀ evaluator, evaluator.budget ≤ bound → ∃ result added after,
    report evaluator = some (result, after) ∧ Extends evaluator added after ∧
    (notedTerms added = [] → lenient evaluator = some (result, after) ∧
      ways evaluator = [(result, after)])

theorem Undisturbed.ofWalk {walk : Walk α} {P : List Event → α → Prop} (walks : Walks bound walk P) :
    Undisturbed bound walk walk (Ways.ofWalk walk) := by
  intro evaluator within
  obtain ⟨result, added, after, ran, extended, -⟩ := walks evaluator within
  refine ⟨result, added, after, ran, extended, fun _ => ⟨ran, ?_⟩⟩
  unfold Ways.ofWalk
  rw [ran]
  rfl

theorem Undisturbed.pure (result : α) :
    Undisturbed bound (Pure.pure result) (Pure.pure result) (Ways.pure result) :=
  fun evaluator _ => ⟨result, [], evaluator, rfl, Extends.refl evaluator, fun _ => ⟨rfl, rfl⟩⟩

theorem Undisturbed.bind {report lenient : Walk α} {ways : Ways α} {next other : α → Walk β}
    {further : α → Ways β} (first : Undisturbed bound report lenient ways)
    (second : ∀ result, Undisturbed bound (next result) (other result) (further result)) :
    Undisturbed bound (report >>= next) (lenient >>= other) (ways.bind further) := by
  intro evaluator within
  obtain ⟨result, added, middle, ran, start, same⟩ := first evaluator within
  have less : middle.budget ≤ bound := by
    have := start.budget
    omega
  obtain ⟨value, more, after, went, rest, alike⟩ := second result middle less
  refine ⟨value, added ++ more, after, ?_, start.trans rest, ?_⟩
  · change (report evaluator).bind (fun walked => next walked.1 walked.2) = _
    rw [ran]
    exact went
  · intro quiet
    rw [notedTerms, List.filterMap_append, List.append_eq_nil_iff] at quiet
    obtain ⟨ranLenient, way⟩ := same quiet.1
    obtain ⟨wentLenient, further⟩ := alike quiet.2
    constructor
    · change (lenient evaluator).bind (fun walked => other walked.1 walked.2) = _
      rw [ranLenient]
      exact wentLenient
    · unfold Ways.bind
      rw [way]
      simpa using further

/-- Behind an unsupported term nothing is said. -/
theorem Undisturbed.noted {term : UnsupportedTerm} {report lenient other : Walk α}
    {ways further : Ways α} (rest : Undisturbed bound report lenient ways) :
    Undisturbed bound (noteUnsupported term >>= fun _ => report) other further := by
  intro evaluator within
  obtain ⟨result, more, after, went, extended, -⟩ := rest
    ⟨evaluator.budget, evaluator.blocked.or (some term), evaluator.log ++ [.noted term]⟩ within
  have noted : Extends evaluator [.noted term]
      ⟨evaluator.budget, evaluator.blocked.or (some term), evaluator.log ++ [.noted term]⟩ :=
    ⟨rfl, rfl, rfl⟩
  refine ⟨result, .noted term :: more, after, went, noted.trans extended, ?_⟩
  exact fun quiet => absurd quiet (List.cons_ne_nil _ _)

theorem Undisturbed.spend {report lenient : Walk α} {ways : Ways α} {denied : α}
    (continues : ∀ rest, bound = rest + 1 → Undisturbed rest report lenient ways) :
    Undisturbed bound (do if ← spendLookup then report else return denied)
      (do if ← spendLookup then lenient else return denied) (ways.afterSpending denied) := by
  intro evaluator within
  obtain ⟨budget, blocked, log⟩ := evaluator
  cases budget with
  | zero =>
      exact ⟨denied, [.refused], ⟨0, blocked, log ++ [.refused]⟩, rfl,
        ⟨rfl, rfl, (Option.or_none).symm⟩, fun _ => ⟨rfl, rfl⟩⟩
  | succ remaining =>
      obtain ⟨rest, rfl⟩ : ∃ rest, bound = rest + 1 :=
        ⟨bound - 1, by have : remaining + 1 ≤ bound := within; omega⟩
      have spent : Extends ⟨remaining + 1, blocked, log⟩ [.charged]
          ⟨remaining, blocked, log ++ [.charged]⟩ := ⟨rfl, rfl, (Option.or_none).symm⟩
      obtain ⟨result, added, after, ran, extended, alike⟩ :=
        continues rest rfl ⟨remaining, blocked, log ++ [.charged]⟩ (Nat.le_of_succ_le_succ within)
      refine ⟨result, .charged :: added, after, ran, spent.trans extended, fun quiet => ?_⟩
      obtain ⟨lenientRan, way⟩ := alike quiet
      refine ⟨lenientRan, ?_⟩
      change ways _ ++ [] = _
      rw [List.append_nil]
      exact way

end Undisturbed

section Policies

variable {resolver : SpfResolver} {syn : IpSyntax} {ip : IpAddr} {choices : Choices} {bound : Nat}

/-- An include is read as nothing else. -/
theorem matchSupported_include {mechanism target : Text}
    (included : Str.stripPrefix "include:" (Str.toAsciiLowercase mechanism) = some target)
    (nested : Text → Walk SpfResult) (domain : Text) :
    matchSupported resolver syn ip nested mechanism domain = matchInclude nested target := by
  obtain ⟨rest, lower⟩ : ∃ rest, Str.toAsciiLowercase mechanism = "include:" ++ rest := by
    unfold Str.stripPrefix at included
    split_ifs at included with front
    obtain ⟨rest, same⟩ := front
    exact ⟨rest, same.symm⟩
  unfold matchSupported
  rw [lower] at included ⊢
  simp only [included]
  simp [Str.stripPrefix, Str.startsWith]

/-- Other mechanisms do not look at another policy. -/
theorem matchSupported_plain {mechanism : Text}
    (plain : Str.stripPrefix "include:" (Str.toAsciiLowercase mechanism) = none)
    (nested other : Text → Walk SpfResult) (domain : Text) :
    matchSupported resolver syn ip nested mechanism domain =
      matchSupported resolver syn ip other mechanism domain := by
  unfold matchSupported
  dsimp only
  rw [plain]

/-- What holds of nested checks that are paid for. -/
def NestedUndisturbed (bound : Nat) (report lenient : Text → Walk SpfResult)
    (hosts : Place → Text → Ways SpfResult) : Prop :=
  ∀ rest, bound = rest + 1 → ∀ place domain,
    Undisturbed rest (report domain) (lenient domain) (hosts place domain)

variable {report lenient : Text → Walk SpfResult} {hosts : Place → Text → Ways SpfResult}

theorem undisturbed_matchMechanism (nested : NestedUndisturbed bound report lenient hosts)
    (place : Place) (domain : Text) (qualifier : Char) (mechanism : Text) :
    Undisturbed bound (matchMechanism resolver syn ip .report report mechanism domain)
      (matchMechanism resolver syn ip .lenient lenient mechanism domain)
      (mechanismWays resolver syn ip choices hosts place domain qualifier mechanism) := by
  unfold matchMechanism mechanismWays
  cases unsupportedKind mechanism with
  | some kind => exact (Undisturbed.pure MechanismOutcome.noMatch).noted
  | none =>
      cases included : Str.stripPrefix "include:" (Str.toAsciiLowercase mechanism) with
      | some target =>
          rw [matchSupported_include included, matchSupported_include included]
          refine Undisturbed.spend ?_
          intro rest spent
          exact (nested rest spent _ target).bind (fun result => Undisturbed.pure (includeOutcome result))
      | none =>
          have none_ : Nested bound (fun _ => return .permError) := by
            intro rest spent target
            exact Walks.pure ⟨Fair.nil.more, fun _ => rfl⟩
          rw [matchSupported_plain included report (fun _ => return .permError),
            matchSupported_plain included lenient (fun _ => return .permError)]
          exact Undisturbed.ofWalk (walks_matchSupported none_ mechanism domain)

theorem undisturbed_checkTerms (nested : NestedUndisturbed bound report lenient hosts)
    (place : Place) (domain : Text) (redirect : Option Text) (terms : List Text)
    (plain : ∀ target ∈ redirect, termUsesMacro target = false) :
    Undisturbed bound (checkTerms resolver syn ip .report report domain redirect terms)
      (checkTerms resolver syn ip .lenient lenient domain redirect terms)
      (termWays resolver syn ip choices hosts place domain redirect terms) := by
  induction terms generalizing redirect with
  | nil =>
      cases redirect with
      | none => exact Undisturbed.pure _
      | some target =>
          have literal : termUsesMacro target = false := plain target rfl
          have followed : termWays resolver syn ip choices hosts place domain (some target) [] =
              Ways.afterSpending (hosts place target) .permError :=
            if_neg (by rw [literal]; exact Bool.false_ne_true)
          rw [followed]
          refine Undisturbed.spend ?_
          intro rest spent
          exact nested rest spent place target
  | cons term terms ih =>
      unfold checkTerms termWays
      cases Str.stripPrefix "redirect=" term with
      | some target =>
          dsimp only
          by_cases expanded : termUsesMacro target = true
          · rw [if_pos ⟨rfl, expanded⟩]
            exact (ih redirect plain).noted
          · rw [if_neg (fun both => expanded both.2)]
            refine ih (some target) ?_
            intro other same
            obtain rfl := Option.mem_some_iff.mp same
            exact Bool.eq_false_iff.mpr expanded
      | none =>
          split_ifs
          · exact ih redirect plain
          · refine (undisturbed_matchMechanism nested place domain _ _).bind ?_
            intro outcome
            cases outcome with
            | matched => exact Undisturbed.pure _
            | noMatch => exact ih redirect plain
            | error result => exact Undisturbed.pure _

theorem undisturbed_policy {depth : Nat}
    (nested : NestedUndisturbed bound (checkHost resolver syn ip .report depth)
      (checkHost resolver syn ip .lenient depth) (hostWays resolver syn ip choices depth))
    (place : Place) (domain : Text) :
    Undisturbed bound (checkHost resolver syn ip .report (depth + 1) domain)
      (checkHost resolver syn ip .lenient (depth + 1) domain)
      (hostWays resolver syn ip choices (depth + 1) place domain) := by
  refine (Undisturbed.ofWalk (walks_fetchSpfRecord domain)).bind ?_
  rintro (result | (nothing | record))
  · exact Undisturbed.pure result
  · exact Undisturbed.pure _
  · exact undisturbed_checkTerms nested place domain none _ (fun _ => nofun)

theorem undisturbed_checkHost (depth : Nat) (place : Place) (domain : Text) :
    Undisturbed depth (checkHost resolver syn ip .report (depth + 1) domain)
      (checkHost resolver syn ip .lenient (depth + 1) domain)
      (hostWays resolver syn ip choices (depth + 1) place domain) := by
  induction depth generalizing place domain with
  | zero =>
      refine undisturbed_policy ?_ place domain
      exact fun rest spent => absurd spent (Nat.succ_ne_zero rest).symm
  | succ depth ih =>
      refine undisturbed_policy ?_ place domain
      intro rest spent inner target
      obtain rfl := Nat.succ.inj spent
      exact ih inner target

end Policies

/-! ## Adverse decisions -/

section Ways

variable {α β : Type}

/-- Some of the ways speak for all of them: each other one passes, or one of these does not. -/
structure Represents (leads : α → Consequence) (some_ all : Ways α) : Prop where
  fewer : ∀ evaluator, ∀ way ∈ some_ evaluator, way ∈ all evaluator
  covers : ∀ evaluator, ∀ way ∈ all evaluator, way ∈ some_ evaluator ∨ leads way.1 = .passes ∨
    ∃ other ∈ some_ evaluator, leads other.1 = .differs

theorem Represents.refl (leads : α → Consequence) (ways : Ways α) : Represents leads ways ways where
  fewer := fun _ _ member => member
  covers := fun _ _ member => .inl member

theorem Represents.bind {leads : α → Consequence} {further : β → Consequence} {some_ all : Ways α}
    {next more : α → Ways β} (first : Represents leads some_ all)
    (second : ∀ result, Represents further (next result) (more result))
    (passes : ∀ result, leads result = .passes → ∀ evaluator, ∀ way ∈ more result evaluator,
      further way.1 = .passes)
    (differs : ∀ result, leads result = .differs → ∀ evaluator, ∃ way ∈ next result evaluator,
      further way.1 = .differs) :
    Represents further (some_.bind next) (all.bind more) where
  fewer := by
    intro evaluator way member
    obtain ⟨middle, start, rest⟩ := List.mem_flatMap.mp member
    exact List.mem_flatMap.mpr ⟨middle, first.fewer evaluator middle start,
      (second middle.1).fewer middle.2 way rest⟩
  covers := by
    intro evaluator way member
    obtain ⟨middle, start, rest⟩ := List.mem_flatMap.mp member
    rcases first.covers evaluator middle start with inside | passing | ⟨other, there, differing⟩
    · rcases (second middle.1).covers middle.2 way rest with same | passing | ⟨other, there, differing⟩
      · exact .inl (List.mem_flatMap.mpr ⟨middle, inside, same⟩)
      · exact .inr (.inl passing)
      · exact .inr (.inr ⟨other, List.mem_flatMap.mpr ⟨middle, inside, there⟩, differing⟩)
    · exact .inr (.inl (passes middle.1 passing middle.2 way rest))
    · obtain ⟨last, final, differing⟩ := differs other.1 differing other.2
      exact .inr (.inr ⟨last, List.mem_flatMap.mpr ⟨other, there, final⟩, differing⟩)

/-- The rule behind a part that settles nothing. -/
theorem Represents.after {leads : β → Consequence} {ways : Ways α} {next more : α → Ways β}
    (second : ∀ result, Represents leads (next result) (more result)) :
    Represents leads (ways.bind next) (ways.bind more) :=
  (Represents.refl (fun _ => .goesOn) ways).bind second (fun _ => nofun) (fun _ => nofun)

theorem Represents.afterSpending {leads : α → Consequence} {some_ all : Ways α} (denied : α)
    (represents : Represents leads some_ all) :
    Represents leads (some_.afterSpending denied) (all.afterSpending denied) := by
  refine Represents.after ?_
  intro granted
  cases granted with
  | false => exact Represents.refl _ _
  | true => exact represents

end Ways

section Policies

variable {resolver : SpfResolver} {syn : IpSyntax} {ip : IpAddr}
  {some_ all : Place → Text → Ways SpfResult}

/-- What the outcome of a mechanism leads to. -/
def Place.outcomeLeadsTo (place : Place) (qualifier : Char) : MechanismOutcome → Consequence
  | .matched => place.leadsTo (fromQualifier qualifier)
  | .noMatch => .goesOn
  | .error result => place.leadsTo result

theorem Place.leadsTo_inside (place : Place) (qualifier : Char) (result : SpfResult) :
    place.outcomeLeadsTo qualifier (includeOutcome result) = (place.inside qualifier).leadsTo result := by
  cases result <;> rfl

theorem represents_mechanismChoice (place : Place) (qualifier : Char) (term : UnsupportedTerm) :
    Represents (place.outcomeLeadsTo qualifier) (mechanismChoice .adverse place qualifier term)
      (mechanismChoice .every place qualifier term) := by
  refine Represents.after (fun _ => Represents.afterSpending _ ⟨?_, ?_⟩)
  · intro evaluator way member
    obtain ⟨outcome, chosen, rfl⟩ := List.mem_map.mp member
    obtain ⟨matching, -, rfl⟩ := List.mem_map.mp chosen
    cases matching <;> simp [Ways.among, Choices.every]
  · intro evaluator way member
    obtain ⟨outcome, chosen, rfl⟩ := List.mem_map.mp member
    obtain ⟨matching, -, rfl⟩ := List.mem_map.mp chosen
    cases known : place.leadsTo (fromQualifier qualifier) with
    | passes =>
        cases matching with
        | true => exact .inr (.inl known)
        | false => exact .inl (by simp [Ways.among, Choices.adverse])
    | differs =>
        refine .inr (.inr ⟨(.matched, evaluator), ?_, known⟩)
        simp [Ways.among, Choices.adverse, outcomeOf]
    | goesOn => cases matching <;> exact .inl (by simp [Ways.among, Choices.adverse])

theorem represents_redirectChoice (place : Place) (term : UnsupportedTerm) :
    Represents place.leadsTo (redirectChoice .adverse term) (redirectChoice .every term) := by
  refine Represents.after (fun _ => Represents.afterSpending _ ⟨?_, ?_⟩)
  · intro evaluator way member
    obtain ⟨result, chosen, rfl⟩ := List.mem_map.mp member
    obtain rfl := List.mem_singleton.mp chosen
    simp [Ways.among, Choices.every]
  · intro evaluator way member
    exact .inr (.inr ⟨(.permError, evaluator), by simp [Ways.among, Choices.adverse], rfl⟩)

section

variable (nested : ∀ place domain, Represents place.leadsTo (some_ place domain) (all place domain))
  (place : Place) (domain : Text)
include nested place domain

theorem represents_mechanismWays (qualifier : Char) (mechanism : Text) :
    Represents (place.outcomeLeadsTo qualifier)
      (mechanismWays resolver syn ip .adverse some_ place domain qualifier mechanism)
      (mechanismWays resolver syn ip .every all place domain qualifier mechanism) := by
  unfold mechanismWays
  split
  · exact represents_mechanismChoice place qualifier _
  · split
    · refine Represents.afterSpending _ ((nested _ _).bind (fun _ => Represents.refl _ _) ?_ ?_)
      · intro result passing evaluator way member
        obtain rfl := List.mem_singleton.mp member
        rw [place.leadsTo_inside]
        exact passing
      · intro result differing evaluator
        refine ⟨(includeOutcome result, evaluator), List.mem_singleton.mpr rfl, ?_⟩
        rw [place.leadsTo_inside]
        exact differing
    · exact Represents.refl _ _

theorem represents_termWays (redirect : Option Text) (terms : List Text) :
    Represents place.leadsTo
      (termWays resolver syn ip .adverse some_ place domain redirect terms)
      (termWays resolver syn ip .every all place domain redirect terms) := by
  induction terms generalizing redirect with
  | nil =>
      cases redirect with
      | none => exact Represents.refl _ _
      | some target =>
          unfold termWays redirectWays
          dsimp only
          split_ifs
          · exact represents_redirectChoice place _
          · exact Represents.afterSpending _ (nested place target)
  | cons term terms ih =>
      unfold termWays
      split
      · exact ih _
      · split_ifs
        · exact ih redirect
        · refine (represents_mechanismWays nested place domain _ _).bind ?_ ?_ ?_
          · intro outcome
            cases outcome with
            | matched => exact Represents.refl _ _
            | noMatch => exact ih redirect
            | error result => exact Represents.refl _ _
          · intro outcome passing evaluator way member
            cases outcome with
            | matched | error result =>
                obtain rfl := List.mem_singleton.mp member
                exact passing
            | noMatch => cases passing
          · intro outcome differing evaluator
            cases outcome with
            | matched => exact ⟨_, List.mem_singleton.mpr rfl, differing⟩
            | noMatch => cases differing
            | error result => exact ⟨_, List.mem_singleton.mpr rfl, differing⟩

end

/-- The adverse decisions speak for all. -/
theorem represents_hostWays (depth : Nat) (place : Place) (domain : Text) :
    Represents place.leadsTo (hostWays resolver syn ip .adverse depth place domain)
      (hostWays resolver syn ip .every depth place domain) := by
  induction depth generalizing place domain with
  | zero => exact Represents.refl _ _
  | succ depth ih =>
      refine Represents.after ?_
      rintro (result | (nothing | record))
      · exact Represents.refl _ _
      · exact Represents.refl _ _
      · exact represents_termWays ih place domain none _

end Policies

/-! ## There is a way -/

section Total

variable {α β : Type} {bound : Nat}

/-- Started with no more than some budget, there is a way to go. -/
def Total (bound : Nat) (ways : Ways α) : Prop :=
  ∀ evaluator, evaluator.budget ≤ bound → ways evaluator ≠ [] ∧
    ∀ way ∈ ways evaluator, way.2.budget ≤ bound

theorem Total.ofWalk {walk : Walk α} {P : List Event → α → Prop} (walks : Walks bound walk P) :
    Total bound (Ways.ofWalk walk) := by
  intro evaluator within
  obtain ⟨result, added, after, ran, extended, -⟩ := walks evaluator within
  unfold Ways.ofWalk
  rw [ran]
  refine ⟨List.cons_ne_nil _ _, ?_⟩
  intro way member
  obtain rfl := List.mem_singleton.mp member
  have := extended.budget
  dsimp only
  omega

theorem Total.pure (result : α) : Total bound (Ways.pure result) := by
  intro evaluator within
  refine ⟨List.cons_ne_nil _ _, ?_⟩
  intro way member
  obtain rfl := List.mem_singleton.mp member
  exact within

theorem Total.bind {ways : Ways α} {next : α → Ways β} (first : Total bound ways)
    (second : ∀ result, Total bound (next result)) : Total bound (ways.bind next) := by
  intro evaluator within
  obtain ⟨any, less⟩ := first evaluator within
  constructor
  · obtain ⟨way, member⟩ := List.exists_mem_of_ne_nil _ any
    intro none
    exact (second way.1 way.2 (less way member)).1 (List.flatMap_eq_nil_iff.mp none way member)
  · intro way member
    obtain ⟨middle, start, rest⟩ := List.mem_flatMap.mp member
    exact (second middle.1 middle.2 (less middle start)).2 way rest

theorem Total.among {results : List α} (any : results ≠ []) : Total bound (Ways.among results) := by
  intro evaluator within
  refine ⟨fun none => any (List.map_eq_nil_iff.mp none), ?_⟩
  intro way member
  obtain ⟨result, -, rfl⟩ := List.mem_map.mp member
  exact within

theorem Total.afterSpending {ways : Ways α} (denied : α)
    (continues : ∀ rest, bound = rest + 1 → Total rest ways) :
    Total bound (ways.afterSpending denied) := by
  intro evaluator within
  obtain ⟨budget, blocked, log⟩ := evaluator
  cases budget with
  | zero =>
      refine ⟨List.cons_ne_nil _ _, ?_⟩
      intro way member
      obtain rfl := List.mem_singleton.mp member
      exact Nat.zero_le _
  | succ remaining =>
      obtain ⟨rest, rfl⟩ : ∃ rest, bound = rest + 1 :=
        ⟨bound - 1, by have : remaining + 1 ≤ bound := within; omega⟩
      obtain ⟨any, less⟩ := continues rest rfl ⟨remaining, blocked, log ++ [.charged]⟩
        (Nat.le_of_succ_le_succ within)
      have spent : ways.afterSpending denied ⟨remaining + 1, blocked, log⟩ =
          ways ⟨remaining, blocked, log ++ [.charged]⟩ := List.append_nil _
      rw [spent]
      exact ⟨any, fun way member => Nat.le_succ_of_le (less way member)⟩

theorem Total.noted {term : UnsupportedTerm} {ways : Ways α} (total : Total bound ways) :
    Total bound ((Ways.ofWalk (noteUnsupported term)).bind (fun _ => ways)) :=
  (Total.ofWalk walks_noteUnsupported).bind (fun _ => total)

variable {resolver : SpfResolver} {syn : IpSyntax} {ip : IpAddr}
  {hosts : Place → Text → Ways SpfResult}

section

variable (nested : ∀ rest, bound = rest + 1 → ∀ place domain, Total rest (hosts place domain))
  (place : Place) (domain : Text)
include nested place domain

theorem total_mechanismWays (qualifier : Char) (mechanism : Text) :
    Total bound (mechanismWays resolver syn ip .every hosts place domain qualifier mechanism) := by
  unfold mechanismWays
  split
  · exact (Total.afterSpending _ (fun _ _ => Total.among (List.cons_ne_nil _ _))).noted
  · split
    · refine Total.afterSpending _ ?_
      intro rest spent
      exact (nested rest spent _ _).bind (fun _ => Total.pure _)
    · have alone : Nested bound (fun _ => return .permError) :=
        fun rest spent target => Walks.pure ⟨Fair.nil.more, fun _ => rfl⟩
      exact Total.ofWalk (walks_matchSupported alone mechanism domain)

theorem total_termWays (redirect : Option Text) (terms : List Text) :
    Total bound (termWays resolver syn ip .every hosts place domain redirect terms) := by
  induction terms generalizing redirect with
  | nil =>
      cases redirect with
      | none => exact Total.pure _
      | some target =>
          unfold termWays redirectWays
          dsimp only
          split_ifs
          · exact (Total.afterSpending _ (fun _ _ => Total.among (List.cons_ne_nil _ _))).noted
          · exact Total.afterSpending _ (fun rest spent => nested rest spent place target)
  | cons term terms ih =>
      unfold termWays
      split
      · exact ih _
      · split_ifs
        · exact ih redirect
        · refine (total_mechanismWays nested place domain _ _).bind ?_
          intro outcome
          cases outcome with
          | matched => exact Total.pure _
          | noMatch => exact ih redirect
          | error result => exact Total.pure _

end

theorem total_policy {depth : Nat}
    (nested : ∀ rest, bound = rest + 1 → ∀ place domain,
      Total rest (hostWays resolver syn ip .every depth place domain))
    (place : Place) (domain : Text) :
    Total bound (hostWays resolver syn ip .every (depth + 1) place domain) := by
  refine (Total.ofWalk (walks_fetchSpfRecord domain)).bind ?_
  rintro (result | (nothing | record))
  · exact Total.pure _
  · exact Total.pure _
  · exact total_termWays nested place domain none _

theorem total_hostWays (depth : Nat) (place : Place) (domain : Text) :
    Total depth (hostWays resolver syn ip .every (depth + 1) place domain) := by
  induction depth generalizing place domain with
  | zero =>
      refine total_policy ?_ place domain
      exact fun rest spent => absurd spent (Nat.succ_ne_zero rest).symm
  | succ depth ih =>
      refine total_policy ?_ place domain
      intro rest spent inner target
      obtain rfl := Nat.succ.inj spent
      exact ih inner target

end Total

/-! ## Determined verdicts -/

section Verdicts

variable (resolver : SpfResolver) (syn : IpSyntax) (ip : IpAddr) (domain : Text)

/-- A determined verdict is the result of an evaluation however the unsupported terms are decided,
and without such terms it is the result of `evaluate`. -/
def DeterminedRightly : Prop :=
  ∃ verdict log result events,
    evaluateVerifiable resolver syn ip (maxDnsLookups + 1) domain = some (verdict, log) ∧
    evaluate resolver syn ip (maxDnsLookups + 1) domain = some (result, events) ∧
    (∀ determined, verdict = .determined determined → ∀ other,
      other ∈ possibleResults resolver syn ip .every domain ↔ other = determined) ∧
    (notedTerms log = [] → verdict = .determined result)

/-- The evaluation passes, and has gone by an unsupported term before. -/
def passesByUnsupported : Bool :=
  Str.trim domain ≠ [] && (checkHost resolver syn ip .report (maxDnsLookups + 1) domain
    Evaluator.new).any (fun walked => walked.1 = .pass && walked.2.blocked.isSome)

@[simp] theorem verdictOf_none (result : SpfResult) : verdictOf result none = .determined result := by
  cases result <;> rfl

/-- Behind an unsupported term only a pass is determined. -/
theorem verdictOf_some {result determined : SpfResult} {term : UnsupportedTerm}
    (given : verdictOf result (some term) = .determined determined) :
    result = .pass ∧ determined = .pass := by
  cases result <;> cases given
  exact ⟨rfl, rfl⟩

/-- Every decision passes where the adverse ones do. -/
theorem every_passes
    (passes : ∀ other ∈ possibleResults resolver syn ip .adverse domain, other = .pass) :
    ∀ other, other ∈ possibleResults resolver syn ip .every domain ↔ other = .pass := by
  have represents : Represents Place.top.leadsTo
      (hostWays resolver syn ip .adverse (maxDnsLookups + 1) .top domain)
      (hostWays resolver syn ip .every (maxDnsLookups + 1) .top domain) := represents_hostWays _ _ _
  have total : Total maxDnsLookups
      (hostWays resolver syn ip .every (maxDnsLookups + 1) .top domain) := total_hostWays _ _ _
  unfold possibleResults at passes ⊢
  split_ifs at passes ⊢ with nameless
  · cases passes .none (List.mem_singleton.mpr rfl)
  · have adverse (way : SpfResult × Evaluator)
        (member : way ∈ hostWays resolver syn ip .adverse (maxDnsLookups + 1) .top domain
          Evaluator.new) : way.1 = .pass :=
      passes way.1 (List.mem_map_of_mem member)
    have all (way : SpfResult × Evaluator)
        (member : way ∈ hostWays resolver syn ip .every (maxDnsLookups + 1) .top domain
          Evaluator.new) : way.1 = .pass := by
      rcases represents.covers Evaluator.new way member with inside | passing | ⟨other, there, differing⟩
      · exact adverse way inside
      · cases result : way.1 <;> rw [result] at passing <;> first | rfl | cases passing
      · rw [adverse other there] at differing
        cases differing
    obtain ⟨any, -⟩ := total Evaluator.new (Nat.le_refl _)
    obtain ⟨way, member⟩ := List.exists_mem_of_ne_nil _ any
    intro other
    constructor
    · intro possible
      obtain ⟨way, inside, rfl⟩ := List.mem_map.mp possible
      exact all way inside
    · rintro rfl
      rw [← all way member]
      exact List.mem_map_of_mem member

theorem adverse_possible {other : SpfResult}
    (member : other ∈ possibleResults resolver syn ip .adverse domain) :
    other ∈ possibleResults resolver syn ip .every domain := by
  unfold possibleResults at member ⊢
  split_ifs at member ⊢ with nameless
  · exact member
  · obtain ⟨way, inside, rfl⟩ := List.mem_map.mp member
    exact List.mem_map_of_mem ((represents_hostWays _ _ _).fewer _ way inside)

/-- For every resolver, domain and address: a determined verdict does not depend on what has been
skipped if and only if, where the evaluation passes behind an unsupported term, the decisions that
speak against a pass pass as well. -/
theorem determined_rightly_iff : DeterminedRightly resolver syn ip domain ↔
    (passesByUnsupported resolver syn ip domain = true →
      ∀ other ∈ possibleResults resolver syn ip .adverse domain, other = .pass) := by
  by_cases nameless : Str.trim domain = []
  · -- There is nothing to evaluate.
    have possible (choices : Choices) : possibleResults resolver syn ip choices domain = [.none] :=
      if_pos nameless
    have never : passesByUnsupported resolver syn ip domain = false := by
      simp [passesByUnsupported, nameless]
    rw [never]
    refine ⟨fun _ => nofun, fun _ => ?_⟩
    refine ⟨.determined .none, [], .none, [], if_pos nameless, if_pos nameless, ?_, fun _ => rfl⟩
    intro determined same other
    obtain rfl := SpfVerdict.determined.inj same
    rw [possible]
    exact List.mem_singleton
  · have alike : Undisturbed maxDnsLookups
        (checkHost resolver syn ip .report (maxDnsLookups + 1) domain)
        (checkHost resolver syn ip .lenient (maxDnsLookups + 1) domain)
        (hostWays resolver syn ip .every (maxDnsLookups + 1) .top domain) :=
      undisturbed_checkHost _ _ _
    obtain ⟨result, log, after, ran, extended, same⟩ := alike Evaluator.new (Nat.le_refl _)
    obtain rfl : after.log = log := extended.log
    have blocked : after.blocked = (notedTerms after.log).head? := extended.blocked
    have verdict : evaluateVerifiable resolver syn ip (maxDnsLookups + 1) domain =
        some (verdictOf result after.blocked, after.log) := by
      unfold evaluateVerifiable
      rw [if_neg nameless, ran]
      rfl
    have passing : passesByUnsupported resolver syn ip domain =
        (decide (result = .pass) && after.blocked.isSome) := by
      unfold passesByUnsupported
      rw [ran]
      simp [nameless]
    constructor
    · rintro ⟨given, events, -, -, ran', -, whole, -⟩ passed
      obtain ⟨rfl, rfl⟩ := Prod.mk.inj (Option.some.inj (verdict.symm.trans ran'))
      rw [passing, Bool.and_eq_true, decide_eq_true_eq] at passed
      intro other member
      refine (whole .pass ?_ other).mp (adverse_possible resolver syn ip domain member)
      rw [passed.1]
      rfl
    · intro condition
      obtain ⟨plain, final, ranLenient, -, -, -⟩ :=
        checkHost_bounded resolver syn ip .lenient domain
      have lenient : evaluate resolver syn ip (maxDnsLookups + 1) domain =
          some (plain, final.log) := by
        unfold evaluate
        rw [if_neg nameless, ranLenient _ (Nat.lt_succ_self _)]
        rfl
      refine ⟨_, _, plain, final.log, verdict, lenient, ?_, ?_⟩
      · intro determined given
        cases noted : (notedTerms after.log).head? with
        | some term =>
            rw [blocked, noted] at given passing
            obtain ⟨passes, rfl⟩ := verdictOf_some given
            refine every_passes resolver syn ip domain (condition ?_)
            rw [passing, decide_eq_true passes]
            rfl
        | none =>
            rw [blocked, noted, verdictOf_none] at given
            obtain rfl := SpfVerdict.determined.inj given
            obtain ⟨-, way⟩ := same (List.head?_eq_none_iff.mp noted)
            have alone : possibleResults resolver syn ip .every domain = [result] := by
              unfold possibleResults
              rw [if_neg nameless, way]
              rfl
            rw [alone]
            exact fun other => List.mem_singleton
      · intro quiet
        obtain ⟨ranToo, -⟩ := same quiet
        obtain ⟨rfl, -⟩ := Prod.mk.inj (Option.some.inj
          ((ranLenient _ (Nat.lt_succ_self _)).symm.trans ranToo))
        rw [blocked, quiet]
        exact verdictOf_none plain

/-- A pass behind a term with another qualifier, which may match. -/
theorem pass_behind_exists : ∃ log,
    evaluateVerifiable (.ofPolicies [("a.example", "v=spf1 -exists:b.example +all")])
      exampleSyntax (.v4 0) 11 "a.example" = some (.determined .pass, log) ∧
    .fail ∈ possibleResults
      (.ofPolicies [("a.example", "v=spf1 -exists:b.example +all")])
      exampleSyntax (.v4 0) .every "a.example" := by
  have checked : (evaluateVerifiable
      (.ofPolicies [("a.example", "v=spf1 -exists:b.example +all")])
      exampleSyntax (.v4 0) 11 "a.example").any (fun evaluated =>
        decide (evaluated.1 = .determined .pass)) = true := by
    decide +kernel
  obtain ⟨⟨verdict, log⟩, evaluated, passes⟩ := (Option.any_eq_true _ _).mp checked
  obtain rfl := of_decide_eq_true passes
  exact ⟨log, evaluated, by decide +kernel⟩

end Verdicts

end Camelmailer.Spf
