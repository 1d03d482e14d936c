import Camelmailer.Core.SpfTerms

/-!
# The evaluator and `check_host`

The evaluator is run beside `check_host` as RFC 7208 defines it. The two agree for as long as
`check_host` comes to nothing that the evaluator takes for something else: the evaluator knows
`redirect` in small letters only and does not mind where it leads to nothing, takes a term with an
equals sign for a modifier, and reads only one of two lengths, for both families of addresses.

Names go to the resolver as they are written, or in lower case. What a resolver does not look at is
a function on names that it is blind to.
-/

namespace Camelmailer.SenderPolicy

open Utf8 Spf

/-! ## What is read as it is meant -/

/-- A domain that the evaluator finds in a term. -/
def Plain (spec : DomainSpec) : Prop := '=' ∉ spec.text ∧ spec.text.length ≤ 253

/-- The target and the length of an `a` or an `mx` are read as they are meant for a client. -/
structure ReadAlike (ip : IpAddr) (target : Option DomainSpec) (cidr : DualCidr) : Prop where
  direct : isMapped ip = false
  plain : ∀ spec ∈ target, Plain spec ∧ '/' ∉ spec.text
  meant : cidr.taken.getD (width ip) = cidr.lengthFor ip

section Conditions

variable {syn : IpSyntax} (fold : Text → Text) (ip : IpAddr)

/-- A mechanism that is read as it is meant. -/
def MechanismAlike : Mechanism syn → Prop
  | .all _ => True
  | .ip4 _ _ _ => isMapped ip = false
  | .ip6 _ _ _ => isMapped ip = false
  | .a _ target cidr => ReadAlike ip target cidr
  | .mx _ target cidr => ReadAlike ip target cidr
  | .included _ target => Plain target ∧ fold (Str.toAsciiLowercase target.text) = fold target.text

instance (spec : DomainSpec) : Decidable (Plain spec) := inferInstanceAs (Decidable (_ ∧ _))

instance (target : Option DomainSpec) (cidr : DualCidr) : Decidable (ReadAlike ip target cidr) :=
  decidable_of_iff (isMapped ip = false ∧ (∀ spec ∈ target, Plain spec ∧ '/' ∉ spec.text) ∧
      cidr.taken.getD (width ip) = cidr.lengthFor ip)
    ⟨fun alike => ⟨alike.1, alike.2.1, alike.2.2⟩, fun alike => ⟨alike.direct, alike.plain, alike.meant⟩⟩

instance (mechanism : Mechanism syn) : Decidable (MechanismAlike fold ip mechanism) :=
  match mechanism with
  | .all _ => .isTrue trivial
  | .ip4 _ _ _ => inferInstanceAs (Decidable (isMapped ip = false))
  | .ip6 _ _ _ => inferInstanceAs (Decidable (isMapped ip = false))
  | .a _ target cidr => inferInstanceAs (Decidable (ReadAlike ip target cidr))
  | .mx _ target cidr => inferInstanceAs (Decidable (ReadAlike ip target cidr))
  | .included _ target => inferInstanceAs (Decidable (Plain target ∧
      fold (Str.toAsciiLowercase target.text) = fold target.text))

/-- A TXT record that is a policy for both, or for neither. -/
def TxtAlike : TxtRecord syn → Prop
  | .policy record => record.version.text = "v=spf1"
  | .other text _ => isPolicy text = false

instance (record : TxtRecord syn) : Decidable (TxtAlike record) :=
  match record with
  | .policy record => inferInstanceAs (Decidable (record.version.text = "v=spf1"))
  | .other text _ => inferInstanceAs (Decidable (isPolicy text = false))

/-- What `check_host` comes to is what the evaluator comes to. -/
def VisitAlike : Visit syn → Prop
  | .malformed _ => False
  | .answered records => ∀ record ∈ records, TxtAlike record
  | .selected record => (record.terms.filterMap Term.redirect?).length ≤ 1
  | .consulted mechanism => MechanismAlike fold ip mechanism
  | .followed redirect =>
      redirect.keyword.text = "redirect" ∧ redirect.target.text.length ≤ 253
  | .strayed _ => False

instance (visited : Visit syn) : Decidable (VisitAlike fold ip visited) :=
  match visited with
  | .malformed _ => .isFalse id
  | .answered records => inferInstanceAs (Decidable (∀ record ∈ records, TxtAlike record))
  | .selected record =>
      inferInstanceAs (Decidable ((record.terms.filterMap Term.redirect?).length ≤ 1))
  | .consulted mechanism => inferInstanceAs (Decidable (MechanismAlike fold ip mechanism))
  | .followed redirect => inferInstanceAs (Decidable (redirect.keyword.text = "redirect" ∧
      redirect.target.text.length ≤ 253))
  | .strayed _ => .isFalse id

def folded : Query → Query
  | .txt name => .txt (fold name)
  | .ipAddresses name => .ipAddresses (fold name)
  | .mxHosts name => .mxHosts (fold name)

/-- The answers do not depend on more of a name than a function leaves of it. -/
structure Zone.BlindTo (zone : Zone syn) : Prop where
  txt : ∀ {before other name another}, before.map (folded fold) = other.map (folded fold) →
    fold name = fold another → zone.txt before name = zone.txt other another
  ipAddresses : ∀ {before other name another}, before.map (folded fold) = other.map (folded fold) →
    fold name = fold another → zone.ipAddresses before name = zone.ipAddresses other another
  mxHosts : ∀ {before other name another}, before.map (folded fold) = other.map (folded fold) →
    fold name = fold another → zone.mxHosts before name = zone.mxHosts other another

/-! ## Two evaluations beside each other -/

structure Alike (evaluator : Evaluator) (state : State syn) : Prop where
  budget : evaluator.budget = state.lookups
  asked : (queries evaluator.log).map (folded fold) = state.asked.map (folded fold)

variable {fold ip} {α β γ δ : Type} {bound : Nat} {R : α → γ → Prop} {Q : β → δ → Prop}

variable (fold ip) in
/-- A part of the evaluator goes along with a part of `check_host` that comes to nothing else. -/
def Follows (bound : Nat) (walk : Walk α) (check : Check syn γ) (R : α → γ → Prop) : Prop :=
  ∀ evaluator state, Alike fold evaluator state → state.lookups ≤ bound →
    ∀ value after, check state = some (value, after) →
      (∀ visited ∈ after.visits, VisitAlike fold ip visited) →
      ∃ result later, walk evaluator = some (result, later) ∧ R result value ∧ Alike fold later after

theorem Follows.pure {result : α} {value : γ} (related : R result value) :
    Follows fold ip bound (Pure.pure result) (Pure.pure value : Check syn γ) R := by
  intro evaluator state alike _ _ _ ran _
  obtain ⟨rfl, rfl⟩ := Prod.mk.inj (Option.some.inj ran)
  exact ⟨result, evaluator, rfl, related, alike⟩

variable {check : Check syn γ}

/-- The rule for parts that follow one another: the visits of the first are among those of both. -/
theorem Follows.bind {walk : Walk α} {next : α → Walk β} {more : γ → Check syn δ}
    (ends : Ends bound check) (first : Follows fold ip bound walk check R)
    (endsMore : ∀ value, Ends bound (more value))
    (second : ∀ result value, R result value → Follows fold ip bound (next result) (more value) Q) :
    Follows fold ip bound (walk >>= next) (check >>= more) Q := by
  intro evaluator state alike within value after ran harmless
  obtain ⟨given, middle, visited, checked, fewer, -⟩ := ends state within
  have went : more given middle = some (value, after) := by
    change (check state).bind (fun walked => more walked.1 walked.2) = _ at ran
    rw [checked] at ran
    exact ran
  obtain ⟨other, final, further, same, -, grown⟩ := endsMore given middle (fewer.trans within)
  obtain ⟨rfl, rfl⟩ := Prod.mk.inj (Option.some.inj (went.symm.trans same))
  obtain ⟨result, later, walked, related, still⟩ := first evaluator state alike within given middle
    checked (fun visit member => harmless visit (grown ▸ List.mem_append_left _ member))
  obtain ⟨finally_, last, done, connected, closing⟩ := second result given related later middle still
    (fewer.trans within) value after went harmless
  refine ⟨finally_, last, ?_, connected, closing⟩
  change (walk evaluator).bind (fun walked => next walked.1 walked.2) = _
  rw [walked]
  exact done

/-- What is come to may be relied on. -/
theorem Follows.visit {walk : Walk α} {visited : Visit syn} (ends : Ends bound check)
    (follows : VisitAlike fold ip visited → Follows fold ip bound walk check R) :
    Follows fold ip bound walk (do visit visited; check) R := by
  intro evaluator state alike within value after ran harmless
  have went : check { state with visits := state.visits ++ [visited] } = some (value, after) := ran
  obtain ⟨other, final, more, same, -, grown⟩ := ends { state with visits := state.visits ++ [visited] } within
  obtain ⟨rfl, rfl⟩ := Prod.mk.inj (Option.some.inj (went.symm.trans same))
  have come : visited ∈ after.visits := by
    rw [grown]
    simp
  exact follows (harmless visited come) evaluator { state with visits := state.visits ++ [visited] }
    ⟨alike.budget, alike.asked⟩ within value after went harmless

theorem follows_ask {asked meant : Query} {answer : List Query → α} {answered : List Query → γ}
    (same : folded fold asked = folded fold meant)
    (related : ∀ before other, before.map (folded fold) = other.map (folded fold) →
      R (answer before) (answered other)) :
    Follows fold ip bound (ask asked answer) (query meant answered : Check syn γ) R := by
  intro evaluator state alike _ value after ran _
  obtain ⟨rfl, rfl⟩ := Prod.mk.inj (Option.some.inj ran)
  refine ⟨_, _, rfl, related _ _ alike.asked, alike.budget, ?_⟩
  rw [queries, List.filterMap_append, List.map_append, List.map_append]
  exact congrArg₂ (· ++ ·) alike.asked (congrArg (fun query => [query]) same)

/-- A lookup of the evaluator is a term that is counted. -/
theorem follows_spend {granted refused : Walk α} {counted denied : Check syn γ}
    (stops : Follows fold ip bound refused denied R)
    (goesOn : ∀ rest, bound = rest + 1 → Follows fold ip rest granted counted R) :
    Follows fold ip bound (do if ← spendLookup then granted else refused)
      (do if ← countTerm then counted else denied) R := by
  intro evaluator state alike within value after ran harmless
  obtain ⟨lookups, asked, visits⟩ := state
  obtain ⟨budget, blocked, log⟩ := evaluator
  obtain rfl : budget = lookups := alike.budget
  have quiet (event : Event) (silent : event.query = none) :
      (queries (log ++ [event])).map (folded fold) = asked.map (folded fold) := by
    rw [queries, List.filterMap_append]
    simp only [List.filterMap_cons, silent, List.filterMap_nil, List.append_nil]
    exact alike.asked
  cases budget with
  | zero =>
      exact stops ⟨0, blocked, log ++ [.refused]⟩ ⟨0, asked, visits⟩ ⟨rfl, quiet _ rfl⟩ within
        value after ran harmless
  | succ remaining =>
      obtain ⟨rest, rfl⟩ : ∃ rest, bound = rest + 1 :=
        ⟨bound - 1, (Nat.sub_add_cancel (Nat.le_trans (Nat.succ_pos remaining) within)).symm⟩
      exact goesOn rest rfl ⟨remaining, blocked, log ++ [.charged]⟩ ⟨remaining, asked, visits⟩
        ⟨rfl, quiet _ rfl⟩ (Nat.le_of_succ_le_succ within) value after ran harmless

/-! ## Mechanisms -/

section Mechanisms

variable {zone : Zone syn} (blind : zone.BlindTo fold) {walkHost : Text → Walk SpfResult}
  {nested : Text → Check syn SpfResult} {domain current : Text}

theorem client_direct (direct : isMapped ip = false) : client ip = ip := by
  cases ip with
  | v4 address => rfl
  | v6 address => simp [client, direct]

variable {cidr : DualCidr}

theorem any_ipMatches (direct : isMapped ip = false)
    (meant : cidr.taken.getD (width ip) = cidr.lengthFor ip) (addresses : List IpAddr) :
    addresses.any (fun address => sameNetwork (cidr.lengthFor (client ip)) address (client ip)) =
      addresses.any (fun address => ipMatches address ip cidr.taken) := by
  rw [client_direct direct]
  congr 1
  funext address
  exact (ipMatches_eq meant address).symm

variable {target : Option DomainSpec}

/-- The name that is looked up for an `a` or an `mx`. -/
theorem ReadAlike.named (alike : ReadAlike ip target cidr) (same : fold current = fold domain) :
    fold ((target.map DomainSpec.text).getD current) = fold (targetName target domain) := by
  cases target with
  | none => exact same
  | some spec => exact congrArg fold (DomainSpec.name_eq (alike.plain spec rfl).1.2).symm

theorem compareExchanges_cons (cidr : DualCidr) (host : Text) (rest : List Text) :
    compareExchanges zone ip cidr (host :: rest) =
      (do match ← query (.ipAddresses host) (fun before => zone.ipAddresses before host) with
          | .error _ => return .error .tempError
          | .ok addresses =>
              if addresses.any (fun address => sameNetwork (cidr.lengthFor (client ip)) address (client ip))
              then return .matched
              else compareExchanges zone ip cidr rest) := by
  rw [compareExchanges, compareAddresses, bind_assoc]
  congr 1
  funext answer
  cases answer with
  | error error => rfl
  | ok addresses =>
      dsimp only
      split_ifs <;> rfl

include blind

theorem follows_matchA {keyword : Keyword "a"} (alike : ReadAlike ip target cidr)
    (same : fold current = fold domain) :
    Follows fold ip bound
      (matchA zone.resolver ip (Mechanism.a keyword target cidr : Mechanism syn).text current)
      (evaluateMechanism zone ip nested domain (.a keyword target cidr)) Eq := by
  have named := alike.named same
  unfold matchA
  rw [Mechanism.text, parseDomainSpec_eq keyword target cidr current (fun spec member => (alike.plain spec member).2)]
  refine follows_spend (Follows.pure rfl) (fun rest _ => ?_)
  refine Follows.bind ends_query (follows_ask (congrArg Query.ipAddresses named)
    (fun before other asked => blind.ipAddresses asked named)) ?_ ?_
  · rintro (error | addresses)
    · exact Ends.pure _
    · dsimp only
      split_ifs <;> exact Ends.pure _
  · rintro answer _ rfl
    cases answer with
    | error error => exact Follows.pure rfl
    | ok addresses =>
        dsimp only
        rw [any_ipMatches alike.direct alike.meant]
        split_ifs <;> exact Follows.pure rfl

theorem follows_matchExchanges (direct : isMapped ip = false)
    (meant : cidr.taken.getD (width ip) = cidr.lengthFor ip) (hosts : List Text) :
    Follows fold ip bound (matchExchanges zone.resolver ip cidr.taken hosts)
      (compareExchanges zone ip cidr hosts) Eq := by
  induction hosts with
  | nil => exact Follows.pure rfl
  | cons host rest ih =>
      rw [compareExchanges_cons]
      refine Follows.bind ends_query (follows_ask rfl (fun before other asked =>
        blind.ipAddresses asked rfl)) ?_ ?_
      · rintro (error | addresses)
        · exact Ends.pure _
        · dsimp only
          split_ifs
          · exact Ends.pure _
          · exact ends_compareExchanges cidr rest
      · rintro answer _ rfl
        cases answer with
        | error error => exact Follows.pure rfl
        | ok addresses =>
            dsimp only
            rw [any_ipMatches direct meant]
            split_ifs
            · exact Follows.pure rfl
            · exact ih

theorem follows_matchMx {keyword : Keyword "mx"} (alike : ReadAlike ip target cidr)
    (same : fold current = fold domain) :
    Follows fold ip bound
      (matchMx zone.resolver ip (Mechanism.mx keyword target cidr : Mechanism syn).text current)
      (evaluateMechanism zone ip nested domain (.mx keyword target cidr)) Eq := by
  have named := alike.named same
  unfold matchMx
  rw [Mechanism.text, parseDomainSpec_eq keyword target cidr current (fun spec member => (alike.plain spec member).2)]
  refine follows_spend (Follows.pure rfl) (fun rest _ => ?_)
  refine Follows.bind ends_query (follows_ask (congrArg Query.mxHosts named)
    (fun before other asked => blind.mxHosts asked named)) ?_ ?_
  · rintro (error | hosts)
    · exact Ends.pure _
    · dsimp only
      split_ifs
      · exact Ends.pure _
      · exact ends_compareExchanges cidr hosts
  · rintro answer _ rfl
    cases answer with
    | error error => exact Follows.pure rfl
    | ok hosts =>
        change Follows fold ip rest (if 10 < hosts.length then _ else _) (if 10 < hosts.length then _ else _) Eq
        split_ifs
        · exact Follows.pure rfl
        · exact follows_matchExchanges blind alike.direct alike.meant hosts

/-- What holds of nested checks that are paid for. -/
def NestedFollows (fold : Text → Text) (ip : IpAddr) (bound : Nat) (walkHost : Text → Walk SpfResult)
    (nested : Text → Check syn SpfResult) : Prop :=
  ∀ rest, bound = rest + 1 → (∀ name, Ends rest (nested name)) ∧
    ∀ name other, fold name = fold other →
      Follows fold ip rest (walkHost name) (nested other) Eq

omit blind in
theorem includedOutcome_eq (result : SpfResult) : includedOutcome result = includeOutcome result := by
  cases result <;> rfl

omit blind in
theorem follows_included (follows : NestedFollows fold ip bound walkHost nested)
    (keyword : Keyword "include") {target : DomainSpec} (plain : Plain target)
    (same : fold (Str.toAsciiLowercase target.text) = fold target.text) :
    Follows fold ip bound (matchInclude walkHost (Str.toAsciiLowercase target.text))
      (evaluateMechanism zone ip nested domain (.included keyword target)) Eq := by
  refine follows_spend (Follows.pure rfl) (fun rest spent => ?_)
  obtain ⟨ends, along⟩ := follows rest spent
  refine (along _ target.name ?_).bind (ends _) (fun _ => Ends.pure _) ?_
  · rw [DomainSpec.name_eq plain.2]
    exact same
  · rintro result _ rfl
    exact Follows.pure (includedOutcome_eq result).symm

omit blind in
theorem Ip4Network.bare (network : Ip4Network syn) : '/' ∉ network.text :=
  fun member => absurd (List.all_eq_true.mp network.written '/' member) (by decide)

omit blind in
theorem Ip6Network.bare (network : Ip6Network syn) : '/' ∉ network.text :=
  fun member => absurd (List.all_eq_true.mp network.written '/' member) (by decide)

variable {mechanism : Mechanism syn}

theorem follows_matchMechanism (lawful : LawfulIpSyntax syn)
    (follows : NestedFollows fold ip bound walkHost nested)
    (alike : MechanismAlike fold ip mechanism) (same : fold current = fold domain) :
    Follows fold ip bound
      (matchMechanism zone.resolver syn ip .lenient walkHost mechanism.text current)
      (evaluateMechanism zone ip nested domain mechanism) Eq := by
  change Follows fold ip bound (matchSupported zone.resolver syn ip walkHost mechanism.text current) _ Eq
  cases mechanism with
  | all keyword =>
      rw [matchSupported_all]
      exact Follows.pure rfl
  | ip4 keyword network length =>
      have compared := ipInCidr_network lawful network.denotes network.bare length
        (fun given _ => Nat.le_of_lt_succ given.isLt) ip
      rw [Mechanism.text, matchSupported_network keyword (.inl rfl) rfl compared]
      refine Follows.pure ?_
      rw [client_direct alike]
      rfl
  | ip6 keyword network length =>
      have compared := ipInCidr_network lawful network.denotes network.bare length
        (fun given _ => Nat.le_of_lt_succ given.isLt) ip
      rw [Mechanism.text, matchSupported_network keyword (.inr rfl) rfl compared]
      refine Follows.pure ?_
      rw [client_direct alike]
      rfl
  | a keyword target cidr =>
      rw [matchSupported_a]
      exact follows_matchA blind alike same
  | mx keyword target cidr =>
      rw [matchSupported_mx]
      exact follows_matchMx blind alike same
  | included keyword target =>
      rw [matchSupported_included]
      exact follows_included follows keyword alike.1 alike.2

/-! ## Records -/

omit blind in
theorem lengthText_no_equals {most : Nat} {mark : Text} (absent : '=' ∉ mark)
    (length : Option (Fin most)) : '=' ∉ lengthText mark length := by
  cases length with
  | none => exact List.not_mem_nil
  | some length =>
      refine fun member => (List.mem_append.mp member).elim absent (fun inside => ?_)
      exact absurd (isDigit_decimal inside) (by decide)

omit blind in
/-- A mechanism that is read as it is meant is not taken for a modifier. -/
theorem MechanismAlike.no_equals (alike : MechanismAlike fold ip mechanism) :
    '=' ∉ mechanism.text := by
  have word {word : Text} (keyword : Keyword word) (absent : '=' ∉ word) : '=' ∉ keyword.text :=
    keyword.not_mem (by decide) absent
  have digits {most : Nat} (length : Option (Fin most)) : '=' ∉ lengthText ['/'] length :=
    lengthText_no_equals (by decide) length
  have target {target : Option DomainSpec} {cidr : DualCidr} (alike : ReadAlike ip target cidr) :
      '=' ∉ targetText target ++ cidr.text := by
    have lengths : '=' ∉ cidr.text := fun member => (List.mem_append.mp member).elim
      (digits cidr.ip4) (lengthText_no_equals (by decide) cidr.ip6)
    cases target with
    | none => exact lengths
    | some spec => simp [targetText, (alike.plain spec rfl).1.1, lengths]
  cases mechanism with
  | all keyword => exact word keyword (by decide)
  | ip4 keyword network length | ip6 keyword network length =>
      have unsigned : '=' ∉ network.text :=
        fun member => absurd (List.all_eq_true.mp network.written '=' member) (by decide)
      simp [Mechanism.text, word keyword (by decide), unsigned, digits length]
  | a keyword given cidr | mx keyword given cidr =>
      exact fun member => (List.mem_append.mp member).elim (word keyword (by decide)) (target alike)
  | included keyword given =>
      simp [Mechanism.text, word keyword (by decide), alike.1.1]

/-- The redirect that the evaluator has read behind some terms. -/
def takenRedirect (redirect : Option Text) : List (Term syn) → Option Text
  | [] => redirect
  | .directive _ :: rest => takenRedirect redirect rest
  | .redirect given :: rest =>
      takenRedirect (if given.keyword.text = "redirect" then some given.target.text else redirect)
        rest

omit blind in
theorem takenRedirect_none (redirect : Option Text) {terms : List (Term syn)}
    (none : terms.filterMap Term.redirect? = []) : takenRedirect redirect terms = redirect := by
  induction terms with
  | nil => rfl
  | cons term rest ih =>
      cases term with
      | directive given => exact ih none
      | redirect given => cases none

omit blind in
theorem takenRedirect_one (before : Option Text) {terms : List (Term syn)} {redirect : Redirect}
    (one : terms.filterMap Term.redirect? = [redirect])
    (lower : redirect.keyword.text = "redirect") :
    takenRedirect before terms = some redirect.target.text := by
  induction terms with
  | nil => cases one
  | cons term rest ih =>
      cases term with
      | directive given => exact ih one
      | redirect given =>
          obtain ⟨rfl, others⟩ := List.cons.inj one
          rw [takenRedirect, if_pos lower]
          exact takenRedirect_none _ others

/-- The redirect that is followed is the one that the evaluator has read. -/
def Settled (redirect : Option Redirect) (taken : Option Text) : Prop :=
  match redirect with
  | none => taken = none
  | some redirect =>
      redirect.keyword.text = "redirect" → taken = some redirect.target.text

omit blind in
theorem follows_followRedirect (follows : NestedFollows fold ip bound walkHost nested)
    {redirect : Option Redirect} {taken : Option Text} (settled : Settled redirect taken) :
    Follows fold ip bound (followRedirect walkHost taken) (evaluateRedirect nested redirect) Eq := by
  cases redirect with
  | none =>
      obtain rfl : taken = none := settled
      exact Follows.pure rfl
  | some redirect =>
      refine Follows.visit (ends_countTerm (Ends.pure _) (fun rest spent =>
        ((follows rest spent).1 _).bind (fun result => ?_))) ?_
      · cases result with
        | none => exact (ends_visit _).bind (fun _ => Ends.pure _)
        | _ => exact Ends.pure _
      rintro ⟨lower, short⟩
      obtain rfl := settled lower
      refine follows_spend (Follows.pure rfl) (fun rest spent => ?_)
      obtain ⟨ends, along⟩ := follows rest spent
      rw [← bind_pure (walkHost redirect.target.text)]
      refine (along _ redirect.target.name ?_).bind (ends _) (fun result => ?_) ?_
      · rw [DomainSpec.name_eq short]
      · cases result with
        | none => exact (ends_visit _).bind (fun _ => Ends.pure _)
        | _ => exact Ends.pure _
      · rintro result _ rfl
        cases result with
        | none => exact Follows.visit (Ends.pure _) (fun never => False.elim never)
        | _ => exact Follows.pure rfl

omit blind in
theorem evaluateDirectives_cons (directive : Directive syn) (rest : List (Directive syn))
    (next : Option SpfResult → Check syn SpfResult) :
    evaluateDirectives zone ip nested domain (directive :: rest) >>= next = (do
      visit (.consulted directive.mechanism)
      match ← evaluateMechanism zone ip nested domain directive.mechanism with
      | .matched => next (some (directive.qualifier.getD .pass).result)
      | .noMatch => evaluateDirectives zone ip nested domain rest >>= next
      | .error result => next (some result)) := by
  rw [evaluateDirectives, bind_assoc]
  congr 1
  funext _
  rw [bind_assoc]
  congr 1
  funext outcome
  cases outcome <;> rfl

/-- What is done with the result of the first mechanism that matches. -/
def concludeRecord (nested : Text → Check syn SpfResult) (redirect : Option Redirect) :
    Option SpfResult → Check syn SpfResult
  | some result => return result
  | none => evaluateRedirect nested redirect

theorem follows_checkTerms (lawful : LawfulIpSyntax syn)
    (follows : NestedFollows fold ip bound walkHost nested) (same : fold current = fold domain)
    {redirect : Option Redirect} (taken : Option Text) (terms : List (Term syn))
    (settled : Settled redirect (takenRedirect taken terms)) :
    Follows fold ip bound
      (checkTerms zone.resolver syn ip .lenient walkHost current taken (terms.map Term.text))
      (evaluateDirectives zone ip nested domain (terms.filterMap Term.directive?) >>=
        concludeRecord nested redirect) Eq := by
  have nests : ∀ rest, bound = rest + 1 → ∀ name, Ends rest (nested name) :=
    fun rest spent => (follows rest spent).1
  have concludes (result : Option SpfResult) : Ends bound (concludeRecord nested redirect result) := by
    cases result with
    | none => exact ends_evaluateRedirect nests redirect
    | some result => exact Ends.pure _
  have goes (rest : List (Directive syn)) : Ends bound
      (evaluateDirectives zone ip nested domain rest >>= concludeRecord nested redirect) :=
    (ends_evaluateDirectives nests domain rest).bind concludes
  induction terms generalizing taken with
  | nil =>
      exact follows_followRedirect follows settled
  | cons term rest ih =>
      cases term with
      | redirect given =>
          change Follows fold ip bound (checkTerms _ _ _ _ _ _ _ (given.text :: rest.map Term.text)) _ Eq
          rw [checkTerms, stripPrefix_redirect]
          by_cases lower : given.keyword.text = "redirect"
          · rw [takenRedirect, if_pos lower] at settled
            rw [if_pos lower]
            exact ih (some given.target.text) settled
          · rw [takenRedirect, if_neg lower] at settled
            rw [if_neg lower]
            rw [if_pos given.mem_equals]
            exact ih taken settled
      | directive given =>
          have steps (outcome : MechanismOutcome) : Ends bound (match outcome with
              | .matched => concludeRecord nested redirect (some (given.qualifier.getD .pass).result)
              | .noMatch => evaluateDirectives zone ip nested domain (rest.filterMap Term.directive?) >>=
                  concludeRecord nested redirect
              | .error result => concludeRecord nested redirect (some result)) := by
            cases outcome with
            | matched => exact concludes _
            | noMatch => exact goes _
            | error result => exact concludes _
          change Follows fold ip bound (checkTerms _ _ _ _ _ _ _ (given.text :: rest.map Term.text))
            (evaluateDirectives zone ip nested domain (given :: rest.filterMap Term.directive?) >>=
              concludeRecord nested redirect) Eq
          rw [evaluateDirectives_cons]
          refine Follows.visit ((ends_evaluateMechanism nests domain _).bind steps) (fun alike => ?_)
          have plain : '=' ∉ given.text := by
            intro member
            rcases List.mem_append.mp member with mark | inside
            · cases qualified : given.qualifier with
              | none =>
                  rw [qualified] at mark
                  cases mark
              | some qualifier =>
                  rw [qualified] at mark
                  cases qualifier <;> exact absurd mark (by decide)
            · exact alike.no_equals inside
          rw [checkTerms, stripPrefix_plain plain]
          rw [if_neg plain, splitQualifier_directive]
          refine (follows_matchMechanism blind lawful follows alike same).bind
            (ends_evaluateMechanism nests domain _) steps ?_
          rintro outcome _ rfl
          cases outcome with
          | matched => exact Follows.pure (fromQualifier_char _)
          | noMatch => exact ih taken settled
          | error result => exact Follows.pure rfl

/-! ## Whole checks -/

omit blind in
theorem filter_isPolicy {records : List (TxtRecord syn)}
    (alike : VisitAlike fold ip (.answered records)) :
    (records.map TxtRecord.text).filter isPolicy =
      (records.filterMap TxtRecord.policy?).map Record.text := by
  induction records with
  | nil => rfl
  | cons record rest ih =>
      have others := ih (fun other member => alike other (List.mem_cons_of_mem _ member))
      have first := alike record List.mem_cons_self
      cases record with
      | policy policy =>
          have taken : isPolicy (TxtRecord.policy policy).text = true := isPolicy_record policy first
          rw [List.map_cons, List.filter_cons_of_pos taken, others]
          rfl
      | other text foreign =>
          have left : ¬isPolicy (TxtRecord.other text foreign : TxtRecord syn).text = true :=
            Bool.eq_false_iff.mp first
          rw [List.map_cons, List.filter_cons_of_neg left, others]
          rfl

omit blind in
theorem checkHost_eq {resolver : SpfResolver} (depth : Nat) :
    Spf.checkHost resolver syn ip .lenient (depth + 1) current = (do
      match ← ask (.txt current) (fun before => resolver.txt before current) with
      | .error _ => return .tempError
      | .ok records =>
          match records.filter isPolicy with
          | [] => return .none
          | [record] =>
              checkTerms resolver syn ip .lenient (Spf.checkHost resolver syn ip .lenient depth)
                current none ((splitWhitespace record).drop 1)
          | _ => return .permError) := by
  rw [Spf.checkHost, fetchSpfRecord, bind_assoc]
  congr 1
  funext answer
  cases answer with
  | error error => rfl
  | ok records =>
      dsimp only
      cases records.filter isPolicy with
      | nil => rfl
      | cons record others => cases others <;> rfl

theorem follows_record (lawful : LawfulIpSyntax syn)
    (follows : NestedFollows fold ip bound walkHost nested) (same : fold current = fold domain)
    (record : Record syn) :
    Follows fold ip bound
      (checkTerms zone.resolver syn ip .lenient walkHost current none
        ((splitWhitespace record.text).drop 1))
      (evaluateRecord zone ip nested domain record) Eq := by
  have nests : ∀ rest, bound = rest + 1 → ∀ name, Ends rest (nested name) :=
    fun rest spent => (follows rest spent).1
  refine Follows.visit ?_ (fun single => ?_)
  · split_ifs
    · exact Ends.pure _
    · refine (ends_evaluateDirectives nests domain _).bind ?_
      rintro (none | result)
      · exact ends_evaluateRedirect nests _
      · exact Ends.pure _
  · have one : ¬1 < (record.terms.filterMap Term.redirect?).length := Nat.not_lt.mpr single
    rw [if_neg one, splitWhitespace_record]
    refine follows_checkTerms blind lawful follows same none record.terms ?_
    cases given : record.terms.filterMap Term.redirect? with
    | nil => exact takenRedirect_none none given
    | cons redirect others =>
        obtain rfl : others = [] := by
          change (record.terms.filterMap Term.redirect?).length ≤ 1 at single
          rw [given] at single
          exact List.eq_nil_of_length_eq_zero (Nat.le_zero.mp (Nat.le_of_succ_le_succ single))
        exact takenRedirect_one none given

theorem follows_checkHost (lawful : LawfulIpSyntax syn) (depth : Nat) (name other : Text)
    (same : fold name = fold other) :
    Follows fold ip depth (Spf.checkHost zone.resolver syn ip .lenient (depth + 1) name)
      (checkHost zone ip (depth + 1) other) Eq := by
  have policy (bound depth : Nat) (follows : NestedFollows fold ip bound
      (Spf.checkHost zone.resolver syn ip .lenient depth) (checkHost zone ip depth))
      (name other : Text) (same : fold name = fold other) :
      Follows fold ip bound (Spf.checkHost zone.resolver syn ip .lenient (depth + 1) name)
        (checkHost zone ip (depth + 1) other) Eq := by
    have nests : ∀ rest, bound = rest + 1 → ∀ name, Ends rest (checkHost zone ip depth name) :=
      fun rest spent => (follows rest spent).1
    rw [checkHost_eq]
    unfold checkHost
    split_ifs
    · have asks : Follows fold ip bound
          (ask (.txt name) (fun before => zone.resolver.txt before name))
          (query (.txt other) (fun before => zone.txt before other) : Check syn _)
          (fun answer answered => answer = answered.map (List.map TxtRecord.text)) :=
        follows_ask (congrArg Query.txt same) (fun before another asked =>
          congrArg (Except.map (List.map TxtRecord.text)) (blind.txt asked same))
      refine asks.bind ends_query ?_ ?_
      · rintro (error | records)
        · exact Ends.pure _
        · refine (ends_visit _).bind (fun _ => ?_)
          split
          · exact Ends.pure _
          · exact ends_evaluateRecord nests other _
          · exact Ends.pure _
      · rintro _ answer rfl
        cases answer with
        | error error => exact Follows.pure rfl
        | ok records =>
            refine Follows.visit ?_ (fun alike => ?_)
            · split
              · exact Ends.pure _
              · exact ends_evaluateRecord nests other _
              · exact Ends.pure _
            · dsimp only [Except.map]
              rw [filter_isPolicy alike]
              cases records.filterMap TxtRecord.policy? with
              | nil => exact Follows.pure rfl
              | cons record others =>
                  cases others with
                  | nil => exact follows_record blind lawful follows same record
                  | cons another more => exact Follows.pure rfl
    · exact Follows.visit (Ends.pure _) (fun never => False.elim never)
  induction depth generalizing name other with
  | zero => exact policy 0 0 (fun rest spent => absurd spent (Nat.succ_ne_zero rest).symm) name other same
  | succ depth ih =>
      refine policy (depth + 1) (depth + 1) ?_ name other same
      intro rest spent
      obtain rfl := Nat.succ.inj spent
      exact ⟨ends_checkHost depth, ih⟩

end Mechanisms

end Conditions

section Whole

variable {syn : IpSyntax}

/-- The evaluator has the result of `check_host`. -/
def Conforms (zone : Zone syn) (ip : IpAddr) (depth : Nat) (domain : Text) : Prop :=
  ∃ result visits log, standardResult zone ip depth domain = some (result, visits) ∧
    evaluate zone.resolver syn ip depth domain = some (result, log)

/-- `check_host` comes to nothing that the evaluator takes for something else. -/
def ReadAsMeant (fold : Text → Text) (zone : Zone syn) (ip : IpAddr) (depth : Nat) (domain : Text) : Prop :=
  Str.trim domain ≠ [] → ∀ checked ∈ standardResult zone ip depth domain,
    ∀ visited ∈ checked.2, VisitAlike fold ip visited

/-- A name of white space has one label. -/
theorem isMultiLabel_nameless {domain : Text} (nameless : Str.trim domain = []) :
    isMultiLabel domain = false := by
  have undotted : '.' ∉ domain := by
    intro member
    have space : Str.isWhitespace '.' = true := by
      rw [← List.takeWhile_append_dropWhile (p := Str.isWhitespace) (l := domain)] at member
      rcases List.mem_append.mp member with front | back
      · exact List.mem_takeWhile_imp front
      · exact List.rdropWhile_eq_nil_iff.mp nameless '.' back
    cases space
  have unrooted : Str.stripLast '.' domain = none :=
    if_neg (fun last => undotted (List.mem_of_getLast? last))
  have single : domain.splitOn '.' = [domain] := by
    refine List.splitOnP_eq_singleton (fun char member => ?_)
    exact beq_eq_false_iff_ne.mpr (fun same => undotted (same ▸ member))
  simp [isMultiLabel, unrooted, single]

/-- The evaluator has the result that is defined, as long as what is come to on the way is read as it
is meant. -/
theorem evaluate_conforms (lawful : LawfulIpSyntax syn) (fold : Text → Text) (zone : Zone syn)
    (blind : zone.BlindTo fold) (ip : IpAddr) (domain : Text) (depth : Nat)
    (enough : maxDnsLookups < depth) (meant : ReadAsMeant fold zone ip depth domain) :
    Conforms zone ip depth domain := by
  obtain ⟨deep, rfl⟩ : ∃ deep, depth = deep + 1 := ⟨depth - 1, by omega⟩
  have within : (⟨10, [], []⟩ : State syn).lookups ≤ deep := Nat.le_of_lt_succ enough
  have ends : Ends deep (checkHost zone ip (deep + 1) domain) := ends_checkHost deep domain
  obtain ⟨result, after, more, checked, -, -⟩ := ends _ within
  have standard : standardResult zone ip (deep + 1) domain = some (result, after.visits) :=
    (congrArg (Option.map _) checked).trans rfl
  by_cases nameless : Str.trim domain = []
  · have none : standardResult zone ip (deep + 1) domain = some (.none, [.malformed domain]) := by
      have single := isMultiLabel_nameless nameless
      unfold standardResult checkHost
      rw [if_neg (Bool.eq_false_iff.mp single)]
      rfl
    exact ⟨.none, [.malformed domain], [], none, if_pos nameless⟩
  · have harmless := meant nameless _ standard
    obtain ⟨same, later, walked, rfl, -⟩ := follows_checkHost blind lawful deep domain domain rfl
      Evaluator.new _ ⟨rfl, rfl⟩ within result after checked harmless
    refine ⟨same, after.visits, later.log, standard, ?_⟩
    rw [evaluate, if_neg nameless, walked]
    rfl

/-! ## Policies for examples -/

/-- Of the addresses, one is known. -/
def exampleAddress : IpSyntax where
  parseIp := fun text =>
    if Str.toAsciiLowercase text = "192.0.2.1" then some (.v4 0xc0000201#32) else none
  parseNet := fun text =>
    match Str.splitOnce '/' text with
    | some (address, length) =>
        if Str.toAsciiLowercase address = "192.0.2.1" then
          (parseU8 length).bind (IpNet.new (.v4 0xc0000201#32))
        else none
    | none => none

theorem exampleAddress_lawful : LawfulIpSyntax exampleAddress where
  parseIp_lower := fun text => by simp only [exampleAddress, Str.lower_lower]
  parseNet_slash := by
    intro text address length net read valid
    have known : Str.toAsciiLowercase text = "192.0.2.1" ∧ address = .v4 0xc0000201#32 := by
      unfold exampleAddress at read
      dsimp only at read
      split_ifs at read with known
      exact ⟨known, (Option.some.inj read).symm⟩
    obtain ⟨known, rfl⟩ := known
    have bare : '/' ∉ text := by
      intro member
      have lower : ('/' : Char).toLower ∈ Str.toAsciiLowercase text := List.mem_map_of_mem member
      rw [known] at lower
      exact absurd lower (by decide)
    have short : length ≤ 32 := by
      by_contra long
      have invalid : IpNet.new (.v4 0xc0000201#32) length = none := if_neg long
      rw [invalid] at valid
      cases valid
    have cut : Str.splitOnce '/' (text ++ '/' :: decimal length) = some (text, decimal length) :=
      Str.splitOnce_eq_some.mpr ⟨rfl, bare⟩
    have digits : parseU8 (decimal length) = some length :=
      parseU8_decimal ⟨length, Nat.lt_succ_of_le short⟩
    simp only [exampleAddress, cut, known, digits]
    exact valid
  parseNet_bare := by
    intro text bare
    simp only [exampleAddress, Str.splitOnce_eq_none.mpr bare]

/-- A zone with some policies and nothing else, in small letters. -/
def Zone.ofPolicies (policies : List (Text × Record syn)) : Zone syn where
  txt := fun _ name => .ok ((policies.filter (fun policy =>
    policy.1 = Str.toAsciiLowercase name)).map (fun policy => .policy policy.2))
  ipAddresses := fun _ _ => .ok []
  mxHosts := fun _ _ => .ok []

theorem Zone.ofPolicies_blind (policies : List (Text × Record syn)) :
    (Zone.ofPolicies policies).BlindTo Str.toAsciiLowercase where
  txt := by
    intro before other name another _ same
    simp only [Zone.ofPolicies, same]
  ipAddresses := fun _ _ => rfl
  mxHosts := fun _ _ => rfl

def exampleSpec (front : String) (literal : front.toList.all isLiteral = true) : DomainSpec where
  front := front.toList
  top := "example"
  rooted := false
  literal := literal
  label := by decide

/-- `v=spf1 Include:B.example -all`, and `v=spf1  IP4:192.0.2.1/24` for the other domain. -/
def exampleZone : Zone exampleAddress := .ofPolicies [
  ("a.example", {
    version := .plain _ (by decide)
    spaced := [
      (0, .directive ⟨none, .included ⟨"Include", by decide⟩ (exampleSpec "B" (by decide))⟩),
      (0, .directive ⟨some .fail, .all (.plain _ (by decide))⟩)]
    trailing := 0 }),
  ("b.example", {
    version := .plain _ (by decide)
    spaced := [(1, .directive ⟨none, .ip4 ⟨"IP4", by decide⟩
      ⟨"192.0.2.1", 0xc0000201#32, by decide, by decide⟩ (some 24)⟩)]
    trailing := 0 })]

/-- A client in the network is given the result that is defined, a pass. -/
theorem included_network_conforms :
    Conforms exampleZone (.v4 0xc0000207#32) 11 "a.example" := by
  refine evaluate_conforms exampleAddress_lawful Str.toAsciiLowercase exampleZone
    (Zone.ofPolicies_blind _) _ _ 11 (by decide) ?_
  have alike : (standardResult exampleZone (.v4 0xc0000207#32) 11 "a.example").all
      (fun checked => checked.2.all (fun visited =>
        decide (VisitAlike Str.toAsciiLowercase (.v4 0xc0000207#32) visited))) = true := by
    decide
  intro _ checked came visited member
  rw [came] at alike
  exact of_decide_eq_true (List.all_eq_true.mp alike visited member)

/-- `v=spf1 redirect=b.example`, where that domain has no policy. -/
def strayZone : Zone exampleAddress := .ofPolicies [("a.example", {
  version := .plain _ (by decide)
  spaced := [(0, .redirect ⟨.plain _ (by decide), exampleSpec "b" (by decide)⟩)]
  trailing := 0 })]

/-- The result is defined to be a permanent error, and the evaluator has none. -/
theorem redirect_to_nothing_unlike : ¬Conforms strayZone (.v4 0#32) 11 "a.example" := by
  rintro ⟨result, visits, log, standard, evaluated⟩
  have defined_ : (standardResult strayZone (.v4 0#32) 11 "a.example").map Prod.fst =
      some .permError := by
    decide
  have given : (evaluate strayZone.resolver exampleAddress (.v4 0#32) 11 "a.example").map Prod.fst =
      some .none := by
    decide
  rw [standard] at defined_
  rw [evaluated] at given
  cases Option.some.inj defined_
  cases Option.some.inj given

end Whole

end Camelmailer.SenderPolicy
