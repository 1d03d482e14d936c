import Camelmailer.Core.Spf

/-!
# The two forms of an IPv4 client

A listening socket may report an IPv4 client by its address, or by the IPv6 address that stands for
it. The evaluator compares addresses of one family only, so that the two forms part where a network
or an address of the policy is that of the client. Up to there the two evaluations are one: they ask
the same, spend the same and note the same. Whether they part is found by going along the evaluation
for the first form.
-/

namespace Camelmailer.Spf

open Utf8

/-! ## Comparisons along a walk -/

/-- What is asked of the state behind a walk. -/
def along {α : Type} (walk : Walk α) (next : α → Evaluator → Bool) (evaluator : Evaluator) : Bool :=
  match walk evaluator with
  | none => true
  | some (result, after) => next result after

section Comparisons

variable (resolver : SpfResolver) (syn : IpSyntax) (first second : IpAddr)

def sameNetworks (spec : Text) : Bool := ipInCidr syn spec first = ipInCidr syn spec second

def someMatches (ip : IpAddr) (cidr : Option Nat) (addresses : List IpAddr) : Bool :=
  addresses.any (fun address => ipMatches address ip cidr)

def sameAddresses (cidr : Option Nat) (addresses : List IpAddr) : Bool :=
  someMatches first cidr addresses = someMatches second cidr addresses

/-- The comparison of an `a`. -/
def sameA (mechanism currentDomain : Text) : Evaluator → Bool :=
  let (target, cidr) := parseDomainSpec mechanism "a" currentDomain
  along spendLookup (fun granted =>
    if granted then
      along (ask (.ipAddresses target) (fun before => resolver.ipAddresses before target))
        (fun answer _ =>
          match answer with
          | .error _ => true
          | .ok addresses => sameAddresses first second cidr addresses)
    else fun _ => true)

/-- The comparisons of the exchanges of an `mx`, up to the first match. -/
def sameExchanges (cidr : Option Nat) : List Text → Evaluator → Bool
  | [] => fun _ => true
  | host :: rest =>
      along (ask (.ipAddresses host) (fun before => resolver.ipAddresses before host))
        (fun answer after =>
          match answer with
          | .error _ => true
          | .ok addresses => sameAddresses first second cidr addresses &&
              (someMatches first cidr addresses || sameExchanges cidr rest after))

/-- The comparisons of an `mx`. -/
def sameMx (mechanism currentDomain : Text) : Evaluator → Bool :=
  let (target, cidr) := parseDomainSpec mechanism "mx" currentDomain
  along spendLookup (fun granted =>
    if granted then
      along (ask (.mxHosts target) (fun before => resolver.mxHosts before target))
        (fun answer after =>
          match answer with
          | .error _ => true
          | .ok hosts => maxMxAddressLookups < hosts.length ||
              sameExchanges resolver first second cidr hosts after)
    else fun _ => true)

/-- The comparisons of a policy that is paid for. -/
def sameNested (sameHost : Text → Evaluator → Bool) (target : Text) : Evaluator → Bool :=
  along spendLookup (fun granted => if granted then sameHost target else fun _ => true)

/-- The comparisons of a mechanism that is supported. -/
def sameSupported (sameHost : Text → Evaluator → Bool) (mechanism currentDomain : Text) :
    Evaluator → Bool :=
  let lower := Str.toAsciiLowercase mechanism
  if lower = "all" then fun _ => true
  else match (Str.stripPrefix "ip4:" lower).or (Str.stripPrefix "ip6:" lower) with
  | some rest => fun _ => sameNetworks syn first second rest
  | none =>
      if lower = "a" ∨ Str.startsWith lower "a:" ∨ Str.startsWith lower "a/" then
        sameA resolver first second mechanism currentDomain
      else if lower = "mx" ∨ Str.startsWith lower "mx:" ∨
          Str.startsWith lower "mx/" then
        sameMx resolver first second mechanism currentDomain
      else match Str.stripPrefix "include:" lower with
      | some target => sameNested sameHost target
      | none => fun _ => true

/-- The comparisons of a mechanism. -/
def sameMechanism (mode : MacroMode) (sameHost : Text → Evaluator → Bool)
    (mechanism currentDomain : Text) : Evaluator → Bool :=
  match if mode = .report then unsupportedKind mechanism else none with
  | some _ => fun _ => true
  | none => sameSupported resolver syn first second sameHost mechanism currentDomain

/-- The comparisons behind a redirect. -/
def sameRedirect (sameHost : Text → Evaluator → Bool) : Option Text → Evaluator → Bool
  | none => fun _ => true
  | some target => sameNested sameHost target

/-- The comparisons of terms, up to the first match. -/
def sameTerms (mode : MacroMode) (checkHost : Text → Walk SpfResult)
    (sameHost : Text → Evaluator → Bool) (domain : Text) :
    Option Text → List Text → Evaluator → Bool
  | redirect, [] => sameRedirect sameHost redirect
  | redirect, term :: rest =>
      match Str.stripPrefix "redirect=" term with
      | some target =>
          if mode = .report ∧ termUsesMacro target then
            along (noteUnsupported ⟨term, domain, .macros⟩)
              (fun _ => sameTerms mode checkHost sameHost domain redirect rest)
          else sameTerms mode checkHost sameHost domain (some target) rest
      | none =>
          if '=' ∈ term then sameTerms mode checkHost sameHost domain redirect rest
          else fun evaluator =>
            sameMechanism resolver syn first second mode sameHost (splitQualifier term).2 domain
                evaluator &&
              along (matchMechanism resolver syn first mode checkHost (splitQualifier term).2 domain)
                (fun outcome after =>
                  match outcome with
                  | .noMatch => sameTerms mode checkHost sameHost domain redirect rest after
                  | _ => true) evaluator

/-- The comparisons of the evaluation for the first form: whether each of them is decided alike for
the second one. -/
def sameHost (mode : MacroMode) : Nat → Text → Evaluator → Bool
  | 0, _ => fun _ => true
  | depth + 1, domain =>
      along (fetchSpfRecord resolver domain) (fun fetched =>
        match fetched with
        | .ok (some record) =>
            sameTerms resolver syn first second mode (checkHost resolver syn first mode depth)
              (sameHost mode depth) domain none ((splitWhitespace record).drop 1)
        | _ => fun _ => true)

end Comparisons

/-! ## Walks that do not part -/

/-- Two walks that are one where a condition on the state holds. -/
def AlikeIf {α : Type} (check : Evaluator → Bool) (walk other : Walk α) : Prop :=
  ∀ evaluator, check evaluator = true → walk evaluator = other evaluator

section Rules

variable {α β : Type}

theorem AlikeIf.refl (check : Evaluator → Bool) (walk : Walk α) : AlikeIf check walk walk :=
  fun _ _ => rfl

theorem AlikeIf.bind {walk : Walk α} {next other : α → Walk β} {check : α → Evaluator → Bool}
    (alike : ∀ result, AlikeIf (check result) (next result) (other result)) :
    AlikeIf (along walk check) (walk >>= next) (walk >>= other) := by
  intro evaluator same
  unfold along at same
  change (walk evaluator).bind (fun walked => next walked.1 walked.2) =
    (walk evaluator).bind (fun walked => other walked.1 walked.2)
  cases walked : walk evaluator with
  | none => rfl
  | some result =>
      rw [walked] at same
      exact alike result.1 result.2 same

/-- The rule for a part that may part, and what follows it. -/
theorem AlikeIf.bindBoth {walk second : Walk α} {next other : α → Walk β}
    {start : Evaluator → Bool} {check : α → Evaluator → Bool} (first : AlikeIf start walk second)
    (alike : ∀ result, AlikeIf (check result) (next result) (other result)) :
    AlikeIf (fun evaluator => start evaluator && along walk check evaluator)
      (walk >>= next) (second >>= other) := by
  intro evaluator same
  obtain ⟨begins, later⟩ := Bool.and_eq_true_iff.mp same
  have whole := AlikeIf.bind alike evaluator later
  rw [whole]
  change (walk evaluator).bind _ = (second evaluator).bind _
  rw [first evaluator begins]

theorem AlikeIf.andThen {check : Evaluator → Bool} {walk other : Walk α} (alike : AlikeIf check walk other)
    (next : α → Walk β) : AlikeIf check (walk >>= next) (other >>= next) := by
  intro evaluator same
  change (walk evaluator).bind _ = (other evaluator).bind _
  rw [alike evaluator same]

/-- The rule for a part that is paid for. -/
theorem AlikeIf.spend {check : Evaluator → Bool} {granted other refused : Walk α}
    (alike : AlikeIf check granted other) :
    AlikeIf (along spendLookup (fun granted => if granted then check else fun _ => true))
      (do if ← spendLookup then granted else refused) (do if ← spendLookup then other else refused) := by
  refine AlikeIf.bind (fun paid => ?_)
  cases paid with
  | false => exact AlikeIf.refl _ _
  | true => exact alike

end Rules

section Forms

variable {resolver : SpfResolver} {syn : IpSyntax} {first second : IpAddr} {mode : MacroMode}
  {hostFirst hostSecond : Text → Walk SpfResult} {checked : Text → Evaluator → Bool}

theorem alike_matchA (mechanism currentDomain : Text) :
    AlikeIf (sameA resolver first second mechanism currentDomain)
      (matchA resolver first mechanism currentDomain)
      (matchA resolver second mechanism currentDomain) := by
  refine AlikeIf.spend (AlikeIf.bind (fun answer => ?_))
  cases answer with
  | error error => exact AlikeIf.refl _ _
  | ok addresses =>
      intro evaluator same
      have decided := of_decide_eq_true same
      unfold someMatches at decided
      dsimp only
      rw [decided]

theorem alike_matchExchanges (cidr : Option Nat) (hosts : List Text) :
    AlikeIf (sameExchanges resolver first second cidr hosts)
      (matchExchanges resolver first cidr hosts) (matchExchanges resolver second cidr hosts) := by
  induction hosts with
  | nil => exact AlikeIf.refl _ _
  | cons host hosts ih =>
      refine AlikeIf.bind (fun answer => ?_)
      cases answer with
      | error error => exact AlikeIf.refl _ _
      | ok addresses =>
          intro evaluator same
          obtain ⟨decided, later⟩ := Bool.and_eq_true_iff.mp same
          have decided := of_decide_eq_true decided
          unfold someMatches at decided later
          dsimp only
          rw [← decided]
          split_ifs with found
          · rfl
          · rw [Bool.eq_false_iff.mpr found] at later
            exact ih evaluator later

theorem alike_matchMx (mechanism currentDomain : Text) :
    AlikeIf (sameMx resolver first second mechanism currentDomain)
      (matchMx resolver first mechanism currentDomain)
      (matchMx resolver second mechanism currentDomain) := by
  refine AlikeIf.spend (AlikeIf.bind (fun answer => ?_))
  cases answer with
  | error error => exact AlikeIf.refl _ _
  | ok hosts =>
      intro evaluator same
      dsimp only at same ⊢
      split_ifs with many
      · rfl
      · rw [decide_eq_false many] at same
        exact alike_matchExchanges _ hosts evaluator same

section

variable (alike : ∀ target, AlikeIf (checked target) (hostFirst target) (hostSecond target))
include alike

theorem alike_matchSupported (mechanism currentDomain : Text) :
    AlikeIf (sameSupported resolver syn first second checked mechanism currentDomain)
      (matchSupported resolver syn first hostFirst mechanism currentDomain)
      (matchSupported resolver syn second hostSecond mechanism currentDomain) := by
  unfold sameSupported matchSupported
  dsimp only
  generalize (Str.stripPrefix "ip4:" (Str.toAsciiLowercase mechanism)).or
    (Str.stripPrefix "ip6:" (Str.toAsciiLowercase mechanism)) = network
  generalize Str.stripPrefix "include:" (Str.toAsciiLowercase mechanism) = included
  cases network with
  | some spec =>
      dsimp only
      split_ifs
      · exact AlikeIf.refl _ _
      · intro evaluator same
        have decided : ipInCidr syn spec first = ipInCidr syn spec second := of_decide_eq_true same
        rw [decided]
  | none =>
      split_ifs
      · exact AlikeIf.refl _ _
      · exact alike_matchA mechanism currentDomain
      · exact alike_matchMx mechanism currentDomain
      · cases included with
        | none => exact AlikeIf.refl _ _
        | some target => exact AlikeIf.spend ((alike target).andThen _)

theorem alike_matchMechanism (mechanism currentDomain : Text) :
    AlikeIf (sameMechanism resolver syn first second mode checked mechanism currentDomain)
      (matchMechanism resolver syn first mode hostFirst mechanism currentDomain)
      (matchMechanism resolver syn second mode hostSecond mechanism currentDomain) := by
  unfold sameMechanism matchMechanism
  generalize (if mode = .report then unsupportedKind mechanism else none) = unsupported
  cases unsupported with
  | some kind => exact AlikeIf.refl _ _
  | none => exact alike_matchSupported alike mechanism currentDomain

theorem alike_checkTerms (domain : Text) (redirect : Option Text) (terms : List Text) :
    AlikeIf (sameTerms resolver syn first second mode hostFirst checked domain redirect terms)
      (checkTerms resolver syn first mode hostFirst domain redirect terms)
      (checkTerms resolver syn second mode hostSecond domain redirect terms) := by
  induction terms generalizing redirect with
  | nil =>
      cases redirect with
      | none => exact AlikeIf.refl _ _
      | some target => exact AlikeIf.spend (alike target)
  | cons term terms ih =>
      unfold checkTerms sameTerms
      generalize Str.stripPrefix "redirect=" term = modifier
      cases modifier with
      | some target =>
          dsimp only
          split_ifs
          · exact AlikeIf.bind (fun _ => ih redirect)
          · exact ih _
      | none =>
          split_ifs
          · exact ih redirect
          · refine AlikeIf.bindBoth (alike_matchMechanism alike _ domain) (fun outcome => ?_)
            cases outcome with
            | matched => exact AlikeIf.refl _ _
            | noMatch => exact ih redirect
            | error result => exact AlikeIf.refl _ _

end

/-- The induction is on the depth: a nested policy is checked with less of it. -/
theorem alike_checkHost (depth : Nat) (domain : Text) :
    AlikeIf (sameHost resolver syn first second mode depth domain)
      (checkHost resolver syn first mode depth domain)
      (checkHost resolver syn second mode depth domain) := by
  induction depth generalizing domain with
  | zero => exact AlikeIf.refl _ _
  | succ depth ih =>
      refine AlikeIf.bind (fun fetched => ?_)
      rcases fetched with result | (none | record)
      · exact AlikeIf.refl _ _
      · exact AlikeIf.refl _ _
      · exact alike_checkTerms ih domain none _

end Forms

/-! ## Mapped clients -/

/-- The IPv6 address that stands for an IPv4 address. -/
def mapped (address : BitVec 32) : IpAddr := .v6 (0xffff#96 ++ address)

/-- No comparison that the evaluation for an IPv4 client makes is decided otherwise for its mapped
form. -/
def Undivided (resolver : SpfResolver) (syn : IpSyntax) (address : BitVec 32) (mode : MacroMode)
    (depth : Nat) (domain : Text) : Prop :=
  Str.trim domain = [] ∨
    sameHost resolver syn (.v4 address) (mapped address) mode depth domain Evaluator.new = true

/-- An IPv4 client is given the same result in either form as long as the two do not part. -/
theorem mapped_client_alike (resolver : SpfResolver) (syn : IpSyntax) (address : BitVec 32) (depth : Nat)
    (domain : Text) :
    (Undivided resolver syn address .lenient depth domain →
      evaluate resolver syn (mapped address) depth domain =
        evaluate resolver syn (.v4 address) depth domain) ∧
    (Undivided resolver syn address .report depth domain →
      evaluateVerifiable resolver syn (mapped address) depth domain =
        evaluateVerifiable resolver syn (.v4 address) depth domain) := by
  have walked {mode : MacroMode} (undivided : Undivided resolver syn address mode depth domain)
      (some : Str.trim domain ≠ []) :
      checkHost resolver syn (mapped address) mode depth domain Evaluator.new =
        checkHost resolver syn (.v4 address) mode depth domain Evaluator.new :=
    (alike_checkHost depth domain _ (undivided.resolve_left some)).symm
  constructor
  · intro undivided
    unfold evaluate
    split_ifs with nameless
    · rfl
    · rw [walked undivided nameless]
  · intro undivided
    unfold evaluateVerifiable
    split_ifs with nameless
    · rfl
    · rw [walked undivided nameless]

/-- A resolver that has one policy for all names, and one address. -/
def constantResolver (policy : Text) (address : IpAddr) : SpfResolver where
  txt := fun _ _ => .ok [policy]
  ipAddresses := fun _ _ => .ok [address]
  mxHosts := fun _ _ => .ok []

/-- A syntax with a single address. -/
def constantSyntax (address : IpAddr) : IpSyntax where
  parseNet := fun _ => none
  parseIp := fun _ => some address

theorem stranger_alike :
    evaluate (constantResolver "v=spf1 a -all" (.v4 1#32)) (constantSyntax (.v4 1#32))
        (mapped 2#32) 11 "a.example" =
      evaluate (constantResolver "v=spf1 a -all" (.v4 1#32)) (constantSyntax (.v4 1#32))
        (.v4 2#32) 11 "a.example" :=
  (mapped_client_alike _ _ _ _ _).1 (.inr (by decide +kernel))

/-- The policy names the client's address, and it is only the IPv4 form of the client that passes. -/
theorem designated_client_fails :
    (evaluate (constantResolver "v=spf1 ip4:192.0.2.1 -all" (.v4 1#32))
      (constantSyntax (.v4 0xc0000201#32)) (.v4 0xc0000201#32) 11 "a.example").map Prod.fst =
        some .pass ∧
    (evaluate (constantResolver "v=spf1 ip4:192.0.2.1 -all" (.v4 1#32))
      (constantSyntax (.v4 0xc0000201#32)) (mapped 0xc0000201#32) 11 "a.example").map Prod.fst =
        some .fail := by
  decide +kernel

end Camelmailer.Spf
