import Camelmailer.Core.Spf

/-!
# Sender policies and what they mean

The part of RFC 7208 that the evaluator supports, from the RFC and not from the evaluator: records
of `all`, `ip4`, `ip6`, `a`, `mx`, `include` and `redirect` as the grammar writes them, without
macros, and `check_host` as it is defined for them. A record is kept as it is written (in which
letter case, with how many spaces), so that its text can be read by the evaluator.

Only what the RFC requires is here: the limit on lookups without an answer is a recommendation and
is left out, and the addresses of an `mx` are looked at one exchange after the other.
-/

namespace Camelmailer.SenderPolicy

open Utf8 Spf

/-! ## The grammar -/

/-- A word of the grammar, in any letter case. -/
structure Keyword (word : Text) where
  text : Text
  spells : Str.toAsciiLowercase text = word

def Keyword.plain (word : Text) (lower : Str.toAsciiLowercase word = word) : Keyword word :=
  ⟨word, lower⟩

/-- `macro-literal`: a visible character that does not start a macro. -/
def isLiteral (char : Char) : Bool := decide (33 ≤ char.toNat ∧ char.toNat ≤ 126 ∧ char ≠ '%')

/-- `toplabel`. -/
def isTopLabel (text : Text) : Bool :=
  text.all (fun char => char.isAlphanum || char == '-') && text.any (fun char => !char.isDigit) &&
    text.head?.any Char.isAlphanum && text.getLast?.any Char.isAlphanum

/-- `domain-spec`. -/
structure DomainSpec where
  front : Text
  top : Text
  rooted : Bool
  literal : front.all isLiteral = true
  label : isTopLabel top = true

def DomainSpec.text (spec : DomainSpec) : Text :=
  spec.front ++ '.' :: (spec.top ++ if spec.rooted then ['.'] else [])

/-- `dual-cidr-length`. -/
structure DualCidr where
  ip4 : Option (Fin 33)
  ip6 : Option (Fin 129)

/-- A length behind the characters that announce it. -/
def lengthText {bound : Nat} (mark : Text) : Option (Fin bound) → Text
  | none => []
  | some length => mark ++ decimal length.val

def DualCidr.text (cidr : DualCidr) : Text := lengthText ['/'] cidr.ip4 ++ lengthText ['/', '/'] cidr.ip6

inductive Qualifier where
  | pass
  | fail
  | softFail
  | neutral
deriving DecidableEq

def Qualifier.char : Qualifier → Char
  | .pass => '+'
  | .fail => '-'
  | .softFail => '~'
  | .neutral => '?'

def Qualifier.result : Qualifier → SpfResult
  | .pass => .pass
  | .fail => .fail
  | .softFail => .softFail
  | .neutral => .neutral

section Grammar

variable (syn : IpSyntax)

/-- `ip4-network`. -/
structure Ip4Network where
  text : Text
  address : BitVec 32
  written : text.all (fun char => char.isDigit || char == '.') = true
  denotes : syn.parseIp text = some (.v4 address)

/-- `ip6-network`. -/
structure Ip6Network where
  text : Text
  address : BitVec 128
  written : text.all (fun char => char.isAlphanum || char == ':' || char == '.') = true
  denotes : syn.parseIp text = some (.v6 address)

inductive Mechanism where
  | all (keyword : Keyword "all")
  | ip4 (keyword : Keyword "ip4") (network : Ip4Network syn) (length : Option (Fin 33))
  | ip6 (keyword : Keyword "ip6") (network : Ip6Network syn) (length : Option (Fin 129))
  | a (keyword : Keyword "a") (target : Option DomainSpec) (cidr : DualCidr)
  | mx (keyword : Keyword "mx") (target : Option DomainSpec) (cidr : DualCidr)
  | included (keyword : Keyword "include") (target : DomainSpec)

/-- A domain behind its colon. -/
def targetText : Option DomainSpec → Text
  | none => []
  | some spec => ':' :: spec.text

variable {syn}

def Mechanism.text : Mechanism syn → Text
  | .all keyword => keyword.text
  | .ip4 keyword network length => keyword.text ++ ':' :: (network.text ++ lengthText ['/'] length)
  | .ip6 keyword network length => keyword.text ++ ':' :: (network.text ++ lengthText ['/'] length)
  | .a keyword target cidr => keyword.text ++ (targetText target ++ cidr.text)
  | .mx keyword target cidr => keyword.text ++ (targetText target ++ cidr.text)
  | .included keyword target => keyword.text ++ ':' :: target.text

variable (syn)

structure Directive where
  qualifier : Option Qualifier
  mechanism : Mechanism syn

structure Redirect where
  keyword : Keyword "redirect"
  target : DomainSpec

inductive Term where
  | directive (directive : Directive syn)
  | redirect (redirect : Redirect)

variable {syn}

def Directive.text (directive : Directive syn) : Text :=
  (directive.qualifier.map Qualifier.char).toList ++ directive.mechanism.text

def Redirect.text (redirect : Redirect) : Text := redirect.keyword.text ++ '=' :: redirect.target.text

def Term.text : Term syn → Text
  | .directive given => given.text
  | .redirect given => given.text

def Term.directive? : Term syn → Option (Directive syn)
  | .directive given => some given
  | .redirect _ => none

def Term.redirect? : Term syn → Option Redirect
  | .directive _ => none
  | .redirect given => some given

variable (syn)

/-- `record`: a term has one space before it, and as many more as are given with it. -/
structure Record where
  version : Keyword "v=spf1"
  spaced : List (Nat × Term syn)
  trailing : Nat

variable {syn}

def Record.terms (record : Record syn) : List (Term syn) := record.spaced.map Prod.snd

def spacedText (spaced : List (Nat × Term syn)) (trailing : Nat) : Text :=
  match spaced with
  | [] => List.replicate trailing ' '
  | (more, term) :: rest => ' ' :: (List.replicate more ' ' ++ (term.text ++ spacedText rest trailing))

def Record.text (record : Record syn) : Text :=
  record.version.text ++ spacedText record.spaced record.trailing

/-- Whether a text starts with the version section. -/
def isVersioned (text : Text) : Bool :=
  Str.toAsciiLowercase (text.take 6) == "v=spf1" && (text.drop 6).head?.all (· == ' ')

variable (syn)

/-- A TXT record: a policy, or something else. -/
inductive TxtRecord where
  | policy (record : Record syn)
  | other (text : Text) (foreign : isVersioned text = false)

variable {syn}

def TxtRecord.text : TxtRecord syn → Text
  | .policy record => record.text
  | .other text _ => text

def TxtRecord.policy? : TxtRecord syn → Option (Record syn)
  | .policy record => some record
  | .other _ _ => none

end Grammar

/-! ## What the DNS answers -/

section Standard

variable {syn : IpSyntax}

/-- The answers to what is asked. They may depend on what has been asked before. -/
structure Zone (syn : IpSyntax) where
  txt : List Query → Text → Except DnsError (List (TxtRecord syn))
  ipAddresses : List Query → Text → Except DnsError (List IpAddr)
  mxHosts : List Query → Text → Except DnsError (List Text)

/-- The resolver that answers with the texts. -/
def Zone.resolver (zone : Zone syn) : SpfResolver where
  txt := fun before name => (zone.txt before name).map (List.map TxtRecord.text)
  ipAddresses := zone.ipAddresses
  mxHosts := zone.mxHosts

/-! ## `check_host` -/

/-- What an evaluation comes to. -/
inductive Visit (syn : IpSyntax) where
  | malformed (domain : Text)
  | answered (records : List (TxtRecord syn))
  | selected (record : Record syn)
  | consulted (mechanism : Mechanism syn)
  | followed (redirect : Redirect)
  | strayed (redirect : Redirect)

/-- The terms that may still cause lookups, what has been asked, and what has been come to. -/
structure State (syn : IpSyntax) where
  lookups : Nat
  asked : List Query
  visits : List (Visit syn)

/-- A part of `check_host`. It has no result where it is not given enough depth. -/
abbrev Check (syn : IpSyntax) : Type → Type := StateT (State syn) Option

def visit (visit : Visit syn) : Check syn Unit := fun state =>
  some ((), { state with visits := state.visits ++ [visit] })

def query {α : Type} (query : Query) (answer : List Query → α) : Check syn α := fun state =>
  some (answer state.asked, { state with asked := state.asked ++ [query] })

/-- A term that causes lookups is counted (section 4.6.4). -/
def countTerm : Check syn Bool := fun state =>
  match state.lookups with
  | 0 => some (false, state)
  | remaining + 1 => some (true, { state with lookups := remaining })

/-- Whether a domain is well-formed and has several labels (section 4.3). -/
def isMultiLabel (domain : Text) : Bool :=
  let unrooted := (Str.stripLast '.' domain).getD domain
  let labels := unrooted.splitOn '.'
  decide (2 ≤ labels.length ∧ unrooted.length ≤ 253) &&
    labels.all (fun label => decide (label ≠ [] ∧ label.length ≤ 63))

/-- What is left of a name behind each of its dots. -/
def shorterNames : Text → List Text
  | [] => []
  | char :: rest => if char = '.' then rest :: shorterNames rest else shorterNames rest

/-- The name that a `domain-spec` stands for: labels are left out in front where it is longer than
a name can be (section 7.3). -/
def DomainSpec.name (spec : DomainSpec) : Text :=
  ((spec.text :: shorterNames spec.text).find? (fun name => decide (name.length ≤ 253))).getD []

/-- The domain of an `a` or an `mx`. -/
def targetName (target : Option DomainSpec) (domain : Text) : Text := (target.map DomainSpec.name).getD domain

/-- The client: an IPv4 address in IPv6 form is that IPv4 address (section 5). -/
def isMapped : IpAddr → Bool
  | .v4 _ => false
  | .v6 address => address >>> 32 == 0xffff#128

def client (ip : IpAddr) : IpAddr :=
  match ip with
  | .v4 address => .v4 address
  | .v6 address => if isMapped ip then .v4 (address.truncate 32) else .v6 address

/-- The length that is meant for the family of an address. -/
def DualCidr.lengthFor (cidr : DualCidr) : IpAddr → Nat
  | .v4 _ => (cidr.ip4.map Fin.val).getD 32
  | .v6 _ => (cidr.ip6.map Fin.val).getD 128

/-- Whether two addresses have a number of high-order bits in common. -/
def sameNetwork (length : Nat) : IpAddr → IpAddr → Bool
  | .v4 one, .v4 other => one >>> (32 - length) == other >>> (32 - length)
  | .v6 one, .v6 other => one >>> (128 - length) == other >>> (128 - length)
  | _, _ => false

section Evaluation

variable (zone : Zone syn) (ip : IpAddr)

/-- The addresses of a name are compared with the client. -/
def compareAddresses (cidr : DualCidr) (name : Text) : Check syn MechanismOutcome := do
  match ← query (.ipAddresses name) (fun before => zone.ipAddresses before name) with
  | .error _ => return .error .tempError
  | .ok addresses =>
      if addresses.any (fun address => sameNetwork (cidr.lengthFor (client ip)) address (client ip)) then
        return .matched
      else return .noMatch

def compareExchanges (cidr : DualCidr) : List Text → Check syn MechanismOutcome
  | [] => return .noMatch
  | host :: rest => do
      match ← compareAddresses zone ip cidr host with
      | .noMatch => compareExchanges cidr rest
      | outcome => return outcome

/-- What the result of the included policy means (section 5.2). -/
def includedOutcome : SpfResult → MechanismOutcome
  | .pass => .matched
  | .fail | .softFail | .neutral => .noMatch
  | .tempError => .error .tempError
  | .permError | .none => .error .permError

/-- Whether a mechanism matches (section 5). -/
def evaluateMechanism (checkHost : Text → Check syn SpfResult) (domain : Text) :
    Mechanism syn → Check syn MechanismOutcome
  | .all _ => return .matched
  | .ip4 _ network length =>
      return if sameNetwork ((length.map Fin.val).getD 32) (.v4 network.address) (client ip) then
        .matched else .noMatch
  | .ip6 _ network length =>
      return if sameNetwork ((length.map Fin.val).getD 128) (.v6 network.address) (client ip) then
        .matched else .noMatch
  | .a _ target cidr => do
      if ← countTerm then compareAddresses zone ip cidr (targetName target domain)
      else return .error .permError
  | .mx _ target cidr => do
      if ← countTerm then
        match ← query (.mxHosts (targetName target domain))
            (fun before => zone.mxHosts before (targetName target domain)) with
        | .error _ => return .error .tempError
        | .ok hosts =>
            if 10 < hosts.length then return .error .permError
            else compareExchanges zone ip cidr hosts
      else return .error .permError
  | .included _ target => do
      if ← countTerm then return includedOutcome (← checkHost target.name)
      else return .error .permError

/-- The result of the first mechanism that matches. -/
def evaluateDirectives (checkHost : Text → Check syn SpfResult) (domain : Text) :
    List (Directive syn) → Check syn (Option SpfResult)
  | [] => return none
  | directive :: rest => do
      visit (.consulted directive.mechanism)
      match ← evaluateMechanism zone ip checkHost domain directive.mechanism with
      | .matched => return some (directive.qualifier.getD .pass).result
      | .noMatch => evaluateDirectives checkHost domain rest
      | .error result => return some result

/-- No mechanism has matched (sections 4.7 and 6.1). -/
def evaluateRedirect (checkHost : Text → Check syn SpfResult) : Option Redirect → Check syn SpfResult
  | none => return .neutral
  | some redirect => do
      visit (.followed redirect)
      if ← countTerm then
        match ← checkHost redirect.target.name with
        | .none => do
            visit (.strayed redirect)
            return .permError
        | result => return result
      else return .permError

/-- A record with more than one `redirect` is in error (section 6). -/
def evaluateRecord (checkHost : Text → Check syn SpfResult) (domain : Text) (record : Record syn) :
    Check syn SpfResult := do
  visit (.selected record)
  if 1 < (record.terms.filterMap Term.redirect?).length then return .permError
  else
    match ← evaluateDirectives zone ip checkHost domain (record.terms.filterMap Term.directive?) with
    | some result => return result
    | none => evaluateRedirect checkHost (record.terms.filterMap Term.redirect?).head?

/-- `check_host` (section 4). -/
def checkHost : Nat → Text → Check syn SpfResult
  | 0, _ => fun _ => none
  | depth + 1, domain => do
      if isMultiLabel domain then
        match ← query (.txt domain) (fun before => zone.txt before domain) with
        | .error _ => return .tempError
        | .ok records => do
            visit (.answered records)
            match records.filterMap TxtRecord.policy? with
            | [] => return .none
            | [record] => evaluateRecord zone ip (checkHost depth) domain record
            | _ => return .permError
      else do
        visit (.malformed domain)
        return .none

/-- The result for a domain, and what the evaluation has come to. -/
def standardResult (depth : Nat) (domain : Text) : Option (SpfResult × List (Visit syn)) :=
  (checkHost zone ip depth domain ⟨10, [], []⟩).map (fun checked => (checked.1, checked.2.visits))

end Evaluation

/-! ## An evaluation ends -/

variable {α β : Type} {bound : Nat}

/-- Started with no more than some number of terms, a part of an evaluation has a result. It counts
terms, and it comes to more. -/
def Ends (bound : Nat) (check : Check syn α) : Prop :=
  ∀ state, state.lookups ≤ bound → ∃ value after more, check state = some (value, after) ∧
    after.lookups ≤ state.lookups ∧ after.visits = state.visits ++ more

theorem Ends.pure (value : α) : Ends bound (Pure.pure value : Check syn α) :=
  fun state _ => ⟨value, state, [], rfl, Nat.le_refl _, (List.append_nil _).symm⟩

theorem Ends.bind {check : Check syn α} {next : α → Check syn β} (first : Ends bound check)
    (second : ∀ value, Ends bound (next value)) : Ends bound (check >>= next) := by
  intro state within
  obtain ⟨value, middle, visited, ran, fewer, grown⟩ := first state within
  obtain ⟨result, after, more, went, less, extended⟩ := second value middle (fewer.trans within)
  refine ⟨result, after, visited ++ more, ?_, less.trans fewer, ?_⟩
  · change (check state).bind (fun walked => next walked.1 walked.2) = _
    rw [ran]
    exact went
  · rw [extended, grown, List.append_assoc]

theorem ends_visit (visited : Visit syn) : Ends bound (visit visited) :=
  fun _ _ => ⟨(), _, [visited], rfl, Nat.le_refl _, rfl⟩

theorem ends_query {asked : Query} {answer : List Query → α} :
    Ends bound (query asked answer : Check syn α) :=
  fun _ _ => ⟨_, _, [], rfl, Nat.le_refl _, (List.append_nil _).symm⟩

/-- What comes behind a term that is counted has one term less. -/
theorem ends_countTerm {granted refused : Check syn α} (stops : Ends bound refused)
    (goesOn : ∀ rest, bound = rest + 1 → Ends rest granted) :
    Ends bound (do if ← countTerm then granted else refused) := by
  intro state within
  obtain ⟨lookups, asked, visits⟩ := state
  cases lookups with
  | zero => exact stops ⟨0, asked, visits⟩ within
  | succ remaining =>
      obtain ⟨rest, rfl⟩ : ∃ rest, bound = rest + 1 :=
        ⟨bound - 1, (Nat.sub_add_cancel (Nat.le_trans (Nat.succ_pos remaining) within)).symm⟩
      obtain ⟨value, after, more, ran, fewer, grown⟩ :=
        goesOn rest rfl ⟨remaining, asked, visits⟩ (Nat.le_of_succ_le_succ within)
      exact ⟨value, after, more, ran, Nat.le_succ_of_le fewer, grown⟩

section Evaluations

variable {zone : Zone syn} {ip : IpAddr} {nested : Text → Check syn SpfResult}

theorem ends_compareAddresses (cidr : DualCidr) (name : Text) :
    Ends bound (compareAddresses zone ip cidr name) := by
  refine ends_query.bind ?_
  rintro (error | addresses)
  · exact Ends.pure _
  · dsimp only
    split_ifs <;> exact Ends.pure _

theorem ends_compareExchanges (cidr : DualCidr) (hosts : List Text) :
    Ends bound (compareExchanges zone ip cidr hosts) := by
  induction hosts with
  | nil => exact Ends.pure _
  | cons host rest ih =>
      refine (ends_compareAddresses cidr host).bind ?_
      rintro (matched | noMatch | result)
      · exact Ends.pure _
      · exact ih
      · exact Ends.pure _

section

variable (nests : ∀ rest, bound = rest + 1 → ∀ domain, Ends rest (nested domain))
include nests

theorem ends_evaluateMechanism (domain : Text) (mechanism : Mechanism syn) :
    Ends bound (evaluateMechanism zone ip nested domain mechanism) := by
  cases mechanism with
  | all => exact Ends.pure _
  | ip4 => exact Ends.pure _
  | ip6 => exact Ends.pure _
  | a => exact ends_countTerm (Ends.pure _) (fun _ _ => ends_compareAddresses _ _)
  | mx =>
      refine ends_countTerm (Ends.pure _) (fun rest _ => ends_query.bind ?_)
      rintro (error | hosts)
      · exact Ends.pure _
      · dsimp only
        split_ifs
        · exact Ends.pure _
        · exact ends_compareExchanges _ _
  | included =>
      exact ends_countTerm (Ends.pure _)
        (fun rest spent => (nests rest spent _).bind (fun _ => Ends.pure _))

theorem ends_evaluateDirectives (domain : Text) (directives : List (Directive syn)) :
    Ends bound (evaluateDirectives zone ip nested domain directives) := by
  induction directives with
  | nil => exact Ends.pure _
  | cons directive rest ih =>
      refine (ends_visit _).bind (fun _ => (ends_evaluateMechanism nests domain _).bind ?_)
      rintro (matched | noMatch | result)
      · exact Ends.pure _
      · exact ih
      · exact Ends.pure _

theorem ends_evaluateRedirect
    (redirect : Option Redirect) : Ends bound (evaluateRedirect nested redirect) := by
  cases redirect with
  | none => exact Ends.pure _
  | some redirect =>
      refine (ends_visit _).bind (fun _ => ends_countTerm (Ends.pure _) (fun rest spent => ?_))
      refine (nests rest spent _).bind (fun result => ?_)
      cases result with
      | none => exact (ends_visit _).bind (fun _ => Ends.pure _)
      | _ => exact Ends.pure _

theorem ends_evaluateRecord (domain : Text) (record : Record syn) :
    Ends bound (evaluateRecord zone ip nested domain record) := by
  refine (ends_visit _).bind (fun _ => ?_)
  split_ifs
  · exact Ends.pure _
  · refine (ends_evaluateDirectives nests domain _).bind ?_
    rintro (none | result)
    · exact ends_evaluateRedirect nests _
    · exact Ends.pure _

end

/-- A check that is one deeper than its terms has a result. -/
theorem ends_checkHost (depth : Nat) (domain : Text) :
    Ends depth (checkHost zone ip (depth + 1) domain) := by
  have policy (bound : Nat) {depth : Nat} (domain : Text) (nests : ∀ rest, bound = rest + 1 →
      ∀ domain, Ends rest (checkHost zone ip depth domain)) :
      Ends bound (checkHost zone ip (depth + 1) domain) := by
    unfold checkHost
    split_ifs
    · refine ends_query.bind ?_
      rintro (error | records)
      · exact Ends.pure _
      · refine (ends_visit _).bind (fun _ => ?_)
        split
        · exact Ends.pure _
        · exact ends_evaluateRecord nests domain _
        · exact Ends.pure _
    · exact (ends_visit _).bind (fun _ => Ends.pure _)
  induction depth generalizing domain with
  | zero => exact policy 0 domain (fun rest spent => absurd spent (Nat.succ_ne_zero rest).symm)
  | succ depth ih =>
      refine policy (depth + 1) domain ?_
      intro rest spent inner
      obtain rfl := Nat.succ.inj spent
      exact ih inner

end Evaluations

end Standard

end Camelmailer.SenderPolicy
