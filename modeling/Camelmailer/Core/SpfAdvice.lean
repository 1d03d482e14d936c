import Camelmailer.Core.SpfTerms

/-!
# The policy that a domain is advised to publish

`camelmailer-core/src/dmarc.rs`: a domain that has a policy is not told to publish another one. The
mechanism that names the platform is put into the policy it has, before the term that matches
everyone, unless it is there already.

A mechanism counts as there with any qualifier, and the evaluator does look at the qualifier.
-/

namespace Camelmailer.Spf

open Utf8

/-! ## The functions -/

def isSpfRecord (txt : Text) : Bool :=
  Str.eqIgnoreAsciiCase ((splitWhitespace txt).head?.getD []) "v=spf1"

/-- The qualifier of a term that is an `all`. -/
def allTerm (term : Text) : Option Char :=
  if Str.eqIgnoreAsciiCase (splitQualifier term).2 "all" then some (splitQualifier term).1
  else none

def spfAllQualifier (txt : Text) : Option Char := ((splitWhitespace txt).drop 1).findSome? allTerm

/-- `str::trim_start_matches` with the qualifiers. -/
def trimQualifiers (term : Text) : Text :=
  term.dropWhile (fun char => decide (char ∈ ['-', '~', '?', '+']))

def spfContainsMechanism (txt mechanism : Text) : Bool :=
  ((splitWhitespace txt).drop 1).any (fun term =>
    Str.eqIgnoreAsciiCase (trimQualifiers term) mechanism)

/-- Whether the mechanism is put before a term. -/
def isBareAll (term : Text) : Bool := Str.eqIgnoreAsciiCase (trimQualifiers term) "all"

/-- The loop of `spf_with_mechanism`, with whether the mechanism has been `inserted`. -/
def insertMechanism (mechanism : Text) : Bool → List Text → List Text
  | true, [] => []
  | false, [] => [mechanism]
  | inserted, term :: rest =>
      if inserted = false ∧ isBareAll term = true then
        mechanism :: term :: insertMechanism mechanism true rest
      else term :: insertMechanism mechanism inserted rest

/-- `join` with a space. -/
def joinWords (words : List Text) : Text := [' '].intercalate words

def spfWithMechanism (txt mechanism : Text) : Text :=
  if spfContainsMechanism txt mechanism then joinWords (splitWhitespace txt)
  else joinWords (insertMechanism mechanism false (splitWhitespace txt))

/-! ## Words -/

/-- A text that is cut nowhere. -/
def Word (text : Text) : Prop := text ≠ [] ∧ ∀ char ∈ text, Str.isWhitespace char = false

theorem splitWhitespace_cut {space : Char} (blank : Str.isWhitespace space = true)
    (front back : Text) :
    splitWhitespace (front ++ space :: back) = splitWhitespace front ++ splitWhitespace back := by
  unfold splitWhitespace
  rw [List.splitOnP_append_cons front back blank, List.filter_append]

theorem Word.splitWhitespace {word : Text} (unbroken : Word word) :
    splitWhitespace word = [word] := by
  unfold Spf.splitWhitespace
  rw [List.splitOnP_eq_singleton unbroken.2]
  simp [unbroken.1]

/-- The induction is on the text: a character continues the first piece or begins a new one. -/
theorem unbroken_of_mem_splitOnP {text piece : Text} (member : piece ∈ text.splitOnP Str.isWhitespace) :
    ∀ char ∈ piece, Str.isWhitespace char = false := by
  induction text generalizing piece with
  | nil =>
      rw [List.splitOnP_nil, List.mem_singleton] at member
      simp [member]
  | cons char text ih =>
      rw [List.splitOnP_cons_eq_if_modifyHead] at member
      split_ifs at member with blank
      · rcases List.mem_cons.mp member with rfl | later
        · simp
        · exact ih later
      · obtain ⟨first, others, pieces⟩ :=
          List.exists_cons_of_ne_nil (List.splitOnP_ne_nil Str.isWhitespace text)
        rw [pieces] at member ih
        rcases List.mem_cons.mp member with rfl | later
        · exact List.forall_mem_cons.mpr
            ⟨by simpa using blank, ih List.mem_cons_self⟩
        · exact ih (List.mem_cons_of_mem _ later)

theorem word_of_mem {text word : Text} (member : word ∈ splitWhitespace text) : Word word := by
  obtain ⟨piece, some_⟩ := List.mem_filter.mp member
  exact ⟨by simpa using some_, unbroken_of_mem_splitOnP piece⟩

theorem joinWords_cons (word next : Text) (words : List Text) :
    joinWords (word :: next :: words) = word ++ ' ' :: joinWords (next :: words) := by
  simp [joinWords]

/-- Joined words are cut where they have been joined. -/
theorem splitWhitespace_joinWords {words : List Text} (unbroken : ∀ word ∈ words, Word word) :
    splitWhitespace (joinWords words) = words := by
  induction words with
  | nil => simp [joinWords, splitWhitespace]
  | cons word words ih =>
      obtain ⟨first, others⟩ := List.forall_mem_cons.mp unbroken
      cases words with
      | nil => simpa [joinWords] using first.splitWhitespace
      | cons next words =>
          rw [joinWords_cons, splitWhitespace_cut rfl, first.splitWhitespace,
            ih others]
          rfl

/-! ## Inclusions -/

/-- A mechanism that includes the policy of a target, which is looked up in lower case. -/
structure Inclusion where
  text : Text
  target : Text
  spells : Str.toAsciiLowercase text = "include:" ++ target
  unbroken : ∀ char ∈ text, Str.isWhitespace char = false

theorem Inclusion.head (inclusion : Inclusion) :
    ∃ first rest, inclusion.text = first :: rest ∧ first.toLower = 'i' := by
  have spells := inclusion.spells
  cases same : inclusion.text with
  | nil =>
      rw [same] at spells
      exact absurd (congrArg List.length spells) (by simp [Str.toAsciiLowercase])
  | cons first rest =>
      rw [same] at spells
      exact ⟨first, rest, rfl, (List.cons.inj spells).1⟩

theorem Inclusion.word (inclusion : Inclusion) : Word inclusion.text := by
  obtain ⟨first, rest, same, -⟩ := inclusion.head
  exact ⟨by simp [same], inclusion.unbroken⟩

theorem not_qualifier {first : Char} (letter : first.toLower = 'i') :
    first ∉ ['-', '~', '?', '+'] := by
  intro qualifier
  simp only [List.mem_cons, List.not_mem_nil, or_false] at qualifier
  rcases qualifier with rfl | rfl | rfl | rfl <;> exact absurd letter (by decide)

theorem Inclusion.splitQualifier (inclusion : Inclusion) :
    splitQualifier inclusion.text = ('+', inclusion.text) := by
  obtain ⟨first, rest, same, letter⟩ := inclusion.head
  have unqualified : first ∉ ['+', '-', '~', '?'] := by
    have absent := not_qualifier letter
    simp only [List.mem_cons] at absent ⊢
    tauto
  rw [same, Spf.splitQualifier, if_neg unqualified]

theorem Inclusion.trimQualifiers (inclusion : Inclusion) :
    trimQualifiers inclusion.text = inclusion.text := by
  obtain ⟨first, rest, same, letter⟩ := inclusion.head
  rw [same, Spf.trimQualifiers]
  simpa using not_qualifier letter

theorem Inclusion.not_all (inclusion : Inclusion) :
    Str.eqIgnoreAsciiCase inclusion.text "all" = false := by
  obtain ⟨first, rest, same, letter⟩ := inclusion.head
  rw [Str.eqIgnoreAsciiCase, beq_eq_false_iff_ne, same]
  intro all
  have first : first.toLower = 'a' := (List.cons.inj all).1
  exact absurd (letter.symm.trans first) (by decide)

/-! ## The merged record -/

section Merged

variable {inclusion : Inclusion} {record : Text}

theorem insertMechanism_inserted (mechanism : Text) (words : List Text) :
    insertMechanism mechanism true words = words := by
  induction words with
  | nil => rfl
  | cons word words ih => simp [insertMechanism, ih]

/-- The mechanism is put before the first term that matches everyone, or at the end. -/
theorem insertMechanism_eq (mechanism : Text) (words : List Text) :
    insertMechanism mechanism false words =
      words.takeWhile (fun word => !isBareAll word) ++
        mechanism :: words.dropWhile (fun word => !isBareAll word) := by
  induction words with
  | nil => rfl
  | cons word words ih =>
      by_cases all : isBareAll word = true
      · simp [insertMechanism, all, insertMechanism_inserted]
      · simp [insertMechanism, all, ih]

theorem spfWithMechanism_contained (contained : spfContainsMechanism record inclusion.text = true) :
    spfWithMechanism record inclusion.text = joinWords (splitWhitespace record) := if_pos contained

/-- The words of a policy are its own, with the mechanism among them if it was missing. -/
theorem words_spfWithMechanism (record : Text) (inclusion : Inclusion) :
    splitWhitespace (spfWithMechanism record inclusion.text) =
      if spfContainsMechanism record inclusion.text then splitWhitespace record
      else insertMechanism inclusion.text false (splitWhitespace record) := by
  unfold spfWithMechanism
  split_ifs with contained
  · exact splitWhitespace_joinWords (fun word => word_of_mem)
  · refine splitWhitespace_joinWords (fun word member => ?_)
    rw [insertMechanism_eq] at member
    rcases List.mem_append.mp member with front | back
    · exact word_of_mem ((List.takeWhile_prefix _).mem front)
    · rcases List.mem_cons.mp back with rfl | back
      · exact inclusion.word
      · exact word_of_mem ((List.dropWhile_suffix _).mem back)

/-- The first word of a policy is not a term. -/
theorem exists_version (policy : isSpfRecord record = true) :
    ∃ version terms, splitWhitespace record = version :: terms ∧
      Str.eqIgnoreAsciiCase version "v=spf1" = true ∧ isBareAll version = false := by
  unfold isSpfRecord at policy
  cases words : splitWhitespace record with
  | nil =>
      rw [words] at policy
      exact absurd policy (by decide)
  | cons version terms =>
      rw [words] at policy
      refine ⟨version, terms, rfl, policy, ?_⟩
      have lower : Str.toAsciiLowercase version = "v=spf1" := beq_iff_eq.mp policy
      cases version with
      | nil => exact absurd lower (by decide)
      | cons first rest =>
          have letter : first.toLower = 'v' := (List.cons.inj lower).1
          have unqualified : first ∉ ['-', '~', '?', '+'] := by
            intro qualifier
            simp only [List.mem_cons, List.not_mem_nil, or_false] at qualifier
            rcases qualifier with rfl | rfl | rfl | rfl <;> exact absurd letter (by decide)
          rw [isBareAll, trimQualifiers, List.dropWhile_cons_of_neg (by simpa using unqualified),
            Str.eqIgnoreAsciiCase, beq_eq_false_iff_ne]
          intro all
          have other : first.toLower = 'a' := (List.cons.inj all).1
          exact absurd (letter.symm.trans other) (by decide)

/-- The terms of a policy, with the mechanism among them. -/
def withMechanism (mechanism : Text) (terms : List Text) : List Text :=
  if terms.any (fun term => Str.eqIgnoreAsciiCase (trimQualifiers term) mechanism) then terms
  else insertMechanism mechanism false terms

theorem words_merged {version : Text} {terms : List Text}
    (words : splitWhitespace record = version :: terms) (other : isBareAll version = false) :
    splitWhitespace (spfWithMechanism record inclusion.text) =
      version :: withMechanism inclusion.text terms := by
  rw [words_spfWithMechanism]
  unfold spfContainsMechanism withMechanism
  rw [words, List.drop_one, List.tail_cons]
  split_ifs
  · rfl
  · simp [insertMechanism, other]

theorem withMechanism_contains (inclusion : Inclusion) (terms : List Text) :
    (withMechanism inclusion.text terms).any (fun term =>
      Str.eqIgnoreAsciiCase (trimQualifiers term) inclusion.text) = true := by
  unfold withMechanism
  split_ifs with contained
  · exact contained
  · rw [insertMechanism_eq]
    simp [inclusion.trimQualifiers, Str.eqIgnoreAsciiCase]

theorem isSpfRecord_merged (policy : isSpfRecord record = true) :
    isSpfRecord (spfWithMechanism record inclusion.text) = true := by
  obtain ⟨version, terms, words, spelled, other⟩ := exists_version policy
  rw [isSpfRecord, words_merged words other, List.head?_cons, Option.getD_some, spelled]

theorem spfWithMechanism_joined (record : Text) (inclusion : Inclusion) :
    joinWords (splitWhitespace (spfWithMechanism record inclusion.text)) =
      spfWithMechanism record inclusion.text := by
  rw [words_spfWithMechanism]
  unfold spfWithMechanism
  split_ifs <;> rfl

theorem spfWithMechanism_idempotent (policy : isSpfRecord record = true) :
    spfWithMechanism (spfWithMechanism record inclusion.text) inclusion.text =
      spfWithMechanism record inclusion.text := by
  obtain ⟨version, terms, words, -, other⟩ := exists_version policy
  have contained : spfContainsMechanism (spfWithMechanism record inclusion.text) inclusion.text =
      true := by
    rw [spfContainsMechanism, words_merged words other]
    exact withMechanism_contains inclusion terms
  rw [spfWithMechanism_contained contained, spfWithMechanism_joined]

theorem spfAllQualifier_merged (policy : isSpfRecord record = true) :
    spfAllQualifier (spfWithMechanism record inclusion.text) = spfAllQualifier record := by
  obtain ⟨version, terms, words, -, other⟩ := exists_version policy
  have unseen : allTerm inclusion.text = none := by
    rw [allTerm, inclusion.splitQualifier, if_neg (Bool.eq_false_iff.mp inclusion.not_all)]
  rw [spfAllQualifier, spfAllQualifier, words_merged words other, words]
  simp only [List.drop_one, List.tail_cons]
  unfold withMechanism
  split_ifs
  · rfl
  · rw [insertMechanism_eq, List.findSome?_append, List.findSome?_cons_of_isNone (by rw [unseen]; rfl),
      ← List.findSome?_append, List.takeWhile_append_dropWhile]

end Merged

/-! ## Its evaluation -/

/-- What the evaluator knows when it has read some of the terms. -/
inductive Reading where
  | decided (result : SpfResult)
  | undecided (redirect : Option Text)
deriving DecidableEq

section Evaluation

variable (resolver : SpfResolver) (syn : IpSyntax) (ip : IpAddr)

/-- The loop of `check_host` over the first of the terms. -/
def readTerms (mode : MacroMode) (checkHost : Text → Walk SpfResult) (domain : Text) :
    Option Text → List Text → Walk Reading
  | redirect, [] => return .undecided redirect
  | redirect, term :: rest =>
      match Str.stripPrefix "redirect=" term with
      | some target =>
          if mode = .report ∧ termUsesMacro target then do
            noteUnsupported ⟨term, domain, .macros⟩
            readTerms mode checkHost domain redirect rest
          else readTerms mode checkHost domain (some target) rest
      | none =>
          if '=' ∈ term then readTerms mode checkHost domain redirect rest
          else do
            match ← matchMechanism resolver syn ip mode checkHost (splitQualifier term).2 domain with
            | .matched => return .decided (fromQualifier (splitQualifier term).1)
            | .noMatch => readTerms mode checkHost domain redirect rest
            | .error result => return .decided result

/-- The terms behind are read where the ones before them decide nothing. -/
def readOn (mode : MacroMode) (checkHost : Text → Walk SpfResult) (domain : Text) (rest : List Text) :
    Reading → Walk SpfResult
  | .decided result => return result
  | .undecided redirect => checkTerms resolver syn ip mode checkHost domain redirect rest

theorem checkTerms_append (mode : MacroMode) (host : Text → Walk SpfResult) (domain : Text)
    (redirect : Option Text) (earlier rest : List Text) :
    checkTerms resolver syn ip mode host domain redirect (earlier ++ rest) =
      (readTerms resolver syn ip mode host domain redirect earlier >>=
        readOn resolver syn ip mode host domain rest) := by
  induction earlier generalizing redirect with
  | nil => rfl
  | cons term earlier ih =>
      rw [List.cons_append]
      unfold checkTerms readTerms
      generalize Str.stripPrefix "redirect=" term = modifier
      cases modifier with
      | some target =>
          dsimp only
          split_ifs
          · exact bind_congr (fun _ => ih redirect)
          · exact ih _
      | none =>
          split_ifs
          · exact ih redirect
          · rw [bind_assoc]
            refine bind_congr (fun outcome => ?_)
            cases outcome with
            | matched => rfl
            | noMatch => exact ih redirect
            | error result => rfl

/-- A target is looked up, which is paid for, and its policy is checked. -/
def checkTarget (host : Text → Walk SpfResult) (target : Text) : Walk SpfResult := do
  if ← spendLookup then host target else return .permError

def Passes (walk : Walk SpfResult) (evaluator : Evaluator) : Prop :=
  (walk evaluator).map Prod.fst = some .pass

/-- An occurrence of a mechanism at which a match is a pass. -/
def Grants (mechanism term : Text) : Prop :=
  (splitQualifier term).1 = '+' ∧
    Str.toAsciiLowercase (splitQualifier term).2 = Str.toAsciiLowercase mechanism ∧ '=' ∉ term

theorem checkTarget_passes {host : Text → Walk SpfResult} {target : Text} {evaluator : Evaluator}
    (passes : Passes (checkTarget host target) evaluator) :
    ∃ charged after, spendLookup evaluator = some (true, charged) ∧
      host target charged = some (.pass, after) := by
  unfold Passes checkTarget at passes
  rw [Option.map_eq_some_iff] at passes
  obtain ⟨⟨result, after⟩, walked, rfl⟩ := passes
  simp only [bind, StateT.bind] at walked
  unfold spendLookup at walked ⊢
  cases budget : evaluator.budget with
  | zero =>
      rw [budget] at walked
      have other : SpfResult.permError = .pass := congrArg Prod.fst (Option.some.inj walked)
      exact absurd other (by decide)
  | succ remaining =>
      rw [budget] at walked
      exact ⟨_, after, rfl, walked⟩

/-- An include that is reached with the rest of the budget decides for a pass. -/
theorem checkTerms_grants {inclusion : Inclusion} {term : Text} (grants : Grants inclusion.text term)
    (host : Text → Walk SpfResult) (domain : Text) (redirect : Option Text) (rest : List Text)
    {evaluator : Evaluator} (passes : Passes (checkTarget host inclusion.target) evaluator) :
    Passes (checkTerms resolver syn ip .lenient host domain redirect (term :: rest)) evaluator := by
  obtain ⟨plus, spelled, plain⟩ := grants
  have included : Str.stripPrefix "include:"
      (Str.toAsciiLowercase (splitQualifier term).2) = some inclusion.target := by
    rw [spelled, inclusion.spells, Str.stripPrefix]
    simp
  unfold checkTerms
  rw [SenderPolicy.stripPrefix_plain plain]
  rw [if_neg plain, matchMechanism, if_neg (by decide)]
  rw [matchSupported_include included, plus]
  obtain ⟨charged, after, paid, passed⟩ := checkTarget_passes passes
  have entered : matchInclude host inclusion.target evaluator = some (.matched, after) := by
    simp only [matchInclude, bind, StateT.bind, Option.bind, paid, if_true, passed]
    rfl
  unfold Passes
  simp only [bind, StateT.bind, entered]
  rfl

/-- The terms before an include pass, or they decide nothing and the target of the include, which is
looked up from there, passes. -/
def LeadsToPass (host : Text → Walk SpfResult) (target : Text) : Option (Reading × Evaluator) → Prop
  | some (.decided result, _) => result = .pass
  | some (.undecided _, evaluator) => Passes (checkTarget host target) evaluator
  | none => False

/-- The state in which the terms of the first policy are read. -/
def Evaluator.fetched (domain : Text) : Evaluator :=
  { Evaluator.new with log := [.asked (.txt domain)] }

theorem isPolicy_joinWords (terms : List Text) :
    isPolicy (joinWords ("v=spf1" :: terms)) = true := by
  cases terms with
  | nil => decide
  | cons term terms =>
      rw [joinWords_cons]
      generalize joinWords (term :: terms) = rest
      unfold isPolicy
      rw [Bool.or_eq_true_iff]
      exact .inr (decide_eq_true ⟨rest, rfl⟩)

theorem evaluate_published {record domain : Text} {terms : List Text} (depth : Nat)
    (named : Str.trim domain ≠ []) (published : resolver.txt [] domain = .ok [record])
    (words : splitWhitespace record = "v=spf1".toList :: terms)
    (joined : joinWords (splitWhitespace record) = record) :
    (evaluate resolver syn ip (depth + 1) domain).map Prod.fst =
      (checkTerms resolver syn ip .lenient (checkHost resolver syn ip .lenient depth) domain none
        terms (Evaluator.fetched domain)).map Prod.fst := by
  have policy : isPolicy record = true := by
    rw [← joined, words]
    exact isPolicy_joinWords terms
  have fetched : fetchSpfRecord resolver domain Evaluator.new =
      some (.ok (some record), Evaluator.fetched domain) := by
    simp only [fetchSpfRecord, bind, StateT.bind, Option.bind, ask, Evaluator.new, queries,
      List.filterMap_nil, published]
    simp only [List.filter_cons, policy]
    rfl
  unfold evaluate
  rw [if_neg named, checkHost, Option.map_map]
  simp only [bind, StateT.bind, Option.bind, fetched, words]
  rfl

end Evaluation

/-! ## What the advice is worth -/

/-- The merged record has the terms of the record, and an occurrence of the include at which a match
is a pass lets a client pass that the included policy passes. -/
theorem merged_record_authorises (record : Text) (inclusion : Inclusion)
    (policy : isSpfRecord record = true) :
    spfWithMechanism (spfWithMechanism record inclusion.text) inclusion.text =
      spfWithMechanism record inclusion.text ∧
    isSpfRecord (spfWithMechanism record inclusion.text) = true ∧
    spfAllQualifier (spfWithMechanism record inclusion.text) = spfAllQualifier record ∧
    (∃ version front back, splitWhitespace record = version :: (front ++ back) ∧
      splitWhitespace (spfWithMechanism record inclusion.text) =
        (if spfContainsMechanism record inclusion.text then version :: (front ++ back)
        else version :: (front ++ inclusion.text :: back)) ∧
      (∀ term ∈ front, isBareAll term = false) ∧ ∀ term ∈ back.head?, isBareAll term = true) ∧
    ('=' ∉ inclusion.text → Grants inclusion.text inclusion.text) ∧
    ∀ (resolver : SpfResolver) (syn : IpSyntax) (ip : IpAddr) (depth : Nat) (domain : Text)
      (earlier rest : List Text) (term : Text),
      Str.trim domain ≠ [] →
      resolver.txt [] domain = .ok [spfWithMechanism record inclusion.text] →
      splitWhitespace (spfWithMechanism record inclusion.text) =
        "v=spf1".toList :: (earlier ++ term :: rest) →
      Grants inclusion.text term →
      LeadsToPass (checkHost resolver syn ip .lenient depth) inclusion.target
        (readTerms resolver syn ip .lenient (checkHost resolver syn ip .lenient depth) domain none
          earlier (Evaluator.fetched domain)) →
      (evaluate resolver syn ip (depth + 1) domain).map Prod.fst = some .pass := by
  refine ⟨spfWithMechanism_idempotent policy, isSpfRecord_merged policy,
    spfAllQualifier_merged policy, ?_, ?_, ?_⟩
  · obtain ⟨version, terms, words, -, other⟩ := exists_version policy
    refine ⟨version, terms.takeWhile (fun term => !isBareAll term),
      terms.dropWhile (fun term => !isBareAll term), ?_, ?_, ?_, ?_⟩
    · rw [List.takeWhile_append_dropWhile, words]
    · have inserted : insertMechanism inclusion.text false (version :: terms) =
          version :: insertMechanism inclusion.text false terms := by
        simp [insertMechanism, other]
      rw [words_spfWithMechanism, words, inserted, insertMechanism_eq,
        List.takeWhile_append_dropWhile]
    · intro term member
      simpa using List.mem_takeWhile_imp member
    · intro term first
      have stopped := List.head?_dropWhile_not (fun term => !isBareAll term) terms
      rw [Option.mem_def.mp first] at stopped
      simpa using stopped
  · intro plain
    rw [Grants, inclusion.splitQualifier]
    exact ⟨rfl, rfl, plain⟩
  · intro resolver syn ip depth domain earlier rest term named published words grants leads
    rw [evaluate_published resolver syn ip depth named published words
      (spfWithMechanism_joined record inclusion), checkTerms_append]
    simp only [bind, StateT.bind]
    generalize readTerms resolver syn ip .lenient _ domain none earlier _ = read at leads ⊢
    rcases read with _ | ⟨result | redirect, evaluator⟩
    · exact leads.elim
    · obtain rfl : result = .pass := leads
      rfl
    · exact checkTerms_grants resolver syn ip grants _ domain redirect rest leads

/-- A resolver that has the policies that are listed. -/
def listedResolver (policies : List (Text × Text)) : SpfResolver where
  txt := fun _ name => .ok ((policies.filter (fun policy => policy.1 = name)).map Prod.snd)
  ipAddresses := fun _ _ => .ok []
  mxHosts := fun _ _ => .ok []

def plainSyntax : IpSyntax where
  parseNet := fun _ => none
  parseIp := fun _ => none

/-- What `name` evaluates to where a domain has taken the advice. -/
def advised (record mechanism : Text) (others : List (Text × Text)) (name : Text) :
    Option SpfResult :=
  (evaluate (listedResolver (("a.example", spfWithMechanism record mechanism) :: others))
    plainSyntax (.v4 1#32) 11 name).map Prod.fst

def neutralInclude : Text := "include:n.example"

def busyRecord : Text := joinWords ("v=spf1" :: List.replicate 10 neutralInclude)

def busyPolicies : List (Text × Text) :=
  [("m.example", "v=spf1 +all"), ("n.example", "v=spf1 ?all")]

def exampleInclusion : Inclusion where
  text := "include:m.example"
  target := "m.example"
  spells := by decide
  unbroken := List.all_iff_forall_prop.mp (by decide)

theorem hard_fail_still_passes :
    advised "v=spf1 -all" exampleInclusion.text [("m.example", "v=spf1 +all")]
      "a.example" = some .pass :=
  (merged_record_authorises "v=spf1 -all" exampleInclusion (by decide +kernel)).2.2.2.2.2 _ _ _
    10 _ [] ["-all"] exampleInclusion.text (by decide +kernel) (by decide +kernel)
    (by decide +kernel) ⟨by decide, by decide, by decide⟩ (by
      change Passes (checkTarget _ "m.example") (Evaluator.fetched "a.example")
      unfold Passes
      decide +kernel)

/-- The included policy passes and no term before the include decides, but the merged record does not
pass: where the include is there with a minus, where its target is read as the value of a modifier,
where the version is not spelled as the evaluator looks for it, and where the lookups are used up. -/
theorem advised_domain_fails :
    (advised "v=spf1 -include:m.example -all" "include:m.example"
        [("m.example", "v=spf1 +all")] "m.example" = some .pass ∧
      advised "v=spf1 -include:m.example -all" "include:m.example"
        [("m.example", "v=spf1 +all")] "a.example" = some .fail) ∧
    (advised "v=spf1 -all" "include:m=1.example"
        [("m=1.example", "v=spf1 +all")] "m=1.example" = some .pass ∧
      advised "v=spf1 -all" "include:m=1.example"
        [("m=1.example", "v=spf1 +all")] "a.example" = some .fail) ∧
    (isSpfRecord "V=SPF1 -all" = true ∧
      advised "V=SPF1 -all" "include:m.example"
        [("m.example", "v=spf1 +all")] "m.example" = some .pass ∧
      advised "V=SPF1 -all" "include:m.example"
        [("m.example", "v=spf1 +all")] "a.example" = some .none) ∧
    (advised busyRecord "include:m.example" busyPolicies "m.example" = some .pass ∧
      (readTerms (listedResolver busyPolicies) plainSyntax (.v4 1#32) .lenient
        (checkHost (listedResolver busyPolicies) plainSyntax (.v4 1#32) .lenient 10)
        "a.example" none (List.replicate 10 neutralInclude)
        (Evaluator.fetched "a.example")).map Prod.fst = some (.undecided none) ∧
      advised busyRecord "include:m.example" busyPolicies "a.example" =
        some .permError) := by
  decide +kernel

end Camelmailer.Spf
