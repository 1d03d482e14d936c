import Camelmailer.Core.SenderPolicy
import Camelmailer.Core.SpfVerdict
import Mathlib.Data.Bool.AllAny

/-!
# How the evaluator reads the terms of a policy

The evaluator cuts a policy at white space and looks at how each of the words starts. What it makes
of a word is compared with the term of the grammar that the word is the text of.
-/

namespace Camelmailer.SenderPolicy

open Utf8 Spf

/-! ## Visible characters -/

/-- The characters of the terms. -/
def Visible (char : Char) : Prop := 33 ≤ char.toNat ∧ char.toNat ≤ 126

instance (char : Char) : Decidable (Visible char) := inferInstanceAs (Decidable (_ ∧ _))

variable {char : Char}

theorem Visible.not_space (visible : Visible char) : Str.isWhitespace char = false := by
  obtain ⟨low, high⟩ := visible
  simp [Str.isWhitespace]
  omega

theorem visible_toLower : Visible char.toLower ↔ Visible char := by
  unfold Visible
  rcases Str.toLower_cases char with same | ⟨low, high, moved⟩
  · rw [same]
  · omega

theorem visible_of_isAlphanum (alphanumeric : char.isAlphanum = true) :
    Visible char := by
  delta Char.isAlphanum Char.isAlpha Char.isUpper Char.isLower Char.isDigit at alphanumeric
  simp only [Bool.or_eq_true, Bool.and_eq_true, decide_eq_true_eq, UInt32.le_iff_toNat_le] at alphanumeric
  unfold Visible Char.toNat
  have : ('A'.val.toNat) = 65 := rfl
  have : ('Z'.val.toNat) = 90 := rfl
  have : ('a'.val.toNat) = 97 := rfl
  have : ('z'.val.toNat) = 122 := rfl
  have : ('0'.val.toNat) = 48 := rfl
  have : ('9'.val.toNat) = 57 := rfl
  omega

theorem visible_of_isDigit (digit : char.isDigit = true) : Visible char :=
  visible_of_isAlphanum (by simp [Char.isAlphanum, digit])

def AllVisible (text : Text) : Prop := ∀ char ∈ text, Visible char

theorem AllVisible.append {front back : Text} (first : AllVisible front) (second : AllVisible back) :
    AllVisible (front ++ back) :=
  List.forall_mem_append.mpr ⟨first, second⟩

theorem AllVisible.cons {text : Text} (first : Visible char) (others : AllVisible text) :
    AllVisible (char :: text) :=
  List.forall_mem_cons.mpr ⟨first, others⟩

theorem AllVisible.nil : AllVisible [] := fun _ member => absurd member List.not_mem_nil

theorem allVisible_lower {text : Text} : AllVisible (Str.toAsciiLowercase text) ↔ AllVisible text := by
  unfold AllVisible Str.toAsciiLowercase
  simp only [List.forall_mem_map, visible_toLower]

theorem Keyword.visible {word : Text} (keyword : Keyword word) (visible : AllVisible word) :
    AllVisible keyword.text :=
  allVisible_lower.mp (keyword.spells.symm ▸ visible)

theorem DomainSpec.visible (spec : DomainSpec) : AllVisible spec.text := by
  have front : AllVisible spec.front := by
    intro char member
    obtain ⟨low, high, -⟩ := of_decide_eq_true (List.all_eq_true.mp spec.literal char member)
    exact ⟨low, high⟩
  have top : AllVisible spec.top := by
    intro char member
    have label := spec.label
    simp only [isTopLabel, Bool.and_eq_true] at label
    have drawn := List.all_eq_true.mp label.1.1.1 char member
    rcases Bool.or_eq_true_iff.mp drawn with alphanumeric | hyphen
    · exact visible_of_isAlphanum alphanumeric
    · rw [beq_iff_eq.mp hyphen]
      exact ⟨by decide, by decide⟩
  refine front.append (.cons ⟨by decide, by decide⟩ (top.append ?_))
  split
  · exact .cons ⟨by decide, by decide⟩ .nil
  · exact .nil

theorem targetText_visible (target : Option DomainSpec) : AllVisible (targetText target) := by
  cases target with
  | none => exact .nil
  | some spec => exact .cons ⟨by decide, by decide⟩ spec.visible

theorem lengthText_visible {bound : Nat} {mark : Text} (visible : AllVisible mark)
    (length : Option (Fin bound)) : AllVisible (lengthText mark length) := by
  cases length with
  | none => exact .nil
  | some length => exact visible.append (fun char member => visible_of_isDigit (isDigit_decimal member))

theorem DualCidr.visible (cidr : DualCidr) : AllVisible cidr.text := by
  have slash : Visible '/' := ⟨by decide, by decide⟩
  exact (lengthText_visible (.cons slash .nil) _).append
    (lengthText_visible (.cons slash (.cons slash .nil)) _)

section Terms

variable {syn : IpSyntax}

theorem Ip4Network.visible (network : Ip4Network syn) : AllVisible network.text := by
  intro char member
  have drawn := List.all_eq_true.mp network.written char member
  rcases Bool.or_eq_true_iff.mp drawn with digit | dot
  · exact visible_of_isDigit digit
  · rw [beq_iff_eq.mp dot]
    exact ⟨by decide, by decide⟩

theorem Ip6Network.visible (network : Ip6Network syn) : AllVisible network.text := by
  intro char member
  have drawn := List.all_eq_true.mp network.written char member
  simp only [Bool.or_eq_true, beq_iff_eq] at drawn
  rcases drawn with (alphanumeric | rfl) | rfl
  · exact visible_of_isAlphanum alphanumeric
  · exact ⟨by decide, by decide⟩
  · exact ⟨by decide, by decide⟩

variable {word : Text}

theorem visible_word (visible : word.all (fun char => decide (Visible char)) = true) :
    AllVisible word :=
  fun char member => of_decide_eq_true (List.all_eq_true.mp visible char member)

theorem Mechanism.visible (mechanism : Mechanism syn) : AllVisible mechanism.text := by
  have colon : Visible ':' := ⟨by decide, by decide⟩
  have slash : AllVisible ['/'] := .cons ⟨by decide, by decide⟩ .nil
  cases mechanism with
  | all keyword => exact keyword.visible (visible_word rfl)
  | ip4 keyword network length | ip6 keyword network length =>
      exact (keyword.visible (visible_word rfl)).append
        (.cons colon (network.visible.append (lengthText_visible slash length)))
  | a keyword target cidr | mx keyword target cidr =>
      exact (keyword.visible (visible_word rfl)).append
        ((targetText_visible target).append cidr.visible)
  | included keyword target =>
      exact (keyword.visible (visible_word rfl)).append (.cons colon target.visible)

theorem Term.visible (term : Term syn) : AllVisible term.text := by
  cases term with
  | directive given =>
      refine AllVisible.append ?_ given.mechanism.visible
      cases given.qualifier with
      | none => exact .nil
      | some qualifier => cases qualifier <;> exact .cons ⟨by decide, by decide⟩ .nil
  | redirect given =>
      exact (given.keyword.visible (visible_word rfl)).append
        (.cons ⟨by decide, by decide⟩ given.target.visible)

/-! ## Words -/

variable {text : Text}

theorem splitWhitespace_space : splitWhitespace (' ' :: text) = splitWhitespace text := by
  have space : Str.isWhitespace ' ' = true := rfl
  unfold splitWhitespace
  rw [List.splitOnP_cons_eq_if_modifyHead, if_pos space]
  simp

theorem splitWhitespace_spaces (count : Nat) (text : Text) :
    splitWhitespace (List.replicate count ' ' ++ text) = splitWhitespace text := by
  induction count with
  | zero => rfl
  | succ count ih =>
      rw [List.replicate_succ, List.cons_append, splitWhitespace_space, ih]

/-- A word is cut off before a space and at the end. -/
theorem splitWhitespace_word (visible : AllVisible word) (some_ : word ≠ [])
    (spaced : ∀ char ∈ text.head?, char = ' ') :
    splitWhitespace (word ++ text) = word :: splitWhitespace text := by
  have unbroken : ∀ char ∈ word, Str.isWhitespace char = false :=
    fun char member => (visible char member).not_space
  unfold splitWhitespace
  cases text with
  | nil =>
      rw [List.append_nil, List.splitOnP_eq_singleton unbroken]
      simp [some_]
  | cons char rest =>
      obtain rfl := spaced char rfl
      have space : Str.isWhitespace ' ' = true := rfl
      rw [List.splitOnP_append_cons_of_forall_mem unbroken ' ' space, List.splitOnP_cons_eq_if_modifyHead, if_pos space]
      simp [some_]

theorem Keyword.ne_nil (keyword : Keyword word) (some_ : word ≠ []) :
    keyword.text ≠ [] := by
  intro none
  have spells := keyword.spells
  rw [none] at spells
  exact some_ spells.symm

theorem Mechanism.text_ne_nil (mechanism : Mechanism syn) : mechanism.text ≠ [] := by
  cases mechanism with
  | all keyword => exact keyword.ne_nil (by decide)
  | ip4 keyword
  | ip6 keyword
  | a keyword | mx keyword
  | included keyword => exact List.append_ne_nil_of_left_ne_nil (keyword.ne_nil (by decide)) _

theorem Term.text_ne_nil (term : Term syn) : term.text ≠ [] := by
  cases term with
  | directive given => exact List.append_ne_nil_of_right_ne_nil _ given.mechanism.text_ne_nil
  | redirect given => exact List.append_ne_nil_of_left_ne_nil (given.keyword.ne_nil (by decide)) _

theorem spacedText_head (spaced : List (Nat × Term syn)) (trailing : Nat) :
    ∀ char ∈ (spacedText spaced trailing).head?, char = ' ' := by
  intro char first
  cases spaced with
  | nil =>
      cases trailing with
      | zero => cases first
      | succ more => exact (Option.mem_some_iff.mp first).symm
  | cons spacedTerm rest => exact (Option.mem_some_iff.mp first).symm

theorem splitWhitespace_spacedText (spaced : List (Nat × Term syn)) (trailing : Nat) :
    splitWhitespace (spacedText spaced trailing) = spaced.map (fun given => given.2.text) := by
  induction spaced with
  | nil =>
      have spaces := splitWhitespace_spaces trailing []
      rw [List.append_nil] at spaces
      exact spaces
  | cons spacedTerm rest ih =>
      obtain ⟨more, term⟩ := spacedTerm
      rw [spacedText, splitWhitespace_space, splitWhitespace_spaces,
        splitWhitespace_word term.visible term.text_ne_nil (spacedText_head rest trailing),
        ih]
      rfl

/-- The evaluator cuts the text of a record into the texts of its terms. -/
theorem splitWhitespace_record (record : Record syn) :
    (splitWhitespace record.text).drop 1 = record.terms.map Term.text := by
  rw [Record.text, splitWhitespace_word (record.version.visible (visible_word rfl))
    (record.version.ne_nil (by decide)) (spacedText_head _ _), splitWhitespace_spacedText]
  simp [Record.terms]

/-- The evaluator takes a record for a policy where its version is written in lower case. -/
theorem isPolicy_record (record : Record syn) (lower : record.version.text = "v=spf1") :
    isPolicy record.text = true := by
  have start : Str.trimStart record.text = record.text := by
    rw [Record.text, lower]
    rfl
  have head := spacedText_head record.spaced record.trailing
  unfold isPolicy
  rw [start, Record.text, lower]
  cases tail : spacedText record.spaced record.trailing with
  | nil => rfl
  | cons char rest =>
      rw [tail] at head
      obtain rfl := head char rfl
      simp [Str.startsWith]

/-! ## Qualifiers and modifiers -/

/-- A character that is not a letter is in no word. -/
theorem Keyword.not_mem (keyword : Keyword word) {mark : Char} (fixed : mark.toLower = mark)
    (absent : mark ∉ word) : mark ∉ keyword.text := by
  intro member
  have lower : mark.toLower ∈ Str.toAsciiLowercase keyword.text := List.mem_map_of_mem member
  rw [keyword.spells, fixed] at lower
  exact absent lower

theorem Keyword.head (keyword : Keyword word) {char : Char} {rest : Text}
    (starts : keyword.text = char :: rest) : word.head? = some char.toLower := by
  have spells := keyword.spells
  rw [starts] at spells
  rw [← spells]
  rfl

/-- A mechanism starts with a letter. -/
theorem Mechanism.head (mechanism : Mechanism syn) :
    ∃ char rest, mechanism.text = char :: rest ∧ char ∉ ['+', '-', '~', '?'] := by
  have letter {word : Text} (keyword : Keyword word) (rest : Text)
      (first : ∃ small, word.head? = some small ∧ small ∉ ['+', '-', '~', '?']) :
      ∃ char more, keyword.text ++ rest = char :: more ∧ char ∉ ['+', '-', '~', '?'] := by
    obtain ⟨small, head, letter⟩ := first
    cases spelt : keyword.text with
    | nil =>
        refine absurd spelt (keyword.ne_nil ?_)
        rintro rfl
        cases head
    | cons char more =>
        refine ⟨char, more ++ rest, rfl, fun mark => letter ?_⟩
        obtain rfl : char.toLower = small := Option.some.inj ((keyword.head spelt).symm.trans head)
        have fixed : ∀ mark ∈ ['+', '-', '~', '?'], mark.toLower = mark :=
          List.all_iff_forall_prop.mp (by decide)
        rw [fixed char mark]
        exact mark
  cases mechanism with
  | all keyword =>
      have start := letter keyword [] ⟨'a', rfl, by decide⟩
      rw [List.append_nil] at start
      exact start
  | ip4 keyword | ip6 keyword | included keyword => exact letter keyword _ ⟨'i', rfl, by decide⟩
  | a keyword => exact letter keyword _ ⟨'a', rfl, by decide⟩
  | mx keyword => exact letter keyword _ ⟨'m', rfl, by decide⟩

theorem splitQualifier_directive (directive : Directive syn) :
    splitQualifier directive.text =
      ((directive.qualifier.getD .pass).char, directive.mechanism.text) := by
  obtain ⟨qualifier, mechanism⟩ := directive
  cases qualifier with
  | none =>
      obtain ⟨char, rest, starts, letter⟩ := mechanism.head
      change splitQualifier mechanism.text = ('+', mechanism.text)
      rw [starts, splitQualifier, if_neg letter]
  | some qualifier => cases qualifier <;> rfl

theorem fromQualifier_char (qualifier : Qualifier) : fromQualifier qualifier.char = qualifier.result := by
  cases qualifier <;> rfl

/-- A `redirect` is found where it is written in lower case. -/
theorem stripPrefix_redirect (redirect : Redirect) :
    Str.stripPrefix "redirect=" redirect.text =
      if redirect.keyword.text = "redirect" then some redirect.target.text else none := by
  have length : redirect.keyword.text.length = 8 := by
    have spells := congrArg List.length redirect.keyword.spells
    rw [Str.toAsciiLowercase, List.length_map] at spells
    exact spells
  split_ifs with lower
  · rw [Redirect.text, lower]
    rfl
  · rw [Str.stripPrefix, if_neg]
    rintro ⟨rest, same⟩
    have front := congrArg (List.take 8) same
    rw [Redirect.text, List.take_left' length] at front
    exact lower front.symm

theorem Redirect.mem_equals (redirect : Redirect) : '=' ∈ redirect.text := by simp [Redirect.text]

theorem stripPrefix_plain (plain : '=' ∉ text) :
    Str.stripPrefix "redirect=" text = none := by
  rw [Str.stripPrefix, if_neg]
  rintro ⟨rest, same⟩
  exact plain (same ▸ List.mem_append_left _ (by decide))

/-! ## Networks -/

/-- What the evaluator relies on where addresses and networks are read: a network is an address, a
slash and a length, and the letter case is not looked at. -/
structure LawfulIpSyntax (syn : IpSyntax) : Prop where
  parseIp_lower : ∀ text, syn.parseIp (Str.toAsciiLowercase text) = syn.parseIp text
  parseNet_slash : ∀ text address length net, syn.parseIp text = some address →
    IpNet.new address length = some net → syn.parseNet (text ++ '/' :: decimal length) = some net
  parseNet_bare : ∀ text, '/' ∉ text → syn.parseNet text = none

/-- The number of bits of an address. -/
def width : IpAddr → Nat
  | .v4 _ => 32
  | .v6 _ => 128

theorem contains_eq (address ip : IpAddr) (length : Nat) :
    IpNet.contains ⟨address, length⟩ ip = sameNetwork length address ip := by
  cases address <;> cases ip <;> simp only [IpNet.contains, sameNetwork] <;> exact (beq_eq_decide _ _).symm

theorem sameNetwork_width (address ip : IpAddr) :
    sameNetwork (width ip) address ip = decide (address = ip) := by
  cases address <;> cases ip <;> simp [sameNetwork, width, beq_eq_decide]

theorem new_of_le {address : IpAddr} {length : Nat} (within : length ≤ width address) :
    IpNet.new address length = some ⟨address, length⟩ := by
  cases address <;> exact if_pos within

theorem lower_decimal (number : Nat) : Str.toAsciiLowercase (decimal number) = decimal number := by
  refine (List.map_congr_left (fun char member => ?_)).trans (List.map_id _)
  rcases Str.toLower_cases char with same | ⟨low, high, -⟩
  · exact same
  · have digit := isDigit_decimal member
    simp only [Char.isDigit, Bool.and_eq_true, decide_eq_true_eq, UInt32.le_iff_toNat_le] at digit
    have : '9'.val.toNat = 57 := rfl
    have : char.toNat = char.val.toNat := rfl
    omega

/-- A network that is written with an address and maybe a length. -/
theorem ipInCidr_network {bound : Nat} (lawful : LawfulIpSyntax syn) {address : IpAddr}
    (denotes : syn.parseIp text = some address) (bare : '/' ∉ text) (length : Option (Fin bound))
    (within : ∀ given ∈ length, given.val ≤ width address) (ip : IpAddr) :
    ipInCidr syn (Str.toAsciiLowercase (text ++ lengthText ['/'] length)) ip =
      some (sameNetwork ((length.map Fin.val).getD (width address)) address ip) := by
  have lowered : syn.parseIp (Str.toAsciiLowercase text) = some address :=
    (lawful.parseIp_lower text).trans denotes
  cases length with
  | none =>
      have unslashed : '/' ∉ Str.toAsciiLowercase text := by
        intro member
        obtain ⟨char, inside, slash⟩ := List.mem_map.mp member
        rcases Str.toLower_cases char with same | ⟨low, high, moved⟩
        · rw [← slash, same] at bare
          exact bare inside
        · rw [slash] at moved
          have : '/'.toNat = 47 := rfl
          omega
      rw [lengthText, List.append_nil, ipInCidr, lawful.parseNet_bare _ unslashed, lowered]
      cases address <;> cases ip <;> simp [sameNetwork, width, beq_eq_decide]
  | some length =>
      have written : Str.toAsciiLowercase (text ++ lengthText ['/'] (some length)) =
          Str.toAsciiLowercase text ++ '/' :: decimal length.val := by
        have digits := lower_decimal length.val
        unfold Str.toAsciiLowercase at digits
        simp only [lengthText, Str.toAsciiLowercase, List.map_append, List.map_cons, digits]
        rfl
      have net := new_of_le (within length rfl)
      rw [written, ipInCidr, lawful.parseNet_slash _ _ _ _ lowered net]
      exact congrArg some (contains_eq _ _ _)

/-! ## Domains and lengths -/

/-- The length that the evaluator takes: the one for IPv4, where there is no other. -/
def DualCidr.taken (cidr : DualCidr) : Option Nat :=
  match cidr.ip4, cidr.ip6 with
  | some length, none => some length.val
  | _, _ => none

theorem parseU8_decimal (length : Fin 33) : parseU8 (decimal length.val) = some length.val := by
  have all : ∀ length : Fin 33, parseU8 (decimal length.val) = some length.val := by decide +kernel
  exact all length

theorem parseU8_slash {front back : Text} (unsigned : front.head? ≠ some '+') :
    parseU8 (front ++ '/' :: back) = none := by
  have whole : Str.stripPrefix ['+'] (front ++ '/' :: back) = none := by
    rw [Str.stripPrefix, if_neg]
    rintro ⟨rest, same⟩
    cases front with
    | nil => cases same
    | cons char front => exact unsigned (congrArg List.head? same).symm
  unfold parseU8
  rw [whole]
  rw [if_neg]
  rintro ⟨-, digits, -⟩
  have slash := List.all_eq_true.mp digits '/' (by simp)
  cases slash

/-- The evaluator's reading of the domain and the length of an `a` or an `mx`. -/
theorem parseDomainSpec_eq (keyword : Keyword word) (target : Option DomainSpec) (cidr : DualCidr)
    (domain : Text) (unslashed : ∀ spec ∈ target, '/' ∉ spec.text) :
    parseDomainSpec (keyword.text ++ (targetText target ++ cidr.text)) word domain =
      ((target.map DomainSpec.text).getD domain, cidr.taken) := by
  have length : keyword.text.length = word.length := by
    have spells := congrArg List.length keyword.spells
    rw [Str.toAsciiLowercase, List.length_map] at spells
    exact spells
  have named (spec : DomainSpec) : spec.text ≠ [] := by simp [DomainSpec.text]
  have front : '/' ∉ targetText target := by
    cases target with
    | none => exact List.not_mem_nil
    | some spec =>
        intro member
        rcases List.mem_cons.mp member with colon | inside
        · cases colon
        · exact unslashed spec rfl inside
  have split (rest : Text) : Str.splitOnce '/' (targetText target ++ '/' :: rest) =
      some (targetText target, rest) := Str.splitOnce_eq_some.mpr ⟨rfl, front⟩
  unfold parseDomainSpec
  rw [List.drop_left' length]
  dsimp only
  obtain ⟨ip4, ip6⟩ := cidr
  cases ip4 with
  | none =>
      cases ip6 with
      | none =>
          have whole : targetText target ++ DualCidr.text ⟨none, none⟩ = targetText target := by
            simp [DualCidr.text, lengthText]
          rw [whole, Str.splitOnce_eq_none.mpr front]
          cases target with
          | none => rfl
          | some spec => exact Prod.ext (if_neg (named spec)) rfl
      | some length =>
          have slashed : parseU8 ('/' :: decimal length.val) = none :=
            @parseU8_slash [] _ (by simp)
          rw [show DualCidr.text ⟨none, some length⟩ = '/' :: '/' :: decimal length.val from rfl, split]
          cases target with
          | none => exact Prod.ext rfl slashed
          | some spec => exact Prod.ext (if_neg (named spec)) slashed
  | some length =>
      have taken : parseU8 (decimal length.val ++ lengthText ['/', '/'] ip6) =
          DualCidr.taken ⟨some length, ip6⟩ := by
        cases ip6 with
        | none =>
            change parseU8 (decimal length.val ++ []) = some length.val
            rw [List.append_nil, parseU8_decimal]
        | some more =>
            have unsigned : (decimal length.val).head? ≠ some '+' := by
              intro plus
              have digit := isDigit_decimal (List.mem_of_mem_head? plus)
              cases digit
            exact parseU8_slash unsigned
      rw [show DualCidr.text ⟨some length, ip6⟩ =
        '/' :: (decimal length.val ++ lengthText ['/', '/'] ip6) from rfl, split]
      dsimp only
      rw [taken]
      cases target with
      | none => rfl
      | some spec => exact Prod.ext (if_neg (named spec)) rfl

/-- The evaluator compares an address with the client as it is meant to, where it takes the length
that is meant. -/
theorem ipMatches_eq {cidr : DualCidr} {ip : IpAddr}
    (meant : cidr.taken.getD (width ip) = cidr.lengthFor ip) (address : IpAddr) :
    ipMatches address ip cidr.taken = sameNetwork (cidr.lengthFor ip) address ip := by
  cases given : cidr.taken with
  | none =>
      rw [given] at meant
      rw [← meant]
      exact (sameNetwork_width address ip).symm
  | some length =>
      rw [given] at meant
      have within : length ≤ width address := by
        have small : length ≤ 32 := by
          unfold DualCidr.taken at given
          split at given
          · next known _ _ =>
              obtain rfl := Option.some.inj given
              exact Nat.le_of_lt_succ known.isLt
          · cases given
        cases address
        · exact small
        · change length ≤ 128
          omega
      unfold ipMatches
      dsimp only
      rw [new_of_le within, ← meant]
      exact contains_eq _ _ _

theorem DomainSpec.name_eq {spec : DomainSpec} (short : spec.text.length ≤ 253) :
    spec.name = spec.text := by
  simp [DomainSpec.name, short]

/-! ## Mechanisms -/

section Mechanisms

variable {resolver : SpfResolver} {ip : IpAddr} {nested : Text → Walk SpfResult} {domain : Text}

theorem lower_keyword {word : Text} (keyword : Keyword word) (rest : Text) :
    Str.toAsciiLowercase (keyword.text ++ rest) = word ++ Str.toAsciiLowercase rest :=
  (List.map_append).trans (congrArg (· ++ Str.toAsciiLowercase rest) keyword.spells)

theorem lower_cons {mark : Char} (fixed : mark.toLower = mark) (rest : Text) :
    Str.toAsciiLowercase (mark :: rest) = mark :: Str.toAsciiLowercase rest :=
  congrArg (· :: Str.toAsciiLowercase rest) fixed

theorem matchSupported_all (keyword : Keyword "all") :
    matchSupported resolver syn ip nested (Mechanism.all keyword : Mechanism syn).text domain =
      return .matched := by
  have lower : Str.toAsciiLowercase (Mechanism.all keyword : Mechanism syn).text = "all" :=
    keyword.spells
  unfold matchSupported
  rw [lower]
  rfl

theorem matchSupported_network {word text rest : Text} (keyword : Keyword word)
    (family : word = "ip4" ∨ word = "ip6")
    (written : text = keyword.text ++ ':' :: rest) {matching : Bool}
    (compared : ipInCidr syn (Str.toAsciiLowercase rest) ip = some matching) :
    matchSupported resolver syn ip nested text domain = return outcomeOf matching := by
  have colon : (':' : Char).toLower = ':' := by decide
  have lower : Str.toAsciiLowercase text = word ++ ':' :: Str.toAsciiLowercase rest := by
    rw [written, lower_keyword, lower_cons colon]
  unfold matchSupported
  rw [lower]
  rcases family with rfl | rfl
  · cases matching <;> simp [Str.stripPrefix, compared, outcomeOf]
  · cases matching <;> simp [Str.stripPrefix, compared, outcomeOf]

/-- What is behind the keyword of an `a` or an `mx`. -/
theorem lower_target (target : Option DomainSpec) (cidr : DualCidr) :
    Str.toAsciiLowercase (targetText target ++ cidr.text) = [] ∨
      ∃ mark rest, Str.toAsciiLowercase (targetText target ++ cidr.text) = mark :: rest ∧
        (mark = ':' ∨ mark = '/') := by
  have colon : (':' : Char).toLower = ':' := by decide
  have slash : ('/' : Char).toLower = '/' := by decide
  cases target with
  | some spec => exact .inr ⟨':', _, lower_cons colon _, .inl rfl⟩
  | none =>
      obtain ⟨ip4, ip6⟩ := cidr
      cases ip4 with
      | some length => exact .inr ⟨'/', _, lower_cons slash _, .inr rfl⟩
      | none =>
          cases ip6 with
          | some length => exact .inr ⟨'/', _, lower_cons slash _, .inr rfl⟩
          | none => exact .inl rfl

theorem matchSupported_a (keyword : Keyword "a") (target : Option DomainSpec) (cidr : DualCidr) :
    matchSupported resolver syn ip nested (Mechanism.a keyword target cidr : Mechanism syn).text domain =
      matchA resolver ip (Mechanism.a keyword target cidr : Mechanism syn).text domain := by
  have lower : Str.toAsciiLowercase (Mechanism.a keyword target cidr : Mechanism syn).text =
      "a" ++ Str.toAsciiLowercase (targetText target ++ cidr.text) := lower_keyword keyword _
  unfold matchSupported
  rw [lower]
  rcases lower_target target cidr with none | ⟨mark, rest, some_, rfl | rfl⟩
  · rw [none]
    rfl
  · rw [some_]
    simp [Str.stripPrefix, Str.startsWith]
  · rw [some_]
    simp [Str.stripPrefix, Str.startsWith]

theorem matchSupported_mx (keyword : Keyword "mx") (target : Option DomainSpec)
    (cidr : DualCidr) :
    matchSupported resolver syn ip nested (Mechanism.mx keyword target cidr : Mechanism syn).text domain =
      matchMx resolver ip (Mechanism.mx keyword target cidr : Mechanism syn).text domain := by
  have lower : Str.toAsciiLowercase (Mechanism.mx keyword target cidr : Mechanism syn).text =
      "mx" ++ Str.toAsciiLowercase (targetText target ++ cidr.text) := lower_keyword keyword _
  unfold matchSupported
  rw [lower]
  rcases lower_target target cidr with none | ⟨mark, rest, some_, rfl | rfl⟩
  · rw [none]
    rfl
  · rw [some_]
    simp [Str.stripPrefix, Str.startsWith]
  · rw [some_]
    simp [Str.stripPrefix, Str.startsWith]

theorem matchSupported_included (keyword : Keyword "include") (target : DomainSpec) :
    matchSupported resolver syn ip nested (Mechanism.included keyword target : Mechanism syn).text domain =
      matchInclude nested (Str.toAsciiLowercase target.text) := by
  have lower : Str.toAsciiLowercase (Mechanism.included keyword target : Mechanism syn).text =
      "include:" ++ Str.toAsciiLowercase target.text := by
    change Str.toAsciiLowercase (keyword.text ++ ':' :: target.text) = _
    rw [lower_keyword]
    rfl
  refine matchSupported_include ?_ nested domain
  rw [lower]
  rfl

end Mechanisms

end Terms

end Camelmailer.SenderPolicy
