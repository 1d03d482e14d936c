import Camelmailer.Smtp.Steps
import Mathlib.Data.Bool.AllAny

/-!
# The address of an envelope line

MAIL FROM and RCPT TO lines name an address in angle brackets, which parameters may follow. The
session reads the address from behind the last bracket that opens on the line, and it cuts a MAIL
FROM line at the first `AUTH=` that it contains.

The results below say exactly when the address that is read is the one in the brackets.
-/

namespace Camelmailer.Smtp

open Utf8

/-! ## Searching -/

/-- The text before the first separator, or all of it. -/
def upTo (separator : Char) (text : Text) : Text :=
  ((Str.splitOnce separator text).map Prod.fst).getD text

/-- The text behind the last separator, or all of it. -/
def behindLast (separator : Char) (text : Text) : Text :=
  ((Str.rsplitOnce separator text).map Prod.snd).getD text

variable {separator : Char} {front : Text}

theorem upTo_append (absent : separator ∉ front) (back : Text) :
    upTo separator (front ++ separator :: back) = front := by
  have split : Str.splitOnce separator (front ++ separator :: back) = some (front, back) :=
    Str.splitOnce_eq_some.mpr ⟨rfl, absent⟩
  rw [upTo, split]
  rfl

variable {text : Text}

theorem behindLast_of_not_mem (absent : separator ∉ text) :
    behindLast separator text = text := by
  rw [behindLast, Str.rsplitOnce_eq_none.mpr absent]
  rfl

theorem behindLast_append {back : Text} (absent : separator ∉ back) (front : Text) :
    behindLast separator (front ++ separator :: back) = back := by
  have split : Str.rsplitOnce separator (front ++ separator :: back) = some (front, back) :=
    Str.rsplitOnce_eq_some.mpr ⟨rfl, absent⟩
  rw [behindLast, split]
  rfl

/-- What comes before a separator does not matter behind the last one. -/
theorem behindLast_skip (separator : Char) (front back : Text) :
    behindLast separator (front ++ separator :: back) = behindLast separator back := by
  by_cases member : separator ∈ back
  · obtain ⟨⟨first, last⟩, split⟩ : ∃ parts, Str.rsplitOnce separator back = some parts := by
      cases missing : Str.rsplitOnce separator back with
      | none => exact absurd member (Str.rsplitOnce_eq_none.mp missing)
      | some parts => exact ⟨parts, rfl⟩
    obtain ⟨rfl, absent⟩ := Str.rsplitOnce_eq_some.mp split
    have whole : front ++ separator :: (first ++ separator :: last) =
        (front ++ separator :: first) ++ separator :: last := by simp
    rw [whole, behindLast_append absent, behindLast_append absent]
  · rw [behindLast_append member, behindLast_of_not_mem member]

/-- The first occurrence of a pattern is behind a part without it, if a character that the pattern
lacks comes in between. -/
theorem before_skip {pattern : Text} (absent : ¬ pattern <:+: front) (foreign : separator ∉ pattern)
    (back : Text) :
    Str.before pattern (front ++ separator :: back) =
      (Str.before pattern back).map (front ++ separator :: ·) := by
  have opening {rest : Text} (within : ¬ pattern <:+: rest) :
      ¬ pattern <+: rest ++ separator :: back := by
    rintro ⟨more, same⟩
    rcases List.append_eq_append_iff.mp same with ⟨tail, rfl, -⟩ | ⟨tail, rfl, split⟩
    · exact within (List.prefix_append _ _).isInfix
    · cases tail with
      | nil => exact within (by simp)
      | cons first others =>
          obtain ⟨rfl, -⟩ := List.cons_eq_cons.mp split
          exact foreign (by simp)
  induction front with
  | nil =>
      rw [List.nil_append, Str.before, if_neg (show ¬ pattern <+: separator :: back from opening absent)]
      rfl
  | cons char rest ih =>
      have later : ¬ pattern <:+: rest :=
        fun occurs => absent (occurs.trans (List.suffix_cons _ _).isInfix)
      have elsewhere : ¬ pattern <+: char :: (rest ++ separator :: back) := opening absent
      rw [List.cons_append, Str.before, if_neg elsewhere, ih later, Option.map_map]
      rfl

/-- The first occurrence of a pattern in a part is the first one of the whole. -/
theorem before_within {pattern : Text} (occurs : pattern <:+: front) (back : Text) :
    Str.before pattern (front ++ back) = Str.before pattern front := by
  induction front with
  | nil =>
      obtain rfl := List.infix_nil.mp occurs
      cases back <;> simp [Str.before]
  | cons char rest ih =>
      rw [List.cons_append, Str.before, Str.before]
      by_cases starts : pattern <+: char :: rest
      · have whole : pattern <+: char :: (rest ++ back) :=
          starts.trans (List.prefix_append (char :: rest) back)
        rw [if_pos starts, if_pos whole]
      · have later : pattern <:+: rest := by
          rcases List.infix_cons_iff.mp occurs with here | there
          · exact absurd here starts
          · exact there
        have elsewhere : ¬ pattern <+: char :: (rest ++ back) := by
          intro early
          refine starts (List.prefix_of_prefix_length_le early
            (List.prefix_append (char :: rest) back) ?_)
          exact later.length_le.trans (Nat.le_succ _)
        rw [if_neg starts, if_neg elsewhere, ih later]

theorem before_length {pattern : Text} (found : Str.before pattern text = some front) :
    front.length + pattern.length ≤ text.length := by
  induction text generalizing front with
  | nil =>
      unfold Str.before at found
      split_ifs at found with empty
      obtain rfl := Option.some.inj found
      simp [empty]
  | cons char rest ih =>
      unfold Str.before at found
      split_ifs at found with starts
      · obtain rfl := Option.some.inj found
        simpa using starts.length_le
      · obtain ⟨inner, later, rfl⟩ := Option.map_eq_some_iff.mp found
        have shorter := ih later
        simp only [List.length_cons]
        omega

theorem before_isSome {pattern : Text} (occurs : pattern <:+: text) :
    ∃ front, Str.before pattern text = some front := by
  induction text with
  | nil => exact ⟨[], by simp [Str.before, List.infix_nil.mp occurs]⟩
  | cons char rest ih =>
      unfold Str.before
      split_ifs with starts
      · exact ⟨[], rfl⟩
      · obtain ⟨front, found⟩ :=
          ih ((List.infix_cons_iff.mp occurs).resolve_left starts)
        exact ⟨char :: front, by rw [found]; rfl⟩

variable {char : Char}

/-- Trimming the end stops at a character that is not white space. -/
theorem trimEnd_append (visible : Str.isWhitespace char = false) (front back : Text) :
    Str.trimEnd (front ++ char :: back) = front ++ char :: Str.trimEnd back := by
  unfold Str.trimEnd List.rdropWhile
  rw [List.reverse_append, List.reverse_cons, List.append_assoc, List.dropWhile_append]
  split_ifs with blank
  · have gone : back.reverse.dropWhile Str.isWhitespace = [] := by simpa using blank
    simp [gone, visible]
  · simp

/-! ## The address that is read -/

/-- The address of the text behind an opening bracket. -/
def readPath (text : Text) : Text := Str.trim (upTo '>' (behindLast '<' text))

/-- What follows an address in brackets leaves that address to be read: no bracket opens in it, or
the last one that does opens the same address. -/
structure Leaves (rest address : Text) : Prop where
  trimmed : '<' ∉ rest → Str.trim address = address
  reopened : ∀ front behind, rest = front ++ '<' :: behind → '<' ∉ behind →
    Str.trim (upTo '>' behind) = address

theorem readPath_iff {address : Text} (unopened : '<' ∉ address) (unclosed : '>' ∉ address)
    (rest : Text) : readPath (address ++ '>' :: rest) = address ↔ Leaves rest address := by
  unfold readPath
  by_cases opens : '<' ∈ rest
  · obtain ⟨front, behind, rfl, last⟩ : ∃ front behind, rest = front ++ '<' :: behind ∧ '<' ∉ behind := by
      cases split : Str.rsplitOnce '<' rest with
      | none => exact absurd opens (Str.rsplitOnce_eq_none.mp split)
      | some parts => exact ⟨parts.1, parts.2, Str.rsplitOnce_eq_some.mp split⟩
    have whole : address ++ '>' :: (front ++ '<' :: behind) =
        (address ++ '>' :: front) ++ '<' :: behind := by simp
    rw [whole, behindLast_append last]
    constructor
    · intro read
      refine ⟨fun absent => absurd opens absent, ?_⟩
      intro first other same missing
      have both : other = behind := by
        rw [← behindLast_append missing first, ← same, behindLast_append last]
      rw [both]
      exact read
    · intro leaves
      exact leaves.reopened front behind rfl last
  · have unopenedWhole : '<' ∉ address ++ '>' :: rest := by simp [unopened, opens]
    rw [behindLast_of_not_mem unopenedWhole, upTo_append unclosed]
    constructor
    · intro read
      refine ⟨fun _ => read, ?_⟩
      rintro front behind rfl -
      exact absurd (List.mem_append_right _ List.mem_cons_self) opens
    · exact fun leaves => leaves.trimmed opens

theorem readPath_length (text : Text) : (readPath text).length ≤ text.length := by
  have inner : (behindLast '<' text).length ≤ text.length := by
    unfold behindLast
    cases split : Str.rsplitOnce '<' text with
    | none => exact Nat.le_refl _
    | some parts =>
        rw [(Str.rsplitOnce_eq_some.mp split).1]
        simp
        omega
  have front : (upTo '>' (behindLast '<' text)).length ≤ (behindLast '<' text).length := by
    unfold upTo
    cases split : Str.splitOnce '>' (behindLast '<' text) with
    | none => exact Nat.le_refl _
    | some parts =>
        rw [(Str.splitOnce_eq_some.mp split).1]
        simp
  have trimmed (text : Text) : (Str.trim text).length ≤ text.length :=
    (List.rdropWhile_prefix _ _).length_le.trans (List.dropWhile_suffix _).length_le
  exact (trimmed _).trans (front.trans inner)

/-- What is dropped at the start of a line does not reach its first bracket. -/
theorem extractAddress_opened {line command tail : Text}
    (stripped : stripPrefixCi line command = some (front ++ '<' :: tail)) :
    extractAddress line command = some (readPath tail) := by
  have trimming (text : Text) : ∃ rest, Str.trimStart (text ++ '<' :: tail) = rest ++ '<' :: tail := by
    unfold Str.trimStart
    rw [List.dropWhile_append]
    split_ifs with blank
    · exact ⟨[], rfl⟩
    · exact ⟨_, rfl⟩
  obtain ⟨first, firstTrim⟩ := trimming front
  have colon : ∃ rest, (Str.stripPrefix [':'] (first ++ '<' :: tail)).getD (first ++ '<' :: tail) =
      rest ++ '<' :: tail := by
    unfold Str.stripPrefix
    split_ifs with starts
    · cases first with
      | nil => simp at starts
      | cons char others => exact ⟨others, rfl⟩
    · exact ⟨first, rfl⟩
  obtain ⟨second, secondStrip⟩ := colon
  obtain ⟨third, thirdTrim⟩ := trimming second
  unfold extractAddress
  rw [stripped]
  simp only [Option.bind_eq_bind, Option.bind_some]
  rw [firstTrim, secondStrip, thirdTrim]
  have last : behindLast '<' (third ++ '<' :: tail) = behindLast '<' tail := behindLast_skip '<' third tail
  unfold readPath
  rw [← last]
  rfl

/-! ## The command word -/

theorem toLower_ascii (ascii : char.toLower.toNat < 128) : char.toNat < 128 := by
  rcases Str.toLower_cases char with same | ⟨-, high, -⟩
  · rwa [same] at ascii
  · omega

theorem utf8Size_ascii (ascii : char.toNat < 128) : char.utf8Size = 1 :=
  Char.utf8Size_eq_one_iff.mpr (UInt32.le_iff_toNat_le.mpr (Nat.le_of_lt_succ ascii))

theorem byteLen_ascii (ascii : ∀ char ∈ text, char.toNat < 128) :
    Str.byteLen text = text.length := by
  induction text with
  | nil => rfl
  | cons char rest ih =>
      rw [Str.byteLen_cons, utf8Size_ascii (ascii char List.mem_cons_self),
        ih (fun other member => ascii other (List.mem_cons_of_mem _ member)),
        List.length_cons, Nat.add_comm]

/-- A command word in any case, with blanks before it and on both sides of its colon. -/
def Opening (command front : Text) : Prop :=
  ∃ lead word gap blank : Text, (∀ char ∈ lead, char = ' ') ∧ (∀ char ∈ gap, char = ' ') ∧
    (∀ char ∈ blank, char = ' ') ∧ Str.eqIgnoreAsciiCase word command = true ∧
    front = lead ++ (word ++ (gap ++ ':' :: blank))

/-- A command word of the session. -/
structure IsWord (command : Text) : Prop where
  ascii : ∀ char ∈ command, char.toNat < 128
  lower : ∀ char ∈ Str.toAsciiLowercase command, char.toNat < 128
  visible : ∃ first more, command = first :: more ∧ Str.isWhitespace first = false
  upper : Str.toAsciiUppercase command = command

theorem isWord_mailFrom : IsWord "MAIL FROM" where
  ascii := List.all_iff_forall_prop.mp (by decide)
  lower := List.all_iff_forall_prop.mp (by decide)
  visible := ⟨_, _, rfl, by decide⟩
  upper := by decide

theorem isWord_rcptTo : IsWord "RCPT TO" where
  ascii := List.all_iff_forall_prop.mp (by decide)
  lower := List.all_iff_forall_prop.mp (by decide)
  visible := ⟨_, _, rfl, by decide⟩
  upper := by decide

section Word

variable {command front : Text}

theorem IsWord.same_ascii {word : Text} (known : IsWord command)
    (same : Str.eqIgnoreAsciiCase word command = true) :
    (∀ char ∈ word, char.toNat < 128) ∧ word.length = command.length := by
  have lowered : Str.toAsciiLowercase word = Str.toAsciiLowercase command := beq_iff_eq.mp same
  refine ⟨?_, by simpa [Str.toAsciiLowercase] using congrArg List.length lowered⟩
  intro char member
  refine toLower_ascii (known.lower _ ?_)
  rw [← lowered]
  exact List.mem_map_of_mem member

/-- The command word is taken off a line that starts with it; a line with a blank before the word
is left as it is. -/
theorem Opening.stripped (opening : Opening command front) (known : IsWord command) (tail : Text) :
    ∃ rest, stripPrefixCi (front ++ '<' :: tail) command = some (rest ++ '<' :: tail) := by
  obtain ⟨lead, word, gap, blank, blanks, -, -, same, rfl⟩ := opening
  obtain ⟨ascii, sized⟩ := known.same_ascii same
  have size : Str.byteLen word = Str.byteLen command := by
    rw [byteLen_ascii ascii, byteLen_ascii known.ascii, sized]
  unfold stripPrefixCi
  cases lead with
  | nil =>
      have whole : [] ++ (word ++ (gap ++ ':' :: blank)) ++ '<' :: tail =
          word ++ ((gap ++ ':' :: blank) ++ '<' :: tail) := by simp
      rw [whole, if_pos (by rw [Str.byteLen_append]; omega), ← size, Str.splitAtByte_append,
        Option.map_some]
      rw [if_pos same]
      exact ⟨_, rfl⟩
  | cons space others =>
      obtain rfl := blanks space List.mem_cons_self
      let start := (' ' :: others ++ word).take command.length
      have startAscii : ∀ char ∈ start, char.toNat < 128 := by
        intro char member
        rcases List.mem_append.mp (List.mem_of_mem_take member) with early | late
        · rw [blanks char early]
          decide
        · exact ascii char late
      have startSize : Str.byteLen start = Str.byteLen command := by
        rw [byteLen_ascii startAscii, byteLen_ascii known.ascii, List.length_take, List.length_append]
        omega
      have whole : ' ' :: others ++ (word ++ (gap ++ ':' :: blank)) ++ '<' :: tail =
          start ++ ((' ' :: others ++ word).drop command.length ++
            ((gap ++ ':' :: blank) ++ '<' :: tail)) := by
        rw [← List.append_assoc start, List.take_append_drop]
        simp
      have cut : Str.splitAtByte (Str.byteLen command)
          (' ' :: others ++ (word ++ (gap ++ ':' :: blank)) ++ '<' :: tail) = some (start,
            (' ' :: others ++ word).drop command.length ++ ((gap ++ ':' :: blank) ++ '<' :: tail)) := by
        rw [whole, ← startSize, Str.splitAtByte_append]
      have other : Str.eqIgnoreAsciiCase start command = false := by
        obtain ⟨first, more, rfl, visible⟩ := known.visible
        refine beq_eq_false_iff_ne.mpr (fun lowered => ?_)
        have blank : ' '.toLower = first.toLower := (List.cons_eq_cons.mp lowered).1
        rw [← Str.isWhitespace_toLower, ← blank] at visible
        cases visible
      rw [if_pos (by rw [whole, Str.byteLen_append]; omega), cut, Option.map_some]
      rw [if_neg (by simp [other])]
      exact ⟨_, rfl⟩

theorem toUpper_toLower (char : Char) : char.toLower.toUpper = char.toUpper := by
  apply Char.ext
  delta Char.toUpper Char.toLower
  split <;> split <;> grind [UInt32.toNat_add, Char.toNat_val]

/-- The upper-cased line starts with the command word. -/
theorem Opening.upper (opening : Opening command front) (known : IsWord command) (tail : Text) :
    ∃ more, Str.toAsciiUppercase (Str.trimStart (front ++ '<' :: tail)) = command ++ more := by
  obtain ⟨lead, word, gap, blank, blanks, -, -, same, rfl⟩ := opening
  have lowered : Str.toAsciiLowercase word = Str.toAsciiLowercase command := beq_iff_eq.mp same
  have skipped : lead.dropWhile Str.isWhitespace = [] :=
    List.dropWhile_eq_nil_iff.mpr (fun char member => by rw [blanks char member]; rfl)
  have raised : Str.toAsciiUppercase word = command := by
    have mapped (text : Text) :
        Str.toAsciiUppercase (Str.toAsciiLowercase text) = Str.toAsciiUppercase text := by
      simp [Str.toAsciiUppercase, Str.toAsciiLowercase, toUpper_toLower]
    rw [← mapped, lowered, mapped, known.upper]
  obtain ⟨first, others, rfl, visible⟩ := known.visible
  cases word with
  | nil => cases raised
  | cons char rest =>
      have kept : Str.isWhitespace char = false := by
        have low : char.toLower = first.toLower := (List.cons_eq_cons.mp lowered).1
        rw [← Str.isWhitespace_toLower, low, Str.isWhitespace_toLower, visible]
      have trimmed : Str.trimStart (lead ++ (char :: rest ++ (gap ++ ':' :: blank)) ++ '<' :: tail) =
          char :: rest ++ ((gap ++ ':' :: blank) ++ '<' :: tail) := by
        unfold Str.trimStart
        rw [List.append_assoc, List.dropWhile_append, skipped]
        simp [kept]
      rw [trimmed]
      refine ⟨Str.toAsciiUppercase ((gap ++ ':' :: blank) ++ '<' :: tail), ?_⟩
      rw [← raised]
      exact List.map_append

end Word

/-- A line that starts with another letter is not a bare AUTH. -/
theorem trimEnd_ne_auth (char : Char) (other : char ≠ 'A') (more : Text) :
    Str.trimEnd (char :: more) ≠ "AUTH" := by
  intro same
  have starts : Str.trimEnd (char :: more) <+: char :: more := List.rdropWhile_prefix _ _
  rw [same] at starts
  exact other (List.cons_prefix_cons.mp starts).1.symm

theorem recognize_mailFrom {data more : Text}
    (named : Str.toAsciiUppercase (Str.trimStart data) = "MAIL FROM" ++ more) :
    Command.recognize data = .mailFrom := by
  have other := trimEnd_ne_auth 'M' (by decide) ("AIL FROM" ++ more)
  unfold Command.recognize
  simpa [named, Str.startsWith] using other

theorem recognize_rcptTo {data more : Text}
    (named : Str.toAsciiUppercase (Str.trimStart data) = "RCPT TO" ++ more) :
    Command.recognize data = .rcptTo := by
  have other := trimEnd_ne_auth 'R' (by decide) ("CPT TO" ++ more)
  unfold Command.recognize
  simpa [named, Str.startsWith] using other

/-! ## Envelope lines -/

/-- A line that names an address in brackets after a command word, with something behind it. -/
structure EnvelopeLine (command address rest line : Text) : Prop where
  unopened : '<' ∉ address
  unclosed : '>' ∉ address
  written : ∃ front, Opening command front ∧ line = front ++ '<' :: (address ++ '>' :: rest)

theorem EnvelopeLine.recognized {address rest line : Text} {session : Session}
    (connected : session.state ≠ .preauth) (waiting : session.inputMode = .command) :
    (EnvelopeLine "MAIL FROM" address rest line → commandOf session line = some .mailFrom) ∧
    (EnvelopeLine "RCPT TO" address rest line → commandOf session line = some .rcptTo) := by
  rw [commandOf_command connected waiting]
  constructor
  · intro envelope
    obtain ⟨front, opening, rfl⟩ := envelope.written
    obtain ⟨more, upper⟩ := opening.upper isWord_mailFrom _
    rw [recognize_mailFrom upper]
  · intro envelope
    obtain ⟨front, opening, rfl⟩ := envelope.written
    obtain ⟨more, upper⟩ := opening.upper isWord_rcptTo _
    rw [recognize_rcptTo upper]

variable {front : Text}

theorem Opening.extracted {command : Text} (opening : Opening command front)
    (known : IsWord command) (tail : Text) :
    extractAddress (front ++ '<' :: tail) command = some (readPath tail) := by
  obtain ⟨rest, stripped⟩ := opening.stripped known tail
  exact extractAddress_opened stripped

/-- Only the part of a MAIL FROM line before its first `AUTH=` is read. -/
theorem senderLine_opened (unequal : '=' ∉ front) (address rest : Text) :
    ("AUTH=" <:+: address → ∃ cut, cut.length < address.length ∧
      senderLine (front ++ '<' :: (address ++ '>' :: rest)) = front ++ '<' :: cut) ∧
    (¬ "AUTH=" <:+: address →
      senderLine (front ++ '<' :: (address ++ '>' :: rest)) =
        front ++ '<' :: (address ++ '>' :: senderLine rest)) := by
  have absent : ¬ "AUTH=" <:+: front := fun occurs => unequal (occurs.subset (by simp))
  unfold senderLine
  rw [before_skip absent (by decide)]
  constructor
  · intro occurs
    obtain ⟨cut, found⟩ := before_isSome occurs
    have shorter := before_length found
    have trimmed : (Str.trimEnd cut).length ≤ cut.length := (List.rdropWhile_prefix _ _).length_le
    refine ⟨Str.trimEnd cut, by simp at shorter; omega, ?_⟩
    rw [before_within occurs, found]
    exact trimEnd_append (by decide) front cut
  · intro missing
    rw [before_skip missing (by decide)]
    cases found : Str.before "AUTH=" rest with
    | none => rfl
    | some visible =>
        simp only [Option.map_some, Option.getD_some]
        rw [trimEnd_append (by decide), trimEnd_append (by decide)]

theorem Opening.unequal (opening : Opening "MAIL FROM" front) : '=' ∉ front := by
  obtain ⟨lead, word, gap, blank, leading, gaps, blanks, same, rfl⟩ := opening
  have lowered : Str.toAsciiLowercase word = Str.toAsciiLowercase "MAIL FROM" :=
    beq_iff_eq.mp same
  intro member
  simp only [List.mem_append, List.mem_cons] at member
  rcases member with early | within | between | colon | behind
  · exact absurd (leading _ early) (by decide)
  · have mapped : '='.toLower ∈ Str.toAsciiLowercase word := List.mem_map_of_mem within
    rw [lowered] at mapped
    exact absurd mapped (by decide)
  · exact absurd (gaps _ between) (by decide)
  · exact absurd colon (by decide)
  · exact absurd (blanks _ behind) (by decide)

/-- The address in the brackets of a MAIL FROM line is the sender exactly when it does not contain
`AUTH=` and the part of the parameters before their first `AUTH=` leaves it to be read. That of an
RCPT TO line is the recipient exactly when the parameters leave it to be read. -/
theorem envelope_address_read_iff (platform : Platform) (env : Env) (session : Session)
    (connected : session.state ≠ .preauth) (waiting : session.inputMode = .command)
    (address rest line : Text) :
    (EnvelopeLine "MAIL FROM" address rest line →
      session.state = .welcomed ∨ session.state = .mailFromReceived →
      ∃ step, dispatch platform env session line = some step ∧
        (step.session.mailFrom = some address ↔
          ¬ "AUTH=" <:+: address ∧ Leaves (senderLine rest) address)) ∧
    (EnvelopeLine "RCPT TO" address rest line →
      commandOf session line = some .rcptTo ∧
        (extractAddress line "RCPT TO" = some address ↔ Leaves rest address)) := by
  constructor
  · intro envelope ready
    have command := (EnvelopeLine.recognized connected waiting).1 envelope
    obtain ⟨unopened, unclosed, front, opening, rfl⟩ := envelope
    obtain ⟨cutting, keeping⟩ := senderLine_opened opening.unequal address rest
    have read (tail : Text)
        (same : senderLine (front ++ '<' :: (address ++ '>' :: rest)) = front ++ '<' :: tail) :
        ∃ step, dispatch platform env session (front ++ '<' :: (address ++ '>' :: rest)) = some step ∧
          step.session.mailFrom = some (readPath tail) := by
      unfold dispatch handleCommand
      rw [if_neg connected, waiting]
      rw [commandOf_recognize command]
      unfold mailFromCommand
      rw [if_pos ready, same, opening.extracted isWord_mailFrom tail]
      exact ⟨_, rfl, rfl⟩
    by_cases occurs : "AUTH=" <:+: address
    · obtain ⟨cut, shorter, same⟩ := cutting occurs
      obtain ⟨step, reacted, sent⟩ := read cut same
      refine ⟨step, reacted, ?_⟩
      rw [sent]
      constructor
      · intro equal
        have size := readPath_length cut
        rw [Option.some.inj equal] at size
        omega
      · exact fun condition => absurd occurs condition.1
    · obtain ⟨step, reacted, sent⟩ := read _ (keeping occurs)
      refine ⟨step, reacted, ?_⟩
      rw [sent, Option.some_inj, readPath_iff unopened unclosed]
      exact ⟨fun leaves => ⟨occurs, leaves⟩, fun condition => condition.2⟩
  · intro envelope
    refine ⟨(EnvelopeLine.recognized connected waiting).2 envelope, ?_⟩
    obtain ⟨unopened, unclosed, front, opening, rfl⟩ := envelope
    rw [opening.extracted isWord_rcptTo, Option.some_inj, readPath_iff unopened unclosed]

/-- An address is read with parameters in any case around it. -/
theorem bracketed_sender_read :
    ∃ step, dispatch .ascii exampleEnv { exampleSession with state := .welcomed }
        " Mail From : <a@b.example> SIZE=5 AUTH=<>" = some step ∧
      step.session.mailFrom = some "a@b.example".toList := by
  have envelope : EnvelopeLine "MAIL FROM" "a@b.example" " SIZE=5 AUTH=<>"
      " Mail From : <a@b.example> SIZE=5 AUTH=<>" :=
    ⟨by decide, by decide, _, ⟨[' '], "Mail From", [' '], [' '], by simp, by simp,
      by simp, by decide, rfl⟩, rfl⟩
  obtain ⟨step, reacted, iff_⟩ := (envelope_address_read_iff .ascii exampleEnv
    { exampleSession with state := .welcomed } (by decide) rfl _ _ _).1 envelope (.inl rfl)
  refine ⟨step, reacted, iff_.mpr ⟨by decide, fun _ => by decide, ?_⟩⟩
  intro front behind split _
  have opens : '<' ∈ senderLine " SIZE=5 AUTH=<>" := by
    rw [split]
    exact List.mem_append_right _ List.mem_cons_self
  exact absurd opens (by decide)

/-- A parameter in another letter case takes the address away. -/
theorem sender_lost_to_parameter :
    EnvelopeLine "MAIL FROM".toList "a@b.example".toList " auth=<>".toList
        "MAIL FROM:<a@b.example> auth=<>".toList ∧
      ∃ step, dispatch .ascii exampleEnv { exampleSession with state := .welcomed }
          "MAIL FROM:<a@b.example> auth=<>".toList = some step ∧
        step.session.mailFrom ≠ some "a@b.example".toList := by
  refine ⟨⟨by decide, by decide, _, ⟨[], "MAIL FROM".toList, [], [], by simp, by simp,
    by simp, by decide, rfl⟩, rfl⟩, ?_⟩
  have checked : (dispatch .ascii exampleEnv { exampleSession with state := .welcomed }
      "MAIL FROM:<a@b.example> auth=<>".toList).any (fun step =>
        decide (step.session.mailFrom ≠ some "a@b.example".toList)) = true := by
    decide
  obtain ⟨step, reacted, lost⟩ := (Option.any_eq_true _ _).mp checked
  exact ⟨step, reacted, of_decide_eq_true lost⟩

end Camelmailer.Smtp
