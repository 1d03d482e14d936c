import Camelmailer.Text.Str

/-!
# Written markup

A forest of elements, processing instructions and runs of text, and the text it is written
as: every element with a start tag that lists its items in quotes and with an end tag, the
characters that would end a run or a quoted value replaced by references. What is written
determines the forest, so two forests that are written alike are the same. Nothing here is
about particular elements, nor about the order in which a writer lists its items.
-/

namespace Camelmailer.Markup

open Utf8

/-! ## Codes -/

section Codes

variable {α β : Type}

/-- A code whose words can be read off the front of a sequence. -/
def PrefixCode (word : α → List β) : Prop :=
  ∀ left right after later, word left ++ after = word right ++ later →
    left = right ∧ after = later

/-- A message of a prefix code is determined by what it is written as and by where it ends:
`stop` says that no word starts here. -/
theorem PrefixCode.message {word : α → List β} (code : PrefixCode word)
    (stop : List β → Prop) (allowed : α → Prop)
    (starts : ∀ symbol, allowed symbol → ∀ after, ¬ stop (word symbol ++ after))
    {left right : List α} {after later : List β}
    (leftAllowed : ∀ symbol ∈ left, allowed symbol)
    (rightAllowed : ∀ symbol ∈ right, allowed symbol) (ends : stop after) (laterEnds : stop later)
    (same : left.flatMap word ++ after = right.flatMap word ++ later) :
    left = right ∧ after = later := by
  induction left generalizing right with
  | nil =>
    cases right with
    | nil => exact ⟨rfl, same⟩
    | cons symbol right =>
      rw [List.flatMap_nil, List.nil_append, List.flatMap_cons, List.append_assoc] at same
      exact absurd (same ▸ ends) (starts symbol (rightAllowed _ (by simp)) _)
  | cons symbol left ih =>
    cases right with
    | nil =>
      rw [List.flatMap_nil, List.nil_append, List.flatMap_cons, List.append_assoc] at same
      exact absurd (same ▸ laterEnds) (starts symbol (leftAllowed _ (by simp)) _)
    | cons other right =>
      simp only [List.flatMap_cons, List.append_assoc] at same
      obtain ⟨rfl, rest⟩ := code _ _ _ _ same
      obtain ⟨rfl, finished⟩ := ih
        (fun symbol member => leftAllowed symbol (by simp [member]))
        (fun symbol member => rightAllowed symbol (by simp [member])) rest
      exact ⟨rfl, finished⟩

end Codes

/-! ## Characters -/

/-- Replace the characters of a table by their references. -/
def escapeChar (table : List (Char × Text)) (char : Char) : Text :=
  match table.lookup char with
  | some reference => reference
  | none => [char]

/-- Replace the characters of a table by their references throughout. -/
def escape (table : List (Char × Text)) (text : Text) : Text := text.flatMap (escapeChar table)

/-- The references of a run of text. -/
def textReferences : List (Char × Text) :=
  [('&', "&amp;"), ('<', "&lt;"), ('>', "&gt;"), ('\r', "&#xD;")]

/-- The references of a quoted value. -/
def valueReferences : List (Char × Text) :=
  [('&', "&amp;"), ('<', "&lt;"), ('"', "&quot;"), ('\t', "&#x9;"),
    ('\n', "&#xA;"), ('\r', "&#xD;")]

/-- What makes a table of references unambiguous: the ampersand is replaced, every reference
starts with one, and none of them starts another. -/
structure Unambiguous (table : List (Char × Text)) : Prop where
  ampersand : (table.lookup '&').isSome
  marked : ∀ entry ∈ table, entry.2.head? = some '&'
  separate : ∀ entry ∈ table, ∀ other ∈ table, entry.2 <+: other.2 → entry = other

theorem textReferences_unambiguous : Unambiguous textReferences :=
  ⟨by decide, by decide, by decide⟩

theorem valueReferences_unambiguous : Unambiguous valueReferences :=
  ⟨by decide, by decide, by decide⟩

section Escaping

variable {table : List (Char × Text)} {char : Char}

theorem mem_of_lookup {entries : List (Char × Text)} {reference : Text}
    (found : entries.lookup char = some reference) : (char, reference) ∈ entries := by
  induction entries with
  | nil => cases found
  | cons entry rest ih =>
    rw [List.lookup_cons] at found
    split at found
    case h_1 same =>
      obtain rfl : char = entry.1 := eq_of_beq same
      obtain rfl : entry.2 = reference := Option.some.inj found
      exact List.mem_cons_self
    case h_2 => exact List.mem_cons_of_mem _ (ih found)

/-- A character is written as its reference, or as itself when it has none. -/
theorem escapeChar_cases (table : List (Char × Text)) (char : Char) :
    (char, escapeChar table char) ∈ table ∨
      (table.lookup char = none ∧ escapeChar table char = [char]) := by
  unfold escapeChar
  cases found : table.lookup char with
  | some reference => exact .inl (mem_of_lookup found)
  | none => exact .inr ⟨rfl, rfl⟩

section

variable (unambiguous : Unambiguous table)
include unambiguous

/-- A character without a reference is not the ampersand. -/
theorem Unambiguous.plain (absent : table.lookup char = none) :
    char ≠ '&' := by
  rintro rfl
  simpa [absent] using unambiguous.ampersand

theorem Unambiguous.reference {reference : Text}
    (entry : (char, reference) ∈ table) : ∃ rest, reference = '&' :: rest := by
  have marked := unambiguous.marked _ entry
  cases reference with
  | nil => cases marked
  | cons first rest => exact ⟨rest, by rw [Option.some.inj marked]⟩

/-- The first character that a character is written with. -/
theorem Unambiguous.escapeChar_head (char : Char) :
    ∃ first rest, escapeChar table char = first :: rest ∧
      (first = '&' ∨ first = char ∧ table.lookup char = none) := by
  obtain entry | ⟨absent, plain⟩ := escapeChar_cases table char
  · obtain ⟨rest, written⟩ := unambiguous.reference entry
    exact ⟨_, rest, written, .inl rfl⟩
  · exact ⟨_, [], plain, .inr ⟨rfl, absent⟩⟩

theorem Unambiguous.prefixCode :
    PrefixCode (escapeChar table) := by
  intro left right after later same
  obtain leftEntry | ⟨leftAbsent, leftPlain⟩ := escapeChar_cases table left <;>
    obtain rightEntry | ⟨rightAbsent, rightPlain⟩ := escapeChar_cases table right
  · have comparable : escapeChar table left <+: escapeChar table right ∨
        escapeChar table right <+: escapeChar table left :=
      List.prefix_or_prefix_of_prefix ⟨after, rfl⟩ ⟨later, same.symm⟩
    have equal : (left, escapeChar table left) = (right, escapeChar table right) := by
      obtain shorter | longer := comparable
      · exact unambiguous.separate _ leftEntry _ rightEntry shorter
      · exact (unambiguous.separate _ rightEntry _ leftEntry longer).symm
    obtain ⟨rfl, -⟩ := Prod.mk.inj equal
    exact ⟨rfl, List.append_cancel_left same⟩
  · obtain ⟨rest, written⟩ := unambiguous.reference leftEntry
    rw [written, rightPlain] at same
    exact absurd (List.cons.inj same).1.symm (unambiguous.plain rightAbsent)
  · obtain ⟨rest, written⟩ := unambiguous.reference rightEntry
    rw [written, leftPlain] at same
    exact absurd (List.cons.inj same).1 (unambiguous.plain leftAbsent)
  · rw [leftPlain, rightPlain] at same
    exact List.cons.inj same

/-- An escaped text and what follows it are determined by what is written, when what follows
starts with a character that has a reference, or is empty. -/
theorem Unambiguous.escaped (closing : Char)
    (replaced : (table.lookup closing).isSome) (apart : closing ≠ '&')
    {left right after later : Text} (ends : ∀ first ∈ after.head?, first = closing)
    (laterEnds : ∀ first ∈ later.head?, first = closing)
    (same : escape table left ++ after = escape table right ++ later) :
    left = right ∧ after = later := by
  refine unambiguous.prefixCode.message
    (fun rest => ∀ first ∈ rest.head?, first = closing) (fun _ => True)
    ?_ (fun _ _ => trivial) (fun _ _ => trivial) ends laterEnds same
  intro char _ rest stops
  obtain ⟨first, others, written, kind⟩ := unambiguous.escapeChar_head char
  have closes : first = closing := stops first (by rw [written]; rfl)
  obtain ampersand | ⟨rfl, absent⟩ := kind
  · exact apart (closes.symm.trans ampersand)
  · rw [closes] at absent
    rw [absent] at replaced
    cases replaced

end

end Escaping

/-! ## Names and instructions -/

/-- A character that can stand in a name: none of those that end one. -/
def nameChar (char : Char) : Bool := !"<>/?= \"&".toList.contains char

/-- A name: not empty, and without a character that would end it. -/
def IsName (name : Text) : Prop := name ≠ [] ∧ ∀ char ∈ name, nameChar char = true

-- every character of the name, not every character there is
instance (name : Text) : Decidable (IsName name) :=
  @instDecidableAnd _ _ _ (List.decidableBAll _ name)

variable {after later : Text}

/-- A name and what follows it are determined by what is written. -/
theorem names {left right : Text} (leftName : IsName left) (rightName : IsName right)
    (ends : ∀ first ∈ after.head?, nameChar first = false)
    (laterEnds : ∀ first ∈ later.head?, nameChar first = false)
    (same : left ++ after = right ++ later) : left = right ∧ after = later := by
  have code : PrefixCode (fun char : Char => [char]) := by
    intro left right after later same
    exact List.cons.inj same
  refine code.message (fun rest => ∀ first ∈ rest.head?, nameChar first = false)
    (fun char => nameChar char = true) ?_ leftName.2 rightName.2 ends laterEnds ?_
  · intro char allowed rest stops
    exact absurd (allowed.symm.trans (stops char rfl)) (by decide)
  · simpa using same

/-- The mark that ends a processing instruction. -/
def instructionEnd : Text := "?>"

/-- The value of a processing instruction is determined by what is written: it holds no end
mark, so the first one ends it. -/
theorem instruction_values {left right : Text} (leftOpen : ¬ instructionEnd <:+: left)
    (rightOpen : ¬ instructionEnd <:+: right)
    (same : left ++ (instructionEnd ++ after) = right ++ (instructionEnd ++ later)) :
    left = right ∧ after = later := by
  -- The end mark cannot straddle the end of a value, since its two characters differ.
  have early : ∀ {char : Char} {rest after later : Text}, ¬ instructionEnd <:+: char :: rest →
      instructionEnd ++ after ≠ (char :: rest) ++ (instructionEnd ++ later) := by
    intro char rest after later unended same
    obtain ⟨rfl, tail⟩ := List.cons.inj same
    cases rest with
    | nil => cases (List.cons.inj tail).1
    | cons next rest =>
      obtain ⟨rfl, -⟩ := List.cons.inj tail
      exact unended ⟨[], rest, rfl⟩
  induction left generalizing right with
  | nil =>
    cases right with
    | nil => exact ⟨rfl, List.append_cancel_left same⟩
    | cons char right => exact absurd same (early rightOpen)
  | cons char left ih =>
    cases right with
    | nil => exact absurd same.symm (early leftOpen)
    | cons other right =>
      obtain ⟨rfl, rest⟩ := List.cons.inj same
      obtain ⟨rfl, finished⟩ := ih
        (fun part => leftOpen (part.trans (List.suffix_cons _ _).isInfix))
        (fun part => rightOpen (part.trans (List.suffix_cons _ _).isInfix)) rest
      exact ⟨rfl, finished⟩

/-! ## Forests -/

/-- A sequence of runs of text, processing instructions and elements. An element has a name,
the items of its start tag and the forest between its tags. -/
inductive Forest where
  | nil
  | text (run : Text) (rest : Forest)
  | instruction (target : Text) (value : Option Text) (rest : Forest)
  | element (name : Text) (items : List (Text × Text)) (children : Forest) (rest : Forest)
deriving DecidableEq

namespace Forest

/-- Put a run of text in front: it joins a run that is there already, and an empty run leaves
no trace. -/
def pushText (run : Text) (rest : Forest) : Forest :=
  if run = [] then rest
  else match rest with
    | text other rest => text (run ++ other) rest
    | rest => text run rest

/-- The run of text a forest starts with. -/
def leading : Forest → Option Text
  | text run _ => some run
  | _ => none

/-- The elements of a forest that are in no other of its elements. -/
def elements : Forest → List (Text × List (Text × Text) × Forest)
  | nil => []
  | text _ rest | instruction _ _ rest => rest.elements
  | element name items children rest => (name, items, children) :: rest.elements

end Forest

/-- An item of a start tag. -/
def writeItem (item : Text × Text) : Text :=
  ' ' :: item.1 ++ ('=' :: '"' :: escape valueReferences item.2 ++ ['"'])

/-- A processing instruction. -/
def writeInstruction (target : Text) (value : Option Text) : Text :=
  '<' :: '?' :: target ++ ((value.elim [] (' ' :: ·)) ++ instructionEnd)

/-- The start tag of an element. -/
def startTag (name : Text) (items : List (Text × Text)) : Text :=
  '<' :: name ++ (items.flatMap writeItem ++ ['>'])

/-- The end tag of an element. -/
def endTag (name : Text) : Text := '<' :: '/' :: name ++ ['>']

/-- The text a forest is written as. -/
def Forest.write : Forest → Text
  | .nil => []
  | .text run rest => escape textReferences run ++ rest.write
  | .instruction target value rest => writeInstruction target value ++ rest.write
  | .element name items children rest =>
      startTag name items ++ (children.write ++ (endTag name ++ rest.write))

/-- What a writer keeps to: names are names, values of instructions hold no end mark, and a
run of text is not empty and ends where the text ends. -/
def Forest.Normal : Forest → Prop
  | .nil => True
  | .text run rest => run ≠ [] ∧ rest.leading = none ∧ rest.Normal
  | .instruction target value rest =>
      IsName target ∧ (∀ given ∈ value, ¬ instructionEnd <:+: given) ∧ rest.Normal
  | .element name items children rest =>
      IsName name ∧ (∀ item ∈ items, IsName item.1) ∧ children.Normal ∧ rest.Normal

/-! ## Runs of text in front -/

namespace Forest

@[simp] theorem write_pushText (run : Text) (rest : Forest) :
    (pushText run rest).write = escape textReferences run ++ rest.write := by
  unfold pushText
  split
  case isTrue empty => simp [empty, escape]
  case isFalse => cases rest <;> simp [write, escape]

@[simp] theorem elements_pushText (run : Text) (rest : Forest) :
    (pushText run rest).elements = rest.elements := by
  unfold pushText
  split
  case isTrue => rfl
  case isFalse => cases rest <;> rfl

theorem leading_pushText (run : Text) (rest : Forest) :
    (pushText run rest).leading =
      if run = [] then rest.leading else some (run ++ rest.leading.getD []) := by
  unfold pushText
  split
  case isTrue => rfl
  case isFalse => cases rest <;> simp [leading]

theorem Normal.pushText {rest : Forest} (normal : rest.Normal) (run : Text) :
    (pushText run rest).Normal := by
  unfold Forest.pushText
  split
  case isTrue => exact normal
  case isFalse filled =>
    cases rest with
    | text other rest => exact ⟨by simp [filled], normal.2⟩
    | nil | instruction target value rest
    | element name items children rest => exact ⟨filled, rfl, normal⟩

end Forest

/-! ## What is written determines the forest -/

/-- What a text goes on with: an end tag or nothing, an instruction, a start tag, or a run. -/
def lead : Text → Nat
  | [] => 0
  | [char] => if char = '<' then 2 else 3
  | char :: next :: _ =>
      if char = '<' then if next = '/' then 0 else if next = '?' then 1 else 2 else 3

/-- What a forest starts with. -/
def Forest.kind : Forest → Nat
  | .nil => 0
  | .instruction .. => 1
  | .element .. => 2
  | .text .. => 3

theorem lead_run {char : Char} {rest : Text} (other : char ≠ '<') : lead (char :: rest) = 3 := by
  cases rest <;> simp [lead, other]

/-- Where a run of text can end. -/
theorem head_of_lead {text : Text} (ends : lead text ≠ 3) : ∀ first ∈ text.head?, first = '<' := by
  intro first starts
  by_contra other
  cases text with
  | nil => cases starts
  | cons char rest =>
    obtain rfl : char = first := Option.some.inj starts
    exact ends (lead_run other)

/-- The start of a text tells what a forest that is written there starts with. -/
theorem Forest.Normal.lead_write {forest : Forest} (normal : forest.Normal)
    (closed : lead after = 0) : lead (forest.write ++ after) = forest.kind := by
  cases forest with
  | nil => exact closed
  | instruction target value rest => rfl
  | text run rest =>
    cases run with
    | nil => exact absurd rfl normal.1
    | cons char run =>
      obtain ⟨first, others, written, kind⟩ :=
        textReferences_unambiguous.escapeChar_head char
      have other : first ≠ '<' := by
        rintro rfl
        obtain ampersand | ⟨rfl, absent⟩ := kind
        · cases ampersand
        · cases absent
      simp only [write, escape, List.flatMap_cons, written]
      exact lead_run other
  | element name items children rest =>
    obtain ⟨filled, allowed⟩ := normal.1
    cases name with
    | nil => exact absurd rfl filled
    | cons char name =>
      have inside := allowed char List.mem_cons_self
      have slash : char ≠ '/' := by
        rintro rfl
        cases inside
      have question : char ≠ '?' := by
        rintro rfl
        cases inside
      simp [write, startTag, lead, slash, question, kind]

/-- The items of a start tag are determined by what is written up to its end. -/
theorem items_written {left right : List (Text × Text)} (leftNames : ∀ item ∈ left, IsName item.1)
    (rightNames : ∀ item ∈ right, IsName item.1)
    (same : left.flatMap writeItem ++ '>' :: after = right.flatMap writeItem ++ '>' :: later) :
    left = right ∧ after = later := by
  induction left generalizing right with
  | nil =>
    cases right with
    | nil => exact ⟨rfl, (List.cons.inj same).2⟩
    | cons item right => cases (List.cons.inj same).1
  | cons item left ih =>
    cases right with
    | nil => cases (List.cons.inj same).1
    | cons other right =>
      simp only [List.flatMap_cons, writeItem, List.cons_append, List.append_assoc,
        List.cons.injEq, true_and] at same
      obtain ⟨sameName, valueOn⟩ := names (leftNames _ List.mem_cons_self)
        (rightNames _ List.mem_cons_self) (by simp; decide) (by simp; decide) same
      obtain ⟨sameValue, restOn⟩ := valueReferences_unambiguous.escaped '"'
        (by decide) (by decide) (by simp) (by simp) (List.cons.inj (List.cons.inj valueOn).2).2
      obtain ⟨rfl, finished⟩ := ih
        (fun item member => leftNames item (List.mem_cons_of_mem _ member))
        (fun item member => rightNames item (List.mem_cons_of_mem _ member))
        (List.cons.inj restOn).2
      exact ⟨by rw [Prod.ext sameName sameValue], finished⟩

/-- A processing instruction is determined by what is written. -/
theorem instruction_written {target other : Text} {value given : Option Text}
    (targetName : IsName target) (otherName : IsName other)
    (valueOpen : ∀ text ∈ value, ¬ instructionEnd <:+: text)
    (givenOpen : ∀ text ∈ given, ¬ instructionEnd <:+: text)
    (same : writeInstruction target value ++ after = writeInstruction other given ++ later) :
    target = other ∧ value = given ∧ after = later := by
  have ends : ∀ (value : Option Text) (after : Text),
      ∀ first ∈ ((value.elim [] (' ' :: ·)) ++ instructionEnd ++ after).head?,
        nameChar first = false := by
    intro value after
    cases value <;> simp [instructionEnd] <;> decide
  simp only [writeInstruction, List.cons_append, List.append_assoc, List.cons.injEq,
    true_and] at same
  obtain ⟨sameTarget, valueOn⟩ := names targetName otherName
    (by simpa using ends value after) (by simpa using ends given later) same
  refine ⟨sameTarget, ?_⟩
  cases value with
  | none =>
    cases given with
    | none => exact ⟨rfl, List.append_cancel_left valueOn⟩
    | some text => cases (List.cons.inj valueOn).1
  | some text =>
    cases given with
    | none => cases (List.cons.inj valueOn).1
    | some other =>
      obtain ⟨rfl, finished⟩ := instruction_values (valueOpen _ rfl) (givenOpen _ rfl)
        (List.cons.inj valueOn).2
      exact ⟨rfl, finished⟩

theorem Forest.Normal.same_kind {left right : Forest} (leftNormal : left.Normal)
    (rightNormal : right.Normal) (closed : lead after = 0) (laterClosed : lead later = 0)
    (same : left.write ++ after = right.write ++ later) :
    left.kind = right.kind := by
  rw [← leftNormal.lead_write closed, same, rightNormal.lead_write laterClosed]

/-- A forest that starts with no run of text ends the run before it. -/
theorem Forest.Normal.ends_run {forest : Forest} (normal : forest.Normal)
    (unled : forest.leading = none) (closed : lead after = 0) :
    ∀ first ∈ (forest.write ++ after).head?, first = '<' := by
  apply head_of_lead
  rw [normal.lead_write closed]
  cases forest with
  | text run rest => cases unled
  | nil => exact (by decide : (0 : Nat) ≠ 3)
  | instruction target value rest => exact (by decide : (1 : Nat) ≠ 3)
  | element name items children rest => exact (by decide : (2 : Nat) ≠ 3)

/-- A forest and what follows it are determined by what is written, when an end tag or nothing
follows. -/
theorem Forest.Normal.written {left right : Forest} (leftNormal : left.Normal)
    (rightNormal : right.Normal) (closed : lead after = 0) (laterClosed : lead later = 0)
    (same : left.write ++ after = right.write ++ later) :
    left = right ∧ after = later := by
  induction left generalizing right after later with
  | nil =>
    have kinds := leftNormal.same_kind rightNormal closed laterClosed same
    cases right with
    | nil => exact ⟨rfl, same⟩
    | text run rest => cases kinds
    | instruction target value rest => cases kinds
    | element name items children rest => cases kinds
  | text run rest ih =>
    have kinds := leftNormal.same_kind rightNormal closed laterClosed same
    cases right with
    | text other later =>
      simp only [write, List.append_assoc] at same
      obtain ⟨rfl, restOn⟩ := textReferences_unambiguous.escaped '<' (by decide) (by decide)
        (leftNormal.2.2.ends_run leftNormal.2.1 closed)
        (rightNormal.2.2.ends_run rightNormal.2.1 laterClosed) same
      obtain ⟨rfl, finished⟩ :=
        ih leftNormal.2.2 rightNormal.2.2 closed laterClosed restOn
      exact ⟨rfl, finished⟩
    | nil => cases kinds
    | instruction target value rest => cases kinds
    | element name items children rest => cases kinds
  | instruction target value rest ih =>
    have kinds := leftNormal.same_kind rightNormal closed laterClosed same
    cases right with
    | instruction other given later =>
      simp only [write, List.append_assoc] at same
      obtain ⟨rfl, rfl, restOn⟩ := instruction_written leftNormal.1 rightNormal.1 leftNormal.2.1
        rightNormal.2.1 same
      obtain ⟨rfl, finished⟩ :=
        ih leftNormal.2.2 rightNormal.2.2 closed laterClosed restOn
      exact ⟨rfl, finished⟩
    | nil => cases kinds
    | text run rest => cases kinds
    | element name items children rest => cases kinds
  | element name items children rest childrenHypothesis restHypothesis =>
    have kinds := leftNormal.same_kind rightNormal closed laterClosed same
    cases right with
    | element other listed inner later =>
      have ends : ∀ (items : List (Text × Text)) (after : Text),
          ∀ first ∈ (items.flatMap writeItem ++ '>' :: after).head?, nameChar first = false := by
        intro items after
        cases items <;> simp [writeItem] <;> decide
      simp only [write, startTag, List.cons_append, List.append_assoc, List.cons.injEq, true_and] at same
      obtain ⟨rfl, itemsOn⟩ := names leftNormal.1 rightNormal.1 (ends _ _) (ends _ _) same
      obtain ⟨rfl, childrenOn⟩ := items_written leftNormal.2.1 rightNormal.2.1 itemsOn
      obtain ⟨rfl, restOn⟩ :=
        childrenHypothesis leftNormal.2.2.1 rightNormal.2.2.1 rfl rfl childrenOn
      obtain ⟨rfl, finished⟩ := restHypothesis leftNormal.2.2.2 rightNormal.2.2.2 closed
        laterClosed (List.append_cancel_left restOn)
      exact ⟨rfl, finished⟩
    | nil => cases kinds
    | text run rest => cases kinds
    | instruction target value rest => cases kinds

/-- Two forests that are written alike are the same. -/
theorem Forest.Normal.eq_of_write {left right : Forest} (leftNormal : left.Normal)
    (rightNormal : right.Normal) (same : left.write = right.write) : left = right := by
  have extended : left.write ++ [] = right.write ++ [] := by rw [same]
  exact (leftNormal.written rightNormal rfl rfl extended).1

end Camelmailer.Markup
