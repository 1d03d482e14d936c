import Camelmailer.Text.Utf8
import Mathlib.Data.List.DropRight
import Mathlib.Data.List.Infix

/-!
# String operations over scalar values

The operations of Rust's `str` that a text protocol uses, on texts as sequences
of scalar values. A position that Rust gives as a byte offset is the length of
the encoded prefix before it. Searching and splitting at a character only ever
produce positions between characters, so they need no offset at all; a slice at a
fixed byte offset does, and `splitAtByte` has no result where Rust would panic.
-/

namespace Camelmailer.Str

open Utf8

/-- `char::is_whitespace`: the characters with the Unicode property White_Space. -/
def isWhitespace (char : Char) : Bool :=
  let code := char.toNat
  (0x09 ≤ code && code ≤ 0x0D) || code == 0x20 || code == 0x85 || code == 0xA0 ||
    code == 0x1680 || (0x2000 ≤ code && code ≤ 0x200A) || code == 0x2028 || code == 0x2029 ||
    code == 0x202F || code == 0x205F || code == 0x3000

def trimStart (text : Text) : Text := text.dropWhile isWhitespace

def trimEnd (text : Text) : Text := text.rdropWhile isWhitespace

def trim (text : Text) : Text := trimEnd (trimStart text)

def toAsciiUppercase (text : Text) : Text := text.map Char.toUpper

def toAsciiLowercase (text : Text) : Text := text.map Char.toLower

def eqIgnoreAsciiCase (left right : Text) : Bool := toAsciiLowercase left == toAsciiLowercase right

def startsWith (text front : Text) : Bool := decide (front <+: text)

def contains (text pattern : Text) : Bool := decide (pattern <:+: text)

def stripPrefix (front text : Text) : Option Text :=
  if front <+: text then some (text.drop front.length) else none

/-- `str::strip_suffix` for a single character. -/
def stripLast {α : Type} [DecidableEq α] (last : α) (text : List α) : Option (List α) :=
  if text.getLast? = some last then some text.dropLast else none

/-- `str::split_once`: the parts before and after the first separator. -/
def splitOnce (separator : Char) : Text → Option (Text × Text)
  | [] => none
  | char :: rest =>
      if char = separator then some ([], rest)
      else (splitOnce separator rest).map (fun parts => (char :: parts.1, parts.2))

variable {separator : Char} {text : Text}

/-- A list is cut at the first separator. -/
theorem cut_eq_some {α : Type} [DecidableEq α] {cut : List α → Option (List α × List α)} {separator : α}
    (nil : cut [] = none) (cons : ∀ item rest, cut (item :: rest) = if item = separator then
      some ([], rest) else (cut rest).map (fun parts => (item :: parts.1, parts.2)))
    {items front back : List α} :
    cut items = some (front, back) ↔ items = front ++ separator :: back ∧ separator ∉ front := by
  induction items generalizing front with
  | nil => simp [nil]
  | cons item rest ih =>
      rw [cons]
      split_ifs with found
      · subst found
        cases front with
        | nil => simp
        | cons first others => simp +contextual [eq_comm]
      · cases front with
        | nil => simp [found]
        | cons first others =>
            simp only [Option.map_eq_some_iff, Prod.exists, Prod.mk.injEq, List.cons.injEq,
              List.cons_append, List.mem_cons, not_or]
            constructor
            · rintro ⟨before, after, split, ⟨rfl, rfl⟩, rfl⟩
              obtain ⟨rfl, absent⟩ := ih.mp split
              exact ⟨⟨rfl, rfl⟩, Ne.symm found, absent⟩
            · rintro ⟨⟨rfl, rfl⟩, -, absent⟩
              exact ⟨others, back, ih.mpr ⟨rfl, absent⟩, ⟨rfl, rfl⟩, rfl⟩

theorem splitOnce_eq_some {front back : Text} :
    splitOnce separator text = some (front, back) ↔
      text = front ++ separator :: back ∧ separator ∉ front :=
  cut_eq_some rfl (fun _ _ => rfl)

theorem splitOnce_append {front : Text} (absent : separator ∉ front) (text : Text) :
    splitOnce separator (front ++ text) =
      (splitOnce separator text).map (fun parts => (front ++ parts.1, parts.2)) := by
  induction front with
  | nil => simp
  | cons char front ih =>
      have apart : char ≠ separator := fun same => absent (by simp [same])
      rw [List.cons_append, splitOnce, if_neg apart,
        ih fun member => absent (List.mem_cons_of_mem _ member), Option.map_map]
      rfl

theorem splitOnce_eq_none :
    splitOnce separator text = none ↔ separator ∉ text := by
  induction text with
  | nil => simp [splitOnce]
  | cons char rest ih =>
      rw [splitOnce]
      split_ifs with found
      · simp [found]
      · simp [ih, Ne.symm found]

/-- `str::rsplit_once`: the parts before and after the last separator. -/
def rsplitOnce (separator : Char) (text : Text) : Option (Text × Text) :=
  (splitOnce separator text.reverse).map (fun parts => (parts.2.reverse, parts.1.reverse))

theorem rsplitOnce_eq_some {front back : Text} :
    rsplitOnce separator text = some (front, back) ↔
      text = front ++ separator :: back ∧ separator ∉ back := by
  unfold rsplitOnce
  constructor
  · intro split
    obtain ⟨⟨last, rest⟩, cut, same⟩ := Option.map_eq_some_iff.mp split
    obtain ⟨rfl, rfl⟩ := Prod.mk.inj same
    obtain ⟨whole, absent⟩ := splitOnce_eq_some.mp cut
    refine ⟨?_, by simpa using absent⟩
    rw [← text.reverse_reverse, whole]
    simp
  · rintro ⟨rfl, absent⟩
    have cut : splitOnce separator (front ++ separator :: back).reverse =
        some (back.reverse, front.reverse) :=
      splitOnce_eq_some.mpr ⟨by simp, by simpa using absent⟩
    rw [cut]
    simp

theorem rsplitOnce_eq_none :
    rsplitOnce separator text = none ↔ separator ∉ text := by
  unfold rsplitOnce
  rw [Option.map_eq_none_iff, splitOnce_eq_none, List.mem_reverse]

/-- The text before the first occurrence of a pattern, where there is one. -/
def before (pattern : Text) : Text → Option Text
  | [] => if pattern = [] then some [] else none
  | char :: rest =>
      if pattern <+: char :: rest then some []
      else (before pattern rest).map (char :: ·)

/-- `str::len`: the number of octets of the encoded text. -/
def byteLen (text : Text) : Nat := (text.map Char.utf8Size).sum

/-- Cut a text at a byte offset. There is no result when the offset lies past the
end or inside a character, which is where slicing a `str` panics. -/
def splitAtByte : Nat → Text → Option (Text × Text)
  | 0, text => some ([], text)
  | _ + 1, [] => none
  | offset + 1, char :: rest =>
      if char.utf8Size ≤ offset + 1 then
        (splitAtByte (offset + 1 - char.utf8Size) rest).map
          (fun parts => (char :: parts.1, parts.2))
      else none

@[simp] theorem byteLen_nil : byteLen [] = 0 := rfl

@[simp] theorem byteLen_cons (char : Char) (rest : Text) :
    byteLen (char :: rest) = char.utf8Size + byteLen rest := rfl

@[simp] theorem byteLen_append (left right : Text) :
    byteLen (left ++ right) = byteLen left + byteLen right := by
  simp [byteLen]

/-- A successful cut is at the requested octet and loses nothing. -/
theorem splitAtByte_some (offset : Nat) (text front back : Text)
    (cut : splitAtByte offset text = some (front, back)) :
    text = front ++ back ∧ byteLen front = offset := by
  induction text generalizing offset front with
  | nil =>
    cases offset with
    | zero =>
      obtain ⟨rfl, rfl⟩ := Prod.mk.inj (Option.some.inj cut)
      exact ⟨rfl, rfl⟩
    | succ offset => cases cut
  | cons char rest ih =>
    cases offset with
    | zero =>
      obtain ⟨rfl, rfl⟩ := Prod.mk.inj (Option.some.inj cut)
      exact ⟨rfl, rfl⟩
    | succ offset =>
      simp only [splitAtByte] at cut
      split at cut
      · obtain ⟨⟨taken, left⟩, later, same⟩ := Option.map_eq_some_iff.mp cut
        obtain ⟨rfl, rfl⟩ := Prod.mk.inj same
        obtain ⟨whole, counted⟩ := ih _ _ later
        refine ⟨by rw [whole, List.cons_append], ?_⟩
        rw [byteLen_cons, counted]
        omega
      · cases cut

/-- A text can be cut after any part of it. -/
theorem splitAtByte_append (front back : Text) :
    splitAtByte (byteLen front) (front ++ back) = some (front, back) := by
  induction front with
  | nil => cases back <;> rfl
  | cons char rest ih =>
      obtain ⟨size, positive⟩ : ∃ size, char.utf8Size + byteLen rest = size + 1 :=
        ⟨char.utf8Size + byteLen rest - 1, by have := char.utf8Size_pos; omega⟩
      rw [byteLen_cons, List.cons_append, positive, splitAtByte, if_pos (by omega), ← positive,
        Nat.add_sub_cancel_left, ih]
      rfl

theorem toLower_toUpper (char : Char) : char.toUpper.toLower = char.toLower := by
  apply Char.ext
  delta Char.toUpper Char.toLower
  split <;> split <;> grind [UInt32.toNat_add, Char.toNat_val]

/-- Only ASCII characters have an ASCII upper case. -/
theorem utf8Size_of_toUpper (char : Char) (ascii : char.toUpper.toNat < 128) :
    char.utf8Size = 1 := by
  rw [Char.utf8Size_eq_one_iff]
  delta Char.toUpper at ascii
  split at ascii
  case isTrue lower => exact le_trans (UInt32.le_iff_toNat_le.mp lower.2) (by decide)
  case isFalse => exact Nat.le_of_lt_succ ascii

/-- A text that starts with an ASCII word in any case starts with as many octets. -/
theorem upper_word {word : Text} (ascii : ∀ char ∈ word, char.toNat < 128)
    (named : startsWith (toAsciiUppercase text) word = true) :
    ∃ front back, text = front ++ back ∧ byteLen front = word.length ∧
      toAsciiLowercase front = toAsciiLowercase word := by
  obtain ⟨rest, split⟩ := of_decide_eq_true named
  obtain ⟨front, back, rfl, rfl, -⟩ := List.map_eq_append_iff.mp split.symm
  refine ⟨front, back, rfl, ?_, ?_⟩
  · clear named split
    induction front with
    | nil => rfl
    | cons char front ih =>
        rw [byteLen_cons, utf8Size_of_toUpper char (ascii _ (by simp)),
          ih (fun other member => ascii other (by simp_all))]
        simp [Nat.add_comm]
  · simp [toAsciiLowercase, toLower_toUpper]

/-! ## Trimming -/

/-- White space around a text is taken off with that of the text. -/
theorem trim_append {before after : Text}
    (blank_before : ∀ char ∈ before, Str.isWhitespace char = true)
    (blank_after : ∀ char ∈ after, Str.isWhitespace char = true) :
    Str.trim (before ++ (text ++ after)) = Str.trim text := by
  have start : Str.trimStart (before ++ (text ++ after)) = Str.trimStart (text ++ after) :=
    List.dropWhile_append_of_pos blank_before
  have stop (front : Text) : Str.trimEnd (front ++ after) = Str.trimEnd front := by
    rw [Str.trimEnd, List.rdropWhile, List.reverse_append,
      List.dropWhile_append_of_pos (by simpa using blank_after)]
    rfl
  have nothing : after.dropWhile isWhitespace = [] := List.dropWhile_eq_nil_iff.mpr blank_after
  rw [Str.trim, start, Str.trimStart, List.dropWhile_append]
  split_ifs with empty
  · rw [nothing, Str.trim, Str.trimStart, List.isEmpty_iff.mp empty]
  · exact stop _

/-- A text that neither begins nor ends with white space is not trimmed. -/
theorem trim_tight (opens : ∀ char ∈ text.head?, Str.isWhitespace char = false)
    (closes : ∀ char ∈ text.getLast?, Str.isWhitespace char = false) : Str.trim text = text := by
  have start : Str.trimStart text = text := by
    cases text with
    | nil => rfl
    | cons first rest => exact List.dropWhile_cons_of_neg (by simp [opens first rfl])
  have stop : Str.trimEnd text = text := by
    rcases List.eq_nil_or_concat' text with rfl | ⟨front, last, rfl⟩
    · rfl
    · exact List.rdropWhile_concat_neg _ _ _ (by simp [closes last (by simp)])
  rw [Str.trim, start, stop]

/-- A text between white space, that neither begins nor ends with any. -/
theorem trim_padded {before after : Text}
    (blank_before : ∀ char ∈ before, Str.isWhitespace char = true)
    (blank_after : ∀ char ∈ after, Str.isWhitespace char = true)
    (opens : ∀ char ∈ text.head?, Str.isWhitespace char = false)
    (closes : ∀ char ∈ text.getLast?, Str.isWhitespace char = false) :
    Str.trim (before ++ (text ++ after)) = text := by
  rw [trim_append blank_before blank_after, trim_tight opens closes]

/-- What is taken off. -/
theorem trim_split (text : Text) : ∃ before after, (∀ char ∈ before, isWhitespace char = true) ∧
    (∀ char ∈ after, isWhitespace char = true) ∧ text = before ++ (trim text ++ after) := by
  refine ⟨text.takeWhile isWhitespace, (trimStart text).rtakeWhile isWhitespace,
    fun _ => List.mem_takeWhile_imp, fun _ => List.mem_rtakeWhile_imp, ?_⟩
  rw [trim, trimEnd, List.rdropWhile_append_rtakeWhile, trimStart, List.takeWhile_append_dropWhile]

theorem trim_infix (text : Text) : trim text <:+: text := by
  obtain ⟨before, after, -, -, split⟩ := trim_split text
  exact ⟨before, after, by rw [List.append_assoc, ← split]⟩

theorem trim_trim (text : Text) : trim (trim text) = trim text := by
  obtain ⟨before, after, blank_before, blank_after, split⟩ := trim_split text
  conv_rhs => rw [split, trim_append blank_before blank_after]

theorem trim_trimEnd (text : Text) : trim (trimEnd text) = trim text := by
  have split := List.rdropWhile_append_rtakeWhile (p := isWhitespace) (l := text)
  have trimmed : trim ([] ++ (trimEnd text ++ text.rtakeWhile isWhitespace)) = trim (trimEnd text) :=
    trim_append (by simp) (fun _ => List.mem_rtakeWhile_imp)
  rw [trimEnd, split] at trimmed
  exact trimmed.symm

theorem rdropWhile_cons {α : Type} (dropped : α → Bool) {item : α} (kept : dropped item = false)
    (rest : List α) : (item :: rest).rdropWhile dropped = item :: rest.rdropWhile dropped := by
  induction rest using List.reverseRecOn with
  | nil => simp [kept]
  | append_singleton rest last ih =>
      rw [← List.cons_append]
      by_cases ends : dropped last = true
      · rw [List.rdropWhile_concat_pos _ _ _ ends, ih,
          List.rdropWhile_concat_pos _ _ _ ends]
      · rw [List.rdropWhile_concat_neg _ _ _ ends, List.rdropWhile_concat_neg _ _ _ ends]
        rfl

theorem trim_cons {first : Char} (visible : isWhitespace first = false) (rest : Text) :
    trim (first :: rest) = first :: trimEnd rest := by
  rw [trim, trimStart, List.dropWhile_cons_of_neg (by simp [visible])]
  exact rdropWhile_cons _ visible rest

/-! ## Lower case -/

/-- Only the capital letters of ASCII have another lower case. -/
theorem toLower_cases (char : Char) : char.toLower = char ∨
    (65 ≤ char.toNat ∧ char.toNat ≤ 90 ∧ char.toLower.toNat = char.toNat + 32) := by
  delta Char.toLower
  split
  · next upper =>
      obtain ⟨low, high⟩ := upper
      right
      have least := UInt32.le_iff_toNat_le.mp low
      have most := UInt32.le_iff_toNat_le.mp high
      refine ⟨least, most, ?_⟩
      change (char.val + 32).toNat = char.val.toNat + 32
      have last : char.val.toNat ≤ 90 := most
      change (char.val.toNat + 32) % 2 ^ 32 = _
      omega
  · exact .inl rfl

theorem toLower_eq_at (char : Char) : char.toLower = '@' ↔ char = '@' := by
  rcases toLower_cases char with same | ⟨low, high, moved⟩
  · rw [same]
  · constructor
    · intro at_
      rw [at_] at moved
      have : '@'.toNat = 64 := rfl
      omega
    · rintro rfl
      exact absurd low (by decide)

theorem isWhitespace_toLower (char : Char) :
    isWhitespace char.toLower = isWhitespace char := by
  rcases toLower_cases char with same | ⟨low, high, moved⟩
  · rw [same]
  · have capital : isWhitespace char = false := by
      simp [isWhitespace]
      omega
    have small : isWhitespace char.toLower = false := by
      simp [isWhitespace]
      omega
    rw [capital, small]

theorem toLower_toLower (char : Char) : char.toLower.toLower = char.toLower := by
  rcases toLower_cases char.toLower with same | ⟨low, high, -⟩
  · exact same
  · rcases toLower_cases char with same | ⟨least, most, moved⟩
    · rw [same]
      exact same
    · omega

theorem lower_lower (text : Text) :
    toAsciiLowercase (toAsciiLowercase text) = toAsciiLowercase text := by
  simp [toAsciiLowercase, toLower_toLower]

theorem trim_lower (text : Text) :
    trim (toAsciiLowercase text) = toAsciiLowercase (trim text) := by
  have same : isWhitespace ∘ Char.toLower = isWhitespace := funext isWhitespace_toLower
  simp only [trim, trimStart, trimEnd, toAsciiLowercase, List.rdropWhile,
    List.dropWhile_map, ← List.map_reverse, same]

end Camelmailer.Str
