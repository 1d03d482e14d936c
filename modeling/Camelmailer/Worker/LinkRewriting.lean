import Camelmailer.Text.Casing
import Camelmailer.Text.Octets
import Camelmailer.Worker.QuotedPrintable
import Mathlib.Data.Bool.AllAny

/-!
# Rewritten links

`rewrite_links` of `camelmailer-worker/src/tracking.rs` goes over HTML by byte offsets. Wherever the text
`href` is followed by an equals sign and a value in quotes, in any case and with blanks around the sign,
the value is decoded, and if it is a link it is replaced. Nothing tells whether the text stands in a tag
or is the end of a longer name.

What the function that makes the URLs returns may depend on the links before.
-/

namespace Camelmailer.Tracking

open Utf8
open QuotedPrintable (toDigit unsigned)

/-! ## Slices -/

/-- `&text[start..]`, where no character goes across the offset. -/
def sliceFrom (text : Text) (start : Nat) : Option Text := (Str.splitAtByte start text).map Prod.snd

/-- `&text[start..stop]`. -/
def sliceBetween (text : Text) (start stop : Nat) : Option Text :=
  (sliceFrom text start).bind (fun rest => (Str.splitAtByte (stop - start) rest).map Prod.fst)

/-- `str::find` of a character. -/
def find (char : Char) : Text → Option Nat
  | [] => none
  | first :: rest => if first = char then some 0 else (find char rest).map (first.utf8Size + ·)

/-! ## Entities -/

/-- A number of 32 bits, `u32::from_str_radix`. -/
def parseU32 (radix : Nat) (text : Text) : Option Nat :=
  if unsigned text = [] then none
  else ((unsigned text).foldlM (fun value digit => (toDigit digit).bind (fun low =>
    if low < radix then some (radix * value + low) else none)) 0).filter (fun value => value < 2 ^ 32)

def fromU32 (code : Nat) : Option Char := if code.isValidChar then some (Char.ofNat code) else none

def decodeOneEntity (entity : Text) : Option Char :=
  if entity = "amp" then some '&'
  else if entity = "lt" then some '<'
  else if entity = "gt" then some '>'
  else if entity = "quot" then some '"'
  else if entity = "apos" then some '\''
  else (Str.stripPrefix ['#'] entity).bind (fun number =>
    match (Str.stripPrefix ['x'] number).or (Str.stripPrefix ['X'] number) with
    | some hex => (parseU32 16 hex).bind fromU32
    | none => (parseU32 10 number).bind fromU32)

/-- The entity at an offset, and how far it goes. -/
def entityAt (input rest : Text) (index : Nat) : Option (Option (Char × Nat)) :=
  if rest.head? = some '&' then
    match find ';' rest with
    | none => some none
    | some semicolon => (sliceBetween input (index + 1) (index + semicolon)).map (fun entity =>
        (decodeOneEntity entity).map (fun char => (char, semicolon + 1)))
  else some none

/-- The loop of `decode_html_entities`. There is no result if a slice panics or the turns are used up. -/
def entityLoop (input : Text) : Nat → Nat → Text → Option Text
  | 0, _, _ => none
  | turns + 1, index, out =>
      if index < Str.byteLen input then do
        let rest ← sliceFrom input index
        let entity ← entityAt input rest index
        match entity with
        | some (char, advance) => entityLoop input turns (index + advance) (out ++ [char])
        | none =>
            let char ← rest.head?
            entityLoop input turns (index + char.utf8Size) (out ++ [char])
      else some out

def decodeHtmlEntities (input : Text) : Option Text :=
  if '&' ∈ input then entityLoop input (Str.byteLen input + 1) 0 [] else some input

/-! ## Links -/

/-- The equals sign and the quote behind a name: where the value begins, and its quote. -/
def quoteBehind (behind : Text) : Option (Nat × Char) :=
  let after := Str.trimStart behind
  let consumedWs := Str.byteLen behind - Str.byteLen after
  (Str.stripPrefix ['='] after).bind (fun after =>
    let afterEq := Str.trimStart after
    let consumedWs2 := Str.byteLen after - Str.byteLen afterEq
    afterEq.head?.bind (fun quote =>
      if quote ≠ '"' ∧ quote ≠ '\'' then none
      else some (4 + consumedWs + 1 + consumedWs2 + 1, quote)))

def matchHref (casing : Casing) (slice : Text) : Option (Option (Nat × Char)) :=
  if Str.startsWith (casing.toLowercase slice) "href" then (sliceFrom slice 4).map quoteBehind
  else some none

/-- A quoted value: what opens it, its text, what that decodes to, and where it ends. -/
structure Value where
  opening : Text
  rawUrl : Text
  decoded : Text
  stop : Nat
deriving DecidableEq

/-- The quoted value of an attribute that begins at an offset. -/
def valueAt (casing : Casing) (html rest : Text) (index : Nat) : Option (Option Value) := do
  let matched ← matchHref casing rest
  match matched with
  | none => some none
  | some (attrEnd, quote) =>
      let behind ← sliceFrom html (index + attrEnd)
      match find quote behind with
      | none => some none
      | some close =>
          let rawUrl ← sliceBetween html (index + attrEnd) (index + attrEnd + close)
          let opening ← sliceBetween html index (index + attrEnd)
          let decoded ← decodeHtmlEntities rawUrl
          some (some ⟨opening, rawUrl, decoded, index + attrEnd + close⟩)

def isHttp (url : Text) : Bool :=
  Str.startsWith url "http://" || Str.startsWith url "https://"

section Rewrite

-- `makeClickUrl` is what the closure returns for a URL, given those it was called with before.
variable (casing : Casing) (makeClickUrl : List Text → Text → Text)

/-- The loop of `rewrite_links`. There is no result if a slice panics or the turns are used up. -/
def rewriteLoop (html : Text) : Nat → Nat → Text → List Text → Option (Text × List Text)
  | 0, _, _, _ => none
  | turns + 1, index, output, rewritten =>
      if index < Str.byteLen html then do
        let rest ← sliceFrom html index
        let value ← valueAt casing html rest index
        match value with
        | some value =>
            if isHttp value.decoded then
              rewriteLoop html turns value.stop
                (output ++ (value.opening ++ makeClickUrl rewritten value.decoded))
                (rewritten ++ [value.decoded])
            else rewriteLoop html turns value.stop (output ++ (value.opening ++ value.rawUrl)) rewritten
        | none =>
            let length := (rest.head?.map Char.utf8Size).getD 1
            let copied ← sliceBetween html index (index + length)
            rewriteLoop html turns (index + length) (output ++ copied) rewritten
      else some (output, rewritten)

def rewriteLinks (html : Text) : Option (Text × List Text) :=
  rewriteLoop casing makeClickUrl html (Str.byteLen html + 1) 0 [] []

end Rewrite

/-! ## Offsets between characters -/

section Offsets

variable {text front middle back rest : Text} {char : Char} {offset : Nat}

theorem sliceFrom_append (front rest : Text) : sliceFrom (front ++ rest) (Str.byteLen front) = some rest := by
  rw [sliceFrom, Str.splitAtByte_append]
  rfl

theorem sliceBetween_append (front middle back : Text) :
    sliceBetween (front ++ (middle ++ back)) (Str.byteLen front) (Str.byteLen front + Str.byteLen middle) =
      some middle := by
  rw [sliceBetween, sliceFrom_append, Option.bind_some, Nat.add_sub_cancel_left, Str.splitAtByte_append]
  rfl

theorem find_eq_none : find char text = none ↔ char ∉ text := by
  induction text with
  | nil => simp [find]
  | cons first text ih =>
      rw [find]
      split_ifs with here
      · simp [here]
      · simp [ih, Ne.symm here]

/-- What is found is the first. -/
theorem find_append (absent : char ∉ front) (back : Text) :
    find char (front ++ char :: back) = some (Str.byteLen front) := by
  induction front with
  | nil => simp [find]
  | cons first front ih =>
      rw [List.mem_cons, not_or] at absent
      rw [List.cons_append, find, if_neg (Ne.symm absent.1), ih absent.2]
      simp

theorem find_cases (char : Char) (text : Text) : (char ∉ text ∧ find char text = none) ∨
    ∃ front back, text = front ++ char :: back ∧ char ∉ front ∧ find char text = some (Str.byteLen front) := by
  by_cases inside : char ∈ text
  · obtain ⟨front, back, rfl, absent⟩ := List.eq_append_cons_of_mem inside
    exact .inr ⟨front, back, rfl, absent, find_append absent back⟩
  · exact .inl ⟨inside, find_eq_none.mpr inside⟩

end Offsets

/-! ## Decoded values -/

/-- The entity that a text begins with, and what follows it. -/
def entityFront : Text → Option (Char × Text)
  | '&' :: rest => (Str.splitOnce ';' rest).bind (fun parts =>
      (decodeOneEntity parts.1).map (fun char => (char, parts.2)))
  | _ => none

def decodedWithin : Nat → Text → Text
  | 0, text => text
  | _ + 1, [] => []
  | count + 1, char :: rest =>
      match entityFront (char :: rest) with
      | some parts => parts.1 :: decodedWithin count parts.2
      | none => char :: decodedWithin count rest

/-- A text with its entities decoded from left to right. What is left gets shorter with every one. -/
def entityDecoded (text : Text) : Text := decodedWithin text.length text

section Entities

variable {input front rest out after : Text} {char : Char} {count turns : Nat}

/-- An entity is a part of the text. -/
theorem entityFront_split (found : entityFront rest = some (char, after)) :
    ∃ entity, rest = '&' :: (entity ++ ';' :: after) ∧ ';' ∉ entity ∧ decodeOneEntity entity = some char := by
  unfold entityFront at found
  split at found
  · next rest =>
      obtain ⟨⟨entity, behind⟩, split, same⟩ := Option.bind_eq_some_iff.mp found
      obtain ⟨symbol, decoded, same⟩ := Option.map_eq_some_iff.mp same
      obtain ⟨rfl, rfl⟩ := Prod.mk.inj same
      obtain ⟨rfl, absent⟩ := Str.splitOnce_eq_some.mp split
      exact ⟨entity, rfl, absent, decoded⟩
  · cases found

theorem entityFront_other (other : char ≠ '&') (rest : Text) : entityFront (char :: rest) = none := by
  unfold entityFront
  split
  · next same => exact absurd (List.cons.inj same).1 other
  · rfl

theorem entityAt_eq (front rest : Text) : entityAt (front ++ rest) rest (Str.byteLen front) =
    some ((entityFront rest).map (fun parts => (parts.1, Str.byteLen rest - Str.byteLen parts.2))) := by
  cases rest with
  | nil => rfl
  | cons char rest =>
      by_cases ampersand : char = '&'
      · subst ampersand
        have one : '&'.utf8Size = 1 := by decide
        rw [entityAt, List.head?_cons, if_pos rfl, entityFront]
        rcases find_cases ';' rest with ⟨absent, -⟩ | ⟨entity, after, rfl, absent, -⟩
        · have nowhere : ';' ∉ '&' :: rest := by simp [absent]
          rw [find_eq_none.mpr nowhere, Str.splitOnce_eq_none.mpr absent]
          rfl
        · have nowhere : ';' ∉ '&' :: entity := by simp [absent]
          have found : find ';' ('&' :: (entity ++ ';' :: after)) = some (1 + Str.byteLen entity) :=
            find_append nowhere after
          have cut : sliceBetween (front ++ '&' :: (entity ++ ';' :: after)) (Str.byteLen front + 1)
              (Str.byteLen front + (1 + Str.byteLen entity)) = some entity := by
            have sliced := sliceBetween_append (front ++ ['&']) entity (';' :: after)
            rw [Str.byteLen_append, List.append_assoc,
              Nat.add_assoc] at sliced
            exact sliced
          have split : Str.splitOnce ';' (entity ++ ';' :: after) = some (entity, after) :=
            Str.splitOnce_eq_some.mpr ⟨rfl, absent⟩
          have semicolon : ';'.utf8Size = 1 := by decide
          have length : Str.byteLen ('&' :: (entity ++ ';' :: after)) - Str.byteLen after =
              1 + Str.byteLen entity + 1 := by
            simp only [Str.byteLen_cons, Str.byteLen_append]
            omega
          rw [found, split]
          dsimp only
          rw [cut]
          simp only [Option.map_some, Option.bind_some, Option.map_map, Function.comp_def, length]
      · rw [entityAt, if_neg (by simpa using ampersand), entityFront_other ampersand]
        rfl

/-- The loop decodes what is behind its offset. The induction is on the turns that are left. -/
theorem entityLoop_eq (turns_ : Str.byteLen rest < turns) (enough : rest.length ≤ count) :
    entityLoop (front ++ rest) turns (Str.byteLen front) out = some (out ++ decodedWithin count rest) := by
  induction turns generalizing front rest out count with
  | zero => exact absurd turns_ (Nat.not_lt_zero _)
  | succ turns ih =>
      rw [entityLoop]
      cases rest with
      | nil =>
          have nothing : decodedWithin count [] = [] := by
            cases count <;> rfl
          rw [List.append_nil, if_neg (Nat.lt_irrefl _), nothing, List.append_nil]
      | cons char rest =>
          have positive := char.utf8Size_pos
          have within : Str.byteLen front < Str.byteLen (front ++ char :: rest) := by
            rw [Str.byteLen_append, Str.byteLen_cons]
            omega
          obtain ⟨count, rfl⟩ : ∃ less, count = less + 1 := ⟨count - 1, by simp at enough; omega⟩
          rw [if_pos within, sliceFrom_append]
          simp only [Option.bind_eq_bind, Option.bind_some, entityAt_eq]
          rw [decodedWithin]
          cases found : entityFront (char :: rest) with
          | none =>
              have next := @ih (front ++ [char]) rest (out ++ [char]) count
                (by rw [Str.byteLen_cons] at turns_; omega) (Nat.le_of_succ_le_succ enough)
              rw [List.append_assoc, Str.byteLen_append, List.append_assoc] at next
              exact next
          | some parts =>
              obtain ⟨symbol, after⟩ := parts
              obtain ⟨entity, same, -, -⟩ := entityFront_split found
              have whole : char :: rest = ('&' :: (entity ++ [';'])) ++ after := by
                rw [same]
                simp
              have length := congrArg List.length whole
              have size := congrArg Str.byteLen whole
              rw [List.length_append, List.length_cons, List.length_cons] at length
              rw [List.length_cons] at enough
              have sign := Char.utf8Size_pos '&'
              rw [Str.byteLen_append, Str.byteLen_cons '&'] at size
              have next := @ih (front ++ '&' :: (entity ++ [';'])) after
                (out ++ [symbol]) count (by omega) (by omega)
              have moved : Str.byteLen front + (Str.byteLen (char :: rest) - Str.byteLen after) =
                  Str.byteLen (front ++ '&' :: (entity ++ [';'])) := by
                rw [Str.byteLen_append, Str.byteLen_cons '&']
                omega
              dsimp only [Option.map_some]
              rw [moved, whole, ← List.append_assoc, next, List.append_assoc]
              rfl

theorem decodedWithin_plain (plain : '&' ∉ input) (count : Nat) (enough : input.length ≤ count) :
    decodedWithin count input = input := by
  induction input generalizing count with
  | nil => cases count <;> rfl
  | cons char input ih =>
      rw [List.mem_cons, not_or] at plain
      cases count with
      | zero => rfl
      | succ count =>
          rw [decodedWithin, entityFront_other (Ne.symm plain.1)]
          rw [ih plain.2 count (Nat.le_of_succ_le_succ enough)]

/-- Entities are decoded, and no slice panics. -/
theorem decodeHtmlEntities_eq (input : Text) : decodeHtmlEntities input = some (entityDecoded input) := by
  unfold decodeHtmlEntities entityDecoded
  split
  · exact @entityLoop_eq [] input [] input.length (Str.byteLen input + 1) (Nat.lt_succ_self _) (Nat.le_refl _)
  · next plain => rw [decodedWithin_plain plain _ (Nat.le_refl _)]

end Entities

example : decodeHtmlEntities "a&#38;b&#x26;c &amp d&lt;é" = some "a&b&c &amp d<é".toList := by
  decide +kernel

/-! ## What opens a value -/

/-- The name in any case, an equals sign with blanks around it, and a quote. -/
def Opening (opening : Text) (quote : Char) : Prop :=
  ∃ name blanks more, opening = name ++ (blanks ++ '=' :: (more ++ [quote])) ∧
    name.map Char.toLower = "href" ∧ (∀ char ∈ blanks, Str.isWhitespace char = true) ∧
    (∀ char ∈ more, Str.isWhitespace char = true) ∧ (quote = '"' ∨ quote = '\'')

section Openings

variable {casing : Casing} {text opening other tail rest name : Text} {quote sign : Char}

theorem href_clear : Clear "href" := List.all_iff_forall_prop.mp (by decide)

theorem byteLen_name (href : name.map Char.toLower = "href") : Str.byteLen name = 4 := by
  have same : Str.eqIgnoreAsciiCase name "href" = true := by
    rw [Str.eqIgnoreAsciiCase, beq_iff_eq]
    exact href
  rw [Octets.byteLen_of_eqIgnoreAsciiCase same]
  decide

theorem trimStart_blanks {blanks : Text} (blank : ∀ char ∈ blanks, Str.isWhitespace char = true)
    (visible : Str.isWhitespace sign = false) (rest : Text) :
    Str.trimStart (blanks ++ sign :: rest) = sign :: rest := by
  rw [Str.trimStart, List.dropWhile_append_of_pos blank, List.dropWhile_cons_of_neg (by simp [visible])]

theorem quoteBehind_eq {blanks more : Text} (blank : ∀ char ∈ blanks, Str.isWhitespace char = true)
    (blank' : ∀ char ∈ more, Str.isWhitespace char = true) (quoted : quote = '"' ∨ quote = '\'')
    (tail : Text) : quoteBehind (blanks ++ '=' :: (more ++ quote :: tail)) =
      some (4 + Str.byteLen blanks + 1 + Str.byteLen more + 1, quote) := by
  have visible : Str.isWhitespace quote = false := by
    rcases quoted with rfl | rfl <;> decide
  have stripped (rest : Text) : Str.stripPrefix ['='] ('=' :: rest) = some rest := by
    rfl
  have mark : ¬ (quote ≠ '"' ∧ quote ≠ '\'') := by
    rcases quoted with rfl | rfl <;> decide
  have first := Str.byteLen_append blanks ('=' :: (more ++ quote :: tail))
  have second := Str.byteLen_append more (quote :: tail)
  rw [quoteBehind, trimStart_blanks blank (by decide)]
  dsimp only
  rw [stripped, Option.bind_some, trimStart_blanks blank' visible, List.head?_cons, Option.bind_some,
    if_neg mark, first, second, Nat.add_sub_cancel, Nat.add_sub_cancel]

theorem trimStart_split (text : Text) : ∃ blanks, (∀ char ∈ blanks, Str.isWhitespace char = true) ∧
    text = blanks ++ Str.trimStart text :=
  ⟨text.takeWhile Str.isWhitespace, fun _ => List.mem_takeWhile_imp,
    List.takeWhile_append_dropWhile.symm⟩

/-- Otherwise there is no quoted value behind a name. -/
theorem quoteBehind_cases (behind : Text) : quoteBehind behind = none ∨
    ∃ blanks more quote tail, behind = blanks ++ '=' :: (more ++ quote :: tail) ∧
      (∀ char ∈ blanks, Str.isWhitespace char = true) ∧ (∀ char ∈ more, Str.isWhitespace char = true) ∧
      (quote = '"' ∨ quote = '\'') := by
  obtain ⟨blanks, blank, split⟩ := trimStart_split behind
  cases stripped : Str.stripPrefix ['='] (Str.trimStart behind) with
  | none =>
      rw [quoteBehind, stripped]
      exact .inl rfl
  | some after =>
      have sign : Str.trimStart behind = '=' :: after := by
        unfold Str.stripPrefix at stripped
        split at stripped
        · next opens =>
            obtain ⟨rest, same⟩ := opens
            rw [← same] at stripped ⊢
            rw [← Option.some.inj stripped]
            rfl
        · cases stripped
      obtain ⟨more, blank', split'⟩ := trimStart_split after
      rw [quoteBehind, stripped, Option.bind_some]
      cases rest : Str.trimStart after with
      | nil => exact .inl rfl
      | cons quote tail =>
          dsimp only
          rw [List.head?_cons, Option.bind_some]
          by_cases other : quote ≠ '"' ∧ quote ≠ '\''
          · rw [if_pos other]
            exact .inl rfl
          · refine .inr ⟨blanks, more, quote, tail, ?_, blank, blank', ?_⟩
            · rw [← rest, ← split', ← sign]
              exact split
            · by_cases double : quote = '"'
              · exact .inl double
              · exact .inr (not_not.mp (fun single => other ⟨double, single⟩))

theorem startsWith_href (href : name.map Char.toLower = "href") (rest : Text) :
    Str.startsWith (casing.toLowercase (name ++ rest)) "href" = true := by
  refine decide_eq_true ((prefix_lowerFrom href_clear).mpr ?_)
  rw [Opens, List.map_append, href]
  exact List.prefix_append _ _

theorem matchHref_named (href : name.map Char.toLower = "href") (behind : Text) :
    matchHref casing (name ++ behind) = some (quoteBehind behind) := by
  rw [matchHref, if_pos (startsWith_href href behind), ← byteLen_name href, sliceFrom_append]
  rfl

/-- An opening is found in front of everything. -/
theorem matchHref_opening (opens : Opening opening quote) (tail : Text) :
    matchHref casing (opening ++ tail) = some (some (Str.byteLen opening, quote)) := by
  obtain ⟨name, blanks, more, rfl, href, blank, blank', quoted⟩ := opens
  have size : quote.utf8Size = 1 := by
    rcases quoted with rfl | rfl <;> decide
  have sign : '='.utf8Size = 1 := by decide
  have whole : name ++ (blanks ++ '=' :: (more ++ [quote])) ++ tail =
      name ++ (blanks ++ '=' :: (more ++ quote :: tail)) := by simp
  rw [whole, matchHref_named href, quoteBehind_eq blank blank' quoted]
  simp only [Str.byteLen_append, Str.byteLen_cons, Str.byteLen_nil, byteLen_name href, sign]
  congr 3
  omega

theorem matchHref_cases (casing : Casing) (text : Text) :
    (∃ opening quote tail, text = opening ++ tail ∧ Opening opening quote ∧
      matchHref casing text = some (some (Str.byteLen opening, quote))) ∨
    (matchHref casing text = some none ∧
      ∀ opening quote tail, text = opening ++ tail → ¬ Opening opening quote) := by
  have nowhere (none_ : matchHref casing text = some none) (opening : Text) (quote : Char) (tail : Text)
      (whole : text = opening ++ tail) : ¬ Opening opening quote := by
    intro opens
    rw [whole, matchHref_opening opens] at none_
    cases none_
  by_cases named : Str.startsWith (casing.toLowercase text) "href" = true
  · have opens : Opens "href" text := (prefix_lowerFrom href_clear).mp (of_decide_eq_true named)
    have href : (text.take 4).map Char.toLower = "href" := by
      rw [List.map_take]
      exact (List.prefix_iff_eq_take.mp opens).symm
    have found : matchHref casing (text.take 4 ++ text.drop 4) = some (quoteBehind (text.drop 4)) :=
      matchHref_named href _
    rw [List.take_append_drop] at found
    rcases quoteBehind_cases (text.drop 4) with none_ | ⟨blanks, more, quote, tail, split, rest⟩
    · rw [none_] at found
      exact .inr ⟨found, nowhere found⟩
    · obtain ⟨blank, blank', quoted⟩ := rest
      have opening : Opening (text.take 4 ++ (blanks ++ '=' :: (more ++ [quote]))) quote :=
        ⟨_, blanks, more, rfl, href, blank, blank', quoted⟩
      have whole : text = text.take 4 ++ (blanks ++ '=' :: (more ++ [quote])) ++ tail := by
        conv_lhs => rw [← List.take_append_drop 4 text, split]
        simp
      refine .inl ⟨_, quote, tail, whole, opening, ?_⟩
      conv_lhs => rw [whole]
      exact matchHref_opening opening tail
  · have none_ : matchHref casing text = some none := if_neg named
    exact .inr ⟨none_, nowhere none_⟩

theorem Opening.byteLen_pos (opens : Opening opening quote) : 0 < Str.byteLen opening := by
  obtain ⟨name, blanks, more, rfl, href, -⟩ := opens
  rw [Str.byteLen_append, byteLen_name href]
  omega

/-- No text has two openings. -/
theorem opening_unique {again : Char} {more : Text} (one : Opening opening quote)
    (second : Opening other again) (same : opening ++ tail = other ++ more) :
    opening = other ∧ quote = again ∧ tail = more := by
  have first : matchHref Casing.few (opening ++ tail) = some (some (Str.byteLen opening, quote)) :=
    matchHref_opening one tail
  rw [same, matchHref_opening second] at first
  obtain ⟨length, rfl⟩ := Prod.mk.inj (Option.some.inj (Option.some.inj first))
  have cut := Str.splitAtByte_append opening tail
  rw [same, ← length, Str.splitAtByte_append] at cut
  obtain ⟨rfl, rfl⟩ := Prod.mk.inj (Option.some.inj cut)
  exact ⟨rfl, rfl, rfl⟩

end Openings

/-! ## The quoted values of a text -/

/-- A part of a text: a character, or a quoted value with what opens it. -/
inductive Segment where
  | other (char : Char)
  | value (opening rawUrl : Text)

/-- The text of a part. -/
def Segment.source : Segment → Text
  | .other char => [char]
  | .value opening rawUrl => opening ++ rawUrl

/-- The link in a part. -/
def Segment.link : Segment → Option Text
  | .other _ => none
  | .value _ rawUrl => if isHttp (entityDecoded rawUrl) then some (entityDecoded rawUrl) else none

/-- A quoted value is at the front of a text, and the quote that closes it in front of what follows. -/
def QuotedValue (opening rawUrl : Text) (quote : Char) (rest text : Text) : Prop :=
  Opening opening quote ∧ quote ∉ rawUrl ∧ text = opening ++ (rawUrl ++ quote :: rest)

/-- A text is read from left to right. Wherever a quoted value begins, it is a part; what follows is read
from the quote on that closes it. -/
inductive Scan : Text → List Segment → Prop
  | nil : Scan [] []
  | value {opening rawUrl rest text : Text} {quote : Char} {segments : List Segment} :
      QuotedValue opening rawUrl quote rest text → Scan (quote :: rest) segments →
      Scan text (.value opening rawUrl :: segments)
  | other {char : Char} {rest : Text} {segments : List Segment} :
      (∀ opening rawUrl quote after, ¬ QuotedValue opening rawUrl quote after (char :: rest)) →
      Scan rest segments → Scan (char :: rest) (.other char :: segments)

/-- The parts with the links replaced. What replaces a link may depend on the links before. -/
def render (makeClickUrl : List Text → Text → Text) : List Text → List Segment → Text
  | _, [] => []
  | urls, .other char :: segments => char :: render makeClickUrl urls segments
  | urls, .value opening rawUrl :: segments =>
      if isHttp (entityDecoded rawUrl) then
        opening ++ (makeClickUrl urls (entityDecoded rawUrl) ++
          render makeClickUrl (urls ++ [entityDecoded rawUrl]) segments)
      else opening ++ (rawUrl ++ render makeClickUrl urls segments)

/-- Every link is replaced by what has stood there. -/
def ReturnsRaw (makeClickUrl : List Text → Text → Text) : List Text → List Segment → Prop
  | _, [] => True
  | urls, .other _ :: segments => ReturnsRaw makeClickUrl urls segments
  | urls, .value _ rawUrl :: segments =>
      if isHttp (entityDecoded rawUrl) then
        makeClickUrl urls (entityDecoded rawUrl) = rawUrl ∧
          ReturnsRaw makeClickUrl (urls ++ [entityDecoded rawUrl]) segments
      else ReturnsRaw makeClickUrl urls segments

section Scanning

variable {casing : Casing} {makeClickUrl : List Text → Text → Text} {text front rest output : Text}
variable {segments others : List Segment} {urls : List Text} {turns : Nat}

/-- A text begins with one quoted value at most. -/
theorem QuotedValue.unique {opening rawUrl after other raw behind : Text} {quote again : Char}
    (one : QuotedValue opening rawUrl quote after text) (second : QuotedValue other raw again behind text) :
    opening = other ∧ rawUrl = raw ∧ quote = again ∧ after = behind := by
  obtain ⟨opens, closed, whole⟩ := one
  obtain ⟨opens', closed', whole'⟩ := second
  obtain ⟨rfl, rfl, same⟩ := opening_unique opens opens' (whole.symm.trans whole')
  have cut := Str.splitOnce_eq_some.mpr ⟨same, closed'⟩
  have cut' : Str.splitOnce quote (rawUrl ++ quote :: after) = some (rawUrl, after) :=
    Str.splitOnce_eq_some.mpr ⟨rfl, closed⟩
  obtain ⟨rfl, rfl⟩ := Prod.mk.inj (Option.some.inj (cut'.symm.trans cut))
  exact ⟨rfl, rfl, rfl, rfl⟩

theorem not_quotedValue_nil {opening rawUrl after : Text} {quote : Char} :
    ¬ QuotedValue opening rawUrl quote after [] := by
  rintro ⟨-, -, whole⟩
  simp at whole

/-- A text is read in one way. -/
theorem Scan.unique (one : Scan text segments) (second : Scan text others) : segments = others := by
  induction one generalizing others with
  | nil =>
      cases second with
      | nil => rfl
      | value found _ => exact absurd found not_quotedValue_nil
  | value found _ ih =>
      cases second with
      | nil => exact absurd found not_quotedValue_nil
      | value found' later =>
          obtain ⟨rfl, rfl, rfl, rfl⟩ := found.unique found'
          rw [ih later]
      | other none_ _ => exact absurd found (none_ _ _ _ _)
  | other none_ _ ih =>
      cases second with
      | value found _ => exact absurd found (none_ _ _ _ _)
      | other _ later => rw [ih later]

/-- The parts of a text make up the text. -/
theorem Scan.source (scan : Scan text segments) : segments.flatMap Segment.source = text := by
  induction scan with
  | nil => rfl
  | value found _ ih =>
      rw [List.flatMap_cons, ih, found.2.2, Segment.source, List.append_assoc]
  | other _ _ ih =>
      rw [List.flatMap_cons, ih]
      rfl

/-- Links that are replaced by what has stood there leave the text as it is. -/
theorem render_raw (raw : ReturnsRaw makeClickUrl urls segments) :
    render makeClickUrl urls segments = segments.flatMap Segment.source := by
  induction segments generalizing urls with
  | nil => rfl
  | cons segment segments ih =>
      cases segment with
      | other char =>
          rw [render, ih raw]
          rfl
      | value opening rawUrl =>
          rw [ReturnsRaw] at raw
          rw [render, List.flatMap_cons, Segment.source, List.append_assoc]
          split at raw
          · next link => rw [if_pos link, raw.1, ih raw.2]
          · next noLink => rw [if_neg noLink, ih raw]

/-- The value at an offset, where there is one. No slice panics. -/
theorem valueAt_cases (casing : Casing) (front rest : Text) :
    (∃ opening rawUrl quote after, QuotedValue opening rawUrl quote after rest ∧
      valueAt casing (front ++ rest) rest (Str.byteLen front) = some (some
        ⟨opening, rawUrl, entityDecoded rawUrl, Str.byteLen (front ++ (opening ++ rawUrl))⟩)) ∨
    (valueAt casing (front ++ rest) rest (Str.byteLen front) = some none ∧
      ∀ opening rawUrl quote after, ¬ QuotedValue opening rawUrl quote after rest) := by
  unfold valueAt
  rcases matchHref_cases casing rest with ⟨opening, quote, tail, rfl, opens, found⟩ | ⟨none_, nowhere⟩
  · have behind : sliceFrom (front ++ (opening ++ tail)) (Str.byteLen front + Str.byteLen opening) =
        some tail := by
      rw [← List.append_assoc, ← Str.byteLen_append, sliceFrom_append]
    simp only [found, behind, Option.bind_eq_bind, Option.bind_some]
    rcases find_cases quote tail with ⟨absent, none_⟩ | ⟨rawUrl, after, rfl, absent, position⟩
    · refine .inr ⟨by rw [none_], fun other raw again after value => ?_⟩
      obtain ⟨-, rfl, rfl⟩ := opening_unique opens value.1 value.2.2
      exact absent (by simp)
    · have url : sliceBetween (front ++ (opening ++ (rawUrl ++ quote :: after)))
          (Str.byteLen front + Str.byteLen opening)
          (Str.byteLen front + Str.byteLen opening + Str.byteLen rawUrl) = some rawUrl := by
        rw [← List.append_assoc, ← Str.byteLen_append, sliceBetween_append]
      rw [position]
      simp only [url, sliceBetween_append, decodeHtmlEntities_eq, Option.bind_some]
      refine .inl ⟨opening, rawUrl, quote, after, ⟨opens, absent, rfl⟩, ?_⟩
      rw [Str.byteLen_append, Str.byteLen_append, Nat.add_assoc]
  · refine .inr ⟨by rw [none_]; rfl, fun opening rawUrl quote after value => ?_⟩
    exact nowhere opening quote _ value.2.2 value.1

/-- The loop reads what is behind its offset. The induction is on the turns that are left. -/
theorem rewriteLoop_scan (enough : Str.byteLen rest < turns) : ∃ segments, Scan rest segments ∧
    rewriteLoop casing makeClickUrl (front ++ rest) turns (Str.byteLen front) output urls =
      some (output ++ render makeClickUrl urls segments, urls ++ segments.filterMap Segment.link) := by
  induction turns generalizing front rest output urls with
  | zero => exact absurd enough (Nat.not_lt_zero _)
  | succ turns ih =>
      cases rest with
      | nil =>
          refine ⟨[], .nil, ?_⟩
          rw [rewriteLoop]
          simp [render]
      | cons char rest =>
          have positive := char.utf8Size_pos
          have within : Str.byteLen front < Str.byteLen (front ++ char :: rest) := by
            rw [Str.byteLen_append, Str.byteLen_cons]
            omega
          rw [rewriteLoop, if_pos within, sliceFrom_append]
          simp only [Option.bind_eq_bind]
          rcases valueAt_cases casing front (char :: rest) with
            ⟨opening, rawUrl, quote, after, value, found⟩ | ⟨found, none_⟩
          · have whole : front ++ (opening ++ rawUrl) ++ quote :: after = front ++ char :: rest := by
              rw [value.2.2]
              simp
            have size := congrArg Str.byteLen value.2.2
            have opened := value.1.byteLen_pos
            simp only [Str.byteLen_append] at size
            have next (output : Text) (urls : List Text) :=
              @ih (front ++ (opening ++ rawUrl)) (quote :: after) output urls (by omega)
            simp only [found, Option.bind_some]
            rw [whole] at next
            by_cases link : isHttp (entityDecoded rawUrl) = true
            · rw [if_pos link]
              obtain ⟨segments, scan, run⟩ := next
                (output ++ (opening ++ makeClickUrl urls (entityDecoded rawUrl)))
                (urls ++ [entityDecoded rawUrl])
              refine ⟨.value opening rawUrl :: segments, .value value scan, ?_⟩
              rw [run, render, if_pos link, List.filterMap_cons, Segment.link, if_pos link]
              simp
            · rw [if_neg link]
              obtain ⟨segments, scan, run⟩ := next (output ++ (opening ++ rawUrl)) urls
              refine ⟨.value opening rawUrl :: segments, .value value scan, ?_⟩
              rw [run, render, if_neg link, List.filterMap_cons, Segment.link, if_neg link]
              simp
          · have copied : sliceBetween (front ++ char :: rest) (Str.byteLen front)
                (Str.byteLen front + char.utf8Size) = some [char] := by
              have sliced := sliceBetween_append front [char] rest
              rwa [Str.byteLen_cons] at sliced
            have whole : front ++ [char] ++ rest = front ++ char :: rest := by simp
            have size : Str.byteLen (front ++ [char]) = Str.byteLen front + char.utf8Size := by simp
            rw [Str.byteLen_cons] at enough
            obtain ⟨segments, scan, run⟩ :=
              @ih (front ++ [char]) rest (output ++ [char]) urls (by omega)
            refine ⟨.other char :: segments, .other none_ scan, ?_⟩
            simp only [found, Option.bind_some, List.head?_cons, Option.map_some, Option.getD_some, copied]
            rw [← whole, ← size, run, render, List.filterMap_cons, Segment.link]
            simp

/-- Every text is read, and what is rewritten are its links. -/
theorem rewriteLinks_scan (casing : Casing) (makeClickUrl : List Text → Text → Text) (html : Text) :
    ∃ segments, Scan html segments ∧ rewriteLinks casing makeClickUrl html =
      some (render makeClickUrl [] segments, segments.filterMap Segment.link) := by
  obtain ⟨segments, scan, run⟩ := @rewriteLoop_scan casing makeClickUrl [] html [] []
    (Str.byteLen html + 1) (Nat.lt_succ_self _)
  exact ⟨segments, scan, run⟩

/-- A text is read in one way, its parts make it up, and what is rewritten are the quoted values that are
links. Where all of them are replaced by what has stood there, the text stays as it is. -/
theorem rewriteLinks_exact (casing : Casing) (html : Text) : ∃ segments, Scan html segments ∧
    (∀ others, Scan html others → others = segments) ∧ segments.flatMap Segment.source = html ∧
    ∀ makeClickUrl, rewriteLinks casing makeClickUrl html =
        some (render makeClickUrl [] segments, segments.filterMap Segment.link) ∧
      (ReturnsRaw makeClickUrl [] segments → render makeClickUrl [] segments = html) := by
  obtain ⟨segments, scan, -⟩ := rewriteLinks_scan casing (fun _ url => url) html
  refine ⟨segments, scan, fun others other => other.unique scan, scan.source, fun makeClickUrl => ⟨?_, ?_⟩⟩
  · obtain ⟨others, other, run⟩ := rewriteLinks_scan casing makeClickUrl html
    rwa [other.unique scan] at run
  · exact fun raw => (render_raw raw).trans scan.source

end Scanning

/-- A value is rewritten behind a longer name, and outside of a tag. -/
theorem rewritten_elsewhere :
    rewriteLinks Casing.few (fun _ _ => "T") "<p data-href=\"http://x\">href='https://y'</p>" =
      some ("<p data-href=\"T\">href='T'</p>".toList, ["http://x".toList, "https://y".toList]) := by
  decide +kernel

end Camelmailer.Tracking
