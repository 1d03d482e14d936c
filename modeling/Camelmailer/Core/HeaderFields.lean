import Camelmailer.Core.Message
import Mathlib.Data.List.ModifyLast

/-!
# The fields of a header block

`parse_headers` goes through the lines of a message up to the first empty one. A line that begins
with a blank is added to the last field, one with a colon begins a field, and every other line is
ignored. So what is read of a block of lines depends on what is read of those before it only through
its first folded lines.
-/

namespace Camelmailer

open Utf8 Lines

/-! ## Lines -/

/-- A line without the carriage return of its line end. -/
def stripped (line : Bytes) : Bytes := (Str.stripLast CR line).getD line

/-- A line as `parse_headers` reads it. -/
def lineText (line : Bytes) : Text := fromUtf8Lossy (stripped line)

def isFolded (text : Text) : Bool := text.head? = some ' ' || text.head? = some '\t'

/-- The name of the field that a line begins. -/
def fieldName (platform : Platform) (text : Text) : Option Text :=
  if isFolded text then none
  else (Str.splitOnce ':' text).map (fun parts => platform.toLowercase (Str.trim parts.1))

/-- The values of the fields of a name. -/
def valuesOf (name : Text) (headers : List (Text × Text)) : List Text :=
  (headers.filter (fun header => header.1 = name)).map Prod.snd

@[simp] theorem valuesOf_append (name : Text) (front back : List (Text × Text)) :
    valuesOf name (front ++ back) = valuesOf name front ++ valuesOf name back := by
  simp [valuesOf]

/-- The lines behind the first empty one. -/
def bodyLines : List Bytes → List Bytes
  | [] => []
  | line :: rest => if stripped line = [] then rest else bodyLines rest

/-- The fields after some lines that are not empty. -/
def foldLines (platform : Platform) (headers : List (Text × Text)) (lines : List Bytes) :
    List (Text × Text) :=
  lines.foldl (fun headers line => parseHeaderLine platform headers (lineText line)) headers

section Read

variable {platform : Platform}

/-- A folded line goes to the last field. -/
theorem parseHeaderLine_folded {text : Text} (blank : isFolded text = true)
    (headers : List (Text × Text)) : parseHeaderLine platform headers text =
      headers.modifyLast (fun header => (header.1, header.2 ++ ' ' :: Str.trim text)) := by
  unfold parseHeaderLine
  rw [if_pos (by simpa [isFolded] using blank)]

/-- A line with a colon begins a field. -/
theorem parseHeaderLine_begun {text name : Text} (named : fieldName platform text = some name) :
    ∃ value, ∀ headers, parseHeaderLine platform headers text = headers ++ [(name, value)] := by
  unfold fieldName at named
  split_ifs at named with blank
  obtain ⟨⟨key, value⟩, split, rfl⟩ := Option.map_eq_some_iff.mp named
  refine ⟨Str.trim value, fun headers => ?_⟩
  unfold parseHeaderLine
  rw [if_neg (by simpa [isFolded] using blank), split]

/-- Every other line is ignored. -/
theorem parseHeaderLine_ignored {text : Text} (filled : isFolded text = false)
    (unnamed : fieldName platform text = none) (headers : List (Text × Text)) :
    parseHeaderLine platform headers text = headers := by
  unfold fieldName at unnamed
  rw [filled] at unnamed
  unfold parseHeaderLine
  rw [if_neg (by simpa [isFolded] using filled), Option.map_eq_none_iff.mp unnamed]

/-- What is in front of the last field stays as it is. -/
theorem parseHeaderLine_append (platform : Platform) (front : List (Text × Text)) {back : List (Text × Text)}
    (text : Text) (some : back ≠ []) :
    parseHeaderLine platform (front ++ back) text =
        front ++ parseHeaderLine platform back text ∧
      parseHeaderLine platform back text ≠ [] := by
  cases blank : isFolded text with
  | true =>
      rw [parseHeaderLine_folded blank, parseHeaderLine_folded blank]
      refine ⟨List.modifyLast_append_of_right_ne_nil _ _ _ some, ?_⟩
      obtain ⟨front, last, rfl⟩ := List.eq_nil_or_concat' back |>.resolve_left some
      rw [List.modifyLast_concat]
      simp
  | false =>
      cases named : fieldName platform text with
      | none =>
          rw [parseHeaderLine_ignored blank named, parseHeaderLine_ignored blank named]
          exact ⟨rfl, some⟩
      | some name =>
          obtain ⟨value, begins⟩ := parseHeaderLine_begun named
          rw [begins, begins]
          exact ⟨List.append_assoc .., by simp⟩

variable {line : Bytes}

/-- An empty line is an empty text. -/
theorem stripped_ne_nil (some : lineText line ≠ []) : stripped line ≠ [] := by
  intro empty
  refine some ?_
  unfold lineText
  rw [empty]
  rfl

/-! ## Blocks of lines -/

variable {lines : List Bytes}

theorem parseHeaderLines_append (filled : ∀ line ∈ lines, stripped line ≠ [])
    (headers : List (Text × Text)) (more : List Bytes) :
    parseHeaderLines platform headers (lines ++ more) =
      parseHeaderLines platform (foldLines platform headers lines) more := by
  induction lines generalizing headers with
  | nil => rfl
  | cons line lines ih =>
      have some : (Str.stripLast CR line).getD line ≠ [] := filled line (List.mem_cons_self ..)
      rw [List.cons_append, parseHeaderLines, if_neg some]
      exact ih (fun other member => filled other (List.mem_cons_of_mem _ member)) _

theorem bodyLines_append (filled : ∀ line ∈ lines, stripped line ≠ []) (more : List Bytes) :
    bodyLines (lines ++ more) = bodyLines more := by
  induction lines with
  | nil => rfl
  | cons line lines ih =>
      rw [List.cons_append, bodyLines, if_neg (filled line (List.mem_cons_self ..))]
      exact ih (fun other member => filled other (List.mem_cons_of_mem _ member))

/-- Something of every message is header. -/
theorem bodyLines_length (some : lines ≠ []) :
    (bodyLines lines).length < lines.length := by
  induction lines with
  | nil => exact absurd rfl some
  | cons line rest ih =>
      rw [bodyLines]
      split_ifs
      · simp
      · by_cases last : rest = []
        · simp [last, bodyLines]
        · have shorter := ih last
          simp only [List.length_cons]
          omega

/-- What follows an empty line is body. -/
theorem bodyLines_early (member : line ∈ lines) (blank : stripped line = []) (more : List Bytes) :
    more.length ≤ (bodyLines (lines ++ more)).length := by
  induction lines with
  | nil => exact absurd member List.not_mem_nil
  | cons first rest ih =>
      rw [List.cons_append, bodyLines]
      split_ifs with early
      · simp
      · rcases List.mem_cons.mp member with rfl | later
        · exact absurd blank early
        · exact ih later

/-- A block whose first line begins a field is read by itself. -/
theorem parseHeaderLines_begun (begins : (fieldName platform (lineText line)).isSome)
    (headers : List (Text × Text)) (rest : List Bytes) :
    parseHeaderLines platform headers (line :: rest) =
      headers ++ parseHeaderLines platform [] (line :: rest) := by
  have from_append (lines : List Bytes) : ∀ back : List (Text × Text), back ≠ [] →
      parseHeaderLines platform (headers ++ back) lines =
        headers ++ parseHeaderLines platform back lines := by
    induction lines with
    | nil => exact fun back _ => rfl
    | cons line lines ih =>
        intro back some
        rw [parseHeaderLines, parseHeaderLines]
        split_ifs
        · rfl
        · obtain ⟨same, more⟩ := parseHeaderLine_append platform headers (lineText line) some
          exact (congrArg (fun fields => parseHeaderLines platform fields lines) same).trans
            (ih _ more)
  obtain ⟨name, named⟩ := Option.isSome_iff_exists.mp begins
  obtain ⟨value, begun⟩ := parseHeaderLine_begun named
  have filled : (Str.stripLast CR line).getD line ≠ [] := stripped_ne_nil (by
    rintro empty
    rw [empty] at named
    cases named)
  have one (fields : List (Text × Text)) : parseHeaderLine platform fields
      (fromUtf8Lossy ((Str.stripLast CR line).getD line)) = fields ++ [(name, value)] := begun fields
  rw [parseHeaderLines, parseHeaderLines, if_neg filled, if_neg filled, one, one]
  exact from_append rest _ (by simp)

/-! ## Values only grow -/

/-- The values that there were are at their places, perhaps with something behind them. -/
def Extends (before after : List Text) : Prop :=
  ∀ (index : Nat) (value : Text), before[index]? = some value →
    ∃ more : Text, after[index]? = some (value ++ more)

theorem Extends.refl (values : List Text) : Extends values values :=
  fun _ value found => ⟨[], by rw [List.append_nil]; exact found⟩

theorem Extends.trans {first second third : List Text} (earlier : Extends first second)
    (later : Extends second third) : Extends first third := by
  intro index value found
  obtain ⟨more, continued⟩ := earlier index value found
  obtain ⟨rest, ended⟩ := later index _ continued
  exact ⟨more ++ rest, by rw [ended, List.append_assoc]⟩

theorem Extends.append (values more : List Text) : Extends values (values ++ more) := by
  intro index value found
  refine ⟨[], ?_⟩
  rw [List.append_nil, List.getElem?_append_left (List.getElem?_eq_some_iff.mp found).1]
  exact found

theorem Extends.last (values : List Text) (value more : Text) :
    Extends (values ++ [value]) (values ++ [value ++ more]) := by
  intro index found known
  rcases Nat.lt_or_ge index values.length with early | late
  · rw [List.getElem?_append_left early] at known ⊢
    exact ⟨[], by rw [List.append_nil, known]⟩
  · rw [List.getElem?_append_right late] at known ⊢
    cases place : index - values.length with
    | zero =>
        rw [place] at known
        obtain rfl := Option.some.inj known
        exact ⟨more, rfl⟩
    | succ _ =>
        rw [place] at known
        cases known

theorem parseHeaderLine_extends (name text : Text) (headers : List (Text × Text)) :
    Extends (valuesOf name headers)
      (valuesOf name (parseHeaderLine platform headers text)) := by
  cases blank : isFolded text with
  | true =>
      rw [parseHeaderLine_folded blank]
      rcases List.eq_nil_or_concat' headers with rfl | ⟨front, ⟨key, value⟩, rfl⟩
      · exact .refl _
      · rw [List.modifyLast_concat, valuesOf_append, valuesOf_append]
        by_cases same : key = name
        · have one (value : Text) : valuesOf name [(key, value)] = [value] := by
            simp [valuesOf, same]
          rw [one, one]
          exact .last _ _ _
        · have none (value : Text) : valuesOf name [(key, value)] = [] := by
            simp [valuesOf, same]
          rw [none, none]
          exact .refl _
  | false =>
      cases named : fieldName platform text with
      | none =>
          rw [parseHeaderLine_ignored blank named]
          exact .refl _
      | some key =>
          obtain ⟨value, begins⟩ := parseHeaderLine_begun named
          rw [begins, valuesOf_append]
          exact .append _ _

theorem foldLines_extends (platform : Platform) (name : Text) (lines : List Bytes) (headers : List (Text × Text)) :
    Extends (valuesOf name headers) (valuesOf name (foldLines platform headers lines)) := by
  induction lines generalizing headers with
  | nil => exact .refl _
  | cons line lines ih =>
      exact (parseHeaderLine_extends name (lineText line) headers).trans (ih _)

/-! ## Blocks that keep some fields -/

/-- Whether some lines begin no field of some names, and add to none; `begun` if a field of theirs
is in front of them. -/
def keepsFields (platform : Platform) (names : List Text) : Bool → List Bytes → Bool
  | _, [] => true
  | begun, line :: rest =>
      if isFolded (lineText line) then begun && keepsFields platform names begun rest
      else match fieldName platform (lineText line) with
        | none => keepsFields platform names begun rest
        | some name => !names.contains name && keepsFields platform names true rest

/-- The values of some names are what they were, if and only if the lines keep them. The last field
in front of the lines has one of the names. -/
theorem keepsFields_iff {names : List Text} (lines : List Bytes) (front own : List (Text × Text))
    {last : Text × Text} (controlled : last.1 ∈ names) (free : ∀ field ∈ own, field.1 ∉ names) :
    (∀ name ∈ names, valuesOf name (foldLines platform (front ++ [last] ++ own) lines) =
        valuesOf name (front ++ [last])) ↔
      keepsFields platform names (!own.isEmpty) lines = true := by
  have apart {name : Text} (among : name ∈ names) (own : List (Text × Text))
      (free : ∀ field ∈ own, field.1 ∉ names) : valuesOf name own = [] := by
    unfold valuesOf
    rw [List.filter_eq_nil_iff.mpr, List.map_nil]
    intro field member same
    exact free field member (of_decide_eq_true same ▸ among)
  have begun (own : List (Text × Text)) (field : Text × Text) :
      (!(own ++ [field]).isEmpty) = true := by
    cases own <;> rfl
  induction lines generalizing own with
  | nil =>
      refine iff_of_true (fun name among => ?_) rfl
      rw [foldLines, List.foldl_nil, valuesOf_append, apart among own free, List.append_nil]
  | cons line lines ih =>
      have goes (headers : List (Text × Text)) : foldLines platform headers (line :: lines) =
          foldLines platform (parseHeaderLine platform headers (lineText line)) lines := rfl
      rw [goes]
      cases blank : isFolded (lineText line) with
      | true =>
          rw [keepsFields, if_pos blank, parseHeaderLine_folded blank]
          rcases List.eq_nil_or_concat' own with rfl | ⟨early, newest, rfl⟩
          · -- The line is added to a field that is to be kept.
            refine iff_of_false (fun kept => ?_) (by simp)
            have before : valuesOf last.1 (front ++ [last]) = valuesOf last.1 front ++ [last.2] := by
              simp [valuesOf]
            have grown := foldLines_extends platform last.1 lines (front ++
              [(last.1, last.2 ++ ' ' :: Str.trim (lineText line))])
            have now : valuesOf last.1 (front ++ [(last.1, last.2 ++ ' ' :: Str.trim (lineText line))]) =
                valuesOf last.1 front ++ [last.2 ++ ' ' :: Str.trim (lineText line)] := by
              simp [valuesOf]
            rw [List.append_nil, List.modifyLast_concat] at kept
            obtain ⟨more, found⟩ := grown (valuesOf last.1 front).length
              (last.2 ++ ' ' :: Str.trim (lineText line)) (by rw [now]; simp)
            rw [kept last.1 controlled, before, List.getElem?_concat_length] at found
            have lengths := congrArg List.length (Option.some.inj found)
            simp at lengths
          · rw [← List.append_assoc, List.modifyLast_concat, List.append_assoc]
            have free' : ∀ field ∈ early ++ [(newest.1, newest.2 ++ ' ' :: Str.trim (lineText line))],
                field.1 ∉ names := by
              intro field member
              rcases List.mem_append.mp member with former | same
              · exact free field (List.mem_append_left _ former)
              · rw [List.mem_singleton.mp same]
                exact free newest (by simp)
            refine (ih _ free').trans ?_
            rw [begun, begun, Bool.true_and]
      | false =>
          rw [keepsFields, if_neg (by simp [blank])]
          cases named : fieldName platform (lineText line) with
          | none =>
              rw [parseHeaderLine_ignored blank named]
              exact ih own free
          | some name =>
              obtain ⟨value, begins⟩ := parseHeaderLine_begun named
              rw [begins]
              dsimp only
              by_cases among : name ∈ names
              · -- The line begins another field of the name.
                refine iff_of_false (fun kept => ?_) (by simp [among])
                have grown := foldLines_extends platform name lines
                  (front ++ [last] ++ own ++ [(name, value)])
                have now : valuesOf name (front ++ [last] ++ own ++ [(name, value)]) =
                    valuesOf name (front ++ [last]) ++ [value] := by
                  rw [valuesOf_append, valuesOf_append, apart among own free]
                  simp [valuesOf]
                obtain ⟨more, found⟩ := grown (valuesOf name (front ++ [last])).length value
                  (by rw [now]; simp)
                rw [kept name among] at found
                simp at found
              · rw [List.append_assoc (front ++ [last])]
                have free' : ∀ field ∈ own ++ [(name, value)], field.1 ∉ names := by
                  intro field member
                  rcases List.mem_append.mp member with former | same
                  · exact free field former
                  · rw [List.mem_singleton.mp same]
                    exact among
                have unlisted : names.contains name = false := by simpa using among
                refine (ih _ free').trans ?_
                rw [begun, unlisted, Bool.not_false, Bool.true_and]

end Read

end Camelmailer
