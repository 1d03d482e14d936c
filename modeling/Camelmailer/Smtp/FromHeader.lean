import Camelmailer.Smtp.HeaderBlock
import Camelmailer.Smtp.EndOfData

/-!
# The From header that is authorised and the one that is stored

At the end of a message the session authorises the From values it has read itself. The
message is later shown with the From headers that `parse_headers` finds in it. The two
readers disagree about blanks before a colon, about white space other than blanks and
tabs, about lines without a colon, and about how a value ends and is folded, so a From
header can be stored that has never been authorised.

`Faithful` follows the header lines of a message and says where the readers agree about
every From header.
-/

namespace Camelmailer.Smtp

open Utf8

def fromName : Text := "from"

/-- The header that the later reader has read last: a From header that the session is
reading too, a From header that the session has left, or another one. -/
inductive Reading where
  | own
  | left
  | other
deriving DecidableEq

/-- The session starts another header. -/
def Reading.interrupted : Reading → Reading
  | .own => .left
  | .left => .left
  | .other => .other

/-- Whether both readers fold a line that starts with a blank or a tab in the same way.
The later reader puts one blank before the trimmed line. -/
def Reading.folds (text : Text) : Reading → Prop
  | .own => text = ' ' :: Str.trim text
  | .left => False
  | .other => True

/-- The header lines of a message, each with whether it is stored, for which the two
readers agree about the From headers. -/
def Faithful (platform : Platform) : Reading → List (Text × Bool) → Prop
  | _, [] => True
  | reading, (text, stored) :: rest =>
      -- a line that is removed before storing
      if stored = false then Faithful platform reading.interrupted rest
      else if blankLed text then reading.folds text ∧ Faithful platform reading rest
      else match Str.splitOnce ':' text with
        | none =>
            if spaceLed text then reading ≠ .own ∧ Faithful platform reading rest
            else Faithful platform reading.interrupted rest
        | some (key, value) =>
            if platform.toLowercase (Str.trim key) = fromName then
              spaceLed text = false ∧ platform.toLowercase key = fromName ∧
                Str.trimStart value = Str.trim value ∧ Faithful platform .own rest
            else (spaceLed text = true → reading ≠ .own) ∧ Faithful platform .other rest

/-- The From values that the session can no longer change: all of them, except the one
it is still reading. -/
def Bookkeeping.settled (platform : Platform) (book : Bookkeeping) : List Text :=
  if book.key.map platform.toLowercase = some fromName then (book.headers.values fromName).dropLast
  else book.headers.values fromName

/-- What the later reader has read of the From headers is in the books. -/
inductive Agrees (platform : Platform) : Reading → List (Text × Text) → Bookkeeping → Prop
  | own {parsed : List (Text × Text)} {book : Bookkeeping} (value key : Text) (values : List Text)
      (current : book.key = some key) (named : platform.toLowercase key = fromName)
      (recorded : book.headers.values fromName = values ++ [value])
      (earlier : ∀ other, (fromName, other) ∈ parsed → other ∈ values) :
      Agrees platform .own (parsed ++ [(fromName, value)]) book
  | left {parsed : List (Text × Text)} {book : Bookkeeping}
      (earlier : ∀ other, (fromName, other) ∈ parsed → other ∈ book.settled platform) :
      Agrees platform .left parsed book
  | other {parsed : List (Text × Text)} {book : Bookkeeping}
      (earlier : ∀ other, (fromName, other) ∈ parsed → other ∈ book.settled platform)
      (foreign : ∀ header, parsed.getLast? = some header → header.1 ≠ fromName) :
      Agrees platform .other parsed book

namespace HeaderMap

variable (headers : HeaderMap) (key : Text)

@[simp] theorem values_push_self (value : Text) :
    (headers.push key value).values key = headers.values key ++ [value] := by
  simp [push, insert, values]

theorem values_push_of_ne {other : Text} (value : Text) (distinct : other ≠ key) :
    (headers.push key value).values other = headers.values other := by
  simp [push, insert, values, Function.update_of_ne distinct]

@[simp] theorem values_extendLast_self (line : Text) :
    (headers.extendLast key line).values key =
      (headers.values key).modifyLast (· ++ line) := by
  unfold extendLast values
  cases recorded : headers key with
  | none => simp [recorded]; rfl
  | some values => simp [insert]

theorem values_extendLast_of_ne {other : Text} (line : Text) (distinct : other ≠ key) :
    (headers.extendLast key line).values other = headers.values other := by
  unfold extendLast values
  cases headers key with
  | none => rfl
  | some values => simp [insert, Function.update_of_ne distinct]

end HeaderMap

section Books

variable {platform : Platform} {book : Bookkeeping} {text : Text}

theorem Bookkeeping.settled_subset (platform : Platform) (book : Bookkeeping) :
    ∀ value ∈ book.settled platform, value ∈ book.headers.values fromName := by
  intro value member
  unfold settled at member
  split at member
  · exact List.mem_of_mem_dropLast member
  · exact member

/-- Whatever the later reader has found so far, the session has too. -/
theorem Agrees.values {reading : Reading} {parsed : List (Text × Text)}
    (agrees : Agrees platform reading parsed book) :
    ∀ value, (fromName, value) ∈ parsed → value ∈ book.headers.values fromName := by
  intro value member
  cases agrees with
  | own last key values current named recorded earlier =>
      rw [recorded]
      rcases List.mem_append.mp member with before | final
      · exact List.mem_append_left _ (earlier value before)
      · obtain ⟨-, rfl⟩ := Prod.mk.inj (List.mem_singleton.mp final)
        exact List.mem_append_right _ (List.mem_singleton_self _)
  | left earlier
  | other earlier foreign => exact book.settled_subset platform value (earlier value member)

section

variable (receiving : book.receiving = true) (visible : text ≠ [])
include receiving visible

/-- A line that starts a header for the session. -/
theorem Bookkeeping.read_header (start : spaceLed text = false) :
    book.read platform text =
      ⟨book.headers.push (platform.toLowercase (headerOf text).1) (headerOf text).2,
        some (headerOf text).1, true⟩ := by
  unfold read
  rw [if_neg (by simp [receiving]), if_neg visible, if_neg (by simp [start])]

/-- A line that continues a header for the session. -/
theorem Bookkeeping.read_continuation (led : spaceLed text = true) :
    book.read platform text = { book with headers := match book.key with
      | none => book.headers
      | some key => book.headers.extendLast (platform.toLowercase key) text } := by
  unfold read
  rw [if_neg (by simp [receiving]), if_neg visible, if_pos led]
  obtain ⟨headers, key, reading⟩ := book
  cases key <;> rfl

/-- A new header settles all the values before it. -/
theorem Bookkeeping.settled_header (start : spaceLed text = false) :
    (book.read platform text).settled platform = book.headers.values fromName := by
  rw [read_header receiving visible start]
  unfold settled
  split
  case isTrue named =>
    have same : platform.toLowercase (headerOf text).1 = fromName := Option.some.inj named
    rw [same, HeaderMap.values_push_self, List.dropLast_concat]
  case isFalse other =>
    have distinct : fromName ≠ platform.toLowercase (headerOf text).1 :=
      fun same => other (congrArg some same.symm)
    exact HeaderMap.values_push_of_ne _ _ _ distinct

/-- A continued header changes no settled value. -/
theorem Bookkeeping.settled_continuation (led : spaceLed text = true) :
    (book.read platform text).settled platform = book.settled platform := by
  rw [read_continuation receiving visible led]
  obtain ⟨headers, key, reading⟩ := book
  cases key with
  | none => rfl
  | some key =>
      unfold settled
      by_cases named : platform.toLowercase key = fromName
      · have current : (some key).map platform.toLowercase = some fromName := congrArg some named
        rw [if_pos current, if_pos current]
        dsimp only
        rw [named, HeaderMap.values_extendLast_self]
        rcases List.eq_nil_or_concat' (headers.values fromName) with vacant | ⟨front, last, split⟩
        · rw [vacant]
          rfl
        · rw [split, List.modifyLast_concat, List.dropLast_concat, List.dropLast_concat]
      · have other : (some key).map platform.toLowercase ≠ some fromName :=
          fun same => named (Option.some.inj same)
        rw [if_neg other, if_neg other]
        exact HeaderMap.values_extendLast_of_ne _ _ _ (Ne.symm named)

end

theorem Bookkeeping.read_receiving (platform : Platform) (receiving : book.receiving = true)
    (visible : text ≠ []) :
    (book.read platform text).receiving = true := by
  cases led : spaceLed text with
  | false => rw [read_header receiving visible led]
  | true =>
      rw [read_continuation receiving visible led]
      exact receiving

/-- A blank and a tab are white space. -/
theorem spaceLed_of_blankLed (blank : blankLed text = true) : spaceLed text = true := by
  cases text with
  | nil => cases blank
  | cons char rest =>
      have cases : char = ' ' ∨ char = '\t' := by simpa [blankLed] using blank
      rcases cases with rfl | rfl <;> rfl

end Books

/-! ## One header line -/

section Step

variable {platform : Platform} {reading : Reading} {parsed : List (Text × Text)}
  {book : Bookkeeping} {text : Text}

section

variable (agrees : Agrees platform reading parsed book)
include agrees

/-- Outside a From header that it is reading, the session has settled all of them. -/
theorem Agrees.settled (away : reading ≠ .own) :
    ∀ value, (fromName, value) ∈ parsed → value ∈ book.settled platform := by
  cases agrees with
  | own => exact absurd rfl away
  | left earlier => exact earlier
  | other earlier foreign => exact earlier

/-- All From headers read so far are settled after a line that the later reader does
not see, unless the session took it for part of a From header. -/
theorem Agrees.settles (receiving : book.receiving = true) (visible : text ≠ [])
    (apart : spaceLed text = true → reading ≠ .own) :
    ∀ value, (fromName, value) ∈ parsed →
      value ∈ (book.read platform text).settled platform := by
  intro value member
  cases led : spaceLed text with
  | false =>
      rw [Bookkeeping.settled_header receiving visible led]
      exact agrees.values value member
  | true =>
      rw [Bookkeeping.settled_continuation receiving visible led]
      exact agrees.settled (apart led) value member

theorem Agrees.interrupted (receiving : book.receiving = true) (visible : text ≠ [])
    (apart : spaceLed text = true → reading ≠ .own) :
    Agrees platform reading.interrupted parsed (book.read platform text) := by
  have settles := agrees.settles receiving visible apart
  cases agrees with
  | own => exact .left settles
  | left => exact .left settles
  | other earlier foreign => exact .other settles foreign

/-- A line that folds the last header for both readers. -/
theorem Agrees.folded (receiving : book.receiving = true) (blank : blankLed text = true)
    (fold : reading.folds text) :
    Agrees platform reading (parseHeaderLine platform parsed text) (book.read platform text) := by
  have led := spaceLed_of_blankLed blank
  have visible : text ≠ [] := by
    rintro rfl
    cases blank
  have parses : parseHeaderLine platform parsed text =
      parsed.modifyLast (fun header => (header.1, header.2 ++ ' ' :: Str.trim text)) := by
    unfold parseHeaderLine
    rw [if_pos (by simpa [blankLed] using blank)]
  rw [parses]
  cases agrees with
  | own value key values current named recorded earlier =>
      rw [List.modifyLast_concat, Bookkeeping.read_continuation receiving visible led, current]
      refine .own _ key values rfl named ?_ earlier
      dsimp only
      rw [named, HeaderMap.values_extendLast_self, recorded, List.modifyLast_concat]
      exact congrArg (fun line => values ++ [value ++ line]) fold
  | left earlier => exact fold.elim
  | other earlier foreign =>
      rcases List.eq_nil_or_concat' parsed with rfl | ⟨front, last, rfl⟩
      · refine .other ?_ ?_
        · intro value member
          cases member
        · intro header final
          cases final
      · have distinct := foreign last (by simp)
        rw [List.modifyLast_concat]
        refine .other ?_ ?_
        · intro value member
          rw [Bookkeeping.settled_continuation receiving visible led]
          rcases List.mem_append.mp member with before | final
          · exact earlier value (List.mem_append_left _ before)
          · exact absurd (Prod.mk.inj (List.mem_singleton.mp final)).1.symm distinct
        · intro header final
          rw [List.getLast?_concat, Option.some_inj] at final
          rw [← final]
          exact distinct

/-- A line that starts a header for the later reader. -/
theorem Agrees.started
    (receiving : book.receiving = true) {key value : Text} (unfolded : blankLed text = false)
    (colon : Str.splitOnce ':' text = some (key, value)) :
    (platform.toLowercase (Str.trim key) = fromName → spaceLed text = false →
      platform.toLowercase key = fromName → Str.trimStart value = Str.trim value →
      Agrees platform .own (parseHeaderLine platform parsed text) (book.read platform text)) ∧
    (platform.toLowercase (Str.trim key) ≠ fromName → (spaceLed text = true → reading ≠ .own) →
      Agrees platform .other (parseHeaderLine platform parsed text)
        (book.read platform text)) := by
  have visible : text ≠ [] := by
    rintro rfl
    cases colon
  have parses : parseHeaderLine platform parsed text =
      parsed ++ [(platform.toLowercase (Str.trim key), Str.trim value)] := by
    unfold parseHeaderLine
    rw [if_neg (by simpa [blankLed] using unfolded), colon]
  rw [parses]
  constructor
  · intro found start named clean
    have header : headerOf text = (key, Str.trimStart value) := by
      unfold headerOf splitHeader
      rw [colon]
      rfl
    rw [found, Bookkeeping.read_header receiving visible start, header, ← clean]
    refine .own _ key (book.headers.values fromName) rfl named ?_ agrees.values
    rw [named, HeaderMap.values_push_self]
  · intro other apart
    refine .other ?_ ?_
    · intro found member
      rcases List.mem_append.mp member with before | final
      · exact agrees.settles receiving visible apart found before
      · exact absurd (Prod.mk.inj (List.mem_singleton.mp final)).1.symm other
    · intro header final
      rw [List.getLast?_concat, Option.some_inj] at final
      rw [← final]
      exact other

/-- A stored line of a faithful block. -/
theorem Agrees.step
    (receiving : book.receiving = true) (visible : text ≠ []) {rest : List (Text × Bool)}
    (faithful : Faithful platform reading ((text, true) :: rest)) :
    ∃ next, Agrees platform next (parseHeaderLine platform parsed text)
      (book.read platform text) ∧ Faithful platform next rest := by
  unfold Faithful at faithful
  by_cases blank : blankLed text = true
  · rw [if_pos blank] at faithful
    exact ⟨reading, agrees.folded receiving blank faithful.1, faithful.2⟩
  rw [if_neg blank] at faithful
  have unfolded : blankLed text = false := by simpa using blank
  cases colon : Str.splitOnce ':' text with
  | none =>
      have parses : parseHeaderLine platform parsed text = parsed := by
        unfold parseHeaderLine
        rw [if_neg (by simpa [blankLed] using unfolded), colon]
      rw [colon] at faithful
      rw [parses]
      by_cases led : spaceLed text = true
      · rw [if_pos led] at faithful
        have same : reading.interrupted = reading := by
          cases reading with
          | own => exact absurd rfl faithful.1
          | left => rfl
          | other => rfl
        have kept := agrees.interrupted receiving visible (fun _ => faithful.1)
        rw [same] at kept
        exact ⟨reading, kept, faithful.2⟩
      · rw [if_neg led] at faithful
        exact ⟨_, agrees.interrupted receiving visible (fun yes => absurd yes led), faithful⟩
  | some parts =>
      obtain ⟨key, value⟩ := parts
      obtain ⟨asFrom, asOther⟩ := agrees.started receiving unfolded colon
      rw [colon] at faithful
      dsimp only at faithful
      by_cases named : platform.toLowercase (Str.trim key) = fromName
      · rw [if_pos named] at faithful
        obtain ⟨start, same, clean, later⟩ := faithful
        exact ⟨.own, asFrom named start same clean, later⟩
      · rw [if_neg named] at faithful
        exact ⟨.other, asOther named faithful.1, faithful.2⟩

end

end Step

/-! ## The whole header block -/

variable {book : Bookkeeping}

/-- The empty line ends the headers. -/
theorem Bookkeeping.read_end (platform : Platform) (receiving : book.receiving = true) :
    book.read platform [] = { book with receiving := false } := by
  unfold read
  rw [if_neg (by simp [receiving]), if_pos rfl]

/-- For a faithful block, every From header that the later reader finds is in the books
at the end. The induction follows the lines; while lines of the idempotency key are
being removed, the session is not reading a From header. -/
theorem faithful_block {platform : Platform} (texts : List Text) {removing : Bool}
    {reading : Reading} {parsed : List (Text × Text)} (agrees : Agrees platform reading parsed book)
    (receiving : book.receiving = true) (away : removing = true → reading ≠ .own)
    (faithful : Faithful platform reading (headerBlock removing texts)) :
    ∀ value, (fromName, value) ∈ (storedTexts (headerBlock removing texts)).foldl
        (parseHeaderLine platform) parsed →
      value ∈ (texts.foldl (Bookkeeping.read platform) book).headers.values fromName := by
  induction texts generalizing removing reading parsed book with
  | nil => exact agrees.values
  | cons text rest ih =>
      unfold headerBlock at faithful ⊢
      rw [List.foldl_cons]
      by_cases vacant : text = []
      · rw [vacant, Bookkeeping.read_end platform receiving,
          Bookkeeping.foldl_stopped platform _ rest rfl]
        exact agrees.values
      rw [if_neg vacant] at faithful ⊢
      have still := Bookkeeping.read_receiving platform receiving vacant
      generalize removal : (if blankLed text then removing else keyLine text) = removed
        at faithful ⊢
      cases removed with
      | false =>
          obtain ⟨next, agreed, later⟩ := agrees.step receiving vacant faithful
          exact ih agreed still (fun removal => Bool.noConfusion removal) later
      | true =>
          have apart : spaceLed text = true → reading ≠ .own := by
            intro led
            by_cases blank : blankLed text = true
            · rw [if_pos blank] at removal
              exact away removal
            · rw [if_neg blank] at removal
              rw [(keyLine_spec platform removal).2] at led
              cases led
          have later : Faithful platform reading.interrupted (headerBlock true rest) := by
            exact faithful
          refine ih (agrees.interrupted receiving vacant apart) still ?_ later
          intro _
          cases reading <;> exact Reading.noConfusion

/-! ## The lines that intake writes itself -/

/-- The text of a header line. -/
def headerText (header : Text × Text) : Text := header.1 ++ ": " ++ header.2

theorem encode_headerLines (headers : List (Text × Text)) :
    encode (headers.flatMap headerLine) = crlfLines (headers.map headerText) := by
  induction headers with
  | nil => rfl
  | cons header rest ih =>
      rw [List.flatMap_cons, encode_append]
      congr 1
      unfold headerLine headerText
      rw [encode_append]
      rfl

/-- Names of headers that both readers tell from From and that are not removed. -/
structure ForeignName (platform : Platform) (name : Text) : Prop where
  visible : name.head?.any (fun char => !Str.isWhitespace char) = true
  whole : ':' ∉ name
  unfed : '\n' ∉ name
  other : platform.toLowercase (Str.trim name) ≠ fromName
  kept : (encode name).map octetLower ≠ (encode idempotencyHeader).map octetLower

theorem traceHeaders_foreign (platform : Platform) (env : Env) (session : Session) :
    ∀ header ∈ traceHeaders platform env session, ForeignName platform header.1 := by
  have foreign (name : Text) (ascii : (Str.trim name).all (fun char => decide (Ascii char)) = true)
      (lower : Str.toAsciiLowercase (Str.trim name) ≠ fromName)
      (visible : name.head?.any (fun char => !Str.isWhitespace char) = true)
      (whole : ':' ∉ name) (unfed : '\n' ∉ name)
      (kept : (encode name).map octetLower ≠ (encode idempotencyHeader).map octetLower) :
      ForeignName platform name := by
    refine ⟨visible, whole, unfed, ?_, kept⟩
    rw [platform.toLowercase_ascii _ (fun char member =>
      of_decide_eq_true (List.all_eq_true.mp ascii char member))]
    exact lower
  intro header member
  rcases List.mem_append.mp member with result | always
  · split at result
    · rw [List.mem_singleton.mp result]
      exact foreign "Received-SPF" (by decide) (by decide) (by decide) (by decide) (by decide)
        (by decide)
    · cases result
  · rcases List.mem_cons.mp always with rfl | last
    · exact foreign "X-Envelope-From" (by decide) (by decide) (by decide) (by decide)
        (by decide) (by decide)
    · rw [List.mem_singleton.mp last]
      exact foreign "Received" (by decide) (by decide) (by decide) (by decide) (by decide)
        (by decide)

section Foreign

variable {platform : Platform} {header : Text × Text}

section

variable (foreign : ForeignName platform header.1)
include foreign

theorem ForeignName.head :
    ∃ char rest, headerText header = char :: rest ∧ Str.isWhitespace char = false := by
  obtain ⟨name, value⟩ := header
  cases name with
  | nil => cases foreign.visible
  | cons char name =>
      exact ⟨char, _, rfl, by simpa using foreign.visible⟩

theorem ForeignName.splitOnce :
    Str.splitOnce ':' (headerText header) = some (header.1, ' ' :: header.2) := by
  have general (name rest : Text) (whole : ':' ∉ name) :
      Str.splitOnce ':' (name ++ ':' :: rest) = some (name, rest) := by
    induction name with
    | nil => rfl
    | cons char name ih =>
        have parts : char ≠ ':' ∧ ':' ∉ name := by simpa [eq_comm] using whole
        rw [List.cons_append, Str.splitOnce, if_neg parts.1, ih parts.2]
        rfl
  have shape : headerText header = header.1 ++ ':' :: (' ' :: header.2) := by
    unfold headerText
    simp
  rw [shape, general _ _ foreign.whole]

theorem ForeignName.blankLed :
    blankLed (headerText header) = false := by
  obtain ⟨char, rest, shape, dark⟩ := foreign.head
  rw [shape]
  cases led : Smtp.blankLed (char :: rest) with
  | false => rfl
  | true =>
      have spaced := spaceLed_of_blankLed led
      have light : Str.isWhitespace char = true := by simpa [spaceLed] using spaced
      rw [dark] at light
      cases light

theorem ForeignName.keyLine :
    keyLine (headerText header) = false := by
  unfold Smtp.keyLine namesHeader
  rw [encode_takeWhile, ← headerOf_name]
  unfold headerOf splitHeader
  rw [foreign.splitOnce]
  simpa using foreign.kept

theorem ForeignName.unbroken (value : '\n' ∉ header.2) :
    '\n' ∉ headerText header := by
  intro feed
  rcases List.mem_append.mp feed with front | inValue
  · rcases List.mem_append.mp front with inName | inColon
    · exact foreign.unfed inName
    · exact absurd inColon (by decide)
  · exact value inValue

end

end Foreign

variable {platform : Platform}

/-- The lines that intake writes are stored, and the later reader finds no From header
in them. -/
theorem foreign_lines (headers : List (Text × Text)) (texts : List Text)
    (foreign : ∀ header ∈ headers, ForeignName platform header.1) :
    storedTexts (headerBlock false (headers.map headerText ++ texts)) =
        headers.map headerText ++ storedTexts (headerBlock false texts) ∧
      headerTexts (headers.map headerText ++ texts) =
        headers.map headerText ++ headerTexts texts ∧
      ∀ (book : Bookkeeping) (parsed : List (Text × Text)), Agrees platform .other parsed book →
        Agrees platform .other
          ((headers.map headerText).foldl (parseHeaderLine platform) parsed) book := by
  induction headers with
  | nil => exact ⟨rfl, rfl, fun _ _ agrees => agrees⟩
  | cons header rest ih =>
      have own := foreign header List.mem_cons_self
      obtain ⟨stored, within, agreed⟩ := ih
        (fun other member => foreign other (List.mem_cons_of_mem header member))
      obtain ⟨char, tail, shape, -⟩ := own.head
      have visible : headerText header ≠ [] := by
        rw [shape]
        exact List.cons_ne_nil _ _
      refine ⟨?_, ?_, ?_⟩
      · rw [List.map_cons, List.cons_append, headerBlock, if_neg visible, own.blankLed, own.keyLine]
        exact congrArg (List.cons _) stored
      · rw [List.map_cons, List.cons_append, headerTexts,
          List.takeWhile_cons_of_pos (by simpa using visible)]
        exact congrArg (List.cons _) within
      · intro book parsed agrees
        refine agreed book _ ?_
        have parses : parseHeaderLine platform parsed (headerText header) = parsed ++
            [(platform.toLowercase (Str.trim header.1), Str.trim (' ' :: header.2))] := by
          have unfolded := own.blankLed
          unfold parseHeaderLine
          rw [if_neg (by simpa [blankLed] using unfolded), own.splitOnce]
        rw [parses]
        refine .other ?_ ?_
        · intro value member
          rcases List.mem_append.mp member with before | final
          · exact agrees.settled Reading.noConfusion value before
          · exact absurd (Prod.mk.inj (List.mem_singleton.mp final)).1.symm own.other
        · intro last final
          rw [List.getLast?_concat, Option.some_inj] at final
          rw [← final]
          exact own.other

/-! ## A message without an idempotency key -/

/-- A key that is in the books stays there. -/
theorem Bookkeeping.foldl_present (platform : Platform) (texts : List Text) {name : Text}
    (present : (book.headers name).isSome = true) :
    ((texts.foldl (read platform) book).headers name).isSome = true := by
  have inserted (headers : HeaderMap) (key : Text) (values : List Text)
      (present : (headers name).isSome = true) :
      ((headers.insert key values) name).isSome = true := by
    unfold HeaderMap.insert
    by_cases same : name = key
    · rw [same, Function.update_self]
      rfl
    · rw [Function.update_of_ne same]
      exact present
  have extended (headers : HeaderMap) (key : Text) (present : (headers name).isSome = true)
      {line : Text} : ((headers.extendLast key line) name).isSome = true := by
    unfold HeaderMap.extendLast
    cases headers key with
    | none => exact present
    | some values => exact inserted _ _ _ present
  induction texts generalizing book with
  | nil => exact present
  | cons text rest ih =>
      refine ih ?_
      unfold read
      split
      · exact present
      · split
        · exact present
        · split
          · split
            · exact present
            · exact extended _ _ present
          · exact inserted _ _ _ present

/-- Without the key in the books, no line is one of the idempotency key. -/
theorem headerBlock_whole (platform : Platform) (texts : List Text)
    (receiving : book.receiving = true)
    (absent : (texts.foldl (Bookkeeping.read platform) book).headers idempotencyHeader = none) :
    storedTexts (headerBlock false texts) = headerTexts texts := by
  induction texts generalizing book with
  | nil => rfl
  | cons text rest ih =>
      unfold headerBlock headerTexts
      by_cases vacant : text = []
      · rw [vacant]
        rfl
      rw [if_neg vacant, List.takeWhile_cons_of_pos (by simpa using vacant)]
      rw [List.foldl_cons] at absent
      have unnamed : keyLine text = false := by
        by_contra named
        obtain ⟨lower, start⟩ := keyLine_spec platform (by simpa using named)
        have present : ((book.read platform text).headers idempotencyHeader).isSome = true := by
          rw [Bookkeeping.read_header receiving vacant start, lower]
          unfold HeaderMap.push HeaderMap.insert
          dsimp only
          rw [Function.update_self]
          rfl
        have lasting := Bookkeeping.foldl_present platform rest present
        rw [absent] at lasting
        cases lasting
      have kept : (if blankLed text then false else keyLine text) = false := by
        rw [unnamed, ite_self]
      rw [kept]
      exact congrArg (List.cons text) (ih
        (Bookkeeping.read_receiving platform receiving vacant) absent)

/-! ## The end of the message -/

/-- What the later reader finds of From headers in the stored message is what the
session has read. -/
theorem storedData_from {session : Session} {key : Option Text} {headers : List (Text × Text)}
    {texts : List Text} {start : Bookkeeping}
    (foreign : ∀ header ∈ headers, ForeignName platform header.1)
    (unbroken : ∀ text ∈ headers.map headerText ++ texts, '\n' ∉ text)
    (content : session.data = some (crlfLines (headers.map headerText ++ texts)))
    (receiving : start.receiving = true)
    (books : (texts.foldl (Bookkeeping.read platform) start).Of session)
    (keyed : idempotencyKey session session.headerMap = .ok key)
    (faithful : Faithful platform .other (headerBlock false texts)) :
    ∀ value, (fromName, value) ∈ parseHeaders platform (storedData session key) →
      value ∈ session.headerMap.values fromName := by
  have map : session.headerMap = (texts.foldl (Bookkeeping.read platform) start).headers := by
    unfold Session.headerMap
    rw [books.headers]
    rfl
  obtain ⟨stored, within, agreed⟩ := foreign_lines headers texts foreign
  have initial : Agrees platform .other [] start := by
    refine .other ?_ ?_
    · intro value member
      cases member
    · intro header last
      cases last
  have reads : parseHeaders platform (storedData session key) =
      (storedTexts (headerBlock false texts)).foldl (parseHeaderLine platform)
        ((headers.map headerText).foldl (parseHeaderLine platform) []) := by
    unfold storedData
    rw [content, Option.getD_some, ← List.foldl_append]
    cases key with
    | some key =>
        rw [if_pos Option.isSome_some, parseHeaders_stripped platform _ unbroken, stored]
    | none =>
        have absent := idempotencyKey_none keyed
        rw [map] at absent
        rw [if_neg (by decide), parseHeaders_crlfLines platform _ unbroken, within,
          headerBlock_whole platform texts receiving absent]
  rw [reads, map]
  exact faithful_block texts (agreed start [] initial) receiving nofun faithful

/-- Lines that are read from a stream contain no line feed, and neither do their texts. -/
theorem messageTexts_unbroken {inputs : List LineInput} {stream : LineStream} {count : Nat}
    (fed : inputs.map LineInput.line = stream.readLines count) :
    ∀ text ∈ messageTexts inputs, '\n' ∉ text := by
  obtain ⟨-, -, -, unbroken⟩ := Lines.stream_lines stream.octets
  have lines : ∀ line ∈ inputs.map LineInput.line, '\n' ∉ line := by
    intro line member
    rw [fed, LineStream.readLines_eq] at member
    obtain ⟨octets, taken, rfl⟩ := List.mem_map.mp member
    intro feed
    exact unbroken octets (List.mem_of_mem_take taken)
      (ascii_mem_decode octets '\n' (by decide) feed)
  intro text member
  obtain ⟨input, given, rfl⟩ := List.mem_map.mp member
  have whole := lines input.line (List.mem_map_of_mem given)
  have chomped : '\n' ∉ chomp input.line := by
    unfold chomp Str.stripLast
    split
    · exact fun feed => whole (List.mem_of_mem_dropLast feed)
    · exact whole
  unfold unstuff Str.stripPrefix
  split
  case h_2 => exact chomped
  case h_1 stripped shape =>
    split at shape
    · obtain rfl := Option.some.inj shape
      intro feed
      rcases List.mem_cons.mp feed with dot | later
      · cases dot
      · exact chomped (List.mem_of_mem_drop later)
    · cases shape

/-- Behind the trace, the session keeps the lines received as they are, and has read the header
block off them. -/
theorem data_received {platform : Platform} {session opened final : Session} {env : Env}
    {command : Text} {opening : List Call}
    (commanded : commandOf session (chomp command) = some .data)
    (answered : sessionStep platform session ⟨env, command⟩ =
      some (⟨.line "354 Go ahead", opening⟩, opened))
    (traced : ∀ header ∈ traceHeaders platform env session, '\n' ∉ header.2)
    {stream : LineStream} {count : Nat} {inputs : List LineInput}
    (fed : inputs.map LineInput.line = stream.readLines count) {events : List LineEvent}
    (ran : Machine.run (sessionStep platform) opened inputs = some (events, final))
    (unended : ∀ event ∈ events, event.after.inputMode = .data) :
    ∃ headers, Receiving opened ∧ opened.headers = some headers ∧
      ((messageTexts inputs).foldl (Bookkeeping.read platform) ⟨headers, none, true⟩).Of final ∧
      final.data = some (crlfLines
        ((traceHeaders platform env session).map headerText ++ messageTexts inputs)) ∧
      ∀ text ∈ (traceHeaders platform env session).map headerText ++ messageTexts inputs,
        '\n' ∉ text := by
  obtain ⟨receiving, -, written, unopened, reading⟩ := data_opens commanded answered
  obtain ⟨headers, recorded⟩ := Option.isSome_iff_exists.mp receiving.headers
  have start : Bookkeeping.Of ⟨headers, none, true⟩ opened := ⟨recorded, unopened, reading⟩
  obtain ⟨-, books, grown⟩ := run_books inputs receiving start ran unended
  refine ⟨headers, receiving, recorded, books, ?_, ?_⟩
  · rw [grown, written, encode_headerLines]
    simp [crlfLines]
  · intro text member
    rcases List.mem_append.mp member with generated | received
    · obtain ⟨header, listed, rfl⟩ := List.mem_map.mp generated
      exact (traceHeaders_foreign platform env session header listed).unbroken (traced header listed)
    · exact messageTexts_unbroken fed text received

/-- After DATA has been accepted, let any number of lines of any stream have been
received whose header block is faithful, and let a line end the message, on a session
with a credential. Then for every message handed over, every From header that
`parse_headers` finds in it is one of the From values that the session has read and
given to the store for authorisation. -/
theorem stored_from_headers_authorised (platform : Platform) (session opened final next : Session)
    (env : Env) (command : Text) (opening : List Call)
    (commanded : commandOf session (chomp command) = some .data)
    (answered : sessionStep platform session ⟨env, command⟩ =
      some (⟨.line "354 Go ahead", opening⟩, opened))
    (traced : ∀ header ∈ traceHeaders platform env session, '\n' ∉ header.2)
    (stream : LineStream) (count : Nat) (inputs : List LineInput)
    (fed : inputs.map LineInput.line = stream.readLines count) (events : List LineEvent)
    (ran : Machine.run (sessionStep platform) opened inputs = some (events, final))
    (unended : ∀ event ∈ events, event.after.inputMode = .data)
    (faithful : Faithful platform .other (headerBlock false (messageTexts inputs)))
    (last : LineInput) (response : Response) (credential : Credential)
    (held : final.credential = some credential) (ended : Finishes final last.line)
    (finished : sessionStep platform final last = some (response, next)) :
    ∀ call ∈ response.calls, ∀ message ∈ call.handed,
      .findAuthenticatedDomain credential.serverId (final.headerMap.values fromName) ∈
        response.calls ∧
      ∀ value, (fromName, value) ∈ parseHeaders platform message.rawMessage →
        value ∈ final.headerMap.values fromName := by
  obtain ⟨headers, -, -, books, content, unbroken⟩ :=
    data_received commanded answered traced fed ran unended
  obtain ⟨step, dispatched, rfl, -⟩ := sessionStep_dispatch finished
  rw [dispatch_endsMessage ended] at dispatched
  obtain ⟨text, calls, conclusion, rfl⟩ := finishData_concluded dispatched
  intro call member message given
  refine ⟨conclusion.authorises member held, ?_⟩
  obtain ⟨domainId, checks, key, recipient, -, keyed, -, built⟩ := conclusion.origin member given
  obtain ⟨-, -, -, raw, -⟩ := queuedMessage_spec built
  rw [raw]
  exact storedData_from (traceHeaders_foreign platform env session) unbroken content rfl
    ⟨books.headers, books.key, books.receiving⟩ keyed faithful

/-- An authenticated session in which DATA is due. -/
def submittingSession : Session :=
  { addressedSession with
    credential := some ⟨10, 1, .smtp, ['a']⟩
    recipients := [⟨.credential, "x@y.example", exampleServer 1, none⟩] }

/-- A message with one plain From header. -/
def honestMessage : LineStream := ⟨[encode "From: me@a.example\r\n\r\n.\r\n"], []⟩

/-- A session in which DATA is due, with all but the last of the lines of a message and with the last
one. -/
def receivedSubmission (message : LineStream) (count : Nat) :
    Option (Session × (List LineEvent × Session) × (Response × Session)) :=
  (sessionStep .ascii submittingSession ⟨exampleEnv, "DATA\r"⟩).bind (fun opening =>
    if opening.1.reply = .line "354 Go ahead" ∧ opening.1.calls = [] then
      (Machine.run (sessionStep .ascii) opening.2
        ((message.readLines count).map (⟨exampleEnv, ·⟩))).bind (fun received =>
        (sessionStep .ascii received.2 ⟨exampleEnv, dotLine⟩).map (fun last =>
          (opening.2, received, last)))
    else none)

theorem receivedSubmission_steps {message : LineStream} {count : Nat} {opened final next : Session}
    {events : List LineEvent} {response : Response}
    (received : receivedSubmission message count = some (opened, (events, final), (response, next))) :
    sessionStep .ascii submittingSession ⟨exampleEnv, "DATA\r"⟩ =
        some (⟨.line "354 Go ahead", []⟩, opened) ∧
      Machine.run (sessionStep .ascii) opened ((message.readLines count).map (⟨exampleEnv, ·⟩)) =
        some (events, final) ∧
      sessionStep .ascii final ⟨exampleEnv, dotLine⟩ = some (response, next) := by
  obtain ⟨⟨⟨reply, calls⟩, started⟩, answered, rest⟩ := Option.bind_eq_some_iff.mp received
  split at rest
  case isFalse => cases rest
  case isTrue opens =>
  obtain ⟨⟨_, _⟩, ran, finishing⟩ := Option.bind_eq_some_iff.mp rest
  obtain ⟨⟨_, _⟩, finished, same⟩ := Option.map_eq_some_iff.mp finishing
  cases same
  obtain ⟨rfl, rfl⟩ := opens
  exact ⟨answered, ran, finished⟩

/-- The From header of a plain message is authorised. -/
theorem honest_from_authorised :
    ∃ opened events final response next,
      Machine.run (sessionStep .ascii) opened
        ((honestMessage.readLines 2).map (⟨exampleEnv, ·⟩)) = some (events, final) ∧
      sessionStep .ascii final ⟨exampleEnv, dotLine⟩ = some (response, next) ∧
      response.reply = accepted ∧ response.calls.flatMap Call.handed ≠ [] ∧
      ∀ call ∈ response.calls, ∀ message ∈ call.handed,
        ∀ value, (fromName, value) ∈ parseHeaders .ascii message.rawMessage →
          value ∈ final.headerMap.values fromName := by
  have checked : (receivedSubmission honestMessage 2).any (fun reception =>
      reception.2.1.1.all (fun event => event.after.inputMode == .data) &&
      reception.2.1.2.credential == some ⟨10, 1, .smtp, ['a']⟩ &&
      decide (Finishes reception.2.1.2 dotLine) &&
      reception.2.2.1.reply == accepted &&
      decide (reception.2.2.1.calls.flatMap Call.handed ≠ [])) = true := by
    decide +kernel
  obtain ⟨⟨opened, ⟨events, final⟩, ⟨response, next⟩⟩, received, holds⟩ :=
    (Option.any_eq_true _ _).mp checked
  simp only [Bool.and_eq_true, beq_iff_eq, decide_eq_true_eq, List.all_eq_true] at holds
  obtain ⟨⟨⟨⟨unended, held⟩, ended⟩, positive⟩, handed⟩ := holds
  obtain ⟨answered, ran, finished⟩ := receivedSubmission_steps received
  refine ⟨_, events, final, response, next, ran, finished, positive, handed, ?_⟩
  intro call member message given
  refine (stored_from_headers_authorised .ascii submittingSession _ final next exampleEnv
    "DATA\r" [] (by decide +kernel) answered (by decide +kernel) honestMessage 2 _
    (by simp [Function.comp_def]) events ran unended ?_ ⟨exampleEnv, dotLine⟩ response _ held ended
    finished call member message given).2
  have block : headerBlock false (messageTexts ((honestMessage.readLines 2).map
      (⟨exampleEnv, ·⟩))) = [("From: me@a.example".toList, true)] := by
    decide +kernel
  rw [block]
  unfold Faithful
  rw [if_neg (by decide), if_neg (by decide)]
  exact (if_pos (by decide)).mpr ⟨by decide, by decide, by decide, trivial⟩

/-- A message whose second From header has a blank before its colon. -/
def spoofedSubmission : List String :=
  ["EHLO c", "AUTH PLAIN AABh", "MAIL FROM:<me@a.example>", "RCPT TO:<x@y.example>", "DATA",
    "From: me@a.example", "From : victim@x.example", "", "."]

/-- It is accepted, and the stored message has a From header that the session never
looked at. -/
theorem spoofed_from_unauthorised :
    ∃ events final, conversation spoofedSubmission = some (events, final) ∧
      ∃ event ∈ events, ∃ credential, event.before.credential = some credential ∧
        Finishes event.before event.input.line ∧ event.output.reply = accepted ∧
        ∃ call ∈ event.output.calls, ∃ message ∈ call.handed,
          (fromName, "victim@x.example".toList) ∈ parseHeaders .ascii message.rawMessage ∧
          "victim@x.example".toList ∉ event.before.headerMap.values fromName := by
  obtain ⟨events, final, ran, checked⟩ := conversation_checked spoofedSubmission
    (fun events => events.any (fun event => event.before.credential.any (fun _ =>
      decide (Finishes event.before event.input.line) && event.output.reply == accepted &&
      event.output.calls.any (fun call => call.handed.any (fun message =>
        decide ((fromName, "victim@x.example".toList) ∈ parseHeaders .ascii message.rawMessage) &&
        decide ("victim@x.example".toList ∉ event.before.headerMap.values fromName))))))
    (by decide +kernel)
  simp only [List.any_eq_true, Option.any_eq_true, Bool.and_eq_true, decide_eq_true_eq,
    beq_iff_eq] at checked
  obtain ⟨event, member, credential, held, ⟨ended, positive⟩, call, made, message, given, stored,
    unread⟩ := checked
  exact ⟨events, final, ran, event, member, credential, held, ended, positive, call, made, message,
    given, stored, unread⟩

end Camelmailer.Smtp
