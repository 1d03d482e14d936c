import Camelmailer.Worker.DeliveryStatus

/-!
# The parts of a delivery report

A report has a part for people, one for machines and the message that has come back. The scanners go
over all of its lines. What they say about a report is what they would say without the other two
parts exactly when nothing in these reads as a field that they look for, in a place where they look
for it, or when what reads so makes no difference.
-/

namespace Camelmailer.Worker.DeliveryStatus

open Utf8 Lines Octets

/-! ## What lines say -/

def IsDelimiter (line : Bytes) : Prop := [0x2D, 0x2D] <+: trimAscii (stripped line)

instance (line : Bytes) : Decidable (IsDelimiter line) :=
  inferInstanceAs (Decidable ([0x2D, 0x2D] <+: _))

/-- Whether a line is behind the content type of a delivery status. -/
def inPartAfter (inPart : Bool) (line : Bytes) : Bool :=
  if IsDelimiter line then false
  else
    match fieldOf line with
    | none => inPart
    | some (name, value) =>
        if named name "Content-Type" then
          contentTypeIs (fromUtf8Lossy value) "message/delivery-status"
        else inPart

/-- The action that a line gives where it is taken for one of a delivery status. -/
def heard (inPart : Bool) (line : Bytes) : Option Bytes :=
  if IsDelimiter line then none
  else
    match fieldOf line with
    | none => none
    | some (name, value) =>
        if named name "Content-Type" then none
        else if inPart && named name "Action" then some value else none

/-- The actions that lines give. -/
def actions : Bool → List Bytes → List Bytes
  | _, [] => []
  | inPart, line :: rest =>
      (heard inPart line).toList ++ actions (inPartAfter inPart line) rest

def inPartAfterAll (inPart : Bool) (given : List Bytes) : Bool := given.foldl inPartAfter inPart

/-- What a classification says at a line: nothing, that it panics, or what the category is. -/
def verdict (line : Bytes) : Option (Option BounceCategory) :=
  match valueBehind (Str.trim (fromUtf8Lossy line)) diagnosticFields with
  | none => some none
  | some none => none
  | some (some value) =>
      if classifyResponse value ≠ .undetermined then some (some (classifyResponse value)) else none

/-! ## Scans -/

def isFailure (action : Bytes) : Bool := named action "failed"

/-- Some actions, and each of them says that the delivery has failed. -/
def Terminal (given : List Bytes) : Prop := given ≠ [] ∧ ∀ action ∈ given, isFailure action = true

instance (given : List Bytes) : Decidable (Terminal given) :=
  inferInstanceAs (Decidable (_ ∧ _))

theorem actions_append (inPart : Bool) (front back : List Bytes) : actions inPart (front ++ back) =
    actions inPart front ++ actions (inPartAfterAll inPart front) back := by
  induction front generalizing inPart with
  | nil => rfl
  | cons line front ih =>
      rw [List.cons_append, actions, ih, actions, List.append_assoc]
      rfl

/-- What is before a delimiter is not known behind it. -/
theorem actions_delimited {line : Bytes} (delimiter : IsDelimiter line) (inPart : Bool)
    (rest : List Bytes) : actions inPart (line :: rest) = actions false rest := by
  have silent : heard inPart line = none := if_pos delimiter
  have outside : inPartAfter inPart line = false := if_pos delimiter
  rw [actions, silent, outside]
  rfl

theorem hasOnlyFailedParts_delimited {line : Bytes} (delimiter : IsDelimiter line) (inPart saw : Bool)
    (rest : List Bytes) :
    hasOnlyFailedParts inPart saw (line :: rest) = hasOnlyFailedParts false saw rest :=
  if_pos delimiter

/-- A scan goes on behind a line unless it gives an action that is none of failure. -/
theorem hasOnlyFailedParts_cons {line : Bytes} (plain : ¬ IsDelimiter line) (inPart saw : Bool)
    (rest : List Bytes) : hasOnlyFailedParts inPart saw (line :: rest) =
      match heard inPart line with
      | none => hasOnlyFailedParts (inPartAfter inPart line) saw rest
      | some action =>
          if isFailure action then hasOnlyFailedParts (inPartAfter inPart line) true rest
          else some false := by
  rw [hasOnlyFailedParts, heard, inPartAfter, if_neg plain, if_neg plain, field_eq]
  refine (if_neg plain).trans ?_
  cases fieldOf line with
  | none => rfl
  | some parts =>
      dsimp only
      by_cases typed : named parts.1 "Content-Type" = true
      · rw [if_pos typed, if_pos typed, if_pos typed]
      · rw [if_neg typed, if_neg typed, if_neg typed]
        by_cases acts : (inPart && named parts.1 "Action") = true
        · rw [if_pos acts, if_pos acts]
          rfl
        · rw [if_neg acts, if_neg acts]

/-- A scan stops at the first action that is none of failure. -/
theorem hasOnlyFailedParts_eq (inPart saw : Bool) (given : List Bytes) :
    hasOnlyFailedParts inPart saw given =
      some ((actions inPart given).all isFailure && (saw || actions inPart given ≠ [])) := by
  induction given generalizing inPart saw with
  | nil => simp [hasOnlyFailedParts, actions]
  | cons line rest ih =>
      by_cases delimiter : IsDelimiter line
      · rw [hasOnlyFailedParts_delimited delimiter, ih, actions_delimited delimiter]
      · rw [hasOnlyFailedParts_cons delimiter, actions]
        cases heard inPart line with
        | none => exact ih _ saw
        | some action =>
            by_cases failed : isFailure action = true
            · simp [failed, ih]
            · simp [failed]

theorem hasOnlyFailedParts_decide (given : List Bytes) :
    hasOnlyFailedParts false false given = some (decide (Terminal (actions false given))) := by
  rw [hasOnlyFailedParts_eq, Option.some_inj, Bool.eq_iff_iff, decide_eq_true_iff, Terminal]
  simp [and_comm]

/-- What lines of text say. -/
def verdictOf (line : Text) : Option (Option BounceCategory) :=
  match valueBehind (Str.trim line) diagnosticFields with
  | none => some none
  | some none => none
  | some (some value) =>
      if classifyResponse value ≠ .undetermined then some (some (classifyResponse value)) else none

theorem classifyLines_eq (given : List Text) :
    classifyLines given = (given.findSome? verdictOf).getD (some .undetermined) := by
  induction given with
  | nil => rfl
  | cons line rest ih =>
      rw [classifyLines, List.findSome?_cons, verdictOf]
      cases valueBehind (Str.trim line) diagnosticFields with
      | none => rfl
      | some read =>
          cases read with
          | none => exact ih
          | some value =>
              dsimp only
              split_ifs
              · rfl
              · exact ih

theorem verdictOf_stripped (line : Text) :
    verdictOf ((Str.stripLast '\r' line).getD line) = verdictOf line := by
  rw [Str.stripLast]
  split_ifs with ends
  · obtain ⟨front, rfl⟩ := List.getLast?_eq_some_iff.mp ends
    have nothing : ∀ char ∈ ([] : Text), Str.isWhitespace char = true := by simp
    have blank : ∀ char ∈ ['\r'], Str.isWhitespace char = true := by simp [Str.isWhitespace]
    have same : Str.trim (front ++ ['\r']) = Str.trim front := Str.trim_append nothing blank
    rw [List.dropLast_concat, Option.getD_some, verdictOf, verdictOf, same]
  · rfl

/-- Line ends and an empty line at the end say nothing. -/
theorem findSome?_lines (text : Text) :
    (Octets.lines text).findSome? verdictOf = (text.splitOn '\n').findSome? verdictOf := by
  have pieces := List.splitOn_ne_nil '\n' text
  have stripped : (verdictOf ∘ fun line => (Str.stripLast '\r' line).getD line) = verdictOf :=
    funext verdictOf_stripped
  have last (line : Text) : ((some line).filter (fun line => line ≠ [])).toList.findSome? verdictOf =
      [line].findSome? verdictOf := by
    by_cases none : line = []
    · rw [none]
      rfl
    · rw [Option.filter_some_pos (by simpa using none)]
      rfl
  rw [Octets.lines, List.getLast?_eq_some_getLast pieces, List.findSome?_append, List.findSome?_map,
    stripped, last, ← List.findSome?_append, List.dropLast_append_getLast pieces]

/-- The first line that says something decides. -/
theorem classifyDsn_eq (rawMessage : Bytes) : classifyDsn rawMessage =
    ((rawMessage.splitOn LF).findSome? verdict).getD (some .undetermined) := by
  have small : LF.toNat < 0x80 := by decide
  have feed : (fromUtf8Lossy rawMessage).splitOn '\n' = (rawMessage.splitOn LF).map fromUtf8Lossy :=
    decode_splitOn rawMessage small
  rw [classifyDsn, classifyLines_eq, findSome?_lines, feed, List.findSome?_map]
  rfl

/-- Actions that a scan comes upon besides its own ones change nothing. -/
def Harmless (own others : List Bytes) : Prop :=
  (∃ action ∈ own, isFailure action = false) ∨
  (own ≠ [] ∧ ∀ action ∈ others, isFailure action = true) ∨
  (own = [] ∧ (others = [] ∨ ∃ action ∈ others, isFailure action = false))

theorem terminal_congr {left right : List Bytes} (same : ∀ action, action ∈ left ↔ action ∈ right) :
    Terminal left ↔ Terminal right := by
  have filled (given : List Bytes) : given ≠ [] ↔ ∃ action, action ∈ given :=
    ⟨List.exists_mem_of_ne_nil given, fun some => some.elim fun _ => List.ne_nil_of_mem⟩
  unfold Terminal
  rw [filled, filled]
  simp only [same]

theorem terminal_append_iff (own others : List Bytes) :
    (Terminal (own ++ others) ↔ Terminal own) ↔ Harmless own others := by
  by_cases hidden : ∃ action ∈ own, isFailure action = false
  · obtain ⟨action, member, other⟩ := hidden
    have never {more : List Bytes} : ¬ Terminal (own ++ more) := by
      intro terminal
      have failed := terminal.2 action (List.mem_append_left _ member)
      rw [other] at failed
      cases failed
    have alone : ¬ Terminal own := List.append_nil own ▸ never
    exact iff_of_true (iff_of_false never alone) (.inl ⟨action, member, other⟩)
  · have failed : ∀ action ∈ own, isFailure action = true := by simpa using hidden
    have alone : Terminal own ↔ own ≠ [] := and_iff_left failed
    have whole : Terminal (own ++ others) ↔
        (own ≠ [] ∨ others ≠ []) ∧ ∀ action ∈ others, isFailure action = true := by
      rw [Terminal, List.forall_mem_append, and_iff_right failed, ne_eq, List.append_eq_nil_iff,
        not_and_or]
    rw [alone, whole, Harmless, or_iff_right hidden]
    by_cases none : own = []
    · simp only [none, ne_eq, not_true_eq_false, false_or, iff_false, not_and]
      rw [← or_iff_not_imp_left (b := ¬ ∀ action ∈ others, isFailure action = true)]
      simp
    · simp [none]

/-- No line says that a classification is undetermined. -/
theorem verdict_ne (line : Bytes) : verdict line ≠ some (some .undetermined) := by
  unfold verdict
  split
  · simp
  · simp
  · split_ifs with decides
    · simpa using decides
    · simp

theorem findSome?_verdict_ne (given : List Bytes) :
    given.findSome? verdict ≠ some (some .undetermined) := by
  intro found
  obtain ⟨line, -, undetermined⟩ := List.exists_of_findSome?_eq_some found
  exact verdict_ne line undetermined

/-- A value is of one media type. -/
theorem contentTypeIs_unique {value first second : Text} (one : contentTypeIs value first = true)
    (other : contentTypeIs value second = true) : Str.eqIgnoreAsciiCase first second = true := by
  unfold contentTypeIs at one other
  obtain ⟨mediaType, head, same⟩ := (Option.any_eq_true _ _).mp one
  rw [head] at other
  exact beq_iff_eq.mpr ((eq_of_beq same).symm.trans (eq_of_beq other))

/-- What comes first decides, unless it is silent. -/
theorem first_iff {α : Type} {top before machine after : Option α} {nothing : α}
    (someBefore : before ≠ some nothing) (someMachine : machine ≠ some nothing)
    (someAfter : after ≠ some nothing) :
    (top.or (before.or (machine.or after))).getD nothing = (top.or machine).getD nothing ↔
      (top = none → before = none ∨ before = machine) ∧
      (top = none → before = none → machine = none → after = none) := by
  cases top with
  | some value => simp
  | none =>
      cases before with
      | none =>
          cases machine with
          | none => cases after <;> simp_all
          | some value => simp
      | some value => cases machine <;> simp_all

/-! ## Reports -/

/-- The content type that header lines give. -/
def typeOf (platform : Platform) (header : List Bytes) : Text :=
  Str.toAsciiLowercase ((((parseHeaderLines platform [] header).find? (fun field =>
    field.1 == platform.toLowercase "content-type")).map Prod.snd).getD [])

/-- A multipart report on a delivery. What is before the part for machines, the part for people with
it, and what is behind it, the message that has come back with it, is arbitrary. -/
structure Report (platform : Platform) where
  header : List Bytes
  blank : Bytes
  before : List Bytes
  delimiter : Bytes
  status : List Bytes
  ending : Bytes
  after : List Bytes
  filled : ∀ line ∈ header, stripped line ≠ []
  empty : stripped blank = []
  multipart : contentTypeIs (typeOf platform header) "multipart/report" = true
  declared : declaresDeliveryStatus (typeOf platform header) = true
  delimits : IsDelimiter delimiter
  ends : IsDelimiter ending
  unbroken : ∀ line ∈ header ++ blank :: (before ++ delimiter :: (status ++ ending :: after)), LF ∉ line

namespace Report

variable {platform : Platform} (report : Report platform)

def lines : List Bytes :=
  report.header ++ report.blank ::
    (report.before ++ report.delimiter :: (report.status ++ report.ending :: report.after))

def rawMessage : Bytes := unlines report.lines

/-- The same report with nothing but the part for machines. -/
def alone : Report platform where
  header := report.header
  blank := report.blank
  before := []
  delimiter := report.delimiter
  status := report.status
  ending := report.ending
  after := []
  filled := report.filled
  empty := report.empty
  multipart := report.multipart
  declared := report.declared
  delimits := report.delimits
  ends := report.ends
  unbroken := by
    intro line member
    refine report.unbroken line ?_
    simp only [List.mem_append, List.mem_cons, List.not_mem_nil, or_false, false_or] at member ⊢
    tauto

/-- The lines before all parts. -/
def top : List Bytes := report.header ++ [report.blank]

/-- The part for machines with its delimiters. -/
def machine : List Bytes := report.delimiter :: (report.status ++ [report.ending])

/-- The actions that are read in the report when the other parts are empty. -/
def own : List Bytes := actions false report.top ++ actions false report.machine

/-- The actions that are read in the other parts. -/
def others : List Bytes :=
  actions (inPartAfterAll false report.top) report.before ++ actions false report.after

/-- The other parts make no difference. An action that is none of failure in the part for machines
hides all others; otherwise, the others must be of failure as well, or there must be none of either
kind. A line that is classified before the part for machines must say what this part says; one behind
it must not be reached. -/
structure Undisturbed : Prop where
  actions : Harmless report.own report.others
  before : report.top.findSome? verdict = none →
    report.before.findSome? verdict = none ∨
      report.before.findSome? verdict = report.machine.findSome? verdict
  after : report.top.findSome? verdict = none → report.before.findSome? verdict = none →
    report.machine.findSome? verdict = none → report.after.findSome? verdict = none

theorem splitOn_rawMessage : report.rawMessage.splitOn LF = report.lines ++ [[]] := by
  have split := splitOn_unlines report.lines [] report.unbroken
  rwa [List.append_nil] at split

theorem lines_eq : report.lines =
    report.top ++ (report.before ++ (report.machine ++ report.after)) := by
  simp [lines, top, machine]

theorem contentType_rawMessage :
    contentType platform report.rawMessage = typeOf platform report.header := by
  have whole : parseHeaderLines platform [] (report.rawMessage.splitOn LF) =
      foldLines platform [] report.header := by
    have stop : (Str.stripLast CR report.blank).getD report.blank = [] := report.empty
    rw [splitOn_rawMessage, lines, List.append_assoc, parseHeaderLines_append report.filled,
      List.cons_append, parseHeaderLines, if_pos stop]
  have header : parseHeaderLines platform [] (report.header ++ []) =
      foldLines platform [] report.header := parseHeaderLines_append report.filled [] []
  rw [List.append_nil] at header
  rw [contentType, headerValue, parseHeaders, whole, typeOf, header]

/-- A report is one for the scan of parts. -/
theorem isFailed_rawMessage : isFailedDeliveryStatusNotification platform report.rawMessage =
    hasOnlyFailedParts false false (report.lines ++ [[]]) := by
  have other : ¬ contentTypeIs (typeOf platform report.header) "message/delivery-status" = true := by
    intro status
    exact absurd (contentTypeIs_unique report.multipart status) (by decide)
  have notified : isDeliveryStatusNotification platform report.rawMessage = some true := by
    rw [isDeliveryStatusNotification, contentType_rawMessage, if_neg other, if_pos report.multipart,
      if_pos report.declared]
  rw [isFailedDeliveryStatusNotification, notified, contentType_rawMessage]
  rw [if_neg other, if_pos report.multipart, splitOn_rawMessage]

theorem actions_lines : actions false (report.lines ++ [[]]) =
    actions false report.top ++
      (actions (inPartAfterAll false report.top) report.before ++
        (actions false report.machine ++ actions false report.after)) := by
  have reset (inPart : Bool) : actions inPart report.machine = actions false report.machine :=
    (actions_delimited report.delimits inPart _).trans (actions_delimited report.delimits false _).symm
  have outside (inPart : Bool) : inPartAfterAll inPart report.machine = false := by
    rw [machine, inPartAfterAll, ← List.cons_append, List.foldl_append]
    exact if_pos report.ends
  have empty (inPart : Bool) : actions inPart [[]] = [] := by cases inPart <;> decide
  rw [lines_eq, actions_append,
    actions_append, actions_append, actions_append, reset, outside, empty, List.append_nil]

theorem verdict_lines : (report.lines ++ [[]]).findSome? verdict =
    (report.top.findSome? verdict).or ((report.before.findSome? verdict).or
      ((report.machine.findSome? verdict).or (report.after.findSome? verdict))) := by
  have empty : [[]].findSome? verdict = none := by decide
  rw [lines_eq, List.findSome?_append, empty, Option.or_none, List.findSome?_append,
    List.findSome?_append, List.findSome?_append]

theorem failed_iff : isFailedDeliveryStatusNotification platform report.rawMessage =
    isFailedDeliveryStatusNotification platform report.alone.rawMessage ↔
      Harmless report.own report.others := by
  have whole : Terminal (actions false (report.lines ++ [[]])) ↔
      Terminal (report.own ++ report.others) := by
    refine terminal_congr (fun action => ?_)
    rw [actions_lines, own, others]
    simp only [List.mem_append]
    tauto
  have alone : actions false (report.alone.lines ++ [[]]) = report.own := by
    rw [actions_lines report.alone]
    exact congrArg (actions false report.top ++ ·) (List.append_nil _)
  rw [isFailed_rawMessage, isFailed_rawMessage, hasOnlyFailedParts_decide, hasOnlyFailedParts_decide,
    alone, Option.some_inj, decide_eq_decide, whole]
  exact terminal_append_iff _ _

theorem classified_iff : classifyDsn report.rawMessage = classifyDsn report.alone.rawMessage ↔
    (report.top.findSome? verdict = none → report.before.findSome? verdict = none ∨
      report.before.findSome? verdict = report.machine.findSome? verdict) ∧
    (report.top.findSome? verdict = none → report.before.findSome? verdict = none →
      report.machine.findSome? verdict = none → report.after.findSome? verdict = none) := by
  have alone : (report.alone.lines ++ [[]]).findSome? verdict =
      (report.top.findSome? verdict).or (report.machine.findSome? verdict) := by
    rw [verdict_lines report.alone]
    exact congrArg (Option.or _) (Option.or_none)
  rw [classifyDsn_eq, classifyDsn_eq, splitOn_rawMessage, splitOn_rawMessage, verdict_lines, alone]
  exact first_iff (findSome?_verdict_ne _) (findSome?_verdict_ne _) (findSome?_verdict_ne _)

end Report

/-- A report whose parts for people and of the returned message are given, and whose part for machines
says that the delivery has failed for good. -/
def forged (human returned : Text) : Bytes :=
  encode ("Content-Type: multipart/report; report-type=delivery-status; boundary=b\r\n\r\n" ++
    "--b\r\nContent-Type: text/plain\r\n\r\n" ++ human ++
    "\r\n--b\r\nContent-Type: message/delivery-status\r\n\r\n" ++
    "Reporting-MTA: dns; mx.example.com\r\n\r\nFinal-Recipient: rfc822; a@example.com\r\n" ++
    "Action: failed\r\nStatus: 5.1.1\r\n" ++
    "\r\n--b\r\nContent-Type: message/rfc822\r\n\r\n" ++ returned ++ "\r\n--b--\r\n")

end Camelmailer.Worker.DeliveryStatus
