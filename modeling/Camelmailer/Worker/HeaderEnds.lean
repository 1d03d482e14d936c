import Camelmailer.Worker.Dkim

/-!
# Where the header ends

Six functions cut a message into its header and its body. Three of them go through the lines and
stop at the first empty one, and one stops at the first line of carriage returns only. The other
two look for an empty line behind a line that ends like it: first for `CRLF CRLF` in the whole
message, and only if there is none for `LF LF`.

They agree on a message if and only if its first empty line is of a kind that all of them see.
-/

namespace Camelmailer

open Utf8 Lines

/-! ## The six functions -/

/-- `windows(n).position(|w| w == pattern)`. -/
def windowPosition (pattern : Bytes) : Bytes → Option Nat
  | [] => none
  | octet :: rest =>
      if pattern <+: octet :: rest then some 0
      else (windowPosition pattern rest).map (· + 1)

/-- The offset behind the first `CRLF CRLF`, or else behind the first `LF LF`. -/
def offsetBehindBlank (raw : Bytes) : Option Nat :=
  ((windowPosition [CR, LF, CR, LF] raw).map (· + 4)).or
    ((windowPosition [LF, LF] raw).map (· + 2))

def Mime.bodyOffset (raw : Bytes) : Option Nat := offsetBehindBlank raw

def Tracking.bodyOffset (rawMessage : Bytes) : Option Nat := offsetBehindBlank rawMessage

/-- The loop of the two `body_of` over the pieces that end with a line feed. -/
def behindBlankLine : List Bytes → Bytes
  | [] => []
  | piece :: rest =>
      if stripped ((Str.stripLast LF piece).getD piece) = [] then rest.flatten
      else behindBlankLine rest

def Arf.bodyOf (raw : Bytes) : Bytes := behindBlankLine (splitInclusive raw)

def Dmarc.bodyOf (raw : Bytes) : Bytes := behindBlankLine (splitInclusive raw)

/-- The octets that the loop of `parse_headers` goes through, each line with its line feed. -/
def parsedOctets : List Bytes → Nat
  | [] => 0
  | line :: rest => line.length + 1 + if stripped line = [] then 0 else parsedOctets rest

/-- Where `parse_headers` stops. -/
def parseHeadersEnd (rawMessage : Bytes) : Nat :=
  min rawMessage.length (parsedOctets (rawMessage.splitOn LF))

/-- All of them take the same octets for the body of a message. A missing offset is the end of the
message. -/
structure HeaderEndsAgree (raw : Bytes) : Prop where
  mime : (Mime.bodyOffset raw).getD raw.length = parseHeadersEnd raw
  tracking : (Tracking.bodyOffset raw).getD raw.length = parseHeadersEnd raw
  arf : Arf.bodyOf raw = raw.drop (parseHeadersEnd raw)
  dmarc : Dmarc.bodyOf raw = raw.drop (parseHeadersEnd raw)
  dkim : (Dkim.splitMessage raw).2 = raw.drop (parseHeadersEnd raw)

/-! ## The first empty line -/

/-- The complete lines before the first empty one. -/
def headerLines (raw : Bytes) : List Bytes :=
  (complete raw).takeWhile (fun line => stripped line ≠ [])

/-- The complete lines from the first empty one on. -/
def separated (raw : Bytes) : List Bytes :=
  (complete raw).dropWhile (fun line => stripped line ≠ [])

/-- What follows the first empty line. -/
def blockBody (raw : Bytes) : Bytes :=
  match separated raw with
  | [] => []
  | _ :: more => unlines more ++ unfinished raw

/-- The separator of a message is seen by all six functions. -/
structure Uniform (raw : Bytes) : Prop where
  /-- Nothing follows a header line of carriage returns only. -/
  returns : ∀ front line back, headerLines raw = front ++ line :: back →
    (∀ octet ∈ line, octet = CR) → raw = unlines (front ++ [line])
  /-- Nothing follows the first empty line, or it follows a line and ends like that: with `CRLF`
  both, or with `LF` alone and no empty line in the body follows a line with `CRLF` both. -/
  separator : ∀ line more, separated raw = line :: more → blockBody raw = [] ∨
    (line = [CR] ∧ ∃ last, (headerLines raw).getLast? = some last ∧ last.getLast? = some CR) ∨
    (line = [] ∧ headerLines raw ≠ [] ∧ ¬ [CR, LF, CR, LF] <:+: blockBody raw)

section Blank

variable {raw line : Bytes}

theorem stripped_eq_nil : stripped line = [] ↔ line = [] ∨ line = [CR] := by
  unfold stripped Str.stripLast
  constructor
  · intro empty
    split_ifs at empty with ends
    · right
      have whole := List.dropLast_append_getLast? CR ends
      rw [← whole, show line.dropLast = [] from empty, List.nil_append]
    · exact .inl empty
  · rintro (rfl | rfl) <;> rfl

theorem headerLines_filled (member : line ∈ headerLines raw) : stripped line ≠ [] := by
  simpa using List.mem_takeWhile_imp member

/-- Lines that are not empty, an empty one, and what follows it. -/
structure HeaderEnd (front : List Bytes) (line body raw : Bytes) : Prop where
  whole : raw = unlines front ++ (line ++ LF :: body)
  unbroken : ∀ line ∈ front, LF ∉ line
  filled : ∀ line ∈ front, stripped line ≠ []
  blank : stripped line = []

/-- A message without an empty line, and one with its first one. -/
theorem raw_shape (raw : Bytes) :
    (separated raw = [] ∧ headerLines raw = complete raw ∧ blockBody raw = []) ∨
      ∃ line more, separated raw = line :: more ∧ HeaderEnd (headerLines raw) line (blockBody raw) raw := by
  have split : headerLines raw ++ separated raw = complete raw :=
    List.takeWhile_append_dropWhile
  have unbroken : ∀ line ∈ headerLines raw, LF ∉ line :=
    fun line member => mem_complete (List.takeWhile_subset _ member)
  cases rest : separated raw with
  | nil =>
      rw [rest, List.append_nil] at split
      exact .inl ⟨rfl, split, by rw [blockBody, rest]⟩
  | cons line more =>
      have blank : stripped line = [] := by
        have refused := List.head?_dropWhile_not (fun line => decide (stripped line ≠ []))
          (complete raw)
        rw [show (complete raw).dropWhile _ = line :: more from rest] at refused
        simpa using refused
      refine .inr ⟨line, more, rfl, ?_, unbroken, fun line => headerLines_filled, blank⟩
      conv_lhs => rw [(stream_unfinished raw).1, ← split]
      rw [blockBody, rest]
      simp

variable {front : List Bytes} {body : Bytes}

theorem HeaderEnd.line_cases (block : HeaderEnd front line body raw) : line = [] ∨ line = [CR] :=
  stripped_eq_nil.mp block.blank

theorem blank_unbroken (blank : stripped line = []) : LF ∉ line := by
  rcases stripped_eq_nil.mp blank with rfl | rfl <;> decide

variable {before : Bytes}

/-- Where an empty line that follows a line feed can be: it is the first one, behind the header
lines, or it is in the body. -/
theorem HeaderEnd.occurrence (block : HeaderEnd front line body raw) {blank after : Bytes}
    (found : raw = before ++ LF :: (blank ++ LF :: after)) (empty : stripped blank = []) :
    (front ≠ [] ∧ blank = line ∧ after = body ∧ before ++ [LF] = unlines front) ∨
      ∃ lines, before ++ [LF] = unlines (front ++ line :: lines) ∧
        body = unlines lines ++ (blank ++ LF :: after) := by
  have own : complete raw = front ++ line :: complete body := by
    rw [block.whole, complete_unlines_append front _ block.unbroken,
      complete_line _ _ (blank_unbroken block.blank)]
  have ended : unlines (complete (before ++ [LF])) = before ++ [LF] := unlines_complete before
  have cut : complete raw = complete (before ++ [LF]) ++ blank :: complete after := by
    have whole : raw = unlines (complete (before ++ [LF])) ++ (blank ++ LF :: after) := by
      rw [ended, found]
      simp
    conv_lhs => rw [whole]
    rw [complete_unlines_append _ _ (fun line member => mem_complete member),
      complete_line _ _ (blank_unbroken empty)]
  have whole := block.whole
  rw [found, show before ++ LF :: (blank ++ LF :: after) = (before ++ [LF]) ++ (blank ++ LF :: after)
    by simp, ← ended] at whole
  -- the empty line is the first one when as many lines come before it
  have first (same : complete (before ++ [LF]) = front) (equal : blank = line) :
      front ≠ [] ∧ blank = line ∧ after = body ∧ before ++ [LF] = unlines front := by
    subst equal
    rw [same] at whole ended
    refine ⟨?_, rfl, ?_, ended.symm⟩
    · rintro rfl
      simp at ended
    · simpa using List.append_cancel_left (List.append_cancel_left whole)
  rw [own] at cut
  rcases List.append_eq_append_iff.mp cut with ⟨lines, longer, rest⟩ | ⟨lines, shorter, rest⟩
  · cases lines with
    | nil =>
        obtain ⟨equal, -⟩ := List.cons_eq_cons.mp rest
        exact .inl (first (by simpa using longer) equal.symm)
    | cons next lines =>
        obtain ⟨rfl, -⟩ := List.cons_eq_cons.mp rest
        refine .inr ⟨lines, by rw [← longer, ended], ?_⟩
        rw [longer] at whole
        simpa using whole.symm
  · cases lines with
    | nil =>
        obtain ⟨equal, -⟩ := List.cons_eq_cons.mp rest
        exact .inl (first (by simpa using shorter.symm) equal)
    | cons next lines =>
        obtain ⟨rfl, -⟩ := List.cons_eq_cons.mp rest
        exact absurd empty (block.filled _ (shorter ▸ by simp))

/-- A message without an empty line has no empty line behind a line feed. -/
theorem no_occurrence (undivided : separated raw = []) {blank after : Bytes}
    (found : raw = before ++ LF :: (blank ++ LF :: after)) : stripped blank ≠ [] := by
  intro empty
  have cut : complete raw = complete (before ++ [LF]) ++ blank :: complete after := by
    have whole : raw = unlines (complete (before ++ [LF])) ++ (blank ++ LF :: after) := by
      rw [unlines_complete, found]
      simp
    conv_lhs => rw [whole]
    rw [complete_unlines_append _ _ (fun line member => mem_complete member),
      complete_line _ _ (blank_unbroken empty)]
  have filled := List.dropWhile_eq_nil_iff.mp undivided blank (by rw [cut]; simp)
  simp [empty] at filled

/-! ## Each function -/

theorem windowPosition_spec {pattern : Bytes} (filled : pattern ≠ []) (raw : Bytes) :
    (windowPosition pattern raw = none ∧ ¬ pattern <:+: raw) ∨
      ∃ before after, windowPosition pattern raw = some before.length ∧
        raw = before ++ (pattern ++ after) ∧
        ∀ other rest, raw = other ++ (pattern ++ rest) → before.length ≤ other.length := by
  induction raw with
  | nil => exact .inl ⟨rfl, by simpa using filled⟩
  | cons octet raw ih =>
      rw [windowPosition]
      by_cases here : pattern <+: octet :: raw
      · obtain ⟨after, whole⟩ := here
        exact .inr ⟨[], after, by rw [if_pos ⟨after, whole⟩]; rfl, whole.symm, by simp⟩
      · rw [if_neg here]
        rcases ih with ⟨missing, absent⟩ | ⟨before, after, found, rfl, least⟩
        · refine .inl ⟨by rw [missing]; rfl, ?_⟩
          rw [List.infix_cons_iff]
          exact not_or.mpr ⟨here, absent⟩
        · refine .inr ⟨octet :: before, after, by rw [found]; rfl, rfl, ?_⟩
          intro other rest whole
          cases other with
          | nil => exact absurd ⟨rest, whole.symm⟩ here
          | cons first other =>
              have same := (List.cons_eq_cons.mp whole).2
              have bound := least other rest same
              simpa using bound

variable {lines : List Bytes}

/-- The loop over the pieces stops behind the first empty line. -/
theorem behindBlankLine_unlines (filled : ∀ line ∈ lines, stripped line ≠ []) (pieces : List Bytes) :
    behindBlankLine (lines.map (· ++ [LF]) ++ pieces) = behindBlankLine pieces := by
  induction lines with
  | nil => rfl
  | cons line lines ih =>
      have cut : (Str.stripLast LF (line ++ [LF])).getD (line ++ [LF]) = line := by
        simp [Str.stripLast]
      rw [List.map_cons, List.cons_append, behindBlankLine, cut,
        if_neg (filled line (List.mem_cons_self ..))]
      exact ih (fun other member => filled other (List.mem_cons_of_mem _ member))

theorem HeaderEnd.pieces (block : HeaderEnd front line body raw) : splitInclusive raw =
    front.map (· ++ [LF]) ++ (line ++ [LF]) :: splitInclusive body := by
  rw [block.whole, splitInclusive_unlines block.unbroken,
    splitInclusive_line _ _ (blank_unbroken block.blank)]

theorem undivided_pieces (undivided : headerLines raw = complete raw) : splitInclusive raw =
    (headerLines raw).map (· ++ [LF]) ++ if unfinished raw = [] then [] else [unfinished raw] := by
  obtain ⟨whole, open_⟩ := stream_unfinished raw
  conv_lhs => rw [whole]
  rw [splitInclusive_unlines (fun line member => mem_complete member),
    splitInclusive_unbroken open_, undivided]

/-- What the two `body_of` take for the body. -/
theorem behindBlankLine_body (raw : Bytes) : behindBlankLine (splitInclusive raw) = blockBody raw := by
  rcases raw_shape raw with ⟨-, undivided, nothing⟩ | ⟨line, more, divided, block⟩
  · rw [undivided_pieces undivided, behindBlankLine_unlines (fun line => headerLines_filled),
      nothing]
    split_ifs
    · rfl
    · rw [behindBlankLine]
      split_ifs <;> rfl
  · have cut : (Str.stripLast LF (line ++ [LF])).getD (line ++ [LF]) = line := by
      simp [Str.stripLast]
    rw [block.pieces, behindBlankLine_unlines block.filled, behindBlankLine, cut,
      if_pos block.blank, splitInclusive_flatten]

theorem parsedOctets_append (filled : ∀ line ∈ lines, stripped line ≠ []) (more : List Bytes) :
    parsedOctets (lines ++ more) = (unlines lines).length + parsedOctets more := by
  induction lines with
  | nil => simp
  | cons line lines ih =>
      rw [List.cons_append, parsedOctets, if_neg (filled line (List.mem_cons_self ..)),
        ih (fun other member => filled other (List.mem_cons_of_mem _ member)),
        unlines_cons, List.length_append, List.length_cons]
      omega

/-- `parse_headers` stops behind the first empty line. -/
theorem parseHeadersEnd_eq (raw : Bytes) :
    parseHeadersEnd raw = raw.length - (blockBody raw).length := by
  rcases raw_shape raw with ⟨-, undivided, nothing⟩ | ⟨line, more, divided, block⟩
  · obtain ⟨whole, open_⟩ := stream_unfinished raw
    have filled : ∀ line ∈ complete raw, stripped line ≠ [] :=
      fun line member => headerLines_filled (undivided ▸ member)
    have total : raw.length = (unlines (complete raw)).length + (unfinished raw).length := by
      conv_lhs => rw [whole]
      exact List.length_append
    have lines : raw.splitOn LF = complete raw ++ [unfinished raw] := by
      conv_lhs => rw [whole]
      rw [splitOn_unlines _ _ (fun line member => mem_complete member),
        List.splitOn_eq_singleton open_]
    have long : raw.length ≤ parsedOctets (raw.splitOn LF) := by
      rw [lines, parsedOctets_append filled, parsedOctets]
      omega
    rw [parseHeadersEnd, nothing, Nat.min_eq_left long]
    rfl
  · have total : raw.length = (unlines (headerLines raw)).length + (line.length + 1 +
        (blockBody raw).length) := by
      conv_lhs => rw [block.whole]
      simp only [List.length_append, List.length_cons]
      omega
    have lines : raw.splitOn LF = headerLines raw ++ line :: (blockBody raw).splitOn LF := by
      conv_lhs => rw [block.whole]
      rw [splitOn_unlines _ _ block.unbroken,
        List.splitOn_append_cons_self_of_not_mem (blank_unbroken block.blank)]
    rw [parseHeadersEnd, lines, parsedOctets_append block.filled, parsedOctets, if_pos block.blank]
    omega

theorem blockBody_suffix (raw : Bytes) : blockBody raw <:+ raw := by
  rcases raw_shape raw with ⟨-, -, nothing⟩ | ⟨line, more, -, block⟩
  · rw [nothing]
    exact List.nil_suffix
  · refine ⟨unlines (headerLines raw) ++ (line ++ [LF]), ?_⟩
    conv_rhs => rw [block.whole]
    simp

theorem drop_parseHeadersEnd (raw : Bytes) : raw.drop (parseHeadersEnd raw) = blockBody raw := by
  rw [parseHeadersEnd_eq]
  exact List.suffix_iff_eq_drop.mp (blockBody_suffix raw) |>.symm

/-! ## Lines of carriage returns -/

theorem returns_encoded (returns : ∀ octet ∈ line, octet = CR) :
    line = encode (List.replicate line.length '\r') := by
  induction line with
  | nil => rfl
  | cons octet line ih =>
      obtain ⟨rfl, rest⟩ := List.forall_mem_cons.mp returns
      rw [List.length_cons, List.replicate_succ, encode_cons, ← ih rest]
      rfl

/-- A line of which `split_message` leaves nothing. -/
theorem trimLineEnd_eq_nil (unbroken : LF ∉ line) :
    Dkim.trimLineEnd (fromUtf8Lossy line) = [] ↔ ∀ octet ∈ line, octet = CR := by
  rw [Dkim.trimLineEnd, List.rdropWhile_eq_nil_iff]
  constructor
  · intro ends
    have ascii : ∀ char ∈ fromUtf8Lossy line, Ascii char := by
      intro char member
      have either := ends char member
      rw [Bool.or_eq_true, decide_eq_true_eq, decide_eq_true_eq] at either
      rcases either with rfl | rfl <;> decide
    have same := (decode_eq_ascii_iff line _ ascii).mp rfl
    intro octet member
    rw [same] at member
    obtain ⟨char, there, encoded⟩ := List.mem_flatMap.mp member
    have either := ends char there
    rw [Bool.or_eq_true, decide_eq_true_eq, decide_eq_true_eq] at either
    rcases either with rfl | rfl
    · exact List.mem_singleton.mp encoded
    · refine absurd ?_ unbroken
      rw [same]
      exact List.mem_flatMap.mpr ⟨'\n', there, by decide⟩
  · intro returns
    have ascii : ∀ char ∈ List.replicate line.length '\r', Ascii char := by
      intro char member
      rw [List.eq_of_mem_replicate member]
      decide
    rw [(decode_eq_ascii_iff line _ ascii).mpr (returns_encoded returns)]
    intro char member
    rw [List.eq_of_mem_replicate member]
    rfl

/-- How many octets `split_message` reads. -/
def readOctets : List Bytes → Nat
  | [] => 0
  | piece :: rest =>
      piece.length + if Dkim.trimLineEnd (fromUtf8Lossy piece) = [] then 0 else readOctets rest

theorem splitLines_offset (pieces : List Bytes) (headers : List Text) (current : Option Text)
    (offset : Nat) :
    (Dkim.splitLines headers current offset pieces).2 = offset + readOctets pieces := by
  induction pieces generalizing headers current offset with
  | nil => rfl
  | cons piece rest ih =>
      rw [Dkim.splitLines, readOctets]
      by_cases ends : Dkim.trimLineEnd (fromUtf8Lossy piece) = []
      · rw [if_pos ends, if_pos ends]
        rfl
      · split_ifs
        · rw [ih, Nat.add_assoc]
        · rw [ih, Nat.add_assoc]

theorem splitMessage_body : (Dkim.splitMessage raw).2 = raw.drop (readOctets (splitInclusive raw)) := by
  rw [show (Dkim.splitMessage raw).2 =
    raw.drop (Dkim.splitLines [] none 0 (splitInclusive raw)).2 from rfl, splitLines_offset,
    Nat.zero_add]

theorem trimLineEnd_feed (line : Bytes) :
    Dkim.trimLineEnd (fromUtf8Lossy (line ++ [LF])) = Dkim.trimLineEnd (fromUtf8Lossy line) := by
  rw [decode_concat_ascii line LF (by decide), Dkim.trimLineEnd,
    List.rdropWhile_concat_pos _ _ _ (by decide)]
  rfl

theorem readOctets_append (unbroken : ∀ line ∈ lines, LF ∉ line)
    (visible : ∀ line ∈ lines, ¬ ∀ octet ∈ line, octet = CR) (pieces : List Bytes) :
    readOctets (lines.map (· ++ [LF]) ++ pieces) = (unlines lines).length + readOctets pieces := by
  induction lines with
  | nil => simp
  | cons line lines ih =>
      have kept : Dkim.trimLineEnd (fromUtf8Lossy (line ++ [LF])) ≠ [] := by
        rw [trimLineEnd_feed, ne_eq, trimLineEnd_eq_nil (unbroken line (List.mem_cons_self ..))]
        exact visible line (List.mem_cons_self ..)
      rw [List.map_cons, List.cons_append, readOctets, if_neg kept, ih
        (fun other member => unbroken other (List.mem_cons_of_mem _ member))
        (fun other member => visible other (List.mem_cons_of_mem _ member)), unlines_cons]
      simp only [List.length_append, List.length_cons, List.length_nil]
      omega

/-- Where a line of carriage returns only comes before an empty one, what follows it is the body
for `split_message`. -/
theorem splitMessage_returns {front back : List Bytes} {rest : Bytes}
    (visible : ∀ line ∈ front, ¬ ∀ octet ∈ line, octet = CR)
    (unbroken : ∀ other ∈ front ++ line :: back, LF ∉ other)
    (returns : ∀ octet ∈ line, octet = CR) (whole : raw = unlines (front ++ line :: back) ++ rest) :
    (Dkim.splitMessage raw).2 = unlines back ++ rest := by
  have open_ : LF ∉ line := unbroken line (by simp)
  have ends : Dkim.trimLineEnd (fromUtf8Lossy (line ++ [LF])) = [] := by
    rw [trimLineEnd_feed, trimLineEnd_eq_nil open_]
    exact returns
  have pieces : splitInclusive raw =
      front.map (· ++ [LF]) ++ (line ++ [LF]) :: splitInclusive (unlines back ++ rest) := by
    rw [whole, unlines_append, unlines_cons, List.append_assoc, splitInclusive_unlines
      (fun other member => unbroken other (List.mem_append_left _ member)), List.append_assoc,
      List.cons_append, splitInclusive_line _ _ open_]
  have split : raw = (unlines front ++ (line ++ [LF])) ++ (unlines back ++ rest) := by
    rw [whole]
    simp
  rw [splitMessage_body, pieces, readOctets_append
    (fun other member => unbroken other (List.mem_append_left _ member)) visible, readOctets,
    if_pos ends]
  conv_lhs => rw [split]
  rw [List.drop_left' (by simp)]

/-- The condition under which `split_message` takes what follows the first empty line. -/
theorem splitMessage_iff (raw : Bytes) : (Dkim.splitMessage raw).2 = blockBody raw ↔
    ∀ front line back, headerLines raw = front ++ line :: back →
      (∀ octet ∈ line, octet = CR) → raw = unlines (front ++ [line]) := by
  have unbroken : ∀ line ∈ headerLines raw, LF ∉ line :=
    fun line member => mem_complete (List.takeWhile_subset _ member)
  by_cases hidden : ∃ line ∈ headerLines raw, ∀ octet ∈ line, octet = CR
  · -- the first line of carriage returns is where `split_message` stops
    obtain ⟨first, firsts, lasts, returns, split, visible⟩ :
        ∃ line front back, (∀ octet ∈ line, octet = CR) ∧ headerLines raw = front ++ line :: back ∧
          ∀ other ∈ front, ¬ ∀ octet ∈ other, octet = CR := by
      obtain ⟨line, member, returns⟩ := hidden
      have found : ((headerLines raw).find? (fun line => line.all (· == CR))).isSome = true :=
        List.find?_isSome.mpr ⟨line, member, by simpa using returns⟩
      obtain ⟨first, found⟩ := Option.isSome_iff_exists.mp found
      obtain ⟨own, front, back, split, before⟩ := List.find?_eq_some_iff_append.mp found
      exact ⟨first, front, back, by simpa using own, split, fun other there => by
        simpa using before other there⟩
    obtain ⟨rest, whole, longer⟩ : ∃ rest, raw = unlines (headerLines raw) ++ rest ∧
        (unlines lasts ++ rest = blockBody raw ↔ unlines lasts ++ rest = []) := by
      rcases raw_shape raw with ⟨-, undivided, nothing⟩ | ⟨line, more, -, block⟩
      · exact ⟨unfinished raw, undivided ▸ (stream_unfinished raw).1, by rw [nothing]⟩
      · refine ⟨_, block.whole, ⟨fun same => ?_, fun empty => by simp at empty⟩⟩
        have bound := congrArg List.length same
        simp only [List.length_append, List.length_cons] at bound
        omega
    rw [splitMessage_returns visible (split ▸ unbroken) returns (split ▸ whole), longer]
    constructor
    · intro nothing front line back divided _
      obtain ⟨empty, ends⟩ := List.append_eq_nil_iff.mp nothing
      have last : lasts = [] := by
        cases lasts with
        | nil => rfl
        | cons line lasts => simp at empty
      subst last
      have same : front ++ [line] ++ back = firsts ++ [first] := by
        rw [← split, divided]
        simp
      rename_i returned
      have final : back = [] := by
        by_contra filled
        have inside : line ∈ firsts := by
          obtain ⟨start, octet, rfl⟩ := List.eq_nil_or_concat' back |>.resolve_left filled
          rw [← List.append_assoc] at same
          rw [← (List.append_inj' same rfl).1]
          simp
        exact visible line inside returned
      rw [final, List.append_nil] at same
      rw [same]
      conv_lhs => rw [whole, split, ends, List.append_nil]
    · intro alone
      have own := alone firsts first lasts split returns
      conv_lhs at own => rw [whole, split]
      rw [show firsts ++ first :: lasts = (firsts ++ [first]) ++ lasts by simp, unlines_append,
        List.append_assoc] at own
      exact List.append_right_eq_self.mp own
  · have visible : ∀ line ∈ headerLines raw, ¬ ∀ octet ∈ line, octet = CR :=
      fun line member returns => hidden ⟨line, member, returns⟩
    refine iff_of_true ?_ ?_
    · rcases raw_shape raw with ⟨-, undivided, nothing⟩ | ⟨line, more, -, block⟩
      · have total : raw.length = (unlines (headerLines raw)).length + (unfinished raw).length := by
          conv_lhs => rw [(stream_unfinished raw).1, ← undivided]
          exact List.length_append
        rw [splitMessage_body, undivided_pieces undivided, readOctets_append unbroken visible,
          nothing, List.drop_eq_nil_iff]
        split_ifs with ended
        · rw [total, ended]
          exact Nat.le_refl _
        · rw [readOctets]
          omega
      · have returns : ∀ octet ∈ line, octet = CR := by
          rcases block.line_cases with rfl | rfl <;> simp
        have cut : (Dkim.splitMessage raw).2 = unlines [] ++ blockBody raw := by
          refine splitMessage_returns visible ?_ returns ?_
          · intro other member
            rcases List.mem_append.mp member with header | own
            · exact unbroken other header
            · rw [List.mem_singleton.mp own]
              exact blank_unbroken block.blank
          · conv_lhs => rw [block.whole]
            simp
        exact cut.trans (by simp)
    · intro front line back split returns
      exact absurd returns (visible line (split ▸ by simp))

/-! ## The search for two line ends -/

/-- What the search takes for the body. -/
def behindOffset (raw : Bytes) : Bytes := raw.drop ((offsetBehindBlank raw).getD raw.length)

theorem offset_le (raw : Bytes) : (offsetBehindBlank raw).getD raw.length ≤ raw.length := by
  unfold offsetBehindBlank
  rcases windowPosition_spec (show [CR, LF, CR, LF] ≠ [] by simp) raw with
    ⟨missing, -⟩ | ⟨before, after, found, whole, -⟩
  · rw [missing]
    rcases windowPosition_spec (show [LF, LF] ≠ [] by simp) raw with
      ⟨none_left, -⟩ | ⟨before, after, found, whole, -⟩
    · rw [none_left]
      exact Nat.le_refl _
    · rw [found]
      conv_rhs => rw [whole]
      simp
  · rw [found]
    conv_rhs => rw [whole]
    simp

/-- What the search finds: what follows the first `CRLF CRLF`, or else the first `LF LF`, or
nothing. -/
theorem behindOffset_cases (raw : Bytes) :
    (∃ before after, raw = before ++ (CR :: LF :: ([CR] ++ LF :: after)) ∧ behindOffset raw = after ∧
      ∀ other rest, raw = other ++ (CR :: LF :: ([CR] ++ LF :: rest)) → rest.length ≤ after.length) ∨
    (¬ [CR, LF, CR, LF] <:+: raw ∧
      ((∃ before after, raw = before ++ (LF :: ([] ++ LF :: after)) ∧ behindOffset raw = after ∧
        ∀ other rest, raw = other ++ (LF :: ([] ++ LF :: rest)) → rest.length ≤ after.length) ∨
      (¬ [LF, LF] <:+: raw ∧ behindOffset raw = []))) := by
  have shorter {pattern before after other rest : Bytes}
      (whole : raw = before ++ (pattern ++ after)) (again : raw = other ++ (pattern ++ rest))
      (least : before.length ≤ other.length) : rest.length ≤ after.length := by
    have one := congrArg List.length whole
    have two := congrArg List.length again
    simp only [List.length_append] at one two
    omega
  unfold behindOffset offsetBehindBlank
  rcases windowPosition_spec (show [CR, LF, CR, LF] ≠ [] by simp) raw with
    ⟨missing, absent⟩ | ⟨before, after, found, whole, least⟩
  · right
    refine ⟨absent, ?_⟩
    rw [missing]
    rcases windowPosition_spec (show [LF, LF] ≠ [] by simp) raw with
      ⟨none_left, nowhere⟩ | ⟨before, after, found, whole, least⟩
    · right
      rw [none_left]
      exact ⟨nowhere, by simp⟩
    · left
      rw [found]
      refine ⟨before, after, whole, ?_, fun other rest again =>
        shorter whole again (least other rest again)⟩
      conv_lhs => rw [whole]
      simp [Nat.add_comm]
  · left
    rw [found]
    refine ⟨before, after, whole, ?_, fun other rest again =>
      shorter whole again (least other rest again)⟩
    conv_lhs => rw [whole]
    simp [Nat.add_comm]

theorem unlines_concat (lines : List Bytes) (last : Bytes) :
    unlines (lines ++ [last]) = (unlines lines ++ last) ++ [LF] := by
  simp

/-- Written lines whose last line feed follows a carriage return end with such a line. -/
theorem unlines_returned (same : before ++ [CR, LF] = unlines lines) : ∃ front last,
      lines = front ++ [last ++ [CR]] ∧ before = unlines front ++ last := by
  rcases List.eq_nil_or_concat' lines with rfl | ⟨front, last, rfl⟩
  · simp at same
  · rw [unlines_concat, show before ++ [CR, LF] = (before ++ [CR]) ++ [LF] by simp] at same
    have ends := List.append_cancel_right same
    rcases List.eq_nil_or_concat' last with rfl | ⟨start, octet, rfl⟩
    · rcases List.eq_nil_or_concat' front with rfl | ⟨others, other, rfl⟩
      · simp at ends
      · rw [List.append_nil, unlines_concat] at ends
        exact absurd (List.append_inj' ends rfl).2 (by decide)
    · rw [← List.append_assoc] at ends
      obtain ⟨rfl, octet_eq⟩ := List.append_inj' ends rfl
      obtain rfl : CR = octet := by simpa using octet_eq
      exact ⟨front, start, by simp, rfl⟩

/-- A place behind the first empty line leaves less than the body. -/
theorem HeaderEnd.occurrence_length (block : HeaderEnd front line body raw) {blank after : Bytes}
    (found : raw = before ++ LF :: (blank ++ LF :: after)) (empty : stripped blank = []) :
    after.length ≤ body.length ∧ (body.length ≤ after.length → after = body) := by
  rcases block.occurrence found empty with ⟨-, -, rfl, -⟩ | ⟨lines, -, inside⟩
  · exact ⟨Nat.le_refl _, fun _ => rfl⟩
  · have longer := congrArg List.length inside
    simp only [List.length_append, List.length_cons] at longer
    exact ⟨by omega, fun least => by omega⟩

/-- The search finds the separator of a block, or something else for the body. -/
theorem HeaderEnd.behindOffset_iff (block : HeaderEnd front line body raw) : behindOffset raw = body ↔
    body = [] ∨ (line = [CR] ∧ ∃ last, front.getLast? = some last ∧ last.getLast? = some CR) ∨
      (line = [] ∧ front ≠ [] ∧ ¬ [CR, LF, CR, LF] <:+: body) := by
  have inside : body <:+: raw := by
    rw [block.whole]
    exact ⟨unlines front ++ (line ++ [LF]), [], by simp⟩
  have feeds {before after : Bytes} (whole : raw = before ++ (CR :: LF :: ([CR] ++ LF :: after))) :
      raw = (before ++ [CR]) ++ LF :: ([CR] ++ LF :: after) := by
    rw [whole]
    simp
  constructor
  · intro same
    rcases behindOffset_cases raw with ⟨before, after, whole, found, -⟩ |
      ⟨absent, ⟨before, after, whole, found, -⟩ | ⟨-, nothing⟩⟩
    · obtain rfl : after = body := found.symm.trans same
      rcases block.occurrence (feeds whole) rfl with ⟨-, rfl, -, header⟩ | ⟨lines, -, longer⟩
      · right
        left
        rw [List.append_assoc] at header
        obtain ⟨others, last, rfl, -⟩ := unlines_returned header
        exact ⟨rfl, last ++ [CR], by simp, by simp⟩
      · have bound := congrArg List.length longer
        simp only [List.length_append, List.length_cons] at bound
        omega
    · obtain rfl : after = body := found.symm.trans same
      rcases block.occurrence whole rfl with ⟨header, rfl, -, -⟩ | ⟨lines, -, longer⟩
      · exact .inr (.inr ⟨rfl, header, fun again => absent (again.trans inside)⟩)
      · have bound := congrArg List.length longer
        simp only [List.length_append, List.length_cons] at bound
        omega
    · exact .inl (same.symm.trans nothing)
  · rintro (rfl | ⟨rfl, last, header, returned⟩ | ⟨rfl, header, plain⟩)
    · rcases behindOffset_cases raw with ⟨before, after, whole, found, -⟩ |
        ⟨-, ⟨before, after, whole, found, -⟩ | ⟨-, nothing⟩⟩
      · rw [found]
        exact (block.occurrence_length (feeds whole) rfl).2 (Nat.zero_le _)
      · rw [found]
        exact (block.occurrence_length whole rfl).2 (Nat.zero_le _)
      · exact nothing
    · obtain ⟨others, rfl⟩ := List.getLast?_eq_some_iff.mp header
      obtain ⟨start, rfl⟩ := List.getLast?_eq_some_iff.mp returned
      have own : raw = (unlines others ++ start) ++ (CR :: LF :: ([CR] ++ LF :: body)) := by
        rw [block.whole]
        simp
      rcases behindOffset_cases raw with ⟨before, after, whole, found, least⟩ | ⟨absent, -⟩
      · rw [found]
        exact (block.occurrence_length (feeds whole) rfl).2 (least _ _ own)
      · exact absurd ⟨unlines others ++ start, body, by rw [own]; simp⟩ absent
    · obtain ⟨others, last, rfl⟩ := (List.eq_nil_or_concat' front).resolve_left header
      have own : raw = (unlines others ++ last) ++ (LF :: ([] ++ LF :: body)) := by
        rw [block.whole]
        simp
      rcases behindOffset_cases raw with ⟨before, after, whole, -, -⟩ |
        ⟨-, ⟨before, after, whole, found, least⟩ | ⟨nowhere, -⟩⟩
      · -- an empty line behind a line with `CRLF` can only be in the body
        rcases block.occurrence (feeds whole) rfl with ⟨-, same, -, -⟩ | ⟨lines, longer, rest⟩
        · exact absurd same (by decide)
        · rw [List.append_assoc] at longer
          obtain ⟨front, start, split, -⟩ := unlines_returned longer
          rcases List.eq_nil_or_concat' lines with rfl | ⟨more, final, rfl⟩
          · have ends := (List.append_inj' split rfl).2
            simp at ends
          · rw [show (others ++ [last]) ++ [] :: (more ++ [final]) =
              ((others ++ [last]) ++ [] :: more) ++ [final] by simp] at split
            obtain rfl : final = start ++ [CR] := by simpa using (List.append_inj' split rfl).2
            exact absurd ⟨unlines more ++ start, after, by rw [rest]; simp⟩ plain
      · rw [found]
        exact (block.occurrence_length whole rfl).2 (least _ _ own)
      · exact absurd ⟨unlines others ++ last, body, by rw [own]; simp⟩ nowhere

/-- The condition under which the search takes what follows the first empty line. -/
theorem behindOffset_iff (raw : Bytes) : behindOffset raw = blockBody raw ↔
    ∀ line more, separated raw = line :: more → blockBody raw = [] ∨
      (line = [CR] ∧ ∃ last, (headerLines raw).getLast? = some last ∧ last.getLast? = some CR) ∨
      (line = [] ∧ headerLines raw ≠ [] ∧ ¬ [CR, LF, CR, LF] <:+: blockBody raw) := by
  rcases raw_shape raw with ⟨undivided, -, nothing⟩ | ⟨line, more, divided, block⟩
  · refine iff_of_true ?_ (fun line more divided => by simp [undivided] at divided)
    rw [nothing]
    rcases behindOffset_cases raw with ⟨before, after, whole, -, -⟩ |
      ⟨-, ⟨before, after, whole, -, -⟩ | ⟨-, found⟩⟩
    · have found : raw = (before ++ [CR]) ++ LF :: ([CR] ++ LF :: after) := by
        rw [whole]
        simp
      exact absurd rfl (no_occurrence undivided found)
    · exact absurd rfl (no_occurrence undivided whole)
    · exact found
  · rw [block.behindOffset_iff]
    constructor
    · intro condition other rest same
      obtain ⟨rfl, -⟩ := List.cons_eq_cons.mp (divided.symm.trans same)
      exact condition
    · intro condition
      exact condition line more divided

end Blank

/-- The six functions agree on where the header of a message ends if and only if nothing follows a
header line of carriage returns only, and the first empty line is one that all of them see. -/
theorem headerEndsAgree_iff (raw : Bytes) : HeaderEndsAgree raw ↔ Uniform raw := by
  have drops {offset : Nat} (bound : offset ≤ raw.length) :
      offset = parseHeadersEnd raw ↔ raw.drop offset = blockBody raw := by
    constructor
    · rintro rfl
      exact drop_parseHeadersEnd raw
    · intro same
      have lengths := congrArg List.length (same.trans (drop_parseHeadersEnd raw).symm)
      have within : parseHeadersEnd raw ≤ raw.length := Nat.min_le_left _ _
      simp only [List.length_drop] at lengths
      omega
  have search : (offsetBehindBlank raw).getD raw.length = parseHeadersEnd raw ↔
      behindOffset raw = blockBody raw := drops (offset_le raw)
  constructor
  · intro agree
    refine ⟨?_, (behindOffset_iff raw).mp (search.mp agree.mime)⟩
    exact (splitMessage_iff raw).mp (agree.dkim.trans (drop_parseHeadersEnd raw))
  · intro uniform
    have offset := search.mpr ((behindOffset_iff raw).mpr uniform.separator)
    have lines := (behindBlankLine_body raw).trans (drop_parseHeadersEnd raw).symm
    exact ⟨offset, offset, lines, lines,
      ((splitMessage_iff raw).mpr uniform.returns).trans (drop_parseHeadersEnd raw).symm⟩

/-- A message with `LF` line ends and `CRLF` in its body: the loops over lines take `x` for the
body, and the searches for two line ends take it for a part of the header. -/
theorem mixed_line_ends_disagree :
    Mime.bodyOffset (encode "Subject: a\n\nx\r\n\r\ny") = some 17 ∧
      parseHeadersEnd (encode "Subject: a\n\nx\r\n\r\ny") = 12 ∧
      ¬ HeaderEndsAgree (encode "Subject: a\n\nx\r\n\r\ny") := by
  refine ⟨by decide +kernel, by decide +kernel, ?_⟩
  intro agree
  exact absurd agree.mime (by decide +kernel)

end Camelmailer
