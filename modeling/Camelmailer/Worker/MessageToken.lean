import Camelmailer.Worker.DeliveryStatus

/-!
# The correlation header

An outgoing message is given a token, by which a notification can be correlated with it. Tokens that
its sender has written into the header block are taken out. The block is gone through line by line;
seen as fields, those whose first line has one of the two names are left out, and everything else
stays as it was. Lines that continue a field which the block does not have stay as well: they come to
stand behind the token, and go with it when the header is added again.
-/

namespace Camelmailer.Worker.DeliveryStatus

open Utf8 Lines Octets Relaxed

/-! ## Adding the header -/

/-- A line without its line end. -/
def content (piece : Bytes) : Bytes := stripped ((Str.stripLast LF piece).getD piece)

/-- Whether a line begins with the name of a message token, up to its first colon. -/
def isTokenLine (line : Bytes) : Bool := (line.splitOn 0x3A).head?.any isMessageTokenHeader

/-- The loop of `add_message_token_header`. The body begins with the first empty line. -/
def keepLines : Bool → List Bytes → Bytes
  | _, [] => []
  | skipping, piece :: rest =>
      if content piece = [] then (piece :: rest).flatten
      else
        let skipping := if continues (content piece) then skipping else isTokenLine (content piece)
        (if skipping then [] else piece) ++ keepLines skipping rest

/-- The line that is added. -/
def tokenLine (token : Text) : Bytes := encode (messageTokenHeader ++ ": " ++ token) ++ CRLF

def addMessageTokenHeader (rawMessage : Bytes) (token : Text) : Bytes :=
  tokenLine token ++ keepLines false (splitInclusive rawMessage)

/-- A token of ASCII letters and digits. -/
structure Token where
  text : Text
  alphanumeric : ∀ octet ∈ encode text, isAsciiAlphanumeric octet = true

/-! ## The header block -/

def isFilled (piece : Bytes) : Bool := content piece ≠ []

/-- The lines of the header block, with their line ends. -/
def block (rawMessage : Bytes) : List Bytes := (splitInclusive rawMessage).takeWhile isFilled

/-- The lines from the first empty one on. -/
def behind (rawMessage : Bytes) : List Bytes := (splitInclusive rawMessage).dropWhile isFilled

def isFoldedLine (piece : Bytes) : Bool := continues (content piece)

def isForgery (piece : Bytes) : Bool := isTokenLine (content piece)

/-- Whether a line is skipped, given whether the one before it was. -/
def isSkipped (skipping : Bool) (piece : Bytes) : Bool :=
  if isFoldedLine piece then skipping else isForgery piece

/-- The lines of a header block that stay. -/
def kept : Bool → List Bytes → List Bytes
  | _, [] => []
  | skipping, piece :: rest =>
      (if isSkipped skipping piece then [] else [piece]) ++ kept (isSkipped skipping piece) rest

/-- The lines that continue no field of the block. -/
def orphans (rawMessage : Bytes) : List Bytes := (block rawMessage).takeWhile isFoldedLine

/-- The fields of the header block, each with the lines that continue it. -/
def fields (rawMessage : Bytes) : List (List Bytes) := fieldsOf isFoldedLine (block rawMessage)

/-- The fields without those of a message token. -/
def ownFields (rawMessage : Bytes) : List (List Bytes) :=
  (fields rawMessage).filter (fun field => !field.head?.any isForgery)

/-! ## Lines that stay -/

section Kept

variable {piece : Bytes} {lines : List Bytes}

theorem kept_folded (folded : isFoldedLine piece = true) (skipping : Bool) (rest : List Bytes) :
    kept skipping (piece :: rest) = (if skipping then [] else [piece]) ++ kept skipping rest := by
  have same : isSkipped skipping piece = skipping := if_pos folded
  rw [kept, same]

theorem kept_begins (begins : isFoldedLine piece = false) (skipping : Bool) (rest : List Bytes) :
    kept skipping (piece :: rest) =
      (if isForgery piece then [] else [piece]) ++ kept (isForgery piece) rest := by
  have fresh : isSkipped skipping piece = isForgery piece := if_neg (by simp [begins])
  rw [kept, fresh]

/-- What stays are the lines without a field and the fields of other names. -/
theorem kept_eq (skipping : Bool) (lines : List Bytes) : kept skipping lines =
    (if skipping then [] else lines.takeWhile isFoldedLine) ++
      ((fieldsOf isFoldedLine lines).filter (fun field => !field.head?.any isForgery)).flatten := by
  induction lines generalizing skipping with
  | nil => cases skipping <;> rfl
  | cons piece rest ih =>
      by_cases folded : isFoldedLine piece = true
      · rw [kept_folded folded, ih, fieldsOf, if_pos folded,
          List.takeWhile_cons_of_pos folded]
        cases skipping <;> rfl
      · rw [kept_begins (Bool.eq_false_iff.mpr folded), ih, fieldsOf, if_neg folded,
          List.takeWhile_cons_of_neg folded]
        cases forged : isForgery piece <;> simp [forged]

theorem kept_sublist (skipping : Bool) (lines : List Bytes) : (kept skipping lines).Sublist lines := by
  induction lines generalizing skipping with
  | nil => exact .slnil
  | cons piece rest ih =>
      rw [kept]
      split_ifs
      · exact (ih _).cons piece
      · exact (ih _).cons_cons piece

theorem kept_kept (skipping first : Bool) (lines : List Bytes) :
    kept skipping (kept first lines) = kept (skipping || first) lines := by
  induction lines generalizing skipping first with
  | nil => rfl
  | cons piece rest ih =>
      by_cases folded : isFoldedLine piece = true
      · rw [kept_folded folded, kept_folded folded]
        cases first with
        | true => simpa using ih skipping true
        | false =>
            rw [if_neg Bool.false_ne_true, List.singleton_append, kept_folded folded,
              ih, Bool.or_false]
      · have begins := Bool.eq_false_iff.mpr folded
        rw [kept_begins begins, kept_begins begins]
        cases forged : isForgery piece with
        | true => simpa using ih skipping true
        | false =>
            rw [if_neg Bool.false_ne_true, List.singleton_append, kept_begins begins, forged,
              ih, Bool.or_false, if_neg Bool.false_ne_true, List.singleton_append]

theorem isTokenLine_eq (line : Bytes) :
    isTokenLine line = isMessageTokenHeader ((cutAt 0x3A line).elim line Prod.fst) := by
  rw [isTokenLine]
  cases cut : cutAt 0x3A line with
  | none =>
      have absent : (0x3A : UInt8) ∉ line := by
        intro member
        obtain ⟨front, back, split, before⟩ := List.eq_append_cons_of_mem member
        rw [cutAt_eq_some.mpr ⟨split, before⟩] at cut
        cases cut
      rw [List.splitOn_eq_singleton absent]
      rfl
  | some parts =>
      obtain ⟨split, before⟩ := cutAt_eq_some.mp cut
      rw [split, List.splitOn_append_cons_self_of_not_mem before]
      rfl

theorem isMessageTokenHeader_head {name : Bytes} (header : isMessageTokenHeader name = true) :
    name.head?.map lower = some 0x78 := by
  have first {expected : Text} (same : named name expected = true) :
      name.head?.map lower = (encode expected).head?.map lower := by
    rw [← List.head?_map, ← List.head?_map, eq_of_beq same]
  rcases Bool.or_eq_true_iff.mp header with own | postal
  · exact (first own).trans (by decide)
  · exact (first postal).trans (by decide)

/-- A line with a blank before its name has another name. -/
theorem isForgery_folded (folded : isFoldedLine piece = true) : isForgery piece = false := by
  obtain ⟨blank, head, white⟩ := (Option.any_eq_true _ _).mp folded
  obtain ⟨rest, line⟩ := List.head?_eq_some_iff.mp head
  have other (name : Bytes) (starts : name.head? = some blank) : isMessageTokenHeader name = false := by
    refine Bool.eq_false_iff.mpr (fun header => ?_)
    have letter := isMessageTokenHeader_head header
    rw [starts] at letter
    rcases Bool.or_eq_true_iff.mp white with space | tab
    · rw [of_decide_eq_true space] at letter
      exact absurd letter (by decide)
    · rw [of_decide_eq_true tab] at letter
      exact absurd letter (by decide)
  rw [isForgery, isTokenLine_eq]
  cases cut : cutAt 0x3A (content piece) with
  | none => exact other _ head
  | some parts =>
      obtain ⟨split, -⟩ := cutAt_eq_some.mp cut
      refine other parts.1 ?_
      cases name : parts.1 with
      | nil =>
          rw [name, line] at split
          rw [(List.cons.inj split).1] at white
          exact absurd white (by decide)
      | cons first more =>
          rw [name, line] at split
          rw [(List.cons.inj split).1]
          rfl

theorem isForgery_kept (skipping : Bool) (lines : List Bytes) :
    ∀ piece ∈ kept skipping lines, isForgery piece = false := by
  induction lines generalizing skipping with
  | nil => simp [kept]
  | cons first rest ih =>
      by_cases folded : isFoldedLine first = true
      · rw [kept_folded folded]
        intro piece member
        rcases List.mem_append.mp member with here | later
        · cases skipping with
          | true => cases here
          | false =>
              obtain rfl := List.mem_singleton.mp here
              exact isForgery_folded folded
        · exact ih skipping piece later
      · rw [kept_begins (Bool.eq_false_iff.mpr folded)]
        intro piece member
        rcases List.mem_append.mp member with here | later
        · cases forged : isForgery first with
          | true =>
              rw [forged] at here
              cases here
          | false =>
              rw [forged] at here
              obtain rfl := List.mem_singleton.mp here
              exact forged
        · exact ih _ piece later

/-- The loop goes over the header block and leaves the rest. -/
theorem keepLines_eq (skipping : Bool) (pieces : List Bytes) : keepLines skipping pieces =
    (kept skipping (pieces.takeWhile isFilled)).flatten ++ (pieces.dropWhile isFilled).flatten := by
  induction pieces generalizing skipping with
  | nil => rfl
  | cons piece rest ih =>
      by_cases empty : content piece = []
      · have stop : ¬ isFilled piece = true := fun filled => of_decide_eq_true filled empty
        rw [keepLines, if_pos empty, List.takeWhile_cons_of_neg stop, List.dropWhile_cons_of_neg stop]
        rfl
      · have step : keepLines skipping (piece :: rest) =
            (if isSkipped skipping piece then [] else piece) ++
              keepLines (isSkipped skipping piece) rest := if_neg empty
        have filled : isFilled piece = true := decide_eq_true empty
        rw [step, List.takeWhile_cons_of_pos filled, List.dropWhile_cons_of_pos filled, kept,
          ih]
        cases isSkipped skipping piece <;> simp

end Kept

/-! ## The line that is added -/

/-- The header field without its line end. -/
def headerField (token : Text) : Bytes := encode (messageTokenHeader ++ ": " ++ token)

theorem content_ended (line : Bytes) : content (line ++ [LF]) = stripped line := by
  simp [content, Str.stripLast]

theorem stripped_ended (line : Bytes) : stripped (line ++ [CR]) = line := by
  simp [stripped, Str.stripLast]

theorem tokenLine_eq (token : Text) : tokenLine token = headerField token ++ [CR] ++ [LF] := by
  rw [List.append_assoc]
  rfl

theorem content_tokenLine (token : Text) : content (tokenLine token) = headerField token := by
  rw [tokenLine_eq, content_ended, stripped_ended]

theorem cutAt_headerField (token : Text) : cutAt 0x3A (headerField token) =
    some (encode messageTokenHeader, 0x20 :: encode token) := by
  refine cutAt_eq_some.mpr ⟨?_, by decide⟩
  rfl

theorem isForgery_tokenLine (token : Text) : isForgery (tokenLine token) = true := by
  have own : isMessageTokenHeader (encode messageTokenHeader) = true := by decide
  rw [isForgery, content_tokenLine]
  exact own

theorem headerField_starts (token : Text) : ∃ rest, headerField token = 0x58 :: rest := ⟨_, rfl⟩

theorem isFoldedLine_tokenLine (token : Text) : isFoldedLine (tokenLine token) = false := by
  have letter : isBlank 0x58 = false := by decide
  obtain ⟨rest, starts⟩ := headerField_starts token
  rw [isFoldedLine, content_tokenLine, starts]
  exact letter

theorem feed_not_mem_token (token : Token) : LF ∉ encode token.text := by
  intro member
  exact absurd (token.alphanumeric LF member) (by decide)

theorem unbroken_headerField (token : Token) : LF ∉ headerField token.text ++ [CR] := by
  have name : LF ∉ encode (messageTokenHeader ++ ": ") := by decide
  rw [headerField, encode_append, List.mem_append, List.mem_append, not_or, not_or]
  exact ⟨⟨name, feed_not_mem_token token⟩, by decide⟩

theorem splitInclusive_tokenLine (token : Token) (rest : Bytes) :
    splitInclusive (tokenLine token.text ++ rest) = tokenLine token.text :: splitInclusive rest := by
  rw [tokenLine_eq, List.append_assoc, List.singleton_append,
    splitInclusive_line _ _ (unbroken_headerField token)]

/-! ## The message with its header -/

section Added

variable (rawMessage : Bytes) (token : Token)

theorem block_behind : block rawMessage ++ behind rawMessage = splitInclusive rawMessage :=
  List.takeWhile_append_dropWhile

theorem addMessageTokenHeader_eq : addMessageTokenHeader rawMessage token.text =
    tokenLine token.text ++ (kept false (block rawMessage) ++ behind rawMessage).flatten := by
  rw [addMessageTokenHeader, keepLines_eq, List.flatten_append]
  rfl

theorem pieces_kept : Pieces (kept false (block rawMessage) ++ behind rawMessage) := by
  refine (pieces_splitInclusive rawMessage).sublist ?_
  rw [← block_behind]
  exact (kept_sublist false _).append (.refl _)

theorem splitInclusive_added : splitInclusive (addMessageTokenHeader rawMessage token.text) =
    tokenLine token.text :: (kept false (block rawMessage) ++ behind rawMessage) := by
  rw [addMessageTokenHeader_eq, splitInclusive_tokenLine, (pieces_kept rawMessage).splitInclusive_flatten]

theorem isFilled_kept {piece : Bytes} (member : piece ∈ kept false (block rawMessage)) :
    isFilled piece = true := by
  have within : piece ∈ block rawMessage := (kept_sublist false _).subset member
  exact List.mem_takeWhile_imp within

theorem isFilled_tokenLine (token : Text) : isFilled (tokenLine token) = true := by
  obtain ⟨rest, starts⟩ := headerField_starts token
  refine decide_eq_true ?_
  rw [content_tokenLine, starts]
  exact List.cons_ne_nil _ _

theorem block_added : block (addMessageTokenHeader rawMessage token.text) =
    tokenLine token.text :: kept false (block rawMessage) := by
  have empty : (behind rawMessage).takeWhile isFilled = [] := by
    have split : (behind rawMessage).takeWhile isFilled ++ (behind rawMessage).dropWhile isFilled =
      behind rawMessage := List.takeWhile_append_dropWhile
    have same : (behind rawMessage).dropWhile isFilled = behind rawMessage :=
      List.dropWhile_idempotent _ _
    rw [same] at split
    exact List.append_left_eq_self.mp split
  rw [block, splitInclusive_added, List.takeWhile_cons_of_pos (isFilled_tokenLine _),
    List.takeWhile_append_of_pos (fun piece => isFilled_kept rawMessage), empty, List.append_nil]

theorem behind_added : behind (addMessageTokenHeader rawMessage token.text) = behind rawMessage := by
  have whole := block_behind (addMessageTokenHeader rawMessage token.text)
  rw [splitInclusive_added, block_added] at whole
  exact List.append_cancel_left (List.cons.inj whole).2

/-- What is added is taken out when it is added again, with the lines that have come to continue it. -/
theorem added_twice : addMessageTokenHeader (addMessageTokenHeader rawMessage token.text) token.text =
    tokenLine token.text ++ (kept true (block rawMessage) ++ behind rawMessage).flatten := by
  rw [addMessageTokenHeader_eq, block_added, behind_added,
    kept_begins (isFoldedLine_tokenLine token.text), isForgery_tokenLine, kept_kept]
  rfl

end Added

/-! ## Reading the token -/

theorem trimAscii_spaced {word : Bytes} (visible : ∀ octet ∈ word, isAsciiAlphanumeric octet = true) :
    trimAscii (0x20 :: word) = word := by
  have dark : ∀ octet ∈ word, ¬ isAsciiWhitespace octet = true := by
    intro octet member white
    have code := visible octet member
    simp only [isAsciiWhitespace, Bool.or_eq_true, decide_eq_true_eq] at white
    rcases white with (((rfl | rfl) | rfl) | rfl) | rfl <;> exact absurd code (by decide)
  have space : isAsciiWhitespace 0x20 = true := by decide
  rw [trimAscii, List.dropWhile_cons_of_pos space, List.dropWhile_eq_self_iff.mpr
    (fun some => dark _ (List.getElem_mem some)), List.rdropWhile_eq_self_iff.mpr
    (fun some => dark _ (List.getLast_mem some))]

theorem collectTokens_unforged {line : Bytes} (other : isTokenLine (stripped line) = false)
    (tokens : List Text) (rest : List Bytes) :
    collectTokens tokens (line :: rest) = collectTokens tokens rest := by
  rw [collectTokens, partsAt_eq]
  rw [isTokenLine_eq] at other
  cases cut : cutAt 0x3A (stripped line) with
  | none => rfl
  | some parts =>
      rw [cut] at other
      exact if_neg (Bool.eq_false_iff.mp other)

/-- Lines of other names give no token. -/
theorem collectTokens_pieces {pieces : List Bytes} (cut : Pieces pieces)
    (others : ∀ piece ∈ pieces, isForgery piece = false) (tokens : List Text) :
    collectTokens tokens (pieces.flatten.splitOn LF) = some tokens := by
  induction pieces with
  | nil =>
      rfl
  | cons piece rest ih =>
      obtain ⟨other, later⟩ := List.forall_mem_cons.mp others
      obtain ⟨ends, ended⟩ := List.pairwise_cons.mp cut.ended
      obtain ⟨⟨some, inside⟩, whole⟩ := List.forall_mem_cons.mp cut.whole
      obtain ⟨line, last, rfl⟩ := (List.eq_nil_or_concat' piece).resolve_left some
      rw [List.dropLast_concat] at inside
      by_cases feed : last = LF
      · rw [feed, isForgery, content_ended] at other
        rw [feed, List.flatten_cons, List.append_assoc, List.singleton_append,
          List.splitOn_append_cons_self_of_not_mem inside, collectTokens_unforged other]
        exact ih ⟨ended, whole⟩ later
      · have alone : rest = [] := by
          refine List.eq_nil_iff_forall_not_mem.mpr (fun other member => feed ?_)
          simpa using ends other member
        have unbroken : LF ∉ line ++ [last] := by simp [inside, Ne.symm feed]
        have same : content (line ++ [last]) = stripped (line ++ [last]) := by
          simp [content, Str.stripLast, feed]
        rw [isForgery, same] at other
        rw [alone, List.flatten_singleton, List.splitOn_eq_singleton unbroken,
          collectTokens_unforged other]
        rfl

/-- The header block of a message gives the token that was added, if it is one that can be read. -/
theorem originalMessageTokens_added (rawMessage : Bytes) (token : Token) :
    originalMessageTokens (block (addMessageTokenHeader rawMessage token.text)).flatten =
      some (if token.text = [] ∨ 64 < (encode token.text).length then [] else [token.text]) := by
  have own : isMessageTokenHeader (encode messageTokenHeader) = true := by decide
  have cut : Pieces (kept false (block rawMessage)) :=
    (pieces_kept rawMessage).sublist (List.sublist_append_left _ _)
  have later := collectTokens_pieces cut (isForgery_kept false _)
  have word : (trimAscii (0x20 :: encode token.text)).takeWhile isAsciiAlphanumeric =
      encode token.text := by
    rw [trimAscii_spaced token.alphanumeric, List.takeWhile_eq_self_iff]
    exact token.alphanumeric
  rw [originalMessageTokens, block_added, List.flatten_cons, tokenLine_eq, List.append_assoc,
    List.singleton_append, List.splitOn_append_cons_self_of_not_mem (unbroken_headerField token),
    collectTokens, stripped_ended, partsAt_eq, cutAt_headerField]
  dsimp only
  rw [word, fromUtf8_alphanumeric token.alphanumeric, decode_encode]
  dsimp only
  rw [later, later, if_neg List.not_mem_nil]
  simp only [encode_eq_nil]
  split_ifs <;> rfl

theorem takeWhile_fieldsOf (lines : List Bytes) :
    lines.takeWhile isFoldedLine ++ (fieldsOf isFoldedLine lines).flatten = lines := by
  induction lines with
  | nil => rfl
  | cons piece rest ih =>
      by_cases folded : isFoldedLine piece = true
      · rw [List.takeWhile_cons_of_pos folded, fieldsOf, if_pos folded, List.cons_append,
          ih]
      · rw [List.takeWhile_cons_of_neg folded, fieldsOf, if_neg folded, List.flatten_cons,
          List.nil_append, List.cons_append, ih]

/-- The correlation header can be relied on: it is the first line and the only one with a message
token, its token is the one that is read, every field of other names stays as it is, and what stays
of a message whose lines all have a field does not change when the header is added again. -/
theorem correlation_header_trusted (rawMessage : Bytes) (token : Token) :
    (block (addMessageTokenHeader rawMessage token.text)).head? = some (tokenLine token.text) ∧
    (block (addMessageTokenHeader rawMessage token.text)).filter isForgery = [tokenLine token.text] ∧
    originalMessageTokens (block (addMessageTokenHeader rawMessage token.text)).flatten =
      some (if token.text = [] ∨ 64 < (encode token.text).length then [] else [token.text]) ∧
    rawMessage = (orphans rawMessage).flatten ++ (fields rawMessage).flatten.flatten ++
      (behind rawMessage).flatten ∧
    addMessageTokenHeader rawMessage token.text = tokenLine token.text ++
      ((orphans rawMessage).flatten ++ (ownFields rawMessage).flatten.flatten ++
        (behind rawMessage).flatten) ∧
    addMessageTokenHeader (addMessageTokenHeader rawMessage token.text) token.text =
      tokenLine token.text ++
        ((ownFields rawMessage).flatten.flatten ++ (behind rawMessage).flatten) ∧
    (addMessageTokenHeader (addMessageTokenHeader rawMessage token.text) token.text =
      addMessageTokenHeader rawMessage token.text ↔ orphans rawMessage = []) := by
  have split : rawMessage = (orphans rawMessage).flatten ++ (fields rawMessage).flatten.flatten ++
      (behind rawMessage).flatten := by
    rw [← List.flatten_append, orphans, fields, takeWhile_fieldsOf, ← List.flatten_append,
      block_behind, splitInclusive_flatten]
  have once : addMessageTokenHeader rawMessage token.text = tokenLine token.text ++
      ((orphans rawMessage).flatten ++ (ownFields rawMessage).flatten.flatten ++
        (behind rawMessage).flatten) := by
    rw [addMessageTokenHeader_eq, kept_eq]
    simp [orphans, ownFields, fields]
  have twice : addMessageTokenHeader (addMessageTokenHeader rawMessage token.text) token.text =
      tokenLine token.text ++
        ((ownFields rawMessage).flatten.flatten ++ (behind rawMessage).flatten) := by
    rw [added_twice, kept_eq]
    simp [ownFields, fields]
  refine ⟨?_, ?_, originalMessageTokens_added rawMessage token, split, once, twice, ?_⟩
  · rw [block_added]
    rfl
  · rw [block_added, List.filter_cons_of_pos (isForgery_tokenLine _), List.filter_eq_nil_iff.mpr]
    intro piece member
    simp [isForgery_kept false _ piece member]
  · have some : ∀ piece ∈ orphans rawMessage, piece ≠ [] := by
      intro piece member
      have within : piece ∈ splitInclusive rawMessage :=
        (List.takeWhile_subset _) ((List.takeWhile_subset _) member)
      exact ((pieces_splitInclusive rawMessage).whole piece within).1
    rw [twice, once, List.append_cancel_left_eq, List.append_assoc, eq_comm,
      List.append_left_eq_self, List.flatten_eq_nil_iff]
    constructor
    · intro empty
      exact List.eq_nil_iff_forall_not_mem.mpr (fun piece member =>
        some piece member (empty piece member))
    · intro none
      simp [none]

/-- A first line with a blank before it comes to continue the header that is added, and an empty token
is not read. -/
theorem orphan_is_dropped :
    addMessageTokenHeader (addMessageTokenHeader (encode " x") "t") "t" ≠
      addMessageTokenHeader (encode " x") "t" ∧
    originalMessageTokens (block (addMessageTokenHeader [] [])).flatten = some [] := by
  decide

end Camelmailer.Worker.DeliveryStatus
