import Camelmailer.Smtp.Receiving
import Mathlib.Data.List.ModifyLast

/-!
# The header block of a message, read twice

A session reads the headers of a message line by line while it arrives. Later
components read them again from the stored octets with `parse_headers`, after the
idempotency key has been removed. Both readings are brought to the same form here: a
fold over the header lines of the message as texts.
-/

namespace Camelmailer.Smtp

open Utf8

/-! ## Texts as message lines -/

/-- Texts written one after the other, each with a CRLF line end. -/
def crlfLines (texts : List Text) : Bytes := texts.flatMap (fun text => encode text ++ Lines.CRLF)

@[simp] theorem crlfLines_cons (text : Text) (rest : List Text) :
    crlfLines (text :: rest) = encode text ++ Lines.CRLF ++ crlfLines rest := rfl

/-- A message line is one line of octets, with its carriage return. -/
theorem crlfLines_split (text : Text) (rest : List Text) (unbroken : '\n' ∉ text) :
    crlfLines (text :: rest) = (encode text ++ [Lines.CR]) ++ Lines.LF :: crlfLines rest ∧
      Lines.LF ∉ encode text ++ [Lines.CR] := by
  refine ⟨by simp [Lines.CRLF], ?_⟩
  intro member
  rcases List.mem_append.mp member with inText | isCr
  · exact unbroken (Lines.feed_mem_encode.mp inText)
  · cases List.mem_singleton.mp isCr

/-! ## The later reading -/

/-- The lines up to the first empty one. -/
def headerTexts (texts : List Text) : List Text := texts.takeWhile (· != [])

/-- `parse_headers` reads the header lines from the first to the last. -/
theorem parseHeaderLines_crlfLines (platform : Platform) (texts : List Text)
    (headers : List (Text × Text)) (unbroken : ∀ text ∈ texts, '\n' ∉ text) :
    parseHeaderLines platform headers ((crlfLines texts).splitOn Lines.LF) =
      (headerTexts texts).foldl (parseHeaderLine platform) headers := by
  induction texts generalizing headers with
  | nil => simp [crlfLines, headerTexts, parseHeaderLines, Str.stripLast]
  | cons text rest ih =>
      obtain ⟨split, line⟩ := crlfLines_split text rest (unbroken text List.mem_cons_self)
      have later : ∀ text ∈ rest, '\n' ∉ text := by
        intro other member
        exact unbroken other (List.mem_cons_of_mem text member)
      have stripped : (Str.stripLast Lines.CR (encode text ++ [Lines.CR])).getD
          (encode text ++ [Lines.CR]) = encode text := by
        simp [Str.stripLast]
      rw [split, List.splitOn_append_cons_self_of_not_mem line, parseHeaderLines, stripped]
      by_cases vacant : text = []
      · rw [vacant]
        rfl
      · rw [if_neg (fun blank => vacant (encode_eq_nil.mp blank)), ih _ later]
        simp [headerTexts, vacant]

/-! ## The removal of the idempotency key -/

/-- Whether a line continues the header before it, for the later reading. -/
def blankLed (text : Text) : Bool := text.head? == some ' ' || text.head? == some '\t'

/-- Whether a line is that of the idempotency key. -/
def keyLine (text : Text) : Bool := namesHeader (encode idempotencyHeader) (encode text)

/-- The header lines of a message, each with whether it is stored when the
idempotency key is removed. `removing` holds while lines that continue it follow. -/
def headerBlock : Bool → List Text → List (Text × Bool)
  | _, [] => []
  | removing, text :: rest =>
      if text = [] then []
      else
        let removed := if blankLed text then removing else keyLine text
        (text, !removed) :: headerBlock removed rest

/-- The lines of a block that are stored. -/
def storedTexts (block : List (Text × Bool)) : List Text := (block.filter (·.2)).map (·.1)

/-- The lines that remain, with the body. -/
def keptTexts : Bool → List Text → List Text
  | _, [] => []
  | removing, text :: rest =>
      if text = [] then text :: rest
      else
        let removed := if blankLed text then removing else keyLine text
        (if removed then [] else [text]) ++ keptTexts removed rest

theorem headerTexts_keptTexts (removing : Bool) (texts : List Text) :
    headerTexts (keptTexts removing texts) = storedTexts (headerBlock removing texts) := by
  induction texts generalizing removing with
  | nil => rfl
  | cons text rest ih =>
      unfold keptTexts headerBlock
      by_cases vacant : text = []
      · rw [vacant]
        rfl
      · rw [if_neg vacant, if_neg vacant]
        dsimp only
        cases (if blankLed text then removing else keyLine text) with
        | true =>
            rw [if_pos rfl, List.nil_append, ih]
            rfl
        | false =>
            simpa [headerTexts, storedTexts, vacant] using ih false

/-- The first octet of a text tells whether it starts with a blank or a tab. -/
theorem encode_blankLed (text : Text) :
    ((encode text).head? = some 0x20 ∨ (encode text).head? = some 0x09) ↔
      blankLed text = true := by
  cases text with
  | nil => simp [blankLed]
  | cons char rest =>
      have first (octet : UInt8) (small : octet.toNat < 0x80) :
          (encode (char :: rest)).head? = some octet ↔ char.toNat = octet.toNat := by
        rw [encode_cons]
        by_cases ascii : Ascii char
        · rw [encode_ascii char ascii, List.singleton_append, List.head?_cons, Option.some_inj,
            ← UInt8.toNat_inj, octet_value _ (Nat.lt_trans ascii (by decide))]
        · have wide : ∀ octet ∈ String.utf8EncodeChar char, 0x80 ≤ octet.toNat :=
            encode_high char ascii
          constructor
          · intro head
            cases form : String.utf8EncodeChar char with
            | nil => exact absurd form (String.utf8EncodeChar_ne_nil)
            | cons lead tail =>
                rw [form, List.cons_append, List.head?_cons, Option.some_inj] at head
                have high := wide lead (by rw [form]; exact List.mem_cons_self)
                rw [head] at high
                omega
          · intro same
            exact absurd (show char.toNat < 0x80 by omega) ascii
      rw [first 0x20 (by decide), first 0x09 (by decide)]
      unfold blankLed
      rw [List.head?_cons, Bool.or_eq_true, beq_iff_eq, beq_iff_eq, Option.some_inj,
        Option.some_inj]
      constructor
      · rintro (blank | tab)
        · exact .inl (Char.toNat_inj.mp blank)
        · exact .inr (Char.toNat_inj.mp tab)
      · rintro (rfl | rfl)
        · exact .inl rfl
        · exact .inr rfl

theorem stripHeaderLines_crlfLines (removing : Bool) (texts : List Text)
    (unbroken : ∀ text ∈ texts, '\n' ∉ text) :
    (stripHeaderLines (encode idempotencyHeader) removing
      (Lines.splitInclusive (crlfLines texts))).flatten = crlfLines (keptTexts removing texts) := by
  induction texts generalizing removing with
  | nil => rfl
  | cons text rest ih =>
      obtain ⟨split, line⟩ := crlfLines_split text rest (unbroken text List.mem_cons_self)
      have later (removed : Bool) := ih removed (fun other member =>
        unbroken other (List.mem_cons_of_mem text member))
      have content : (Str.stripLast Lines.LF (encode text ++ [Lines.CR] ++ [Lines.LF])).getD
          (encode text ++ [Lines.CR] ++ [Lines.LF]) = encode text ++ [Lines.CR] := by
        simp [Str.stripLast]
      have bare : (Str.stripLast Lines.CR (encode text ++ [Lines.CR])).getD
          (encode text ++ [Lines.CR]) = encode text := by
        simp [Str.stripLast]
      have whole (lines : List Text) : encode text ++ [Lines.CR] ++ [Lines.LF] ++ crlfLines lines =
          crlfLines (text :: lines) := by
        simp [Lines.CRLF]
      rw [split, Lines.splitInclusive_line _ _ line, stripHeaderLines, keptTexts, content, bare]
      by_cases vacant : text = []
      · rw [if_pos (encode_eq_nil.mpr vacant), if_pos vacant, List.flatten_cons,
          Lines.splitInclusive_flatten, whole]
      rw [if_neg (fun blank => vacant (encode_eq_nil.mp blank)), if_neg vacant]
      have removal (removed : Bool) : ((if removed then [] else
          [encode text ++ [Lines.CR] ++ [Lines.LF]]) ++
            stripHeaderLines (encode idempotencyHeader) removed
              (Lines.splitInclusive (crlfLines rest))).flatten =
          crlfLines ((if removed then [] else [text]) ++ keptTexts removed rest) := by
        cases removed with
        | true => simpa using later true
        | false =>
            rw [if_neg (by decide), if_neg (by decide), List.singleton_append, List.flatten_cons,
              later false, List.singleton_append, whole]
      by_cases blank : blankLed text = true
      · rw [if_pos ((encode_blankLed text).mpr blank), if_pos blank]
        exact removal removing
      · rw [if_neg (fun led => blank ((encode_blankLed text).mp led)), if_neg blank]
        exact removal (keyLine text)

/-- Both ways of storing a message leave `parse_headers` the same header lines: those
of the block that are stored, or all of them. -/
theorem parseHeaders_crlfLines (platform : Platform) (texts : List Text)
    (unbroken : ∀ text ∈ texts, '\n' ∉ text) :
    parseHeaders platform (crlfLines texts) =
      (headerTexts texts).foldl (parseHeaderLine platform) [] :=
  parseHeaderLines_crlfLines platform texts [] unbroken

theorem keptTexts_mem {removing : Bool} {texts : List Text} {text : Text}
    (member : text ∈ keptTexts removing texts) : text ∈ texts := by
  induction texts generalizing removing with
  | nil => cases member
  | cons first rest ih =>
      unfold keptTexts at member
      split at member
      · exact member
      · generalize (if blankLed first then removing else keyLine first) = removed at member
        rcases List.mem_append.mp member with own | later
        · cases removed with
          | true => cases own
          | false =>
              rw [List.mem_singleton.mp own]
              exact List.mem_cons_self
        · exact List.mem_cons_of_mem first (ih later)

theorem parseHeaders_stripped (platform : Platform) (texts : List Text)
    (unbroken : ∀ text ∈ texts, '\n' ∉ text) :
    parseHeaders platform (stripMessageHeader (crlfLines texts) (encode idempotencyHeader)) =
      (storedTexts (headerBlock false texts)).foldl (parseHeaderLine platform) [] := by
  unfold stripMessageHeader
  rw [stripHeaderLines_crlfLines false texts unbroken, parseHeaders_crlfLines platform _
    (fun text member => unbroken text (keptTexts_mem member)), headerTexts_keptTexts]

/-! ## The reading of the session -/

/-- What a session knows of the headers of the message it is receiving. -/
structure Bookkeeping where
  headers : HeaderMap
  key : Option Text
  receiving : Bool

/-- Whether a line continues the header before it, for the session. -/
def spaceLed (text : Text) : Bool := text.head?.any Str.isWhitespace

/-- The name and the value that a line starts a header with. A line without a colon
is all name. -/
def headerOf (text : Text) : Text × Text := (splitHeader text).getD (text, [])

namespace Bookkeeping

/-- The effect of one message line, dot-unstuffed. -/
def read (platform : Platform) (book : Bookkeeping) (text : Text) : Bookkeeping :=
  if book.receiving = false then book
  else if text = [] then { book with receiving := false }
  else if spaceLed text then
    match book.key with
    | none => book
    | some key => { book with headers := book.headers.extendLast (platform.toLowercase key) text }
  else
    ⟨book.headers.push (platform.toLowercase (headerOf text).1) (headerOf text).2,
      some (headerOf text).1, true⟩

/-- A session keeps these books. -/
structure Of (book : Bookkeeping) (session : Session) : Prop where
  headers : session.headers = some book.headers
  key : session.headerKey = book.key
  receiving : session.receivingHeaders = book.receiving

/-- A message line that does not end the message is entered in the books. -/
theorem Of.receiveLine (platform : Platform) {book : Bookkeeping} {session : Session}
    (kept : book.Of session) (line : Text) :
    ∃ next, receiveLine platform session line = some ⟨next, .none, []⟩ ∧
      (book.read platform (unstuff line)).Of next := by
  obtain ⟨headers, key, receiving⟩ := book
  obtain ⟨sameHeaders, sameKey, sameReceiving⟩ := kept
  unfold Smtp.receiveLine read
  dsimp only at sameHeaders sameKey sameReceiving ⊢
  rw [sameReceiving]
  cases receiving with
  | false =>
      exact ⟨_, rfl, ⟨sameHeaders, sameKey, sameReceiving⟩⟩
  | true =>
      unfold receiveHeader spaceLed
      by_cases vacant : unstuff line = []
      · rw [if_pos vacant, if_pos vacant]
        exact ⟨_, rfl, ⟨sameHeaders, sameKey, rfl⟩⟩
      rw [if_neg vacant, if_neg vacant]
      by_cases continued : (unstuff line).head?.any Str.isWhitespace = true
      · rw [if_pos continued, if_pos continued, sameKey]
        cases key with
        | none => exact ⟨_, rfl, ⟨sameHeaders, sameKey, sameReceiving⟩⟩
        | some key =>
            refine ⟨_, rfl, ⟨?_, rfl, sameReceiving⟩⟩
            exact congrArg (Option.map _) sameHeaders
      · rw [if_neg continued, if_neg continued, sameHeaders]
        exact ⟨_, rfl, ⟨rfl, rfl, sameReceiving⟩⟩

/-- Nothing is read after the headers. -/
theorem foldl_stopped (platform : Platform) (book : Bookkeeping) (texts : List Text)
    (stopped : book.receiving = false) : texts.foldl (read platform) book = book := by
  induction texts with
  | nil => rfl
  | cons text rest ih =>
      rw [List.foldl_cons, read, if_pos stopped]
      exact ih

end Bookkeeping

/-- A line after which the message is still being received has been entered. -/
theorem sessionStep_books {platform : Platform} {session next : Session} {input : LineInput}
    {response : Response} {book : Bookkeeping} (receiving : Receiving session)
    (kept : book.Of session)
    (stepped : sessionStep platform session input = some (response, next))
    (unended : next.inputMode = .data) :
    Receiving next ∧ (book.read platform (unstuff (chomp input.line))).Of next ∧
      next.data = session.data.map
        (· ++ (encode (unstuff (chomp input.line)) ++ Lines.CRLF)) := by
  have continued : ¬ Finishes session input.line := by
    intro finishes
    obtain ⟨step, dispatched, -, rfl⟩ := sessionStep_dispatch stepped
    rw [dispatch_endsMessage finishes] at dispatched
    obtain ⟨text, calls, -, rfl⟩ := finishData_concluded dispatched
    cases unended
  obtain ⟨same, swallowed, still, -, grown⟩ :=
    sessionStep_receives platform input.env input.line receiving continued
  cases swallowed.symm.trans stepped
  obtain ⟨step, dispatched, -, rfl⟩ := sessionStep_dispatch stepped
  have heard : book.Of { session with crPresent := hasCr input.line } :=
    ⟨kept.headers, kept.key, kept.receiving⟩
  obtain ⟨after, received, entered⟩ := heard.receiveLine platform (chomp input.line)
  rw [dispatch_receives platform input.env input.line receiving continued, received] at dispatched
  cases dispatched
  exact ⟨still, ⟨entered.headers, entered.key, entered.receiving⟩, grown⟩

/-- The lines of a message as the header bookkeeping sees them. -/
def messageTexts (inputs : List LineInput) : List Text :=
  inputs.map (fun input => unstuff (chomp input.line))

/-- After any number of lines the books hold all of them, and so does the message. -/
theorem run_books {platform : Platform} (inputs : List LineInput) {session final : Session}
    {events : List LineEvent} {book : Bookkeeping} (receiving : Receiving session)
    (kept : book.Of session)
    (ran : Machine.run (sessionStep platform) session inputs = some (events, final))
    (unended : ∀ event ∈ events, event.after.inputMode = .data) :
    Receiving final ∧ ((messageTexts inputs).foldl (Bookkeeping.read platform) book).Of final ∧
      final.data = session.data.map (· ++ crlfLines (messageTexts inputs)) := by
  induction inputs generalizing session events book with
  | nil =>
      obtain ⟨rfl, rfl⟩ : [] = events ∧ session = final := by simpa [Machine.run] using ran
      exact ⟨receiving, kept, by simp [messageTexts, crlfLines]⟩
  | cons input inputs ih =>
      obtain ⟨output, next, later, stepped, rest, rfl⟩ := Machine.run_cons ran
      obtain ⟨still, entered, grown⟩ := sessionStep_books receiving kept stepped
        (unended _ List.mem_cons_self)
      obtain ⟨lastly, entries, whole⟩ := ih still entered rest
        (fun event member => unended event (List.mem_cons_of_mem _ member))
      refine ⟨lastly, entries, ?_⟩
      rw [whole, grown]
      simp [messageTexts, Function.comp_def]

/-! ## The line of the idempotency key -/

/-- The name of a header ends at the first colon of its line. -/
theorem headerOf_name (text : Text) : (headerOf text).1 = text.takeWhile (· != ':') := by
  have cut (text : Text) : ((Str.splitOnce ':' text).map Prod.fst).getD text =
      text.takeWhile (· != ':') := by
    induction text with
    | nil => rfl
    | cons char rest ih =>
        unfold Str.splitOnce
        by_cases colon : char = ':'
        · rw [colon]
          rfl
        · rw [if_neg colon, List.takeWhile_cons_of_pos (by simpa using colon),
            ← ih]
          cases Str.splitOnce ':' rest <;> rfl
  unfold headerOf splitHeader
  rw [← cut text]
  cases Str.splitOnce ':' text <;> rfl

/-- A colon is the only character whose encoding contains one. -/
theorem encode_takeWhile (text : Text) :
    (encode text).takeWhile (· != 0x3A) = encode (text.takeWhile (· != ':')) := by
  induction text with
  | nil => rfl
  | cons char rest ih =>
      rw [encode_cons]
      by_cases colon : char = ':'
      · rw [colon]
        rfl
      · have foreign : ∀ octet ∈ String.utf8EncodeChar char, (octet != 0x3A) = true := by
          intro octet member
          rw [bne_iff_ne]
          rintro rfl
          exact colon (Char.toNat_inj.mp ((mem_encodeChar char 0x3A (by decide)).mp member))
        rw [List.takeWhile_append_of_pos foreign,
          List.takeWhile_cons_of_pos (by simpa using colon), ih]
        rfl

theorem octetLower_ascii (char : Char) (ascii : Ascii char) :
    octetLower (UInt8.ofNat char.toNat) = UInt8.ofNat char.toLower.toNat ∧ Ascii char.toLower := by
  have general : ∀ code < 0x80, octetLower (UInt8.ofNat code) =
      UInt8.ofNat (Char.ofNat code).toLower.toNat ∧ Ascii (Char.ofNat code).toLower := by
    decide
  simpa using general char.toNat ascii

/-- Octets that are an ASCII word in any case encode that word in any case. -/
theorem encode_octetLower {text word : Text} (ascii : ∀ char ∈ word, Ascii char)
    (same : (encode text).map octetLower = encode word) :
    (∀ char ∈ text, Ascii char) ∧ Str.toAsciiLowercase text = word := by
  induction text generalizing word with
  | nil =>
      obtain rfl : word = [] := encode_eq_nil.mp same.symm
      exact ⟨by simp, rfl⟩
  | cons char rest ih =>
      have narrow : Ascii char := by
        by_contra wide
        obtain ⟨octet, member⟩ := List.exists_mem_of_ne_nil _
          (String.utf8EncodeChar_ne_nil : String.utf8EncodeChar char ≠ [])
        have high := encode_high char wide octet member
        have kept : octetLower octet = octet := by
          unfold octetLower
          rw [if_neg]
          rintro ⟨-, low⟩
          have := UInt8.le_iff_toNat_le.mp low
          simp at this
          omega
        have image : octet ∈ encode word := by
          rw [← same, ← kept]
          exact List.mem_map_of_mem (by rw [encode_cons]; exact List.mem_append_left _ member)
        obtain ⟨letter, included, coded⟩ := List.mem_flatMap.mp image
        rw [encode_ascii letter (ascii letter included), List.mem_singleton] at coded
        rw [coded, octet_value _ (Nat.lt_trans (ascii letter included) (by decide))] at high
        exact absurd (ascii letter included) (Nat.not_lt.mpr high)
      obtain ⟨lowered, lowerAscii⟩ := octetLower_ascii char narrow
      rw [encode_cons, encode_ascii char narrow, List.singleton_append, List.map_cons,
        lowered] at same
      cases word with
      | nil => cases same
      | cons letter word =>
          have letterAscii := ascii letter List.mem_cons_self
          rw [encode_cons, encode_ascii letter letterAscii, List.singleton_append,
            List.cons.injEq] at same
          obtain ⟨first, later⟩ := same
          obtain ⟨restAscii, restLower⟩ := ih
            (fun other member => ascii other (List.mem_cons_of_mem letter member)) later
          have code := congrArg UInt8.toNat first
          rw [octet_value _ (Nat.lt_trans lowerAscii (by decide)),
            octet_value _ (Nat.lt_trans letterAscii (by decide))] at code
          refine ⟨?_, ?_⟩
          · intro other member
            rcases List.mem_cons.mp member with rfl | following
            · exact narrow
            · exact restAscii other following
          · rw [← restLower, ← Char.toNat_inj.mp code]
            rfl

/-- The line of the idempotency key starts a header of that name for the session. -/
theorem keyLine_spec (platform : Platform) {text : Text} (named : keyLine text = true) :
    platform.toLowercase (headerOf text).1 = idempotencyHeader ∧ spaceLed text = false := by
  unfold keyLine namesHeader at named
  rw [encode_takeWhile, ← headerOf_name, beq_iff_eq] at named
  have wordAscii : ∀ char ∈ idempotencyHeader, Ascii char := by
    have all : idempotencyHeader.all (fun char => decide (Ascii char)) = true := by decide
    intro char member
    exact of_decide_eq_true (List.all_eq_true.mp all char member)
  obtain ⟨ascii, lower⟩ := encode_octetLower wordAscii named
  refine ⟨(platform.toLowercase_ascii _ ascii).trans lower, ?_⟩
  cases text with
  | nil => rfl
  | cons char rest =>
      rw [headerOf_name] at lower ascii
      by_cases colon : char = ':'
      · rw [colon]
        rfl
      · rw [List.takeWhile_cons_of_pos (by simpa using colon)] at lower ascii
        have head : some char.toLower = idempotencyHeader.head? := congrArg List.head? lower
        have first : char.toLower = 'c' := Option.some.inj (head.trans (by decide))
        have general : ∀ code < 0x80, (Char.ofNat code).toLower = 'c' →
            Str.isWhitespace (Char.ofNat code) = false := by
          decide
        have narrow := ascii char List.mem_cons_self
        have dark := general char.toNat narrow (by simpa using first)
        simpa [spaceLed] using dark

end Camelmailer.Smtp
