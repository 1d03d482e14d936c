import Camelmailer.Smtp.FromHeader
import Mathlib.Data.Set.Function

/-!
# The removal of the idempotency key

A session takes the idempotency key from the headers as it reads them, and removes the header from
the finished message by another reading of its octets. The two disagree on which lines belong to
the header: the session compares names in Unicode lower case and takes any white space for a
continuation, the removal compares ASCII letters and knows blanks and tabs only.

The hash of the request is one of the envelope and of what is left of the client's content. What
is hashed determines all of it.
-/

namespace Camelmailer.Smtp

open Utf8

/-! ## The lines that belong to the header -/

section Counted

variable (platform : Platform)

/-- Whether a line belongs to the header of the idempotency key for the session. `counting` holds
while the last header line was one. -/
def countsLine (counting : Bool) (text : Text) : Bool :=
  if spaceLed text then counting
  else platform.toLowercase (headerOf text).1 == idempotencyHeader

/-- The lines of the header of the idempotency key, for the session. -/
def countedTexts : Bool → List Text → List Text
  | _, [] => []
  | counting, text :: rest =>
      if text = [] then []
      else
        (if countsLine platform counting text then [text] else []) ++
          countedTexts (countsLine platform counting text) rest

/-- The lines that do not belong to the header, with the body. -/
def uncountedTexts : Bool → List Text → List Text
  | _, [] => []
  | counting, text :: rest =>
      if text = [] then text :: rest
      else
        (if countsLine platform counting text then [] else [text]) ++
          uncountedTexts (countsLine platform counting text) rest

/-- The values that some lines of one header are read as. -/
def valuesOf (values : List Text) (texts : List Text) : List Text :=
  texts.foldl (fun values text => if spaceLed text then values.modifyLast (· ++ text)
    else values ++ [(headerOf text).2]) values

variable {platform}

/-- Whether the header that was read last is that of the idempotency key. -/
def Bookkeeping.counting (platform : Platform) (book : Bookkeeping) : Bool :=
  book.key.map platform.toLowercase == some idempotencyHeader

variable {book : Bookkeeping} {text : Text}

/-- What one line adds to what a session keeps under the name of the idempotency key. -/
theorem Bookkeeping.read_counted (receiving : book.receiving = true) (visible : text ≠ []) :
    (book.read platform text).counting platform = countsLine platform (book.counting platform) text ∧
      (book.read platform text).headers.values idempotencyHeader =
        valuesOf (book.headers.values idempotencyHeader)
          (if countsLine platform (book.counting platform) text then [text] else []) := by
  cases led : spaceLed text with
  | true =>
      rw [Bookkeeping.read_continuation receiving visible led, countsLine, if_pos led]
      refine ⟨rfl, ?_⟩
      obtain ⟨headers, key, reading⟩ := book
      cases key with
      | none => rfl
      | some key =>
          by_cases named : platform.toLowercase key = idempotencyHeader
          · have counted : Bookkeeping.counting platform ⟨headers, some key, reading⟩ = true := by
              simp [counting, named]
            rw [if_pos counted, valuesOf, List.foldl_cons, if_pos led]
            dsimp only
            rw [named, HeaderMap.values_extendLast_self]
            rfl
          · have uncounted : ¬Bookkeeping.counting platform ⟨headers, some key, reading⟩ = true := by
              simpa [counting] using named
            rw [if_neg uncounted]
            exact HeaderMap.values_extendLast_of_ne _ _ text (Ne.symm named)
  | false =>
      have start : ¬spaceLed text = true := Bool.eq_false_iff.mp led
      rw [Bookkeeping.read_header receiving visible led, countsLine, if_neg start]
      refine ⟨by simp [counting], ?_⟩
      by_cases named : platform.toLowercase (headerOf text).1 = idempotencyHeader
      · rw [if_pos (beq_iff_eq.mpr named), valuesOf, List.foldl_cons, if_neg start]
        rw [named, HeaderMap.values_push_self]
        rfl
      · rw [if_neg (fun same => named (beq_iff_eq.mp same))]
        exact HeaderMap.values_push_of_ne _ _ _ (Ne.symm named)

/-- What a session keeps under the name of the idempotency key comes from the lines that belong to
the header. -/
theorem counted_values (texts : List Text) (receiving : book.receiving = true) :
    (texts.foldl (Bookkeeping.read platform) book).headers.values idempotencyHeader =
      valuesOf (book.headers.values idempotencyHeader)
        (countedTexts platform (book.counting platform) texts) := by
  induction texts generalizing book with
  | nil => rfl
  | cons text rest ih =>
      rw [List.foldl_cons, countedTexts]
      by_cases vacant : text = []
      · rw [vacant, Bookkeeping.read_end platform receiving,
          Bookkeeping.foldl_stopped platform _ rest rfl]
        rfl
      obtain ⟨counting, values⟩ := Bookkeeping.read_counted receiving vacant
      rw [if_neg vacant, ih (Bookkeeping.read_receiving platform receiving vacant),
        counting, values, valuesOf, valuesOf, valuesOf, List.foldl_append]

/-! ## Where the removal finds the same lines -/

/-- The removal takes a line for one of the header where it follows such a line or starts one. -/
def Recognised (text : Text) : Prop := blankLed text = true ∨ keyLine text = true

/-- Whether a line is removed. -/
def removesLine (removing : Bool) (text : Text) : Bool := if blankLed text then removing else keyLine text

/-- What is removed belongs to the header. -/
theorem countsLine_of_removesLine {removing counting : Bool}
    (fewer : removing = true → counting = true) (removed : removesLine removing text = true) :
    countsLine platform counting text = true := by
  unfold removesLine at removed
  unfold countsLine
  by_cases blank : blankLed text = true
  · rw [if_pos blank] at removed
    rw [if_pos (spaceLed_of_blankLed blank)]
    exact fewer removed
  · rw [if_neg blank] at removed
    obtain ⟨named, start⟩ := keyLine_spec platform removed
    rw [if_neg (Bool.eq_false_iff.mp start)]
    exact beq_iff_eq.mpr named

theorem length_uncountedTexts (texts : List Text) {removing counting : Bool}
    (fewer : removing = true → counting = true) :
    (uncountedTexts platform counting texts).length ≤ (keptTexts removing texts).length := by
  induction texts generalizing removing counting with
  | nil => exact Nat.le_refl _
  | cons text rest ih =>
      rw [uncountedTexts, keptTexts]
      by_cases vacant : text = []
      · rw [if_pos vacant, if_pos vacant]
      rw [if_neg vacant, if_neg vacant]
      change _ ≤ ((if removesLine removing text then [] else [text]) ++
        keptTexts (removesLine removing text) rest).length
      have still : removesLine removing text = true → countsLine platform counting text = true :=
        countsLine_of_removesLine fewer
      have rest_ := ih still
      rw [List.length_append, List.length_append]
      refine Nat.add_le_add ?_ rest_
      cases removed : removesLine removing text with
      | true =>
          rw [if_pos (still removed)]
          exact Nat.le_refl _
      | false =>
          rw [if_neg Bool.false_ne_true]
          split_ifs <;> simp

theorem removesLine_of_recognised {counting : Bool} (recognised : Recognised text)
    (counted : countsLine platform counting text = true) : removesLine counting text = true := by
  unfold removesLine
  by_cases blank : blankLed text = true
  · rw [countsLine, if_pos (spaceLed_of_blankLed blank)] at counted
    rw [if_pos blank]
    exact counted
  · rw [if_neg blank]
    exact recognised.resolve_left blank

theorem recognised_of_removesLine {removing : Bool} (removed : removesLine removing text = true) :
    Recognised text := by
  by_cases blank : blankLed text = true
  · exact .inl blank
  · rw [removesLine, if_neg blank] at removed
    exact .inr removed

/-- The removal leaves the lines that do not belong to the header if and only if it recognises those
that do. -/
theorem keptTexts_eq_iff (texts : List Text) (counting : Bool) :
    keptTexts counting texts = uncountedTexts platform counting texts ↔
      ∀ text ∈ countedTexts platform counting texts, Recognised text := by
  induction texts generalizing counting with
  | nil => exact iff_of_true rfl (fun _ member => absurd member List.not_mem_nil)
  | cons text rest ih =>
      rw [uncountedTexts, keptTexts, countedTexts]
      by_cases vacant : text = []
      · rw [if_pos vacant, if_pos vacant, if_pos vacant]
        exact iff_of_true rfl (fun _ member => absurd member List.not_mem_nil)
      rw [if_neg vacant, if_neg vacant, if_neg vacant]
      change (if removesLine counting text then [] else [text]) ++
        keptTexts (removesLine counting text) rest = _ ↔ _
      cases counted : countsLine platform counting text with
      | false =>
          have left : removesLine counting text = false := by
            by_contra removed
            have own : countsLine platform counting text = true :=
              countsLine_of_removesLine id (Bool.of_not_eq_false removed)
            rw [counted] at own
            cases own
          rw [left, List.append_right_inj,
            ih]
          rfl
      | true =>
          rw [if_pos rfl, if_pos rfl]
          cases removed : removesLine counting text with
          | true =>
              rw [if_pos rfl, List.nil_append, List.nil_append, ih,
                List.singleton_append, List.forall_mem_cons]
              exact (and_iff_right (recognised_of_removesLine removed)).symm
          | false =>
              -- the line stays, and what follows does not make up for it
              rw [if_neg Bool.false_ne_true]
              refine iff_of_false ?_ ?_
              · intro same
                have lengths := congrArg List.length same
                have fewer : (uncountedTexts platform true rest).length ≤ (keptTexts false rest).length :=
                  length_uncountedTexts rest (fun _ => rfl)
                rw [List.length_append, List.length_append, List.length_singleton,
                  List.length_nil] at lengths
                omega
              · intro all
                have recognised := all text (List.mem_append_left _ (List.mem_singleton_self _))
                rw [removesLine_of_recognised recognised counted] at removed
                cases removed

end Counted

/-! ## The octets of the message -/

theorem complete_crlfLines (texts : List Text) (unbroken : ∀ text ∈ texts, '\n' ∉ text) :
    Lines.complete (crlfLines texts) = texts.map (fun text => encode text ++ [Lines.CR]) := by
  induction texts with
  | nil => rfl
  | cons text rest ih =>
      obtain ⟨split, line⟩ := crlfLines_split text rest (unbroken text List.mem_cons_self)
      rw [split, Lines.complete_line _ _ line, ih
        (fun other member => unbroken other (List.mem_cons_of_mem text member))]
      rfl

variable {texts : List Text}

/-- Message lines are determined by their octets. -/
theorem crlfLines_injective {others : List Text} (unbroken : ∀ text ∈ texts, '\n' ∉ text)
    (unbroken_ : ∀ text ∈ others, '\n' ∉ text) (same : crlfLines texts = crlfLines others) :
    texts = others := by
  have lines := complete_crlfLines texts unbroken
  rw [same, complete_crlfLines others unbroken_] at lines
  refine List.map_injective_iff.mpr ?_ lines.symm
  exact fun text other equal => encode_injective (List.append_cancel_right equal)

variable {platform : Platform}

theorem uncountedTexts_mem {counting : Bool} {text : Text}
    (member : text ∈ uncountedTexts platform counting texts) : text ∈ texts := by
  induction texts generalizing counting with
  | nil => cases member
  | cons first rest ih =>
      rw [uncountedTexts] at member
      split_ifs at member
      · exact member
      · exact List.mem_cons_of_mem first (ih (by simpa using member))
      · rcases List.mem_cons.mp member with rfl | later
        · exact List.mem_cons_self
        · exact List.mem_cons_of_mem first (ih later)

/-- The trace headers stay. -/
theorem keptTexts_foreign (headers : List (Text × Text)) (texts : List Text)
    (foreign : ∀ header ∈ headers, ForeignName platform header.1) :
    keptTexts false (headers.map headerText ++ texts) =
      headers.map headerText ++ keptTexts false texts := by
  induction headers with
  | nil => rfl
  | cons header rest ih =>
      have own := foreign header List.mem_cons_self
      obtain ⟨char, tail, shape, -⟩ := own.head
      have visible : headerText header ≠ [] := by
        rw [shape]
        exact List.cons_ne_nil _ _
      rw [List.map_cons, List.cons_append, keptTexts, if_neg visible, own.blankLed, own.keyLine]
      exact congrArg (List.cons _) (ih
        (fun other member => foreign other (List.mem_cons_of_mem header member)))

/-! ## The hash of the request -/

/-- A part of what is hashed, with its length in front. -/
def hashedPart (octets : Bytes) : Bytes := lengthOctets octets.length ++ octets

/-- What is hashed for a request. -/
def hashedRequest (mailFrom : Text) (recipients : List Text) (clientData : Bytes) : Bytes :=
  hashedPart (encode mailFrom) ++ (lengthOctets recipients.length ++
    (recipients.flatMap (fun recipient => hashedPart (encode recipient)) ++ hashedPart clientData))

theorem smtpRequestHash_eq (platform : Platform) (mailFrom : Text) (recipients : List Recipient)
    (clientData : Bytes) : smtpRequestHash platform mailFrom recipients clientData =
      sha256Hex platform (hashedRequest mailFrom (recipients.map (·.rcptTo)) clientData) := by
  simp [smtpRequestHash, hashedRequest, hashedPart, List.flatMap_map]

/-- The lengths fit into the octets that they are written in, as those of all texts and slices in
memory do. -/
structure Addressable (mailFrom : Text) (recipients : List Text) (clientData : Bytes) : Prop where
  mailFrom : (encode mailFrom).length < 2 ^ 64
  count : recipients.length < 2 ^ 64
  recipients : ∀ recipient ∈ recipients, (encode recipient).length < 2 ^ 64
  clientData : clientData.length < 2 ^ 64

theorem lengthOctets_injective {length other : Nat} (fits : length < 2 ^ 64) (fits_ : other < 2 ^ 64)
    (same : lengthOctets length = lengthOctets other) : length = other := by
  have octets (index : Nat) (within : index < 8) :
      length / 256 ^ (7 - index) % 256 = other / 256 ^ (7 - index) % 256 := by
    have entry := congrArg (fun octets => octets[index]?.map UInt8.toNat) same
    simpa [lengthOctets, within] using entry
  have first := octets 0 (by decide)
  have second := octets 1 (by decide)
  have third := octets 2 (by decide)
  have fourth := octets 3 (by decide)
  have fifth := octets 4 (by decide)
  have sixth := octets 5 (by decide)
  have seventh := octets 6 (by decide)
  have eighth := octets 7 (by decide)
  norm_num at first second third fourth fifth sixth seventh eighth fits fits_
  omega

theorem lengthOctets_append {length other : Nat} (fits : length < 2 ^ 64) (fits_ : other < 2 ^ 64)
    {rest more : Bytes} (same : lengthOctets length ++ rest = lengthOctets other ++ more) :
    length = other ∧ rest = more := by
  have sizes : (lengthOctets length).length = (lengthOctets other).length := by simp [lengthOctets]
  obtain ⟨octets, behind⟩ := List.append_inj same sizes
  exact ⟨lengthOctets_injective fits fits_ octets, behind⟩

/-- A part can be told from what follows it. -/
theorem hashedPart_append {octets others rest more : Bytes} (fits : octets.length < 2 ^ 64)
    (fits_ : others.length < 2 ^ 64) (same : hashedPart octets ++ rest = hashedPart others ++ more) :
    octets = others ∧ rest = more := by
  obtain ⟨length, behind⟩ := lengthOctets_append fits fits_ same
  exact List.append_inj behind length

theorem hashedParts_append {others : List Text} {rest more : Bytes}
    (count : texts.length = others.length) (fits : ∀ text ∈ texts, (encode text).length < 2 ^ 64)
    (fits_ : ∀ text ∈ others, (encode text).length < 2 ^ 64)
    (same : texts.flatMap (fun text => hashedPart (encode text)) ++ rest =
      others.flatMap (fun text => hashedPart (encode text)) ++ more) :
    texts = others ∧ rest = more := by
  induction texts generalizing others with
  | nil =>
      obtain rfl : others = [] := List.eq_nil_of_length_eq_zero count.symm
      exact ⟨rfl, same⟩
  | cons text texts ih =>
      cases others with
      | nil => cases count
      | cons other others =>
          rw [List.flatMap_cons, List.flatMap_cons, List.append_assoc, List.append_assoc] at same
          obtain ⟨first, behind⟩ := hashedPart_append (fits text List.mem_cons_self)
            (fits_ other List.mem_cons_self) same
          obtain ⟨rfl, rest⟩ := ih (Nat.succ.inj count)
            (fun text member => fits text (List.mem_cons_of_mem _ member))
            (fun text member => fits_ text (List.mem_cons_of_mem _ member)) behind
          exact ⟨by rw [encode_injective first], rest⟩

/-- What is hashed determines the sender, the recipients and the content. -/
theorem hashedRequest_injective {mailFrom sender : Text} {recipients others : List Text}
    {clientData content : Bytes} (addressable : Addressable mailFrom recipients clientData)
    (addressable_ : Addressable sender others content)
    (same : hashedRequest mailFrom recipients clientData = hashedRequest sender others content) :
    mailFrom = sender ∧ recipients = others ∧ clientData = content := by
  obtain ⟨first, behind⟩ := hashedPart_append addressable.mailFrom addressable_.mailFrom same
  obtain ⟨count, parts⟩ := lengthOctets_append addressable.count addressable_.count behind
  obtain ⟨recipients, last⟩ := hashedParts_append count addressable.recipients
    addressable_.recipients parts
  refine ⟨encode_injective first, recipients, ?_⟩
  rw [← List.append_nil (hashedPart clientData), ← List.append_nil (hashedPart content)] at last
  exact (hashedPart_append addressable.clientData addressable_.clientData last).1

/-! ## The end of the message -/

variable {session : Session}

/-- The content of the client starts at the same place while a message is received. -/
theorem run_offset {final : Session} {inputs : List LineInput} {events : List LineEvent}
    (receiving : Receiving session)
    (ran : Machine.run (sessionStep platform) session inputs = some (events, final))
    (unended : ∀ event ∈ events, event.after.inputMode = .data) :
    final.clientDataOffset = session.clientDataOffset := by
  have kept : ∀ reached, Machine.Reached events final reached →
      Receiving reached ∧ reached.clientDataOffset = session.clientDataOffset := by
    refine Machine.run_reaches ?_ ⟨receiving, rfl⟩ ran unended
    rintro before ⟨env, line⟩ response after ⟨receiving, same⟩ stepped open_
    have continued : ¬Finishes before line := by
      intro finishes
      obtain ⟨step, dispatched, -, rfl⟩ := sessionStep_dispatch stepped
      rw [dispatch_endsMessage finishes] at dispatched
      obtain ⟨text, calls, -, rfl⟩ := finishData_concluded dispatched
      cases open_
    obtain ⟨headers, key, still, present, swallowed⟩ :=
      sessionStep_content platform env line receiving continued
    cases swallowed.symm.trans stepped
    exact ⟨⟨receiving.connected, receiving.mode, present.trans receiving.headers⟩, same⟩
  exact (kept final (.inl rfl)).2

variable {env : Env}

/-- The names of the headers that intake writes itself. -/
theorem traceHeaders_names :
    ∀ header ∈ traceHeaders platform env session,
      Str.toAsciiLowercase header.1 ≠ idempotencyHeader := by
  intro header member
  rcases List.mem_append.mp member with result | always
  · split at result
    · rw [List.mem_singleton.mp result]
      exact (by decide : Str.toAsciiLowercase "Received-SPF" ≠ idempotencyHeader)
    · cases result
  · rcases List.mem_cons.mp always with rfl | last
    · exact (by decide : Str.toAsciiLowercase "X-Envelope-From" ≠ idempotencyHeader)
    · rw [List.mem_singleton.mp last]
      exact (by decide : Str.toAsciiLowercase "Received" ≠ idempotencyHeader)

variable {calls : List Call}

/-- A message starts without a header of the idempotency key. -/
theorem data_unkeyed {opened : Session} {command : Text}
    (commanded : commandOf session (chomp command) = some .data)
    (answered : sessionStep platform session ⟨env, command⟩ =
      some (⟨.line "354 Go ahead", calls⟩, opened)) :
    opened.headerMap.values idempotencyHeader = [] := by
  have inserted (headers : List (Text × Text)) (map : HeaderMap)
      (others : ∀ header ∈ headers, Str.toAsciiLowercase header.1 ≠ idempotencyHeader) :
      (headers.foldl (fun map header => map.insert (Str.toAsciiLowercase header.1) [header.2])
        map).values idempotencyHeader = map.values idempotencyHeader := by
    induction headers generalizing map with
    | nil => rfl
    | cons header rest ih =>
        rw [List.foldl_cons, ih _
          (fun other member => others other (List.mem_cons_of_mem header member))]
        unfold HeaderMap.values HeaderMap.insert
        rw [Function.update_of_ne (Ne.symm (others header List.mem_cons_self))]
  obtain ⟨-, ready, rfl⟩ := data_answered commanded answered
  unfold dataCommand
  rw [if_neg (not_not_intro ready)]
  exact inserted _ HeaderMap.empty traceHeaders_names

/-- Under a key, the records are handed over at once, with the request. -/
theorem Concluded.keyed {text : Text} (conclusion : Concluded platform env session text calls)
    {call : Call} {message : QueuedMessage} (member : call ∈ calls) (given : message ∈ call.handed)
    (headed : (session.headerMap idempotencyHeader).isSome = true) :
    ∃ key queued allowance, call = .queueMessages queued (some (idempotencyRequest platform env session
        (storedData session (some key)) key)) allowance ∧
      message.rawMessage = storedData session (some key) := by
  have storing := Call.stores_of_handed given
  cases conclusion with
  | refused text calls unaccepted checks =>
      rcases checks with rfl | rfl
      · cases member
      · rw [authorizeSender_stores env session session.headerMap call member] at storing
        cases storing
  | handed domainId checks key queued authorised keyed built outcome delivered =>
      have delivery := mem_delivery authorised member storing
      rw [delivered] at delivery
      cases key with
      | none =>
          rw [idempotencyKey_none keyed] at headed
          cases headed
      | some key =>
          obtain rfl := List.mem_singleton.mp delivery
          obtain ⟨recipient, -, recorded⟩ := mem_of_mapM built given
          exact ⟨key, queued, _, rfl, (queuedMessage_spec recorded).2.2.2.1⟩

/-- A message is stored without the lines of the header, and otherwise as it was received, and the
hash of its request is one of the envelope and of what the client has sent of it. -/
structure KeyRemoved (platform : Platform) (trace : Bytes) (texts : List Text) (final : Session)
    (call : Call) (message : QueuedMessage) : Prop where
  stored : message.rawMessage = trace ++ crlfLines (uncountedTexts platform false texts)
  hashed : ∃ queued request allowance clientData,
    call = .queueMessages queued (some request) allowance ∧
    message.rawMessage = trace ++ clientData ∧
    request.requestHash = sha256Hex platform
      (hashedRequest (final.mailFrom.getD []) (final.recipients.map (·.rcptTo)) clientData)
  injective : ∀ mailFrom recipients clientData sender others content,
    Addressable mailFrom recipients clientData → Addressable sender others content →
    hashedRequest mailFrom recipients clientData = hashedRequest sender others content →
    mailFrom = sender ∧ recipients = others ∧ clientData = content

/-- What is stored under a key, and what is hashed for it. -/
theorem storedData_keyed (env : Env) (session : Session) (key : Text) {headers : List (Text × Text)}
    (foreign : ∀ header ∈ headers, ForeignName platform header.1)
    (unbroken : ∀ text ∈ headers.map headerText ++ texts, '\n' ∉ text)
    (content : session.data = some (crlfLines (headers.map headerText ++ texts)))
    (offset : session.clientDataOffset = (crlfLines (headers.map headerText)).length) :
    storedData session (some key) =
        crlfLines (headers.map headerText) ++ crlfLines (keptTexts false texts) ∧
      (idempotencyRequest platform env session (storedData session (some key)) key).requestHash =
        sha256Hex platform (hashedRequest (session.mailFrom.getD [])
          (session.recipients.map (·.rcptTo)) (crlfLines (keptTexts false texts))) := by
  have stored : storedData session (some key) =
      crlfLines (headers.map headerText) ++ crlfLines (keptTexts false texts) := by
    unfold storedData stripMessageHeader
    rw [content, Option.getD_some]
    dsimp only
    rw [stripHeaderLines_crlfLines false _ unbroken,
      keptTexts_foreign headers texts foreign]
    simp [crlfLines]
  refine ⟨stored, ?_⟩
  have client : (storedData session (some key)).drop
      (min session.clientDataOffset (storedData session (some key)).length) =
        crlfLines (keptTexts false texts) := by
    rw [stored, offset, Nat.min_eq_left (by simp), List.drop_left]
  unfold idempotencyRequest
  rw [client, smtpRequestHash_eq]

/-- After DATA has been accepted, let any number of lines of any stream have been received, with a
header of the idempotency key, and let a line end the message. Then what the session keeps of that
header comes from the lines that belong to it, and every message that is handed over is stored
without them and hashed as is meant if and only if the removal recognises them all: each one names
the header in ASCII letters, or starts with a blank or a tab. -/
theorem key_removed_iff (platform : Platform) (session opened final next : Session)
    (env : Env) (command : Text) (opening : List Call)
    (commanded : commandOf session (chomp command) = some .data)
    (answered : sessionStep platform session ⟨env, command⟩ =
      some (⟨.line "354 Go ahead", opening⟩, opened))
    (traced : ∀ header ∈ traceHeaders platform env session, '\n' ∉ header.2)
    (stream : LineStream) (count : Nat) (inputs : List LineInput)
    (fed : inputs.map LineInput.line = stream.readLines count) (events : List LineEvent)
    (ran : Machine.run (sessionStep platform) opened inputs = some (events, final))
    (unended : ∀ event ∈ events, event.after.inputMode = .data)
    (keyed : (final.headerMap idempotencyHeader).isSome = true)
    (last : LineInput) (response : Response) (ended : Finishes final last.line)
    (finished : sessionStep platform final last = some (response, next)) :
    let trace := encode ((traceHeaders platform env session).flatMap headerLine)
    let texts := messageTexts inputs
    final.data = some (trace ++ crlfLines texts) ∧
    final.headerMap.values idempotencyHeader = valuesOf [] (countedTexts platform false texts) ∧
    ∀ call ∈ response.calls, ∀ message ∈ call.handed,
      (KeyRemoved platform trace texts final call message ↔
        ∀ text ∈ countedTexts platform false texts, Recognised text) := by
  intro trace texts
  obtain ⟨headers, receiving, recorded, books, content, unbroken⟩ :=
    data_received commanded answered traced fed ran unended
  have traceLines : trace = crlfLines ((traceHeaders platform env session).map headerText) :=
    encode_headerLines _
  have client := messageTexts_unbroken fed
  have offset : final.clientDataOffset =
      (crlfLines ((traceHeaders platform env session).map headerText)).length := by
    rw [run_offset receiving ran unended, data_offset commanded answered, encode_headerLines]
  refine ⟨?_, ?_, ?_⟩
  · rw [content, traceLines]
    simp [crlfLines, texts]
  · have empty : headers.values idempotencyHeader = [] := by
      have unkeyed := data_unkeyed commanded answered
      rw [Session.headerMap, recorded] at unkeyed
      exact unkeyed
    rw [Session.headerMap, books.headers, Option.getD_some, counted_values texts rfl, empty]
    rfl
  obtain ⟨step, dispatched, rfl, -⟩ := sessionStep_dispatch finished
  rw [dispatch_endsMessage ended] at dispatched
  obtain ⟨text, calls, conclusion, rfl⟩ := finishData_concluded dispatched
  intro call member message given
  obtain ⟨key, queued, allowance, rfl, raw⟩ := conclusion.keyed member given keyed
  obtain ⟨stored, hash⟩ := storedData_keyed last.env
    { final with crPresent := hasCr last.line, inputMode := .command } key
    (traceHeaders_foreign platform env session) unbroken content offset
  rw [← keptTexts_eq_iff]
  constructor
  · rintro ⟨removed, -, -⟩
    rw [raw, stored, traceLines] at removed
    exact crlfLines_injective (fun text member => client text (keptTexts_mem member))
      (fun text member => client text (uncountedTexts_mem member)) (List.append_cancel_left removed)
  · intro same
    refine ⟨?_, ⟨queued, _, allowance, crlfLines (keptTexts false texts), rfl, ?_, hash⟩, ?_⟩
    · rw [raw, stored, traceLines, same]
    · rw [raw, stored, traceLines]
    · exact fun _ _ _ _ _ _ => hashedRequest_injective

/-- A message with a folded idempotency key. -/
def foldedKey : LineStream :=
  ⟨[encode "From: me@a.example\r\ncamelmailer-IDEMPOTENCY-Key:\r\n k\r\n\r\n.\r\n"], []⟩

/-- The header is removed from it, and nothing else. -/
theorem folded_key_removed : ∃ opened events final response next,
    Machine.run (sessionStep .ascii) opened
      ((foldedKey.readLines 4).map (⟨exampleEnv, ·⟩)) = some (events, final) ∧
    sessionStep .ascii final ⟨exampleEnv, dotLine⟩ = some (response, next) ∧
    response.reply = accepted ∧ response.calls.flatMap Call.handed ≠ [] ∧
    ∀ call ∈ response.calls, ∀ message ∈ call.handed,
      KeyRemoved .ascii (encode ((traceHeaders .ascii exampleEnv submittingSession).flatMap headerLine))
        (messageTexts ((foldedKey.readLines 4).map (⟨exampleEnv, ·⟩))) final call message := by
  have checked : (receivedSubmission foldedKey 4).any (fun reception =>
      reception.2.1.1.all (fun event => event.after.inputMode == .data) &&
      (reception.2.1.2.headerMap idempotencyHeader).isSome &&
      decide (Finishes reception.2.1.2 dotLine) && reception.2.2.1.reply == accepted &&
      decide (reception.2.2.1.calls.flatMap Call.handed ≠ [])) = true := by
    decide +kernel
  obtain ⟨⟨opened, ⟨events, final⟩, ⟨response, next⟩⟩, received, holds⟩ :=
    (Option.any_eq_true _ _).mp checked
  simp only [Bool.and_eq_true, beq_iff_eq, decide_eq_true_eq, List.all_eq_true] at holds
  obtain ⟨⟨⟨⟨unended, keyed⟩, ended⟩, positive⟩, handed⟩ := holds
  obtain ⟨answered, ran, finished⟩ := receivedSubmission_steps received
  refine ⟨_, events, final, response, next, ran, finished, positive, handed, ?_⟩
  intro call member message given
  refine ((key_removed_iff .ascii submittingSession _ final next exampleEnv "DATA\r" []
    (by decide) answered (by decide) foldedKey 4 _ (by simp [Function.comp_def]) events
    ran unended keyed ⟨exampleEnv, dotLine⟩ response ended finished).2.2 call member message
    given).mpr ?_
  have lines : (countedTexts .ascii false (messageTexts ((foldedKey.readLines 4).map
      (⟨exampleEnv, ·⟩)))).all (fun text => blankLed text || keyLine text) = true := by
    decide
  intro text counted
  exact Bool.or_eq_true_iff.mp (List.all_eq_true.mp lines text counted)

/-- A message whose idempotency key is on a line behind a vertical tab. -/
def verticalKey : LineStream :=
  ⟨[encode "From: me@a.example\r\nCamelMailer-Idempotency-Key:\r\n\x0bk\r\n\r\n.\r\n"], []⟩

/-- It is accepted under that key, and the line of the key is stored. -/
theorem vertical_key_stored : ∃ opened events final response next,
    Machine.run (sessionStep .ascii) opened
      ((verticalKey.readLines 4).map (⟨exampleEnv, ·⟩)) = some (events, final) ∧
    sessionStep .ascii final ⟨exampleEnv, dotLine⟩ = some (response, next) ∧
    final.headerMap.values idempotencyHeader = [['\x0b', 'k']] ∧ response.reply = accepted ∧
    ∃ call ∈ response.calls, ∃ message ∈ call.handed,
      ¬KeyRemoved .ascii
        (encode ((traceHeaders .ascii exampleEnv submittingSession).flatMap headerLine))
        (messageTexts ((verticalKey.readLines 4).map (⟨exampleEnv, ·⟩))) final call message := by
  have checked : (receivedSubmission verticalKey 4).any (fun reception =>
      reception.2.1.2.headerMap.values idempotencyHeader == [['\x0b', 'k']] &&
      reception.2.2.1.reply == accepted &&
      reception.2.2.1.calls.any (fun call => call.handed.any (fun message =>
        message.rawMessage !=
          encode ((traceHeaders .ascii exampleEnv submittingSession).flatMap headerLine) ++
          crlfLines (uncountedTexts .ascii false
            (messageTexts ((verticalKey.readLines 4).map (⟨exampleEnv, ·⟩))))))) = true := by
    decide +kernel
  obtain ⟨⟨opened, ⟨events, final⟩, ⟨response, next⟩⟩, received, holds⟩ :=
    (Option.any_eq_true _ _).mp checked
  simp only [Bool.and_eq_true, beq_iff_eq, List.any_eq_true, bne_iff_ne] at holds
  obtain ⟨⟨values, positive⟩, call, made, message, given, differs⟩ := holds
  obtain ⟨-, ran, finished⟩ := receivedSubmission_steps received
  exact ⟨_, events, final, response, next, ran, finished, values, positive, call, made, message, given,
    fun removed => differs removed.stored⟩

end Camelmailer.Smtp
