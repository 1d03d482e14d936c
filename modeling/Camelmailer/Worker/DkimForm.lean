import Camelmailer.Worker.DkimLines

/-!
# The relaxed form, before and after decoding

The signer brings the texts of a message into the relaxed form, the receiver its octets. Runs of
blanks can be reduced before or after decoding, so the texts of the signer are those of the receiver,
decoded and trimmed.
-/

namespace Camelmailer.Dkim

open Utf8 Lines Worker

/-! ## Blanks -/

section Form

theorem collapse_plain {inside : Bool} {plain : Text} (rest : Text)
    (shown : ∀ char ∈ plain, (char = ' ' || char = '\t') = false)
    (fresh : plain ≠ [] ∨ inside = false) :
    collapse inside (plain ++ rest) = plain ++ collapse false rest := by
  induction plain generalizing inside with
  | nil => rw [(or_iff_right (by simp)).mp fresh]; rfl
  | cons char plain ih =>
      obtain ⟨own, others⟩ := List.forall_mem_cons.mp shown
      rw [List.cons_append, collapse, if_neg (by simp [own]), ih others (.inr rfl)]
      rfl

theorem collapse_concat (inside : Bool) (text : Text) (char : Char)
    (shown : (char = ' ' || char = '\t') = false) :
    collapse inside (text ++ [char]) = collapse inside text ++ [char] := by
  induction text generalizing inside with
  | nil => simp [collapse, shown]
  | cons first rest ih =>
      rw [List.cons_append, collapse, collapse]
      split_ifs
      · exact ih true
      · rw [ih, List.cons_append]
      · rw [ih, List.cons_append]

/-- Runs of blanks can be reduced before or after decoding. A sequence is not pending inside of
one. -/
theorem decode_reduce {state : Decoder} (wide : state.Wide) {inside : Bool}
    (fresh : inside = true → state = .start) (bytes : Bytes) :
    decodeFrom state (Relaxed.reduce inside bytes) = collapse inside (decodeFrom state bytes) := by
  have flushed (state : Decoder) :
      ∀ char ∈ flush state, (char = ' ' || char = '\t') = false :=
    fun char member => agree_blank.wide char (wide_flush state char member)
  have starts : Decoder.start.Wide := trivial
  have cut (state : Decoder) (wide : state.Wide) (octet : UInt8) (small : octet.toNat < 0x80)
      (bytes : Bytes) : decodeFrom state (octet :: bytes) =
        flush state ++ Char.ofNat octet.toNat :: decodeFrom .start bytes := by
    rw [decodeFrom, step_ascii state octet wide small]
    simp
  induction bytes generalizing state inside with
  | nil =>
      cases state with
      | start => cases inside <;> rfl
      | owed count low high code =>
          have unfinished : inside = false := by
            cases inside with
            | false => rfl
            | true => cases fresh rfl
          have whole := collapse_plain [] (flushed (.owed count low high code)) (.inr unfinished)
          exact whole.symm
  | cons octet rest ih =>
      by_cases small : octet.toNat < 0x80
      · have same := agree_blank.ascii octet small
        by_cases blank : Relaxed.isBlank octet = true
        · rw [blank] at same
          cases inside with
          | true =>
              obtain rfl := fresh rfl
              have later : decodeFrom .start (Relaxed.reduce true rest) =
                  collapse true (decodeFrom .start rest) :=
                ih starts (fun _ => rfl)
              rw [Relaxed.reduce, if_pos blank, if_pos rfl, List.nil_append, later,
                cut .start trivial octet small]
              simp [flush, collapse, same]
          | false =>
              have later : decodeFrom .start (Relaxed.reduce true rest) =
                  collapse true (decodeFrom .start rest) :=
                ih starts (fun _ => rfl)
              rw [Relaxed.reduce, if_pos blank, if_neg Bool.false_ne_true, List.singleton_append,
                cut state wide 0x20 (by decide), later, cut state wide octet small,
                collapse_plain _ (flushed state) (.inr rfl), collapse, if_pos same]
              rfl
        · have shown : ∀ char ∈ flush state ++ [Char.ofNat octet.toNat],
              (char = ' ' || char = '\t') = false := by
            intro char member
            rcases List.mem_append.mp member with pending | own
            · exact flushed state char pending
            · rw [List.mem_singleton.mp own, same]
              exact Bool.not_eq_true _ ▸ blank
          have later : decodeFrom .start (Relaxed.reduce false rest) =
              collapse false (decodeFrom .start rest) := ih starts (by simp)
          rw [Relaxed.reduce, if_neg blank, cut state wide octet small, later,
            cut state wide octet small, List.append_cons, List.append_cons _ _ (decodeFrom .start rest),
            collapse_plain _ shown (.inl (by simp))]
      · obtain ⟨next, shown, some⟩ := step_high state octet wide (by omega)
        have later : decodeFrom (step state octet).1 (Relaxed.reduce false rest) =
            collapse false (decodeFrom (step state octet).1 rest) :=
          ih next (by simp)
        rw [Relaxed.reduce, if_neg (by simp [agree_blank.high octet (by omega)]), decodeFrom,
          decodeFrom, later]
        cases emitted : (step state octet).2 with
        | cons char more =>
            rw [emitted] at shown
            exact (collapse_plain _ (fun char member => agree_blank.wide char (shown char member))
              (.inl (by simp))).symm
        | nil =>
            rw [emitted] at some
            have pending : (step state octet).1 ≠ .start := by
              intro fresh
              rw [fresh] at some
              exact some rfl
            obtain ⟨char, more, first, wide⟩ := decode_pending next pending rest
            have other := agree_blank.wide char wide
            rw [first, List.nil_append, List.nil_append, collapse, collapse, if_neg (by simp [other]),
              if_neg (by simp [other])]

/-- A weaker test takes off what a stronger one has left. -/
theorem rdropWhile_rdropWhile {α : Type} {strong weak : α → Bool}
    (weaker : ∀ item, strong item = true → weak item = true) (items : List α) :
    (items.rdropWhile strong).rdropWhile weak = items.rdropWhile weak := by
  induction items using List.reverseRecOn with
  | nil => rfl
  | append_singleton items last ih =>
      by_cases dropped : strong last = true
      · rw [List.rdropWhile_concat_pos _ _ _ dropped, ih,
          List.rdropWhile_concat_pos _ _ _ (weaker last dropped)]
      · rw [List.rdropWhile_concat_neg _ _ _ dropped]

theorem blank_isWhitespace (char : Char) (blank : (char = ' ' || char = '\t') = true) :
    Str.isWhitespace char = true := by
  rw [Bool.or_eq_true, decide_eq_true_eq, decide_eq_true_eq] at blank
  rcases blank with rfl | rfl <;> rfl

/-- The carriage returns at the end of a line are white space that is taken off anyway. -/
theorem canonicalizeLine_eq (text : Text) :
    canonicalizeLine text = Str.trimEnd (collapse false text) := by
  rw [canonicalizeLine]
  induction text using List.reverseRecOn with
  | nil => rfl
  | append_singleton text last ih =>
      by_cases carriage : last = '\r'
      · subst carriage
        rw [List.rdropWhile_concat_pos _ _ _ (by decide), ih,
          collapse_concat _ _ _ (by decide), Str.trimEnd, Str.trimEnd,
          List.rdropWhile_concat_pos _ _ _ (by decide)]
      · rw [List.rdropWhile_concat_neg _ _ _ (by simpa using carriage)]

/-- A line of the body as the signer hashes it: the relaxed form of the line on the wire, decoded and
trimmed. -/
theorem canonicalizeLine_decode (line : Bytes) :
    canonicalizeLine (fromUtf8Lossy line) = Str.trimEnd (fromUtf8Lossy (Relaxed.lineOf line)) := by
  have reduced : fromUtf8Lossy (Relaxed.reduce false line) = collapse false (fromUtf8Lossy line) :=
    decode_reduce (show Decoder.Wide .start from trivial) (by simp) line
  rw [canonicalizeLine_eq, Relaxed.lineOf, agree_blank.decode_rdropWhile, reduced]
  exact (rdropWhile_rdropWhile blank_isWhitespace _).symm

theorem canonicalizeLine_withoutCr (line : Bytes) :
    canonicalizeLine (fromUtf8Lossy (withoutCr line)) = canonicalizeLine (fromUtf8Lossy line) := by
  unfold withoutCr Str.stripLast
  split_ifs with ends
  · obtain ⟨front, rfl⟩ := List.getLast?_eq_some_iff.mp ends
    rw [List.dropLast_concat, Option.getD_some, canonicalizeLine, canonicalizeLine,
      decode_concat_ascii front CR (by decide), List.rdropWhile_concat_pos _ _ _ (by decide)]
  · rfl

/-- A line of the body as the signer hashes it. -/
def signedLineOf (line : Bytes) : Bytes := encode (canonicalizeLine (fromUtf8Lossy line))

theorem canonicalizeBody_eq (body : Bytes) : canonicalizeBody body =
    Relaxed.written (((dataLines body).map signedLineOf).rdropWhile (fun line => line = [])) := by
  have ended (first : Text) (rest : List Text) : encode (crlfText.intercalate (first :: rest)) ++ CRLF =
      Relaxed.written ((first :: rest).map encode) := by
    induction rest generalizing first with
    | nil => simp [Relaxed.written]
    | cons second rest ih =>
        rw [List.intercalate_cons_cons, encode_append, List.append_assoc,
          ih]
        simp [Relaxed.written, show encode crlfText = CRLF from rfl]
  have kept (lines : List Text) : (lines.map encode).rdropWhile (fun line => line = []) =
      (lines.rdropWhile (fun line => line = [])).map encode := by
    induction lines using List.reverseRecOn with
    | nil => rfl
    | append_singleton lines last ih =>
        rw [List.map_append, List.map_singleton]
        by_cases empty : last = []
        · subst empty
          rw [List.rdropWhile_concat_pos _ _ _ (by decide), ih,
            List.rdropWhile_concat_pos _ _ _ (by decide)]
        · have filled : encode last ≠ [] := mt encode_eq_nil.mp empty
          rw [List.rdropWhile_concat_neg _ _ _ (by simpa using filled),
            List.rdropWhile_concat_neg _ _ _ (by simpa using empty), List.map_append]
          rfl
  have lines : ((fromUtf8Lossy body).splitOn '\n').map canonicalizeLine =
      (body.splitOn LF).map (fun line => canonicalizeLine (fromUtf8Lossy line)) := by
    rw [show '\n' = Char.ofNat LF.toNat from rfl, decode_splitOn body (by decide), List.map_map]
    rfl
  -- an empty last line makes no difference
  have last : ((body.splitOn LF).map signedLineOf).rdropWhile (fun line => line = []) =
      ((dataLines body).map signedLineOf).rdropWhile (fun line => line = []) := by
    rw [dataLines]
    split_ifs with ends
    · obtain ⟨front, split⟩ := List.getLast?_eq_some_iff.mp ends
      rw [split, List.dropLast_concat, List.map_append, List.map_singleton,
        List.rdropWhile_concat_pos _ _ _ (by decide)]
    · rfl
  rw [canonicalizeBody, lines, ← last, show (body.splitOn LF).map signedLineOf =
    ((body.splitOn LF).map (fun line => canonicalizeLine (fromUtf8Lossy line))).map encode by
      rw [List.map_map]; rfl, kept]
  split_ifs with empty
  · rw [empty]
    rfl
  · obtain ⟨first, rest, split⟩ := List.exists_cons_of_ne_nil empty
    rw [split, ended]

end Form

/-! ## The values -/

section Values

/-- A value with its line ends replaced by blanks. -/
def unfolded (value : Text) : Text := (replaceCrlf value).map (fun char => if char = '\n' then ' ' else char)

theorem replaceCrlf_append {front : Text} (unbroken : '\n' ∉ front) (rest : Text) :
    replaceCrlf (front ++ '\r' :: '\n' :: rest) = front ++ ' ' :: replaceCrlf rest := by
  induction front with
  | nil => rfl
  | cons char front ih =>
      have later := ih fun member => unbroken (List.mem_cons_of_mem _ member)
      rw [List.cons_append, replaceCrlf, later]
      · rfl
      · rintro more rfl same
        cases front with
        | nil => simp at same
        | cons next front =>
            obtain ⟨rfl, -⟩ := List.cons_eq_cons.mp same
            exact unbroken (by simp)

theorem replaceCrlf_unbroken {text : Text} (unbroken : '\n' ∉ text) : replaceCrlf text = text := by
  induction text with
  | nil => rfl
  | cons char rest ih =>
      rw [replaceCrlf, ih fun member => unbroken (List.mem_cons_of_mem _ member)]
      rintro more rfl rfl
      exact unbroken (by simp)

theorem unfolded_append {front : Text} (unbroken : '\n' ∉ front) (rest : Text) :
    unfolded (front ++ '\r' :: '\n' :: rest) = front ++ ' ' :: unfolded rest := by
  have kept : front.map (fun char => if char = '\n' then ' ' else char) = front := by
    conv_rhs => rw [← List.map_id front]
    refine List.map_congr_left fun char member => if_neg ?_
    rintro rfl
    exact unbroken member
  rw [unfolded, replaceCrlf_append unbroken, List.map_append, kept]
  rfl

theorem unfolded_unbroken {text : Text} (unbroken : '\n' ∉ text) : unfolded text = text := by
  rw [unfolded, replaceCrlf_unbroken unbroken]
  conv_rhs => rw [← List.map_id text]
  refine List.map_congr_left fun char member => if_neg ?_
  rintro rfl
  exact unbroken member

theorem collapse_congr {first second : Text}
    (same : ∀ inside, collapse inside first = collapse inside second) (inside : Bool) (front : Text) :
    collapse inside (front ++ first) = collapse inside (front ++ second) := by
  induction front generalizing inside with
  | nil => exact same inside
  | cons char front ih =>
      rw [List.cons_append, List.cons_append, collapse, collapse, ih,
        ih]

/-- The blank in place of a line end joins those at the beginning of the next line. -/
theorem collapse_unfolded (inside : Bool) (first : Text) (rest : List Text)
    (unbroken : ∀ text ∈ first :: rest, '\n' ∉ text)
    (continued : ∀ text ∈ rest, isFolded text = true) :
    collapse inside (unfolded (first ++ rest.flatMap (crlfText ++ ·))) =
      collapse inside (first ++ rest.flatten) := by
  induction rest generalizing inside first with
  | nil =>
      rw [List.flatMap_nil, List.flatten_nil, List.append_nil,
        unfolded_unbroken (unbroken first (List.mem_cons_self ..))]
  | cons second rest ih =>
      obtain ⟨own, others⟩ := List.forall_mem_cons.mp unbroken
      obtain ⟨blank, folded⟩ := List.forall_mem_cons.mp continued
      have whole : first ++ (second :: rest).flatMap (crlfText ++ ·) =
          first ++ '\r' :: '\n' :: (second ++ rest.flatMap (crlfText ++ ·)) := by
        simp [crlfText]
      rw [whole, unfolded_append own, List.flatten_cons]
      refine collapse_congr ?_ inside first
      intro inside
      obtain ⟨char, more, rfl, space⟩ : ∃ char more, second = char :: more ∧
          (char = ' ' || char = '\t') = true := by
        cases second with
        | nil => cases blank
        | cons char more => exact ⟨char, more, rfl, by simpa [isFolded] using blank⟩
      have later := ih true (char :: more) others folded
      rw [collapse, if_pos (by decide), later, List.cons_append, collapse, collapse, if_pos space,
        if_pos space, if_pos rfl]

/-- The value behind the first colon, with or without the line ends of the field. -/
theorem splitOnce_joined {first front back : Text} {rest : List Text}
    (unbroken : ∀ text ∈ first :: rest, '\n' ∉ text)
    (continued : ∀ text ∈ rest, isFolded text = true)
    (split : Str.splitOnce ':' (joined (first :: rest)) = some (front, back)) :
    ∃ name value, Str.splitOnce ':' (first :: rest).flatten = some (name, value) ∧
      collapse false (unfolded back) = collapse false value := by
  induction rest generalizing first front with
  | nil =>
      rw [joined, List.flatMap_nil, List.append_nil] at split
      obtain ⟨rfl, -⟩ := Str.splitOnce_eq_some.mp split
      have own := unbroken _ (List.mem_cons_self ..)
      refine ⟨front, back, by simpa using split, ?_⟩
      rw [unfolded_unbroken fun member => own (by simp [member])]
  | cons second rest ih =>
      by_cases colon : ':' ∈ first
      · obtain ⟨name, value, rfl, absent⟩ := List.eq_append_cons_of_mem colon
        have found (tail : Text) : Str.splitOnce ':' ((name ++ ':' :: value) ++ tail) =
            some (name, value ++ tail) := Str.splitOnce_eq_some.mpr ⟨by simp, absent⟩
        rw [joined, found] at split
        obtain ⟨-, rfl⟩ := Prod.mk.inj (Option.some.inj split)
        refine ⟨name, value ++ (second :: rest).flatten, by rw [List.flatten_cons, found], ?_⟩
        refine collapse_unfolded false value _ ?_ continued
        obtain ⟨own, others⟩ := List.forall_mem_cons.mp unbroken
        exact List.forall_mem_cons.mpr ⟨fun member => own (by simp [member]), others⟩
      · have cut : joined (first :: second :: rest) = (first ++ crlfText) ++ joined (second :: rest) := by
          simp [joined]
        have absent : ':' ∉ first ++ crlfText := by
          simp [colon, crlfText]
        rw [cut, Str.splitOnce_append absent] at split
        obtain ⟨⟨before, after⟩, found, same⟩ := Option.map_eq_some_iff.mp split
        obtain ⟨-, rfl⟩ := Prod.mk.inj same
        obtain ⟨name, value, later, alike⟩ := ih (List.forall_mem_cons.mp unbroken).2
          (List.forall_mem_cons.mp continued).2 found
        refine ⟨first ++ name, value, ?_, alike⟩
        rw [List.flatten_cons, Str.splitOnce_append colon, later]
        rfl

/-- Lines that begin with ASCII octets can be decoded one by one. -/
theorem decode_flatten (first : Bytes) {rest : List Bytes}
    (continued : ∀ line ∈ rest, Relaxed.continues line = true) :
    fromUtf8Lossy (first :: rest).flatten = ((first :: rest).map fromUtf8Lossy).flatten := by
  induction rest generalizing first with
  | nil => simp
  | cons second rest ih =>
      obtain ⟨own, others⟩ := List.forall_mem_cons.mp continued
      have later := ih second others
      cases second with
      | nil => cases own
      | cons octet more =>
          have small : octet.toNat < 0x80 := by
            by_contra large
            have high := agree_blank.high octet (by omega)
            rw [Relaxed.continues, List.head?_cons, Option.any_some, high] at own
            cases own
          rw [List.flatten_cons, List.cons_append, decode_cons_ascii octet _ small] at later
          rw [List.flatten_cons, List.flatten_cons, List.cons_append,
            decode_append_ascii first octet _ small, later]
          rfl

/-- A line without the carriage returns at its end. -/
def withoutReturns (line : Bytes) : Bytes := line.rdropWhile (fun octet => octet = CR)

theorem trimmed_eq {line : Bytes} (unbroken : LF ∉ line) :
    trimmed line = fromUtf8Lossy (withoutReturns line) := by
  have plain {text : Text} (unbroken : '\n' ∉ text) :
      trimLineEnd text = text.rdropWhile (fun char => char = '\r') := by
    induction text using List.reverseRecOn with
    | nil => rfl
    | append_singleton text last ih =>
        rw [trimLineEnd] at ih ⊢
        have other : last ≠ '\n' := by
          rintro rfl
          exact unbroken (by simp)
        by_cases carriage : last = '\r'
        · rw [List.rdropWhile_concat_pos _ _ _ (by simp [carriage]), ih
            fun member => unbroken (List.mem_append_left _ member),
            List.rdropWhile_concat_pos _ _ _ (by simp [carriage])]
        · rw [List.rdropWhile_concat_neg _ _ _ (by simp [carriage, other]),
            List.rdropWhile_concat_neg _ _ _ (by simp [carriage])]
  have carriage := (agree_octet CR (by decide)).decode_rdropWhile line
  rw [withoutReturns, carriage]
  exact plain fun member => unbroken ((mem_decode LF (by decide)).mp member)

theorem continues_withoutReturns {line : Bytes} (continued : Relaxed.continues line = true) :
    Relaxed.continues (withoutReturns line) = true := by
  cases line with
  | nil => cases continued
  | cons octet rest =>
      have blank : Relaxed.isBlank octet = true := continued
      have kept : decide (octet = CR) = false := by
        refine decide_eq_false ?_
        rintro rfl
        cases blank
      have whole : withoutReturns (octet :: rest) = octet :: withoutReturns rest :=
        Str.rdropWhile_cons (fun octet => decide (octet = CR)) kept rest
      rw [whole]
      exact continued

/-- What is blank at the ends of a text is trimmed anyway. -/
theorem trim_tidied (text : Text) {blank : Char → Bool}
    (white : ∀ char, blank char = true → Str.isWhitespace char = true) :
    Str.trim ((text.dropWhile blank).rdropWhile blank) = Str.trim text := by
  have front := List.takeWhile_append_dropWhile (p := blank) (l := text)
  have back := List.rdropWhile_append_rtakeWhile (p := blank) (l := text.dropWhile blank)
  have trimmed : Str.trim (text.takeWhile blank ++ ((text.dropWhile blank).rdropWhile blank ++
      (text.dropWhile blank).rtakeWhile blank)) =
        Str.trim ((text.dropWhile blank).rdropWhile blank) :=
    Str.trim_append (fun char member => white char (List.mem_takeWhile_imp member))
      (fun char member => white char (List.mem_rtakeWhile_imp member))
  rw [back, front] at trimmed
  exact trimmed.symm

variable {platform : Platform} {field : List Bytes} {header : Text × Text}

/-- The value that the signer hashes of a field: the relaxed one, decoded and trimmed, of the field
without the carriage returns at the ends of its lines. -/
theorem canonicalizeHeader_value (unbroken : ∀ line ∈ field, LF ∉ line)
    (continued : ∀ line ∈ field.tail, Relaxed.continues line = true)
    (read : canonicalizeHeader platform (fieldText field) = some header) :
    header.2 = Str.trim (fromUtf8Lossy (Relaxed.valueOf (field.map withoutReturns))) := by
  cases field with
  | nil => cases read
  | cons first rest =>
      obtain ⟨⟨front, back⟩, split, rfl⟩ := Option.map_eq_some_iff.mp read
      have plain : ∀ text ∈ trimmed first :: rest.map trimmed, '\n' ∉ text := by
        rw [← List.map_cons]
        intro text member feed
        obtain ⟨line, there, rfl⟩ := List.mem_map.mp member
        have inside := (List.rdropWhile_prefix _ _).subset feed
        exact unbroken line there ((mem_decode LF (by decide)).mp inside)
      have folded : ∀ text ∈ rest.map trimmed, isFolded text = true := by
        intro text member
        obtain ⟨line, there, rfl⟩ := List.mem_map.mp member
        rw [isFolded_trimmed]
        exact continued line there
      obtain ⟨name, value, found, alike⟩ := splitOnce_joined plain folded split
      have decoded : (trimmed first :: rest.map trimmed).flatten =
          fromUtf8Lossy ((first :: rest).map withoutReturns).flatten := by
        have same : (first :: rest).map trimmed =
            ((first :: rest).map withoutReturns).map fromUtf8Lossy := by
          rw [List.map_map]
          exact List.map_congr_left fun line member => trimmed_eq (unbroken line member)
        rw [← List.map_cons, same, List.map_cons, decode_flatten]
        intro line member
        obtain ⟨inner, there, rfl⟩ := List.mem_map.mp member
        exact continues_withoutReturns (continued inner there)
      rw [decoded] at found
      obtain ⟨whole, -⟩ := Str.splitOnce_eq_some.mp found
      have colon : (0x3A : UInt8) ∈ ((first :: rest).map withoutReturns).flatten := by
        refine (mem_decode 0x3A (by decide)).mp ?_
        rw [whole]
        exact List.mem_append_right _ (List.mem_cons_self ..)
      obtain ⟨before, after, octets, absent⟩ := List.eq_append_cons_of_mem colon
      have cut : Relaxed.cutAt 0x3A ((first :: rest).map withoutReturns).flatten =
          some (before, after) := Relaxed.cutAt_eq_some.mpr ⟨octets, absent⟩
      have own : Str.splitOnce ':' (fromUtf8Lossy ((first :: rest).map withoutReturns).flatten) =
          some (fromUtf8Lossy before, fromUtf8Lossy after) := by
        refine Str.splitOnce_eq_some.mpr ⟨?_, fun member => absent
          ((mem_decode 0x3A (by decide)).mp member)⟩
        rw [octets, decode_append_ascii before 0x3A after (by decide)]
        rfl
      obtain ⟨-, rfl⟩ := Prod.mk.inj (Option.some.inj (found.symm.trans own))
      have reduced : fromUtf8Lossy (Relaxed.reduce false after) =
          collapse false (fromUtf8Lossy after) :=
        decode_reduce (show Decoder.Wide .start from trivial) (by simp) after
      rw [Relaxed.valueOf, cut, Option.map_some, Option.getD_some, Relaxed.tidied,
        agree_blank.decode_rdropWhile, agree_blank.decode_dropWhile, reduced,
        trim_tidied _ blank_isWhitespace, ← alike]
      rfl

end Values

end Camelmailer.Dkim
