import Camelmailer.SignedSums
import Camelmailer.Worker.DkimForm
import Mathlib.Data.List.Nodup

/-!
# What a DKIM signature covers

`sign` computes its hashes from the message as it is stored, and a receiver computes them from what
`send_data` writes. Both cut the message into lines, fields and a body, and both bring them into the
relaxed form; but the signer decodes the message, takes any white space of Unicode off its ends, and
signs the first field of a name where the receiver takes the last.
-/

namespace Camelmailer.Dkim

open Utf8 Lines Worker

/-! ## What is signed -/

/-- The field that is signed for a name, with its place among the fields. -/
def signedInstance (platform : Platform) (raw : Bytes) (name : Text) : Option ((Text × Text) × Nat) :=
  ((splitMessage raw).1.zipIdx.filterMap (fun header =>
    (canonicalizeHeader platform header.1).map (fun canonical => (canonical, header.2)))).find?
      (fun header => header.1.1 = name)

/-- All of them, as `selectHeaders` has them. -/
def signedInstances (platform : Platform) (raw : Bytes) : List ((Text × Text) × Nat) :=
  signedHeaders.filterMap (signedInstance platform raw)

/-- The signature covers what is sent: its body is the one that the receiver hashes, and for the
names of the signed fields the receiver selects the same fields and hashes the same of them. -/
structure Covered (platform : Platform) (raw : Bytes) : Prop where
  body : canonicalizeBody (splitMessage raw).2 = Relaxed.bodyOf (wireBody raw)
  fields : (signedInstances platform raw).map
      (fun header => some (encode (signedLine header.1), header.2)) =
    (Relaxed.instances ((selectHeaders platform raw).map (fun header => encode header.1))
      (wireFields raw).zipIdx).map (Option.map (fun field => (Relaxed.hashed field.1, field.2)))

/-- The name that the signer takes a field for: the text before the first colon, without white space
around it and in lower case. -/
def takenName (platform : Platform) (field : List Bytes) : Option Text :=
  (Str.splitOnce ':' (fieldText field)).map (fun parts => platform.toLowercase (Str.trim parts.1))

/-- Only white space follows a line of carriage returns in the header. -/
def ReturnsClose (raw : Bytes) : Prop :=
  ∀ front line back, wireLines raw = front ++ line :: back →
    (∀ other ∈ front ++ [line], other ≠ []) → (∀ octet ∈ line, octet = CR) →
      ∀ later ∈ back, ∀ char ∈ fromUtf8Lossy later, Str.isWhitespace char = true

/-- The condition under which the signature covers what is sent. -/
structure Coverable (platform : Platform) (raw : Bytes) : Prop where
  returns : ReturnsClose raw
  /-- In relaxed form the lines of the body are UTF-8 and do not end with white space. -/
  body : ∀ line ∈ wireBody raw, ∃ text, Relaxed.lineOf line = encode text ∧ Str.trimEnd text = text
  /-- The first field that is taken for one of a signed name has this name and is the last that
  does, none of its lines ends with a carriage return, and in relaxed form its value is UTF-8
  without white space around it. -/
  fields : ∀ name ∈ signedHeaders, ∀ front field back, wireFields raw = front ++ field :: back →
    takenName platform field = some name →
    (∀ other ∈ front, takenName platform other ≠ some name) →
      Relaxed.nameOf field = some (encode name) ∧
      (∀ other ∈ back, Relaxed.nameOf other ≠ some (encode name)) ∧
      (∀ line ∈ field, line.getLast? ≠ some CR) ∧
      ∃ text, Relaxed.valueOf field = encode text ∧ Str.trim text = text

section Instances

variable {platform : Platform} {raw : Bytes}

/-- The signed instances are the selected headers. -/
theorem selectHeaders_eq (platform : Platform) (raw : Bytes) :
    selectHeaders platform raw = (signedInstances platform raw).map Prod.fst := by
  have own : (splitMessage raw).1.filterMap (canonicalizeHeader platform) =
      ((splitMessage raw).1.zipIdx.filterMap (fun header =>
        (canonicalizeHeader platform header.1).map
          (fun canonical => (canonical, header.2)))).map Prod.fst := by
    rw [List.map_filterMap]
    conv_lhs => rw [← List.zipIdx_map_fst 0 (splitMessage raw).1]
    rw [List.filterMap_map]
    refine List.filterMap_congr fun header _ => ?_
    rw [Option.map_map]
    exact (Option.map_id' ..).symm
  rw [signedInstances, List.map_filterMap]
  refine List.filterMap_congr fun name _ => ?_
  rw [own, List.find?_map]
  rfl

/-- The first field that the signer takes for one of a name. -/
theorem signedInstance_eq_some {name : Text} {header : Text × Text} {position : Nat} :
    signedInstance platform raw name = some (header, position) ↔
      ∃ front text back, (splitMessage raw).1 = front ++ text :: back ∧ front.length = position ∧
        canonicalizeHeader platform text = some header ∧ header.1 = name ∧
        ∀ other ∈ front, ∀ canonical, canonicalizeHeader platform other = some canonical →
          canonical.1 ≠ name := by
  rw [signedInstance, List.find?_filterMap, Option.bind_eq_some_iff]
  constructor
  · rintro ⟨⟨text, place⟩, found, mapped⟩
    obtain ⟨own, canonical, same⟩ := Option.map_eq_some_iff.mp mapped
    obtain ⟨rfl, rfl⟩ := Prod.mk.inj same
    obtain ⟨named, before, after, whole, absent⟩ := List.find?_eq_some_iff_append.mp found
    obtain ⟨front, back, split, numbered, rfl, -⟩ := Relaxed.zipIdx_cut.mp whole
    refine ⟨front, text, back, split, numbered, canonical, by simpa [canonical] using named, ?_⟩
    intro other member reading read same
    obtain ⟨index, inside, rfl⟩ := List.getElem_of_mem member
    have refused := absent (front[index], index)
      (List.mem_iff_getElem.mpr ⟨index, by simpa using inside, by simp⟩)
    simp [read, same] at refused
  · rintro ⟨front, text, back, split, numbered, canonical, named, absent⟩
    have whole := Relaxed.zipIdx_cut.mpr ⟨front, back, split, numbered, rfl, rfl⟩
    refine ⟨(text, position), List.find?_eq_some_iff_append.mpr ⟨?_, front.zipIdx,
      back.zipIdx (position + 1), whole, ?_⟩, by simp [canonical]⟩
    · simp [canonical, named]
    · intro other member
      cases read : canonicalizeHeader platform other.1 with
      | none => simp
      | some reading =>
          simpa using absent other.1 (List.fst_mem_of_mem_zipIdx member) reading read

end Instances

/-! ## The body -/

section Form

variable {raw line : Bytes}

theorem signedBody_eq (raw : Bytes) : canonicalizeBody (splitMessage raw).2 = Relaxed.written
    ((((wireLines raw).dropWhile visible).tail.map signedLineOf).rdropWhile
      (fun line => line = [])) := by
  have same : signedLineOf ∘ withoutCr = signedLineOf := by
    funext line
    exact congrArg encode (canonicalizeLine_withoutCr line)
  rw [canonicalizeBody_eq, ← splitMessage_bodyLines, List.map_map, same]

/-- The signer hashes a line of the body as it is on the wire, in relaxed form, if that is UTF-8 and
does not end with white space. -/
theorem signedLineOf_eq_iff : signedLineOf line = Relaxed.lineOf line ↔
    ∃ text, Relaxed.lineOf line = encode text ∧ Str.trimEnd text = text := by
  constructor
  · intro same
    refine ⟨canonicalizeLine (fromUtf8Lossy line), same.symm, ?_⟩
    exact List.rdropWhile_idempotent ..
  · rintro ⟨text, written, tight⟩
    rw [signedLineOf, canonicalizeLine_decode, written, decode_encode, tight]

/-- The signer hashes nothing of white space. -/
theorem signedLineOf_eq_nil : signedLineOf line = [] ↔
    ∀ char ∈ fromUtf8Lossy line, Str.isWhitespace char = true := by
  have collapsed (inside : Bool) (text : Text) :
      (∀ char ∈ collapse inside text, Str.isWhitespace char = true) ↔
        ∀ char ∈ text, Str.isWhitespace char = true := by
    induction text generalizing inside with
    | nil => simp [collapse]
    | cons char rest ih =>
        rw [collapse, List.forall_mem_cons]
        split_ifs with blank single
        · rw [ih, and_iff_right (blank_isWhitespace char blank)]
        · rw [List.forall_mem_cons, ih,
            and_iff_right (blank_isWhitespace char blank), and_iff_right (by decide)]
        · rw [List.forall_mem_cons, ih]
  rw [signedLineOf, encode_eq_nil, canonicalizeLine_eq, Str.trimEnd, List.rdropWhile_eq_nil_iff,
    collapsed]

theorem signedLineOf_unbroken (unbroken : LF ∉ line) : LF ∉ signedLineOf line := by
  rw [signedLineOf, feed_mem_encode, canonicalizeLine_decode]
  intro feed
  have inside := (List.rdropWhile_prefix _ _).subset feed
  have octet := (mem_decode LF (by decide)).mp inside
  rw [← List.count_pos_iff, Relaxed.count_lineOf (by decide), List.count_pos_iff] at octet
  exact unbroken octet

/-- Where a line stands that a test refuses: it is the first such line, or behind it. -/
theorem cut_cases {α : Type} {test : α → Bool} {front back firsts after : List α} {line first : α}
    (same : front ++ line :: back = firsts ++ first :: after)
    (passed : ∀ other ∈ firsts, test other = true) (refused : test line = false) :
    (front = firsts ∧ line = first ∧ back = after) ∨
      ∃ between, front = firsts ++ first :: between ∧ after = between ++ line :: back := by
  rcases List.append_eq_append_iff.mp same with ⟨more, longer, rest⟩ | ⟨more, longer, rest⟩
  · cases more with
    | nil =>
        obtain ⟨rfl, rfl⟩ := List.cons_eq_cons.mp rest
        exact .inl ⟨by simpa using longer.symm, rfl, rfl⟩
    | cons next more =>
        obtain ⟨rfl, -⟩ := List.cons_eq_cons.mp rest
        rw [passed line (longer ▸ by simp)] at refused
        cases refused
  · cases more with
    | nil =>
        obtain ⟨rfl, rfl⟩ := List.cons_eq_cons.mp rest
        exact .inl ⟨by simpa using longer, rfl, rfl⟩
    | cons next more =>
        obtain ⟨rfl, rfl⟩ := List.cons_eq_cons.mp rest
        exact .inr ⟨more, longer, rfl⟩

/-- What is behind the first item that a test refuses is behind others. -/
theorem exists_front {α : Type} (test : α → Bool) {items : List α} (some : items ≠ []) :
    ∃ front, front ≠ [] ∧ items = front ++ (items.dropWhile test).tail := by
  have split := List.takeWhile_append_dropWhile (p := test) (l := items)
  cases rest : items.dropWhile test with
  | nil => exact ⟨items, some, (List.append_nil items).symm⟩
  | cons first more =>
      refine ⟨items.takeWhile test ++ [first], by simp, ?_⟩
      conv_lhs => rw [← split, rest]
      simp

/-- The condition under which the signer hashes the lines of the body on the wire. -/
theorem bodyLines_iff (raw : Bytes) :
    (((wireLines raw).dropWhile visible).tail.map signedLineOf).rdropWhile (fun line => line = []) =
        ((wireBody raw).map Relaxed.lineOf).rdropWhile (fun line => line = []) ↔
      ReturnsClose raw ∧ ∀ line ∈ wireBody raw, ∃ text, Relaxed.lineOf line = encode text ∧
        Str.trimEnd text = text := by
  have hidden {line : Bytes} (returns : ∀ octet ∈ line, octet = CR) : visible line = false := by
    simpa [visible] using returns
  have seen {line : Bytes} (shown : visible line = true) : decide (line ≠ []) = true := by
    refine decide_eq_true ?_
    rintro rfl
    cases shown
  have split := List.takeWhile_append_dropWhile (p := visible) (l := wireLines raw)
  have firsts : ∀ line ∈ (wireLines raw).takeWhile visible, visible line = true :=
    fun line member => List.mem_takeWhile_imp member
  cases rest : (wireLines raw).dropWhile visible with
  | nil =>
      -- the signer and the receiver find no body
      rw [rest, List.append_nil] at split
      have nothing : wireBody raw = [] := by
        have all : ∀ line ∈ wireLines raw, decide (line ≠ []) = true := by
          rw [← split]
          exact fun line member => seen (firsts line member)
        rw [wireBody, List.dropWhile_eq_nil_iff.mpr all]
        rfl
      rw [nothing]
      refine iff_of_true rfl ⟨?_, by simp⟩
      intro front line back whole _ returns
      have shown := firsts line (by rw [split, whole]; simp)
      rw [hidden returns] at shown
      cases shown
  | cons first after =>
      rw [rest] at split
      have closes : ∀ octet ∈ first, octet = CR := by
        have refused := List.head?_dropWhile_not visible (wireLines raw)
        rw [rest] at refused
        simpa [visible] using refused
      have behind : (wireLines raw).dropWhile (fun line => line ≠ []) =
          (first :: after).dropWhile (fun line => line ≠ []) := by
        conv_lhs => rw [← split]
        exact List.dropWhile_append_of_pos fun line member => seen (firsts line member)
      rw [List.tail_cons]
      by_cases empty : first = []
      · -- both of them find the same body
        have same : wireBody raw = after := by
          rw [wireBody, behind, List.dropWhile_cons_of_neg (by simpa using empty)]
          rfl
        rw [same, Relaxed.rdropWhile_map_eq_iff]
        have closed : ReturnsClose raw := by
          intro front line back whole filled returns
          exfalso
          rcases cut_cases (whole.symm.trans split.symm) firsts (hidden returns) with
            ⟨-, rfl, -⟩ | ⟨between, rfl, -⟩
          · exact filled line (by simp) empty
          · exact filled first (by simp) empty
        rw [and_iff_right closed]
        exact forall₂_congr fun line _ => signedLineOf_eq_iff
      · have inside : ReturnsClose raw ↔ ∀ line ∈ after, signedLineOf line = [] := by
          simp only [signedLineOf_eq_nil]
          constructor
          · intro closed
            refine closed _ first after split.symm ?_ closes
            intro other member
            rcases List.mem_append.mp member with early | own
            · exact of_decide_eq_true (seen (firsts other early))
            · rwa [List.mem_singleton.mp own]
          · intro blank front line back whole _ returns later member
            rcases cut_cases (whole.symm.trans split.symm) firsts (hidden returns) with
              ⟨-, -, rfl⟩ | ⟨between, -, rfl⟩
            · exact blank later member
            · exact blank later (by simp [member])
        have own : wireBody raw = (after.dropWhile (fun line => line ≠ [])).tail := by
          rw [wireBody, behind, List.dropWhile_cons_of_pos (by simpa using empty)]
        rw [inside, own]
        by_cases later : after = []
        · simp [later]
        · obtain ⟨front, some, whole⟩ := exists_front (fun line : Bytes => decide (line ≠ [])) later
          generalize (after.dropWhile (fun line => line ≠ [])).tail = wire at whole ⊢
          rw [whole, Relaxed.shifted_iff some]
          · refine and_congr_right fun silent => forall₂_congr fun line member => ?_
            rw [← signedLineOf_eq_iff, silent line (List.mem_append_right _ member), eq_comm]
          · intro line other nothing same
            rw [signedLineOf, encode_eq_nil, canonicalizeLine_decode, same, signedLineOf,
              decode_encode, canonicalizeLine_eq] at nothing
            rw [signedLineOf, encode_eq_nil, canonicalizeLine_eq]
            exact (List.rdropWhile_idempotent ..).symm.trans nothing

/-- The condition under which the signer hashes the body of the message on the wire. -/
theorem body_iff (raw : Bytes) : canonicalizeBody (splitMessage raw).2 = Relaxed.bodyOf (wireBody raw) ↔
    ReturnsClose raw ∧ ∀ line ∈ wireBody raw, ∃ text, Relaxed.lineOf line = encode text ∧
      Str.trimEnd text = text := by
  have hashed (change : Bytes → Bytes) (keeps : ∀ line, LF ∉ line → LF ∉ change line)
      (test : Bytes → Bool) : ∀ line ∈ (((wireLines raw).dropWhile test).tail.map change).rdropWhile
        (fun line => line = []), LF ∉ line := by
    intro line member
    obtain ⟨inner, there, rfl⟩ := List.mem_map.mp ((List.rdropWhile_prefix _ _).subset member)
    exact keeps inner (wireLines_unbroken
      ((List.dropWhile_sublist test).subset (List.mem_of_mem_tail there)))
  have reduced (line : Bytes) (unbroken : LF ∉ line) : LF ∉ Relaxed.lineOf line := by
    rwa [← List.count_eq_zero, Relaxed.count_lineOf (by decide), List.count_eq_zero]
  rw [signedBody_eq, ← bodyLines_iff raw]
  exact Relaxed.written_injective (hashed signedLineOf (fun line => signedLineOf_unbroken) visible)
    (hashed Relaxed.lineOf reduced _)

end Form

/-! ## The carriage returns -/

section Values

variable {platform : Platform} {field : List Bytes} {header : Text × Text}

/-- A signed name that is found on the wire with the value of the signer leaves no carriage return
at the end of a line. -/
theorem no_returns (unbroken : ∀ line ∈ field, LF ∉ line)
    (continued : ∀ line ∈ field.tail, Relaxed.continues line = true)
    (read : canonicalizeHeader platform (fieldText field) = some header) {name : Text}
    (plain : '\r' ∉ name) (named : Relaxed.nameOf field = some (encode name))
    (same : Relaxed.valueOf field = encode header.2) : ∀ line ∈ field, line.getLast? ≠ some CR := by
  have visible : Relaxed.isBlank CR = false := by decide
  -- all carriage returns of the field are in its value
  have all : field.flatten.count CR = (Relaxed.valueOf field).count CR := by
    obtain ⟨⟨front, back⟩, cut, lowered⟩ := Option.map_eq_some_iff.mp named
    obtain ⟨whole, -⟩ := Relaxed.cutAt_eq_some.mp cut
    have absent : front.count CR = 0 := by
      rw [← Relaxed.count_rdropWhile visible, List.count_eq_zero]
      intro member
      have lower : Relaxed.lower CR ∈ encode name := by
        rw [← lowered]
        exact List.mem_map_of_mem member
      refine plain ?_
      rw [← List.count_pos_iff, count_encode _ _ (by decide),
        List.count_pos_iff] at lower
      exact lower
    rw [Relaxed.valueOf, cut, Option.map_some, Option.getD_some, Relaxed.count_tidied visible, whole,
      List.count_append, absent, List.count_cons_of_ne (by decide), Nat.zero_add]
  have fewer : (Relaxed.valueOf (field.map withoutReturns)).count CR ≤
      (field.map withoutReturns).flatten.count CR := by
    rw [Relaxed.valueOf]
    cases cut : Relaxed.cutAt 0x3A (field.map withoutReturns).flatten with
    | none => exact Nat.zero_le _
    | some parts =>
        obtain ⟨whole, -⟩ := Relaxed.cutAt_eq_some.mp (show _ = some (parts.1, parts.2) from cut)
        rw [Option.map_some, Option.getD_some, Relaxed.count_tidied visible]
        conv_rhs => rw [whole]
        rw [List.count_append]
        exact Nat.le_add_left ..
  have hashed : header.2.count '\r' ≤ (Relaxed.valueOf (field.map withoutReturns)).count CR := by
    rw [canonicalizeHeader_value unbroken continued read, ← count_decode _ CR (by decide)]
    exact ((List.rdropWhile_prefix _ _).sublist.trans (List.dropWhile_sublist _)).count_le _
  have total : (field.map (List.count CR)).sum ≤
      (field.map (fun line => (withoutReturns line).count CR)).sum := by
    have bound : field.flatten.count CR ≤ (field.map withoutReturns).flatten.count CR := by
      rw [all, same, count_encode _ _ (by decide)]
      exact hashed.trans fewer
    rw [List.count_flatten, List.count_flatten, List.map_map] at bound
    exact bound
  have least (line : Bytes) : (withoutReturns line).count CR ≤ line.count CR :=
    (List.rdropWhile_prefix _ _).sublist.count_le _
  intro line member ends
  have kept := SignedSums.eq_of_sum_le (fun line _ => least line) total line member
  obtain ⟨front, rfl⟩ := List.getLast?_eq_some_iff.mp ends
  have dropped : withoutReturns (front ++ [CR]) = withoutReturns front :=
    List.rdropWhile_concat_pos _ _ _ (by decide)
  have bound := least front
  rw [dropped, List.count_append, List.count_singleton_self] at kept
  omega

end Values

/-! ## The fields -/

section Fields

variable {platform : Platform} {raw : Bytes}

theorem takenName_eq (platform : Platform) (field : List Bytes) :
    takenName platform field = (canonicalizeHeader platform (fieldText field)).map Prod.fst := by
  rw [canonicalizeHeader, Option.map_map]
  rfl

/-- The signer sees the first fields on the wire, and what it does not see has no name. -/
theorem wireFields_eq (platform : Platform) (closed : ReturnsClose raw) : ∃ later, wireFields raw =
    Relaxed.fieldsOf Relaxed.continues ((wireLines raw).takeWhile visible) ++ later ∧
      ∀ field ∈ later, takenName platform field = none := by
  have split := List.takeWhile_append_dropWhile (p := visible) (l := wireLines raw)
  have filled : ∀ line ∈ (wireLines raw).takeWhile visible, decide (line ≠ []) = true := by
    intro line member
    refine decide_eq_true ?_
    rintro rfl
    cases List.mem_takeWhile_imp member
  have header : (wireLines raw).takeWhile (fun line => line ≠ []) =
      (wireLines raw).takeWhile visible ++
        ((wireLines raw).dropWhile visible).takeWhile (fun line => line ≠ []) := by
    conv_lhs => rw [← split]
    exact List.takeWhile_append_of_pos filled
  rw [wireFields, header]
  cases rest : (wireLines raw).dropWhile visible with
  | nil => exact ⟨[], by simp, by simp⟩
  | cons first after =>
      rw [rest] at split
      by_cases empty : first = []
      · rw [List.takeWhile_cons_of_neg (by simpa using empty)]
        exact ⟨[], by simp, by simp⟩
      · have hidden : visible first = false := by
          have refused := List.head?_dropWhile_not visible (wireLines raw)
          rw [rest] at refused
          simpa using refused
        have closes : ∀ octet ∈ first, octet = CR := by simpa [visible] using hidden
        have begins : Relaxed.continues first = false := by
          cases first with
          | nil => rfl
          | cons octet more =>
              rw [closes octet (List.mem_cons_self ..)]
              rfl
        rw [List.takeWhile_cons_of_pos (by simpa using empty)]
        refine ⟨_, Relaxed.fieldsOf_append begins _ _, fun field member => ?_⟩
        have silent : ∀ line ∈ field, ':' ∉ trimmed line := by
          intro line inside colon
          have there := List.mem_cons.mp (Relaxed.mem_of_mem_fieldsOf member inside)
          rcases there with rfl | behind
          · have here : line ∈ wireLines raw := by
              rw [← split]
              simp
            rw [(trimmed_eq_nil (wireLines_unbroken here)).mpr hidden] at colon
            cases colon
          · have white := closed _ first after split.symm ?_ closes line
              ((List.takeWhile_sublist _).subset behind) ':' ((List.rdropWhile_prefix _ _).subset colon)
            · cases white
            · intro other earlier
              rcases List.mem_append.mp earlier with early | own
              · exact of_decide_eq_true (filled other early)
              · rwa [List.mem_singleton.mp own]
        rw [takenName, Option.map_eq_none_iff, Str.splitOnce_eq_none]
        cases field with
        | nil => exact List.not_mem_nil
        | cons line lines =>
            rw [fieldText, List.map_cons, joined, List.mem_append, List.mem_flatMap]
            rintro (own | ⟨text, inside, colon⟩)
            · exact silent line (List.mem_cons_self ..) own
            · obtain ⟨other, there, rfl⟩ := List.mem_map.mp inside
              rcases List.mem_append.mp colon with ending | own
              · exact absurd ending (by decide)
              · exact silent other (List.mem_cons_of_mem _ there) own

/-- A field that has a name is hashed as the signer does if it has the value of the signer. -/
theorem hashed_eq_iff {field : List Bytes} {header : Text × Text}
    (named : Relaxed.nameOf field = some (encode header.1)) :
    Relaxed.hashed field = encode (signedLine header) ↔
      Relaxed.valueOf field = encode header.2 := by
  have line : encode (signedLine header) =
      encode header.1 ++ 0x3A :: encode header.2 ++ CRLF := by
    rw [signedLine]
    simp [show String.utf8EncodeChar ':' = [0x3A] by decide, show encode crlfText = CRLF from rfl]
  rw [Relaxed.hashed, named, line]
  simp

/-- The signer and the receiver agree on the fields when they do for each name. -/
theorem instances_iff (platform : Platform) (raw : Bytes) :
    (signedInstances platform raw).map (fun header => some (encode (signedLine header.1), header.2)) =
        (Relaxed.instances ((selectHeaders platform raw).map (fun header => encode header.1))
          (wireFields raw).zipIdx).map
            (Option.map (fun field => (Relaxed.hashed field.1, field.2))) ↔
      ∀ name ∈ signedHeaders, ∀ header position,
        signedInstance platform raw name = some (header, position) →
          (Relaxed.lastOf (encode name) (wireFields raw).zipIdx).map
            (fun field => (Relaxed.hashed field.1, field.2)) =
              some (encode (signedLine header), position) := by
  have own {name : Text} {found : (Text × Text) × Nat}
      (signed : signedInstance platform raw name = some found) : found.1.1 = name := by
    obtain ⟨-, -, -, -, -, -, named, -⟩ := signedInstance_eq_some.mp signed
    exact named
  have keys (names : List Text) :
      (names.filterMap (signedInstance platform raw)).map (fun header => header.1.1) =
        names.filter (fun name => (signedInstance platform raw name).isSome) := by
    induction names with
    | nil => rfl
    | cons name names ih =>
        cases signed : signedInstance platform raw name with
        | none => simp [signed, ih]
        | some found => simp [signed, ih, own signed]
  have names : (selectHeaders platform raw).map (fun header => encode header.1) =
      (signedInstances platform raw).map (fun header => encode header.1.1) := by
    rw [selectHeaders_eq, List.map_map]
    rfl
  have distinct : ((signedInstances platform raw).map (fun header => encode header.1.1)).Nodup := by
    have whole : (signedInstances platform raw).map (fun header => encode header.1.1) =
        (signedHeaders.filter (fun name => (signedInstance platform raw name).isSome)).map encode := by
      rw [← keys, List.map_map]
      rfl
    rw [whole]
    exact List.Nodup.map (fun _ _ => encode_injective)
      (List.Nodup.filter _ (by decide : signedHeaders.Nodup))
  rw [names, Relaxed.instances_nodup distinct, List.map_map, List.map_map, List.map_inj_left]
  constructor
  · intro same name member header position signed
    have entry := same (header, position) (List.mem_filterMap.mpr ⟨name, member, signed⟩)
    rw [← own signed]
    exact entry.symm
  · rintro same ⟨header, position⟩ member
    obtain ⟨name, there, signed⟩ := List.mem_filterMap.mp member
    have entry := same name there header position signed
    rw [← own signed] at entry
    simpa only [Function.comp_apply] using entry.symm

/-- The condition under which the signer signs the fields that the receiver selects. -/
theorem fields_iff (closed : ReturnsClose raw) :
    (∀ name ∈ signedHeaders, ∀ header position,
      signedInstance platform raw name = some (header, position) →
        (Relaxed.lastOf (encode name) (wireFields raw).zipIdx).map
          (fun field => (Relaxed.hashed field.1, field.2)) =
            some (encode (signedLine header), position)) ↔
      ∀ name ∈ signedHeaders, ∀ front field back, wireFields raw = front ++ field :: back →
        takenName platform field = some name →
        (∀ other ∈ front, takenName platform other ≠ some name) →
          Relaxed.nameOf field = some (encode name) ∧
          (∀ other ∈ back, Relaxed.nameOf other ≠ some (encode name)) ∧
          (∀ line ∈ field, line.getLast? ≠ some CR) ∧
          ∃ text, Relaxed.valueOf field = encode text ∧ Str.trim text = text := by
  obtain ⟨later, whole, silent⟩ := wireFields_eq platform closed
  have seen := splitMessage_fields raw
  have lines : ∀ field ∈ Relaxed.fieldsOf Relaxed.continues ((wireLines raw).takeWhile visible),
      (∀ line ∈ field, LF ∉ line) ∧ ∀ line ∈ field.tail, Relaxed.continues line = true := by
    intro field member
    refine ⟨fun line inside => ?_, fun line => Relaxed.continues_of_mem_fieldsOf member⟩
    exact wireLines_unbroken
      ((List.takeWhile_sublist _).subset (Relaxed.mem_of_mem_fieldsOf member inside))
  generalize Relaxed.fieldsOf Relaxed.continues ((wireLines raw).takeWhile visible) = own
    at whole seen lines
  refine forall₂_congr fun name signed => ?_
  constructor
  · intro covered front field back split taken first
    -- the field is one that the signer sees
    obtain ⟨middle, rfl⟩ : ∃ middle, own = front ++ field :: middle := by
      have unseen : field ∉ later := by
        intro member
        rw [silent field member] at taken
        cases taken
      rcases List.append_eq_append_iff.mp (whole.symm.trans split) with
        ⟨more, -, rest⟩ | ⟨more, longer, rest⟩
      · exact absurd (rest ▸ by simp) unseen
      · cases more with
        | nil => exact absurd (by rw [show later = field :: back from rest.symm]; simp) unseen
        | cons next more =>
            obtain ⟨rfl, -⟩ := List.cons_eq_cons.mp rest
            exact ⟨more, longer⟩
    rw [takenName_eq] at taken
    obtain ⟨header, read, rfl⟩ := Option.map_eq_some_iff.mp taken
    have found : signedInstance platform raw header.1 = some (header, front.length) := by
      refine signedInstance_eq_some.mpr ⟨front.map fieldText, fieldText field,
        middle.map fieldText, by rw [seen]; simp, by simp, read, rfl, ?_⟩
      intro other member canonical reading same
      obtain ⟨inner, there, rfl⟩ := List.mem_map.mp member
      refine first inner there ?_
      rw [takenName_eq, reading, Option.map_some, same]
    obtain ⟨⟨last, place⟩, selected, same⟩ := Option.map_eq_some_iff.mp
      (covered header front.length found)
    obtain ⟨hash, rfl⟩ := Prod.mk.inj same
    obtain ⟨before, after, cut, numbered, bears, behind⟩ := Relaxed.lastOf_eq_some.mp selected
    obtain ⟨rfl, rest⟩ := List.append_inj (cut.symm.trans split) numbered
    obtain ⟨rfl, rfl⟩ := List.cons_eq_cons.mp rest
    obtain ⟨unbroken, continued⟩ := lines last (by simp)
    have value := (hashed_eq_iff bears).mp hash
    refine ⟨bears, behind, no_returns unbroken continued read ?_ bears value, header.2, value, ?_⟩
    · exact (by decide : ∀ name ∈ signedHeaders, '\r' ∉ name) _ signed
    · rw [canonicalizeHeader_value unbroken continued read]
      exact trim_tidied _ (fun _ white => white)
  · intro condition header position found
    obtain ⟨front, text, back, split, rfl, read, rfl, absent⟩ := signedInstance_eq_some.mp found
    rw [seen] at split
    obtain ⟨before, rest, rfl, rfl, more⟩ := List.map_eq_append_iff.mp split
    obtain ⟨field, after, rfl, rfl, rfl⟩ := List.map_eq_cons_iff.mp more
    have cut : wireFields raw = before ++ field :: (after ++ later) := by
      rw [whole]
      simp
    obtain ⟨bears, behind, returns, text, value, tight⟩ := condition before field _ cut
      (by rw [takenName_eq, read, Option.map_some]) (by
        intro other member taken
        rw [takenName_eq] at taken
        obtain ⟨canonical, reading, same⟩ := Option.map_eq_some_iff.mp taken
        exact absent _ (List.mem_map_of_mem member) canonical reading same)
    obtain ⟨unbroken, continued⟩ := lines field (by simp)
    have kept : field.map withoutReturns = field := by
      conv_rhs => rw [← List.map_id field]
      refine List.map_congr_left fun line member => List.rdropWhile_eq_self_iff.mpr fun some => ?_
      intro last
      refine returns line member ?_
      rw [List.getLast?_eq_some_getLast some, of_decide_eq_true last]
    have read_value := canonicalizeHeader_value unbroken continued read
    rw [kept, value, decode_encode, tight] at read_value
    have selected := Relaxed.lastOf_eq_some.mpr ⟨before, after ++ later, cut, rfl, bears, behind⟩
    rw [selected, Option.map_some, List.length_map]
    rw [(hashed_eq_iff bears).mpr (by rw [value, read_value])]

end Fields

/-- The signature of a message covers what is sent of it if and only if nothing but white space
follows a line of carriage returns in the header, the lines of the body are UTF-8 in relaxed form and
do not end with white space, and for each signed name the field that the signer takes is the last one
that has the name, with a value that is UTF-8 in relaxed form and has no white space around it. -/
theorem covered_iff (platform : Platform) (raw : Bytes) :
    Covered platform raw ↔ Coverable platform raw := by
  constructor
  · intro covered
    obtain ⟨closed, body⟩ := (body_iff raw).mp covered.body
    exact ⟨closed, body, (fields_iff closed).mp ((instances_iff platform raw).mp covered.fields)⟩
  · intro coverable
    exact ⟨(body_iff raw).mpr ⟨coverable.returns, coverable.body⟩,
      (instances_iff platform raw).mpr ((fields_iff coverable.returns).mpr coverable.fields)⟩

example : Covered .ascii (encode "Subject: a\r\n\tb \r\n\r\nHi  there \r\n\r\n") :=
  ⟨by decide +kernel, by decide +kernel⟩

/-- A message in Latin-1 with two subjects. -/
def latinMessage : Bytes :=
  encode "Subject: a\r\nSubject: b\r\n\r\ncaf" ++ [0xE9, CR, LF]

/-- The octet that is not UTF-8 is replaced before the body is hashed, and the first subject is
signed, where the receiver takes the second. -/
theorem latin_message_uncovered :
    canonicalizeBody (splitMessage latinMessage).2 = encode "caf\uFFFD\r\n" ∧
      Relaxed.bodyOf (wireBody latinMessage) = encode "caf" ++ [0xE9, CR, LF] ∧
      signedInstance .ascii latinMessage "subject" =
        some (("subject".toList, "a".toList), 0) ∧
      Relaxed.lastOf (encode "subject") (wireFields latinMessage).zipIdx =
        some ([encode "Subject: b"], 1) ∧
      ¬ Covered .ascii latinMessage := by
  refine ⟨by decide +kernel, by decide +kernel, by decide +kernel, by decide +kernel, ?_⟩
  intro covered
  exact absurd covered.body (by decide +kernel)

end Camelmailer.Dkim
