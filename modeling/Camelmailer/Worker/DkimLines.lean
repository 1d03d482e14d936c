import Camelmailer.Worker.HeaderEnds
import Camelmailer.Worker.SmtpClient
import Camelmailer.Text.Relaxed
import Camelmailer.Text.Lossy

/-!
# The lines of a message, for its signer and its receiver

The signer of a message cuts it into pieces and stops at the first line of carriage returns only.
`send_data` writes the same lines with other line ends, and a receiver takes the header for complete
at the first empty one. So the signer sees the first fields that the receiver sees.
-/

namespace Camelmailer.Dkim

open Utf8 Lines Worker

/-! ## What the receiver reads -/

def wireLines (raw : Bytes) : List Bytes := Relaxed.received (sendData raw)

/-- The fields of the message on the wire. -/
def wireFields (raw : Bytes) : List (List Bytes) :=
  Relaxed.fieldsOf Relaxed.continues ((wireLines raw).takeWhile (fun line => line ≠ []))

/-- The lines of its body. -/
def wireBody (raw : Bytes) : List Bytes := ((wireLines raw).dropWhile (fun line => line ≠ [])).tail

/-! ## What the signer reads -/

/-- A line as the signer reads it. -/
def trimmed (line : Bytes) : Text := trimLineEnd (fromUtf8Lossy line)

/-- The lines of a field, joined by line ends. -/
def joined : List Text → Text
  | [] => []
  | first :: rest => first ++ rest.flatMap (crlfText ++ ·)

/-- The text of a field as the signer reads it. -/
def fieldText (field : List Bytes) : Text := joined (field.map trimmed)

/-- A line that does not only consist of carriage returns. -/
def visible (line : Bytes) : Bool := line.any (fun octet => octet ≠ CR)

/-! ## The lines -/

section Lines

variable {raw line : Bytes}

theorem dataLines_eq (raw : Bytes) : dataLines raw =
    complete raw ++ if unfinished raw = [] then [] else [unfinished raw] := by
  obtain ⟨whole, open_⟩ := stream_unfinished raw
  conv_lhs => rw [whole]
  exact dataLines_unlines _ _ (fun line member => mem_complete member) open_

theorem dataLines_unbroken (member : line ∈ dataLines raw) : LF ∉ line := by
  rw [dataLines_eq] at member
  rcases List.mem_append.mp member with ended | last
  · exact mem_complete ended
  · split_ifs at last
    · cases last
    · rw [List.mem_singleton.mp last]
      exact (stream_unfinished raw).2

theorem withoutCr_initial (line : Bytes) : withoutCr line <+: line := by
  unfold withoutCr Str.stripLast
  split_ifs
  · exact List.dropLast_prefix line
  · exact List.prefix_refl line

/-- The lines of the transfer are those of the message. -/
theorem wireLines_eq (raw : Bytes) : wireLines raw = (dataLines raw).map withoutCr := by
  let stuffed (line : Bytes) : Bytes :=
    (if (withoutCr line).head? = some 0x2E then [0x2E] else []) ++ withoutCr line
  have written : sendData raw =
      unlines ((dataLines raw).map (fun line => stuffed line ++ [CR]) ++ [[0x2E, CR]]) := by
    rw [unlines_append, unlines, List.flatMap_map, sendData]
    congr 1
    refine List.flatMap_congr fun line _ => ?_
    simp [wireLine, stuffed, CRLF]
  have unbroken : ∀ line ∈ (dataLines raw).map (fun line => stuffed line ++ [CR]) ++ [[0x2E, CR]],
      LF ∉ line := by
    intro line member
    rcases List.mem_append.mp member with own | dot
    · obtain ⟨inner, there, rfl⟩ := List.mem_map.mp own
      have content : LF ∉ withoutCr inner :=
        fun feed => dataLines_unbroken there ((withoutCr_initial inner).subset feed)
      have dot : LF ∉ (if (withoutCr inner).head? = some 0x2E then [0x2E] else []) := by
        split_ifs <;> decide
      simp [stuffed, content, dot, show LF ≠ CR by decide]
    · rw [List.mem_singleton.mp dot]
      decide
  have cut := complete_unlines_append _ [] unbroken
  rw [List.append_nil, ← written, show complete [] = [] from rfl, List.append_nil] at cut
  have stripped (line : Bytes) : (Str.stripLast CR (line ++ [CR])).getD (line ++ [CR]) = line := by
    simp [Str.stripLast]
  have visible : ∀ line ∈ (dataLines raw).map stuffed, decide (line ≠ [0x2E]) = true := by
    intro line member
    obtain ⟨inner, -, rfl⟩ := List.mem_map.mp member
    refine decide_eq_true ?_
    intro alone
    by_cases dotted : (withoutCr inner).head? = some 0x2E
    · simp only [stuffed, if_pos dotted, List.cons_append, List.nil_append, List.cons.injEq,
        true_and] at alone
      rw [alone] at dotted
      cases dotted
    · simp only [stuffed, if_neg dotted, List.nil_append] at alone
      rw [alone] at dotted
      exact dotted rfl
  rw [wireLines, Relaxed.received, cut, List.map_append, List.map_map]
  rw [show ((fun line => (Str.stripLast CR line).getD line) ∘ fun line => stuffed line ++ [CR]) =
    stuffed from funext fun line => stripped (stuffed line), List.takeWhile_append_of_pos visible]
  rw [show [[0x2E, CR]].map (fun line => (Str.stripLast CR line).getD line) = [[0x2E]] by decide,
    List.takeWhile_cons_of_neg (by decide), List.append_nil, List.map_map]
  refine List.map_congr_left fun line _ => ?_
  by_cases dotted : (withoutCr line).head? = some 0x2E
  · simp [stuffed, Relaxed.unstuffed, dotted]
  · simp [stuffed, Relaxed.unstuffed, dotted]

theorem trimmed_withoutCr (line : Bytes) : trimmed (withoutCr line) = trimmed line := by
  unfold withoutCr Str.stripLast
  split_ifs with ends
  · obtain ⟨front, rfl⟩ := List.getLast?_eq_some_iff.mp ends
    rw [List.dropLast_concat, Option.getD_some, trimmed, trimmed,
      decode_concat_ascii front CR (by decide), trimLineEnd, trimLineEnd,
      List.rdropWhile_concat_pos _ _ _ (by decide)]
  · rfl

theorem trimmed_eq_nil (unbroken : LF ∉ line) : trimmed line = [] ↔ visible line = false := by
  rw [trimmed, trimLineEnd_eq_nil unbroken, visible]
  simp

theorem wireLines_unbroken (member : line ∈ wireLines raw) : LF ∉ line := by
  rw [wireLines_eq] at member
  obtain ⟨inner, there, rfl⟩ := List.mem_map.mp member
  exact fun feed => dataLines_unbroken there ((withoutCr_initial inner).subset feed)

/-- The pieces that the signer goes through are the lines of the transfer, read with more or fewer
line ends. -/
theorem pieces_trimmed (raw : Bytes) :
    (splitInclusive raw).map trimmed = (wireLines raw).map trimmed := by
  obtain ⟨whole, open_⟩ := stream_unfinished raw
  have same : trimmed ∘ withoutCr = trimmed := funext trimmed_withoutCr
  rw [wireLines_eq, List.map_map, same, dataLines_eq]
  conv_lhs => rw [whole]
  rw [splitInclusive_unlines (fun line member => mem_complete member),
    splitInclusive_unbroken open_, List.map_append, List.map_append, List.map_map]
  congr 1
  exact List.map_congr_left fun line _ => trimLineEnd_feed line

theorem agree_blank : Agree Relaxed.isBlank (fun char => char = ' ' || char = '\t') :=
  (agree_octet 0x20 (by decide)).or (agree_octet 0x09 (by decide))

/-- The beginning of a line decides whether it is folded, also on the wire. -/
theorem isFolded_trimmed (line : Bytes) : isFolded (trimmed line) = Relaxed.continues line := by
  have front (text : Text) : isFolded (trimLineEnd text) = isFolded text := by
    cases text with
    | nil => rfl
    | cons char rest =>
        obtain ⟨ending, split⟩ := List.rdropWhile_prefix
          (fun char => decide (char = '\r') || decide (char = '\n')) (char :: rest)
        change trimLineEnd (char :: rest) ++ ending = char :: rest at split
        cases kept : trimLineEnd (char :: rest) with
        | nil =>
            have ends := List.rdropWhile_eq_nil_iff.mp kept char (List.mem_cons_self ..)
            rw [Bool.or_eq_true, decide_eq_true_eq, decide_eq_true_eq] at ends
            rcases ends with rfl | rfl <;> rfl
        | cons first more =>
            rw [kept] at split
            rw [(List.cons_eq_cons.mp split).1]
            rfl
  rw [trimmed, front]
  cases line with
  | nil => rfl
  | cons octet rest =>
      by_cases small : octet.toNat < 0x80
      · have same := agree_blank.ascii octet small
        rw [decode_cons_ascii octet rest small]
        simpa [isFolded, Relaxed.continues] using same
      · obtain ⟨char, more, shown, wide⟩ := decode_cons_high octet rest (by omega)
        have other := agree_blank.wide char wide
        have high := agree_blank.high octet (by omega)
        rw [shown]
        simpa [isFolded, Relaxed.continues, high] using other

end Lines

/-! ## The header -/

/-- The loop over the lines groups those before the first empty one. -/
theorem splitLines_fields (pieces : List Bytes) (headers : List Text) (current : Option Text)
    (offset : Nat) :
    let texts := (pieces.map trimmed).takeWhile (fun text => text ≠ [])
    (splitLines headers current offset pieces).1 = headers ++
      (current.map (fun header =>
        header ++ (texts.takeWhile isFolded).flatMap (crlfText ++ ·))).toList ++
      (Relaxed.fieldsOf isFolded texts).map joined := by
  induction pieces generalizing headers current offset with
  | nil =>
      cases current <;> simp [splitLines, Relaxed.fieldsOf]
  | cons piece rest ih =>
      dsimp only at ih ⊢
      have loop : splitLines headers current offset (piece :: rest) =
          if trimmed piece = [] then (headers ++ current.toList, offset + piece.length)
          else if isFolded (trimmed piece) then
            splitLines headers (current.map (fun header => header ++ crlfText ++ trimmed piece))
              (offset + piece.length) rest
          else splitLines (headers ++ current.toList) (some (trimmed piece))
            (offset + piece.length) rest := rfl
      rw [loop, List.map_cons]
      by_cases empty : trimmed piece = []
      · rw [if_pos empty, List.takeWhile_cons_of_neg (by simpa using empty)]
        cases current <;> simp [Relaxed.fieldsOf]
      · rw [if_neg empty, List.takeWhile_cons_of_pos (by simpa using empty), Relaxed.fieldsOf]
        cases folded : isFolded (trimmed piece) with
        | true =>
            rw [if_pos rfl, ih, List.takeWhile_cons_of_pos folded]
            cases current <;> simp
        | false =>
            rw [if_neg Bool.false_ne_true, ih,
              List.takeWhile_cons_of_neg (by simp [folded])]
            cases current <;> simp [joined]

/-- The header fields of the signer are those of the wire, up to the first line of carriage
returns. -/
theorem splitMessage_fields (raw : Bytes) : (splitMessage raw).1 =
    (Relaxed.fieldsOf Relaxed.continues ((wireLines raw).takeWhile visible)).map fieldText := by
  have grouped := splitLines_fields (splitInclusive raw) [] none 0
  have seen : (wireLines raw).takeWhile (fun line => decide (trimmed line ≠ [])) =
      (wireLines raw).takeWhile visible := by
    refine Relaxed.takeWhile_congr fun line member => ?_
    have either := trimmed_eq_nil (wireLines_unbroken member)
    cases shown : visible line with
    | true => simpa [shown] using either
    | false => simpa [shown] using either
  have continued : Relaxed.fieldsOf (fun line => isFolded (trimmed line))
      ((wireLines raw).takeWhile visible) =
        Relaxed.fieldsOf Relaxed.continues ((wireLines raw).takeWhile visible) :=
    Relaxed.fieldsOf_congr fun line _ => isFolded_trimmed line
  rw [pieces_trimmed, List.takeWhile_map] at grouped
  change (splitLines [] none 0 (splitInclusive raw)).1 = _
  rw [grouped]
  change [] ++ [] ++ (Relaxed.fieldsOf isFolded (((wireLines raw).takeWhile
    (fun line => decide (trimmed line ≠ []))).map trimmed)).map joined = _
  rw [seen, Relaxed.fieldsOf_map, continued, List.map_map]
  rfl

/-! ## The body -/

/-- The lines of the body that the signer hashes: those behind the first line of carriage returns. -/
theorem splitMessage_bodyLines (raw : Bytes) : (dataLines (splitMessage raw).2).map withoutCr =
    ((wireLines raw).dropWhile visible).tail := by
  obtain ⟨whole, open_⟩ := stream_unfinished raw
  have unbroken : ∀ line ∈ complete raw, LF ∉ line := fun line member => mem_complete member
  have same : visible ∘ withoutCr = visible := by
    funext line
    rw [Function.comp_apply, withoutCr, Str.stripLast]
    split_ifs with ends
    · obtain ⟨front, rfl⟩ := List.getLast?_eq_some_iff.mp ends
      simp [visible]
    · rfl
  have shown (line : Bytes) : visible line = true ↔ ¬ ∀ octet ∈ line, octet = CR := by
    simp [visible]
  rw [wireLines_eq, List.dropWhile_map, same]
  rw [dataLines_eq raw]
  have split := List.takeWhile_append_dropWhile (p := visible) (l := complete raw)
  cases rest : (complete raw).dropWhile visible with
  | nil =>
      rw [rest, List.append_nil] at split
      have all : ∀ line ∈ complete raw, visible line = true :=
        fun line member => List.mem_takeWhile_imp (split ▸ member)
      have pieces : splitInclusive raw = (complete raw).map (· ++ [LF]) ++
          if unfinished raw = [] then [] else [unfinished raw] := by
        conv_lhs => rw [whole]
        rw [splitInclusive_unlines unbroken, splitInclusive_unbroken open_]
      have total : raw.length = (unlines (complete raw)).length + (unfinished raw).length := by
        conv_lhs => rw [whole]
        exact List.length_append
      have nothing : (splitMessage raw).2 = [] := by
        rw [splitMessage_body, pieces,
          readOctets_append unbroken (fun line member => (shown line).mp (all line member)),
          List.drop_eq_nil_iff, total]
        split_ifs with ended
        · rw [ended]
          exact Nat.le_refl _
        · rw [readOctets]
          omega
      rw [nothing, List.dropWhile_append_of_pos all]
      split_ifs
      · rfl
      · rw [List.dropWhile_cons]
        split_ifs <;> rfl
  | cons returns lasts =>
      rw [rest] at split
      have hidden : visible returns = false := by
        have refused := List.head?_dropWhile_not visible (complete raw)
        rw [rest] at refused
        simpa using refused
      have body : (splitMessage raw).2 = unlines lasts ++ unfinished raw := splitMessage_returns
        (fun line member => (shown line).mp (List.mem_takeWhile_imp member))
        (split ▸ unbroken) (by simpa [visible] using hidden) (by rw [split]; exact whole)
      rw [body, dataLines_unlines _ _ (fun line member => unbroken line (split ▸ by simp [member]))
        open_, List.dropWhile_append, rest]
      rfl

end Camelmailer.Dkim
