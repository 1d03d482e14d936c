import Camelmailer.Text.Utf8

/-!
# Lines of an octet stream

A stream of octets is cut at its line feeds. The complete lines are those whose
line feed has arrived; what follows the last one is unfinished. A carriage return
before the line feed belongs to the line.

Encoding a text never produces a line feed other than that of a `\n`, so cutting
the encoding of a text gives the encodings of the lines of the text.
-/

namespace Camelmailer.Lines

open Utf8

/-- The line feed octet. -/
def LF : UInt8 := 0x0A

/-- The carriage return octet. -/
def CR : UInt8 := 0x0D

/-- The octets that end a line in a mail protocol. -/
def CRLF : Bytes := [CR, LF]

/-- The lines of a stream whose line feed has arrived, without that line feed. -/
def complete (bytes : Bytes) : List Bytes := (bytes.splitOn LF).dropLast

/-- What follows the last line feed of a stream. -/
def unfinished (bytes : Bytes) : Bytes := (bytes.splitOn LF).getLastD []

/-- The first complete line and what follows its line feed. -/
def cutLine : Bytes → Option (Bytes × Bytes)
  | [] => none
  | octet :: rest =>
      if octet = LF then some ([], rest)
      else (cutLine rest).map (fun parts => (octet :: parts.1, parts.2))

/-- The pieces of a slice cut after each line feed, which they keep. -/
def splitInclusive : Bytes → List Bytes
  | [] => []
  | octet :: rest =>
      if octet = LF then [octet] :: splitInclusive rest
      else match splitInclusive rest with
        | [] => [[octet]]
        | piece :: pieces => (octet :: piece) :: pieces

/-- Lines written one after the other, each with its line feed. -/
def unlines (lines : List Bytes) : Bytes := lines.flatMap (· ++ [LF])

@[simp] theorem unlines_nil : unlines [] = [] := rfl

@[simp] theorem unlines_cons (line : Bytes) (rest : List Bytes) :
    unlines (line :: rest) = line ++ LF :: unlines rest := by
  simp [unlines]

@[simp] theorem unlines_append (front back : List Bytes) :
    unlines (front ++ back) = unlines front ++ unlines back := by
  simp [unlines]

/-- The first line of a stream, given up to its line feed. -/
theorem complete_line (line rest : Bytes) (unbroken : LF ∉ line) :
    complete (line ++ LF :: rest) = line :: complete rest := by
  rw [complete, List.splitOn_append_cons_self_of_not_mem unbroken, complete,
    List.dropLast_cons_of_ne_nil (List.splitOn_ne_nil LF rest)]

/-- A stream without a line feed has no complete line. -/
theorem complete_unbroken (bytes : Bytes) (unbroken : LF ∉ bytes) : complete bytes = [] := by
  rw [complete, List.splitOn_eq_singleton unbroken]
  rfl

/-- Cutting the first line finds the first line feed. -/
theorem cutLine_spec (bytes : Bytes) :
    (cutLine bytes = none ∧ LF ∉ bytes) ∨ ∃ line rest, cutLine bytes = some (line, rest) ∧
      bytes = line ++ LF :: rest ∧ LF ∉ line := by
  induction bytes with
  | nil => exact .inl ⟨rfl, by simp⟩
  | cons octet later ih =>
    unfold cutLine
    by_cases ends : octet = LF
    · rw [if_pos ends]
      exact .inr ⟨[], later, rfl, by rw [ends]; rfl, by simp⟩
    · rw [if_neg ends]
      obtain ⟨missing, open_⟩ | ⟨line, rest, found, split, unbroken⟩ := ih
      · rw [missing]
        exact .inl ⟨rfl, by simp [Ne.symm ends, open_]⟩
      · rw [found]
        exact .inr ⟨octet :: line, rest, rfl, by rw [split]; rfl, by simp [Ne.symm ends, unbroken]⟩

/-- What follows the first line does not depend on how much of it has arrived. -/
theorem cutLine_append {bytes line rest : Bytes} (more : Bytes)
    (found : cutLine bytes = some (line, rest)) :
    cutLine (bytes ++ more) = some (line, rest ++ more) := by
  induction bytes generalizing line with
  | nil => cases found
  | cons octet later ih =>
    unfold cutLine at found
    rw [List.cons_append]
    unfold cutLine
    by_cases ends : octet = LF
    · rw [if_pos ends] at found ⊢
      cases found
      rfl
    · rw [if_neg ends] at found ⊢
      obtain ⟨⟨front, back⟩, cut, same⟩ := Option.map_eq_some_iff.mp found
      cases same
      rw [ih cut]
      rfl

/-- Written lines are the first complete ones, whatever follows. -/
theorem complete_unlines_append (lines : List Bytes) (rest : Bytes)
    (unbroken : ∀ line ∈ lines, LF ∉ line) :
    complete (unlines lines ++ rest) = lines ++ complete rest := by
  induction lines with
  | nil => rfl
  | cons line lines ih =>
    have restUnbroken : ∀ line ∈ lines, LF ∉ line := by
      intro other member
      exact unbroken other (List.mem_cons_of_mem line member)
    rw [unlines_cons, List.append_assoc, List.cons_append,
      complete_line line _ (unbroken line List.mem_cons_self), ih restUnbroken]
    rfl

/-- Written lines followed by an unfinished one are exactly the complete lines. -/
theorem complete_unlines (lines : List Bytes) (tail : Bytes)
    (unbroken : ∀ line ∈ lines, LF ∉ line) (open_ : LF ∉ tail) :
    complete (unlines lines ++ tail) = lines := by
  rw [complete_unlines_append lines tail unbroken, complete_unbroken tail open_, List.append_nil]

/-- A stream is its complete lines followed by the unfinished one, and no line
contains a line feed. -/
theorem stream_lines (bytes : Bytes) :
    ∃ tail, bytes = unlines (complete bytes) ++ tail ∧ LF ∉ tail ∧
      ∀ line ∈ complete bytes, LF ∉ line := by
  induction bytes with
  | nil => exact ⟨[], rfl, by simp, by simp [complete]⟩
  | cons octet rest ih =>
    obtain ⟨tail, whole, open_, unbroken⟩ := ih
    by_cases ends : octet = LF
    · subst octet
      have lines : complete (LF :: rest) = [] :: complete rest :=
        complete_line [] rest (by simp)
      refine ⟨tail, ?_, open_, ?_⟩
      · rw [lines, unlines_cons, List.nil_append, List.cons_append, ← whole]
      · rw [lines]
        intro line member
        rcases List.mem_cons.mp member with rfl | later
        · simp
        · exact unbroken line later
    · cases lines : complete rest with
      | nil =>
        have same : rest = tail := by simpa [lines] using whole
        have still : LF ∉ octet :: rest := by
          rw [same]
          intro member
          rcases List.mem_cons.mp member with rfl | later
          · exact ends rfl
          · exact open_ later
        exact ⟨octet :: rest, by simp [complete_unbroken _ still], still,
          by simp [complete_unbroken _ still]⟩
      | cons line more =>
        have first : LF ∉ octet :: line := by
          intro member
          rcases List.mem_cons.mp member with rfl | later
          · exact ends rfl
          · exact unbroken line (by simp [lines]) later
        have split : octet :: rest = (octet :: line) ++ LF :: (unlines more ++ tail) := by
          rw [whole, lines]
          simp
        have later : ∀ other ∈ more, LF ∉ other := by
          intro other member
          exact unbroken other (by simp [lines, member])
        have cut : complete (octet :: rest) = (octet :: line) :: more := by
          rw [split, complete_line _ _ first, complete_unlines more tail later open_]
        refine ⟨tail, by rw [cut, split]; simp, open_, ?_⟩
        rw [cut]
        intro other member
        rcases List.mem_cons.mp member with rfl | following
        · exact first
        · exact later other following

/-- Cutting at line feeds begins with written lines, whatever follows them. -/
theorem splitOn_unlines (lines : List Bytes) (rest : Bytes) (unbroken : ∀ line ∈ lines, LF ∉ line) :
    (unlines lines ++ rest).splitOn LF = lines ++ rest.splitOn LF := by
  induction lines with
  | nil => rfl
  | cons line lines ih =>
    rw [unlines_cons, List.append_assoc, List.cons_append,
      List.splitOn_append_cons_self_of_not_mem (unbroken line List.mem_cons_self),
      ih (fun other member => unbroken other (List.mem_cons_of_mem _ member))]
    rfl

/-- A stream that ends with a line feed is its complete lines. -/
theorem unlines_complete (bytes : Bytes) : unlines (complete (bytes ++ [LF])) = bytes ++ [LF] := by
  obtain ⟨tail, whole, open_, -⟩ := stream_lines (bytes ++ [LF])
  cases last : tail.reverse with
  | nil =>
    rw [List.reverse_eq_nil_iff.mp last, List.append_nil] at whole
    exact whole.symm
  | cons octet front =>
    have ends : tail = front.reverse ++ [octet] := by
      rw [← List.reverse_reverse tail, last, List.reverse_cons]
    rw [ends, ← List.append_assoc] at whole
    have feed : LF = octet := (List.append_inj' whole rfl).2 |> List.singleton_inj.mp
    exact absurd (by rw [ends, feed]; simp) open_

/-- No line contains a line feed. -/
theorem mem_complete {raw line : Bytes} (member : line ∈ complete raw) : LF ∉ line := by
  obtain ⟨-, -, -, unbroken⟩ := stream_lines raw
  exact unbroken line member

/-- A stream is its complete lines and the unfinished one. -/
theorem stream_unfinished (raw : Bytes) :
    raw = unlines (complete raw) ++ unfinished raw ∧ LF ∉ unfinished raw := by
  obtain ⟨tail, whole, open_, unbroken⟩ := stream_lines raw
  have last : unfinished raw = tail := by
    rw [unfinished, whole, splitOn_unlines _ _ unbroken, List.splitOn_eq_singleton open_]
    simp
  rw [last]
  exact ⟨whole, open_⟩

/-- The pieces of a stream are the stream. -/
theorem splitInclusive_flatten (bytes : Bytes) : (splitInclusive bytes).flatten = bytes := by
  induction bytes with
  | nil => rfl
  | cons octet rest ih =>
    unfold splitInclusive
    split
    · rw [List.flatten_cons, ih]
      rfl
    · cases pieces : splitInclusive rest with
      | nil | cons piece more =>
        rw [pieces] at ih
        rw [← ih]
        rfl

/-- The first piece of a stream, given with its line feed. -/
theorem splitInclusive_line (line rest : Bytes) (unbroken : LF ∉ line) :
    splitInclusive (line ++ LF :: rest) = (line ++ [LF]) :: splitInclusive rest := by
  induction line with
  | nil => simp [splitInclusive]
  | cons octet line ih =>
    have parts : octet ≠ LF ∧ LF ∉ line := by simpa [eq_comm] using unbroken
    rw [List.cons_append, splitInclusive, if_neg parts.1, ih parts.2]
    rfl

/-- The pieces of written lines are these with their line feeds. -/
theorem splitInclusive_unlines {lines : List Bytes} (unbroken : ∀ line ∈ lines, LF ∉ line)
    (rest : Bytes) :
    splitInclusive (unlines lines ++ rest) = lines.map (· ++ [LF]) ++ splitInclusive rest := by
  induction lines with
  | nil => rfl
  | cons line lines ih =>
      rw [unlines_cons, List.append_assoc, List.cons_append,
        splitInclusive_line _ _ (unbroken line (List.mem_cons_self ..)), ih
          (fun other member => unbroken other (List.mem_cons_of_mem _ member))]
      rfl

theorem splitInclusive_unbroken {tail : Bytes} (unbroken : LF ∉ tail) :
    splitInclusive tail = if tail = [] then [] else [tail] := by
  induction tail with
  | nil => rfl
  | cons octet tail ih =>
      have other : octet ≠ LF := fun same => unbroken (by simp [same])
      rw [splitInclusive, if_neg other, ih
        (fun member => unbroken (List.mem_cons_of_mem _ member))]
      cases tail <;> rfl

/-! ## Lines of an encoded text -/

/-- A text is encoded with a line feed if it has one. -/
theorem feed_mem_encode {text : Text} : LF ∈ encode text ↔ '\n' ∈ text := by
  constructor
  · intro member
    obtain ⟨char, included, octet⟩ := List.mem_flatMap.mp member
    have code := (mem_encodeChar char LF (by decide)).mp octet
    rwa [Char.toNat_inj.mp (show char.toNat = '\n'.toNat from code)] at included
  · intro member
    exact List.mem_flatMap.mpr ⟨'\n', member, (mem_encodeChar '\n' LF (by decide)).mpr rfl⟩

/-- An encoded text is the encoding of its lines. -/
theorem encode_lines (text : Text) :
    ∃ (lines : List Text) (tail : Text), encode text = unlines (lines.map encode) ++ encode tail ∧
      (∀ line ∈ lines, LF ∉ encode line) ∧ LF ∉ encode tail := by
  have feed : String.utf8EncodeChar '\n' = [LF] := by decide
  induction text with
  | nil => exact ⟨[], [], rfl, by simp, by simp⟩
  | cons char rest ih =>
    obtain ⟨lines, tail, whole, unbroken, open_⟩ := ih
    by_cases ends : char = '\n'
    · refine ⟨[] :: lines, tail, ?_, ?_, open_⟩
      · rw [encode_cons, ends, feed, whole]
        simp
      · intro line member
        rcases List.mem_cons.mp member with rfl | later
        · simp
        · exact unbroken line later
    · have plain : LF ∉ String.utf8EncodeChar char := by
        rw [mem_encodeChar char LF (by decide)]
        intro same
        exact ends (Char.toNat_inj.mp same)
      cases lines with
      | nil =>
        refine ⟨[], char :: tail, ?_, by simp, ?_⟩
        · rw [encode_cons, whole]
          simp
        · simp [plain, open_]
      | cons line lines =>
        refine ⟨(char :: line) :: lines, tail, ?_, ?_, open_⟩
        · rw [encode_cons, whole]
          simp
        · intro other member
          rcases List.mem_cons.mp member with rfl | later
          · simp [plain, unbroken line List.mem_cons_self]
          · exact unbroken other (List.mem_cons_of_mem _ later)

end Camelmailer.Lines
