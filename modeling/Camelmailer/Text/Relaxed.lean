import Camelmailer.Text.Str
import Camelmailer.Text.Lines
import Mathlib.Data.List.GetD

/-!
# Mail in relaxed form

What a receiver does with a message before it checks a signature: it reads the lines off the wire
(RFC 5321), cuts the header into its fields, selects the fields that the signature names, and brings
them and the body into the relaxed form (RFC 6376). Nothing is decoded on the way; a message is
octets.
-/

namespace Camelmailer.Relaxed

open Utf8 Lines

/-! ## Lines -/

/-- A line without the dot that was put in front of it for the transfer. -/
def unstuffed (line : Bytes) : Bytes := if line.head? = some 0x2E then line.tail else line

/-- The lines of a transferred message, up to the dot alone. -/
def received (octets : Bytes) : List Bytes :=
  (((complete octets).map (fun line => (Str.stripLast CR line).getD line)).takeWhile
    (fun line => line ≠ [0x2E])).map unstuffed

/-- A blank or a tab. -/
def isBlank (octet : UInt8) : Bool := octet = 0x20 || octet = 0x09

/-- Runs of blanks and tabs become one blank each. `inside` tells whether the octet before was in
such a run. -/
def reduce : Bool → Bytes → Bytes
  | _, [] => []
  | inside, octet :: rest =>
      if isBlank octet then (if inside then [] else [0x20]) ++ reduce true rest
      else octet :: reduce false rest

/-- Lines with their line ends. -/
def written (lines : List Bytes) : Bytes := lines.flatMap (· ++ CRLF)

/-! ## The body -/

def lineOf (line : Bytes) : Bytes := (reduce false line).rdropWhile isBlank

/-- The lines of a body as they are hashed: without the empty ones at the end. -/
def bodyOf (lines : List Bytes) : Bytes := written ((lines.map lineOf).rdropWhile (· = []))

/-! ## The fields -/

def continues (line : Bytes) : Bool := line.head?.any isBlank

/-- Lines as fields: every line that does not continue one begins one. -/
def fieldsOf {α : Type} (continues : α → Bool) : List α → List (List α)
  | [] => []
  | line :: rest =>
      if continues line then fieldsOf continues rest
      else (line :: rest.takeWhile continues) :: fieldsOf continues rest

/-- The parts before and after the first separator. -/
def cutAt {α : Type} [DecidableEq α] (separator : α) : List α → Option (List α × List α)
  | [] => none
  | item :: rest =>
      if item = separator then some ([], rest)
      else (cutAt separator rest).map (fun parts => (item :: parts.1, parts.2))

/-- The lower case of an ASCII letter. -/
def lower (octet : UInt8) : UInt8 :=
  if 0x41 ≤ octet.toNat ∧ octet.toNat ≤ 0x5A then octet + 0x20 else octet

/-- The name of a field, if it has one. -/
def nameOf (field : List Bytes) : Option Bytes :=
  (cutAt 0x3A field.flatten).map (fun parts => (parts.1.rdropWhile isBlank).map lower)

/-- A value without blanks at its ends and with single ones in it. -/
def tidied (octets : Bytes) : Bytes := ((reduce false octets).dropWhile isBlank).rdropWhile isBlank

/-- The value of an unfolded field. -/
def valueOf (field : List Bytes) : Bytes :=
  ((cutAt 0x3A field.flatten).map (fun parts => tidied parts.2)).getD []

/-- A field as it is hashed. -/
def hashed (field : List Bytes) : Bytes := (nameOf field).getD [] ++ 0x3A :: valueOf field ++ CRLF

/-- The last field of a name. Fields are numbered, so that equal ones can be told apart. -/
def lastOf (name : Bytes) (fields : List (List Bytes × Nat)) : Option (List Bytes × Nat) :=
  (fields.filter (fun field => nameOf field.1 = some name)).getLast?

/-- The fields that a list of names selects: for each name the last one that is not yet used. -/
def instances : List Bytes → List (List Bytes × Nat) → List (Option (List Bytes × Nat))
  | [], _ => []
  | name :: names, fields =>
      lastOf name fields ::
        instances names (fields.filter (fun field => some field ≠ lastOf name fields))

/-! ## Selection -/

section Selection

theorem cutAt_eq_some {α : Type} [DecidableEq α] {separator : α} {items front back : List α} :
    cutAt separator items = some (front, back) ↔
      items = front ++ separator :: back ∧ separator ∉ front :=
  Str.cut_eq_some rfl (fun _ _ => rfl)

variable {name : Bytes}

theorem lastOf_name {fields : List (List Bytes × Nat)} {field : List Bytes × Nat}
    (found : lastOf name fields = some field) : nameOf field.1 = some name := by
  have member := List.mem_of_getLast? found
  simpa using (List.mem_filter.mp member).2

/-- The use of a field of another name changes nothing. -/
theorem lastOf_unused {other : Bytes} (distinct : other ≠ name)
    (fields : List (List Bytes × Nat)) :
    lastOf other (fields.filter (fun field => some field ≠ lastOf name fields)) =
      lastOf other fields := by
  unfold lastOf
  rw [List.filter_filter]
  congr 1
  refine List.filter_congr fun field _ => ?_
  by_cases named : nameOf field.1 = some other
  · have unused : some field ≠ lastOf name fields := by
      intro used
      have own := lastOf_name used.symm
      exact distinct (Option.some.inj (named.symm.trans own))
    have apart : decide (some field ≠ lastOf name fields) = true := decide_eq_true unused
    simp only [named]
    exact apart
  · simp [named]

/-- Distinct names select the last field of each. -/
theorem instances_nodup {names : List Bytes} (distinct : names.Nodup)
    (fields : List (List Bytes × Nat)) :
    instances names fields = names.map (fun name => lastOf name fields) := by
  induction names generalizing fields with
  | nil => rfl
  | cons name names ih =>
      obtain ⟨fresh, others⟩ := List.nodup_cons.mp distinct
      rw [instances, ih others]
      congr 1
      refine List.map_congr_left fun other member => ?_
      refine lastOf_unused ?_ fields
      rintro rfl
      exact fresh member

/-- A numbered list, cut at one of its entries. -/
theorem zipIdx_cut {α : Type} {items : List α} {item : α} {position : Nat}
    {before after : List (α × Nat)} : items.zipIdx = before ++ (item, position) :: after ↔
      ∃ front back, items = front ++ item :: back ∧ front.length = position ∧
        before = front.zipIdx ∧ after = back.zipIdx (position + 1) := by
  constructor
  · intro whole
    obtain ⟨front, rest, rfl, rfl, behind⟩ := List.zipIdx_eq_append_iff.mp whole
    obtain ⟨own, back, rfl, same, rfl⟩ := List.zipIdx_eq_cons_iff.mp behind.symm
    obtain ⟨rfl, rfl⟩ := Prod.mk.inj same
    exact ⟨front, back, rfl, (Nat.zero_add _).symm, rfl, rfl⟩
  · rintro ⟨front, back, rfl, rfl, rfl, rfl⟩
    simp [List.zipIdx_append]

/-- The last field of a name: it has the name, and none behind it does. -/
theorem lastOf_eq_some {fields : List (List Bytes)} {field : List Bytes} {position : Nat} :
    lastOf name fields.zipIdx = some (field, position) ↔
      ∃ front back, fields = front ++ field :: back ∧ front.length = position ∧
        nameOf field = some name ∧ ∀ other ∈ back, nameOf other ≠ some name := by
  rw [lastOf, List.getLast?_filter, List.find?_eq_some_iff_append]
  simp only [decide_eq_true_eq, Bool.not_eq_true', decide_eq_false_iff_not]
  constructor
  · rintro ⟨named, after, before, split, absent⟩
    have whole : fields.zipIdx = before.reverse ++ (field, position) :: after.reverse := by
      rw [← List.reverse_reverse fields.zipIdx, split]
      simp
    obtain ⟨front, back, rfl, numbered, -, behind⟩ := zipIdx_cut.mp whole
    refine ⟨front, back, rfl, numbered, named, fun other member => ?_⟩
    obtain ⟨number, there⟩ : ∃ number, (other, number) ∈ back.zipIdx (position + 1) := by
      obtain ⟨index, bound, rfl⟩ := List.getElem_of_mem member
      exact ⟨position + 1 + index, List.mem_iff_getElem.mpr ⟨index, by simpa using bound, by simp⟩⟩
    exact absent (other, number) (List.mem_reverse.mp (behind ▸ there))
  · rintro ⟨front, back, split, numbered, named, absent⟩
    have whole := zipIdx_cut.mpr ⟨front, back, split, numbered, rfl, rfl⟩
    refine ⟨named, (back.zipIdx (position + 1)).reverse, front.zipIdx.reverse, ?_, ?_⟩
    · rw [whole]
      simp
    · intro other member
      exact absent other.1 (List.fst_mem_of_mem_zipIdx (List.mem_reverse.mp member))

end Selection

/-! ## Grouping -/

section Grouping

variable {α β : Type}

theorem fieldsOf_map (continues : β → Bool) (change : α → β) (lines : List α) :
    fieldsOf continues (lines.map change) =
      (fieldsOf (fun line => continues (change line)) lines).map (List.map change) := by
  induction lines with
  | nil => rfl
  | cons line lines ih =>
      rw [List.map_cons, fieldsOf, fieldsOf, ih]
      split_ifs
      · rfl
      · rw [List.takeWhile_map]
        rfl

variable {lines : List α}

theorem takeWhile_congr {first second : α → Bool} (same : ∀ line ∈ lines, first line = second line) :
    lines.takeWhile first = lines.takeWhile second := by
  induction lines with
  | nil => rfl
  | cons line lines ih =>
      obtain ⟨own, others⟩ := List.forall_mem_cons.mp same
      rw [List.takeWhile_cons, List.takeWhile_cons, ih others, own]

theorem fieldsOf_congr {first second : α → Bool} (same : ∀ line ∈ lines, first line = second line) :
    fieldsOf first lines = fieldsOf second lines := by
  induction lines with
  | nil => rfl
  | cons line lines ih =>
      obtain ⟨own, others⟩ := List.forall_mem_cons.mp same
      rw [fieldsOf, fieldsOf, ih others, takeWhile_congr others, own]

variable {line : α} {continues : α → Bool}

/-- A line that begins a field leaves the fields before it as they are. -/
theorem fieldsOf_append (begins : continues line = false) (front back : List α) :
    fieldsOf continues (front ++ line :: back) =
      fieldsOf continues front ++ fieldsOf continues (line :: back) := by
  induction front with
  | nil => rfl
  | cons first front ih =>
      have stops : (front ++ line :: back).takeWhile continues = front.takeWhile continues := by
        rw [List.takeWhile_append]
        split_ifs with whole
        · rw [List.takeWhile_cons_of_neg (by simp [begins]), List.append_nil]
          exact (List.takeWhile_prefix _).eq_of_length whole |>.symm
        · rfl
      rw [List.cons_append, fieldsOf.eq_2, ih, stops, fieldsOf.eq_2 _ first]
      split_ifs
      · rfl
      · rfl

theorem mem_of_mem_fieldsOf {field : List α} (member : field ∈ fieldsOf continues lines)
    (inside : line ∈ field) : line ∈ lines := by
  induction lines with
  | nil => simp [fieldsOf] at member
  | cons first lines ih =>
      rw [fieldsOf] at member
      split_ifs at member
      · exact List.mem_cons_of_mem _ (ih member)
      · rcases List.mem_cons.mp member with rfl | later
        · rcases List.mem_cons.mp inside with rfl | continued
          · exact List.mem_cons_self ..
          · exact List.mem_cons_of_mem _ (List.takeWhile_subset _ continued)
        · exact List.mem_cons_of_mem _ (ih later)

/-- All lines of a field but the first continue it. -/
theorem continues_of_mem_fieldsOf {field : List α} (member : field ∈ fieldsOf continues lines)
    (inside : line ∈ field.tail) :
    continues line = true := by
  induction lines with
  | nil => simp [fieldsOf] at member
  | cons first lines ih =>
      rw [fieldsOf] at member
      split_ifs at member
      · exact ih member
      · rcases List.mem_cons.mp member with rfl | later
        · exact List.mem_takeWhile_imp inside
        · exact ih later

end Grouping

/-! ## Hashed lines -/

section Hashed

variable {α β : Type}

/-- Lists that are padded with empty ones. -/
theorem rdropWhile_padded (lines : List (List α)) (index : Nat) [DecidableEq α] :
    (lines.rdropWhile (· = [])).getD index [] = lines.getD index [] := by
  induction lines using List.reverseRecOn with
  | nil => rfl
  | append_singleton lines last ih =>
      by_cases empty : last = []
      · subst empty
        rw [List.rdropWhile_concat_pos _ _ _ (by simp), ih]
        simp only [List.getD_eq_getElem?_getD, List.getElem?_append]
        split_ifs with inside
        · rfl
        · rw [List.getElem?_eq_none (Nat.le_of_not_lt inside)]
          cases index - lines.length <;> rfl
      · rw [List.rdropWhile_concat_neg _ _ _ (by simpa using empty)]

/-- Without the empty lists at their ends, two lists are the same when their entries are. -/
theorem rdropWhile_eq_iff [DecidableEq α] (first second : List (List α)) :
    first.rdropWhile (· = []) = second.rdropWhile (· = []) ↔
      ∀ index, first.getD index [] = second.getD index [] := by
  constructor
  · intro same index
    rw [← rdropWhile_padded first, same, rdropWhile_padded]
  · intro same
    -- the last entry of the one is not empty, so the other is as long
    have longer {first second : List (List α)}
        (same : ∀ index, first.getD index [] = second.getD index []) :
        (first.rdropWhile (· = [])).length ≤ (second.rdropWhile (· = [])).length := by
      by_contra shorter
      have filled : first.rdropWhile (· = []) ≠ [] := by
        intro empty
        rw [empty] at shorter
        exact shorter (Nat.zero_le _)
      have last := List.rdropWhile_last_not (· = []) first filled
      rw [List.getLast_eq_getElem, decide_eq_true_eq] at last
      refine last ?_
      rw [List.getElem_eq_getD [], rdropWhile_padded, same, ← rdropWhile_padded,
        List.getD_eq_default _ _ (by omega)]
    refine List.ext_getElem (Nat.le_antisymm (longer same) (longer fun index => (same index).symm)) ?_
    intro index inside bound
    rw [List.getElem_eq_getD [], List.getElem_eq_getD [], rdropWhile_padded, rdropWhile_padded]
    exact same index

/-- Two readings of the same lines are hashed alike when they read every line alike. -/
theorem rdropWhile_map_eq_iff [DecidableEq α] {first second : β → List α} {lines : List β} :
    (lines.map first).rdropWhile (· = []) = (lines.map second).rdropWhile (· = []) ↔
      ∀ line ∈ lines, first line = second line := by
  rw [rdropWhile_eq_iff]
  constructor
  · intro same line member
    obtain ⟨index, inside, rfl⟩ := List.getElem_of_mem member
    have entry := same index
    rwa [List.getD_eq_getElem _ _ (by simpa using inside), List.getElem_map,
      List.getD_eq_getElem _ _ (by simpa using inside), List.getElem_map] at entry
  · intro same index
    rw [List.map_congr_left same]

/-- Lines that are hashed of a list and of a part of it behind others: only white space can be
behind. -/
theorem shifted_iff [DecidableEq α] {first second : β → List α} {front back : List β} (some : front ≠ [])
    (apart : ∀ line other, first line = [] → second line = first other → first other = []) :
    ((front ++ back).map first).rdropWhile (· = []) = (back.map second).rdropWhile (· = []) ↔
      (∀ line ∈ front ++ back, first line = []) ∧ ∀ line ∈ back, second line = [] := by
  have filled : 0 < front.length := List.length_pos_iff.mpr some
  have entry {lines : List β} (change : β → List α) {index : Nat} (inside : index < lines.length) :
      (lines.map change).getD index [] = change lines[index] := by
    rw [List.getD_eq_getElem _ _ (by simpa using inside), List.getElem_map]
  have beyond {lines : List β} (change : β → List α) {index : Nat} (outside : lines.length ≤ index) :
      (lines.map change).getD index [] = [] :=
    List.getD_eq_default _ _ (by simpa using outside)
  rw [rdropWhile_eq_iff]
  constructor
  · intro same
    -- from the end on: an entry is empty because a later one is
    have empty (index : Nat) : ((front ++ back).map first).getD index [] = [] := by
      induction left : (front ++ back).length - index using Nat.strongRecOn generalizing index with
      | ind left ih =>
          by_cases inside : index < back.length
          · have whole : index < (front ++ back).length := by
              rw [List.length_append]
              omega
            have later := ih _ (by omega) (front.length + index) rfl
            rw [List.map_append, List.getD_append_right _ _ _ _ (by simp), List.length_map,
              Nat.add_sub_cancel_left, entry first inside] at later
            have own := same index
            rw [entry first whole, entry second inside] at own
            rw [entry first whole]
            exact apart _ _ later own.symm
          · rw [same, beyond second (Nat.le_of_not_lt inside)]
    constructor
    · intro line member
      obtain ⟨index, inside, rfl⟩ := List.getElem_of_mem member
      rw [← entry first inside]
      exact empty index
    · intro line member
      obtain ⟨index, inside, rfl⟩ := List.getElem_of_mem member
      rw [← entry second inside, ← same]
      exact empty index
  · rintro ⟨silent, blank⟩ index
    have nothing {lines : List β} (change : β → List α) (empty : ∀ line ∈ lines, change line = []) :
        (lines.map change).getD index [] = [] := by
      by_cases inside : index < lines.length
      · rw [entry change inside]
        exact empty _ (List.getElem_mem inside)
      · exact beyond change (Nat.le_of_not_lt inside)
    rw [nothing first silent, nothing second blank]

theorem written_injective {first second : List Bytes} (unbroken : ∀ line ∈ first, LF ∉ line)
    (whole : ∀ line ∈ second, LF ∉ line) : written first = written second ↔ first = second := by
  have ended (lines : List Bytes) : written lines = unlines (lines.map (· ++ [CR])) := by
    simp [written, unlines, CRLF, List.flatMap_map]
  have cut {lines : List Bytes} (unbroken : ∀ line ∈ lines, LF ∉ line) :
      complete (written lines) = lines.map (· ++ [CR]) := by
    have returned : ∀ line ∈ lines.map (· ++ [CR]), LF ∉ line := by
      intro line member
      obtain ⟨own, there, rfl⟩ := List.mem_map.mp member
      simpa [show LF ≠ CR by decide] using unbroken own there
    have lines_ := complete_unlines_append _ [] returned
    rwa [List.append_nil, ← ended, show complete [] = [] from rfl, List.append_nil] at lines_
  constructor
  · intro same
    have lines := (cut unbroken).symm.trans ((congrArg complete same).trans (cut whole))
    exact List.map_injective_iff.mpr (List.append_left_injective [CR]) lines
  · rintro rfl
    rfl

end Hashed

/-! ## Octets that are not blank -/

section Counting

theorem count_dropWhile {α : Type} [DecidableEq α] {dropped : α → Bool} {item : α}
    (kept : dropped item = false) (items : List α) :
    (items.dropWhile dropped).count item = items.count item := by
  have split := List.takeWhile_append_dropWhile (p := dropped) (l := items)
  have absent : item ∉ items.takeWhile dropped := by
    intro member
    rw [List.mem_takeWhile_imp member] at kept
    cases kept
  conv_rhs => rw [← split]
  rw [List.count_append, List.count_eq_zero.mpr absent, Nat.zero_add]

theorem count_rdropWhile {α : Type} [DecidableEq α] {dropped : α → Bool} {item : α}
    (kept : dropped item = false) (items : List α) :
    (items.rdropWhile dropped).count item = items.count item := by
  rw [List.rdropWhile, List.count_reverse, count_dropWhile kept, List.count_reverse]

variable {octet : UInt8}

theorem count_reduce (visible : isBlank octet = false) (inside : Bool) (bytes : Bytes) :
    (reduce inside bytes).count octet = bytes.count octet := by
  induction bytes generalizing inside with
  | nil => rfl
  | cons first rest ih =>
      rw [reduce]
      split_ifs with blank single
      · have other : first ≠ octet := by
          rintro rfl
          rw [blank] at visible
          cases visible
        rw [List.nil_append, ih, List.count_cons_of_ne other]
      · have other : first ≠ octet := by
          rintro rfl
          rw [blank] at visible
          cases visible
        have space : (0x20 : UInt8) ≠ octet := by
          rintro rfl
          cases visible
        rw [List.singleton_append, List.count_cons_of_ne space, ih,
          List.count_cons_of_ne other]
      · rw [List.count_cons, List.count_cons, ih]

theorem count_lineOf (visible : isBlank octet = false) (line : Bytes) :
    (lineOf line).count octet = line.count octet := by
  rw [lineOf, count_rdropWhile visible, count_reduce visible]

theorem count_tidied (visible : isBlank octet = false) (bytes : Bytes) :
    (tidied bytes).count octet = bytes.count octet := by
  rw [tidied, count_rdropWhile visible, count_dropWhile visible, count_reduce visible]

end Counting

end Camelmailer.Relaxed
