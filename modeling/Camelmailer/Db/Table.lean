import Mathlib.Data.List.Basic
import Mathlib.Data.List.Pairwise

/-!
# Tables

Rows under identifiers that their table gives out. Two rows never have one identifier, and no
row has one that is still to be given out.
-/

namespace Camelmailer.Db

structure Table {α : Type} (key : α → Nat) where
  rows : List α
  next : Nat
  distinct : rows.Pairwise (fun first second => key first ≠ key second)
  below : ∀ row ∈ rows, key row < next

namespace Table

variable {α : Type} {key : α → Nat}

def empty (next : Nat) : Table key := ⟨[], next, .nil, fun _ member => (by cases member)⟩

/-- The row with an identifier. -/
def find (table : Table key) (id : Nat) : Option α := table.rows.find? (fun row => key row = id)

/-- A row with a new identifier. -/
def insert (table : Table key) (row : α) (fresh : key row = table.next) : Table key where
  rows := row :: table.rows
  next := table.next + 1
  distinct := by
    refine List.pairwise_cons.mpr ⟨fun other member same => ?_, table.distinct⟩
    have less := table.below other member
    omega
  below := by
    intro other member
    rcases List.mem_cons.mp member with rfl | old
    · omega
    · exact Nat.lt_succ_of_lt (table.below other old)

/-- The row with the identifier of another one becomes that one. -/
def exchanged (key : α → Nat) (row other : α) : α := if key other = key row then row else other

theorem key_exchanged (key : α → Nat) (row other : α) : key (exchanged key row other) = key other := by
  unfold exchanged
  split_ifs with same
  · exact same.symm
  · rfl

/-- The row with the identifier of a row is replaced by it, if there is one. -/
def replace (table : Table key) (row : α) : Table key where
  rows := table.rows.map (exchanged key row)
  next := table.next
  distinct := by
    refine List.pairwise_map.mpr (table.distinct.imp ?_)
    intro first second different
    rwa [key_exchanged key, key_exchanged key]
  below := by
    intro other member
    obtain ⟨old, there, rfl⟩ := List.mem_map.mp member
    rw [key_exchanged key]
    exact table.below old there

/-- Some of the rows. -/
def keep (table : Table key) (kept : α → Bool) : Table key where
  rows := table.rows.filter kept
  next := table.next
  distinct := table.distinct.filter _
  below := fun row member => table.below row (List.mem_of_mem_filter member)

/-- The rows without one. -/
def remove (table : Table key) (id : Nat) : Table key := table.keep (fun row => key row ≠ id)

/-- A row takes the place of the one with its identifier, or is added. -/
def put (table : Table key) (row : α) : Table key where
  rows := row :: (table.remove (key row)).rows
  next := max table.next (key row + 1)
  distinct := by
    refine List.pairwise_cons.mpr ⟨fun other member same => ?_, (table.remove (key row)).distinct⟩
    have different := (List.mem_filter.mp member).2
    simp [same] at different
  below := by
    intro other member
    rcases List.mem_cons.mp member with rfl | old
    · omega
    · have less := (table.remove (key row)).below other old
      exact Nat.lt_of_lt_of_le less (Nat.le_max_left _ _)

/-- `UPDATE`: the rows that meet a condition are changed, but for their identifiers. -/
def update (table : Table key) (condition : α → Bool) (change : α → α)
    (keeps : ∀ row, key (change row) = key row) : Table key where
  rows := table.rows.map (fun row => if condition row then change row else row)
  next := table.next
  distinct := by
    refine List.pairwise_map.mpr (table.distinct.imp ?_)
    intro first second different
    split_ifs <;> simpa only [keeps] using different
  below := by
    intro other member
    obtain ⟨old, there, rfl⟩ := List.mem_map.mp member
    have less := table.below old there
    split_ifs <;> simpa only [keeps] using less

variable {table : Table key} {row other : α} {id : Nat}

@[simp] theorem next_update {condition : α → Bool} {change : α → α}
    {keeps : ∀ row, key (change row) = key row} :
    (table.update condition change keeps).next = table.next := rfl

theorem mem_update {condition : α → Bool} {change : α → α}
    {keeps : ∀ row, key (change row) = key row} :
    other ∈ (table.update condition change keeps).rows ↔
      ∃ row ∈ table.rows, (if condition row then change row else row) = other :=
  List.mem_map

theorem mem_keep {kept : α → Bool} :
    other ∈ (table.keep kept).rows ↔ other ∈ table.rows ∧ kept other = true := by
  simp [keep]

theorem find_some (found : table.find id = some row) : row ∈ table.rows ∧ key row = id := by
  refine ⟨List.mem_of_find?_eq_some found, ?_⟩
  simpa using List.find?_some found

/-- Rows with one identifier are one row. -/
theorem unique (one : row ∈ table.rows) (two : other ∈ table.rows) (same : key row = key other) :
    row = other := by
  by_contra different
  have symmetric : Std.Symm (fun first second : α => key first ≠ key second) :=
    ⟨fun _ _ => Ne.symm⟩
  exact table.distinct.forall one two different same

theorem find_of_mem (member : row ∈ table.rows) : table.find (key row) = some row := by
  cases found : table.find (key row) with
  | none =>
      have absent := List.find?_eq_none.mp found row member
      simp at absent
  | some other =>
      obtain ⟨there, same⟩ := find_some found
      rw [unique there member same]

theorem mem_insert (fresh : key row = table.next) :
    other ∈ (table.insert row fresh).rows ↔ other = row ∨ other ∈ table.rows := by
  simp [insert]

theorem mem_remove :
    other ∈ (table.remove id).rows ↔ other ∈ table.rows ∧ key other ≠ id := by
  simp [remove, keep]

theorem mem_put :
    other ∈ (table.put row).rows ↔ other = row ∨ (other ∈ table.rows ∧ key other ≠ key row) := by
  simp [put, mem_remove]

theorem mem_replace (member : other ∈ (table.replace row).rows) :
    (other = row ∧ ∃ old ∈ table.rows, key old = key row) ∨
      (other ∈ table.rows ∧ key other ≠ key row) := by
  obtain ⟨old, there, rfl⟩ := List.mem_map.mp member
  unfold exchanged
  split_ifs with same
  · exact .inl ⟨rfl, old, there, same⟩
  · exact .inr ⟨there, same⟩

end Table

end Camelmailer.Db
