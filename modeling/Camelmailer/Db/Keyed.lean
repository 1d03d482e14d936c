import Mathlib.Data.List.Count

/-!
# Rows that are taken out once

A table of rows under keys, each with the time up to which it can be redeemed. To redeem a key
takes its row out of the table, whether or not the row has expired. So what is left in the table
and what has been redeemed are never more than what has been put in.
-/

namespace Camelmailer.Db

/-- A row under a key. -/
structure Keyed (κ α : Type) where
  key : κ
  expiresAt : Int
  value : α
deriving DecidableEq

namespace Keyed

variable {κ α : Type} [DecidableEq κ]

/-- A row takes the place of those with its key. -/
def insert (row : Keyed κ α) (rows : List (Keyed κ α)) : List (Keyed κ α) :=
  row :: rows.filter (fun other => other.key ≠ row.key)

/-- The first row with a key is taken out. Its value is returned if it has not expired. -/
def consume (key : κ) (now : Int) (rows : List (Keyed κ α)) : Option α × List (Keyed κ α) :=
  (((rows.find? (fun row => row.key = key)).filter (fun row => now ≤ row.expiresAt)).map value,
    rows.eraseP (fun row => row.key = key))

/-- How many rows have a key. -/
def occurrences (key : κ) (rows : List (Keyed κ α)) : Nat := rows.countP (fun row => row.key = key)

variable {key : κ} {now : Int} {rows : List (Keyed κ α)} {row : Keyed κ α} {result : α}

theorem occurrences_insert :
    occurrences key (insert row rows) =
      if row.key = key then 1 else occurrences key rows := by
  unfold occurrences insert
  rw [List.countP_cons, List.countP_filter]
  by_cases same : row.key = key
  · subst same
    simp
  · simp only [decide_eq_true_eq, if_neg same]
    apply List.countP_congr
    intro there _
    simp only [Bool.and_eq_true, decide_eq_true_eq, and_iff_left_iff_imp]
    rintro rfl
    exact Ne.symm same

/-- What is taken out is not put in anywhere. -/
theorem occurrences_consume_le (key other : κ) (now : Int) (rows : List (Keyed κ α)) :
    occurrences other (consume key now rows).2 ≤ occurrences other rows :=
  (List.eraseP_sublist ..).countP_le

/-- A key that has been redeemed has one row less. -/
theorem occurrences_redeemed (redeemed : (consume key now rows).1 = some result) :
    occurrences key (consume key now rows).2 + 1 = occurrences key rows := by
  obtain ⟨row, kept, -⟩ := Option.map_eq_some_iff.mp redeemed
  obtain ⟨found, -⟩ := Option.filter_eq_some_iff.mp kept
  have member := List.mem_of_find?_eq_some found
  have own : row.key = key := by simpa using List.find?_some found
  obtain ⟨first, front, back, -, matched, split, erased⟩ :=
    List.exists_of_eraseP member (p := fun row => row.key = key) (by simpa using own)
  unfold occurrences consume
  rw [erased, split]
  simp only [List.countP_append, List.countP_cons, matched]
  simp [Nat.add_assoc]

/-- What has been redeemed had not expired. -/
theorem redeemed_row (redeemed : (consume key now rows).1 = some result) :
    ∃ row ∈ rows, row.key = key ∧ now ≤ row.expiresAt := by
  obtain ⟨row, kept, -⟩ := Option.map_eq_some_iff.mp redeemed
  obtain ⟨found, unexpired⟩ := Option.filter_eq_some_iff.mp kept
  exact ⟨row, List.mem_of_find?_eq_some found, by simpa using List.find?_some found,
    by simpa using unexpired⟩

end Keyed

end Camelmailer.Db
