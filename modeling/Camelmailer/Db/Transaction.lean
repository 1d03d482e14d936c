import Mathlib.Data.List.Basic

/-!
# Transactions and statements that fail

A transaction works on a copy of the database, which becomes the database when the
transaction commits. Any statement of it can fail, and the statements of beginning and
ending it can fail too. A statement that fails has no effect. The programs considered
here give a transaction up at its first error, so the copy is lost with it.

`ι` names the statements of a program, `ε` is the type of its errors, and `σ` is the
content of the database. A pattern of failures gives the error of each statement that
fails.
-/

namespace Camelmailer.Db

variable {σ ι ε α β : Type}

/-- A part of a transaction. It works on the copy and ends at the first error. -/
abbrev Tx (σ ι ε : Type) : Type → Type :=
  ReaderT (ι → Option ε) (StateT σ (Except ε))

/-- What a transaction has come to when its statements are done. -/
inductive Ending (α : Type) where
  | commit (result : α)
  | rollback (result : α)

namespace Tx

/-- One statement. -/
def statement (name : ι) (effect : σ → α × σ) : Tx σ ι ε α :=
  fun faults database =>
    match faults name with
    | some error => .error error
    | none => .ok (effect database)

/-- A transaction from its beginning to its end. The names are those of the statements
that begin, commit and roll back. -/
def transact (begins commits reverts : ι) (body : Tx σ ι ε (Ending α)) (faults : ι → Option ε)
    (database : σ) : Except ε α × σ :=
  match faults begins with
  | some error => (.error error, database)
  | none =>
      match body faults database with
      -- The transaction is dropped, which rolls it back.
      | .error error => (.error error, database)
      | .ok (.rollback result, _) =>
          match faults reverts with
          | some error => (.error error, database)
          | none => (.ok result, database)
      | .ok (.commit result, working) =>
          match faults commits with
          | some error => (.error error, database)
          | none => (.ok result, working)

variable {faults : ι → Option ε} {database working : σ}

theorem pure_ok {value result : α} :
    (pure value : Tx σ ι ε α) faults database = .ok (result, working) ↔
      value = result ∧ database = working := by
  constructor
  · intro done
    cases done
    exact ⟨rfl, rfl⟩
  · rintro ⟨rfl, rfl⟩
    rfl

theorem bind_ok {first : Tx σ ι ε α} {next : α → Tx σ ι ε β} {outcome : β × σ} :
    (first >>= next) faults database = .ok outcome ↔
      ∃ result middle, first faults database = .ok (result, middle) ∧
        next result faults middle = .ok outcome := by
  change (first faults database >>= fun pair => next pair.1 faults pair.2) = .ok outcome ↔ _
  cases first faults database with
  | error error =>
      constructor
      · intro done
        cases done
      · rintro ⟨_, _, start, _⟩
        cases start
  | ok pair =>
      constructor
      · intro done
        exact ⟨pair.1, pair.2, rfl, done⟩
      · rintro ⟨result, middle, start, rest⟩
        cases start
        exact rest

theorem statement_ok {name : ι} {effect : σ → α × σ} {outcome : α × σ} :
    (statement name effect : Tx σ ι ε α) faults database = .ok outcome ↔
      faults name = none ∧ effect database = outcome := by
  unfold statement
  cases faults name with
  | none => simp
  | some error => simp

theorem throw_ok {error : ε} {outcome : α × σ} :
    (throw error : Tx σ ι ε α) faults database ≠ .ok outcome := by
  intro done
  cases done

section Transact

variable {begins commits reverts : ι} {body : Tx σ ι ε (Ending α)}

/-- A transaction that fails leaves the database as it was. -/
theorem transact_error {error : ε}
    (failed : (transact begins commits reverts body faults database).1 = .error error) :
    (transact begins commits reverts body faults database).2 = database := by
  unfold transact at failed ⊢
  split at failed
  · rfl
  · split at failed
    · rfl
    · split at failed
      · rfl
      · rfl
    · split at failed
      · rfl
      · cases failed

/-- A transaction that does not fail has committed what its statements did, or it has
been rolled back and leaves the database as it was. -/
theorem transact_ok {result : α}
    (done : (transact begins commits reverts body faults database).1 = .ok result) :
    (∃ working, body faults database = .ok (.commit result, working) ∧
      (transact begins commits reverts body faults database).2 = working) ∨
    (∃ working, body faults database = .ok (.rollback result, working) ∧
      (transact begins commits reverts body faults database).2 = database) := by
  unfold transact at done ⊢
  split at done
  · cases done
  · split at done
    · cases done
    case h_2 given working reached =>
      right
      split at done
      · cases done
      · cases done
        exact ⟨working, reached, rfl⟩
    case h_3 given working reached =>
      left
      split at done
      · cases done
      · cases done
        exact ⟨working, reached, rfl⟩

end Transact

/-- A part of a transaction sends these statements, and it is done exactly when none of
them fails. -/
def Sends (part : Tx σ ι ε α) (names : List ι) : Prop :=
  ∀ faults database, (∃ outcome, part faults database = .ok outcome) ↔
    ∀ name ∈ names, faults name = none

namespace Sends

theorem pure (value : α) : Sends (σ := σ) (ε := ε) (pure value) ([] : List ι) := by
  intro faults database
  simp only [List.not_mem_nil, false_implies, implies_true, iff_true]
  exact ⟨(value, database), rfl⟩

theorem statement (name : ι) (effect : σ → α × σ) :
    Sends (ε := ε) (statement name effect) [name] := by
  intro faults database
  simp only [statement_ok, List.mem_singleton, forall_eq]
  constructor
  · rintro ⟨-, sent, -⟩
    exact sent
  · intro sent
    exact ⟨_, sent, rfl⟩

theorem bind {first : Tx σ ι ε α} {next : α → Tx σ ι ε β} {names later : List ι}
    (starts : Sends first names) (continues : ∀ result, Sends (next result) later) :
    Sends (first >>= next) (names ++ later) := by
  intro faults database
  simp only [bind_ok, List.mem_append, or_imp, forall_and]
  constructor
  · rintro ⟨outcome, result, middle, start, rest⟩
    exact ⟨(starts faults database).mp ⟨_, start⟩, (continues result faults middle).mp ⟨_, rest⟩⟩
  · rintro ⟨early, late⟩
    obtain ⟨⟨result, middle⟩, start⟩ := (starts faults database).mpr early
    obtain ⟨outcome, rest⟩ := (continues result faults middle).mpr late
    exact ⟨outcome, result, middle, start, rest⟩

/-- A transaction that is never rolled back is done exactly when none of its statements
fails. -/
theorem transact {body : Tx σ ι ε (Ending α)} {names : List ι} (sends : Sends body names)
    (ends : ∀ faults database result working,
      body faults database ≠ .ok (.rollback result, working))
    (begins commits reverts : ι) (faults : ι → Option ε) (database : σ) :
    (∃ result, (transact begins commits reverts body faults database).1 = .ok result) ↔
      ∀ name ∈ begins :: names ++ [commits], faults name = none := by
  simp only [List.cons_append, List.mem_cons, List.mem_append, List.not_mem_nil, or_false, or_imp,
    forall_and, forall_eq]
  rw [← sends faults database]
  unfold Tx.transact
  cases faults begins with
  | some error => simp
  | none =>
      cases reached : body faults database with
      | error error => simp
      | ok outcome =>
          obtain ⟨_ | _, working⟩ := outcome
          · cases faults commits with
            | some error => simp
            | none => simp
          · exact absurd reached (ends _ _ _ _)

end Sends

end Tx

end Camelmailer.Db
