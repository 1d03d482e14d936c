import Camelmailer.Core.Model

/-!
# Send limits

An allowance is the room left under one limit: a server's trailing 30-day limit or
an organization's limit for the calendar month. The stricter of the two decides,
on the HTTP send path and at the end of an SMTP transaction alike.

Counts are `i64` in the source. The model uses integers; the differences below
stay within range for every limit and count a database can hold without wrapping.
-/

namespace Camelmailer

open Utf8

/-- Which limit an allowance describes. -/
inductive LimitScope where
  | server
  | organization
deriving DecidableEq

/-- How much of a send limit is left. -/
structure SendAllowance where
  limit : Option Int
  used : Int
  scope : LimitScope
deriving DecidableEq

namespace SendAllowance

def unlimited : SendAllowance := ⟨none, 0, .server⟩

/-- A server's 30-day allowance. -/
def server (limit : Option Int) (used : Int) : SendAllowance := ⟨limit, used, .server⟩

/-- An organization's allowance for the current calendar month. -/
def organization (limit : Option Int) (used : Int) : SendAllowance := ⟨limit, used, .organization⟩

/-- Messages still available. A limit lowered below current usage reads as zero. -/
def remaining (allowance : SendAllowance) : Option Int :=
  allowance.limit.map (fun limit => max (limit - allowance.used) 0)

/-- The allowance with less room left. Unlimited loses to any limit; on a tie the
organization wins. -/
def stricter (left right : SendAllowance) : SendAllowance :=
  match left.remaining, right.remaining with
  | none, _ => right
  | _, none => left
  | some leftRoom, some rightRoom =>
      if leftRoom < rightRoom then left
      else if rightRoom < leftRoom then right
      else if left.scope = .organization then left else right

/-- Whether `count` more messages fit. Zero or fewer always do. -/
def allows (allowance : SendAllowance) (count : Int) : Bool :=
  match allowance.remaining with
  | none => true
  | some room => count ≤ 0 || count ≤ room

/-- The error code of the HTTP interface. -/
def errorCode (allowance : SendAllowance) : Text :=
  match allowance.scope with
  | .server => "SendLimitExceeded"
  | .organization => "OrganizationQuotaExceeded"

/-- The message shown to the caller that ran out. -/
def rejectionMessage (allowance : SendAllowance) : Text :=
  match allowance.scope, allowance.limit with
  | .server, none => "This mail server has no send limit"
  | .server, some limit =>
      "This mail server has reached its send limit of " ++ decimal limit ++
        " messages per 30 days (" ++ decimal allowance.used ++ " used)"
  | .organization, none => "This organization has no monthly send limit"
  | .organization, some limit =>
      "This organization has reached its monthly send limit of " ++ decimal limit ++
        " messages (" ++ decimal allowance.used ++
        " used this month); it resets on the first day of the next month (UTC)"

/-- The stricter allowance admits a batch exactly when both do. Neither limit can
be passed by meeting the other one. -/
theorem stricter_allows (left right : SendAllowance) (count : Int) :
    (left.stricter right).allows count = true ↔
      left.allows count = true ∧ right.allows count = true := by
  cases leftRoom : left.remaining with
  | none => simp [stricter, allows, leftRoom]
  | some room =>
    cases rightRoom : right.remaining with
    | none => simp [stricter, allows, leftRoom, rightRoom]
    | some other =>
      simp only [stricter, leftRoom, rightRoom]
      split
      · simp only [allows, leftRoom, rightRoom, Bool.or_eq_true, decide_eq_true_eq]
        omega
      · split
        · simp only [allows, leftRoom, rightRoom, Bool.or_eq_true, decide_eq_true_eq]
          omega
        · split <;>
            simp only [allows, leftRoom, rightRoom, Bool.or_eq_true, decide_eq_true_eq] <;> omega

/-- What a limit allows fits beside what is used. -/
theorem allows_room {limit used count : Int} {scope : LimitScope}
    (allowed : (SendAllowance.mk (some limit) used scope).allows count = true)
    (positive : 0 < count) : used + count ≤ limit := by
  simp only [allows, remaining, Option.map_some, Bool.or_eq_true, decide_eq_true_eq] at allowed
  omega

end SendAllowance

end Camelmailer
