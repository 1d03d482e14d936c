import Camelmailer.SignedSums
import Camelmailer.Sorting
import Camelmailer.Text.Utf8
import Mathlib.Data.Char
import Mathlib.Data.List.Lex
import Mathlib.Data.Prod.Lex

/-!
# Totals of DMARC reports

`summarize` of `camelmailer-core/src/dmarc.rs` adds up the counts of report rows: of all rows, of those
that pass and of those that fail, of each disposition, and of each source with its own dispositions. The
sums are signed integers of 64 bits. The counts come from the reports; `parse_report_xml` of
`camelmailer-worker/src/dmarc.rs` takes whatever such an integer can be.

The percentages of the summary are floating-point numbers. They are left out; what they are computed
from is kept.
-/

namespace Camelmailer.Dmarc

open Utf8 SignedSums

/-! ## Counts -/

def maxI64 : Int := 2 ^ 63 - 1

def minI64 : Int := -2 ^ 63

/-- An integer is one of 64 bits. -/
def IsI64 (value : Int) : Prop := minI64 ≤ value ∧ value ≤ maxI64

instance (value : Int) : Decidable (IsI64 value) := inferInstanceAs (Decidable (_ ∧ _))

/-- The number that decimal digits stand for. -/
def parseDigits (digits : Text) : Option Nat :=
  if digits ≠ [] ∧ digits.all Char.isDigit = true then
    some (digits.foldl (fun sum digit => 10 * sum + (digit.toNat - 48)) 0)
  else none

/-- `str::parse::<i64>`. -/
def parseI64 (text : Text) : Option Int :=
  match text with
  | '-' :: digits => ((parseDigits digits).map (fun value => -(value : Int))).filter (fun value => IsI64 value)
  | '+' :: digits => ((parseDigits digits).map Int.ofNat).filter (fun value => IsI64 value)
  | digits => ((parseDigits digits).map Int.ofNat).filter (fun value => IsI64 value)

/-- The count of a row as `parse_report_xml` reads it. -/
def recordCount (value : Text) : Int := (parseI64 value).getD 0

theorem isI64_recordCount (value : Text) : IsI64 (recordCount value) := by
  have zero : IsI64 0 := by decide
  have filtered (given : Option Int) : IsI64 ((given.filter (fun value => IsI64 value)).getD 0) := by
    cases parsed : given.filter (fun value => IsI64 value) with
    | none => exact zero
    | some number => exact of_decide_eq_true (Option.filter_eq_some_iff.mp parsed).2
  unfold recordCount parseI64
  split <;> exact filtered _

/-- The columns of a `DmarcRecordRow` that are added up. -/
structure DmarcRecordRow where
  sourceIp : Text
  count : Int
  disposition : Text
  dkimAligned : Bool
  spfAligned : Bool
  bounded : IsI64 count

/-- The sum of two integers, if it is one of 64 bits. -/
def checkedAdd (one other : Int) : Option Int :=
  if IsI64 (one + other) then some (one + other) else none

/-! ## `summarize` -/

/-- Counts under names. -/
abbrev Counts : Type := Std.ExtTreeMap Text Int

/-- The sums of a source. -/
structure Source where
  count : Int
  spfAligned : Int
  dkimAligned : Int
  dispositions : Counts

def Source.new : Source := ⟨0, 0, 0, ∅⟩

/-- The sums of the loop. -/
structure Tally where
  total : Int
  pass : Int
  fail : Int
  byDisposition : Counts
  sources : Std.ExtTreeMap Text Source

def Tally.new : Tally := ⟨0, 0, 0, ∅, ∅⟩

/-- `*counts.entry(name).or_insert(0) += count`. -/
def addTo (counts : Counts) (name : Text) (count : Int) : Option Counts :=
  (checkedAdd (counts.getD name 0) count).map (counts.insert name)

def addIf (chosen : Bool) (sum count : Int) : Option Int :=
  if chosen then checkedAdd sum count else some sum

/-- A row in the sums of its source. -/
def Source.add (source : Source) (row : DmarcRecordRow) : Option Source := do
  let count ← checkedAdd source.count row.count
  let spfAligned ← addIf row.spfAligned source.spfAligned row.count
  let dkimAligned ← addIf row.dkimAligned source.dkimAligned row.count
  let dispositions ← addTo source.dispositions row.disposition row.count
  return ⟨count, spfAligned, dkimAligned, dispositions⟩

/-- Both mechanisms are aligned. -/
def DmarcRecordRow.passes (row : DmarcRecordRow) : Bool := row.dkimAligned && row.spfAligned

/-- One turn of the loop. -/
def Tally.add (tally : Tally) (row : DmarcRecordRow) : Option Tally := do
  let total ← checkedAdd tally.total row.count
  let pass ← addIf row.passes tally.pass row.count
  let fail ← addIf (!row.passes) tally.fail row.count
  let byDisposition ← addTo tally.byDisposition row.disposition row.count
  let source ← (tally.sources.getD row.sourceIp .new).add row
  return ⟨total, pass, fail, byDisposition, tally.sources.insert row.sourceIp source⟩

/-- `DmarcSourceStat`, with the sums that the percentages are computed from. -/
structure DmarcSourceStat where
  sourceIp : Text
  count : Int
  spfAligned : Int
  dkimAligned : Int
  dispositionCounts : Counts

/-- `DmarcSummary`, without the rate. -/
structure DmarcSummary where
  total : Int
  pass : Int
  fail : Int
  bySource : List DmarcSourceStat
  byDisposition : Counts

/-- `DMARC_SUMMARY_TOP_SOURCES`. -/
def summaryTopSources : Nat := 20

/-- The source with more messages comes first, and of two with as many the one with the lesser
address. -/
def DmarcSourceStat.rank (stat : DmarcSourceStat) : Lex (Intᵒᵈ × Text) :=
  toLex (OrderDual.toDual stat.count, stat.sourceIp)

def stat (entry : Text × Source) : DmarcSourceStat :=
  ⟨entry.1, entry.2.count, entry.2.spfAligned, entry.2.dkimAligned, entry.2.dispositions⟩

/-- The summary from the sums. -/
def Tally.summary (tally : Tally) : DmarcSummary where
  total := tally.total
  pass := tally.pass
  fail := tally.fail
  bySource := (Sorting.sortByKey DmarcSourceStat.rank (tally.sources.toList.map stat)).take
    summaryTopSources
  byDisposition := tally.byDisposition

/-- `summarize`. There is no result if a sum overflows. -/
def summarize (records : List DmarcRecordRow) : Option DmarcSummary :=
  (records.foldlM Tally.add Tally.new).map Tally.summary

end Camelmailer.Dmarc
