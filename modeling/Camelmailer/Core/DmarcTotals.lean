import Camelmailer.Core.DmarcSummary
import Mathlib.Data.List.Dedup

/-!
# What the totals of DMARC reports add up to

As long as no sum overflows, the sums of the loop are those over the rows that have been read, whatever
their order.
-/

namespace Camelmailer.Dmarc

open Utf8 SignedSums

/-! ## Sums over rows -/

/-- The sum of the counts of the rows that meet a condition. -/
abbrev countOf (rows : List DmarcRecordRow) (meets : DmarcRecordRow → Bool) : Int :=
  sumOf DmarcRecordRow.count rows meets

def ofDisposition (name : Text) (row : DmarcRecordRow) : Bool := row.disposition = name

def ofSource (ip : Text) (row : DmarcRecordRow) : Bool := row.sourceIp = ip

/-- The counts of the dispositions. -/
def countsOf (rows : List DmarcRecordRow) : Counts :=
  rows.foldl (fun counts row =>
    counts.insert row.disposition (counts.getD row.disposition 0 + row.count)) ∅

/-- The sums of a source with some rows. -/
def sourceOf (rows : List DmarcRecordRow) : Source where
  count := countOf rows (fun _ => true)
  spfAligned := countOf rows DmarcRecordRow.spfAligned
  dkimAligned := countOf rows DmarcRecordRow.dkimAligned
  dispositions := countsOf rows

section Counts

variable {rows others : List DmarcRecordRow} {row : DmarcRecordRow} {name ip : Text}

theorem ofDisposition_iff : ofDisposition name row = true ↔ row.disposition = name := decide_eq_true_iff

theorem ofSource_iff : ofSource ip row = true ↔ row.sourceIp = ip := decide_eq_true_iff

theorem countOf_concat (meets : DmarcRecordRow → Bool) :
    countOf (rows ++ [row]) meets = countOf rows meets + if meets row then row.count else 0 := by
  rw [countOf, sumOf_append, sumOf_cons, sumOf_nil, Int.add_zero]

theorem countsOf_concat : countsOf (rows ++ [row]) = (countsOf rows).insert row.disposition
    ((countsOf rows).getD row.disposition 0 + row.count) := by
  rw [countsOf, List.foldl_append]
  rfl

theorem getD_countsOf (rows : List DmarcRecordRow) (name : Text) :
    (countsOf rows).getD name 0 = countOf rows (ofDisposition name) := by
  induction rows using List.reverseRecOn with
  | nil => rfl
  | append_singleton rows row ih =>
      rw [countsOf_concat, Std.ExtTreeMap.getD_insert, countOf_concat]
      by_cases own : row.disposition = name
      · subst own
        rw [if_pos (Std.compare_eq_iff_eq.mpr rfl), ih, if_pos (ofDisposition_iff.mpr rfl)]
      · rw [if_neg (fun same => own (Std.compare_eq_iff_eq.mp same)), ih,
          if_neg (fun same => own (ofDisposition_iff.mp same)), Int.add_zero]

theorem getElem?_countsOf (rows : List DmarcRecordRow) (name : Text) :
    (countsOf rows)[name]? = if name ∈ rows.map DmarcRecordRow.disposition
      then some (countOf rows (ofDisposition name)) else none := by
  induction rows using List.reverseRecOn with
  | nil => rfl
  | append_singleton rows row ih =>
      rw [countsOf_concat, Std.ExtTreeMap.getElem?_insert, countOf_concat]
      by_cases own : row.disposition = name
      · subst own
        rw [if_pos (Std.compare_eq_iff_eq.mpr rfl), getD_countsOf, if_pos (by simp),
          if_pos (ofDisposition_iff.mpr rfl)]
      · rw [if_neg (fun same => own (Std.compare_eq_iff_eq.mp same)), ih,
          if_neg (fun same => own (ofDisposition_iff.mp same))]
        simp [Ne.symm own]

theorem countsOf_perm (reordered : rows.Perm others) : countsOf rows = countsOf others := by
  refine Std.ExtTreeMap.ext_getElem? (fun name => ?_)
  rw [getElem?_countsOf, getElem?_countsOf, countOf, sumOf_perm reordered]
  simp only [(reordered.map DmarcRecordRow.disposition).mem_iff]

theorem sourceOf_perm (reordered : rows.Perm others) : sourceOf rows = sourceOf others := by
  unfold sourceOf
  rw [countsOf_perm reordered, countOf, countOf, countOf, sumOf_perm reordered,
    sumOf_perm reordered, sumOf_perm reordered]

end Counts

/-! ## The loop -/

section Loop

variable {rows : List DmarcRecordRow} {row : DmarcRecordRow}

theorem checkedAdd_eq_some {one other sum : Int} :
    checkedAdd one other = some sum ↔ sum = one + other ∧ IsI64 sum := by
  unfold checkedAdd
  split
  · next fits =>
      rw [Option.some_inj]
      exact ⟨fun same => ⟨same.symm, same ▸ fits⟩, fun same => same.1.symm⟩
  · next wide =>
      refine iff_of_false (fun none_ => by cases none_) ?_
      rintro ⟨rfl, fits⟩
      exact wide fits

theorem addIf_countOf (meets : DmarcRecordRow → Bool) {sum : Int} :
    addIf (meets row) (countOf rows meets) row.count = some sum ↔
      sum = countOf (rows ++ [row]) meets ∧ (meets row = true → IsI64 sum) := by
  unfold addIf
  rw [countOf_concat]
  by_cases chosen : meets row = true
  · rw [if_pos chosen, checkedAdd_eq_some]
    simp [chosen]
  · simp [chosen, eq_comm]

theorem checkedAdd_countOf {sum : Int} :
    checkedAdd (countOf rows (fun _ => true)) row.count = some sum ↔
      sum = countOf (rows ++ [row]) (fun _ => true) ∧ IsI64 sum := by
  rw [checkedAdd_eq_some, countOf_concat, if_pos rfl]

theorem addTo_countsOf {counts : Counts} :
    addTo (countsOf rows) row.disposition row.count = some counts ↔
      counts = countsOf (rows ++ [row]) ∧
        IsI64 (countOf (rows ++ [row]) (ofDisposition row.disposition)) := by
  have own : ofDisposition row.disposition row = true := decide_eq_true rfl
  rw [addTo, Option.map_eq_some_iff, countsOf_concat, countOf_concat, if_pos own, ← getD_countsOf]
  constructor
  · rintro ⟨sum, added, rfl⟩
    obtain ⟨rfl, fits⟩ := checkedAdd_eq_some.mp added
    exact ⟨rfl, fits⟩
  · rintro ⟨rfl, fits⟩
    exact ⟨_, checkedAdd_eq_some.mpr ⟨rfl, fits⟩, rfl⟩

/-- A row added to the sums of a source gives the sums with that row, if these fit. -/
theorem add_sourceOf {source : Source} (added : (sourceOf rows).add row = some source) :
    source = sourceOf (rows ++ [row]) := by
  simp only [Source.add, bind, Option.bind_eq_some_iff] at added
  obtain ⟨count, counted, spf, spfCounted, dkim, dkimCounted, dispositions, named, same⟩ := added
  obtain ⟨rfl, -⟩ := checkedAdd_countOf.mp counted
  obtain ⟨rfl, -⟩ := (addIf_countOf DmarcRecordRow.spfAligned).mp spfCounted
  obtain ⟨rfl, -⟩ := (addIf_countOf DmarcRecordRow.dkimAligned).mp dkimCounted
  obtain ⟨rfl, -⟩ := addTo_countsOf.mp named
  exact (Option.some.inj same).symm

theorem exists_add_sourceOf (fits : ∀ meets, IsI64 (countOf (rows ++ [row]) meets)) :
    ∃ source, (sourceOf rows).add row = some source := by
  refine ⟨sourceOf (rows ++ [row]), ?_⟩
  simp only [Source.add, bind, Option.bind_eq_some_iff]
  exact ⟨_, checkedAdd_countOf.mpr ⟨rfl, fits _⟩,
    _, (addIf_countOf DmarcRecordRow.spfAligned).mpr ⟨rfl, fun _ => fits _⟩,
    _, (addIf_countOf DmarcRecordRow.dkimAligned).mpr ⟨rfl, fun _ => fits _⟩,
    _, addTo_countsOf.mpr ⟨rfl, fits _⟩, rfl⟩

end Loop

/-! ## All rows -/

/-- The sums of the loop are those over some rows. -/
structure Exact (rows : List DmarcRecordRow) (tally : Tally) : Prop where
  total : tally.total = countOf rows (fun _ => true)
  pass : tally.pass = countOf rows DmarcRecordRow.passes
  fail : tally.fail = countOf rows (fun row => !row.passes)
  byDisposition : tally.byDisposition = countsOf rows
  sources : ∀ ip, tally.sources[ip]? = if ip ∈ rows.map DmarcRecordRow.sourceIp
    then some (sourceOf (rows.filter (ofSource ip))) else none

/-- No sum over some of the rows overflows. -/
def Fits (rows : List DmarcRecordRow) : Prop :=
  minI64 ≤ negativeTotal (rows.map DmarcRecordRow.count) ∧
    positiveTotal (rows.map DmarcRecordRow.count) ≤ maxI64

section Rows

variable {rows others : List DmarcRecordRow} {row : DmarcRecordRow} {tally next : Tally}

theorem Fits.isI64 (fits : Fits rows) (meets : DmarcRecordRow → Bool) : IsI64 (countOf rows meets) := by
  have within : negativeTotal (rows.map DmarcRecordRow.count) ≤ countOf rows meets ∧
      countOf rows meets ≤ positiveTotal (rows.map DmarcRecordRow.count) := sumOf_within
  obtain ⟨low, high⟩ := within
  exact ⟨fits.1.trans low, high.trans fits.2⟩

theorem Fits.front (fits : Fits (rows ++ others)) : Fits rows := by
  obtain ⟨low, high⟩ := fits
  have negative := negativeTotal_nonpos (others.map DmarcRecordRow.count)
  have positive := positiveTotal_nonneg (others.map DmarcRecordRow.count)
  rw [List.map_append, negativeTotal_append] at low
  rw [List.map_append, positiveTotal_append] at high
  exact ⟨by omega, by omega⟩

theorem Exact.getD_source (exact_ : Exact rows tally) (ip : Text) :
    tally.sources.getD ip .new = sourceOf (rows.filter (ofSource ip)) := by
  rw [Std.ExtTreeMap.getD_eq_getD_getElem?, exact_.sources ip]
  split
  · rfl
  · next absent =>
      have nothing : rows.filter (ofSource ip) = [] := by
        rw [List.filter_eq_nil_iff]
        intro row member same
        exact absent (List.mem_map.mpr ⟨row, member, ofSource_iff.mp same⟩)
      rw [nothing]
      rfl

theorem filter_ofSource_concat : (rows ++ [row]).filter (ofSource row.sourceIp) =
    rows.filter (ofSource row.sourceIp) ++ [row] := by
  rw [List.filter_append, List.filter_cons_of_pos (ofSource_iff.mpr rfl), List.filter_nil]

theorem exact_new : Exact [] .new where
  total := rfl
  pass := rfl
  fail := rfl
  byDisposition := rfl
  sources := fun _ => rfl

/-- One turn of the loop. -/
theorem Exact.add (exact_ : Exact rows tally) (added : tally.add row = some next) :
    Exact (rows ++ [row]) next ∧ IsI64 next.total := by
  simp only [Tally.add, exact_.getD_source, exact_.total, exact_.pass, exact_.fail,
    exact_.byDisposition, bind, Option.bind_eq_some_iff] at added
  obtain ⟨total, totalled, pass, passed, fail, failed, counts, named, source, sourced, same⟩ := added
  obtain ⟨rfl, fits⟩ := checkedAdd_countOf.mp totalled
  obtain ⟨rfl, -⟩ := (addIf_countOf DmarcRecordRow.passes).mp passed
  obtain ⟨rfl, -⟩ := (addIf_countOf (fun row => !row.passes)).mp failed
  obtain ⟨rfl, -⟩ := addTo_countsOf.mp named
  obtain rfl := add_sourceOf sourced
  obtain rfl := Option.some.inj same
  refine ⟨⟨rfl, rfl, rfl, rfl, fun ip => ?_⟩, fits⟩
  rw [Std.ExtTreeMap.getElem?_insert]
  by_cases own : row.sourceIp = ip
  · subst own
    rw [if_pos (Std.compare_eq_iff_eq.mpr rfl), if_pos (by simp), filter_ofSource_concat]
  · have other : ¬ ofSource ip row = true := fun same => own (ofSource_iff.mp same)
    rw [if_neg (fun same => own (Std.compare_eq_iff_eq.mp same)), exact_.sources ip,
      List.filter_append, List.filter_cons_of_neg other]
    simp [Ne.symm own]

theorem Exact.exists_add (exact_ : Exact rows tally) (fits : Fits (rows ++ [row])) :
    ∃ next, tally.add row = some next := by
  have within (meets : DmarcRecordRow → Bool) :
      IsI64 (countOf (rows.filter (ofSource row.sourceIp) ++ [row]) meets) := by
    rw [← filter_ofSource_concat, countOf, sumOf_filter]
    exact fits.isI64 _
  obtain ⟨source, sourced⟩ := exists_add_sourceOf within
  simp only [Tally.add, exact_.getD_source, exact_.total, exact_.pass, exact_.fail,
    exact_.byDisposition, bind, Option.bind_eq_some_iff]
  exact ⟨_, _, checkedAdd_countOf.mpr ⟨rfl, fits.isI64 _⟩,
    _, (addIf_countOf DmarcRecordRow.passes).mpr ⟨rfl, fun _ => fits.isI64 _⟩,
    _, (addIf_countOf (fun row => !row.passes)).mpr ⟨rfl, fun _ => fits.isI64 _⟩,
    _, addTo_countsOf.mpr ⟨rfl, fits.isI64 _⟩, _, sourced, rfl⟩

/-- The loop adds up exactly. The induction is on the rows that have been read. -/
theorem exact_of_foldlM (read : rows.foldlM Tally.add .new = some tally) :
    Exact rows tally ∧ IsI64 tally.total := by
  induction rows using List.reverseRecOn generalizing tally with
  | nil =>
      obtain rfl := Option.some.inj read
      exact ⟨exact_new, by decide⟩
  | append_singleton rows row ih =>
      rw [List.foldlM_append] at read
      obtain ⟨before, front, last⟩ := Option.bind_eq_some_iff.mp read
      obtain ⟨after, added, same⟩ := Option.bind_eq_some_iff.mp last
      obtain rfl := Option.some.inj same
      exact (ih front).1.add added

theorem exists_foldlM (fits : Fits rows) : ∃ tally, rows.foldlM Tally.add .new = some tally := by
  induction rows using List.reverseRecOn with
  | nil => exact ⟨_, rfl⟩
  | append_singleton rows row ih =>
      obtain ⟨before, front⟩ := ih fits.front
      obtain ⟨next, added⟩ := (exact_of_foldlM front).1.exists_add fits
      refine ⟨next, ?_⟩
      rw [List.foldlM_append, front]
      exact Option.bind_eq_some_iff.mpr ⟨before, rfl, Option.bind_eq_some_iff.mpr ⟨next, added, rfl⟩⟩

/-- The order of the rows does not matter. -/
theorem exact_perm (reordered : rows.Perm others) (one : Exact rows tally) (other : Exact others next) :
    tally = next := by
  obtain ⟨total, pass, fail, byDisposition, sources⟩ := tally
  obtain ⟨otherTotal, otherPass, otherFail, otherDisposition, otherSources⟩ := next
  have totals := one.total.trans ((sumOf_perm reordered).trans other.total.symm)
  have passes := one.pass.trans ((sumOf_perm reordered).trans other.pass.symm)
  have fails := one.fail.trans ((sumOf_perm reordered).trans other.fail.symm)
  have dispositions := one.byDisposition.trans ((countsOf_perm reordered).trans other.byDisposition.symm)
  have same : sources = otherSources := by
    refine Std.ExtTreeMap.ext_getElem? (fun ip => ?_)
    refine (one.sources ip).trans (Eq.trans ?_ (other.sources ip).symm)
    rw [sourceOf_perm (reordered.filter (ofSource ip))]
    simp only [(reordered.map DmarcRecordRow.sourceIp).mem_iff]
  simp only at totals passes fails dispositions
  rw [totals, passes, fails, dispositions, same]

theorem Fits.perm (fits : Fits rows) (reordered : rows.Perm others) : Fits others := by
  have counts := reordered.map DmarcRecordRow.count
  unfold Fits negativeTotal positiveTotal at *
  rwa [← (counts.map (min 0)).sum_eq, ← (counts.map (max 0)).sum_eq]

/-- If no order overflows, the positive and the negative counts fit by themselves. -/
theorem fits_of_orders
    (orders : ∀ others, rows.Perm others → ∃ tally, others.foldlM Tally.add .new = some tally) :
    Fits rows := by
  have first (chosen : Int → Bool) :
      IsI64 ((rows.map DmarcRecordRow.count).filter chosen).sum := by
    obtain ⟨tally, read⟩ := orders _ (List.filter_append_perm (fun row => chosen row.count) rows).symm
    rw [List.foldlM_append] at read
    obtain ⟨front, reads, -⟩ := Option.bind_eq_some_iff.mp read
    obtain ⟨exact_, fits⟩ := exact_of_foldlM reads
    rw [exact_.total, countOf, sumOf, List.filter_true] at fits
    rwa [List.filter_map]
  have low := (first (fun value => value < 0)).1
  have high := (first (fun value => 0 < value)).2
  rw [sum_negative] at low
  rw [sum_positive] at high
  exact ⟨low, high⟩

end Rows

/-! ## Entries -/

section Entries

variable {rows : List DmarcRecordRow}

theorem keys_nodup {Value : Type} (map : Std.ExtTreeMap Text Value) : (map.toList.map Prod.fst).Nodup := by
  rw [List.nodup_iff_pairwise_ne, List.pairwise_map]
  refine map.distinct_keys_toList.imp (fun apart same => apart ?_)
  exact Std.compare_eq_iff_eq.mpr same

/-- The counts of the dispositions add up to that of all rows. -/
theorem sum_countsOf (rows : List DmarcRecordRow) :
    ((countsOf rows).toList.map Prod.snd).sum = countOf rows (fun _ => true) := by
  have each : (countsOf rows).toList.map Prod.snd = ((countsOf rows).toList.map Prod.fst).map
      (fun name => countOf rows (fun row => decide (row.disposition = name))) := by
    rw [List.map_map]
    refine List.map_congr_left (fun entry member => ?_)
    have found := Std.ExtTreeMap.mem_toList_iff_getElem?_eq_some.mp member
    rw [getElem?_countsOf] at found
    split at found
    · exact (Option.some.inj found).symm
    · cases found
  rw [each]
  refine sum_sumOf_key DmarcRecordRow.disposition (keys_nodup _) (fun row member => ?_)
  refine List.mem_map.mpr ⟨(row.disposition, countOf rows (ofDisposition row.disposition)), ?_, rfl⟩
  rw [Std.ExtTreeMap.mem_toList_iff_getElem?_eq_some, getElem?_countsOf,
    if_pos (List.mem_map_of_mem member)]

theorem mem_countsOf {entry : Text × Int} : entry ∈ (countsOf rows).toList ↔
    ∃ row ∈ rows, entry = (row.disposition, countOf rows (ofDisposition row.disposition)) := by
  obtain ⟨name, count⟩ := entry
  rw [Std.ExtTreeMap.mem_toList_iff_getElem?_eq_some, getElem?_countsOf]
  constructor
  · intro found
    split at found
    · next among =>
        obtain ⟨row, member, rfl⟩ := List.mem_map.mp among
        exact ⟨row, member, by rw [Option.some.inj found]⟩
    · cases found
  · rintro ⟨row, member, same⟩
    obtain ⟨rfl, rfl⟩ := Prod.mk.inj same
    rw [if_pos (List.mem_map_of_mem member)]

end Entries

/-! ## The largest sources -/

/-- The sums of a source. -/
def statOf (rows : List DmarcRecordRow) (ip : Text) : DmarcSourceStat :=
  stat (ip, sourceOf (rows.filter (ofSource ip)))

/-- A source has more messages than another, or as many and the lesser address. -/
def Ahead (rows : List DmarcRecordRow) (one other : Text) : Prop :=
  countOf rows (ofSource other) < countOf rows (ofSource one) ∨
    (countOf rows (ofSource one) = countOf rows (ofSource other) ∧ one < other)

instance (rows : List DmarcRecordRow) (one other : Text) : Decidable (Ahead rows one other) :=
  inferInstanceAs (Decidable (_ ∨ _))

/-- A source of some rows that fewer than twenty others are ahead of. -/
def Listed (rows : List DmarcRecordRow) (ip : Text) : Prop :=
  ip ∈ rows.map DmarcRecordRow.sourceIp ∧
    (rows.map DmarcRecordRow.sourceIp).dedup.countP (fun other => Ahead rows other ip) <
      summaryTopSources

section Listing

variable {rows : List DmarcRecordRow} {tally : Tally} {ip : Text}

theorem count_statOf (rows : List DmarcRecordRow) (ip : Text) :
    (statOf rows ip).count = countOf rows (ofSource ip) := by
  change countOf (rows.filter (ofSource ip)) (fun _ => true) = _
  rw [countOf, sumOf_filter]
  simp only [Bool.true_and]

theorem rank_lt_iff {one other : Text} :
    (statOf rows one).rank < (statOf rows other).rank ↔ Ahead rows one other := by
  rw [DmarcSourceStat.rank, DmarcSourceStat.rank, Prod.Lex.toLex_lt_toLex, count_statOf, count_statOf]
  rfl

/-- The sources are those of the rows. -/
theorem stats_perm (exact_ : Exact rows tally) : (tally.sources.toList.map stat).Perm
    ((rows.map DmarcRecordRow.sourceIp).dedup.map (statOf rows)) := by
  have ips : ((tally.sources.toList.map stat).map DmarcSourceStat.sourceIp).Nodup := by
    rw [List.map_map]
    exact keys_nodup tally.sources
  have others : (((rows.map DmarcRecordRow.sourceIp).dedup.map (statOf rows)).map
      DmarcSourceStat.sourceIp).Nodup := by
    have same : DmarcSourceStat.sourceIp ∘ statOf rows = id := rfl
    rw [List.map_map, same, List.map_id]
    exact List.nodup_dedup _
  refine (List.perm_ext_iff_of_nodup ips.of_map others.of_map).mpr (fun one => ?_)
  rw [List.mem_map, List.mem_map]
  constructor
  · rintro ⟨⟨ip, source⟩, member, rfl⟩
    have found := Std.ExtTreeMap.mem_toList_iff_getElem?_eq_some.mp member
    rw [exact_.sources ip] at found
    split at found
    · next among => exact ⟨ip, List.mem_dedup.mpr among, by rw [statOf, Option.some.inj found]⟩
    · cases found
  · rintro ⟨ip, among, rfl⟩
    refine ⟨(ip, sourceOf (rows.filter (ofSource ip))), ?_, rfl⟩
    rw [Std.ExtTreeMap.mem_toList_iff_getElem?_eq_some, exact_.sources ip,
      if_pos (List.mem_dedup.mp among)]

theorem ranks_nodup (tally : Tally) :
    ((tally.sources.toList.map stat).map DmarcSourceStat.rank).Nodup := by
  have ips : (((tally.sources.toList.map stat).map DmarcSourceStat.rank).map
      (fun rank => (ofLex rank).2)).Nodup := by
    rw [List.map_map, List.map_map]
    exact keys_nodup tally.sources
  exact ips.of_map

/-- The sources of a summary are the largest ones. -/
theorem mem_bySource (exact_ : Exact rows tally) {one : DmarcSourceStat} :
    one ∈ tally.summary.bySource ↔ ∃ ip, Listed rows ip ∧ one = statOf rows ip := by
  have sources := stats_perm exact_
  have counted (ip : Text) : (tally.sources.toList.map stat).countP
      (fun other => other.rank < (statOf rows ip).rank) =
      (rows.map DmarcRecordRow.sourceIp).dedup.countP (fun other => Ahead rows other ip) := by
    rw [sources.countP_eq, List.countP_map]
    refine List.countP_congr (fun other _ => ?_)
    simp only [Function.comp_apply, decide_eq_true_eq]
    exact rank_lt_iff
  constructor
  · intro taken
    have member := sources.mem_iff.mp (Sorting.mem_sortByKey.mp (List.mem_of_mem_take taken))
    obtain ⟨ip, among, rfl⟩ := List.mem_map.mp member
    have few := (Sorting.mem_take_sortByKey_iff (ranks_nodup tally)
      (sources.mem_iff.mpr member)).mp taken
    exact ⟨ip, ⟨List.mem_dedup.mp among, (counted ip).symm.trans_lt few⟩, rfl⟩
  · rintro ⟨ip, ⟨among, few⟩, rfl⟩
    refine (Sorting.mem_take_sortByKey_iff (ranks_nodup tally) (sources.mem_iff.mpr ?_)).mpr
      ((counted ip).trans_lt few)
    exact List.mem_map_of_mem (List.mem_dedup.mpr among)

theorem bySource_sorted (tally : Tally) :
    tally.summary.bySource.Pairwise (fun one other => one.rank < other.rank) :=
  (Sorting.sortByKey_strictSorted (ranks_nodup tally)).sublist (List.take_sublist _ _)

end Listing

/-! ## Summaries that add up -/

/-- The numbers of a summary add up and none is negative. The sources are the twenty largest ones. -/
structure AddsUp (rows : List DmarcRecordRow) (summary : DmarcSummary) : Prop where
  total : summary.total = summary.pass + summary.fail
  dispositions : summary.total = (summary.byDisposition.toList.map Prod.snd).sum
  nonneg : 0 ≤ summary.total ∧ 0 ≤ summary.pass ∧ 0 ≤ summary.fail
  disposition_nonneg : ∀ entry ∈ summary.byDisposition.toList, 0 ≤ entry.2
  source : ∀ source ∈ summary.bySource, 0 ≤ source.count ∧
    source.count = (source.dispositionCounts.toList.map Prod.snd).sum ∧
    ∀ entry ∈ source.dispositionCounts.toList, 0 ≤ entry.2
  sorted : summary.bySource.Pairwise (fun one other => other.count < one.count ∨
    (one.count = other.count ∧ one.sourceIp < other.sourceIp))
  few : summary.bySource.length ≤ summaryTopSources
  largest : ∀ one, one ∈ summary.bySource ↔ ∃ ip, Listed rows ip ∧ one = statOf rows ip

/-- What a summary shows is not negative. -/
structure NoNegative (rows : List DmarcRecordRow) : Prop where
  pass : 0 ≤ countOf rows DmarcRecordRow.passes
  fail : 0 ≤ countOf rows (fun row => !row.passes)
  disposition : ∀ row ∈ rows, 0 ≤ countOf rows (ofDisposition row.disposition)
  source : ∀ ip, Listed rows ip → ∀ row ∈ rows.filter (ofSource ip),
    0 ≤ countOf (rows.filter (ofSource ip)) (ofDisposition row.disposition)

section Summaries

variable {rows : List DmarcRecordRow} {tally : Tally}

theorem forall_countsOf : (∀ entry ∈ (countsOf rows).toList, 0 ≤ entry.2) ↔
    ∀ row ∈ rows, 0 ≤ countOf rows (ofDisposition row.disposition) := by
  constructor
  · exact fun counts row member => counts _ (mem_countsOf.mpr ⟨row, member, rfl⟩)
  · intro counts entry listed
    obtain ⟨row, member, rfl⟩ := mem_countsOf.mp listed
    exact counts row member

theorem total_eq (rows : List DmarcRecordRow) : countOf rows (fun _ => true) =
    countOf rows DmarcRecordRow.passes + countOf rows (fun row => !row.passes) := sumOf_not.symm

/-- The sums of the loop add up as soon as none is negative. -/
theorem Exact.addsUp_iff (exact_ : Exact rows tally) : AddsUp rows tally.summary ↔ NoNegative rows := by
  constructor
  · intro sums
    constructor
    · exact exact_.pass ▸ sums.nonneg.2.1
    · exact exact_.fail ▸ sums.nonneg.2.2
    · have counts := sums.disposition_nonneg
      change ∀ entry ∈ tally.byDisposition.toList, _ at counts
      rw [exact_.byDisposition] at counts
      exact forall_countsOf.mp counts
    · intro ip listed
      exact forall_countsOf.mp (sums.source _ ((mem_bySource exact_).mpr ⟨ip, listed, rfl⟩)).2.2
  · intro sums
    constructor
    · change tally.total = tally.pass + tally.fail
      rw [exact_.total, exact_.pass, exact_.fail, total_eq]
    · change tally.total = (tally.byDisposition.toList.map Prod.snd).sum
      rw [exact_.total, exact_.byDisposition, sum_countsOf]
    · change 0 ≤ tally.total ∧ 0 ≤ tally.pass ∧ 0 ≤ tally.fail
      rw [exact_.total, exact_.pass, exact_.fail, total_eq]
      exact ⟨Int.add_nonneg sums.pass sums.fail, sums.pass, sums.fail⟩
    · change ∀ entry ∈ tally.byDisposition.toList, _
      rw [exact_.byDisposition]
      exact forall_countsOf.mpr sums.disposition
    · intro one listed
      obtain ⟨ip, shown, rfl⟩ := (mem_bySource exact_).mp listed
      have counts := forall_countsOf.mpr (sums.source ip shown)
      have whole : (statOf rows ip).count =
          ((countsOf (rows.filter (ofSource ip))).toList.map Prod.snd).sum :=
        (sum_countsOf _).symm
      refine ⟨?_, whole, counts⟩
      rw [whole]
      exact List.sum_nonneg (List.forall_mem_map.mpr counts)
    · refine (bySource_sorted tally).imp_of_mem (fun {one other} first second ranked => ?_)
      obtain ⟨ip, -, rfl⟩ := (mem_bySource exact_).mp first
      obtain ⟨behind, -, rfl⟩ := (mem_bySource exact_).mp second
      rw [count_statOf, count_statOf]
      exact rank_lt_iff.mp ranked
    · exact List.length_take_le _ _
    · exact fun one => mem_bySource exact_

/-- A summary adds up in every order of the rows if and only if the positive counts and the negative
ones fit by themselves and nothing that is shown is negative. -/
theorem summarize_addsUp_iff (rows : List DmarcRecordRow) :
    (∃ summary, summarize rows = some summary ∧ AddsUp rows summary ∧
      ∀ others, rows.Perm others → summarize others = some summary) ↔
      Fits rows ∧ NoNegative rows := by
  constructor
  · rintro ⟨summary, summed, sums, orders⟩
    obtain ⟨tally, read, rfl⟩ := Option.map_eq_some_iff.mp summed
    refine ⟨fits_of_orders (fun others reordered => ?_), (exact_of_foldlM read).1.addsUp_iff.mp sums⟩
    obtain ⟨other, found, -⟩ := Option.map_eq_some_iff.mp (orders others reordered)
    exact ⟨other, found⟩
  · rintro ⟨fits, sums⟩
    obtain ⟨tally, read⟩ := exists_foldlM fits
    have exact_ := (exact_of_foldlM read).1
    refine ⟨tally.summary, Option.map_eq_some_iff.mpr ⟨tally, read, rfl⟩, exact_.addsUp_iff.mpr sums, ?_⟩
    intro others reordered
    obtain ⟨other, found⟩ := exists_foldlM (fits.perm reordered)
    have same := exact_perm reordered exact_ (exact_of_foldlM found).1
    exact Option.map_eq_some_iff.mpr ⟨other, found, by rw [same]⟩

end Summaries

/-! ## Hostile counts -/

/-- A row of a report, with the text of its count. -/
def reported (ip : Text) (count : Text) : DmarcRecordRow where
  sourceIp := ip
  count := recordCount count
  disposition := "none"
  dkimAligned := true
  spfAligned := true
  bounded := isI64_recordCount count

/-- Two counts that are each read overflow together. A negative count is read and makes a negative
total. -/
theorem hostile_counts :
    summarize [reported "192.0.2.1" "9223372036854775807",
        reported "192.0.2.2" "1"] = none ∧
      (summarize [reported "192.0.2.1" "-5"]).map DmarcSummary.total = some (-5) := by
  constructor <;> decide

end Camelmailer.Dmarc
