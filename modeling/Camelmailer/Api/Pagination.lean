import Mathlib.Algebra.Group.Nat.Defs
import Mathlib.Data.List.Basic

/-!
# Pages of a collection

`paginate` of `camelmailer-api/src/app.rs` cuts a page out of a collection. The number of the page and
its size are given by the client as 64-bit numbers. Only the size is clamped; the offset is a product of
both, which wraps around in a build without overflow checks and panics in one with them.
-/

namespace Camelmailer.Api.Pages

/-! ## `camelmailer-api/src/app.rs` -/

structure PaginationParams where
  page : Option UInt64
  perPage : Option UInt64
deriving DecidableEq

/-- The numbers beside the items of a page. -/
structure Pagination where
  page : UInt64
  perPage : UInt64
  total : UInt64
  totalPages : UInt64
deriving DecidableEq

/-- A slice, whose length is a `usize`. -/
structure Slice (α : Type) where
  items : List α
  bounded : items.length < 2 ^ 64

structure Paginated (α : Type) where
  items : List α
  pagination : Pagination
deriving DecidableEq

def divCeil (total size : UInt64) : UInt64 :=
  if total % size = 0 then total / size else total / size + 1

section Paginate

variable {α : Type} (collection : Slice α) (params : PaginationParams)

def pageOf : UInt64 := max (params.page.getD 1) 1

def perPageOf : UInt64 := min (max (params.perPage.getD 25) 1) 100

/-- The offset as it is computed. -/
def offsetOf : UInt64 := (pageOf params - 1) * perPageOf params

def totalPages : UInt64 := divCeil (.ofNat collection.items.length) (perPageOf params)

def paginate : Paginated α where
  items := (collection.items.drop (offsetOf params).toNat).take (perPageOf params).toNat
  pagination := ⟨pageOf params, perPageOf params, .ofNat collection.items.length,
    totalPages collection params⟩

/-- The pages of a collection partition it, and nothing overflows on the way to a page. -/
structure Partitions : Prop where
  exact : (offsetOf params).toNat = ((pageOf params).toNat - 1) * (perPageOf params).toNat
  whole : (List.range (totalPages collection params).toNat).flatMap (fun index =>
    (paginate collection { params with page := some (.ofNat (index + 1)) }).items) = collection.items
  beyond : totalPages collection params < pageOf params → (paginate collection params).items = []
  full : pageOf params < totalPages collection params →
    (paginate collection params).items.length = (perPageOf params).toNat

end Paginate

/-! ## Pages of a list -/

/-- Pages of one size, one after the other. -/
theorem flatMap_pages {α : Type} (items : List α) (size count : Nat) :
    (List.range count).flatMap (fun index => (items.drop (index * size)).take size) =
      items.take (count * size) := by
  induction count with
  | zero => simp
  | succ count ih => rw [List.range_succ, List.flatMap_append, ih, Nat.succ_mul, List.take_add]; simp

/-- How many pages there are. -/
theorem toNat_divCeil (total : UInt64) {size : UInt64} (some_ : 0 < size.toNat) :
    total.toNat ≤ (divCeil total size).toNat * size.toNat ∧
      ∀ count, count * size.toNat < total.toNat ↔ count < (divCeil total size).toNat := by
  have parts := Nat.div_add_mod total.toNat size.toNat
  have wide := total.toNat_lt
  have modulo : total % size = 0 ↔ total.toNat % size.toNat = 0 := by
    rw [← UInt64.toNat_inj]
    rfl
  have pages : (divCeil total size).toNat =
      if total.toNat % size.toNat = 0 then total.toNat / size.toNat else total.toNat / size.toNat + 1 := by
    simp only [divCeil, modulo]
    split_ifs with even
    · exact UInt64.toNat_div ..
    · have small : total.toNat / size.toNat + 1 < 2 ^ 64 := by
        have bound := Nat.div_le_self total.toNat size.toNat
        by_contra large
        have same : total.toNat / size.toNat = total.toNat := by omega
        rw [same] at parts
        have least := Nat.le_mul_of_pos_left total.toNat some_
        omega
      rw [UInt64.toNat_add]
      exact Nat.mod_eq_of_lt small
  have least (count : Nat) : count * size.toNat < total.toNat ↔
      count < (divCeil total size).toNat := by
    rw [pages]
    split_ifs with even
    · rw [Nat.lt_div_iff_mul_lt' (Nat.dvd_of_mod_eq_zero even), Nat.mul_comm]
    · rw [Nat.lt_succ_iff, Nat.le_div_iff_mul_le some_]
      constructor
      · exact Nat.le_of_lt
      · intro within
        refine Nat.lt_of_le_of_ne within (fun same => even ?_)
        rw [← same]
        exact Nat.mul_mod_left ..
  refine ⟨?_, least⟩
  exact Nat.le_of_not_lt (fun more => absurd ((least _).mp more) (Nat.lt_irrefl _))

/-! ## Overflow -/

section Overflow

variable {α : Type} {collection : Slice α} {params : PaginationParams}

theorem toNat_max (left right : UInt64) : (max left right).toNat = max left.toNat right.toNat := by
  have choice : max left right = if left ≤ right then right else left := rfl
  rw [choice, Nat.max_def, apply_ite UInt64.toNat]
  simp only [UInt64.le_iff_toNat_le]

theorem toNat_min (left right : UInt64) : (min left right).toNat = min left.toNat right.toNat := by
  have choice : min left right = if left ≤ right then left else right := rfl
  rw [choice, Nat.min_def, apply_ite UInt64.toNat]
  simp only [UInt64.le_iff_toNat_le]

theorem one_le_page (params : PaginationParams) : 1 ≤ (pageOf params).toNat := by
  rw [pageOf, toNat_max]
  exact Nat.le_max_right ..

theorem perPage_clamped (params : PaginationParams) :
    1 ≤ (perPageOf params).toNat ∧ (perPageOf params).toNat ≤ 100 := by
  rw [perPageOf, toNat_min, toNat_max]
  refine ⟨Nat.le_min.mpr ⟨Nat.le_max_right .., by decide⟩, Nat.min_le_right ..⟩

/-- The offset is the product up to a multiple of `2 ^ 64`. -/
theorem toNat_offset (params : PaginationParams) : (offsetOf params).toNat =
    ((pageOf params).toNat - 1) * (perPageOf params).toNat % 2 ^ 64 := by
  have least : 1 ≤ pageOf params := UInt64.le_iff_toNat_le.mpr (one_le_page params)
  rw [offsetOf, UInt64.toNat_mul, UInt64.toNat_sub_of_le _ _ least]
  rfl

theorem offset_exact_iff (params : PaginationParams) :
    (offsetOf params).toNat = ((pageOf params).toNat - 1) * (perPageOf params).toNat ↔
      ((pageOf params).toNat - 1) * (perPageOf params).toNat < 2 ^ 64 := by
  rw [toNat_offset]
  constructor
  · intro same
    rw [← same]
    exact Nat.mod_lt _ (by decide)
  · exact Nat.mod_eq_of_lt

theorem total_eq (collection : Slice α) :
    (UInt64.ofNat collection.items.length).toNat = collection.items.length :=
  UInt64.toNat_ofNat_of_lt' collection.bounded

/-- The items of a page that lies within the collection. -/
theorem items_within {index : Nat} (within : index < (totalPages collection params).toNat) :
    (paginate collection { params with page := some (.ofNat (index + 1)) }).items =
      (collection.items.drop (index * (perPageOf params).toNat)).take (perPageOf params).toNat := by
  have room := ((toNat_divCeil (.ofNat collection.items.length) (perPage_clamped params).1).2 index).mpr within
  rw [total_eq] at room
  have small : index + 1 < 2 ^ 64 := Nat.lt_of_le_of_lt within (totalPages collection params).toNat_lt
  have page : (pageOf { params with page := some (.ofNat (index + 1)) }).toNat = index + 1 := by
    rw [pageOf, toNat_max, Option.getD_some, UInt64.toNat_ofNat_of_lt' small]
    exact Nat.max_eq_left (Nat.le_add_left ..)
  have offset : (offsetOf { params with page := some (.ofNat (index + 1)) }).toNat =
      index * (perPageOf params).toNat := by
    rw [toNat_offset, page]
    exact Nat.mod_eq_of_lt (Nat.lt_trans room collection.bounded)
  rw [paginate, offset]
  rfl

/-- All pages together are the collection. -/
theorem pages_whole (collection : Slice α) (params : PaginationParams) :
    (List.range (totalPages collection params).toNat).flatMap (fun index =>
      (paginate collection { params with page := some (.ofNat (index + 1)) }).items) =
      collection.items := by
  have covered := (toNat_divCeil (.ofNat collection.items.length) (perPage_clamped params).1).1
  rw [total_eq] at covered
  calc
    _ = (List.range (totalPages collection params).toNat).flatMap (fun index =>
        (collection.items.drop (index * (perPageOf params).toNat)).take (perPageOf params).toNat) :=
      List.flatMap_congr (fun index member => items_within (List.mem_range.mp member))
    _ = _ := flatMap_pages ..
    _ = _ := List.take_of_length_le covered

/-- The pages partition a collection if and only if the offset of the page that is asked for is less
than `2 ^ 64`. -/
theorem paginate_iff (collection : Slice α) (params : PaginationParams) :
    Partitions collection params ↔
      ((pageOf params).toNat - 1) * (perPageOf params).toNat < 2 ^ 64 := by
  constructor
  · intro partitions
    exact (offset_exact_iff params).mp partitions.exact
  · intro small
    have exact := (offset_exact_iff params).mpr small
    have pages := (toNat_divCeil (.ofNat collection.items.length) (perPage_clamped params).1).2
    rw [total_eq] at pages
    have some_ := one_le_page params
    refine ⟨exact, pages_whole collection params, ?_, ?_⟩
    · intro beyond
      have none_ : ¬ ((pageOf params).toNat - 1) * (perPageOf params).toNat < collection.items.length := by
        rw [pages]
        have later := UInt64.lt_iff_toNat_lt.mp beyond
        rw [totalPages] at later
        omega
      rw [paginate, exact, List.drop_eq_nil_of_le (Nat.le_of_not_lt none_), List.take_nil]
    · intro before
      have room : (pageOf params).toNat * (perPageOf params).toNat < collection.items.length :=
        (pages _).mpr (UInt64.lt_iff_toNat_lt.mp before)
      rw [paginate, exact, List.length_take, List.length_drop, Nat.sub_mul]
      have least := Nat.le_mul_of_pos_left (perPageOf params).toNat some_
      omega

end Overflow

/-! ## A page far beyond the last -/

def three : Slice Nat := ⟨[10, 20, 30], by decide⟩

def farPage : PaginationParams := ⟨some 9223372036854775809, some 2⟩

/-- The offset of a page far beyond the last wraps around to the first page. -/
theorem far_page_shows_first : ¬ Partitions three farPage ∧
    totalPages three farPage < pageOf farPage ∧ (paginate three farPage).items = [10, 20] := by
  have items : (paginate three farPage).items = [10, 20] := by decide
  have beyond : totalPages three farPage < pageOf farPage := by decide
  refine ⟨fun partitions => ?_, beyond, items⟩
  exact absurd (items.symm.trans (partitions.beyond beyond)) (List.cons_ne_nil _ _)

end Camelmailer.Api.Pages
