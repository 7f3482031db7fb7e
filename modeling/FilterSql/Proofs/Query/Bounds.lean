import Mathlib.Algebra.Order.Floor.Div
import Mathlib.Tactic.Common
import FilterSql.Query.Page

/-!
# Pages of a result

The rows of a page are cut out with two numbers below `2 ^ 63`, while the product of page
and size may be larger than any word. In a result of fewer than `2 ^ 63` rows this makes no
difference: a limit that is too large is not reached, and a page that begins behind the
last row is empty, however far behind.

Results:
* `apply_ofPage`: the rows of a page are those that exact arithmetic cuts out.
* `rowsBetween_eq`: a cut is a range of indices.
* `pages_tile_rows`: which rows a page has, and that the pages make up the result.
-/

namespace FilterSql

variable {α : Type}

/-! ## Ranges of indices -/

/-- The rows at the indices from `first` on that are below `last`, in order. -/
def rowsBetween (first last : ℕ) (rows : List α) : List α :=
  (rows.zipIdx.filter fun entry => first ≤ entry.2 ∧ entry.2 < last).map Prod.fst

theorem map_fst_filter_zipIdx (first last start : ℕ) (rows : List α) :
    ((rows.zipIdx start).filter fun entry => first ≤ entry.2 ∧ entry.2 < last).map Prod.fst =
      (rows.drop (first - start)).take (last - max first start) := by
  induction rows generalizing start with
  | nil => simp
  | cons row rest ih =>
    rw [List.zipIdx_cons]
    by_cases hfirst : first ≤ start
    · by_cases hlast : start < last
      · have hskip : first - (start + 1) = 0 ∧ first - start = 0 := by omega
        have hkeep : last - max first start = last - max first (start + 1) + 1 := by omega
        rw [List.filter_cons_of_pos (by simp [hfirst, hlast]), List.map_cons, ih, hskip.1,
          hskip.2, hkeep]
        rfl
      · have hkeep : last - max first (start + 1) = 0 ∧ last - max first start = 0 := by omega
        rw [List.filter_cons_of_neg (by simp [hlast]), ih, hkeep.1, hkeep.2, List.take_zero,
          List.take_zero]
    · have hskip : first - start = first - (start + 1) + 1 := by omega
      have hkeep : max first start = max first (start + 1) := by omega
      rw [List.filter_cons_of_neg (by simp [hfirst]), ih, hskip, hkeep, List.drop_succ_cons]

/-- The rows between two indices are what is left when the rows before the first one are
dropped and no more than the distance is taken. -/
theorem rowsBetween_eq (first last : ℕ) (rows : List α) :
    rowsBetween first last rows = (rows.drop first).take (last - first) := by
  rw [rowsBetween, map_fst_filter_zipIdx, Nat.sub_zero, Nat.max_eq_left (Nat.zero_le first)]

/-- Windows of one width, one behind the other, are the beginning of a list. -/
theorem take_eq_flatMap_windows (rows : List α) (width count : ℕ) :
    rows.take (count * width) =
      (List.range count).flatMap fun index => (rows.drop (index * width)).take width := by
  induction count with
  | zero => simp
  | succ count ih =>
    have hlast : rows.take ((count + 1) * width) =
        rows.take (count * width) ++ (rows.drop (count * width)).take width := by
      rw [Nat.succ_mul, List.take_add]
    simp [hlast, ih, List.range_succ]

/-! ## Capped numbers -/

theorem toNat_saturatingProduct (first second : UInt64) :
    (saturatingProduct first second).toNat =
      min (first.toNat * second.toNat) (UInt64.size - 1) := by
  rw [saturatingProduct]
  split_ifs with h
  · have hmod : first.toNat * second.toNat % 2 ^ 64 = first.toNat * second.toNat :=
      Nat.mod_eq_of_lt h
    rw [UInt64.toNat_mul, hmod]
    omega
  · rw [UInt64.toNat_ofNat_of_lt' (by decide)]
    omega

/-- Where the product of two words is cut to a word makes no difference, because it is cut
further to what a statement may name. -/
theorem offset_ofPage (page size : UInt64) :
    (RowCut.ofPage page size).offset = min (page.toNat * size.toNat) maximumRows := by
  have hmax : maximumRows ≤ UInt64.size - 1 := by decide
  rw [RowCut.ofPage]
  split_ifs with h
  · rw [h]
    simp
  · show min (saturatingProduct size page).toNat maximumRows = _
    rw [toNat_saturatingProduct, Nat.mul_comm]
    omega

theorem limit_ofPage {page size : UInt64} (h : size ≠ 0) :
    (RowCut.ofPage page size).limit = some (min size.toNat maximumRows) := by
  rw [RowCut.ofPage, if_neg h]

/-- **Capping changes no page.** The rows of a page are those that exact arithmetic cuts
out. -/
theorem apply_ofPage {page size : UInt64} (h : size ≠ 0) {rows : List α}
    (short : rows.length ≤ maximumRows) :
    (RowCut.ofPage page size).apply rows =
      (rows.drop (page.toNat * size.toNat)).take size.toNat := by
  have hlimit : ∀ kept : List α, kept.length ≤ maximumRows →
      kept.take (min size.toNat maximumRows) = kept.take size.toNat := by
    intro kept hkept
    rw [List.take_eq_take_iff]
    omega
  have hoffset : rows.drop (min (page.toNat * size.toNat) maximumRows) =
      rows.drop (page.toNat * size.toNat) := by
    rcases Nat.le_total (page.toNat * size.toNat) maximumRows with hle | hle
    · rw [Nat.min_eq_left hle]
    · rw [Nat.min_eq_right hle, List.drop_eq_nil_of_le short,
        List.drop_eq_nil_of_le (short.trans hle)]
  rw [RowCut.apply, limit_ofPage h, offset_ofPage]
  show (rows.drop _).take _ = _
  rw [hoffset]
  apply hlimit
  rw [List.length_drop]
  omega

/-! ## Pages -/

/-- A page that begins behind the last row is empty. -/
theorem apply_ofPage_of_behind {page size : UInt64} (h : size ≠ 0) {rows : List α}
    (short : rows.length ≤ maximumRows) (behind : rows.length ≤ page.toNat * size.toNat) :
    (RowCut.ofPage page size).apply rows = [] := by
  rw [apply_ofPage h short, List.drop_eq_nil_of_le behind, List.take_nil]

/-- Pages, one behind the other, are the beginning of the result. -/
theorem flatMap_apply_ofPage {size : UInt64} (h : size ≠ 0) {rows : List α}
    (short : rows.length ≤ maximumRows) {count : ℕ} (words : count ≤ UInt64.size) :
    ((List.range count).flatMap fun page => (RowCut.ofPage (.ofNat page) size).apply rows) =
      rows.take (count * size.toNat) := by
  rw [take_eq_flatMap_windows]
  refine List.flatMap_congr fun page member => ?_
  have hword : page < UInt64.size := (List.mem_range.mp member).trans_le words
  rw [apply_ofPage h short, UInt64.toNat_ofNat_of_lt' hword]

/-- **Pages tile the result.** No number of a page is larger than a store accepts. For a
size of zero every page has all rows. For any other size, and in a result of fewer than
`2 ^ 63` rows, a page has the rows with an index from `page * size` on and below
`(page + 1) * size`; the pages up to the last one that is needed, one behind the other, are
the result; and every page behind them is empty. -/
theorem pages_tile_rows (size : UInt64) {rows : List α} (short : rows.length ≤ 2 ^ 63 - 1) :
    (∀ page, (RowCut.ofPage page size).offset ≤ 2 ^ 63 - 1 ∧
      ∀ limit ∈ (RowCut.ofPage page size).limit, limit ≤ 2 ^ 63 - 1) ∧
    (size = 0 → ∀ page, (RowCut.ofPage page size).apply rows = rows) ∧
    (size ≠ 0 →
      (∀ page, (RowCut.ofPage page size).apply rows =
        rowsBetween (page.toNat * size.toNat) ((page.toNat + 1) * size.toNat) rows) ∧
      ((List.range (rows.length ⌈/⌉ size.toNat)).flatMap fun page =>
        (RowCut.ofPage (.ofNat page) size).apply rows) = rows ∧
      ∀ page, rows.length ⌈/⌉ size.toNat ≤ page.toNat →
        (RowCut.ofPage page size).apply rows = []) := by
  refine ⟨fun page => ⟨?_, ?_⟩, ?_, fun hsize => ?_⟩
  · rw [offset_ofPage]
    exact Nat.min_le_right _ _
  · intro limit member
    by_cases hsize : size = 0
    · rw [RowCut.ofPage, if_pos hsize] at member
      cases member
    · rw [limit_ofPage hsize] at member
      cases member
      exact Nat.min_le_right _ _
  · rintro rfl page
    rfl
  · have hpos : 0 < size.toNat := Nat.pos_of_ne_zero fun h => hsize (UInt64.toNat_inj.mp h)
    have hpages : ∀ count, rows.length ⌈/⌉ size.toNat ≤ count ↔
        rows.length ≤ count * size.toNat := by
      intro count
      rw [Nat.mul_comm]
      exact ceilDiv_le_iff_le_mul hpos
    refine ⟨fun page => ?_, ?_, fun page behind => ?_⟩
    · rw [apply_ofPage hsize short, rowsBetween_eq, ← Nat.sub_mul, Nat.add_sub_cancel_left,
        Nat.one_mul]
    · -- There are no more pages than rows, so the number of each page is a word.
      have hrows : rows.length ⌈/⌉ size.toNat ≤ rows.length :=
        (hpages _).mpr (Nat.le_mul_of_pos_right _ hpos)
      have hwords : rows.length ⌈/⌉ size.toNat ≤ UInt64.size :=
        hrows.trans (short.trans (by decide))
      rw [flatMap_apply_ofPage hsize short hwords,
        List.take_of_length_le ((hpages _).mp le_rfl)]
    · exact apply_ofPage_of_behind hsize short ((hpages _).mp behind)

/-- Seven rows in pages of three: the third page has one row, and the page with the largest
number, whose product with the size no word holds, has none. -/
theorem pages_of_seven_rows :
    (List.range 7).length ≤ 2 ^ 63 - 1 ∧
      (RowCut.ofPage 2 3).apply (List.range 7) = [6] ∧
      ((List.range 3).flatMap fun page => (RowCut.ofPage (.ofNat page) 3).apply (List.range 7)) =
        List.range 7 ∧
      (RowCut.ofPage (.ofNat (2 ^ 64 - 1)) 3).apply (List.range 7) = [] := by
  have short : (List.range 7).length ≤ 2 ^ 63 - 1 := by decide
  obtain ⟨_, _, hpages⟩ := pages_tile_rows 3 short
  obtain ⟨hrows, htile, hbehind⟩ := hpages (by decide)
  exact ⟨short, hrows 2, htile, hbehind _ (by decide)⟩

end FilterSql
