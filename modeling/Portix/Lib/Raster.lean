import Mathlib.Data.List.Basic
import Mathlib.Tactic.Ring

/-!
# Rasters

A raster is a list of the samples of its cells, row by row, each cell of the same number of samples. What a copy of
a part of a row of one raster into a row of another does to each cell.
-/

namespace Portix.Lib

variable {α : Type}

/-- The part of `buf` from `start` to `stop` is replaced by what `src` has from `skip` on (`List.setRange`). -/
def setRange (buf : List α) (start stop : Nat) (src : List α) (skip : Nat) : List α :=
  buf.take start ++ (src.drop skip).take (stop - start) ++ buf.drop stop

/-- The samples of the cell in a column and a row of a raster that is `width` cells wide. -/
def cellAt (depth width : Nat) (buf : List α) (column row : Nat) : List α :=
  (buf.drop ((row * width + column) * depth)).take depth

section

variable {buf src : List α} {start stop skip : Nat}

theorem length_setRange (hle : start ≤ stop) (hstop : stop ≤ buf.length) (hsrc : skip + (stop - start) ≤ src.length) :
    (setRange buf start stop src skip).length = buf.length := by
  rw [setRange, List.length_append, List.length_append, List.length_take, List.length_take, List.length_drop,
    List.length_drop]
  omega

theorem getElem?_setRange (hle : start ≤ stop) (hstop : stop ≤ buf.length)
    (hsrc : skip + (stop - start) ≤ src.length) (i : Nat) :
    (setRange buf start stop src skip)[i]? =
      if start ≤ i ∧ i < stop then src[skip + (i - start)]? else buf[i]? := by
  have hfront : (buf.take start).length = start := by rw [List.length_take]; omega
  have hmiddle : ((src.drop skip).take (stop - start)).length = stop - start := by
    rw [List.length_take, List.length_drop]
    omega
  rw [setRange, List.append_assoc]
  by_cases hlow : i < start
  · rw [List.getElem?_append_left (by omega), List.getElem?_take_of_lt hlow, if_neg (by omega)]
  · rw [List.getElem?_append_right (by omega), hfront]
    by_cases hhigh : i < stop
    · rw [List.getElem?_append_left (by omega), List.getElem?_take_of_lt (by omega), List.getElem?_drop,
        if_pos ⟨by omega, hhigh⟩]
    · rw [List.getElem?_append_right (by omega), hmiddle, List.getElem?_drop, if_neg (by omega)]
      congr 1
      omega

end

variable {depth width column row i row' first count : Nat}

theorem getElem?_cellAt {buf : List α} (hi : i < depth) :
    (cellAt depth width buf column row)[i]? = buf[(row * width + column) * depth + i]? := by
  rw [cellAt, List.getElem?_take_of_lt hi, List.getElem?_drop]

theorem cellAt_eq_of_samples {width' : Nat} {buf buf' : List α} {column' : Nat}
    (h : ∀ i < depth, buf[(row * width + column) * depth + i]? = buf'[(row' * width' + column') * depth + i]?) :
    cellAt depth width buf column row = cellAt depth width' buf' column' row' := by
  refine List.ext_getElem? fun i => ?_
  by_cases hi : i < depth
  · rw [getElem?_cellAt hi, getElem?_cellAt hi, h i hi]
  · rw [cellAt, cellAt, List.getElem?_take_eq_none (by omega), List.getElem?_take_eq_none (by omega)]

theorem cellAt_replicate {cell : List α} {n : Nat} (h : row * width + column < n) :
    cellAt cell.length width (List.replicate n cell).flatten column row = cell := by
  obtain ⟨m, rfl⟩ := Nat.exists_eq_add_of_lt h
  have hfront : ((List.replicate (row * width + column) cell).flatten).length
      = (row * width + column) * cell.length := by
    rw [List.length_flatten, List.map_replicate, List.sum_replicate_nat]
  rw [cellAt, Nat.add_assoc, List.replicate_add, List.flatten_append, List.drop_left' hfront, List.replicate_succ,
    List.flatten_cons, List.take_left' rfl]

theorem mul_le_mul_add_iff {a b : Nat} (hi : i < depth) : a * depth ≤ b * depth + i ↔ a ≤ b := by
  constructor
  · intro h
    by_contra hab
    have hmul : (b + 1) * depth ≤ a * depth := Nat.mul_le_mul_right depth (by omega)
    rw [Nat.add_mul, Nat.one_mul] at hmul
    omega
  · intro h
    have hmul := Nat.mul_le_mul_right depth h
    omega

theorem cell_mem_row_iff (hcolumn : column < width)
    (hfits : first + count ≤ width) :
    row' * width + first ≤ row * width + column ∧ row * width + column < row' * width + (first + count) ↔
      row = row' ∧ first ≤ column ∧ column < first + count := by
  rcases Nat.lt_trichotomy row row' with h | rfl | h
  · have hmul : (row + 1) * width ≤ row' * width := Nat.mul_le_mul_right width (by omega)
    rw [Nat.add_mul, Nat.one_mul] at hmul
    omega
  · omega
  · have hmul : (row' + 1) * width ≤ row * width := Nat.mul_le_mul_right width (by omega)
    rw [Nat.add_mul, Nat.one_mul] at hmul
    omega

theorem cellAt_setRange {srcWidth : Nat} {buf src : List α} {srcRow srcFirst : Nat}
    (hfits : first + count ≤ width) (hbuf : (row * width + (first + count)) * depth ≤ buf.length)
    (hsrc : (srcRow * srcWidth + (srcFirst + count)) * depth ≤ src.length) (hcolumn : column < width)
    (row' : Nat) :
    cellAt depth width
        (setRange buf ((row * width + first) * depth) ((row * width + (first + count)) * depth) src
          ((srcRow * srcWidth + srcFirst) * depth)) column row' =
      if row' = row ∧ first ≤ column ∧ column < first + count then
        cellAt depth srcWidth src (srcFirst + (column - first)) srcRow
      else cellAt depth width buf column row' := by
  have hcount : (row * width + (first + count)) * depth = (row * width + first) * depth + count * depth := by ring
  have hcount' : (srcRow * srcWidth + (srcFirst + count)) * depth
      = (srcRow * srcWidth + srcFirst) * depth + count * depth := by ring
  have hget := @getElem?_setRange α buf src ((row * width + first) * depth) ((row * width + (first + count)) * depth)
    ((srcRow * srcWidth + srcFirst) * depth) (by omega) hbuf (by omega)
  by_cases hin : row' = row ∧ first ≤ column ∧ column < first + count
  · rw [if_pos hin]
    obtain ⟨rfl, hfirst, hlast⟩ := hin
    refine cellAt_eq_of_samples fun i hi => ?_
    rw [hget, if_pos]
    · obtain ⟨k, rfl⟩ := Nat.exists_eq_add_of_le hfirst
      congr 1
      rw [Nat.add_sub_cancel_left]
      have hleft : (row' * width + (first + k)) * depth = (row' * width + first) * depth + k * depth := by ring
      have hright : (srcRow * srcWidth + (srcFirst + k)) * depth
          = (srcRow * srcWidth + srcFirst) * depth + k * depth := by ring
      omega
    · rw [mul_le_mul_add_iff hi, ← not_le, mul_le_mul_add_iff hi, not_le]
      exact (cell_mem_row_iff hcolumn hfits).mpr ⟨rfl, hfirst, hlast⟩
  · rw [if_neg hin]
    refine cellAt_eq_of_samples fun i hi => ?_
    rw [hget, if_neg]
    rw [mul_le_mul_add_iff hi, ← not_le, mul_le_mul_add_iff hi, not_le]
    exact fun h => hin ((cell_mem_row_iff hcolumn hfits).mp h)

end Portix.Lib
