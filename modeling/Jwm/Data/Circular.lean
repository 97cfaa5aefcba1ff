/-
A list read as a circle: the window of `count` cells that starts at a free-running position. Writing
the cell behind the window extends it, moving the start shortens it.
-/
import Mathlib.Algebra.Ring.Nat
import Mathlib.Data.List.Rotate

namespace Jwm

open List

variable {α : Type}

/-- The `count` cells from position `start` on, positions taken modulo the number of cells. -/
def window (cells : List α) (start count : Nat) : List α := (cells.rotate start).take count

variable {cells : List α} {start count : Nat}

theorem length_window (h : count ≤ cells.length) : (window cells start count).length = count := by
  rw [window, length_take, length_rotate]
  omega

theorem window_congr {start' : Nat} (h : start % cells.length = start' % cells.length) (count : Nat) :
    window cells start count = window cells start' count := by
  rw [window, window, ← rotate_mod, h, rotate_mod]

theorem getElem?_window {k : Nat} (hk : k < count) (hc : count ≤ cells.length) :
    (window cells start count)[k]? = cells[(start + k) % cells.length]? := by
  rw [window, getElem?_take_of_lt hk, getElem?_rotate (by omega), Nat.add_comm]

theorem getLast?_window (hc : count + 1 ≤ cells.length) :
    (window cells start (count + 1)).getLast? = cells[(start + count) % cells.length]? := by
  rw [getLast?_eq_getElem?, length_window hc]
  exact getElem?_window (Nat.lt_succ_self _) hc

theorem window_succ (start : Nat) (hc : count + 1 ≤ cells.length) : ∃ cell, cells[start % cells.length]? = some cell ∧
      window cells start (count + 1) = cell :: window cells (start + 1) count := by
  have hpos : 0 < cells.length := by omega
  refine ⟨_, getElem?_eq_getElem (Nat.mod_lt start hpos), ext_getElem? fun k => ?_⟩
  cases k with
  | zero =>
    rw [getElem?_window (Nat.succ_pos _) hc, getElem?_cons_zero]
    exact getElem?_eq_getElem _
  | succ k =>
    rw [getElem?_cons_succ]
    rcases Nat.lt_or_ge k count with hk | hk
    · rw [getElem?_window (by omega) hc, getElem?_window hk (by omega), Nat.add_assoc, Nat.add_comm 1]
    · rw [getElem?_eq_none (by rw [length_window hc]; omega),
        getElem?_eq_none (by rw [length_window (by omega)]; exact hk)]

theorem window_set {i : Nat} {cell : α} (hi : i < cells.length) (hc : count ≤ cells.length) :
    window (cells.set i cell) start count =
      (window cells start count).set ((i + cells.length - start % cells.length) % cells.length) cell := by
  have hlt : start % cells.length < cells.length := Nat.mod_lt _ (by omega)
  refine ext_getElem? fun k => ?_
  rcases Nat.lt_or_ge k count with hk | hk
  · have hlen : (cells.set i cell).length = cells.length := length_set
    rw [getElem?_window hk (by omega), hlen, getElem?_set, getElem?_set, length_window hc, getElem?_window hk hc]
    -- `k` is the place of cell `i` exactly when it reads that cell.
    have hplace : i = (start + k) % cells.length ↔ (i + cells.length - start % cells.length) % cells.length = k := by
      have hs : (start + k) % cells.length = (start % cells.length + k) % cells.length := by rw [Nat.mod_add_mod]
      rw [hs]
      generalize start % cells.length = p at hlt
      rcases Nat.lt_or_ge (p + k) cells.length with hw | hw
      · rw [Nat.mod_eq_of_lt hw]
        rcases Nat.lt_or_ge i p with hip | hip
        · rw [Nat.mod_eq_of_lt (by omega)]; omega
        · rw [show i + cells.length - p = i - p + cells.length by omega, Nat.add_mod_right, Nat.mod_eq_of_lt (by omega)]
          omega
      · rw [Nat.mod_eq_sub_mod hw, Nat.mod_eq_of_lt (by omega)]
        rcases Nat.lt_or_ge i p with hip | hip
        · rw [Nat.mod_eq_of_lt (by omega)]; omega
        · rw [show i + cells.length - p = i - p + cells.length by omega, Nat.add_mod_right, Nat.mod_eq_of_lt (by omega)]
          omega
    by_cases hp : i = (start + k) % cells.length
    · rw [if_pos hp, if_pos hi, if_pos (hplace.1 hp), if_pos (by rw [hplace.1 hp]; exact hk)]
    · rw [if_neg hp, if_neg fun h => hp (hplace.2 h)]
  · rw [getElem?_eq_none (by rw [length_window (by rw [length_set]; exact hc)]; exact hk),
      getElem?_eq_none (by rw [length_set, length_window hc]; exact hk)]

theorem window_push {cell : α} (hc : count < cells.length) :
    window (cells.set ((start + count) % cells.length) cell) start (count + 1) = window cells start count ++ [cell] := by
  have hlt : start % cells.length < cells.length := Nat.mod_lt _ (by omega)
  rw [window_set (Nat.mod_lt _ (by omega)) hc]
  have hplace : ((start + count) % cells.length + cells.length - start % cells.length) % cells.length = count := by
    rw [show (start + count) % cells.length = (start % cells.length + count) % cells.length by rw [Nat.mod_add_mod]]
    generalize start % cells.length = p at hlt
    rcases Nat.lt_or_ge (p + count) cells.length with hw | hw
    · rw [Nat.mod_eq_of_lt hw, show p + count + cells.length - p = count + cells.length by omega, Nat.add_mod_right,
        Nat.mod_eq_of_lt hc]
    · rw [Nat.mod_eq_sub_mod hw, Nat.mod_eq_of_lt (a := p + count - cells.length) (by omega),
        show p + count - cells.length + cells.length - p = count by omega, Nat.mod_eq_of_lt hc]
  rw [hplace, window, take_add_one, window]
  have hlen : ((cells.rotate start).take count).length = count := by rw [length_take, length_rotate]; omega
  rw [getElem?_eq_getElem (by rw [length_rotate]; exact hc), Option.toList_some,
    set_append_right _ _ (by omega), hlen, Nat.sub_self, set_cons_zero]

end Jwm
