import Tablewright.Numeric.Binary64

namespace Tablewright.Number

theorem one_pos : (0 : Int) < (Binary64.one : Int) := by
  decide +kernel

theorem lt_int (m n : Int) : (Number.int m).lt (.int n) = decide (m < n) := by
  have hiff : m * Binary64.one < n * Binary64.one ↔ m < n := Int.mul_lt_mul_right one_pos
  have hlt : (Number.int m).lt (.int n) = (decide ((0 : Int) < 0) ||
      (decide ((0 : Int) = 0) && decide (m * Binary64.one < n * Binary64.one))) := rfl
  rw [hlt, decide_eq_decide.mpr hiff]
  rfl

theorem le_int (m n : Int) : (Number.int m).le (.int n) = decide (m ≤ n) := by
  have hiff : m * Binary64.one ≤ n * Binary64.one ↔ m ≤ n := Int.mul_le_mul_right one_pos
  have hle : (Number.int m).le (.int n) = (decide ((0 : Int) < 0) ||
      (decide ((0 : Int) = 0) && decide (m * Binary64.one ≤ n * Binary64.one))) := rfl
  rw [hle, decide_eq_decide.mpr hiff]
  rfl

theorem max_int (m n : Int) : (Number.int m).max (.int n) = .int (Max.max m n) := by
  rw [max, lt_int]
  by_cases h : m < n
  · rw [if_pos (decide_eq_true h), Int.max_eq_right (Int.le_of_lt h)]
  · rw [if_neg (by simpa using h), Int.max_eq_left (Int.not_lt.mp h)]

theorem min_int (m n : Int) : (Number.int m).min (.int n) = .int (Min.min m n) := by
  rw [min, lt_int]
  by_cases h : n < m
  · rw [if_pos (decide_eq_true h), Int.min_eq_right (Int.le_of_lt h)]
  · rw [if_neg (by simpa using h), Int.min_eq_left (Int.not_lt.mp h)]

end Tablewright.Number
