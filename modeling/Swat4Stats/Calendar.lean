import Mathlib.Order.Monotone.Basic
import Mathlib.Data.Nat.Notation
import Mathlib.Tactic.Common

/-!
# Time and years

An instant is a number of microseconds since the first of January of the year one, UTC, the
resolution and the epoch of `datetime`. `yearOf` is the ordinal-to-year computation of the
`datetime` module.
-/

namespace Swat4Stats

set_option autoImplicit false

abbrev Time := ℕ

namespace Calendar

def microsecondsPerDay : ℕ := 24 * 60 * 60 * 1000000

def daysBeforeYear (year : ℕ) : ℕ :=
  (year - 1) * 365 + (year - 1) / 4 - (year - 1) / 100 + (year - 1) / 400

def yearStart (year : ℕ) : Time := daysBeforeYear year * microsecondsPerDay

def yearOfDay (day : ℕ) : ℕ :=
  let n400 := day / 146097
  let n100 := day % 146097 / 36524
  let n4 := day % 146097 % 36524 / 1461
  let n1 := day % 146097 % 36524 % 1461 / 365
  let year := n400 * 400 + n100 * 100 + n4 * 4 + n1 + 1
  -- the last day of a leap year
  if n1 = 4 ∨ n100 = 4 then year - 1 else year

def yearOf (t : Time) : ℕ := yearOfDay (t / microsecondsPerDay)

/-- `get_stats_period_for_year`: the first and the last instant of the year. -/
def statsPeriodForYear (year : ℕ) : Time × Time := (yearStart year, yearStart (year + 1) - 1)

theorem daysBeforeYear_eq {a b c d : ℕ} (hb : b < 4) (hc : c < 25) (hd : d < 4) :
    daysBeforeYear (400 * a + 100 * b + 4 * c + d + 1) =
      146097 * a + 36524 * b + 1461 * c + 365 * d := by
  have h4 : (400 * a + 100 * b + 4 * c + d) / 4 = 100 * a + 25 * b + c := by omega
  have h100 : (400 * a + 100 * b + 4 * c + d) / 100 = 4 * a + b := by omega
  have h400 : (400 * a + 100 * b + 4 * c + d) / 400 = a := by omega
  simp only [daysBeforeYear, Nat.add_sub_cancel, h4, h100, h400]
  omega

theorem daysBeforeYear_add {a b c d : ℕ} (hb : b < 4) (hc : c < 25) (hd : d < 4) :
    146097 * a + 36524 * b + 1461 * c + 365 * d + 365 ≤
      daysBeforeYear (400 * a + 100 * b + 4 * c + d + 2) := by
  have h4 : (400 * a + 100 * b + 4 * c + d + 1) / 4 = 100 * a + 25 * b + c + (d + 1) / 4 := by
    omega
  have h100 : (400 * a + 100 * b + 4 * c + d + 1) / 100 = 4 * a + b + (4 * c + d + 1) / 100 := by
    omega
  have h400 : (400 * a + 100 * b + 4 * c + d + 1) / 400 = a + (100 * b + 4 * c + d + 1) / 400 := by
    omega
  have hleap : (4 * c + d + 1) / 100 ≤ (d + 1) / 4 := by omega
  simp only [daysBeforeYear, Nat.add_one_sub_one, h4, h100, h400]
  omega

theorem daysBeforeYear_yearOfDay (day : ℕ) :
    daysBeforeYear (yearOfDay day) ≤ day ∧ day < daysBeforeYear (yearOfDay day + 1) := by
  simp only [yearOfDay]
  set a := day / 146097 with ha
  set b := day % 146097 / 36524 with hb
  set c := day % 146097 % 36524 / 1461 with hc
  set d := day % 146097 % 36524 % 1461 / 365 with hd
  split
  · rename_i h
    by_cases hb4 : b = 4
    · have hd0 : d = 0 := by omega
      have hc0 : c = 0 := by omega
      have hl := @daysBeforeYear_eq a 3 24 3 (by omega) (by omega) (by omega)
      have hu := @daysBeforeYear_eq (a + 1) 0 0 0 (by omega) (by omega) (by omega)
      rw [show a * 400 + b * 100 + c * 4 + d + 1 - 1 = 400 * a + 100 * 3 + 4 * 24 + 3 + 1 by omega,
        hl, show 400 * a + 100 * 3 + 4 * 24 + 3 + 1 + 1 =
          400 * (a + 1) + 100 * 0 + 4 * 0 + 0 + 1 by omega, hu]
      omega
    · have hd4 : d = 4 := by omega
      have hc24 : c < 24 := by omega
      have hl := @daysBeforeYear_eq a b c 3 (by omega) (by omega) (by omega)
      have hu := @daysBeforeYear_eq a b (c + 1) 0 (by omega) (by omega) (by omega)
      rw [show a * 400 + b * 100 + c * 4 + d + 1 - 1 = 400 * a + 100 * b + 4 * c + 3 + 1 by omega,
        hl, show 400 * a + 100 * b + 4 * c + 3 + 1 + 1 =
          400 * a + 100 * b + 4 * (c + 1) + 0 + 1 by omega, hu]
      omega
  · rename_i h
    have hbound : b < 4 ∧ c < 25 ∧ d < 4 := by omega
    obtain ⟨hb', hc', hd'⟩ := hbound
    have hl := @daysBeforeYear_eq a b c d hb' hc' hd'
    have hu := @daysBeforeYear_add a b c d hb' hc' hd'
    rw [show a * 400 + b * 100 + c * 4 + d + 1 = 400 * a + 100 * b + 4 * c + d + 1 by omega, hl]
    refine ⟨by omega, Nat.lt_of_lt_of_le ?_ hu⟩
    omega

theorem daysBeforeYear_succ_le {year : ℕ} (hyear : 1 ≤ year) :
    daysBeforeYear year + 365 ≤ daysBeforeYear (year + 1) := by
  simp only [daysBeforeYear]
  omega

theorem daysBeforeYear_mono : Monotone daysBeforeYear := by
  apply monotone_nat_of_le_succ
  intro year
  cases year with
  | zero => decide
  | succ year => exact (Nat.le_add_right _ _).trans (daysBeforeYear_succ_le (by omega))

theorem microsecondsPerDay_pos : 0 < microsecondsPerDay := by decide

theorem yearStart_le {t : Time} {year : ℕ} (h : year ≤ yearOf t) : yearStart year ≤ t :=
  calc
    yearStart year ≤ yearStart (yearOf t) := Nat.mul_le_mul_right _ (daysBeforeYear_mono h)
    _ ≤ t / microsecondsPerDay * microsecondsPerDay :=
      Nat.mul_le_mul_right _ (daysBeforeYear_yearOfDay _).1
    _ ≤ t := Nat.div_mul_le_self t _

theorem lt_yearStart {t : Time} {year : ℕ} (h : yearOf t < year) : t < yearStart year := by
  have hday : t / microsecondsPerDay < daysBeforeYear year :=
    (daysBeforeYear_yearOfDay _).2.trans_le (daysBeforeYear_mono h)
  exact (Nat.div_lt_iff_lt_mul microsecondsPerDay_pos).mp hday

theorem yearOf_of_mem_period {t : Time} {year : ℕ} (hpos : 0 < t)
    (h : (statsPeriodForYear year).1 ≤ t ∧ t ≤ (statsPeriodForYear year).2) : yearOf t = year := by
  obtain ⟨hstart, hend⟩ := h
  rcases Nat.lt_trichotomy (yearOf t) year with hlt | heq | hgt
  · exact absurd hstart (Nat.not_le_of_lt (lt_yearStart hlt))
  · exact heq
  · have hpred : ∀ a b : ℕ, 0 < a → b ≤ a → ¬ a ≤ b - 1 := by omega
    exact absurd hend (hpred t _ hpos (yearStart_le hgt))

theorem yearOf_mono : Monotone yearOf := by
  intro s t hst
  by_contra hlt
  have hs : yearStart (yearOf s) ≤ s := yearStart_le le_rfl
  have ht : t < yearStart (yearOf s) := lt_yearStart (Nat.lt_of_not_le hlt)
  exact absurd (hs.trans hst) (Nat.not_le_of_lt ht)

end Calendar

end Swat4Stats
