import Mathlib.Algebra.Group.Int.Defs
import Mathlib.Algebra.Group.Basic

-- The proleptic Gregorian calendar: dates and the number of days since 1970-01-01. Years count from
-- March 1st inside the conversions, so that the leap day is the last one of a year.

structure Date where
  year  : Int
  month : Nat
  day   : Nat
  deriving DecidableEq, Repr

namespace Date

def isLeap (y : Int) : Bool :=
  y % 4 = 0 ∧ (y % 100 ≠ 0 ∨ y % 400 = 0)

def daysIn (y : Int) (m : Nat) : Nat :=
  if m = 2 then (if isLeap y then 29 else 28)
  else if m = 4 ∨ m = 6 ∨ m = 9 ∨ m = 11 then 30
  else 31

structure Valid (d : Date) : Prop where
  month_pos : 1 ≤ d.month
  month_le  : d.month ≤ 12
  day_pos   : 1 ≤ d.day
  day_le    : d.day ≤ daysIn d.year d.month

def toDays (d : Date) : Int :=
  let y   := if d.month ≤ 2 then d.year - 1 else d.year
  let mp  := if d.month ≤ 2 then d.month + 9 else d.month - 3
  let yoe := y % 400
  let doy := (153 * mp + 2) / 5 + d.day - 1
  y / 400 * 146097 + (yoe * 365 + yoe / 4 - yoe / 100 + doy) - 719468

-- The position of a day in a 400-year cycle: century, four-year cycle, year and day of the year.
structure Cycle where
  century : Nat
  quad    : Nat
  year    : Nat
  day     : Nat

def Cycle.ofDay (doe : Nat) : Cycle :=
  let c := min 3 (doe / 36524)
  let r := (doe - c * 36524) % 1461
  let n := min 3 (r / 365)
  { century := c, quad := (doe - c * 36524) / 1461, year := n, day := r - n * 365 }

def Cycle.toDate (c : Cycle) (era : Int) : Date :=
  let mp := (5 * c.day + 2) / 153
  let m  := if mp < 10 then mp + 3 else mp - 9
  let y  := era * 400 + (c.century * 100 + c.quad * 4 + c.year : Nat)
  { year  := if m ≤ 2 then y + 1 else y
    month := m
    day   := c.day - (153 * mp + 2) / 5 + 1 }

def ofDays (z : Int) : Date :=
  (Cycle.ofDay ((z + 719468) % 146097).toNat).toDate ((z + 719468) / 146097)

structure Cycle.At (c : Cycle) (doe : Nat) : Prop where
  eq       : doe = c.century * 36524 + c.quad * 1461 + c.year * 365 + c.day
  century  : c.century ≤ 3
  quad     : c.quad ≤ 24
  year     : c.year ≤ 3
  day      : c.day ≤ 365
  leap_day : c.day = 365 → c.year = 3 ∧ (c.quad = 24 → c.century = 3)

theorem Cycle.at_ofDay {doe : Nat} (h : doe < 146097) : (Cycle.ofDay doe).At doe := by
  have century : min 3 (doe / 36524) ≤ 3 ∧ min 3 (doe / 36524) * 36524 ≤ doe ∧
      doe - min 3 (doe / 36524) * 36524 ≤ 36524 ∧
      (doe - min 3 (doe / 36524) * 36524 = 36524 → min 3 (doe / 36524) = 3) := by omega
  simp only [ofDay]
  generalize min 3 (doe / 36524) = c at *
  have quad : doe - c * 36524 = (doe - c * 36524) / 1461 * 1461 + (doe - c * 36524) % 1461 := by omega
  have quad_le : (doe - c * 36524) / 1461 ≤ 24 := by omega
  have rest_le : (doe - c * 36524) % 1461 ≤ 1460 := by omega
  generalize (doe - c * 36524) / 1461 = q at *
  generalize (doe - c * 36524) % 1461 = r at *
  have year : min 3 (r / 365) ≤ 3 ∧ min 3 (r / 365) * 365 ≤ r ∧ r - min 3 (r / 365) * 365 ≤ 365 ∧
      (r - min 3 (r / 365) * 365 = 365 → min 3 (r / 365) = 3 ∧ r = 1460) := by omega
  generalize min 3 (r / 365) = n at *
  constructor <;> simp only <;> omega

namespace Cycle.At

variable {c : Cycle} {doe : Nat}

theorem month_day (h : c.At doe) :
    (5 * c.day + 2) / 153 ≤ 11 ∧ (153 * ((5 * c.day + 2) / 153) + 2) / 5 ≤ c.day ∧
    c.day - (153 * ((5 * c.day + 2) / 153) + 2) / 5 ≤ 30 := by
  have := h.day
  omega

theorem toDays_toDate (h : c.At doe) (era : Int) :
    (c.toDate era).toDays = era * 146097 + doe - 719468 := by
  have ⟨eq, hc, hq, hn, hd, _⟩ := h
  have ⟨hmp, hle, _⟩ := h.month_day
  have hy : ∀ y : Int, y = era * 400 + (c.century * 100 + c.quad * 4 + c.year : Nat) →
      y / 400 = era ∧ y % 400 = (c.century * 100 + c.quad * 4 + c.year : Nat) := by omega
  have ⟨h₁, h₂⟩ := hy _ rfl
  simp only [toDate, toDays]
  by_cases h10 : (5 * c.day + 2) / 153 < 10
  case pos =>
    have hm : ¬((5 * c.day + 2) / 153 + 3 ≤ 2) := by omega
    simp only [h10, hm, if_true, if_false, h₁, h₂]
    omega
  case neg =>
    have hm : (5 * c.day + 2) / 153 - 9 ≤ 2 := by omega
    simp only [h10, hm, if_true, if_false, add_sub_cancel_right, h₁, h₂]
    omega

end Cycle.At

theorem toDays_ofDays (z : Int) : (ofDays z).toDays = z := by
  have h := (Cycle.at_ofDay (by omega : ((z + 719468) % 146097).toNat < 146097)).toDays_toDate
    ((z + 719468) / 146097)
  rw [ofDays, h]
  omega

end Date
