import Licensing.Library.Calendar
import Mathlib.Tactic.IntervalCases
import Mathlib.Tactic.SplitIfs

-- Dates are ordered as the days that they denote.

namespace Date

-- The days before March 1st of a year.
def daysBefore (y : Int) : Int :=
  y / 400 * 146097 + (y % 400 * 365 + y % 400 / 4 - y % 400 / 100)

theorem daysBefore_succ (y : Int) :
    daysBefore y = daysBefore (y - 1) + (if isLeap y then 366 else 365) := by
  simp only [daysBefore, isLeap, decide_eq_true_eq]
  split <;> omega

theorem daysBefore_mono {y z : Int} (h : y ≤ z) : daysBefore y ≤ daysBefore z := by
  simp only [daysBefore]
  omega

-- The year, the month and the day of a date, counted from March 1st.
def marchYear (d : Date) : Int :=
  if d.month ≤ 2 then d.year - 1 else d.year

def marchMonth (d : Date) : Nat :=
  if d.month ≤ 2 then d.month + 9 else d.month - 3

def marchDay (d : Date) : Nat :=
  (153 * d.marchMonth + 2) / 5 + d.day - 1

theorem toDays_eq (d : Date) : d.toDays = daysBefore d.marchYear + d.marchDay - 719468 := by
  simp only [toDays, daysBefore, marchDay, marchMonth, marchYear]
  omega

-- The order of dates by year, month and day.
def Before (d e : Date) : Prop :=
  d.year < e.year ∨ d.year = e.year ∧ (d.month < e.month ∨ d.month = e.month ∧ d.day < e.day)

variable {d e : Date}

theorem daysIn_le (y : Int) (m : Nat) : daysIn y m ≤ 31 := by
  simp only [daysIn]
  split_ifs <;> decide

theorem toDays_bounds (hy : 0 ≤ d.year ∧ d.year ≤ 9999) (hm : d.month ≤ 12) (hd : d.day ≤ 31) :
    -10000000 < d.toDays ∧ d.toDays < 10000000 := by
  simp only [toDays]
  split <;> omega

-- A month ends before the next one begins.
theorem Valid.day_le_march (h : d.Valid) :
    d.day ≤ (153 * (d.marchMonth + 1) + 2) / 5 - (153 * d.marchMonth + 2) / 5 := by
  have ⟨hm, hm', _, hd⟩ := h
  have hle : daysIn d.year d.month ≤
      (153 * (d.marchMonth + 1) + 2) / 5 - (153 * d.marchMonth + 2) / 5 := by
    simp only [marchMonth]
    generalize d.month = m at hm hm'
    interval_cases m
    case «2» =>
      simp only [daysIn]
      split_ifs <;> simp at *
    all_goals simp [daysIn]
  exact hd.trans hle

theorem Valid.marchDay_lt (h : d.Valid) :
    (d.marchDay : Int) < if isLeap (d.marchYear + 1) then 366 else 365 := by
  have hle := h.day_le_march
  have ⟨hm, hm', _, hd⟩ := h
  by_cases h2 : d.month = 2
  case pos =>
    simp only [daysIn, h2, if_true] at hd
    simp only [marchDay, marchMonth, marchYear, h2, le_refl, if_true, Int.sub_add_cancel]
    split at hd
    case isTrue hl  => simp only [hl, if_true]; omega
    case isFalse hl => simp only [hl]; omega
  case neg =>
    have hlt : d.marchDay < 365 := by
      have h11 : d.marchMonth ≤ 10 := by
        simp only [marchMonth]
        split <;> omega
      rw [marchDay]
      omega
    split <;> omega

theorem Valid.march_lt (hd : d.Valid) (he : e.Valid) (h : Before d e) :
    d.marchYear < e.marchYear ∨ d.marchYear = e.marchYear ∧ d.marchDay < e.marchDay := by
  have hdd := hd.day_le_march
  have ⟨hm, hm', hd₁, _⟩ := hd
  have ⟨hn, hn', he₁, _⟩ := he
  simp only [Before, marchYear, marchDay, marchMonth] at *
  split_ifs at * <;> omega

theorem Valid.toDays_lt (hd : d.Valid) (he : e.Valid) (h : Before d e) : d.toDays < e.toDays := by
  rw [toDays_eq, toDays_eq]
  match hd.march_lt he h with
  | .inr ⟨hy, hlt⟩ =>
    rw [hy]
    omega
  | .inl hy        =>
    have hm := daysBefore_mono (Int.add_one_le_of_lt hy)
    have hs := daysBefore_succ (d.marchYear + 1)
    have hlt := hd.marchDay_lt
    rw [Int.add_sub_cancel] at hs
    split_ifs at hs hlt <;> omega

-- Two dates are one, or one is before the other.
theorem before_or (d e : Date) : Before d e ∨ d = e ∨ Before e d := by
  have heq : d = e ↔ d.year = e.year ∧ d.month = e.month ∧ d.day = e.day := by
    cases d
    cases e
    simp
  simp only [heq, Before]
  omega

theorem Valid.toDays_lt_iff (hd : d.Valid) (he : e.Valid) : d.toDays < e.toDays ↔ Before d e := by
  apply Iff.intro
  case mpr => exact hd.toDays_lt he
  case mp =>
    intro h
    match before_or d e with
    | .inl hb        => exact hb
    | .inr (.inl heq) => exact absurd (heq ▸ h) (Int.lt_irrefl _)
    | .inr (.inr hb) => exact absurd (he.toDays_lt hd hb) (Int.lt_asymm h)

-- The last day of a year that ends in February is the leap day.
theorem Cycle.At.isLeap {c : Cycle} {doe : Nat} (h : c.At doe) (era : Int) (hd : c.day = 365) :
    isLeap (era * 400 + (c.century * 100 + c.quad * 4 + c.year : Nat) + 1) := by
  have ⟨_, hc, hq, hn, _, hl⟩ := h
  have ⟨hy, hy'⟩ := hl hd
  simp only [Date.isLeap, decide_eq_true_eq]
  omega

theorem Cycle.At.valid {c : Cycle} {doe : Nat} (h : c.At doe) (era : Int) : (c.toDate era).Valid := by
  have ⟨hmp, hle, hlt⟩ := h.month_day
  have hd := h.day
  constructor
  case month_pos => simp only [toDate]; split_ifs <;> omega
  case month_le  => simp only [toDate]; split_ifs <;> omega
  case day_pos   => simp only [toDate]; omega
  case day_le    =>
    simp only [toDate]
    generalize hm : (5 * c.day + 2) / 153 = mp at *
    by_cases h11 : mp = 11
    case pos =>
      subst h11
      by_cases hl : c.day = 365
      case pos =>
        have hleap := h.isLeap era hl
        push_cast at hleap
        simp [daysIn, hleap, hl]
      case neg =>
        simp only [daysIn, Nat.reduceLT, if_false, Nat.reduceSub, if_true]
        split_ifs <;> omega
    case neg =>
      simp only [daysIn]
      interval_cases mp
      all_goals
        simp at *
        try omega

theorem valid_ofDays (z : Int) : (ofDays z).Valid :=
  (Cycle.at_ofDay (by omega : ((z + 719468) % 146097).toNat < 146097)).valid _

end Date
