import Licensing.Library.CalendarOrder
import Licensing.Model.Services

-- The instants that timestamps denote.

namespace Licensing

open Rfc3339 Decimal

-- The seconds of the years that have four digits.
def FourDigits (s : Int) : Prop :=
  -62167219200 ≤ s ∧ s < 253402300800

instance (s : Int) : Decidable (FourDigits s) :=
  inferInstanceAs (Decidable (_ ∧ _))

theorem year_nonneg_iff (z : Int) : 0 ≤ (Date.ofDays z).year ↔ -719528 ≤ z := by
  have hv := Date.valid_ofDays z
  have h₀ : (⟨0, 1, 1⟩ : Date).Valid := ⟨by decide, by decide, by decide, by decide⟩
  have h := hv.toDays_lt_iff h₀
  rw [Date.toDays_ofDays, (by decide : (⟨0, 1, 1⟩ : Date).toDays = -719528)] at h
  have hb : Date.Before (Date.ofDays z) ⟨0, 1, 1⟩ ↔ (Date.ofDays z).year < 0 := by
    have := hv.month_pos
    have := hv.day_pos
    simp only [Date.Before]
    omega
  rw [hb] at h
  omega

theorem year_le_iff (z : Int) : (Date.ofDays z).year ≤ 9999 ↔ z < 2932897 := by
  have hv := Date.valid_ofDays z
  have h₀ : (⟨10000, 1, 1⟩ : Date).Valid := ⟨by decide, by decide, by decide, by decide⟩
  have h := hv.toDays_lt_iff h₀
  rw [Date.toDays_ofDays, (by decide : (⟨10000, 1, 1⟩ : Date).toDays = 2932897)] at h
  have hb : Date.Before (Date.ofDays z) ⟨10000, 1, 1⟩ ↔ (Date.ofDays z).year < 10000 := by
    have := hv.month_pos
    have := hv.day_pos
    simp only [Date.Before]
    omega
  rw [hb] at h
  omega

theorem fourDigits_iff (s : Int) : FourDigits s ↔
    0 ≤ (Date.ofDays (s / 86400)).year ∧ (Date.ofDays (s / 86400)).year ≤ 9999 := by
  rw [year_nonneg_iff, year_le_iff, FourDigits]
  omega

namespace Go

@[simp]
theorem getnum_digits {n : Nat} (h : n < 100) (fixed : Bool) (cs : List Char) :
    getnum fixed (digits 2 n ++ cs) = some (n, cs) := by
  simp [digits, getnum]
  omega

@[simp]
theorem skip_cons (c : Char) (cs : List Char) : skip c (c :: cs) = some cs := if_pos rfl

theorem takeWhile_digits (w n : Nat) (c : Char) (hc : c.isDigit = false) (cs : List Char) :
    (digits w n ++ c :: cs).takeWhile Char.isDigit = digits w n := by
  induction w
  case zero      => simp [digits, hc]
  case succ w ih => simpa [digits] using ih

theorem dropWhile_digits (w n : Nat) (c : Char) (hc : c.isDigit = false) (cs : List Char) :
    (digits w n ++ c :: cs).dropWhile Char.isDigit = c :: cs := by
  induction w
  case zero      => simp [digits, hc]
  case succ w ih => simpa [digits] using ih

theorem foldl_digits (w n acc : Nat) :
    (digits w n).foldl (fun n d => n * 10 + value d) acc = acc * 10 ^ w + n % 10 ^ w := by
  induction w generalizing acc
  case zero => simp [digits, Nat.mod_one]
  case succ w ih =>
    have h : n % 10 ^ (w + 1) = 10 ^ w * (n / 10 ^ w % 10) + n % 10 ^ w := by
      rw [Nat.pow_succ, Nat.mod_mul, Nat.add_comm]
    simp only [digits, List.foldl_cons, value_digit, ih, h]
    ring

theorem parseFraction_fraction {n : Nat} (h : n < 1000000) :
    parseFraction (fraction 6 n) = ((n : Int) * 1000, ['Z']) := by
  have hf : fraction 6 n = '.' :: digit (n / 10 ^ 5) :: (digits 5 n ++ ['Z']) := rfl
  have hd : digit (n / 10 ^ 5) :: (digits 5 n ++ ['Z']) = digits 6 n ++ ['Z'] := rfl
  have ht : (digits 6 n).take 9 = digits 6 n := List.take_of_length_le (by simp)
  rw [hf]
  simp only [parseFraction, isDigit_digit, true_or, and_true, if_true, hd,
    takeWhile_digits 6 n 'Z' rfl [], dropWhile_digits 6 n 'Z' rfl [], ht, foldl_digits, length_digits]
  simp [Nat.mod_eq_of_lt h]

theorem year_of_fourDigits {s : Int} (h : FourDigits s) :
    year (Date.ofDays (s / 86400)).year = digits 4 (Date.ofDays (s / 86400)).year.toNat := by
  have ⟨h₀, h₁⟩ := (fourDigits_iff s).mp h
  rw [year, if_neg (by omega), padded, if_pos (by omega)]

-- More digits than are taken.
theorem take_longer {w : Nat} {ds : List Char} (hd : ∀ c ∈ ds, c.isDigit) (hl : w < ds.length)
    (acc : Nat) (cs : List Char) :
    ∃ n d ds', take w acc (ds ++ cs) = some (n, d :: ds') ∧ d.isDigit := by
  induction w generalizing ds acc
  case zero =>
    match ds with
    | d :: ds => exact ⟨acc, d, ds ++ cs, rfl, hd d List.mem_cons_self⟩
  case succ w ih =>
    match ds with
    | d :: ds =>
      have h := ih (fun c hc => hd c (List.mem_cons_of_mem d hc)) (Nat.lt_of_succ_lt_succ hl)
      simpa [take, hd d List.mem_cons_self] using h (acc * 10 + value d)

theorem bind_of_eq_some {α β : Type} {x : Option α} {a : α} {f : α → Option β} {b : Option β} (h : x = some a)
    (hb : f a = b) : x.bind f = b := by
  rw [h, Option.bind_some, hb]

-- What is written as a timestamp is read as what it was.
theorem parseTime_isoFromTime {t : Int} (h : FourDigits (t / 1000000)) :
    parseTime (isoFromTime t) = some (t * 1000) := by
  have ⟨h₀, h₁⟩ := (fourDigits_iff _).mp h
  have hv := Date.valid_ofDays (t / 1000000 / 86400)
  have hd := Date.toDays_ofDays (t / 1000000 / 86400)
  have ⟨hm, hm', hday, hday'⟩ := hv
  have hl : (isoFromTime t).toList = dateTime year (t / 1000000) ++ fraction 6 (t % 1000000).toNat := by
    simp [isoFromTime]
  have hy : (((Date.ofDays (t / 1000000 / 86400)).year.toNat : Nat) : Int) = _ := Int.toNat_of_nonneg h₀
  have hle := Date.daysIn_le (Date.ofDays (t / 1000000 / 86400)).year (Date.ofDays (t / 1000000 / 86400)).month
  rw [dateTime, year_of_fourDigits h] at hl
  generalize Date.ofDays (t / 1000000 / 86400) = date at *
  generalize hsod : (t / 1000000 % 86400).toNat = sod at hl
  have hsod' : sod < 86400 := by omega
  have h4 : date.year.toNat < 10 ^ 4 := by omega
  simp only [timeOfDay, List.append_assoc, List.cons_append] at hl
  rw [parseTime, hl]
  -- The fields are read in their order, each followed by its check.
  refine bind_of_eq_some (take_digits_of_lt h4 _) (bind_of_eq_some (skip_cons ..) ?_)
  refine bind_of_eq_some (getnum_digits (by omega) ..) ((if_neg (by omega)).trans ?_)
  refine bind_of_eq_some (skip_cons ..) (bind_of_eq_some (getnum_digits (by omega) ..) ?_)
  refine bind_of_eq_some (skip_cons ..) (bind_of_eq_some (getnum_digits (by omega) ..) ?_)
  refine (if_neg (by omega)).trans ?_
  refine bind_of_eq_some (skip_cons ..) (bind_of_eq_some (getnum_digits (by omega) ..) ?_)
  refine (if_neg (by omega)).trans ?_
  refine bind_of_eq_some (skip_cons ..) (bind_of_eq_some (getnum_digits (by omega) ..) ?_)
  refine (if_neg (by omega)).trans ?_
  have hdate : ({ year := date.year, month := date.month, day := date.day } : Date).toDays = date.toDays := rfl
  simp only [parseFraction_fraction (by omega : (t % 1000000).toNat < 1000000)]
  simp [parseZone, hy, hdate, Nat.not_lt_of_le hday', Nat.not_lt_of_le hday]
  omega

-- A year of more digits, or with a sign, is not read.
theorem parseTime_isoFromTime_none {t : Int} (h : ¬FourDigits (t / 1000000)) :
    parseTime (isoFromTime t) = none := by
  have hl : (isoFromTime t).toList = dateTime year (t / 1000000) ++ fraction 6 (t % 1000000).toNat := by
    simp [isoFromTime]
  rw [fourDigits_iff] at h
  rw [parseTime, hl, dateTime]
  generalize Date.ofDays (t / 1000000 / 86400) = date at *
  by_cases hn : date.year < 0
  case pos =>
    have ht : ∀ cs, take 4 0 ('-' :: cs) = none := fun _ => rfl
    rw [year, if_pos hn, List.cons_append, List.cons_append, ht]
    rfl
  case neg =>
    have hlen : 4 < (Nat.toDigits 10 date.year.toNat).length := by
      have := Nat.length_toDigits_le_iff (n := date.year.toNat) (by decide : 1 < 10) (by decide : 0 < 4)
      omega
    have hp : year date.year = Nat.toDigits 10 date.year.toNat := by
      rw [year, if_neg hn, padded, if_neg (by omega)]
    rw [hp, List.append_assoc]
    choose n d ds ht hd using take_longer
      (fun c => Nat.isDigit_of_mem_toDigits (n := date.year.toNat) (by decide) (by decide)) hlen 0
    have hs : ∀ cs, skip '-' (d cs :: ds cs) = none := fun cs => if_neg fun h => nomatch h ▸ hd cs
    rw [ht]
    exact congrArg (Option.bind · _) (hs _)

-- A timestamp that is set denotes an instant, or none.
def moment (t : Option String) : Option (Option Int) :=
  t.map parseTime

-- The instant some seconds later, cut off after microseconds, if it can be written down.
def laterBy (d t : Int) : Option Int :=
  let us := (t + secondsDuration d) / 1000
  if FourDigits (us / 1000000) then some (us * 1000) else none

theorem moment_addSeconds (t : String) (d : Int) :
    moment (addSeconds t d) = (parseTime t).map (laterBy d) := by
  have h : ∀ u, parseTime (isoFromTime u) = if FourDigits (u / 1000000) then some (u * 1000) else none := by
    intro u
    split
    case isTrue hf  => exact parseTime_isoFromTime hf
    case isFalse hf => exact parseTime_isoFromTime_none hf
  cases hp : parseTime t
  case none    => simp [addSeconds, moment, hp]
  case some ns => simp [addSeconds, moment, hp, h, laterBy]

end Go

end Licensing
