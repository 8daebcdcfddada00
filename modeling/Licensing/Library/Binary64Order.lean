import Licensing.Library.Binary64
import Mathlib.Order.WithBot

-- The order of the doubles that are not below zero, and the sign of their differences.

namespace Binary64

inductive Nonneg : Binary64 → Prop
  | finite (m : Nat) : Nonneg (finite false m)
  | infinity : Nonneg (infinity false)

def rank : Binary64 → WithTop Nat
  | finite _ m => WithTop.some m
  | _          => ⊤

theorem zero_lt_rounded (s : Bool) (n : Nat) :
    (finite false 0).lt (rounded s n 1) = (!s && decide (n ≠ 0)) := by
  have hround : 0 < round n 1 ↔ n ≠ 0 := by
    constructor
    case mp =>
      intro h hn
      rw [hn] at h
      simp [round, halfEven] at h
    case mpr => exact fun h => (Nat.two_pow_pos _).trans_le (two_pow_log_le_round h)
  simp only [rounded]
  split_ifs
  case pos => cases s <;> simp [lt, scaled, ← hround]
  case neg h =>
    have hlimit : 0 < limit := Nat.mul_pos (by generalize 1024 = k; exact Nat.two_pow_pos k) one_pos
    have hn : n ≠ 0 := hround.mp (by omega)
    cases s <;> simp [lt, hn]

theorem ofInt_of_le {n : Int} (h : n.natAbs ≤ 2 ^ 53) : ofInt n = finite (n < 0) (n.natAbs * one) := by
  rw [ofInt, rounded_of_le _ h]

-- The sum of two integers is rounded as one.
theorem ofInt_add {a b : Int} (ha : a.natAbs ≤ 2 ^ 53) (hb : b.natAbs ≤ 2 ^ 53) :
    (ofInt a).add (ofInt b) = ofInt (a + b) := by
  have hs (n : Int) : scaled (decide (n < 0)) (n.natAbs * one) = n * one := by
    have hn : scaled (decide (n < 0)) n.natAbs = n := by
      by_cases h : n < 0 <;> simp only [h, decide_true, decide_false, scaled] <;> omega
    rw [scaled_mul, hn]
  have hone : (0 : Int) < one := Int.natCast_pos.mpr one_pos
  have hneg (n : Int) : n * one < 0 ↔ n < 0 := by
    have h := Int.mul_lt_mul_right (b := n) (c := 0) hone
    rwa [Int.zero_mul] at h
  have hsign : ((a + b) * (one : Int) < 0 ∨ (a + b) * (one : Int) = 0 ∧ decide (a < 0) ∧ decide (b < 0)) ↔
      a + b < 0 := by
    rw [hneg, Int.mul_eq_zero, or_iff_left hone.ne', decide_eq_true_iff, decide_eq_true_iff]
    omega
  rw [ofInt_of_le ha, ofInt_of_le hb, add, hs, hs, ← Int.add_mul, decide_eq_decide.mpr hsign, Int.natAbs_mul,
    Int.natAbs_natCast, ofInt]

theorem lt_of_lt_of_le {x y z : Binary64} (hxy : x.lt y) (hyz : y.le z) : x.lt z := by
  cases x <;> cases y <;> cases z <;> simp_all [lt, le]
  case finite.finite.finite => exact Int.lt_of_lt_of_le hxy hyz

namespace Nonneg

variable {x y : Binary64}

theorem rank_inj (hx : x.Nonneg) (hy : y.Nonneg) (h : rank x = rank y) : x = y := by
  cases hx <;> cases hy <;> simp_all [rank]

theorem lt_eq (hx : x.Nonneg) (hy : y.Nonneg) : x.lt y = decide (rank x < rank y) := by
  cases hx <;> cases hy <;> simp [lt, rank, scaled]

theorem rounded (n d : Nat) : (rounded false n d).Nonneg := by
  simp only [Binary64.rounded]
  split_ifs
  case pos => exact .finite _
  case neg => exact .infinity

theorem ofInt {n : Int} (h : 0 ≤ n) : (ofInt n).Nonneg := by
  have hn : decide (n < 0) = false := decide_eq_false (Int.not_lt.mpr h)
  rw [Binary64.ofInt, hn]
  exact rounded _ _

theorem div (hx : x.Nonneg) {m : Nat} (hm : m ≠ 0) : (x.div (.finite false m)).Nonneg := by
  cases hx
  case finite n =>
    rw [Binary64.div, if_pos hm]
    exact rounded _ _
  case infinity => exact .infinity

-- A difference is not rounded to zero.
theorem zero_lt_sub (hx : x.Nonneg) (hy : y.Nonneg) : (Binary64.finite false 0).lt (y.sub x) = x.lt y := by
  cases hx <;> cases hy
  case finite.finite m n =>
    simp only [sub, neg, add, zero_lt_rounded]
    simp only [lt, scaled, Bool.not_false]
    rw [Bool.eq_iff_iff]
    simp
    omega
  all_goals simp [sub, neg, add, lt]

end Nonneg

end Binary64
