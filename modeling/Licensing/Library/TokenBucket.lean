import Mathlib.Algebra.Order.Ring.Defs
import Mathlib.Data.Nat.Cast.Order.Ring
import Mathlib.Tactic.Linarith
import Mathlib.Tactic.Ring

-- A bucket of tokens that refills at a constant rate up to its capacity. A request is granted for a
-- token; an account that is thrown away may only come back full once it would have been full.

namespace TokenBucket

variable {K : Type} [CommRing K] [LinearOrder K]

structure Account (K : Type) where
  tokens : K
  time   : K

variable (capacity rate : K)

-- What the account holds at a later time.
def Account.level (a : Account K) (now : K) : K :=
  min capacity (a.tokens + rate * (now - a.time))

-- The accounts that can follow the granted requests of the given times, the last one first. An
-- account may always hold less than it could.
inductive Metered : List K → Account K → Prop
  | fresh (now : K) : Metered [] ⟨capacity, now⟩
  | wait {granted a now tokens} (metered : Metered granted a) (later : a.time ≤ now)
      (refilled : tokens ≤ a.level capacity rate now) : Metered granted ⟨tokens, now⟩
  | spend {granted a} (metered : Metered granted a) (enough : 1 ≤ a.tokens) :
      Metered (a.time :: granted) ⟨a.tokens - 1, a.time⟩

-- How many requests were granted within a window.
def within (s t : K) (granted : List K) : Nat :=
  granted.countP fun g => s ≤ g ∧ g ≤ t

def since (s : K) (granted : List K) : Nat :=
  granted.countP fun g => s ≤ g

namespace Metered

variable {capacity rate} {granted : List K} {a : Account K}

theorem granted_le (h : Metered capacity rate granted a) : ∀ g ∈ granted, g ≤ a.time := by
  induction h
  case fresh => simp
  case wait later _ ih => exact fun g hg => (ih g hg).trans later
  case spend ih => simpa using ih

theorem since_eq_zero (h : Metered capacity rate granted a) {s : K} (hs : a.time < s) :
    since s granted = 0 := by
  simp only [since, List.countP_eq_zero, decide_eq_true_eq, not_le]
  exact fun g hg => (h.granted_le g hg).trans_lt hs

-- An account that was thrown away once it would have been full may start again.
theorem reborn (h : Metered capacity rate granted a) {now : K} (later : a.time ≤ now)
    (refilled : capacity ≤ a.tokens + rate * (now - a.time)) : Metered capacity rate granted ⟨capacity, now⟩ :=
  h.wait later <| le_min (le_refl _) refilled

variable [IsStrictOrderedRing K]

section Window

variable (full : 0 ≤ capacity) (nonneg : 0 ≤ rate) {s t : K}
include nonneg

-- What was spent since a time of the past and what is left fit in a full bucket and its refill.
theorem since_add_tokens_le (h : Metered capacity rate granted a) (hs : s ≤ a.time) :
    since s granted + a.tokens ≤ capacity + rate * (a.time - s) := by
  induction h
  case fresh now =>
    have := mul_nonneg nonneg (sub_nonneg.mpr hs)
    simpa [since] using this
  case wait granted a now tokens metered later refilled ih =>
    by_cases past : s ≤ a.time
    case pos =>
      have refilled := refilled.trans (min_le_right _ _)
      have split : rate * (now - s) = rate * (now - a.time) + rate * (a.time - s) := by ring
      linarith [ih past]
    case neg =>
      have unspent := metered.since_eq_zero (not_le.mp past)
      have capped := refilled.trans (min_le_left _ _)
      have := mul_nonneg nonneg (sub_nonneg.mpr hs)
      simp only [unspent, Nat.cast_zero]
      linarith
  case spend granted a metered enough ih =>
    have spent : since s (a.time :: granted) = since s granted + 1 := by simp [since, hs]
    simp only [spent, Nat.cast_add, Nat.cast_one]
    linarith [ih hs]

include full in
-- No window sees more grants than a full bucket and what it refills meanwhile.
theorem within_le (h : Metered capacity rate granted a) (hst : s ≤ t) :
    within s t granted ≤ capacity + rate * (t - s) := by
  have refill := mul_nonneg nonneg (sub_nonneg.mpr hst)
  induction h
  case fresh =>
    simp only [within, List.countP_nil, Nat.cast_zero]
    linarith
  case wait ih => exact ih
  case spend granted a metered enough ih =>
    by_cases inside : s ≤ a.time ∧ a.time ≤ t
    case neg => simpa [within, inside] using ih
    case pos =>
      have spent := (metered.spend enough).since_add_tokens_le nonneg inside.left
      have all : within s t (a.time :: granted) ≤ since s (a.time :: granted) :=
        List.countP_mono_left fun g _ hg => by simpa using (of_decide_eq_true hg).left
      have all : (within s t (a.time :: granted) : K) ≤ since s (a.time :: granted) := by
        exact_mod_cast all
      have := mul_le_mul_of_nonneg_left (sub_le_sub_right inside.right s) nonneg
      simp only at spent
      linarith

end Window

end Metered

end TokenBucket
