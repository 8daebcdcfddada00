import Mathlib.Algebra.Order.Ring.Int
import Mathlib.Data.Nat.Log

-- IEEE 754 doubles. The magnitude of a finite one counts multiples of the least positive one.

inductive Binary64
  | nan
  | infinity (negative : Bool)
  | finite (negative : Bool) (magnitude : Nat)
  deriving DecidableEq, Repr

namespace Binary64

-- The magnitude of one.
def one : Nat :=
  2 ^ 1074

-- The least magnitude beyond the finite doubles.
def limit : Nat :=
  2 ^ 1024 * one

theorem one_pos : 0 < one := by
  unfold one
  generalize 1074 = k
  exact Nat.two_pow_pos k

-- The nearest natural number, the even one of two.
def halfEven (n d : Nat) : Nat :=
  let q := n / d
  let r := n % d
  if 2 * r < d then q else if d < 2 * r then q + 1 else q + q % 2

-- Rounds the magnitude `n / d` to 53 significant bits.
def round (n d : Nat) : Nat :=
  let unit := 2 ^ (Nat.log 2 (n / d) - 52)
  halfEven n (d * unit) * unit

-- Beyond the largest finite double is infinity.
def rounded (negative : Bool) (n d : Nat) : Binary64 :=
  let m := round n d
  if m < limit then finite negative m else infinity negative

def isFinite : Binary64 → Bool
  | finite _ _ => true
  | _          => false

-- The value of a finite double, in multiples of the least positive one.
def scaled : Bool → Nat → Int
  | true,  m => -m
  | false, m => m

def ofInt (n : Int) : Binary64 :=
  rounded (n < 0) (n.natAbs * one) 1

-- The integer that a double stands for, where zero has no sign.
def toInt? : Binary64 → Option Int
  | finite s m =>
    if m % one = 0 ∧ ¬(s ∧ m = 0) then some (scaled s (m / one)) else none
  | _ => none

def add : Binary64 → Binary64 → Binary64
  | finite s m, finite s' m' =>
    let sum := scaled s m + scaled s' m'
    rounded (sum < 0 ∨ sum = 0 ∧ s ∧ s') sum.natAbs 1
  | finite _ _, x            => x
  | x, finite _ _            => x
  | infinity s, infinity s'  => if s = s' then infinity s else nan
  | _, _                     => nan

def neg : Binary64 → Binary64
  | finite s m => finite (!s) m
  | infinity s => infinity (!s)
  | nan        => nan

def sub (x y : Binary64) : Binary64 :=
  x.add y.neg

def mul : Binary64 → Binary64 → Binary64
  | finite s m, finite s' m'  => rounded (s != s') (m * m') one
  | finite s m, infinity s'   => if m = 0 then nan else infinity (s != s')
  | infinity s, finite s' m   => if m = 0 then nan else infinity (s != s')
  | infinity s, infinity s'   => infinity (s != s')
  | _, _                      => nan

def div : Binary64 → Binary64 → Binary64
  | finite s m, finite s' m' =>
    if m' ≠ 0 then rounded (s != s') (m * one) m'
    else if m ≠ 0 then infinity (s != s')
    else nan
  | finite s _, infinity s'  => finite (s != s') 0
  | infinity s, finite s' _  => infinity (s != s')
  | _, _                     => nan

def lt : Binary64 → Binary64 → Bool
  | finite s m, finite s' m' => scaled s m < scaled s' m'
  | finite _ _, infinity s   => !s
  | infinity s, finite _ _   => s
  | infinity s, infinity s'  => s && !s'
  | _, _                     => false

def le : Binary64 → Binary64 → Bool
  | finite s m, finite s' m' => scaled s m ≤ scaled s' m'
  | finite _ _, infinity s   => !s
  | infinity s, finite _ _   => s
  | infinity s, infinity s'  => s || !s'
  | _, _                     => false

-- The value of a decimal literal: digits, and the power of ten that scales them.
structure Literal where
  negative : Bool
  digits   : Nat
  exponent : Int

def digitsValue (cs : List Char) : Nat :=
  cs.foldl (fun n c => n * 10 + (c.toNat - 48)) 0

def exponentValue : List Char → Int
  | '-' :: cs => -digitsValue cs
  | '+' :: cs => digitsValue cs
  | cs        => digitsValue cs

def Literal.read (lit : List Char) : Literal :=
  let cs   := if lit.head? = some '-' then lit.tail else lit
  let int  := cs.takeWhile Char.isDigit
  let rest := cs.dropWhile Char.isDigit
  let frac := if rest.head? = some '.' then rest.tail.takeWhile Char.isDigit else []
  let exp  := (cs.dropWhile fun c => c ≠ 'e' ∧ c ≠ 'E').tail
  { negative := lit.head? = some '-'
    digits   := digitsValue (int ++ frac)
    exponent := exponentValue exp - frac.length }

def Literal.toBinary64 (l : Literal) : Binary64 :=
  if 0 ≤ l.exponent then rounded l.negative (l.digits * 10 ^ l.exponent.toNat * one) 1
  else rounded l.negative (l.digits * one) (10 ^ (-l.exponent).toNat)

def ofLiteral (lit : List Char) : Binary64 :=
  (Literal.read lit).toBinary64

theorem halfEven_of_dvd {n d : Nat} (hd : 0 < d) (h : d ∣ n) : halfEven n d = n / d := by
  have hr : n % d = 0 := Nat.mod_eq_zero_of_dvd h
  simp [halfEven, hr, hd]

-- What has 53 bits is not rounded.
theorem round_of_lt {m : Nat} (k : Nat) (h : m < 2 ^ 53) : round (m * 2 ^ k) 1 = m * 2 ^ k := by
  have hl : Nat.log 2 (m * 2 ^ k) - 52 ≤ k := by
    have hlt : m * 2 ^ k < 2 ^ (53 + k) := by
      rw [Nat.pow_add]
      exact Nat.mul_lt_mul_of_pos_right h (Nat.two_pow_pos k)
    have := Nat.log_lt_of_lt_pow' (by omega) hlt
    omega
  have hd : 2 ^ (Nat.log 2 (m * 2 ^ k) - 52) ∣ m * 2 ^ k :=
    Nat.dvd_trans (Nat.pow_dvd_pow 2 hl) (Nat.dvd_mul_left _ _)
  rw [round, Nat.div_one, Nat.one_mul, halfEven_of_dvd (Nat.two_pow_pos _) hd, Nat.div_mul_cancel hd]

theorem rounded_of_lt {m : Nat} (s : Bool) (h : m < 2 ^ 53) :
    rounded s (m * one) 1 = finite s (m * one) := by
  have hle k (hk : 53 ≤ k) : 2 ^ 53 * one ≤ 2 ^ k * one :=
    Nat.mul_le_mul_right one (Nat.pow_le_pow_right (by decide) hk)
  have hlt : m * one < limit := by
    unfold limit
    exact Nat.lt_of_lt_of_le (Nat.mul_lt_mul_of_pos_right h one_pos) (hle 1024 (by decide))
  have hr : round (m * one) 1 = m * one := by
    rw [one]
    exact round_of_lt _ h
  rw [rounded, hr, if_pos hlt]

theorem rounded_of_le {m : Nat} (s : Bool) (h : m ≤ 2 ^ 53) :
    rounded s (m * one) 1 = finite s (m * one) := by
  rcases Nat.lt_or_eq_of_le h with h | h
  case inl => exact rounded_of_lt s h
  case inr =>
    have hp : m * one = 1 * 2 ^ (53 + 1074) := by rw [h, one, Nat.one_mul, Nat.pow_add]
    have hr : round (m * one) 1 = m * one := by
      rw [hp]
      exact round_of_lt _ (by decide)
    have hpow k (hk : 53 < k) : 2 ^ 53 * one < 2 ^ k * one :=
      Nat.mul_lt_mul_of_pos_right (Nat.pow_lt_pow_right (by decide) hk) one_pos
    have hlt : m * one < limit := by
      rw [h, limit]
      exact hpow 1024 (by decide)
    rw [rounded, hr, if_pos hlt]

theorem toInt?_finite {s : Bool} {m : Nat} (h : s → m ≠ 0) :
    (finite s (m * one)).toInt? = some (scaled s m) := by
  have hm : m * one % one = 0 := Nat.mul_mod_left m _
  have hz : ¬(s ∧ m * one = 0) := fun ⟨hs, hz⟩ =>
    h hs ((Nat.mul_eq_zero.mp hz).resolve_right one_pos.ne')
  rw [toInt?, if_pos ⟨hm, hz⟩, Nat.mul_div_cancel m one_pos]

-- Rounding does not go below the power of two that begins a magnitude.
theorem two_pow_log_le_round {n : Nat} (h : n ≠ 0) : 2 ^ Nat.log 2 n ≤ round n 1 := by
  rw [round, Nat.div_one, Nat.one_mul]
  generalize hu : Nat.log 2 n - 52 = k
  have hlog : 2 ^ Nat.log 2 n ≤ n := Nat.pow_log_le_self 2 h
  have hle : 2 ^ Nat.log 2 n / 2 ^ k ≤ halfEven n (2 ^ k) := by
    have hd : 2 ^ Nat.log 2 n / 2 ^ k ≤ n / 2 ^ k := Nat.div_le_div_right hlog
    have hq : n / 2 ^ k ≤ halfEven n (2 ^ k) := by
      simp only [halfEven]
      split
      case isTrue => exact Nat.le_refl _
      case isFalse => split <;> omega
    exact hd.trans hq
  have hk : k ≤ Nat.log 2 n := by omega
  calc 2 ^ Nat.log 2 n = 2 ^ Nat.log 2 n / 2 ^ k * 2 ^ k :=
        (Nat.div_mul_cancel (Nat.pow_dvd_pow 2 hk)).symm
    _ ≤ halfEven n (2 ^ k) * 2 ^ k := Nat.mul_le_mul_right _ hle

-- An integer beyond the safe range is not rounded into it.
theorem le_of_ofInt {n : Int} {s : Bool} {m : Nat} (h : ofInt n = finite s m) (hn : 2 ^ 53 ≤ n.natAbs) :
    2 ^ 53 ≤ m / one := by
  have hone : 0 < one := one_pos
  have hm : n.natAbs * one ≠ 0 := (Nat.mul_pos (by omega) hone).ne'
  have hr : 2 ^ 53 * one ≤ round (n.natAbs * one) 1 := by
    refine Nat.le_trans ?_ (two_pow_log_le_round hm)
    obtain ⟨e, he⟩ : ∃ e, 2 ^ 53 * one = 2 ^ e := ⟨53 + 1074, by rw [one, Nat.pow_add]⟩
    rw [he]
    refine Nat.pow_le_pow_right Nat.two_pos (Nat.le_log_of_pow_le Nat.one_lt_two ?_)
    rw [← he]
    exact Nat.mul_le_mul_right one hn
  rw [ofInt, rounded] at h
  split at h
  case isTrue =>
    cases h
    exact (Nat.le_div_iff_mul_le hone).mpr hr
  case isFalse => simp at h

theorem natAbs_lt_of_toInt?_ofInt {n k : Int} (h : (ofInt n).toInt? = some k) (hk : k.natAbs < 2 ^ 53) :
    n.natAbs < 2 ^ 53 := by
  by_contra hn
  cases hx : ofInt n
  case finite s m =>
    have hq := le_of_ofInt hx (Nat.le_of_not_lt hn)
    rw [hx, toInt?, Option.ite_none_right_eq_some] at h
    obtain ⟨-, h⟩ := h
    cases h
    generalize m / one = q at hk hq
    cases s <;> rw [scaled] at hk <;> omega
  all_goals
    rw [hx] at h
    simp [toInt?] at h

-- A double with the value of an integer, be it a zero of either sign.
def Represents (x : Binary64) (n : Int) : Prop :=
  ∃ s m, x = finite s m ∧ scaled s m = n * one

namespace Represents

variable {x y : Binary64} {a b n : Int}

theorem scaled_natAbs {s : Bool} (h : if s then n ≤ 0 else 0 ≤ n) : scaled s n.natAbs = n := by
  cases s
  case true =>
    rw [if_pos rfl] at h
    rw [scaled]
    omega
  case false =>
    rw [if_neg Bool.false_ne_true] at h
    rw [scaled]
    omega

theorem finite_natAbs {s : Bool} (h : if s then n ≤ 0 else 0 ≤ n) :
    (finite s (n.natAbs * one)).Represents n := by
  refine ⟨s, _, rfl, ?_⟩
  have hs := scaled_natAbs h
  cases s
  case false =>
    change ((n.natAbs * one : Nat) : Int) = _
    rw [Int.natCast_mul, show (n.natAbs : Int) = n from hs]
  case true =>
    change -((n.natAbs * one : Nat) : Int) = _
    rw [Int.natCast_mul, ← Int.neg_mul, show -(n.natAbs : Int) = n from hs]

theorem ofInt_of_le (h : n.natAbs ≤ 2 ^ 53) : (ofInt n).Represents n := by
  rw [Binary64.ofInt, rounded_of_le _ h]
  exact finite_natAbs (by by_cases hn : n < 0 <;> simp [hn] <;> omega)

theorem ofInt (h : n.natAbs < 2 ^ 53) : (ofInt n).Represents n :=
  ofInt_of_le h.le

theorem isFinite (h : x.Represents n) : x.isFinite := by
  obtain ⟨s, m, rfl, _⟩ := h
  rfl

theorem add_of_le (hx : x.Represents a) (hy : y.Represents b) (h : (a + b).natAbs ≤ 2 ^ 53) :
    (x.add y).Represents (a + b) := by
  obtain ⟨s, m, rfl, ha⟩ := hx
  obtain ⟨s', m', rfl, hb⟩ := hy
  have hsum : scaled s m + scaled s' m' = (a + b) * one := by rw [ha, hb, Int.add_mul]
  have habs : ((a + b) * (one : Int)).natAbs = (a + b).natAbs * one := by
    rw [Int.natAbs_mul, Int.natAbs_natCast]
  have hone : (0 : Int) < one := by exact_mod_cast one_pos
  simp only [Binary64.add, hsum, habs]
  rw [rounded_of_le _ h]
  refine finite_natAbs ?_
  split
  case isTrue hs =>
    have hs := of_decide_eq_true hs
    have hle : (a + b) * (one : Int) ≤ 0 := by omega
    exact Int.le_of_mul_le_mul_right (by rwa [Int.zero_mul]) hone
  case isFalse hs =>
    have hs := of_decide_eq_false (Bool.not_eq_true _ ▸ hs)
    have hle : 0 ≤ (a + b) * (one : Int) := by omega
    exact Int.le_of_mul_le_mul_right (by rwa [Int.zero_mul]) hone

theorem add (hx : x.Represents a) (hy : y.Represents b) (h : (a + b).natAbs < 2 ^ 53) :
    (x.add y).Represents (a + b) :=
  add_of_le hx hy h.le

theorem lt_eq (hx : x.Represents a) (hy : y.Represents b) : x.lt y = decide (a < b) := by
  obtain ⟨s, m, rfl, ha⟩ := hx
  obtain ⟨s', m', rfl, hb⟩ := hy
  have hone : (0 : Int) < one := by exact_mod_cast one_pos
  simp only [lt, ha, hb, Int.mul_lt_mul_right hone]

theorem le_eq (hx : x.Represents a) (hy : y.Represents b) : x.le y = decide (a ≤ b) := by
  obtain ⟨s, m, rfl, ha⟩ := hx
  obtain ⟨s', m', rfl, hb⟩ := hy
  have hone : (0 : Int) < one := by exact_mod_cast one_pos
  simp only [le, ha, hb, Int.mul_le_mul_right hone]

theorem inj (ha : x.Represents a) (hb : x.Represents b) : a = b := by
  have hone : (one : Int) ≠ 0 := Int.natCast_ne_zero.mpr one_pos.ne'
  have ⟨s, m, e, h⟩ := ha
  have ⟨s', m', e', h'⟩ := hb
  cases e.symm.trans e'
  exact Int.eq_of_mul_eq_mul_right hone (h.symm.trans h')

-- A double that is neither less nor greater stands for the same integer.
theorem of_le (hy : y.Represents n) (hxy : x.le y) (hyx : y.le x) : x.Represents n := by
  have ⟨s, m, e, h⟩ := hy
  subst e
  cases x
  case nan        => simp [le] at hxy
  case infinity s => cases s <;> simp [le] at hxy hyx
  case finite s' m' =>
    simp only [le, decide_eq_true_eq] at hxy hyx
    exact ⟨s', m', rfl, (Int.le_antisymm hxy hyx).trans h⟩

end Represents

theorem natAbs_scaled (s : Bool) (m : Nat) : (scaled s m).natAbs = m := by
  cases s <;> simp [scaled]

theorem scaled_mul (s : Bool) (q k : Nat) : scaled s (q * k) = scaled s q * k := by
  cases s <;> simp [scaled]

theorem represents_iff {s : Bool} {m : Nat} {n : Int} :
    (finite s m).Represents n ↔ m % one = 0 ∧ scaled s (m / one) = n := by
  have hone := one_pos
  apply Iff.intro
  case mp =>
    intro ⟨s', m', e, h⟩
    cases e
    have hm := congrArg Int.natAbs h
    rw [natAbs_scaled, Int.natAbs_mul, Int.natAbs_natCast] at hm
    rw [hm, scaled_mul] at h
    rw [hm, Nat.mul_div_cancel _ hone]
    exact ⟨Nat.mul_mod_left .., Int.eq_of_mul_eq_mul_right (Int.natCast_ne_zero.mpr hone.ne') h⟩
  case mpr =>
    intro ⟨hm, h⟩
    refine ⟨s, m, rfl, ?_⟩
    rw [← h, ← scaled_mul, Nat.div_mul_cancel (Nat.dvd_of_mod_eq_zero hm)]

-- A large integer is not rounded to a small one.
theorem eq_of_represents_ofInt {k n : Int} (h : (ofInt k).Represents n) (hn : n.natAbs < 2 ^ 53) : k = n := by
  by_cases hk : k.natAbs < 2 ^ 53
  case pos => exact Represents.inj (.ofInt hk) h
  case neg =>
    have ⟨s, m, e, _⟩ := h
    have large := le_of_ofInt e (Nat.le_of_not_lt hk)
    rw [e] at h
    have size := natAbs_scaled s (m / one)
    rw [(represents_iff.mp h).right] at size
    omega

-- A double with an integer value of 53 bits is the one that the integer is converted to.
theorem ofInt_of_toInt? {x : Binary64} {n : Int} (h : x.toInt? = some n) (small : n.natAbs < 2 ^ 53) : ofInt n = x := by
  cases x
  case finite s m =>
    rw [toInt?, Option.ite_none_right_eq_some] at h
    have ⟨⟨hm, hz⟩, e⟩ := h
    have e := Option.some.inj e
    have size : n.natAbs = m / one := e ▸ natAbs_scaled s (m / one)
    have whole : m / one * one = m := Nat.div_mul_cancel (Nat.dvd_of_mod_eq_zero hm)
    have sign : decide (n < 0) = s := by
      have hq : s → m / one ≠ 0 := by
        intro hs h0
        rw [h0, Nat.zero_mul] at whole
        exact hz ⟨hs, whole.symm⟩
      generalize m / one = q at e hq
      cases s <;> simp only [scaled] at e
      case false => exact decide_eq_false (by omega)
      case true  =>
        have hq := hq rfl
        exact decide_eq_true (by omega)
    rw [ofInt, rounded_of_lt _ small, size, whole, sign]
  all_goals cases h

end Binary64
