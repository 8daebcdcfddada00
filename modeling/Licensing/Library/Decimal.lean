import Mathlib.Algebra.Order.Ring.Nat
import Mathlib.Data.List.DropRight
import Mathlib.Tactic.Ring

-- Decimal numbers of a fixed width.

namespace Decimal

def digit (n : Nat) : Char :=
  Char.ofNat (48 + n % 10)

def value (c : Char) : Nat :=
  c.toNat - 48

def digits : Nat → Nat → List Char
  | 0,     _ => []
  | w + 1, n => digit (n / 10 ^ w) :: digits w n

-- At least `w` digits.
def padded (w n : Nat) : List Char :=
  if n < 10 ^ w then digits w n else Nat.toDigits 10 n

def take : Nat → Nat → List Char → Option (Nat × List Char)
  | 0,     acc, cs      => some (acc, cs)
  | _ + 1, _,   []      => none
  | w + 1, acc, c :: cs => if c.isDigit then take w (acc * 10 + value c) cs else none

theorem digit_toNat (n : Nat) : (digit n).toNat = 48 + n % 10 := by
  have h : n % 10 < 10 := Nat.mod_lt _ (by decide)
  have valid : (48 + n % 10).isValidChar := by simp [Nat.isValidChar]; omega
  rw [digit, Char.ofNat, dif_pos valid]
  rfl

@[simp]
theorem value_digit (n : Nat) : value (digit n) = n % 10 := by
  simp [value, digit_toNat]

@[simp]
theorem isDigit_digit (n : Nat) : (digit n).isDigit = true := by
  have h := digit_toNat n
  have lt : n % 10 < 10 := Nat.mod_lt _ (by decide)
  simp only [Char.toNat, Char.isDigit, ge_iff_le, Bool.and_eq_true, decide_eq_true_eq] at h ⊢
  simp only [UInt32.le_iff_toNat_le]
  constructor
  · show 48 ≤ _
    omega
  · show _ ≤ 57
    omega

@[simp]
theorem length_digits (w n : Nat) : (digits w n).length = w := by
  induction w
  case zero => rfl
  case succ w ih => simp [digits, ih]

theorem take_digits (w n acc : Nat) (cs : List Char) :
    take w acc (digits w n ++ cs) = some (acc * 10 ^ w + n % 10 ^ w, cs) := by
  induction w generalizing acc
  case zero => simp [take, digits, Nat.mod_one]
  case succ w ih =>
    have h : n % 10 ^ (w + 1) = 10 ^ w * (n / 10 ^ w % 10) + n % 10 ^ w := by
      rw [Nat.pow_succ, Nat.mod_mul, Nat.add_comm]
    simp only [digits, List.cons_append, take, isDigit_digit, if_true, value_digit, ih, h]
    congr 2
    ring

@[simp]
theorem take_digits_of_lt {w n : Nat} (h : n < 10 ^ w) (cs : List Char) :
    take w 0 (digits w n ++ cs) = some (n, cs) := by
  simp [take_digits, Nat.mod_eq_of_lt h]

theorem value_lt {c : Char} (h : c.isDigit) : value c < 10 := by
  simp only [Char.isDigit, ge_iff_le, Bool.and_eq_true, decide_eq_true_eq, UInt32.le_iff_toNat_le] at h
  have hu : c.toNat ≤ 57 := h.2
  simp only [value]
  omega

theorem take_lt {w acc n : Nat} {cs rest : List Char} (h : take w acc cs = some (n, rest)) :
    n < (acc + 1) * 10 ^ w := by
  induction w generalizing acc cs
  case zero =>
    cases h
    simp
  case succ w ih =>
    cases cs
    case nil => simp [take] at h
    case cons c cs =>
      rw [take, Option.ite_none_right_eq_some] at h
      have hv := value_lt h.1
      calc n < (acc * 10 + value c + 1) * 10 ^ w := ih h.2
        _ ≤ (acc + 1) * 10 * 10 ^ w := Nat.mul_le_mul_right _ (by omega)
        _ = (acc + 1) * 10 ^ (w + 1) := by ring

theorem foldl_lt {ds : List Char} (hd : ∀ d ∈ ds, d.isDigit) (n : Nat) :
    ds.foldl (fun n d => n * 10 + value d) n < (n + 1) * 10 ^ ds.length := by
  induction ds generalizing n
  case nil => simp
  case cons d ds ih =>
    rw [List.forall_mem_cons] at hd
    have hv := value_lt hd.1
    calc (d :: ds).foldl (fun n d => n * 10 + value d) n
      _ < (n * 10 + value d + 1) * 10 ^ ds.length := ih hd.2 _
      _ ≤ (n + 1) * 10 * 10 ^ ds.length := Nat.mul_le_mul_right _ (by omega)
      _ = (n + 1) * 10 ^ (d :: ds).length := by rw [List.length_cons]; ring

theorem digits_injective {w n m : Nat} (hn : n < 10 ^ w) (hm : m < 10 ^ w) (h : digits w n = digits w m) :
    n = m := by
  have hs := take_digits_of_lt hn []
  rw [h, take_digits_of_lt hm] at hs
  exact (Prod.mk.inj (Option.some.inj hs)).left.symm

theorem digits_concat (w n : Nat) : digits (w + 1) n = digits w (n / 10) ++ [digit n] := by
  induction w
  case zero => simp [digits]
  case succ w ih =>
    rw [digits, ih, digits, List.cons_append, Nat.div_div_eq_div_mul, ← Nat.pow_succ']

theorem digit_eq_zero_iff (n : Nat) : digit n = '0' ↔ 10 ∣ n := by
  apply Iff.intro
  case mp =>
    intro h
    have hd := digit_toNat n
    rw [h] at hd
    have : ('0' : Char).toNat = 48 := rfl
    omega
  case mpr =>
    intro h
    rw [digit, Nat.mod_eq_zero_of_dvd h]

-- The digits up to the last one that is not zero.
def significant (w n : Nat) : List Char :=
  (digits w n).rdropWhile (· = '0')

theorem significant_succ (w n : Nat) :
    significant (w + 1) n = if 10 ∣ n then significant w (n / 10) else digits (w + 1) n := by
  rw [significant, digits_concat, List.rdropWhile_concat]
  simp [digit_eq_zero_iff, significant]

theorem isPrefix_significant (w n : Nat) : significant w n <+: digits w n :=
  List.rdropWhile_prefix _ _

theorem length_significant_le (w v n : Nat) : (significant (w + v) n).length ≤ w ↔ 10 ^ v ∣ n := by
  induction v generalizing n
  case zero =>
    have hl := (isPrefix_significant w n).length_le
    rw [length_digits] at hl
    simpa using hl
  case succ v ih =>
    rw [← Nat.add_assoc, significant_succ]
    by_cases h : 10 ∣ n
    case pos =>
      rw [if_pos h, ih, Nat.pow_succ']
      exact ⟨Nat.mul_dvd_of_dvd_div h, fun hd => Nat.dvd_div_of_mul_dvd hd⟩
    case neg =>
      rw [if_neg h, length_digits]
      refine iff_of_false (by omega) fun hd => h ((Nat.dvd_mul_right 10 (10 ^ v)).trans ?_)
      rwa [← Nat.pow_succ']

theorem significant_of_dvd {v n : Nat} (w : Nat) (h : 10 ^ v ∣ n) :
    significant (w + v) n = significant w (n / 10 ^ v) := by
  induction v generalizing n
  case zero => simp
  case succ v ih =>
    rw [Nat.pow_succ'] at h
    have h₁ : 10 ∣ n := (Nat.dvd_mul_right 10 (10 ^ v)).trans h
    rw [← Nat.add_assoc, significant_succ, if_pos h₁, ih (Nat.dvd_div_of_mul_dvd h), Nat.div_div_eq_div_mul,
      ← Nat.pow_succ']

-- The zeros at the end are gone.
theorem significant_ne_concat (w n : Nat) (cs : List Char) : significant w n ≠ cs ++ ['0'] := by
  intro h
  have hne : significant w n ≠ [] := by simp [h]
  have hl := List.rdropWhile_last_not (p := (· = '0')) (digits w n) hne
  simp only [decide_eq_true_eq] at hl
  apply hl
  have hg : (significant w n).getLast hne = '0' := by simp [h]
  exact hg

end Decimal
