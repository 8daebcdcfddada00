import Mathlib.Algebra.Order.Ring.Nat
import Mathlib.Data.List.Basic
import Mathlib.Tactic.Ring

-- Numbers by their digits in some base, the most significant digit first.

namespace Positional

variable {b : Nat}

-- The last `w` digits of a number.
def digits (b : Nat) : Nat → Nat → List Nat
  | 0,     _ => []
  | w + 1, n => n / b ^ w % b :: digits b w n

def value (b : Nat) (ds : List Nat) : Nat :=
  ds.foldl (fun n d => n * b + d) 0

@[simp]
theorem length_digits (w n : Nat) : (digits b w n).length = w := by
  induction w
  case zero => rfl
  case succ w ih => simp [digits, ih]

theorem lt_of_mem_digits (hb : 0 < b) {w n d : Nat} (h : d ∈ digits b w n) : d < b := by
  induction w
  case zero => cases h
  case succ w ih =>
    cases h
    case head => exact Nat.mod_lt _ hb
    case tail h => exact ih h

theorem digits_append (v u n : Nat) : digits b (u + v) n = digits b u (n / b ^ v) ++ digits b v n := by
  induction u
  case zero => simp [digits]
  case succ u ih =>
    rw [Nat.succ_add, digits, digits, ih, List.cons_append, Nat.div_div_eq_div_mul, ← pow_add,
      Nat.add_comm v u]

theorem digits_mod (w n : Nat) : {v : Nat} → v ≤ w → digits b v (n % b ^ w) = digits b v n
  | 0,     _ => rfl
  | v + 1, h => by
    have hd : b ^ w = b ^ v * b * b ^ (w - (v + 1)) := by
      rw [← pow_succ, ← pow_add, Nat.add_sub_cancel' h]
    have hq : n % b ^ w / b ^ v % b = n / b ^ v % b := by
      rw [hd, Nat.mul_assoc, Nat.mod_mul_right_div_self, Nat.mod_mul_right_mod]
    rw [digits, digits, hq, digits_mod w n (Nat.le_of_succ_le h)]

theorem foldl_digits (ds : List Nat) (m : Nat) :
    ds.foldl (fun n d => n * b + d) m = m * b ^ ds.length + value b ds := by
  induction ds generalizing m
  case nil => simp [value]
  case cons d ds ih =>
    rw [value, List.foldl_cons, List.foldl_cons, ih, ih (0 * b + d), List.length_cons]
    ring

theorem value_append (ds es : List Nat) :
    value b (ds ++ es) = value b ds * b ^ es.length + value b es := by
  rw [value, List.foldl_append, foldl_digits]
  rfl

theorem value_cons (d : Nat) (ds : List Nat) : value b (d :: ds) = d * b ^ ds.length + value b ds := by
  rw [← List.singleton_append, value_append]
  simp [value]

theorem value_digits (w n : Nat) : value b (digits b w n) = n % b ^ w := by
  induction w
  case zero => simp [digits, value, Nat.mod_one]
  case succ w ih =>
    rw [digits, value_cons, length_digits, ih, Nat.mod_pow_succ]
    ring

theorem value_lt {ds : List Nat} (h : ∀ d ∈ ds, d < b) : value b ds < b ^ ds.length := by
  induction ds
  case nil => simp [value]
  case cons d ds ih =>
    have hd : d + 1 ≤ b := h d (by simp)
    have hv := ih fun d hd => h d (by simp [hd])
    have hm := Nat.mul_le_mul_right (b ^ ds.length) hd
    rw [value_cons, List.length_cons, pow_succ, Nat.mul_comm _ b]
    rw [Nat.succ_mul] at hm
    omega

theorem digits_value {ds : List Nat} (h : ∀ d ∈ ds, d < b) : digits b ds.length (value b ds) = ds := by
  induction ds
  case nil => rfl
  case cons d ds ih =>
    have hv := value_lt fun e he => h e (List.mem_cons_of_mem d he)
    have hp : 0 < b ^ ds.length := by omega
    have hd : (d * b ^ ds.length + value b ds) / b ^ ds.length % b = d := by
      rw [Nat.mul_comm, Nat.mul_add_div hp, Nat.div_eq_of_lt hv, Nat.add_zero]
      exact Nat.mod_eq_of_lt (h d (by simp))
    have hm := digits_mod ds.length (d * b ^ ds.length + value b ds) (b := b) (Nat.le_refl _)
    rw [Nat.mul_add_mod', Nat.mod_eq_of_lt hv, ih fun e he => h e (List.mem_cons_of_mem d he)] at hm
    rw [value_cons, List.length_cons, digits, hd, ← hm]

-- Digits of digits: each digit of a power of the base is written with the digits of the base.
theorem flatMap_digits (k w n : Nat) :
    (digits (b ^ k) w n).flatMap (digits b k) = digits b (w * k) n := by
  induction w
  case zero => simp [digits]
  case succ w ih =>
    rw [digits, List.flatMap_cons, ih, Nat.succ_mul, Nat.add_comm, digits_append, ← pow_mul,
      Nat.mul_comm k w, digits_mod k _ (Nat.le_refl k)]

-- Numbers of one length are ordered as their digits.
theorem digits_lt_digits (hb : 0 < b) {w n m : Nat} (h : n % b ^ w < m % b ^ w) : digits b w n < digits b w m := by
  induction w
  case zero => simp [Nat.mod_one] at h
  case succ w ih =>
    rw [Nat.mod_pow_succ, Nat.mod_pow_succ] at h
    rw [digits, digits, List.cons_lt_cons_iff]
    rcases Nat.lt_trichotomy (n / b ^ w % b) (m / b ^ w % b) with hlt | heq | hgt
    case inl => exact .inl hlt
    case inr.inl => exact .inr ⟨heq, ih (by rw [heq] at h; omega)⟩
    case inr.inr =>
      -- The digits further right are less than one unit of this one.
      have hm := Nat.mod_lt m (Nat.pow_pos hb : 0 < b ^ w)
      have hu := Nat.mul_le_mul_left (b ^ w) (Nat.succ_le_of_lt hgt)
      rw [Nat.mul_succ] at hu
      generalize n % b ^ w = r at h
      omega

section Order

variable {α : Type} [LT α]

theorem append_lt_append {as bs : List α} (h : as < bs) (hl : as.length = bs.length) (cs ds : List α) :
    as ++ cs < bs ++ ds := by
  induction as generalizing bs
  case nil =>
    cases bs
    case nil => exact absurd h (List.not_lt_nil _)
    case cons => cases hl
  case cons a as ih =>
    cases bs
    case nil => cases hl
    case cons b bs =>
      rw [List.cons_append, List.cons_append, List.cons_lt_cons_iff]
      rcases List.cons_lt_cons_iff.mp h with hlt | ⟨heq, hlt⟩
      case inl => exact .inl hlt
      case inr => exact .inr ⟨heq, ih hlt (Nat.succ.inj hl)⟩

theorem map_lt_map {f : Nat → α} (hf : ∀ d e, d < e → e < b → f d < f e) {ds es : List Nat}
    (he : ∀ e ∈ es, e < b) (h : ds < es) : ds.map f < es.map f := by
  induction ds generalizing es
  case nil =>
    cases es
    case nil => exact absurd h (List.not_lt_nil _)
    case cons => exact List.nil_lt_cons _ _
  case cons d ds ih =>
    cases es
    case nil => exact absurd h (List.not_lt_nil _)
    case cons e es =>
      rw [List.map_cons, List.map_cons, List.cons_lt_cons_iff]
      rcases List.cons_lt_cons_iff.mp h with hlt | ⟨heq, hlt⟩
      case inl => exact .inl (hf d e hlt (he e (by simp)))
      case inr => exact .inr ⟨by rw [heq], ih (fun e h => he e (by simp [h])) hlt⟩

end Order

end Positional
