import Mathlib.Algebra.Order.Ring.Nat
import Mathlib.Data.List.Basic

-- The Pre-Authentication Encoding of PASETO: a sequence of byte strings, each of them behind its
-- length.

namespace Pae

def littleEndian : Nat → Nat → List UInt8
  | 0,     _ => []
  | k + 1, n => .ofNat n :: littleEndian k (n / 256)

-- The most significant bit is cleared.
def le64 (n : Nat) : List UInt8 :=
  (littleEndian 8 n).modify 7 (· &&& 0x7f)

def pae (pieces : List (List UInt8)) : List UInt8 :=
  le64 pieces.length ++ pieces.flatMap fun p => le64 p.length ++ p

theorem littleEndian_injective {k m n : Nat} (hm : m < 256 ^ k) (hn : n < 256 ^ k)
    (h : littleEndian k m = littleEndian k n) : m = n := by
  induction k generalizing m n
  case zero => omega
  case succ k ih =>
    obtain ⟨hh, ht⟩ := List.cons.inj h
    have hb : m % 256 = n % 256 := by
      have := congrArg UInt8.toNat hh
      rwa [UInt8.toNat_ofNat', UInt8.toNat_ofNat'] at this
    have hd : m / 256 = n / 256 := by
      rw [Nat.pow_succ] at hm hn
      exact ih (Nat.div_lt_of_lt_mul (by omega)) (Nat.div_lt_of_lt_mul (by omega)) ht
    omega

theorem length_le64 (n : Nat) : (le64 n).length = 8 :=
  rfl

theorem le64_of_lt {n : Nat} (h : n < 2 ^ 63) : le64 n = littleEndian 8 n := by
  have hb (b : Nat) (hb : b < 128) : UInt8.ofNat b &&& 0x7f = UInt8.ofNat b := by
    refine UInt8.toNat_inj.mp ?_
    have hm : (UInt8.ofNat b).toNat = b := UInt8.toNat_ofNat_of_lt' (by rw [UInt8.size]; omega)
    rw [UInt8.toNat_and, hm]
    exact (Nat.and_two_pow_sub_one_eq_mod b 7).trans (Nat.mod_eq_of_lt hb)
  simp only [le64, littleEndian, List.modify_succ_cons, List.modify_zero_cons]
  rw [hb _ (by omega)]

theorem le64_injective {m n : Nat} (hm : m < 2 ^ 63) (hn : n < 2 ^ 63) (h : le64 m = le64 n) : m = n := by
  rw [le64_of_lt hm, le64_of_lt hn] at h
  exact littleEndian_injective (by omega) (by omega) h

-- The lengths divide the bytes into the pieces.
theorem pieces_injective {ps qs : List (List UInt8)} (hp : ∀ p ∈ ps, p.length < 2 ^ 63)
    (hq : ∀ q ∈ qs, q.length < 2 ^ 63)
    (h : ps.flatMap (fun p => le64 p.length ++ p) = qs.flatMap (fun q => le64 q.length ++ q)) :
    ps = qs := by
  induction ps generalizing qs
  case nil =>
    cases qs
    case nil => rfl
    case cons q qs => simp [List.flatMap_cons, le64, littleEndian] at h
  case cons p ps ih =>
    cases qs
    case nil => simp [List.flatMap_cons, le64, littleEndian] at h
    case cons q qs =>
      rw [List.forall_mem_cons] at hp hq
      simp only [List.flatMap_cons, List.append_assoc] at h
      obtain ⟨hl, h⟩ := List.append_inj h (by simp only [length_le64])
      have hl := le64_injective hp.1 hq.1 hl
      obtain ⟨hpq, ht⟩ := List.append_inj h hl
      rw [hpq, ih hp.2 hq.2 ht]

theorem pae_injective {ps qs : List (List UInt8)} (hp : ∀ p ∈ ps, p.length < 2 ^ 63)
    (hq : ∀ q ∈ qs, q.length < 2 ^ 63) (h : pae ps = pae qs) : ps = qs :=
  pieces_injective hp hq (List.append_inj h (by simp only [length_le64])).2

end Pae
