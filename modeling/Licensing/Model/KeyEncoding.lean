import Licensing.Library.Positional
import Licensing.Model.LicenseKey
import Mathlib.Data.Nat.Bitwise

-- The keys that are generated: 160 random bits in the digits of Crockford's base 32.

namespace Licensing

namespace Base32

-- The index is below 32.
def crockford (d : Nat) : Char :=
  Go.crockfordAlphabet.getD d '0'

section

variable {w : Nat} (shift : BitVec w → Nat → BitVec w)

-- `while (bits >= 5)`: the digits that are complete, and the number of bits that are left.
def emit (buf : BitVec w) : Nat → List Char × Nat
  | bits + 5 =>
    let (cs, rest) := emit buf bits
    (crockford (shift buf bits &&& 0x1f).toNat :: cs, rest)
  | bits     => ([], bits)

-- The buffer is never cleared: bits that were written move up until they fall out.
def encodeFrom (buf : BitVec w) (bits : Nat) : List UInt8 → List Char
  | []        => if 0 < bits then [crockford (buf <<< (5 - bits) &&& 0x1f).toNat] else []
  | b :: data =>
    let buf := buf <<< 8 ||| .ofNat w b.toNat
    let (cs, bits) := emit shift buf (bits + 8)
    cs ++ encodeFrom buf bits data

end

def groups (size : Nat) : Nat → List Char → List (List Char)
  | 0,     _  => []
  | n + 1, cs => cs.take size :: groups size n (cs.drop size)

end Base32

open Base32

namespace Go

-- A `uint` of 64 bits.
def base32Encode (data : List UInt8) : List Char :=
  encodeFrom (w := 64) BitVec.ushiftRight 0 0 data

-- A hyphen is written before every group but the first.
def formatGroups (s : List Char) (size : Nat) : List Char :=
  ((groups size ((s.length + size - 1) / size) s).mapIdx fun i part =>
    if 0 < i then '-' :: part else part).flatten

def generateLicenseKey (buf : Vector UInt8 20) : String :=
  "LIC-" ++ .ofList (formatGroups (base32Encode buf.toList) 4)

end Go

namespace Ts

-- The operators take their operands as signed integers of 32 bits.
def base32Encode (bytes : List UInt8) : List Char :=
  encodeFrom (w := 32) BitVec.sshiftRight 0 0 bytes

def formatGroups (s : List Char) (size : Nat) : List Char :=
  ['-'].intercalate (groups size ((s.length + size - 1) / size) s)

def generateLicenseKey (bytes : Vector UInt8 20) : String :=
  "LIC-" ++ .ofList (formatGroups (base32Encode bytes.toList) 4)

end Ts

namespace Base32

open Positional

-- What is read of the buffer: five bits at a place within the twelve lowest.
def Reads {w : Nat} (shift : BitVec w → Nat → BitVec w) : Prop :=
  ∀ buf bits, bits + 5 ≤ 12 → (shift buf bits &&& 0x1f).toNat = buf.toNat / 2 ^ bits % 32

theorem and_0x1f {w : Nat} (hw : 5 ≤ w) (x : BitVec w) : (x &&& 0x1f).toNat = x.toNat % 32 := by
  have h : 31 < 2 ^ w := Nat.lt_of_lt_of_le (by decide) (Nat.pow_le_pow_right (by decide) hw)
  have hx := Nat.and_two_pow_sub_one_eq_mod x.toNat 5
  simpa [BitVec.toNat_ofNat, Nat.mod_eq_of_lt h] using hx

theorem reads_ushiftRight {w : Nat} (hw : 12 ≤ w) : Reads (w := w) BitVec.ushiftRight := by
  intro buf bits hb
  rw [and_0x1f (by omega)]
  simp [Nat.shiftRight_eq_div_pow]

-- The sign is not read.
theorem reads_sshiftRight {w : Nat} (hw : 12 ≤ w) : Reads (w := w) BitVec.sshiftRight := by
  intro buf bits hb
  have he : buf.sshiftRight bits &&& 0x1f = buf.ushiftRight bits &&& 0x1f := by
    apply BitVec.eq_of_getLsbD_eq
    intro i hi
    by_cases h5 : i < 5
    case pos => simp [BitVec.getLsbD_sshiftRight, show bits + i < w by omega, show ¬w ≤ i by omega]
    case neg =>
      have hf : Nat.testBit 31 i = false :=
        Nat.testBit_lt_two_pow (Nat.lt_of_lt_of_le (by decide : 31 < 2 ^ 5)
          (Nat.pow_le_pow_right (by decide) (by omega)))
      simp [BitVec.getLsbD_ofNat, hf]
  rw [he, reads_ushiftRight hw buf bits hb]

theorem emit_eq {w : Nat} {shift : BitVec w → Nat → BitVec w} (h : Reads shift) (buf : BitVec w) :
    (bits : Nat) → bits ≤ 12 →
      emit shift buf bits = ((digits 32 (bits / 5) (buf.toNat / 2 ^ (bits % 5))).map crockford, bits % 5)
  | bits + 5, hb => by
    have hd : (bits + 5) / 5 = bits / 5 + 1 := by omega
    have hp : 2 ^ (bits % 5) * 32 ^ (bits / 5) = 2 ^ bits := by
      rw [show 32 = 2 ^ 5 from rfl, ← pow_mul, ← pow_add, Nat.mod_add_div]
    rw [emit, emit_eq h buf bits (by omega), h buf bits hb, hd, Nat.add_mod_right, digits, List.map_cons,
      Nat.div_div_eq_div_mul, hp]
  | 0, _ | 1, _ | 2, _ | 3, _ | 4, _ => rfl

-- A byte is read into the buffer below what is left in it.
theorem shifted {w : Nat} (hw : 12 ≤ w) (buf : BitVec w) (b : UInt8) {bits : Nat} (hb : bits < 5) :
    (buf <<< 8 ||| .ofNat w b.toNat).toNat % 2 ^ (bits + 8) = buf.toNat % 2 ^ bits * 256 + b.toNat := by
  have hd : 2 ^ (bits + 8) ∣ 2 ^ w := pow_dvd_pow 2 (by omega)
  have hm : (buf.toNat * 256 + b.toNat) % (256 * 2 ^ bits) = buf.toNat % 2 ^ bits * 256 + b.toNat := by
    have hlt := b.toNat_lt
    have hq : (buf.toNat * 256 + b.toNat) / 256 = buf.toNat := by omega
    have hr : (buf.toNat * 256 + b.toNat) % 256 = b.toNat := by omega
    rw [Nat.mod_mul, hq, hr, Nat.mul_comm, Nat.add_comm]
  have ho : buf.toNat <<< 8 ||| b.toNat = buf.toNat * 256 + b.toNat := by
    rw [← Nat.shiftLeft_add_eq_or_of_lt b.toNat_lt, Nat.shiftLeft_eq]
  rw [BitVec.toNat_or, BitVec.toNat_shiftLeft, BitVec.toNat_ofNat, Nat.or_mod_two_pow,
    Nat.mod_mod_of_dvd _ hd, Nat.mod_mod_of_dvd _ hd, ← Nat.or_mod_two_pow, ho, pow_add,
    Nat.mul_comm (2 ^ bits)]
  exact hm

theorem bytes_lt (data : List UInt8) : ∀ d ∈ data.map UInt8.toNat, d < 256 := by
  intro d hd
  have ⟨c, _, hc⟩ := List.mem_map.mp hd
  exact hc ▸ c.toNat_lt

theorem digits_one (n : Nat) : digits 32 1 n = [n % 32] := by
  simp [digits]

-- The digits of a number whose upper part is complete.
theorem digits_complete {x rest u k n pad v : Nat} (hk : k * 5 = rest + n * 8 + pad) (hv : v < 256 ^ n) :
    digits 32 (u + k) ((x % 2 ^ (rest + 5 * u) * 256 ^ n + v) * 2 ^ pad) =
      digits 32 u (x / 2 ^ rest) ++ digits 32 k ((x % 2 ^ rest * 256 ^ n + v) * 2 ^ pad) := by
  have h32 (j : Nat) : 32 ^ j = 2 ^ (5 * j) := by rw [show 32 = 2 ^ 5 from rfl, ← pow_mul]
  have h256 : 256 ^ n = 2 ^ (n * 8) := by rw [show 256 = 2 ^ 8 from rfl, ← pow_mul, Nat.mul_comm]
  have hunit : 2 ^ rest * 256 ^ n * 2 ^ pad = 32 ^ k := by
    rw [h256, h32, ← pow_add, ← pow_add, ← hk, Nat.mul_comm]
  have hx : x % 2 ^ (rest + 5 * u) = x % 2 ^ rest + 2 ^ rest * (x / 2 ^ rest % 32 ^ u) := by
    rw [pow_add, Nat.mod_mul, h32]
  have hn : (x % 2 ^ (rest + 5 * u) * 256 ^ n + v) * 2 ^ pad =
      (x % 2 ^ rest * 256 ^ n + v) * 2 ^ pad + x / 2 ^ rest % 32 ^ u * 32 ^ k := by
    rw [hx, ← hunit]
    ring
  have hlt : (x % 2 ^ rest * 256 ^ n + v) * 2 ^ pad < 32 ^ k := by
    have hr := Nat.mod_lt x (Nat.pow_pos (by decide : 0 < 2) : 0 < 2 ^ rest)
    have hm := Nat.mul_le_mul_right (256 ^ n) (Nat.succ_le_of_lt hr)
    rw [Nat.succ_mul] at hm
    rw [← hunit]
    exact Nat.mul_lt_mul_of_pos_right (by omega) (Nat.pow_pos (by decide))
  have hk32 : 0 < 32 ^ k := Nat.pow_pos (by decide)
  rw [hn, digits_append, Nat.add_mul_div_right _ _ hk32, Nat.div_eq_of_lt hlt, Nat.zero_add,
    digits_mod u _ (Nat.le_refl u)]
  congr 1
  rw [← digits_mod k _ (Nat.le_refl k), Nat.add_mul_mod_self_right, Nat.mod_eq_of_lt hlt]

-- The digits are those of the number that the bytes make up, behind the bits that are left in the
-- buffer, with zeros to fill the last digit.
theorem encodeFrom_eq {w : Nat} {shift : BitVec w → Nat → BitVec w} (hw : 12 ≤ w) (h : Reads shift)
    (data : List UInt8) (buf : BitVec w) {bits pad k : Nat} (hb : bits < 5) (hp : pad < 5)
    (hk : k * 5 = bits + data.length * 8 + pad) :
    encodeFrom shift buf bits data =
      (digits 32 k ((buf.toNat % 2 ^ bits * 256 ^ data.length + value 256 (data.map UInt8.toNat)) * 2 ^ pad)).map
        crockford := by
  induction data generalizing buf bits k
  case nil =>
    rw [List.length_nil, Nat.zero_mul] at hk
    by_cases h0 : bits = 0
    case pos =>
      have hk : k = 0 := by omega
      simp [encodeFrom, h0, hk, digits]
    case neg =>
      have hk : k = 1 := by omega
      have hpad : pad = 5 - bits := by omega
      have h32 : 2 ^ bits * 2 ^ (5 - bits) = 32 := by
        rw [← pow_add, Nat.add_sub_cancel' (by omega)]
        rfl
      have hd : 32 ∣ 2 ^ w := pow_dvd_pow 2 (by omega : 5 ≤ w)
      have hv : (buf <<< (5 - bits) &&& 0x1f).toNat = buf.toNat % 2 ^ bits * 2 ^ (5 - bits) % 32 := by
        rw [and_0x1f (by omega), BitVec.toNat_shiftLeft, Nat.mod_mod_of_dvd _ hd, Nat.shiftLeft_eq, ← h32,
          Nat.mul_mod_mul_right, Nat.mul_mod_mul_right, Nat.mod_mod]
      rw [encodeFrom, if_pos (by omega), hv, hk, digits_one, hpad]
      simp [value]
  case cons b data ih =>
    have he := emit_eq h (buf <<< 8 ||| .ofNat w b.toNat) (bits + 8) (by omega)
    have hs := shifted hw buf b hb
    have hlt : value 256 (data.map UInt8.toNat) < 256 ^ data.length := by
      simpa using value_lt (bytes_lt data)
    generalize hnext : buf <<< 8 ||| .ofNat w b.toNat = next at he hs
    rw [List.length_cons] at hk
    have hk' : (k - (bits + 8) / 5) * 5 = (bits + 8) % 5 + data.length * 8 + pad := by omega
    have hu : k = (bits + 8) / 5 + (k - (bits + 8) / 5) := by omega
    have hm : bits + 8 = (bits + 8) % 5 + 5 * ((bits + 8) / 5) := by omega
    have hc := digits_complete (x := next.toNat) (u := (bits + 8) / 5) hk' hlt
    rw [← hu, ← hm, hs] at hc
    simp only [encodeFrom, hnext, he]
    rw [ih next (Nat.mod_lt _ (by decide)) hk', ← List.map_append, ← hc, List.map_cons, value_cons,
      List.length_cons, List.length_map]
    congr 3
    ring

section Groups

def dashed (parts : List (List Char)) : List Char :=
  parts.flatMap ('-' :: ·)

theorem flatten_groups (size n : Nat) (cs : List Char) : (groups size n cs).flatten = cs.take (n * size) := by
  induction n generalizing cs
  case zero => simp [groups]
  case succ n ih =>
    rw [groups, List.flatten_cons, ih, ← List.take_add, Nat.succ_mul, Nat.add_comm]

theorem length_of_mem_groups {size n : Nat} {cs p : List Char} (hl : n * size ≤ cs.length)
    (h : p ∈ groups size n cs) : p.length = size := by
  induction n generalizing cs
  case zero => cases h
  case succ n ih =>
    rw [Nat.succ_mul] at hl
    cases h
    case head =>
      simp
      omega
    case tail h =>
      refine ih ?_ h
      simp
      omega

theorem mapIdx_dashed (k : Nat) (ps : List (List Char)) :
    (ps.mapIdx fun i part => if 0 < i + (k + 1) then '-' :: part else part).flatten = dashed ps := by
  induction ps generalizing k
  case nil => rfl
  case cons p ps ih =>
    have := ih (k + 1)
    simp only [List.mapIdx_cons, List.flatten_cons, dashed, List.flatMap_cons, Nat.zero_add] at this ⊢
    rw [← this]
    simp

theorem intercalate_dashed (p : List Char) (ps : List (List Char)) :
    '-' :: ['-'].intercalate (p :: ps) = dashed (p :: ps) := by
  induction ps generalizing p
  case nil => simp [dashed]
  case cons q qs ih =>
    rw [List.intercalate_cons_cons, dashed, List.flatMap_cons, ← dashed, ← ih q]
    simp

-- Both ports write the same text.
theorem go_formatGroups {s : List Char} {size n : Nat} (h : (s.length + size - 1) / size = n + 1) :
    '-' :: Go.formatGroups s size = dashed (groups size (n + 1) s) := by
  have := mapIdx_dashed 0 (groups size n (s.drop size))
  simp only [Nat.zero_add] at this
  rw [Go.formatGroups, h, groups, List.mapIdx_cons, List.flatten_cons, this]
  simp [dashed]

theorem ts_formatGroups {s : List Char} {size n : Nat} (h : (s.length + size - 1) / size = n + 1) :
    '-' :: Ts.formatGroups s size = dashed (groups size (n + 1) s) := by
  rw [Ts.formatGroups, h, groups, intercalate_dashed]

theorem keyGroups_dashed {ps : List (List Char)}
    (h : ∀ p ∈ ps, p.length = 4 ∧ ∀ c ∈ p, c ∈ Go.crockfordAlphabet) :
    Go.keyGroups (dashed ps) = some ps.length := by
  induction ps
  case nil => rfl
  case cons p ps ih =>
    have ⟨hl, hc⟩ := h p (by simp)
    have ih := ih fun q hq => h q (by simp [hq])
    match p, hl with
    | [a, b, c, d], _ =>
      have hall : [a, b, c, d].all (· ∈ Go.crockfordAlphabet) := by simpa using hc
      rw [dashed, List.flatMap_cons, ← dashed, List.length_cons]
      simp only [List.cons_append, List.nil_append, Go.keyGroups, if_pos hall, ih, Option.map_some]

end Groups

-- The key of twenty bytes.
def digitsOf (buf : Vector UInt8 20) : List Nat :=
  digits 32 32 (value 256 (buf.toList.map UInt8.toNat))

def partsOf (buf : Vector UInt8 20) : List (List Char) :=
  groups 4 8 ((digitsOf buf).map crockford)

def keyOf (buf : Vector UInt8 20) : String :=
  .ofList ('L' :: 'I' :: 'C' :: dashed (partsOf buf))

theorem encodeFrom_buf {w : Nat} {shift : BitVec w → Nat → BitVec w} (hw : 12 ≤ w) (h : Reads shift)
    (buf : Vector UInt8 20) : encodeFrom shift 0 0 buf.toList = (digitsOf buf).map crockford := by
  have := encodeFrom_eq hw h buf.toList 0 (k := 32) (by decide : 0 < 5) (by decide : 0 < 5) (by simp)
  simpa [digitsOf] using this

theorem length_digitsOf (buf : Vector UInt8 20) : (((digitsOf buf).map crockford).length + 4 - 1) / 4 = 7 + 1 := by
  simp [digitsOf]

theorem go_generateLicenseKey (buf : Vector UInt8 20) : Go.generateLicenseKey buf = keyOf buf := by
  have he : Go.base32Encode buf.toList = (digitsOf buf).map crockford :=
    encodeFrom_buf (by decide) (reads_ushiftRight (by decide)) buf
  apply String.toList_injective
  rw [Go.generateLicenseKey, he, keyOf, partsOf, ← go_formatGroups (length_digitsOf buf)]
  simp

theorem ts_generateLicenseKey (buf : Vector UInt8 20) : Ts.generateLicenseKey buf = keyOf buf := by
  have he : Ts.base32Encode buf.toList = (digitsOf buf).map crockford :=
    encodeFrom_buf (by decide) (reads_sshiftRight (by decide)) buf
  apply String.toList_injective
  rw [Ts.generateLicenseKey, he, keyOf, partsOf, ← ts_formatGroups (length_digitsOf buf)]
  simp

example : Ts.generateLicenseKey (.ofFn fun i => .ofNat (13 * i.val)) =
    "LIC-006H-M9SM-8575-PT3N-GA7S-SADP-RF8D-VTQQ" := by
  decide

theorem crockford_mem : ∀ d < 32, crockford d ∈ Go.crockfordAlphabet := by
  decide

theorem idxOf_crockford : ∀ d < 32, Go.crockfordAlphabet.idxOf (crockford d) = d := by
  decide

theorem lt_of_mem_digitsOf {buf : Vector UInt8 20} {d : Nat} (h : d ∈ digitsOf buf) : d < 32 :=
  lt_of_mem_digits (by decide) h

theorem mem_partsOf {buf : Vector UInt8 20} {p : List Char} (h : p ∈ partsOf buf) :
    p.length = 4 ∧ ∀ c ∈ p, c ∈ Go.crockfordAlphabet := by
  constructor
  case left => exact length_of_mem_groups (by simp [digitsOf]) h
  case right =>
    intro c hc
    have hm : c ∈ (partsOf buf).flatten := List.mem_flatten.mpr ⟨p, h, hc⟩
    rw [partsOf, flatten_groups] at hm
    have ⟨d, hd, hc⟩ := List.mem_map.mp (List.mem_of_mem_take hm)
    exact hc ▸ crockford_mem d (lt_of_mem_digitsOf hd)

theorem isLicenseKey_keyOf (buf : Vector UInt8 20) : Go.isLicenseKey (keyOf buf).toList := by
  have hk := keyGroups_dashed fun p (hp : p ∈ partsOf buf) => mem_partsOf hp
  have hl : (partsOf buf).length = 8 := rfl
  rw [keyOf, String.toList_ofList]
  simp [Go.isLicenseKey, hk, hl]

theorem filter_dashed {ps : List (List Char)} (h : ∀ p ∈ ps, ∀ c ∈ p, c ∈ Go.crockfordAlphabet) :
    (dashed ps).filter (· ≠ '-') = ps.flatten := by
  induction ps
  case nil => rfl
  case cons p ps ih =>
    have hp : p.filter (· ≠ '-') = p := by
      refine List.filter_eq_self.mpr fun c hc => ?_
      have := h p (by simp) c hc
      exact decide_eq_true fun hd => absurd (hd ▸ this) (by decide)
    rw [dashed, List.flatMap_cons, ← dashed, List.filter_append, ih fun q hq => h q (by simp [hq]),
      List.filter_cons_of_neg (by decide), hp, List.flatten_cons]

theorem flatten_partsOf (buf : Vector UInt8 20) : (partsOf buf).flatten = (digitsOf buf).map crockford := by
  rw [partsOf, flatten_groups, List.take_of_length_le (by simp [digitsOf])]

theorem digitsOf_injective : Function.Injective digitsOf := by
  intro b b' h
  have hl (b : Vector UInt8 20) : (b.toList.map UInt8.toNat).length = 20 := by simp
  have hlt (b : Vector UInt8 20) : value 256 (b.toList.map UInt8.toNat) < 32 ^ 32 := by
    have := value_lt (bytes_lt b.toList)
    rwa [hl] at this
  have hv := congrArg (value 32) h
  rw [digitsOf, digitsOf, value_digits, value_digits, Nat.mod_eq_of_lt (hlt b), Nat.mod_eq_of_lt (hlt b')] at hv
  have hd (b : Vector UInt8 20) := hl b ▸ digits_value (bytes_lt b.toList)
  have hm := (hd b).symm.trans (hv ▸ hd b')
  exact Vector.toList_inj.mp (List.map_injective_iff.mpr (fun _ _ => UInt8.toNat_inj.mp) hm)

-- Distinct seeds have distinct keys: the digits are what is left without the hyphens.
theorem keyOf_injective : Function.Injective keyOf := by
  intro b b' h
  have hd : dashed (partsOf b) = dashed (partsOf b') := by
    have := congrArg String.toList h
    simpa [keyOf] using this
  have hf := congrArg (List.filter (· ≠ '-')) hd
  rw [filter_dashed fun p hp => (mem_partsOf hp).2, filter_dashed fun p hp => (mem_partsOf hp).2,
    flatten_partsOf, flatten_partsOf] at hf
  have hi (b : Vector UInt8 20) :
      ((digitsOf b).map crockford).map (Go.crockfordAlphabet.idxOf ·) = digitsOf b := by
    rw [List.map_map]
    exact (List.map_congr_left fun d hd => idxOf_crockford d (lt_of_mem_digitsOf hd)).trans (List.map_id _)
  exact digitsOf_injective (by rw [← hi b, hf, hi b'])

end Base32

end Licensing
