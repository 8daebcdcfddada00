import Mathlib.Data.List.Basic

-- The base64url alphabet without padding.

namespace Base64

def sextet (n : Nat) : Char :=
  if n < 26 then .ofNat (n + 65)
  else if n < 52 then .ofNat (n + 71)
  else if n < 62 then .ofNat (n - 4)
  else if n = 62 then '-'
  else '_'

def sextet? (c : Char) : Option Nat :=
  if 'A' ≤ c ∧ c ≤ 'Z' then some (c.toNat - 65)
  else if 'a' ≤ c ∧ c ≤ 'z' then some (c.toNat - 71)
  else if '0' ≤ c ∧ c ≤ '9' then some (c.toNat + 4)
  else if c = '-' then some 62
  else if c = '_' then some 63
  else none

-- Groups of three bytes are groups of four sextets.

def split (a b c : Nat) : Nat × Nat × Nat × Nat :=
  (a / 4, a % 4 * 16 + b / 16, b % 16 * 4 + c / 64, c % 64)

def join (p q r s : Nat) : Nat × Nat × Nat :=
  (p * 4 + q / 16, q % 16 * 16 + r / 4, r % 4 * 64 + s)

def sextets : List UInt8 → List Nat
  | a :: b :: c :: bs =>
    let (p, q, r, s) := split a.toNat b.toNat c.toNat
    p :: q :: r :: s :: sextets bs
  | [a, b] =>
    let (p, q, r, _) := split a.toNat b.toNat 0
    [p, q, r]
  | [a] =>
    let (p, q, _, _) := split a.toNat 0 0
    [p, q]
  | [] => []

def encode (bs : List UInt8) : List Char :=
  (sextets bs).map sextet

-- The bits that the last sextet has beyond the last byte are dropped. A single sextet too many is
-- an error if `strict` is set and is dropped as well otherwise.
def bytes (strict : Bool) : List Nat → Option (List UInt8)
  | p :: q :: r :: s :: ns =>
    let (a, b, c) := join p q r s
    (bytes strict ns).map (.ofNat a :: .ofNat b :: .ofNat c :: ·)
  | [p, q, r] =>
    let (a, b, _) := join p q r 0
    some [.ofNat a, .ofNat b]
  | [p, q] =>
    let (a, _, _) := join p q 0 0
    some [.ofNat a]
  | [_] => if strict then none else some []
  | []  => some []

def decode (strict : Bool) (cs : List Char) : Option (List UInt8) :=
  (cs.mapM sextet?).bind (bytes strict)

@[simp]
theorem sextet?_sextet : ∀ n < 64, sextet? (sextet n) = some n := by
  decide

theorem join_split {a b c : Nat} (hb : b < 256) (hc : c < 256) :
    join (split a b c).1 (split a b c).2.1 (split a b c).2.2.1 (split a b c).2.2.2 = (a, b, c) := by
  simp only [split, join, Prod.mk.injEq]
  omega

theorem sextets_lt (bs : List UInt8) : ∀ n ∈ sextets bs, n < 64 := by
  induction bs using sextets.induct
  case case1 a b c bs _ _ _ _ h ih =>
    have ha := a.toNat_lt
    have hb := b.toNat_lt
    have hc := c.toNat_lt
    simp only [split, Prod.mk.injEq] at h
    simp only [sextets, split, List.forall_mem_cons]
    exact ⟨by omega, by omega, by omega, by omega, ih⟩
  case case2 a b _ _ _ _ _ =>
    have ha := a.toNat_lt
    have hb := b.toNat_lt
    simp only [sextets, split, List.forall_mem_cons]
    exact ⟨by omega, by omega, by omega, nofun⟩
  case case3 a _ _ _ _ _ =>
    have ha := a.toNat_lt
    simp only [sextets, split, List.forall_mem_cons]
    exact ⟨by omega, by omega, nofun⟩
  case case4 => nofun

theorem bytes_sextets (strict : Bool) (bs : List UInt8) : bytes strict (sextets bs) = some bs := by
  induction bs using sextets.induct
  case case1 a b c bs _ _ _ _ _ ih =>
    simp [sextets, bytes, ih, join_split b.toNat_lt c.toNat_lt]
  case case2 a b _ _ _ _ _ =>
    have eq := join_split (a := a.toNat) b.toNat_lt (by decide : 0 < 256)
    simp_all [sextets, bytes, split, join]
  case case3 a _ _ _ _ _ =>
    have eq := join_split (a := a.toNat) (by decide : 0 < 256) (by decide : 0 < 256)
    simp_all [sextets, bytes, split, join]
  case case4 => rfl

theorem mapM_sextet? {ns : List Nat} (h : ∀ n ∈ ns, n < 64) :
    (ns.map sextet).mapM sextet? = some ns := by
  induction ns
  case nil => rfl
  case cons n ns ih =>
    simp only [List.forall_mem_cons] at h
    simp [sextet?_sextet n h.left, ih h.right]

@[simp]
theorem decode_encode (strict : Bool) (bs : List UInt8) : decode strict (encode bs) = some bs := by
  simp [decode, encode, mapM_sextet? (sextets_lt bs), bytes_sextets]

-- The bits that the last sextet has beyond the last byte are zero, and no sextet is left over.
def Clean : List Nat → Prop
  | _ :: _ :: _ :: _ :: ns => Clean ns
  | [_, _, r]              => r % 4 = 0
  | [_, q]                 => q % 16 = 0
  | [_]                    => False
  | []                     => True

instance : (ns : List Nat) → Decidable (Clean ns)
  | _ :: _ :: _ :: _ :: ns => instDecidableClean ns
  | [_, _, r]              => inferInstanceAs (Decidable (r % 4 = 0))
  | [_, q]                 => inferInstanceAs (Decidable (q % 16 = 0))
  | [_]                    => inferInstanceAs (Decidable False)
  | []                     => inferInstanceAs (Decidable True)

theorem split_join {p q r s : Nat} (hp : p < 64) (hq : q < 64) (hr : r < 64) (hs : s < 64) :
    split (UInt8.ofNat (p * 4 + q / 16)).toNat (UInt8.ofNat (q % 16 * 16 + r / 4)).toNat
      (UInt8.ofNat (r % 4 * 64 + s)).toNat = (p, q, r, s) := by
  have ha : p * 4 + q / 16 < 256 := by omega
  have hb : q % 16 * 16 + r / 4 < 256 := by omega
  have hc : r % 4 * 64 + s < 256 := by omega
  simp only [split, UInt8.toNat_ofNat', Nat.mod_eq_of_lt ha, Nat.mod_eq_of_lt hb,
    Nat.mod_eq_of_lt hc, Prod.mk.injEq]
  omega

-- Sextets are those of the bytes they are decoded to if they are clean.
theorem sextets_eq_iff {strict : Bool} {ns : List Nat} (lt : ∀ n ∈ ns, n < 64) {bs : List UInt8}
    (h : bytes strict ns = some bs) : sextets bs = ns ↔ Clean ns := by
  induction ns using Clean.induct generalizing bs
  case case1 p q r s ns ih =>
    simp only [List.forall_mem_cons] at lt
    obtain ⟨hp, hq, hr, hs, lt⟩ := lt
    obtain ⟨bs', h', rfl⟩ := Option.map_eq_some_iff.mp h
    rw [sextets, split_join hp hq hr hs, Clean, ← ih lt h']
    simp
  case case2 p q r =>
    simp only [List.forall_mem_cons] at lt
    obtain ⟨hp, hq, hr, _⟩ := lt
    cases h
    have eq := split_join hp hq hr (by decide : 0 < 64)
    simp only [sextets, Clean, split, Prod.mk.injEq] at eq ⊢
    have hb : q % 16 * 16 + r / 4 < 256 := by omega
    have hb' : (UInt8.ofNat (q % 16 * 16 + r / 4)).toNat = q % 16 * 16 + r / 4 := by
      rw [UInt8.toNat_ofNat', Nat.mod_eq_of_lt hb]
    simp only [List.cons.injEq, and_true, eq, true_and, hb', Nat.zero_div]
    omega
  case case3 p q =>
    simp only [List.forall_mem_cons] at lt
    obtain ⟨hp, hq, _⟩ := lt
    cases h
    have ha : p * 4 + q / 16 < 256 := by omega
    have ha' : (UInt8.ofNat (p * 4 + q / 16)).toNat = p * 4 + q / 16 := by
      rw [UInt8.toNat_ofNat', Nat.mod_eq_of_lt ha]
    simp only [sextets, Clean, split, List.cons.injEq, and_true, ha', Nat.zero_div]
    omega
  case case4 p =>
    cases strict
    case false => simp [← Option.some.inj h, sextets, Clean]
    case true => cases h
  case case5 => simp [← Option.some.inj h, sextets, Clean]

theorem sextet_of_sextet? {c : Char} {n : Nat} (h : sextet? c = some n) : sextet n = c ∧ n < 64 := by
  unfold sextet? at h
  have key (m : Nat) (hm : m = c.toNat) : Char.ofNat m = c := by rw [hm, Char.ofNat_toNat]
  split at h
  case isTrue hc =>
    have h₁ : 65 ≤ c.toNat := hc.left
    have h₂ : c.toNat ≤ 90 := hc.right
    cases h
    refine ⟨?_, by omega⟩
    rw [sextet, if_pos (by omega)]
    exact key _ (by omega)
  split at h
  case isTrue hc =>
    have h₁ : 97 ≤ c.toNat := hc.left
    have h₂ : c.toNat ≤ 122 := hc.right
    cases h
    refine ⟨?_, by omega⟩
    rw [sextet, if_neg (by omega), if_pos (by omega)]
    exact key _ (by omega)
  split at h
  case isTrue hc =>
    have h₁ : 48 ≤ c.toNat := hc.left
    have h₂ : c.toNat ≤ 57 := hc.right
    cases h
    refine ⟨?_, by omega⟩
    rw [sextet, if_neg (by omega), if_neg (by omega), if_pos (by omega)]
    exact key _ (by omega)
  split at h
  case isTrue hc =>
    cases h
    exact ⟨hc.symm, by decide⟩
  split at h
  case isTrue hc =>
    cases h
    exact ⟨hc.symm, by decide⟩
  case isFalse => contradiction

theorem map_sextet {cs : List Char} {ns : List Nat} (h : cs.mapM sextet? = some ns) :
    ns.map sextet = cs ∧ ∀ n ∈ ns, n < 64 := by
  induction cs generalizing ns
  case nil =>
    cases h
    exact ⟨rfl, nofun⟩
  case cons c cs ih =>
    rw [List.mapM_cons] at h
    obtain ⟨n, hn, h⟩ := Option.bind_eq_some_iff.mp h
    obtain ⟨ns', hns, h⟩ := Option.bind_eq_some_iff.mp h
    cases h
    have ⟨hc, lt⟩ := sextet_of_sextet? hn
    have ⟨hcs, lts⟩ := ih hns
    exact ⟨congrArg₂ List.cons hc hcs, List.forall_mem_cons.mpr ⟨lt, lts⟩⟩

-- A text is the encoding of what it is decoded to if its sextets are clean.
theorem encode_eq_iff {strict : Bool} {cs : List Char} {ns : List Nat} {bs : List UInt8}
    (h : cs.mapM sextet? = some ns) (hb : bytes strict ns = some bs) : encode bs = cs ↔ Clean ns := by
  have ⟨hc, lt⟩ := map_sextet h
  rw [← sextets_eq_iff lt hb, encode]
  refine ⟨fun he => ?_, fun he => he ▸ hc⟩
  have hm := mapM_sextet? (sextets_lt bs)
  rw [he, h] at hm
  exact (Option.some.inj hm).symm

theorem bytes_strict {ns : List Nat} : bytes true ns = if ns.length % 4 = 1 then none else bytes false ns := by
  induction ns using Clean.induct
  case case1 p q r s ns ih =>
    simp only [bytes, ih, List.length_cons, Nat.add_assoc, Nat.reduceAdd, Nat.add_mod_right]
    split <;> rfl
  all_goals rfl

theorem exists_bytes (ns : List Nat) : ∃ bs, bytes false ns = some bs := by
  induction ns using Clean.induct
  case case1 p q r s ns ih =>
    obtain ⟨bs, h⟩ := ih
    exact ⟨_, congrArg (Option.map _) h⟩
  all_goals exact ⟨_, rfl⟩

theorem Clean.length {ns : List Nat} (h : Clean ns) : ns.length % 4 ≠ 1 := by
  induction ns using Clean.induct
  case case1 p q r s ns ih =>
    simp only [List.length_cons, Nat.add_assoc, Nat.reduceAdd, Nat.add_mod_right]
    exact ih h
  case case4 => exact h.elim
  all_goals simp

theorem of_mem_encode {bs : List UInt8} {c : Char} (h : c ∈ encode bs) : ∃ n < 64, sextet n = c := by
  have ⟨n, hn, hc⟩ := List.mem_map.mp h
  exact ⟨n, sextets_lt bs n hn, hc⟩

-- A property of the alphabet holds of what is encoded.
theorem forall_mem_encode {p : Char → Prop} (h : ∀ n < 64, p (sextet n)) (bs : List UInt8) :
    ∀ c ∈ encode bs, p c := by
  intro c hc
  have ⟨n, hn, hs⟩ := of_mem_encode hc
  exact hs ▸ h n hn

end Base64
