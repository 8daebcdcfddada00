import Licensing.Library.Lexicographic
import Licensing.Library.Utf16
import Mathlib.Tactic.SplitIfs

-- Strings in the order of their UTF-8 bytes and in that of their UTF-16 code units.

namespace StringOrder

open JsonText

def bytes (c : Char) : List Nat :=
  (String.utf8EncodeChar c).map UInt8.toNat

def units (c : Char) : List Nat :=
  (unitsOfChar c).map UInt16.toNat

-- The place of a character in the order of code units: the characters with two of them, whose first
-- one is a surrogate, come before those from U+E000 to U+FFFF.
def rank (c : Char) : Nat :=
  if 0xe000 ≤ c.toNat ∧ c.toNat < 0x10000 then c.toNat + 0x110000 else c.toNat

theorem rank_injective : Function.Injective rank := by
  intro a b h
  have ha : a.toNat < 0xd800 ∨ 0xdfff < a.toNat ∧ a.toNat < 0x110000 := a.valid
  have hb : b.toNat < 0xd800 ∨ 0xdfff < b.toNat ∧ b.toNat < 0x110000 := b.valid
  apply Char.toNat_inj.mp
  simp only [rank] at h
  split_ifs at h <;> omega

-- The bytes of a character by its length.
inductive BytesOf (n : Nat) : List Nat → Prop
  | one : n < 0x80 → BytesOf n [n]
  | two : 0x80 ≤ n → n < 0x800 → BytesOf n [n / 64 + 0xc0, n % 64 + 0x80]
  | three : 0x800 ≤ n → n < 0x10000 → BytesOf n [n / 4096 + 0xe0, n / 64 % 64 + 0x80, n % 64 + 0x80]
  | four : 0x10000 ≤ n → n < 0x110000 →
    BytesOf n [n / 262144 + 0xf0, n / 4096 % 64 + 0x80, n / 64 % 64 + 0x80, n % 64 + 0x80]

theorem bytesOf (c : Char) : BytesOf c.toNat (bytes c) := by
  have hv : c.toNat < 0xd800 ∨ 0xdfff < c.toNat ∧ c.toNat < 0x110000 := c.valid
  have ht (n : Nat) (h : n < 256) : (UInt8.ofNat n).toNat = n := UInt8.toNat_ofNat_of_lt h
  have hc : c.val.toNat = c.toNat := rfl
  simp only [bytes, String.utf8EncodeChar, hc]
  split_ifs
  · rw [List.map_cons, List.map_nil, ht _ (by omega)]
    exact .one (by omega)
  · simp only [List.map_cons, List.map_nil]
    rw [ht _ (by omega), ht _ (by omega), Nat.mod_eq_of_lt (by omega : c.toNat / 64 < 0x20)]
    exact .two (by omega) (by omega)
  · simp only [List.map_cons, List.map_nil]
    rw [ht _ (by omega), ht _ (by omega), ht _ (by omega), Nat.mod_eq_of_lt (by omega : c.toNat / 4096 < 0x10)]
    exact .three (by omega) (by omega)
  · simp only [List.map_cons, List.map_nil]
    rw [ht _ (by omega), ht _ (by omega), ht _ (by omega), ht _ (by omega),
      Nat.mod_eq_of_lt (by omega : c.toNat / 262144 < 0x08)]
    exact .four (by omega) (by omega)

theorem bytes_lt {a b : Char} (h : a.toNat < b.toNat) (xs ys : List Nat) :
    lexicographic (bytes a ++ xs) (bytes b ++ ys) = .lt := by
  have ha := bytesOf a
  have hb := bytesOf b
  generalize bytes a = as at ha ⊢
  generalize bytes b = bs at hb ⊢
  cases ha <;> cases hb <;> simp only [List.cons_append, List.nil_append, lexicographic] <;>
    split_ifs <;> first | rfl | omega

inductive UnitsOf (n : Nat) : List Nat → Prop
  | one : n < 0xd800 ∨ 0xdfff < n → n < 0x10000 → UnitsOf n [n]
  | two : 0x10000 ≤ n → n < 0x110000 →
    UnitsOf n [0xd800 + (n - 0x10000) / 1024, 0xdc00 + (n - 0x10000) % 1024]

theorem unitsOf (c : Char) : UnitsOf c.toNat (units c) := by
  have hv : c.toNat < 0xd800 ∨ 0xdfff < c.toNat ∧ c.toNat < 0x110000 := c.valid
  have ht (n : Nat) (h : n < 65536) : (UInt16.ofNat n).toNat = n := UInt16.toNat_ofNat_of_lt h
  simp only [units, unitsOfChar]
  split_ifs
  · rw [List.map_cons, List.map_nil, ht _ (by omega)]
    exact .one (by omega) (by omega)
  · simp only [List.map_cons, List.map_nil]
    rw [ht _ (by omega), ht _ (by omega)]
    exact .two (by omega) (by omega)

theorem units_lt {a b : Char} (h : rank a < rank b) (xs ys : List Nat) :
    lexicographic (units a ++ xs) (units b ++ ys) = .lt := by
  have ha := unitsOf a
  have hb := unitsOf b
  simp only [rank] at h
  generalize units a = as at ha ⊢
  generalize units b = bs at hb ⊢
  cases ha <;> cases hb <;> simp only [List.cons_append, List.nil_append, lexicographic] <;>
    split_ifs at h ⊢ <;> first | rfl | omega

theorem bytes_ne_nil (c : Char) : bytes c ≠ [] := by
  have h := bytesOf c
  cases hb : bytes c
  case nil =>
    rw [hb] at h
    cases h
  case cons => simp

theorem units_ne_nil (c : Char) : units c ≠ [] := by
  have h := unitsOf c
  cases hu : units c
  case nil =>
    rw [hu] at h
    cases h
  case cons => simp

-- UTF-8 keeps the order of the code points, UTF-16 keeps that of the ranks.
theorem bytes_order (s t : List Char) :
    lexicographic (s.flatMap bytes) (t.flatMap bytes) = lexicographic (s.map Char.toNat) (t.map Char.toNat) :=
  lexicographic_flatMap (fun _ _ => Char.toNat_inj.mp) bytes_ne_nil (fun _ _ => bytes_lt) s t

theorem units_order (s t : List Char) :
    lexicographic (s.flatMap units) (t.flatMap units) = lexicographic (s.map rank) (t.map rank) :=
  lexicographic_flatMap rank_injective units_ne_nil (fun _ _ => units_lt) s t

-- Where the strings first differ, the first has a character with two code units and the second one that
-- follows the surrogates.
def Crosses (s t : List Char) : Prop :=
  ∃ cs a b s' t', s = cs ++ a :: s' ∧ t = cs ++ b :: t' ∧
    0x10000 ≤ a.toNat ∧ 0xe000 ≤ b.toNat ∧ b.toNat < 0x10000

theorem orders_ne_iff (s t : List Char) :
    lexicographic (s.flatMap bytes) (t.flatMap bytes) ≠ lexicographic (s.flatMap units) (t.flatMap units) ↔
      Crosses s t ∨ Crosses t s := by
  have hr (a b : Char) : a.toNat < b.toNat ∧ rank b < rank a ↔
      0x10000 ≤ b.toNat ∧ 0xe000 ≤ a.toNat ∧ a.toNat < 0x10000 := by
    have hb : b.toNat < 0xd800 ∨ 0xdfff < b.toNat ∧ b.toNat < 0x110000 := b.valid
    simp only [rank]
    split_ifs <;> omega
  rw [bytes_order, units_order, lexicographic_map_ne_iff (fun _ _ => Char.toNat_inj.mp) rank_injective]
  constructor
  case mp =>
    intro ⟨cs, a, b, s', t', hs, ht, h⟩
    rcases h with h | h
    case inl => exact .inr ⟨cs, b, a, t', s', ht, hs, (hr a b).mp h⟩
    case inr => exact .inl ⟨cs, a, b, s', t', hs, ht, (hr b a).mp h⟩
  case mpr =>
    intro h
    rcases h with ⟨cs, a, b, s', t', hs, ht, h⟩ | ⟨cs, b, a, t', s', ht, hs, h⟩
    case inl => exact ⟨cs, a, b, s', t', hs, ht, .inr ((hr b a).mpr h)⟩
    case inr => exact ⟨cs, a, b, s', t', hs, ht, .inl ((hr a b).mpr h)⟩

-- Lean's order of strings is that of the code points.
theorem lt_iff (s t : List Char) : s < t ↔ lexicographic (s.map Char.toNat) (t.map Char.toNat) = .lt := by
  induction s generalizing t
  case nil => cases t <;> simp [lexicographic]
  case cons c s ih =>
    cases t
    case nil => simp [lexicographic]
    case cons d t =>
      rw [List.cons_lt_cons_iff, List.map_cons, List.map_cons, lexicographic, ← Char.toNat_inj, ih,
        show c < d ↔ c.toNat < d.toNat from Iff.rfl]
      split_ifs <;> grind

def Ascii (s : List Char) : Prop :=
  ∀ c ∈ s, c.toNat < 0x80

instance (s : List Char) : Decidable (Ascii s) :=
  inferInstanceAs (Decidable (∀ c ∈ s, c.toNat < 0x80))

@[simp]
theorem ascii_nil : Ascii [] := by
  simp [Ascii]

@[simp]
theorem ascii_cons {c : Char} {s : List Char} : Ascii (c :: s) ↔ c.toNat < 0x80 ∧ Ascii s :=
  List.forall_mem_cons

@[simp]
theorem ascii_append {s t : List Char} : Ascii (s ++ t) ↔ Ascii s ∧ Ascii t :=
  List.forall_mem_append

theorem ascii_of_isDigit {s : List Char} (h : ∀ c ∈ s, c.isDigit) : Ascii s := by
  intro c hc
  have hd := h c hc
  simp only [Char.isDigit, Bool.and_eq_true, decide_eq_true_eq] at hd
  exact Nat.lt_of_le_of_lt (UInt32.le_iff_toNat_le.mp hd.right) (by decide)

theorem Crosses.not_ascii {s t : List Char} (h : Crosses s t) : ¬Ascii s ∧ ¬Ascii t := by
  have ⟨cs, a, b, s', t', hs, ht, ha, hb, _⟩ := h
  constructor
  case left =>
    intro hl
    have := hl a (by simp [hs])
    omega
  case right =>
    intro hl
    have := hl b (by simp [ht])
    omega

-- Both orders compare a string with one of ASCII alike.
theorem units_lt_iff {s t : List Char} (h : Ascii s ∨ Ascii t) :
    lexicographic (s.flatMap units) (t.flatMap units) = .lt ↔ s < t := by
  have hn : ¬(Crosses s t ∨ Crosses t s) := fun hc =>
    hc.elim (fun hc => h.elim hc.not_ascii.left hc.not_ascii.right)
      fun hc => h.elim hc.not_ascii.right hc.not_ascii.left
  rw [← orders_ne_iff, not_not] at hn
  rw [← hn, bytes_order, lt_iff]

end StringOrder
