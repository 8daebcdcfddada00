import Licensing.Library.Bytes
import Licensing.Library.JsonText

-- UTF-16 code units, and the order of strings by them.

namespace JsonText

def unitsOfChar (c : Char) : List UInt16 :=
  if c.toNat < 0x10000 then [.ofNat c.toNat]
  else [.ofNat (0xd800 + (c.toNat - 0x10000) / 1024), .ofNat (0xdc00 + (c.toNat - 0x10000) % 1024)]

def Piece.units : Piece → List UInt16
  | .char c => unitsOfChar c
  | .unit u => [u]

def units (ps : List Piece) : List UInt16 :=
  ps.flatMap Piece.units

def utf16 (cs : List Char) : List UInt16 :=
  cs.flatMap unitsOfChar

-- Every surrogate has its partner.
def paired : List UInt16 → Bool
  | u :: v :: us => if isHigh u then isLow v && paired us else !isLow u && paired (v :: us)
  | [u]          => !isHigh u && !isLow u
  | []           => true

def textOfUnits (us : List UInt16) : List Char :=
  text (us.map .unit)

-- A character has one unit, which is no surrogate, or a pair of surrogates.
inductive UnitsOf (c : Char) : List UInt16 → Prop
  | single {u} : isHigh u = false → isLow u = false → charOfUnit u = c → UnitsOf c [u]
  | pair {u v} : isHigh u → isLow v → charOfPair u v = c → UnitsOf c [u, v]

theorem unitsOf_unitsOfChar (c : Char) : UnitsOf c (unitsOfChar c) := by
  have hv : c.toNat < 0xd800 ∨ 0xdfff < c.toNat ∧ c.toNat < 0x110000 := c.valid
  unfold unitsOfChar
  split
  case isTrue h =>
    have hn : (UInt16.ofNat c.toNat).toNat = c.toNat := UInt16.toNat_ofNat_of_lt h
    have hh : isHigh (.ofNat c.toNat) = false := by simp [isHigh, hn]; omega
    have hl : isLow (.ofNat c.toNat) = false := by simp [isLow, hn]; omega
    exact .single hh hl (by simp [charOfUnit, hh, hl, hn, Char.ofNat_toNat])
  case isFalse h =>
    generalize hq : (c.toNat - 0x10000) / 1024 = q
    generalize hr : (c.toNat - 0x10000) % 1024 = r
    have hu : (UInt16.ofNat (0xd800 + q)).toNat = 0xd800 + q :=
      UInt16.toNat_ofNat_of_lt' (by rw [UInt16.size]; omega)
    have hw : (UInt16.ofNat (0xdc00 + r)).toNat = 0xdc00 + r :=
      UInt16.toNat_ofNat_of_lt' (by rw [UInt16.size]; omega)
    have hc : 0x10000 + q * 1024 + r = c.toNat := by omega
    refine .pair ?_ ?_ ?_
    · simp only [isHigh, hu, Bool.and_eq_true, decide_eq_true_eq]
      omega
    · simp only [isLow, hw, Bool.and_eq_true, decide_eq_true_eq]
      omega
    · rw [charOfPair, hu, hw, Nat.add_sub_cancel_left, Nat.add_sub_cancel_left, hc, Char.ofNat_toNat]

theorem not_isLow_of_isHigh {u : UInt16} (h : isHigh u) : isLow u = false := by
  simp only [isHigh, Bool.and_eq_true, decide_eq_true_eq] at h
  simp only [isLow, Bool.and_eq_false_iff, decide_eq_false_iff_not]
  omega

theorem text_pair {u v : UInt16} (hu : isHigh u) (hv : isLow v) (ps : List Piece) :
    text (.unit u :: .unit v :: ps) = charOfPair u v :: text ps := by
  simp [text, hu, hv]

theorem text_unit {u : UInt16} {ps : List Piece}
    (h : isHigh u → ∀ v ps', ps = .unit v :: ps' → isLow v = false) :
    text (.unit u :: ps) = charOfUnit u :: text ps := by
  match ps with
  | []             => rfl
  | .char c :: ps' => rfl
  | .unit v :: ps' =>
    have hn : ¬(isHigh u ∧ isLow v) := fun ⟨hu, hv⟩ => by simp [h hu v ps' rfl] at hv
    simp [text, hn]

theorem textOfUnits_unitsOfChar (c : Char) (us : List UInt16) :
    textOfUnits (unitsOfChar c ++ us) = c :: textOfUnits us := by
  have h := unitsOf_unitsOfChar c
  revert h
  generalize unitsOfChar c = vs
  rintro (⟨hh, _, rfl⟩ | ⟨hu, hv, rfl⟩)
  · exact text_unit (fun h => by simp [hh] at h)
  · exact text_pair hu hv _

-- No character begins with a low surrogate.
theorem head_unitsOfChar {c : Char} {v : UInt16} {us vs : List UInt16}
    (he : unitsOfChar c ++ us = v :: vs) : isLow v = false := by
  have h := unitsOf_unitsOfChar c
  revert h he
  generalize unitsOfChar c = ws
  rintro he (⟨_, hl, _⟩ | ⟨hu, _, _⟩)
  · cases he
    exact hl
  · cases he
    exact not_isLow_of_isHigh hu

-- The text of a string is that of its units.
theorem textOfUnits_units (ps : List Piece) : textOfUnits (units ps) = text ps := by
  induction ps using text.induct
  case case1 u v ps h ih =>
    rw [text_pair h.1 h.2, ← ih]
    exact text_pair h.1 h.2 _
  case case2 u v ps h ih =>
    have hn : isHigh u → isLow v = false := by simpa using h
    rw [text_unit (fun hu v' ps' he => by cases he; exact hn hu), ← ih]
    exact text_unit (fun hu v' ps' he => by cases he; exact hn hu)
  case case3 u ps h ih =>
    rw [text_unit (fun _ v ps' he => (h v ps' he).elim), ← ih]
    refine text_unit (fun _ v ps' he => ?_)
    match ps with
    | .unit w :: ps => exact (h w ps rfl).elim
    | .char c :: ps =>
      change (unitsOfChar c ++ units ps).map Piece.unit = _ at he
      obtain ⟨w, ws, hw, hv, -⟩ := List.map_eq_cons_iff.mp he
      cases hv
      exact head_unitsOfChar hw
  case case4 c ps ih =>
    rw [text, ← ih]
    exact textOfUnits_unitsOfChar c _
  case case5 => rfl

@[simp]
theorem textOfUnits_utf16 (cs : List Char) : textOfUnits (utf16 cs) = cs := by
  induction cs
  case nil => rfl
  case cons c cs ih => rw [utf16, List.flatMap_cons, textOfUnits_unitsOfChar, ← utf16, ih]

theorem utf16_injective : Function.Injective utf16 :=
  Function.LeftInverse.injective textOfUnits_utf16

-- A surrogate without its partner is seen in the text.
theorem paired_of_text {us : List UInt16} (h : '\ufffd' ∉ textOfUnits us) : paired us := by
  induction us using paired.induct
  case case1 u v us hu ih =>
    by_cases hv : isLow v
    case pos =>
      rw [textOfUnits, List.map_cons, List.map_cons, text_pair hu hv, List.mem_cons, not_or] at h
      rw [paired, if_pos hu, hv, Bool.true_and]
      exact ih h.2
    case neg =>
      rw [textOfUnits, List.map_cons, List.map_cons, text_unit (by simp [hv])] at h
      simp [charOfUnit, hu] at h
  case case2 u v us hu ih =>
    rw [textOfUnits, List.map_cons, text_unit (by simp [hu]), List.mem_cons, not_or] at h
    have hl : isLow u = false := by
      by_contra hl
      simp [charOfUnit, hl] at h
    rw [paired, if_neg hu, hl, Bool.not_false, Bool.true_and]
    exact ih h.2
  case case3 u =>
    have hh : isHigh u = false := by
      by_contra hh
      simp [textOfUnits, text, charOfUnit, hh] at h
    have hl : isLow u = false := by
      by_contra hl
      simp [textOfUnits, text, charOfUnit, hl] at h
    simp [paired, hh, hl]
  case case4 => rfl

theorem paired_unitsOfChar (c : Char) (us : List UInt16) :
    paired (unitsOfChar c ++ us) = paired us := by
  have h := unitsOf_unitsOfChar c
  revert h
  generalize unitsOfChar c = vs
  rintro (⟨hh, hl, _⟩ | ⟨hu, hv, _⟩)
  · cases us <;> simp [paired, hh, hl]
  · simp [paired, hu, hv]

@[simp]
theorem paired_utf16 (cs : List Char) : paired (utf16 cs) := by
  induction cs
  case nil => rfl
  case cons c cs ih => rwa [utf16, List.flatMap_cons, paired_unitsOfChar]

theorem toNat_ofNat {n : Nat} (h : n.isValidChar) : (Char.ofNat n).toNat = n := by
  rw [Char.ofNat, dif_pos h]
  rfl

theorem unitsOfChar_charOfUnit {u : UInt16} (hh : isHigh u = false) (hl : isLow u = false) :
    unitsOfChar (charOfUnit u) = [u] := by
  have lt := u.toNat_lt
  have valid : u.toNat.isValidChar := by
    simp only [isHigh, isLow, Bool.and_eq_false_iff, decide_eq_false_iff_not] at hh hl
    simp only [Nat.isValidChar]
    omega
  have hn : (charOfUnit u).toNat = u.toNat := by
    simp only [charOfUnit, hh, hl, Bool.false_eq_true, or_self, if_false]
    exact toNat_ofNat valid
  rw [unitsOfChar, hn, if_pos lt, UInt16.ofNat_toNat]

theorem unitsOfChar_charOfPair {u v : UInt16} (hu : isHigh u) (hv : isLow v) :
    unitsOfChar (charOfPair u v) = [u, v] := by
  simp only [isHigh, isLow, Bool.and_eq_true, decide_eq_true_eq] at hu hv
  have hn : (charOfPair u v).toNat = 0x10000 + (u.toNat - 0xd800) * 1024 + (v.toNat - 0xdc00) := by
    refine toNat_ofNat ?_
    simp only [Nat.isValidChar]
    omega
  have hq : 0xd800 + ((charOfPair u v).toNat - 0x10000) / 1024 = u.toNat := by omega
  have hr : 0xdc00 + ((charOfPair u v).toNat - 0x10000) % 1024 = v.toNat := by omega
  rw [unitsOfChar, if_neg (by omega), hq, hr, UInt16.ofNat_toNat, UInt16.ofNat_toNat]

theorem utf16_textOfUnits {us : List UInt16} (h : paired us) : utf16 (textOfUnits us) = us := by
  induction us using paired.induct
  case case1 u v us hu ih =>
    simp only [paired, hu, if_true, Bool.and_eq_true] at h
    have ht : textOfUnits (u :: v :: us) = charOfPair u v :: textOfUnits us := text_pair hu h.1 _
    rw [ht, utf16, List.flatMap_cons, unitsOfChar_charOfPair hu h.1, ← utf16, ih h.2]
    rfl
  case case2 u v us hu ih =>
    have hh : isHigh u = false := by simpa using hu
    simp only [paired, hh, Bool.false_eq_true, if_false, Bool.and_eq_true, Bool.not_eq_true'] at h
    have ht : textOfUnits (u :: v :: us) = charOfUnit u :: textOfUnits (v :: us) :=
      text_unit (fun h => by simp [hh] at h)
    rw [ht, utf16, List.flatMap_cons, unitsOfChar_charOfUnit hh h.1, ← utf16, ih h.2]
    rfl
  case case3 u =>
    simp only [paired, Bool.and_eq_true, Bool.not_eq_true'] at h
    exact (List.append_nil _).trans (unitsOfChar_charOfUnit h.1 h.2)
  case case4 => rfl

theorem utf16_of_ascii {cs : List Char} (h : ∀ c ∈ cs, c.toNat < 0x80) :
    (utf16 cs).map UInt16.toNat = cs.map Char.toNat := by
  induction cs
  case nil => rfl
  case cons c cs ih =>
    rw [List.forall_mem_cons] at h
    have hu : (UInt16.ofNat c.toNat).toNat = c.toNat :=
      UInt16.toNat_ofNat_of_lt' (Nat.lt_trans h.1 (by decide))
    have hc : unitsOfChar c = [.ofNat c.toNat] := if_pos (Nat.lt_trans h.1 (by decide))
    rw [utf16, List.flatMap_cons, ← utf16, hc, List.map_append, ih h.2, List.map_cons, List.map_cons, hu]
    rfl

end JsonText
