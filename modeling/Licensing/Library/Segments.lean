import Licensing.Library.Utf16

-- Strings that are cut at a separator, as code units and as the bytes of their text.

namespace JsonText

-- What turns a separator into a separator, and nothing else, can be done to the segments.
theorem splitOn_hom {α β : Type} [DecidableEq α] [DecidableEq β] {f : List α → List β} {x : α} {y : β}
    (cut : ∀ as bs, f (as ++ x :: bs) = f as ++ y :: f bs) (whole : ∀ as, x ∉ as → y ∉ f as)
    (as : List α) : (f as).splitOn y = (as.splitOn x).map f := by
  by_cases h : x ∈ as
  case pos =>
    obtain ⟨bs, cs, rfl⟩ := List.append_of_mem h
    rw [cut, List.splitOn_append_cons_self, List.splitOn_append_cons_self, List.map_append,
      splitOn_hom cut whole bs, splitOn_hom cut whole cs]
  case neg =>
    rw [List.splitOn_eq_singleton h, List.splitOn_eq_singleton (whole as h)]
    rfl
termination_by as.length
decreasing_by all_goals simp only [*, List.length_append, List.length_cons]; omega

theorem textOfUnits_pair {u v : UInt16} (hu : isHigh u) (hv : isLow v) (us : List UInt16) :
    textOfUnits (u :: v :: us) = charOfPair u v :: textOfUnits us :=
  text_pair hu hv _

theorem textOfUnits_cons {u : UInt16} {us : List UInt16} (h : isHigh u → ∀ v vs, us = v :: vs → isLow v = false) :
    textOfUnits (u :: us) = charOfUnit u :: textOfUnits us := by
  refine text_unit fun hu v ps he => ?_
  obtain ⟨w, ws, hw, hv, -⟩ := List.map_eq_cons_iff.mp he
  cases hv
  exact h hu v ws hw

-- A unit that is no surrogate is a character, whatever stands around it.
theorem textOfUnits_append_cons {u : UInt16} (hh : isHigh u = false) (hl : isLow u = false) :
    (us vs : List UInt16) → textOfUnits (us ++ u :: vs) = textOfUnits us ++ charOfUnit u :: textOfUnits vs
  | [],           vs => textOfUnits_cons (by simp [hh])
  | [v],          vs => by
    have h : textOfUnits (v :: u :: vs) = charOfUnit v :: textOfUnits (u :: vs) :=
      textOfUnits_cons fun _ w ws he => by
        cases he
        exact hl
    have h' : textOfUnits [v] = [charOfUnit v] := textOfUnits_cons (by simp)
    have h₀ : textOfUnits (u :: vs) = charOfUnit u :: textOfUnits vs := textOfUnits_append_cons hh hl [] vs
    rw [List.singleton_append, h, h', h₀, List.singleton_append]
  | v :: w :: us, vs => by
    by_cases hp : isHigh v ∧ isLow w
    case pos =>
      have ih := textOfUnits_append_cons hh hl us vs
      rw [textOfUnits_pair hp.left hp.right, List.cons_append, List.cons_append,
        textOfUnits_pair hp.left hp.right, ih, List.cons_append]
    case neg =>
      have ih := textOfUnits_append_cons hh hl (w :: us) vs
      have hw : isHigh v → isLow w = false := by simpa using hp
      have h : textOfUnits (v :: w :: us) = charOfUnit v :: textOfUnits (w :: us) :=
        textOfUnits_cons fun hv x xs he => by
          cases he
          exact hw hv
      have h' : textOfUnits (v :: (w :: us ++ u :: vs)) = charOfUnit v :: textOfUnits (w :: us ++ u :: vs) :=
        textOfUnits_cons fun hv x xs he => by
          cases he
          exact hw hv
      rw [h, List.cons_append, h', ih, List.cons_append]

theorem unitsOfChar_of_lt {c : Char} (h : c.toNat < 0x80) : unitsOfChar c = [.ofNat c.toNat] :=
  if_pos (Nat.lt_trans h (by decide))

-- An ASCII character of a text is a unit of its own.
theorem eq_of_charOfUnit {v : UInt16} (h : (charOfUnit v).toNat < 0x80) :
    isHigh v = false ∧ isLow v = false ∧ UInt16.ofNat (charOfUnit v).toNat = v := by
  have hn : ¬(isHigh v ∨ isLow v) := fun hs => by
    rw [charOfUnit, if_pos hs] at h
    contradiction
  obtain ⟨hh, hl⟩ : isHigh v = false ∧ isLow v = false := by simpa using hn
  have hu := unitsOfChar_charOfUnit hh hl
  rw [unitsOfChar_of_lt h] at hu
  exact ⟨hh, hl, (List.cons_eq_cons.mp hu).left⟩

theorem not_lt_charOfPair {u v : UInt16} (hu : isHigh u) (hv : isLow v) : ¬(charOfPair u v).toNat < 0x80 := by
  intro h
  have hp := unitsOfChar_charOfPair hu hv
  rw [unitsOfChar_of_lt h] at hp
  simp at hp

theorem mem_of_mem_textOfUnits {c : Char} (hc : c.toNat < 0x80) :
    {us : List UInt16} → c ∈ textOfUnits us → UInt16.ofNat c.toNat ∈ us
  | [],      h => nomatch h
  | v :: us, h => by
    have single (hs : textOfUnits (v :: us) = charOfUnit v :: textOfUnits us) :
        UInt16.ofNat c.toNat ∈ v :: us := by
      rw [hs] at h
      rcases List.mem_cons.mp h with rfl | h
      case inl =>
        rw [(eq_of_charOfUnit hc).right.right]
        exact List.mem_cons_self
      case inr => exact List.mem_cons_of_mem v (mem_of_mem_textOfUnits hc h)
    match us with
    | []      => exact single (textOfUnits_cons (by simp))
    | w :: ws =>
      by_cases hp : isHigh v ∧ isLow w
      case pos =>
        rw [textOfUnits_pair hp.left hp.right] at h
        rcases List.mem_cons.mp h with he | h
        case inl => exact (not_lt_charOfPair hp.left hp.right (he ▸ hc)).elim
        case inr => exact List.mem_cons_of_mem v (List.mem_cons_of_mem w (mem_of_mem_textOfUnits hc h))
      case neg =>
        refine single (textOfUnits_cons fun hv x xs he => ?_)
        cases he
        simpa using fun hw => hp ⟨hv, hw⟩

-- A text of ASCII has a unit for each character.
theorem textOfUnits_of_ascii {us : List UInt16} (h : ∀ u ∈ us, (charOfUnit u).toNat < 0x80) :
    textOfUnits us = us.map charOfUnit := by
  induction us
  case nil => rfl
  case cons u us ih =>
    rw [List.forall_mem_cons] at h
    have hh := (eq_of_charOfUnit h.left).left
    rw [textOfUnits_cons (by simp [hh]), ih h.right, List.map_cons]

-- The bytes that a string is sent as.
def utf8 (us : List UInt16) : List UInt8 :=
  Bytes.ofString (.ofList (textOfUnits us))

-- The bytes of a character beyond ASCII lie beyond it as well.
theorem le_of_mem_encodeChar {c : Char} (h : 0x80 ≤ c.toNat) :
    ∀ b ∈ String.utf8EncodeChar c, 0x80 ≤ b.toNat := by
  have hv : ¬c.val.toNat ≤ 0x7f := fun hle => absurd h (Nat.not_le.mpr (Nat.lt_succ_of_le hle))
  rw [String.utf8EncodeChar, if_neg hv]
  split
  case isTrue =>
    simp only [List.forall_mem_cons, UInt8.toNat_ofNat']
    exact ⟨by omega, by omega, by simp⟩
  case isFalse =>
    split
    case isTrue =>
      simp only [List.forall_mem_cons, UInt8.toNat_ofNat']
      exact ⟨by omega, by omega, by omega, by simp⟩
    case isFalse =>
      simp only [List.forall_mem_cons, UInt8.toNat_ofNat']
      exact ⟨by omega, by omega, by omega, by omega, by simp⟩

theorem mem_of_mem_utf8 {b : UInt8} (hb : b.toNat < 0x80) {us : List UInt16} (h : b ∈ utf8 us) :
    UInt16.ofNat b.toNat ∈ us := by
  rw [utf8, Bytes.ofString_ofList] at h
  obtain ⟨c, hc, hm⟩ := List.mem_flatMap.mp h
  have hl : c.toNat < 0x80 := by
    by_contra hn
    exact Nat.not_le.mpr hb (le_of_mem_encodeChar (Nat.not_lt.mp hn) b hm)
  rw [Bytes.encodeChar_of_lt hl, List.mem_singleton] at hm
  have hn : b.toNat = c.toNat := by
    rw [hm]
    exact UInt8.toNat_ofNat_of_lt' (Nat.lt_trans hl (by decide))
  rw [hn]
  exact mem_of_mem_textOfUnits hl hc

theorem utf8_append_cons {u : UInt16} (hu : (charOfUnit u).toNat < 0x80) (us vs : List UInt16) :
    utf8 (us ++ u :: vs) = utf8 us ++ .ofNat (charOfUnit u).toNat :: utf8 vs := by
  obtain ⟨hh, hl, -⟩ := eq_of_charOfUnit hu
  rw [utf8, textOfUnits_append_cons hh hl, ← List.singleton_append, Bytes.ofString_append,
    Bytes.ofString_append, Bytes.ofString_ofList [_], List.flatMap_singleton, Bytes.encodeChar_of_lt hu]
  rfl

theorem textOfUnits_eq_nil_iff {us : List UInt16} : textOfUnits us = [] ↔ us = [] := by
  apply Iff.intro
  case mp =>
    intro h
    have hp : paired us := paired_of_text (by simp [h])
    rw [← utf16_textOfUnits hp, h]
    rfl
  case mpr =>
    rintro rfl
    rfl

theorem utf8_eq_nil_iff {us : List UInt16} : utf8 us = [] ↔ us = [] := by
  rw [← textOfUnits_eq_nil_iff, utf8, ← String.ofList_eq_empty_iff]
  exact ⟨fun h => Bytes.ofString_injective (h.trans (by rfl : [] = Bytes.ofString "")), fun h => h ▸ rfl⟩

theorem splitOn_utf8 {u : UInt16} (hu : (charOfUnit u).toNat < 0x80) (us : List UInt16) :
    (utf8 us).splitOn (.ofNat (charOfUnit u).toNat) = (us.splitOn u).map utf8 := by
  refine splitOn_hom (utf8_append_cons hu) (fun vs hv hm => hv ?_) us
  have hb : (UInt8.ofNat (charOfUnit u).toNat).toNat = (charOfUnit u).toNat :=
    UInt8.toNat_ofNat_of_lt' (Nat.lt_trans hu (by decide))
  have h := mem_of_mem_utf8 (by rwa [hb]) hm
  rwa [hb, (eq_of_charOfUnit hu).right.right] at h

theorem textOfUnits_utf16_append (cs : List Char) (us : List UInt16) :
    textOfUnits (utf16 cs ++ us) = cs ++ textOfUnits us := by
  induction cs
  case nil => rfl
  case cons c cs ih =>
    rw [utf16, List.flatMap_cons, List.append_assoc, textOfUnits_unitsOfChar, ← utf16, ih, List.cons_append]

theorem of_textOfUnits_eq_cons {c : Char} (hc : c.toNat < 0x80) {us : List UInt16} {cs : List Char}
    (h : textOfUnits us = c :: cs) : ∃ vs, us = unitsOfChar c ++ vs ∧ textOfUnits vs = cs := by
  have single {v : UInt16} {vs : List UInt16} (hs : textOfUnits (v :: vs) = charOfUnit v :: textOfUnits vs)
      (h : textOfUnits (v :: vs) = c :: cs) : ∃ ws, v :: vs = unitsOfChar c ++ ws ∧ textOfUnits ws = cs := by
    rw [hs] at h
    obtain ⟨rfl, ht⟩ := List.cons_eq_cons.mp h
    refine ⟨vs, ?_, ht⟩
    rw [unitsOfChar_of_lt hc, (eq_of_charOfUnit hc).right.right, List.singleton_append]
  match us with
  | []           => contradiction
  | [v]          => exact single (textOfUnits_cons (by simp)) h
  | v :: w :: us =>
    by_cases hp : isHigh v ∧ isLow w
    case pos =>
      rw [textOfUnits_pair hp.left hp.right] at h
      exact (not_lt_charOfPair hp.left hp.right ((List.cons_eq_cons.mp h).left ▸ hc)).elim
    case neg =>
      refine single (textOfUnits_cons fun hv x xs he => ?_) h
      cases he
      simpa using fun hw => hp ⟨hv, hw⟩

-- A text of ASCII begins a string as it begins its bytes.
theorem prefix_utf8_iff {cs : List Char} (hc : ∀ c ∈ cs, c.toNat < 0x80) {us : List UInt16} :
    Bytes.ofString (.ofList cs) <+: utf8 us ↔ utf16 cs <+: us := by
  apply Iff.intro
  case mp =>
    rintro ⟨bs, h⟩
    have hs := Bytes.toString?_ofString (.ofList (textOfUnits us))
    rw [← utf8, ← h] at hs
    obtain ⟨ds, hd, -⟩ := Bytes.toList_of_prefix hs
    rw [String.toList_ofList] at hd
    clear h hs
    induction cs generalizing us
    case nil => exact List.nil_prefix
    case cons c cs ih =>
      rw [List.forall_mem_cons] at hc
      obtain ⟨vs, rfl, ht⟩ := of_textOfUnits_eq_cons hc.left hd
      rw [utf16, List.flatMap_cons, ← utf16, List.prefix_append_right_inj]
      exact ih hc.right ht
  case mpr =>
    rintro ⟨vs, rfl⟩
    rw [utf8, textOfUnits_utf16_append, Bytes.ofString_append]
    exact List.prefix_append _ _

end JsonText
