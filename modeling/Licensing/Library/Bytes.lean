import Mathlib.Data.List.Basic

-- The UTF-8 bytes of texts.

namespace Bytes

def ofString (s : String) : List UInt8 :=
  s.toByteArray.data.toList

def toString? (bs : List UInt8) : Option String :=
  String.fromUTF8? ⟨bs.toArray⟩

@[simp]
theorem toString?_ofString (s : String) : toString? (ofString s) = some s := by
  have h : (⟨(ofString s).toArray⟩ : ByteArray) = s.toByteArray := by simp [ofString]
  rw [toString?, h, String.fromUTF8?, dif_pos s.isValidUTF8]
  rfl

theorem toString?_eq_some {bs : List UInt8} {s : String} (h : toString? bs = some s) :
    ofString s = bs := by
  unfold toString? String.fromUTF8? at h
  split at h
  · cases h
    simp [ofString, String.fromUTF8]
  · contradiction

theorem ofString_ofList (cs : List Char) :
    ofString (.ofList cs) = cs.flatMap String.utf8EncodeChar := by
  simp [ofString, List.utf8Encode]

theorem ofString_eq (s : String) : ofString s = s.toList.flatMap String.utf8EncodeChar := by
  rw [← ofString_ofList, String.ofList_toList]

theorem ofString_append (cs ds : List Char) :
    ofString (.ofList (cs ++ ds)) = ofString (.ofList cs) ++ ofString (.ofList ds) := by
  simp only [ofString_ofList, List.flatMap_append]

-- Bytes that begin with those of a text are the bytes of that text and more.
theorem toList_of_prefix {cs : List Char} {bs : List UInt8} {s : String}
    (h : toString? (ofString (.ofList cs) ++ bs) = some s) :
    ∃ ds, s.toList = cs ++ ds ∧ toString? bs = some (.ofList ds) := by
  have hb := toString?_eq_some h
  have hp : cs.utf8Encode ++ (⟨bs.toArray⟩ : ByteArray) = s.toList.utf8Encode := by
    refine ByteArray.ext (Array.ext' ?_)
    rw [String.utf8Encode_toList, ByteArray.data_append, Array.toList_append]
    rw [ofString, ofString, String.toByteArray_ofList] at hb
    exact hb.symm
  obtain ⟨ds, hd⟩ := List.isPrefix_of_utf8Encode_append_eq_utf8Encode _ hp
  have hs : ofString s = ofString (.ofList cs) ++ ofString (.ofList ds) := by
    rw [← ofString_append, hd, String.ofList_toList]
  rw [hs] at hb
  exact ⟨ds, hd.symm, by rw [← List.append_cancel_left hb, toString?_ofString]⟩

theorem ofString_injective : Function.Injective ofString := by
  intro s t h
  have hs := toString?_ofString s
  rw [h, toString?_ofString] at hs
  exact (Option.some.inj hs).symm

-- The characters below 0x80 are bytes by themselves, and the others have no byte below.

theorem encodeChar_of_lt {c : Char} (h : c.toNat < 0x80) :
    String.utf8EncodeChar c = [.ofNat c.toNat] := by
  have hv : c.val.toNat ≤ 0x7f := Nat.le_of_lt_succ h
  rw [String.utf8EncodeChar, if_pos hv]
  rfl

theorem lt_of_encodeChar {c : Char} (h : ∀ b ∈ String.utf8EncodeChar c, b.toNat < 0x80) :
    c.toNat < 0x80 := by
  by_contra hn
  have hv : ¬c.val.toNat ≤ 0x7f := fun hle => hn (Nat.lt_succ_of_le hle)
  rw [String.utf8EncodeChar, if_neg hv] at h
  split at h
  case isTrue =>
    have hb := h _ List.mem_cons_self
    rw [UInt8.toNat_ofNat'] at hb
    omega
  case isFalse =>
    split at h <;>
      have hb := h _ List.mem_cons_self <;>
      rw [UInt8.toNat_ofNat'] at hb <;>
      omega

theorem ascii_of_ofString {s : String} (h : ∀ b ∈ ofString s, b.toNat < 0x80) :
    ∀ c ∈ s.toList, c.toNat < 0x80 := by
  intro c hc
  refine lt_of_encodeChar fun b hb => h b ?_
  rw [ofString_eq]
  exact List.mem_flatMap.mpr ⟨c, hc, hb⟩

theorem ofString_of_ascii {s : String} (h : ∀ c ∈ s.toList, c.toNat < 0x80) :
    (ofString s).map UInt8.toNat = s.toList.map Char.toNat := by
  rw [ofString_eq]
  revert h
  induction s.toList
  case nil => exact fun _ => rfl
  case cons c cs ih =>
    intro h
    rw [List.forall_mem_cons] at h
    have hb : (UInt8.ofNat c.toNat).toNat = c.toNat :=
      UInt8.toNat_ofNat_of_lt' (Nat.lt_trans h.1 (by decide))
    rw [List.flatMap_cons, encodeChar_of_lt h.1, List.map_append, ih h.2, List.map_cons, hb]
    rfl

end Bytes
