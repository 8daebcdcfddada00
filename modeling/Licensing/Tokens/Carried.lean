import Licensing.Tokens.Payload

-- The members of a payload, as they are carried by the bytes that it is written to.

namespace Licensing

open JsonText

theorem lookup_perm {κ α : Type} [BEq κ] [LawfulBEq κ] {ms ms' : List (κ × α)} (h : ms.Perm ms')
    (distinct : (ms.map Prod.fst).Nodup) (k : κ) : ms.lookup k = ms'.lookup k := by
  have distinct' := (h.map Prod.fst).nodup_iff.mp distinct
  cases hk : ms.lookup k
  case some v =>
    have ⟨l, r, e, _⟩ := List.lookup_eq_some_iff.mp hk
    exact (lookup_eq_some_of_mem distinct' (h.mem_iff.mp (by simp [e]))).symm
  case none =>
    have hn : ¬(ms.lookup k).isSome := by simp [hk]
    rw [isSome_lookup, (h.map Prod.fst).mem_iff, ← isSome_lookup] at hn
    exact (Option.not_isSome_iff_eq_none.mp hn).symm

-- The members of an object are sorted, and are found as before.
theorem lookup_normal {ms : List (List Char × Data)} (distinct : (ms.map Prod.fst).Nodup) (k : List Char) :
    (sortMembers (Data.normalMembers ms)).lookup k = (ms.lookup k).map Data.normal := by
  have hm : (Data.normalMembers ms).map Prod.fst = ms.map Prod.fst := by
    rw [Data.normalMembers_eq, List.map_map]
    rfl
  rw [sortMembers, ← lookup_perm (sortBy_perm _ _).symm (hm ▸ distinct), Data.normalMembers_eq]
  exact lookup_map Function.injective_id Data.normal ms k

namespace Go

theorem lookup_members? {ms : Map} {ds : List (List Char × Data)} (h : Value.members? ms = some ds)
    (key : String) : ds.lookup key.toList = (ms.lookup (Bytes.ofString key)).bind Value.data? := by
  induction ms generalizing ds
  case nil =>
    cases h
    rfl
  case cons m ms ih =>
    simp only [Value.members?, Option.bind_eq_bind, Option.bind_eq_some_iff, Option.pure_def, Option.some.injEq] at h
    have ⟨k, hk, d, hd, ds', hs, e⟩ := h
    rw [← e, List.lookup_cons, List.lookup_cons, ih hs, ← Bytes.toString?_eq_some hk]
    by_cases hkey : key = k
    case pos => simp [hkey, hd]
    case neg =>
      have hl : key.toList ≠ k.toList := String.toList_inj.not.mpr hkey
      rw [beq_false_of_ne hl, beq_false_of_ne (Bytes.ofString_injective.ne hkey)]

-- What the object that is read from the bytes of a payload has for a key.
theorem lookup_carried {payload o : Map} {b : List UInt8} {label : String} (hv : (Value.map payload).IsValue)
    (h : canonicalize (.map payload) = .ok b) (read : parseJSONObject b label = .ok o) (key : String) :
    o.lookup (Bytes.ofString key) =
      ((payload.lookup (Bytes.ofString key)).bind Value.data?).map fun d => ofRaw d.normal.raw := by
  have ⟨d, hd, he⟩ := encodes_of_ok hv h
  have ⟨ds, hs, e⟩ := Option.map_eq_some_iff.mp hd
  subst e
  have distinct := he.distinct.left
  have hn : (Data.obj ds).normal = .obj (sortMembers (Data.normalMembers ds)) := rfl
  cases (he.go_parse_eq hn label).symm.trans read
  rw [lookup_ofMembers, lookup_normal distinct, lookup_members? hs, Option.map_map]
  rfl

end Go

namespace Ts

theorem lookup_members? {ms : List (JsString × Value)} {ds : List (List Char × Data)}
    (h : Value.members? ms = some ds) (key : String) :
    ds.lookup key.toList = (ms.lookup (.ofString key)).bind Value.data? := by
  induction ms generalizing ds
  case nil =>
    cases h
    rfl
  case cons m ms ih =>
    simp only [Value.members?, Option.bind_eq_bind, Option.bind_eq_some_iff, Option.pure_def, Option.some.injEq] at h
    have ⟨k, hk, d, hd, ds', hs, e⟩ := h
    rw [← e, List.lookup_cons, List.lookup_cons, ih hs, eq_utf16_of_chars? hk, JsString.ofString]
    by_cases hkey : key.toList = k
    case pos => simp [hkey, hd]
    case neg => rw [beq_false_of_ne hkey, beq_false_of_ne (utf16_injective.ne hkey)]

theorem names_members? {ms : List (JsString × Value)} {ds : List (List Char × Data)}
    (h : Value.members? ms = some ds) : ds.map (fun m => utf16 m.1) = ms.map Prod.fst := by
  induction ms generalizing ds
  case nil =>
    cases h
    rfl
  case cons m ms ih =>
    simp only [Value.members?, Option.bind_eq_bind, Option.bind_eq_some_iff, Option.pure_def, Option.some.injEq] at h
    have ⟨k, hk, d, _, ds', hs, e⟩ := h
    rw [← e, List.map_cons, List.map_cons, ih hs, eq_utf16_of_chars? hk]

-- Here, too, unless a member of the payload itself is called `__proto__`.
theorem get?_carried {own : List (JsString × Value)} {w : Value} {b : List UInt8} {errors : ObjectErrors}
    (hv : (Value.object own none).IsValue) (plain : proto ∉ own.map Prod.fst)
    (h : canonicalize (.object own none) = .ok b) (read : parseObject errors b = .ok w) (key : String) :
    w.get? key = ((own.lookup (.ofString key)).bind Value.data?).map fun d => ofRaw d.normal.raw := by
  have ⟨d, hd, he⟩ := encodes_of_ok hv h
  have ⟨ds, hs, e⟩ := Option.map_eq_some_iff.mp hd
  subst e
  have distinct := he.distinct.left
  have ⟨_, hw⟩ := (he.ts_parse errors).mp read
  have hp : ∀ m ∈ Data.rawMembers (sortMembers (Data.normalMembers ds)), units m.1 ≠ proto := by
    rw [rawMembers_eq, List.forall_mem_map]
    intro m hm
    have hm := (sortBy_perm _ _).mem_iff.mp hm
    rw [Data.normalMembers_eq] at hm
    have ⟨m', hm', e⟩ := List.mem_map.mp hm
    rw [units_map, ← e]
    exact fun hu => plain (names_members? hs ▸ List.mem_map.mpr ⟨m', hm', hu⟩)
  rw [hw, Data.normal, Data.raw, ofRaw_obj_of_plain hp, rawMembers_eq, List.map_map]
  have hg := get?_object (sortMembers (Data.normalMembers ds)) key
  simp only [Function.comp_def, units_map]
  rw [hg, lookup_normal distinct, lookup_members? hs, Option.map_map]
  rfl

end Ts

end Licensing
