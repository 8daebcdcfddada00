import Licensing.Tokens.Canonical

-- What the canonicalizers accept: the JSON values whose names are distinct and whose integers are
-- safe.

namespace Licensing

open JsonText

theorem toInt?_of_written {x : Binary64} {cs : List Char} (h : Go.writeFloat x = .ok cs) :
    ∃ n, x.toInt? = some n := by
  match x with
  | .nan | .infinity _ => contradiction
  | .finite s m        =>
    rw [Go.writeFloat] at h
    split at h
    case isTrue => contradiction
    case isFalse hz =>
      split at h
      case isTrue => contradiction
      case isFalse hm =>
        exact ⟨_, if_pos ⟨by simpa using hm, fun h => hz h.symm⟩⟩

namespace Go

theorem eq_ofString_of_written {s : GoString} {cs : List Char} (h : writeString s = .ok cs) :
    ∃ t, Bytes.toString? s = some t := by
  unfold writeString at h
  split at h
  case h_1 t ht => exact ⟨t, ht⟩
  case h_2 => contradiction

theorem of_writeObject {ms : List (GoString × Except Error (List Char))} {cs : List Char}
    (h : writeObject ms = .ok cs) :
    ∀ m ∈ ms, ∃ k v, Bytes.toString? m.1 = some k ∧ m.2 = .ok v := by
  intro m hm
  obtain ⟨_, ho, _⟩ := bind_eq_ok_iff.mp h
  obtain ⟨_, hw⟩ := ok_of_mapM ho m <| (sortBy_perm _ ms).mem_iff.mpr hm
  obtain ⟨_, hk, hw⟩ := bind_eq_ok_iff.mp hw
  obtain ⟨v, hv, _⟩ := bind_eq_ok_iff.mp hw
  obtain ⟨k, hk⟩ := eq_ofString_of_written hk
  exact ⟨k, v, hk, hv⟩

mutual

theorem data_of_written : (v : Value) → {cs : List Char} → writeValue v = .ok cs →
    ∃ d, v.data? = some d
  | .nil, _, _ | .bool _, _, _ | .int64 _, _, _ | .uint64 _, _, _ => ⟨_, rfl⟩
  | .float64 x, cs, h => by
    obtain ⟨n, hn⟩ := toInt?_of_written h
    exact ⟨.int n, by rw [Value.data?, hn]; rfl⟩
  | .number lit, cs, h => by
    rw [writeValue] at h
    split at h
    case h_1 i hi =>
      obtain ⟨hi, _⟩ := Option.filter_eq_some_iff.mp hi
      exact ⟨.int i, by rw [Value.data?, hi]; rfl⟩
    case h_2 => contradiction
  | .string s, cs, h => by
    obtain ⟨t, ht⟩ := eq_ofString_of_written h
    exact ⟨.str t.toList, by rw [Value.data?, ht]; rfl⟩
  | .slice xs, cs, h => by
    obtain ⟨ts, hx, _⟩ := bind_eq_ok_iff.mp h
    obtain ⟨ds, hd⟩ := elements_of_written xs hx
    exact ⟨.arr ds, by rw [Value.data?, hd]; rfl⟩
  | .map ms, cs, h => by
    obtain ⟨ds, hd⟩ := members_of_written ms (of_writeObject h)
    exact ⟨.obj ds, by rw [Value.data?, hd]; rfl⟩
  | .other _, _, h => by contradiction

theorem elements_of_written : (xs : List Value) → {ts : List (List Char)} →
    writeElements xs = .ok ts → ∃ ds, Value.elements? xs = some ds
  | [], _, _      => ⟨[], rfl⟩
  | x :: xs, _, h => by
    obtain ⟨_, hx, h⟩ := bind_eq_ok_iff.mp h
    obtain ⟨_, hxs, _⟩ := bind_eq_ok_iff.mp h
    obtain ⟨d, hd⟩ := data_of_written x hx
    obtain ⟨ds, hds⟩ := elements_of_written xs hxs
    exact ⟨d :: ds, by rw [Value.elements?, hd, hds]; rfl⟩

theorem members_of_written : (ms : List (GoString × Value)) →
    (∀ m ∈ writtenMembers ms, ∃ k v, Bytes.toString? m.1 = some k ∧ m.2 = .ok v) →
    ∃ ds, Value.members? ms = some ds
  | [], _           => ⟨[], rfl⟩
  | (k, v) :: ms, h => by
    rw [writtenMembers, List.forall_mem_cons] at h
    obtain ⟨⟨name, _, hk, hv⟩, h⟩ := h
    obtain ⟨d, hd⟩ := data_of_written v hv
    obtain ⟨ds, hds⟩ := members_of_written ms h
    exact ⟨(name.toList, d) :: ds, by rw [Value.members?, hk, hd, hds]; rfl⟩

end

mutual

theorem distinct_data? : (v : Value) → {d : Data} → v.IsValue → v.data? = some d → d.Distinct
  | .nil, _, _, h | .bool _, _, _, h | .int64 _, _, _, h | .uint64 _, _, _, h => by
    cases h
    trivial
  | .float64 _, _, _, h | .number _, _, _, h | .string _, _, _, h => by
    obtain ⟨_, _, rfl⟩ := Option.map_eq_some_iff.mp h
    trivial
  | .slice xs, _, hv, h => by
    obtain ⟨ds, hs, rfl⟩ := Option.map_eq_some_iff.mp h
    exact distinct_elements? xs hv hs
  | .map ms, _, hv, h => by
    obtain ⟨ds, hs, rfl⟩ := Option.map_eq_some_iff.mp h
    have ⟨hn, hd⟩ := distinct_members? ms hv.2 hs
    have hk : (ms.map Prod.fst).Nodup := hv.1
    rw [hn] at hk
    exact ⟨hk.of_map _, hd⟩

theorem distinct_elements? : (xs : List Value) → {ds : List Data} → Value.AreElements xs →
    Value.elements? xs = some ds → Data.DistinctElements ds
  | [], _, _, h       => by
    cases h
    trivial
  | x :: xs, _, hv, h => by
    obtain ⟨d, hx, h⟩ := Option.bind_eq_some_iff.mp h
    obtain ⟨ds, hxs, h⟩ := Option.bind_eq_some_iff.mp h
    cases h
    exact ⟨distinct_data? x hv.1 hx, distinct_elements? xs hv.2 hxs⟩

theorem distinct_members? : (ms : List (GoString × Value)) → {ds : List (List Char × Data)} →
    Value.AreMembers ms → Value.members? ms = some ds →
    ms.map Prod.fst = (ds.map Prod.fst).map (fun s => Bytes.ofString (.ofList s)) ∧
      Data.DistinctMembers ds
  | [], _, _, h           => by
    cases h
    exact ⟨rfl, trivial⟩
  | (k, v) :: ms, _, hv, h => by
    obtain ⟨name, hk, h⟩ := Option.bind_eq_some_iff.mp h
    obtain ⟨d, hd, h⟩ := Option.bind_eq_some_iff.mp h
    obtain ⟨ds, hds, h⟩ := Option.bind_eq_some_iff.mp h
    cases h
    have ⟨hn, hm⟩ := distinct_members? ms hv.2 hds
    refine ⟨?_, distinct_data? v hv.1 hd, hm⟩
    rw [List.map_cons, hn, List.map_cons, List.map_cons, String.ofList_toList,
      Bytes.toString?_eq_some hk]

end

end Go

namespace Ts

theorem paired_of_written {s : JsString} {cs : List Char} (h : writeString s = .ok cs) :
    ∃ t, Value.chars? s = some t := by
  obtain ⟨_, hv, _⟩ := bind_eq_ok_iff.mp h
  exact ⟨textOfUnits s, if_pos (validateUtf16_eq_ok_iff.mp hv)⟩

theorem of_writeMembers {seen : List JsString} {ms : List (JsString × Except Error (List Char))}
    {ts : List (List Char)} (h : writeMembers seen ms = .ok ts) :
    ∀ m ∈ ms, ∃ k v, Value.chars? m.1 = some k ∧ m.2 = .ok v := by
  induction ms generalizing seen ts
  case nil => simp
  case cons m ms ih =>
    rw [writeMembers] at h
    split at h
    case isTrue => contradiction
    case isFalse =>
      obtain ⟨_, hk, h⟩ := bind_eq_ok_iff.mp h
      obtain ⟨v, hv, h⟩ := bind_eq_ok_iff.mp h
      obtain ⟨_, hms, _⟩ := bind_eq_ok_iff.mp h
      obtain ⟨k, hk⟩ := paired_of_written hk
      exact List.forall_mem_cons.mpr ⟨⟨k, v, hk, hv⟩, ih hms⟩

theorem of_writeObject {ms : List (JsString × Except Error (List Char))} {cs : List Char}
    (h : writeObject ms = .ok cs) : ∀ m ∈ ms, ∃ k v, Value.chars? m.1 = some k ∧ m.2 = .ok v := by
  intro m hm
  obtain ⟨_, ho, _⟩ := bind_eq_ok_iff.mp h
  exact of_writeMembers ho m <| (sortBy_perm _ ms).mem_iff.mpr hm

mutual

theorem data_of_written : (v : Value) → {cs : List Char} → writeValue v = .ok cs →
    ∃ d, v.data? = some d
  | .null, _, _ | .boolean _, _, _ | .bigint _, _, _ => ⟨_, rfl⟩
  | .number x, cs, h => by
    rw [writeValue, writeNumber_eq] at h
    obtain ⟨n, hn⟩ := toInt?_of_written h
    exact ⟨.int n, by rw [Value.data?, hn]; rfl⟩
  | .string s, cs, h => by
    obtain ⟨t, ht⟩ := paired_of_written h
    exact ⟨.str t, by rw [Value.data?, ht]; rfl⟩
  | .array xs, cs, h => by
    obtain ⟨ts, hx, _⟩ := bind_eq_ok_iff.mp h
    obtain ⟨ds, hd⟩ := elements_of_written xs hx
    exact ⟨.arr ds, by rw [Value.data?, hd]; rfl⟩
  | .object own none, cs, h | .object own (some .null), cs, h => by
    obtain ⟨ds, hd⟩ := members_of_written own (of_writeObject h)
    exact ⟨.obj ds, by rw [Value.data?, hd]; rfl⟩
  | .object _ (some (.boolean _)), _, h | .object _ (some (.number _)), _, h
  | .object _ (some (.bigint _)), _, h | .object _ (some (.string _)), _, h
  | .object _ (some (.array _)), _, h | .object _ (some (.object _ _)), _, h
  | .object _ (some (.other _)), _, h | .other _, _, h => by contradiction

theorem elements_of_written : (xs : List Value) → {ts : List (List Char)} →
    writeElements xs = .ok ts → ∃ ds, Value.elements? xs = some ds
  | [], _, _      => ⟨[], rfl⟩
  | x :: xs, _, h => by
    obtain ⟨_, hx, h⟩ := bind_eq_ok_iff.mp h
    obtain ⟨_, hxs, _⟩ := bind_eq_ok_iff.mp h
    obtain ⟨d, hd⟩ := data_of_written x hx
    obtain ⟨ds, hds⟩ := elements_of_written xs hxs
    exact ⟨d :: ds, by rw [Value.elements?, hd, hds]; rfl⟩

theorem members_of_written : (ms : List (JsString × Value)) →
    (∀ m ∈ writtenMembers ms, ∃ k v, Value.chars? m.1 = some k ∧ m.2 = .ok v) →
    ∃ ds, Value.members? ms = some ds
  | [], _           => ⟨[], rfl⟩
  | (k, v) :: ms, h => by
    rw [writtenMembers, List.forall_mem_cons] at h
    obtain ⟨⟨name, _, hk, hv⟩, h⟩ := h
    obtain ⟨d, hd⟩ := data_of_written v hv
    obtain ⟨ds, hds⟩ := members_of_written ms h
    exact ⟨(name, d) :: ds, by rw [Value.members?, hk, hd, hds]; rfl⟩

end

mutual

theorem distinct_data? : (v : Value) → {d : Data} → v.IsValue → v.data? = some d → d.Distinct
  | .null, _, _, h | .boolean _, _, _, h | .bigint _, _, _, h => by
    cases h
    trivial
  | .number _, _, _, h | .string _, _, _, h => by
    obtain ⟨_, _, rfl⟩ := Option.map_eq_some_iff.mp h
    trivial
  | .array xs, _, hv, h => by
    obtain ⟨ds, hs, rfl⟩ := Option.map_eq_some_iff.mp h
    exact distinct_elements? xs hv hs
  | .object own none, _, hv, h | .object own (some .null), _, hv, h => by
    obtain ⟨ds, hs, rfl⟩ := Option.map_eq_some_iff.mp h
    have ⟨hn, hd⟩ := distinct_members? own hv.2 hs
    have hk : (own.map Prod.fst).Nodup := hv.1
    rw [hn] at hk
    exact ⟨hk.of_map _, hd⟩

theorem distinct_elements? : (xs : List Value) → {ds : List Data} → Value.AreElements xs →
    Value.elements? xs = some ds → Data.DistinctElements ds
  | [], _, _, h       => by
    cases h
    trivial
  | x :: xs, _, hv, h => by
    obtain ⟨d, hx, h⟩ := Option.bind_eq_some_iff.mp h
    obtain ⟨ds, hxs, h⟩ := Option.bind_eq_some_iff.mp h
    cases h
    exact ⟨distinct_data? x hv.1 hx, distinct_elements? xs hv.2 hxs⟩

theorem distinct_members? : (ms : List (JsString × Value)) → {ds : List (List Char × Data)} →
    Value.AreMembers ms → Value.members? ms = some ds →
    ms.map Prod.fst = (ds.map Prod.fst).map utf16 ∧ Data.DistinctMembers ds
  | [], _, _, h           => by
    cases h
    exact ⟨rfl, trivial⟩
  | (k, v) :: ms, _, hv, h => by
    obtain ⟨name, hk, h⟩ := Option.bind_eq_some_iff.mp h
    obtain ⟨d, hd, h⟩ := Option.bind_eq_some_iff.mp h
    obtain ⟨ds, hds, h⟩ := Option.bind_eq_some_iff.mp h
    cases h
    have ⟨hn, hm⟩ := distinct_members? ms hv.2 hds
    refine ⟨?_, distinct_data? v hv.1 hd, hm⟩
    rw [List.map_cons, hn, List.map_cons, List.map_cons, eq_utf16_of_chars? hk]

end

end Ts

-- The JSON value that a canonical text was written from.
structure Encodes (d : Data) (b : List UInt8) : Prop where
  object   : d.isObject
  distinct : d.Distinct
  safe     : d.Safe
  bytes    : b = bytesOf d.normal.text

theorem Canonical.encodes {d : Data} {x : Except Error (List UInt8)} {b : List UInt8}
    (h : Canonical d x) (hd : d.Distinct) (hx : x = .ok b) : Encodes d b := by
  cases ho : d.isObject
  case false =>
    obtain ⟨e, he, _⟩ := h.topLevel ho
    cases hx.symm.trans he
  case true =>
    have hw := h.object ho
    by_cases hs : d.Safe
    case pos =>
      cases hx.symm.trans (hw.accepted hs)
      exact ⟨ho, hd, hs, rfl⟩
    case neg =>
      obtain ⟨e, he, _⟩ := hw.rejected hs
      cases hx.symm.trans he

theorem Go.encodes_of_ok {v : Value} {b : List UInt8} (hv : v.IsValue) (h : canonicalize v = .ok b) :
    ∃ d, v.data? = some d ∧ Encodes d b := by
  have hw : ∃ cs, writeValue v = .ok cs := by
    cases v
    case map ms =>
      obtain ⟨cs, hc, _⟩ := map_eq_ok_iff.mp h
      exact ⟨cs, hc⟩
    all_goals contradiction
  obtain ⟨cs, hc⟩ := hw
  obtain ⟨d, hd⟩ := data_of_written v hc
  exact ⟨d, hd, (canonical hd).encodes (distinct_data? v hv hd) h⟩

theorem Ts.encodes_of_ok {v : Value} {b : List UInt8} (hv : v.IsValue) (h : canonicalize v = .ok b) :
    ∃ d, v.data? = some d ∧ Encodes d b := by
  have hw : ∃ cs, writeValue v = .ok cs := by
    unfold canonicalize at h
    split at h
    case h_1 | h_2 =>
      obtain ⟨cs, hc, _⟩ := map_eq_ok_iff.mp h
      exact ⟨cs, hc⟩
    case h_3 => contradiction
  obtain ⟨cs, hc⟩ := hw
  obtain ⟨d, hd⟩ := data_of_written v hc
  have hn := distinct_data? v hv hd
  exact ⟨d, hd, (canonical hd hn).encodes hn h⟩

end Licensing
