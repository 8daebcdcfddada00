import Licensing.Tokens.StrictJson

-- What the strict parsers of both ports make of the same bytes.

namespace Licensing

open JsonText

-- A number of the Go port keeps its literal, and the other port has the nearest double.
mutual

def SameValue : Go.Value → Ts.Value → Prop
  | .nil,        .null           => True
  | .bool b,     .boolean c      => b = c
  | .number lit, .number x       => x = Binary64.ofLiteral lit.toList
  | .string s,   .string u       => ∃ t, Bytes.toString? s = some t ∧ u = .ofString t
  | .slice xs,   .array ys       => SameElements xs ys
  | .map ms,     .object own none => own.length = ms.length ∧ SameMembers ms own
  | _,           _               => False

def SameElements : List Go.Value → List Ts.Value → Prop
  | [],      []      => True
  | x :: xs, y :: ys => SameValue x y ∧ SameElements xs ys
  | _,       _       => False

def SameMembers : List (Go.GoString × Go.Value) → List (Ts.JsString × Ts.Value) → Prop
  | [],           _   => True
  | (k, v) :: ms, own =>
    (∃ t w, Bytes.toString? k = some t ∧ own.lookup (.ofString t) = some w ∧ SameValue v w) ∧
      SameMembers ms own

end

-- No string has a surrogate without its partner, and no member is called `__proto__`.
mutual

def Plain : Raw → Prop
  | .str ps => paired (units ps)
  | .arr xs => PlainElements xs
  | .obj ms => PlainMembers ms
  | _       => True

def PlainElements : List Raw → Prop
  | []      => True
  | x :: xs => Plain x ∧ PlainElements xs

def PlainMembers : List (List Piece × Raw) → Prop
  | []           => True
  | (k, v) :: ms => (paired (units k) ∧ units k ≠ Ts.proto) ∧ Plain v ∧ PlainMembers ms

end

theorem plainMembers_iff (ms : List (List Piece × Raw)) :
    PlainMembers ms ↔ ∀ m ∈ ms, (paired (units m.1) ∧ units m.1 ≠ Ts.proto) ∧ Plain m.2 := by
  induction ms
  case nil => simp [PlainMembers]
  case cons m ms ih => simp [PlainMembers, ih, and_assoc]

theorem utf16_text_iff (ps : List Piece) : units ps = utf16 (text ps) ↔ paired (units ps) := by
  refine ⟨fun h => h ▸ paired_utf16 _, fun h => ?_⟩
  rw [← textOfUnits_units, utf16_textOfUnits h]

theorem toString?_stringOf (ps : List Piece) :
    Bytes.toString? (Go.stringOf ps) = some (.ofList (text ps)) :=
  Bytes.toString?_ofString _

theorem ofString_ofList_text (ps : List Piece) :
    Ts.JsString.ofString (.ofList (text ps)) = utf16 (text ps) := by
  rw [Ts.JsString.ofString, String.toList_ofList]

theorem stringOf_congr {ps qs : List Piece} (h : text ps = text qs) : Go.stringOf ps = Go.stringOf qs := by
  rw [Go.stringOf, h, Go.stringOf]

namespace Ts

-- Without a member `__proto__`, an object has its members as they are read.
theorem ofMembers_of_plain {o : Members} {ms : List (List Piece × Raw)}
    (h : ∀ m ∈ ms, units m.1 ≠ proto) : ofMembers o ms =
      { o with own := o.own ++ ms.map fun m => (units m.1, ofRaw m.2) } := by
  induction ms generalizing o
  case nil => simp [ofMembers]
  case cons m ms ih =>
    rw [List.forall_mem_cons] at h
    have ha : o.assign (units m.1) (ofRaw m.2) = { o with own := o.own ++ [(units m.1, ofRaw m.2)] } :=
      if_neg fun hp => h.1 hp.1
    rw [ofMembers, ha, ih h.2]
    simp

theorem length_ofMembers_le (o : Members) (ms : List (List Piece × Raw)) :
    (ofMembers o ms).own.length ≤ o.own.length + ms.length := by
  induction ms generalizing o
  case nil => exact Nat.le_refl _
  case cons m ms ih =>
    have ha : (o.assign (units m.1) (ofRaw m.2)).own.length ≤ o.own.length + 1 := by
      unfold Members.assign
      split
      · split <;> exact Nat.le_succ _
      · simp
    have h := ih (o.assign (units m.1) (ofRaw m.2))
    rw [ofMembers, List.length_cons]
    omega

-- The first member `__proto__` is not among them.
theorem length_ofMembers_lt {o : Members} {ms : List (List Piece × Raw)} (ho : o.hasAccessor)
    (h : ∃ m ∈ ms, units m.1 = proto) :
    (ofMembers o ms).own.length < o.own.length + ms.length := by
  induction ms generalizing o
  case nil => simp at h
  case cons m ms ih =>
    rw [ofMembers, List.length_cons]
    by_cases hm : units m.1 = proto
    case pos =>
      have ha : (o.assign (units m.1) (ofRaw m.2)).own = o.own := by
        rw [Members.assign, if_pos ⟨hm, ho⟩]
        split <;> rfl
      have hl := length_ofMembers_le (o.assign (units m.1) (ofRaw m.2)) ms
      rw [ha] at hl
      omega
    case neg =>
      have ha : o.assign (units m.1) (ofRaw m.2) =
          { o with own := o.own ++ [(units m.1, ofRaw m.2)] } := if_neg fun hp => hm hp.1
      have hms : ∃ m ∈ ms, units m.1 = proto := by simpa [hm] using h
      have hl := ih (o := { o with own := o.own ++ [(units m.1, ofRaw m.2)] }) ho hms
      rw [ha]
      simp only [List.length_append, List.length_singleton] at hl
      omega

theorem ofRaw_obj_of_plain {ms : List (List Piece × Raw)} (h : ∀ m ∈ ms, units m.1 ≠ proto) :
    ofRaw (.obj ms) = .object (ms.map fun m => (units m.1, ofRaw m.2)) none := by
  rw [ofRaw, ofMembers_of_plain h]
  rfl

theorem lookup_of_mem {ms : List (List Piece × Raw)} (hd : (ms.map fun m => units m.1).Nodup)
    {m : List Piece × Raw} (hm : m ∈ ms) :
    (ms.map fun m => (units m.1, ofRaw m.2)).lookup (units m.1) = some (ofRaw m.2) := by
  refine lookup_eq_some_of_mem ?_ (List.mem_map_of_mem hm)
  rwa [List.map_map]

end Ts

theorem nodup_units {ms : List (List Piece × Raw)} (h : (ms.map fun m => Go.stringOf m.1).Nodup) :
    (ms.map fun m => units m.1).Nodup := by
  have hs : (ms.map fun m => Go.stringOf m.1) = (ms.map fun m => units m.1).map
      fun us => Bytes.ofString (.ofList (textOfUnits us)) := by
    rw [List.map_map]
    exact List.map_congr_left fun m _ => by simp [Go.stringOf, textOfUnits_units]
  exact (hs ▸ h).of_map _

theorem length_ofMembers (ms : List (List Piece × Raw)) : (Go.ofMembers ms).length = ms.length := by
  induction ms
  case nil => rfl
  case cons m ms ih => rw [Go.ofMembers, List.length_cons, ih, List.length_cons]

-- The values are the same if nothing in the text divides the ports.
mutual

theorem sameValue_iff : (raw : Raw) → raw.Distinct Go.stringOf →
    (SameValue (Go.ofRaw raw) (Ts.ofRaw raw) ↔ Plain raw)
  | .null, _    => .rfl
  | .bool _, _  => by simp [Go.ofRaw, Ts.ofRaw, SameValue, Plain]
  | .num _, _   => by simp [Go.ofRaw, Ts.ofRaw, SameValue, Plain]
  | .str ps, _  => by
    simp only [Go.ofRaw, Ts.ofRaw, SameValue, Plain, toString?_stringOf, Option.some.injEq,
      exists_eq_left', ofString_ofList_text, utf16_text_iff]
  | .arr xs, hd => sameElements_iff xs hd
  | .obj ms, hd => by
    rw [Plain, plainMembers_iff]
    by_cases hp : ∃ m ∈ ms, units m.1 = Ts.proto
    case pos =>
      have hl := Ts.length_ofMembers_lt (o := {}) rfl hp
      refine iff_of_false (fun h => ?_) fun h => ?_
      · rw [Go.ofRaw, Ts.ofRaw] at h
        cases hm : (Ts.ofMembers {} ms).prototype
        case some => exact (hm ▸ h).elim
        case none =>
          have he : (Ts.ofMembers {} ms).own.length = (Go.ofMembers ms).length := (hm ▸ h).1
          rw [length_ofMembers] at he
          simp [he] at hl
      · obtain ⟨m, hm, hu⟩ := hp
        exact (h m hm).1.2 hu
    case neg =>
      have hp : ∀ m ∈ ms, units m.1 ≠ Ts.proto := fun m hm hu => hp ⟨m, hm, hu⟩
      rw [Ts.ofRaw_obj_of_plain hp, Go.ofRaw, SameValue, List.length_map, length_ofMembers,
        sameMembers_iff hd.1 ms (List.Subset.refl ms) hd.2]
      simp only [true_and]
      exact forall₂_congr fun m hm => by rw [and_iff_left (hp m hm)]

theorem sameElements_iff : (xs : List Raw) → Raw.DistinctElements Go.stringOf xs →
    (SameElements (Go.ofElements xs) (Ts.ofElements xs) ↔ PlainElements xs)
  | [], _       => .rfl
  | x :: xs, hd => and_congr (sameValue_iff x hd.1) (sameElements_iff xs hd.2)

theorem sameMembers_iff {all : List (List Piece × Raw)}
    (ha : (all.map fun m => Go.stringOf m.1).Nodup) : (ms : List (List Piece × Raw)) →
    ms ⊆ all → Raw.DistinctMembers Go.stringOf ms →
    (SameMembers (Go.ofMembers ms) (all.map fun m => (units m.1, Ts.ofRaw m.2)) ↔
      ∀ m ∈ ms, paired (units m.1) ∧ Plain m.2)
  | [], _, _            => by simp [Go.ofMembers, SameMembers]
  | (k, v) :: ms, hs, hd => by
    rw [List.cons_subset] at hs
    rw [Go.ofMembers, SameMembers, List.forall_mem_cons, sameMembers_iff ha ms hs.2 hd.2,
      ← sameValue_iff v hd.1]
    refine and_congr_left fun _ => ⟨?_, ?_⟩
    · rintro ⟨t, w, ht, hw, hv⟩
      rw [toString?_stringOf] at ht
      cases ht
      rw [ofString_ofList_text] at hw
      -- The name that is found can only be the one of this member.
      have hk : utf16 (text k) ∈ (all.map fun m => (units m.1, Ts.ofRaw m.2)).map Prod.fst :=
        (isSome_lookup _ _).mp (hw ▸ rfl)
      obtain ⟨m, hm, he⟩ : ∃ m ∈ all, units m.1 = utf16 (text k) := by simpa using hk
      have hu : m = (k, v) := List.inj_on_of_nodup_map ha hm hs.1 <| stringOf_congr <| by
        rw [← textOfUnits_units, he, textOfUnits_utf16]
      cases hu
      rw [← he, Ts.lookup_of_mem (nodup_units ha) hm] at hw
      cases hw
      exact ⟨(utf16_text_iff k).mp he, hv⟩
    · rintro ⟨hp, hv⟩
      refine ⟨_, _, toString?_stringOf k, ?_, hv⟩
      rw [ofString_ofList_text, ← (utf16_text_iff k).mpr hp]
      exact Ts.lookup_of_mem (nodup_units ha) hs.1

end

-- The bytes are an object and nothing else.
def IsObject (b : List UInt8) : Prop :=
  ∃ s ms, Bytes.toString? b = some s ∧ parse s.toList = some (.obj ms)

-- Both parsers reject the bytes, or both accept them as an object and with the same value.
def Agrees (b : List UInt8) : Prop :=
  ∀ label errors,
    (∃ o v, Go.parseJSONObject b label = .ok o ∧ Ts.parseObject errors b = .ok v ∧
      SameValue (.map o) v ∧ IsObject b) ∨
    ∃ e e', Go.parseJSONObject b label = .error e ∧ Ts.parseObject errors b = .error e'

-- The text of an object, and what follows it, as each parser would have it.
structure GoReads (ms : List (List Piece × Raw)) (rest : List Char) : Prop where
  distinct : (Raw.obj ms).Distinct Go.stringOf
  ends     : Go.more rest = false

structure TsReads (ms : List (List Piece × Raw)) (rest : List Char) : Prop where
  faultless : Ts.firstFault (.obj ms) = none
  ends      : skipSpace rest = []

-- A byte order mark is followed by nothing that the TypeScript port would accept. An object without
-- it is read by both ports or by none, and nothing in it divides the ports.
structure Uniform (s : String) : Prop where
  marked   : ∀ cs ms rest, s.toList = '\ufeff' :: cs →
    value (cs.length + 1) cs = some (.obj ms, rest) → ¬TsReads ms rest
  unmarked : ∀ ms rest, value (s.toList.length + 1) s.toList = some (.obj ms, rest) →
    (GoReads ms rest ↔ TsReads ms rest) ∧ (GoReads ms rest → Plain (.obj ms))

theorem ofString_mark : Bytes.ofString (.ofList ['\ufeff']) = Ts.byteOrderMark := by
  rw [Bytes.ofString_ofList]
  rfl

theorem textDecode_of_mark {cs : List Char} {b : List UInt8} {s : String}
    (h : Bytes.toString? b = some s) (hs : s.toList = '\ufeff' :: cs) :
    Ts.textDecode b = some cs := by
  have hb : b = Ts.byteOrderMark ++ Bytes.ofString (.ofList cs) := by
    rw [← ofString_mark, ← Bytes.ofString_append, List.singleton_append, ← hs, String.ofList_toList,
      Bytes.toString?_eq_some h]
  have hp : Ts.byteOrderMark <+: b := hb ▸ List.prefix_append _ _
  rw [Ts.textDecode, if_pos hp, hb]
  change (Bytes.toString? (Bytes.ofString (.ofList cs))).map _ = _
  rw [Bytes.toString?_ofString, Option.map_some, String.toList_ofList]

theorem textDecode_of_no_mark {b : List UInt8} {s : String} (h : Bytes.toString? b = some s)
    (hs : ∀ cs, s.toList ≠ '\ufeff' :: cs) : Ts.textDecode b = some s.toList := by
  have hp : ¬Ts.byteOrderMark <+: b := by
    rintro ⟨bs, rfl⟩
    rw [← ofString_mark] at h
    obtain ⟨cs, hc, _⟩ := Bytes.toList_of_prefix h
    exact hs cs hc
  rw [Ts.textDecode, if_neg hp, h, Option.map_some]

theorem textDecode_of_none {b : List UInt8} (h : Bytes.toString? b = none) :
    Ts.textDecode b = none := by
  unfold Ts.textDecode
  split
  case isFalse => rw [h, Option.map_none]
  case isTrue hp =>
    obtain ⟨bs, rfl⟩ := hp
    change (Bytes.toString? bs).map _ = _
    cases ht : Bytes.toString? bs
    case none => rfl
    case some t =>
      have hb : Ts.byteOrderMark ++ bs = Bytes.ofString (.ofList (['\ufeff'] ++ t.toList)) := by
        rw [Bytes.ofString_append, String.ofList_toList, ofString_mark, Bytes.toString?_eq_some ht]
      rw [hb, Bytes.toString?_ofString] at h
      contradiction

theorem go_ok_iff {b : List UInt8} {s : String} (hs : Bytes.toString? b = some s) {label : String}
    {o : Go.Map} : Go.parseJSONObject b label = .ok o ↔
      ∃ ms rest, value (s.toList.length + 1) s.toList = some (.obj ms, rest) ∧ GoReads ms rest ∧
        o = Go.ofMembers ms := by
  rw [Go.parseJSONObject_eq_ok_iff]
  refine ⟨?_, ?_⟩
  · rintro ⟨_, ms, rest, hs', hv, hd, hm, rfl⟩
    cases hs.symm.trans hs'
    exact ⟨ms, rest, hv, ⟨hd, hm⟩, rfl⟩
  · rintro ⟨ms, rest, hv, hr, rfl⟩
    exact ⟨s, ms, rest, hs, hv, hr.distinct, hr.ends, rfl⟩

theorem ts_ok_iff {b : List UInt8} {cs : List Char} (hs : Ts.textDecode b = some cs)
    {errors : Ts.ObjectErrors} {v : Ts.Value} : Ts.parseObject errors b = .ok v ↔
      ∃ ms rest, value (cs.length + 1) cs = some (.obj ms, rest) ∧ TsReads ms rest ∧
        v = Ts.ofRaw (.obj ms) := by
  rw [Ts.parseObject_eq_ok_iff]
  refine ⟨?_, ?_⟩
  · rintro ⟨_, ms, hs', hp, hf, rfl⟩
    cases hs.symm.trans hs'
    obtain ⟨rest, hv, hr⟩ := parse_eq_some_iff.mp hp
    exact ⟨ms, rest, hv, ⟨hf, hr⟩, rfl⟩
  · rintro ⟨ms, rest, hv, hr, rfl⟩
    exact ⟨cs, ms, hs, parse_eq_some_iff.mpr ⟨rest, hv, hr.ends⟩, hr.faultless, rfl⟩

-- A byte order mark is no JSON.
theorem value_mark (cs : List Char) (n : Nat) : value n ('\ufeff' :: cs) = none := by
  cases n <;> rfl

theorem error_of_not_ok {ε α : Type} {x : Except ε α} (h : ∀ a, x ≠ .ok a) : ∃ e, x = .error e := by
  match x with
  | .ok a    => exact (h a rfl).elim
  | .error e => exact ⟨e, rfl⟩

theorem agrees_of_mark {b : List UInt8} {s : String} {cs : List Char}
    (hs : Bytes.toString? b = some s) (hm : s.toList = '\ufeff' :: cs) :
    Agrees b ↔ ∀ ms rest, value (cs.length + 1) cs = some (.obj ms, rest) → ¬TsReads ms rest := by
  have go label o : Go.parseJSONObject b label ≠ .ok o := fun h => by
    obtain ⟨ms, rest, hv, _⟩ := (go_ok_iff hs).mp h
    rw [hm, value_mark] at hv
    contradiction
  have hd := textDecode_of_mark hs hm
  refine ⟨fun h ms rest hv hr => ?_, fun h label errors => .inr ?_⟩
  · have ok : Ts.parseObject (Ts.lic1Errors "") b = .ok _ :=
      (ts_ok_iff hd).mpr ⟨ms, rest, hv, hr, rfl⟩
    rcases h "" (Ts.lic1Errors "") with ⟨o, _, hg, _⟩ | ⟨_, _, _, he⟩
    · exact go _ _ hg
    · rw [ok] at he
      contradiction
  · obtain ⟨e, he⟩ := error_of_not_ok (go label)
    obtain ⟨e', he'⟩ : ∃ e', Ts.parseObject errors b = .error e' := error_of_not_ok fun v hv => by
      obtain ⟨ms, rest, hv, hr, _⟩ := (ts_ok_iff hd).mp hv
      exact h ms rest hv hr
    exact ⟨e, e', he, he'⟩

theorem agrees_of_no_mark {b : List UInt8} {s : String} (hs : Bytes.toString? b = some s)
    (hm : ∀ cs, s.toList ≠ '\ufeff' :: cs) :
    Agrees b ↔ ∀ ms rest, value (s.toList.length + 1) s.toList = some (.obj ms, rest) →
      (GoReads ms rest ↔ TsReads ms rest) ∧ (GoReads ms rest → Plain (.obj ms)) := by
  have hd := textDecode_of_no_mark hs hm
  refine ⟨fun h ms rest hv => ?_, fun h label errors => ?_⟩
  case refine_1 =>
    have agreed := h "" (Ts.lic1Errors "")
    have same (hg : GoReads ms rest) : TsReads ms rest ∧ Plain (.obj ms) := by
      have go : Go.parseJSONObject b "" = .ok _ := (go_ok_iff hs).mpr ⟨ms, rest, hv, hg, rfl⟩
      rcases agreed with ⟨o, v, ho, ht, hsame, _⟩ | ⟨_, _, he, _⟩
      · cases go.symm.trans ho
        obtain ⟨ms', rest', hv', hr, rfl⟩ := (ts_ok_iff hd).mp ht
        cases hv.symm.trans hv'
        exact ⟨hr, (sameValue_iff (.obj ms) hg.distinct).mp hsame⟩
      · rw [go] at he
        contradiction
    refine ⟨⟨fun hg => (same hg).1, fun ht => ?_⟩, fun hg => (same hg).2⟩
    have ts : Ts.parseObject (Ts.lic1Errors "") b = .ok _ :=
      (ts_ok_iff hd).mpr ⟨ms, rest, hv, ht, rfl⟩
    rcases agreed with ⟨o, _, ho, _⟩ | ⟨_, _, _, he⟩
    · obtain ⟨ms', rest', hv', hr, _⟩ := (go_ok_iff hs).mp ho
      cases hv.symm.trans hv'
      exact hr
    · rw [ts] at he
      contradiction
  case refine_2 =>
    by_cases hg : ∃ ms rest, value (s.toList.length + 1) s.toList = some (.obj ms, rest) ∧ GoReads ms rest
    case pos =>
      obtain ⟨ms, rest, hv, hr⟩ := hg
      have ⟨hi, hp⟩ := h ms rest hv
      refine .inl ⟨_, _, (go_ok_iff hs).mpr ⟨ms, rest, hv, hr, rfl⟩,
        (ts_ok_iff hd).mpr ⟨ms, rest, hv, hi.mp hr, rfl⟩, ?_, ?_⟩
      · exact (sameValue_iff (.obj ms) hr.distinct).mpr (hp hr)
      · exact ⟨s, ms, hs, parse_eq_some_iff.mpr ⟨rest, hv, (hi.mp hr).ends⟩⟩
    case neg =>
      refine .inr ?_
      obtain ⟨e, he⟩ : ∃ e, Go.parseJSONObject b label = .error e := error_of_not_ok fun o ho => by
        obtain ⟨ms, rest, hv, hr, _⟩ := (go_ok_iff hs).mp ho
        exact hg ⟨ms, rest, hv, hr⟩
      obtain ⟨e', he'⟩ : ∃ e', Ts.parseObject errors b = .error e' := error_of_not_ok fun v hv => by
        obtain ⟨ms, rest, hv, hr, _⟩ := (ts_ok_iff hd).mp hv
        exact hg ⟨ms, rest, hv, (h ms rest hv).1.mpr hr⟩
      exact ⟨e, e', he, he'⟩

-- The parsers agree on the bytes that are no text, and on exactly the uniform texts.
theorem agrees_iff_uniform (b : List UInt8) :
    Agrees b ↔ ∀ s, Bytes.toString? b = some s → Uniform s := by
  cases hs : Bytes.toString? b
  case none =>
    have go label : Go.parseJSONObject b label =
        .error (Go.tokenMalformed (label ++ " is not valid UTF-8")) := by
      rw [Go.parseJSONObject, hs]
    have ts errors : Ts.parseObject errors b = .error errors.text := by
      rw [Ts.parseObject, textDecode_of_none hs]
    exact iff_of_true (fun label errors => .inr ⟨_, _, go label, ts errors⟩) (by simp)
  case some s =>
    have hi : (∀ t, some s = some t → Uniform t) ↔ Uniform s := by simp
    rw [hi]
    by_cases hm : ∃ cs, s.toList = '\ufeff' :: cs
    case pos =>
      obtain ⟨cs, hm⟩ := hm
      rw [agrees_of_mark hs hm]
      refine ⟨fun h => ⟨fun cs' ms rest hc => ?_, fun ms rest hv => ?_⟩, fun h ms rest => h.marked cs ms rest hm⟩
      · cases hm.symm.trans hc
        exact h ms rest
      · rw [hm, value_mark] at hv
        contradiction
    case neg =>
      rw [agrees_of_no_mark hs fun cs hc => hm ⟨cs, hc⟩]
      exact ⟨fun h => ⟨fun cs _ _ hc => (hm ⟨cs, hc⟩).elim, h⟩, Uniform.unmarked⟩

-- A closing bracket behind the object is white space to one port.
theorem not_agrees : ¬∀ b, Agrees b := by
  intro h
  have hs := Bytes.toString?_ofString "{}]"
  have hd : Ts.textDecode (Bytes.ofString "{}]") = some "{}]".toList :=
    textDecode_of_no_mark hs (by simp)
  have go : Go.parseJSONObject (Bytes.ofString "{}]") "" = .ok [] := by
    rw [Go.parseJSONObject, hs]
    rfl
  have ts : ∃ e, Ts.parseObject (Ts.lic1Errors "") (Bytes.ofString "{}]") = .error e := by
    rw [Ts.parseObject, hd]
    exact ⟨_, rfl⟩
  obtain ⟨e, he⟩ := ts
  rcases h (Bytes.ofString "{}]") "" (Ts.lic1Errors "") with ⟨_, _, _, ht, _⟩ | ⟨_, _, hg, _⟩
  · rw [he] at ht
    contradiction
  · rw [go] at hg
    contradiction

end Licensing
