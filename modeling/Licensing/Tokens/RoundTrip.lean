import Licensing.Tokens.Image
import Licensing.Tokens.Parity
import Mathlib.Data.List.TakeWhile

-- Canonical JSON is read back by the strict parsers.

namespace Licensing

open JsonText

-- The literals of integers.

theorem digitsValue_natText (n : Nat) : Binary64.digitsValue (natText n) = n := by
  have h : Nat.ofDigitChars 10 (natText n) 0 = n := Nat.ofDigitChars_ten_toDigits
  rw [Nat.ofDigitChars_eq_foldl] at h
  simp only [Nat.mul_comm 10] at h
  exact h

theorem natText_eq_cons (n : Nat) : ∃ c cs, natText n = c :: cs ∧ c.isDigit := by
  rcases natText_cases n with ⟨_, hn⟩ | ⟨c, cs, hn, hc, _⟩
  · exact ⟨'0', [], hn, rfl⟩
  · exact ⟨c, cs, hn, hc⟩

theorem integer?_intText (n : Int) : integer? (intText n) = some n := by
  have hd m : natText m ≠ [] ∧ (natText m).all Char.isDigit := by
    have ⟨c, cs, hn, _⟩ := natText_eq_cons m
    exact ⟨by simp [hn], List.all_eq_true.mpr fun c hc => isDigit_natText c hc⟩
  match n with
  | .negSucc n =>
    have hv := digitsValue_natText (n + 1)
    simp only [integer?, intText]
    rw [if_pos (hd (n + 1)), hv]
    rfl
  | .ofNat n   =>
    have ⟨c, cs, hn, hc⟩ := natText_eq_cons n
    have hs : integer? (natText n) = some (Binary64.digitsValue (natText n)) := by
      have hd := hd n
      rw [hn] at hd ⊢
      unfold integer?
      split
      rename_i he
      split at he
      case h_1 h => cases h; simp at hc
      case h_2 h => cases h; simp at hc
      case h_3 => cases he; exact if_pos hd
    rw [intText, hs, digitsValue_natText]
    rfl

-- Digits have neither a fraction nor an exponent.
theorem read_natText {lit : List Char} {m : Nat}
    (h : (if lit.head? = some '-' then lit.tail else lit) = natText m) :
    Binary64.Literal.read lit = ⟨lit.head? = some '-', m, 0⟩ := by
  have hd : ∀ c ∈ natText m, c.isDigit := isDigit_natText
  have hi : (natText m).takeWhile Char.isDigit = natText m := List.takeWhile_eq_self_iff.mpr hd
  have hr : (natText m).dropWhile Char.isDigit = [] := List.dropWhile_eq_nil_iff.mpr hd
  have he : (natText m).dropWhile (fun c => c ≠ 'e' ∧ c ≠ 'E') = [] := by
    refine List.dropWhile_eq_nil_iff.mpr fun c hc => decide_eq_true ⟨?_, ?_⟩
    all_goals
      rintro rfl
      have := hd _ hc
      contradiction
  simp only [Binary64.Literal.read, h, hi, hr, he]
  simp [digitsValue_natText, Binary64.exponentValue, Binary64.digitsValue.eq_1 []]

theorem read_intText (n : Int) :
    Binary64.Literal.read (intText n) = ⟨n < 0, n.natAbs, 0⟩ := by
  cases n
  case negSucc n =>
    rw [intText, read_natText (m := n + 1) (by simp)]
    simp [Int.negSucc_lt_zero]
  case ofNat n =>
    obtain ⟨c, cs, hn, hc⟩ := natText_eq_cons n
    have hh : (natText n).head? ≠ some '-' := by
      rw [hn]
      rintro ⟨⟩
      simp at hc
    rw [intText, read_natText (m := n) (by rw [if_neg hh])]
    simp [hh]

theorem ofLiteral_intText {n : Int} (h : n.natAbs < 2 ^ 53) :
    Binary64.ofLiteral (intText n) = .finite (n < 0) (n.natAbs * Binary64.one) := by
  rw [Binary64.ofLiteral, read_intText, Binary64.Literal.toBinary64]
  simp only [le_refl, if_true, Int.toNat_zero, Nat.pow_zero, Nat.mul_one]
  exact Binary64.rounded_of_lt _ h

theorem toInt?_ofLiteral_intText {n : Int} (h : n.natAbs < 2 ^ 53) :
    (Binary64.ofLiteral (intText n)).toInt? = some n := by
  have hz : decide (n < 0) → n.natAbs ≠ 0 := fun hn => by
    have := of_decide_eq_true hn
    omega
  rw [ofLiteral_intText h, Binary64.toInt?_finite hz]
  by_cases hn : n < 0
  case pos =>
    have ha : -(n.natAbs : Int) = n := by omega
    rw [decide_eq_true hn, Binary64.scaled, ha]
  case neg =>
    have ha : (n.natAbs : Int) = n := by omega
    rw [decide_eq_false hn, Binary64.scaled, ha]

-- The strings of a canonical text.

theorem stringOf_map (s : List Char) :
    Go.stringOf (s.map Escape.short.piece) = Bytes.ofString (.ofList s) := by
  rw [Go.stringOf, Escape.text_map]

theorem units_piece (c : Char) : (Escape.short.piece c).units = unitsOfChar c := by
  change (Escape.piece' (fun _ => false) c).units = _
  unfold Escape.piece'
  split
  case h_1 => rfl
  case h_2 =>
    split
    case isFalse => rfl
    case isTrue hc =>
      have hl : c.toNat < 0x10000 := by
        simp only [Bool.false_eq_true, or_false] at hc
        omega
      rw [unitsOfChar, if_pos hl]
      rfl

theorem units_map (s : List Char) : units (s.map Escape.short.piece) = utf16 s := by
  induction s
  case nil => rfl
  case cons c s ih =>
    rw [units] at ih
    rw [units, List.map_cons, List.flatMap_cons, units_piece, ih, utf16, utf16, List.flatMap_cons]

theorem rawMembers_eq (ms : List (List Char × Data)) :
    Data.rawMembers ms = ms.map fun m => (m.1.map Escape.short.piece, m.2.raw) := by
  induction ms
  case nil => rfl
  case cons m ms ih => rw [Data.rawMembers, ih]; rfl

-- The names are distinct in whatever way they are compared.
section

variable {α : Type} {name : List Piece → α}

mutual

theorem distinct_raw (hn : Function.Injective fun s : List Char => name (s.map Escape.short.piece)) :
    (d : Data) → d.Distinct → d.raw.Distinct name
  | .null, _ | .bool _, _ | .int _, _ | .str _, _ => trivial
  | .arr xs, h => distinct_rawElements hn xs h
  | .obj ms, h => by
    refine ⟨?_, distinct_rawMembers hn ms h.2⟩
    have hm : (Data.rawMembers ms).map (fun m => name m.1) =
        (ms.map Prod.fst).map fun s => name (s.map Escape.short.piece) := by
      rw [rawMembers_eq, List.map_map, List.map_map]
      rfl
    rw [hm]
    exact h.1.map hn

theorem distinct_rawElements
    (hn : Function.Injective fun s : List Char => name (s.map Escape.short.piece)) :
    (xs : List Data) → Data.DistinctElements xs → Raw.DistinctElements name (Data.rawElements xs)
  | [], _      => trivial
  | x :: xs, h => ⟨distinct_raw hn x h.1, distinct_rawElements hn xs h.2⟩

theorem distinct_rawMembers
    (hn : Function.Injective fun s : List Char => name (s.map Escape.short.piece)) :
    (ms : List (List Char × Data)) → Data.DistinctMembers ms →
    Raw.DistinctMembers name (Data.rawMembers ms)
  | [], _           => trivial
  | (_, v) :: ms, h => ⟨distinct_raw hn v h.1, distinct_rawMembers hn ms h.2⟩

end

end

theorem stringOf_map_injective :
    Function.Injective fun s : List Char => Go.stringOf (s.map Escape.short.piece) := by
  intro s t h
  simp only [stringOf_map] at h
  exact String.ofList_injective (Bytes.ofString_injective h)

theorem units_map_injective :
    Function.Injective fun s : List Char => units (s.map Escape.short.piece) := by
  intro s t h
  simp only [units_map] at h
  exact utf16_injective h

namespace Go

mutual

theorem data?_ofRaw : (d : Data) → (ofRaw d.raw).data? = some d
  | .null | .bool _ => rfl
  | .int n => by
    simp only [Data.raw, ofRaw, Value.data?, String.toList_ofList, integer?_intText, Option.map_some]
  | .str s => by
    simp only [Data.raw, ofRaw, Value.data?, stringOf_map, Bytes.toString?_ofString, Option.map_some,
      String.toList_ofList]
  | .arr xs => by
    rw [Data.raw, ofRaw, Value.data?, elements?_ofElements xs, Option.map_some]
  | .obj ms => by
    rw [Data.raw, ofRaw, Value.data?, members?_ofMembers ms, Option.map_some]

theorem elements?_ofElements : (xs : List Data) →
    Value.elements? (ofElements (Data.rawElements xs)) = some xs
  | []      => rfl
  | x :: xs => by
    rw [Data.rawElements, ofElements, Value.elements?, data?_ofRaw x, elements?_ofElements xs]
    rfl

theorem members?_ofMembers : (ms : List (List Char × Data)) →
    Value.members? (ofMembers (Data.rawMembers ms)) = some ms
  | []           => rfl
  | (k, v) :: ms => by
    rw [Data.rawMembers, ofMembers, Value.members?, stringOf_map, Bytes.toString?_ofString,
      data?_ofRaw v, members?_ofMembers ms]
    simp

end

end Go

-- Different values have different texts.
theorem raw_injective : Function.Injective Data.raw := by
  intro d e h
  have hd := Go.data?_ofRaw d
  rw [h, Go.data?_ofRaw e] at hd
  exact (Option.some.inj hd).symm

theorem parse_text (d : Data) : value (d.text.length + 1) d.text = some (d.raw, []) := by
  have h := d.value_text (Nat.lt_succ_self _) .nil
  rwa [List.append_nil] at h

theorem text_injective : Function.Injective Data.text := by
  intro d e h
  have hd := parse_text d
  rw [h, parse_text e] at hd
  simp only [Option.some.injEq, Prod.mk.injEq, and_true] at hd
  exact (raw_injective hd).symm

theorem bytesOf_injective : Function.Injective bytesOf := fun _ _ h =>
  String.ofList_injective (Bytes.ofString_injective h)

namespace Ts

-- No object has a member of the name.
mutual

def Value.Avoids (key : JsString) : Value → Prop
  | .array xs     => Value.AvoidElements key xs
  | .object own _ => Value.AvoidMembers key own
  | _             => True

def Value.AvoidElements (key : JsString) : List Value → Prop
  | []      => True
  | x :: xs => x.Avoids key ∧ Value.AvoidElements key xs

def Value.AvoidMembers (key : JsString) : List (JsString × Value) → Prop
  | []           => True
  | (k, v) :: ms => (k ≠ key ∧ v.Avoids key) ∧ Value.AvoidMembers key ms

end

theorem Value.avoidMembers_iff (key : JsString) (ms : List (JsString × Value)) :
    AvoidMembers key ms ↔ ∀ m ∈ ms, m.1 ≠ key ∧ m.2.Avoids key := by
  induction ms
  case nil => simp [AvoidMembers]
  case cons m ms ih => simp [AvoidMembers, ih]

mutual

theorem avoids_data? (name : List Char) : (v : Value) → {d : Data} → v.data? = some d →
    (v.Avoids (utf16 name) ↔ d.Avoids name)
  | .null, d, h | .boolean _, d, h | .bigint _, d, h => by
    cases h
    exact .rfl
  | .number x, d, h => by
    obtain ⟨n, _, rfl⟩ := Option.map_eq_some_iff.mp h
    exact .rfl
  | .string s, d, h => by
    obtain ⟨cs, _, rfl⟩ := Option.map_eq_some_iff.mp h
    exact .rfl
  | .array xs, d, h => by
    obtain ⟨ds, hs, rfl⟩ := Option.map_eq_some_iff.mp h
    exact avoids_elements? name xs hs
  | .object own none, d, h | .object own (some .null), d, h => by
    obtain ⟨ds, hs, rfl⟩ := Option.map_eq_some_iff.mp h
    exact avoids_members? name own hs

theorem avoids_elements? (name : List Char) : (xs : List Value) → {ds : List Data} →
    Value.elements? xs = some ds → (Value.AvoidElements (utf16 name) xs ↔ Data.AvoidElements name ds)
  | [], ds, h => by
    cases h
    exact .rfl
  | x :: xs, ds, h => by
    obtain ⟨d, hx, h⟩ := Option.bind_eq_some_iff.mp h
    obtain ⟨ds', hxs, h⟩ := Option.bind_eq_some_iff.mp h
    cases h
    exact and_congr (avoids_data? name x hx) (avoids_elements? name xs hxs)

theorem avoids_members? (name : List Char) : (ms : List (JsString × Value)) →
    {ds : List (List Char × Data)} → Value.members? ms = some ds →
    (Value.AvoidMembers (utf16 name) ms ↔ Data.AvoidMembers name ds)
  | [], ds, h => by
    cases h
    exact .rfl
  | (k, v) :: ms, ds, h => by
    obtain ⟨s, hk, h⟩ := Option.bind_eq_some_iff.mp h
    obtain ⟨d, hv, h⟩ := Option.bind_eq_some_iff.mp h
    obtain ⟨ds', hms, h⟩ := Option.bind_eq_some_iff.mp h
    cases h
    have hn : k ≠ utf16 name ↔ s ≠ name := by
      rw [eq_utf16_of_chars? hk, utf16_injective.ne_iff]
    exact and_congr (and_congr hn (avoids_data? name v hv)) (avoids_members? name ms hms)

end

-- A member that is called `__proto__` is not read as one, since its name is not repeated.
mutual

theorem avoids_ofRaw : (raw : Raw) → raw.Distinct units → (ofRaw raw).Avoids proto
  | .null, _ | .bool _, _ | .num _, _ | .str _, _ => trivial
  | .arr xs, h => avoids_ofElements xs h
  | .obj _, h => avoids_ofMembers (o := {}) trivial (.inl rfl) h.1 h.2

theorem avoids_ofElements : (xs : List Raw) → Raw.DistinctElements units xs →
    Value.AvoidElements proto (ofElements xs)
  | [], _      => trivial
  | x :: xs, h => ⟨avoids_ofRaw x h.1, avoids_ofElements xs h.2⟩

theorem avoids_ofMembers {o : Members} (ho : Value.AvoidMembers proto o.own) :
    {ms : List (List Piece × Raw)} → (o.hasAccessor ∨ ∀ m ∈ ms, units m.1 ≠ proto) →
    (ms.map fun m => units m.1).Nodup → Raw.DistinctMembers units ms →
    Value.AvoidMembers proto (ofMembers o ms).own
  | [], _, _, _            => ho
  | (k, v) :: ms, ha, hn, hd => by
    rw [List.map_cons, List.nodup_cons] at hn
    rw [List.forall_mem_cons] at ha
    rw [ofMembers]
    by_cases hk : units k = proto
    case pos =>
      have ho' : Value.AvoidMembers proto (o.assign (units k) (ofRaw v)).own := by
        rw [Members.assign, if_pos ⟨hk, ha.resolve_right fun h => h.1 hk⟩]
        split <;> exact ho
      refine avoids_ofMembers ho' (.inr fun m hm hu => hn.1 ?_) hn.2 hd.2
      exact List.mem_map.mpr ⟨m, hm, hu.trans hk.symm⟩
    case neg =>
      have he : o.assign (units k) (ofRaw v) = { o with own := o.own ++ [(units k, ofRaw v)] } :=
        if_neg fun hp => hk hp.1
      have ho' : Value.AvoidMembers proto (o.own ++ [(units k, ofRaw v)]) := by
        rw [Value.avoidMembers_iff] at ho ⊢
        simpa [or_imp, forall_and, hk, avoids_ofRaw v hd.1] using ho
      rw [he]
      exact avoids_ofMembers ho' (ha.imp_right And.right) hn.2 hd.2

end

theorem proto_eq : proto = utf16 "__proto__".toList :=
  rfl

mutual

theorem data?_ofRaw : (d : Data) → d.Safe → d.Avoids "__proto__".toList →
    (ofRaw d.raw).data? = some d
  | .null, _, _ | .bool _, _, _ => rfl
  | .int n, hs, _ => by
    rw [Data.raw, ofRaw, Value.data?, toInt?_ofLiteral_intText hs, Option.map_some]
  | .str s, _, _ => by
    rw [Data.raw, ofRaw, Value.data?, Value.chars?, units_map, if_pos (paired_utf16 s),
      textOfUnits_utf16, Option.map_some]
  | .arr xs, hs, ha => by
    rw [Data.raw, ofRaw, Value.data?, elements?_ofElements xs hs ha, Option.map_some]
  | .obj ms, hs, ha => by
    have hp : ∀ m ∈ Data.rawMembers ms, units m.1 ≠ proto := by
      rw [rawMembers_eq, List.forall_mem_map]
      intro m hm
      rw [units_map, proto_eq, utf16_injective.ne_iff]
      exact ((Data.avoidMembers_iff _ ms).mp ha m hm).1
    rw [Data.raw, ofRaw_obj_of_plain hp, Value.data?, members?_ofMembers ms hs ha, Option.map_some]

theorem elements?_ofElements : (xs : List Data) → Data.SafeElements xs →
    Data.AvoidElements "__proto__".toList xs →
    Value.elements? (ofElements (Data.rawElements xs)) = some xs
  | [], _, _       => rfl
  | x :: xs, hs, ha => by
    rw [Data.rawElements, ofElements, Value.elements?, data?_ofRaw x hs.1 ha.1,
      elements?_ofElements xs hs.2 ha.2]
    rfl

theorem members?_ofMembers : (ms : List (List Char × Data)) → Data.SafeMembers ms →
    Data.AvoidMembers "__proto__".toList ms →
    Value.members? ((Data.rawMembers ms).map fun m => (units m.1, ofRaw m.2)) = some ms
  | [], _, _            => rfl
  | (k, v) :: ms, hs, ha => by
    rw [Data.rawMembers, List.map_cons, Value.members?, Value.chars?, units_map,
      if_pos (paired_utf16 k), textOfUnits_utf16, data?_ofRaw v hs.1 ha.1.2,
      members?_ofMembers ms hs.2 ha.2]
    rfl

end

mutual

theorem firstFault_raw : (d : Data) → d.Safe → d.Distinct → d.Avoids "__proto__".toList →
    firstFault d.raw = none
  | .null, _, _, _ | .bool _, _, _, _ | .str _, _, _, _ => rfl
  | .int n, hs, _, _ => by
    rw [Data.raw, firstFault, ofLiteral_intText hs]
    rfl
  | .arr xs, hs, hd, ha => elementsFault_raw xs hs hd ha
  | .obj ms, hs, hd, ha => membersFault_raw (by simp) hs hd.1 hd.2 ha

theorem elementsFault_raw : (xs : List Data) → Data.SafeElements xs → Data.DistinctElements xs →
    Data.AvoidElements "__proto__".toList xs → elementsFault (Data.rawElements xs) = none
  | [], _, _, _           => rfl
  | x :: xs, hs, hd, ha => by
    rw [Data.rawElements, elementsFault, firstFault_raw x hs.1 hd.1 ha.1,
      elementsFault_raw xs hs.2 hd.2 ha.2]
    rfl

theorem membersFault_raw {names : List JsString} : {ms : List (List Char × Data)} →
    (∀ m ∈ ms, utf16 m.1 ∉ names) → Data.SafeMembers ms → (ms.map Prod.fst).Nodup →
    Data.DistinctMembers ms → Data.AvoidMembers "__proto__".toList ms →
    membersFault names false (Data.rawMembers ms) = none
  | [], _, _, _, _, _                 => rfl
  | (k, v) :: ms, hf, hs, hn, hd, ha => by
    rw [List.forall_mem_cons] at hf
    rw [List.map_cons, List.nodup_cons] at hn
    have hk : ¬(utf16 k = proto ∧ ¬false = true) := fun h => ha.1.1 (utf16_injective h.1)
    have hf' : ∀ m ∈ ms, utf16 m.1 ∉ utf16 k :: names := by
      intro m hm hu
      rcases List.mem_cons.mp hu with hu | hu
      · exact hn.1 (List.mem_map.mpr ⟨m, hm, utf16_injective hu⟩)
      · exact hf.2 m hm hu
    rw [Data.rawMembers, membersFault, units_map, if_neg hf.1, firstFault_raw v hs.1 hd.1 ha.1.2,
      if_neg hk, membersFault_raw hf' hs.2 hn.2 hd.2 ha.2]
    rfl

end

end Ts

namespace Encodes

variable {d : Data} {b : List UInt8}

theorem normal_eq (h : Encodes d b) : ∃ ms, d.normal = .obj ms :=
  Data.eq_obj_of_isObject <| (Data.isObject_normal d).trans h.object

theorem toString? (h : Encodes d b) : Bytes.toString? b = some (.ofList d.normal.text) := by
  rw [h.bytes]
  exact Bytes.toString?_ofString _

theorem ne_nil (h : Encodes d b) : b ≠ [] := by
  obtain ⟨ms, hms⟩ := h.normal_eq
  intro hb
  have ht : bytesOf d.normal.text = bytesOf [] := h.bytes.symm.trans hb
  rw [hms, Data.text] at ht
  exact List.cons_ne_nil _ _ (bytesOf_injective ht)

-- Values with the same bytes are the same.
theorem same {e : Data} (hd : Encodes d b) (he : Encodes e b) : d.Same e :=
  text_injective <| bytesOf_injective <| hd.bytes.symm.trans he.bytes

theorem canonicalize_eq {x : Except Error (List UInt8)} (h : Encodes d b)
    (hx : Canonical d.normal x) : x = .ok b := by
  have hw := hx.object ((Data.isObject_normal d).trans h.object)
  rw [hw.accepted ((Data.safe_normal d).mpr h.safe), Data.normal_normal, h.bytes]

theorem go_parse_eq (h : Encodes d b) {ms : List (List Char × Data)} (hms : d.normal = .obj ms)
    (label : String) : Go.parseJSONObject b label = .ok (Go.ofMembers (Data.rawMembers ms)) := by
  have hv := parse_text d.normal
  have hd := distinct_raw stringOf_map_injective d.normal ((Data.distinct_normal d).mpr h.distinct)
  rw [hms] at hv hd
  refine Go.parseJSONObject_eq_ok_iff.mpr ⟨_, Data.rawMembers ms, [], h.toString?, ?_, hd, rfl, rfl⟩
  rw [String.toList_ofList, hms]
  exact hv

theorem go_parse (h : Encodes d b) (label : String) :
    ∃ o, Go.parseJSONObject b label = .ok o ∧ (Go.Value.map o).data? = some d.normal := by
  obtain ⟨ms, hms⟩ := h.normal_eq
  have ho := Go.data?_ofRaw d.normal
  rw [hms] at ho
  exact ⟨_, h.go_parse_eq hms label, hms ▸ ho⟩

theorem ts_textDecode (h : Encodes d b) : Ts.textDecode b = some d.normal.text := by
  obtain ⟨ms, hms⟩ := h.normal_eq
  rw [textDecode_of_no_mark h.toString?, String.toList_ofList]
  intro cs hc
  rw [String.toList_ofList, hms, Data.text] at hc
  simp at hc

theorem ts_parse (h : Encodes d b) (errors : Ts.ObjectErrors) {w : Ts.Value} :
    Ts.parseObject errors b = .ok w ↔
      Ts.firstFault d.normal.raw = none ∧ w = Ts.ofRaw d.normal.raw := by
  obtain ⟨ms, hms⟩ := h.normal_eq
  have hp : parse d.normal.text = some d.normal.raw :=
    parse_eq_some_iff.mpr ⟨[], parse_text d.normal, rfl⟩
  rw [Ts.parseObject_eq_ok_iff]
  refine ⟨?_, ?_⟩
  · rintro ⟨cs, ms', hd, hp', hf, rfl⟩
    cases h.ts_textDecode.symm.trans hd
    rw [Option.some.inj (hp.symm.trans hp')]
    exact ⟨hf, rfl⟩
  · rintro ⟨hf, rfl⟩
    rw [hms] at hp hf ⊢
    exact ⟨_, Data.rawMembers ms, h.ts_textDecode.trans (by rw [hms]), hp, hf, rfl⟩

-- The object that is read has the members of the one that was written, unless a member `__proto__`
-- got lost.
theorem ts_parse_iff (h : Encodes d b) (errors : Ts.ObjectErrors) :
    (∃ w, Ts.parseObject errors b = .ok w ∧ w.data? = some d.normal) ↔
      d.Avoids "__proto__".toList := by
  have hs := (Data.safe_normal d).mpr h.safe
  have hd := (Data.distinct_normal d).mpr h.distinct
  rw [← Data.avoids_normal]
  refine ⟨?_, fun ha => ?_⟩
  · rintro ⟨w, hw, hn⟩
    obtain ⟨_, rfl⟩ := (h.ts_parse errors).mp hw
    have ha := Ts.avoids_ofRaw d.normal.raw (distinct_raw units_map_injective d.normal hd)
    exact (Ts.avoids_data? _ _ hn).mp ha
  · exact ⟨_, (h.ts_parse errors).mpr ⟨Ts.firstFault_raw _ hs hd ha, rfl⟩, Ts.data?_ofRaw _ hs ha⟩

end Encodes

-- The value is read from its bytes again, and the bytes are written from what is read.
def Go.ReadsBack (v : Value) (b : List UInt8) : Prop :=
  ∀ label, ∃ o, parseJSONObject b label = .ok o ∧ canonicalize (.map o) = .ok b ∧
    ∃ d, v.Denotes d ∧ (Value.map o).Denotes d

def Ts.ReadsBack (v : Value) (b : List UInt8) : Prop :=
  ∀ errors, ∃ w, parseObject errors b = .ok w ∧ canonicalize w = .ok b ∧
    ∃ d, v.Denotes d ∧ w.Denotes d

theorem Go.readsBack {v : Value} {b : List UInt8} (hv : v.IsValue) (h : canonicalize v = .ok b) :
    ReadsBack v b := by
  obtain ⟨d, hd, he⟩ := encodes_of_ok hv h
  intro label
  obtain ⟨o, ho, hn⟩ := he.go_parse label
  exact ⟨o, ho, he.canonicalize_eq (canonical hn), d, ⟨d, hd, rfl⟩, _, hn, Data.normal_normal d⟩

theorem Ts.yields_iff {v : Value} {b : List UInt8} (hv : v.IsValue) (h : canonicalize v = .ok b)
    (errors : ObjectErrors) :
    (∃ w, parseObject errors b = .ok w ∧ ∃ d, v.Denotes d ∧ w.Denotes d) ↔ v.Avoids proto := by
  obtain ⟨d, hd, he⟩ := encodes_of_ok hv h
  rw [proto_eq, avoids_data? _ v hd]
  refine ⟨?_, fun ha => ?_⟩
  · rintro ⟨w, hw, d', ⟨d₁, h₁, s₁⟩, d₂, h₂, s₂⟩
    cases hd.symm.trans h₁
    obtain ⟨_, rfl⟩ := (he.ts_parse _).mp hw
    have hn := (Data.distinct_normal d).mpr he.distinct
    have ha := avoids_ofRaw d.normal.raw (distinct_raw units_map_injective d.normal hn)
    have hs : d.Same d₂ := s₁.trans s₂.symm
    rw [hs.avoids_iff]
    exact (avoids_data? _ _ h₂).mp ha
  · obtain ⟨w, hw, hn⟩ := (he.ts_parse_iff errors).mpr ha
    exact ⟨w, hw, d, ⟨d, hd, rfl⟩, _, hn, Data.normal_normal d⟩

theorem Ts.readsBack_iff {v : Value} {b : List UInt8} (hv : v.IsValue) (h : canonicalize v = .ok b) :
    ReadsBack v b ↔ v.Avoids proto := by
  refine ⟨fun hr => ?_, fun ha errors => ?_⟩
  · obtain ⟨w, hw, _, hs⟩ := hr (lic1Errors "")
    exact (yields_iff hv h _).mp ⟨w, hw, hs⟩
  · obtain ⟨d, hd, he⟩ := encodes_of_ok hv h
    rw [proto_eq, avoids_data? _ v hd] at ha
    obtain ⟨w, hw, hn⟩ := (he.ts_parse_iff errors).mpr ha
    have hc := canonical hn ((Data.distinct_normal d).mpr he.distinct)
    exact ⟨w, hw, he.canonicalize_eq hc, d, ⟨d, hd, rfl⟩, _, hn, Data.normal_normal d⟩

theorem Go.denotes_of_bytes {v w : Value} {b : List UInt8} (hv : v.IsValue) (hw : w.IsValue)
    (h : canonicalize v = .ok b) (h' : canonicalize w = .ok b) : ∃ d, v.Denotes d ∧ w.Denotes d := by
  obtain ⟨d, hd, he⟩ := encodes_of_ok hv h
  obtain ⟨d', hd', he'⟩ := encodes_of_ok hw h'
  exact ⟨d, ⟨d, hd, rfl⟩, ⟨d', hd', he'.same he⟩⟩

theorem Ts.denotes_of_bytes {v w : Value} {b : List UInt8} (hv : v.IsValue) (hw : w.IsValue)
    (h : canonicalize v = .ok b) (h' : canonicalize w = .ok b) : ∃ d, v.Denotes d ∧ w.Denotes d := by
  obtain ⟨d, hd, he⟩ := encodes_of_ok hv h
  obtain ⟨d', hd', he'⟩ := encodes_of_ok hw h'
  exact ⟨d, ⟨d, hd, rfl⟩, ⟨d', hd', he'.same he⟩⟩

-- Bytes stand for one value. Every value is read back by the Go port, and by the other one if it has
-- no member `__proto__`.
theorem readsBack_iff_avoids_proto (b : List UInt8) :
    (∀ v, v.IsValue → Go.canonicalize v = .ok b → Go.ReadsBack v b) ∧
    (∀ v, v.IsValue → Ts.canonicalize v = .ok b → (Ts.ReadsBack v b ↔ v.Avoids Ts.proto)) ∧
    (∀ v w, v.IsValue → w.IsValue → Go.canonicalize v = .ok b → Go.canonicalize w = .ok b →
      ∃ d, v.Denotes d ∧ w.Denotes d) ∧
    (∀ v w, v.IsValue → w.IsValue → Ts.canonicalize v = .ok b → Ts.canonicalize w = .ok b →
      ∃ d, v.Denotes d ∧ w.Denotes d) :=
  ⟨fun _ => Go.readsBack, fun _ => Ts.readsBack_iff, fun _ _ => Go.denotes_of_bytes,
    fun _ _ => Ts.denotes_of_bytes⟩

theorem readsBack_iff_avoids_proto_license :
    Ts.ReadsBack (.object [(.ofString "lic", .string (.ofString "1"))] none)
      (bytesOf (Data.obj [("lic".toList, .str "1".toList)]).normal.text) := by
  let v : Ts.Value := .object [(.ofString "lic", .string (.ofString "1"))] none
  have hd : v.data? = some (.obj [("lic".toList, .str "1".toList)]) := rfl
  have hn : Data.Distinct (.obj [("lic".toList, .str "1".toList)]) := ⟨by simp, trivial, trivial⟩
  have hw := (Ts.canonical hd hn).object rfl
  exact ((readsBack_iff_avoids_proto _).2.1 v ⟨by simp, trivial, trivial⟩
    (hw.accepted ⟨trivial, trivial⟩)).mpr ⟨⟨by decide, trivial⟩, trivial⟩

theorem not_readsBack :
    ¬∀ v b, v.IsValue → Ts.canonicalize v = .ok b → Ts.ReadsBack v b := by
  intro h
  let v : Ts.Value := .object [(Ts.proto, .null)] none
  have hd : v.data? = some (.obj [("__proto__".toList, .null)]) := rfl
  have hn : Data.Distinct (.obj [("__proto__".toList, .null)]) := ⟨by simp, trivial, trivial⟩
  have hw := (Ts.canonical hd hn).object rfl
  have hv : v.IsValue := ⟨by simp, trivial, trivial⟩
  have hr := h v _ hv (hw.accepted ⟨trivial, trivial⟩)
  have ha := (Ts.readsBack_iff hv (hw.accepted ⟨trivial, trivial⟩)).mp hr
  exact ha.1.1 rfl

end Licensing
