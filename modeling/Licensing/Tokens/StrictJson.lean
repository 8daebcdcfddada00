import Licensing.Tokens.Canonical
import Licensing.Tokens.DecodeStrict

-- The strict parsers that the codecs read headers, footers and payloads with.

namespace Licensing

open JsonText

namespace Go

def parseJSONObject (b : List UInt8) (label : String) : Except Error Map :=
  match Bytes.toString? b with
  | none   => .error (tokenMalformed (label ++ " is not valid UTF-8"))
  | some s => do
    let (v, dec) ← decodeStrictValue label (s.toList.length + 1) { input := s.toList }
    if dec.more then .error (tokenMalformed (label ++ " contains trailing data after JSON object"))
    else match v with
      | .map o => return o
      | _      => .error (tokenMalformed (label ++ " must decode to a JSON object"))

-- Whether something else follows.
def more (cs : List Char) : Bool :=
  ({ input := cs } : Decoder).more

-- What a JSON text is read as.
mutual

def ofRaw : Raw → Value
  | .null    => .nil
  | .bool b  => .bool b
  | .num lit => .number (.ofList lit)
  | .str ps  => .string (stringOf ps)
  | .arr xs  => .slice (ofElements xs)
  | .obj ms  => .map (ofMembers ms)

def ofElements : List Raw → List Value
  | []      => []
  | x :: xs => ofRaw x :: ofElements xs

def ofMembers : List (List Piece × Raw) → Map
  | []           => []
  | (k, v) :: ms => (stringOf k, ofRaw v) :: ofMembers ms

end

-- The names of the members are new.
def Fresh (o : Map) (ms : List (List Piece × Raw)) : Prop :=
  (∀ m ∈ ms, stringOf m.1 ∉ o.map Prod.fst) ∧ (ms.map fun m => stringOf m.1).Nodup

theorem fresh_cons (o : Map) (k : List Piece) (v : Raw) (w : Value) (ms : List (List Piece × Raw)) :
    Fresh o ((k, v) :: ms) ↔
      stringOf k ∉ o.map Prod.fst ∧ Fresh (o ++ [(stringOf k, w)]) ms := by
  simp only [Fresh, List.forall_mem_cons, List.map_cons, List.nodup_cons, List.map_append,
    List.mem_append, List.map_nil, List.mem_singleton, List.mem_map]
  grind

theorem settles_check (label : String) (key : List Piece) (o : Map) :
    Settles .canonicalJSONDuplicateKey (stringOf key ∉ o.map Prod.fst) ()
      ((strictReader label).check key o) := by
  have hl := isSome_lookup o (stringOf key)
  change Settles _ _ _ (if (o.lookup (stringOf key)).isSome then _ else _)
  split
  case isTrue h => exact ⟨fun hn => (hn (hl.mp h)).elim, fun _ => ⟨_, rfl, hasCode_newError _ _⟩⟩
  case isFalse h => exact .ok _ (h ∘ hl.mpr)

-- A text is rejected for a repeated name, and for nothing else.
mutual

theorem settles_interp (label : String) : (raw : Raw) →
    Settles .canonicalJSONDuplicateKey (raw.Distinct stringOf) (ofRaw raw)
      ((strictReader label).interp raw)
  | .null | .bool _ | .num _ | .str _ => .ok _ trivial
  | .arr xs => settles_elements label [] xs
  | .obj ms => (settles_members label [] ms).iff <| by
    rw [Raw.Distinct, Fresh]
    simp

theorem settles_elements (label : String) (vs : List Value) : (xs : List Raw) →
    Settles .canonicalJSONDuplicateKey (Raw.DistinctElements stringOf xs)
      (.slice (vs ++ ofElements xs)) ((strictReader label).interpElements vs xs)
  | []      => by
    rw [ofElements, List.append_nil]
    exact .ok _ trivial
  | x :: xs => by
    have h := settles_elements label (vs ++ [ofRaw x]) xs
    rw [List.append_assoc] at h
    exact (settles_interp label x).bind h

theorem settles_members (label : String) (o : Map) : (ms : List (List Piece × Raw)) →
    Settles .canonicalJSONDuplicateKey (Fresh o ms ∧ Raw.DistinctMembers stringOf ms)
      (.map (o ++ ofMembers ms)) ((strictReader label).interpMembers o ms)
  | []           => by
    rw [ofMembers, List.append_nil]
    exact .ok _ ⟨⟨by simp, by simp⟩, trivial⟩
  | (k, v) :: ms => by
    have h := settles_members label (o ++ [(stringOf k, ofRaw v)]) ms
    rw [List.append_assoc] at h
    refine ((settles_check label k o).bind <| (settles_interp label v).bind h).iff ?_
    rw [fresh_cons o k v (ofRaw v), Raw.DistinctMembers]
    tauto

end

section Decode

variable {cs rest : List Char} {raw : Raw} (label : String)

-- The token loop reads what the grammar has, and rejects what that has not.
theorem decode_of_value (hv : value (cs.length + 1) cs = some (raw, rest)) :
    decodeStrictValue label (cs.length + 1) { input := cs } =
      ((strictReader label).interp raw).map fun v => (v, { input := rest }) := by
  have hi := (strictReader label).read_interprets cs
  have reads := reads_first label cs
  rw [hv] at hi
  rw [show (strictReader label).read cs = _ from hi] at reads
  by_cases hd : raw.Distinct stringOf
  case pos =>
    rw [(settles_interp label raw).accepted hd] at reads ⊢
    generalize decodeStrictValue label (cs.length + 1) { input := cs } = y at reads ⊢
    cases reads
    rfl
  case neg =>
    obtain ⟨_, he, message, rfl⟩ := (settles_interp label raw).rejected hd
    rw [he] at reads ⊢
    generalize decodeStrictValue label (cs.length + 1) { input := cs } = y at reads ⊢
    cases reads
    rfl

theorem decode_of_none (hv : value (cs.length + 1) cs = none) :
    ∃ e, decodeStrictValue label (cs.length + 1) { input := cs } = .error e := by
  have hi := (strictReader label).read_interprets cs
  have reads := reads_first label cs
  rw [hv] at hi
  obtain ⟨e, he⟩ := hi
  rw [he] at reads
  generalize decodeStrictValue label (cs.length + 1) { input := cs } = y at reads ⊢
  cases reads
  case same      => exact ⟨_, rfl⟩
  case malformed => exact ⟨_, rfl⟩

end Decode

-- What follows the value is looked at after it.
theorem parse_of_value {b : List UInt8} {s : String} {raw : Raw} {rest : List Char} (label : String)
    (hs : Bytes.toString? b = some s)
    (hv : value (s.toList.length + 1) s.toList = some (raw, rest)) :
    parseJSONObject b label = (strictReader label).interp raw >>= fun v =>
      if more rest then
        .error (tokenMalformed (label ++ " contains trailing data after JSON object"))
      else match v with
        | .map o => return o
        | _      => .error (tokenMalformed (label ++ " must decode to a JSON object")) := by
  rw [parseJSONObject, hs]
  dsimp only
  rw [decode_of_value label hv]
  cases (strictReader label).interp raw <;> rfl

theorem parseJSONObject_duplicate {b : List UInt8} {s : String} {raw : Raw} {rest : List Char}
    (label : String) (hs : Bytes.toString? b = some s)
    (hv : value (s.toList.length + 1) s.toList = some (raw, rest)) (hd : ¬raw.Distinct stringOf) :
    ∃ e, parseJSONObject b label = .error e ∧ e.HasCode .canonicalJSONDuplicateKey := by
  have ⟨e, he, hc⟩ := (settles_interp label raw).rejected hd
  exact ⟨e, by rw [parse_of_value label hs hv, he]; rfl, hc⟩

theorem parseJSONObject_eq_ok_iff {b : List UInt8} {label : String} {o : Map} :
    parseJSONObject b label = .ok o ↔ ∃ s ms rest, Bytes.toString? b = some s ∧
      value (s.toList.length + 1) s.toList = some (.obj ms, rest) ∧
      (Raw.obj ms).Distinct stringOf ∧ more rest = false ∧ o = ofMembers ms := by
  refine ⟨fun h => ?_, ?_⟩
  case refine_1 =>
    cases hs : Bytes.toString? b
    case none =>
      rw [parseJSONObject, hs] at h
      contradiction
    case some s =>
      cases hv : value (s.toList.length + 1) s.toList
      case none =>
        obtain ⟨e, he⟩ := decode_of_none label hv
        rw [parseJSONObject, hs] at h
        dsimp only at h
        rw [he] at h
        contradiction
      case some x =>
        obtain ⟨raw, rest⟩ := x
        rw [parse_of_value label hs hv] at h
        by_cases hd : raw.Distinct stringOf
        case neg =>
          have ⟨e, he, _⟩ := (settles_interp label raw).rejected hd
          rw [he] at h
          contradiction
        case pos =>
          rw [(settles_interp label raw).accepted hd] at h
          cases hm : more rest
          case true =>
            simp only [hm] at h
            contradiction
          case false =>
            simp only [hm] at h
            cases raw
            case obj ms =>
              cases h
              exact ⟨s, ms, rest, rfl, hv, hd, hm, rfl⟩
            all_goals contradiction
  case refine_2 =>
    rintro ⟨s, ms, rest, hs, hv, hd, hm, rfl⟩
    rw [parse_of_value label hs hv, (settles_interp label _).accepted hd, hm]
    rfl

end Go

namespace Ts

def proto : JsString :=
  .ofString "__proto__"

-- The members of an object that is being read.
structure Members where
  own       : List (JsString × Value) := []
  prototype : Option Value := none

-- Whether the accessor `__proto__` is reached from the value. An object may have a property of that
-- name, or a prototype chain that does not end in the usual one.
def Value.hasAccessor : Value → Bool
  | .array _             => true
  | .object own none     => (own.lookup proto).isNone
  | .object own (some p) => (own.lookup proto).isNone && p.hasAccessor
  | _                    => false

def Members.hasAccessor (o : Members) : Bool :=
  match o.prototype with
  | none   => true
  | some p => p.hasAccessor

def Value.isObjectOrNull : Value → Bool
  | .object _ _ | .array _ | .null => true
  | _                              => false

-- `out[key] = value`. The accessor takes objects and `null`, and ignores everything else.
def Members.assign (key : JsString) (v : Value) (o : Members) : Members :=
  if key = proto ∧ o.hasAccessor then if v.isObjectOrNull then { o with prototype := some v } else o
  else { o with own := o.own ++ [(key, v)] }

inductive StrictJsonError
  | canonicalJSONDuplicateKey (key : JsString)
  | tokenMalformed

def strictReader : Reader Value Members StrictJsonError where
  null           := .null
  bool           := .boolean
  num lit        :=
    let x := Binary64.ofLiteral lit
    if x.isFinite then .ok (.number x) else .error .tokenMalformed
  str ps         := .string (units ps)
  arr            := .array
  obj o          := .object o.own o.prototype
  empty          := {}
  check key o    :=
    if (o.own.lookup (units key)).isSome then .error (.canonicalJSONDuplicateKey (units key)) else .ok ()
  assign key v o := o.assign (units key) v
  malformed      := .tokenMalformed

def strictParse (text : List Char) : Except StrictJsonError Value := do
  let (v, rest) ← strictReader.read text
  if skipSpace rest = [] then return v else .error .tokenMalformed

def byteOrderMark : List UInt8 :=
  [0xef, 0xbb, 0xbf]

-- `TextDecoder` drops a byte order mark.
def textDecode (b : List UInt8) : Option (List Char) :=
  (Bytes.toString? (if byteOrderMark <+: b then b.drop 3 else b)).map String.toList

-- The errors of a codec: of bytes that are no text, of a text that is no JSON, and of JSON that is no
-- object.
structure ObjectErrors where
  text   : Error
  strict : StrictJsonError → Error
  object : Error

def parseObject (e : ObjectErrors) (b : List UInt8) : Except Error Value :=
  match textDecode b with
  | none      => .error e.text
  | some text => do
    match ← (strictParse text).mapError e.strict with
    | .object own prototype => return .object own prototype
    | _                     => .error e.object

-- The position in the text is left out of the error.
def lic1Errors (label : String) : ObjectErrors where
  text   := tokenMalformed (label ++ " is not valid UTF-8")
  strict
    | .canonicalJSONDuplicateKey key => canonicalDuplicateKey key
    | .tokenMalformed                => tokenMalformed (label ++ " JSON parse failed")
  object := tokenMalformed (label ++ " must decode to a JSON object")

def parseJSONObject (b : List UInt8) (label : String) : Except Error Value :=
  parseObject (lic1Errors label) b

-- LIC2 passes the errors of `strictParse` on.
def lic2Errors (label : String) : ObjectErrors where
  text   := tokenMalformed ("LIC2 " ++ label ++ " is not valid UTF-8")
  strict
    | .canonicalJSONDuplicateKey key => .other ("contains duplicate key: " ++ key.toString)
    | .tokenMalformed                => .other "malformed JSON"
  object := tokenMalformed ("LIC2 " ++ label ++ " must be a JSON object")

def parseLIC2Object (b : List UInt8) (label : String) : Except Error Value :=
  parseObject (lic2Errors label) b

-- What a JSON text is read as, unless it is rejected.
mutual

def ofRaw : Raw → Value
  | .null    => .null
  | .bool b  => .boolean b
  | .num lit => .number (Binary64.ofLiteral lit)
  | .str ps  => .string (units ps)
  | .arr xs  => .array (ofElements xs)
  | .obj ms  => .object (ofMembers {} ms).own (ofMembers {} ms).prototype

def ofElements : List Raw → List Value
  | []      => []
  | x :: xs => ofRaw x :: ofElements xs

def ofMembers (o : Members) : List (List Piece × Raw) → Members
  | []           => o
  | (k, v) :: ms => ofMembers (o.assign (units k) (ofRaw v)) ms

end

-- A value that, as a prototype, hides the accessor `__proto__`: `null`, or an object whose own
-- prototype was set to such a value.
mutual

def detaches : Raw → Bool
  | .null   => true
  | .obj ms => detachesMembers ms
  | _       => false

def detachesMembers : List (List Piece × Raw) → Bool
  | []           => false
  | (k, v) :: ms => (units k = proto && detaches v) || detachesMembers ms

end

-- The first thing in a text that it is rejected for: a number beyond the largest double, or a name
-- that is repeated. A member `__proto__` has no name unless the accessor is hidden.
mutual

def firstFault : Raw → Option StrictJsonError
  | .num lit => if (Binary64.ofLiteral lit).isFinite then none else some .tokenMalformed
  | .arr xs  => elementsFault xs
  | .obj ms  => membersFault [] false ms
  | _        => none

def elementsFault : List Raw → Option StrictJsonError
  | []      => none
  | x :: xs => (firstFault x).or (elementsFault xs)

def membersFault (names : List JsString) (detached : Bool) :
    List (List Piece × Raw) → Option StrictJsonError
  | []           => none
  | (k, v) :: ms =>
    if units k ∈ names then some (.canonicalJSONDuplicateKey (units k))
    else (firstFault v).or <|
      if units k = proto ∧ ¬detached then membersFault names (detaches v) ms
      else membersFault (units k :: names) detached ms

end

-- The outcome of a reading that the first fault decides.
def outcome {α : Type} (fault : Option StrictJsonError) (a : α) : Except StrictJsonError α :=
  match fault with
  | none   => .ok a
  | some e => .error e

theorem outcome_or {α β : Type} {fault fault' : Option StrictJsonError} {a : α} {b : β}
    {f : α → Except StrictJsonError β} (h : f a = outcome fault' b) :
    (outcome fault a >>= f) = outcome (fault.or fault') b := by
  match fault with
  | none   => exact h
  | some _ => rfl

theorem outcome_map {α β : Type} (fault : Option StrictJsonError) (a : α) (f : α → β) :
    (outcome fault a).map f = outcome fault (f a) := by
  cases fault <;> rfl

theorem outcome_eq_ok_iff {α : Type} {fault : Option StrictJsonError} {a b : α} :
    outcome fault a = .ok b ↔ fault = none ∧ b = a := by
  cases fault <;> simp [outcome, eq_comm]

-- The members read so far, their names, and whether the accessor is hidden.
structure Tracks (o : Members) (names : List JsString) (detached : Bool) : Prop where
  mem_iff  : ∀ k, k ∈ names ↔ k ∈ o.own.map Prod.fst
  accessor : o.hasAccessor = !detached
  hidden   : proto ∈ names → detached

theorem Tracks.empty : Tracks {} [] false :=
  ⟨by simp, rfl, by simp⟩

namespace Tracks

variable {o : Members} {names : List JsString} {detached : Bool}

theorem check (h : Tracks o names detached) (k : List Piece) : strictReader.check k o =
    if units k ∈ names then .error (.canonicalJSONDuplicateKey (units k)) else .ok () := by
  have hk := isSome_lookup o.own (units k)
  change (if (o.own.lookup (units k)).isSome then _ else _) = _
  simp only [hk, h.mem_iff]

theorem hasAccessor (h : Tracks o names detached) :
    (Value.object o.own o.prototype).hasAccessor = !detached := by
  have ho : (Value.object o.own o.prototype).hasAccessor =
      ((o.own.lookup proto).isNone && o.hasAccessor) := by
    unfold Members.hasAccessor
    cases o.prototype <;> simp [Value.hasAccessor]
  rw [ho, h.accessor]
  cases detached
  case true => rw [Bool.not_true, Bool.and_false]
  case false =>
    have hn : ¬(o.own.lookup proto).isSome := fun hs => by
      have hp := h.hidden ((h.mem_iff proto).mpr ((isSome_lookup _ _).mp hs))
      contradiction
    rw [Bool.not_eq_true, Option.isSome_eq_false_iff] at hn
    rw [hn]
    rfl

theorem assign (h : Tracks o names detached) (k : JsString) {v : Value} {d : Bool}
    (hd : if v.isObjectOrNull then v.hasAccessor = !d else d = false) :
    if k = proto ∧ ¬detached then Tracks (o.assign k v) names d
    else Tracks (o.assign k v) (k :: names) detached := by
  have ha : o.hasAccessor ↔ ¬detached := by simp [h.accessor]
  unfold Members.assign
  split
  case isTrue hk =>
    have hk' : k = proto ∧ o.hasAccessor := ⟨hk.1, ha.mpr hk.2⟩
    have hn : proto ∉ names := fun hp => hk.2 (h.hidden hp)
    rw [if_pos hk']
    split
    case isTrue hv =>
      rw [if_pos hv] at hd
      exact ⟨h.mem_iff, hd, fun hp => (hn hp).elim⟩
    case isFalse hv =>
      rw [if_neg hv] at hd
      exact ⟨h.mem_iff, by rw [hk'.2, hd]; rfl, fun hp => (hn hp).elim⟩
  case isFalse hk =>
    rw [if_neg fun hk' => hk ⟨hk'.1, ha.mp hk'.2⟩]
    refine ⟨fun k' => ?_, h.accessor, fun hp => ?_⟩
    · rw [List.map_append, List.mem_append, List.mem_cons, h.mem_iff]
      simp [or_comm]
    · rcases List.mem_cons.mp hp with rfl | hp
      · simpa using hk
      · exact h.hidden hp

end Tracks

mutual

theorem hasAccessor_ofRaw : (raw : Raw) →
    if (ofRaw raw).isObjectOrNull then (ofRaw raw).hasAccessor = !detaches raw
    else detaches raw = false
  | .null | .bool _ | .num _ | .str _ | .arr _ => rfl
  | .obj ms =>
    have ⟨_, h⟩ := tracks_ofMembers .empty ms
    h.hasAccessor

theorem tracks_ofMembers {o : Members} {names : List JsString} {detached : Bool}
    (h : Tracks o names detached) : (ms : List (List Piece × Raw)) →
    ∃ names', Tracks (ofMembers o ms) names' (detached || detachesMembers ms)
  | []           => ⟨names, by simpa [ofMembers, detachesMembers] using h⟩
  | (k, v) :: ms => by
    have ha := h.assign (units k) (hasAccessor_ofRaw v)
    split at ha
    case isTrue hk =>
      have ⟨names', h'⟩ := tracks_ofMembers ha ms
      refine ⟨names', ?_⟩
      simpa [ofMembers, detachesMembers, hk.1, hk.2] using h'
    case isFalse hk =>
      have ⟨names', h'⟩ := tracks_ofMembers ha ms
      refine ⟨names', ?_⟩
      cases detached
      case true => simpa [ofMembers] using h'
      case false =>
        have hn : units k ≠ proto := fun hp => hk ⟨hp, by simp⟩
        simpa [ofMembers, detachesMembers, hn] using h'

end

mutual

theorem interp_eq : (raw : Raw) → strictReader.interp raw = outcome (firstFault raw) (ofRaw raw)
  | .null | .bool _ | .str _ => rfl
  | .num lit => by
    change (if (Binary64.ofLiteral lit).isFinite then _ else _) = _
    rw [firstFault]
    split <;> rfl
  | .arr xs => interpElements_eq [] xs
  | .obj ms => interpMembers_eq .empty ms

theorem interpElements_eq (vs : List Value) : (xs : List Raw) →
    strictReader.interpElements vs xs = outcome (elementsFault xs) (.array (vs ++ ofElements xs))
  | []      => by
    rw [ofElements, List.append_nil]
    rfl
  | x :: xs => by
    have h := interpElements_eq (vs ++ [ofRaw x]) xs
    rw [List.append_assoc] at h
    rw [Reader.interpElements, interp_eq x]
    exact outcome_or h

theorem interpMembers_eq {o : Members} {names : List JsString} {detached : Bool}
    (h : Tracks o names detached) : (ms : List (List Piece × Raw)) →
    strictReader.interpMembers o ms = outcome (membersFault names detached ms)
      (.object (ofMembers o ms).own (ofMembers o ms).prototype)
  | []           => rfl
  | (k, v) :: ms => by
    have ha := h.assign (units k) (hasAccessor_ofRaw v)
    rw [Reader.interpMembers, h.check k, membersFault]
    split
    case isTrue => rfl
    case isFalse =>
      rw [interp_eq v]
      refine outcome_or ?_
      split at ha
      case isTrue hk =>
        rw [if_pos hk]
        exact interpMembers_eq ha ms
      case isFalse hk =>
        rw [if_neg hk]
        exact interpMembers_eq ha ms

end

-- What follows the value is at fault if that is not.
theorem strictParse_of_value {cs rest : List Char} {raw : Raw}
    (h : value (cs.length + 1) cs = some (raw, rest)) : strictParse cs =
      outcome ((firstFault raw).or (if skipSpace rest = [] then none else some .tokenMalformed))
        (ofRaw raw) := by
  have hi := strictReader.read_interprets cs
  rw [h] at hi
  rw [strictParse, show strictReader.read cs = _ from hi, interp_eq, outcome_map]
  exact outcome_or (by dsimp only; split <;> rfl)

theorem strictParse_of_parse {cs : List Char} {raw : Raw} (h : parse cs = some raw) :
    strictParse cs = outcome (firstFault raw) (ofRaw raw) := by
  obtain ⟨rest, hv, hr⟩ := parse_eq_some_iff.mp h
  rw [strictParse_of_value hv, if_pos hr, Option.or_none]

theorem strictParse_eq_ok_iff {cs : List Char} {v : Value} :
    strictParse cs = .ok v ↔ ∃ raw, parse cs = some raw ∧ firstFault raw = none ∧ v = ofRaw raw := by
  refine ⟨fun h => ?_, ?_⟩
  case refine_1 =>
    cases hv : value (cs.length + 1) cs
    case none =>
      have hi := strictReader.read_interprets cs
      rw [hv] at hi
      obtain ⟨e, he⟩ := hi
      rw [strictParse, he] at h
      contradiction
    case some x =>
      obtain ⟨raw, rest⟩ := x
      rw [strictParse_of_value hv, outcome_eq_ok_iff, Option.or_eq_none_iff] at h
      obtain ⟨⟨hf, hr⟩, rfl⟩ := h
      have hr : skipSpace rest = [] := by simpa using hr
      exact ⟨raw, parse_eq_some_iff.mpr ⟨rest, hv, hr⟩, hf, rfl⟩
  case refine_2 =>
    rintro ⟨raw, hp, hf, rfl⟩
    rw [strictParse_of_parse hp, hf]
    rfl

theorem parseObject_eq_ok_iff {e : ObjectErrors} {b : List UInt8} {v : Value} :
    parseObject e b = .ok v ↔ ∃ cs ms, textDecode b = some cs ∧ parse cs = some (.obj ms) ∧
      firstFault (.obj ms) = none ∧ v = ofRaw (.obj ms) := by
  unfold parseObject
  cases textDecode b
  case none => simp
  case some cs =>
    change ((strictParse cs).mapError e.strict >>= _) = _ ↔ _
    cases h : strictParse cs
    case error e =>
      refine ⟨nofun, ?_⟩
      rintro ⟨_, ms, ⟨⟩, hp, hf, rfl⟩
      rw [strictParse_eq_ok_iff.mpr ⟨_, hp, hf, rfl⟩] at h
      contradiction
    case ok w =>
      obtain ⟨raw, hp, hf, rfl⟩ := strictParse_eq_ok_iff.mp h
      cases raw
      case obj ms =>
        refine ⟨?_, ?_⟩
        · rintro ⟨⟩
          exact ⟨cs, ms, rfl, hp, hf, rfl⟩
        · rintro ⟨_, ms', ⟨⟩, hp', _, rfl⟩
          cases hp.symm.trans hp'
          rfl
      all_goals
        refine ⟨nofun, ?_⟩
        rintro ⟨_, ms, ⟨⟩, hp', _⟩
        cases hp.symm.trans hp'

end Ts

end Licensing
