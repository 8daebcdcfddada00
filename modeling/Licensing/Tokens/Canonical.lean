import Licensing.Library.Utf8
import Licensing.Model.Errors
import Licensing.Tokens.Values

-- The canonical JSON of the ports, which signatures are computed over.

namespace Licensing

open JsonText

def maxSafeInteger : Int := 2 ^ 53 - 1

def minSafeInteger : Int := -(2 ^ 53 - 1)

def canonicalInvalidTopLevel (message : String) : Error :=
  newError .canonicalJSONInvalidTopLevel message

def canonicalInvalidNumber (message : String) : Error :=
  newError .canonicalJSONInvalidNumber message

def canonicalInvalidUTF8 (message : String) : Error :=
  newError .canonicalJSONInvalidUTF8 message

def canonicalInvalidType (message : String) : Error :=
  newError .canonicalJSONInvalidType message

namespace Go

-- `json.Number.Int64`
def int64? (lit : String) : Option Int :=
  (integer? lit.toList).filter fun i => -2 ^ 63 ≤ i ∧ i < 2 ^ 63

def isASCII (s : GoString) : Bool :=
  s.all (·.toNat < 0x80)

-- Bytes are compared instead of code units if they are the same.
def compareUTF16 (a b : GoString) : Ordering :=
  if isASCII a ∧ isASCII b then lexicographic (a.map UInt8.toNat) (b.map UInt8.toNat)
  else lexicographic ((utf16 (Utf8.decodeBytes a)).map UInt16.toNat)
    ((utf16 (Utf8.decodeBytes b)).map UInt16.toNat)

def writeInt64 (n : Int) : Except Error (List Char) :=
  if maxSafeInteger < n ∨ n < minSafeInteger then
    .error (canonicalInvalidNumber "integer outside safe range")
  else .ok (intText n)

def writeUint64 (n : Nat) : Except Error (List Char) :=
  if maxSafeInteger < n then .error (canonicalInvalidNumber "integer outside safe range")
  else .ok (natText n)

def writeFloat (f : Binary64) : Except Error (List Char) :=
  match f with
  | .nan | .infinity _ => .error (canonicalInvalidNumber "NaN or Infinity not permitted")
  | .finite s m =>
    if m = 0 ∧ s then .error (canonicalInvalidNumber "negative zero not permitted")
    else if m % Binary64.one ≠ 0 then .error (canonicalInvalidNumber "non-integer number not permitted")
    else
      let n := Binary64.scaled s (m / Binary64.one)
      if maxSafeInteger < n ∨ n < minSafeInteger then
        .error (canonicalInvalidNumber "integer outside safe range")
      else .ok (intText n)

def hexDigits : List Char :=
  "0123456789abcdef".toList

-- What is written for a rune: those beyond ASCII are copied, and so is `/`.
def writeRune (r : Char) : List Char :=
  if r.toNat < 0x80 then
    match r.toNat with
    | 0x22 => ['\\', '\"']
    | 0x5c => ['\\', '\\']
    | 0x08 => ['\\', 'b']
    | 0x09 => ['\\', 't']
    | 0x0a => ['\\', 'n']
    | 0x0c => ['\\', 'f']
    | 0x0d => ['\\', 'r']
    | b    =>
      if b < 0x20 then
        ['\\', 'u', '0', '0', hexDigits.getD (b >>> 4 &&& 0x0f) '0', hexDigits.getD (b &&& 0x0f) '0']
      else [r]
  else [r]

-- The loop goes from rune to rune.
def writeRunes : List Char → List Char
  | []      => []
  | r :: rs => writeRune r ++ writeRunes rs

def writeString (s : GoString) : Except Error (List Char) :=
  match Bytes.toString? s with
  | some s => .ok ('\"' :: (writeRunes s.toList ++ ['\"']))
  | none   => .error (canonicalInvalidUTF8 "string input is not valid UTF-8")

def writeMember (m : GoString × Except Error (List Char)) : Except Error (List Char) := do
  let k ← writeString m.1
  let v ← m.2
  return k ++ ':' :: v

-- The members are written in the order of their names, up to the first error.
def writeObject (ms : List (GoString × Except Error (List Char))) : Except Error (List Char) := do
  let ms ← (sortBy (fun m m' => compareUTF16 m.1 m'.1) ms).mapM writeMember
  return '{' :: ([','].intercalate ms ++ ['}'])

mutual

def writeValue : Value → Except Error (List Char)
  | .nil        => .ok "null".toList
  | .bool b     => .ok (if b then "true".toList else "false".toList)
  | .string s   => writeString s
  | .number lit =>
    match int64? lit with
    | some i => writeInt64 i
    | none   => .error (canonicalInvalidNumber "non-integer number not permitted")
  | .int64 i    => writeInt64 i.toInt
  | .uint64 n   => writeUint64 n.toNat
  | .float64 x  => writeFloat x
  | .slice xs   => do
    let xs ← writeElements xs
    return '[' :: ([','].intercalate xs ++ [']'])
  | .map ms     => writeObject (writtenMembers ms)
  | .other t    => .error (canonicalInvalidType ("unsupported type: " ++ t))

def writeElements : List Value → Except Error (List (List Char))
  | []      => .ok []
  | x :: xs => do
    let x  ← writeValue x
    let xs ← writeElements xs
    return x :: xs

-- The values by themselves.
def writtenMembers : List (GoString × Value) → List (GoString × Except Error (List Char))
  | []           => []
  | (k, v) :: ms => (k, writeValue v) :: writtenMembers ms

end

def canonicalize (v : Value) : Except Error (List UInt8) :=
  match v with
  | .map ms => (writeObject (writtenMembers ms)).map fun cs => Bytes.ofString (.ofList cs)
  | _       => .error (canonicalInvalidTopLevel "canonical JSON top-level must be a plain object")

end Go

namespace Ts

def canonicalDuplicateKey (key : JsString) : Error :=
  newError .canonicalJSONDuplicateKey ("duplicate key: " ++ key.toString)

def compareUtf16 (a b : JsString) : Ordering :=
  lexicographic (a.map UInt16.toNat) (b.map UInt16.toNat)

def writeNumber (n : Binary64) : Except Error (List Char) :=
  match n with
  | .nan | .infinity _ => .error (canonicalInvalidNumber "NaN or Infinity not permitted")
  | .finite s m =>
    if m % Binary64.one ≠ 0 then .error (canonicalInvalidNumber "non-integer number not permitted")
    else if m = 0 ∧ s then .error (canonicalInvalidNumber "negative zero not permitted")
    else
      let n := Binary64.scaled s (m / Binary64.one)
      if maxSafeInteger < n ∨ n < minSafeInteger then
        .error (canonicalInvalidNumber "integer outside safe range")
      else .ok (intText n)

def writeBigint (n : Int) : Except Error (List Char) :=
  if maxSafeInteger < n ∨ n < minSafeInteger then
    .error (canonicalInvalidNumber "bigint outside safe integer range")
  else .ok (intText n)

def unpaired (u : UInt16) : Except Error Unit :=
  if isHigh u then .error (canonicalInvalidUTF8 "unpaired high surrogate in string input")
  else if isLow u then .error (canonicalInvalidUTF8 "unpaired low surrogate in string input")
  else .ok ()

def validateUtf16 : JsString → Except Error Unit
  | u :: v :: us => if isHigh u ∧ isLow v then validateUtf16 us else do
    unpaired u
    validateUtf16 (v :: us)
  | [u]          => unpaired u
  | []           => .ok ()

def hex : JsString :=
  .ofString "0123456789abcdef"

def writeUnit (c : UInt16) : JsString :=
  if c = 0x22 then .ofString "\\\""
  else if c = 0x5c then .ofString "\\\\"
  else if c = 0x08 then .ofString "\\b"
  else if c = 0x09 then .ofString "\\t"
  else if c = 0x0a then .ofString "\\n"
  else if c = 0x0c then .ofString "\\f"
  else if c = 0x0d then .ofString "\\r"
  else if c < 0x20 then
    .ofString "\\u00" ++ [hex.getD (c >>> 4 &&& 0xf).toNat 0, hex.getD (c &&& 0xf).toNat 0]
  else [c]

-- The unit after a high surrogate is copied with it.
def writeUnits : JsString → JsString
  | c :: d :: us => if isHigh c then c :: d :: writeUnits us else writeUnit c ++ writeUnits (d :: us)
  | [c]          => writeUnit c
  | []           => []

def writeString (s : JsString) : Except Error (List Char) := do
  validateUtf16 s
  return textOfUnits (0x22 :: (writeUnits s ++ [0x22]))

def writeMembers (seen : List JsString) :
    List (JsString × Except Error (List Char)) → Except Error (List (List Char))
  | []           => .ok []
  | (k, v) :: ms => do
    if k ∈ seen then .error (canonicalDuplicateKey k)
    let name ← writeString k
    let v    ← v
    let ms   ← writeMembers (k :: seen) ms
    return (name ++ ':' :: v) :: ms

def writeObject (ms : List (JsString × Except Error (List Char))) : Except Error (List Char) := do
  let ms ← writeMembers [] (sortBy (fun m m' => compareUtf16 m.1 m'.1) ms)
  return '{' :: ([','].intercalate ms ++ ['}'])

mutual

def writeValue : Value → Except Error (List Char)
  | .null                     => .ok "null".toList
  | .boolean b                => .ok (if b then "true".toList else "false".toList)
  | .number x                 => writeNumber x
  | .string s                 => writeString s
  | .bigint n                 => writeBigint n
  | .array xs                 => do
    let xs ← writeElements xs
    return '[' :: ([','].intercalate xs ++ [']'])
  | .object own none          => writeObject (writtenMembers own)
  | .object own (some .null)  => writeObject (writtenMembers own)
  | .object _ (some p)        =>
    .error (canonicalInvalidType ("unsupported object type: " ++ p.constructorName))
  | .other t                  => .error (canonicalInvalidType ("unsupported type: " ++ t))

def writeElements : List Value → Except Error (List (List Char))
  | []      => .ok []
  | x :: xs => do
    let x  ← writeValue x
    let xs ← writeElements xs
    return x :: xs

def writtenMembers : List (JsString × Value) → List (JsString × Except Error (List Char))
  | []           => []
  | (k, v) :: ms => (k, writeValue v) :: writtenMembers ms

end

def canonicalize (v : Value) : Except Error (List UInt8) :=
  match v with
  | .object own none | .object own (some .null) =>
    (writeObject (writtenMembers own)).map fun cs => Bytes.ofString (.ofList cs)
  | _ => .error (canonicalInvalidTopLevel "canonical JSON top-level must be a plain object")

end Ts

-- What is written is a text if that is safe, and otherwise a number is at fault.
abbrev Writes {α : Type} (safe : Prop) (a : α) (x : Except Error α) : Prop :=
  Settles .canonicalJSONInvalidNumber safe a x

theorem safe_int {n : Int} : (Data.int n).Safe ↔ ¬(maxSafeInteger < n ∨ n < minSafeInteger) := by
  simp only [Data.Safe, maxSafeInteger, minSafeInteger]
  omega

theorem writes_safe (n : Int) (message : String) :
    Writes (Data.int n).Safe (intText n)
      (if maxSafeInteger < n ∨ n < minSafeInteger then .error (canonicalInvalidNumber message)
        else .ok (intText n)) := by
  split
  case isTrue h => exact ⟨fun hs => (safe_int.mp hs h).elim, fun _ => ⟨_, rfl, hasCode_newError _ _⟩⟩
  case isFalse h => exact .ok _ (safe_int.mpr h)

theorem writes_integer {x : Binary64} {n : Int} (h : x.toInt? = some n) :
    Writes (Data.int n).Safe (intText n) (Go.writeFloat x) := by
  match x with
  | .nan | .infinity _ => contradiction
  | .finite s m        =>
    rw [Binary64.toInt?, Option.ite_none_right_eq_some] at h
    obtain ⟨⟨hm, hz⟩, h⟩ := h
    rw [Go.writeFloat, if_neg (fun hn => hz hn.symm), if_neg (fun hn => hn hm)]
    cases h
    exact writes_safe _ _

-- A member that is to be written.
structure Entry where
  name    : List Char
  value   : Data
  written : Except Error (List Char)
  writes  : Writes value.Safe value.normal.text written

namespace Entry

def member (e : Entry) : List Char × Data :=
  (e.name, e.value)

def write (e : Entry) : Except Error (List Char) :=
  e.written.map fun cs => quote e.name ++ ':' :: cs

def sort (es : List Entry) : List Entry :=
  sortBy (fun e e' =>
    lexicographic ((utf16 e.name).map UInt16.toNat) ((utf16 e'.name).map UInt16.toNat)) es

theorem sortMembers_map_member (es : List Entry) :
    sortMembers (es.map member) = (sort es).map member :=
  sortBy_map (fun _ _ => rfl) es

-- The members of an object are written in their order.
def writeAll (es : List Entry) : Except Error (List Char) := do
  let ms ← (sort es).mapM write
  return '{' :: ([','].intercalate ms ++ ['}'])

theorem writes_all (es : List Entry) :
    Writes (Data.obj (es.map member)).Safe (Data.obj (es.map member)).normal.text (writeAll es) := by
  have hm : Writes (∀ e ∈ sort es, e.value.Safe)
      ((sort es).map fun e => quote e.name ++ ':' :: e.value.normal.text) ((sort es).mapM write) :=
    .mapM fun e _ => e.writes.map fun cs => quote e.name ++ ':' :: cs
  have ht : (Data.obj (es.map member)).normal.text = '{' :: ([','].intercalate ((sort es).map
      fun e => quote e.name ++ ':' :: e.value.normal.text) ++ ['}']) := by
    rw [Data.normal, Data.sortMembers_normalMembers, sortMembers_map_member, Data.text,
      Data.memberTexts_eq, Data.normalMembers_eq, List.map_map, List.map_map]
    rfl
  have hs : (Data.obj (es.map member)).Safe ↔ ∀ e ∈ sort es, e.value.Safe := by
    rw [Data.Safe, Data.safeMembers_iff, List.forall_mem_map]
    exact forall_congr' fun e => by rw [sort, (sortBy_perm _ es).mem_iff]; rfl
  rw [ht]
  exact (hm.map fun ms => '{' :: ([','].intercalate ms ++ ['}'])).iff hs

end Entry

namespace Go

theorem writes_number {lit : String} {n : Int} (h : integer? lit.toList = some n) :
    Writes (Data.int n).Safe (intText n) (writeValue (.number lit)) := by
  rw [writeValue, int64?, h]
  by_cases hn : -2 ^ 63 ≤ n ∧ n < 2 ^ 63
  case pos =>
    rw [Option.filter_some, if_pos (by simpa using hn)]
    exact writes_safe n _
  case neg =>
    rw [Option.filter_some, if_neg (by simpa using hn)]
    refine ⟨fun hs => ?_, fun _ => ⟨_, rfl, hasCode_newError _ _⟩⟩
    rw [safe_int, maxSafeInteger, minSafeInteger] at hs
    omega

theorem writeUint64_eq (n : Nat) : writeUint64 n = writeInt64 n := by
  have hn : ¬(n : Int) < minSafeInteger := by
    rw [minSafeInteger]
    omega
  simp only [writeUint64, writeInt64, hn, or_false]
  rfl

theorem writeRune_ascii : ∀ n < 0x80, writeRune (.ofNat n) = Escape.short.write (.ofNat n) := by
  decide +kernel

theorem writeRune_eq (r : Char) : writeRune r = Escape.short.write r := by
  by_cases h : r.toNat < 0x80
  case pos =>
    have ascii := writeRune_ascii r.toNat h
    rwa [Char.ofNat_toNat] at ascii
  case neg => rw [writeRune, if_neg h, Escape.short_write (Nat.le_of_not_lt h)]

theorem writeRunes_eq (rs : List Char) : writeRunes rs = rs.flatMap Escape.short.write := by
  induction rs
  case nil => rfl
  case cons r rs ih => rw [writeRunes, writeRune_eq, ih, List.flatMap_cons]

theorem writeString_of_toString? {s : GoString} {t : String} (h : Bytes.toString? s = some t) :
    writeString s = .ok (quote t.toList) := by
  rw [writeString, h]
  dsimp only
  rw [writeRunes_eq]
  rfl

theorem writeString_ofString (s : String) : writeString (Bytes.ofString s) = .ok (quote s.toList) :=
  writeString_of_toString? (Bytes.toString?_ofString s)

-- Bytes below 0x80 are characters and code units by themselves.
theorem utf16_of_isASCII {s : String} (h : isASCII (Bytes.ofString s)) :
    (utf16 s.toList).map UInt16.toNat = (Bytes.ofString s).map UInt8.toNat := by
  have hs : ∀ c ∈ s.toList, c.toNat < 0x80 :=
    Bytes.ascii_of_ofString fun b hb => by simpa using List.all_eq_true.mp h b hb
  rw [Bytes.ofString_of_ascii hs, utf16_of_ascii hs]

theorem compareUTF16_ofString (a b : String) :
    compareUTF16 (Bytes.ofString a) (Bytes.ofString b) =
      lexicographic ((utf16 a.toList).map UInt16.toNat) ((utf16 b.toList).map UInt16.toNat) := by
  unfold compareUTF16
  split
  case isTrue h => rw [utf16_of_isASCII h.1, utf16_of_isASCII h.2]
  case isFalse  => rw [Utf8.decodeBytes_ofString, Utf8.decodeBytes_ofString]

def member (e : Entry) : GoString × Except Error (List Char) :=
  (Bytes.ofString (.ofList e.name), e.written)

theorem writeMember_member (e : Entry) : writeMember (member e) = e.write := by
  rw [writeMember, member, writeString_ofString, String.toList_ofList]
  exact bind_pure_comp (fun cs => quote e.name ++ ':' :: cs) e.written

theorem writeObject_entries (es : List Entry) : writeObject (es.map member) = Entry.writeAll es := by
  have hs : sortBy (fun m m' => compareUTF16 m.1 m'.1) (es.map member) = (Entry.sort es).map member :=
    sortBy_map (fun e e' => by simp [member, compareUTF16_ofString]) es
  rw [writeObject, hs, List.mapM_map, Entry.writeAll]
  simp only [Function.comp_def, writeMember_member]

mutual

theorem writes_value : (v : Value) → {d : Data} → v.data? = some d →
    Writes d.Safe d.normal.text (writeValue v)
  | .nil, d, h => by
    cases h
    exact .ok _ trivial
  | .bool b, d, h => by
    cases h
    cases b <;> exact .ok _ trivial
  | .int64 i, d, h => by
    cases h
    exact writes_safe _ _
  | .uint64 n, d, h => by
    cases h
    rw [writeValue, writeUint64_eq]
    exact writes_safe _ _
  | .float64 x, d, h => by
    obtain ⟨n, hn, rfl⟩ := Option.map_eq_some_iff.mp h
    exact writes_integer hn
  | .number lit, d, h => by
    obtain ⟨n, hn, rfl⟩ := Option.map_eq_some_iff.mp h
    exact writes_number hn
  | .string s, d, h => by
    obtain ⟨t, ht, rfl⟩ := Option.map_eq_some_iff.mp h
    rw [writeValue, ← Bytes.toString?_eq_some ht, writeString_ofString]
    exact .ok _ trivial
  | .slice xs, d, h => by
    obtain ⟨ds, hd, rfl⟩ := Option.map_eq_some_iff.mp h
    exact (writes_elements xs hd).map fun xs => '[' :: ([','].intercalate xs ++ [']'])
  | .map ms, d, h => by
    obtain ⟨ds, hd, rfl⟩ := Option.map_eq_some_iff.mp h
    have ⟨es, hm, hw⟩ := entries_of_members ms hd
    rw [writeValue, ← hw, ← hm, writeObject_entries]
    exact Entry.writes_all es
  | .other _, d, h => by cases h

theorem writes_elements : (xs : List Value) → {ds : List Data} → Value.elements? xs = some ds →
    Writes (Data.SafeElements ds) (Data.elementTexts (Data.normalElements ds)) (writeElements xs)
  | [], ds, h => by
    cases h
    exact .ok _ trivial
  | x :: xs, ds, h => by
    obtain ⟨d, hd, h⟩ := Option.bind_eq_some_iff.mp h
    obtain ⟨ds', hds, h⟩ := Option.bind_eq_some_iff.mp h
    cases h
    rw [writeElements]
    simp only [bind_pure_comp]
    exact (writes_value x hd).bind <| (writes_elements xs hds).map (d.normal.text :: ·)

theorem entries_of_members : (ms : List (GoString × Value)) → {ds : List (List Char × Data)} →
    Value.members? ms = some ds →
    ∃ es : List Entry, es.map Entry.member = ds ∧ es.map member = writtenMembers ms
  | [], ds, h => by
    cases h
    exact ⟨[], rfl, rfl⟩
  | (k, v) :: ms, ds, h => by
    obtain ⟨name, hk, h⟩ := Option.bind_eq_some_iff.mp h
    obtain ⟨d, hd, h⟩ := Option.bind_eq_some_iff.mp h
    obtain ⟨ds', hds, h⟩ := Option.bind_eq_some_iff.mp h
    cases h
    have ⟨es, hm, hw⟩ := entries_of_members ms hds
    refine ⟨⟨name.toList, d, writeValue v, writes_value v hd⟩ :: es, congrArg _ hm, ?_⟩
    rw [List.map_cons, hw, member, writtenMembers, String.ofList_toList, Bytes.toString?_eq_some hk]

end

end Go

namespace Ts

theorem unpaired_eq_ok_iff {u : UInt16} : unpaired u = .ok () ↔ isHigh u = false ∧ isLow u = false := by
  unfold unpaired
  split <;> simp_all

theorem validateUtf16_eq_ok_iff {s : JsString} : validateUtf16 s = .ok () ↔ paired s := by
  induction s using paired.induct
  case case1 u v us hu ih =>
    by_cases hv : isLow v
    case pos => rw [validateUtf16, if_pos ⟨hu, hv⟩, ih, paired, if_pos hu, hv, Bool.true_and]
    case neg =>
      rw [validateUtf16, if_neg (fun h => hv h.2), paired, if_pos hu]
      simp [unpaired, hu, hv, bind, Except.bind]
  case case2 u v us hu ih =>
    rw [validateUtf16, if_neg (fun h => hu h.1), paired, if_neg hu]
    by_cases hl : isLow u
    case pos => simp [unpaired, hu, hl, bind, Except.bind]
    case neg =>
      rw [unpaired_eq_ok_iff.mpr ⟨by simpa using hu, by simpa using hl⟩]
      simp only [hl, Bool.not_false, Bool.true_and]
      exact ih
  case case3 u => simp [validateUtf16, paired, unpaired_eq_ok_iff]
  case case4 => simp [validateUtf16, paired]

-- Negative zero is an integer, so that the order of the checks does not matter.
theorem writeNumber_eq (x : Binary64) : writeNumber x = Go.writeFloat x := by
  match x with
  | .nan | .infinity _ => rfl
  | .finite s m =>
    rw [writeNumber, Go.writeFloat]
    by_cases hz : m = 0 ∧ s
    case pos =>
      have hm : ¬m % Binary64.one ≠ 0 := by simp [hz.1]
      rw [if_neg hm, if_pos hz, if_pos hz]
    case neg => rw [if_neg hz, if_neg hz]

theorem writeUnit_ascii : ∀ n < 0x80, writeUnit (.ofNat n) = utf16 (Escape.short.write (.ofNat n)) := by
  decide +kernel

theorem writeUnit_copied {c : UInt16} (h : 0x80 ≤ c.toNat) : writeUnit c = [c] := by
  have ne {n : UInt16} (hn : n.toNat < 0x80) : c ≠ n := by
    rintro rfl
    omega
  have lt : ¬c < 0x20 := by
    rw [UInt16.lt_iff_toNat_lt]
    exact fun hc => absurd (hc.trans (by decide : (0x20 : UInt16).toNat < 0x80)) (Nat.not_lt.mpr h)
  simp (disch := decide) only [writeUnit, ne, lt, if_false]

theorem writeUnits_single {u : UInt16} (h : isHigh u = false) (us : JsString) :
    writeUnits (u :: us) = writeUnit u ++ writeUnits us := by
  match us with
  | []      => rw [writeUnits, writeUnits, List.append_nil]
  | v :: us => simp [writeUnits, h]

-- What is written for the units of a character is what is written for the character.
theorem writeUnits_unitsOfChar (c : Char) (us : JsString) :
    writeUnits (unitsOfChar c ++ us) = utf16 (Escape.short.write c) ++ writeUnits us := by
  by_cases ascii : c.toNat < 0x80
  case pos =>
    have hu : unitsOfChar c = [.ofNat c.toNat] := if_pos (ascii.trans (by decide))
    have hh : isHigh (.ofNat c.toNat) = false := (charOfUnit_ofNat (ascii.trans (by decide))).1
    have write := writeUnit_ascii c.toNat ascii
    rw [Char.ofNat_toNat] at write
    rw [hu, List.singleton_append, writeUnits_single hh, write]
  case neg =>
    rw [Escape.short_write (Nat.le_of_not_lt ascii), utf16, List.flatMap_singleton]
    have hc := unitsOf_unitsOfChar c
    by_cases bmp : c.toNat < 0x10000
    case pos =>
      have hu : unitsOfChar c = [.ofNat c.toNat] := if_pos bmp
      rw [hu] at hc ⊢
      cases hc with
      | single hh _ _ =>
        have toNat : (UInt16.ofNat c.toNat).toNat = c.toNat := UInt16.toNat_ofNat_of_lt bmp
        have copied : 0x80 ≤ (UInt16.ofNat c.toNat).toNat := by omega
        rw [List.singleton_append, writeUnits_single hh, writeUnit_copied copied]
    case neg =>
      rw [unitsOfChar, if_neg bmp] at hc ⊢
      generalize UInt16.ofNat (0xd800 + _) = u at hc ⊢
      generalize UInt16.ofNat (0xdc00 + _) = v at hc ⊢
      cases hc with
      | pair hh _ _ => simp [writeUnits, hh]

theorem writeUnits_utf16 (cs : List Char) : writeUnits (utf16 cs) = utf16 (cs.flatMap Escape.short.write) := by
  induction cs
  case nil => rfl
  case cons c cs ih =>
    rw [utf16, List.flatMap_cons, writeUnits_unitsOfChar, ← utf16, ih, List.flatMap_cons]
    exact List.flatMap_append.symm

theorem writeString_utf16 (cs : List Char) : writeString (utf16 cs) = .ok (quote cs) := by
  have quoted : utf16 (quote cs) = 0x22 :: (writeUnits (utf16 cs) ++ [0x22]) := by
    rw [writeUnits_utf16, quote, Escape.quote, utf16, List.flatMap_cons, List.flatMap_append]
    rfl
  rw [writeString, validateUtf16_eq_ok_iff.mpr (paired_utf16 cs), ← quoted, textOfUnits_utf16]
  rfl

def member (e : Entry) : JsString × Except Error (List Char) :=
  (utf16 e.name, e.written)

-- Names that are distinct are not seen before.
theorem writeMembers_entries (es : List Entry) (seen : List JsString)
    (hd : (es.map Entry.name).Nodup) (hs : ∀ e ∈ es, utf16 e.name ∉ seen) :
    writeMembers seen (es.map member) = es.mapM Entry.write := by
  induction es generalizing seen
  case nil => rfl
  case cons e es ih =>
    rw [List.map_cons, List.nodup_cons] at hd
    rw [List.forall_mem_cons] at hs
    have ht : ∀ e' ∈ es, utf16 e'.name ∉ utf16 e.name :: seen := by
      intro e' he' hm
      rcases List.mem_cons.mp hm with hu | hm
      · exact hd.1 (List.mem_map.mpr ⟨e', he', utf16_injective hu⟩)
      · exact hs.2 e' he' hm
    rw [List.map_cons, member, writeMembers, if_neg hs.1, writeString_utf16, ih _ hd.2 ht,
      List.mapM_cons, Entry.write]
    cases e.written <;> rfl

theorem writeObject_entries {es : List Entry} (hd : (es.map Entry.name).Nodup) :
    writeObject (es.map member) = Entry.writeAll es := by
  have hs : sortBy (fun m m' => compareUtf16 m.1 m'.1) (es.map member) = (Entry.sort es).map member :=
    sortBy_map (fun e e' => rfl) es
  have hp : ((Entry.sort es).map Entry.name).Nodup :=
    ((sortBy_perm _ es).map Entry.name).nodup_iff.mpr hd
  rw [writeObject, hs, writeMembers_entries _ [] hp (by simp), Entry.writeAll]

theorem eq_utf16_of_chars? {s : JsString} {cs : List Char} (h : Value.chars? s = some cs) :
    s = utf16 cs := by
  rw [Value.chars?, Option.ite_none_right_eq_some] at h
  obtain ⟨hp, h⟩ := h
  cases h
  exact (utf16_textOfUnits hp).symm

mutual

theorem writes_value : (v : Value) → {d : Data} → v.data? = some d → d.Distinct →
    Writes d.Safe d.normal.text (writeValue v)
  | .null, d, h, _ => by
    cases h
    exact .ok _ trivial
  | .boolean b, d, h, _ => by
    cases h
    cases b <;> exact .ok _ trivial
  | .number x, d, h, _ => by
    obtain ⟨n, hn, rfl⟩ := Option.map_eq_some_iff.mp h
    rw [writeValue, writeNumber_eq]
    exact writes_integer hn
  | .bigint n, d, h, _ => by
    cases h
    exact writes_safe _ _
  | .string s, d, h, _ => by
    obtain ⟨cs, hs, rfl⟩ := Option.map_eq_some_iff.mp h
    rw [writeValue, eq_utf16_of_chars? hs, writeString_utf16]
    exact .ok _ trivial
  | .array xs, d, h, hd => by
    obtain ⟨ds, hs, rfl⟩ := Option.map_eq_some_iff.mp h
    exact (writes_elements xs hs hd).map fun xs => '[' :: ([','].intercalate xs ++ [']'])
  | .object own none, d, h, hd => by
    obtain ⟨ds, hs, rfl⟩ := Option.map_eq_some_iff.mp h
    have ⟨es, hm, hw⟩ := entries_of_members own hs hd.2
    have hn : (es.map Entry.name).Nodup := by
      rw [← hm, Data.Distinct, List.map_map] at hd
      exact hd.1
    rw [writeValue, ← hw, ← hm, writeObject_entries hn]
    exact Entry.writes_all es
  | .object own (some .null), d, h, hd => by
    obtain ⟨ds, hs, rfl⟩ := Option.map_eq_some_iff.mp h
    have ⟨es, hm, hw⟩ := entries_of_members own hs hd.2
    have hn : (es.map Entry.name).Nodup := by
      rw [← hm, Data.Distinct, List.map_map] at hd
      exact hd.1
    rw [writeValue, ← hw, ← hm, writeObject_entries hn]
    exact Entry.writes_all es
  | .other _, d, h, _ => by cases h

theorem writes_elements : (xs : List Value) → {ds : List Data} → Value.elements? xs = some ds →
    Data.DistinctElements ds →
    Writes (Data.SafeElements ds) (Data.elementTexts (Data.normalElements ds)) (writeElements xs)
  | [], ds, h, _ => by
    cases h
    exact .ok _ trivial
  | x :: xs, ds, h, hd => by
    obtain ⟨d, hx, h⟩ := Option.bind_eq_some_iff.mp h
    obtain ⟨ds', hxs, h⟩ := Option.bind_eq_some_iff.mp h
    cases h
    rw [writeElements]
    simp only [bind_pure_comp]
    exact (writes_value x hx hd.1).bind <| (writes_elements xs hxs hd.2).map (d.normal.text :: ·)

theorem entries_of_members : (ms : List (JsString × Value)) → {ds : List (List Char × Data)} →
    Value.members? ms = some ds → Data.DistinctMembers ds →
    ∃ es : List Entry, es.map Entry.member = ds ∧ es.map member = writtenMembers ms
  | [], ds, h, _ => by
    cases h
    exact ⟨[], rfl, rfl⟩
  | (k, v) :: ms, ds, h, hd => by
    obtain ⟨name, hk, h⟩ := Option.bind_eq_some_iff.mp h
    obtain ⟨d, hv, h⟩ := Option.bind_eq_some_iff.mp h
    obtain ⟨ds', hms, h⟩ := Option.bind_eq_some_iff.mp h
    cases h
    have ⟨es, hm, hw⟩ := entries_of_members ms hms hd.2
    refine ⟨⟨name, d, writeValue v, writes_value v hv hd.1⟩ :: es, congrArg _ hm, ?_⟩
    rw [List.map_cons, hw, member, writtenMembers, ← eq_utf16_of_chars? hk]

end

end Ts

def bytesOf (cs : List Char) : List UInt8 :=
  Bytes.ofString (.ofList cs)

-- What both canonicalizers do with a value that stands for a JSON value.
structure Canonical (d : Data) (x : Except Error (List UInt8)) : Prop where
  object   : d.isObject → Writes d.Safe (bytesOf d.normal.text) x
  topLevel : d.isObject = false → ∃ e, x = .error e ∧ e.HasCode .canonicalJSONInvalidTopLevel

theorem Go.canonical {v : Value} {d : Data} (h : v.data? = some d) : Canonical d (canonicalize v) := by
  have hw := writes_value v h
  cases v
  case map ms =>
    obtain ⟨ds, _, rfl⟩ := Option.map_eq_some_iff.mp h
    exact ⟨fun _ => hw.map bytesOf, nofun⟩
  all_goals
    refine ⟨fun ho => ?_, fun _ => ⟨_, rfl, hasCode_newError _ _⟩⟩
    obtain ⟨ms, rfl⟩ := Data.eq_obj_of_isObject ho
    simp [Value.data?] at h

theorem Ts.canonical {v : Value} {d : Data} (h : v.data? = some d) (hd : d.Distinct) :
    Canonical d (canonicalize v) := by
  have hw := writes_value v h hd
  match v with
  | .object own none | .object own (some .null) =>
    obtain ⟨ds, _, rfl⟩ := Option.map_eq_some_iff.mp h
    exact ⟨fun _ => hw.map bytesOf, nofun⟩
  | .null | .boolean _ | .number _ | .bigint _ | .string _ | .array _ =>
    refine ⟨fun ho => ?_, fun _ => ⟨_, rfl, hasCode_newError _ _⟩⟩
    obtain ⟨ms, rfl⟩ := Data.eq_obj_of_isObject ho
    simp [Value.data?] at h

-- The members of an object have no order.
def Go.Value.Denotes (v : Go.Value) (d : Data) : Prop :=
  ∃ d', v.data? = some d' ∧ d'.Same d

def Ts.Value.Denotes (v : Ts.Value) (d : Data) : Prop :=
  ∃ d', v.data? = some d' ∧ d'.Same d

-- The bytes are the same, or the errors are of the same class.
def SameOutcome (x y : Except Error (List UInt8)) : Prop :=
  (∃ b, x = .ok b ∧ y = .ok b) ∨
    ∃ code e e', x = .error e ∧ y = .error e' ∧ e.HasCode code ∧ e'.HasCode code

theorem Canonical.sameOutcome {d d' : Data} {x y : Except Error (List UInt8)} (hx : Canonical d x)
    (hy : Canonical d' y) (h : d.Same d') : SameOutcome x y := by
  cases ho : d.isObject
  case false =>
    have ⟨e, he, hc⟩ := hx.topLevel ho
    have ⟨e', he', hc'⟩ := hy.topLevel (h.isObject ▸ ho)
    exact .inr ⟨_, e, e', he, he', hc, hc'⟩
  case true =>
    have wx := hx.object ho
    have wy := hy.object (h.isObject ▸ ho)
    by_cases hs : d.Safe
    case pos => exact .inl ⟨_, wx.accepted hs, h ▸ wy.accepted (h.safe_iff.mp hs)⟩
    case neg =>
      have ⟨e, he, hc⟩ := wx.rejected hs
      have ⟨e', he', hc'⟩ := wy.rejected (hs ∘ h.safe_iff.mpr)
      exact .inr ⟨_, e, e', he, he', hc, hc'⟩

-- The canonical JSON of a value does not depend on the port.
theorem canonicalize_sameOutcome {d : Data} (hd : d.Distinct) {v : Go.Value} {w : Ts.Value}
    (hv : v.Denotes d) (hw : w.Denotes d) : SameOutcome (Go.canonicalize v) (Ts.canonicalize w) := by
  obtain ⟨dv, hv, sv⟩ := hv
  obtain ⟨dw, hw, sw⟩ := hw
  exact (Go.canonical hv).sameOutcome (Ts.canonical hw (sw.distinct_iff.mpr hd)) (sv.trans sw.symm)

theorem canonicalize_sameOutcome_members :
    SameOutcome
      (Go.canonicalize (.map [(Bytes.ofString "b", .nil), (Bytes.ofString "a", .bool true)]))
      (Ts.canonicalize (.object [(.ofString "a", .boolean true), (.ofString "b", .null)] none)) :=
  canonicalize_sameOutcome (d := .obj [(['a'], .bool true), (['b'], .null)])
    ⟨by decide, trivial, trivial, trivial⟩
    ⟨.obj [(['b'], .null), (['a'], .bool true)], by simp [Go.Value.data?, Go.Value.members?], rfl⟩
    ⟨_, rfl, rfl⟩

end Licensing
