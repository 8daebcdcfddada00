import Mathlib.Algebra.Order.Ring.Int

-- Reading DER into the fields of records, as the standard library of Go does.

namespace Asn1

inductive Error
  | syntaxError (msg : String)
  | structuralError (msg : String)
  deriving DecidableEq

def Error.message : Error → String
  | syntaxError msg     => "asn1: syntax error: " ++ msg
  | structuralError msg => "asn1: structure error: " ++ msg

abbrev Reader (α : Type) :=
  StateT (List UInt8) (Except Error) α

structure TagAndLength where
  cls        : Nat
  tag        : Nat
  length     : Nat
  isCompound : Bool
  deriving DecidableEq

-- An element of any type.
structure RawValue where
  cls        : Nat
  tag        : Nat
  isCompound : Bool
  bytes      : List UInt8
  deriving DecidableEq

def nextByte (e : Error) : Reader UInt8 := fun bytes =>
  match bytes with
  | []      => .error e
  | b :: bs => .ok (b, bs)

-- Groups of seven bits, the first of which is not 0. The value fits into 31 bits.
def parseBase128 : Nat → Nat → Reader Nat
  | 0,     _   => do
    let _ ← nextByte (.syntaxError "truncated base 128 integer")
    throw (.structuralError "base 128 integer too large")
  | n + 1, ret => do
    let b ← nextByte (.syntaxError "truncated base 128 integer")
    if n = 4 ∧ b = 0x80 then throw (.syntaxError "integer is not minimally encoded")
    else if 0x80 ≤ b then parseBase128 n (ret * 128 + b.toNat % 128)
    else if 2 ^ 31 ≤ ret * 128 + b.toNat then throw (.structuralError "base 128 integer too large")
    else return ret * 128 + b.toNat

def parseBase128Int : Reader Nat :=
  parseBase128 5 0

def parseLengthBytes : Nat → Nat → Reader Nat
  | 0,     length => return length
  | n + 1, length => do
    let b ← nextByte (.syntaxError "truncated tag or length")
    if 2 ^ 23 ≤ length then throw (.structuralError "length too large")
    else if length * 256 + b.toNat = 0 then throw (.structuralError "superfluous leading zeros in length")
    else parseLengthBytes n (length * 256 + b.toNat)

def parseLength : Reader Nat := do
  let b ← nextByte (.syntaxError "truncated tag or length")
  if b < 0x80 then return b.toNat
  else if b = 0x80 then throw (.syntaxError "indefinite length found (not DER)")
  else do
    let length ← parseLengthBytes (b.toNat - 0x80) 0
    if length < 0x80 then throw (.structuralError "non-minimal length") else return length

-- The tag of the low five bits, or of the groups behind them.
def parseTag (b : UInt8) : Reader Nat :=
  if b.toNat % 32 < 31 then return b.toNat % 32
  else do
    let tag ← parseBase128Int
    if tag < 31 then throw (.syntaxError "non-minimal tag") else return tag

def parseTagAndLength : Reader TagAndLength := do
  let b      ← nextByte (.syntaxError "sequence truncated")
  let tag    ← parseTag b
  let length ← parseLength
  return { cls := b.toNat / 64, tag, length, isCompound := b.toNat / 32 % 2 = 1 }

def takeContent (length : Nat) : Reader (List UInt8) := fun bytes =>
  if bytes.length < length then .error (.syntaxError "data truncated")
  else .ok (bytes.take length, bytes.drop length)

-- What a type is read from: its universal tag, whether its content is of elements, and how that is read.
structure FieldType (α : Type) where
  tag        : Nat
  isCompound : Bool
  content    : List UInt8 → Except Error α

variable {α : Type}

def parseField (t : FieldType α) : Reader α := do
  let h ← parseTagAndLength
  if h.cls ≠ 0 ∨ h.tag ≠ t.tag ∨ h.isCompound ≠ t.isCompound then throw (.structuralError "tags don't match")
  else do
    let bytes ← takeContent h.length
    t.content bytes

def parseRawValue : Reader RawValue := do
  let h     ← parseTagAndLength
  let bytes ← takeContent h.length
  return { cls := h.cls, tag := h.tag, isCompound := h.isCompound, bytes }

def parseInt64 : List UInt8 → Except Error Int
  | []      => .error (.structuralError "empty integer")
  | b :: bs =>
    if (b = 0 ∧ bs.head?.any (· < 0x80)) ∨ (b = 0xff ∧ bs.head?.any (0x80 ≤ ·)) then
      .error (.structuralError "integer not minimally-encoded")
    else if 8 < (b :: bs).length then .error (.structuralError "integer too large")
    else .ok (bs.foldl (fun n b => n * 256 + b.toNat) (if b < 0x80 then b.toNat else b.toNat - 256 : Int))

-- The first group is of the first two numbers.
def parseObjectIdentifier (bytes : List UInt8) : Except Error (List Nat) :=
  if bytes = [] then .error (.syntaxError "zero length OBJECT IDENTIFIER")
  else do
    let (v, rest) ← parseBase128Int bytes
    let vs ← numbers bytes.length rest
    return if v < 80 then v / 40 :: v % 40 :: vs else 2 :: (v - 80) :: vs
where
  numbers : Nat → List UInt8 → Except Error (List Nat)
    | 0,     _     => .ok []
    | _,     []    => .ok []
    | n + 1, bytes => do
      let (v, rest) ← parseBase128Int bytes
      return v :: (← numbers n rest)

def int : FieldType Int where
  tag        := 2
  isCompound := false
  content    := parseInt64

def octetString : FieldType (List UInt8) where
  tag        := 4
  isCompound := false
  content    := .ok

def objectIdentifier : FieldType (List Nat) where
  tag        := 6
  isCompound := false
  content    := parseObjectIdentifier

-- The fields in their order. What is behind them is allowed.
def struct (fields : Reader α) : FieldType α where
  tag           := 16
  isCompound    := true
  content bytes := (fields.run bytes).map (·.1)

def unmarshal (t : FieldType α) (bytes : List UInt8) : Except Error (α × List UInt8) :=
  (parseField t).run bytes

section Lemmas

variable {β : Type} {bytes rest : List UInt8}

theorem run_bind_eq_ok {x : Reader α} {f : α → Reader β} {b : β} (h : (x >>= f).run bytes = .ok (b, rest)) :
    ∃ a bytes', x.run bytes = .ok (a, bytes') ∧ (f a).run bytes' = .ok (b, rest) := by
  rw [StateT.run_bind] at h
  cases hx : x.run bytes
  case error e =>
    rw [hx] at h
    cases h
  case ok p =>
    rw [hx] at h
    exact ⟨p.1, p.2, rfl, h⟩

theorem nextByte_eq_ok {e : Error} {b : UInt8} (h : (nextByte e).run bytes = .ok (b, rest)) : bytes = b :: rest := by
  cases bytes
  case nil      => cases h
  case cons _ _ =>
    cases h
    rfl

theorem takeContent_eq_ok {length : Nat} {content : List UInt8}
    (h : (takeContent length).run bytes = .ok (content, rest)) : content = bytes.take length := by
  by_cases hl : bytes.length < length
  case pos =>
    have he : (takeContent length).run bytes = .error (.syntaxError "data truncated") := if_pos hl
    rw [he] at h
    cases h
  case neg =>
    have he : (takeContent length).run bytes = .ok (bytes.take length, bytes.drop length) := if_neg hl
    rw [he] at h
    cases h
    rfl

theorem parseLengthBytes_rest {n length length' : Nat}
    (h : (parseLengthBytes n length).run bytes = .ok (length', rest)) : rest = bytes.drop n := by
  induction n generalizing bytes length
  case zero =>
    cases h
    rfl
  case succ n ih =>
    have ⟨b, bs, hb, h⟩ := run_bind_eq_ok h
    rw [nextByte_eq_ok hb, List.drop_succ_cons]
    split at h
    case isTrue => cases h
    case isFalse =>
    split at h
    case isTrue  => cases h
    case isFalse => exact ih h

theorem parseLength_rest {first : UInt8} {n : Nat} (h : parseLength.run (first :: bytes) = .ok (n, rest)) :
    rest = bytes.drop (first.toNat - 0x80) := by
  have ⟨b, bs, hb, h⟩ := run_bind_eq_ok h
  cases nextByte_eq_ok hb
  split at h
  case isTrue low =>
    have hn : first.toNat - 0x80 = 0 := Nat.sub_eq_zero_of_le (Nat.le_of_lt (UInt8.lt_iff_toNat_lt.mp low))
    cases h
    rw [hn, List.drop_zero]
  case isFalse =>
  split at h
  case isTrue  => cases h
  case isFalse =>
    have ⟨length, bytes', hl, h⟩ := run_bind_eq_ok h
    split at h
    case isTrue  => cases h
    case isFalse =>
      cases h
      exact parseLengthBytes_rest hl

theorem parseTagAndLength_eq_ok {b : UInt8} {h : TagAndLength} (low : b.toNat % 32 < 31)
    (hr : parseTagAndLength.run (b :: bytes) = .ok (h, rest)) :
    h.tag = b.toNat % 32 ∧ parseLength.run bytes = .ok (h.length, rest) := by
  have ⟨_, _, hb, hr⟩ := run_bind_eq_ok hr
  cases nextByte_eq_ok hb
  have ⟨tag, _, ht, hr⟩ := run_bind_eq_ok hr
  rw [parseTag, if_pos low] at ht
  cases ht
  have ⟨length, _, hl, hr⟩ := run_bind_eq_ok hr
  cases hr
  exact ⟨rfl, hl⟩

-- A field is not read from an element of another tag.
theorem parseField_ne_ok {t : FieldType α} {b : UInt8} {a : α} (low : b.toNat % 32 < 31)
    (other : b.toNat % 32 ≠ t.tag) : (parseField t).run (b :: bytes) ≠ .ok (a, rest) := by
  intro hr
  have ⟨h, _, hh, hr⟩ := run_bind_eq_ok hr
  have ⟨tag, _⟩ := parseTagAndLength_eq_ok low hh
  rw [if_pos (.inr (.inl (tag.symm ▸ other)))] at hr
  cases hr

theorem parseField_nil {t : FieldType α} {a : α} : (parseField t).run [] ≠ .ok (a, rest) := by
  intro hr
  have ⟨_, _, hh, _⟩ := run_bind_eq_ok hr
  have ⟨_, _, hb, _⟩ := run_bind_eq_ok hh
  cases nextByte_eq_ok hb

-- The fields are read from what is behind the length.
theorem parseField_struct {fields : Reader α} {b first : UInt8} {a : α} (low : b.toNat % 32 < 31)
    (hr : (parseField (struct fields)).run (b :: first :: bytes) = .ok (a, rest)) :
    ∃ n rest', fields.run ((bytes.drop (first.toNat - 0x80)).take n) = .ok (a, rest') := by
  have ⟨h, bytes', hh, hr⟩ := run_bind_eq_ok hr
  have ⟨_, hl⟩ := parseTagAndLength_eq_ok low hh
  rw [← parseLength_rest hl]
  split at hr
  case isTrue  => cases hr
  case isFalse =>
    have ⟨content, bytes'', hc, hr⟩ := run_bind_eq_ok hr
    rw [takeContent_eq_ok hc] at hr
    cases hf : fields.run (bytes'.take h.length)
    case error e =>
      have he : (StateT.lift ((struct fields).content (bytes'.take h.length)) : Reader α).run bytes'' = .error e := by
        simp only [StateT.run_lift, struct, hf]
        rfl
      cases he.symm.trans hr
    case ok p =>
      have he : (StateT.lift ((struct fields).content (bytes'.take h.length)) : Reader α).run bytes'' =
          .ok (p.1, bytes'') := by
        simp only [StateT.run_lift, struct, hf]
        rfl
      cases he.symm.trans hr
      exact ⟨h.length, p.2, hf⟩

end Lemmas

end Asn1
