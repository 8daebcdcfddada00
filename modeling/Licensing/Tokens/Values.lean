import Licensing.Library.Binary64
import Licensing.Library.JsonData

-- The values that the ports decode JSON into and encode as canonical JSON, and the JSON values that
-- they stand for.

namespace Licensing

open JsonText

-- The integer of a literal without fraction and exponent.
def integer? (lit : List Char) : Option Int :=
  let (negative, ds) :=
    match lit with
    | '-' :: ds => (true, ds)
    | '+' :: ds => (false, ds)
    | ds        => (false, ds)
  if ds ≠ [] ∧ ds.all Char.isDigit then
    some (if negative then -Binary64.digitsValue ds else Binary64.digitsValue ds)
  else none

theorem isSome_lookup {κ α : Type} [BEq κ] [LawfulBEq κ] (ms : List (κ × α)) (k : κ) :
    (ms.lookup k).isSome ↔ k ∈ ms.map Prod.fst := by
  simp only [List.lookup_isSome_iff, List.mem_map, beq_iff_eq]
  exact exists_congr fun _ => and_congr_right fun _ => eq_comm

theorem lookup_eq_some_of_mem {κ α : Type} [BEq κ] [LawfulBEq κ] {ms : List (κ × α)} {k : κ} {v : α}
    (hd : (ms.map Prod.fst).Nodup) (hm : (k, v) ∈ ms) : ms.lookup k = some v := by
  induction ms
  case nil => simp at hm
  case cons m ms ih =>
    rw [List.map_cons, List.nodup_cons] at hd
    rw [List.lookup_cons]
    rcases List.mem_cons.mp hm with rfl | hm
    case inl => simp
    case inr =>
      have hne : k ≠ m.1 := fun he => hd.1 (he ▸ List.mem_map_of_mem hm)
      rw [beq_false_of_ne hne]
      exact ih hd.2 hm

namespace Go

-- A string is a sequence of bytes, of UTF-8 as a rule.
abbrev GoString := List UInt8

-- What an `any` may hold. All signed and all unsigned integers are alike, and so are the floats.
inductive Value
  | nil
  | bool (b : Bool)
  | int64 (i : Int64)
  | uint64 (n : UInt64)
  | float64 (x : Binary64)
  | number (lit : String)
  | string (s : GoString)
  | slice (xs : List Value)
  | map (ms : List (GoString × Value))
  | other (type : String)

abbrev Map := List (GoString × Value)

namespace Value

def asFloat64 : Value → Option Binary64
  | float64 x => some x
  | _         => none

def asNumber : Value → Option String
  | number lit => some lit
  | _          => none

def asString : Value → Option GoString
  | string s => some s
  | _        => none

def asMap : Value → Option Map
  | map ms => some ms
  | _      => none

-- A map has one value for a key.
mutual

def IsValue : Value → Prop
  | slice xs => AreElements xs
  | map ms   => (ms.map Prod.fst).Nodup ∧ AreMembers ms
  | _        => True

def AreElements : List Value → Prop
  | []      => True
  | x :: xs => x.IsValue ∧ AreElements xs

def AreMembers : List (GoString × Value) → Prop
  | []           => True
  | (_, v) :: ms => v.IsValue ∧ AreMembers ms

end

mutual

def data? : Value → Option Data
  | nil        => some .null
  | bool b     => some (.bool b)
  | int64 i    => some (.int i.toInt)
  | uint64 n   => some (.int n.toNat)
  | float64 x  => x.toInt?.map .int
  | number lit => (integer? lit.toList).map .int
  | string s   => (Bytes.toString? s).map (.str ·.toList)
  | slice xs   => (elements? xs).map .arr
  | map ms     => (members? ms).map .obj
  | other _    => none

def elements? : List Value → Option (List Data)
  | []      => some []
  | x :: xs => do return (← x.data?) :: (← elements? xs)

def members? : List (GoString × Value) → Option (List (List Char × Data))
  | []           => some []
  | (k, v) :: ms => do return ((← Bytes.toString? k).toList, ← v.data?) :: (← members? ms)

end

end Value

-- `int64(x)`, which is the least integer on amd64 where it overflows.
def toInt64 : Binary64 → Int64
  | .finite s m =>
    let n := Binary64.scaled s (m / Binary64.one)
    if -2 ^ 63 ≤ n ∧ n < 2 ^ 63 then .ofInt n else .minValue
  | _ => .minValue

-- A type assertion on a member, which fails as well where the member is missing.
def Map.as {α : Type} (m : Map) (key : String) (assertion : Value → Option α) : Option α :=
  (m.lookup (Bytes.ofString key)).bind assertion

end Go

namespace Ts

-- A string is a sequence of UTF-16 code units, whose surrogates may be without a partner.
abbrev JsString := List UInt16

instance : LawfulBEq JsString := inferInstance

def JsString.ofString (s : String) : JsString :=
  utf16 s.toList

-- The text that is written as UTF-8, where a surrogate without its partner is U+FFFD.
def JsString.toString (s : JsString) : String :=
  .ofList (textOfUnits s)

-- The prototype of an object that is not the usual one is `null`, or what `__proto__` was set to.
inductive Value
  | null
  | boolean (b : Bool)
  | number (x : Binary64)
  | bigint (n : Int)
  | string (s : JsString)
  | array (xs : List Value)
  | object (own : List (JsString × Value)) (prototype : Option Value)
  | other (type : String)

namespace Value

-- Reads a property, which may be inherited.
def get? (key : String) : Value → Option Value
  | object own prototype =>
    match own.lookup (.ofString key) with
    | some v => some v
    | none   =>
      match prototype with
      | some p => p.get? key
      | none   => none
  | _ => none

def keys : Value → List JsString
  | object own _ => own.map Prod.fst
  | _            => []

def asNumber : Value → Option Binary64
  | number x => some x
  | _        => none

def asString : Value → Option JsString
  | string s => some s
  | _        => none

-- The name of the constructor that an object inherits from its prototype.
def constructorName : Value → String
  | array _           => "Array"
  | object _ none     => "Object"
  | object _ (some p) => p.constructorName
  | _                 => "unknown"

-- The members of an object have different names.
mutual

def IsValue : Value → Prop
  | array xs     => AreElements xs
  | object own _ => (own.map Prod.fst).Nodup ∧ AreMembers own
  | _            => True

def AreElements : List Value → Prop
  | []      => True
  | x :: xs => x.IsValue ∧ AreElements xs

def AreMembers : List (JsString × Value) → Prop
  | []           => True
  | (_, v) :: ms => v.IsValue ∧ AreMembers ms

end

-- The characters of a string, if it has no surrogate without its partner.
def chars? (s : JsString) : Option (List Char) :=
  if paired s then some (textOfUnits s) else none

mutual

def data? : Value → Option Data
  | null               => some .null
  | boolean b          => some (.bool b)
  | number x           => x.toInt?.map .int
  | bigint n           => some (.int n)
  | string s           => (chars? s).map .str
  | array xs           => (elements? xs).map .arr
  | object own none    => (members? own).map .obj
  | object own (some .null) => (members? own).map .obj
  | _                  => none

def elements? : List Value → Option (List Data)
  | []      => some []
  | x :: xs => do return (← x.data?) :: (← elements? xs)

def members? : List (JsString × Value) → Option (List (List Char × Data))
  | []           => some []
  | (k, v) :: ms => do return (← chars? k, ← v.data?) :: (← members? ms)

end

end Value

end Ts

end Licensing
