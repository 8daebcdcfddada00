import Licensing.Library.Json
import Licensing.Tokens.RoundTrip

-- The values that a store keeps of a JSON object, and which of them the canonical writer accepts.

namespace Licensing

open JsonText

-- A literal that is read as an integer within the safe range.
def IsSafeNumber (lit : String) : Prop :=
  ∃ n, (Binary64.ofLiteral lit.toList).toInt? = some n ∧ n.natAbs < 2 ^ 53

instance (lit : String) : Decidable (IsSafeNumber lit) :=
  decidable_of_iff (((Binary64.ofLiteral lit.toList).toInt?).any (·.natAbs < 2 ^ 53)) <| by
    simp [IsSafeNumber, Option.any_eq_true]

-- All the numbers are integers within the safe range.
mutual

def IsSafe : Json → Prop
  | .num lit => IsSafeNumber lit
  | .arr xs  => AreSafeElements xs
  | .obj ms  => AreSafeMembers ms
  | _        => True

def AreSafeElements : List Json → Prop
  | []      => True
  | x :: xs => IsSafe x ∧ AreSafeElements xs

def AreSafeMembers : List (String × Json) → Prop
  | []           => True
  | (_, v) :: ms => IsSafe v ∧ AreSafeMembers ms

end

theorem toString_int (n : Int) : (toString n).toList = intText n := by
  cases n
  case ofNat n   => exact Nat.toList_repr
  case negSucc n => simp [intText, natText, toString, Int.repr]

theorem toString_int_inj {n m : Int} (h : toString n = toString m) : n = m := by
  have hi : some n = some m := by
    rw [← integer?_intText n, ← integer?_intText m, ← toString_int n, ← toString_int m, h]
  exact Option.some.inj hi

theorem ofLiteral_intText_eq (n : Int) : Binary64.ofLiteral (intText n) = .ofInt n := by
  rw [Binary64.ofLiteral, read_intText, Binary64.Literal.toBinary64, Binary64.ofInt]
  simp

theorem isSafeNumber_toString_iff (n : Int) : IsSafeNumber (toString n) ↔ n.natAbs < 2 ^ 53 := by
  rw [IsSafeNumber, toString_int]
  apply Iff.intro
  case mp =>
    rintro ⟨k, hk, hs⟩
    rw [ofLiteral_intText_eq] at hk
    exact Binary64.natAbs_lt_of_toInt?_ofInt hk hs
  case mpr => exact fun h => ⟨n, toInt?_ofLiteral_intText h, h⟩

namespace Go

-- A number is kept as a float, or as the integer that it was written from.
def HoldsNumber (lit : String) : Value → Prop
  | .float64 x => x = Binary64.ofLiteral lit.toList
  | .int64 i   => lit = toString i.toInt
  | _          => False

mutual

def HoldsJson : Json → Value → Prop
  | .null,   .nil       => True
  | .bool b, .bool b'   => b = b'
  | .num lit, v         => HoldsNumber lit v
  | .str s,  .string s' => s' = Bytes.ofString s
  | .arr xs, .slice ys  => HoldElements xs ys
  | .obj ms, .map ms'   => HoldMembers ms ms'
  | _,       _          => False

def HoldElements : List Json → List Value → Prop
  | [],      []      => True
  | x :: xs, y :: ys => HoldsJson x y ∧ HoldElements xs ys
  | _,       _       => False

def HoldMembers : List (String × Json) → List (GoString × Value) → Prop
  | [],           []             => True
  | (k, v) :: ms, (k', v') :: ms' => k' = Bytes.ofString k ∧ HoldsJson v v' ∧ HoldMembers ms ms'
  | _,            _              => False

end

def Written (x : Except Error (List Char)) : Prop :=
  ∃ cs, x = .ok cs

@[simp]
theorem written_ok (cs : List Char) : Written (.ok cs) :=
  ⟨cs, rfl⟩

@[simp]
theorem not_written_error (e : Error) : ¬Written (.error e) := by
  simp [Written]

theorem written_mapM_iff {α : Type} {f : α → Except Error (List Char)} {as : List α} :
    (∃ bs, as.mapM f = .ok bs) ↔ ∀ a ∈ as, Written (f a) := by
  apply Iff.intro
  case mp => exact fun ⟨_, h⟩ => ok_of_mapM h
  case mpr =>
    intro h
    induction as
    case nil => exact ⟨[], rfl⟩
    case cons a as ih =>
      rw [List.forall_mem_cons] at h
      obtain ⟨⟨b, hb⟩, h⟩ := h
      obtain ⟨bs, hbs⟩ := ih h
      exact ⟨b :: bs, by simp [List.mapM_cons, hb, hbs]⟩

theorem written_member_iff {m : GoString × Except Error (List Char)} :
    Written (writeMember m) ↔ Written (writeString m.1) ∧ Written m.2 := by
  cases hm : m.2 <;> simp [Written, writeMember, bind_eq_ok_iff, hm]

-- An object is written if all its members are.
theorem written_object_iff {ms : List (GoString × Except Error (List Char))} :
    Written (writeObject ms) ↔ ∀ m ∈ ms, Written (writeString m.1) ∧ Written m.2 := by
  have hp : ∀ m, m ∈ sortBy (fun m m' => compareUTF16 m.1 m'.1) ms ↔ m ∈ ms :=
    fun m => (sortBy_perm _ ms).mem_iff
  have hw : Written (writeObject ms) ↔
      ∃ bs, (sortBy (fun m m' => compareUTF16 m.1 m'.1) ms).mapM writeMember = .ok bs := by
    rw [writeObject]
    generalize (sortBy (fun m m' => compareUTF16 m.1 m'.1) ms).mapM writeMember = x
    cases x <;> simp [Written]
  rw [hw, written_mapM_iff]
  simp only [hp, written_member_iff]

theorem written_string (s : String) : Written (writeString (Bytes.ofString s)) := by
  simp [writeString_ofString]

theorem written_int64_iff {n : Int} : Written (writeInt64 n) ↔ n.natAbs < 2 ^ 53 := by
  have hs : n.natAbs < 2 ^ 53 ↔ ¬(maxSafeInteger < n ∨ n < minSafeInteger) := safe_int
  rw [hs, writeInt64]
  split <;> simp_all

theorem written_float_iff {x : Binary64} :
    Written (writeFloat x) ↔ ∃ n, x.toInt? = some n ∧ n.natAbs < 2 ^ 53 := by
  cases hx : x.toInt?
  case some n =>
    have hw := writes_integer hx
    by_cases hn : n.natAbs < 2 ^ 53
    case pos => exact iff_of_true ⟨_, hw.accepted hn⟩ ⟨n, rfl, hn⟩
    case neg =>
      obtain ⟨e, he, -⟩ := hw.rejected hn
      rw [he]
      exact iff_of_false (not_written_error e) fun ⟨_, hk, hs⟩ => hn (Option.some.inj hk ▸ hs)
  case none =>
    suffices h : ¬Written (writeFloat x) by simp [h]
    cases x
    case nan        => simp [writeFloat]
    case infinity s => simp [writeFloat]
    case finite s m =>
      rw [Binary64.toInt?, ite_eq_right_iff] at hx
      rw [writeFloat]
      split
      case isTrue => simp
      case isFalse hz =>
        split
        case isTrue => simp
        case isFalse hm => exact absurd (hx ⟨not_not.mp hm, fun h => hz ⟨h.2, h.1⟩⟩) (by simp)

theorem holds_number_iff {lit : String} {v : Value} : HoldsJson (.num lit) v ↔ HoldsNumber lit v := by
  cases v <;> simp [HoldsJson]

theorem written_number_iff {lit : String} {v : Value} (h : HoldsNumber lit v) :
    Written (writeValue v) ↔ IsSafeNumber lit := by
  cases v
  case float64 x =>
    cases h
    exact written_float_iff
  case int64 i =>
    cases h
    rw [isSafeNumber_toString_iff]
    exact written_int64_iff
  all_goals exact h.elim

-- What is kept is written if its numbers are safe.
mutual

theorem written_value_iff : (j : Json) → {v : Value} → HoldsJson j v → (Written (writeValue v) ↔ IsSafe j)
  | .null, v, h     => by
    cases v <;> simp [HoldsJson] at h
    simp [writeValue, IsSafe]
  | .bool b, v, h   => by
    cases v <;> simp [HoldsJson] at h
    simp [writeValue, IsSafe]
  | .num lit, v, h  => by
    rw [IsSafe]
    exact written_number_iff (holds_number_iff.mp h)
  | .str s, v, h    => by
    cases v <;> simp [HoldsJson] at h
    simp [h, writeValue, writeString_ofString, IsSafe]
  | .arr xs, v, h   => by
    cases v <;> simp [HoldsJson] at h
    case slice ys =>
      have hw := written_elements_iff xs h
      rw [writeValue, IsSafe, ← hw]
      cases writeElements ys <;> simp [Written]
  | .obj ms, v, h   => by
    cases v <;> simp [HoldsJson] at h
    case map ms' =>
      rw [writeValue, IsSafe, written_object_iff]
      exact written_members_iff ms h

theorem written_elements_iff : (xs : List Json) → {ys : List Value} → HoldElements xs ys →
    ((∃ css, writeElements ys = .ok css) ↔ AreSafeElements xs)
  | [], ys, h      => by
    cases ys <;> simp [HoldElements] at h
    simp [writeElements, AreSafeElements]
  | x :: xs, ys, h => by
    cases ys <;> simp [HoldElements] at h
    case cons y ys =>
      have hx := written_value_iff x h.1
      have hxs := written_elements_iff xs h.2
      rw [AreSafeElements, ← hx, ← hxs]
      rw [writeElements]
      cases writeElements ys <;> simp [Written, bind_eq_ok_iff]

theorem written_members_iff : (ms : List (String × Json)) → {ms' : List (GoString × Value)} →
    HoldMembers ms ms' → ((∀ m ∈ writtenMembers ms', Written (writeString m.1) ∧ Written m.2) ↔
      AreSafeMembers ms)
  | [], ms', h           => by
    cases ms' <;> simp [HoldMembers] at h
    simp [writtenMembers, AreSafeMembers]
  | (k, v) :: ms, ms', h => by
    cases ms' <;> simp [HoldMembers] at h
    case cons m' ms' =>
      obtain ⟨hk, hv, hms⟩ := h
      have hx := written_value_iff v hv
      have hxs := written_members_iff ms hms
      rw [AreSafeMembers, ← hx, ← hxs, writtenMembers, List.forall_mem_cons]
      simp [hk, written_string]

end

-- The values that a map holds of the members of an object.
theorem lookup_held {ms : List (String × Json)} {ms' : Map} (h : HoldMembers ms ms') (key : String) :
    (ms.lookup key = none ∧ ms'.lookup (Bytes.ofString key) = none) ∨
      ∃ v v', ms.lookup key = some v ∧ ms'.lookup (Bytes.ofString key) = some v' ∧ HoldsJson v v' := by
  induction ms generalizing ms'
  case nil =>
    cases ms' <;> simp [HoldMembers] at h
    simp
  case cons m ms ih =>
    obtain ⟨k, v⟩ := m
    cases ms'
    case nil => simp [HoldMembers] at h
    case cons m' ms' =>
      obtain ⟨k', v'⟩ := m'
      obtain ⟨rfl, hv, hms⟩ := h
      rw [List.lookup_cons, List.lookup_cons]
      by_cases hk : key = k
      case pos => simp [hk, hv]
      case neg =>
        have hb : Bytes.ofString key ≠ Bytes.ofString k := Bytes.ofString_injective.ne hk
        rw [beq_false_of_ne hk, beq_false_of_ne hb]
        exact ih hms

end Go

end Licensing
