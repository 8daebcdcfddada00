import Licensing.Tokens.TokenRoundTrip
import Licensing.Tokens.Verify

-- The members of a payload, as the ports look them up, and the tokens that a verifier with a single
-- key accepts.

namespace Licensing

open JsonText

theorem lookup_map {κ κ' α α' : Type} [BEq κ] [LawfulBEq κ] [BEq κ'] [LawfulBEq κ'] {f : κ → κ'}
    (hf : Function.Injective f) (g : α → α') (ms : List (κ × α)) (k : κ) :
    (ms.map fun m => (f m.1, g m.2)).lookup (f k) = (ms.lookup k).map g := by
  induction ms
  case nil => rfl
  case cons m ms ih =>
    rw [List.map_cons, List.lookup_cons, List.lookup_cons, ih]
    by_cases hk : k = m.1
    case pos => simp [hk]
    case neg => rw [beq_false_of_ne hk, beq_false_of_ne (hf.ne hk)]

-- What a verifier knows that has one key only.
def singleKey {α : Type} (alg : Unit → List α) (kid : List α) : VerifyOptions alg where
  registry := ⟨[()], List.nodup_singleton _⟩
  bindings := ⟨[(kid, alg ())]⟩
  keys     := [(kid, ⟨alg (), "", []⟩)]

theorem Port.run_verifyEnvelope_singleKey {α P κ : Type} [DecidableEq α] {p : Port α P}
    {alg : Unit → List α} {token kid : List α} {parts : DecodedEnvelope (List α) P} {key : κ}
    {answer : (op : BackendOp (List α) Unit κ) → op.Ans} (h : p.decodeEnvelope token = .ok parts)
    (hh : parts.header = ⟨alg (), kid⟩) (hi : ∀ record, answer (.importPublic () record) = .ok key)
    (hv : ∀ data signature, answer (.verify () key data signature) = .ok true) :
    (p.verifyEnvelope (singleKey alg kid) token).run answer = .ok parts := by
  rw [Port.verifyEnvelope, h]
  refine run_verifyDecoded ?_ ?_ ?_ ?_ (hi ⟨alg (), "", []⟩) (hv _ _)
  all_goals simp [hh, singleKey, AlgorithmRegistry.get]

-- A text of a payload.
def text (s : String) : Data :=
  .str s.toList

-- Data is plain unless a member of an object is called `__proto__`.
mutual

theorem plain_raw : (d : Data) → d.Avoids "__proto__".toList → Plain d.raw
  | .null, _ | .bool _, _ | .int _, _ => trivial
  | .str s, _  => by
    rw [Data.raw, Plain, units_map]
    exact paired_utf16 s
  | .arr xs, h => plain_rawElements xs h
  | .obj ms, h => plain_rawMembers ms h

theorem plain_rawElements : (xs : List Data) → Data.AvoidElements "__proto__".toList xs →
    PlainElements (Data.rawElements xs)
  | [], _      => trivial
  | x :: xs, h => ⟨plain_raw x h.1, plain_rawElements xs h.2⟩

theorem plain_rawMembers : (ms : List (List Char × Data)) →
    Data.AvoidMembers "__proto__".toList ms → PlainMembers (Data.rawMembers ms)
  | [], _           => trivial
  | (k, v) :: ms, h => by
    rw [Data.rawMembers, PlainMembers, units_map, Ts.proto_eq]
    exact ⟨⟨paired_utf16 k, utf16_injective.ne h.1.1⟩, plain_raw v h.1.2, plain_rawMembers ms h.2⟩

end

namespace Go

theorem lookup_ofMembers (ms : List (List Char × Data)) (key : String) :
    (ofMembers (Data.rawMembers ms)).lookup (Bytes.ofString key) =
      (ms.lookup key.toList).map fun d => ofRaw d.raw := by
  have hm : ofMembers (Data.rawMembers ms) =
      ms.map fun m => (Bytes.ofString (.ofList m.1), ofRaw m.2.raw) := by
    induction ms
    case nil => rfl
    case cons m ms ih => rw [Data.rawMembers, ofMembers, ih, stringOf_map, List.map_cons]
  have hi : Function.Injective fun s : List Char => Bytes.ofString (.ofList s) := fun _ _ h =>
    String.ofList_injective (Bytes.ofString_injective h)
  rw [hm, ← lookup_map hi, String.ofList_toList]

theorem ofRaw_text (s : String) : ofRaw (text s).raw = .string (Bytes.ofString s) := by
  rw [text, Data.raw, ofRaw, stringOf_map, String.ofList_toList]

end Go

namespace Ts

theorem get?_object (ms : List (List Char × Data)) (key : String) :
    (Value.object (ms.map fun m => (utf16 m.1, ofRaw m.2.raw)) none).get? key =
      (ms.lookup key.toList).map fun d => ofRaw d.raw := by
  rw [← lookup_map utf16_injective, Value.get?, JsString.ofString]
  cases (ms.map fun m => (utf16 m.1, ofRaw m.2.raw)).lookup (utf16 key.toList) <;> rfl

theorem ofRaw_text (s : String) : ofRaw (text s).raw = .string (.ofString s) := by
  rw [text, Data.raw, ofRaw, units_map, JsString.ofString]

theorem ofRaw_int {n : Int} (h : n.natAbs < 2 ^ 53) : ofRaw (Data.int n).raw = .number (.ofInt n) := by
  rw [Data.raw, ofRaw, ofInt_eq h]

end Ts

end Licensing
