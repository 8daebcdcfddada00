import Mathlib.Data.List.Lex
import Mathlib.Data.List.TakeWhile
import Mathlib.Data.Prod.Lex
import Licensing.Library.Base64
import Licensing.Library.JsonText
import Licensing.Library.Utf16
import Licensing.Library.Utf8

namespace Licensing

open JsonText

-- The row that a page ended with.
structure CursorTuple where
  createdAt : String
  id        : String
  deriving DecidableEq, Repr

-- How a port writes cursors, and the units by which it compares texts.
structure Cursors where
  units           : String → List Nat
  encode          : CursorTuple → String
  decode          : String → Option CursorTuple
  units_injective : Function.Injective units
  decode_empty    : decode "" = none
  decode_encode   : ∀ {t : CursorTuple}, t.createdAt ≠ "" → t.id ≠ "" → decode (encode t) = some t

abbrev Cursors.Key := List Nat ×ₗ List Nat

def Cursors.keyOf (c : Cursors) (t : CursorTuple) : Key :=
  toLex (c.units t.createdAt, c.units t.id)

theorem Cursors.keyOf_injective (c : Cursors) : Function.Injective c.keyOf := by
  intro t t' h
  obtain ⟨ht, hi⟩ := Prod.mk.inj (toLex.injective h)
  cases t
  cases t'
  cases c.units_injective ht
  cases c.units_injective hi
  rfl

def cursorJson (e : Escape) (t : CursorTuple) : List Char :=
  '{' :: '\"' :: 'c' :: '\"' :: ':' :: (e.quote t.createdAt.toList ++
    ',' :: '\"' :: 'i' :: '\"' :: ':' :: (e.quote t.id.toList ++ ['}']))

theorem parse_cursorJson (e : Escape) (t : CursorTuple) :
    parse (cursorJson e t) = some (.obj [
      ([.char 'c'], .str (t.createdAt.toList.map e.piece)),
      ([.char 'i'], .str (t.id.toList.map e.piece))]) := by
  have ⟨n, hn⟩ : ∃ n, (cursorJson e t).length + 1 = n + 4 := ⟨_, rfl⟩
  rw [parse, hn]
  simp [cursorJson, Escape.quote, value, members, skipSpace, isSpace, string, e.string_quote]

-- The text of a cursor is never the empty one, which stands for no cursor.
theorem encode_cursorJson_ne (e : Escape) (t : CursorTuple) :
    String.ofList (Base64.encode (Bytes.ofString (.ofList (cursorJson e t)))) ≠ "" := by
  intro h
  have hd := Base64.decode_encode false (Bytes.ofString (.ofList (cursorJson e t)))
  rw [← String.toList_ofList (l := Base64.encode _), h] at hd
  have hs := Bytes.toString?_ofString (.ofList (cursorJson e t))
  rw [← Option.some.inj hd, (by decide : Bytes.toString? [] = some "")] at hs
  have hl := congrArg String.toList (Option.some.inj hs)
  simp [cursorJson] at hl

namespace Go

-- What `encoding/json` escapes besides the control characters.
def isCoded (c : Char) : Bool :=
  c = '<' || c = '>' || c = '&' || c = '\u2028' || c = '\u2029'

def escape : Escape :=
  .of isCoded fun c h => by
    simp only [isCoded, Bool.or_eq_true, decide_eq_true_eq] at h
    rcases h with (((rfl | rfl) | rfl) | rfl) | rfl <;> decide

def encodeCursor (t : CursorTuple) : String :=
  .ofList <| Base64.encode <| Bytes.ofString <| .ofList <| cursorJson escape t

-- `json.Unmarshal` into the two fields of the payload: null leaves a field as it is, anything else
-- that is not a string is an error.
def cursorField (t : CursorTuple) : List Piece × Raw → Option CursorTuple
  | (key, v) =>
    let set (f : String → CursorTuple) : Option CursorTuple :=
      match v with
      | .str ps => some (f (.ofList (text ps)))
      | .null   => some t
      | _       => none
    if text key = ['c'] ∨ text key = ['C'] then set fun s => { t with createdAt := s }
    else if text key = ['i'] ∨ text key = ['I'] then set fun s => { t with id := s }
    else some t

def decodeCursor (s : String) : Option CursorTuple := do
  let bs ← Base64.decode true (s.toList.filter fun c => c ≠ '\r' ∧ c ≠ '\n')
  let zero : CursorTuple := { createdAt := "", id := "" }
  let t ← match ← parse (Utf8.decodeBytes bs) with
    | .obj ms => ms.foldlM cursorField zero
    | .null   => some zero
    | _       => none
  if t.createdAt = "" ∨ t.id = "" then none else some t

theorem decodeCursor_encodeCursor_eq (t : CursorTuple) :
    decodeCursor (encodeCursor t) = if t.createdAt = "" ∨ t.id = "" then none else some t := by
  have hf : ((encodeCursor t).toList.filter fun c => c ≠ '\r' ∧ c ≠ '\n') = (encodeCursor t).toList := by
    refine List.filter_eq_self.mpr ?_
    rw [encodeCursor, String.toList_ofList]
    exact Base64.forall_mem_encode (by decide) _
  rw [decodeCursor, hf]
  simp [encodeCursor, parse_cursorJson, cursorField, escape.text_map, text]

theorem decodeCursor_encodeCursor {t : CursorTuple} (hc : t.createdAt ≠ "") (hi : t.id ≠ "") :
    decodeCursor (encodeCursor t) = some t := by
  simp [decodeCursor_encodeCursor_eq, hc, hi]

-- Texts are compared bytewise.
def bytes (s : String) : List Nat :=
  (Bytes.ofString s).map UInt8.toNat

theorem bytes_injective : Function.Injective bytes := by
  intro s t h
  refine Bytes.ofString_injective (List.map_injective_iff.mpr ?_ h)
  exact fun _ _ => UInt8.toNat_inj.mp

def cursors : Cursors where
  units           := bytes
  encode          := encodeCursor
  decode          := decodeCursor
  units_injective := bytes_injective
  decode_empty    := rfl
  decode_encode   := decodeCursor_encodeCursor

end Go

namespace Ts

-- `JSON.stringify` escapes nothing else.
def escape : Escape :=
  .short

def encodeCursor (t : CursorTuple) : String :=
  .ofList <| Base64.encode <| Bytes.ofString <| .ofList <| cursorJson escape t

-- A property of an object that `JSON.parse` returns: the last member of that name.
def property? (key : String) (ms : List (List Piece × Raw)) : Option Raw :=
  ms.reverse.findSome? fun (k, v) => if text k = key.toList then some v else none

-- `Buffer.from(s, 'base64url')` skips what is not in either alphabet and stops at padding.
def bufferFrom (s : String) : Option (List UInt8) :=
  let cs := (s.toList.takeWhile (· ≠ '=')).map fun c =>
    if c = '+' then '-' else if c = '/' then '_' else c
  Base64.decode false (cs.filter fun c => (Base64.sextet? c).isSome)

def decodeCursor (s : String) : Option CursorTuple := do
  if s = "" then none
  match ← parse (Utf8.decodeSequences (← bufferFrom s)) with
  | .obj ms =>
    match property? "c" ms, property? "i" ms with
    | some (.str c), some (.str i) => some { createdAt := .ofList (text c), id := .ofList (text i) }
    | _, _ => none
  | _ => none

theorem decodeCursor_encodeCursor (t : CursorTuple) : decodeCursor (encodeCursor t) = some t := by
  have hne : encodeCursor t ≠ "" := encode_cursorJson_ne escape t
  have hb : bufferFrom (encodeCursor t) = some (Bytes.ofString (.ofList (cursorJson escape t))) := by
    rw [bufferFrom, encodeCursor, String.toList_ofList]
    rw [List.takeWhile_eq_self_iff.mpr (Base64.forall_mem_encode (by decide) _)]
    rw [List.map_congr_left (Base64.forall_mem_encode (p := fun c => _ = c) (by decide) _), List.map_id']
    rw [List.filter_eq_self.mpr (Base64.forall_mem_encode (by decide) _), Base64.decode_encode]
  simp [decodeCursor, hne, hb, parse_cursorJson, property?, escape.text_map, text]

def codeUnits (s : String) : List Nat :=
  (utf16 s.toList).map UInt16.toNat

theorem codeUnits_injective : Function.Injective codeUnits := by
  intro s t h
  refine String.toList_injective (utf16_injective (List.map_injective_iff.mpr ?_ h))
  exact fun _ _ => UInt16.toNat_inj.mp

def cursors : Cursors where
  units           := codeUnits
  encode          := encodeCursor
  decode          := decodeCursor
  units_injective := codeUnits_injective
  decode_empty    := rfl
  decode_encode   := fun _ _ => decodeCursor_encodeCursor _

end Ts

end Licensing
