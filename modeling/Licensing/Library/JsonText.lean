import Mathlib.Data.List.Basic

-- The text of JSON values (RFC 8259). A string is kept as it is written, in characters and in the
-- UTF-16 code units of its `\u` escapes, since languages differ in what they make of the latter.

namespace JsonText

inductive Piece
  | char (c : Char)
  | unit (u : UInt16)
  deriving DecidableEq, Repr

inductive Raw
  | null
  | bool (b : Bool)
  | num (lit : List Char)
  | str (ps : List Piece)
  | arr (xs : List Raw)
  | obj (ms : List (List Piece × Raw))
  deriving Repr, Inhabited

def isSpace (c : Char) : Bool :=
  c = ' ' || c = '\t' || c = '\n' || c = '\r'

def skipSpace : List Char → List Char
  | c :: cs => if isSpace c then skipSpace cs else c :: cs
  | []      => []

def hex? (c : Char) : Option Nat :=
  if '0' ≤ c ∧ c ≤ '9' then some (c.toNat - 48)
  else if 'a' ≤ c ∧ c ≤ 'f' then some (c.toNat - 87)
  else if 'A' ≤ c ∧ c ≤ 'F' then some (c.toNat - 55)
  else none

def hex4? (a b c d : Char) : Option UInt16 := do
  return .ofNat ((← hex? a) * 4096 + (← hex? b) * 256 + (← hex? c) * 16 + (← hex? d))

def unescape? : Char → Option Char
  | '\"' => some '\"'
  | '\\' => some '\\'
  | '/'  => some '/'
  | 'b'  => some '\x08'
  | 'f'  => some '\x0c'
  | 'n'  => some '\n'
  | 'r'  => some '\r'
  | 't'  => some '\t'
  | _    => none

-- The rest of a string after its opening quote.
def string : List Char → Option (List Piece × List Char)
  | '\"' :: cs => some ([], cs)
  | '\\' :: 'u' :: a :: b :: c :: d :: cs =>
    (hex4? a b c d).bind fun u => (string cs).map fun (ps, cs) => (.unit u :: ps, cs)
  | '\\' :: e :: cs => (unescape? e).bind fun c => (string cs).map fun (ps, cs) => (.char c :: ps, cs)
  | c :: cs =>
    if c.toNat < 32 then none
    else (string cs).map fun (ps, cs) => (.char c :: ps, cs)
  | [] => none

-- One digit or more.
def digits (cs : List Char) : Option (List Char × List Char) :=
  match cs.span Char.isDigit with
  | ([], _) => none
  | ds      => some ds

def intPart : List Char → Option (List Char × List Char)
  | '0' :: cs => some (['0'], cs)
  | cs        => digits cs

def fracPart : List Char → Option (List Char × List Char)
  | '.' :: cs => (digits cs).map fun (ds, cs) => ('.' :: ds, cs)
  | cs        => some ([], cs)

def expPart : List Char → Option (List Char × List Char)
  | e :: s :: cs =>
    if e = 'e' ∨ e = 'E' then
      if s = '+' ∨ s = '-' then (digits cs).map fun (ds, cs) => (e :: s :: ds, cs)
      else (digits (s :: cs)).map fun (ds, cs) => (e :: ds, cs)
    else some ([], e :: s :: cs)
  | [e] => if e = 'e' ∨ e = 'E' then none else some ([], [e])
  | []  => some ([], [])

def unsigned (cs : List Char) : Option (List Char × List Char) := do
  let (int, cs)  ← intPart cs
  let (frac, cs) ← fracPart cs
  let (exp, cs)  ← expPart cs
  return (int ++ frac ++ exp, cs)

def number : List Char → Option (List Char × List Char)
  | '-' :: cs => (unsigned cs).map fun (lit, cs) => ('-' :: lit, cs)
  | cs        => unsigned cs

namespace Raw

variable {κ : Type} (name : List Piece → κ)

-- No object has two members of one name, whatever counts as the name of a key.
mutual

def Distinct : Raw → Prop
  | arr xs => DistinctElements xs
  | obj ms => (ms.map fun m => name m.1).Nodup ∧ DistinctMembers ms
  | _      => True

def DistinctElements : List Raw → Prop
  | []      => True
  | x :: xs => x.Distinct ∧ DistinctElements xs

def DistinctMembers : List (List Piece × Raw) → Prop
  | []           => True
  | (_, v) :: ms => v.Distinct ∧ DistinctMembers ms

end

theorem distinctMembers_iff (ms : List (List Piece × Raw)) :
    DistinctMembers name ms ↔ ∀ m ∈ ms, m.2.Distinct name := by
  induction ms
  case nil => simp [DistinctMembers]
  case cons m ms ih => simp [DistinctMembers, ih]

end Raw

-- The number bounds the nesting and the length of what is read.
mutual

def value : Nat → List Char → Option (Raw × List Char)
  | 0,     _  => none
  | n + 1, cs =>
    match skipSpace cs with
    | '{' :: cs =>
      match skipSpace cs with
      | '}' :: cs => some (.obj [], cs)
      | cs        => (members n cs).map fun (ms, cs) => (.obj ms, cs)
    | '[' :: cs =>
      match skipSpace cs with
      | ']' :: cs => some (.arr [], cs)
      | cs        => (elements n cs).map fun (xs, cs) => (.arr xs, cs)
    | '\"' :: cs                            => (string cs).map fun (ps, cs) => (.str ps, cs)
    | 'n' :: 'u' :: 'l' :: 'l' :: cs        => some (.null, cs)
    | 't' :: 'r' :: 'u' :: 'e' :: cs        => some (.bool true, cs)
    | 'f' :: 'a' :: 'l' :: 's' :: 'e' :: cs => some (.bool false, cs)
    | cs                                    => (number cs).map fun (lit, cs) => (.num lit, cs)

def members : Nat → List Char → Option (List (List Piece × Raw) × List Char)
  | 0,     _  => none
  | n + 1, cs =>
    match skipSpace cs with
    | '\"' :: cs => do
      let (key, cs) ← string cs
      match skipSpace cs with
      | ':' :: cs => do
        let (v, cs) ← value n cs
        match skipSpace cs with
        | ',' :: cs => (members n cs).map fun (ms, cs) => ((key, v) :: ms, cs)
        | '}' :: cs => some ([(key, v)], cs)
        | _         => none
      | _ => none
    | _ => none

def elements : Nat → List Char → Option (List Raw × List Char)
  | 0,     _  => none
  | n + 1, cs => do
    let (v, cs) ← value n cs
    match skipSpace cs with
    | ',' :: cs => (elements n cs).map fun (xs, cs) => (v :: xs, cs)
    | ']' :: cs => some ([v], cs)
    | _         => none

end

def parse (cs : List Char) : Option Raw := do
  let (v, rest) ← value (cs.length + 1) cs
  if skipSpace rest = [] then some v else none

theorem parse_eq_some_iff {cs : List Char} {v : Raw} :
    parse cs = some v ↔ ∃ rest, value (cs.length + 1) cs = some (v, rest) ∧ skipSpace rest = [] := by
  unfold parse
  match value (cs.length + 1) cs with
  | none           => simp
  | some (v', rest) => by_cases h : skipSpace rest = [] <;> simp [h]

def isHigh (u : UInt16) : Bool :=
  0xd800 ≤ u.toNat && u.toNat < 0xdc00

def isLow (u : UInt16) : Bool :=
  0xdc00 ≤ u.toNat && u.toNat < 0xe000

def charOfPair (u v : UInt16) : Char :=
  .ofNat (0x10000 + (u.toNat - 0xd800) * 1024 + (v.toNat - 0xdc00))

def charOfUnit (u : UInt16) : Char :=
  if isHigh u ∨ isLow u then '\ufffd' else .ofNat u.toNat

-- The well-formed text of a string: a pair of surrogates is one character, and a surrogate without
-- its partner is replaced by U+FFFD.
def text : List Piece → List Char
  | .unit u :: .unit v :: ps =>
    if isHigh u ∧ isLow v then charOfPair u v :: text ps else charOfUnit u :: text (.unit v :: ps)
  | .unit u :: ps => charOfUnit u :: text ps
  | .char c :: ps => c :: text ps
  | []            => []

-- What an encoder writes for the character, and the piece that is read back.
structure Escape where
  write : Char → List Char
  piece : Char → Piece
  read  : ∀ c cs, string (write c ++ cs) = (string cs).map fun (ps, cs) => (piece c :: ps, cs)
  text  : ∀ c ps, text (piece c :: ps) = c :: text ps

namespace Escape

variable (e : Escape)

def quote (s : List Char) : List Char :=
  '\"' :: (s.flatMap e.write ++ ['\"'])

theorem string_quote (s cs : List Char) :
    string (s.flatMap e.write ++ '\"' :: cs) = some (s.map e.piece, cs) := by
  induction s
  case nil => simp [string]
  case cons c s ih => simp [e.read, ih]

theorem text_map (s : List Char) : JsonText.text (s.map e.piece) = s := by
  induction s
  case nil => simp [JsonText.text]
  case cons c s ih => simp [e.text, ih]

end Escape

def hexDigit (n : Nat) : Char :=
  if n < 10 then .ofNat (n + 48) else .ofNat (n + 87)

def unicodeEscape (u : UInt16) : List Char :=
  ['\\', 'u', hexDigit (u.toNat / 4096), hexDigit (u.toNat / 256 % 16), hexDigit (u.toNat / 16 % 16),
    hexDigit (u.toNat % 16)]

theorem hex?_hexDigit : ∀ n < 16, hex? (hexDigit n) = some n := by
  decide

theorem string_unicodeEscape (u : UInt16) (cs : List Char) :
    string (unicodeEscape u ++ cs) = (string cs).map fun (ps, cs) => (.unit u :: ps, cs) := by
  have lt := u.toNat_lt
  have h₁ := hex?_hexDigit (u.toNat / 4096) (by omega)
  have h₂ := hex?_hexDigit (u.toNat / 256 % 16) (by omega)
  have h₃ := hex?_hexDigit (u.toNat / 16 % 16) (by omega)
  have h₄ := hex?_hexDigit (u.toNat % 16) (by omega)
  have value : u.toNat / 4096 * 4096 + u.toNat / 256 % 16 * 256 + u.toNat / 16 % 16 * 16 +
      u.toNat % 16 = u.toNat := by omega
  have hu : hex4? (hexDigit (u.toNat / 4096)) (hexDigit (u.toNat / 256 % 16))
      (hexDigit (u.toNat / 16 % 16)) (hexDigit (u.toNat % 16)) = some u := by
    simp only [hex4?, h₁, h₂, h₃, h₄, Option.bind_eq_bind, Option.bind_some, Option.pure_def, value,
      UInt16.ofNat_toNat]
  simp only [unicodeEscape, List.cons_append, List.nil_append, string, hu, Option.bind_some]

def letter? : Char → Option Char
  | '\"'   => some '\"'
  | '\\'   => some '\\'
  | '\x08' => some 'b'
  | '\x0c' => some 'f'
  | '\n'   => some 'n'
  | '\r'   => some 'r'
  | '\t'   => some 't'
  | _      => none

theorem unescape?_of_letter? {c e : Char} (h : letter? c = some e) :
    unescape? e = some c ∧ e ≠ 'u' := by
  unfold letter? at h
  split at h <;> cases h <;> decide

-- The characters that are not written as they are: those with a letter of their own, the control
-- characters, and those that `coded` names.
def Escape.write' (coded : Char → Bool) (c : Char) : List Char :=
  match letter? c with
  | some e => ['\\', e]
  | none   => if c.toNat < 32 ∨ coded c then unicodeEscape (.ofNat c.toNat) else [c]

def Escape.piece' (coded : Char → Bool) (c : Char) : Piece :=
  match letter? c with
  | some _ => .char c
  | none   => if c.toNat < 32 ∨ coded c then .unit (.ofNat c.toNat) else .char c

theorem string_cons {c : Char} (h : 32 ≤ c.toNat) (hq : c ≠ '\"') (hb : c ≠ '\\') (cs : List Char) :
    string (c :: cs) = (string cs).map fun (ps, cs) => (.char c :: ps, cs) := by
  have h' : ¬c.toNat < 32 := by omega
  rw [string.eq_def]
  split
  case h_4 c' cs' _ _ _ heq =>
    cases heq
    rw [if_neg h']
  all_goals simp_all

theorem string_letter {c e : Char} (h : letter? c = some e) (cs : List Char) :
    string ('\\' :: e :: cs) = (string cs).map fun (ps, cs) => (.char c :: ps, cs) := by
  have ⟨hc, hu⟩ := unescape?_of_letter? h
  rw [string.eq_def]
  split
  case h_3 e' cs' _ heq =>
    cases heq
    rw [hc, Option.bind_some]
  case h_4 hn heq =>
    cases heq
    exact absurd rfl (hn _ _ rfl)
  all_goals simp_all

theorem charOfUnit_ofNat {c : Char} (h : c.toNat < 0xd800) :
    isHigh (.ofNat c.toNat) = false ∧ charOfUnit (.ofNat c.toNat) = c := by
  have hn : (UInt16.ofNat c.toNat).toNat = c.toNat := UInt16.toNat_ofNat_of_lt (Nat.lt_trans h (by decide))
  have hh : isHigh (.ofNat c.toNat) = false := by simp [isHigh, hn]; omega
  have hl : isLow (.ofNat c.toNat) = false := by simp [isLow, hn]; omega
  exact ⟨hh, by simp [charOfUnit, hh, hl, hn, Char.ofNat_toNat]⟩

def Escape.of (coded : Char → Bool) (h : ∀ c, coded c → c.toNat < 0xd800) : Escape where
  write := write' coded
  piece := piece' coded
  read c cs := by
    unfold write' piece'
    split
    case h_1 e he => exact string_letter he cs
    case h_2 hn =>
      split
      case isTrue hc => exact string_unicodeEscape _ cs
      case isFalse hc =>
        simp only [not_or] at hc
        exact string_cons (by omega) (by rintro rfl; simp [letter?] at hn)
          (by rintro rfl; simp [letter?] at hn) cs
  text c ps := by
    unfold piece'
    split
    case h_1 => simp [JsonText.text]
    case h_2 =>
      split
      case isTrue hc =>
        have ⟨hh, hu⟩ := charOfUnit_ofNat (c := c) (hc.elim (by omega) (h c))
        cases ps
        case nil => simp [JsonText.text, hu]
        case cons p ps => cases p <;> simp [JsonText.text, hh, hu]
      case isFalse => simp [JsonText.text]

-- Nothing but the control characters, the quote and the backslash.
def Escape.short : Escape :=
  .of (fun _ => false) nofun

-- What is beyond ASCII is copied.
theorem Escape.short_write {c : Char} (h : 0x80 ≤ c.toNat) : Escape.short.write c = [c] := by
  change Escape.write' (fun _ => false) c = [c]
  unfold Escape.write'
  split
  case h_1 e he =>
    unfold letter? at he
    split at he
    case h_8 => cases he
    all_goals exact absurd h (by decide)
  case h_2 => rw [if_neg (by simp; omega)]

end JsonText
