import Licensing.Library.JsonText

-- A decoder that hands out the tokens of a JSON text one after the other.

namespace JsonText

theorem not_isSpace_of_skipSpace {c : Char} {cs rest : List Char} (h : skipSpace cs = c :: rest) :
    isSpace c = false := by
  induction cs
  case nil => cases h
  case cons a cs ih =>
    rw [skipSpace] at h
    split at h
    case isTrue => exact ih h
    case isFalse hs =>
      cases h
      simpa using hs

theorem skipSpace_skipSpace (cs : List Char) : skipSpace (skipSpace cs) = skipSpace cs := by
  induction cs
  case nil => rfl
  case cons c cs ih =>
    rw [skipSpace]
    split
    case isTrue    => exact ih
    case isFalse h => rw [skipSpace, if_neg h]

namespace Decoder

inductive Token
  | delim (c : Char)
  | null
  | bool (b : Bool)
  | num (lit : List Char)
  | str (ps : List Piece)

-- What may come next.
inductive State
  | topValue
  | arrayStart
  | arrayValue
  | arrayComma
  | objectStart
  | objectKey
  | objectColon
  | objectValue
  | objectComma
  deriving DecidableEq, Repr

namespace State

def allowsValue : State → Bool
  | topValue | arrayStart | arrayValue | objectValue => true
  | _                                                => false

def afterValue : State → State
  | arrayStart | arrayValue => arrayComma
  | objectValue             => objectComma
  | s                       => s

theorem not_key_of_allowsValue {state : State} (h : state.allowsValue) :
    state ≠ .objectStart ∧ state ≠ .objectKey := by
  cases state <;> simp_all [allowsValue]

end State

end Decoder

-- The states of the arrays and objects that are open are on the stack.
structure Decoder where
  input : List Char
  state : Decoder.State := .topValue
  stack : List Decoder.State := []

namespace Decoder

-- A value that is no array and no object.
def scalar : List Char → Option (Token × List Char)
  | '\"' :: cs                            => (string cs).map fun (ps, cs) => (.str ps, cs)
  | 'n' :: 'u' :: 'l' :: 'l' :: cs        => some (.null, cs)
  | 't' :: 'r' :: 'u' :: 'e' :: cs        => some (.bool true, cs)
  | 'f' :: 'a' :: 'l' :: 's' :: 'e' :: cs => some (.bool false, cs)
  | cs                                    => (number cs).map fun (lit, cs) => (.num lit, cs)

def scalarToken (stack : List State) (state : State) (cs : List Char) : Option (Token × Decoder) :=
  if state.allowsValue then (scalar cs).map fun (t, cs) => (t, ⟨cs, state.afterValue, stack⟩) else none

def openToken (stack : List State) (state : State) (c : Char) (start : State) (cs : List Char) :
    Option (Token × Decoder) :=
  if state.allowsValue then some (.delim c, ⟨cs, start, state :: stack⟩) else none

def closeToken (c : Char) (cs : List Char) : List State → Option (Token × Decoder)
  | []             => none
  | outer :: stack => some (.delim c, ⟨cs, outer.afterValue, stack⟩)

-- A comma and a colon are passed over where they belong.
def tokenFrom (stack : List State) : State → List Char → Option (Token × Decoder)
  | _,     []      => none
  | state, c :: cs =>
    if isSpace c then tokenFrom stack state cs
    else if c = '[' then openToken stack state '[' .arrayStart cs
    else if c = ']' then
      if state = .arrayStart ∨ state = .arrayComma then closeToken ']' cs stack else none
    else if c = '{' then openToken stack state '{' .objectStart cs
    else if c = '}' then
      if state = .objectStart ∨ state = .objectComma then closeToken '}' cs stack else none
    else if c = ':' then
      if state = .objectColon then tokenFrom stack .objectValue cs else none
    else if c = ',' then
      if state = .arrayComma then tokenFrom stack .arrayValue cs
      else if state = .objectComma then tokenFrom stack .objectKey cs
      else none
    else if c = '\"' ∧ (state = .objectStart ∨ state = .objectKey) then
      (string cs).map fun (ps, cs) => (.str ps, ⟨cs, .objectColon, stack⟩)
    else scalarToken stack state (c :: cs)

def token (d : Decoder) : Option (Token × Decoder) :=
  tokenFrom d.stack d.state d.input

-- A closing bracket is taken for the end.
def more (d : Decoder) : Bool :=
  match skipSpace d.input with
  | []     => false
  | c :: _ => c ≠ ']' ∧ c ≠ '}'

theorem tokenFrom_skipSpace (stack : List State) (state : State) (cs : List Char) :
    tokenFrom stack state (skipSpace cs) = tokenFrom stack state cs := by
  induction cs
  case nil => rfl
  case cons c cs ih =>
    rw [skipSpace]
    split
    case isTrue h => rw [ih, tokenFrom, if_pos h]
    case isFalse  => rfl

section Token

variable {stack : List State} {state : State} {c : Char} {cs rest : List Char}

theorem token_eq (h : skipSpace cs = rest) : token ⟨cs, state, stack⟩ = tokenFrom stack state rest := by
  rw [token, ← h, tokenFrom_skipSpace]

theorem token_nil (h : skipSpace cs = []) : token ⟨cs, state, stack⟩ = none := by
  rw [token_eq h, tokenFrom]

theorem token_bracket (h : skipSpace cs = '[' :: rest) (allows : state.allowsValue) :
    token ⟨cs, state, stack⟩ = some (.delim '[', ⟨rest, .arrayStart, state :: stack⟩) := by
  rw [token_eq h]
  simp [tokenFrom, isSpace, openToken, allows]

theorem token_brace (h : skipSpace cs = '{' :: rest) (allows : state.allowsValue) :
    token ⟨cs, state, stack⟩ = some (.delim '{', ⟨rest, .objectStart, state :: stack⟩) := by
  rw [token_eq h]
  simp [tokenFrom, isSpace, openToken, allows]

theorem token_endArray {outer : State} (h : skipSpace cs = ']' :: rest)
    (hs : state = .arrayStart ∨ state = .arrayComma) :
    token ⟨cs, state, outer :: stack⟩ = some (.delim ']', ⟨rest, outer.afterValue, stack⟩) := by
  rw [token_eq h]
  simp [tokenFrom, isSpace, closeToken, hs]

theorem token_endObject {outer : State} (h : skipSpace cs = '}' :: rest)
    (hs : state = .objectStart ∨ state = .objectComma) :
    token ⟨cs, state, outer :: stack⟩ = some (.delim '}', ⟨rest, outer.afterValue, stack⟩) := by
  rw [token_eq h]
  simp [tokenFrom, isSpace, closeToken, hs]

theorem token_scalar (h : skipSpace cs = c :: rest) (hc : c ∉ ['[', ']', '{', '}', ':', ','])
    (hs : c ≠ '\"' ∨ state ≠ .objectStart ∧ state ≠ .objectKey) :
    token ⟨cs, state, stack⟩ = scalarToken stack state (c :: rest) := by
  rw [token_eq h]
  simp only [List.mem_cons, List.not_mem_nil, or_false, not_or] at hc
  have hq : ¬(c = '\"' ∧ (state = .objectStart ∨ state = .objectKey)) := by tauto
  simp [tokenFrom, not_isSpace_of_skipSpace h, hc, hq]

theorem token_key (h : skipSpace cs = '\"' :: rest) (hs : state = .objectStart ∨ state = .objectKey) :
    token ⟨cs, state, stack⟩ = (string rest).map fun (ps, cs) => (.str ps, ⟨cs, .objectColon, stack⟩) := by
  rw [token_eq h]
  simp [tokenFrom, isSpace, hs]

-- A bracket that closes, a comma or a colon where a value is to come.
theorem token_stray (h : skipSpace cs = c :: rest) (hc : c ∈ [']', '}', ':', ',']) (allows : state.allowsValue) :
    token ⟨cs, state, stack⟩ = none ∨ ∃ d, token ⟨cs, state, stack⟩ = some (.delim c, d) := by
  rw [token_eq h]
  simp only [List.mem_cons, List.not_mem_nil, or_false] at hc
  rcases hc with rfl | rfl | rfl | rfl <;> cases state <;> cases stack <;>
    simp_all [tokenFrom, isSpace, closeToken, State.allowsValue]

theorem token_comma_array (h : skipSpace cs = ',' :: rest) :
    token ⟨cs, .arrayComma, stack⟩ = token ⟨rest, .arrayValue, stack⟩ := by
  rw [token_eq h, token]
  simp [tokenFrom, isSpace]

theorem token_comma_object (h : skipSpace cs = ',' :: rest) :
    token ⟨cs, .objectComma, stack⟩ = token ⟨rest, .objectKey, stack⟩ := by
  rw [token_eq h, token]
  simp [tokenFrom, isSpace]

theorem token_colon (h : skipSpace cs = ':' :: rest) :
    token ⟨cs, .objectColon, stack⟩ = token ⟨rest, .objectValue, stack⟩ := by
  rw [token_eq h, token]
  simp [tokenFrom, isSpace]

-- What may come next if no value may.
def State.admits (state : State) (c : Char) : Prop :=
  match state with
  | .arrayComma  => c = ',' ∨ c = ']'
  | .objectStart => c = '\"' ∨ c = '}'
  | .objectKey   => c = '\"'
  | .objectColon => c = ':'
  | .objectComma => c = ',' ∨ c = '}'
  | _            => True

theorem token_eq_none (h : ∀ c rest, skipSpace cs = c :: rest → ¬state.admits c) :
    token ⟨cs, state, stack⟩ = none := by
  cases hc : skipSpace cs
  case nil => exact token_nil hc
  case cons c rest =>
    have not_admits := h c rest hc
    rw [token_eq hc]
    cases state <;>
      simp_all [tokenFrom, not_isSpace_of_skipSpace hc, openToken, scalarToken, State.allowsValue, State.admits]

theorem token_skipSpace : token ⟨skipSpace cs, state, stack⟩ = token ⟨cs, state, stack⟩ :=
  tokenFrom_skipSpace stack state cs

-- An object that does not end goes on with a name.
theorem token_objectStart (h : more ⟨cs, .objectStart, stack⟩) :
    token ⟨cs, .objectStart, stack⟩ = token ⟨skipSpace cs, .objectKey, stack⟩ := by
  rw [token_skipSpace]
  cases hc : skipSpace cs
  case nil => rw [token_nil hc, token_nil hc]
  case cons c rest =>
    simp only [more, hc, decide_eq_true_eq] at h
    rw [token_eq hc, token_eq hc]
    simp [tokenFrom, not_isSpace_of_skipSpace hc, h, openToken, scalarToken, State.allowsValue]

theorem closes_of_not_more {d : Decoder} (h : d.more = false) (hc : skipSpace d.input = c :: rest) :
    c = ']' ∨ c = '}' := by
  simp only [more, hc, decide_eq_false_iff_not] at h
  tauto

-- The end of something else.
theorem token_of_not_more (h : more ⟨cs, state, stack⟩ = false)
    (array : state = .arrayStart → ∀ rest, skipSpace cs ≠ ']' :: rest)
    (object : state = .objectStart → ∀ rest, skipSpace cs ≠ '}' :: rest)
    (start : state = .arrayStart ∨ state = .objectStart) : token ⟨cs, state, stack⟩ = none := by
  cases hc : skipSpace cs
  case nil => exact token_nil hc
  case cons c rest =>
    have hb := closes_of_not_more h hc
    rw [token_eq hc]
    rcases start with rfl | rfl
    case inl =>
      rcases hb with rfl | rfl
      case inl => exact (array rfl rest hc).elim
      case inr => simp [tokenFrom, isSpace]
    case inr =>
      rcases hb with rfl | rfl
      case inl => simp [tokenFrom, isSpace]
      case inr => exact (object rfl rest hc).elim

end Token

theorem scalar_number {cs : List Char} (hs : ∀ rest, cs ≠ '\"' :: rest)
    (hn : ∀ rest, cs ≠ 'n' :: 'u' :: 'l' :: 'l' :: rest) (ht : ∀ rest, cs ≠ 't' :: 'r' :: 'u' :: 'e' :: rest)
    (hf : ∀ rest, cs ≠ 'f' :: 'a' :: 'l' :: 's' :: 'e' :: rest) :
    scalar cs = (number cs).map fun (lit, cs) => (.num lit, cs) := by
  rw [scalar.eq_def]
  split
  case h_1 rest => exact (hs rest rfl).elim
  case h_2 rest => exact (hn rest rfl).elim
  case h_3 rest => exact (ht rest rfl).elim
  case h_4 rest => exact (hf rest rfl).elim
  case h_5      => rfl

theorem number_stray {c : Char} (h : c ∈ [']', '}', ':', ',']) (cs : List Char) : number (c :: cs) = none := by
  simp only [List.mem_cons, List.not_mem_nil, or_false] at h
  rcases h with rfl | rfl | rfl | rfl <;> rfl

end Decoder

end JsonText
