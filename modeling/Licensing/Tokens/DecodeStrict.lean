import Licensing.Library.JsonDecoder
import Licensing.Library.JsonReader
import Licensing.Tokens.Base64url
import Licensing.Tokens.Values

-- The token loop that Go reads JSON values with, and the grammar that it reads.

namespace Licensing

open JsonText

namespace Go

def stringOf (ps : List Piece) : GoString :=
  Bytes.ofString (.ofList (text ps))

def duplicateKey (label : String) (key : List Piece) : Error :=
  newError .canonicalJSONDuplicateKey (label ++ " contains duplicate key: " ++ .ofList (text key))

-- The decoder uses `UseNumber`. What its own errors say is left out of the texts. The number bounds the nesting
-- and the length of what is read.
mutual

def decodeStrictValue (label : String) : Nat → Decoder → Except Error (Value × Decoder)
  | 0,     _   => .error (tokenMalformed (label ++ " JSON parse failed"))
  | n + 1, dec =>
    match dec.token with
    | none                 => .error (tokenMalformed (label ++ " JSON parse failed"))
    | some (.delim t, dec) =>
      if t = '{' then do
        let (obj, dec) ← decodeStrictObject label n [] dec
        return (.map obj, dec)
      else if t = '[' then do
        let (arr, dec) ← decodeStrictArray label n [] dec
        return (.slice arr, dec)
      else .error (tokenMalformed (label ++ " unexpected delimiter: " ++ t.toString))
    | some (.null, dec)    => .ok (.nil, dec)
    | some (.bool b, dec)  => .ok (.bool b, dec)
    | some (.num lit, dec) => .ok (.number (.ofList lit), dec)
    | some (.str ps, dec)  => .ok (.string (stringOf ps), dec)

def decodeStrictObject (label : String) (n : Nat) (obj : Map) (dec : Decoder) : Except Error (Map × Decoder) :=
  if dec.more then
    match n with
    | 0     => .error (tokenMalformed (label ++ " JSON parse failed"))
    | n + 1 =>
      match dec.token with
      | none                 => .error (tokenMalformed (label ++ " object key parse failed"))
      | some (.str key, dec) => do
        if (obj.lookup (stringOf key)).isSome then .error (duplicateKey label key)
        let (val, dec) ← decodeStrictValue label n dec
        decodeStrictObject label n (obj ++ [(stringOf key, val)]) dec
      | some _               => .error (tokenMalformed (label ++ " object key is not a string"))
  else
    match dec.token with
    | none          => .error (tokenMalformed (label ++ " object close parse failed"))
    | some (_, dec) => .ok (obj, dec)

def decodeStrictArray (label : String) (n : Nat) (arr : List Value) (dec : Decoder) :
    Except Error (List Value × Decoder) :=
  if dec.more then
    match n with
    | 0     => .error (tokenMalformed (label ++ " JSON parse failed"))
    | n + 1 => do
      let (val, dec) ← decodeStrictValue label n dec
      decodeStrictArray label n (arr ++ [val]) dec
  else
    match dec.token with
    | none          => .error (tokenMalformed (label ++ " array close parse failed"))
    | some (_, dec) => .ok (arr, dec)

end

-- The reading of the grammar that the decoder carries out.
def strictReader (label : String) : Reader Value Map Error where
  null           := .nil
  bool           := .bool
  num lit        := .ok (.number (.ofList lit))
  str ps         := .string (stringOf ps)
  arr            := .slice
  obj            := .map
  empty          := []
  check key o    := if (o.lookup (stringOf key)).isSome then .error (duplicateKey label key) else .ok ()
  assign key v o := o ++ [(stringOf key, v)]
  malformed      := tokenMalformed (label ++ " JSON parse failed")

-- The decoder comes to where the reader comes to. What is malformed is worded by what was being read.
inductive StrictReads (state : Decoder.State) (stack : List Decoder.State) :
    Except Error (Value × List Char) → Except Error (Value × Decoder) → Prop
  | ok (v : Value) (cs : List Char) : StrictReads state stack (.ok (v, cs)) (.ok (v, ⟨cs, state, stack⟩))
  | same (e : Error) : StrictReads state stack (.error e) (.error e)
  | malformed (reason reason' : String) :
    StrictReads state stack (.error (tokenMalformed reason)) (.error (tokenMalformed reason'))

namespace StrictReads

variable {state state' : Decoder.State} {stack stack' : List Decoder.State}
  {x : Except Error (Value × List Char)} {y : Except Error (Value × Decoder)}

theorem bind {f : Value × List Char → Except Error (Value × List Char)}
    {g : Value × Decoder → Except Error (Value × Decoder)} (h : StrictReads state stack x y)
    (next : ∀ v cs, StrictReads state' stack' (f (v, cs)) (g (v, ⟨cs, state, stack⟩))) :
    StrictReads state' stack' (x >>= f) (y >>= g) := by
  cases h
  case ok v cs                 => exact next v cs
  case same e                  => exact .same e
  case malformed reason reason' => exact .malformed reason reason'

end StrictReads

section StrictReads

variable (label : String) {state : Decoder.State} {stack : List Decoder.State} {n : Nat} {cs rest : List Char}
  {dec dec' : Decoder}

-- The value that a loop makes.
def decodeObject (n : Nat) (obj : Map) (dec : Decoder) : Except Error (Value × Decoder) := do
  let (obj, dec) ← decodeStrictObject label n obj dec
  return (.map obj, dec)

def decodeArray (n : Nat) (arr : List Value) (dec : Decoder) : Except Error (Value × Decoder) := do
  let (arr, dec) ← decodeStrictArray label n arr dec
  return (.slice arr, dec)

-- A value is read from its first token on.
theorem decodeStrictValue_congr (h : dec.token = dec'.token) (n : Nat) :
    decodeStrictValue label n dec = decodeStrictValue label n dec' := by
  cases n
  case zero   => rw [decodeStrictValue, decodeStrictValue]
  case succ n => rw [decodeStrictValue, decodeStrictValue, h]

theorem decodeStrictValue_none (h : dec.token = none) (n : Nat) :
    decodeStrictValue label n dec = .error (tokenMalformed (label ++ " JSON parse failed")) := by
  cases n
  case zero   => rw [decodeStrictValue]
  case succ n => rw [decodeStrictValue, h]

theorem decodeObject_none (h : dec.token = none) (n : Nat) (obj : Map) :
    ∃ reason, decodeObject label n obj dec = .error (tokenMalformed reason) := by
  rw [decodeObject, decodeStrictObject.eq_def]
  cases dec.more
  case false => exact ⟨_, by rw [h]; rfl⟩
  case true =>
    cases n
    case zero => exact ⟨_, rfl⟩
    case succ => exact ⟨_, by rw [h]; rfl⟩

theorem decodeArray_none (h : dec.token = none) (n : Nat) (arr : List Value) :
    ∃ reason, decodeArray label n arr dec = .error (tokenMalformed reason) := by
  rw [decodeArray, decodeStrictArray.eq_def]
  cases dec.more
  case false => exact ⟨_, by rw [h]; rfl⟩
  case true =>
    cases n
    case zero   => exact ⟨_, rfl⟩
    case succ n =>
      refine ⟨label ++ " JSON parse failed", ?_⟩
      dsimp only [if_true]
      rw [decodeStrictValue_none label h n]
      rfl

theorem decodeObject_end {outer : Decoder.State} (h : skipSpace cs = '}' :: rest)
    (hs : state = .objectStart ∨ state = .objectComma) (n : Nat) (obj : Map) :
    decodeObject label n obj ⟨cs, state, outer :: stack⟩ = .ok (.map obj, ⟨rest, outer.afterValue, stack⟩) := by
  have hm : Decoder.more ⟨cs, state, outer :: stack⟩ = false := by simp [Decoder.more, h]
  rw [decodeObject, decodeStrictObject.eq_def, hm, Decoder.token_endObject h hs]
  rfl

theorem decodeArray_end {outer : Decoder.State} (h : skipSpace cs = ']' :: rest)
    (hs : state = .arrayStart ∨ state = .arrayComma) (n : Nat) (arr : List Value) :
    decodeArray label n arr ⟨cs, state, outer :: stack⟩ = .ok (.slice arr, ⟨rest, outer.afterValue, stack⟩) := by
  have hm : Decoder.more ⟨cs, state, outer :: stack⟩ = false := by simp [Decoder.more, h]
  rw [decodeArray, decodeStrictArray.eq_def, hm, Decoder.token_endArray h hs]
  rfl

-- The grammar has nothing where something else ends.
theorem value_of_not_more (h : Decoder.more ⟨cs, state, stack⟩ = false) (n : Nat) :
    (strictReader label).value n (skipSpace cs) = .error (tokenMalformed (label ++ " JSON parse failed")) := by
  cases n
  case zero => rfl
  case succ n =>
    rw [Reader.value, skipSpace_skipSpace]
    cases hc : skipSpace cs
    case nil => rfl
    case cons c rest =>
      rcases Decoder.closes_of_not_more h hc with rfl | rfl <;> rfl

theorem members_of_not_more (h : Decoder.more ⟨cs, state, stack⟩ = false) (n : Nat) (obj : Map) :
    (strictReader label).members n obj (skipSpace cs) =
      .error (tokenMalformed (label ++ " JSON parse failed")) := by
  cases n
  case zero => rfl
  case succ n =>
    rw [Reader.members, skipSpace_skipSpace]
    cases hc : skipSpace cs
    case nil => rfl
    case cons c rest =>
      rcases Decoder.closes_of_not_more h hc with rfl | rfl <;> rfl

theorem elements_of_not_more (h : Decoder.more ⟨cs, state, stack⟩ = false) (n : Nat) (arr : List Value) :
    (strictReader label).elements n arr (skipSpace cs) =
      .error (tokenMalformed (label ++ " JSON parse failed")) := by
  cases n
  case zero   => rfl
  case succ n =>
    rw [Reader.elements, value_of_not_more label h]
    rfl

theorem more_comma (h : skipSpace cs = ',' :: rest) : Decoder.more ⟨cs, state, stack⟩ := by
  simp [Decoder.more, h]

-- What is no array, no object, no string and no name is a number, or is malformed.
theorem reads_number (allows : state.allowsValue) (h₁ : ∀ rest, skipSpace cs ≠ '{' :: rest)
    (h₂ : ∀ rest, skipSpace cs ≠ '[' :: rest) (h₃ : ∀ rest, skipSpace cs ≠ '\"' :: rest)
    (h₄ : ∀ rest, skipSpace cs ≠ 'n' :: 'u' :: 'l' :: 'l' :: rest)
    (h₅ : ∀ rest, skipSpace cs ≠ 't' :: 'r' :: 'u' :: 'e' :: rest)
    (h₆ : ∀ rest, skipSpace cs ≠ 'f' :: 'a' :: 'l' :: 's' :: 'e' :: rest) :
    StrictReads state.afterValue stack
      (do
        let (lit, cs) ← (strictReader label).token (number (skipSpace cs))
        return (← (strictReader label).num lit, cs))
      (decodeStrictValue label (n + 1) ⟨cs, state, stack⟩) := by
  rw [decodeStrictValue]
  cases hc : skipSpace cs
  case nil =>
    rw [Decoder.token_nil hc]
    exact .malformed _ _
  case cons c rest =>
    have ho : c ≠ '{' := by
      rintro rfl
      exact h₁ rest hc
    have hb : c ≠ '[' := by
      rintro rfl
      exact h₂ rest hc
    by_cases stray : c ∈ [']', '}', ':', ',']
    case pos =>
      rw [Decoder.number_stray stray]
      rcases Decoder.token_stray hc stray allows with none | ⟨d, delim⟩
      case inl =>
        rw [none]
        exact .malformed _ _
      case inr =>
        rw [delim]
        dsimp only
        rw [if_neg ho, if_neg hb]
        exact .malformed _ _
    case neg =>
      have other : c ∉ ['[', ']', '{', '}', ':', ','] := by simp_all
      have hq : c ≠ '\"' := by
        rintro rfl
        exact h₃ rest hc
      rw [hc] at h₃ h₄ h₅ h₆
      rw [Decoder.token_scalar hc other (.inl hq), Decoder.scalarToken, if_pos allows,
        Decoder.scalar_number h₃ h₄ h₅ h₆]
      cases number (c :: rest) with
      | none   => exact .malformed _ _
      | some x => exact .ok _ _

mutual

theorem reads_value : (n : Nat) → {state : Decoder.State} → state.allowsValue → (stack : List Decoder.State) →
    (cs : List Char) →
    StrictReads state.afterValue stack ((strictReader label).value n cs) (decodeStrictValue label n ⟨cs, state, stack⟩)
  | 0,     state, _,      stack, cs => .malformed _ _
  | n + 1, state, allows, stack, cs => by
    rw [Reader.value, decodeStrictValue]
    split
    case h_1 cs₁ h =>
      rw [Decoder.token_brace h allows]
      change StrictReads _ _ _ (decodeObject label n [] ⟨cs₁, .objectStart, state :: stack⟩)
      split
      case h_1 cs₂ h =>
        rw [decodeObject_end label h (.inl rfl)]
        exact .ok _ _
      case h_2 h =>
        cases hm : Decoder.more ⟨cs₁, .objectStart, state :: stack⟩
        case true  => exact reads_object n [] hm (Decoder.token_objectStart hm)
        case false =>
          have none := Decoder.token_of_not_more hm nofun (fun _ rest hc => h rest hc) (.inr rfl)
          obtain ⟨reason, he⟩ := decodeObject_none label none n []
          rw [he, members_of_not_more label hm]
          exact .malformed _ _
    case h_2 cs₁ h =>
      rw [Decoder.token_bracket h allows]
      change StrictReads _ _ _ (decodeArray label n [] ⟨cs₁, .arrayStart, state :: stack⟩)
      split
      case h_1 cs₂ h =>
        rw [decodeArray_end label h (.inl rfl)]
        exact .ok _ _
      case h_2 h =>
        cases hm : Decoder.more ⟨cs₁, .arrayStart, state :: stack⟩
        case true  => exact reads_array n [] rfl rfl hm Decoder.token_skipSpace.symm
        case false =>
          have none := Decoder.token_of_not_more hm (fun _ rest hc => h rest hc) nofun (.inl rfl)
          obtain ⟨reason, he⟩ := decodeArray_none label none n []
          rw [he, elements_of_not_more label hm]
          exact .malformed _ _
    case h_3 cs₁ h =>
      rw [Decoder.token_scalar h (by decide) (.inr (Decoder.State.not_key_of_allowsValue allows)),
        Decoder.scalarToken, if_pos allows, Decoder.scalar]
      cases string cs₁ with
      | none   => exact .malformed _ _
      | some x => exact .ok _ _
    case h_7 h₁ h₂ h₃ h₄ h₅ h₆ => exact reads_number label allows h₁ h₂ h₃ h₄ h₅ h₆
    all_goals
      rename_i h
      rw [Decoder.token_scalar h (by decide) (.inl (by decide)), Decoder.scalarToken, if_pos allows]
      exact .ok _ _

theorem reads_object : (n : Nat) → (obj : Map) → {dec : Decoder} → {outer : Decoder.State} →
    {stack : List Decoder.State} → {cs : List Char} → dec.more →
    dec.token = Decoder.token ⟨cs, .objectKey, outer :: stack⟩ →
    StrictReads outer.afterValue stack ((strictReader label).members n obj cs) (decodeObject label n obj dec)
  | 0,     obj, dec, outer, stack, cs, more, _     => by
    rw [decodeObject, decodeStrictObject.eq_def, if_pos more]
    exact .malformed _ _
  | n + 1, obj, dec, outer, stack, cs, more, first => by
    rw [decodeObject, decodeStrictObject.eq_def, if_pos more, first, Reader.members]
    dsimp only
    split
    case h_2 h =>
      have none : Decoder.token ⟨cs, .objectKey, outer :: stack⟩ = none :=
        Decoder.token_eq_none fun c rest hc (ha : c = _) => h rest (hc.trans (ha ▸ rfl))
      rw [none]
      exact .malformed _ _
    case h_1 cs₁ h =>
      rw [Decoder.token_key h (.inr rfl)]
      cases string cs₁
      case none => exact .malformed _ _
      case some x =>
        obtain ⟨key, cs₂⟩ := x
        by_cases hk : (obj.lookup (stringOf key)).isSome
        case pos =>
          have check : (strictReader label).check key obj = .error (duplicateKey label key) := if_pos hk
          simp only [Option.map_some, Reader.token, ok_bind, check, hk, if_true]
          exact .same _
        case neg =>
          have check : (strictReader label).check key obj = .ok () := if_neg hk
          simp only [Option.map_some, Reader.token, ok_bind, check, hk, Bool.false_eq_true, if_false, bind_assoc]
          change StrictReads _ _ _ (decodeStrictValue label n _ >>= fun x =>
            decodeObject label n (obj ++ [(stringOf key, x.1)]) x.2)
          split
          case h_2 h =>
            have none : Decoder.token ⟨cs₂, .objectColon, outer :: stack⟩ = none :=
              Decoder.token_eq_none fun c rest hc (ha : c = _) => h rest (hc.trans (ha ▸ rfl))
            rw [decodeStrictValue_none label none]
            exact .malformed _ _
          case h_1 cs₃ h =>
            rw [decodeStrictValue_congr label (Decoder.token_colon h)]
            refine (reads_value n rfl (outer :: stack) cs₃).bind fun v cs₄ => ?_
            change StrictReads _ _ _ (decodeObject label n _ ⟨cs₄, .objectComma, outer :: stack⟩)
            dsimp only
            split
            case h_1 cs₅ h => exact reads_object n _ (more_comma h) (Decoder.token_comma_object h)
            case h_2 cs₅ h =>
              rw [decodeObject_end label h (.inr rfl)]
              exact .ok _ _
            case h_3 h₁ h₂ =>
              have none : Decoder.token ⟨cs₄, .objectComma, outer :: stack⟩ = none :=
                Decoder.token_eq_none fun c rest hc ha =>
                  ha.elim (fun ha => h₁ rest (hc.trans (ha ▸ rfl))) fun ha => h₂ rest (hc.trans (ha ▸ rfl))
              obtain ⟨reason, he⟩ := decodeObject_none label none n (obj ++ [(stringOf key, v)])
              exact he ▸ .malformed _ _

theorem reads_array : (n : Nat) → (arr : List Value) → {dec : Decoder} → {outer state : Decoder.State} →
    {stack : List Decoder.State} → {cs : List Char} → state.allowsValue → state.afterValue = .arrayComma →
    dec.more → dec.token = Decoder.token ⟨cs, state, outer :: stack⟩ →
    StrictReads outer.afterValue stack ((strictReader label).elements n arr cs) (decodeArray label n arr dec)
  | 0,     arr, dec, outer, state, stack, cs, _,      _,     more, _     => by
    rw [decodeArray, decodeStrictArray.eq_def, if_pos more]
    exact .malformed _ _
  | n + 1, arr, dec, outer, state, stack, cs, allows, comma, more, first => by
    rw [decodeArray, decodeStrictArray.eq_def, if_pos more, Reader.elements]
    simp only [bind_assoc]
    change StrictReads _ _ _ (decodeStrictValue label n _ >>= fun x => decodeArray label n (arr ++ [x.1]) x.2)
    rw [decodeStrictValue_congr label first]
    refine (reads_value n allows (outer :: stack) cs).bind fun v cs₁ => ?_
    rw [comma]
    dsimp only
    split
    case h_1 cs₂ h => exact reads_array n _ rfl rfl (more_comma h) (Decoder.token_comma_array h)
    case h_2 cs₂ h =>
      rw [decodeArray_end label h (.inr rfl)]
      exact .ok _ _
    case h_3 h₁ h₂ =>
      have none : Decoder.token ⟨cs₁, .arrayComma, outer :: stack⟩ = none :=
        Decoder.token_eq_none fun c rest hc ha =>
          ha.elim (fun ha => h₁ rest (hc.trans (ha ▸ rfl))) fun ha => h₂ rest (hc.trans (ha ▸ rfl))
      obtain ⟨reason, he⟩ := decodeArray_none label none n (arr ++ [v])
      exact he ▸ .malformed _ _

end

-- The loop reads the first value of a text.
theorem reads_first (cs : List Char) :
    StrictReads .topValue [] ((strictReader label).read cs) (decodeStrictValue label (cs.length + 1) { input := cs }) :=
  @reads_value label (cs.length + 1) .topValue rfl [] cs

end StrictReads

end Go

end Licensing
