import Licensing.Library.JsonText

-- Readers of JSON text that build values of their own. A key is checked before its value is read.

namespace JsonText

structure Reader (V O ε : Type) where
  null      : V
  bool      : Bool → V
  num       : List Char → Except ε V
  str       : List Piece → V
  arr       : List V → V
  obj       : O → V
  empty     : O
  check     : List Piece → O → Except ε Unit
  assign    : List Piece → V → O → O
  malformed : ε

namespace Reader

variable {V O ε : Type} (r : Reader V O ε)

def token {α : Type} : Option α → Except ε α
  | some a => .ok a
  | none   => .error r.malformed

-- The number bounds the nesting and the length of what is read.
mutual

def value : Nat → List Char → Except ε (V × List Char)
  | 0,     _  => .error r.malformed
  | n + 1, cs =>
    match skipSpace cs with
    | '{' :: cs =>
      match skipSpace cs with
      | '}' :: cs => .ok (r.obj r.empty, cs)
      | cs        => members n r.empty cs
    | '[' :: cs =>
      match skipSpace cs with
      | ']' :: cs => .ok (r.arr [], cs)
      | cs        => elements n [] cs
    | '\"' :: cs => do
      let (ps, cs) ← r.token (string cs)
      return (r.str ps, cs)
    | 'n' :: 'u' :: 'l' :: 'l' :: cs        => .ok (r.null, cs)
    | 't' :: 'r' :: 'u' :: 'e' :: cs        => .ok (r.bool true, cs)
    | 'f' :: 'a' :: 'l' :: 's' :: 'e' :: cs => .ok (r.bool false, cs)
    | cs => do
      let (lit, cs) ← r.token (number cs)
      return (← r.num lit, cs)

def members : Nat → O → List Char → Except ε (V × List Char)
  | 0,     _, _  => .error r.malformed
  | n + 1, o, cs =>
    match skipSpace cs with
    | '\"' :: cs => do
      let (key, cs) ← r.token (string cs)
      r.check key o
      match skipSpace cs with
      | ':' :: cs => do
        let (v, cs) ← value n cs
        match skipSpace cs with
        | ',' :: cs => members n (r.assign key v o) cs
        | '}' :: cs => return (r.obj (r.assign key v o), cs)
        | _         => .error r.malformed
      | _ => .error r.malformed
    | _ => .error r.malformed

def elements : Nat → List V → List Char → Except ε (V × List Char)
  | 0,     _,  _  => .error r.malformed
  | n + 1, vs, cs => do
    let (v, cs) ← value n cs
    match skipSpace cs with
    | ',' :: cs => elements n (vs ++ [v]) cs
    | ']' :: cs => return (r.arr (vs ++ [v]), cs)
    | _         => .error r.malformed

end

-- The first value of a text, and what follows it.
def read (cs : List Char) : Except ε (V × List Char) :=
  r.value (cs.length + 1) cs

-- What the reader makes of a value that has been read.
mutual

def interp : Raw → Except ε V
  | .null    => .ok r.null
  | .bool b  => .ok (r.bool b)
  | .num lit => r.num lit
  | .str ps  => .ok (r.str ps)
  | .arr xs  => interpElements [] xs
  | .obj ms  => interpMembers r.empty ms

def interpMembers (o : O) : List (List Piece × Raw) → Except ε V
  | []             => .ok (r.obj o)
  | (key, v) :: ms => do
    r.check key o
    interpMembers (r.assign key (← interp v) o) ms

def interpElements (vs : List V) : List Raw → Except ε V
  | []      => .ok (r.arr vs)
  | x :: xs => do interpElements (vs ++ [← interp x]) xs

end

-- One reading of a text interprets what another one finds there, and fails where that one does.
def Interprets {α β : Type} (f : α → Except ε β) :
    Option (α × List Char) → Except ε (β × List Char) → Prop
  | some (a, cs), x => x = (f a).map (·, cs)
  | none,         x => ∃ e, x = .error e

namespace Interprets

variable {α β γ : Type} {f : α → Except ε β} {o : Option (α × List Char)} {x : Except ε (β × List Char)}

theorem of_error {e : ε} (h : ∀ a, f a = .error e) : Interprets f o (.error e) := by
  match o with
  | some (a, cs) => simp [Interprets, h, Except.map]
  | none         => exact ⟨e, rfl⟩

theorem map {g : γ → α} {o : Option (γ × List Char)} (h : Interprets (f ∘ g) o x) :
    Interprets f (o.map fun (c, cs) => (g c, cs)) x := by
  match o with
  | some (c, cs) => exact h
  | none         => exact h

theorem of_some {a : α} {cs : List Char} {b : Except ε β} (h : f a = b) :
    Interprets f (some (a, cs)) (b.map (·, cs)) :=
  h ▸ rfl

theorem congr {g : α → Except ε β} (h : ∀ a, g a = f a) (hi : Interprets f o x) :
    Interprets g o x :=
  funext h ▸ hi

theorem of_none (e : ε) : Interprets f none (.error e) :=
  ⟨e, rfl⟩

-- What is read first is interpreted first.
theorem bind {δ : Type} {i : γ → Except ε δ} {o : Option (γ × List Char)} {y : Except ε (δ × List Char)}
    {next : γ × List Char → Option (α × List Char)} {next' : δ × List Char → Except ε (β × List Char)}
    (h : Interprets i o y) (failed : ∀ c e cs, i c = .error e → Interprets f (next (c, cs)) (.error e))
    (ok : ∀ c d cs, i c = .ok d → Interprets f (next (c, cs)) (next' (d, cs))) :
    Interprets f (o.bind next) (y.bind next') := by
  cases o
  case none =>
    obtain ⟨e, rfl⟩ := h
    exact .of_none e
  case some x =>
    obtain ⟨c, cs⟩ := x
    obtain rfl : y = (i c).map (·, cs) := h
    cases hi : i c
    case error e => exact failed c e cs hi
    case ok d    => exact ok c d cs hi

end Interprets

section Entries

variable {n : Nat}

-- What follows a member does not matter once its value has failed.
theorem members_failed {f : List (List Piece × Raw) → Except ε V} {key : List Piece} {v : Raw} {e : ε}
    (failed : ∀ ms, f ((key, v) :: ms) = .error e) (cs : List Char) : Interprets f
      (match skipSpace cs with
        | ',' :: cs => (JsonText.members n cs).map fun (ms, cs) => ((key, v) :: ms, cs)
        | '}' :: cs => some ([(key, v)], cs)
        | _         => none) (.error e) := by
  split
  case h_1 => exact .map <| .of_error failed
  case h_2 => exact .of_some (failed [])
  case h_3 => exact .of_none e

theorem elements_failed {f : List Raw → Except ε V} {v : Raw} {e : ε} (failed : ∀ xs, f (v :: xs) = .error e)
    (cs : List Char) : Interprets f
      (match skipSpace cs with
        | ',' :: cs => (JsonText.elements n cs).map fun (xs, cs) => (v :: xs, cs)
        | ']' :: cs => some ([v], cs)
        | _         => none) (.error e) := by
  split
  case h_1 => exact .map <| .of_error failed
  case h_2 => exact .of_some (failed [])
  case h_3 => exact .of_none e

-- Nor does its value, once the check of its key has.
theorem member_failed {f : List (List Piece × Raw) → Except ε V} {key : List Piece} {e : ε}
    (failed : ∀ v ms, f ((key, v) :: ms) = .error e) (cs : List Char) : Interprets f
      (match skipSpace cs with
        | ':' :: cs => (JsonText.value n cs).bind fun (v, cs) =>
          match skipSpace cs with
          | ',' :: cs => (JsonText.members n cs).map fun (ms, cs) => ((key, v) :: ms, cs)
          | '}' :: cs => some ([(key, v)], cs)
          | _         => none
        | _ => none) (.error e) := by
  split
  case h_2 => exact .of_none e
  case h_1 cs _ =>
    cases JsonText.value n cs
    case none   => exact .of_none e
    case some x => exact members_failed (failed x.1) x.2

theorem members_next {o : O} {f : List (List Piece × Raw) → Except ε V} {key : List Piece} {v : Raw}
    (next : ∀ ms, f ((key, v) :: ms) = r.interpMembers o ms)
    (rest : ∀ cs, Interprets (r.interpMembers o) (JsonText.members n cs) (r.members n o cs)) (cs : List Char) :
    Interprets f
      (match skipSpace cs with
        | ',' :: cs => (JsonText.members n cs).map fun (ms, cs) => ((key, v) :: ms, cs)
        | '}' :: cs => some ([(key, v)], cs)
        | _         => none)
      (match skipSpace cs with
        | ',' :: cs => r.members n o cs
        | '}' :: cs => .ok (r.obj o, cs)
        | _         => .error r.malformed) := by
  split
  case h_1 cs he => exact .map <| .congr next (rest cs)
  case h_2 cs he => exact .of_some (next [])
  case h_3       => exact .of_none _

theorem elements_next {vs : List V} {f : List Raw → Except ε V} {v : Raw}
    (next : ∀ xs, f (v :: xs) = r.interpElements vs xs)
    (rest : ∀ cs, Interprets (r.interpElements vs) (JsonText.elements n cs) (r.elements n vs cs)) (cs : List Char) :
    Interprets f
      (match skipSpace cs with
        | ',' :: cs => (JsonText.elements n cs).map fun (xs, cs) => (v :: xs, cs)
        | ']' :: cs => some ([v], cs)
        | _         => none)
      (match skipSpace cs with
        | ',' :: cs => r.elements n vs cs
        | ']' :: cs => .ok (r.arr vs, cs)
        | _         => .error r.malformed) := by
  split
  case h_1 cs he => exact .map <| .congr next (rest cs)
  case h_2 cs he => exact .of_some (next [])
  case h_3       => exact .of_none _

end Entries

mutual

theorem value_interprets : (n : Nat) → (cs : List Char) →
    Interprets r.interp (JsonText.value n cs) (r.value n cs)
  | 0,     cs => .of_none _
  | n + 1, cs => by
    have hr : r.value (n + 1) cs = _ := value.eq_2 ..
    rw [JsonText.value]
    split
    case h_1 cs₁ he =>
      simp only [he] at hr
      split
      case h_1 he =>
        simp only [he] at hr
        rw [hr]
        rfl
      case h_2 hn =>
        rw [hr]
        split
        case h_1 he => exact (hn _ he).elim
        case h_2 => exact .map (members_interprets n r.empty _)
    case h_2 cs₁ he =>
      simp only [he] at hr
      split
      case h_1 he =>
        simp only [he] at hr
        rw [hr]
        rfl
      case h_2 hn =>
        rw [hr]
        split
        case h_1 he => exact (hn _ he).elim
        case h_2 => exact .map (elements_interprets n [] _)
    case h_3 cs₁ he =>
      simp only [he] at hr
      rw [hr]
      cases string cs₁
      case none => exact .of_none _
      case some => rfl
    case h_7 h₁ h₂ h₃ h₄ h₅ h₆ =>
      rw [hr]
      split
      case h_1 he => exact (h₁ _ he).elim
      case h_2 he => exact (h₂ _ he).elim
      case h_3 he => exact (h₃ _ he).elim
      case h_4 he => exact (h₄ _ he).elim
      case h_5 he => exact (h₅ _ he).elim
      case h_6 he => exact (h₆ _ he).elim
      case h_7 =>
        cases number _
        case none => exact .of_none _
        case some x =>
          obtain ⟨lit, cs⟩ := x
          change (do return (← r.num lit, cs)) = (r.num lit).map (·, cs)
          cases r.num lit <;> rfl
    all_goals
      rename_i he
      simp only [he] at hr
      rw [hr]
      rfl

theorem members_interprets : (n : Nat) → (o : O) → (cs : List Char) →
    Interprets (r.interpMembers o) (JsonText.members n cs) (r.members n o cs)
  | 0,     o, cs => .of_none _
  | n + 1, o, cs => by
    have hr : r.members (n + 1) o cs = _ := members.eq_2 ..
    rw [JsonText.members]
    split
    case h_2 hn =>
      rw [hr]
      split
      case h_1 he => exact (hn _ he).elim
      case h_2 => exact .of_none _
    case h_1 cs₁ he =>
      simp only [he] at hr
      cases hs : string cs₁
      case none =>
        rw [hr, hs]
        exact .of_none _
      case some x =>
        obtain ⟨key, cs⟩ := x
        cases hc : r.check key o
        case error e =>
          -- The check fails, whatever comes next.
          have failed v ms : r.interpMembers o ((key, v) :: ms) = .error e := by
            rw [interpMembers, hc]
            rfl
          simp only [hs, token, hc, bind, Except.bind] at hr
          rw [hr]
          exact member_failed failed cs
        case ok =>
          have interp_cons v ms : r.interpMembers o ((key, v) :: ms) =
              (r.interp v).bind fun w => r.interpMembers (r.assign key w o) ms := by
            rw [interpMembers, hc]
            rfl
          simp only [hs, token, hc, bind, Except.bind] at hr
          simp only [Option.bind_eq_bind, Option.bind_some]
          split
          case h_2 hn =>
            rw [hr]
            split
            case h_1 he => exact (hn _ he).elim
            case h_2 => exact .of_none _
          case h_1 cs he =>
            simp only [he] at hr
            rw [hr]
            apply Interprets.bind (value_interprets n cs)
            case failed =>
              intro v e cs hi
              have failed ms : r.interpMembers o ((key, v) :: ms) = .error e := by
                rw [interp_cons, hi]
                rfl
              exact members_failed failed cs
            case ok =>
              intro v w cs hi
              have next ms : r.interpMembers o ((key, v) :: ms) = r.interpMembers (r.assign key w o) ms := by
                rw [interp_cons, hi]
                rfl
              exact r.members_next next (members_interprets n _) cs

theorem elements_interprets : (n : Nat) → (vs : List V) → (cs : List Char) →
    Interprets (r.interpElements vs) (JsonText.elements n cs) (r.elements n vs cs)
  | 0,     vs, cs => .of_none _
  | n + 1, vs, cs => by
    have hr : r.elements (n + 1) vs cs = _ := elements.eq_2 ..
    have interp_cons x xs : r.interpElements vs (x :: xs) =
        (r.interp x).bind fun w => r.interpElements (vs ++ [w]) xs := by
      rw [interpElements]
      rfl
    rw [JsonText.elements, hr]
    apply Interprets.bind (value_interprets n cs)
    case failed =>
      intro v e cs hi
      have failed xs : r.interpElements vs (v :: xs) = .error e := by
        rw [interp_cons, hi]
        rfl
      exact elements_failed failed cs
    case ok =>
      intro v w cs hi
      have next xs : r.interpElements vs (v :: xs) = r.interpElements (vs ++ [w]) xs := by
        rw [interp_cons, hi]
        rfl
      exact r.elements_next next (elements_interprets n _) cs

end

theorem read_interprets (cs : List Char) :
    Interprets r.interp (JsonText.value (cs.length + 1) cs) (r.read cs) :=
  r.value_interprets _ cs

end Reader

end JsonText
