import Licensing.Http.Router
import Licensing.Library.Utf16
import Licensing.Model.KeyText

-- The bearer tokens that the two ports take from a header.

namespace Licensing

namespace Go.Http

def isGap (c : Char) : Bool :=
  c = ' ' || c = '\t'

-- The characters from `!` to `~`.
def isVisible (c : Char) : Bool :=
  0x21 ≤ c.toNat && c.toNat ≤ 0x7e

-- `strings.EqualFold` with letters that no other characters fold to.
def equalFold (cs ds : List Char) : Bool :=
  cs.map lower = ds.map lower

def extractBearer (h : String) : Option String :=
  let scheme := h.toList.takeWhile (!isGap ·)
  match h.toList.dropWhile (!isGap ·) with
  | []        => none
  | _ :: rest =>
    if scheme = [] ∨ ¬equalFold scheme "Bearer".toList then none
    else
      let token := rest.dropWhile isGap
      if token = [] ∨ ¬token.all isVisible then none else some (.ofList token)

end Go.Http

section Characters

variable {c : Char}

theorem eq_of_isGap (h : Go.Http.isGap c) : c = ' ' ∨ c = '\t' := by
  simpa [Go.Http.isGap] using h

theorem isSpace_of_isGap (h : Go.Http.isGap c) : Ts.isSpace c := by
  obtain e | e := eq_of_isGap h <;> rw [e] <;> decide

theorem not_isSpace_of_isVisible (h : Go.Http.isVisible c) : Ts.isSpace c = false := by
  have range : 0x21 ≤ c.toNat ∧ c.toNat ≤ 0x7e := by simpa [Go.Http.isVisible] using h
  simp only [Ts.isSpace, List.mem_cons, List.not_mem_nil, or_false, decide_eq_false_iff_not]
  omega

theorem not_isGap_of_isVisible (h : Go.Http.isVisible c) : Go.Http.isGap c = false := by
  cases hg : Go.Http.isGap c
  case false => rfl
  case true  => exact absurd (isSpace_of_isGap hg) (by simp [not_isSpace_of_isVisible h])

theorem lower_of_isSpace (h : Ts.isSpace c) : lower c = c := by
  have outside : ¬(0x41 ≤ c.toNat ∧ c.toNat ≤ 0x5a) := by
    simp only [Ts.isSpace, List.mem_cons, List.not_mem_nil, or_false, decide_eq_true_eq] at h
    omega
  rw [lower, if_neg outside]

theorem eq_space_of_lower (h : lower c = ' ') : c = ' ' := by
  rw [lower] at h
  split at h
  case isFalse => exact h
  case isTrue range =>
    have n : (Char.ofNat (c.toNat + 0x20)).toNat = c.toNat + 0x20 :=
      JsonText.toNat_ofNat (.inl (by omega))
    rw [h] at n
    have space : ' '.toNat = 0x20 := rfl
    omega

theorem isSpace_lower {cs : List Char} (folded : cs.map lower = "bearer".toList) (h : c ∈ cs) :
    Ts.isSpace c = false := by
  cases space : Ts.isSpace c
  case false => rfl
  case true =>
    have letter : lower c ∈ "bearer".toList := folded ▸ List.mem_map_of_mem h
    rw [lower_of_isSpace space] at letter
    have none : "bearer".toList.all (!Ts.isSpace ·) := by decide
    exact absurd space (by simpa using List.all_eq_true.mp none c letter)

theorem trim_eq_self {cs : List Char} (head : ∀ c ∈ cs.head?, Ts.isSpace c = false)
    (last : ∀ c ∈ cs.getLast?, Ts.isSpace c = false) : Ts.trim cs = cs := by
  have dropped {cs : List Char} (head : ∀ c ∈ cs.head?, Ts.isSpace c = false) : cs.dropWhile Ts.isSpace = cs := by
    cases cs
    case nil       => rfl
    case cons c cs => exact List.dropWhile_cons_of_neg (Bool.eq_false_iff.mp (head c rfl))
  rw [Ts.trim, dropped head, dropped (by simpa using last), List.reverse_reverse]

end Characters

-- A header that the Go port accepts.
structure Go.Http.Credentials (h : String) (scheme : List Char) (sep : Char) (gap token : List Char) : Prop where
  split    : h.toList = scheme ++ sep :: (gap ++ token)
  folded   : scheme.map lower = "bearer".toList
  sep      : Go.Http.isGap sep
  gap      : gap.all Go.Http.isGap
  nonempty : token ≠ []
  visible  : token.all Go.Http.isVisible

namespace Go.Http.Credentials

variable {h : String} {scheme gap token : List Char} {sep : Char}

theorem length_eq (cr : Credentials h scheme sep gap token) : scheme.length = 6 := by
  simpa using congrArg List.length cr.folded

theorem dropWhile_eq (cr : Credentials h scheme sep gap token) : (gap ++ token).dropWhile isGap = token := by
  rw [List.dropWhile_append_of_pos (List.all_eq_true.mp cr.gap)]
  cases ht : token
  case nil      => rfl
  case cons c t =>
    have hc := not_isGap_of_isVisible (List.all_eq_true.mp cr.visible c (by simp [ht]))
    simp [hc]

theorem take_eq (cr : Credentials h scheme sep gap token) : h.toList.take 7 = scheme ++ [sep] := by
  rw [cr.split, List.take_append, cr.length_eq]
  simp [List.take_of_length_le (Nat.le_of_eq cr.length_eq |>.trans (by decide : 6 ≤ 7))]

theorem drop_eq (cr : Credentials h scheme sep gap token) : h.toList.drop 7 = gap ++ token := by
  rw [cr.split, List.drop_append, cr.length_eq]
  simp [List.drop_eq_nil_of_le (Nat.le_of_eq cr.length_eq |>.trans (by decide : 6 ≤ 7))]

theorem trim_eq (cr : Credentials h scheme sep gap token) : Ts.trim h.toList = h.toList := by
  rw [cr.split]
  apply trim_eq_self
  case head =>
    intro c hc
    have first : c ∈ scheme := by
      cases hs : scheme
      case nil      => simpa [hs] using cr.length_eq
      case cons b s =>
        have same : b = c := by simpa [hs] using hc
        simp [same]
    exact isSpace_lower cr.folded first
  case last =>
    intro c hc
    have whole : scheme ++ sep :: (gap ++ token) = (scheme ++ sep :: gap) ++ token := by simp
    rw [whole, List.getLast?_append_of_ne_nil _ cr.nonempty] at hc
    exact not_isSpace_of_isVisible (List.all_eq_true.mp cr.visible c (List.mem_of_getLast? hc))

-- Behind a space the TypeScript port takes the same token, and behind a tab it takes nothing.
theorem bearerOf_eq (cr : Credentials h scheme sep gap token) :
    Ts.Http.bearerOf h = if sep = ' ' then some (.ofList token) else none := by
  have inner : Ts.trim (gap ++ token) = token := by
    have h : trimBy Ts.isSpace (gap ++ (token ++ [])) = token :=
      trimBy_eq Ts.isSpace (fun c hc => isSpace_of_isGap (List.all_eq_true.mp cr.gap c hc)) cr.nonempty
        (fun c hc => not_isSpace_of_isVisible (List.all_eq_true.mp cr.visible c hc)) (by simp)
    rwa [List.append_nil] at h
  have long : ¬h.toList.length < 7 := by
    rw [cr.split, List.length_append, cr.length_eq, List.length_cons]
    omega
  have named : (scheme ++ [sep]).map lower = "bearer ".toList ↔ sep = ' ' := by
    rw [List.map_append, cr.folded]
    obtain e | e := eq_of_isGap cr.sep <;> rw [e] <;> decide
  rw [Ts.Http.bearerOf, cr.trim_eq, cr.take_eq, cr.drop_eq]
  simp only [long, inner, ne_eq, named, cr.nonempty, if_false]
  by_cases space : sep = ' ' <;> simp [space]

theorem extractBearer_eq (cr : Credentials h scheme sep gap token) : extractBearer h = some (.ofList token) := by
  have inside : ∀ c ∈ scheme, !isGap c := by
    intro c hc
    cases hg : isGap c
    case false => rfl
    case true  => exact absurd (isSpace_of_isGap hg) (by simp [isSpace_lower cr.folded hc])
  have before : h.toList.takeWhile (!isGap ·) = scheme := by
    rw [cr.split, List.takeWhile_append_of_pos inside]
    simp [cr.sep]
  have after : h.toList.dropWhile (!isGap ·) = sep :: (gap ++ token) := by
    rw [cr.split, List.dropWhile_append_of_pos inside]
    simp [cr.sep]
  have named : scheme ≠ [] ∧ equalFold scheme "Bearer".toList := by
    constructor
    case left =>
      intro e
      simpa [e] using cr.length_eq
    case right =>
      rw [equalFold, cr.folded]
      decide
  rw [extractBearer, before, after]
  simp only [cr.dropWhile_eq]
  rw [if_neg (not_or.mpr ⟨named.left, not_not_intro named.right⟩),
    if_neg (not_or.mpr ⟨cr.nonempty, not_not_intro cr.visible⟩)]

theorem of_extractBearer {t : String} (e : extractBearer h = some t) :
    ∃ scheme sep gap, Credentials h scheme sep gap t.toList := by
  rw [extractBearer] at e
  dsimp only at e
  cases hd : h.toList.dropWhile (!isGap ·)
  case nil => simp [hd] at e
  case cons sep rest =>
    simp only [hd] at e
    split at e
    case isTrue => cases e
    case isFalse scheme =>
      split at e
      case isTrue => cases e
      case isFalse accepted =>
        cases e
        rw [not_or, not_not] at scheme accepted
        have folded : (h.toList.takeWhile (!isGap ·)).map lower = "bearer".toList := by
          have fold := scheme.right
          rw [equalFold, decide_eq_true_iff] at fold
          rw [fold]
          decide
        have first : isGap sep := by
          have first := List.head?_dropWhile_not (!isGap ·) h.toList
          rw [hd] at first
          simpa using first
        rw [String.toList_ofList]
        refine ⟨h.toList.takeWhile (!isGap ·), sep, rest.takeWhile isGap, ?_, folded, first, ?_, accepted.left,
          accepted.right⟩
        case refine_1 => rw [List.takeWhile_append_dropWhile, ← hd, List.takeWhile_append_dropWhile]
        case refine_2 => exact List.all_eq_true.mpr fun c hc => List.mem_takeWhile_imp hc

-- What the TypeScript port accepts is a header of this form if nothing surrounds it and the token is visible.
theorem of_bearerOf {t : String} (e : Ts.Http.bearerOf h = some t) (trimmed : Ts.trim h.toList = h.toList)
    (same : (h.toList.drop 7).dropWhile isGap = t.toList) (visible : t.toList.all isVisible) :
    ∃ scheme sep gap, Credentials h scheme sep gap t.toList := by
  rw [Ts.Http.bearerOf, trimmed] at e
  dsimp only at e
  split at e
  case isTrue => cases e
  case isFalse long =>
    split at e
    case isTrue => cases e
    case isFalse named =>
      split at e
      case isTrue => cases e
      case isFalse nonempty =>
        cases e
        have named : (h.toList.take 7).map lower = "bearer".toList ++ [' '] := not_not.mp named
        obtain ⟨scheme, last, split, folded, spaces⟩ := List.map_eq_append_iff.mp named
        obtain ⟨sep, hl, space⟩ := List.map_eq_singleton_iff.mp spaces
        rw [String.toList_ofList] at same visible ⊢
        refine ⟨scheme, sep, (h.toList.drop 7).takeWhile isGap, ?_, folded, ?_, ?_, nonempty, visible⟩
        case refine_1 =>
          rw [← same, List.takeWhile_append_dropWhile, List.append_cons, ← hl, ← split, List.take_append_drop]
        case refine_2 => rw [eq_space_of_lower space]; decide
        case refine_3 => exact List.all_eq_true.mpr fun c hc => List.mem_takeWhile_imp hc

end Go.Http.Credentials

-- The ports hand the same token to the verifier, or one of them hands none: the Go port takes a tab for the separator,
-- and the TypeScript port takes white space around the header, other white space before the token, and tokens of any
-- characters.
theorem bearers_agree (h token : String) :
    (Go.Http.extractBearer h = some token → Ts.Http.bearerOf h = if h.toList[6]? = some ' ' then some token else none) ∧
    (Ts.Http.bearerOf h = some token → Go.Http.extractBearer h =
      if Ts.trim h.toList = h.toList ∧ (h.toList.drop 7).dropWhile Go.Http.isGap = token.toList ∧
        token.toList.all Go.Http.isVisible then some token else none) := by
  constructor
  case left =>
    intro e
    obtain ⟨scheme, sep, gap, cr⟩ := Go.Http.Credentials.of_extractBearer e
    have sixth : h.toList[6]? = some sep := by
      rw [cr.split, List.getElem?_append_right (Nat.le_of_eq cr.length_eq), cr.length_eq]
      rfl
    rw [cr.bearerOf_eq, sixth, String.ofList_toList]
    simp
  case right =>
    intro e
    split
    case isTrue accepted =>
      obtain ⟨trimmed, same, visible⟩ := accepted
      obtain ⟨scheme, sep, gap, cr⟩ := Go.Http.Credentials.of_bearerOf e trimmed same visible
      rw [cr.extractBearer_eq, String.ofList_toList]
    case isFalse refused =>
      cases he : Go.Http.extractBearer h
      case none        => rfl
      case some token' =>
        obtain ⟨scheme, sep, gap, cr⟩ := Go.Http.Credentials.of_extractBearer he
        rw [cr.bearerOf_eq, String.ofList_toList] at e
        split at e
        case isFalse => cases e
        case isTrue =>
          cases e
          exact absurd ⟨cr.trim_eq, cr.drop_eq ▸ cr.dropWhile_eq, cr.visible⟩ refused

-- The TypeScript port refuses the tab, and the Go port the no-break space.
theorem other_gaps_refused :
    Ts.Http.bearerOf "Bearer\t0123456789abcdef" = none ∧
      Go.Http.extractBearer "Bearer \u00a00123456789abcdef" = none := by
  have tab := (bearers_agree "Bearer\t0123456789abcdef" "0123456789abcdef").left (by decide +kernel)
  have wide := (bearers_agree "Bearer \u00a00123456789abcdef" "0123456789abcdef").right (by decide +kernel)
  exact ⟨tab.trans (if_neg (by decide +kernel)), wide.trans (if_neg (by decide +kernel))⟩

end Licensing
