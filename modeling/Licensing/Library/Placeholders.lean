import Mathlib.Data.List.Basic
import Mathlib.Data.List.FinRange
import Mathlib.Data.List.Infix

-- Texts with numbered placeholders such as `$3`, and the values that are sent beside them.

namespace Placeholders

variable {α β : Type}

-- A text in which something stands between the characters.
abbrev Text (β : Type) := List (Char ⊕ β)

def lit (s : String) : Text β :=
  s.toList.map .inl

def holes (t : Text β) : List β :=
  t.filterMap Sum.getRight?

def number (digits : List Char) : Nat :=
  Nat.ofDigitChars 10 digits 0

-- From right to left: the digits that no `$` stands before so far, and what is read behind them.
def readChar (c : Char) : List Char × Text Nat → List Char × Text Nat
  | (ds, t) =>
    if c.isDigit then (c :: ds, t)
    else if c = '$' ∧ ds ≠ [] then ([], .inr (number ds) :: t)
    else ([], .inl c :: (ds.map .inl ++ t))

def read (cs : List Char) : Text Nat :=
  let (ds, t) := cs.foldr readChar ([], [])
  ds.map .inl ++ t

def placeholder (n : Nat) : String :=
  "$" ++ toString n

-- The values stand in the places of their numbers, which count from one.
def valueAt (params : List α) (n : Nat) : Option α :=
  if n = 0 then none else params[n - 1]?

def fill (params : List α) : Text Nat → Option (Text α)
  | []          => some []
  | .inl c :: t => (fill params t).map (.inl c :: ·)
  | .inr n :: t => (valueAt params n).bind fun a => (fill params t).map (.inr a :: ·)

def list (pre sep : String) (as : List β) (post : String) : Text β :=
  lit pre ++ (lit sep).intercalate (as.map fun a => [.inr a]) ++ lit post

-- No digit is at the start, so that a number before the text ends there.
def Closed (cs : List Char) : Prop :=
  ∀ c ∈ cs.head?, c.isDigit = false

structure Literal (s : String) : Prop where
  closed : Closed s.toList
  plain  : '$' ∉ s.toList

section Reading

theorem foldr_readChar (u : Text Nat) (cs : List Char) :
    cs.foldr readChar ([], u) =
      ((cs.foldr readChar ([], [])).1, (cs.foldr readChar ([], [])).2 ++ u) := by
  induction cs
  case nil => rfl
  case cons c cs ih =>
    rw [List.foldr_cons, ih, List.foldr_cons]
    simp only [readChar]
    split
    case isTrue => rfl
    case isFalse => split <;> simp

theorem fst_foldr_readChar {cs : List Char} (h : Closed cs) : (cs.foldr readChar ([], [])).1 = [] := by
  cases cs
  case nil => rfl
  case cons c cs =>
    have hc : c.isDigit = false := h c rfl
    simp only [List.foldr_cons, readChar, hc, Bool.false_eq_true, if_false]
    split <;> rfl

theorem read_append {cs : List Char} (bs : List Char) (h : Closed cs) :
    read (bs ++ cs) = read bs ++ read cs := by
  have hr : cs.foldr readChar ([], []) = ([], read cs) := by
    simp [read, fst_foldr_readChar h, Prod.ext_iff]
  rw [read, List.foldr_append, hr, foldr_readChar]
  simp [read]

theorem foldr_readChar_text {bs : List Char} (h : '$' ∉ bs) (p : List Char × Text Nat) :
    (bs.foldr readChar p).1.map .inl ++ (bs.foldr readChar p).2 =
      bs.map .inl ++ (p.1.map .inl ++ p.2) := by
  induction bs
  case nil => rfl
  case cons b bs ih =>
    have ⟨hb, hbs⟩ : b ≠ '$' ∧ '$' ∉ bs := by simpa [eq_comm] using h
    rw [List.map_cons, List.cons_append, ← ih hbs, List.foldr_cons, readChar]
    split <;> simp [hb]

theorem read_text_append {bs : List Char} (h : '$' ∉ bs) (cs : List Char) :
    read (bs ++ cs) = bs.map .inl ++ read cs := by
  rw [read, List.foldr_append]
  exact foldr_readChar_text h _

theorem read_text {cs : List Char} (h : '$' ∉ cs) : read cs = cs.map .inl := by
  rw [← List.append_nil cs, read_text_append h, List.map_append]
  rfl

theorem foldr_readChar_digits {ds : List Char} (h : ∀ d ∈ ds, d.isDigit) :
    ds.foldr readChar ([], []) = (ds, []) := by
  induction ds
  case nil => rfl
  case cons d ds ih => simp_all [readChar]

theorem read_placeholder (n : Nat) : read (placeholder n).toList = [.inr n] := by
  have hd : ∀ d ∈ Nat.toDigits 10 n, d.isDigit :=
    fun _ => Nat.isDigit_of_mem_toDigits (by decide) (by decide)
  simp [placeholder, read, foldr_readChar_digits hd, readChar, Nat.toDigits_ne_nil, number]

theorem Literal.empty : Literal "" :=
  ⟨by simp [Closed], by simp⟩

theorem Literal.append {s : String} (h : Literal s) (hs : s ≠ "") (cs : List Char) :
    Closed (s.toList ++ cs) := by
  cases hl : s.toList
  case nil => exact absurd (String.toList_eq_nil_iff.mp hl) hs
  case cons c cs => exact fun d hd => h.closed d (by simpa [hl] using hd)

theorem read_intercalate {sep : String} (h : Literal sep) (hs : sep ≠ "") (css : List (List Char)) :
    read (sep.toList.intercalate css) = (lit sep).intercalate (css.map read) := by
  induction css
  case nil => rfl
  case cons cs css ih =>
    cases css
    case nil => simp
    case cons cs' css =>
      rw [List.intercalate_cons_cons, List.append_assoc, read_append cs (h.append hs _),
        read_text_append h.plain, ih]
      simp only [List.map_cons, List.intercalate_cons_cons, List.append_assoc]
      rfl

end Reading

@[simp]
theorem holes_append (s t : Text β) : holes (s ++ t) = holes s ++ holes t :=
  List.filterMap_append

@[simp]
theorem holes_lit (s : String) : holes (lit s : Text β) = [] := by
  simp [holes, lit]

theorem holes_intercalate (sep : String) (as : List β) :
    holes ((lit sep).intercalate (as.map fun a => [.inr a])) = as := by
  induction as
  case nil => rfl
  case cons a as ih =>
    cases as
    case nil => rfl
    case cons a' as =>
      rw [List.map_cons] at ih ⊢
      rw [List.map_cons, List.intercalate_cons_cons, holes_append, holes_append, holes_lit, ih]
      rfl

@[simp]
theorem holes_list (pre sep : String) (as : List β) (post : String) : holes (list pre sep as post) = as := by
  simp [list, holes_intercalate]

section Filling

variable {params : List α}

theorem valueAt_append {n : Nat} {a : α} (qs : List α) (h : valueAt params n = some a) :
    valueAt (params ++ qs) n = some a := by
  grind [valueAt]

@[simp]
theorem fill_lit_append (s : String) (t : Text Nat) :
    fill params (lit s ++ t) = (fill params t).map (lit s ++ ·) := by
  simp only [lit]
  induction s.toList
  case nil => simp
  case cons c cs ih => simp [fill, ih, Function.comp_def]

@[simp]
theorem fill_lit (s : String) : fill params (lit s) = some (lit s) := by
  have h : fill params (lit s ++ []) = (fill params []).map (lit s ++ ·) := fill_lit_append s []
  simpa [fill] using h

theorem fill_append {s t : Text Nat} {u v : Text α} (hs : fill params s = some u)
    (ht : fill params t = some v) : fill params (s ++ t) = some (u ++ v) := by
  induction s generalizing u
  case nil =>
    cases hs
    exact ht
  case cons x s ih =>
    cases x
    case inl c =>
      have ⟨w, hw, hu⟩ := Option.map_eq_some_iff.mp hs
      simp [fill, ih hw, ← hu]
    case inr n =>
      have ⟨a, ha, h⟩ := Option.bind_eq_some_iff.mp hs
      have ⟨w, hw, hu⟩ := Option.map_eq_some_iff.mp h
      simp [fill, ha, ih hw, ← hu]

theorem fill_params {t : Text Nat} {u : Text α} (qs : List α) (h : fill params t = some u) :
    fill (params ++ qs) t = some u := by
  induction t generalizing u
  case nil => exact h
  case cons x t ih =>
    cases x
    case inl c =>
      have ⟨w, hw, hu⟩ := Option.map_eq_some_iff.mp h
      simp [fill, ih hw, ← hu]
    case inr n =>
      have ⟨a, ha, h⟩ := Option.bind_eq_some_iff.mp h
      have ⟨w, hw, hu⟩ := Option.map_eq_some_iff.mp h
      simp [fill, valueAt_append qs ha, ih hw, ← hu]

theorem fill_intercalate (sep : String) (as : List α) :
    fill (params ++ as) ((lit sep).intercalate
        ((List.range' (params.length + 1) as.length).map fun n => [.inr n])) =
      some ((lit sep).intercalate (as.map fun a => [.inr a])) := by
  induction as generalizing params
  case nil => rfl
  case cons a as ih =>
    have hp : params ++ a :: as = params ++ [a] ++ as := by simp
    have ha : fill (params ++ a :: as) [.inr (params.length + 1)] = some [.inr a] := by
      simp [fill, valueAt]
    have ih := @ih (params ++ [a])
    rw [← hp, List.length_append, List.length_singleton] at ih
    cases as
    case nil => simpa using ha
    case cons a' as =>
      simp only [List.length_cons, List.range'_succ, List.map_cons, List.intercalate_cons_cons] at ih ⊢
      exact fill_append (fill_append ha (fill_lit sep)) ih

end Filling

-- The text refers to all parameters but the first `k`, each once and in their order, and stands for
-- the text `t` with the values in it.
structure Numbered (k : Nat) (params : List α) (s : String) (t : Text α) : Prop where
  le     : k ≤ params.length
  holes  : holes (read s.toList) = List.range' (k + 1) (params.length - k)
  filled : fill params (read s.toList) = some t

namespace Numbered

variable {k : Nat} {params : List α} {s : String} {t : Text α}

theorem start (params : List α) (s : String) (h : '$' ∉ s.toList) :
    Numbered params.length params s (lit s) where
  le     := Nat.le_refl _
  holes  := by
    rw [read_text h, Nat.sub_self]
    exact holes_lit s
  filled := by
    rw [read_text h]
    exact fill_lit s

theorem text (h : Numbered k params s t) {s' : String} (hs : Literal s') :
    Numbered k params (s ++ s') (t ++ lit s') := by
  have hr : read (s ++ s').toList = read s.toList ++ lit s' := by
    rw [String.toList_append, read_append _ hs.closed, read_text hs.plain]
    rfl
  constructor
  case le => exact h.le
  case holes => rw [hr, holes_append, h.holes, holes_lit, List.append_nil]
  case filled => exact hr ▸ fill_append h.filled (fill_lit s')

theorem values (h : Numbered k params s t) (as : List α) {pre sep post : String} (hp : Literal pre)
    (hn : pre ≠ "") (hs : Literal sep) (hsn : sep ≠ "") (hq : Literal post) :
    Numbered k (params ++ as)
      (s ++ (pre ++ sep.intercalate ((List.range' (params.length + 1) as.length).map placeholder) ++ post))
      (t ++ list pre sep as post) := by
  have hr : read (s ++ (pre ++ sep.intercalate ((List.range' (params.length + 1) as.length).map placeholder) ++
      post)).toList = read s.toList ++ list pre sep (List.range' (params.length + 1) as.length) post := by
    rw [String.toList_append, String.toList_append, String.toList_append, List.append_assoc,
      read_append _ (hp.append hn _), read_text_append hp.plain, read_append _ hq.closed,
      read_text hq.plain, String.toList_intercalate, read_intercalate hs hsn]
    simp [list, lit, Function.comp_def, read_placeholder]
  have hl := h.le
  constructor
  case le => simp; omega
  case holes =>
    rw [hr, holes_append, holes_list, h.holes]
    have he : params.length + 1 = k + 1 + (params.length - k) := by omega
    rw [he, List.range'_append_1, List.length_append]
    congr 1
    omega
  case filled =>
    refine hr ▸ fill_append (fill_params as h.filled) ?_
    exact fill_append (fill_append (fill_lit pre) (fill_intercalate sep as)) (fill_lit post)

-- The placeholders are `$1` to `$n` for the n values if none is left out.
theorem mem_holes (h : Numbered k params s t) (n : Nat) :
    n ∈ Placeholders.holes (read s.toList) ↔ k + 1 ≤ n ∧ n ≤ params.length := by
  have hl := h.le
  rw [h.holes, List.mem_range'_1]
  omega

end Numbered

end Placeholders
