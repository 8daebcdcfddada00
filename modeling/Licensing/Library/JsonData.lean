import Licensing.Library.Lexicographic
import Licensing.Library.Utf16
import Mathlib.Algebra.Order.Ring.Int
import Mathlib.Data.List.TakeDrop

-- JSON values whose numbers are integers, and their canonical text: no white space, and the members
-- of an object in the order of the UTF-16 code units of their names.

namespace JsonText

inductive Data
  | null
  | bool (b : Bool)
  | int (n : Int)
  | str (s : List Char)
  | arr (xs : List Data)
  | obj (ms : List (List Char × Data))
  deriving Repr, Inhabited

def natText (n : Nat) : List Char :=
  Nat.toDigits 10 n

def intText : Int → List Char
  | .ofNat n   => natText n
  | .negSucc n => '-' :: natText (n + 1)

def quote (s : List Char) : List Char :=
  Escape.short.quote s

def sortMembers {α : Type} (ms : List (List Char × α)) : List (List Char × α) :=
  sortBy (fun m m' => lexicographic ((utf16 m.1).map UInt16.toNat) ((utf16 m'.1).map UInt16.toNat)) ms

namespace Data

-- No object has two members of one name.
mutual

def Distinct : Data → Prop
  | arr xs => DistinctElements xs
  | obj ms => (ms.map Prod.fst).Nodup ∧ DistinctMembers ms
  | _      => True

def DistinctElements : List Data → Prop
  | []      => True
  | x :: xs => x.Distinct ∧ DistinctElements xs

def DistinctMembers : List (List Char × Data) → Prop
  | []           => True
  | (_, v) :: ms => v.Distinct ∧ DistinctMembers ms

end

-- Every integer is one that a double represents together with its neighbours.
mutual

def Safe : Data → Prop
  | int n  => n.natAbs < 2 ^ 53
  | arr xs => SafeElements xs
  | obj ms => SafeMembers ms
  | _      => True

def SafeElements : List Data → Prop
  | []      => True
  | x :: xs => x.Safe ∧ SafeElements xs

def SafeMembers : List (List Char × Data) → Prop
  | []           => True
  | (_, v) :: ms => v.Safe ∧ SafeMembers ms

end

-- No object has a member of the name.
mutual

def Avoids (name : List Char) : Data → Prop
  | arr xs => AvoidElements name xs
  | obj ms => AvoidMembers name ms
  | _      => True

def AvoidElements (name : List Char) : List Data → Prop
  | []      => True
  | x :: xs => x.Avoids name ∧ AvoidElements name xs

def AvoidMembers (name : List Char) : List (List Char × Data) → Prop
  | []           => True
  | (k, v) :: ms => (k ≠ name ∧ v.Avoids name) ∧ AvoidMembers name ms

end

mutual

def normal : Data → Data
  | arr xs => arr (normalElements xs)
  | obj ms => obj (sortMembers (normalMembers ms))
  | d      => d

def normalElements : List Data → List Data
  | []      => []
  | x :: xs => x.normal :: normalElements xs

def normalMembers : List (List Char × Data) → List (List Char × Data)
  | []           => []
  | (k, v) :: ms => (k, v.normal) :: normalMembers ms

end

-- Objects are the same if their members are, in whatever order.
def Same (d e : Data) : Prop :=
  d.normal = e.normal

mutual

def text : Data → List Char
  | null       => ['n', 'u', 'l', 'l']
  | bool true  => ['t', 'r', 'u', 'e']
  | bool false => ['f', 'a', 'l', 's', 'e']
  | int n      => intText n
  | str s      => quote s
  | arr xs     => '[' :: ([','].intercalate (elementTexts xs) ++ [']'])
  | obj ms     => '{' :: ([','].intercalate (memberTexts ms) ++ ['}'])

def elementTexts : List Data → List (List Char)
  | []      => []
  | x :: xs => x.text :: elementTexts xs

def memberTexts : List (List Char × Data) → List (List Char)
  | []           => []
  | (k, v) :: ms => (quote k ++ ':' :: v.text) :: memberTexts ms

end

-- What is read back.
mutual

def raw : Data → Raw
  | null   => .null
  | bool b => .bool b
  | int n  => .num (intText n)
  | str s  => .str (s.map Escape.short.piece)
  | arr xs => .arr (rawElements xs)
  | obj ms => .obj (rawMembers ms)

def rawElements : List Data → List Raw
  | []      => []
  | x :: xs => x.raw :: rawElements xs

def rawMembers : List (List Char × Data) → List (List Piece × Raw)
  | []           => []
  | (k, v) :: ms => (k.map Escape.short.piece, v.raw) :: rawMembers ms

end

end Data

-- Where the text of an integer ends.
def Stops (cs : List Char) : Prop :=
  ∀ c ∈ cs.head?, c = ',' ∨ c = ']' ∨ c = '}'

namespace Stops

theorem nil : Stops [] :=
  nofun

theorem comma (cs : List Char) : Stops (',' :: cs) := by
  simp [Stops]

theorem bracket (cs : List Char) : Stops (']' :: cs) := by
  simp [Stops]

theorem brace (cs : List Char) : Stops ('}' :: cs) := by
  simp [Stops]

variable {cs : List Char}

theorem span_isDigit (h : Stops cs) {ds : List Char} (hd : ∀ c ∈ ds, c.isDigit) :
    (ds ++ cs).span Char.isDigit = (ds, cs) := by
  have hn : cs.takeWhile Char.isDigit = [] := by
    match cs with
    | []     => rfl
    | c :: _ => obtain (rfl | rfl | rfl) := h c (by simp) <;> rfl
  have hn' : cs.dropWhile Char.isDigit = cs := by
    match cs with
    | []     => rfl
    | c :: _ => obtain (rfl | rfl | rfl) := h c (by simp) <;> rfl
  rw [List.span_eq_takeWhile_dropWhile, List.takeWhile_append_of_pos hd,
    List.dropWhile_append_of_pos hd, hn, hn', List.append_nil]

theorem fracPart (h : Stops cs) : JsonText.fracPart cs = some ([], cs) := by
  match cs with
  | []     => rfl
  | c :: _ => obtain (rfl | rfl | rfl) := h c (by simp) <;> rfl

theorem expPart (h : Stops cs) : JsonText.expPart cs = some ([], cs) := by
  match cs with
  | []          => rfl
  | [c]         => obtain (rfl | rfl | rfl) := h c (by simp) <;> rfl
  | c :: d :: _ => obtain (rfl | rfl | rfl) := h c (by simp) <;> rfl

end Stops

theorem isDigit_natText {n : Nat} : ∀ c ∈ natText n, c.isDigit :=
  fun _ h => Nat.isDigit_of_mem_toDigits (by decide) (by decide) h

-- Only zero begins with a zero.
theorem natText_cases (n : Nat) : n = 0 ∧ natText n = ['0'] ∨
    ∃ c cs, natText n = c :: cs ∧ c.isDigit ∧ c ≠ '0' := by
  induction n using Nat.strongRecOn
  case _ n ih =>
    rw [natText, Nat.toDigits_eq_if (by decide)]
    split
    case isTrue h =>
      have hd : ∀ n < 10, n = 0 ∨ n.digitChar.isDigit ∧ n.digitChar ≠ '0' := by decide
      rcases hd n h with rfl | ⟨hc, hz⟩
      · exact .inl ⟨rfl, rfl⟩
      · exact .inr ⟨_, _, rfl, hc, hz⟩
    case isFalse h =>
      rcases ih (n / 10) (by omega) with ⟨hz, _⟩ | ⟨c, cs, hn, hc, hz⟩
      · omega
      · exact .inr ⟨c, cs ++ [(n % 10).digitChar], by rw [← natText, hn, List.cons_append], hc, hz⟩

theorem intPart_natText {cs : List Char} (n : Nat) (h : Stops cs) :
    intPart (natText n ++ cs) = some (natText n, cs) := by
  rcases natText_cases n with ⟨rfl, hn⟩ | ⟨c, ds, hn, hc, hz⟩
  · rw [hn]
    rfl
  · have hd : digits (natText n ++ cs) = some (natText n, cs) := by
      rw [digits, h.span_isDigit isDigit_natText, hn]
    rw [← hd, hn]
    exact intPart.eq_2 _ fun cs' he => hz (List.cons.inj he).1

theorem number_intText {cs : List Char} (n : Int) (h : Stops cs) :
    number (intText n ++ cs) = some (intText n, cs) := by
  have hu m : unsigned (natText m ++ cs) = some (natText m, cs) := by
    simp [unsigned, intPart_natText m h, h.fracPart, h.expPart]
  match n with
  | .negSucc n =>
    rw [intText, List.cons_append, number, hu]
    rfl
  | .ofNat n   =>
    rw [intText, ← hu]
    refine number.eq_2 _ fun cs' he => ?_
    have hm := isDigit_natText (n := n)
    rcases natText_cases n with ⟨rfl, hn⟩ | ⟨c, ds, hn, hc, _⟩
    · simp [hn] at he
    · rw [hn] at he
      cases he
      simp at hc

theorem head_intText (n : Int) : ∃ c cs, intText n = c :: cs ∧ (c.isDigit ∨ c = '-') := by
  match n with
  | .negSucc n => exact ⟨'-', natText (n + 1), rfl, .inr rfl⟩
  | .ofNat n   =>
    rcases natText_cases n with ⟨_, hn⟩ | ⟨c, cs, hn, hc, _⟩
    · exact ⟨'0', [], hn, .inl rfl⟩
    · exact ⟨c, cs, hn, .inl hc⟩

theorem skipSpace_number {c : Char} (h : c.isDigit ∨ c = '-') (cs : List Char) :
    skipSpace (c :: cs) = c :: cs := by
  have hc : isSpace c = false := by
    rcases h with h | rfl
    · by_contra hn
      simp only [isSpace, Bool.not_eq_false, Bool.or_eq_true, decide_eq_true_eq] at hn
      obtain ((rfl | rfl) | rfl) | rfl := hn <;> simp at h
    · rfl
  simp [skipSpace, hc]

theorem value_number {c : Char} (h : c.isDigit ∨ c = '-') (n : Nat) (cs : List Char) :
    value (n + 1) (c :: cs) = (number (c :: cs)).map fun (lit, cs) => (.num lit, cs) := by
  have hd : ∀ c' ∈ ['{', '[', '\"', 'n', 't', 'f'], c ≠ c' := by
    rintro c' hc rfl
    simp only [List.mem_cons, List.not_mem_nil, or_false] at hc
    obtain rfl | rfl | rfl | rfl | rfl | rfl := hc <;> simp at h
  rw [value, skipSpace_number h]
  split
  case h_7 => rfl
  all_goals
    rename_i he
    cases he
    simp at hd

theorem quote_append (s cs : List Char) :
    quote s ++ cs = '\"' :: (s.flatMap Escape.short.write ++ '\"' :: cs) := by
  simp [quote, Escape.quote]

theorem value_quote (n : Nat) (s cs : List Char) :
    value (n + 1) (quote s ++ cs) = some (.str (s.map Escape.short.piece), cs) := by
  rw [quote_append]
  change (string _).map _ = _
  rw [Escape.string_quote]
  rfl

-- A member is its name, a colon, its value, and what follows.
theorem members_quote (n : Nat) (s cs : List Char) :
    members (n + 1) (quote s ++ ':' :: cs) = (value n cs).bind fun (v, cs) =>
      match skipSpace cs with
      | ',' :: cs => (members n cs).map fun (ms, cs) => ((s.map Escape.short.piece, v) :: ms, cs)
      | '}' :: cs => some ([(s.map Escape.short.piece, v)], cs)
      | _         => none := by
  rw [quote_append]
  change (string _).bind _ = _
  rw [Escape.string_quote]
  rfl

namespace Data

theorem head_text (d : Data) (cs : List Char) :
    ∃ c cs', d.text ++ cs = c :: cs' ∧ skipSpace (c :: cs') = c :: cs' ∧ c ≠ ']' := by
  match d with
  | null       => exact ⟨_, _, rfl, rfl, by decide⟩
  | bool true  => exact ⟨_, _, rfl, rfl, by decide⟩
  | bool false => exact ⟨_, _, rfl, rfl, by decide⟩
  | str s      => exact ⟨_, _, rfl, rfl, by decide⟩
  | arr xs     => exact ⟨_, _, rfl, rfl, by decide⟩
  | obj ms     => exact ⟨_, _, rfl, rfl, by decide⟩
  | int i      =>
    have ⟨c, ds, hi, hc⟩ := head_intText i
    exact ⟨c, ds ++ cs, by rw [text, hi]; rfl, skipSpace_number hc _, by rintro rfl; simp at hc⟩

theorem elements_head (x : Data) (xs : List Data) (cs : List Char) :
    ∃ cs', [','].intercalate (elementTexts (x :: xs)) ++ cs = x.text ++ cs' := by
  match xs with
  | []      => exact ⟨cs, by simp [elementTexts]⟩
  | y :: ys => exact ⟨_, by simp only [elementTexts, List.intercalate_cons_cons, List.append_assoc]; rfl⟩

theorem members_head (k : List Char) (v : Data) (ms : List (List Char × Data)) (cs : List Char) :
    ∃ cs', [','].intercalate (memberTexts ((k, v) :: ms)) ++ cs = '\"' :: cs' := by
  match ms with
  | []            => exact ⟨_, by rw [memberTexts, memberTexts, List.intercalate_singleton]; rfl⟩
  | (k', v') :: _ => exact ⟨_, by rw [memberTexts, memberTexts, List.intercalate_cons_cons]; rfl⟩

-- Each text is read with a bound beyond its length.
mutual

theorem value_text : (d : Data) → {n : Nat} → {cs : List Char} → d.text.length < n → Stops cs →
    value n (d.text ++ cs) = some (d.raw, cs)
  | d, 0, cs, h, _ => by simp at h
  | null, n + 1, cs, h, _ => rfl
  | bool true, n + 1, cs, h, _ => rfl
  | bool false, n + 1, cs, h, _ => rfl
  | int i, n + 1, cs, h, hs => by
    have ⟨c, ds, hi, hc⟩ := head_intText i
    rw [text, hi, List.cons_append, value_number hc, ← List.cons_append, ← hi, number_intText i hs]
    rfl
  | str s, n + 1, cs, h, _ => value_quote n s cs
  | arr [], n + 1, cs, h, _ => rfl
  | arr (x :: xs), n + 1, cs, h, _ => by
    have hl : ([','].intercalate (elementTexts (x :: xs))).length + 1 < n := by
      simp only [text, List.length_cons, List.length_append, List.length_nil] at h
      omega
    have hm := elements_text x xs hl cs
    have ⟨cs', he⟩ := elements_head x xs (']' :: cs)
    have ⟨c, cs'', hc, hs, hn⟩ := head_text x cs'
    rw [he, hc] at hm
    rw [text, List.cons_append, List.append_assoc, List.singleton_append, he, hc]
    change (match skipSpace (c :: cs'') with
      | ']' :: cs => some (Raw.arr [], cs)
      | cs        => (elements n cs).map fun (xs, cs) => (Raw.arr xs, cs)) = _
    rw [hs]
    split
    case h_1 he =>
      cases he
      contradiction
    case h_2 =>
      rw [hm]
      rfl
  | obj [], n + 1, cs, h, _ => rfl
  | obj ((k, v) :: ms), n + 1, cs, h, _ => by
    have hl : ([','].intercalate (memberTexts ((k, v) :: ms))).length + 1 < n := by
      simp only [text, List.length_cons, List.length_append, List.length_nil] at h
      omega
    have hm := members_text k v ms hl cs
    have ⟨cs', he⟩ := members_head k v ms ('}' :: cs)
    rw [he] at hm
    rw [text, List.cons_append, List.append_assoc, List.singleton_append, he]
    change (members n _).map _ = _
    rw [hm]
    rfl

theorem elements_text : (x : Data) → (xs : List Data) → {n : Nat} →
    ([','].intercalate (elementTexts (x :: xs))).length + 1 < n → (cs : List Char) →
    elements n ([','].intercalate (elementTexts (x :: xs)) ++ ']' :: cs) =
      some (rawElements (x :: xs), cs)
  | x, xs, 0, h, _ => by simp at h
  | x, [], n + 1, h, cs => by
    simp only [elementTexts, List.intercalate_singleton] at h ⊢
    rw [elements, value_text x (by omega) (.bracket cs)]
    rfl
  | x, y :: ys, n + 1, h, cs => by
    have hl : x.text.length < n ∧ ([','].intercalate (elementTexts (y :: ys))).length + 1 < n := by
      rw [elementTexts, elementTexts, List.intercalate_cons_cons, ← elementTexts] at h
      simp only [List.length_append, List.length_cons, List.length_nil] at h
      omega
    have hm := elements_text y ys hl.2 cs
    rw [elementTexts, elementTexts, List.intercalate_cons_cons, ← elementTexts]
    simp only [List.append_assoc, List.cons_append, List.nil_append]
    rw [elements, value_text x hl.1 (.comma _)]
    change (elements n _).map _ = _
    rw [hm]
    rfl

theorem members_text : (k : List Char) → (v : Data) → (ms : List (List Char × Data)) → {n : Nat} →
    ([','].intercalate (memberTexts ((k, v) :: ms))).length + 1 < n → (cs : List Char) →
    members n ([','].intercalate (memberTexts ((k, v) :: ms)) ++ '}' :: cs) =
      some (rawMembers ((k, v) :: ms), cs)
  | k, v, ms, 0, h, _ => by simp at h
  | k, v, [], n + 1, h, cs => by
    simp only [memberTexts, List.intercalate_singleton, List.length_append, List.length_cons] at h
    simp only [memberTexts, List.intercalate_singleton]
    rw [List.append_assoc, List.cons_append, members_quote, value_text v (by omega) (.brace cs)]
    rfl
  | k, v, (k', v') :: ms, n + 1, h, cs => by
    have hl : v.text.length < n ∧
        ([','].intercalate (memberTexts ((k', v') :: ms))).length + 1 < n := by
      rw [memberTexts, memberTexts, List.intercalate_cons_cons, ← memberTexts] at h
      simp only [List.length_append, List.length_cons, List.length_nil] at h
      omega
    have hm := members_text k' v' ms hl.2 cs
    rw [memberTexts, memberTexts, List.intercalate_cons_cons, ← memberTexts]
    simp only [List.append_assoc, List.cons_append, List.nil_append]
    rw [members_quote, value_text v hl.1 (.comma _)]
    change (members n _).map _ = _
    rw [hm]
    rfl

end

theorem safeMembers_iff (ms : List (List Char × Data)) :
    SafeMembers ms ↔ ∀ m ∈ ms, m.2.Safe := by
  induction ms
  case nil => simp [SafeMembers]
  case cons m ms ih => simp [SafeMembers, ih]

theorem distinctMembers_iff (ms : List (List Char × Data)) :
    DistinctMembers ms ↔ ∀ m ∈ ms, m.2.Distinct := by
  induction ms
  case nil => simp [DistinctMembers]
  case cons m ms ih => simp [DistinctMembers, ih]

theorem avoidMembers_iff (name : List Char) (ms : List (List Char × Data)) :
    AvoidMembers name ms ↔ ∀ m ∈ ms, m.1 ≠ name ∧ m.2.Avoids name := by
  induction ms
  case nil => simp [AvoidMembers]
  case cons m ms ih => simp [AvoidMembers, ih]

theorem normalMembers_eq (ms : List (List Char × Data)) :
    normalMembers ms = ms.map fun m => (m.1, m.2.normal) := by
  induction ms
  case nil => rfl
  case cons m ms ih => rw [normalMembers, ih]; rfl

theorem memberTexts_eq (ms : List (List Char × Data)) :
    memberTexts ms = ms.map fun m => quote m.1 ++ ':' :: m.2.text := by
  induction ms
  case nil => rfl
  case cons m ms ih => rw [memberTexts, ih]; rfl

theorem sortMembers_map {α β : Type} (f : α → β) (ms : List (List Char × α)) :
    sortMembers (ms.map fun m => (m.1, f m.2)) = (sortMembers ms).map fun m => (m.1, f m.2) :=
  sortBy_map (fun _ _ => rfl) ms

theorem sortMembers_normalMembers (ms : List (List Char × Data)) :
    sortMembers (normalMembers ms) = normalMembers (sortMembers ms) := by
  rw [normalMembers_eq, normalMembers_eq, sortMembers_map]

mutual

theorem safe_normal : (d : Data) → (d.normal.Safe ↔ d.Safe)
  | null | bool _ | int _ | str _ => .rfl
  | arr xs => safe_normalElements xs
  | obj ms => by
    rw [normal, Safe, Safe, ← safe_normalMembers ms, safeMembers_iff, safeMembers_iff]
    exact forall_congr' fun m => by rw [sortMembers, (sortBy_perm _ _).mem_iff]

theorem safe_normalElements : (xs : List Data) → (SafeElements (normalElements xs) ↔ SafeElements xs)
  | []      => .rfl
  | x :: xs => and_congr (safe_normal x) (safe_normalElements xs)

theorem safe_normalMembers :
    (ms : List (List Char × Data)) → (SafeMembers (normalMembers ms) ↔ SafeMembers ms)
  | []           => .rfl
  | (_, v) :: ms => and_congr (safe_normal v) (safe_normalMembers ms)

end

mutual

theorem distinct_normal : (d : Data) → (d.normal.Distinct ↔ d.Distinct)
  | null | bool _ | int _ | str _ => .rfl
  | arr xs => distinct_normalElements xs
  | obj ms => by
    have hn : (normalMembers ms).map Prod.fst = ms.map Prod.fst := by
      rw [normalMembers_eq, List.map_map]
      rfl
    rw [normal, Distinct, Distinct, ← distinct_normalMembers ms, distinctMembers_iff,
      distinctMembers_iff, ← hn]
    refine and_congr ((sortBy_perm _ _).map _).nodup_iff ?_
    exact forall_congr' fun m => by rw [sortMembers, (sortBy_perm _ _).mem_iff]

theorem distinct_normalElements :
    (xs : List Data) → (DistinctElements (normalElements xs) ↔ DistinctElements xs)
  | []      => .rfl
  | x :: xs => and_congr (distinct_normal x) (distinct_normalElements xs)

theorem distinct_normalMembers :
    (ms : List (List Char × Data)) → (DistinctMembers (normalMembers ms) ↔ DistinctMembers ms)
  | []           => .rfl
  | (_, v) :: ms => and_congr (distinct_normal v) (distinct_normalMembers ms)

end

mutual

theorem avoids_normal (name : List Char) : (d : Data) → (d.normal.Avoids name ↔ d.Avoids name)
  | null | bool _ | int _ | str _ => .rfl
  | arr xs => avoids_normalElements name xs
  | obj ms => by
    rw [normal, Avoids, Avoids, ← avoids_normalMembers name ms, avoidMembers_iff, avoidMembers_iff]
    exact forall_congr' fun m => by rw [sortMembers, (sortBy_perm _ _).mem_iff]

theorem avoids_normalElements (name : List Char) :
    (xs : List Data) → (AvoidElements name (normalElements xs) ↔ AvoidElements name xs)
  | []      => .rfl
  | x :: xs => and_congr (avoids_normal name x) (avoids_normalElements name xs)

theorem avoids_normalMembers (name : List Char) :
    (ms : List (List Char × Data)) → (AvoidMembers name (normalMembers ms) ↔ AvoidMembers name ms)
  | []           => .rfl
  | (_, v) :: ms =>
    and_congr (and_congr_right fun _ => avoids_normal name v) (avoids_normalMembers name ms)

end

-- The members of a normal object are sorted already.
mutual

theorem normal_normal : (d : Data) → d.normal.normal = d.normal
  | null | bool _ | int _ | str _ => rfl
  | arr xs => congrArg arr (normalElements_normal xs)
  | obj ms => by
    rw [normal, normal, ← sortMembers_normalMembers, normalMembers_normal ms]
    exact congrArg obj (sortBy_sorted _)

theorem normalElements_normal : (xs : List Data) →
    normalElements (normalElements xs) = normalElements xs
  | []      => rfl
  | x :: xs => congrArg₂ _ (normal_normal x) (normalElements_normal xs)

theorem normalMembers_normal : (ms : List (List Char × Data)) →
    normalMembers (normalMembers ms) = normalMembers ms
  | []           => rfl
  | (_, v) :: ms => congrArg₂ _ (congrArg _ (normal_normal v)) (normalMembers_normal ms)

end

theorem Same.safe_iff {d e : Data} (h : d.Same e) : d.Safe ↔ e.Safe := by
  rw [← safe_normal d, ← safe_normal e, h]

theorem Same.distinct_iff {d e : Data} (h : d.Same e) : d.Distinct ↔ e.Distinct := by
  rw [← distinct_normal d, ← distinct_normal e, h]

theorem Same.avoids_iff {d e : Data} (h : d.Same e) (name : List Char) :
    d.Avoids name ↔ e.Avoids name := by
  rw [← avoids_normal name d, ← avoids_normal name e, h]

def isObject : Data → Bool
  | obj _ => true
  | _     => false

theorem eq_obj_of_isObject {d : Data} (h : d.isObject) : ∃ ms, d = obj ms := by
  cases d
  case obj ms => exact ⟨ms, rfl⟩
  all_goals contradiction

theorem isObject_normal (d : Data) : d.normal.isObject = d.isObject := by
  cases d <;> rfl

theorem Same.isObject {d e : Data} (h : d.Same e) : d.isObject = e.isObject := by
  rw [← isObject_normal d, ← isObject_normal e, h]

end Data

end JsonText
