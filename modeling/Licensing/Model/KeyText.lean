import Licensing.Model.KeyEncoding
import Mathlib.Data.List.DropRight

-- Which texts the two ports take for license keys.

namespace Licensing

section Trim

variable {α : Type} (p : α → Bool)

def trimBy (cs : List α) : List α :=
  ((cs.dropWhile p).reverse.dropWhile p).reverse

-- A part that is not trimmed at either end is what is left.
theorem trimBy_eq {ws cs ws' : List α} (h : ∀ c ∈ ws, p c) (hn : cs ≠ []) (hc : ∀ c ∈ cs, p c = false)
    (h' : ∀ c ∈ ws', p c) : trimBy p (ws ++ (cs ++ ws')) = cs := by
  cases cs
  case nil => exact absurd rfl hn
  case cons c cs =>
    have hd : (ws ++ (c :: cs ++ ws')).dropWhile p = c :: cs ++ ws' := by
      rw [List.dropWhile_append_of_pos h, List.cons_append, List.dropWhile_cons_of_neg (by simp [hc])]
    have hr : (ws'.reverse ++ (c :: cs).reverse).dropWhile p = (c :: cs).reverse := by
      rw [List.dropWhile_append_of_pos (by simpa using h')]
      refine List.dropWhile_eq_self_iff.mpr fun hl => ?_
      rw [hc _ (List.mem_reverse.mp (List.getElem_mem hl))]
      decide
    rw [trimBy, hd, List.reverse_append, hr, List.reverse_reverse]

theorem exists_trimBy (cs : List α) :
    ∃ ws ws', cs = ws ++ (trimBy p cs ++ ws') ∧ (∀ c ∈ ws, p c) ∧ ∀ c ∈ ws', p c := by
  refine ⟨cs.takeWhile p, ((cs.dropWhile p).reverse.takeWhile p).reverse, ?_, ?_, ?_⟩
  · rw [trimBy, ← List.reverse_append, List.takeWhile_append_dropWhile, List.reverse_reverse,
      List.takeWhile_append_dropWhile]
  · exact fun c hc => List.mem_takeWhile_imp hc
  · exact fun c hc => List.mem_takeWhile_imp (List.mem_reverse.mp hc)

end Trim

def keyChars : List Char :=
  'L' :: 'I' :: '-' :: Go.crockfordAlphabet

theorem mem_keyChars_of_keyGroups {cs : List Char} {n : Nat} (h : Go.keyGroups cs = some n) :
    ∀ c ∈ cs, c ∈ keyChars := by
  induction cs using Go.keyGroups.induct generalizing n
  case case1 => simp
  case case2 a b c d cs hall ih =>
    simp only [Go.keyGroups, if_pos hall, Option.map_eq_some_iff] at h
    obtain ⟨m, hm, _⟩ := h
    intro e he
    rcases List.mem_append.mp (show e ∈ ['-', a, b, c, d] ++ cs from he) with hd | hs
    case inl =>
      have ha : ∀ e ∈ [a, b, c, d], e ∈ Go.crockfordAlphabet := by simpa using hall
      cases hd
      case head => simp [keyChars]
      case tail hd => simp [keyChars, ha e hd]
    case inr => exact ih hm e hs
  case case3 a b c d cs hall => simp [Go.keyGroups, hall] at h
  case case4 cs hn hg =>
    unfold Go.keyGroups at h
    split at h
    case h_1 => exact absurd rfl hn
    case h_2 a b c d cs => exact absurd rfl (hg a b c d cs)
    case h_3 => cases h

theorem mem_keyChars {cs : List Char} (h : Go.isLicenseKey cs) : ∀ c ∈ cs, c ∈ keyChars := by
  unfold Go.isLicenseKey at h
  split at h
  case h_1 cs =>
    cases hg : Go.keyGroups cs
    case none => simp [hg] at h
    case some n =>
      have hall : ['L', 'I', 'C'].all (keyChars.contains ·) := rfl
      have hlic : ∀ c ∈ ['L', 'I', 'C'], c ∈ keyChars := by simpa using hall
      intro c hc
      rcases List.mem_append.mp (show c ∈ ['L', 'I', 'C'] ++ cs from hc) with hl | hs
      case inl => exact hlic c hl
      case inr => exact mem_keyChars_of_keyGroups hg c hs
  case h_2 => cases h

theorem ne_nil_of_isLicenseKey {cs : List Char} (h : Go.isLicenseKey cs) : cs ≠ [] := by
  rintro rfl
  cases h

def isAsciiSpace (c : Char) : Bool :=
  c.toNat ∈ [0x9, 0xa, 0xb, 0xc, 0xd, 0x20]

theorem plain_keyChars : ∀ c ∈ keyChars, c.toNat < 0x80 ∧ isAsciiSpace c = false ∧ c.toUpper = c := by
  have hall : keyChars.all fun c => c.toNat < 0x80 ∧ isAsciiSpace c = false ∧ c.toUpper = c := rfl
  simpa using hall

-- White space and upper case, as a language has them. On the characters of ASCII they are the usual
-- ones, and white space is its own upper case.
structure Folding where
  isSpace       : Char → Bool
  upper         : Char → List Char
  isSpace_ascii : ∀ c : Char, c.toNat < 0x80 → isSpace c = isAsciiSpace c
  upper_ascii   : ∀ c : Char, c.toNat < 0x80 → upper c = [c.toUpper]
  upper_space   : ∀ c : Char, isSpace c → upper c = [c]

namespace Folding

variable (f : Folding) {input key : String}

def normalize (input : String) : Option String :=
  let trimmed := (trimBy f.isSpace input.toList).flatMap f.upper
  if Go.isLicenseKey trimmed then some (.ofList trimmed) else none

-- White space around characters whose upper cases are a key.
def Spells (input key : String) : Prop :=
  ∃ ws body ws', input.toList = ws ++ (body ++ ws') ∧ (∀ c ∈ ws, f.isSpace c) ∧ (∀ c ∈ ws', f.isSpace c) ∧
    body.flatMap f.upper = key.toList ∧ Go.isLicenseKey key.toList

-- No white space is inside of what is read as a key.
theorem not_isSpace {body key : List Char} (hb : body.flatMap f.upper = key) (hk : Go.isLicenseKey key) :
    ∀ c ∈ body, f.isSpace c = false := by
  intro c hc
  by_contra hs
  rw [Bool.not_eq_false] at hs
  have hm : c ∈ key := hb ▸ List.mem_flatMap.mpr ⟨c, hc, by simp [f.upper_space c hs]⟩
  have ⟨ha, hn, _⟩ := plain_keyChars c (mem_keyChars hk c hm)
  rw [f.isSpace_ascii c ha, hn] at hs
  cases hs

theorem normalize_iff : f.normalize input = some key ↔ f.Spells input key := by
  constructor
  case mp =>
    intro h
    simp only [normalize] at h
    split at h
    case isTrue hk =>
      have ⟨ws, ws', hi, hw, hw'⟩ := exists_trimBy f.isSpace input.toList
      cases h
      exact ⟨ws, _, ws', hi, hw, hw', by simp, by simpa using hk⟩
    case isFalse => cases h
  case mpr =>
    intro ⟨ws, body, ws', hi, hw, hw', hb, hk⟩
    have hn : body ≠ [] := by
      rintro rfl
      exact ne_nil_of_isLicenseKey hk hb.symm
    have ht := trimBy_eq f.isSpace hw hn (f.not_isSpace hb hk) hw'
    simp only [normalize]
    rw [hi, ht, hb, if_pos hk, String.ofList_toList]

theorem normalize_key (h : Go.isLicenseKey key.toList) : f.normalize key = some key := by
  have hp c (hc : c ∈ key.toList) := plain_keyChars c (mem_keyChars h c hc)
  refine f.normalize_iff.mpr ⟨[], key.toList, [], by simp, by simp, by simp, ?_, h⟩
  have hu : key.toList.flatMap f.upper = key.toList.flatMap fun c => [c] :=
    List.flatMap_congr fun c hc => by rw [f.upper_ascii c (hp c hc).1, (hp c hc).2.2]
  rw [hu, List.flatMap_singleton']

theorem normalize_idempotent (h : f.normalize input = some key) : f.normalize key = some key := by
  have ⟨_, _, _, _, _, _, _, hk⟩ := f.normalize_iff.mp h
  exact f.normalize_key hk

end Folding

theorem toUpper_eq {c : Char} (h : ¬(97 ≤ c.toNat ∧ c.toNat ≤ 122)) : c.toUpper = c := by
  delta Char.toUpper
  rw [dif_neg]
  intro hc
  exact h ⟨UInt32.le_iff_toNat_le.mp hc.1, UInt32.le_iff_toNat_le.mp hc.2⟩

theorem ascii_of_toUpper {c : Char} (h : c.toUpper.toNat < 0x80) : c.toNat < 0x80 := by
  by_contra hn
  rw [toUpper_eq (by omega)] at h
  exact hn h

theorem isAsciiSpace_lt {c : Char} (h : isAsciiSpace c) : c.toNat < 0x80 ∧ ¬(97 ≤ c.toNat ∧ c.toNat ≤ 122) := by
  simp only [isAsciiSpace, List.mem_cons, List.not_mem_nil, or_false, decide_eq_true_eq] at h
  omega

namespace Folding

variable (f : Folding) {input key : String}

-- What is read in ASCII alone.
def ascii : Folding where
  isSpace           := isAsciiSpace
  upper c           := [c.toUpper]
  isSpace_ascii _ _ := rfl
  upper_ascii _ _   := rfl
  upper_space _ h   := by rw [toUpper_eq (isAsciiSpace_lt h).2]

theorem ascii_of_spells (h : ascii.Spells input key) : ∀ c ∈ input.toList, c.toNat < 0x80 := by
  have ⟨ws, body, ws', hi, hw, hw', hb, hk⟩ := h
  have hbody : ∀ c ∈ body, c.toNat < 0x80 := by
    intro c hc
    have hm : c.toUpper ∈ key.toList := hb ▸ List.mem_flatMap.mpr ⟨c, hc, by simp [ascii]⟩
    exact ascii_of_toUpper (plain_keyChars _ (mem_keyChars hk _ hm)).1
  rw [hi]
  simp only [List.mem_append]
  intro c hc
  rcases hc with hc | hc | hc
  · exact (isAsciiSpace_lt (hw c hc)).1
  · exact hbody c hc
  · exact (isAsciiSpace_lt (hw' c hc)).1

-- On a text of ASCII all languages read the same.
theorem spells_of_ascii {g : Folding} (ha : ∀ c ∈ input.toList, c.toNat < 0x80) (h : f.Spells input key) :
    g.Spells input key := by
  have ⟨ws, body, ws', hi, hw, hw', hb, hk⟩ := h
  rw [hi] at ha
  simp only [List.mem_append] at ha
  refine ⟨ws, body, ws', hi, ?_, ?_, ?_, hk⟩
  · intro c hc
    rw [g.isSpace_ascii c (ha c (.inl hc)), ← f.isSpace_ascii c (ha c (.inl hc)), hw c hc]
  · intro c hc
    rw [g.isSpace_ascii c (ha c (.inr (.inr hc))), ← f.isSpace_ascii c (ha c (.inr (.inr hc))), hw' c hc]
  · rw [← hb]
    refine List.flatMap_congr fun c hc => ?_
    rw [g.upper_ascii c (ha c (.inr (.inl hc))), f.upper_ascii c (ha c (.inr (.inl hc)))]

-- A language reads a text as ASCII does if the text is of ASCII, or if the language finds no key in it.
theorem normalize_eq_ascii_iff : f.normalize input = ascii.normalize input ↔
    (∀ c ∈ input.toList, c.toNat < 0x80) ∨ ¬∃ key, f.Spells input key := by
  constructor
  case mp =>
    intro h
    by_cases hs : ∃ key, f.Spells input key
    case pos =>
      have ⟨key, hk⟩ := hs
      rw [← f.normalize_iff, h, normalize_iff] at hk
      exact .inl (ascii_of_spells hk)
    case neg => exact .inr hs
  case mpr =>
    intro h
    refine Option.ext fun key => ?_
    rw [f.normalize_iff, normalize_iff]
    constructor
    case mp =>
      intro hk
      rcases h with ha | hn
      case inl => exact f.spells_of_ascii ha hk
      case inr => exact absurd ⟨key, hk⟩ hn
    case mpr => exact fun hk => spells_of_ascii _ (ascii_of_spells hk) hk

theorem go_toUpper {c : Char} (h : c ∉ ['ı', 'ſ']) : Go.toUpper c = c.toUpper := by
  simp only [List.mem_cons, List.not_mem_nil, or_false, not_or] at h
  simp [Go.toUpper, h]

theorem ts_toUpperCase {c : Char} (h : c ∉ ['ß', 'ﬀ', 'ﬅ', 'ﬆ', 'ı', 'ſ']) : Ts.toUpperCase c = [c.toUpper] := by
  simp only [List.mem_cons, List.not_mem_nil, or_false, not_or] at h
  simp [Ts.toUpperCase, h]

def go : Folding where
  isSpace := Go.isSpace
  upper c := [Go.toUpper c]
  isSpace_ascii c h := by
    simp only [Go.isSpace, isAsciiSpace, List.mem_cons, List.not_mem_nil, or_false]
    rw [decide_eq_decide]
    omega
  upper_ascii c h := by
    have hl : ∀ d ∈ ['ı', 'ſ'], ¬d.toNat < 0x80 := by simp
    rw [go_toUpper fun hc => hl c hc h]
  upper_space c h := by
    have hl : ∀ d ∈ ['ı', 'ſ'], Go.isSpace d = false := by simp [Go.isSpace]
    have hc : c ∉ ['ı', 'ſ'] := fun hc => by
      rw [hl c hc] at h
      cases h
    simp only [Go.isSpace, List.mem_cons, List.not_mem_nil, or_false, decide_eq_true_eq] at h
    rw [go_toUpper hc, toUpper_eq (by omega)]

def ts : Folding where
  isSpace := Ts.isSpace
  upper   := Ts.toUpperCase
  isSpace_ascii c h := by
    simp only [Ts.isSpace, isAsciiSpace, List.mem_cons, List.not_mem_nil, or_false]
    rw [decide_eq_decide]
    omega
  upper_ascii c h := by
    have hl : ∀ d ∈ ['ß', 'ﬀ', 'ﬅ', 'ﬆ', 'ı', 'ſ'], ¬d.toNat < 0x80 := by simp
    rw [ts_toUpperCase fun hc => hl c hc h]
  upper_space c h := by
    have hl : ∀ d ∈ ['ß', 'ﬀ', 'ﬅ', 'ﬆ', 'ı', 'ſ'], Ts.isSpace d = false := by simp [Ts.isSpace]
    have hc : c ∉ ['ß', 'ﬀ', 'ﬅ', 'ﬆ', 'ı', 'ſ'] := fun hc => by
      rw [hl c hc] at h
      cases h
    simp only [Ts.isSpace, List.mem_cons, List.not_mem_nil, or_false, decide_eq_true_eq] at h
    rw [ts_toUpperCase hc, toUpper_eq (by omega)]

theorem go_normalize (input : String) : Go.normalizeLicenseKey input = go.normalize input := by
  simp only [Go.normalizeLicenseKey, normalize, List.map_eq_flatMap]
  rfl

theorem ts_normalize (input : String) : Ts.normalizeLicenseKey input = ts.normalize input :=
  rfl

end Folding

-- Both ports accept a text if it is a case variant of a key in white space, all of it in ASCII.
structure ReadsAsAscii (input : String) : Prop where
  go    : Go.normalizeLicenseKey input = Folding.ascii.normalize input
  ts    : Ts.normalizeLicenseKey input = Folding.ascii.normalize input
  alike : Go.normalizeLicenseKey input = Ts.normalizeLicenseKey input

structure Generates (buf : Vector UInt8 20) : Prop where
  alike : Go.generateLicenseKey buf = Ts.generateLicenseKey buf
  go    : Go.normalizeLicenseKey (Go.generateLicenseKey buf) = some (Go.generateLicenseKey buf)
  ts    : Ts.normalizeLicenseKey (Ts.generateLicenseKey buf) = some (Ts.generateLicenseKey buf)
  inj   : ∀ buf', Go.generateLicenseKey buf = Go.generateLicenseKey buf' → buf = buf'

theorem readsAsAscii_iff (input : String) : ReadsAsAscii input ↔
    (∀ c ∈ input.toList, c.toNat < 0x80) ∨
      ¬(∃ key, Folding.go.Spells input key) ∧ ¬∃ key, Folding.ts.Spells input key := by
  have hg : Folding.go.normalize input = Folding.ascii.normalize input ↔ _ := Folding.normalize_eq_ascii_iff .go
  have ht : Folding.ts.normalize input = Folding.ascii.normalize input ↔ _ := Folding.normalize_eq_ascii_iff .ts
  rw [← Folding.go_normalize] at hg
  rw [← Folding.ts_normalize] at ht
  constructor
  case mp =>
    intro ⟨go, ts, _⟩
    rcases hg.mp go with ha | hg
    case inl => exact .inl ha
    case inr =>
      rcases ht.mp ts with ha | ht
      case inl => exact .inl ha
      case inr => exact .inr ⟨hg, ht⟩
  case mpr =>
    intro h
    have go := hg.mpr (h.imp id And.left)
    have ts := ht.mpr (h.imp id And.right)
    exact ⟨go, ts, go.trans ts.symm⟩

theorem generates (buf : Vector UInt8 20) : Generates buf := by
  have hk := Base32.isLicenseKey_keyOf buf
  constructor
  case alike => rw [Base32.go_generateLicenseKey, Base32.ts_generateLicenseKey]
  case go => rw [Folding.go_normalize, Base32.go_generateLicenseKey, Folding.normalize_key _ hk]
  case ts => rw [Folding.ts_normalize, Base32.ts_generateLicenseKey, Folding.normalize_key _ hk]
  case inj =>
    intro buf' h
    rw [Base32.go_generateLicenseKey, Base32.go_generateLicenseKey] at h
    exact Base32.keyOf_injective h

-- Keys are read as ASCII does it unless a text that is not of ASCII spells one.
theorem normalizeLicenseKey_spec (input key : String) (buf : Vector UInt8 20) :
    (ReadsAsAscii input ↔ (∀ c ∈ input.toList, c.toNat < 0x80) ∨
      ¬(∃ key, Folding.go.Spells input key) ∧ ¬∃ key, Folding.ts.Spells input key) ∧
    (Go.normalizeLicenseKey input = some key → Go.normalizeLicenseKey key = some key) ∧
    (Ts.normalizeLicenseKey input = some key → Ts.normalizeLicenseKey key = some key) ∧
    Generates buf := by
  refine ⟨readsAsAscii_iff input, ?_, ?_, generates buf⟩
  · intro h
    rw [Folding.go_normalize] at h ⊢
    exact Folding.normalize_idempotent _ h
  · intro h
    rw [Folding.ts_normalize] at h ⊢
    exact Folding.normalize_idempotent _ h

theorem not_readsAsAscii : ¬ReadsAsAscii "LIC-00ß-0000-0000-0000-0000" := by
  intro ⟨_, _, alike⟩
  have hts : Ts.normalizeLicenseKey "LIC-00ß-0000-0000-0000-0000" = some "LIC-00SS-0000-0000-0000-0000" := by
    decide
  have hgo : Go.normalizeLicenseKey "LIC-00ß-0000-0000-0000-0000" = none := by decide
  rw [hts, hgo] at alike
  cases alike

end Licensing
