import Licensing.Library.Machine
import Mathlib.Order.Basic

-- Windows of time: an attempt opens one at some instant, later attempts are granted as long as it is not over, and
-- are refused from then on.

namespace Windows

open Machine

inductive Answer (ν : Type)
  | granted (start : ν)
  | refused
  | failed
  | other

-- A machine whose states hold the start of a window. An input that is an attempt has an instant.
structure Keeper (σ ι ν : Type) where
  step    : σ → ι → σ
  start   : σ → Option ν
  answer  : σ → ι → Answer ν
  attempt : ι → Option ν

variable {σ ι ν : Type} (k : Keeper σ ι ν) (elapsed : ν → ν → Prop)

-- What a step may do to the window.
structure Lawful : Prop where
  granted : ∀ s i g, k.answer s i = .granted g → ∃ t, k.attempt i = some t ∧ k.start (k.step s i) = some g ∧
    (k.start s = none ∧ g = t ∨ k.start s = some g ∧ ¬elapsed g t)
  refused : ∀ s i, k.answer s i = .refused → ∃ t g, k.attempt i = some t ∧ k.start s = some g ∧ elapsed g t
  barred  : ∀ s i j g t, k.answer s i = .refused → k.start s = some g → k.attempt j = some t → elapsed g t →
    k.step s j = s ∧ (k.answer s j = .refused ∨ k.answer s j = .failed)
  opened  : ∀ s i g, k.start (k.step s i) = some g → k.start s = some g ∨ k.start s = none ∧ k.attempt i = some g

variable {k elapsed} {s : σ} {is : List ι} {g : ν}

-- A window has been opened by an attempt of the run, if it was not open before, and has been kept since then.
theorem Lawful.opened_at (law : Lawful k elapsed) (closed : k.start s = none) {n : Nat} (hn : n ≤ is.length)
    (h : k.start (after k.step s is n) = some g) :
    ∃ m, ∃ hm : m < is.length, m < n ∧ k.attempt is[m] = some g ∧ k.start (after k.step s is m) = none ∧
      ∀ j, m < j → j ≤ n → k.start (after k.step s is j) = some g := by
  induction n
  case zero => simp [closed] at h
  case succ n ih =>
    rw [after_succ hn] at h
    cases law.opened _ _ _ h
    case inl before =>
      obtain ⟨m, hm, lt, attempt, none, kept⟩ := ih (Nat.le_of_succ_le hn) before
      refine ⟨m, hm, Nat.lt_succ_of_lt lt, attempt, none, fun j hj hjn => ?_⟩
      cases Nat.lt_or_eq_of_le hjn
      case inl lt => exact kept j hj (Nat.le_of_lt_succ lt)
      case inr eq => rw [eq, after_succ hn, h]
    case inr here =>
      refine ⟨n, hn, Nat.lt_succ_self n, here.right, here.left, fun j hj hjn => ?_⟩
      have eq : j = n + 1 := Nat.le_antisymm hjn hj
      rw [eq, after_succ hn, h]

-- What is granted is granted from the instant of an attempt on, and in the window only.
theorem Lawful.granted_within (law : Lawful k elapsed) (closed : k.start s = none) {n : Nat} (hn : n < is.length)
    (h : k.answer (after k.step s is n) is[n] = .granted g) :
    ∃ m, ∃ hm : m < is.length, m ≤ n ∧ k.attempt is[m] = some g ∧ k.start (after k.step s is m) = none ∧
      (∀ j, m < j → j ≤ n + 1 → k.start (after k.step s is j) = some g) ∧
      (m < n → ∃ t, k.attempt is[n] = some t ∧ ¬elapsed g t) := by
  obtain ⟨t, attempt, next, window⟩ := law.granted _ _ _ h
  have advanced : after k.step s is (n + 1) = k.step (after k.step s is n) is[n] := after_succ hn
  rw [← advanced] at next
  cases window
  case inl opens =>
    refine ⟨n, hn, Nat.le_refl n, opens.right ▸ attempt, opens.left, ?_, fun lt => absurd lt (Nat.lt_irrefl n)⟩
    intro j hj hjn
    have eq : j = n + 1 := Nat.le_antisymm hjn hj
    rw [eq, next]
  case inr used =>
    obtain ⟨m, hm, lt, opened, none, kept⟩ := law.opened_at closed (Nat.le_of_lt hn) used.left
    refine ⟨m, hm, Nat.le_of_lt lt, opened, none, ?_, fun _ => ⟨t, attempt, used.right⟩⟩
    intro j hj hjn
    cases Nat.lt_or_eq_of_le hjn
    case inl lt => exact kept j hj (Nat.le_of_lt_succ lt)
    case inr eq => rw [eq, next]

-- Who has been refused stays refused, until something else than an attempt changes the state.
theorem Lawful.refused_since (law : Lawful k elapsed) {le : ν → ν → Prop}
    (mono : ∀ g t t', elapsed g t → le t t' → elapsed g t') {m n : Nat} (hmn : m ≤ n) (hn : n < is.length)
    (later : ∀ j, m ≤ j → (hj : j ≤ n) → ∀ t ∈ k.attempt is[m], ∀ t' ∈ k.attempt is[j], le t t')
    (h : k.answer (after k.step s is m) is[m] = .refused)
    (quiet : ∀ j, m ≤ j → (hj : j < n) →
      (k.attempt is[j]).isSome ∨ k.step (after k.step s is j) is[j] = after k.step s is j) :
    after k.step s is n = after k.step s is m ∧ ((k.attempt is[n]).isSome →
      k.answer (after k.step s is n) is[n] = .refused ∨ k.answer (after k.step s is n) is[n] = .failed) := by
  obtain ⟨t, g, attempt, start, elapsed⟩ := law.refused _ _ h
  have barred {j : Nat} (hj : m ≤ j) (hjn : j ≤ n) (some : (k.attempt is[j]).isSome) :
      k.step (after k.step s is m) is[j] = after k.step s is m ∧
        (k.answer (after k.step s is m) is[j] = .refused ∨ k.answer (after k.step s is m) is[j] = .failed) := by
    obtain ⟨t', attempt'⟩ := Option.isSome_iff_exists.mp some
    exact law.barred _ _ _ g t' h start attempt' (mono _ _ _ elapsed (later j hj hjn t attempt t' attempt'))
  have same : after k.step s is n = after k.step s is m := by
    refine after_keeps (p := fun t => t = after k.step s is m) hmn (Nat.le_of_lt hn) rfl fun j hj hjn same => ?_
    rw [after_succ (Nat.lt_trans hjn hn)]
    cases quiet j hj hjn
    case inl attempt => rw [same, (barred hj (Nat.le_of_lt hjn) attempt).left]
    case inr idle    => exact idle.trans same
  rw [same]
  exact ⟨rfl, fun attempt => (barred hmn (Nat.le_refl n) attempt).right⟩

-- What the runs of a keeper have in common, `le` being the order of the instants. What is granted is granted since
-- an attempt that opened the window, in the window only. What has been refused stays refused, until something else
-- than an attempt changes the state.
structure Bounded (k : Keeper σ ι ν) (elapsed le : ν → ν → Prop) : Prop where
  granted : ∀ s is n g, k.start s = none → (hn : n < is.length) →
    k.answer (after k.step s is n) is[n] = .granted g →
    ∃ m, ∃ hm : m < is.length, m ≤ n ∧ k.attempt is[m] = some g ∧ k.start (after k.step s is m) = none ∧
      (∀ j, m < j → j ≤ n + 1 → k.start (after k.step s is j) = some g) ∧
      (m < n → ∃ t, k.attempt is[n] = some t ∧ ¬elapsed g t)
  refused : ∀ s is m n, (hmn : m ≤ n) → (hn : n < is.length) →
    (∀ j, m ≤ j → (hj : j ≤ n) → ∀ t ∈ k.attempt is[m], ∀ t' ∈ k.attempt is[j], le t t') →
    k.answer (after k.step s is m) is[m] = .refused →
    (∀ j, m ≤ j → (hj : j < n) →
      (k.attempt is[j]).isSome ∨ k.step (after k.step s is j) is[j] = after k.step s is j) →
    after k.step s is n = after k.step s is m ∧ ((k.attempt is[n]).isSome →
      k.answer (after k.step s is n) is[n] = .refused ∨ k.answer (after k.step s is n) is[n] = .failed)

theorem Lawful.bounded (law : Lawful k elapsed) {le : ν → ν → Prop}
    (mono : ∀ g t t', elapsed g t → le t t' → elapsed g t') : Bounded k elapsed le where
  granted _ _ _ _ closed hn h                 := law.granted_within closed hn h
  refused _ _ _ _ hmn hn later refused quiet  := law.refused_since mono hmn hn later refused quiet

-- Once a window is open, what is granted is granted since it was opened, and while it is not over.
theorem Bounded.granted_next {le : ν → ν → Prop} (bounded : Bounded k elapsed le) {i j : ι} {g' : ν}
    (closed : k.start s = none) (opened : k.answer s i = .granted g) (h : k.answer (k.step s i) j = .granted g') :
    g' = g ∧ ∃ t, k.attempt j = some t ∧ ¬elapsed g t := by
  obtain ⟨m, _, hm, _, _, kept, _⟩ := bounded.granted s [i] 0 g closed Nat.zero_lt_one opened
  have start : k.start (k.step s i) = some g := kept 1 (Nat.lt_succ_of_le hm) (Nat.le_refl 1)
  obtain ⟨n, _, hn, _, before, kept', window⟩ := bounded.granted s [i, j] 1 g' closed (Nat.lt_succ_self 1) h
  cases Nat.le_one_iff_eq_zero_or_eq_one.mp hn <;> subst n
  case inl =>
    have start' : k.start (k.step s i) = some g' := kept' 1 Nat.zero_lt_one (Nat.le_succ 1)
    cases start.symm.trans start'
    exact ⟨rfl, window Nat.zero_lt_one⟩
  case inr => exact absurd (start.symm.trans before) (by simp)

theorem Bounded.refused_next {le : ν → ν → Prop} (bounded : Bounded k elapsed le) {i j : ι} {t t' : ν}
    (hi : k.attempt i = some t) (hj : k.attempt j = some t') (same : le t t) (later : le t t')
    (h : k.answer s i = .refused) : k.answer (k.step s i) j = .refused ∨ k.answer (k.step s i) j = .failed := by
  refine (bounded.refused s [i, j] 0 1 (Nat.zero_le 1) (Nat.lt_succ_self 1) ?_ h ?_).right ?_
  case refine_1 =>
    intro m _ hm u hu u' hu'
    cases Option.some.inj (hi.symm.trans hu)
    cases Nat.le_one_iff_eq_zero_or_eq_one.mp hm <;> subst m
    case inl => exact Option.some.inj (hi.symm.trans hu') ▸ same
    case inr => exact Option.some.inj (hj.symm.trans hu') ▸ later
  case refine_2 =>
    intro m _ hm
    cases Nat.lt_one_iff.mp hm
    exact .inl (Option.isSome_of_eq_some hi)
  case refine_3 => exact Option.isSome_of_eq_some hj

-- A window that is opened at `g` by `i`, is kept to by whatever is called next, and is over at `j` and since then.
structure Runs (k : Keeper σ ι ν) (elapsed : ν → ν → Prop) (s : σ) (g : ν) (i j l : ι) : Prop where
  opened  : k.answer s i = .granted g
  next    : ∀ n g', k.answer (k.step s i) n = .granted g' → g' = g ∧ ∃ t, k.attempt n = some t ∧ ¬elapsed g t
  refused : k.answer (k.step s i) j = .refused
  later   : k.answer (k.step (k.step s i) j) l = .refused ∨ k.answer (k.step (k.step s i) j) l = .failed

theorem Bounded.runs {le : ν → ν → Prop} (bounded : Bounded k elapsed le) {i j l : ι} {t t' : ν}
    (closed : k.start s = none) (opened : k.answer s i = .granted g) (refused : k.answer (k.step s i) j = .refused)
    (hj : k.attempt j = some t) (hl : k.attempt l = some t') (same : le t t) (later : le t t') :
    Runs k elapsed s g i j l where
  opened   := opened
  next _ _ := bounded.granted_next closed opened
  refused  := refused
  later    := bounded.refused_next hj hl same later refused

end Windows
