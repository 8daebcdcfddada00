import Mathlib.Logic.Basic

-- Machines that take one step for every input.

namespace Machine

universe u v

variable {σ : Type u} {ι : Type v} (step : σ → ι → σ)

def run : σ → List ι → σ
  | s, []      => s
  | s, i :: is => run (step s i) is

-- A property of the first state and of every state that a run reaches.
def Always (p : σ → Prop) : σ → List ι → Prop
  | s, []      => p s
  | s, i :: is => p s ∧ Always p (step s i) is

-- A condition on every step that a run takes.
def Each (c : σ → ι → Prop) : σ → List ι → Prop
  | _, []      => True
  | s, i :: is => c s i ∧ Each c (step s i) is

-- The state after the first steps of a run.
def after (s : σ) (is : List ι) (n : Nat) : σ :=
  run step s (is.take n)

variable {step} {p q : σ → Prop} {c c' : σ → ι → Prop} {s : σ} {is : List ι}

theorem Each.all (h : ∀ s i, c s i) : Each step c s is := by
  induction is generalizing s
  case nil => trivial
  case cons i is ih => exact ⟨h s i, ih⟩

theorem Always.mono (h : Always step p s is) (hpq : ∀ s, p s → q s) : Always step q s is := by
  induction is generalizing s
  case nil => exact hpq s h
  case cons i is ih => exact ⟨hpq s h.left, ih h.right⟩

theorem Always.and : Always step (fun s => p s ∧ q s) s is ↔ Always step p s is ∧ Always step q s is := by
  induction is generalizing s
  case nil => rfl
  case cons i is ih =>
    simp only [Always, ih]
    exact and_and_and_comm

theorem Always.of_keeps (h : ∀ s i, p s → p (step s i)) (hs : p s) : Always step p s is := by
  induction is generalizing s
  case nil => exact hs
  case cons i is ih => exact ⟨hs, ih (h s i hs)⟩

theorem Always.each (h : Always step p s is) (hc : ∀ s i, p s → c s i) : Each step c s is := by
  induction is generalizing s
  case nil => trivial
  case cons i is ih => exact ⟨hc s i h.left, ih h.right⟩

theorem Always.last (h : Always step p s is) : p (run step s is) := by
  induction is generalizing s
  case nil => exact h
  case cons i is ih => exact ih h.right

-- An invariant that a step keeps if the condition holds is kept by the runs whose steps all meet it.
theorem Each.always (h : ∀ s i, p s → c s i → p (step s i)) (hs : p s) (he : Each step c s is) :
    Always step p s is := by
  induction is generalizing s
  case nil => exact hs
  case cons i is ih => exact ⟨hs, ih (h s i hs he.left) he.right⟩

-- If a step keeps the invariant just when the condition holds, then so does a run.
theorem always_iff_each (h : ∀ s i, p s → (p (step s i) ↔ c s i)) (hs : p s) :
    Always step p s is ↔ Each step c s is := by
  apply Iff.intro
  case mpr => exact Each.always (fun s i hp => (h s i hp).mpr) hs
  case mp =>
    intro ha
    induction is generalizing s
    case nil => trivial
    case cons i is ih =>
      have hn : p (step s i) := by
        cases is
        case nil => exact ha.right
        case cons => exact ha.right.left
      exact ⟨(h s i hs).mp hn, ih hn ha.right⟩

-- A step may need an invariant beside the property, which lasts as long as the property does.
theorem always_iff_each_of_inv (h : ∀ s i, p s → q s → (p (step s i) ↔ c s i))
    (keeps : ∀ s i, p s → q s → p (step s i) → q (step s i)) (hp : p s) (hq : q s) :
    Always step p s is ↔ Each step c s is := by
  induction is generalizing s
  case nil => exact iff_of_true hp trivial
  case cons i is ih =>
    have hs := h s i hp hq
    apply Iff.intro
    case mp =>
      intro ha
      have hn : p (step s i) := by
        cases is
        case nil  => exact ha.right
        case cons => exact ha.right.left
      exact ⟨hs.mp hn, (ih hn (keeps s i hp hq hn)).mp ha.right⟩
    case mpr =>
      intro he
      have hn := hs.mpr he.left
      exact ⟨hp, (ih hn (keeps s i hp hq hn)).mpr he.right⟩

-- Two conditions that agree on a step, as long as an invariant holds, agree on the runs.
theorem each_congr {d : σ → ι → Prop} (agree : ∀ s i, p s → d s i → (c s i ↔ c' s i))
    (keeps : ∀ s i, p s → d s i → c s i → p (step s i)) (hs : p s) (hd : Each step d s is) :
    Each step c s is ↔ Each step c' s is := by
  induction is generalizing s
  case nil => rfl
  case cons i is ih =>
    have ha := agree s i hs hd.left
    apply Iff.intro
    case mp  => exact fun h => ⟨ha.mp h.left, (ih (keeps s i hs hd.left h.left) hd.right).mp h.right⟩
    case mpr =>
      intro h
      have hc := ha.mpr h.left
      exact ⟨hc, (ih (keeps s i hs hd.left hc) hd.right).mpr h.right⟩

@[simp]
theorem after_zero : after step s is 0 = s := rfl

theorem after_succ {n : Nat} (h : n < is.length) :
    after step s is (n + 1) = step (after step s is n) is[n] := by
  induction is generalizing s n
  case nil => simp at h
  case cons i is ih =>
    cases n
    case zero   => rfl
    case succ n => exact ih (Nat.lt_of_succ_lt_succ h)

theorem each_iff : Each step c s is ↔ ∀ n, (h : n < is.length) → c (after step s is n) is[n] := by
  induction is generalizing s
  case nil => simp [Each]
  case cons i is ih =>
    rw [Each, ih]
    apply Iff.intro
    case mp =>
      intro ⟨h₀, h⟩ n hn
      cases n
      case zero   => exact h₀
      case succ n => exact h n (Nat.lt_of_succ_lt_succ hn)
    case mpr => exact fun h => ⟨h 0 (Nat.succ_pos _), fun n hn => h (n + 1) (Nat.succ_lt_succ hn)⟩

-- What one step keeps, as long as the steps do, holds from any state of the run on.
theorem after_keeps {m n : Nat} (hmn : m ≤ n) (hn : n ≤ is.length) (hm : p (after step s is m))
    (h : ∀ k, m ≤ k → (hk : k < n) → p (after step s is k) → p (after step s is (k + 1))) :
    p (after step s is n) := by
  induction hmn
  case refl => exact hm
  case step n hmn ih =>
    apply h n hmn (Nat.lt_succ_self n)
    exact ih (Nat.le_of_succ_le hn) fun k hk hkn => h k hk (Nat.lt_succ_of_lt hkn)

end Machine
