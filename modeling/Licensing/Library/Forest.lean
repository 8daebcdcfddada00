import Mathlib.Data.Nat.Find
import Mathlib.Data.Option.Basic
import Mathlib.Logic.Function.Basic

-- Hierarchies in which a node has at most one parent.

namespace Forest

variable {α : Type} (parent : α → Option α)

-- The node that is `n` steps above.
def ancestor : Nat → α → Option α
  | 0,     a => some a
  | n + 1, a => (parent a).bind (ancestor n)

def Acyclic : Prop :=
  ∀ n a, ancestor parent (n + 1) a ≠ some a

-- The nodes on the way up until the forbidden one, if it is among the first `n`.
def walk [DecidableEq α] (forbidden : α) : Nat → α → Option (List α)
  | 0,     _ => none
  | n + 1, a =>
    if a = forbidden then some [a]
    else (parent a).bind fun b => (walk forbidden n b).map (a :: ·)

variable {parent} {parent' : α → Option α} {a b c : α} {m n : Nat}

theorem ancestor_add : ancestor parent (m + n) a = (ancestor parent m a).bind (ancestor parent n) := by
  induction m generalizing a
  case zero => simp [ancestor]
  case succ m ih =>
    rw [Nat.succ_add, ancestor, ancestor]
    cases parent a <;> simp [ih]

theorem ancestor_succ' : ancestor parent (n + 1) a = (ancestor parent n a).bind parent := by
  rw [ancestor_add]
  congr 1
  funext b
  simp [ancestor]

theorem ancestor_mono (h : ∀ a b, parent' a = some b → parent a = some b)
    (ha : ancestor parent' n a = some b) : ancestor parent n a = some b := by
  induction n generalizing a
  case zero => exact ha
  case succ n ih =>
    obtain ⟨c, hc, hb⟩ := Option.bind_eq_some_iff.mp ha
    exact Option.bind_eq_some_iff.mpr ⟨c, h a c hc, ih hb⟩

theorem Acyclic.mono (acyclic : Acyclic parent) (h : ∀ a b, parent' a = some b → parent a = some b) :
    Acyclic parent' :=
  fun n a ha => acyclic n a (ancestor_mono h ha)

theorem acyclic_of_no_parent (h : ∀ a, parent a = none) : Acyclic parent := by
  intro n a ha
  rw [ancestor, h, Option.bind_none] at ha
  contradiction

-- A cycle that the changed node is on starts there as well.
theorem ancestor_of_cycle (h : ancestor parent (n + 1) a = some a) (hb : ancestor parent m a = some b) :
    ancestor parent (n + 1) b = some b := by
  have hm : ancestor parent (n + 1 + m) a = some b := by rw [ancestor_add, h, Option.bind_some, hb]
  rwa [Nat.add_comm, ancestor_add, hb, Option.bind_some] at hm

section Walk

variable [DecidableEq α]

theorem walk_eq_none_iff {forbidden : α} :
    walk parent forbidden n a = none ↔ ∀ k < n, ancestor parent k a ≠ some forbidden := by
  induction n generalizing a
  case zero => simp [walk]
  case succ n ih =>
    rw [walk, Nat.forall_lt_succ_left]
    by_cases ha : a = forbidden
    case pos => simp [ha, ancestor]
    case neg =>
      cases hp : parent a with
      | none   => simp [ha, hp, ancestor]
      | some b => simp [ha, hp, ancestor, ih]

-- The nodes above one that the changed node is not above stay the same.
theorem ancestor_update (h : ∀ k < n, ancestor parent k a ≠ some b) (p : Option α) :
    ancestor (Function.update parent b p) n a = ancestor parent n a := by
  induction n generalizing a
  case zero => rfl
  case succ n ih =>
    have ha : a ≠ b := fun he => h 0 (Nat.succ_pos n) (congrArg some he)
    rw [ancestor, ancestor, Function.update_of_ne ha]
    cases hp : parent a with
    | none   => rfl
    | some c =>
      refine ih fun k hk he => h (k + 1) (Nat.succ_lt_succ hk) ?_
      rw [ancestor, hp, Option.bind_some, he]

theorem Acyclic.remove (h : Acyclic parent) (a : α) : Acyclic (Function.update parent a none) := by
  refine h.mono fun b c hb => ?_
  by_cases hba : b = a
  case pos => simp [hba] at hb
  case neg => rwa [Function.update_of_ne hba] at hb

-- A node can be moved under any node that it is not above.
theorem Acyclic.update (acyclic : Acyclic parent) (h : ∀ k, ancestor parent k b ≠ some a) :
    Acyclic (Function.update parent a (some b)) := by
  intro n c hc
  by_cases hm : ∃ m, ancestor (Function.update parent a (some b)) m c = some a
  case pos =>
    obtain ⟨m, hm⟩ := hm
    have ha := ancestor_of_cycle hc hm
    rw [ancestor, Function.update_self, Option.bind_some, ancestor_update fun k _ => h k] at ha
    exact h n ha
  case neg =>
    refine acyclic n c ?_
    have ho : Function.update (Function.update parent a (some b)) a (parent a) = parent := by simp
    rw [← ho, ancestor_update fun k _ he => hm ⟨k, he⟩, hc]

-- If the node is above its new parent, there is a cycle.
theorem not_acyclic_update (h : ancestor parent n b = some a) :
    ¬Acyclic (Function.update parent a (some b)) := by
  intro acyclic
  -- The first way up from the new parent to the node does not use the new link.
  have hex : ∃ n, ancestor parent n b = some a := ⟨n, h⟩
  refine acyclic (Nat.find hex) a ?_
  rw [ancestor, Function.update_self, Option.bind_some,
    ancestor_update fun k hk => Nat.find_min hex hk, Nat.find_spec hex]

theorem acyclic_update_iff (acyclic : Acyclic parent) :
    Acyclic (Function.update parent a (some b)) ↔ ∀ k, ancestor parent k b ≠ some a :=
  ⟨fun h _ hk => not_acyclic_update hk h, acyclic.update⟩

end Walk

end Forest
