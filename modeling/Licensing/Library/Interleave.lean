import Mathlib.Logic.Relation
import Mathlib.Logic.Function.Basic
import Licensing.Library.Prog

-- Threads that run programs over a shared state. In one step one thread performs the operation its
-- program asks for; an operation without an answer is blocked. What the environment decides (fresh
-- identifiers, the clock, failures) is the parameter `ω` of the operation.

open Prog

universe u v w x y z

structure Threads (Tid : Type z) (σ : Type y) (Op : Type u) (Ans : Op → Type v) (ε : Type w)
    (α : Type x) where
  shared : σ
  prog   : Tid → Prog Op Ans ε α
  seen   : Tid → List (Event Op Ans σ)

namespace Threads

variable {Tid : Type z} {σ : Type y} {Op : Type u} {Ans : Op → Type v} {ε : Type w} {α : Type x}
variable {Ω : Type} [DecidableEq Tid]

def initial (s : σ) (prog : Tid → Prog Op Ans ε α) : Threads Tid σ Op Ans ε α where
  shared := s
  prog   := prog
  seen   := fun _ => []

def answer (c : Threads Tid σ Op Ans ε α) (t : Tid) (o : Op) (p : Prog Op Ans ε α) (a : Ans o)
    (s : σ) : Threads Tid σ Op Ans ε α where
  shared := s
  prog   := Function.update c.prog t p
  seen   := Function.update c.seen t (⟨o, c.shared, a⟩ :: c.seen t)

variable (exec : Tid → Ω → (o : Op) → σ → Option (Ans o × σ))

-- What a thread can be answered in a given state.
def Answers (t : Tid) (s : σ) (o : Op) (a : Ans o) : Prop :=
  ∃ ω s', exec t ω o s = some (a, s')

-- A guard restricts the steps to those that find a certain state.
variable (guard : σ → (Tid → List (Event Op Ans σ)) → Tid → Op → Bool)

def step (t : Tid) (ω : Ω) (c : Threads Tid σ Op Ans ε α) : Option (Threads Tid σ Op Ans ε α) :=
  match c.prog t with
  | .call o next =>
    if guard c.shared c.seen t o then
      (exec t ω o c.shared).map fun (a, s) => c.answer t o (next a) a s
    else none
  | _ => none

def run : List (Tid × Ω) → Threads Tid σ Op Ans ε α → Option (Threads Tid σ Op Ans ε α)
  | [],              c => some c
  | (t, ω) :: sched, c => (c.step exec guard t ω).bind (run sched)

inductive Step (t : Tid) (c : Threads Tid σ Op Ans ε α) : Threads Tid σ Op Ans ε α → Prop
  | intro {ω : Ω} {o : Op} {next : Ans o → Prog Op Ans ε α} {a : Ans o} {s : σ}
      (next_op : c.prog t = .call o next)
      (guarded : guard c.shared c.seen t o)
      (answer  : exec t ω o c.shared = some (a, s)) :
      Step t c (c.answer t o (next a) a s)

abbrev Run : Threads Tid σ Op Ans ε α → Threads Tid σ Op Ans ε α → Prop :=
  Relation.ReflTransGen fun c c' => ∃ t, Step exec guard t c c'

variable {exec guard}

theorem Step.of_step {c c' : Threads Tid σ Op Ans ε α} (h : c.step exec guard t ω = some c') :
    Step exec guard t c c' := by
  unfold step at h
  split at h
  case h_1 o next hp =>
    split at h
    case isTrue hg =>
      have ⟨⟨a, s⟩, he, hc⟩ := Option.map_eq_some_iff.mp h
      exact hc ▸ .intro hp hg he
    case isFalse => contradiction
  case h_2 => contradiction

theorem Run.of_run {c c' : Threads Tid σ Op Ans ε α} :
    {sched : List (Tid × Ω)} → c.run exec guard sched = some c' → Run exec guard c c'
  | [],          h => Option.some.inj h ▸ .refl
  | (_, _) :: _, h => by
    have ⟨_, hs, hr⟩ := Option.bind_eq_some_iff.mp h
    exact .head ⟨_, .of_step hs⟩ (Run.of_run hr)

theorem Run.of_isSome {c : Threads Tid σ Op Ans ε α} {sched : List (Tid × Ω)}
    (h : (c.run exec guard sched).isSome) : Run exec guard c ((c.run exec guard sched).get h) :=
  .of_run (Option.some_get h).symm

-- A property that every step keeps is kept by a run.
theorem Run.keeps {c c' : Threads Tid σ Op Ans ε α} (P : Threads Tid σ Op Ans ε α → Prop)
    (run : Run exec guard c c') (h : P c)
    (step : ∀ {c₁ c₂ t}, Run exec guard c c₁ → Step exec guard t c₁ c₂ → P c₁ → P c₂) : P c' := by
  induction run
  case refl => exact h
  case tail run e ih =>
    have ⟨_, e⟩ := e
    exact step run e ih

section Invariant

variable {may : Tid → List (Event Op Ans σ) → Op → Prop}
variable {post : Tid → List (Event Op Ans σ) → Except ε α → Prop}
variable {c c' : Threads Tid σ Op Ans ε α}

variable (exec may post) in
def Obey (c : Threads Tid σ Op Ans ε α) : Prop :=
  ∀ t, (c.prog t).Obeys (Answers exec t) (may t) (post t) (c.seen t)

theorem Step.obey (e : Step exec guard t c c') (ob : c.Obey exec may post) :
    c'.Obey exec may post := by
  cases e
  case intro ω o next a s hp _ ha =>
    intro t'
    by_cases ht : t' = t
    case pos =>
      have h := ob t
      rw [hp] at h
      simpa [answer, ht] using h.right _ _ ⟨_, _, ha⟩
    case neg => simpa [answer, ht] using ob t'

-- An invariant is kept by a run if it is kept by every operation that a thread may perform.
theorem Run.invariant (I : σ → (Tid → List (Event Op Ans σ)) → Prop) (run : Run exec guard c c')
    (ob : c.Obey exec may post) (inv : I c.shared c.seen)
    (step : ∀ {s seen t ω o a s'}, I s seen → may t (seen t) o → guard s seen t o →
      exec t ω o s = some (a, s') → I s' (Function.update seen t (⟨o, s, a⟩ :: seen t))) :
    I c'.shared c'.seen ∧ c'.Obey exec may post := by
  induction run
  case refl => exact ⟨inv, ob⟩
  case tail run e ih =>
    have ⟨t, e⟩ := e
    refine ⟨?_, e.obey ih.right⟩
    cases e
    case intro hp hg ha =>
      have h := ih.right t
      rw [hp] at h
      exact step ih.left h.left hg ha

end Invariant

end Threads
