import Licensing.Library.Interleave

-- Programs over a store whose single operations, and whole transactions of them, happen at once.

open Prog

namespace Prog

section Eval

variable {Op : Type} {Ans : Op → Type} {ε σ Ω α : Type} (exec : Ω → (o : Op) → σ → Ans o × σ)

-- Runs a program alone. What the environment decides differs from operation to operation.
def eval : Prog Op Ans ε α → (Nat → Ω) → σ → Except ε α × σ
  | pure a,      _, s => (.ok a, s)
  | throw e,     _, s => (.error e, s)
  | call o next, ω, s =>
    let (a, s) := exec (ω 0) o s
    (next a).eval (fun n => ω (n + 1)) s

-- The states that it passes through, the last one included.
def states : Prog Op Ans ε α → (Nat → Ω) → σ → List σ
  | pure _,      _, s => [s]
  | throw _,     _, s => [s]
  | call o next, ω, s =>
    let (a, s') := exec (ω 0) o s
    s :: (next a).states (fun n => ω (n + 1)) s'

variable {exec}

theorem eval_mem_states : (p : Prog Op Ans ε α) → (ω : Nat → Ω) → (s : σ) →
    (p.eval exec ω s).2 ∈ p.states exec ω s
  | pure _,      _, _ => List.mem_singleton_self _
  | throw _,     _, _ => List.mem_singleton_self _
  | call _ next, _, _ => List.mem_cons_of_mem _ (eval_mem_states (next _) _ _)

-- What every operation keeps holds in every state.
theorem forall_mem_states {I : σ → Prop} (step : ∀ ω o s, I s → I (exec ω o s).2) :
    (p : Prog Op Ans ε α) → (ω : Nat → Ω) → {s : σ} → I s → ∀ s' ∈ p.states exec ω s, I s'
  | pure _,      _, _, h, _, hm => List.mem_singleton.mp hm ▸ h
  | throw _,     _, _, h, _, hm => List.mem_singleton.mp hm ▸ h
  | call _ next, _, _, h, s', hm => by
    cases List.mem_cons.mp hm
    case inl he => exact he ▸ h
    case inr hm => exact forall_mem_states step (next _) _ (step _ _ _ h) s' hm

-- A program runs alike on two kinds of states if every operation does.
theorem eval_simulates {σ' : Type} {exec' : Ω → (o : Op) → σ' → Ans o × σ'} {R : σ → σ' → Prop}
    (step : ∀ ω o s s', R s s' →
      (exec ω o s).1 = (exec' ω o s').1 ∧ R (exec ω o s).2 (exec' ω o s').2) :
    (p : Prog Op Ans ε α) → (ω : Nat → Ω) → {s : σ} → {s' : σ'} → R s s' →
      (p.eval exec ω s).1 = (p.eval exec' ω s').1 ∧ R (p.eval exec ω s).2 (p.eval exec' ω s').2
  | pure _,      _, _, _, h => ⟨rfl, h⟩
  | throw _,     _, _, _, h => ⟨rfl, h⟩
  | call o next, ω, s, s', h => by
    have ⟨ha, hr⟩ := step (ω 0) o s s' h
    have ih := eval_simulates step (next (exec (ω 0) o s).1) (fun n => ω (n + 1)) hr
    simp only [eval]
    rw [← ha]
    exact ih

section Constant

variable {β ε' : Type} (ω : Ω)

-- The environment decides alike at every operation.
theorem eval_bind (f : α → Prog Op Ans ε β) : (p : Prog Op Ans ε α) → (s : σ) →
    (p >>= f).eval exec (fun _ => ω) s =
      match p.eval exec (fun _ => ω) s with
      | (.ok a, s)    => (f a).eval exec (fun _ => ω) s
      | (.error e, s) => (.error e, s)
  | pure _, _ | throw _, _ => rfl
  | call o next, s => eval_bind f (next (exec ω o s).1) (exec ω o s).2

theorem eval_handle (f : Except ε' α → Prog Op Ans ε β) : (p : Prog Op Ans ε' α) → (s : σ) →
    (p.handle f).eval exec (fun _ => ω) s =
      (f (p.eval exec (fun _ => ω) s).1).eval exec (fun _ => ω) (p.eval exec (fun _ => ω) s).2
  | pure _, _ | throw _, _ => rfl
  | call o next, s => eval_handle f (next (exec ω o s).1) (exec ω o s).2

-- Operations that are answered without a change of the state.
theorem eval_translate {Op' : Type} {Ans' : Op' → Type} {impl : (o : Op') → Prog Op Ans ε (Ans' o)}
    {answer : (o : Op') → Ans' o}
    (h : ∀ o s, (impl o).eval exec (fun _ => ω) s = (.ok (answer o), s)) :
    (p : Prog Op' Ans' ε α) → (s : σ) →
      (p.translate impl).eval exec (fun _ => ω) s = (p.run answer, s)
  | pure _, _ | throw _, _ => rfl
  | call o next, s => by
    rw [translate_call, eval_bind, h]
    exact eval_translate h (next (answer o)) s

end Constant

variable {τ : Type} {answers : τ → (o : Op) → Ans o → Prop}
variable {may : List (Event Op Ans τ) → Op → Prop}
variable {post : List (Event Op Ans τ) → Except ε α → Prop}

-- An invariant is kept by a program that runs alone if it is kept by every operation that the program
-- may perform.
theorem Obeys.eval (I : σ → List (Event Op Ans τ) → Prop)
    (step : ∀ {s h ω o}, I s h → may h o →
      ∃ x, answers x o (exec ω o s).1 ∧ I (exec ω o s).2 (⟨o, x, (exec ω o s).1⟩ :: h)) :
    {p : Prog Op Ans ε α} → {h : List (Event Op Ans τ)} → {s : σ} → (ω : Nat → Ω) →
    p.Obeys answers may post h → I s h →
    ∃ h', I (p.eval exec ω s).2 h' ∧ post h' (p.eval exec ω s).1
  | .pure _,   h, _, _, ob, inv => ⟨h, inv, ob⟩
  | .throw _,  h, _, _, ob, inv => ⟨h, inv, ob⟩
  | .call o _, h, s, ω, ob, inv => by
    have ⟨x, ha, inv'⟩ := @step s h (ω 0) o inv ob.left
    exact (eval I step (fun n => ω (n + 1)) (ob.right x _ ha) inv' :)

end Eval

end Prog

namespace Atomic

-- What a request waits for: an operation of its own or a whole transaction.
inductive Await (Op : Type) (Ans : Op → Type) (ε : Type) : Type 1
  | op (o : Op)
  | transaction {β : Type} (body : Prog Op Ans ε β)

@[reducible]
def Await.Ans {Op : Type} {Ans : Op → Type} {ε : Type} : Await Op Ans ε → Type
  | op o                      => Ans o
  | @transaction _ _ _ β _    => Except ε β

structure Env (Ω ε : Type) where
  env         : Nat → Ω
  commitFault : Option ε := none

section Step

variable {Op : Type} {Ans : Op → Type} {ε σ Ω α Tid : Type} (exec : Ω → (o : Op) → σ → Ans o × σ)

-- A transaction that fails leaves the store as it was.
def transact (ω : Env Ω ε) (body : Prog Op Ans ε α) (s : σ) : Except ε α × σ :=
  match body.eval exec ω.env s with
  | (.error e, _) => (.error e, s)
  | (.ok a, s')   =>
    match ω.commitFault with
    | none   => (.ok a, s')
    | some e => (.error e, s)

def step (_ : Tid) (ω : Env Ω ε) : (o : Await Op Ans ε) → σ → Option (o.Ans × σ)
  | .op o,             s => some (exec (ω.env 0) o s)
  | .transaction body, s => some (transact exec ω body s)

variable {exec} {ω : Env Ω ε} {body : Prog Op Ans ε α} {s : σ}

theorem transact_ok {a : α} (h : (transact exec ω body s).1 = .ok a) :
    (body.eval exec ω.env s).1 = .ok a ∧ (transact exec ω body s).2 = (body.eval exec ω.env s).2 := by
  unfold transact at h ⊢
  match he : body.eval exec ω.env s, hc : ω.commitFault with
  | (.error e, _), _      => simp [he] at h
  | (.ok a, _),    some e => simp [he, hc] at h
  | (.ok a, _),    none   => simpa [he, hc] using h

theorem transact_state (exec : Ω → (o : Op) → σ → Ans o × σ) (ω : Env Ω ε) (body : Prog Op Ans ε α)
    (s : σ) : (transact exec ω body s).2 = s ∨
    (∃ a, (transact exec ω body s).1 = .ok a) ∧
      (transact exec ω body s).2 = (body.eval exec ω.env s).2 := by
  match hr : (transact exec ω body s).1 with
  | .ok a    => exact .inr ⟨⟨a, rfl⟩, (transact_ok hr).right⟩
  | .error e =>
    left
    unfold transact at hr ⊢
    match he : body.eval exec ω.env s, hc : ω.commitFault with
    | (.error e, _), _      => rfl
    | (.ok a, _),    some e => simp
    | (.ok a, _),    none   => simp [he, hc] at hr

end Step

end Atomic
