import Licensing.Library.Atomic

-- What a program ensures when it runs alone, calculated from its last call to its first.

namespace Prog

section Wp

variable {Op : Type} {Ans : Op → Type} {ε σ Ω α β : Type} (exec : Ω → (o : Op) → σ → Ans o × σ)
variable (may : Ω → σ → Prop)

-- The program ends as `post` says, in every environment whose calls find what they may find.
def Wp (post : Except ε α → σ → Prop) : Prog Op Ans ε α → σ → Prop
  | pure a,      s => post (.ok a) s
  | throw e,     s => post (.error e) s
  | call o next, s => ∀ ω, may ω s → (next (exec ω o s).1).Wp post (exec ω o s).2

-- Every call finds what it may find.
def Finds : Prog Op Ans ε α → (Nat → Ω) → σ → Prop
  | pure _,      _, _ => True
  | throw _,     _, _ => True
  | call o next, ω, s =>
    may (ω 0) s ∧ (next (exec (ω 0) o s).1).Finds (fun n => ω (n + 1)) (exec (ω 0) o s).2

variable {exec may} {post post' : Except ε α → σ → Prop} {s : σ}

theorem Finds.all (h : ∀ ω s, may ω s) : (p : Prog Op Ans ε α) → (ω : Nat → Ω) → (s : σ) →
    p.Finds exec may ω s
  | pure _,      _, _ => trivial
  | throw _,     _, _ => trivial
  | call _ next, _, _ => ⟨h _ _, all h (next _) _ _⟩

theorem Finds.of_forall {P : Ω → Prop} : (p : Prog Op Ans ε α) → (s : σ) → {ω : Nat → Ω} → (∀ n, P (ω n)) →
    p.Finds exec (fun ω _ => P ω) ω s
  | .pure _,   _, _, _ => trivial
  | .throw _,  _, _, _ => trivial
  | .call _ _, _, _, h => ⟨h 0, of_forall _ _ fun n => h (n + 1)⟩

namespace Wp

@[simp]
theorem pure_iff : (pure a : Prog Op Ans ε α).Wp exec may post s ↔ post (.ok a) s := .rfl

@[simp]
theorem throw_iff : (throw e : Prog Op Ans ε α).Wp exec may post s ↔ post (.error e) s := .rfl

@[simp]
theorem call_iff {next : Ans o → Prog Op Ans ε α} : (call o next).Wp exec may post s ↔
    ∀ ω, may ω s → (next (exec ω o s).1).Wp exec may post (exec ω o s).2 := .rfl

theorem mono (hp : ∀ r s, post r s → post' r s) : {p : Prog Op Ans ε α} → {s : σ} →
    p.Wp exec may post s → p.Wp exec may post' s
  | .pure _,   _, h => hp _ _ h
  | .throw _,  _, h => hp _ _ h
  | .call _ _, _, h => fun ω hm => mono hp (h ω hm)

theorem bind {f : β → Prog Op Ans ε α} : {p : Prog Op Ans ε β} → {s : σ} →
    p.Wp exec may (fun r s => match r with
      | .ok b    => (f b).Wp exec may post s
      | .error e => post (.error e) s) s →
    (p >>= f).Wp exec may post s
  | .pure _,   _, h => h
  | .throw _,  _, h => h
  | .call _ _, _, h => fun ω hm => bind (h ω hm)

theorem ite {c : Prop} [Decidable c] {p q : Prog Op Ans ε α} (hp : c → p.Wp exec may post s)
    (hq : ¬c → q.Wp exec may post s) : (if c then p else q).Wp exec may post s := by
  split
  case isTrue h  => exact hp h
  case isFalse h => exact hq h

-- Calls that keep a property of the state keep it together.
theorem keeps {kind : Op → Prop} {I : σ → Prop}
    (step : ∀ ω o s, kind o → may ω s → I s → I (exec ω o s).2) : {p : Prog Op Ans ε α} →
    {s : σ} → p.Calls kind → I s → p.Wp exec may (fun _ s => I s) s
  | .pure _,   _, _, h => h
  | .throw _,  _, _, h => h
  | .call _ _, _, c, h => fun ω hm => keeps step (c.right _) (step ω _ _ c.left hm h)

-- Calls that are answered alike in every environment, without a change of the state.
theorem of_calls {kind : Op → Prop} {answer : (o : Op) → Ans o}
    (h : ∀ ω o, kind o → exec ω o s = (answer o, s)) : {p : Prog Op Ans ε α} → p.Calls kind →
    post (p.run answer) s → p.Wp exec may post s
  | .pure _,   _, hp => hp
  | .throw _,  _, hp => hp
  | .call o _, c, hp => by
    intro ω _
    rw [h ω o c.left]
    exact of_calls h (c.right _) hp

-- The run of the program ends as it ensures.
theorem eval : {p : Prog Op Ans ε α} → {ω : Nat → Ω} → {s : σ} → p.Wp exec may post s →
    p.Finds exec may ω s → post (p.eval exec ω s).1 (p.eval exec ω s).2
  | .pure _,   _, _, h, _ => h
  | .throw _,  _, _, h, _ => h
  | .call _ _, _, _, h, f => (eval (h _ f.left) f.right :)

-- A transaction that commits ends as the program ensures, or nothing has happened.
theorem transact {p : Prog Op Ans ε α} {ω : Nat → Ω} {s : σ} (h : p.Wp exec may post s)
    (hf : p.Finds exec may ω s) :
    (∃ a s', Atomic.transact exec { env := ω } p s = (.ok a, s') ∧ post (.ok a) s') ∨
      ∃ e s', Atomic.transact exec { env := ω } p s = (.error e, s) ∧ post (.error e) s' := by
  have he := h.eval hf
  match hr : p.eval exec ω s with
  | (.ok a, s')    => exact .inl ⟨a, s', by simp [Atomic.transact, hr], by simpa [hr] using he⟩
  | (.error e, s') => exact .inr ⟨e, s', by simp [Atomic.transact, hr], by simpa [hr] using he⟩

end Wp

-- How many calls a run of the program makes.
def callCount (exec : Ω → (o : Op) → σ → Ans o × σ) : Prog Op Ans ε α → (Nat → Ω) → σ → Nat
  | pure _,      _, _ => 0
  | throw _,     _, _ => 0
  | call o next, ω, s =>
    (next (exec (ω 0) o s).1).callCount exec (fun n => ω (n + 1)) (exec (ω 0) o s).2 + 1

-- What comes after a program finds the environment that its calls leave.
theorem eval_bind_from (f : β → Prog Op Ans ε α) : (p : Prog Op Ans ε β) → (ω : Nat → Ω) → (s : σ) →
    (p >>= f).eval exec ω s = match p.eval exec ω s with
      | (.ok b, s')    => (f b).eval exec (fun n => ω (n + p.callCount exec ω s)) s'
      | (.error e, s') => (.error e, s')
  | pure _,      _, _ => rfl
  | throw _,     _, _ => rfl
  | call o next, ω, s => by
    have ih := eval_bind_from f (next (exec (ω 0) o s).1) (fun n => ω (n + 1)) (exec (ω 0) o s).2
    simpa [eval, callCount, Nat.add_assoc, Nat.add_comm 1] using ih

end Wp

end Prog
