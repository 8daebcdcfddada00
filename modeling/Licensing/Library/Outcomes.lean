import Licensing.Library.Prog

-- The outcomes that a program may have, whatever its calls are answered.

namespace Prog

variable {Op : Type u} {Ans : Op → Type v} {ε : Type w} {α β : Type x}

def MayEnd : Prog Op Ans ε α → Except ε α → Prop
  | pure a,      r => r = .ok a
  | throw e,     r => r = .error e
  | call _ next, r => ∃ a, (next a).MayEnd r

@[simp]
theorem mayEnd_pure {a : α} {r : Except ε α} : (pure a : Prog Op Ans ε α).MayEnd r ↔ r = .ok a := .rfl

@[simp]
theorem mayEnd_throw {e : ε} {r : Except ε α} : (throw e : Prog Op Ans ε α).MayEnd r ↔ r = .error e := .rfl

@[simp]
theorem mayEnd_call {o : Op} {next : Ans o → Prog Op Ans ε α} {r : Except ε α} :
    (call o next).MayEnd r ↔ ∃ a, (next a).MayEnd r := .rfl

@[simp]
theorem mayEnd_ofExcept {x r : Except ε α} : (ofExcept x : Prog Op Ans ε α).MayEnd r ↔ r = x := by
  cases x <;> rfl

theorem mayEnd_bind_ok {f : α → Prog Op Ans ε β} {b : β} : {p : Prog Op Ans ε α} →
    ((p >>= f).MayEnd (.ok b) ↔ ∃ a, p.MayEnd (.ok a) ∧ (f a).MayEnd (.ok b))
  | pure a      => by simp
  | throw e     => by simp
  | call o next => by
    rw [call_bind, mayEnd_call, exists_congr fun a => mayEnd_bind_ok (p := next a), exists_comm]
    simp only [mayEnd_call, exists_and_right]

-- An environment with one answer for every operation is among them.
theorem mayEnd_run (answer : (o : Op) → Ans o) : (p : Prog Op Ans ε α) → p.MayEnd (p.run answer)
  | pure _ | throw _ => rfl
  | call o next      => ⟨answer o, mayEnd_run answer (next (answer o))⟩

section EndsIn

variable {σ : Type y} (serves : σ → (o : Op) → Ans o → σ → Prop)

-- The outcomes together with the states that they are reached in, where a call is answered in a state and
-- leaves the next one.
def EndsIn : Prog Op Ans ε α → σ → Except ε α → σ → Prop
  | pure a,      s, r, s' => r = .ok a ∧ s' = s
  | throw e,     s, r, s' => r = .error e ∧ s' = s
  | call o next, s, r, s' => ∃ a t, serves s o a t ∧ (next a).EndsIn t r s'

variable {serves} {s s' : σ}

theorem endsIn_bind_ok {f : α → Prog Op Ans ε β} {b : β} : {p : Prog Op Ans ε α} → {s : σ} →
    ((p >>= f).EndsIn serves s (.ok b) s' ↔ ∃ a t, p.EndsIn serves s (.ok a) t ∧ (f a).EndsIn serves t (.ok b) s')
  | pure a,      s => by
    apply Iff.intro
    case mp  => exact fun h => ⟨a, s, ⟨rfl, rfl⟩, h⟩
    case mpr =>
      rintro ⟨_, _, ⟨e, rfl⟩, h⟩
      cases e
      exact h
  | throw e,     s => by simp [EndsIn]
  | call o next, s => by
    simp only [call_bind, EndsIn]
    apply Iff.intro
    case mp =>
      intro ⟨a, t, hs, h⟩
      have ⟨c, u, hc, hf⟩ := endsIn_bind_ok.mp h
      exact ⟨c, u, ⟨a, t, hs, hc⟩, hf⟩
    case mpr =>
      intro ⟨c, u, ⟨a, t, hs, hc⟩, hf⟩
      exact ⟨a, t, hs, endsIn_bind_ok.mpr ⟨c, u, hc, hf⟩⟩

-- A program whose calls leave the state as it is.
theorem Calls.endsIn {kind : Op → Prop} (keeps : ∀ s o a t, kind o → serves s o a t → t = s) {r : Except ε α} :
    {p : Prog Op Ans ε α} → {s : σ} → p.Calls kind → p.EndsIn serves s r s' → s' = s
  | .pure _,   _, _, h => h.right
  | .throw _,  _, _, h => h.right
  | .call o _, s, c, h => by
    have ⟨a, t, hs, h⟩ := h
    exact (endsIn keeps (c.right a) h).trans (keeps s o a t c.left hs)

end EndsIn

end Prog
