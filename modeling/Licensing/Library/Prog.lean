import Mathlib.Logic.Basic

-- Programs that interact with an environment: a program either has a result or asks for the answer
-- of an operation and continues with it. What the operations do is decided by whoever runs it.

universe u v w x y z

inductive Prog (Op : Type u) (Ans : Op → Type v) (ε : Type w) (α : Type x)
  | pure (a : α)
  | throw (e : ε)
  | call (o : Op) (next : Ans o → Prog Op Ans ε α)

namespace Prog

section Monad

variable {Op : Type u} {Ans : Op → Type v} {ε ε' : Type w} {α β γ : Type x}

def bind : Prog Op Ans ε α → (α → Prog Op Ans ε β) → Prog Op Ans ε β
  | pure a,      f => f a
  | throw e,     _ => throw e
  | call o next, f => call o fun a => (next a).bind f

-- Continues with the outcome of a program, be it a value or an error.
def handle : Prog Op Ans ε α → (Except ε α → Prog Op Ans ε' β) → Prog Op Ans ε' β
  | pure a,      f => f (.ok a)
  | throw e,     f => f (.error e)
  | call o next, f => call o fun a => (next a).handle f

theorem bind_pure : (p : Prog Op Ans ε α) → p.bind pure = p
  | pure _ | throw _ => rfl
  | call o next => congrArg (call o) <| funext fun a => (next a).bind_pure

theorem bind_assoc (f : α → Prog Op Ans ε β) (g : β → Prog Op Ans ε γ) :
    (p : Prog Op Ans ε α) → (p.bind f).bind g = p.bind fun a => (f a).bind g
  | pure _ | throw _ => rfl
  | call o next => congrArg (call o) <| funext fun a => (next a).bind_assoc f g

instance : Monad (Prog Op Ans ε) where
  pure := pure
  bind := bind

instance : LawfulMonad (Prog Op Ans ε) :=
  LawfulMonad.mk' _ bind_pure (fun _ _ => rfl) (fun p f g => bind_assoc f g p)

@[simp]
theorem pure_eq (a : α) : (Pure.pure a : Prog Op Ans ε α) = pure a := rfl

@[simp]
theorem pure_bind (a : α) (f : α → Prog Op Ans ε β) : (pure a >>= f) = f a := rfl

@[simp]
theorem throw_bind (e : ε) (f : α → Prog Op Ans ε β) : (throw e >>= f) = throw e := rfl

@[simp]
theorem call_bind (o : Op) (next : Ans o → Prog Op Ans ε α) (f : α → Prog Op Ans ε β) :
    (call o next >>= f) = call o fun a => next a >>= f := rfl

-- A program that only computes.
def ofExcept : Except ε α → Prog Op Ans ε α
  | .ok a    => pure a
  | .error e => throw e

@[simp]
theorem ofExcept_ok (a : α) : (ofExcept (.ok a) : Prog Op Ans ε α) = pure a := rfl

@[simp]
theorem ofExcept_error (e : ε) : (ofExcept (.error e) : Prog Op Ans ε α) = throw e := rfl

end Monad

section Translate

variable {Op Op' : Type u} {ε : Type w} {α β : Type x} {Ans : Op → Type x} {Ans' : Op' → Type v}

-- Replaces every operation by the program that implements it.
def translate (impl : (o : Op) → Prog Op' Ans' ε (Ans o)) : Prog Op Ans ε α → Prog Op' Ans' ε α
  | pure a      => pure a
  | throw e     => throw e
  | call o next => (impl o).bind fun a => (next a).translate impl

variable {impl : (o : Op) → Prog Op' Ans' ε (Ans o)}

@[simp]
theorem translate_pure (a : α) : (pure a : Prog Op Ans ε α).translate impl = pure a := rfl

@[simp]
theorem translate_throw (e : ε) : (throw e : Prog Op Ans ε α).translate impl = throw e := rfl

@[simp]
theorem translate_call (o : Op) (next : Ans o → Prog Op Ans ε α) :
    (call o next).translate impl = (impl o >>= fun a => (next a).translate impl) := rfl

@[simp]
theorem translate_bind (f : α → Prog Op Ans ε β) : (p : Prog Op Ans ε α) →
    (p >>= f).translate impl = p.translate impl >>= fun a => (f a).translate impl
  | pure _ | throw _ => rfl
  | call o next => by
    have h := fun a => translate_bind f (next a)
    simp [h]

theorem translate_translate {Op'' : Type u} {Ans' : Op' → Type x} {Ans'' : Op'' → Type v}
    (impl : (o : Op) → Prog Op' Ans' ε (Ans o)) (impl' : (o : Op') → Prog Op'' Ans'' ε (Ans' o)) :
    (p : Prog Op Ans ε α) →
      (p.translate impl).translate impl' = p.translate fun o => (impl o).translate impl'
  | pure _ | throw _ => rfl
  | call o next => by
    have h := fun a => translate_translate impl impl' (next a)
    simp [h]

end Translate

section Run

variable {Op : Type u} {Ans : Op → Type v} {ε : Type w} {α β : Type x}

-- The outcome in an environment that has one answer for every operation.
def run (answer : (o : Op) → Ans o) : Prog Op Ans ε α → Except ε α
  | pure a      => .ok a
  | throw e     => .error e
  | call o next => (next (answer o)).run answer

variable {answer : (o : Op) → Ans o}

@[simp]
theorem run_pure (a : α) : (pure a : Prog Op Ans ε α).run answer = .ok a := rfl

@[simp]
theorem run_throw (e : ε) : (throw e : Prog Op Ans ε α).run answer = .error e := rfl

@[simp]
theorem run_call (o : Op) (next : Ans o → Prog Op Ans ε α) :
    (call o next).run answer = (next (answer o)).run answer := rfl

theorem run_bind (f : α → Prog Op Ans ε β) : (p : Prog Op Ans ε α) →
    (p >>= f).run answer = p.run answer >>= fun a => (f a).run answer
  | pure _ | throw _ => rfl
  | call o next => run_bind f (next (answer o))

theorem run_bind_eq_ok_iff {f : α → Prog Op Ans ε β} {p : Prog Op Ans ε α} {b : β} :
    (p >>= f).run answer = .ok b ↔ ∃ a, p.run answer = .ok a ∧ (f a).run answer = .ok b := by
  rw [run_bind]
  cases p.run answer <;> simp [Bind.bind, Except.bind]

@[simp]
theorem run_ofExcept (x : Except ε α) : (ofExcept x : Prog Op Ans ε α).run answer = x := by
  cases x <;> rfl

theorem run_translate {Op' : Type u} {Ans : Op → Type x} {Ans' : Op' → Type v}
    {answer : (o : Op) → Ans o} {answer' : (o : Op') → Ans' o}
    {impl : (o : Op) → Prog Op' Ans' ε (Ans o)} (h : ∀ o, (impl o).run answer' = .ok (answer o)) :
    (p : Prog Op Ans ε α) → (p.translate impl).run answer' = p.run answer
  | pure _ | throw _ => rfl
  | call o next => by
    rw [translate_call, run_bind, h]
    exact run_translate h (next (answer o))

end Run

-- One answered call, together with the state in which it was answered.
structure Event (Op : Type u) (Ans : Op → Type v) (σ : Type y) where
  op    : Op
  state : σ
  ans   : Ans op

section Obeys

variable {Op : Type u} {Ans : Op → Type v} {σ : Type y} {ε ε' : Type w} {α β : Type x}

-- The calls a program makes are permitted (`may`) by the calls answered before, most recent first,
-- and its outcome satisfies `post`, whatever answers the environment gives.
def Obeys (answers : σ → (o : Op) → Ans o → Prop) (may : List (Event Op Ans σ) → Op → Prop)
    (post : List (Event Op Ans σ) → Except ε α → Prop) :
    Prog Op Ans ε α → List (Event Op Ans σ) → Prop
  | pure a,      h => post h (.ok a)
  | throw e,     h => post h (.error e)
  | call o next, h =>
    may h o ∧ ∀ s a, answers s o a → (next a).Obeys answers may post (⟨o, s, a⟩ :: h)

namespace Obeys

variable {answers : σ → (o : Op) → Ans o → Prop} {may : List (Event Op Ans σ) → Op → Prop}
variable {post : List (Event Op Ans σ) → Except ε α → Prop}

@[simp]
theorem pure_iff : (pure a : Prog Op Ans ε α).Obeys answers may post h ↔ post h (.ok a) := .rfl

@[simp]
theorem throw_iff : (throw e : Prog Op Ans ε α).Obeys answers may post h ↔ post h (.error e) := .rfl

@[simp]
theorem call_iff {next : Ans o → Prog Op Ans ε α} :
    (call o next).Obeys answers may post h ↔
      may h o ∧ ∀ s a, answers s o a → (next a).Obeys answers may post (⟨o, s, a⟩ :: h) := .rfl

theorem bind {f : β → Prog Op Ans ε α} : {p : Prog Op Ans ε β} →
    p.Obeys answers may (fun h r => match r with
      | .ok b    => (f b).Obeys answers may post h
      | .error e => post h (.error e)) h →
    (p >>= f).Obeys answers may post h
  | .pure _,   o => o
  | .throw _,  o => o
  | .call _ _, o => ⟨o.left, fun s a ha => bind (o.right s a ha)⟩

theorem handle {f : Except ε' β → Prog Op Ans ε α} : {p : Prog Op Ans ε' β} →
    p.Obeys answers may (fun h r => (f r).Obeys answers may post h) h →
    (p.handle f).Obeys answers may post h
  | .pure _,   o => o
  | .throw _,  o => o
  | .call _ _, o => ⟨o.left, fun s a ha => handle (o.right s a ha)⟩

theorem imp {answers' : σ → (o : Op) → Ans o → Prop} {may' : List (Event Op Ans σ) → Op → Prop}
    {post' : List (Event Op Ans σ) → Except ε α → Prop}
    (ha : ∀ s o a, answers' s o a → answers s o a) (hm : ∀ h o, may h o → may' h o)
    (hp : ∀ h r, post h r → post' h r) : {p : Prog Op Ans ε α} → {h : List (Event Op Ans σ)} →
    p.Obeys answers may post h → p.Obeys answers' may' post' h
  | .pure _,   _, o => hp _ _ o
  | .throw _,  _, o => hp _ _ o
  | .call _ _, _, o => ⟨hm _ _ o.left, fun s a h => imp ha hm hp (o.right s a (ha s _ a h))⟩

theorem mono {post' : List (Event Op Ans σ) → Except ε α → Prop} {p : Prog Op Ans ε α}
    (hp : ∀ h r, post h r → post' h r) (o : p.Obeys answers may post h) :
    p.Obeys answers may post' h :=
  o.imp (fun _ _ _ => id) (fun _ _ => id) hp

-- What holds whatever the answers are holds of the answers of one environment.
theorem run {answer : (o : Op) → Ans o} (ha : ∀ o, ∃ s, answers s o (answer o)) :
    {p : Prog Op Ans ε α} → {h : List (Event Op Ans σ)} → p.Obeys answers may post h →
    ∃ h', post h' (p.run answer)
  | .pure _,      h, o => ⟨h, o⟩
  | .throw _,     h, o => ⟨h, o⟩
  | .call op _,   _, o =>
    have ⟨s, hs⟩ := ha op
    (run ha (o.right s _ hs) :)

-- If the implementation of every operation keeps a relation between what has been called above and
-- below, then contracts above carry over to the program that is run below.
theorem translate {Op' : Type u} {Ans : Op → Type x} {Ans' : Op' → Type v} {σ' : Type z}
    {answers : σ → (o : Op) → Ans o → Prop} {may : List (Event Op Ans σ) → Op → Prop}
    {post : List (Event Op Ans σ) → Except ε α → Prop}
    {answers' : σ' → (o : Op') → Ans' o → Prop} {may' : List (Event Op' Ans' σ') → Op' → Prop}
    {post' : List (Event Op' Ans' σ') → Except ε α → Prop}
    {impl : (o : Op) → Prog Op' Ans' ε (Ans o)}
    {R : List (Event Op Ans σ) → List (Event Op' Ans' σ') → Prop}
    (obeys : ∀ h h' o, R h h' → may h o → (impl o).Obeys answers' may' (fun h'' r =>
      ∃ s a, r = .ok a ∧ answers s o a ∧ R (⟨o, s, a⟩ :: h) h'') h')
    (done : ∀ h h' r, R h h' → post h r → post' h' r) : {p : Prog Op Ans ε α} →
    {h : List (Event Op Ans σ)} → {h' : List (Event Op' Ans' σ')} → R h h' →
    p.Obeys answers may post h → (p.translate impl).Obeys answers' may' post' h'
  | .pure _,   _, _, hr, o => done _ _ _ hr o
  | .throw _,  _, _, hr, o => done _ _ _ hr o
  | .call _ _, _, _, hr, o =>
    bind <| mono (fun _ _ ⟨s, a, he, ha, hr'⟩ => by
      subst he
      exact translate obeys done hr' (o.right s a ha)) (obeys _ _ _ hr o.left)

end Obeys

end Obeys

section Calls

variable {Op : Type u} {Ans : Op → Type v} {σ : Type y} {ε : Type w} {α β : Type x}

-- Every call that a program may make is of a certain kind.
def Calls (kind : Op → Prop) : Prog Op Ans ε α → Prop
  | pure _      => True
  | throw _     => True
  | call o next => kind o ∧ ∀ a, (next a).Calls kind

namespace Calls

variable {kind : Op → Prop}

theorem bind {f : α → Prog Op Ans ε β} (hf : ∀ a, (f a).Calls kind) :
    {p : Prog Op Ans ε α} → p.Calls kind → (p >>= f).Calls kind
  | .pure a,   _ => hf a
  | .throw _,  _ => trivial
  | .call _ _, c => ⟨c.left, fun a => bind hf (c.right a)⟩

theorem ite {c : Prop} [Decidable c] {p q : Prog Op Ans ε α} (hp : p.Calls kind) (hq : q.Calls kind) :
    (if c then p else q).Calls kind := by
  split <;> assumption

theorem handle {ε' : Type w} {f : Except ε α → Prog Op Ans ε' β} (hf : ∀ r, (f r).Calls kind) :
    {p : Prog Op Ans ε α} → p.Calls kind → (p.handle f).Calls kind
  | .pure _,   _ => hf _
  | .throw _,  _ => hf _
  | .call _ _, c => ⟨c.left, fun a => handle hf (c.right a)⟩

theorem mono {kind' : Op → Prop} (h : ∀ o, kind o → kind' o) :
    {p : Prog Op Ans ε α} → p.Calls kind → p.Calls kind'
  | .pure _,   _ => trivial
  | .throw _,  _ => trivial
  | .call o _, c => ⟨h o c.left, fun a => (c.right a).mono h⟩

-- Environments that answer these calls alike lead to the same outcome.
theorem run_congr {answer answer' : (o : Op) → Ans o} (h : ∀ o, kind o → answer o = answer' o) :
    {p : Prog Op Ans ε α} → p.Calls kind → p.run answer = p.run answer'
  | .pure _,   _ => rfl
  | .throw _,  _ => rfl
  | .call o _, c => by
    rw [run_call, run_call, h o c.left]
    exact run_congr h (c.right _)

-- The history only grows, by calls of the kind.
theorem obeys {answers : σ → (o : Op) → Ans o → Prop} : {p : Prog Op Ans ε α} → p.Calls kind →
    (h : List (Event Op Ans σ)) → p.Obeys answers (fun _ => kind)
      (fun h' _ => ∃ es, h' = es ++ h ∧ ∀ e ∈ es, kind e.op) h
  | .pure _,   _, _ => ⟨[], rfl, fun _ h => nomatch h⟩
  | .throw _,  _, _ => ⟨[], rfl, fun _ h => nomatch h⟩
  | .call o _, c, h => by
    refine ⟨c.left, fun s a _ => ((c.right a).obeys _).mono fun h' _ ⟨es, he, hk⟩ => ?_⟩
    refine ⟨es ++ [⟨o, s, a⟩], by simp [he], fun e hm => ?_⟩
    cases List.mem_append.mp hm
    case inl hm => exact hk e hm
    case inr hm => exact List.mem_singleton.mp hm ▸ c.left

end Calls

end Calls

end Prog
