import Licensing.Memory.Adapter
import Licensing.Model.Handler
import Licensing.Model.Transactions

-- Concurrent admin requests that change the status of a license.

namespace Licensing.Ts

open Prog

def adminActor (subject : Option String) : TransitionOptions where
  actor     := some "admin"
  actorKind := some .admin
  actorId   := subject

def licenseJson (l : License) : Json :=
  .obj [
    ("id", .str l.id),
    ("scope_id", .ofOption l.scopeId),
    ("template_id", .ofOption l.templateId),
    ("licensable_type", .str l.licensableType),
    ("licensable_id", .str l.licensableId),
    ("license_key", .str l.licenseKey),
    ("status", .str l.status.toString),
    ("max_usages", .ofInt l.maxUsages),
    ("is_trial", .bool l.isTrial),
    ("activated_at", .ofOption l.activatedAt),
    ("expires_at", .ofOption l.expiresAt),
    ("grace_until", .ofOption l.graceUntil),
    ("meta", .obj l.meta_),
    ("created_at", .str l.createdAt),
    ("updated_at", .str l.updatedAt)]

-- Only errors of the taxonomy become responses.
def guard {α : Type} (respond : α → Response) : Except Error α → Handler Response
  | .ok a                  => .pure (respond a)
  | .error (.licensing c m) => .pure (errFromLicensing (.licensing c m))
  | .error e               => .throw e

def licenseNotFound (id : String) : Response :=
  .err 404 "LicenseNotFound" ("license not found: " ++ id)

-- The license is read before the transaction that changes it.
def lifecycleTransition (id : String) (transition : License → Tx License) : Handler Response := do
  match ← Handler.perform (.getLicense id) with
  | none         => .pure (licenseNotFound id)
  | some license =>
    let updated ← Handler.transaction (transition license)
    guard (fun l => .ok (licenseJson l)) updated

def renewOptions (subject : Option String) (body : Option Json) : Except Response RenewOptions := do
  let o ← requireJsonObject body
  let expiresAt ← requireString o "expires_at"
  let graceUntil ← optionalString o "grace_until"
  return { adminActor subject with
    expiresAt  := some expiresAt
    graceUntil := graceUntil.map some }

theorem renewOptions_rejects (subject : Option String) (body : Option Json) :
    Rejects (renewOptions subject body) :=
  .bind (requireJsonObject_rejects body) fun _ => .bind (requireString_rejects _ _) fun _ =>
    .bind (optionalString_rejects _ _) fun _ => .ok _

def handleRenewLicense (id : String) (subject : Option String) (body : Option Json) :
    Handler Response :=
  match renewOptions subject body with
  | .error response => .pure response
  | .ok opts        => lifecycleTransition id (renew · opts)

inductive LifecycleRequest
  | suspend (id : String) (subject : Option String)
  | resume (id : String) (subject : Option String)
  | revoke (id : String) (subject : Option String)
  | renew (id : String) (subject : Option String) (body : Option Json)

namespace LifecycleRequest

def id : LifecycleRequest → String
  | suspend id _ | resume id _ | revoke id _ | renew id _ _ => id

def transition : LifecycleRequest → Transition
  | suspend _ _ => .suspend
  | resume _ _  => .resume
  | revoke _ _  => .revoke
  | renew _ _ _ => .renew

def handle : LifecycleRequest → Handler Response
  | suspend id subject    => lifecycleTransition id (Licensing.suspend · (adminActor subject))
  | resume id subject     => lifecycleTransition id (Licensing.resume · (adminActor subject))
  | revoke id subject     => lifecycleTransition id (Licensing.revoke · (adminActor subject))
  | renew id subject body => handleRenewLicense id subject body

end LifecycleRequest

section Requests

variable {σ Ω : Type} (S : AtomicStore σ Ω)

abbrev Requests (σ : Type) := Threads Nat σ Await Atomic.Await.Ans Error Response

abbrev Requests.Trace (σ : Type) := List (Event Await Atomic.Await.Ans σ)

def requests (s : σ) (reqs : Nat → LifecycleRequest) : Requests σ :=
  .initial s fun t => (reqs t).handle

def readStatus : Event Await Atomic.Await.Ans σ → Option (String × LicenseStatus)
  | ⟨.op (.tx (.getLicense _)), _, .ok (some l)⟩ => some (l.id, l.status)
  | _                                            => none

-- A transaction finds the status that its request has read before.
def freshSnapshot (s : σ) (seen : Nat → Requests.Trace σ) (t : Nat) : Await → Bool
  | .transaction _ => ((seen t).filterMap readStatus).all fun (id, a) =>
    (S.contents s).status? id = some a
  | .op _ => true

variable {S} {s : σ} {seen : Nat → Requests.Trace σ} {h : Requests.Trace σ} {t : Nat}

theorem freshSnapshot_read {id : String} {l : License} {body : Tx License} {s' : σ}
    (fresh : freshSnapshot S s seen t (.transaction body))
    (hr : ⟨.op (.tx (.getLicense id)), s', .ok (some l)⟩ ∈ seen t) :
    (S.contents s).status? l.id = some l.status := by
  have hm : (l.id, l.status) ∈ (seen t).filterMap readStatus := List.mem_filterMap.mpr ⟨_, hr, rfl⟩
  simpa using List.all_eq_true.mp fresh _ hm

-- What a request waits for: reads, and transitions of a license that it has read.
inductive MayAwait (tr : Transition) (id : String) (h : Requests.Trace σ) : Await → Prop
  | read : MayAwait tr id h (.op (.tx (.getLicense id)))
  | transition {s : σ} {l : License} {body : Tx License} (lid : l.id = id)
      (read : ⟨.op (.tx (.getLicense id)), s, .ok (some l)⟩ ∈ h) (transitions : Transitions tr l body) :
      MayAwait tr id h (.transaction body)

-- Success is only reported after a transaction that succeeded.
def Reported (h : Requests.Trace σ) (r : Except Error Response) : Prop :=
  ∀ response, r = .ok response → response.IsSuccess →
    ∃ s l, ∃ body : Tx License, ⟨.transaction body, s, .ok l⟩ ∈ h

abbrev exec (S : AtomicStore σ Ω) :
    Nat → Atomic.Env Ω Error → (o : Await) → σ → Option (o.Ans × σ) :=
  Atomic.step S.exec

theorem answers_getLicense {id : String} {a : Except Error (Option License)}
    (h : Threads.Answers (exec S) t s (.op (.tx (.getLicense id))) a) :
    ∀ l, a = .ok (some l) → l.id = id := by
  intro l hl
  subst hl
  have ⟨ω, s', he⟩ := h
  have hs := Option.some.inj he
  have hc := S.acts (ω.env 0) (.tx (.getLicense id)) s
  rw [congrArg Prod.fst hs] at hc
  generalize hv : S.contents s = v at hc
  generalize hl : (some l : Option License) = l? at hc
  cases hc
  exact (S.contents s).license_id (hv ▸ hl.symm)

theorem guard_reported {respond : License → Response} {body : Tx License} {r : Except Error License}
    {answers may} (hr : ⟨.transaction body, s, r⟩ ∈ h) :
    (guard respond r).Obeys answers may Reported h := by
  match r with
  | .ok l                   => exact fun _ _ _ => ⟨s, l, body, hr⟩
  | .error (.licensing c m) =>
    intro response he hs
    exact absurd (Except.ok.inj he ▸ hs) (not_isSuccess_errFromLicensing _)
  | .error (.other _)       => exact fun _ he => nomatch he

theorem lifecycleTransition_obeys {id : String} {tr : Transition} {fn : License → Tx License}
    (hf : ∀ l, Transitions tr l (fn l)) :
    (lifecycleTransition id fn).Obeys (Threads.Answers (exec S) t) (MayAwait tr id) Reported h := by
  refine ⟨.read, fun s a ha => ?_⟩
  match a with
  | .error _      => exact fun _ he => nomatch he
  | .ok none      =>
    intro response he hs
    exact absurd (Except.ok.inj he ▸ hs) (Response.not_isSuccess_err (by decide) _ _)
  | .ok (some l)  =>
    refine ⟨.transition (answers_getLicense ha l rfl) List.mem_cons_self (hf l), fun _ _ _ => ?_⟩
    exact guard_reported List.mem_cons_self

theorem handleRenewLicense_obeys {id : String} {subject : Option String} {body : Option Json} :
    (handleRenewLicense id subject body).Obeys (Threads.Answers (exec S) t) (MayAwait .renew id)
      Reported h := by
  unfold handleRenewLicense
  split
  case h_1 response hr =>
    intro _ he hs
    exact absurd (Except.ok.inj he ▸ hs) ((renewOptions_rejects subject body).not_isSuccess hr)
  case h_2 => exact lifecycleTransition_obeys fun l => renew_transitions l _

theorem handle_obeys : (req : LifecycleRequest) →
    req.handle.Obeys (Threads.Answers (exec S) t) (MayAwait req.transition req.id) Reported h
  | .suspend _ _ => lifecycleTransition_obeys fun l => suspend_transitions l _
  | .resume _ _  => lifecycleTransition_obeys fun l => resume_transitions l _
  | .revoke _ _  => lifecycleTransition_obeys fun l => revoke_transitions l _
  | .renew _ _ _ => handleRenewLicense_obeys

-- A transition changes statuses legally if its license is as it was read.
theorem transact_changes {tr : Transition} {l : License} {body : Tx License} (ω : Atomic.Env Ω Error)
    (ht : Transitions tr l body) (hs : (S.contents s).status? l.id = some l.status) :
    (∀ id, Changes tr.Legal ((S.contents s).status? id)
      ((S.contents (Atomic.transact S.exec ω body s).2).status? id)) ∧
    ∀ l', (Atomic.transact S.exec ω body s).1 = .ok l' → tr.Admits l.status := by
  let Kept (s' : σ) (_ : History) : Prop :=
    ∀ id, Changes tr.Legal ((S.contents s).status? id) ((S.contents s').status? id)
  have step {s' : σ} {h : History} {ω : Ω} {o : Op} (inv : Kept s' h)
      (hw : [] <:+ h ∧ o.Within tr l) :
      ∃ x : Unit, True ∧ Kept (S.exec ω o s').2 (⟨o, x, (S.exec ω o s').1⟩ :: h) := by
    refine ⟨(), trivial, fun id => ?_⟩
    cases (S.acts ω o s').status? id
    case inl h => exact h ▸ inv id
    case inr h =>
      have ⟨p, b, ho, hp, hb⟩ := h
      subst ho
      have ⟨hid, hl⟩ := hw.right
      exact .inr ⟨l.status, b, hid ▸ hs, hb, hl b hp⟩
  have ⟨_, hc, ha⟩ : ∃ h, Kept (body.eval S.exec ω.env s).2 h ∧
      ∀ l', (body.eval S.exec ω.env s).1 = .ok l' → tr.Admits l.status :=
    Obeys.eval Kept step ω.env (ht []) fun _ => .inl rfl
  refine ⟨fun id => ?_, fun l' hl => ha l' (Atomic.transact_ok hl).left⟩
  cases Atomic.transact_state S.exec ω body s
  case inl h => exact .inl (by rw [h])
  case inr h => exact h.right ▸ hc id

-- The license had a status that the transition admits when a transaction of it succeeded.
def Admitted (S : AtomicStore σ Ω) (reqs : Nat → LifecycleRequest) (seen : Nat → Requests.Trace σ) :
    Prop :=
  ∀ t s l, ∀ body : Tx License, ⟨.transaction body, s, .ok l⟩ ∈ seen t →
    ∃ a, (S.contents s).status? (reqs t).id = some a ∧ (reqs t).transition.Admits a

variable {reqs : Nat → LifecycleRequest} {c c' : Requests σ}

theorem exec_changes {o : Await} {a : o.Ans} {ω : Atomic.Env Ω Error} {s' : σ}
    (may : MayAwait (reqs t).transition (reqs t).id (seen t) o) (fresh : freshSnapshot S s seen t o)
    (h : exec S t ω o s = some (a, s')) (id : String) :
    Changes (reqs t).transition.Legal ((S.contents s).status? id) ((S.contents s').status? id) := by
  cases may
  case read =>
    have hs : S.exec (ω.env 0) (.tx (.getLicense (reqs t).id)) s = (a, s') := Option.some.inj h
    have hc := (S.acts (ω.env 0) (.tx (.getLicense (reqs t).id)) s).status? id
    rw [hs] at hc
    cases hc
    case inl hc => exact .inl hc.symm
    case inr hc =>
      have ⟨_, _, ho, _⟩ := hc
      cases ho
  case transition l body lid read transitions =>
    have hs : Atomic.transact S.exec ω body s = (a, s') := Option.some.inj h
    have hc := (transact_changes ω transitions (freshSnapshot_read fresh read)).left id
    rwa [hs] at hc

theorem Admitted.step {o : Await} {a : o.Ans} {ω : Atomic.Env Ω Error} {s' : σ}
    (inv : Admitted S reqs seen) (may : MayAwait (reqs t).transition (reqs t).id (seen t) o)
    (fresh : freshSnapshot S s seen t o) (h : exec S t ω o s = some (a, s')) :
    Admitted S reqs (Function.update seen t (⟨o, s, a⟩ :: seen t)) := by
  intro t' s₁ l₁ body₁ hm
  by_cases ht : t' = t
  case neg => exact inv t' s₁ l₁ body₁ (by simpa [ht] using hm)
  case pos =>
    subst ht
    rw [Function.update_self] at hm
    cases List.mem_cons.mp hm
    case inr hm => exact inv t' s₁ l₁ body₁ hm
    case inl hm =>
      cases may with
      | read => cases hm
      | @transition _ l body lid read transitions =>
        have hs : Atomic.transact S.exec ω body s = (a, s') := Option.some.inj h
        have hl := freshSnapshot_read fresh read
        cases hm
        exact ⟨l.status, lid ▸ hl,
          (transact_changes ω transitions hl).right l₁ (congrArg Prod.fst hs)⟩

section Runs

variable {s₀ : σ}

theorem of_run (run : Threads.Run (exec S) (freshSnapshot S) (requests s₀ reqs) c) :
    Admitted S reqs c.seen ∧ c.Obey (exec S)
      (fun t => MayAwait (reqs t).transition (reqs t).id) fun _ => Reported :=
  run.invariant (fun _ seen => Admitted S reqs seen) (fun t => handle_obeys (reqs t))
    (fun _ _ _ _ hm => nomatch hm) fun inv may fresh h => inv.step may fresh h

theorem step_changes (run : Threads.Run (exec S) (freshSnapshot S) (requests s₀ reqs) c)
    (e : Threads.Step (exec S) (freshSnapshot S) t c c') (id : String) :
    Changes (reqs t).transition.Legal ((S.contents c.shared).status? id)
      ((S.contents c'.shared).status? id) := by
  cases e
  case intro hp hg ha =>
    have ob := (of_run run).right t
    rw [hp] at ob
    exact exec_changes ob.left hg ha id

theorem run_revoked (run : Threads.Run (exec S) (freshSnapshot S) (requests s₀ reqs) c)
    (run' : Threads.Run (exec S) (freshSnapshot S) c c') {id : String}
    (h : (S.contents c.shared).status? id = some .revoked) :
    (S.contents c'.shared).status? id = some .revoked :=
  run'.keeps (fun c => (S.contents c.shared).status? id = some .revoked) h fun run' e =>
    (step_changes (run.trans run') e id).keeps_revoked

theorem reported_admitted (run : Threads.Run (exec S) (freshSnapshot S) (requests s₀ reqs) c)
    {response : Response} (hp : c.prog t = .pure response) (hs : response.IsSuccess) :
    ∃ e ∈ c.seen t, (∃ body : Tx License, e.op = .transaction body) ∧
      ∃ a, (S.contents e.state).status? (reqs t).id = some a ∧ (reqs t).transition.Admits a := by
  have ⟨inv, ob⟩ := of_run run
  have ob := ob t
  rw [hp] at ob
  have ⟨s, l, body, hm⟩ := ob response rfl hs
  exact ⟨_, hm, ⟨body, rfl⟩, inv t s l body hm⟩

-- As long as every transaction starts with the status that its request has read, every change of a
-- status is legal, revoked is terminal, and success is only reported by requests whose transaction
-- found a status that it admits.
theorem fresh_snapshot_changes_legal
    (run : Threads.Run (exec S) (freshSnapshot S) (requests s₀ reqs) c)
    (run' : Threads.Run (exec S) (freshSnapshot S) c c') (id : String) :
    (∀ t c'', Threads.Step (exec S) (freshSnapshot S) t c' c'' →
      (S.contents c''.shared).status? id ≠ (S.contents c'.shared).status? id →
      ∃ a b, (S.contents c'.shared).status? id = some a ∧
        (S.contents c''.shared).status? id = some b ∧ (reqs t).transition.Legal a b) ∧
    ((S.contents c.shared).status? id = some .revoked →
      (S.contents c'.shared).status? id = some .revoked) ∧
    ∀ t response, c'.prog t = .pure response → response.IsSuccess →
      ∃ e ∈ c'.seen t, (∃ body : Tx License, e.op = .transaction body) ∧
        ∃ a, (S.contents e.state).status? (reqs t).id = some a ∧ (reqs t).transition.Admits a :=
  ⟨fun _ _ e hne => (step_changes (run.trans run') e id).resolve_left (Ne.symm hne),
    run_revoked run run', fun _ _ => reported_admitted (run.trans run')⟩

end Runs

end Requests

def activeLicense : License where
  id             := "01960000-0000-7000-8000-000000000001"
  scopeId        := none
  templateId     := none
  licensableType := "User"
  licensableId   := "42"
  licenseKey     := "LIC-AAAAA-AAAAA-AAAAA-AAAAA-AAAAA"
  status         := .active
  maxUsages      := 1
  activatedAt    := some "2026-04-13T10:00:00.000000Z"
  expiresAt      := none
  graceUntil     := none
  meta_          := []
  createdAt      := "2026-04-13T10:00:00.000000Z"
  updatedAt      := "2026-04-13T10:00:00.000000Z"
  isTrial        := false

def oneLicense : Memory.State where
  licenses := .ofList [activeLicense] (List.nodup_singleton _)

def revokeAndSuspend (t : Nat) : LifecycleRequest :=
  if t = 0 then .revoke activeLicense.id (some "alice") else .suspend activeLicense.id (some "bob")

-- Every operation finds this clock.
def at_ (ts : List Nat) : List (Nat × Atomic.Env Memory.Env Error) :=
  ts.map fun t => (t, { env := fun _ => { clock := "2026-04-13T10:00:00.000000Z" } })

-- A suspension that starts after the revocation finds the license revoked and is not reported.
theorem suspension_fails_after_revocation :
    ∃ c c' : Requests Memory.State,
      Threads.Run (exec memory.store) (freshSnapshot memory.store)
        (requests oneLicense revokeAndSuspend) c ∧
      Threads.Run (exec memory.store) (freshSnapshot memory.store) c c' ∧
      (memory.store.contents c.shared).status? activeLicense.id = some .revoked ∧
      (memory.store.contents c'.shared).status? activeLicense.id = some .revoked := by
  have h₁ : ((requests oneLicense revokeAndSuspend).run (exec memory.store)
      (freshSnapshot memory.store) (at_ [0, 0])).isSome := by rfl
  have h₂ : ((Option.get _ h₁).run (exec memory.store)
      (freshSnapshot memory.store) (at_ [1, 1])).isSome := by rfl
  have run := Threads.Run.of_isSome h₁
  have run' := Threads.Run.of_isSome h₂
  have hr : (memory.store.contents (Option.get _ h₁).shared).status? activeLicense.id =
      some .revoked := by rfl
  have h := fresh_snapshot_changes_legal run run' activeLicense.id
  exact ⟨_, _, run, run', hr, h.right.left hr⟩

-- A suspension that has read an active license overwrites a revocation committed in between.
theorem suspension_overwrites_revocation :
    ¬∀ (c c' : Requests Memory.State) (id : String),
      Threads.Run (exec memory.store) (fun _ _ _ _ => true)
        (requests oneLicense revokeAndSuspend) c →
      Threads.Run (exec memory.store) (fun _ _ _ _ => true) c c' →
      (memory.store.contents c.shared).status? id = some .revoked →
      (memory.store.contents c'.shared).status? id = some .revoked := by
  intro h
  have h₁ : ((requests oneLicense revokeAndSuspend).run (exec memory.store)
      (fun _ _ _ _ => true) (at_ [1, 0, 0])).isSome := by rfl
  have h₂ : ((Option.get _ h₁).run (exec memory.store) (fun _ _ _ _ => true) (at_ [1])).isSome := by
    rfl
  have hr := h _ _ activeLicense.id (.of_isSome h₁) (.of_isSome h₂) (by rfl)
  have hs : (memory.store.contents (Option.get _ h₂).shared).status? activeLicense.id =
      some .suspended := by rfl
  exact absurd (hs.symm.trans hr) (by decide)

end Licensing.Ts
