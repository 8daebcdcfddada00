import Licensing.Memory.Services
import Licensing.Model.Issuer

-- The issuer on the rows in memory.

namespace Licensing

open Prog Memory

-- What a call of the issuer finds. A storage may fail on its own.
structure IssuerEnv where
  env   : Nat → Env
  ms    : Int := 0
  fault : Option Error := none

-- A call that the storage answers, unless it fails.
def IssuerEnv.orFault {α : Type} (ω : IssuerEnv) (f : Store → Except Error α × Store) (s : Store) :
    Except Error α × Store :=
  match ω.fault with
  | none   => f s
  | some e => (.error e, s)

namespace Go

def execIssue (ω : IssuerEnv) : (o : IssuerOp CreateLicenseInput) → Store → o.Ans × Store
  | .getTemplate id            => ω.orFault (execStorage (ω.env 0) (.getTemplate id))
  | .findTrialIssuance query   => ω.orFault (execStorage (ω.env 0) (.findTrialIssuance query))
  | .deleteTrialIssuance id    => ω.orFault (execStorage (ω.env 0) (.deleteTrialIssuance id))
  | .recordTrialIssuance input => ω.orFault (execStorage (ω.env 0) (.recordTrialIssuance input))
  | .createLicense input opts  => ω.orFault (transactService ω.env (createLicense input opts))
  | .nowISO                    => fun s => ((ω.env 0).clock, s)
  | .dateNow                   => fun s => (ω.ms, s)

section Healthy

-- The storage does not fail.
variable {ω : Nat → IssuerEnv} (healthy : ∀ n, (ω n).fault = none) {s : Store}

include healthy

theorem getTemplate_eval {α : Type} (id : String)
    (f : Option LicenseTemplate → Issuance CreateLicenseInput α) :
    (Issuance.getTemplate id >>= f).eval execIssue ω s =
      (f (s.templates.find id)).eval execIssue (fun n => ω (n + 1)) s := by
  simp [Issuance.getTemplate, eval, execIssue, IssuerEnv.orFault, healthy, execStorage]

theorem ancestors_eval (fuel : Nat) (visited : List String) (cursor : Option String) :
    ∃ chain, (ancestors fuel visited cursor).eval execIssue ω s = (.ok chain, s) := by
  induction fuel generalizing ω visited cursor
  case zero => exact ⟨[], rfl⟩
  case succ fuel ih =>
    match cursor with
    | none    => exact ⟨[], rfl⟩
    | some id =>
      rw [ancestors]
      split
      case isTrue  => exact ⟨[], rfl⟩
      case isFalse =>
        rw [getTemplate_eval healthy]
        match s.templates.find id with
        | none   => exact ⟨[], rfl⟩
        | some t =>
          have ⟨chain, h⟩ := ih (fun n => healthy (n + 1)) (id :: visited) t.parentId
          exact ⟨t :: chain, by simp only [eval_bind_from, h]; rfl⟩

theorem resolveTemplate_eval (leaf : LicenseTemplate) :
    ∃ entitlements, (resolveTemplate leaf).eval execIssue ω s = (.ok entitlements, s) := by
  have ⟨chain, h⟩ := ancestors_eval healthy maxTemplateDepth [leaf.id] leaf.parentId (s := s)
  exact ⟨_, by simp only [resolveTemplate, eval_bind_from, h]; rfl⟩

-- The template of a license, if it is to have one, is found unless there is none.
theorem findTemplate_eval (templateId : Option String) :
    (∃ id e, templateId = some id ∧ s.templates.find id = none ∧
      (findTemplate templateId).eval execIssue ω s = (.error e, s)) ∨
    ∃ found, (∀ id, templateId = some id → (s.templates.find id).isSome) ∧
      found.map Prod.fst = templateId.bind (s.templates.find ·) ∧
      (findTemplate templateId).eval execIssue ω s = (.ok found, s) := by
  match templateId with
  | none    => exact .inr ⟨none, nofun, rfl, rfl⟩
  | some id =>
    rw [findTemplate, getTemplate_eval healthy]
    match ht : s.templates.find id with
    | none   => exact .inl ⟨id, _, rfl, ht, rfl⟩
    | some t =>
      have ⟨entitlements, h⟩ := resolveTemplate_eval (fun n => healthy (n + 1)) t (s := s)
      refine .inr ⟨some (t, entitlements), ?_, by simp [ht], ?_⟩
      case _ => simp [ht]
      case _ =>
        simp only [eval_bind_from, h]
        rfl

end Healthy

end Go

namespace Ts

def CreateLicenseInput.row (input : CreateLicenseInput) (licenseKey : String) : LicenseInput where
  scopeId        := input.scopeId
  templateId     := input.templateId
  licensableType := input.licensableType
  licensableId   := input.licensableId
  licenseKey     := licenseKey
  status         := input.status.getD .pending
  maxUsages      := input.maxUsages
  activatedAt    := none
  expiresAt      := input.expiresAt
  graceUntil     := input.graceUntil
  meta_          := input.meta_

def keyOf (ω : Env) (input : CreateLicenseInput) : Except Error String :=
  match input.licenseKey with
  | none     => .ok ω.licenseKey
  | some key => assertLicenseKey key

-- The license and its audit entry are written in one transaction.
def createLicense (ω : Nat → Env) (input : CreateLicenseInput) (opts : CreateLicenseOptions) (s : Store) :
    Except Error License × Store :=
  match keyOf (ω 0) input with
  | .error e => (.error e, s)
  | .ok key  =>
    match Memory.createLicense memory (ω 1) (input.row key) s.toState with
    | (.error e, _)       => (.error e, s)
    | (.ok created, t) =>
      let (_, t) := appendAudit (ω 3) (createdAudit created (ω 2).clock opts) t
      (.ok created, { s with toState := t })

def findTrialIssuance (query : TrialIssuanceLookup) (s : Store) : Option TrialIssuance :=
  s.trialIssuances.rows.find? fun r =>
    r.templateId = query.templateId ∧ r.fingerprintHash = query.fingerprintHash

def execIssue (ω : IssuerEnv) : (o : IssuerOp CreateLicenseInput) → Store → o.Ans × Store
  | .getTemplate id            => ω.orFault fun s => (.ok (s.templates.find id), s)
  | .findTrialIssuance query   => ω.orFault fun s => (.ok (findTrialIssuance query s), s)
  | .deleteTrialIssuance id    => ω.orFault fun s => (.ok (), deleteTrialIssuance id s)
  | .recordTrialIssuance input => ω.orFault (recordTrialIssuance memory (ω.env 0) input)
  | .createLicense input opts  => ω.orFault (createLicense ω.env input opts)
  | .nowISO                    => fun s => ((ω.env 0).clock, s)
  | .dateNow                   => fun s => (ω.ms, s)

end Ts

end Licensing
