import Licensing.Memory.Transitions
import Licensing.Model.Services

-- The services that create licenses, performed on the rows in memory.

namespace Licensing

namespace Go

open Memory Prog

def execService (ω : Env) : (o : ServiceOp) → Store → o.Ans × Store
  | .storage o,          s => execStorage ω o s
  | .nowISO,             s => (ω.clock, s)
  | .generateLicenseKey, s => (ω.licenseKey, s)

section Translate

variable {may : Env → Store → Prop} {α : Type} {post : Except Error α → Store → Prop} {s : Store}

-- The calls of a transaction do the same as those of its storage.
theorem service_bind (o : Op) {f : o.Ans → Service α}
    (h : ∀ ω, may ω s → (f (execOp ω o s).1).Wp execService may post (execOp ω o s).2) :
    (o.service >>= f).Wp execService may post s := by
  cases o
  case tx o =>
    cases o
    all_goals exact h
  all_goals exact h

theorem service_wp : {p : Tx α} → {s : Store} → p.Wp execOp may post s →
    p.service.Wp execService may post s
  | .pure _,   _, h => h
  | .throw _,  _, h => h
  | .call o _, _, h => service_bind o fun ω hm => service_wp (h ω hm)

end Translate

-- The key that a license is created with.
def keyOf (ω : Env) (input : CreateLicenseInput) : Except Error String :=
  if input.licenseKey = "" then .ok ω.licenseKey else assertLicenseKey input.licenseKey

-- The transaction of `createLicense`.
def insertLicense (input : CreateLicenseInput) (licenseKey : String) (opts : CreateLicenseOptions) :
    Service License := do
  let created ← Service.perform (.createLicense (input.row licenseKey))
  let now ← Service.nowISO
  writeCreatedAudit created now opts
  return created

variable {may : Env → Store → Prop} {input : CreateLicenseInput} {opts : CreateLicenseOptions} {s : Store}

-- A license is created with the key, and logged.
inductive Inserted (may : Env → Store → Prop) (input : CreateLicenseInput) (key : String) (s : Store) :
    Except Error License → Store → Prop
  | refused {e : Error} (refused : ¬Admits s (.createLicense (input.row key))) :
    Inserted may input key s (.error e) s
  | inserted {l : License} {now : String} {opts : CreateLicenseOptions} {ω ω' : Env}
      (admits : Admits s (.createLicense (input.row key)))
      (row : l = createdLicense ω (input.row key)) (finds : may ω s)
      (finds' : may ω' (s.added l)) :
    Inserted may input key s (.ok l) ((s.added l).logged (appended ω' (createdAudit l now opts)))

theorem Inserted.admits {key : String} {l : License} {s' : Store}
    (h : Inserted may input key s (.ok l) s') : Admits s (.createLicense (input.row key)) :=
  match h with
  | .inserted admits _ _ _ => admits

theorem insertLicense_wp (key : String) :
    (insertLicense input key opts).Wp execService may (Inserted may input key s) s := by
  intro ω finds
  have h := execStorage_acts ω s (.createLicense (input.row key))
  simp only [execService]
  generalize execStorage ω (.createLicense (input.row key)) s = r at h
  have ⟨a, s'⟩ := r
  cases h
  case read h          => exact nomatch h
  case refused refused => exact .refused refused
  case createLicense admits =>
    intro ω' _ ω'' finds'
    exact .inserted admits rfl finds finds'

-- A service alone, the part before its transaction included.
def transactService {α : Type} (ω : Nat → Env) (body : Service α) (s : Store) : Except Error α × Store :=
  Atomic.transact execService { env := ω } body s

theorem insertLicense_transact {ω : Nat → Env} {key : String}
    (finds : (insertLicense input key opts).Finds execService may ω s) :
    (∃ e, ¬Admits s (.createLicense (input.row key)) ∧
      transactService ω (insertLicense input key opts) s = (.error e, s)) ∨
    ∃ l s', transactService ω (insertLicense input key opts) s = (.ok l, s') ∧
      Inserted may input key s (.ok l) s' := by
  match (insertLicense_wp key).transact finds with
  | .inl ⟨l, s', he, h⟩ => exact .inr ⟨l, s', he, h⟩
  | .inr ⟨e, s', he, h⟩ =>
    cases h
    case refused refused => exact .inl ⟨e, refused, he⟩

-- A license is created unless its key is malformed, or it clashes with another license.
theorem createLicense_transact {ω : Nat → Env}
    (finds : (createLicense input opts).Finds execService may ω s) :
    (∃ e, (∀ key, keyOf (ω 0) input = .ok key → ¬Admits s (.createLicense (input.row key))) ∧
      transactService ω (createLicense input opts) s = (.error e, s)) ∨
    ∃ key l s', keyOf (ω 0) input = .ok key ∧
      transactService ω (createLicense input opts) s = (.ok l, s') ∧
      Inserted may input key s (.ok l) s' := by
  by_cases he : input.licenseKey = ""
  case pos =>
    have hk : keyOf (ω 0) input = .ok (ω 0).licenseKey := if_pos he
    have hp : createLicense input opts =
        .call .generateLicenseKey (insertLicense input · opts) := by
      simp [createLicense, he, Service.generateLicenseKey]
      rfl
    rw [hp] at finds ⊢
    match insertLicense_transact finds.right with
    | .inl ⟨e, hr, ht⟩    => exact .inl ⟨e, fun key h => Except.ok.inj (hk.symm.trans h) ▸ hr, ht⟩
    | .inr ⟨l, s', ht, h⟩ => exact .inr ⟨_, l, s', hk, ht, h⟩
  case neg =>
    have hk : keyOf (ω 0) input = assertLicenseKey input.licenseKey := if_neg he
    match ha : assertLicenseKey input.licenseKey with
    | .error e =>
      have hp : createLicense input opts = .throw e := by simp [createLicense, he, ha]
      exact .inl ⟨e, fun key h => (nomatch (hk.trans ha).symm.trans h), by rw [hp]; rfl⟩
    | .ok key =>
      have hp : createLicense input opts = insertLicense input key opts := by
        simp [createLicense, he, ha]
        rfl
      rw [hp] at finds ⊢
      match insertLicense_transact finds with
      | .inl ⟨e, hr, ht⟩ =>
        exact .inl ⟨e, fun key' h => Except.ok.inj ((hk.trans ha).symm.trans h) ▸ hr, ht⟩
      | .inr ⟨l, s', ht, h⟩ => exact .inr ⟨key, l, s', hk.trans ha, ht, h⟩

-- The same of a license that is created from a template, which there must be.
theorem createLicenseFromTemplate_transact {input : CreateLicenseFromTemplateInput} {ω : Nat → Env}
    (finds : (createLicenseFromTemplate input opts).Finds execService may ω s) :
    (∃ e, (∀ t key, s.templates.find input.templateId = some t →
        keyOf (ω 2) (fromTemplate input t (ω 1).clock) = .ok key →
        ¬Admits s (.createLicense ((fromTemplate input t (ω 1).clock).row key))) ∧
      transactService ω (createLicenseFromTemplate input opts) s = (.error e, s)) ∨
    ∃ t key l s', s.templates.find input.templateId = some t ∧
      keyOf (ω 2) (fromTemplate input t (ω 1).clock) = .ok key ∧
      transactService ω (createLicenseFromTemplate input opts) s = (.ok l, s') ∧
      Inserted may (fromTemplate input t (ω 1).clock) key s (.ok l) s' := by
  cases ht : s.templates.find input.templateId
  case none =>
    refine .inl ⟨newError .fingerprintRejected ("template not found: " ++ input.templateId), by simp, ?_⟩
    simp only [transactService, Atomic.transact, createLicenseFromTemplate, Service.perform, call_bind,
      eval, execService, execStorage, ht, Prog.pure_bind]
  case some t =>
    have hp : transactService ω (createLicenseFromTemplate input opts) s =
        transactService (fun n => ω (n + 2)) (createLicense (fromTemplate input t (ω 1).clock) opts) s := by
      simp only [transactService, Atomic.transact, createLicenseFromTemplate, Service.perform, call_bind,
        eval, execService, execStorage, ht, Prog.pure_bind, Service.nowISO]
    have finds : (createLicense (fromTemplate input t (ω 1).clock) opts).Finds execService may
        (fun n => ω (n + 2)) s := by
      simp only [createLicenseFromTemplate, Service.perform, call_bind,
        Finds, execService, execStorage, ht, Prog.pure_bind, Service.nowISO] at finds
      exact finds.right.right
    rw [hp]
    cases createLicense_transact finds
    case inl h =>
      obtain ⟨e, hr, he⟩ := h
      refine .inl ⟨e, fun t' key h hk => ?_, he⟩
      cases h
      exact hr key hk
    case inr h =>
      obtain ⟨key, l, s', hk, he, h⟩ := h
      exact .inr ⟨t, key, l, s', rfl, hk, he, h⟩

end Go

end Licensing
