import Licensing.Memory.Acts

-- The references between the rows that are kept in memory.

namespace Licensing

namespace Memory

-- Every scope, template, parent and license that a row names is there.
structure References (s : Store) : Prop where
  licenseScope     : s.licenses.Refers License.scopeId s.scopes
  licenseTemplate  : s.licenses.Refers License.templateId s.templates
  templateScope    : s.templates.Refers LicenseTemplate.scopeId s.scopes
  templateParent   : s.templates.Refers LicenseTemplate.parentId s.templates
  usageLicense     : s.usages.Refers (some ∘ LicenseUsage.licenseId) s.licenses
  keyScope         : s.keys.Refers LicenseKey.scopeId s.scopes
  auditScope       : s.audit.Refers AuditLogEntry.scopeId s.scopes
  issuanceTemplate : s.trialIssuances.Refers TrialIssuance.templateId s.templates

-- What the operations leave unchecked: that what a row refers to exists, and that nothing is left
-- that refers to what is deleted.
def Unchecked (s : Store) : StorageOp → Prop
  | .createLicense input => (∀ id, input.scopeId = some id → s.scopes.Has id) ∧
    ∀ id, input.templateId = some id → s.templates.Has id
  | .updateLicense _ patch => (∀ id, patch.scopeId = some (some id) → s.scopes.Has id) ∧
    ∀ id, patch.templateId = some (some id) → s.templates.Has id
  | .deleteLicense id => ∀ u ∈ s.usages.rows, u.licenseId ≠ id
  | .deleteScope id => (∀ k ∈ s.keys.rows, k.scopeId ≠ some id) ∧
    ∀ e ∈ s.audit.rows, e.scopeId ≠ some id
  | .createTemplate input => ∀ id, input.scopeId = some id → s.scopes.Has id
  | .deleteTemplate id => (∀ t ∈ s.templates.rows, t.id ≠ id → t.parentId ≠ some id) ∧
    ∀ r ∈ s.trialIssuances.rows, r.templateId ≠ some id
  | .createUsage input => s.licenses.Has input.licenseId
  | .createKey input => ∀ id, input.scopeId = some id → s.scopes.Has id
  | .appendAudit input => ∀ id, input.scopeId = some id → s.scopes.Has id
  | .recordTrialIssuance input => ∀ id, input.templateId = some id → s.templates.Has id
  | _ => True

-- It matters where the checks that are made let the operation through.
def KeepsReferences (s : Store) (o : StorageOp) : Prop :=
  Admits s o → Unchecked s o

theorem references_empty : References {} := by
  apply References.mk
  all_goals exact fun _ hr => nomatch hr

namespace References

variable {ω : Env} {s : Store} {id : String}

theorem createLicense_iff {input : LicenseInput} (h : References s) :
    References { s with licenses := s.licenses.put (createdLicense ω input) } ↔
      Unchecked s (.createLicense input) := by
  have w : s.licenses.Writes (createdLicense ω input) _ := Table.writes_put
  have hs := w.refers_iff h.licenseScope
  have ht := w.refers_iff h.licenseTemplate
  apply Iff.intro
  case mp  => exact fun h' => ⟨hs.mp h'.licenseScope, ht.mp h'.licenseTemplate⟩
  case mpr =>
    intro hu
    exact { h with
      licenseScope    := hs.mpr hu.left
      licenseTemplate := ht.mpr hu.right
      usageLicense    := h.usageLicense.put }

-- A nullable column after a patch.
theorem patched_iff {α : Type} {p : α → Prop} {patch : Option (Option α)} {old : Option α}
    (h : ∀ a, old = some a → p a) :
    (∀ a, patch.getD old = some a → p a) ↔ ∀ a, patch = some (some a) → p a := by
  cases patch
  case none   => simpa using h
  case some a => simp

theorem updateLicense_iff {patch : LicensePatch} {cur : License} (h : References s)
    (row : s.licenses.find id = some cur) :
    References { s with licenses := s.licenses.replace (patchedLicense ω.clock patch cur) } ↔
      Unchecked s (.updateLicense id patch) := by
  have hr : s.licenses.find (patchedLicense ω.clock patch cur).id = some cur :=
    Table.key_of_find row ▸ row
  have w := Table.writes_replace hr
  have hm : cur ∈ s.licenses.rows := Rows.mem_of_find row
  have hs := (w.refers_iff h.licenseScope).trans (patched_iff (h.licenseScope cur hm))
  have ht := (w.refers_iff h.licenseTemplate).trans (patched_iff (h.licenseTemplate cur hm))
  apply Iff.intro
  case mp  => exact fun h' => ⟨hs.mp h'.licenseScope, ht.mp h'.licenseTemplate⟩
  case mpr =>
    intro hu
    exact { h with
      licenseScope    := hs.mpr hu.left
      licenseTemplate := ht.mpr hu.right
      usageLicense    := h.usageLicense.replace hr }

theorem deleteLicense_iff (h : References s) :
    References { s with licenses := s.licenses.erase id } ↔ Unchecked s (.deleteLicense id) := by
  have hu := h.usageLicense.erase_iff (j := id)
  apply Iff.intro
  case mp  => exact fun h' u hm he => hu.mp h'.usageLicense u hm (congrArg some he)
  case mpr =>
    intro hn
    exact { h with
      licenseScope    := h.licenseScope.erase_left
      licenseTemplate := h.licenseTemplate.erase_left
      usageLicense    := hu.mpr fun u hm he => hn u hm (Option.some.inj he) }

theorem createScope {input : LicenseScopeInput} (h : References s) :
    References { s with scopes := s.scopes.put (createdScope ω input) } :=
  { h with
    licenseScope  := h.licenseScope.put
    templateScope := h.templateScope.put
    keyScope      := h.keyScope.put
    auditScope    := h.auditScope.put }

theorem updateScope {patch : LicenseScopePatch} {cur : LicenseScope} (h : References s)
    (row : s.scopes.find id = some cur) :
    References { s with scopes := s.scopes.replace (patchedScope ω.clock patch cur) } := by
  have hr : s.scopes.find (patchedScope ω.clock patch cur).id = some cur :=
    Table.key_of_find row ▸ row
  exact { h with
    licenseScope  := h.licenseScope.replace hr
    templateScope := h.templateScope.replace hr
    keyScope      := h.keyScope.replace hr
    auditScope    := h.auditScope.replace hr }

theorem deleteScope_iff (h : References s) (ha : Admits s (.deleteScope id)) :
    References { s with scopes := s.scopes.erase id } ↔ Unchecked s (.deleteScope id) := by
  have hk := h.keyScope.erase_iff (j := id)
  have he := h.auditScope.erase_iff (j := id)
  apply Iff.intro
  case mp  => exact fun h' => ⟨hk.mp h'.keyScope, he.mp h'.auditScope⟩
  case mpr =>
    intro hu
    exact { h with
      licenseScope  := h.licenseScope.erase_iff.mpr ha.right.left
      templateScope := h.templateScope.erase_iff.mpr ha.right.right
      keyScope      := hk.mpr hu.left
      auditScope    := he.mpr hu.right }

theorem createTemplate_iff {input : LicenseTemplateInput} (h : References s)
    (ha : Admits s (.createTemplate input)) :
    References { s with templates := s.templates.put (createdTemplate ω.clock ω.freshId input) } ↔
      Unchecked s (.createTemplate input) := by
  have w : s.templates.Writes (createdTemplate ω.clock ω.freshId input) _ := Table.writes_put
  have hs := w.refers_iff h.templateScope
  have hp := (w.refers_iff h.templateParent).mpr ha.right
  apply Iff.intro
  case mp  => exact fun h' => hs.mp h'.templateScope
  case mpr =>
    intro hu
    exact { h with
      licenseTemplate  := h.licenseTemplate.put
      templateScope    := hs.mpr hu
      templateParent   := hp.put
      issuanceTemplate := h.issuanceTemplate.put }

theorem has_of_checkParent {patch : LicenseTemplatePatch} {p : String}
    (hc : checkParent Go.memory id patch s.toState = .ok ()) (hp : patch.parentId = some (some p)) :
    s.templates.Has p := by
  by_contra hn
  simp [checkParent, hp, Table.not_has_iff.mp hn] at hc

theorem updateTemplate {patch : LicenseTemplatePatch} {cur : LicenseTemplate} (h : References s)
    (row : s.templates.find id = some cur) (ha : Admits s (.updateTemplate id patch)) :
    References { s with templates := s.templates.replace (patchedTemplate ω.clock patch cur) } := by
  have hr : s.templates.find (patchedTemplate ω.clock patch cur).id = some cur :=
    Table.key_of_find row ▸ row
  have w := Table.writes_replace hr
  have hm : cur ∈ s.templates.rows := Rows.mem_of_find row
  have hp := (w.refers_iff h.templateParent).mpr <| (patched_iff (h.templateParent cur hm)).mpr
    fun _ => has_of_checkParent ha.right
  exact { h with
    licenseTemplate  := h.licenseTemplate.replace hr
    templateScope    := (w.refers_iff h.templateScope).mpr (h.templateScope cur hm)
    templateParent   := hp.replace hr
    issuanceTemplate := h.issuanceTemplate.replace hr }

theorem deleteTemplate_iff (h : References s) (ha : Admits s (.deleteTemplate id)) :
    References { s with templates := s.templates.erase id } ↔ Unchecked s (.deleteTemplate id) := by
  have hp := (h.templateParent.erase_left (k := id)).erase_iff (j := id)
  have hi := h.issuanceTemplate.erase_iff (j := id)
  apply Iff.intro
  case mp =>
    intro h'
    exact ⟨fun t ht hne => hp.mp h'.templateParent t (Table.mem_erase.mpr ⟨ht, hne⟩),
      hi.mp h'.issuanceTemplate⟩
  case mpr =>
    intro hu
    have hp := hp.mpr fun t ht => hu.left t (Table.mem_erase.mp ht).left (Table.mem_erase.mp ht).right
    exact { h with
      licenseTemplate  := h.licenseTemplate.erase_iff.mpr ha.right
      templateScope    := h.templateScope.erase_left
      templateParent   := hp
      issuanceTemplate := hi.mpr hu.right }

theorem createUsage_iff {input : LicenseUsageInput} (h : References s) :
    References { s with usages := s.usages.put (createdUsage ω input) } ↔
      Unchecked s (.createUsage input) := by
  have w : s.usages.Writes (createdUsage ω input) _ := Table.writes_put
  have hl := w.refers_iff h.usageLicense
  apply Iff.intro
  case mp  => exact fun h' => hl.mp h'.usageLicense _ rfl
  case mpr => exact fun hu => { h with usageLicense := hl.mpr fun i hi => Option.some.inj hi ▸ hu }

theorem updateUsage {patch : LicenseUsagePatch} {cur : LicenseUsage} (h : References s)
    (row : s.usages.find id = some cur) :
    References { s with usages := s.usages.replace (patchedUsage ω.clock patch cur) } := by
  have w : s.usages.Writes (patchedUsage ω.clock patch cur) _ :=
    Table.writes_replace (Table.key_of_find row ▸ row)
  have hl := h.usageLicense cur (Rows.mem_of_find row)
  exact { h with usageLicense := (w.refers_iff h.usageLicense).mpr hl }

theorem createKey_iff {input : LicenseKeyInput} (h : References s) :
    References { s with keys := s.keys.put (createdKey ω input) } ↔
      Unchecked s (.createKey input) := by
  have w : s.keys.Writes (createdKey ω input) _ := Table.writes_put
  have hs := w.refers_iff h.keyScope
  exact ⟨fun h' => hs.mp h'.keyScope, fun hu => { h with keyScope := hs.mpr hu }⟩

theorem updateKey {patch : LicenseKeyPatch} {cur : LicenseKey} (h : References s)
    (row : s.keys.find id = some cur) :
    References { s with keys := s.keys.replace (patchedKey ω.clock patch cur) } := by
  have w : s.keys.Writes (patchedKey ω.clock patch cur) _ :=
    Table.writes_replace (Table.key_of_find row ▸ row)
  have hs := h.keyScope cur (Rows.mem_of_find row)
  exact { h with keyScope := (w.refers_iff h.keyScope).mpr hs }

theorem appendAudit_iff {input : AuditLogInput} (h : References s) :
    References { s with audit := s.audit.put (appended ω input) } ↔
      Unchecked s (.appendAudit input) := by
  have w : s.audit.Writes (appended ω input) _ := Table.writes_put
  have hs := w.refers_iff h.auditScope
  exact ⟨fun h' => hs.mp h'.auditScope, fun hu => { h with auditScope := hs.mpr hu }⟩

theorem recordTrialIssuance_iff {input : TrialIssuanceInput} (h : References s) :
    References { s with trialIssuances := s.trialIssuances.put (createdIssuance ω input) } ↔
      Unchecked s (.recordTrialIssuance input) := by
  have w : s.trialIssuances.Writes (createdIssuance ω input) _ := Table.writes_put
  have ht := w.refers_iff h.issuanceTemplate
  exact ⟨fun h' => ht.mp h'.issuanceTemplate, fun hu => { h with issuanceTemplate := ht.mpr hu }⟩

end References

theorem unchecked_of_reads {s : Store} {o : StorageOp} (h : reads o) : Unchecked s o := by
  cases o
  all_goals trivial

theorem keepsReferences_iff {s : Store} {o : StorageOp} (ha : Admits s o) :
    KeepsReferences s o ↔ Unchecked s o :=
  ⟨fun hk => hk ha, fun hu _ => hu⟩

theorem StoreActs.references_iff {ω : Env} {s s' : Store} {o : StorageOp} {a : o.Ans}
    (acts : StoreActs ω s o a s') (h : References s) : References s' ↔ KeepsReferences s o := by
  cases acts
  case read hr    => exact iff_of_true h fun _ => unchecked_of_reads hr
  case refused hn => exact iff_of_true h fun ha => absurd ha hn
  case createLicense admits =>
    rw [keepsReferences_iff admits]
    exact h.createLicense_iff
  case updateLicense row admits =>
    rw [keepsReferences_iff admits]
    exact h.updateLicense_iff row
  case deleteLicense admits =>
    rw [keepsReferences_iff admits]
    exact h.deleteLicense_iff
  case deleteScope admits =>
    rw [keepsReferences_iff admits]
    exact h.deleteScope_iff admits
  case createTemplate admits =>
    rw [keepsReferences_iff admits]
    exact h.createTemplate_iff admits
  case deleteTemplate admits =>
    rw [keepsReferences_iff admits]
    exact h.deleteTemplate_iff admits
  case createUsage admits =>
    rw [keepsReferences_iff admits]
    exact h.createUsage_iff
  case createKey admits =>
    rw [keepsReferences_iff admits]
    exact h.createKey_iff
  case appendAudit input =>
    have admits : Admits s (.appendAudit input) := trivial
    rw [keepsReferences_iff admits]
    exact h.appendAudit_iff
  case recordTrialIssuance admits =>
    rw [keepsReferences_iff admits]
    exact h.recordTrialIssuance_iff
  all_goals refine iff_of_true ?_ fun _ => trivial
  case createScope               => exact h.createScope
  case updateScope row           => exact h.updateScope row
  case updateTemplate row admits => exact h.updateTemplate row admits
  case updateUsage row _         => exact h.updateUsage row
  case updateKey row _           => exact h.updateKey row
  case deleteTrialIssuance       => exact { h with issuanceTemplate := h.issuanceTemplate.erase_left }

end Memory

namespace Go

open Memory

theorem storage_references_iff (rs : List Request) :
    Machine.Always storageStep References {} rs ↔
      Machine.Each storageStep (fun s r => KeepsReferences s r.2) {} rs :=
  Machine.always_iff_each (fun s r => (execStorage_acts r.1 s r.2).references_iff) references_empty

-- A usage that was revoked stays when its license is deleted.
def deleteWithRevokedUsage : List Request := [
  ({ freshId := "l" }, .createLicense {
    scopeId        := none
    templateId     := none
    licensableType := "User"
    licensableId   := "1"
    licenseKey     := "A"
    status         := .active
    maxUsages      := 1
    activatedAt    := none
    expiresAt      := none
    graceUntil     := none
    meta_          := [] }),
  ({ freshId := "u" }, .createUsage {
    licenseId    := "l"
    fingerprint  := "f"
    status       := .active
    registeredAt := ""
    clientMeta   := [] }),
  ({}, .updateUsage "u" { status := some .revoked }),
  ({}, .deleteLicense "l")]

theorem not_storage_references : ¬∀ rs, Machine.Always storageStep References {} rs := by
  intro h
  have hr := (h deleteWithRevokedUsage).last.usageLicense
  let s := Machine.run storageStep {} deleteWithRevokedUsage
  have hu : s.usages.rows.map LicenseUsage.licenseId = ["l"] := by decide
  have ⟨u, hm, he⟩ : ∃ u ∈ s.usages.rows, u.licenseId = "l" := List.mem_map.mp (by simp [hu])
  have hl : ¬s.licenses.Has "l" := by
    simp only [Table.Has, Table.find, Rows.find]
    decide
  exact hl (hr u hm "l" (congrArg some he))

end Go

end Licensing
