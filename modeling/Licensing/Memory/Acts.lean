import Licensing.Library.Constraints
import Licensing.Library.Machine
import Licensing.Memory.Store

-- What the operations on the rows in memory check, and what they do.

namespace Licensing

namespace Memory

def licensableScope (l : License) : String × String × Option String :=
  (l.licensableType, l.licensableId, l.scopeId)

def scopedName (t : LicenseTemplate) : Option String × String :=
  (t.scopeId, t.name)

-- The checks that an operation makes before it writes.
def Admits (s : Store) : StorageOp → Prop
  | .createLicense input => ∀ l ∈ s.licenses.rows, l.licenseKey ≠ input.licenseKey ∧
    licensableScope l ≠ (input.licensableType, input.licensableId, input.scopeId)
  | .updateLicense id patch => s.licenses.Has id ∧
    ∀ l ∈ s.licenses.rows, l.id ≠ id → patch.licenseKey ≠ some l.licenseKey
  | .deleteLicense id => s.licenses.Has id ∧
    ∀ u ∈ s.usages.rows, u.licenseId = id → u.status ≠ .active
  | .createScope input => ∀ r ∈ s.scopes.rows, r.slug ≠ input.slug
  | .updateScope id _ => s.scopes.Has id
  | .deleteScope id => s.scopes.Has id ∧ (∀ l ∈ s.licenses.rows, l.scopeId ≠ some id) ∧
    ∀ t ∈ s.templates.rows, t.scopeId ≠ some id
  | .createTemplate input =>
    (∀ t ∈ s.templates.rows, scopedName t ≠ (input.scopeId, input.name)) ∧
      ∀ id, input.parentId = some id → s.templates.Has id
  | .updateTemplate id patch => s.templates.Has id ∧
    checkParent Go.memory id patch s.toState = .ok ()
  | .deleteTemplate id => s.templates.Has id ∧ ∀ l ∈ s.licenses.rows, l.templateId ≠ some id
  | .createUsage input => input.status = .active →
    ∀ u ∈ s.usages.rows, ¬isActiveSeat input.licenseId input.fingerprint u
  | .updateUsage id patch => ∃ cur, s.usages.find id = some cur ∧
    (patch.status = some .active → cur.status ≠ .active →
      ∀ u ∈ s.usages.rows, u.id ≠ id → ¬isActiveSeat cur.licenseId cur.fingerprint u)
  | .createKey input => (∀ k ∈ s.keys.rows, k.kid ≠ input.kid) ∧
    (input.role = .signing → input.state = .active →
      ∀ k ∈ s.keys.rows, ¬isActiveSigning input.scopeId k)
  | .updateKey id patch => ∃ cur, s.keys.find id = some cur ∧
    (patch.state = some .active → cur.state ≠ .active → cur.role = .signing →
      ∀ k ∈ s.keys.rows, k.id ≠ id → ¬isActiveSigning cur.scopeId k)
  | .recordTrialIssuance input => ∀ r ∈ s.trialIssuances.rows, r.templateId = input.templateId →
    r.fingerprintHash ≠ input.fingerprintHash
  | _ => True

def createdUsage (ω : Env) (input : LicenseUsageInput) : LicenseUsage where
  id           := ω.freshId
  licenseId    := input.licenseId
  fingerprint  := input.fingerprint
  status       := input.status
  registeredAt := input.registeredAt
  revokedAt    := input.revokedAt
  lastSeenAt   := input.registeredAt
  clientMeta   := input.clientMeta
  createdAt    := ω.clock
  updatedAt    := ω.clock

def appended (ω : Env) (input : AuditLogInput) : AuditLogEntry where
  id         := ω.freshId
  licenseId  := input.licenseId
  scopeId    := input.scopeId
  actor      := input.actor
  actorKind  := resolveActorKind input
  actorId    := input.actorId
  event      := input.event
  priorState := input.priorState
  newState   := input.newState
  occurredAt := input.occurredAt

-- The operations that write nothing.
def reads : StorageOp → Prop
  | .getLicense _ | .getLicenseByKey _ | .listLicenses _ _ | .findLicensesByLicensable _ => True
  | .getScope _ | .getScopeBySlug _ | .listScopes _ _ | .getTemplate _ | .listTemplates _ _ => True
  | .getUsage _ | .listUsages _ _ | .getKey _ | .getKeyByKid _ | .listKeys _ _ => True
  | .getAudit _ | .listAudit _ _ | .findTrialIssuance _ | .getLicenseStats _ => True
  | _ => False

-- An operation that is refused does nothing.
inductive StoreActs (ω : Env) (s : Store) : (o : StorageOp) → o.Ans → Store → Prop
  | read {o : StorageOp} {a : o.Ans} (reads : reads o) : StoreActs ω s o a s
  | refused {o : StorageOp} {e : Error} (refused : ¬Admits s o) : StoreActs ω s o (.error e) s
  | createLicense {input : LicenseInput} (admits : Admits s (.createLicense input)) :
      StoreActs ω s (.createLicense input) (.ok (createdLicense ω input))
        { s with licenses := s.licenses.put (createdLicense ω input) }
  | updateLicense {id : String} {patch : LicensePatch} {cur : License}
      (row : s.licenses.find id = some cur) (admits : Admits s (.updateLicense id patch)) :
      StoreActs ω s (.updateLicense id patch) (.ok (patchedLicense ω.clock patch cur))
        { s with licenses := s.licenses.replace (patchedLicense ω.clock patch cur) }
  | deleteLicense {id : String} (admits : Admits s (.deleteLicense id)) :
      StoreActs ω s (.deleteLicense id) (.ok ()) { s with licenses := s.licenses.erase id }
  | createScope {input : LicenseScopeInput} (admits : Admits s (.createScope input)) :
      StoreActs ω s (.createScope input) (.ok (createdScope ω input))
        { s with scopes := s.scopes.put (createdScope ω input) }
  | updateScope {id : String} {patch : LicenseScopePatch} {cur : LicenseScope}
      (row : s.scopes.find id = some cur) :
      StoreActs ω s (.updateScope id patch) (.ok (patchedScope ω.clock patch cur))
        { s with scopes := s.scopes.replace (patchedScope ω.clock patch cur) }
  | deleteScope {id : String} (admits : Admits s (.deleteScope id)) :
      StoreActs ω s (.deleteScope id) (.ok ()) { s with scopes := s.scopes.erase id }
  | createTemplate {input : LicenseTemplateInput} (admits : Admits s (.createTemplate input)) :
      StoreActs ω s (.createTemplate input) (.ok (createdTemplate ω.clock ω.freshId input))
        { s with templates := s.templates.put (createdTemplate ω.clock ω.freshId input) }
  | updateTemplate {id : String} {patch : LicenseTemplatePatch} {cur : LicenseTemplate}
      (row : s.templates.find id = some cur) (admits : Admits s (.updateTemplate id patch)) :
      StoreActs ω s (.updateTemplate id patch) (.ok (patchedTemplate ω.clock patch cur))
        { s with templates := s.templates.replace (patchedTemplate ω.clock patch cur) }
  | deleteTemplate {id : String} (admits : Admits s (.deleteTemplate id)) :
      StoreActs ω s (.deleteTemplate id) (.ok ()) { s with templates := s.templates.erase id }
  | createUsage {input : LicenseUsageInput} (admits : Admits s (.createUsage input)) :
      StoreActs ω s (.createUsage input) (.ok (createdUsage ω input))
        { s with usages := s.usages.put (createdUsage ω input) }
  | updateUsage {id : String} {patch : LicenseUsagePatch} {cur : LicenseUsage}
      (row : s.usages.find id = some cur) (admits : Admits s (.updateUsage id patch)) :
      StoreActs ω s (.updateUsage id patch) (.ok (patchedUsage ω.clock patch cur))
        { s with usages := s.usages.replace (patchedUsage ω.clock patch cur) }
  | createKey {input : LicenseKeyInput} (admits : Admits s (.createKey input)) :
      StoreActs ω s (.createKey input) (.ok (createdKey ω input))
        { s with keys := s.keys.put (createdKey ω input) }
  | updateKey {id : String} {patch : LicenseKeyPatch} {cur : LicenseKey}
      (row : s.keys.find id = some cur) (admits : Admits s (.updateKey id patch)) :
      StoreActs ω s (.updateKey id patch) (.ok (patchedKey ω.clock patch cur))
        { s with keys := s.keys.replace (patchedKey ω.clock patch cur) }
  | appendAudit {input : AuditLogInput} :
      StoreActs ω s (.appendAudit input) (.ok (appended ω input))
        { s with audit := s.audit.put (appended ω input) }
  | recordTrialIssuance {input : TrialIssuanceInput} (admits : Admits s (.recordTrialIssuance input)) :
      StoreActs ω s (.recordTrialIssuance input) (.ok (createdIssuance ω input))
        { s with trialIssuances := s.trialIssuances.put (createdIssuance ω input) }
  | deleteTrialIssuance {id : String} :
      StoreActs ω s (.deleteTrialIssuance id) (.ok ())
        { s with trialIssuances := s.trialIssuances.erase id }

theorem StoreActs.ok_or_unchanged {ω : Env} {s s' : Store} {o : StorageOp} {a : o.Ans}
    (h : StoreActs ω s o a s') : (∃ res, a = .ok res) ∨ s' = s := by
  cases h
  case read    => exact .inr rfl
  case refused => exact .inr rfl
  all_goals exact .inl ⟨_, rfl⟩

end Memory

namespace Go

open Memory

variable {ω : Env} {s : Store} {id : String}

theorem licenseConflict_eq_none {p : Memory.Port} {input : LicenseInput} :
    licenseConflict p input s.toState = none ↔ Admits s (.createLicense input) := by
  rw [licenseConflict, List.findSome?_eq_none_iff]
  apply forall₂_congr
  intro l _
  by_cases hk : l.licenseKey = input.licenseKey
  case pos => simp [hk]
  case neg => simp [hk, licensableScope]

theorem acts_ite {c : Prop} [Decidable c] {o : StorageOp} {x y : o.Ans × State}
    (hx : c → StoreActs ω s o x.1 { s with toState := x.2 })
    (hy : ¬c → StoreActs ω s o y.1 { s with toState := y.2 }) :
    StoreActs ω s o (if c then x else y).1 { s with toState := (if c then x else y).2 } := by
  by_cases h : c
  case pos => simpa [h] using hx h
  case neg => simpa [h] using hy h

theorem createLicense_acts {input : LicenseInput} :
    StoreActs ω s (.createLicense input) (createLicense memory ω input s.toState).1
      { s with toState := (createLicense memory ω input s.toState).2 } := by
  simp only [createLicense]
  split
  case h_1 e he =>
    apply StoreActs.refused
    simp [← licenseConflict_eq_none (p := memory), he]
  case h_2 hn => exact .createLicense (licenseConflict_eq_none.mp hn)

theorem updateLicense_acts {patch : LicensePatch} :
    StoreActs ω s (.updateLicense id patch) (updateLicense memory.unique ω.clock id patch s.toState).1
      { s with toState := (updateLicense memory.unique ω.clock id patch s.toState).2 } := by
  simp only [updateLicense, getLicense]
  split
  case h_1 hn =>
    apply StoreActs.refused
    simp [Admits, Table.Has, hn]
  case h_2 cur hf =>
    split
    case h_1 key hk =>
      obtain ⟨hp, hc⟩ := Option.filter_eq_some_iff.mp hk
      obtain ⟨l, hl, hne, he⟩ : ∃ l ∈ s.licenses.rows, l.id ≠ id ∧ l.licenseKey = key := by
        simpa using hc
      exact .refused fun ha => ha.right l hl hne (he ▸ hp)
    case h_2 hk =>
      refine .updateLicense hf ⟨Table.has_iff.mpr ⟨cur, hf⟩, fun l hl hne hp => ?_⟩
      apply Option.filter_eq_none_iff.mp hk _ hp
      simpa using ⟨l, hl, hne, rfl⟩

theorem deleteLicense_acts :
    StoreActs ω s (.deleteLicense id) (deleteLicense memory id s.toState).1
      { s with toState := (deleteLicense memory id s.toState).2 } := by
  simp only [deleteLicense, getLicense]
  refine acts_ite (fun hn => ?_) fun hl => acts_ite (fun hu => ?_) fun hu => ?_
  case refine_1 => exact .refused fun ha => Table.not_has_iff.mpr hn ha.left
  case refine_2 =>
    obtain ⟨u, hm, he, hs⟩ : ∃ u ∈ s.usages.rows, u.licenseId = id ∧ u.status = .active := by
      simpa using hu
    exact .refused fun ha => ha.right u hm he hs
  case refine_3 => exact .deleteLicense ⟨not_not.mp (Table.not_has_iff.not.mpr hl), by simpa using hu⟩

theorem createScope_acts {input : LicenseScopeInput} :
    StoreActs ω s (.createScope input) (createScope memory ω input s.toState).1
      { s with toState := (createScope memory ω input s.toState).2 } := by
  simp only [createScope]
  refine acts_ite (fun hr => ?_) fun hr => ?_
  case refine_1 => exact .refused (by simpa [Admits] using hr)
  case refine_2 => exact .createScope (by simpa [Admits] using hr)

theorem updateScope_acts {patch : LicenseScopePatch} :
    StoreActs ω s (.updateScope id patch) (updateScope memory ω.clock id patch s.toState).1
      { s with toState := (updateScope memory ω.clock id patch s.toState).2 } := by
  simp only [updateScope]
  split
  case h_1 hn     => exact .refused (by simp [Admits, Table.Has, hn])
  case h_2 cur hf => exact .updateScope hf

theorem deleteScope_acts :
    StoreActs ω s (.deleteScope id) (deleteScope memory id s.toState).1
      { s with toState := (deleteScope memory id s.toState).2 } := by
  simp only [deleteScope]
  refine acts_ite (fun hn => ?_) fun hr => acts_ite (fun hl => ?_) fun hl =>
    acts_ite (fun ht => ?_) fun ht => ?_
  case refine_1 => exact .refused fun ha => Table.not_has_iff.mpr hn ha.left
  case refine_2 =>
    obtain ⟨l, hm, he⟩ : ∃ l ∈ s.licenses.rows, l.scopeId = some id := by simpa using hl
    exact .refused fun ha => ha.right.left l hm he
  case refine_3 =>
    obtain ⟨t, hm, he⟩ : ∃ t ∈ s.templates.rows, t.scopeId = some id := by simpa using ht
    exact .refused fun ha => ha.right.right t hm he
  case refine_4 =>
    refine .deleteScope ⟨not_not.mp (Table.not_has_iff.not.mpr hr), ?_, ?_⟩
    · simpa using hl
    · simpa using ht

theorem createTemplate_acts {input : LicenseTemplateInput} :
    StoreActs ω s (.createTemplate input) (createTemplate memory ω.clock ω.freshId input s.toState).1
      { s with toState := (createTemplate memory ω.clock ω.freshId input s.toState).2 } := by
  simp only [createTemplate]
  refine acts_ite (fun ht => ?_) fun ht => ?_
  case refine_1 =>
    obtain ⟨t, hm, he⟩ : ∃ t ∈ s.templates.rows, t.scopeId = input.scopeId ∧ t.name = input.name := by
      simpa using ht
    exact .refused fun ha => ha.left t hm (Prod.ext he.left he.right)
  case refine_2 =>
    split
    case h_1 id hp =>
      obtain ⟨hp, hn⟩ := Option.filter_eq_some_iff.mp hp
      exact .refused fun ha => Table.not_has_iff.mpr hn (ha.right id hp)
    case h_2 hp =>
      refine .createTemplate ⟨fun t hm he => ?_, fun id hi => ?_⟩
      case refine_1 =>
        obtain ⟨hs, hn⟩ := Prod.mk.inj he
        apply ht
        simpa using ⟨t, hm, hs, hn⟩
      case refine_2 =>
      exact Option.isSome_iff_ne_none.mpr (by simpa using Option.filter_eq_none_iff.mp hp id hi)

theorem updateTemplate_acts {patch : LicenseTemplatePatch} :
    StoreActs ω s (.updateTemplate id patch) (updateTemplate memory ω.clock id patch s.toState).1
      { s with toState := (updateTemplate memory ω.clock id patch s.toState).2 } := by
  simp only [updateTemplate]
  split
  case h_1 hn => exact .refused (by simp [Admits, Table.Has, hn])
  case h_2 cur hf =>
    split
    case h_1 e he  => exact .refused (by simp [Admits, he])
    case h_2 hc => exact .updateTemplate hf ⟨Table.has_iff.mpr ⟨cur, hf⟩, hc⟩

theorem deleteTemplate_acts :
    StoreActs ω s (.deleteTemplate id) (deleteTemplate memory id s.toState).1
      { s with toState := (deleteTemplate memory id s.toState).2 } := by
  simp only [deleteTemplate]
  refine acts_ite (fun hn => ?_) fun ht => acts_ite (fun hl => ?_) fun hl => ?_
  case refine_1 => exact .refused fun ha => Table.not_has_iff.mpr hn ha.left
  case refine_2 =>
    obtain ⟨l, hm, he⟩ : ∃ l ∈ s.licenses.rows, l.templateId = some id := by simpa using hl
    exact .refused fun ha => ha.right l hm he
  case refine_3 => exact .deleteTemplate ⟨not_not.mp (Table.not_has_iff.not.mpr ht), by simpa using hl⟩

theorem createUsage_acts {input : LicenseUsageInput} :
    StoreActs ω s (.createUsage input) (createUsage memory.unique ω input s.toState).1
      { s with toState := (createUsage memory.unique ω input s.toState).2 } := by
  simp only [createUsage]
  refine acts_ite (fun hu => ?_) fun hu => ?_
  case refine_1 =>
    have ⟨u, hm, ha⟩ := List.any_eq_true.mp hu.right
    exact .refused fun h => h hu.left u hm ha
  case refine_2 =>
    refine .createUsage fun hs u hm ha => hu ⟨hs, ?_⟩
    exact List.any_eq_true.mpr ⟨u, hm, ha⟩

theorem updateUsage_acts {patch : LicenseUsagePatch} :
    StoreActs ω s (.updateUsage id patch) (updateUsage memory.unique ω.clock id patch s.toState).1
      { s with toState := (updateUsage memory.unique ω.clock id patch s.toState).2 } := by
  simp only [updateUsage, getUsage]
  split
  case h_1 hn =>
    apply StoreActs.refused
    rintro ⟨cur, hf, _⟩
    simp [hn] at hf
  case h_2 cur hf =>
    refine acts_ite (fun hu => ?_) fun hu => ?_
    case refine_1 =>
      obtain ⟨u, hm, hne, ha⟩ : ∃ u ∈ s.usages.rows, u.id ≠ id ∧
          isActiveSeat cur.licenseId cur.fingerprint u := by simpa using hu.right.right
      apply StoreActs.refused
      rintro ⟨cur', hf', h⟩
      cases hf.symm.trans hf'
      exact h hu.left hu.right.left u hm hne ha
    case refine_2 =>
      refine .updateUsage hf ⟨cur, hf, fun hp hs u hm hne ha => hu ⟨hp, hs, ?_⟩⟩
      simpa using ⟨u, hm, hne, ha⟩

theorem createKey_acts {input : LicenseKeyInput} :
    StoreActs ω s (.createKey input) (createKey memory ω input s.toState).1
      { s with toState := (createKey memory ω input s.toState).2 } := by
  simp only [createKey]
  refine acts_ite (fun hk => ?_) fun hk => acts_ite (fun hs => ?_) fun hs => ?_
  case refine_1 =>
    have ⟨k, hm, he⟩ : ∃ k ∈ s.keys.rows, k.kid = input.kid := by simpa using hk
    exact .refused fun ha => ha.left k hm he
  case refine_2 =>
    have ⟨k, hm, ha⟩ := List.any_eq_true.mp hs.right.right
    exact .refused fun h => h.right hs.left hs.right.left k hm ha
  case refine_3 =>
    refine .createKey ⟨by simpa using hk, fun hr ha k hm hk => hs ⟨hr, ha, ?_⟩⟩
    exact List.any_eq_true.mpr ⟨k, hm, hk⟩

theorem updateKey_acts {patch : LicenseKeyPatch} :
    StoreActs ω s (.updateKey id patch) (updateKey memory ω.clock id patch s.toState).1
      { s with toState := (updateKey memory ω.clock id patch s.toState).2 } := by
  simp only [updateKey]
  split
  case h_1 hn =>
    apply StoreActs.refused
    rintro ⟨cur, hf, _⟩
    simp [hn] at hf
  case h_2 cur hf =>
    refine acts_ite (fun hk => ?_) fun hk => ?_
    case refine_1 =>
      obtain ⟨k, hm, hne, ha⟩ : ∃ k ∈ s.keys.rows, k.id ≠ id ∧ isActiveSigning cur.scopeId k := by
        simpa using hk.right.right.right
      apply StoreActs.refused
      rintro ⟨cur', hf', h⟩
      cases hf.symm.trans hf'
      exact h hk.left hk.right.left hk.right.right.left k hm hne ha
    case refine_2 =>
      refine .updateKey hf ⟨cur, hf, fun hp hs hr k hm hne ha => hk ⟨hp, hs, hr, ?_⟩⟩
      simpa using ⟨k, hm, hne, ha⟩

theorem recordTrialIssuance_acts {input : TrialIssuanceInput} :
    StoreActs ω s (.recordTrialIssuance input) (recordTrialIssuance memory ω input s).1
      (recordTrialIssuance memory ω input s).2 := by
  simp only [recordTrialIssuance]
  split
  case isTrue h  => exact .refused (by simpa [Admits] using h)
  case isFalse h => exact .recordTrialIssuance (by simpa [Admits] using h)

theorem execStorage_acts (ω : Env) (s : Store) (o : StorageOp) :
    StoreActs ω s o (execStorage ω o s).1 (execStorage ω o s).2 := by
  cases o
  case createLicense       => exact createLicense_acts
  case updateLicense       => exact updateLicense_acts
  case deleteLicense       => exact deleteLicense_acts
  case createScope         => exact createScope_acts
  case updateScope         => exact updateScope_acts
  case deleteScope         => exact deleteScope_acts
  case createTemplate      => exact createTemplate_acts
  case updateTemplate      => exact updateTemplate_acts
  case deleteTemplate      => exact deleteTemplate_acts
  case createUsage         => exact createUsage_acts
  case updateUsage         => exact updateUsage_acts
  case createKey           => exact createKey_acts
  case updateKey           => exact updateKey_acts
  case appendAudit         => exact .appendAudit
  case recordTrialIssuance => exact recordTrialIssuance_acts
  case deleteTrialIssuance => exact .deleteTrialIssuance
  all_goals exact .read trivial

def Unchanged (s : Store) (r : Request) : Prop :=
  ∀ e, (execStorage r.1 r.2 s).1 = .error e → storageStep s r = s

theorem unchanged (s : Store) (r : Request) : Unchanged s r := by
  intro e he
  apply (execStorage_acts r.1 s r.2).ok_or_unchanged.resolve_left
  intro ⟨_, hr⟩
  exact nomatch he.symm.trans hr

end Go

end Licensing
