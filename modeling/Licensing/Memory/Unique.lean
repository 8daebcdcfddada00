import Licensing.Memory.Acts

-- The unique tuples of the rows that are kept in memory, where no index looks after them.

namespace Licensing

namespace Memory

-- The scope that a key is the active signing key of.
def signedScope (k : LicenseKey) : Option (Option String) :=
  if k.role = .signing ∧ k.state = .active then some k.scopeId else none

-- Null scopes count as equal.
structure Unique (s : Store) : Prop where
  licenseKey   : s.licenses.Unique (some ∘ License.licenseKey)
  licensable   : s.licenses.Unique (some ∘ licensableScope)
  slug         : s.scopes.Unique (some ∘ LicenseScope.slug)
  templateName : s.templates.Unique (some ∘ scopedName)
  kid          : s.keys.Unique (some ∘ LicenseKey.kid)
  signing      : s.keys.Unique signedScope

-- Two patches are not checked for all that they change: one that moves a license to another scope,
-- and one that renames a template.
def KeepsUnique (s : Store) : StorageOp → Prop
  | .updateLicense id patch => Admits s (.updateLicense id patch) →
    ∀ cur, s.licenses.find id = some cur → ∀ scopeId, patch.scopeId = some scopeId →
      ∀ l ∈ s.licenses.rows, l.id ≠ id → licensableScope l ≠ (cur.licensableType, cur.licensableId, scopeId)
  | .updateTemplate id patch => Admits s (.updateTemplate id patch) →
    ∀ cur, s.templates.find id = some cur → ∀ name, patch.name = some name →
      ∀ t ∈ s.templates.rows, t.id ≠ id → scopedName t ≠ (cur.scopeId, name)
  | _ => True

theorem signedScope_eq_some {k : LicenseKey} {scopeId : Option String} :
    signedScope k = some scopeId ↔ (k.role = .signing ∧ k.state = .active) ∧ k.scopeId = scopeId := by
  simp [signedScope]

theorem unique_empty : Unique {} where
  licenseKey   := Table.unique_nil
  licensable   := Table.unique_nil
  slug         := Table.unique_nil
  templateName := Table.unique_nil
  kid          := Table.unique_nil
  signing      := Table.unique_nil

namespace Unique

variable {ω : Env} {s : Store} {id : String}

theorem createLicense {input : LicenseInput} (h : Unique s) (ha : Admits s (.createLicense input)) :
    Unique { s with licenses := s.licenses.put (createdLicense ω input) } := by
  refine { h with licenseKey := ?_, licensable := ?_ }
  case refine_1 =>
    apply (Table.writes_put.unique_iff h.licenseKey).mpr
    intro l hl _ b hb hb'
    exact (ha l hl).left (Option.some.inj (hb'.trans hb.symm))
  case refine_2 =>
    apply (Table.writes_put.unique_iff h.licensable).mpr
    intro l hl _ b hb hb'
    exact (ha l hl).right (Option.some.inj (hb'.trans hb.symm))

theorem updateLicense_iff {patch : LicensePatch} {cur : License} (h : Unique s)
    (row : s.licenses.find id = some cur) (ha : Admits s (.updateLicense id patch)) :
    Unique { s with licenses := s.licenses.replace (patchedLicense ω.clock patch cur) } ↔
      KeepsUnique s (.updateLicense id patch) := by
  have hid : cur.id = id := Table.key_of_find row
  have w : s.licenses.Writes (patchedLicense ω.clock patch cur) _ := Table.writes_replace (hid ▸ row)
  have hm : cur ∈ s.licenses.rows := Rows.mem_of_find row
  apply Iff.intro
  case mp =>
    intro h' _ cur' row' scopeId hp l hl hne he
    cases row.symm.trans row'
    have hf := Table.Free.of_unique w h'.licensable
    refine hf l hl (hid ▸ hne) _ rfl (congrArg some (he.trans ?_))
    simp [licensableScope, patchedLicense, hp]
  case mpr =>
    intro hk
    refine { h with licenseKey := ?_, licensable := ?_ }
    case refine_1 =>
      apply (w.unique_iff h.licenseKey).mpr
      cases hp : patch.licenseKey
      case none => exact h.licenseKey.free hm rfl (by simp [patchedLicense, hp])
      case some key =>
        intro l hl hne b hb hb'
        apply ha.right l hl (hid ▸ hne)
        simpa [patchedLicense, hp] using hb.trans hb'.symm
    case refine_2 =>
      apply (w.unique_iff h.licensable).mpr
      cases hp : patch.scopeId
      case none => exact h.licensable.free hm rfl (by simp [licensableScope, patchedLicense, hp])
      case some scopeId =>
        intro l hl hne b hb hb'
        apply hk ha cur row scopeId hp l hl (hid ▸ hne)
        simpa [licensableScope, patchedLicense, hp] using hb'.trans hb.symm

theorem createScope {input : LicenseScopeInput} (h : Unique s) (ha : Admits s (.createScope input)) :
    Unique { s with scopes := s.scopes.put (createdScope ω input) } := by
  refine { h with slug := (Table.writes_put.unique_iff h.slug).mpr ?_ }
  intro r hr _ b hb hb'
  exact ha r hr (Option.some.inj (hb'.trans hb.symm))

theorem updateScope {patch : LicenseScopePatch} {cur : LicenseScope} (h : Unique s)
    (row : s.scopes.find id = some cur) :
    Unique { s with scopes := s.scopes.replace (patchedScope ω.clock patch cur) } := by
  have w : s.scopes.Writes (patchedScope ω.clock patch cur) _ :=
    Table.writes_replace (Table.key_of_find row ▸ row)
  have hm : cur ∈ s.scopes.rows := Rows.mem_of_find row
  exact { h with slug := (w.unique_iff h.slug).mpr (h.slug.free hm rfl rfl) }

theorem createTemplate {input : LicenseTemplateInput} (h : Unique s)
    (ha : Admits s (.createTemplate input)) :
    Unique { s with templates := s.templates.put (createdTemplate ω.clock ω.freshId input) } := by
  refine { h with templateName := (Table.writes_put.unique_iff h.templateName).mpr ?_ }
  intro t ht _ b hb hb'
  exact ha.left t ht (Option.some.inj (hb'.trans hb.symm))

theorem updateTemplate_iff {patch : LicenseTemplatePatch} {cur : LicenseTemplate} (h : Unique s)
    (row : s.templates.find id = some cur) (ha : Admits s (.updateTemplate id patch)) :
    Unique { s with templates := s.templates.replace (patchedTemplate ω.clock patch cur) } ↔
      KeepsUnique s (.updateTemplate id patch) := by
  have hid : cur.id = id := Table.key_of_find row
  have w : s.templates.Writes (patchedTemplate ω.clock patch cur) _ := Table.writes_replace (hid ▸ row)
  have hm : cur ∈ s.templates.rows := Rows.mem_of_find row
  apply Iff.intro
  case mp =>
    intro h' _ cur' row' name hp t ht hne he
    cases row.symm.trans row'
    have hf := Table.Free.of_unique w h'.templateName
    refine hf t ht (hid ▸ hne) _ rfl (congrArg some (he.trans ?_))
    simp [scopedName, patchedTemplate, hp]
  case mpr =>
    intro hk
    refine { h with templateName := (w.unique_iff h.templateName).mpr ?_ }
    cases hp : patch.name
    case none => exact h.templateName.free hm rfl (by simp [scopedName, patchedTemplate, hp])
    case some name =>
      intro t ht hne b hb hb'
      apply hk ha cur row name hp t ht (hid ▸ hne)
      simpa [scopedName, patchedTemplate, hp] using hb'.trans hb.symm

theorem createKey {input : LicenseKeyInput} (h : Unique s) (ha : Admits s (.createKey input)) :
    Unique { s with keys := s.keys.put (createdKey ω input) } := by
  refine { h with kid := ?_, signing := ?_ }
  case refine_1 =>
    apply (Table.writes_put.unique_iff h.kid).mpr
    intro k hk _ b hb hb'
    exact ha.left k hk (Option.some.inj (hb'.trans hb.symm))
  case refine_2 =>
    apply (Table.writes_put.unique_iff h.signing).mpr
    intro k hm _ b hb hb'
    have ⟨hi, hb⟩ := signedScope_eq_some.mp hb
    have ⟨hk, hb'⟩ := signedScope_eq_some.mp hb'
    apply ha.right hi.left hi.right k hm
    simpa [isActiveSigning] using ⟨hk.left, hk.right, hb'.trans hb.symm⟩

-- The role and the scope of a key are not in a patch: its state decides.
theorem updateKey {patch : LicenseKeyPatch} {cur : LicenseKey} (h : Unique s)
    (row : s.keys.find id = some cur) (ha : Admits s (.updateKey id patch)) :
    Unique { s with keys := s.keys.replace (patchedKey ω.clock patch cur) } := by
  have hid : cur.id = id := Table.key_of_find row
  have w : s.keys.Writes (patchedKey ω.clock patch cur) _ := Table.writes_replace (hid ▸ row)
  have hm : cur ∈ s.keys.rows := Rows.mem_of_find row
  refine { h with kid := (w.unique_iff h.kid).mpr (h.kid.free hm rfl rfl), signing := ?_ }
  apply (w.unique_iff h.signing).mpr
  intro k hk hne b hb hb'
  have ⟨⟨hr, hs⟩, hb⟩ := signedScope_eq_some.mp hb
  by_cases hcur : cur.state = .active
  case pos =>
    apply hne
    exact h.signing k hk cur hm b hb' (signedScope_eq_some.mpr ⟨⟨hr, hcur⟩, hb⟩)
  case neg =>
    have ⟨hk', hb'⟩ := signedScope_eq_some.mp hb'
    have hp : patch.state = some .active := by
      cases hp : patch.state
      case none => simp [patchedKey, hp, hcur] at hs
      case some => simpa [patchedKey, hp] using hs
    have ⟨cur', row', ha⟩ := ha
    cases row.symm.trans row'
    apply ha hp hcur hr k hk (hid ▸ hne)
    simpa [isActiveSigning] using ⟨hk'.left, hk'.right, hb'.trans hb.symm⟩

end Unique

theorem StoreActs.unique_iff {ω : Env} {s s' : Store} {o : StorageOp} {a : o.Ans}
    (acts : StoreActs ω s o a s') (h : Unique s) : Unique s' ↔ KeepsUnique s o := by
  cases acts
  case updateLicense row admits  => exact h.updateLicense_iff row admits
  case updateTemplate row admits => exact h.updateTemplate_iff row admits
  case read hr =>
    refine iff_of_true h ?_
    cases o
    case updateLicense  => exact nomatch hr
    case updateTemplate => exact nomatch hr
    all_goals trivial
  case refused hn =>
    refine iff_of_true h ?_
    cases o
    case updateLicense  => exact fun ha => absurd ha hn
    case updateTemplate => exact fun ha => absurd ha hn
    all_goals trivial
  all_goals refine iff_of_true ?_ trivial
  case createLicense admits  => exact h.createLicense admits
  case createScope admits    => exact h.createScope admits
  case updateScope row       => exact h.updateScope row
  case createTemplate admits => exact h.createTemplate admits
  case createKey admits      => exact h.createKey admits
  case updateKey row admits  => exact h.updateKey row admits
  case deleteLicense =>
    exact { h with licenseKey := h.licenseKey.erase, licensable := h.licensable.erase }
  case deleteScope    => exact { h with slug := h.slug.erase }
  case deleteTemplate => exact { h with templateName := h.templateName.erase }
  all_goals exact { h with }

end Memory

namespace Go

open Memory

theorem storage_unique_iff (rs : List Request) :
    Machine.Always storageStep Unique {} rs ∧ Machine.Each storageStep Unchanged {} rs ↔
      Machine.Each storageStep (fun s r => KeepsUnique s r.2) {} rs := by
  rw [and_iff_left (Machine.Each.all unchanged)]
  exact Machine.always_iff_each (fun s r => (execStorage_acts r.1 s r.2).unique_iff) unique_empty

def userLicense (key : String) (scopeId : Option String) : LicenseInput where
  scopeId        := scopeId
  templateId     := none
  licensableType := "User"
  licensableId   := "1"
  licenseKey     := key
  status         := .active
  maxUsages      := 1
  activatedAt    := none
  expiresAt      := none
  graceUntil     := none
  meta_          := []

-- The second license of a user moves to the scope of the first one.
def moveToScope : List Request := [
  ({ freshId := "a" }, .createLicense (userLicense "A" none)),
  ({ freshId := "b" }, .createLicense (userLicense "B" (some "s"))),
  ({}, .updateLicense "b" { scopeId := some none })]

theorem not_storage_unique : ¬∀ rs, Machine.Always storageStep Unique {} rs ∧
    Machine.Each storageStep Unchanged {} rs := by
  intro h
  have hu := (h moveToScope).left.last.licensable
  let rows := (Machine.run storageStep {} moveToScope).licenses.rows
  have hrows : rows.map (fun l => (l.id, licensableScope l)) =
      [("a", "User", "1", none), ("b", "User", "1", none)] := by decide
  have ⟨l, hl, he⟩ : ∃ l ∈ rows, (l.id, licensableScope l) = ("a", "User", "1", none) :=
    List.mem_map.mp (by simp [hrows])
  have ⟨l', hl', he'⟩ : ∃ l ∈ rows, (l.id, licensableScope l) = ("b", "User", "1", none) :=
    List.mem_map.mp (by simp [hrows])
  have ⟨hid, hi⟩ := Prod.mk.inj he
  have ⟨hid', hi'⟩ := Prod.mk.inj he'
  have hk := hu l hl l' hl' _ (congrArg some hi) (congrArg some hi')
  simp [hid, hid'] at hk

end Go

end Licensing
