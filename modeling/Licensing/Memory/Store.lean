import Licensing.Memory.Templates
import Licensing.Model.StorageTx

-- Every operation of the adapters that keep the rows in memory. A scan of a table meets the rows in
-- the order of the table, where Go leaves the order open.

namespace Licensing

namespace Memory

structure Store extends State where
  trialIssuances : Table TrialIssuance.id := .ofList [] List.nodup_nil

variable (port : Port)

def createdLicense (ω : Env) (input : LicenseInput) : License where
  id             := ω.freshId
  scopeId        := input.scopeId
  templateId     := input.templateId
  licensableType := input.licensableType
  licensableId   := input.licensableId
  licenseKey     := input.licenseKey
  status         := input.status
  maxUsages      := input.maxUsages
  activatedAt    := input.activatedAt
  expiresAt      := input.expiresAt
  graceUntil     := input.graceUntil
  meta_          := input.meta_
  createdAt      := ω.clock
  updatedAt      := ω.clock
  isTrial        := false

-- The first row that the new license would clash with.
def licenseConflict (input : LicenseInput) (s : State) : Option Error :=
  s.licenses.rows.findSome? fun row =>
    if row.licenseKey = input.licenseKey then
      some (newError .licenseKeyConflict ("license_key already exists: " ++ input.licenseKey))
    else if row.licensableType = input.licensableType ∧ row.licensableId = input.licensableId ∧
        row.scopeId = input.scopeId then
      some (port.unique "licensable_scope" (input.licensableType ++ ":" ++ input.licensableId ++ ":" ++
        input.scopeId.getD "null"))
    else none

def createLicense (ω : Env) (input : LicenseInput) (s : State) : Except Error License × State :=
  match licenseConflict port input s with
  | some e => (.error e, s)
  | none   =>
    let row := createdLicense ω input
    (.ok row, { s with licenses := s.licenses.put row })

def acceptsLicense (f : LicenseFilter) (l : License) : Bool :=
  f.scopeId.all (· = l.scopeId) && (f.status.isEmpty || f.status.contains l.status) &&
    f.licensableType.all (· = l.licensableType) && f.licensableId.all (· = l.licensableId) &&
    f.templateId.all (· = l.templateId)

def listLicenses (filter : LicenseFilter) (page : PageRequest) (s : State) : Page License :=
  paginate port.cursors (fun l => ⟨l.createdAt, l.id⟩) (port.limit page.limit) page.cursor
    (s.licenses.rows.filter (acceptsLicense filter))

def findLicensesByLicensable (query : FindByLicensableQuery) (s : State) : List License :=
  let rows := s.licenses.rows.filter fun l =>
    l.licensableType = query.type ∧ l.licensableId = query.id ∧ query.scopeId.all (· = l.scopeId)
  rows.insertionSort fun a b =>
    port.cursors.keyOf ⟨b.createdAt, b.id⟩ ≤ port.cursors.keyOf ⟨a.createdAt, a.id⟩

def deleteLicense (id : String) (s : State) : Except Error Unit × State :=
  if (getLicense id s).isNone then
    (.error (newError .licenseNotFound ("license not found: " ++ id)), s)
  else if s.usages.rows.any fun u => u.licenseId = id ∧ u.status = .active then
    (.error (port.unique "license_id" (id ++ " (has active usages)")), s)
  else (.ok (), { s with licenses := s.licenses.erase id })

def createdScope (ω : Env) (input : LicenseScopeInput) : LicenseScope where
  id        := ω.freshId
  slug      := input.slug
  name      := input.name
  meta_     := input.meta_
  createdAt := ω.clock
  updatedAt := ω.clock

def createScope (ω : Env) (input : LicenseScopeInput) (s : State) :
    Except Error LicenseScope × State :=
  if s.scopes.rows.any (·.slug = input.slug) then (.error (port.unique "slug" input.slug), s)
  else
    let row := createdScope ω input
    (.ok row, { s with scopes := s.scopes.put row })

def listScopes (filter : LicenseScopeFilter) (page : PageRequest) (s : State) : Page LicenseScope :=
  paginate port.cursors (fun r => ⟨r.createdAt, r.id⟩) (port.limit page.limit) page.cursor
    (s.scopes.rows.filter fun r => filter.slug.all (· = r.slug))

def patchedScope (now : String) (patch : LicenseScopePatch) (r : LicenseScope) : LicenseScope :=
  { r with
    name      := patch.name.getD r.name
    meta_     := patch.meta_.getD r.meta_
    updatedAt := now }

def updateScope (now id : String) (patch : LicenseScopePatch) (s : State) :
    Except Error LicenseScope × State :=
  match s.scopes.find id with
  | none     => (.error (port.unique "pk" id), s)
  | some cur =>
    let next := patchedScope now patch cur
    (.ok next, { s with scopes := s.scopes.replace next })

def deleteScope (id : String) (s : State) : Except Error Unit × State :=
  if (s.scopes.find id).isNone then
    (.error (newError .licenseNotFound ("scope not found: " ++ id)), s)
  else if s.licenses.rows.any fun l => l.scopeId = some id then
    (.error (port.unique "scope_id" (id ++ " (referenced by license)")), s)
  else if s.templates.rows.any fun t => t.scopeId = some id then
    (.error (port.unique "scope_id" (id ++ " (referenced by template)")), s)
  else (.ok (), { s with scopes := s.scopes.erase id })

def listTemplates (filter : LicenseTemplateFilter) (page : PageRequest) (s : State) :
    Page LicenseTemplate :=
  paginate port.cursors (fun t => ⟨t.createdAt, t.id⟩) (port.limit page.limit) page.cursor
    (s.templates.rows.filter fun t => filter.scopeId.all (· = t.scopeId) &&
      filter.name.all (· = t.name) && filter.parentId.all (· = t.parentId))

def isActiveSigning (scopeId : Option String) (k : LicenseKey) : Bool :=
  k.role = .signing ∧ k.state = .active ∧ k.scopeId = scopeId

def createdKey (ω : Env) (input : LicenseKeyInput) : LicenseKey where
  id            := ω.freshId
  scopeId       := input.scopeId
  kid           := input.kid
  alg           := input.alg
  role          := input.role
  state         := input.state
  publicPem     := input.publicPem
  privatePemEnc := input.privatePemEnc
  rotatedFrom   := input.rotatedFrom
  rotatedAt     := input.rotatedAt
  notBefore     := input.notBefore
  notAfter      := input.notAfter
  meta_         := input.meta_
  createdAt     := ω.clock
  updatedAt     := ω.clock

def createKey (ω : Env) (input : LicenseKeyInput) (s : State) : Except Error LicenseKey × State :=
  if s.keys.rows.any (·.kid = input.kid) then (.error (port.unique "kid" input.kid), s)
  else if input.role = .signing ∧ input.state = .active ∧
      s.keys.rows.any (isActiveSigning input.scopeId) then
    (.error (port.unique "scope_active_signing" (input.scopeId.getD "null")), s)
  else
    let row := createdKey ω input
    (.ok row, { s with keys := s.keys.put row })

def patchedKey (now : String) (patch : LicenseKeyPatch) (k : LicenseKey) : LicenseKey :=
  { k with
    state       := patch.state.getD k.state
    rotatedFrom := patch.rotatedFrom.getD k.rotatedFrom
    rotatedAt   := patch.rotatedAt.getD k.rotatedAt
    notAfter    := patch.notAfter.getD k.notAfter
    meta_       := patch.meta_.getD k.meta_
    updatedAt   := now }

def updateKey (now id : String) (patch : LicenseKeyPatch) (s : State) :
    Except Error LicenseKey × State :=
  match s.keys.find id with
  | none     => (.error (port.unique "pk" id), s)
  | some cur =>
    if patch.state = some .active ∧ cur.state ≠ .active ∧ cur.role = .signing ∧
        s.keys.rows.any fun k => k.id ≠ id ∧ isActiveSigning cur.scopeId k then
      (.error (port.unique "scope_active_signing" (cur.scopeId.getD "null")), s)
    else
      let next := patchedKey now patch cur
      (.ok next, { s with keys := s.keys.replace next })

def acceptsAudit (f : AuditLogFilter) (s : State) (e : AuditLogEntry) : Bool :=
  f.licenseId.all (· = e.licenseId) && f.scopeId.all (· = e.scopeId) && f.event.all (· = e.event) &&
    f.events.all (fun es => es.isEmpty || es.contains e.event) && f.actor.all (· = e.actor) &&
    f.since.all (fun since => ¬e.occurredAt < since) && f.until_.all (fun u => e.occurredAt < u) &&
    ((f.licensableType.isNone && f.licensableId.isNone) ||
      (e.licenseId.bind (getLicense · s)).any fun parent =>
        f.licensableType.all (· = parent.licensableType) && f.licensableId.all (· = parent.licensableId))

def listAudit (filter : AuditLogFilter) (page : PageRequest) (s : State) : Page AuditLogEntry :=
  paginate port.cursors (fun e => ⟨e.occurredAt, e.id⟩) (port.limit page.limit) page.cursor
    (s.audit.rows.filter (acceptsAudit filter s))

def createdIssuance (ω : Env) (input : TrialIssuanceInput) : TrialIssuance where
  id              := ω.freshId
  templateId      := input.templateId
  fingerprintHash := input.fingerprintHash
  issuedAt        := ω.clock

def recordTrialIssuance (ω : Env) (input : TrialIssuanceInput) (s : Store) :
    Except Error TrialIssuance × Store :=
  if s.trialIssuances.rows.any fun r =>
      r.templateId = input.templateId ∧ r.fingerprintHash = input.fingerprintHash then
    (.error (port.unique "template_fingerprint"
      (input.templateId.getD "null" ++ ":" ++ input.fingerprintHash)), s)
  else
    let row := createdIssuance ω input
    (.ok row, { s with trialIssuances := s.trialIssuances.put row })

def findTrialIssuance (query : TrialIssuanceLookup) (s : Store) : Option TrialIssuance :=
  let rows := s.trialIssuances.rows.filter fun r =>
    r.templateId = query.templateId ∧ r.fingerprintHash = query.fingerprintHash
  rows.foldl (fun best row => if best.all (·.issuedAt < row.issuedAt) then some row else best) none

def deleteTrialIssuance (id : String) (s : Store) : Store :=
  { s with trialIssuances := s.trialIssuances.erase id }

end Memory

namespace Go

open Memory

def getLicenseStats (now : String) (filter : LicenseStatsFilter) (s : State) : LicenseStats :=
  let nowMs := msFromIso now
  let rows := s.licenses.rows.filter fun l => filter.scopeId.all (· = l.scopeId)
  let usages := s.usages.rows.filter fun u =>
    u.status = .active && (rows.map License.id).contains u.licenseId
  let events := s.audit.rows.filter fun e =>
    ¬e.occurredAt < isoFromMs (nowMs - thirtyDaysMs) && filter.scopeId.all (· = e.scopeId)
  computeLicenseStats {
    licenses              := rows
    activeUsageLicenseIds := usages.map LicenseUsage.licenseId
    auditEvents           := events.map AuditLogEntry.event
    nowMs                 := nowMs }

-- An operation on the tables that the trial issuances are not among.
def onState {α : Type} (f : State → α × State) (s : Store) : α × Store :=
  ((f s.toState).1, { s with toState := (f s.toState).2 })

def execStorage (ω : Env) : (o : StorageOp) → Store → o.Ans × Store
  | .createLicense input           => onState (createLicense memory ω input)
  | .getLicense id                 => fun s => (.ok (getLicense id s.toState), s)
  | .getLicenseByKey key           => fun s => (.ok (getLicenseByKey key s.toState), s)
  | .listLicenses f page           => fun s => (.ok (listLicenses memory f page s.toState), s)
  | .findLicensesByLicensable q    => fun s => (.ok (findLicensesByLicensable memory q s.toState), s)
  | .updateLicense id patch        => onState (updateLicense memory.unique ω.clock id patch)
  | .deleteLicense id              => onState (deleteLicense memory id)
  | .createScope input             => onState (createScope memory ω input)
  | .getScope id                   => fun s => (.ok (s.scopes.find id), s)
  | .getScopeBySlug slug           => fun s => (.ok (s.scopes.rows.find? (·.slug = slug)), s)
  | .listScopes f page             => fun s => (.ok (listScopes memory f page s.toState), s)
  | .updateScope id patch          => onState (updateScope memory ω.clock id patch)
  | .deleteScope id                => onState (deleteScope memory id)
  | .createTemplate input          => onState (createTemplate memory ω.clock ω.freshId input)
  | .getTemplate id                => fun s => (.ok (s.templates.find id), s)
  | .listTemplates f page          => fun s => (.ok (listTemplates memory f page s.toState), s)
  | .updateTemplate id patch       => onState (updateTemplate memory ω.clock id patch)
  | .deleteTemplate id             => onState (deleteTemplate memory id)
  | .createUsage input             => onState (createUsage memory.unique ω input)
  | .getUsage id                   => fun s => (.ok (getUsage id s.toState), s)
  | .listUsages f page             => fun s => (.ok (memory.listUsages f page s.toState), s)
  | .updateUsage id patch          => onState (updateUsage memory.unique ω.clock id patch)
  | .createKey input               => onState (createKey memory ω input)
  | .getKey id                     => fun s => (.ok (s.keys.find id), s)
  | .getKeyByKid kid               => fun s => (.ok (s.keys.rows.find? (·.kid = kid)), s)
  | .listKeys f page               => fun s => (.ok (memory.listKeys f page s.toState), s)
  | .updateKey id patch            => onState (updateKey memory ω.clock id patch)
  | .appendAudit input             => onState fun s => ((appendAudit ω input s).map .ok id)
  | .getAudit id                   => fun s => (.ok (s.audit.find id), s)
  | .listAudit f page              => fun s => (.ok (listAudit memory f page s.toState), s)
  | .recordTrialIssuance input     => recordTrialIssuance memory ω input
  | .findTrialIssuance q           => fun s => (.ok (findTrialIssuance q s), s)
  | .deleteTrialIssuance id        => fun s => (.ok (), deleteTrialIssuance id s)
  | .getLicenseStats f             => fun s => (.ok (getLicenseStats ω.clock f s.toState), s)

-- An operation on a store, with the clock and the random numbers that it finds.
abbrev Request := Env × StorageOp

def storageStep (s : Store) (r : Request) : Store :=
  (execStorage r.1 r.2 s).2

end Go

end Licensing
