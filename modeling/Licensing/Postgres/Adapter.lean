import Mathlib.Data.List.Infix
import Licensing.Model.Cursor
import Licensing.Model.Storage
import Licensing.Model.Time
import Licensing.Postgres.Statements

-- The storage adapters of both ports over the same tables.

namespace Licensing

open Postgres

abbrev Sql := Prog Stmt Stmt.Res Error

def query {α : Type} (q : Stmt) (f : q.Res → α) : Sql α :=
  .call q fun r => .pure (f r)

namespace Postgres

def scanLicense (iso : Int → String) (r : LicenseRow) : License where
  id             := r.id
  scopeId        := r.scopeId
  templateId     := r.templateId
  licensableType := r.licensableType
  licensableId   := r.licensableId
  licenseKey     := r.licenseKey
  status         := r.status
  maxUsages      := r.maxUsages
  activatedAt    := r.activatedAt.map iso
  expiresAt      := r.expiresAt.map iso
  graceUntil     := r.graceUntil.map iso
  meta_          := r.meta_
  createdAt      := iso r.createdAt
  updatedAt      := iso r.updatedAt
  isTrial        := r.isTrial

def scanUsage (iso : Int → String) (r : UsageRow) : LicenseUsage where
  id           := r.id
  licenseId    := r.licenseId
  fingerprint  := r.fingerprint
  status       := r.status
  registeredAt := iso r.registeredAt
  revokedAt    := r.revokedAt.map iso
  lastSeenAt   := iso r.lastSeenAt
  clientMeta   := r.clientMeta
  createdAt    := iso r.createdAt
  updatedAt    := iso r.updatedAt

def scanScope (iso : Int → String) (r : ScopeRow) : LicenseScope where
  id        := r.id
  slug      := r.slug
  name      := r.name
  meta_     := r.meta_
  createdAt := iso r.createdAt
  updatedAt := iso r.updatedAt

def scanKey (iso : Int → String) (r : KeyRow) : LicenseKey where
  id            := r.id
  scopeId       := r.scopeId
  kid           := r.kid
  alg           := r.alg
  role          := r.role
  state         := r.state
  publicPem     := r.publicPem
  privatePemEnc := r.privatePemEnc
  rotatedFrom   := r.rotatedFrom
  rotatedAt     := r.rotatedAt.map iso
  notBefore     := iso r.notBefore
  notAfter      := r.notAfter.map iso
  meta_         := r.meta_
  createdAt     := iso r.createdAt
  updatedAt     := iso r.updatedAt

def scanAudit (iso : Int → String) (r : AuditRow) : AuditLogEntry where
  id         := r.id
  licenseId  := r.licenseId
  scopeId    := r.scopeId
  actor      := r.actor
  actorKind  := r.actorKind
  actorId    := r.actorId
  event      := r.event
  priorState := r.priorState
  newState   := r.newState
  occurredAt := iso r.occurredAt

def pageLimit (limit : Int) : Nat :=
  (max 1 (min limit 500)).toNat

-- The first `limit` of at most `limit + 1` rows, with a cursor if there are more.
def buildPage {α : Type} (encode : α → String) (limit : Nat) (rows : List α) : Page α :=
  if limit < rows.length then
    let items := rows.take limit
    { items := items, cursor := items.getLast?.elim "" encode }
  else { items := rows, cursor := "" }

-- The text between the parentheses in `Key (column)=(value)`.
def detailValue? (column : String) (detail : String) : Option String :=
  let marker := ("(" ++ column ++ ")=(").toList
  detail.toList.tails.findSome? fun cs =>
    let rest  := cs.drop marker.length
    let value := rest.takeWhile (· ≠ ')')
    if marker.isPrefixOf cs ∧ value ≠ [] ∧ value ≠ rest then some (.ofList value) else none

end Postgres

namespace Go

def mapPgError (e : PgError) : Error :=
  if e.code = "23505" then
    match e.constraint with
    | "licenses_license_key_key" =>
      newError .licenseKeyConflict ("duplicate license key: " ++ e.detail)
    | "licenses_scoped_triple_key" | "licenses_global_pair_key" =>
      newError .uniqueConstraintViolation ("licensable_scope: " ++ e.detail)
    | "license_scopes_slug_key" => newError .uniqueConstraintViolation ("slug: " ++ e.detail)
    | "license_templates_scope_name_key" | "license_templates_global_name_key" =>
      newError .uniqueConstraintViolation ("scope_name: " ++ e.detail)
    | "license_usages_active_fp_key" =>
      newError .uniqueConstraintViolation ("license_fingerprint_active: " ++ e.detail)
    | "license_keys_kid_key" => newError .uniqueConstraintViolation ("kid: " ++ e.detail)
    | "license_keys_active_signing_scoped_key" | "license_keys_active_signing_global_key" =>
      newError .uniqueConstraintViolation ("scope_active_signing: " ++ e.detail)
    | c => newError .uniqueConstraintViolation (c ++ ": " ++ e.detail)
  else if e.code = "P0001" ∧ "ImmutableAuditLog".toList <:+: e.message.toList then
    newError .immutableAuditLog "audit rows are append-only"
  else .other e.message

-- Reads pass the driver's error on as it is.
def raw {α : Type} : Except PgError α → Except Error α :=
  Except.mapError fun e => .other e.message

def mapped {α : Type} : Except PgError α → Except Error α :=
  Except.mapError mapPgError

def found {α : Type} (id : String) : Except Error (Option α) → Except Error α
  | .ok (some a) => .ok a
  | .ok none     => .error (newError .uniqueConstraintViolation ("pk: " ++ id))
  | .error e     => .error e

def setTime (v : Option (Option String)) : Option (Option TsArg) :=
  v.map fun s => (tsOrNull s).map .value

def cursorArg (cursor : String) : Postgres.Cursor :=
  (decodeCursor cursor).map fun c => (.text c.createdAt, c.id)

def getLicense (id : String) : Sql (Except Error (Option License)) :=
  query (.selectLicense id) fun r => raw (r.map (·.map (scanLicense isoFromTime)))

def getLicenseByKey (licenseKey : String) : Sql (Except Error (Option License)) :=
  query (.selectLicenseByKey licenseKey) fun r => raw (r.map (·.map (scanLicense isoFromTime)))

def licenseSet (patch : LicensePatch) : LicenseSet where
  status      := patch.status
  maxUsages   := patch.maxUsages
  licenseKey  := patch.licenseKey
  activatedAt := setTime patch.activatedAt
  expiresAt   := setTime patch.expiresAt
  graceUntil  := setTime patch.graceUntil
  meta_       := patch.meta_
  scopeId     := patch.scopeId
  templateId  := patch.templateId

def updateLicense (id : String) (patch : LicensePatch) : Sql (Except Error License) :=
  query (.updateLicense id (licenseSet patch)) fun r =>
    found id (mapped (r.map (·.map (scanLicense isoFromTime))))

def usageValues (input : LicenseUsageInput) (id : String) : UsageValues where
  id           := id
  licenseId    := input.licenseId
  fingerprint  := input.fingerprint
  status       := input.status
  registeredAt := .value (tsVal input.registeredAt)
  revokedAt    := (tsOrNull input.revokedAt).map .value
  lastSeenAt   := .value (tsVal input.registeredAt)
  clientMeta   := input.clientMeta

-- Inside a transaction: the row lock on the license comes first.
def createUsage (input : LicenseUsageInput) : Sql (Except Error LicenseUsage) :=
  .call (.selectLicenseForUpdate input.licenseId) fun
    | .error e => .pure (raw (.error e))
    | .ok ()   => .call .newUUID fun id =>
      query (.insertUsage (usageValues input id)) fun r => mapped (r.map (scanUsage isoFromTime))

def getUsage (id : String) : Sql (Except Error (Option LicenseUsage)) :=
  query (.selectUsage id) fun r => raw (r.map (·.map (scanUsage isoFromTime)))

def listUsages (filter : LicenseUsageFilter) (page : PageRequest) :
    Sql (Except Error (Page LicenseUsage)) :=
  let limit := pageLimit page.limit
  query (.selectUsages filter (cursorArg page.cursor) (limit + 1)) fun r => raw <| r.map fun rows =>
    buildPage (fun u => encodeCursor ⟨u.createdAt, u.id⟩) limit (rows.map (scanUsage isoFromTime))

def usageSet (patch : LicenseUsagePatch) : UsageSet where
  status     := patch.status
  revokedAt  := setTime patch.revokedAt
  lastSeenAt := patch.lastSeenAt.map fun s => .value (tsVal s)
  clientMeta := patch.clientMeta

def updateUsage (id : String) (patch : LicenseUsagePatch) : Sql (Except Error LicenseUsage) :=
  query (.updateUsage id (usageSet patch)) fun r =>
    found id (mapped (r.map (·.map (scanUsage isoFromTime))))

def getKeyByKid (kid : String) : Sql (Except Error (Option LicenseKey)) :=
  query (.selectKeyByKid kid) fun r => raw (r.map (·.map (scanKey isoFromTime)))

def listKeys (filter : LicenseKeyFilter) (page : PageRequest) :
    Sql (Except Error (Page LicenseKey)) :=
  let limit := pageLimit page.limit
  query (.selectKeys filter (cursorArg page.cursor) (limit + 1)) fun r => raw <| r.map fun rows =>
    buildPage (fun k => encodeCursor ⟨k.createdAt, k.id⟩) limit (rows.map (scanKey isoFromTime))

def getScope (id : String) : Sql (Except Error (Option LicenseScope)) :=
  query (.selectScope id) fun r => raw (r.map (·.map (scanScope isoFromTime)))

def appendAudit (input : AuditLogInput) : Sql (Except Error AuditLogEntry) :=
  .call .newUUID fun id =>
    query (.insertAudit {
      id         := id
      licenseId  := input.licenseId
      scopeId    := input.scopeId
      actor      := input.actor
      actorKind  := resolveActorKind input
      actorId    := input.actorId
      event      := input.event
      priorState := input.priorState
      newState   := input.newState
      occurredAt := .value (tsVal input.occurredAt) }) fun r => mapped (r.map (scanAudit isoFromTime))

def txOp : (o : TxOp) → Sql (Except Error o.Res)
  | .getLicense id              => getLicense id
  | .getLicenseByKey licenseKey => getLicenseByKey licenseKey
  | .updateLicense id patch     => updateLicense id patch
  | .createUsage input          => createUsage input
  | .getUsage id                => getUsage id
  | .listUsages filter page     => listUsages filter page
  | .updateUsage id patch       => updateUsage id patch
  | .getKeyByKid kid            => getKeyByKid kid
  | .listKeys filter page       => listKeys filter page
  | .getScope id                => getScope id
  | .appendAudit input          => appendAudit input

def implement : (o : Op) → Sql o.Ans
  | .tx o               => txOp o
  | .nowISO             => .call .nowISO .pure
  | .generateLicenseKey => .call .generateLicenseKey .pure

-- `WithTransaction` over a pool connection.
def withTransaction {α : Type} (fn : Tx α) :
    Prog (ReadCommitted.Op Stmt) (ReadCommitted.Op.Ans PgError Stmt.Res) Error α :=
  ReadCommitted.transaction (fun e => .other e.message) (fn.translate implement)

end Go

namespace Ts

def orElse (s fallback : String) : String :=
  if s = "" then fallback else s

def mapPgError (e : PgError) : Error :=
  if e.code = "23505" ∧ e.constraint ≠ "" then
    match e.constraint with
    | "licenses_license_key_key" =>
      newError .licenseKeyConflict
        ("license key already exists: " ++ (detailValue? "license_key" e.detail).getD "unknown")
    | "licenses_scoped_triple_key" | "licenses_global_pair_key" =>
      uniqueConstraintViolation "licensable_scope"
        (orElse e.detail "(licensable_type, licensable_id, scope_id)")
    | "license_scopes_slug_key" =>
      uniqueConstraintViolation "slug" ((detailValue? "slug" e.detail).getD "unknown")
    | "license_templates_scope_name_key" | "license_templates_global_name_key" =>
      uniqueConstraintViolation "scope_name" (orElse e.detail "(scope_id, name)")
    | "license_usages_active_fp_key" =>
      uniqueConstraintViolation "license_fingerprint_active"
        (orElse e.detail "(license_id, fingerprint)")
    | "license_keys_kid_key" =>
      uniqueConstraintViolation "kid" ((detailValue? "kid" e.detail).getD "unknown")
    | "license_keys_active_signing_scoped_key" | "license_keys_active_signing_global_key" =>
      uniqueConstraintViolation "scope_active_signing" (orElse e.detail "(scope_id, role, state)")
    | c => uniqueConstraintViolation c e.detail
  else if e.code = "P0001" ∧ "immutableauditlog".toList <:+: e.message.toList.map Char.toLower then
    newError .immutableAuditLog "audit log rows are append-only and cannot be mutated"
  else .other e.message

def raw {α : Type} : Except PgError α → Except Error α :=
  Except.mapError fun e => .other e.message

def mapped {α : Type} : Except PgError α → Except Error α :=
  Except.mapError mapPgError

def setTime (v : Option (Option String)) : Option (Option TsArg) :=
  v.map fun s => s.map .text

def cursorArg (cursor : String) : Postgres.Cursor :=
  (decodeCursor cursor).map fun c => (.text c.createdAt, c.id)

def getLicense (id : String) : Sql (Except Error (Option License)) :=
  query (.selectLicense id) fun r => raw (r.map (·.map (scanLicense toIso)))

def getLicenseByKey (licenseKey : String) : Sql (Except Error (Option License)) :=
  query (.selectLicenseByKey licenseKey) fun r => raw (r.map (·.map (scanLicense toIso)))

def licenseSet (patch : LicensePatch) : LicenseSet where
  status      := patch.status
  maxUsages   := patch.maxUsages
  licenseKey  := patch.licenseKey
  activatedAt := setTime patch.activatedAt
  expiresAt   := setTime patch.expiresAt
  graceUntil  := setTime patch.graceUntil
  meta_       := patch.meta_
  scopeId     := patch.scopeId
  templateId  := patch.templateId

def updateLicense (id : String) (patch : LicensePatch) : Sql (Except Error License) :=
  query (.updateLicense id (licenseSet patch)) fun r =>
    match mapped (r.map (·.map (scanLicense toIso))) with
    | .ok (some l) => .ok l
    | .ok none     => .error (newError .licenseNotFound ("license not found: " ++ id))
    | .error e     => .error e

def usageValues (input : LicenseUsageInput) (id : String) : UsageValues where
  id           := id
  licenseId    := input.licenseId
  fingerprint  := input.fingerprint
  status       := input.status
  registeredAt := .text input.registeredAt
  revokedAt    := input.revokedAt.map .text
  lastSeenAt   := .text input.registeredAt
  clientMeta   := input.clientMeta

-- Inside a transaction: the row lock on the license comes before the insertion.
def createUsage (input : LicenseUsageInput) : Sql (Except Error LicenseUsage) :=
  .call .newUUID fun id =>
    .call (.selectLicenseForUpdate input.licenseId) fun
      | .error e => .pure (raw (.error e))
      | .ok ()   =>
        query (.insertUsage (usageValues input id)) fun r => mapped (r.map (scanUsage toIso))

def getUsage (id : String) : Sql (Except Error (Option LicenseUsage)) :=
  query (.selectUsage id) fun r => raw (r.map (·.map (scanUsage toIso)))

def listUsages (filter : LicenseUsageFilter) (page : PageRequest) :
    Sql (Except Error (Page LicenseUsage)) :=
  let limit := pageLimit page.limit
  query (.selectUsages filter (cursorArg page.cursor) (limit + 1)) fun r => raw <| r.map fun rows =>
    buildPage (fun u => encodeCursor ⟨u.createdAt, u.id⟩) limit (rows.map (scanUsage toIso))

def usageSet (patch : LicenseUsagePatch) : UsageSet where
  status     := patch.status
  revokedAt  := setTime patch.revokedAt
  lastSeenAt := patch.lastSeenAt.map .text
  clientMeta := patch.clientMeta

def updateUsage (id : String) (patch : LicenseUsagePatch) : Sql (Except Error LicenseUsage) :=
  query (.updateUsage id (usageSet patch)) fun r =>
    match mapped (r.map (·.map (scanUsage toIso))) with
    | .ok (some u) => .ok u
    | .ok none     => .error (uniqueConstraintViolation "pk" id)
    | .error e     => .error e

def getKeyByKid (kid : String) : Sql (Except Error (Option LicenseKey)) :=
  query (.selectKeyByKid kid) fun r => raw (r.map (·.map (scanKey toIso)))

def listKeys (filter : LicenseKeyFilter) (page : PageRequest) :
    Sql (Except Error (Page LicenseKey)) :=
  let limit := pageLimit page.limit
  query (.selectKeys filter (cursorArg page.cursor) (limit + 1)) fun r => raw <| r.map fun rows =>
    buildPage (fun k => encodeCursor ⟨k.createdAt, k.id⟩) limit (rows.map (scanKey toIso))

def getScope (id : String) : Sql (Except Error (Option LicenseScope)) :=
  query (.selectScope id) fun r => raw (r.map (·.map (scanScope toIso)))

def appendAudit (input : AuditLogInput) : Sql (Except Error AuditLogEntry) :=
  .call .newUUID fun id =>
    query (.insertAudit {
      id         := id
      licenseId  := input.licenseId
      scopeId    := input.scopeId
      actor      := input.actor
      actorKind  := resolveActorKind input
      actorId    := input.actorId
      event      := input.event
      priorState := input.priorState
      newState   := input.newState
      occurredAt := .text input.occurredAt }) fun r => mapped (r.map (scanAudit toIso))

def txOp : (o : TxOp) → Sql (Except Error o.Res)
  | .getLicense id              => getLicense id
  | .getLicenseByKey licenseKey => getLicenseByKey licenseKey
  | .updateLicense id patch     => updateLicense id patch
  | .createUsage input          => createUsage input
  | .getUsage id                => getUsage id
  | .listUsages filter page     => listUsages filter page
  | .updateUsage id patch       => updateUsage id patch
  | .getKeyByKid kid            => getKeyByKid kid
  | .listKeys filter page       => listKeys filter page
  | .getScope id                => getScope id
  | .appendAudit input          => appendAudit input

def implement : (o : Op) → Sql o.Ans
  | .tx o               => txOp o
  | .nowISO             => .call .nowISO .pure
  | .generateLicenseKey => .call .generateLicenseKey .pure

def withTransaction {α : Type} (fn : Tx α) :
    Prog (ReadCommitted.Op Stmt) (ReadCommitted.Op.Ans PgError Stmt.Res) Error α :=
  ReadCommitted.transaction (fun e => .other e.message) (fn.translate implement)

end Ts

end Licensing
