import Licensing.Model.LicenseKey
import Licensing.Model.Lifecycle
import Licensing.Model.StorageTx
import Licensing.Model.Time

-- The services that create licenses, and the handlers that write to the storage without a service.

namespace Licensing

inductive ServiceOp
  | storage (o : StorageOp)
  | nowISO
  | generateLicenseKey

@[reducible]
def ServiceOp.Ans : ServiceOp → Type
  | storage o          => o.Ans
  | nowISO             => String
  | generateLicenseKey => String

-- What a service calls, inside its transaction and before it. Nothing is written before it.
abbrev Service := Prog ServiceOp ServiceOp.Ans Error

namespace Service

-- Passes an error of the storage on.
def perform (o : StorageOp) : Service o.Res :=
  .call (.storage o) fun
    | .ok a    => .pure a
    | .error e => .throw e

def nowISO : Service String := .call .nowISO .pure

def generateLicenseKey : Service String := .call .generateLicenseKey .pure

end Service

-- The calls of a transaction, as calls of its storage.
def Op.service : (o : Op) → Service o.Ans
  | .tx (.getLicense id)          => .call (.storage (.getLicense id)) .pure
  | .tx (.getLicenseByKey key)    => .call (.storage (.getLicenseByKey key)) .pure
  | .tx (.updateLicense id patch) => .call (.storage (.updateLicense id patch)) .pure
  | .tx (.createUsage input)      => .call (.storage (.createUsage input)) .pure
  | .tx (.getUsage id)            => .call (.storage (.getUsage id)) .pure
  | .tx (.listUsages f page)      => .call (.storage (.listUsages f page)) .pure
  | .tx (.updateUsage id patch)   => .call (.storage (.updateUsage id patch)) .pure
  | .tx (.getKeyByKid kid)        => .call (.storage (.getKeyByKid kid)) .pure
  | .tx (.listKeys f page)        => .call (.storage (.listKeys f page)) .pure
  | .tx (.getScope id)            => .call (.storage (.getScope id)) .pure
  | .tx (.appendAudit input)      => .call (.storage (.appendAudit input)) .pure
  | .nowISO                       => .call .nowISO .pure
  | .generateLicenseKey           => .call .generateLicenseKey .pure

def Tx.service {α : Type} (p : Tx α) : Service α :=
  p.translate Op.service

-- `none` stands for an empty status.
structure CreateLicenseInput where
  scopeId        : Option String := none
  templateId     : Option String := none
  activatedAt    : Option String := none
  expiresAt      : Option String := none
  graceUntil     : Option String := none
  meta_          : Json.Object := []
  licensableType : String
  licensableId   : String
  licenseKey     : String := ""
  status         : Option LicenseStatus := none
  maxUsages      : Int

structure CreateLicenseOptions where
  actor     : Option String := none
  actorKind : Option ActorKind := none
  actorId   : Option String := none

-- The row that is inserted with a key.
def CreateLicenseInput.row (input : CreateLicenseInput) (licenseKey : String) : LicenseInput where
  scopeId        := input.scopeId
  templateId     := input.templateId
  licensableType := input.licensableType
  licensableId   := input.licensableId
  licenseKey     := licenseKey
  status         := input.status.getD .pending
  maxUsages      := input.maxUsages
  activatedAt    := input.activatedAt
  expiresAt      := input.expiresAt
  graceUntil     := input.graceUntil
  meta_          := input.meta_

def createdAudit (license : License) (occurredAt : String) (opts : CreateLicenseOptions) :
    AuditLogInput where
  licenseId  := some license.id
  scopeId    := license.scopeId
  actor      := opts.actor.getD "system"
  actorKind  := opts.actorKind
  actorId    := opts.actorId
  event      := "license.created"
  newState   := some [
    ("status", .str license.status.toString),
    ("license_key", .str license.licenseKey),
    ("max_usages", .ofInt license.maxUsages),
    ("expires_at", .ofOption license.expiresAt),
    ("grace_until", .ofOption license.graceUntil),
    ("template_id", .ofOption license.templateId)]
  occurredAt := occurredAt

namespace Go

def writeCreatedAudit (license : License) (occurredAt : String) (opts : CreateLicenseOptions) :
    Service Unit := do
  let _ ← Service.perform (.appendAudit (createdAudit license occurredAt opts))

def createLicense (input : CreateLicenseInput) (opts : CreateLicenseOptions) : Service License := do
  let licenseKey ←
    if input.licenseKey = "" then Service.generateLicenseKey
    else .ofExcept (assertLicenseKey input.licenseKey)
  let created ← Service.perform (.createLicense (input.row licenseKey))
  let now ← Service.nowISO
  writeCreatedAudit created now opts
  return created

-- A field that is inherited unless it is set, perhaps to null.
abbrev OptStringOverride := Option (Option String)

structure CreateLicenseFromTemplateInput where
  scopeId        : OptStringOverride := none
  expiresAt      : OptStringOverride := none
  graceUntil     : OptStringOverride := none
  maxUsages      : Option Int := none
  meta_          : Json.Object := []
  templateId     : String
  licensableType : String
  licensableId   : String
  licenseKey     : String := ""
  status         : Option LicenseStatus := none

-- `maps.Copy`.
def copyMap (dst src : Json.Object) : Json.Object :=
  dst.filter (fun m => (src.get? m.1).isNone) ++ src

-- `time.Duration(d) * time.Second`, as nanoseconds in 64 bits.
def secondsDuration (d : Int) : Int :=
  (d * 1000000000).bmod (2 ^ 64)

-- `t.Add(d).UTC().Format("2006-01-02T15:04:05.000000Z")` of what is parsed.
def addSeconds (t : String) (d : Int) : Option String :=
  (parseTime t).map fun ns => isoFromTime ((ns + secondsDuration d) / 1000)

def computeExpiresAt (now : String) (trialDurationSec : Int) : Option String :=
  if trialDurationSec ≤ 0 then none else addSeconds now trialDurationSec

def computeGraceUntil (expiresAt : Option String) (graceDurationSec : Int) : Option String :=
  if graceDurationSec ≤ 0 then none else expiresAt.bind (addSeconds · graceDurationSec)

-- What a license takes over from its template.
def fromTemplate (input : CreateLicenseFromTemplateInput) (template : LicenseTemplate) (now : String) :
    CreateLicenseInput :=
  let expiresAt := input.expiresAt.getD (computeExpiresAt now template.trialDurationSec)
  { scopeId        := input.scopeId.getD template.scopeId
    templateId     := some template.id
    licensableType := input.licensableType
    licensableId   := input.licensableId
    licenseKey     := input.licenseKey
    status         := input.status
    maxUsages      := input.maxUsages.getD template.maxUsages
    expiresAt      := expiresAt
    graceUntil     := input.graceUntil.getD (computeGraceUntil expiresAt template.graceDurationSec)
    meta_          := copyMap
      ((if template.entitlements = [] then [] else [("entitlements", .obj template.entitlements)]) ++
        (template.forceOnlineAfterSec.map fun n => ("force_online_after_sec", .ofInt n)).toList)
      input.meta_ }

def createLicenseFromTemplate (input : CreateLicenseFromTemplateInput) (opts : CreateLicenseOptions) :
    Service License := do
  match ← Service.perform (.getTemplate input.templateId) with
  | none          => .throw (newError .fingerprintRejected ("template not found: " ++ input.templateId))
  | some template =>
    let now ← Service.nowISO
    createLicense (fromTemplate input template now) opts

-- The body of a PATCH. A field that is not null and no string is left out.
structure UpdateLicenseBody where
  maxUsages  : Option Int := none
  meta_      : Option Json.Object := none
  expiresAt  : Option Json := none
  graceUntil : Option Json := none

def decodeOptString : Option Json → Option (Option String)
  | some .null    => some none
  | some (.str s) => some (some s)
  | _             => none

def UpdateLicenseBody.patch (b : UpdateLicenseBody) : LicensePatch where
  maxUsages  := b.maxUsages
  expiresAt  := decodeOptString b.expiresAt
  graceUntil := decodeOptString b.graceUntil
  meta_      := b.meta_

def handleUpdateLicense (id : String) (b : UpdateLicenseBody) : Service License :=
  Service.perform (.updateLicense id b.patch)

def handleDeleteLicense (id : String) : Service Unit :=
  Service.perform (.deleteLicense id)

end Go

end Licensing
