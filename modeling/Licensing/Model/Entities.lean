import Licensing.Library.Json

namespace Licensing

inductive LicenseStatus
  | pending
  | active
  | grace
  | expired
  | suspended
  | revoked
  deriving DecidableEq, Repr

def LicenseStatus.toString : LicenseStatus → String
  | pending   => "pending"
  | active    => "active"
  | grace     => "grace"
  | expired   => "expired"
  | suspended => "suspended"
  | revoked   => "revoked"

inductive UsageStatus
  | active
  | revoked
  deriving DecidableEq, Repr

inductive ActorKind
  | system
  | admin
  | client
  | unknown
  deriving DecidableEq, Repr

inductive KeyAlg
  | ed25519
  | rsPss
  | hs256
  deriving DecidableEq, Repr

inductive KeyRole
  | root
  | signing
  deriving DecidableEq, Repr

inductive KeyState
  | active
  | retiring
  deriving DecidableEq, Repr

-- Timestamps are ISO-8601 texts, as the adapters hand them out.
structure License where
  id             : String
  scopeId        : Option String
  templateId     : Option String
  licensableType : String
  licensableId   : String
  licenseKey     : String
  status         : LicenseStatus
  maxUsages      : Int
  activatedAt    : Option String
  expiresAt      : Option String
  graceUntil     : Option String
  meta_          : Json.Object
  createdAt      : String
  updatedAt      : String
  isTrial        : Bool

structure LicenseUsage where
  id           : String
  licenseId    : String
  fingerprint  : String
  status       : UsageStatus
  registeredAt : String
  revokedAt    : Option String
  lastSeenAt   : String
  clientMeta   : Json.Object
  createdAt    : String
  updatedAt    : String

structure LicenseScope where
  id        : String
  slug      : String
  name      : String
  meta_     : Json.Object
  createdAt : String
  updatedAt : String

structure LicenseTemplate where
  id                  : String
  scopeId             : Option String
  parentId            : Option String
  name                : String
  maxUsages           : Int
  trialDurationSec    : Int
  trialCooldownSec    : Option Int
  graceDurationSec    : Int
  forceOnlineAfterSec : Option Int
  entitlements        : Json.Object
  meta_               : Json.Object
  createdAt           : String
  updatedAt           : String

structure LicenseKey where
  id            : String
  scopeId       : Option String
  kid           : String
  alg           : KeyAlg
  role          : KeyRole
  state         : KeyState
  publicPem     : String
  privatePemEnc : Option String
  rotatedFrom   : Option String
  rotatedAt     : Option String
  notBefore     : String
  notAfter      : Option String
  meta_         : Json.Object
  createdAt     : String
  updatedAt     : String

structure AuditLogEntry where
  id         : String
  licenseId  : Option String
  scopeId    : Option String
  actor      : String
  actorKind  : ActorKind
  actorId    : Option String
  event      : String
  priorState : Option Json.Object
  newState   : Option Json.Object
  occurredAt : String

structure TrialIssuance where
  id              : String
  templateId      : Option String
  fingerprintHash : String
  issuedAt        : String

-- Inputs, as the callers of the storage supply them.

structure LicenseInput where
  scopeId        : Option String
  templateId     : Option String
  licensableType : String
  licensableId   : String
  licenseKey     : String
  status         : LicenseStatus
  maxUsages      : Int
  activatedAt    : Option String
  expiresAt      : Option String
  graceUntil     : Option String
  meta_          : Json.Object

structure LicenseScopeInput where
  slug  : String
  name  : String
  meta_ : Json.Object

structure LicenseTemplateInput where
  scopeId             : Option String
  parentId            : Option String
  name                : String
  maxUsages           : Int
  trialDurationSec    : Int
  trialCooldownSec    : Option Int
  graceDurationSec    : Int
  forceOnlineAfterSec : Option Int
  entitlements        : Json.Object
  meta_               : Json.Object

structure LicenseUsageInput where
  licenseId    : String
  fingerprint  : String
  status       : UsageStatus
  registeredAt : String
  revokedAt    : Option String := none
  clientMeta   : Json.Object

structure LicenseKeyInput where
  scopeId       : Option String
  kid           : String
  alg           : KeyAlg
  role          : KeyRole
  state         : KeyState
  publicPem     : String
  privatePemEnc : Option String
  rotatedFrom   : Option String
  rotatedAt     : Option String
  notBefore     : String
  notAfter      : Option String
  meta_         : Json.Object

structure TrialIssuanceInput where
  templateId      : Option String
  fingerprintHash : String

-- `actorKind` is `none` where the adapter is to derive it from the label.
structure AuditLogInput where
  licenseId  : Option String
  scopeId    : Option String
  actor      : String
  actorKind  : Option ActorKind := none
  actorId    : Option String := none
  event      : String
  priorState : Option Json.Object := none
  newState   : Option Json.Object
  occurredAt : String

def deriveActorKind (actor : String) : ActorKind :=
  if actor = "system" ∨ "system:".toList <+: actor.toList then .system
  else if actor = "admin" ∨ "admin:".toList <+: actor.toList then .admin
  else if actor = "client" ∨ "client:".toList <+: actor.toList then .client
  else .unknown

def resolveActorKind (input : AuditLogInput) : ActorKind :=
  input.actorKind.getD (deriveActorKind input.actor)

-- Patches: `none` is a field that is not in the patch, and for a nullable field `some none` writes
-- null.

structure LicensePatch where
  status      : Option LicenseStatus := none
  maxUsages   : Option Int := none
  licenseKey  : Option String := none
  activatedAt : Option (Option String) := none
  expiresAt   : Option (Option String) := none
  graceUntil  : Option (Option String) := none
  meta_       : Option Json.Object := none
  scopeId     : Option (Option String) := none
  templateId  : Option (Option String) := none

structure LicenseScopePatch where
  name  : Option String := none
  meta_ : Option Json.Object := none

structure LicenseTemplatePatch where
  name                : Option String := none
  parentId            : Option (Option String) := none
  maxUsages           : Option Int := none
  trialDurationSec    : Option Int := none
  trialCooldownSec    : Option (Option Int) := none
  graceDurationSec    : Option Int := none
  forceOnlineAfterSec : Option (Option Int) := none
  entitlements        : Option Json.Object := none
  meta_               : Option Json.Object := none

structure LicenseUsagePatch where
  status     : Option UsageStatus := none
  revokedAt  : Option (Option String) := none
  lastSeenAt : Option String := none
  clientMeta : Option Json.Object := none

structure LicenseKeyPatch where
  state       : Option KeyState := none
  rotatedFrom : Option (Option String) := none
  rotatedAt   : Option (Option String) := none
  notAfter    : Option (Option String) := none
  meta_       : Option Json.Object := none

-- Filters: `none` does not filter, and for a nullable column `some none` selects the null rows.

structure LicenseFilter where
  scopeId        : Option (Option String) := none
  status         : List LicenseStatus := []
  licensableType : Option String := none
  licensableId   : Option String := none
  templateId     : Option (Option String) := none

structure LicenseScopeFilter where
  slug : Option String := none

structure LicenseTemplateFilter where
  scopeId  : Option (Option String) := none
  name     : Option String := none
  parentId : Option (Option String) := none

structure LicenseUsageFilter where
  licenseId   : Option String := none
  fingerprint : Option String := none
  status      : List UsageStatus := []

structure LicenseKeyFilter where
  scopeId : Option (Option String) := none
  kid     : Option String := none
  alg     : Option KeyAlg := none
  role    : Option KeyRole := none
  state   : Option KeyState := none

structure AuditLogFilter where
  licenseId      : Option (Option String) := none
  scopeId        : Option (Option String) := none
  event          : Option String := none
  events         : Option (List String) := none
  licensableType : Option String := none
  licensableId   : Option String := none
  actor          : Option String := none
  since          : Option String := none
  until_         : Option String := none

structure LicenseStatsFilter where
  scopeId : Option (Option String) := none

structure FindByLicensableQuery where
  type    : String
  id      : String
  scopeId : Option (Option String) := none

structure TrialIssuanceLookup where
  templateId      : Option String
  fingerprintHash : String

structure PageRequest where
  limit  : Int
  cursor : String := ""

structure Page (α : Type) where
  items  : List α
  cursor : String

end Licensing
