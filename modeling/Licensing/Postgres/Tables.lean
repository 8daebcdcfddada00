import Mathlib.Data.Prod.Lex
import Mathlib.Data.String.Basic
import Licensing.Model.Entities

-- The rows of the tables. Timestamps are microseconds since the Unix epoch.

namespace Licensing.Postgres

structure LicenseRow where
  id             : String
  scopeId        : Option String
  templateId     : Option String
  licensableType : String
  licensableId   : String
  licenseKey     : String
  status         : LicenseStatus
  maxUsages      : Int
  activatedAt    : Option Int
  expiresAt      : Option Int
  graceUntil     : Option Int
  meta_          : Json.Object
  createdAt      : Int
  updatedAt      : Int
  isTrial        : Bool

structure UsageRow where
  id           : String
  licenseId    : String
  fingerprint  : String
  status       : UsageStatus
  registeredAt : Int
  revokedAt    : Option Int
  clientMeta   : Json.Object
  createdAt    : Int
  updatedAt    : Int
  lastSeenAt   : Int

structure ScopeRow where
  id        : String
  slug      : String
  name      : String
  meta_     : Json.Object
  createdAt : Int
  updatedAt : Int

structure TemplateRow where
  id                  : String
  scopeId             : Option String
  name                : String
  maxUsages           : Int
  trialDurationSec    : Int
  graceDurationSec    : Int
  forceOnlineAfterSec : Option Int
  entitlements        : Json.Object
  meta_               : Json.Object
  createdAt           : Int
  updatedAt           : Int
  parentId            : Option String
  trialCooldownSec    : Option Int

structure KeyRow where
  id            : String
  scopeId       : Option String
  kid           : String
  alg           : KeyAlg
  role          : KeyRole
  state         : KeyState
  publicPem     : String
  privatePemEnc : Option String
  rotatedFrom   : Option String
  rotatedAt     : Option Int
  notBefore     : Int
  notAfter      : Option Int
  meta_         : Json.Object
  createdAt     : Int
  updatedAt     : Int

structure AuditRow where
  id         : String
  licenseId  : Option String
  scopeId    : Option String
  actor      : String
  event      : String
  priorState : Option Json.Object
  newState   : Option Json.Object
  occurredAt : Int
  actorKind  : ActorKind
  actorId    : Option String

structure Tables where
  licenses  : List LicenseRow := []
  usages    : List UsageRow := []
  scopes    : List ScopeRow := []
  templates : List TemplateRow := []
  keys      : List KeyRow := []
  audit     : List AuditRow := []

-- The order of the list queries, `ORDER BY created_at DESC, id DESC`.
abbrev Key := Int ×ₗ String

def UsageRow.key (r : UsageRow) : Key := toLex (r.createdAt, r.id)

def KeyRow.key (r : KeyRow) : Key := toLex (r.createdAt, r.id)

end Licensing.Postgres
