import Licensing.Model.Decisions
import Licensing.Model.UsageService

-- The operations on a whole license: the ones of its lifecycle, its seats and its key.

namespace Licensing

structure RevokeUsageOptions where
  actor     : Option String := none
  actorKind : Option ActorKind := none
  actorId   : Option String := none

-- An error of the last read is taken for a miss.
def owningLicense (licenseId : String) : Tx (Option License) :=
  .call (.tx (.getLicense licenseId)) fun
    | .ok l    => .pure l
    | .error _ => .pure none

def revokedAudit (usage : LicenseUsage) (license : Option License) (opts : RevokeUsageOptions)
    (now : String) : AuditLogInput where
  licenseId  := some usage.licenseId
  scopeId    := license.bind License.scopeId
  actor      := opts.actor.getD "system"
  actorKind  := opts.actorKind
  actorId    := opts.actorId
  event      := "usage.revoked"
  priorState := some [("status", .str "active"), ("fingerprint", .str usage.fingerprint)]
  newState   := some [("status", .str "revoked"), ("fingerprint", .str usage.fingerprint)]
  occurredAt := now

def revokeUsage (usageId : String) (opts : RevokeUsageOptions) : Tx LicenseUsage := do
  match ← Tx.getUsage usageId with
  | none       => .throw (newError .fingerprintRejected ("usage not found: " ++ usageId))
  | some usage =>
    if usage.status = .revoked then return usage
    let now ← Tx.nowISO
    let updated ← Tx.updateUsage usageId { status := some .revoked, revokedAt := some (some now) }
    let license ← owningLicense usage.licenseId
    let _ ← Tx.appendAudit (revokedAudit usage license opts now)
    return updated

-- The last read passes its error on here.
def Ts.revokeUsage (usageId : String) (opts : RevokeUsageOptions) : Tx LicenseUsage := do
  match ← Tx.getUsage usageId with
  | none       => .throw (newError .fingerprintRejected ("usage not found: " ++ usageId))
  | some usage =>
    if usage.status = .revoked then return usage
    let now ← Tx.nowISO
    let updated ← Tx.updateUsage usageId { status := some .revoked, revokedAt := some (some now) }
    let license ← Tx.getLicense usage.licenseId
    let _ ← Tx.appendAudit (revokedAudit usage license opts now)
    return updated

structure RotateLicenseKeyOptions where
  actor     : Option String := none
  actorKind : Option ActorKind := none
  actorId   : Option String := none

structure RotateLicenseKeyResult where
  license         : License
  revokedUsageIds : List String

def revokeSeats (now : String) : List LicenseUsage → List String → Tx (List String)
  | [],      revoked => return revoked
  | u :: us, revoked => do
    let _ ← Tx.updateUsage u.id { status := some .revoked, revokedAt := some (some now) }
    revokeSeats now us (revoked ++ [u.id])

def revokeSeatsFrom (licenseId now : String) : Nat → String → List String → Tx (List String)
  | 0,        _,      _       => .throw outOfFuel
  | fuel + 1, cursor, revoked => do
    let page ← Tx.listUsages
      { licenseId := some licenseId, status := [.active] } { limit := 500, cursor := cursor }
    let revoked ← revokeSeats now page.items revoked
    if page.cursor = "" then return revoked
    else revokeSeatsFrom licenseId now fuel page.cursor revoked

-- A fresh key, and no seat that was activated with the old one. The ports word the refusal of a revoked license
-- differently.
def rotateLicenseKey (refusal : String) (fuel : Nat) (licenseId : String) (opts : RotateLicenseKeyOptions) :
    Tx RotateLicenseKeyResult := do
  match ← Tx.getLicense licenseId with
  | none         => .throw (newError .licenseNotFound ("license not found: " ++ licenseId))
  | some license =>
    if license.status = .revoked then
      .throw (newError .licenseRevoked refusal)
    let newKey ← Tx.generateLicenseKey
    let updated ← Tx.updateLicense license.id { licenseKey := some newKey }
    let now ← Tx.nowISO
    let revoked ← revokeSeatsFrom license.id now fuel "" []
    let _ ← Tx.appendAudit {
      licenseId  := some license.id
      scopeId    := license.scopeId
      actor      := opts.actor.getD "system"
      actorKind  := opts.actorKind
      actorId    := opts.actorId
      event      := "license.key_rotated"
      priorState := some [("active_usages", .ofNat revoked.length)]
      newState   := some [("active_usages", .ofNat 0), ("usages_revoked", .ofNat revoked.length)]
      occurredAt := now }
    return { license := updated, revokedUsageIds := revoked }

def Go.rotateLicenseKey (fuel : Nat) (licenseId : String) (opts : RotateLicenseKeyOptions) :
    Tx RotateLicenseKeyResult :=
  Licensing.rotateLicenseKey "license is revoked; its key cannot be rotated" fuel licenseId opts

def Ts.rotateLicenseKey (fuel : Nat) (licenseId : String) (opts : RotateLicenseKeyOptions) :
    Tx RotateLicenseKeyResult :=
  Licensing.rotateLicenseKey "license is revoked" fuel licenseId opts

end Licensing
