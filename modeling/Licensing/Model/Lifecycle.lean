import Licensing.Model.Storage

namespace Licensing

-- `none` stands for an empty or omitted actor.
structure TransitionOptions where
  actor     : Option String := none
  actorKind : Option ActorKind := none
  actorId   : Option String := none

structure RenewOptions extends TransitionOptions where
  expiresAt  : Option String
  graceUntil : Option (Option String) := none

def effectiveStatus (license : License) (nowISO : String) : LicenseStatus :=
  match license.status with
  | .revoked | .suspended | .pending | .expired => license.status
  | .active | .grace =>
    match license.expiresAt with
    | none           => license.status
    | some expiresAt =>
      if nowISO < expiresAt then license.status
      else match license.graceUntil with
        | some graceUntil => if nowISO < graceUntil then .grace else .expired
        | none            => .expired

def assertNotRevoked (license : License) : Tx Unit :=
  if license.status = .revoked then .throw (newError .licenseRevoked "license is revoked")
  else .pure ()

def illegalTransition («from» «to» : LicenseStatus) : Error :=
  newError .illegalLifecycleTransition
    ("illegal lifecycle transition: " ++ «from».toString ++ " → " ++ «to».toString)

def lifecycleSnapshot (l : License) : Json.Object := [
  ("status", .str l.status.toString),
  ("activated_at", .ofOption l.activatedAt),
  ("expires_at", .ofOption l.expiresAt),
  ("grace_until", .ofOption l.graceUntil)]

def writeLifecycleAudit (prior next : License) (event occurredAt : String)
    (opts : TransitionOptions) : Tx Unit := do
  let _ ← Tx.appendAudit {
    licenseId  := some prior.id
    scopeId    := prior.scopeId
    actor      := opts.actor.getD "system"
    actorKind  := opts.actorKind
    actorId    := opts.actorId
    event      := event
    priorState := some (lifecycleSnapshot prior)
    newState   := some (lifecycleSnapshot next)
    occurredAt := occurredAt }

-- pending → active, and nothing to do if already active.
def activate (license : License) (opts : TransitionOptions) : Tx License := do
  assertNotRevoked license
  if license.status = .active then return license
  if license.status ≠ .pending then .throw (illegalTransition license.status .active)
  let now ← Tx.nowISO
  let updated ← Tx.updateLicense license.id
    { status := some .active, activatedAt := some (some now) }
  writeLifecycleAudit license updated "license.activated" now opts
  return updated

def suspend (license : License) (opts : TransitionOptions) : Tx License := do
  assertNotRevoked license
  if license.status = .suspended then return license
  let now ← Tx.nowISO
  let updated ← Tx.updateLicense license.id { status := some .suspended }
  writeLifecycleAudit license updated "license.suspended" now opts
  return updated

def resume (license : License) (opts : TransitionOptions) : Tx License := do
  assertNotRevoked license
  if license.status ≠ .suspended then .throw (illegalTransition license.status .active)
  let now ← Tx.nowISO
  let updated ← Tx.updateLicense license.id { status := some .active }
  writeLifecycleAudit license updated "license.resumed" now opts
  return updated

def revoke (license : License) (opts : TransitionOptions) : Tx License := do
  if license.status = .revoked then return license
  let now ← Tx.nowISO
  let updated ← Tx.updateLicense license.id { status := some .revoked }
  writeLifecycleAudit license updated "license.revoked" now opts
  return updated

def expire (license : License) (opts : TransitionOptions) : Tx License := do
  assertNotRevoked license
  if license.status = .expired then return license
  if license.status = .suspended ∨ license.status = .pending then
    .throw (illegalTransition license.status .expired)
  let now ← Tx.nowISO
  let updated ← Tx.updateLicense license.id { status := some .expired }
  writeLifecycleAudit license updated "license.expired" now opts
  return updated

-- expired, active or grace → active, with new end timestamps.
def renew (license : License) (opts : RenewOptions) : Tx License := do
  assertNotRevoked license
  if license.status = .suspended then .throw (illegalTransition license.status .active)
  let now ← Tx.nowISO
  let updated ← Tx.updateLicense license.id
    { status := some .active, expiresAt := some opts.expiresAt, graceUntil := opts.graceUntil }
  writeLifecycleAudit license updated "license.renewed" now opts.toTransitionOptions
  return updated

-- Persists the transition that the clock implies.
def tick (license : License) (opts : TransitionOptions) : Tx License := do
  let now ← Tx.nowISO
  let target := effectiveStatus license now
  if target = license.status then return license
  match target with
  | .grace =>
    let updated ← Tx.updateLicense license.id { status := some .grace }
    writeLifecycleAudit license updated "license.grace_entered" now opts
    return updated
  | .expired =>
    let updated ← Tx.updateLicense license.id { status := some .expired }
    writeLifecycleAudit license updated "license.expired" now opts
    return updated
  | _ => return license

end Licensing
