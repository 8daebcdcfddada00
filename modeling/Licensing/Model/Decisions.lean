import Licensing.Model.Lifecycle

-- What the functions of the lifecycle decide for a license, apart from carrying it out.

namespace Licensing

inductive LifecycleOp
  | activate (opts : TransitionOptions)
  | suspend (opts : TransitionOptions)
  | resume (opts : TransitionOptions)
  | revoke (opts : TransitionOptions)
  | expire (opts : TransitionOptions)
  | renew (opts : RenewOptions)
  | tick (opts : TransitionOptions)

-- The events whose new state tells the status and the dates of a license.
def statusEvents : List String := [
  "license.created", "license.activated", "license.suspended", "license.resumed", "license.revoked",
  "license.expired", "license.renewed", "license.grace_entered"]

-- A change that is written to the license, and logged. Its key is not for the lifecycle to change.
structure LicenseChange where
  patch      : LicensePatch
  event      : String
  licenseKey : patch.licenseKey = none := by rfl
  status     : event ∈ statusEvents := by decide

open Prog

namespace LifecycleOp

def fn : LifecycleOp → License → Tx License
  | activate opts, l => Licensing.activate l opts
  | suspend opts,  l => Licensing.suspend l opts
  | resume opts,   l => Licensing.resume l opts
  | revoke opts,   l => Licensing.revoke l opts
  | expire opts,   l => Licensing.expire l opts
  | renew opts,    l => Licensing.renew l opts
  | tick opts,     l => Licensing.tick l opts

def opts : LifecycleOp → TransitionOptions
  | activate opts | suspend opts | resume opts | revoke opts | expire opts | tick opts => opts
  | renew opts => opts.toTransitionOptions

def revokedError : Error :=
  newError .licenseRevoked "license is revoked"

def setStatus (status : LicenseStatus) (event : String) (h : event ∈ statusEvents := by decide) :
    LicenseChange where
  patch  := { status := some status }
  event  := event
  status := h

-- An error, nothing to do, or a change.
def decision : LifecycleOp → License → String → Except Error (Option LicenseChange)
  | activate _, l, now =>
    match l.status with
    | .pending => .ok <| some {
        patch := { status := some .active, activatedAt := some (some now) }
        event := "license.activated" }
    | .active  => .ok none
    | .revoked => .error revokedError
    | status   => .error (illegalTransition status .active)
  | suspend _, l, _ =>
    match l.status with
    | .suspended => .ok none
    | .revoked   => .error revokedError
    | _          => .ok <| some <| setStatus .suspended "license.suspended"
  | resume _, l, _ =>
    match l.status with
    | .suspended => .ok <| some <| setStatus .active "license.resumed"
    | .revoked   => .error revokedError
    | status     => .error (illegalTransition status .active)
  | revoke _, l, _ =>
    match l.status with
    | .revoked => .ok none
    | _        => .ok <| some <| setStatus .revoked "license.revoked"
  | expire _, l, _ =>
    match l.status with
    | .active | .grace => .ok <| some <| setStatus .expired "license.expired"
    | .expired         => .ok none
    | .revoked         => .error revokedError
    | status           => .error (illegalTransition status .expired)
  | renew opts, l, _ =>
    match l.status with
    | .suspended => .error (illegalTransition .suspended .active)
    | .revoked   => .error revokedError
    | _          => .ok <| some {
        patch := {
          status     := some .active
          expiresAt  := some opts.expiresAt
          graceUntil := opts.graceUntil }
        event := "license.renewed" }
  | tick _, l, now =>
    if effectiveStatus l now = l.status then .ok none
    else match effectiveStatus l now with
    | .grace   => .ok <| some <| setStatus .grace "license.grace_entered"
    | .expired => .ok <| some <| setStatus .expired "license.expired"
    | _        => .ok none

-- Writes a change and logs it.
def carryOut (l : License) (opts : TransitionOptions) (now : String) (c : LicenseChange) :
    Tx License := do
  let updated ← Tx.updateLicense l.id c.patch
  writeLifecycleAudit l updated c.event now opts
  return updated

-- The clock is asked only by those that come to write, and by those that compare with it.
theorem fn_cases (op : LifecycleOp) (l : License) :
    (∃ e, op.fn l = .throw e ∧ ∀ now, op.decision l now = .error e) ∨
    (op.fn l = .pure l ∧ ∀ now, op.decision l now = .ok none) ∨
    op.fn l = .call .nowISO fun now =>
      match op.decision l now with
      | .error e     => .throw e
      | .ok none     => .pure l
      | .ok (some c) => carryOut l op.opts now c := by
  cases op
  case tick opts =>
    right; right
    simp only [fn, Licensing.tick, Tx.nowISO, call_bind, pure_bind, call.injEq, heq_eq_eq, true_and]
    funext now
    unfold decision
    split
    case isTrue hs  => simp [hs]
    case isFalse hs =>
      match he : effectiveStatus l now with
      | .grace | .expired =>
        rw [he] at hs
        simp [carryOut, setStatus, LifecycleOp.opts, he, hs]
      | .pending | .active | .suspended | .revoked => simp [he]
  all_goals
    cases hs : l.status
    all_goals simp [fn, Licensing.activate, Licensing.suspend, Licensing.resume, Licensing.revoke,
      Licensing.expire, Licensing.renew, assertNotRevoked, decision, carryOut, setStatus, revokedError,
      LifecycleOp.opts, Tx.nowISO, hs]

end LifecycleOp

end Licensing
