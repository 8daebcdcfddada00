import Licensing.Model.Lifecycle

namespace Licensing

structure RegisterUsageInput where
  licenseId   : String
  fingerprint : String
  clientMeta  : Json.Object

structure RegisterUsageResult where
  usage   : LicenseUsage
  license : License
  created : Bool

def assertUsable (license : License) : Tx Unit :=
  match license.status with
  | .active | .pending | .grace => .pure ()
  | .suspended => .throw (newError .licenseSuspended "license is suspended")
  | .revoked   => .throw (newError .licenseRevoked "license is revoked")
  | .expired   => .throw (newError .licenseExpired "license has expired")

-- The page walks have no bound in the source. Here a walk of more than `fuel` pages fails.
def outOfFuel : Error :=
  .other "page walk out of fuel"

def findActiveUsageFrom (licenseId fingerprint : String) : Nat → String → Tx (Option LicenseUsage)
  | 0,        _      => .throw outOfFuel
  | fuel + 1, cursor => do
    let page ← Tx.listUsages
      { licenseId := some licenseId, fingerprint := some fingerprint, status := [.active] }
      { limit := 100, cursor := cursor }
    match page.items.find? (·.fingerprint = fingerprint) with
    | some usage => return some usage
    | none       =>
      if page.cursor = "" then return none
      else findActiveUsageFrom licenseId fingerprint fuel page.cursor

def findActiveUsage (fuel : Nat) (licenseId fingerprint : String) : Tx (Option LicenseUsage) :=
  findActiveUsageFrom licenseId fingerprint fuel ""

def countActiveUsagesFrom (licenseId : String) : Nat → String → Nat → Tx Nat
  | 0,        _,      _     => .throw outOfFuel
  | fuel + 1, cursor, count => do
    let page ← Tx.listUsages
      { licenseId := some licenseId, status := [.active] } { limit := 500, cursor := cursor }
    let count := count + page.items.length
    if page.cursor = "" then return count
    else countActiveUsagesFrom licenseId fuel page.cursor count

def countActiveUsages (fuel : Nat) (licenseId : String) : Tx Nat :=
  countActiveUsagesFrom licenseId fuel "" 0

-- Inserts the seat and activates a pending license.
def insertSeat (license : License) (input : RegisterUsageInput) (activeCount : Nat)
    (actor : Option String) : Tx RegisterUsageResult := do
  let now ← Tx.nowISO
  let usage ← Tx.createUsage {
    licenseId    := input.licenseId
    fingerprint  := input.fingerprint
    status       := .active
    registeredAt := now
    clientMeta   := input.clientMeta }
  let _ ← Tx.appendAudit {
    licenseId  := some license.id
    scopeId    := license.scopeId
    actor      := actor.getD "system"
    event      := "usage.registered"
    newState   := some [
      ("usage_id", .str usage.id),
      ("fingerprint", .str usage.fingerprint),
      ("active_count", .ofNat (activeCount + 1))]
    occurredAt := now }
  if license.status = .pending then
    let license ← activate license { actor := some (actor.getD "system") }
    return { usage := usage, license := license, created := true }
  else return { usage := usage, license := license, created := true }

-- The body of the transaction that registers a seat.
def registerUsage (fuel : Nat) (input : RegisterUsageInput) (actor : Option String) :
    Tx RegisterUsageResult := do
  match ← Tx.getLicense input.licenseId with
  | none => .throw (newError .licenseNotFound ("license not found: " ++ input.licenseId))
  | some license =>
    assertUsable license
    match ← findActiveUsage fuel input.licenseId input.fingerprint with
    | some existing => return { usage := existing, license := license, created := false }
    | none =>
      let activeCount ← countActiveUsages fuel input.licenseId
      if license.maxUsages ≤ activeCount then
        .throw (newError .seatLimitExceeded
          ("seat limit exceeded: " ++ toString activeCount ++ "/" ++ toString license.maxUsages))
      else insertSeat license input activeCount actor

end Licensing
