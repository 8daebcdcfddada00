import Mathlib.Data.List.Dedup
import Licensing.Library.Binary64
import Licensing.Model.Entities
import Licensing.Model.Time

-- The dashboard rollup over the licenses of a store.

namespace Licensing

structure LicenseStatusCounts where
  pending   : Nat
  active    : Nat
  grace     : Nat
  expired   : Nat
  suspended : Nat
  revoked   : Nat

structure LicenseDelta30d where
  added   : Nat
  removed : Nat

structure LicenseSeatTopEntry where
  licenseId    : String
  licenseKey   : String
  maxUsages    : Int
  activeUsages : Nat

structure LicenseSeatUtilization where
  activeUsagesTotal : Nat
  maxUsagesTotal    : Int
  topN              : List LicenseSeatTopEntry

structure LicenseTemplateCount where
  templateId   : String
  licenseCount : Nat

structure LicenseStats where
  counts            : LicenseStatusCounts
  expiringWithin30d : Nat
  activeDelta30d    : LicenseDelta30d
  seatUtilization   : LicenseSeatUtilization
  topTemplates      : List LicenseTemplateCount

-- The licenses are those of the scope, the ids those of the active usages, one for each usage.
structure ComputeLicenseStatsInput where
  licenses              : List License
  activeUsageLicenseIds : List String
  auditEvents           : List String
  nowMs                 : Int

namespace Go

-- An unreadable text counts as the epoch.
def msFromIso (iso : String) : Int :=
  ((parseTime iso).map (· / 1000000)).getD 0

def thirtyDaysMs : Int := 30 * 24 * 60 * 60 * 1000

def isoFromMs (ms : Int) : String :=
  isoFromTime (ms * 1000)

def seatRatio (e : LicenseSeatTopEntry) : Binary64 :=
  if 0 < e.maxUsages then (Binary64.ofInt e.activeUsages).div (.ofInt e.maxUsages) else .ofInt 0

-- Falling ratio, then falling number of active usages, then rising id.
def seatBefore (a b : LicenseSeatTopEntry) : Bool :=
  if seatRatio a ≠ seatRatio b then (seatRatio b).lt (seatRatio a)
  else if a.activeUsages ≠ b.activeUsages then b.activeUsages < a.activeUsages
  else a.licenseId < b.licenseId

def templateBefore (a b : LicenseTemplateCount) : Bool :=
  if a.licenseCount ≠ b.licenseCount then b.licenseCount < a.licenseCount
  else a.templateId < b.templateId

def expiring (nowMs : Int) (l : License) : Bool :=
  l.status = .active && l.expiresAt.any fun expiresAt =>
    ¬expiresAt < isoFromMs nowMs ∧ ¬isoFromMs (nowMs + thirtyDaysMs) < expiresAt

def computeLicenseStats (input : ComputeLicenseStatsInput) : LicenseStats :=
  let count (status : LicenseStatus) := input.licenses.countP (·.status = status)
  let entries := (input.licenses.filter (·.status = .active)).map fun l =>
    { licenseId    := l.id
      licenseKey   := l.licenseKey
      maxUsages    := l.maxUsages
      activeUsages := input.activeUsageLicenseIds.count l.id : LicenseSeatTopEntry }
  let templateIds := input.licenses.filterMap License.templateId
  let templates := templateIds.dedup.map fun id =>
    { templateId := id, licenseCount := templateIds.count id : LicenseTemplateCount }
  { counts := {
      pending   := count .pending
      active    := count .active
      grace     := count .grace
      expired   := count .expired
      suspended := count .suspended
      revoked   := count .revoked }
    expiringWithin30d := input.licenses.countP (expiring input.nowMs)
    activeDelta30d := {
      added   := input.auditEvents.countP (["license.created", "license.activated"].contains ·)
      removed := input.auditEvents.countP
        (["license.revoked", "license.expired", "license.suspended"].contains ·) }
    seatUtilization := {
      activeUsagesTotal := (entries.map LicenseSeatTopEntry.activeUsages).sum
      maxUsagesTotal    := (entries.map LicenseSeatTopEntry.maxUsages).sum
      topN              := (entries.mergeSort fun a b => !seatBefore b a).take 10 }
    topTemplates := (templates.mergeSort fun a b => !templateBefore b a).take 10 }

end Go

end Licensing
