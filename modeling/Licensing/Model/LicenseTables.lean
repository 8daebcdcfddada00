import Licensing.Library.Machine
import Licensing.Memory.Store
import Licensing.Postgres.Adapter

-- The table of the licenses, as each of the adapters writes and reads it.

namespace Licensing

-- What a write finds: the clock of the application, `now()` of the server and a new id.
structure Found where
  clock   : String := ""
  now     : Int := 0
  freshId : String := ""

-- A row is what an insertion makes of its input, or an update of another row. The constraints on the rows
-- are left out: what refuses a write is left to the one who makes it.
structure LicenseTable where
  Row      : Type
  id       : Row → String
  inserted : Found → LicenseInput → Option Row
  patched  : Found → LicensePatch → Row → Option Row
  scan     : Row → License

namespace LicenseTable

variable (t : LicenseTable)

abbrev Rows := Table t.id

-- A call of the storage, which may fail. Calls of other tables do not write to this one.
structure Call where
  op    : StorageOp
  found : Found := {}
  fails : Bool := false

def update (s : t.Rows) (found : Found) (id : String) (patch : LicensePatch) : t.Rows :=
  match (s.find id).bind (t.patched found patch) with
  | some r => s.replace r
  | none   => s

def perform (s : t.Rows) (found : Found) : StorageOp → t.Rows
  | .createLicense input    => (t.inserted found input).elim s s.put
  | .updateLicense id patch => t.update s found id patch
  | .deleteLicense id       => s.erase id
  | _                       => s

def step (s : t.Rows) (c : Call) : t.Rows :=
  if c.fails then s else t.perform s c.found c.op

-- The license that is read under an id.
def getLicense (s : t.Rows) (id : String) : Option License :=
  (s.find id).map t.scan

end LicenseTable

namespace Postgres

structure LicenseValues where
  id             : String
  scopeId        : Option String
  templateId     : Option String
  licensableType : String
  licensableId   : String
  licenseKey     : String
  status         : LicenseStatus
  maxUsages      : Int
  activatedAt    : Option TsArg
  expiresAt      : Option TsArg
  graceUntil     : Option TsArg
  meta_          : Json.Object

-- The columns that the statement does not name have their defaults.
def insertedLicense (cfg : Config) (now : Int) (v : LicenseValues) : Except PgError LicenseRow := do
  let activatedAt ← cfg.readNullable v.activatedAt
  let expiresAt   ← cfg.readNullable v.expiresAt
  let graceUntil  ← cfg.readNullable v.graceUntil
  return {
    id             := v.id
    scopeId        := v.scopeId
    templateId     := v.templateId
    licensableType := v.licensableType
    licensableId   := v.licensableId
    licenseKey     := v.licenseKey
    status         := v.status
    maxUsages      := v.maxUsages
    activatedAt    := activatedAt
    expiresAt      := expiresAt
    graceUntil     := graceUntil
    meta_          := v.meta_
    createdAt      := now
    updatedAt      := now
    isTrial        := false }

end Postgres

namespace Sqlite

-- Timestamps are texts here, and booleans are numbers.
structure LicenseRow where
  id             : String
  scopeId        : Option String
  templateId     : Option String
  licensableType : String
  licensableId   : String
  licenseKey     : String
  status         : LicenseStatus
  maxUsages      : Int
  activatedAt    : Option String
  expiresAt      : Option String
  graceUntil     : Option String
  meta_          : Json.Object
  createdAt      : String
  updatedAt      : String
  isTrial        : Int

-- Here, too.
def insertedLicense (now freshId : String) (input : LicenseInput) : LicenseRow where
  id             := freshId
  scopeId        := input.scopeId
  templateId     := input.templateId
  licensableType := input.licensableType
  licensableId   := input.licensableId
  licenseKey     := input.licenseKey
  status         := input.status
  maxUsages      := input.maxUsages
  activatedAt    := input.activatedAt
  expiresAt      := input.expiresAt
  graceUntil     := input.graceUntil
  meta_          := input.meta_
  createdAt      := now
  updatedAt      := now
  isTrial        := 0

def updatedLicense (now : String) (patch : LicensePatch) (r : LicenseRow) : LicenseRow :=
  { r with
    status      := patch.status.getD r.status
    maxUsages   := patch.maxUsages.getD r.maxUsages
    licenseKey  := patch.licenseKey.getD r.licenseKey
    activatedAt := patch.activatedAt.getD r.activatedAt
    expiresAt   := patch.expiresAt.getD r.expiresAt
    graceUntil  := patch.graceUntil.getD r.graceUntil
    meta_       := patch.meta_.getD r.meta_
    scopeId     := patch.scopeId.getD r.scopeId
    templateId  := patch.templateId.getD r.templateId
    updatedAt   := now }

def scanLicense (isTrue : Int → Bool) (r : LicenseRow) : License where
  id             := r.id
  scopeId        := r.scopeId
  templateId     := r.templateId
  licensableType := r.licensableType
  licensableId   := r.licensableId
  licenseKey     := r.licenseKey
  status         := r.status
  maxUsages      := r.maxUsages
  activatedAt    := r.activatedAt
  expiresAt      := r.expiresAt
  graceUntil     := r.graceUntil
  meta_          := r.meta_
  createdAt      := r.createdAt
  updatedAt      := r.updatedAt
  isTrial        := isTrue r.isTrial

end Sqlite

-- The storages of a port. The server of one of them reads the timestamps its own way.
inductive AdapterKind
  | memory
  | postgres (cfg : Postgres.Config)
  | sqlite

-- An input has no flag, so that a license in memory is never a trial.
def memoryLicenses : LicenseTable where
  Row                  := License
  id                   := License.id
  inserted found input := some (Memory.createdLicense { clock := found.clock, freshId := found.freshId } input)
  patched found patch  := some ∘ Memory.patchedLicense found.clock patch
  scan                 := id

def sqliteLicenses (isTrue : Int → Bool) : LicenseTable where
  Row                  := Sqlite.LicenseRow
  id                   := Sqlite.LicenseRow.id
  inserted found input := some (Sqlite.insertedLicense found.clock found.freshId input)
  patched found patch  := some ∘ Sqlite.updatedLicense found.clock patch
  scan                 := Sqlite.scanLicense isTrue

namespace Go

def licenseValues (input : LicenseInput) (id : String) : Postgres.LicenseValues where
  id             := id
  scopeId        := input.scopeId
  templateId     := input.templateId
  licensableType := input.licensableType
  licensableId   := input.licensableId
  licenseKey     := input.licenseKey
  status         := input.status
  maxUsages      := input.maxUsages
  activatedAt    := (tsOrNull input.activatedAt).map .value
  expiresAt      := (tsOrNull input.expiresAt).map .value
  graceUntil     := (tsOrNull input.graceUntil).map .value
  meta_          := input.meta_

def licenses : AdapterKind → LicenseTable
  | .memory       => memoryLicenses
  | .sqlite       => sqliteLicenses (· ≠ 0)
  | .postgres cfg => {
    Row                  := Postgres.LicenseRow
    id                   := Postgres.LicenseRow.id
    inserted found input := (Postgres.insertedLicense cfg found.now (licenseValues input found.freshId)).toOption
    patched found patch  := fun r => (Postgres.updatedLicense cfg found.now (licenseSet patch) r).toOption
    scan                 := Postgres.scanLicense isoFromTime }

end Go

namespace Ts

def licenseValues (input : LicenseInput) (id : String) : Postgres.LicenseValues where
  id             := id
  scopeId        := input.scopeId
  templateId     := input.templateId
  licensableType := input.licensableType
  licensableId   := input.licensableId
  licenseKey     := input.licenseKey
  status         := input.status
  maxUsages      := input.maxUsages
  activatedAt    := input.activatedAt.map .text
  expiresAt      := input.expiresAt.map .text
  graceUntil     := input.graceUntil.map .text
  meta_          := input.meta_

def licenses : AdapterKind → LicenseTable
  | .memory       => memoryLicenses
  | .sqlite       => sqliteLicenses (· = 1)
  | .postgres cfg => {
    Row                  := Postgres.LicenseRow
    id                   := Postgres.LicenseRow.id
    inserted found input := (Postgres.insertedLicense cfg found.now (licenseValues input found.freshId)).toOption
    patched found patch  := fun r => (Postgres.updatedLicense cfg found.now (licenseSet patch) r).toOption
    scan                 := Postgres.scanLicense toIso }

end Ts

namespace LicenseTable

open Machine

-- No write knows of the flag.
structure Flagless (t : LicenseTable) : Prop where
  scan_id  : ∀ r, (t.scan r).id = t.id r
  inserted : ∀ {found input r}, t.inserted found input = some r → (t.scan r).isTrial = false
  patched  : ∀ {found patch r r'}, t.patched found patch r = some r' →
    t.id r' = t.id r ∧ (t.scan r').isTrial = (t.scan r).isTrial

theorem memory_flagless : memoryLicenses.Flagless where
  scan_id _  := rfl
  inserted h := by
    cases h
    rfl
  patched h  := by
    cases h
    exact ⟨rfl, rfl⟩

theorem sqlite_flagless {isTrue : Int → Bool} (zero : isTrue 0 = false) : (sqliteLicenses isTrue).Flagless where
  scan_id _  := rfl
  inserted h := by
    cases h
    exact zero
  patched h  := by
    cases h
    exact ⟨rfl, rfl⟩

theorem ok_of_toOption {ε α : Type} {x : Except ε α} {a : α} (h : x.toOption = some a) : x = .ok a := by
  cases x
  case error => cases h
  case ok    =>
    cases h
    rfl

theorem flag_of_insertedLicense {cfg : Postgres.Config} {now : Int} {v : Postgres.LicenseValues}
    {r : Postgres.LicenseRow} (h : (Postgres.insertedLicense cfg now v).toOption = some r) : r.isTrial = false := by
  replace h := ok_of_toOption h
  rw [Postgres.insertedLicense] at h
  have ⟨_, _, h⟩ := bind_eq_ok_iff.mp h
  have ⟨_, _, h⟩ := bind_eq_ok_iff.mp h
  have ⟨_, _, h⟩ := bind_eq_ok_iff.mp h
  cases h
  rfl

theorem kept_of_updatedLicense {cfg : Postgres.Config} {now : Int} {set : Postgres.LicenseSet}
    {r r' : Postgres.LicenseRow} (h : (Postgres.updatedLicense cfg now set r).toOption = some r') :
    r'.id = r.id ∧ r'.isTrial = r.isTrial := by
  replace h := ok_of_toOption h
  rw [Postgres.updatedLicense] at h
  obtain ⟨_, _, h⟩ := bind_eq_ok_iff.mp h
  obtain ⟨_, _, h⟩ := bind_eq_ok_iff.mp h
  obtain ⟨_, _, h⟩ := bind_eq_ok_iff.mp h
  cases h
  exact ⟨rfl, rfl⟩

theorem go_flagless (a : AdapterKind) : (Go.licenses a).Flagless := by
  cases a
  case memory       => exact memory_flagless
  case sqlite       => exact sqlite_flagless rfl
  case postgres cfg => exact ⟨fun _ => rfl, flag_of_insertedLicense, kept_of_updatedLicense⟩

theorem ts_flagless (a : AdapterKind) : (Ts.licenses a).Flagless := by
  cases a
  case memory       => exact memory_flagless
  case sqlite       => exact sqlite_flagless rfl
  case postgres cfg => exact ⟨fun _ => rfl, flag_of_insertedLicense, kept_of_updatedLicense⟩

-- The license that is stored under an id is a trial or not, as long as there is one.
def Flagged (t : LicenseTable) (id : String) (isTrial : Bool) (s : t.Rows) : Prop :=
  ∀ l, t.getLicense s id = some l → l.isTrial = isTrial

variable {t : LicenseTable} {s : t.Rows} {id : String} {c : Call}

theorem flagged_put {r : t.Row} (h : t.Flagged id false s) (hr : (t.scan r).isTrial = false) :
    t.Flagged id false (s.put r) := by
  intro l hl
  rw [getLicense, Table.find_put] at hl
  split at hl
  case isTrue =>
    cases hl
    exact hr
  case isFalse => exact h l hl

namespace Flagless

variable (flagless : t.Flagless)

include flagless

theorem flagged_update {found : Found} {id' : String} {patch : LicensePatch} (h : t.Flagged id false s) :
    t.Flagged id false (t.update s found id' patch) := by
  rw [update]
  cases hr : (s.find id').bind (t.patched found patch)
  case none    => exact h
  case some r' =>
    have ⟨r, hf, hp⟩ := Option.bind_eq_some_iff.mp hr
    have ⟨hid, flag⟩ := flagless.patched hp
    have key := Table.key_of_find hf
    have hf : s.find (t.id r') = some r := by rw [hid, key, hf]
    intro l hl
    rw [getLicense, Table.find_replace hf] at hl
    split at hl
    case isTrue e =>
      cases hl
      rw [flag]
      apply h
      rw [getLicense, e, hf]
      rfl
    case isFalse => exact h l hl

-- Nothing that is called makes a license a trial.
theorem flagged_step (h : t.Flagged id false s) : t.Flagged id false (t.step s c) := by
  rw [step]
  split
  case isTrue  => exact h
  case isFalse =>
    cases c.op
    case createLicense input =>
      rw [perform]
      cases hr : t.inserted c.found input
      case none   => exact h
      case some r => exact flagged_put h (flagless.inserted hr)
    case updateLicense => exact flagless.flagged_update h
    case deleteLicense =>
      intro l hl
      rw [perform, getLicense, Table.find_erase] at hl
      split at hl
      case isTrue  => cases hl
      case isFalse => exact h l hl
    all_goals exact h

theorem flagged_always {calls : List Call} (h : t.Flagged id false s) :
    Always t.step (t.Flagged id false) s calls :=
  .of_keeps (fun _ _ => flagless.flagged_step) h

end Flagless

end LicenseTable

end Licensing
