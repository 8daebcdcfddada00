import Licensing.Library.Keyset
import Licensing.Library.ReadCommitted
import Licensing.Library.Rows
import Licensing.Postgres.Tables

-- The SQL statements that the adapters send, and what the server answers.

namespace Licensing.Postgres

structure PgError where
  code       : String
  constraint : String := ""
  detail     : String := ""
  message    : String
  deriving DecidableEq, Repr

-- How the server reads a timestamp from a text.
structure Config where
  timestamptz : String → Option Int

-- A driver sends a timestamp as a value or leaves its text to the server.
inductive TsArg
  | value (t : Int)
  | text (s : String)
  deriving DecidableEq, Repr

-- What a statement finds around it: `now()`, the clock and the random numbers of the application,
-- and whether the server or the connection fails.
structure Env where
  now        : Int := 0
  clock      : String := ""
  freshId    : String := ""
  licenseKey : String := ""
  fault      : Option PgError := none

structure LicenseSet where
  status      : Option LicenseStatus := none
  maxUsages   : Option Int := none
  licenseKey  : Option String := none
  activatedAt : Option (Option TsArg) := none
  expiresAt   : Option (Option TsArg) := none
  graceUntil  : Option (Option TsArg) := none
  meta_       : Option Json.Object := none
  scopeId     : Option (Option String) := none
  templateId  : Option (Option String) := none

structure UsageSet where
  status     : Option UsageStatus := none
  revokedAt  : Option (Option TsArg) := none
  lastSeenAt : Option TsArg := none
  clientMeta : Option Json.Object := none

structure UsageValues where
  id           : String
  licenseId    : String
  fingerprint  : String
  status       : UsageStatus
  registeredAt : TsArg
  revokedAt    : Option TsArg
  lastSeenAt   : TsArg
  clientMeta   : Json.Object

structure AuditValues where
  id         : String
  licenseId  : Option String
  scopeId    : Option String
  actor      : String
  actorKind  : ActorKind
  actorId    : Option String
  event      : String
  priorState : Option Json.Object
  newState   : Option Json.Object
  occurredAt : TsArg

abbrev Cursor := Option (TsArg × String)

inductive Stmt
  | selectLicense (id : String)
  | selectLicenseByKey (licenseKey : String)
  | selectLicenseForUpdate (id : String)
  | updateLicense (id : String) (set : LicenseSet)
  | insertUsage (values : UsageValues)
  | selectUsage (id : String)
  | selectUsages (filter : LicenseUsageFilter) (cursor : Cursor) (limit : Nat)
  | updateUsage (id : String) (set : UsageSet)
  | selectKeyByKid (kid : String)
  | selectKeys (filter : LicenseKeyFilter) (cursor : Cursor) (limit : Nat)
  | selectScope (id : String)
  | insertAudit (values : AuditValues)
  | nowISO
  | newUUID
  | generateLicenseKey

@[reducible]
def Stmt.Res : Stmt → Type
  | selectLicense _ | selectLicenseByKey _ => Except PgError (Option LicenseRow)
  | selectLicenseForUpdate _               => Except PgError Unit
  | updateLicense _ _                      => Except PgError (Option LicenseRow)
  | insertUsage _                          => Except PgError UsageRow
  | selectUsage _                          => Except PgError (Option UsageRow)
  | selectUsages _ _ _                     => Except PgError (List UsageRow)
  | updateUsage _ _                        => Except PgError (Option UsageRow)
  | selectKeyByKid _                       => Except PgError (Option KeyRow)
  | selectKeys _ _ _                       => Except PgError (List KeyRow)
  | selectScope _                          => Except PgError (Option ScopeRow)
  | insertAudit _                          => Except PgError AuditRow
  | nowISO | newUUID | generateLicenseKey  => String

-- A unique index is a lock on the value that is inserted.
inductive Lock
  | license (id : String)
  | licenseKey (licenseKey : String)
  | usage (id : String)
  | activeFingerprint (licenseId fingerprint : String)
  | audit (id : String)
  deriving DecidableEq, Repr

inductive Write
  | putLicense (row : LicenseRow)
  | insertUsage (row : UsageRow)
  | putUsage (row : UsageRow)
  | insertAudit (row : AuditRow)

def Write.target : Write → Lock
  | putLicense row                 => .license row.id
  | insertUsage row | putUsage row => .usage row.id
  | insertAudit row                => .audit row.id

def apply (db : Tables) : Write → Tables
  | .putLicense row  => { db with licenses := Rows.replace LicenseRow.id row db.licenses }
  | .insertUsage row => { db with usages := db.usages ++ [row] }
  | .putUsage row    => { db with usages := Rows.replace UsageRow.id row db.usages }
  | .insertAudit row => { db with audit := db.audit ++ [row] }

def Tables.license? (db : Tables) (id : String) : Option LicenseRow :=
  Rows.find LicenseRow.id id db.licenses

def Tables.usage? (db : Tables) (id : String) : Option UsageRow :=
  Rows.find UsageRow.id id db.usages

def uniqueViolation (constraint detail : String) : PgError where
  code       := "23505"
  constraint := constraint
  detail     := detail
  message    := "duplicate key value violates unique constraint \"" ++ constraint ++ "\""

def checkViolation (constraint : String) : PgError where
  code       := "23514"
  constraint := constraint
  message    := "new row violates check constraint \"" ++ constraint ++ "\""

def Config.read (cfg : Config) : TsArg → Except PgError Int
  | .value t => .ok t
  | .text s  =>
    match cfg.timestamptz s with
    | some t => .ok t
    | none   => .error {
      code := "22007"
      message := "invalid input syntax for type timestamp with time zone: \"" ++ s ++ "\"" }

def Config.readNullable (cfg : Config) : Option TsArg → Except PgError (Option Int)
  | none   => .ok none
  | some a => (cfg.read a).map some

-- A column that is not in the set keeps its value.
def Config.readSet (cfg : Config) (old : Option Int) : Option (Option TsArg) → Except PgError (Option Int)
  | none   => .ok old
  | some a => cfg.readNullable a

def Config.readCursor (cfg : Config) : Cursor → Except PgError (Option Key)
  | none        => .ok none
  | some (a, i) => (cfg.read a).map fun t => some (toLex (t, i))

def updatedLicense (cfg : Config) (now : Int) (set : LicenseSet) (r : LicenseRow) :
    Except PgError LicenseRow := do
  let activatedAt ← cfg.readSet r.activatedAt set.activatedAt
  let expiresAt   ← cfg.readSet r.expiresAt set.expiresAt
  let graceUntil  ← cfg.readSet r.graceUntil set.graceUntil
  return { r with
    status      := set.status.getD r.status
    maxUsages   := set.maxUsages.getD r.maxUsages
    licenseKey  := set.licenseKey.getD r.licenseKey
    activatedAt := activatedAt
    expiresAt   := expiresAt
    graceUntil  := graceUntil
    meta_       := set.meta_.getD r.meta_
    scopeId     := set.scopeId.getD r.scopeId
    templateId  := set.templateId.getD r.templateId
    updatedAt   := now }

def checkLicense (db : Tables) (r : LicenseRow) : Except PgError Unit :=
  if r.maxUsages < 1 then .error (checkViolation "licenses_max_usages")
  else if r.expiresAt.any fun e => r.graceUntil.any (· ≤ e) then
    .error (checkViolation "licenses_grace_after_expiry")
  else if db.licenses.any fun r' => r'.id ≠ r.id ∧ r'.licenseKey = r.licenseKey then
    .error (uniqueViolation "licenses_license_key_key"
      ("Key (license_key)=(" ++ r.licenseKey ++ ") already exists."))
  else .ok ()

def updatedUsage (cfg : Config) (now : Int) (set : UsageSet) (r : UsageRow) :
    Except PgError UsageRow := do
  let revokedAt  ← cfg.readSet r.revokedAt set.revokedAt
  let lastSeenAt ← cfg.readSet (some r.lastSeenAt) (set.lastSeenAt.map some)
  return { r with
    status     := set.status.getD r.status
    revokedAt  := revokedAt
    lastSeenAt := lastSeenAt.getD r.lastSeenAt
    clientMeta := set.clientMeta.getD r.clientMeta
    updatedAt  := now }

def insertedUsage (cfg : Config) (now : Int) (v : UsageValues) : Except PgError UsageRow := do
  let registeredAt ← cfg.read v.registeredAt
  let revokedAt    ← cfg.readNullable v.revokedAt
  let lastSeenAt   ← cfg.read v.lastSeenAt
  return {
    id           := v.id
    licenseId    := v.licenseId
    fingerprint  := v.fingerprint
    status       := v.status
    registeredAt := registeredAt
    revokedAt    := revokedAt
    clientMeta   := v.clientMeta
    createdAt    := now
    updatedAt    := now
    lastSeenAt   := lastSeenAt }

def checkUsage (db : Tables) (r : UsageRow) : Except PgError Unit :=
  if db.usages.any (·.id = r.id) then
    .error (uniqueViolation "license_usages_pkey" ("Key (id)=(" ++ r.id ++ ") already exists."))
  else if r.status = .active ∧ db.usages.any fun r' =>
      r'.status = .active ∧ r'.licenseId = r.licenseId ∧ r'.fingerprint = r.fingerprint then
    .error (uniqueViolation "license_usages_active_fp_key"
      ("Key (license_id, fingerprint)=(" ++ r.licenseId ++ ", " ++ r.fingerprint ++
        ") already exists."))
  else if db.licenses.all (·.id ≠ r.licenseId) then .error {
    code       := "23503"
    constraint := "license_usages_license_id_fkey"
    message    := "insert or update on table \"license_usages\" violates foreign key constraint" }
  else .ok ()

def LicenseUsageFilter.matches (f : LicenseUsageFilter) (r : UsageRow) : Bool :=
  f.licenseId.all (· = r.licenseId) && f.fingerprint.all (· = r.fingerprint) &&
    (f.status.isEmpty || f.status.contains r.status)

def LicenseKeyFilter.matches (f : LicenseKeyFilter) (r : KeyRow) : Bool :=
  f.scopeId.all (· = r.scopeId) && f.kid.all (· = r.kid) && f.alg.all (· = r.alg) &&
    f.role.all (· = r.role) && f.state.all (· = r.state)

def locks : Stmt → Tables → List Lock
  | .selectLicenseForUpdate id, db => if (db.license? id).isSome then [.license id] else []
  | .updateLicense id set, db =>
    if (db.license? id).isSome then .license id :: (set.licenseKey.map .licenseKey).toList else []
  | .insertUsage v, _ =>
    .usage v.id :: if v.status = .active then [.activeFingerprint v.licenseId v.fingerprint] else []
  | .updateUsage id _, db => if (db.usage? id).isSome then [.usage id] else []
  | .insertAudit v, _ => [.audit v.id]
  | _, _ => []

-- A statement that fails writes nothing.
def answer {α : Type} (ω : Env) (r : Except PgError (α × List Write)) :
    Except PgError α × List Write :=
  match ω.fault with
  | some e => (.error e, [])
  | none   =>
    match r with
    | .ok (a, ws) => (.ok a, ws)
    | .error e    => (.error e, [])

def exec (cfg : Config) : (q : Stmt) → Env → Tables → q.Res × List Write
  | .selectLicense id, ω, db => answer ω <| .ok (db.license? id, [])
  | .selectLicenseByKey licenseKey, ω, db =>
    answer ω <| .ok (db.licenses.find? (·.licenseKey = licenseKey), [])
  | .selectLicenseForUpdate _, ω, _ => answer ω <| .ok ((), [])
  | .updateLicense id set, ω, db => answer ω <|
    match db.license? id with
    | none   => .ok (none, [])
    | some r => do
      let r ← updatedLicense cfg ω.now set r
      checkLicense db r
      return (some r, [.putLicense r])
  | .insertUsage v, ω, db => answer ω do
    let r ← insertedUsage cfg ω.now v
    checkUsage db r
    return (r, [.insertUsage r])
  | .selectUsage id, ω, db => answer ω <| .ok (db.usage? id, [])
  | .selectUsages filter cursor limit, ω, db => answer ω do
    let c ← cfg.readCursor cursor
    return (Keyset.select UsageRow.key (LicenseUsageFilter.matches filter) c limit db.usages, [])
  | .updateUsage id set, ω, db => answer ω <|
    match db.usage? id with
    | none   => .ok (none, [])
    | some r => do
      let r ← updatedUsage cfg ω.now set r
      return (some r, [.putUsage r])
  | .selectKeyByKid kid, ω, db => answer ω <| .ok (db.keys.find? (·.kid = kid), [])
  | .selectKeys filter cursor limit, ω, db => answer ω do
    let c ← cfg.readCursor cursor
    return (Keyset.select KeyRow.key (LicenseKeyFilter.matches filter) c limit db.keys, [])
  | .selectScope id, ω, db => answer ω <| .ok (db.scopes.find? (·.id = id), [])
  | .insertAudit v, ω, _ => answer ω do
    let occurredAt ← cfg.read v.occurredAt
    let r : AuditRow := {
      id         := v.id
      licenseId  := v.licenseId
      scopeId    := v.scopeId
      actor      := v.actor
      event      := v.event
      priorState := v.priorState
      newState   := v.newState
      occurredAt := occurredAt
      actorKind  := v.actorKind
      actorId    := v.actorId }
    return (r, [.insertAudit r])
  | .nowISO, ω, _             => (ω.clock, [])
  | .newUUID, ω, _            => (ω.freshId, [])
  | .generateLicenseKey, ω, _ => (ω.licenseKey, [])

-- What a write of a statement tells about it.
inductive Wrote (cfg : Config) (ω : Env) (db : Tables) : (q : Stmt) → q.Res → Write → Prop
  | updateLicense {id : String} {set : LicenseSet} {r r' : LicenseRow}
      (row : db.license? id = some r) (updated : updatedLicense cfg ω.now set r = .ok r')
      (check : checkLicense db r' = .ok ()) :
      Wrote cfg ω db (.updateLicense id set) (.ok (some r')) (.putLicense r')
  | insertUsage {v : UsageValues} {r : UsageRow}
      (inserted : insertedUsage cfg ω.now v = .ok r) (check : checkUsage db r = .ok ()) :
      Wrote cfg ω db (.insertUsage v) (.ok r) (.insertUsage r)
  | updateUsage {id : String} {set : UsageSet} {r r' : UsageRow}
      (row : db.usage? id = some r) (updated : updatedUsage cfg ω.now set r = .ok r') :
      Wrote cfg ω db (.updateUsage id set) (.ok (some r')) (.putUsage r')
  | insertAudit {v : AuditValues} {r : AuditRow} (id : r.id = v.id) :
      Wrote cfg ω db (.insertAudit v) (.ok r) (.insertAudit r)

section Wrote

variable {cfg : Config} {ω : Env} {db : Tables} {w : Write} {id : String}

theorem Tables.id_of_license? {r : LicenseRow} (h : db.license? id = some r) : r.id = id :=
  Rows.key_of_find h

theorem Tables.id_of_usage? {r : UsageRow} (h : db.usage? id = some r) : r.id = id :=
  Rows.key_of_find h

theorem updatedLicense_eq {set : LicenseSet} {r r' : LicenseRow}
    (h : updatedLicense cfg now set r = .ok r') : r'.id = r.id ∧
    r'.status = set.status.getD r.status ∧ r'.maxUsages = set.maxUsages.getD r.maxUsages := by
  simp only [updatedLicense, bind, Except.bind, pure, Except.pure] at h
  repeat (split at h; contradiction)
  cases h
  exact ⟨rfl, rfl, rfl⟩

theorem updatedLicense_id {set : LicenseSet} {r r' : LicenseRow}
    (h : updatedLicense cfg now set r = .ok r') : r'.id = r.id :=
  (updatedLicense_eq h).left

theorem updatedLicense_status {set : LicenseSet} {r r' : LicenseRow}
    (h : updatedLicense cfg now set r = .ok r') : r'.status = set.status.getD r.status :=
  (updatedLicense_eq h).right.left

theorem updatedLicense_maxUsages {set : LicenseSet} {r r' : LicenseRow}
    (h : updatedLicense cfg now set r = .ok r') :
    r'.maxUsages = set.maxUsages.getD r.maxUsages :=
  (updatedLicense_eq h).right.right

theorem updatedUsage_id {set : UsageSet} {r r' : UsageRow}
    (h : updatedUsage cfg now set r = .ok r') : r'.id = r.id := by
  simp only [updatedUsage, bind, Except.bind, pure, Except.pure] at h
  repeat (split at h; contradiction)
  cases h
  rfl

theorem insertedUsage_eq {v : UsageValues} {r : UsageRow} (h : insertedUsage cfg now v = .ok r) :
    r.id = v.id ∧ r.licenseId = v.licenseId ∧ r.fingerprint = v.fingerprint ∧
    r.status = v.status := by
  simp only [insertedUsage, bind, Except.bind, pure, Except.pure] at h
  repeat (split at h; contradiction)
  cases h
  exact ⟨rfl, rfl, rfl, rfl⟩

theorem answer_ok {α : Type} {a : α} {r : Except PgError (α × List Write)}
    (h : (answer ω r).1 = .ok a) : r = .ok (a, (answer ω r).2) := by
  unfold answer at h ⊢
  cases hω : ω.fault <;> simp only [hω] at h
  case none =>
    cases r <;> cases h
    rfl
  case some => cases h

theorem answer_writes {α : Type} {W : Except PgError α → Write → Prop}
    {r : Except PgError (α × List Write)}
    (h : ∀ a ws, r = .ok (a, ws) → ws = [] ∨ ∃ w, ws = [w] ∧ W (.ok a) w) :
    (answer ω r).2 = [] ∨ ∃ w, (answer ω r).2 = [w] ∧ W (answer ω r).1 w := by
  unfold answer
  cases ω.fault
  case some => exact .inl rfl
  case none =>
    cases r
    case error => exact .inl rfl
    case ok r => exact h _ _ rfl

-- A statement writes at most one row.
theorem exec_writes (cfg : Config) (ω : Env) (db : Tables) : (q : Stmt) → (exec cfg q ω db).2 = [] ∨
    ∃ w, (exec cfg q ω db).2 = [w] ∧ Wrote cfg ω db q (exec cfg q ω db).1 w
  | .updateLicense id set => answer_writes fun a ws hr => by
    split at hr
    · cases hr
      exact .inl rfl
    case h_2 r row =>
      simp only [bind, Except.bind, pure, Except.pure] at hr
      split at hr
      · contradiction
      case h_2 r' updated =>
        split at hr
        · contradiction
        case h_2 check =>
          cases hr
          exact .inr ⟨_, rfl, .updateLicense row updated check⟩
  | .insertUsage v => answer_writes fun a ws hr => by
    simp only [bind, Except.bind, pure, Except.pure] at hr
    split at hr
    · contradiction
    case h_2 r inserted =>
      split at hr
      · contradiction
      case h_2 check =>
        cases hr
        exact .inr ⟨_, rfl, .insertUsage inserted check⟩
  | .updateUsage id set => answer_writes fun a ws hr => by
    split at hr
    · cases hr
      exact .inl rfl
    case h_2 r row =>
      simp only [bind, Except.bind, pure, Except.pure] at hr
      split at hr
      · contradiction
      case h_2 r' updated =>
        cases hr
        exact .inr ⟨_, rfl, .updateUsage row updated⟩
  | .insertAudit v => answer_writes fun a ws hr => by
    simp only [bind, Except.bind, pure, Except.pure] at hr
    split at hr
    · contradiction
    · cases hr
      exact .inr ⟨_, rfl, .insertAudit rfl⟩
  | .selectUsages _ _ _ | .selectKeys _ _ _ => answer_writes fun a ws hr => by
    simp only [bind, Except.bind, pure, Except.pure] at hr
    split at hr
    · contradiction
    · cases hr
      exact .inl rfl
  | .selectLicense _ | .selectLicenseByKey _ | .selectLicenseForUpdate _ | .selectUsage _
  | .selectKeyByKid _ | .selectScope _ => answer_writes fun a ws hr => by
    cases hr
    exact .inl rfl
  | .nowISO | .newUUID | .generateLicenseKey => .inl rfl

theorem exec_wrote {q : Stmt} (h : w ∈ (exec cfg q ω db).2) :
    Wrote cfg ω db q (exec cfg q ω db).1 w := by
  cases exec_writes cfg ω db q
  case inl hn => simp [hn] at h
  case inr hw =>
    have ⟨w', hw, wr⟩ := hw
    rw [hw, List.mem_singleton] at h
    exact h ▸ wr

def Tables.status? (db : Tables) (id : String) : Option LicenseStatus :=
  (db.license? id).map (·.status)

-- The status of a license changes only to what an update of this license sets.
theorem Wrote.status? {q : Stmt} {a : q.Res} (wr : Wrote cfg ω db q a w) (id : String) :
    (apply db w).status? id = db.status? id ∨ ∃ set b,
      q = .updateLicense id set ∧ set.status = some b ∧ (apply db w).status? id = some b := by
  cases wr
  case updateLicense id' set r r' row updated check =>
    have hid : r'.id = id' := (updatedLicense_id updated).trans (Tables.id_of_license? row)
    by_cases h : id' = id
    case neg =>
      left
      simp only [Tables.status?, Tables.license?, apply]
      rw [Rows.find_replace_of_ne (hid.trans_ne h)]
    case pos =>
      subst h
      have hs : (apply db (.putLicense r')).status? id' = some (set.status.getD r.status) := by
        subst hid
        simp [Tables.status?, Tables.license?, apply, Rows.find_replace_self row,
          updatedLicense_status updated]
      cases hb : set.status
      case none => exact .inl (by rw [hs, hb, Tables.status?, row]; rfl)
      case some b => exact .inr ⟨set, b, rfl, hb, by rw [hs, hb]; rfl⟩
  all_goals exact .inl rfl

theorem Wrote.locked {q : Stmt} {a : q.Res} : Wrote cfg ω db q a w → w.target ∈ locks q db
  | .updateLicense row updated _ => by
    simp [locks, Write.target, row, updatedLicense_id updated, Tables.id_of_license? row]
  | .insertUsage inserted _ => by simp [locks, Write.target, (insertedUsage_eq inserted).left]
  | .updateUsage row updated => by
    simp [locks, Write.target, row, updatedUsage_id updated, Tables.id_of_usage? row]
  | .insertAudit id => by simp [locks, Write.target, id]

end Wrote

open ReadCommitted

def engine (cfg : Config) : Engine Tables Write Lock Stmt Env PgError Stmt.Res where
  apply         := apply
  target w      := some w.target
  locks         := locks
  exec          := exec cfg
  commitFault   := Env.fault
  writes_locked := fun _ _ _ _ hw _ hl => Option.some.inj hl ▸ (exec_wrote hw).locked

-- A transaction on the server, as the shared state of the sessions.
abbrev Store := ReadCommitted.Store Nat Tables Write Lock

def licenseRow (cfg : Config) (id : String) : (engine cfg).Row (.license id) (Option LicenseRow) where
  get db    := db.license? id
  get_apply := fun db w hw => by
    cases w
    case putLicense row => exact Rows.find_replace_of_ne (by simpa [engine, Write.target] using hw)
    all_goals rfl
  get_congr := fun db db' w h => by
    cases w
    case putLicense row => exact Rows.find_replace_congr h
    all_goals exact h

end Licensing.Postgres
