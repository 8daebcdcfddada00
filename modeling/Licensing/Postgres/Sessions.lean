import Licensing.Postgres.Adapter

-- Sessions on the server, and the statements that the operations of a transaction send in them.

namespace Licensing.Postgres

open Prog ReadCommitted

abbrev Session := ReadCommitted.Op Stmt

abbrev Session.Ans : Session → Type := ReadCommitted.Op.Ans PgError Stmt.Res

abbrev Sessions := Threads Nat Store Session Session.Ans Error Unit

abbrev Trace := List (Event Session Session.Ans Store)

inductive Port
  | go
  | ts
  deriving DecidableEq

def Port.implement : Port → (o : Licensing.Op) → Sql o.Ans
  | go => Go.implement
  | ts => Ts.implement

def Port.withTransaction {α : Type} : Port → Tx α → Prog Session Session.Ans Error α
  | go => Go.withTransaction
  | ts => Ts.withTransaction

-- The license row was read, with this outcome.
def Trace.Read (h : Trace) (id : String) (r : LicenseRow) : Prop :=
  ∃ s, (⟨.stmt (.selectLicense id), s, .ok (some r)⟩ : Event Session Session.Ans Store) ∈ h

structure License.Scanned (l : License) (r : LicenseRow) : Prop where
  id        : l.id = r.id
  status    : l.status = r.status
  maxUsages : l.maxUsages = r.maxUsages

-- Operations that look rows up, other than those that a contract speaks of, and their statements.

def TxOp.IsLookup : TxOp → Prop
  | .getLicenseByKey _ | .getUsage _ | .getKeyByKid _ | .listKeys _ _ | .getScope _ => True
  | _ => False

def Stmt.IsLookup : Stmt → Prop
  | .selectLicenseByKey _ | .selectUsage _ | .selectKeyByKid _ | .selectKeys _ _ _
  | .selectScope _ => True
  | _ => False

def UsageValues.For (i : LicenseUsageInput) (v : UsageValues) : Prop :=
  v.licenseId = i.licenseId ∧ v.fingerprint = i.fingerprint ∧ v.status = i.status

-- The statements that an operation sends, up to what the ports do differently with texts.
inductive Sends : (o : Licensing.Op) → Sql o.Ans → Prop
  | getLicense {id : String} {f : Except PgError (Option LicenseRow) → Except Error (Option License)}
      (scanned : ∀ {a l}, f a = .ok (some l) → ∃ r, a = .ok (some r) ∧ License.Scanned l r) :
      Sends (.tx (.getLicense id)) (query (.selectLicense id) f)
  | updateLicense {id : String} {patch : LicensePatch} {set : LicenseSet}
      {f : Except PgError (Option LicenseRow) → Except Error License}
      (status : set.status = patch.status) (maxUsages : set.maxUsages = patch.maxUsages) :
      Sends (.tx (.updateLicense id patch)) (query (.updateLicense id set) f)
  | createUsageAfterLock {i : LicenseUsageInput} {v : String → UsageValues}
      {next : Except PgError Unit → Sql (Except Error LicenseUsage)}
      {f : Except PgError UsageRow → Except Error LicenseUsage}
      (values : ∀ id, UsageValues.For i (v id))
      (failed : ∀ e, ∃ a, next (.error e) = .pure a)
      (locked : next (.ok ()) = .call .newUUID fun id => query (.insertUsage (v id)) f) :
      Sends (.tx (.createUsage i)) (.call (.selectLicenseForUpdate i.licenseId) next)
  | createUsageBeforeLock {i : LicenseUsageInput} {v : String → UsageValues}
      {next : String → Except PgError Unit → Sql (Except Error LicenseUsage)}
      {f : Except PgError UsageRow → Except Error LicenseUsage}
      (values : ∀ id, UsageValues.For i (v id))
      (failed : ∀ id e, ∃ a, next id (.error e) = .pure a)
      (locked : ∀ id, next id (.ok ()) = query (.insertUsage (v id)) f) :
      Sends (.tx (.createUsage i)) (.call .newUUID fun id =>
        .call (.selectLicenseForUpdate i.licenseId) (next id))
  | listUsages {filter : LicenseUsageFilter} {page : PageRequest} {cursor : Cursor} {limit : Nat}
      {f : Except PgError (List UsageRow) → Except Error (Page LicenseUsage)}
      (failed : ∀ e, ∃ e', f (.error e) = .error e')
      (items : ∀ rows, ∃ p, f (.ok rows) = .ok p ∧ p.items.length = (rows.take limit).length) :
      Sends (.tx (.listUsages filter page)) (query (.selectUsages filter cursor (limit + 1)) f)
  | updateUsage {id : String} {patch : LicenseUsagePatch} {set : UsageSet}
      {f : Except PgError (Option UsageRow) → Except Error LicenseUsage} :
      Sends (.tx (.updateUsage id patch)) (query (.updateUsage id set) f)
  | lookup {o : TxOp} {q : Stmt} {f : q.Res → Except Error o.Res} (op : TxOp.IsLookup o)
      (stmt : q.IsLookup) :
      Sends (.tx o) (query q f)
  | appendAudit {i : AuditLogInput} {v : String → AuditValues}
      {f : Except PgError AuditRow → Except Error AuditLogEntry} :
      Sends (.tx (.appendAudit i)) (.call .newUUID fun id => query (.insertAudit (v id)) f)
  | nowISO : Sends .nowISO (.call .nowISO .pure)
  | generateLicenseKey : Sends .generateLicenseKey (.call .generateLicenseKey .pure)

theorem scanned_of_ok {iso : Int → String} {g : PgError → Error}
    {a : Except PgError (Option LicenseRow)} {l : License}
    (h : Except.mapError g (a.map (·.map (scanLicense iso))) = .ok (some l)) :
    ∃ r, a = .ok (some r) ∧ License.Scanned l r := by
  match a with
  | .ok (some r) =>
    cases h
    exact ⟨r, rfl, rfl, rfl, rfl⟩

-- A license that is read has the identifier it was asked for.
theorem License.Scanned.id_of_answers {cfg : Config} {id : String} {s : Store} {r : LicenseRow}
    {l : License} (h : License.Scanned l r)
    (ha : Threads.Answers (engine cfg).step t s (.stmt (.selectLicense id)) (.ok (some r))) :
    l.id = id := by
  have ⟨ω, ha⟩ := Engine.answers_stmt ha
  have hr := congrArg (·.1) (Except.ok.inj (answer_ok ha.symm))
  exact h.id.trans (Tables.id_of_license? hr)

theorem length_buildPage {α : Type} {encode : α → String} {limit : Nat} {rows : List α} :
    (buildPage encode limit rows).items.length = (rows.take limit).length := by
  unfold buildPage
  split
  case isTrue => rfl
  case isFalse h => rw [List.take_of_length_le (Nat.le_of_not_lt h)]

theorem length_of_page {iso : Int → String} {g : PgError → Error} {encode : LicenseUsage → String}
    {limit : Nat} (rows : List UsageRow) : ∃ p, Except.mapError g ((Except.ok rows).map fun rows =>
      buildPage encode limit (rows.map (scanUsage iso))) = .ok p ∧
        p.items.length = (rows.take limit).length :=
  ⟨_, rfl, by simp [length_buildPage]⟩

theorem sends_go_createUsage (i : LicenseUsageInput) :
    Sends (.tx (.createUsage i)) (Go.createUsage i) := by
  let f (r : Except PgError UsageRow) := Go.mapped (r.map (scanUsage Go.isoFromTime))
  refine .createUsageAfterLock (v := Go.usageValues i) (f := f) ?_ ?_ rfl
  · exact fun _ => ⟨rfl, rfl, rfl⟩
  · exact fun _ => ⟨_, rfl⟩

theorem sends_ts_createUsage (i : LicenseUsageInput) :
    Sends (.tx (.createUsage i)) (Ts.createUsage i) := by
  let f (r : Except PgError UsageRow) := Ts.mapped (r.map (scanUsage Ts.toIso))
  refine .createUsageBeforeLock (v := Ts.usageValues i) (f := f) ?_ ?_ fun _ => rfl
  · exact fun _ => ⟨rfl, rfl, rfl⟩
  · exact fun _ _ => ⟨_, rfl⟩

theorem sends_go_appendAudit (i : AuditLogInput) : Sends (.tx (.appendAudit i)) (Go.appendAudit i) :=
  let f (r : Except PgError AuditRow) := Go.mapped (r.map (scanAudit Go.isoFromTime))
  .appendAudit (f := f)

theorem sends_ts_appendAudit (i : AuditLogInput) : Sends (.tx (.appendAudit i)) (Ts.appendAudit i) :=
  let f (r : Except PgError AuditRow) := Ts.mapped (r.map (scanAudit Ts.toIso))
  .appendAudit (f := f)

theorem sends_go : (o : Licensing.Op) → Sends o (Go.implement o)
  | .tx (.getLicense _)      => .getLicense scanned_of_ok
  | .tx (.updateLicense _ _) => .updateLicense rfl rfl
  | .tx (.createUsage i)     => sends_go_createUsage i
  | .tx (.listUsages _ _)    => .listUsages (fun _ => ⟨_, rfl⟩) length_of_page
  | .tx (.updateUsage _ _)   => .updateUsage
  | .tx (.getLicenseByKey _) | .tx (.getUsage _) | .tx (.getKeyByKid _) | .tx (.listKeys _ _)
  | .tx (.getScope _)        => .lookup trivial trivial
  | .tx (.appendAudit i)     => sends_go_appendAudit i
  | .nowISO                  => .nowISO
  | .generateLicenseKey      => .generateLicenseKey

theorem sends_ts : (o : Licensing.Op) → Sends o (Ts.implement o)
  | .tx (.getLicense _)      => .getLicense scanned_of_ok
  | .tx (.updateLicense _ _) => .updateLicense rfl rfl
  | .tx (.createUsage i)     => sends_ts_createUsage i
  | .tx (.listUsages _ _)    => .listUsages (fun _ => ⟨_, rfl⟩) length_of_page
  | .tx (.updateUsage _ _)   => .updateUsage
  | .tx (.getLicenseByKey _) | .tx (.getUsage _) | .tx (.getKeyByKid _) | .tx (.listKeys _ _)
  | .tx (.getScope _)        => .lookup trivial trivial
  | .tx (.appendAudit i)     => sends_ts_appendAudit i
  | .nowISO                  => .nowISO
  | .generateLicenseKey      => .generateLicenseKey

theorem Port.sends : (port : Port) → (o : Licensing.Op) → Sends o (port.implement o)
  | go => sends_go
  | ts => sends_ts

theorem Port.withTransaction_eq {α : Type} (fn : Tx α) : (port : Port) → port.withTransaction fn =
    ReadCommitted.transaction (fun e => .other e.message) (fn.translate port.implement)
  | go | ts => rfl

section Obeys

variable {α σ : Type} {answers : σ → (o : Licensing.Op) → o.Ans → Prop}
variable {may : List (Event Licensing.Op Op.Ans σ) → Licensing.Op → Prop}
variable {answers' : Store → (o : Session) → o.Ans → Prop} {may' : Trace → Session → Prop}

-- A contract of the operations carries over to the statements if whatever an operation sends keeps a
-- relation between what has been called and what has been sent.
theorem Port.obeys (R : List (Event Licensing.Op Op.Ans σ) → Trace → Prop)
    (sends : ∀ {h h' o p}, Sends o p → R h h' → may h o →
      (p.translate inject).Obeys answers' may' (fun h'' r =>
        ∃ s a, r = .ok a ∧ answers s o a ∧ R (⟨o, s, a⟩ :: h) h'') h')
    (commit : ∀ h, may' h .commit) (rollback : ∀ h, may' h .rollback) (port : Port) {fn : Tx α}
    (hr : R [] []) (ob : fn.Obeys answers may (fun _ _ => True) []) :
    (port.withTransaction fn).Obeys answers' may' (fun _ _ => True) [] := by
  rw [port.withTransaction_eq]
  refine obeys_transaction commit rollback ?_
  rw [translate_translate]
  exact Obeys.translate (fun _ _ o hr hm => sends (port.sends o) hr hm) (fun _ _ _ _ _ => trivial) hr ob

end Obeys

def activeLicense : LicenseRow where
  id             := "01960000-0000-7000-8000-000000000001"
  scopeId        := none
  templateId     := none
  licensableType := "User"
  licensableId   := "42"
  licenseKey     := "LIC-AAAAA-AAAAA-AAAAA-AAAAA-AAAAA"
  status         := .active
  maxUsages      := 1
  activatedAt    := some 1776000000000000
  expiresAt      := none
  graceUntil     := none
  meta_          := []
  createdAt      := 1776000000000000
  updatedAt      := 1776000000000000
  isTrial        := false

def rfc3339 : Config where
  timestamptz := Go.tsVal?

end Licensing.Postgres
