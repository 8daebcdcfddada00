import Licensing.Library.StringOrder
import Licensing.Library.Upgrades
import Mathlib.Data.List.Sort

-- The runners that apply the migrations of a storage, and the directory from which they load them. A runner has one
-- text for SQLite and PostgreSQL in each of the ports.

namespace Licensing

open Prog Sessions

structure MigrationFile where
  name : String
  data : String
  deriving DecidableEq

namespace Go

-- The pattern of the embedded files has let through those whose names end in `.sql`.
def migrationFS (files : List MigrationFile) : List MigrationFile :=
  files.filter fun f => ".sql".toList.isSuffixOf f.name.toList

-- The names are compared by their bytes.
def loadMigrations (files : List MigrationFile) : List Script :=
  ((migrationFS files).map fun e => { name := e.name, sql := e.data : Script }).insertionSort
    fun a b => ¬b.name < a.name

def listMigrations (files : List MigrationFile) : List String :=
  (loadMigrations files).map (·.name)

def errorf (text name error : String) : String :=
  text ++ name ++ ": " ++ error

def rolledBack (f : Failure) : Upgrade :=
  Stmt.rollback.send (fun _ => .throw f) fun _ => .throw f

def applyPending : List Script → List String → Upgrade
  | [],          applied => .pure applied
  | mig :: migs, applied =>
    (Stmt.isRecorded mig.name).send (fun e => .throw ⟨applied, errorf "check migration " mig.name e⟩)
      fun (isRecorded : Bool) =>
    if isRecorded then applyPending migs applied
    else
      Stmt.begin.send (fun e => .throw ⟨applied, errorf "begin tx for " mig.name e⟩) fun _ =>
      (Stmt.exec mig.sql).send (fun e => rolledBack ⟨applied, errorf "apply " mig.name e⟩) fun _ =>
      (Stmt.insert mig.name).send (fun e => rolledBack ⟨applied, errorf "record " mig.name e⟩) fun _ =>
      Stmt.commit.send (fun e => .throw ⟨applied, errorf "commit " mig.name e⟩) fun _ =>
      applyPending migs (applied ++ [mig.name])

def applyMigrations (files : List MigrationFile) : Upgrade :=
  Stmt.ensureTable.send (fun e => .throw ⟨[], "ensure migrations table: " ++ e⟩) fun _ =>
  applyPending (loadMigrations files) []

end Go

namespace Ts

-- The names are compared by their code units.
def loadMigrations (files : List MigrationFile) : List Script :=
  ((files.filter fun f => ".sql".toList.isSuffixOf f.name.toList).map fun f =>
    { name := f.name, sql := f.data : Script }).insertionSort fun a b =>
      lexicographic (b.name.toList.flatMap StringOrder.units) (a.name.toList.flatMap StringOrder.units) ≠ .lt

def listMigrations (files : List MigrationFile) : List String :=
  (loadMigrations files).map (·.name)

-- What is thrown is the error alone.
def thrown (e : String) : Upgrade :=
  .throw ⟨[], e⟩

def caught (err : String) : Upgrade :=
  Stmt.rollback.send thrown fun _ => thrown err

def applyPending : List Script → List String → Upgrade
  | [],          applied => .pure applied
  | mig :: migs, applied =>
    (Stmt.isRecorded mig.name).send thrown fun (isApplied : Bool) =>
    if isApplied then applyPending migs applied
    else
      Stmt.begin.send thrown fun _ =>
      (Stmt.exec mig.sql).send caught fun _ =>
      (Stmt.insert mig.name).send caught fun _ =>
      Stmt.commit.send caught fun _ =>
      applyPending migs (applied ++ [mig.name])

def applyMigrations (files : List MigrationFile) : Upgrade :=
  Stmt.ensureTable.send thrown fun _ =>
  applyPending (loadMigrations files) []

end Ts

inductive MigrationRunner
  | go
  | ts
  deriving DecidableEq

namespace MigrationRunner

def loadMigrations : MigrationRunner → List MigrationFile → List Script
  | go => Go.loadMigrations
  | ts => Ts.loadMigrations

def listMigrations : MigrationRunner → List MigrationFile → List String
  | go => Go.listMigrations
  | ts => Ts.listMigrations

def applyPending : MigrationRunner → List Script → List String → Upgrade
  | go => Go.applyPending
  | ts => Ts.applyPending

def applyMigrations : MigrationRunner → List MigrationFile → Upgrade
  | go => Go.applyMigrations
  | ts => Ts.applyMigrations

end MigrationRunner

section Follows

variable {scripts : List Script} {applied : List String}

theorem Go.follows_rolledBack {f : Failure} (reports : f.applied ⊆ applied) :
    Follows scripts .stopping applied (Go.rolledBack f) := by
  apply Follows.rollback
  intro a
  cases a <;> exact .failed reports

theorem Ts.follows_thrown {e : String} : Follows scripts .stopping applied (Ts.thrown e) :=
  .failed (List.nil_subset _)

theorem Ts.follows_caught {e : String} : Follows scripts .stopping applied (Ts.caught e) := by
  apply Follows.rollback
  intro a
  cases a <;> exact Ts.follows_thrown

theorem Go.follows_applyPending (scripts : List Script) :
    Follows scripts (.checking 0) [] (Go.applyPending scripts []) := by
  apply Follows.of_turns (fun _ => rfl)
  intro i mig migs applied script rest
  refine .check script (fun _ => .failed (List.Subset.refl _)) (rest _) ?_
  refine .begin (fun _ => .failed (List.Subset.refl _)) ?_
  refine .exec script (fun _ => Go.follows_rolledBack (List.Subset.refl _)) ?_
  refine .insert script (fun _ => Go.follows_rolledBack (List.Subset.refl _)) ?_
  exact .commit script (fun _ => .failed (List.Subset.refl _)) (rest _)

theorem Ts.follows_applyPending (scripts : List Script) :
    Follows scripts (.checking 0) [] (Ts.applyPending scripts []) := by
  apply Follows.of_turns (fun _ => rfl)
  intro i mig migs applied script rest
  refine .check script (fun _ => Ts.follows_thrown) (rest _) ?_
  refine .begin (fun _ => Ts.follows_thrown) ?_
  refine .exec script (fun _ => Ts.follows_caught) ?_
  refine .insert script (fun _ => Ts.follows_caught) ?_
  exact .commit script (fun _ => Ts.follows_caught) (rest _)

theorem MigrationRunner.follows (runner : MigrationRunner) (files : List MigrationFile) :
    Follows (runner.loadMigrations files) .starting [] (runner.applyMigrations files) := by
  cases runner
  case go => exact .start (fun _ => .failed (List.nil_subset _)) (Go.follows_applyPending _)
  case ts => exact .start (fun _ => Ts.follows_thrown) (Ts.follows_applyPending _)

end Follows

-- What a runner reports when a migration has failed.
def MigrationRunner.failure : MigrationRunner → List String → Script → String → Failure
  | go, applied, mig, e => ⟨applied, Go.errorf "apply " mig.name e⟩
  | ts, _, _, e         => ⟨[], e⟩

theorem MigrationRunner.turn (runner : MigrationRunner) (mig : Script) (migs : List Script) (applied : List String) :
    Turn mig (runner.failure applied mig) (runner.applyPending migs applied)
      (runner.applyPending migs (applied ++ [mig.name])) (runner.applyPending (mig :: migs) applied) := by
  cases runner
  case go =>
    exact ⟨_, _, fun e => Go.rolledBack ⟨applied, Go.errorf "apply " mig.name e⟩, _, _, fun e => ⟨_, rfl⟩, rfl⟩
  case ts => exact ⟨_, _, Ts.caught, _, _, fun e => ⟨_, rfl⟩, rfl⟩

-- A release of one of the ports, with the directory of files that it ships.
structure Release where
  runner   : MigrationRunner
  files    : List MigrationFile
  distinct : (files.map (·.name)).Nodup

namespace Release

def migrations (r : Release) : List Script :=
  r.runner.loadMigrations r.files

def applyMigrations (r : Release) : Upgrade :=
  r.runner.applyMigrations r.files

def listMigrations (r : Release) : List String :=
  r.runner.listMigrations r.files

theorem listMigrations_eq (r : Release) : r.listMigrations = r.migrations.map Script.name := by
  rw [listMigrations, migrations]
  cases r.runner <;> rfl

theorem names_distinct (r : Release) : (r.migrations.map Script.name).Nodup := by
  have shipped : ((r.files.filter fun f => ".sql".toList.isSuffixOf f.name.toList).map (·.name)).Nodup :=
    r.distinct.sublist (List.filter_sublist.map _)
  have sorted : (r.migrations.map Script.name).Perm
      ((r.files.filter fun f => ".sql".toList.isSuffixOf f.name.toList).map (·.name)) := by
    rw [migrations]
    cases r.runner
    all_goals
      refine ((List.perm_insertionSort _ _).map Script.name).trans ?_
      simp [Go.migrationFS, Function.comp_def]
  exact sorted.nodup_iff.mpr shipped

end Release

def migrating {Tid σ : Type} (schema₀ : σ) (releases : Tid → Release) :
    Threads Tid (Database Tid σ) Stmt Stmt.Ans Failure (List String) :=
  .initial (Database.initial schema₀) fun t => (releases t).applyMigrations

def initialMigration : Script where
  name := "0001_initial.sql"
  sql  := "CREATE TABLE licenses"

def jtiMigration : Script where
  name := "0003_jti_uses.sql"
  sql  := "CREATE TABLE jti_uses"

def released (t : Nat) : Release :=
  if t = 0 then ⟨.go, [⟨initialMigration.name, initialMigration.sql⟩], by decide⟩
  else ⟨.ts, [⟨jtiMigration.name, jtiMigration.sql⟩, ⟨initialMigration.name, initialMigration.sql⟩], by decide⟩

section Runs

variable {Tid σ : Type} [DecidableEq Tid] {runs : String → σ → Except String σ} {history : List Script}
variable {releases : Tid → Release} {schema₀ : σ}
variable {c : Threads Tid (Database Tid σ) Stmt Stmt.Ans Failure (List String)}

-- Releases of different age migrate one database at a time, and any statement of theirs may fail.
theorem migrated_in_turn (distinct : (history.map Script.name).Nodup)
    (ships : ∀ t, (releases t).migrations <+: history)
    (run : Threads.Run (Database.exec runs) (fun _ _ _ _ => true) (migrating schema₀ releases) c) :
    (∃ k, c.shared.recorded = (history.take k).map Script.name ∧
      runAll runs (history.take k) schema₀ = .ok c.shared.schema) ∧
    (∀ t applied, c.prog t = .pure applied → (releases t).listMigrations <+: c.shared.recorded) ∧
    ∀ t, ∀ name ∈ reported (c.prog t), name ∈ c.shared.recorded ∧ ∀ t', name ∈ reported (c.prog t') → t' = t := by
  have ⟨k, owner, h⟩ := upgraded_of_run distinct ships (fun t => (releases t).runner.follows (releases t).files) run
  have owns {t : Tid} {name : String} (hn : name ∈ reported (c.prog t)) : owner name = some t := by
    have ⟨_, _, follows, _, owns⟩ := h.follows t
    exact owns name (follows.reported_subset hn)
  refine ⟨⟨k, h.recorded, h.schema⟩, ?complete, ?reported⟩
  case complete =>
    intro t applied ht
    have ⟨phase, _, follows, holds, owns⟩ := h.follows t
    clear owns
    rw [ht] at follows
    cases follows
    case done i last =>
      rw [h.recorded, Release.listMigrations_eq]
      exact (List.prefix_take_iff.mpr ⟨ships t, Nat.le_trans last holds⟩).map _
  case reported =>
    intro t name hn
    exact ⟨h.owned name t (owns hn), fun t' hn' => Option.some.inj ((owns hn').symm.trans (owns hn))⟩

-- The first two runners find the first migration pending, and one of them is late. The third applies the other one.
theorem migrated_after_conflict :
    ∃ c, Threads.Run (Database.exec fun sql schema => .ok (schema ++ [sql])) (fun _ _ _ _ => true)
        (migrating [] released) c ∧
      (∃ k, c.shared.recorded = ([initialMigration, jtiMigration].take k).map Script.name ∧
        runAll (fun sql schema => .ok (schema ++ [sql])) ([initialMigration, jtiMigration].take k) [] =
          .ok c.shared.schema) ∧
      (released 2).listMigrations <+: c.shared.recorded ∧
      reported (c.prog 1) = [] ∧
      "0003_jti_uses.sql" ∈ c.shared.recorded ∧ ∀ t, "0003_jti_uses.sql" ∈ reported (c.prog t) → t = 2 := by
  have h : ((migrating [] released).run (Database.exec fun sql schema => .ok (schema ++ [sql]))
      (fun _ _ _ _ => true) ([0, 1, 0, 1, 0, 1, 0, 1, 0, 0, 1, 1, 2, 2, 2, 2, 2, 2, 2].map (·, .none))).isSome := by
    rfl
  have run := Threads.Run.of_isSome h
  have ships (t : Nat) : (released t).migrations <+: [initialMigration, jtiMigration] := by
    by_cases ht : t = 0
    case pos => simp only [released, ht]; decide +kernel
    case neg => simp only [released, ht]; decide +kernel
  have done : (Option.get _ h).prog 2 = .pure ["0003_jti_uses.sql"] := by rfl
  have ⟨taken, complete, named⟩ := migrated_in_turn (by decide) ships run
  have ⟨recorded, alone⟩ := named 2 "0003_jti_uses.sql" (by rw [done]; simp [reported])
  exact ⟨_, run, taken, complete 2 _ done, by rfl, recorded, alone⟩

variable {t : Tid} {db : Database Tid σ}

theorem alone_applyMigrations (r : Release) (idle : ∀ t, db.work t = none) (free : ∀ name, db.holder name = none) :
    ∃ db₁ : Database Tid σ, Settled db₁ db.recorded db.schema ∧
      alone runs t r.applyMigrations db = alone runs t (r.runner.applyPending r.migrations []) db₁ := by
  have ⟨db₁, (ensured : Database.perform runs t .ensureTable db = _), settled⟩ := Settled.ensureTable idle free
  refine ⟨db₁, settled, ?_⟩
  rw [Release.applyMigrations, Release.migrations]
  cases r.runner
  case go => exact alone_send ensured
  case ts => exact alone_send ensured

theorem run_alone (r : Release) (idle : ∀ t, db.work t = none) (free : ∀ name, db.holder name = none) :
    let a := advance runs (r.migrations.filter (·.name ∉ db.recorded)) db.schema
    ∃ db', alone runs t r.applyMigrations db = some (a.outcome r.runner.failure [], db') ∧
      Settled db' (db.recorded ++ a.done.map Script.name) a.schema := by
  have stop (applied : List String) : r.runner.applyPending [] applied = .pure applied := by
    cases r.runner <;> rfl
  obtain ⟨db₁, settled, ran⟩ := alone_applyMigrations (t := t) r idle free
  rw [ran]
  exact alone_of_turns stop r.runner.turn r.migrations r.names_distinct settled []

-- A runner that nothing interferes with applies what is not recorded, in order, up to the first migration that fails.
-- After one that has succeeded a release with no other migrations has nothing to do.
theorem applies_pending (r : Release) (idle : ∀ t, db.work t = none) (free : ∀ name, db.holder name = none) :
    let a := advance runs (r.migrations.filter (·.name ∉ db.recorded)) db.schema
    ∃ db', alone runs t r.applyMigrations db = some (a.outcome r.runner.failure [], db') ∧
      Settled db' (db.recorded ++ a.done.map Script.name) a.schema ∧
      ∀ (r' : Release) (t' : Tid), a.failed = none →
        r'.listMigrations ⊆ r.listMigrations →
        ∃ db'', alone runs t' r'.applyMigrations db' = some (.ok [], db'') ∧
          Settled db'' (db.recorded ++ a.done.map Script.name) a.schema := by
  obtain ⟨db', ran, settled⟩ := run_alone (t := t) r idle free
  refine ⟨db', ran, settled, fun r' t' ok subset => ?_⟩
  rw [r'.listMigrations_eq, r.listMigrations_eq] at subset
  obtain ⟨db'', ran', settled'⟩ := run_alone (t := t') r' settled.work settled.holder
  have nothing : r'.migrations.filter (·.name ∉ db'.recorded) = [] := by
    refine List.filter_eq_nil_iff.mpr fun s hs => ?_
    obtain ⟨s', hs', same⟩ := List.mem_map.mp (subset (List.mem_map_of_mem hs))
    have applied : s'.name ∈ db'.recorded := by
      rw [settled.recorded, done_of_not_failed ok]
      by_cases known : s'.name ∈ db.recorded
      case pos => exact List.mem_append_left _ known
      case neg =>
        have pending : s' ∈ r.migrations.filter (·.name ∉ db.recorded) :=
          List.mem_filter.mpr ⟨hs', by simpa using known⟩
        exact List.mem_append_right _ (List.mem_map_of_mem pending)
    simpa [← same] using applied
  rw [nothing] at ran' settled'
  refine ⟨db'', ran', ?_⟩
  simpa [settled.recorded, settled.schema, advance] using settled'

theorem applies_pending_initial :
    ∃ db', alone (fun sql schema => .ok (schema ++ [sql])) 0 (released 1).applyMigrations (Database.initial []) =
        some (.ok ["0001_initial.sql", "0003_jti_uses.sql"], db') ∧
      db'.schema = ["CREATE TABLE licenses", "CREATE TABLE jti_uses"] ∧
      ∃ db'', alone (fun sql schema => .ok (schema ++ [sql])) 0 (released 0).applyMigrations db' =
        some (.ok [], db'') := by
  have ⟨db', ran, settled, again⟩ := @applies_pending Nat (List String) _ (fun sql schema => .ok (schema ++ [sql])) 0
    (Database.initial []) (released 1) (fun _ => rfl) (fun _ => rfl)
  have ⟨db'', ran', _⟩ := again (released 0) 0 rfl (by decide +kernel)
  exact ⟨db', ran, settled.schema, db'', ran'⟩

end Runs

end Licensing
