import Licensing.Library.Interleave

-- A database whose connections keep transactions open. One of its tables records names under a unique key: a
-- transaction that has inserted a name keeps the others from inserting it until it ends.

namespace Sessions

open Prog

-- What an open transaction has done: the schema, once it has changed it, and the names it has inserted.
structure Work (σ : Type) where
  schema   : Option σ := none
  inserted : List String := []

-- `table` is `none` as long as there is no table of names, and `holder` is the transaction that has inserted a name.
structure Database (Tid σ : Type) where
  schema : σ
  table  : Option (List String)
  work   : Tid → Option (Work σ)
  holder : String → Option Tid

inductive Stmt
  | ensureTable
  | isRecorded (name : String)
  | begin
  | exec (sql : String)
  | insert (name : String)
  | commit
  | rollback

abbrev Stmt.Res : Stmt → Type
  | isRecorded _ => Bool
  | _            => Unit

-- An error of the driver is its message.
abbrev Stmt.Ans (o : Stmt) : Type :=
  Except String o.Res

-- A statement may fail before it takes effect, and with it the transaction may be gone. The answer to one that has
-- taken effect may be lost.
inductive Fault
  | none
  | before (message : String) (ended : Bool)
  | after (message : String)

namespace Database

variable {Tid σ : Type} [DecidableEq Tid]

def initial (schema : σ) : Database Tid σ where
  schema := schema
  table  := none
  work   := fun _ => none
  holder := fun _ => none

def recorded (db : Database Tid σ) : List String :=
  db.table.getD []

def setWork (db : Database Tid σ) (t : Tid) (w : Work σ) : Database Tid σ :=
  { db with work := Function.update db.work t (some w) }

-- The end of a transaction, of which nothing stays.
def drop (db : Database Tid σ) (t : Tid) : Database Tid σ where
  schema := db.schema
  table  := db.table
  work   := Function.update db.work t none
  holder := fun name => if db.holder name = some t then none else db.holder name

def record (db : Database Tid σ) (t : Tid) (w : Work σ) (name : String) : Database Tid σ where
  schema := db.schema
  table  := db.table
  work   := Function.update db.work t (some { w with inserted := w.inserted ++ [name] })
  holder := Function.update db.holder name (some t)

-- The schema of the transaction replaces the one that others may have committed since.
def commit (db : Database Tid σ) (t : Tid) (w : Work σ) : Database Tid σ :=
  { db with schema := w.schema.getD db.schema, table := db.table.map (· ++ w.inserted) }.drop t

variable (runs : String → σ → Except String σ) (t : Tid)

-- A statement outside a transaction is one of its own.
def perform : (o : Stmt) → Database Tid σ → Option (o.Ans × Database Tid σ)
  | .ensureTable, db => some (.ok (), { db with table := some db.recorded })
  | .isRecorded name, db =>
    match db.table with
    | none       => some (.error "no such table", db)
    | some names => some (.ok (decide (name ∈ names)), db)
  | .begin, db =>
    match db.work t with
    | some _ => some (.error "cannot start a transaction within a transaction", db)
    | none   => some (.ok (), db.setWork t {})
  | .exec sql, db =>
    match db.work t with
    | none =>
      match runs sql db.schema with
      | .error e   => some (.error e, db)
      | .ok schema => some (.ok (), { db with schema := schema })
    | some w =>
      match runs sql (w.schema.getD db.schema) with
      | .error e   => some (.error e, db)
      | .ok schema => some (.ok (), db.setWork t { w with schema := some schema })
  | .insert name, db =>
    match db.holder name with
    | some t' =>
      if t' = t then some (.error "unique constraint failed", db) else none
    | none    =>
      match db.table with
      | none       => some (.error "no such table", db)
      | some names =>
        if name ∈ names then some (.error "unique constraint failed", db)
        else match db.work t with
          | none   => some (.ok (), { db with table := some (names ++ [name]) })
          | some w => some (.ok (), db.record t w name)
  | .commit, db =>
    match db.work t with
    | none   => some (.ok (), db)
    | some w => some (.ok (), db.commit t w)
  | .rollback, db => some (.ok (), db.drop t)

def exec (ω : Fault) (o : Stmt) (db : Database Tid σ) : Option (o.Ans × Database Tid σ) :=
  match ω with
  | .none                 => perform runs t o db
  | .before message ended => some (.error message, if ended then db.drop t else db)
  | .after message        => (perform runs t o db).map fun r => (.error message, r.2)

variable {runs t} {ω : Fault} {o : Stmt} {a : o.Ans} {db db' : Database Tid σ}

-- A statement fails without an effect, or takes effect, whereupon its answer may be lost.
theorem exec_cases (h : exec runs t ω o db = some (a, db')) :
    (∃ e, a = .error e) ∧ (db' = db ∨ db' = db.drop t) ∨
      ∃ b, perform runs t o db = some (b, db') ∧ (a = b ∨ ∃ e, a = .error e) := by
  cases ω
  case none                 => exact .inr ⟨a, h, .inl rfl⟩
  case before message ended =>
    cases h
    refine .inl ⟨⟨message, rfl⟩, ?_⟩
    cases ended
    case true  => exact .inr rfl
    case false => exact .inl rfl
  case after message        =>
    have ⟨⟨b, db''⟩, hp, e⟩ := Option.map_eq_some_iff.mp h
    cases e
    exact .inr ⟨b, hp, .inr ⟨message, rfl⟩⟩

-- What a transaction leaves alone as long as it is not committed: the rows, and the other transactions.
structure Quiet (t : Tid) (db db' : Database Tid σ) : Prop where
  schema   : db'.schema = db.schema
  recorded : db'.recorded = db.recorded
  table    : db.table.isSome → db'.table.isSome
  work     : ∀ t', t' ≠ t → db'.work t' = db.work t'
  holder   : ∀ t', t' ≠ t → ∀ name, db'.holder name = some t' ↔ db.holder name = some t'

namespace Quiet

omit [DecidableEq Tid] in
theorem refl : Quiet t db db :=
  ⟨rfl, rfl, id, fun _ _ => rfl, fun _ _ _ => .rfl⟩

omit [DecidableEq Tid] in
theorem ensureTable : Quiet t db { db with table := some db.recorded } :=
  ⟨rfl, rfl, fun _ => rfl, fun _ _ => rfl, fun _ _ _ => .rfl⟩

theorem setWork (w : Work σ) : Quiet t db (db.setWork t w) :=
  ⟨rfl, rfl, id, fun _ h => Function.update_of_ne h .., fun _ _ _ => .rfl⟩

theorem drop : Quiet t db (db.drop t) := by
  refine ⟨rfl, rfl, id, fun _ h => Function.update_of_ne h .., fun t' h name => ?_⟩
  show (if db.holder name = some t then none else db.holder name) = some t' ↔ _
  by_cases hn : db.holder name = some t
  case pos => simp [hn, Ne.symm h]
  case neg => simp [hn]

theorem record {name : String} (w : Work σ) (free : db.holder name = none) : Quiet t db (db.record t w name) := by
  refine ⟨rfl, rfl, id, fun _ h => Function.update_of_ne h .., fun t' h name' => ?_⟩
  show Function.update db.holder name (some t) name' = some t' ↔ _
  by_cases hn : name' = name
  case pos => simp [hn, free, Ne.symm h]
  case neg => simp [hn]

end Quiet

section Perform

variable {w : Work σ} {name sql : String}

theorem perform_isRecorded {b : (Stmt.isRecorded name).Ans} (h : perform runs t (.isRecorded name) db = some (b, db')) :
    db' = db ∧ ∀ v, b = .ok v → v = decide (name ∈ db.recorded) := by
  rw [perform] at h
  cases ht : db.table
  case none =>
    rw [ht] at h
    cases h
    exact ⟨rfl, fun _ e => by cases e⟩
  case some names =>
    rw [ht] at h
    cases h
    refine ⟨rfl, fun _ e => ?_⟩
    cases e
    have held : db.recorded = names := by simp [recorded, ht]
    rw [held]

theorem perform_begin {b : Stmt.begin.Ans} (h : perform runs t .begin db = some (b, db')) :
    (∃ e, b = .error e) ∧ db' = db ∨ b = .ok () ∧ db' = db.setWork t {} := by
  rw [perform] at h
  cases hw : db.work t
  case none   => rw [hw] at h; cases h; exact .inr ⟨rfl, rfl⟩
  case some w => rw [hw] at h; cases h; exact .inl ⟨⟨_, rfl⟩, rfl⟩

theorem perform_exec {b : (Stmt.exec sql).Ans} (hw : db.work t = some w)
    (h : perform runs t (.exec sql) db = some (b, db')) :
    (∃ e, b = .error e) ∧ db' = db ∨
      ∃ schema, runs sql (w.schema.getD db.schema) = .ok schema ∧ b = .ok () ∧
        db' = db.setWork t { w with schema := some schema } := by
  simp only [perform, hw] at h
  cases hr : runs sql (w.schema.getD db.schema)
  case error e   => rw [hr] at h; cases h; exact .inl ⟨⟨_, rfl⟩, rfl⟩
  case ok schema => rw [hr] at h; cases h; exact .inr ⟨schema, rfl, rfl, rfl⟩

theorem perform_insert {b : (Stmt.insert name).Ans} (hw : db.work t = some w)
    (h : perform runs t (.insert name) db = some (b, db')) :
    (∃ e, b = .error e) ∧ db' = db ∨
      db.holder name = none ∧ db.table.isSome ∧ name ∉ db.recorded ∧ b = .ok () ∧ db' = db.record t w name := by
  rw [perform] at h
  cases hh : db.holder name
  case some t' =>
    rw [hh] at h
    dsimp only at h
    split at h
    case isTrue  => cases h; exact .inl ⟨⟨_, rfl⟩, rfl⟩
    case isFalse => cases h
  case none =>
    rw [hh] at h
    dsimp only at h
    cases ht : db.table
    case none => rw [ht] at h; cases h; exact .inl ⟨⟨_, rfl⟩, rfl⟩
    case some names =>
      rw [ht] at h
      dsimp only at h
      split at h
      case isTrue      => cases h; exact .inl ⟨⟨_, rfl⟩, rfl⟩
      case isFalse new =>
        rw [hw] at h
        cases h
        exact .inr ⟨rfl, rfl, by simpa [recorded, ht] using new, rfl, rfl⟩

theorem perform_commit {b : Stmt.commit.Ans} (hw : db.work t = some w)
    (h : perform runs t .commit db = some (b, db')) : b = .ok () ∧ db' = db.commit t w := by
  simp only [perform, hw] at h
  cases h
  exact ⟨rfl, rfl⟩

end Perform

end Database

end Sessions
