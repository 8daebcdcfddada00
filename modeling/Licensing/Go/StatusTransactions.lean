import Licensing.Model.Transactions
import Licensing.Postgres.Sessions

-- Concurrent transactions that change the status of licenses, over the Postgres adapter.

namespace Licensing.Go

open Prog ReadCommitted Postgres

def sessions (db : Tables) (txs : Nat → Transaction) : Sessions :=
  .initial (.initial db) fun t => withTransaction (txs t).body

def readStatus (id : String) : Event Session Session.Ans Store → Option LicenseStatus
  | ⟨.stmt (.selectLicense id'), _, .ok (some r)⟩ => if id' = id then some r.status else none
  | _                                             => none

-- An update finds the committed status that its transaction has read.
def freshStatus (s : Store) (seen : Nat → Trace) (t : Nat) : Session → Bool
  | .stmt (.updateLicense id _) =>
    ((seen t).filterMap (readStatus id)).all fun a => s.committed.status? id = some a
  | _ => true

theorem freshStatus_read {s : Store} {seen : Nat → Trace} {id : String} {set : LicenseSet}
    {r : LicenseRow}
    (h : freshStatus s seen t (.stmt (.updateLicense id set))) (hr : (seen t).Read id r) :
    s.committed.status? id = some r.status := by
  have ⟨_, hm⟩ := hr
  simpa using List.all_eq_true.mp h r.status (List.mem_filterMap.mpr ⟨_, hm, by simp [readStatus]⟩)

section Contract

variable {cfg : Config} {legal : LicenseStatus → LicenseStatus → Prop}

-- The contract of a transaction, on the level of statements.
def MayUpdate (legal : LicenseStatus → LicenseStatus → Prop) (h : Trace) (o : Session) : Prop :=
  ∀ id set b, o = .stmt (.updateLicense id set) → set.status = some b →
    ∃ r, h.Read id r ∧ legal r.status b

-- What the storage operations have read is what the statements have read.
def Reads (h : History) (h' : Trace) : Prop :=
  ∀ id l, h.Got id l → ∃ r, h'.Read id r ∧ r.status = l.status

theorem Reads.cons {h : History} {h' h'' : Trace} (hr : Reads h h') (hs : h' <:+ h'')
    {e : Event Op Op.Ans Unit} (he : ∀ id, e.op ≠ .tx (.getLicense id)) : Reads (e :: h) h'' := by
  intro id l hg
  cases List.mem_cons.mp hg
  case inl hg => exact absurd (congrArg Event.op hg).symm (he id)
  case inr hg =>
    have ⟨r, ⟨s, hm⟩, hl⟩ := hr id l hg
    exact ⟨r, ⟨s, hs.subset hm⟩, hl⟩

def IsUpdate : Stmt → Prop
  | .updateLicense _ _ => True
  | _                  => False

-- Statements that do not update licenses.
def QuietSql {α : Type} (p : Sql α) : Prop :=
  ∀ h : Trace, (p.translate inject).Obeys (fun _ _ _ => True)
    (fun _ o => ∀ q, o = .stmt q → ¬IsUpdate q) (fun h' r => h <:+ h' ∧ ∃ a, r = .ok a) h

theorem QuietSql.pure {α : Type} (a : α) : QuietSql (.pure a : Sql α) :=
  fun _ => ⟨List.suffix_rfl, a, rfl⟩

theorem QuietSql.call {α : Type} {q : Stmt} {next : q.Res → Sql α} (hq : ¬IsUpdate q)
    (hn : ∀ a, QuietSql (next a)) : QuietSql (.call q next) := by
  refine fun h => ⟨fun q' he => ?_, fun s a _ => (hn a _).mono fun _ _ ⟨hs, hr⟩ =>
    ⟨(List.suffix_cons _ _).trans hs, hr⟩⟩
  cases he
  exact hq

theorem QuietSql.query {α : Type} {q : Stmt} {f : q.Res → α} (hq : ¬IsUpdate q) :
    QuietSql (query q f) :=
  .call hq fun _ => .pure _

theorem QuietSql.sends {o : Licensing.Op} {p : Sql o.Ans} (hs : Sends o p) (ho : o.IsRead) :
    QuietSql p := by
  cases hs
  case updateLicense => exact ho.elim
  case createUsageAfterLock next f values failed locked =>
    refine .call not_false fun a => ?_
    match a with
    | .error e =>
      have ⟨a, ha⟩ := failed e
      exact ha ▸ .pure a
    | .ok ()   => exact locked ▸ .call not_false fun _ => .query not_false
  case createUsageBeforeLock next f values failed locked =>
    refine .call not_false fun id => .call not_false fun a => ?_
    match a with
    | .error e =>
      have ⟨a, ha⟩ := failed id e
      exact ha ▸ .pure a
    | .ok ()   => exact locked id ▸ .query not_false
  case lookup q f _ stmt =>
    refine .query ?_
    cases q <;> first | exact not_false | exact stmt.elim
  case appendAudit => exact .call not_false fun _ => .query not_false
  case nowISO => exact .call not_false fun _ => .pure _
  case generateLicenseKey => exact .call not_false fun _ => .pure _
  all_goals exact .query not_false

theorem QuietSql.obeys {α : Type} {p : Sql α} (hq : QuietSql p) {answers} (h : Trace) :
    (p.translate inject).Obeys answers (MayUpdate legal)
      (fun h' r => h <:+ h' ∧ ∃ a, r = .ok a) h :=
  (hq h).imp (fun _ _ _ _ => trivial)
    (fun _ _ ho id set _ he _ => absurd trivial (ho (.updateLicense id set) he)) fun _ _ => id

theorem sends_obeys {o : Licensing.Op} {p : Sql o.Ans} {h : History} {h' : Trace} (hs : Sends o p)
    (hr : Reads h h') (hm : History.MayUpdate legal h o) :
    (p.translate inject).Obeys (Threads.Answers (engine cfg).step t) (MayUpdate legal)
      (fun h'' r => ∃ s a, r = .ok a ∧ History.Answers s o a ∧ Reads (⟨o, s, a⟩ :: h) h'') h' := by
  have quiet (ho : o.IsRead) (hne : ∀ id, o ≠ .tx (.getLicense id)) :
      (p.translate inject).Obeys (Threads.Answers (engine cfg).step t) (MayUpdate legal)
        (fun h'' r => ∃ s a, r = .ok a ∧ History.Answers s o a ∧ Reads (⟨o, s, a⟩ :: h) h'') h' :=
    Obeys.mono (fun _ _ ⟨hs, a, ha⟩ => ⟨(), a, ha, History.answers_of_ne hne a, hr.cons hs hne⟩)
      ((QuietSql.sends hs ho).obeys h')
  cases hs
  case getLicense id f scanned =>
    refine ⟨fun id' set _ he _ => (nomatch he), fun s a ha => ⟨(), _, rfl, ?_, ?_⟩⟩
    case refine_1 =>
      match hf : f a with
      | .ok (some l) =>
        have ⟨r, hr, hl⟩ := scanned hf
        exact hl.id_of_answers (hr ▸ ha)
      | .ok none | .error _ => trivial
    case refine_2 =>
      intro id' l hg
      cases List.mem_cons.mp hg
      case inl hg =>
        generalize hf : f a = b at hg
        cases hg
        have ⟨r, hr, hl⟩ := scanned hf
        exact ⟨r, ⟨s, hr ▸ List.mem_cons_self⟩, hl.status.symm⟩
      case inr hg =>
        have ⟨r, ⟨s, hm⟩, hl⟩ := hr id' l hg
        exact ⟨r, ⟨s, List.mem_cons_of_mem _ hm⟩, hl⟩
  case updateLicense id patch set f status _ =>
    refine ⟨fun id' set' b he hb => ?_, fun s a _ =>
      ⟨(), _, rfl, trivial, hr.cons (List.suffix_cons _ _) nofun⟩⟩
    cases he
    have ⟨l, hg, hl⟩ := hm b (status ▸ hb)
    have ⟨r, hrd, hs⟩ := hr id l hg
    exact ⟨r, hrd, hs ▸ hl⟩
  case lookup o _ _ op _ =>
    cases o <;> first | exact op.elim | exact quiet trivial nofun
  all_goals exact quiet trivial nofun

theorem transaction_obeys (t : Nat) (tx : Transaction) :
    (withTransaction tx.body).Obeys (Threads.Answers (engine cfg).step t)
      (MayUpdate tx.transition.Legal) (fun _ _ => True) [] :=
  Port.go.obeys Reads sends_obeys (fun _ _ _ _ h => nomatch h) (fun _ _ _ _ h => nomatch h)
    (fun _ _ hg => absurd hg List.not_mem_nil) tx.permitted

end Contract

structure Consistent (cfg : Config) (txs : Nat → Transaction) (s : Store) : Prop where
  locked  : (engine cfg).WriteLocked s
  changes : ∀ id t, Changes (txs t).transition.Legal (s.committed.status? id)
    (((engine cfg).view t s).status? id)

namespace Consistent

variable {cfg : Config} {txs : Nat → Transaction} {s s' : Store} {seen : Nat → Trace} {t : Nat}

theorem initial (db : Tables) : Consistent cfg txs (.initial db) where
  locked      := .initial db
  changes _ _ := .inl rfl

theorem stmt {q : Stmt} {ω : Env} (con : Consistent cfg txs s)
    (may : MayUpdate (txs t).transition.Legal (seen t) (.stmt q)) (fresh : freshStatus s seen t (.stmt q))
    (id : String) : Changes (txs t).transition.Legal (s.committed.status? id)
      ((((exec cfg q ω ((engine cfg).view t s)).2).foldl apply ((engine cfg).view t s)).status? id) := by
  cases exec_writes cfg ω ((engine cfg).view t s) q
  case inl hw => exact hw ▸ con.changes id t
  case inr hw =>
    have ⟨w, hw, wr⟩ := hw
    rw [hw]
    cases wr.status? id
    case inl h => exact (congrArg _ h).mpr (con.changes id t)
    case inr h =>
      have ⟨set, b, hq, hb, hs⟩ := h
      have ⟨r, hr, hl⟩ := may id set b (congrArg _ hq) hb
      subst hq
      exact .inr ⟨r.status, b, freshStatus_read fresh hr, hs, hl⟩

theorem step {o : Session} {a : o.Ans} (con : Consistent cfg txs s)
    (may : MayUpdate (txs t).transition.Legal (seen t) o) (fresh : freshStatus s seen t o)
    (e : (engine cfg).Effect t s o a s') : Consistent cfg txs s' where
  locked     := con.locked.effect e
  changes id := by
    have h := Engine.Row.relates (r := licenseRow cfg id)
      (P := fun t x y => Changes (txs t).transition.Legal (x.map LicenseRow.status) (y.map LicenseRow.status))
      (fun _ _ => .inl rfl) con.locked (con.changes id) e fun q hq => by
        subst hq
        cases e
        case stmt ω _ =>
          rw [Engine.Row.get_view_write]
          exact con.stmt may fresh id
    exact h

theorem of_run {db : Tables} {c : Sessions}
    (run : Threads.Run (engine cfg).step freshStatus (sessions db txs) c) :
    Consistent cfg txs c.shared ∧ c.Obey (engine cfg).step (fun t => MayUpdate (txs t).transition.Legal)
      fun _ _ _ => True :=
  run.invariant (fun s _ => Consistent cfg txs s)
    (fun t => transaction_obeys t (txs t)) (.initial db)
    fun con may fresh h => con.step may fresh (Engine.step_effect h)

theorem committed (con : Consistent cfg txs s) {o : Session} {a : o.Ans}
    (e : (engine cfg).Effect t s o a s') (id : String) :
    Changes (txs t).transition.Legal (s.committed.status? id) (s'.committed.status? id) := by
  cases (licenseRow cfg id).committed_cases e
  case inl h => exact .inl (congrArg (Option.map LicenseRow.status) h).symm
  case inr h =>
    have hs : s'.committed.status? id = ((engine cfg).view t s).status? id :=
      congrArg (Option.map LicenseRow.status) h.right
    exact hs ▸ con.changes id t

end Consistent

section Runs

variable {cfg : Config} {db : Tables} {txs : Nat → Transaction} {c c' : Sessions}

theorem step_changes (run : Threads.Run (engine cfg).step freshStatus (sessions db txs) c)
    (e : Threads.Step (engine cfg).step freshStatus t c c') (id : String) :
    Changes (txs t).transition.Legal (c.shared.committed.status? id) (c'.shared.committed.status? id) := by
  cases e
  case intro ha =>
    exact (Consistent.of_run run).left.committed (Engine.step_effect ha) id

theorem step_revoked (run : Threads.Run (engine cfg).step freshStatus (sessions db txs) c)
    (e : Threads.Step (engine cfg).step freshStatus t c c') {id : String}
    (h : c.shared.committed.status? id = some .revoked) :
    c'.shared.committed.status? id = some .revoked :=
  (step_changes run e id).keeps_revoked h

theorem run_revoked (run : Threads.Run (engine cfg).step freshStatus (sessions db txs) c)
    (run' : Threads.Run (engine cfg).step freshStatus c c') {id : String}
    (h : c.shared.committed.status? id = some .revoked) :
    c'.shared.committed.status? id = some .revoked :=
  run'.keeps (fun c => c.shared.committed.status? id = some .revoked) h fun run' e =>
    step_revoked (run.trans run') e

-- As long as no update overwrites a status that its transaction has not read, every committed change
-- of a status is legal from the status committed before it, and revoked is terminal.
theorem fresh_status_changes_legal
    (run : Threads.Run (engine cfg).step freshStatus (sessions db txs) c)
    (run' : Threads.Run (engine cfg).step freshStatus c c') (id : String) :
    (∀ t c'', Threads.Step (engine cfg).step freshStatus t c' c'' →
      c''.shared.committed.status? id ≠ c'.shared.committed.status? id →
      ∃ a b, c'.shared.committed.status? id = some a ∧ c''.shared.committed.status? id = some b ∧
        (txs t).transition.Legal a b) ∧
    (c.shared.committed.status? id = some .revoked →
      c'.shared.committed.status? id = some .revoked) :=
  ⟨fun _ _ e hne => (step_changes (run.trans run') e id).resolve_left (Ne.symm hne),
    run_revoked run run'⟩

end Runs

def revokeAndSuspend (t : Nat) : Transaction :=
  if t = 0 then .revoke activeLicense.id {} else .suspend activeLicense.id {}

def at_ (t : Nat) (n : Nat) : List (Nat × Env) :=
  List.replicate n (t, { now := 1776074400000000, clock := "2026-04-13T10:00:00Z" })

-- A suspension that starts after the revocation finds the license revoked.
theorem suspend_keeps_revoked :
    ∃ c c' : Sessions,
      Threads.Run (engine rfc3339).step freshStatus
        (sessions { licenses := [activeLicense] } revokeAndSuspend) c ∧
      Threads.Run (engine rfc3339).step freshStatus c c' ∧
      c.shared.committed.status? activeLicense.id = some .revoked ∧
      c'.shared.committed.status? activeLicense.id = some .revoked := by
  have h₁ : ((sessions { licenses := [activeLicense] } revokeAndSuspend).run (engine rfc3339).step
      freshStatus (at_ 0 6)).isSome := by rfl
  have h₂ : ((Option.get _ h₁).run (engine rfc3339).step freshStatus (at_ 1 2)).isSome := by rfl
  have run := Threads.Run.of_isSome h₁
  have run' := Threads.Run.of_isSome h₂
  have hr : (Option.get _ h₁).shared.committed.status? activeLicense.id = some .revoked := by rfl
  exact ⟨_, _, run, run', hr, (fresh_status_changes_legal run run' activeLicense.id).right hr⟩

-- A suspension that has read an active license overwrites a revocation committed in between.
theorem suspend_overwrites_revoked :
    ¬∀ (c c' : Sessions) (id : String),
      Threads.Run (engine rfc3339).step (fun _ _ _ _ => true)
        (sessions { licenses := [activeLicense] } revokeAndSuspend) c →
      Threads.Run (engine rfc3339).step (fun _ _ _ _ => true) c c' →
      c.shared.committed.status? id = some .revoked →
      c'.shared.committed.status? id = some .revoked := by
  intro h
  have h₁ : ((sessions { licenses := [activeLicense] } revokeAndSuspend).run (engine rfc3339).step
      (fun _ _ _ _ => true) (at_ 1 1 ++ at_ 0 6)).isSome := by rfl
  have h₂ : ((Option.get _ h₁).run (engine rfc3339).step (fun _ _ _ _ => true) (at_ 1 5)).isSome := by
    rfl
  have hr := h _ _ activeLicense.id (.of_isSome h₁) (.of_isSome h₂) (by rfl)
  have hs : (Option.get _ h₂).shared.committed.status? activeLicense.id = some .suspended := by rfl
  exact absurd (hs.symm.trans hr) (by decide)

end Licensing.Go
