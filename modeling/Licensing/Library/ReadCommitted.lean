import Mathlib.Logic.Function.Basic
import Licensing.Library.Interleave

-- Concurrent transactions under READ COMMITTED: a statement sees the rows committed before it starts
-- and the writes of its own transaction, and it waits for the row locks it needs. Locks are held and
-- writes stay invisible to the others until the transaction ends.

set_option linter.unusedSectionVars false

namespace ReadCommitted

open Prog

variable {Tid DB Write Lock Stmt Ω Err ε : Type} {Res : Stmt → Type} {α : Type}

-- What the statements of a database do. Statements that replace an existing row lock it, which is
-- what `writes_locked` says; `target` is `none` for the insertion of a new row.
structure Engine (DB Write Lock Stmt Ω Err : Type) (Res : Stmt → Type) where
  apply         : DB → Write → DB
  target        : Write → Option Lock
  locks         : Stmt → DB → List Lock
  exec          : (s : Stmt) → Ω → DB → Res s × List Write
  commitFault   : Ω → Option Err
  writes_locked : ∀ s ω db, ∀ w ∈ (exec s ω db).2, ∀ l, target w = some l → l ∈ locks s db

structure Store (Tid DB Write Lock : Type) where
  committed : DB
  pending   : Tid → List Write
  locked    : Lock → Option Tid

def Store.initial (db : DB) : Store Tid DB Write Lock where
  committed := db
  pending   := fun _ => []
  locked    := fun _ => none

inductive Op (Stmt : Type)
  | stmt (s : Stmt)
  | commit
  | rollback

def Op.Ans (Err : Type) (Res : Stmt → Type) : Op Stmt → Type
  | stmt s   => Res s
  | commit   => Except Err Unit
  | rollback => Unit

def inject (s : Stmt) : Prog (Op Stmt) (Op.Ans Err Res) ε (Res s) :=
  call (.stmt s) .pure

-- Runs the body and commits its result, or rolls back and passes its error on.
def transaction (wrap : Err → ε) (body : Prog Stmt Res ε α) : Prog (Op Stmt) (Op.Ans Err Res) ε α :=
  (body.translate inject).handle fun
    | .ok a    => call .commit fun
      | .ok ()   => .pure a
      | .error e => .throw (wrap e)
    | .error e => call .rollback fun () => .throw e

namespace Engine

variable [DecidableEq Tid] [DecidableEq Lock]
variable (E : Engine DB Write Lock Stmt Ω Err Res)

def view (t : Tid) (s : Store Tid DB Write Lock) : DB :=
  (s.pending t).foldl E.apply s.committed

def blocked (t : Tid) (ls : List Lock) (s : Store Tid DB Write Lock) : Bool :=
  ls.any fun l => (s.locked l).any (· ≠ t)

def release (t : Tid) (s : Store Tid DB Write Lock) : Lock → Option Tid :=
  fun l => if s.locked l = some t then none else s.locked l

def rollback (t : Tid) (s : Store Tid DB Write Lock) : Store Tid DB Write Lock :=
  { s with pending := Function.update s.pending t [], locked := release t s }

def commit (t : Tid) (s : Store Tid DB Write Lock) : Store Tid DB Write Lock where
  committed := E.view t s
  pending   := Function.update s.pending t []
  locked    := release t s

def write (t : Tid) (ls : List Lock) (ws : List Write) (s : Store Tid DB Write Lock) :
    Store Tid DB Write Lock where
  committed := s.committed
  pending   := Function.update s.pending t (s.pending t ++ ws)
  locked    := fun l => if l ∈ ls then some t else s.locked l

def step (t : Tid) (ω : Ω) :
    (o : Op Stmt) → Store Tid DB Write Lock → Option (o.Ans Err Res × Store Tid DB Write Lock)
  | .stmt q, s =>
    let db := E.view t s
    if blocked t (E.locks q db) s then none
    else some ((E.exec q ω db).1, write t (E.locks q db) (E.exec q ω db).2 s)
  | .commit, s =>
    match E.commitFault ω with
    | none   => some (.ok (), E.commit t s)
    | some e => some (.error e, rollback t s)
  | .rollback, s => some ((), rollback t s)

-- Everything that a single step of a transaction can do to the store.
inductive Effect (t : Tid) (s : Store Tid DB Write Lock) :
    (o : Op Stmt) → o.Ans Err Res → Store Tid DB Write Lock → Prop
  | stmt {q : Stmt} (ω : Ω) (free : blocked t (E.locks q (E.view t s)) s = false) :
    Effect t s (.stmt q) (E.exec q ω (E.view t s)).1
      (write t (E.locks q (E.view t s)) (E.exec q ω (E.view t s)).2 s)
  | commit            : Effect t s .commit (.ok ()) (E.commit t s)
  | fault   (e : Err) : Effect t s .commit (.error e) (rollback t s)
  | rollback          : Effect t s .rollback () (rollback t s)

variable {E} {t t' : Tid} {s s' : Store Tid DB Write Lock}

theorem step_effect {o : Op Stmt} {a : o.Ans Err Res} (h : E.step t ω o s = some (a, s')) :
    E.Effect t s o a s' := by
  cases o <;> simp only [step] at h
  case stmt q =>
    split at h
    · contradiction
    case isFalse free =>
      cases h
      exact .stmt ω (by simpa using free)
  case commit =>
    split at h <;> cases h
    · exact .commit
    · exact .fault _
  case rollback =>
    cases h
    exact .rollback

-- A statement is answered from what its transaction sees.
theorem answers_stmt {q : Stmt} {a : Res q} (h : Threads.Answers E.step t s (.stmt q) a) :
    ∃ ω, a = (E.exec q ω (E.view t s)).1 := by
  obtain ⟨_, _, h⟩ := h
  cases step_effect h
  case stmt ω _ => exact ⟨ω, rfl⟩

theorem locked_of_not_blocked {ls : List Lock} (free : blocked t ls s = false) (h : l ∈ ls) :
    s.locked l = none ∨ s.locked l = some t := by
  simp [blocked] at free
  match hl : s.locked l with
  | none    => simp
  | some t' => simpa [hl] using free l h

-- A lock that is granted is taken away by no statement.
theorem locked_write {ls : List Lock} {l : Lock} (free : blocked t ls s = false)
    (h : s.locked l = some t') (ws : List Write) : (write t ls ws s).locked l = some t' := by
  by_cases hm : l ∈ ls
  case neg => simpa [write, hm] using h
  case pos =>
    have ht : t' = t := by
      cases locked_of_not_blocked free hm
      case inl hn => exact absurd (h.symm.trans hn) nofun
      case inr hs => exact Option.some.inj (h.symm.trans hs)
    simp [write, hm, ht]

theorem locked_release {l : Lock} (ht : t' ≠ t) (h : s.locked l = some t') :
    release t s l = some t' := by
  simpa [release, h] using ht

namespace Effect

variable {o : Op Stmt} {a : o.Ans Err Res}

theorem locked_of_ne {l : Lock} (ht : t' ≠ t) (h : s.locked l = some t') :
    E.Effect t s o a s' → s'.locked l = some t'
  | .stmt _ free                    => locked_write free h _
  | .commit | .fault _ | .rollback  => locked_release ht h

theorem pending_of_ne (ht : t' ≠ t) : E.Effect t s o a s' → s'.pending t' = s.pending t'
  | .stmt _ _ | .commit | .fault _ | .rollback => Function.update_of_ne ht _ _

end Effect

variable (E) in
-- The rows that a transaction is about to replace are locked by it.
def WriteLocked (s : Store Tid DB Write Lock) : Prop :=
  ∀ t, ∀ w ∈ s.pending t, ∀ l, E.target w = some l → s.locked l = some t

theorem WriteLocked.initial (db : DB) : E.WriteLocked (Store.initial db : Store Tid DB Write Lock) :=
  fun _ _ h => nomatch h

theorem WriteLocked.rollback (wl : E.WriteLocked s) (t : Tid) : E.WriteLocked (rollback t s) := by
  intro t' w hw l hl
  by_cases ht : t' = t
  case pos => simp [Engine.rollback, ht] at hw
  case neg =>
    have h := wl t' w (by simpa [Engine.rollback, ht] using hw) l hl
    simp [Engine.rollback, release, h, ht]

theorem WriteLocked.commit (wl : E.WriteLocked s) (t : Tid) : E.WriteLocked (E.commit t s) :=
  wl.rollback t

theorem WriteLocked.write (wl : E.WriteLocked s) {q : Stmt}
    (free : blocked t (E.locks q (E.view t s)) s = false) :
    E.WriteLocked (write t (E.locks q (E.view t s)) (E.exec q ω (E.view t s)).2 s) := by
  intro t' w hw l hl
  by_cases ht : t' = t
  case pos =>
    simp only [Engine.write, ht, Function.update_self, List.mem_append] at hw ⊢
    split
    case isTrue => rfl
    case isFalse hn =>
      cases hw with
      | inl hw => exact wl t w hw l hl
      | inr hw => exact absurd (E.writes_locked _ _ _ w hw l hl) hn
  case neg =>
    have h := wl t' w (by simpa [Engine.write, ht] using hw) l hl
    have hn : l ∉ E.locks q (E.view t s) := by
      intro hm
      cases locked_of_not_blocked free hm <;> simp_all
    simp [Engine.write, hn, h]

theorem WriteLocked.effect {o : Op Stmt} {a : o.Ans Err Res} (wl : E.WriteLocked s) :
    E.Effect t s o a s' → E.WriteLocked s'
  | .stmt _ free     => wl.write free
  | .commit          => wl.commit t
  | .fault _         => wl.rollback t
  | .rollback        => wl.rollback t

-- A projection of the database that only writes to the lock `l` change, in a way that depends on
-- nothing else.
structure Row (E : Engine DB Write Lock Stmt Ω Err Res) (l : Lock) (ρ : Type) where
  get       : DB → ρ
  get_apply : ∀ db w, E.target w ≠ some l → get (E.apply db w) = get db
  get_congr : ∀ db db' w, get db = get db' → get (E.apply db w) = get (E.apply db' w)

namespace Row

variable {l : Lock} {ρ : Type} (r : E.Row l ρ)

theorem get_foldl {ws : List Write} (h : ∀ w ∈ ws, E.target w ≠ some l) (db : DB) :
    r.get (ws.foldl E.apply db) = r.get db := by
  induction ws generalizing db
  case nil => rfl
  case cons w ws ih =>
    rw [List.foldl_cons, ih fun w hw => h w (List.mem_cons_of_mem _ hw)]
    exact r.get_apply db w (h w List.mem_cons_self)

theorem get_foldl_congr (ws : List Write) {db db' : DB} (h : r.get db = r.get db') :
    r.get (ws.foldl E.apply db) = r.get (ws.foldl E.apply db') := by
  induction ws generalizing db db'
  case nil => exact h
  case cons w ws ih => exact ih (r.get_congr _ _ w h)

-- A transaction without the lock on a row sees the committed row.
theorem get_view (wl : E.WriteLocked s) (h : s.locked l ≠ some t) :
    r.get (E.view t s) = r.get s.committed :=
  r.get_foldl (fun w hw hl => h (wl t w hw l hl)) _

theorem get_view_write (q : Stmt) (ω : Ω) (db : DB) :
    r.get (E.view t (write t (E.locks q db) (E.exec q ω db).2 s)) =
      r.get ((E.exec q ω db).2.foldl E.apply (E.view t s)) := by
  simp [view, write]

variable {r} {P : Tid → ρ → ρ → Prop}

-- A relation between the committed row and the row as a transaction sees it is kept by the steps of
-- the transactions if each statement keeps it for its own transaction.
theorem relates (refl : ∀ t x, P t x x) (wl : E.WriteLocked s)
    (h : ∀ t, P t (r.get s.committed) (r.get (E.view t s))) {o : Op Stmt} {a : o.Ans Err Res}
    (e : E.Effect t s o a s')
    (stmt : ∀ q, o = .stmt q → P t (r.get s.committed) (r.get (E.view t s'))) (t' : Tid) :
    P t' (r.get s'.committed) (r.get (E.view t' s')) := by
  have wl' := wl.effect e
  have hr : P t' (r.get s.committed) (r.get (E.view t' (rollback t s))) := by
    by_cases ht : t' = t
    case pos => simpa [view, rollback, ht] using refl t _
    case neg => simpa [view, rollback, ht] using h t'
  cases e
  case stmt q ω free =>
    by_cases ht : t' = t
    case pos => exact ht ▸ stmt q rfl
    case neg => simpa [view, write, ht] using h t'
  case commit =>
    by_cases ht : t' = t
    case pos => simpa [view, commit, ht] using refl t _
    case neg =>
      by_cases hl : s.locked l = some t'
      case pos =>
        have hc : r.get (E.view t s) = r.get s.committed :=
          r.get_view wl (by simpa [hl] using ht)
        have hv : r.get (E.view t' (E.commit t s)) = r.get (E.view t' s) := by
          simpa [view, commit, ht] using r.get_foldl_congr (s.pending t') hc
        rw [hv]
        simpa [commit, hc] using h t'
      case neg =>
        have hl' : (E.commit t s).locked l ≠ some t' := by
          simp only [commit, release]
          split <;> simp_all
        rw [r.get_view wl' hl']
        exact refl _ _
  case fault => exact hr
  case rollback => exact hr

-- Only a commit changes the committed row, to what its transaction saw.
theorem committed_cases {o : Op Stmt} {a : o.Ans Err Res} :
    E.Effect t s o a s' → r.get s'.committed = r.get s.committed ∨
      o = .commit ∧ r.get s'.committed = r.get (E.view t s)
  | .stmt _ _ | .fault _ | .rollback => .inl rfl
  | .commit => .inr ⟨rfl, rfl⟩

end Row

end Engine

section Obeys

variable {σ : Type} {wrap : Err → ε} {body : Prog Stmt Res ε α}
variable {answers : σ → (o : Op Stmt) → o.Ans Err Res → Prop}
variable {may : List (Event (Op Stmt) (Op.Ans Err Res) σ) → Op Stmt → Prop}

-- A contract that always permits to end the transaction.
theorem obeys_transaction (commit : ∀ h, may h .commit) (rollback : ∀ h, may h .rollback)
    {h : List (Event (Op Stmt) (Op.Ans Err Res) σ)}
    (o : (body.translate inject).Obeys answers may (fun _ _ => True) h) :
    (transaction wrap body).Obeys answers may (fun _ _ => True) h := by
  refine Obeys.handle <| o.mono fun h r _ => ?_
  cases r
  case ok =>
    refine ⟨commit h, fun s a _ => ?_⟩
    cases a <;> trivial
  case error => exact ⟨rollback h, fun _ _ _ => trivial⟩

end Obeys

end ReadCommitted
