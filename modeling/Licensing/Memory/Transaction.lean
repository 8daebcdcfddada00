import Licensing.Memory.Heap

-- Transactions of the Go adapter: on a copy of the tables, which takes their place in the end.

namespace Licensing

namespace Go

open Memory

structure Storage where
  state : StateRef
  inTx  : Bool := false

-- What is passed to a transaction: it decides what to do next by what it was answered.
abbrev TxFn (α : Type) :=
  Prog HeapOp HeapOp.Ans Error α

-- A struct of seven new maps with the rows of the old ones.
def clone (st : StateRef) (h : Heap) : StateRef × Heap :=
  (fun t => (h.maps t).length, { h with maps := fun t => h.maps t ++ [h.table st t] })

def Storage.withTransaction {α : Type} (ω : Nat → Env) (fn : TxFn α) (s : Storage) (h : Heap) :
    Except Error α × Storage × Heap :=
  if s.inTx then
    (.error (.other "memory storage: nested transactions are not supported"), s, h)
  else
    let (snap, h) := clone s.state h
    match fn.eval (Heap.exec snap) ω h with
    | (.error e, h) => (.error e, s, h)
    | (.ok a, h)    => (.ok a, { s with state := snap }, h)

section Clone

variable {st : StateRef} {h : Heap}

theorem table_clone (t : TableName) : (clone st h).2.table (clone st h).1 t = h.table st t := by
  simp [clone, Heap.table]

theorem table_clone_old (hs : ∀ t, st t < (h.maps t).length) : (clone st h).2.table st = h.table st := by
  funext t
  simp [clone, Heap.table, List.getElem?_append_left (hs t)]

theorem apart_clone (hs : ∀ t, st t < (h.maps t).length) : Heap.Apart (clone st h).1 st :=
  fun t => (hs t).ne'

theorem same_clone (hs : ∀ t, st t < (h.maps t).length) :
    Heap.Same (clone st h).1 st (clone st h).2 h where
  cells := rfl
  table := funext table_clone
  left  := by simp [clone]
  right := hs

end Clone

-- The state that was there before, as an operation of the transaction finds and leaves it.
structure Kept (st : StateRef) (h h' : Heap) : Prop where
  table : h'.table st = h.table st
  cells : h.cells <+: h'.cells

section Transaction

variable {α : Type} {st : StateRef} {h h' : Heap} {ω : Nat → Env} {fn : TxFn α} {s : Storage}

theorem kept_clone (hs : ∀ t, st t < (h.maps t).length) : Kept st h (clone st h).2 where
  table := table_clone_old hs
  cells := List.prefix_rfl

theorem Kept.exec {snap : StateRef} (ha : Heap.Apart snap st) (k : Kept st h h') (ω : Env)
    (o : HeapOp) : Kept st h (Heap.exec snap ω o h').2 where
  table := (Heap.table_exec_of_apart ha).trans k.table
  cells := k.cells.trans Heap.cells_exec

-- Every state that the function passes through.
theorem forall_kept (hs : ∀ t, st t < (h.maps t).length) :
    ∀ h' ∈ fn.states (Heap.exec (clone st h).1) ω (clone st h).2, Kept st h h' :=
  fn.forall_mem_states (fun ω o _ k => k.exec (apart_clone hs) ω o) ω (kept_clone hs)

theorem eval_same (fn : TxFn α) (ω : Nat → Env) (hs : ∀ t, st t < (h.maps t).length) :
    (fn.eval (Heap.exec (clone st h).1) ω (clone st h).2).1 = (fn.eval (Heap.exec st) ω h).1 ∧
      Heap.Same (clone st h).1 st (fn.eval (Heap.exec (clone st h).1) ω (clone st h).2).2
        (fn.eval (Heap.exec st) ω h).2 :=
  fn.eval_simulates (fun _ o _ _ s => s.exec o) ω (same_clone hs)

-- A nested call does nothing, a failure leaves the storage with its state, and a success gives it the
-- new one.
theorem Storage.withTransaction_cases (ω : Nat → Env) (fn : TxFn α) (s : Storage) (h : Heap) :
    (∃ e, Storage.withTransaction ω fn s h = (.error e, s, h)) ∨
    (∃ e h', fn.eval (Heap.exec (clone s.state h).1) ω (clone s.state h).2 = (.error e, h') ∧
      Storage.withTransaction ω fn s h = (.error e, s, h')) ∨
    ∃ a h', fn.eval (Heap.exec (clone s.state h).1) ω (clone s.state h).2 = (.ok a, h') ∧
      Storage.withTransaction ω fn s h = (.ok a, { s with state := (clone s.state h).1 }, h') := by
  by_cases ht : s.inTx
  case pos => exact .inl ⟨_, if_pos ht⟩
  case neg =>
    right
    match hr : fn.eval (Heap.exec (clone s.state h).1) ω (clone s.state h).2 with
    | (.error e, h') => exact .inl ⟨e, h', rfl, by simp [Storage.withTransaction, ht, hr]⟩
    | (.ok a, h')    => exact .inr ⟨a, h', rfl, by simp [Storage.withTransaction, ht, hr]⟩

theorem Storage.withTransaction_answer (outside : s.inTx = false) :
    (Storage.withTransaction ω fn s h).1 = (fn.eval (Heap.exec (clone s.state h).1) ω (clone s.state h).2).1 := by
  match hr : fn.eval (Heap.exec (clone s.state h).1) ω (clone s.state h).2 with
  | (.error e, h') => simp [Storage.withTransaction, outside, hr]
  | (.ok a, h')    => simp [Storage.withTransaction, outside, hr]

-- A transaction that is not nested answers what the function would answer outside of it. Nothing of a function that
-- fails is committed, all of a function that succeeds is, as if it had been performed directly, and on the way nobody
-- touches a row of the state before.
theorem Storage.withTransaction_atomic (ω : Nat → Env) (fn : TxFn α) (s : Storage) (h : Heap)
    (holds : h.Holds s.state) :
    (s.inTx = false → (Storage.withTransaction ω fn s h).1 = (fn.eval (Heap.exec s.state) ω h).1) ∧
    (∀ e, (Storage.withTransaction ω fn s h).1 = .error e →
      (Storage.withTransaction ω fn s h).2.2.view (Storage.withTransaction ω fn s h).2.1.state = h.view s.state) ∧
    (∀ a, (Storage.withTransaction ω fn s h).1 = .ok a →
      (fn.eval (Heap.exec s.state) ω h).1 = .ok a ∧
      (Storage.withTransaction ω fn s h).2.2.table (Storage.withTransaction ω fn s h).2.1.state =
        (fn.eval (Heap.exec s.state) ω h).2.table s.state ∧
      (Storage.withTransaction ω fn s h).2.2.cells = (fn.eval (Heap.exec s.state) ω h).2.cells) ∧
    ∀ h' ∈ fn.states (Heap.exec (clone s.state h).1) ω (clone s.state h).2,
      h'.view s.state = h.view s.state := by
  have hv : ∀ h' ∈ fn.states (Heap.exec (clone s.state h).1) ω (clone s.state h).2,
      h'.view s.state = h.view s.state := by
    intro h' hm
    have k := forall_kept holds.maps h' hm
    exact holds.view_eq k.table k.cells
  have hm : (fn.eval (Heap.exec (clone s.state h).1) ω (clone s.state h).2).2 ∈ _ := fn.eval_mem_states ω _
  have ⟨hr, hs⟩ := eval_same fn ω holds.maps
  have answered : s.inTx = false →
      (Storage.withTransaction ω fn s h).1 = (fn.eval (Heap.exec s.state) ω h).1 :=
    fun outside => (Storage.withTransaction_answer outside).trans hr
  refine ⟨answered, ?_⟩
  match Storage.withTransaction_cases ω fn s h with
  | .inl ⟨e, hw⟩ => simpa [hw] using hv
  | .inr (.inl ⟨e, h', he, hw⟩) =>
    rw [he] at hm
    simpa [hw, hv h' hm] using hv
  | .inr (.inr ⟨a, h', he, hw⟩) =>
    rw [he] at hr hs
    have hc : h'.cells = (fn.eval (Heap.exec s.state) ω h).2.cells := hs.cells
    have ht : h'.table (clone s.state h).1 = (fn.eval (Heap.exec s.state) ω h).2.table s.state := hs.table
    simpa [hw, ← hr, ht, hc] using hv

end Transaction

-- An empty store.
def newState : Heap where
  cells := []
  maps  := fun t => [Heap.emptyMap t]

theorem holds_newState : newState.Holds fun _ => 0 where
  maps := fun _ => Nat.one_pos
  rows := fun _ _ he => nomatch he

-- Creates a scope whose embedded map it has allocated.
def createSampleScope : TxFn Unit := do
  let meta_ ← Prog.call (.alloc (.object [])) .pure
  let _ ← Prog.call (.create .scopes <| (Linked.ref meta_).map fun c =>
    { slug  := "a"
      name  := "A"
      meta_ := match c with | some (.object o) => o | _ => [] }) .pure

def createScopeAndFail : TxFn Unit := do
  createSampleScope
  .throw (newError .invalidLicenseKey "")

def emptyStorage : Storage where
  state := fun _ => 0

def sampleIds (_ : Nat) : Env where
  freshId := "s"

-- The first one is committed, and nothing is of the second.
theorem Storage.withTransaction_createScope :
    (Storage.withTransaction sampleIds createSampleScope emptyStorage newState).1 = .ok () ∧
      (Storage.withTransaction sampleIds createSampleScope emptyStorage newState).2.2.table
          (Storage.withTransaction sampleIds createSampleScope emptyStorage newState).2.1.state =
        (createSampleScope.eval (Heap.exec emptyStorage.state) sampleIds newState).2.table emptyStorage.state ∧
      (Storage.withTransaction sampleIds createScopeAndFail emptyStorage newState).2.2.view emptyStorage.state =
        newState.view emptyStorage.state := by
  have ⟨answered, _, committed, _⟩ :=
    Storage.withTransaction_atomic sampleIds createSampleScope emptyStorage newState holds_newState
  have ⟨_, rolledBack, _⟩ :=
    Storage.withTransaction_atomic sampleIds createScopeAndFail emptyStorage newState holds_newState
  have ok : (Storage.withTransaction sampleIds createSampleScope emptyStorage newState).1 = .ok () := answered rfl
  exact ⟨ok, (committed () ok).2.1, rolledBack _ rfl⟩

end Go

end Licensing
