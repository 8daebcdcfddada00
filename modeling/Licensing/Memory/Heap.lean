import Mathlib.Logic.Function.Basic
import Licensing.Library.Atomic
import Licensing.Library.Linked
import Licensing.Memory.Acts

-- The Go adapter on a heap: the tables are maps that are written in place, and the rows in them share
-- what their pointers and their embedded maps refer to with each other and with the callers.

namespace Licensing

namespace Go

open Memory

-- What a pointer or an embedded map refers to.
inductive Cell
  | string (s : String)
  | int (n : Int)
  | object (o : Json.Object)

inductive TableName
  | licenses
  | scopes
  | templates
  | usages
  | keys
  | audit
  | trialIssuances
  deriving DecidableEq

namespace TableName

@[reducible]
def Row : TableName → Type
  | licenses       => License
  | scopes         => LicenseScope
  | templates      => LicenseTemplate
  | usages         => LicenseUsage
  | keys           => LicenseKey
  | audit          => AuditLogEntry
  | trialIssuances => TrialIssuance

@[reducible]
def key : (t : TableName) → t.Row → String
  | licenses       => License.id
  | scopes         => LicenseScope.id
  | templates      => LicenseTemplate.id
  | usages         => LicenseUsage.id
  | keys           => LicenseKey.id
  | audit          => AuditLogEntry.id
  | trialIssuances => TrialIssuance.id

@[reducible]
def Input : TableName → Type
  | licenses       => LicenseInput
  | scopes         => LicenseScopeInput
  | templates      => LicenseTemplateInput
  | usages         => LicenseUsageInput
  | keys           => LicenseKeyInput
  | audit          => AuditLogInput
  | trialIssuances => TrialIssuanceInput

@[reducible]
def Patch : TableName → Type
  | licenses               => LicensePatch
  | scopes                 => LicenseScopePatch
  | templates              => LicenseTemplatePatch
  | usages                 => LicenseUsagePatch
  | keys                   => LicenseKeyPatch
  | audit | trialIssuances => Empty

-- The operations that store what they are given, with the rows that they build.

def create : (t : TableName) → Env → t.Input → Store → Except Error t.Row × Store
  | licenses,       ω, input => execStorage ω (.createLicense input)
  | scopes,         ω, input => execStorage ω (.createScope input)
  | templates,      ω, input => execStorage ω (.createTemplate input)
  | usages,         ω, input => execStorage ω (.createUsage input)
  | keys,           ω, input => execStorage ω (.createKey input)
  | audit,          ω, input => execStorage ω (.appendAudit input)
  | trialIssuances, ω, input => execStorage ω (.recordTrialIssuance input)

def created : (t : TableName) → Env → t.Input → t.Row
  | licenses,       ω, input => createdLicense ω input
  | scopes,         ω, input => createdScope ω input
  | templates,      ω, input => createdTemplate ω.clock ω.freshId input
  | usages,         ω, input => createdUsage ω input
  | keys,           ω, input => createdKey ω input
  | audit,          ω, input => appended ω input
  | trialIssuances, ω, input => createdIssuance ω input

def update : (t : TableName) → Env → String → t.Patch → Store → Except Error t.Row × Store
  | licenses,  ω, id, patch => execStorage ω (.updateLicense id patch)
  | scopes,    ω, id, patch => execStorage ω (.updateScope id patch)
  | templates, ω, id, patch => execStorage ω (.updateTemplate id patch)
  | usages,    ω, id, patch => execStorage ω (.updateUsage id patch)
  | keys,      ω, id, patch => execStorage ω (.updateKey id patch)

def patched : (t : TableName) → Env → t.Patch → t.Row → t.Row
  | licenses,  ω, patch => patchedLicense ω.clock patch
  | scopes,    ω, patch => patchedScope ω.clock patch
  | templates, ω, patch => patchedTemplate ω.clock patch
  | usages,    ω, patch => patchedUsage ω.clock patch
  | keys,      ω, patch => patchedKey ω.clock patch

theorem key_created (t : TableName) (ω : Env) (input : t.Input) :
    t.key (t.created ω input) = ω.freshId := by
  cases t <;> rfl

theorem key_patched (t : TableName) (ω : Env) (patch : t.Patch) (row : t.Row) :
    t.key (t.patched ω patch row) = t.key row := by
  cases t
  case audit          => exact nomatch patch
  case trialIssuances => exact nomatch patch
  all_goals rfl

end TableName

-- The tables of a store by their names.

abbrev MapTables :=
  (t : TableName) → Table t.key

def MapTables.store (f : MapTables) : Store where
  licenses       := f .licenses
  scopes         := f .scopes
  templates      := f .templates
  usages         := f .usages
  keys           := f .keys
  audit          := f .audit
  trialIssuances := f .trialIssuances

def MapTables.set (f : MapTables) (t : TableName) (table : Table t.key) : MapTables :=
  Function.update f t table

section MapTables

variable {ω : Env} {f : MapTables} {t : TableName} {id : String}

theorem acts_of_eq {s : Store} {o : StorageOp} {r : o.Ans × Store} (h : execStorage ω o s = r) :
    StoreActs ω s o r.1 r.2 :=
  h ▸ execStorage_acts ω s o

-- An operation that stores a row is refused, or it puts the row into its table and does nothing else.

theorem create_cases (ω : Env) (f : MapTables) (input : t.Input) :
    (∃ e, t.create ω input f.store = (.error e, f.store)) ∨ t.create ω input f.store =
      (.ok (t.created ω input), (f.set t ((f t).put (t.created ω input))).store) := by
  cases t
  all_goals
    simp only [TableName.create]
    generalize hr : execStorage ω _ f.store = r
    have h := acts_of_eq hr
    have ⟨a, s⟩ := r
    cases h
    case read h    => exact nomatch h
    case refused   => exact .inl ⟨_, rfl⟩
    all_goals exact .inr rfl

theorem update_cases (ω : Env) (f : MapTables) (id : String) (patch : t.Patch) :
    (∃ e, t.update ω id patch f.store = (.error e, f.store)) ∨
      ∃ cur, (f t).find id = some cur ∧ t.update ω id patch f.store =
        (.ok (t.patched ω patch cur), (f.set t ((f t).replace (t.patched ω patch cur))).store) := by
  cases t
  case audit          => cases patch
  case trialIssuances => cases patch
  all_goals
    simp only [TableName.update]
    generalize hr : execStorage ω _ f.store = r
    have h := acts_of_eq hr
    obtain ⟨a, s⟩ := r
    cases h
    case read h    => cases h
    case refused   => exact .inl ⟨_, rfl⟩
    all_goals exact .inr ⟨_, by assumption, rfl⟩

theorem put_patched {patch : t.Patch} {cur : t.Row} (h : (f t).find id = some cur) :
    (f t).put (t.patched ω patch cur) = (f t).replace (t.patched ω patch cur) := by
  apply Table.put_of_find
  rw [t.key_patched, Table.key_of_find h]
  exact h

end MapTables

-- Deletes and reads store nothing that they are given.
inductive Plain : StorageOp → Prop
  | deleteLicense (id : String) : Plain (.deleteLicense id)
  | deleteScope (id : String) : Plain (.deleteScope id)
  | deleteTemplate (id : String) : Plain (.deleteTemplate id)
  | deleteTrialIssuance (id : String) : Plain (.deleteTrialIssuance id)
  | read {o : StorageOp} (reads : reads o) : Plain o

-- What a function that uses the handle does: it allocates what its arguments refer to, and it
-- performs operations.
inductive HeapOp
  | alloc (c : Cell)
  | create (t : TableName) (input : Linked Cell t.Input)
  | update (t : TableName) (id : String) (patch : Linked Cell t.Patch)
  | plain (o : StorageOp) (plain : Plain o)

@[reducible]
def HeapOp.Ans : HeapOp → Type
  | alloc _      => Nat
  | create t _   => Except Error t.Row
  | update t _ _ => Except Error t.Row
  | plain o _    => o.Ans

abbrev MapObject (t : TableName) :=
  Linked.Map Cell t.key

structure Heap where
  cells : List Cell
  maps  : (t : TableName) → List (MapObject t)

-- A struct of seven maps: which map on the heap is which table.
abbrev StateRef := TableName → Nat

namespace Heap

def emptyMap (t : TableName) : MapObject t :=
  .ofList [] List.nodup_nil

def table (h : Heap) (st : StateRef) (t : TableName) : MapObject t :=
  ((h.maps t)[st t]?).getD (emptyMap t)

-- The table as another one, in place.
def setTable (h : Heap) (st : StateRef) (t : TableName) (m : MapObject t) : Heap :=
  { h with maps := Function.update h.maps t ((h.maps t).set (st t) m) }

-- The rows with what they refer to.
def view (h : Heap) (st : StateRef) : MapTables :=
  fun t => (h.table st t).view h.cells

-- `s.t[row.ID] = row` of a row that was built from an input, whose references it takes over.
def assignCreated (ω : Env) (st : StateRef) (t : TableName) (input : Linked Cell t.Input)
    (h : Heap) : Heap :=
  h.setTable st t <| (h.table st t).put {
    id     := ω.freshId
    row    := input.map (t.created ω)
    key_of := fun _ => t.key_created ω _ }

-- The same of a copy of the row that was there, with some of its references replaced.
def assignPatched (ω : Env) (st : StateRef) (t : TableName) (id : String)
    (patch : Linked Cell t.Patch) (h : Heap) : Heap :=
  match (h.table st t).find id with
  | none     => h
  | some cur => h.setTable st t <| (h.table st t).put {
    id     := cur.id
    row    := patch.map₂ (t.patched ω) cur.row
    key_of := fun cells => (t.key_patched ω _ _).trans (cur.key_of cells) }

-- `delete(s.t, id)`
def assignDeleted (st : StateRef) (h : Heap) : StorageOp → Heap
  | .deleteLicense id       => h.setTable st .licenses ((h.table st .licenses).erase id)
  | .deleteScope id         => h.setTable st .scopes ((h.table st .scopes).erase id)
  | .deleteTemplate id      => h.setTable st .templates ((h.table st .templates).erase id)
  | .deleteTrialIssuance id => h.setTable st .trialIssuances ((h.table st .trialIssuances).erase id)
  | _                       => h

-- An operation follows the references to decide what it answers and whether it writes.
def exec (st : StateRef) (ω : Env) : (o : HeapOp) → Heap → o.Ans × Heap
  | .alloc c, h => (h.cells.length, { h with cells := h.cells ++ [c] })
  | .create t input, h =>
    match (t.create ω (input.read h.cells) (h.view st).store).1 with
    | .error e => (.error e, h)
    | .ok row  => (.ok row, h.assignCreated ω st t input)
  | .update t id patch, h =>
    match (t.update ω id (patch.read h.cells) (h.view st).store).1 with
    | .error e => (.error e, h)
    | .ok row  => (.ok row, h.assignPatched ω st t id patch)
  | .plain o _, h =>
    match (execStorage ω o (h.view st).store).1 with
    | .error e => (.error e, h)
    | .ok res  => (.ok res, h.assignDeleted st o)

-- The tables are there, and so is everything that their rows refer to.
structure Holds (h : Heap) (st : StateRef) : Prop where
  maps : ∀ t, st t < (h.maps t).length
  rows : ∀ t, ∀ e ∈ (h.table st t).rows, e.row.Valid h.cells

-- All tables elsewhere.
def Apart (st st' : StateRef) : Prop :=
  ∀ t, st t ≠ st' t

section Writes

variable {h : Heap} {st st' : StateRef} {t : TableName} {m : MapObject t} {ω : Env} {o : HeapOp}

theorem table_setTable (hs : st t < (h.maps t).length) :
    (h.setTable st t m).table st = Function.update (h.table st) t m := by
  funext t'
  by_cases ht : t' = t
  case pos =>
    subst ht
    simp [table, setTable, hs]
  case neg => simp [table, setTable, ht]

theorem table_setTable_of_apart (ha : Apart st st') :
    (h.setTable st t m).table st' = h.table st' := by
  funext t'
  by_cases ht : t' = t
  case pos =>
    subst ht
    simp [table, setTable, List.getElem?_set_ne (ha t')]
  case neg => simp [table, setTable, ht]

@[simp]
theorem cells_setTable : (h.setTable st t m).cells = h.cells := rfl

@[simp]
theorem length_maps_setTable {t' : TableName} :
    ((h.setTable st t m).maps t').length = (h.maps t').length := by
  by_cases ht : t' = t
  case pos =>
    subst ht
    simp [setTable]
  case neg => simp [setTable, ht]

theorem view_setTable (hs : st t < (h.maps t).length) :
    (h.setTable st t m).view st = (h.view st).set t (m.view h.cells) := by
  funext t'
  rw [view, table_setTable hs, MapTables.set]
  by_cases ht : t' = t
  case pos =>
    subst ht
    simp
  case neg => simp [ht, view]

-- An operation allocates a cell, or it writes a table of its own state in place, or it does nothing.
theorem exec_cases (h : Heap) (st : StateRef) (ω : Env) (o : HeapOp) :
    (∃ c, (exec st ω o h).2 = { h with cells := h.cells ++ [c] }) ∨ (exec st ω o h).2 = h ∨
      ∃ t m, (exec st ω o h).2 = h.setTable st t m := by
  cases o
  case alloc c => exact .inl ⟨c, rfl⟩
  case create =>
    right
    simp only [exec]
    split
    case h_1 => exact .inl rfl
    case h_2 => exact .inr ⟨_, _, rfl⟩
  case update =>
    right
    simp only [exec]
    split
    case h_1 => exact .inl rfl
    case h_2 =>
      simp only [assignPatched]
      split
      case h_1 => exact .inl rfl
      case h_2 => exact .inr ⟨_, _, rfl⟩
  case plain =>
    right
    simp only [exec]
    split
    case h_1 => exact .inl rfl
    case h_2 =>
      unfold assignDeleted
      split
      case h_5 => exact .inl rfl
      all_goals exact .inr ⟨_, _, rfl⟩

-- What an operation leaves alone: the tables of every other state, and the cells that there are.

theorem table_exec_of_apart (ha : Apart st st') : (exec st ω o h).2.table st' = h.table st' := by
  match exec_cases h st ω o with
  | .inl ⟨c, hc⟩           => rw [hc]; rfl
  | .inr (.inl hn)         => rw [hn]
  | .inr (.inr ⟨t, m, hm⟩) => rw [hm, table_setTable_of_apart ha]

theorem cells_exec : h.cells <+: (exec st ω o h).2.cells := by
  match exec_cases h st ω o with
  | .inl ⟨c, hc⟩           => rw [hc]; exact List.prefix_append _ _
  | .inr (.inl hn)         => rw [hn]
  | .inr (.inr ⟨t, m, hm⟩) => rw [hm]; exact List.prefix_rfl

end Writes

section View

variable {h : Heap} {st : StateRef} {t : TableName} {ω : Env} {id : String}

theorem view_assignCreated (hs : st t < (h.maps t).length) {input : Linked Cell t.Input} :
    (h.assignCreated ω st t input).view st =
      (h.view st).set t ((h.view st t).put (t.created ω (input.read h.cells))) := by
  rw [assignCreated, view_setTable hs, Linked.Map.view_put]
  rfl

theorem view_assignPatched (hs : st t < (h.maps t).length) {patch : Linked Cell t.Patch}
    {cur : t.Row} (row : (h.view st t).find id = some cur) :
    (h.assignPatched ω st t id patch).view st =
      (h.view st).set t ((h.view st t).replace (t.patched ω (patch.read h.cells) cur)) := by
  have ⟨e, he, hr⟩ : ∃ e, (h.table st t).find id = some e ∧ e.row.read h.cells = cur := by
    simpa [view, Linked.Map.find_view] using row
  simp only [assignPatched, he]
  rw [view_setTable hs, Linked.Map.view_put, ← put_patched row, ← hr]
  rfl

theorem assignDeleted_of_reads {o : StorageOp} (hr : reads o) : h.assignDeleted st o = h := by
  cases o
  case deleteLicense       => exact nomatch hr
  case deleteScope         => exact nomatch hr
  case deleteTemplate      => exact nomatch hr
  case deleteTrialIssuance => exact nomatch hr
  all_goals rfl

theorem view_assignDeleted (hs : ∀ t, st t < (h.maps t).length) {o : StorageOp} (hp : Plain o)
    {res : o.Res} (ho : (execStorage ω o (h.view st).store).1 = .ok res) :
    ((h.assignDeleted st o).view st).store = (execStorage ω o (h.view st).store).2 := by
  have ha := execStorage_acts ω (h.view st).store o
  generalize (execStorage ω o (h.view st).store).1 = a at ha ho
  generalize (execStorage ω o (h.view st).store).2 = s at ha ⊢
  subst ho
  cases hp
  case read hr =>
    rw [assignDeleted_of_reads hr]
    cases ha
    case read => rfl
    all_goals exact nomatch hr
  all_goals
    cases ha
    case read hr => exact nomatch hr
    rw [assignDeleted, view_setTable (hs _), Linked.Map.view_erase]
    rfl

-- On the heap an operation does to the rows, with what they refer to, what it does to the values.
theorem view_exec_create (hs : ∀ t, st t < (h.maps t).length) (input : Linked Cell t.Input) :
    ((exec st ω (.create t input) h).1, ((exec st ω (.create t input) h).2.view st).store) =
      t.create ω (input.read h.cells) (h.view st).store := by
  match create_cases ω (h.view st) (input.read h.cells) with
  | .inl ⟨e, he⟩ => simp [exec, he]
  | .inr hc      => simp [exec, hc, view_assignCreated (hs t)]

theorem view_exec_update (hs : ∀ t, st t < (h.maps t).length) (patch : Linked Cell t.Patch) :
    ((exec st ω (.update t id patch) h).1, ((exec st ω (.update t id patch) h).2.view st).store) =
      t.update ω id (patch.read h.cells) (h.view st).store := by
  match update_cases ω (h.view st) id (patch.read h.cells) with
  | .inl ⟨e, he⟩        => simp [exec, he]
  | .inr ⟨cur, row, hc⟩ => simp [exec, hc, view_assignPatched (hs t) row]

theorem view_exec_plain (hs : ∀ t, st t < (h.maps t).length) {o : StorageOp} (hp : Plain o) :
    ((exec st ω (.plain o hp) h).1, ((exec st ω (.plain o hp) h).2.view st).store) =
      execStorage ω o (h.view st).store := by
  match hr : (execStorage ω o (h.view st).store).1 with
  | .error e =>
    have hu := unchanged (h.view st).store (ω, o) e hr
    simp only [exec, hr]
    exact Prod.ext hr.symm hu.symm
  | .ok res  =>
    simp only [exec, hr]
    exact Prod.ext hr.symm (view_assignDeleted hs hp hr)

end View

section Holds

variable {h h' : Heap} {st st' : StateRef} {t : TableName} {ω : Env}

theorem Holds.view_eq (hh : h.Holds st) (ht : h'.table st = h.table st) (hc : h.cells <+: h'.cells) :
    h'.view st = h.view st := by
  funext t
  rw [view, view, ht]
  exact Linked.Map.view_eq (hh.rows t) hc

-- Two states that cannot be told apart: other maps, but with the same rows, which share the same cells.
structure Same (st st' : StateRef) (h h' : Heap) : Prop where
  cells : h.cells = h'.cells
  table : h.table st = h'.table st'
  left  : ∀ t, st t < (h.maps t).length
  right : ∀ t, st' t < (h'.maps t).length

theorem Same.view (s : Same st st' h h') : h.view st = h'.view st' := by
  funext t
  rw [Heap.view, Heap.view, s.cells, s.table]

theorem Same.setTable (s : Same st st' h h') (m : MapObject t) :
    Same st st' (h.setTable st t m) (h'.setTable st' t m) where
  cells := s.cells
  table := by rw [table_setTable (s.left t), table_setTable (s.right t), s.table]
  left  := by simpa using s.left
  right := by simpa using s.right

theorem Same.alloc (s : Same st st' h h') (c : Cell) :
    Same st st' { h with cells := h.cells ++ [c] } { h' with cells := h'.cells ++ [c] } where
  cells := by rw [s.cells]
  table := s.table
  left  := s.left
  right := s.right

theorem Same.assignCreated (s : Same st st' h h') (input : Linked Cell t.Input) :
    Same st st' (h.assignCreated ω st t input) (h'.assignCreated ω st' t input) := by
  unfold Heap.assignCreated
  rw [s.table]
  exact s.setTable _

theorem Same.assignDeleted (s : Same st st' h h') (o : StorageOp) :
    Same st st' (h.assignDeleted st o) (h'.assignDeleted st' o) := by
  unfold Heap.assignDeleted
  rw [s.table]
  split
  case h_5 => exact s
  all_goals exact s.setTable _

theorem Same.assignPatched (s : Same st st' h h') (id : String) (patch : Linked Cell t.Patch) :
    Same st st' (h.assignPatched ω st t id patch) (h'.assignPatched ω st' t id patch) := by
  unfold Heap.assignPatched
  rw [s.table]
  split
  case h_1 => exact s
  case h_2 => exact s.setTable _

theorem Same.exec (s : Same st st' h h') (o : HeapOp) :
    (exec st ω o h).1 = (exec st' ω o h').1 ∧ Same st st' (exec st ω o h).2 (exec st' ω o h').2 := by
  cases o
  case alloc c => exact ⟨congrArg List.length s.cells, s.alloc c⟩
  case create t input =>
    simp only [Heap.exec, s.view, s.cells]
    split
    case h_1 => exact ⟨rfl, s⟩
    case h_2 => exact ⟨rfl, s.assignCreated input⟩
  case update t id patch =>
    simp only [Heap.exec, s.view, s.cells]
    split
    case h_1 => exact ⟨rfl, s⟩
    case h_2 => exact ⟨rfl, s.assignPatched id patch⟩
  case plain o _ =>
    simp only [Heap.exec, s.view]
    split
    case h_1 => exact ⟨rfl, s⟩
    case h_2 => exact ⟨rfl, s.assignDeleted o⟩

end Holds

end Heap

end Go

end Licensing
