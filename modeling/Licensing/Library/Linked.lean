import Mathlib.Data.List.Infix
import Licensing.Library.Constraints

-- Values that hold references: what they are worth depends on what is in the cells that they refer
-- to. Copying such a value copies the references and shares the cells.

structure Linked (Cell α : Type) where
  refs  : List Nat
  read  : List Cell → α
  local_ : ∀ {cells cells' : List Cell}, (∀ r ∈ refs, cells[r]? = cells'[r]?) →
    read cells = read cells'

namespace Linked

variable {Cell α β γ : Type}

-- A value without references.
def plain (a : α) : Linked Cell α where
  refs  := []
  read  := fun _ => a
  local_ := fun _ => rfl

-- The reference itself: its value is the content of the cell.
def ref (r : Nat) : Linked Cell (Option Cell) where
  refs  := [r]
  read  := fun cells => cells[r]?
  local_ := fun h => h r (by simp)

def map (f : α → β) (x : Linked Cell α) : Linked Cell β where
  refs  := x.refs
  read  := fun cells => f (x.read cells)
  local_ := fun h => congrArg f (x.local_ h)

def map₂ (f : α → β → γ) (x : Linked Cell α) (y : Linked Cell β) : Linked Cell γ where
  refs  := x.refs ++ y.refs
  read  := fun cells => f (x.read cells) (y.read cells)
  local_ := fun h => congrArg₂ f
    (x.local_ fun r hr => h r (List.mem_append_left _ hr))
    (y.local_ fun r hr => h r (List.mem_append_right _ hr))

-- Every cell that the value refers to exists.
def Valid (cells : List Cell) (x : Linked Cell α) : Prop :=
  ∀ r ∈ x.refs, r < cells.length

-- New cells do not matter to a value whose cells exist.
theorem Valid.read_eq {cells cells' : List Cell} {x : Linked Cell α} (h : x.Valid cells)
    (hp : cells <+: cells') : x.read cells' = x.read cells := by
  apply x.local_
  intro r hr
  have ⟨rest, he⟩ := hp
  simp [← he, List.getElem?_append_left (h r hr)]

-- A row of a map that is keyed by the identifier in the row. The identifier is no reference.
structure Entry (Cell : Type) {α : Type} (key : α → String) where
  id     : String
  row    : Linked Cell α
  key_of : ∀ cells, key (row.read cells) = id

variable {key : α → String}

abbrev Map (Cell : Type) (key : α → String) :=
  Table (@Entry.id Cell α key)

-- The rows of a map as values.
def Map.view (cells : List Cell) (m : Map Cell key) : Table key where
  rows  := m.rows.map fun e => e.row.read cells
  nodup := by
    have h : (m.rows.map fun e => e.row.read cells).map key = m.rows.map Entry.id := by
      simp [Entry.key_of]
    exact h ▸ m.nodup

namespace Map

variable {cells : List Cell} {m : Map Cell key} {e : Entry Cell key} {k : String}

theorem ext_rows {t t' : Table key} (h : t.rows = t'.rows) : t = t' := by
  cases t
  cases t'
  simpa using h

theorem find_view : (m.view cells).find k = (m.find k).map fun e => e.row.read cells := by
  simp only [Table.find, Rows.find, view, List.find?_map]
  congr 2
  funext e
  simp [e.key_of]

theorem view_replace : view cells (m.replace e) = (m.view cells).replace (e.row.read cells) := by
  apply ext_rows
  simp only [view, Table.replace, Rows.replace, List.map_map]
  apply List.map_congr_left
  intro e' _
  by_cases he : e'.id = e.id
  case pos => simp [he, e.key_of, e'.key_of]
  case neg => simp [he, e.key_of, e'.key_of]

theorem view_put : view cells (m.put e) = (m.view cells).put (e.row.read cells) := by
  have hf : (m.view cells).find (key (e.row.read cells)) = (m.find e.id).map fun e => e.row.read cells :=
    e.key_of cells ▸ find_view
  cases h : m.find e.id
  case none =>
    apply ext_rows
    rw [Table.rows_put (by simpa [h] using hf)]
    simp [view, Table.rows_put h]
  case some old =>
    rw [Table.put_of_find h, Table.put_of_find (by simpa [h] using hf)]
    exact view_replace

theorem view_erase : view cells (m.erase k) = (m.view cells).erase k := by
  apply ext_rows
  simp only [view, Table.erase, List.filter_map]
  congr 2
  funext e
  simp [e.key_of]

-- The rows whose cells exist stay what they are when cells are added.
theorem view_eq {cells' : List Cell} (h : ∀ e ∈ m.rows, e.row.Valid cells) (hp : cells <+: cells') :
    m.view cells' = m.view cells := by
  apply ext_rows
  apply List.map_congr_left
  exact fun e he => (h e he).read_eq hp

end Map

end Linked
