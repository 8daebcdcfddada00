import Licensing.Library.Rows

-- What a schema promises of its tables: unique indexes, and references from one table to another.

namespace Table

variable {α κ β : Type} {key : α → κ} {row r old : α} {k k' : κ} {t t' : Table key}

-- One table holds the rows of another and a row in addition, which is new or takes the place of one.
def Writes (row : α) (t t' : Table key) : Prop :=
  ∀ r, r ∈ t'.rows ↔ r = row ∨ r ∈ t.rows ∧ key r ≠ key row

-- A property of every row, after one is written.
theorem Writes.forall_iff {p : α → Prop} (w : t.Writes row t') (h : ∀ r ∈ t.rows, p r) :
    (∀ r ∈ t'.rows, p r) ↔ p row := by
  apply Iff.intro
  case mp  => exact fun ha => ha row ((w row).mpr (.inl rfl))
  case mpr =>
    intro hp r hr
    cases (w r).mp hr
    case inl he => exact he ▸ hp
    case inr hm => exact h r hm.left

section Find

variable [DecidableEq κ]

theorem mem_iff_find : r ∈ t.rows ↔ t.find (key r) = some r :=
  ⟨find_of_mem, Rows.mem_of_find⟩

theorem writes_of_find (h : ∀ k, t'.find k = if k = key row then some row else t.find k) :
    t.Writes row t' := by
  intro r
  rw [mem_iff_find, mem_iff_find, h]
  by_cases hk : key r = key row
  case pos => simp [hk, eq_comm]
  case neg =>
    have hr : r ≠ row := fun he => hk (congrArg key he)
    simp [hk, hr]

theorem writes_put : t.Writes row (t.put row) :=
  writes_of_find fun _ => find_put

theorem writes_replace (h : t.find (key row) = some old) : t.Writes row (t.replace row) :=
  writes_of_find fun _ => find_replace h

theorem find_eq_none (h : ∀ r ∈ t.rows, key r ≠ k) : t.find k = none :=
  List.find?_eq_none.mpr (by simpa using h)

theorem put_of_find (h : t.find (key row) = some old) : t.put row = t.replace row := by
  unfold put
  split <;> simp_all

theorem mem_erase : r ∈ (t.erase k).rows ↔ r ∈ t.rows ∧ key r ≠ k := by
  simp [erase]

end Find

section Unique

-- No two rows have the same value in the index. A row without a value is not in the index.
def Unique (index : α → Option β) (t : Table key) : Prop :=
  ∀ r ∈ t.rows, ∀ r' ∈ t.rows, ∀ b, index r = some b → index r' = some b → key r = key r'

-- No other row has the value of this one.
def Free (index : α → Option β) (row : α) (t : Table key) : Prop :=
  ∀ r ∈ t.rows, key r ≠ key row → ∀ b, index row = some b → index r ≠ some b

variable {index : α → Option β}

theorem Free.of_unique (w : t.Writes row t') (hu : t'.Unique index) :
    t.Free index row := by
  intro r hr hk b hrow hb
  apply hk
  exact hu r ((w r).mpr (.inr ⟨hr, hk⟩)) row ((w row).mpr (.inl rfl)) b hb hrow

theorem Free.unique (hf : t.Free index row) (w : t.Writes row t') (h : t.Unique index) :
    t'.Unique index := by
  intro r hr r' hr' b hb hb'
  cases (w r).mp hr
  case inl he =>
    subst he
    cases (w r').mp hr'
    case inl he' => exact congrArg key he'.symm
    case inr hm' => exact absurd hb' (hf r' hm'.left hm'.right b hb)
  case inr hm =>
    cases (w r').mp hr'
    case inl he' =>
      subst he'
      exact absurd hb (hf r hm.left hm.right b hb')
    case inr hm' => exact h r hm.left r' hm'.left b hb hb'

theorem unique_nil {nodup} : (ofList [] nodup : Table key).Unique index :=
  fun _ hr => nomatch hr

-- A row that takes the place of one with the same value.
theorem Unique.free (h : t.Unique index) (hm : old ∈ t.rows) (hk : key row = key old)
    (hi : index row = index old) : t.Free index row :=
  fun r hr hne b hb hb' => hne (hk ▸ h r hr old hm b hb' (hi ▸ hb))

theorem Writes.unique_iff (w : t.Writes row t') (h : t.Unique index) :
    t'.Unique index ↔ t.Free index row :=
  ⟨Free.of_unique w, fun hf => hf.unique w h⟩

theorem Unique.erase [DecidableEq κ] (h : t.Unique index) : (t.erase k).Unique index :=
  fun r hr r' hr' => h r (mem_of_mem_erase hr) r' (mem_of_mem_erase hr')

end Unique

section Refers

variable {α' κ' : Type} [DecidableEq κ'] {key' : α' → κ'} {row' old' : α'} {ref : α → Option κ'}
  {u u' : Table key'} {i j : κ'}

def Has (i : κ') (u : Table key') : Prop :=
  (u.find i).isSome

-- Every reference names a row of the other table.
def Refers (ref : α → Option κ') (t : Table key) (u : Table key') : Prop :=
  ∀ r ∈ t.rows, ∀ i, ref r = some i → u.Has i

theorem has_iff : u.Has i ↔ ∃ r, u.find i = some r :=
  Option.isSome_iff_exists

theorem not_has_iff : ¬u.Has i ↔ (u.find i).isNone := by
  simp [Has]

theorem has_put : (u.put row').Has i ↔ i = key' row' ∨ u.Has i := by
  rw [Has, find_put]
  split <;> simp_all [Has]

theorem has_replace (h : u.find (key' row') = some old') : (u.replace row').Has i ↔ u.Has i := by
  rw [Has, find_replace h]
  split <;> simp_all [Has]

theorem has_erase : (u.erase j).Has i ↔ i ≠ j ∧ u.Has i := by
  rw [Has, find_erase]
  split <;> simp_all [Has]

theorem Refers.mono (h : t.Refers ref u) (hu : ∀ i, u.Has i → u'.Has i) : t.Refers ref u' :=
  fun r hr i hi => hu i (h r hr i hi)

theorem Refers.put (h : t.Refers ref u) : t.Refers ref (u.put row') :=
  h.mono fun _ hi => has_put.mpr (.inr hi)

theorem Refers.replace (h : t.Refers ref u) (hr : u.find (key' row') = some old') :
    t.Refers ref (u.replace row') :=
  h.mono fun _ hi => (has_replace hr).mpr hi

theorem Refers.erase_left [DecidableEq κ] (h : t.Refers ref u) : (t.erase k).Refers ref u :=
  fun r hr => h r (mem_of_mem_erase hr)

theorem Refers.erase_iff (h : t.Refers ref u) :
    t.Refers ref (u.erase j) ↔ ∀ r ∈ t.rows, ref r ≠ some j := by
  apply Iff.intro
  case mp =>
    intro he r hr hi
    exact (has_erase.mp (he r hr j hi)).left rfl
  case mpr =>
    intro hn r hr i hi
    exact has_erase.mpr ⟨fun hii => hn r hr (hii ▸ hi), h r hr i hi⟩

theorem Writes.refers_iff (w : t.Writes row t') (h : t.Refers ref u) :
    t'.Refers ref u ↔ ∀ i, ref row = some i → u.Has i := by
  apply Iff.intro
  case mp => exact fun h' => h' row ((w row).mpr (.inl rfl))
  case mpr =>
    intro hrow r hr
    cases (w r).mp hr
    case inl he => exact he ▸ hrow
    case inr hm => exact h r hm.left

end Refers

end Table
