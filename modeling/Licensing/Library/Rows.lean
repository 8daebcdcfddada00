import Mathlib.Data.List.Basic
import Mathlib.Data.List.Nodup

-- Tables as lists of rows with a key.

namespace Rows

variable {α κ : Type} [DecidableEq κ] (key : α → κ)

def find (k : κ) (rows : List α) : Option α :=
  rows.find? (key · = k)

def replace (row : α) (rows : List α) : List α :=
  rows.map fun r => if key r = key row then row else r

variable {key} {row r : α} {rows : List α} {k : κ}

theorem key_of_find (h : find key k rows = some r) : key r = k := by
  simpa using List.find?_some h

theorem mem_of_find (h : find key k rows = some r) : r ∈ rows :=
  List.mem_of_find?_eq_some h

theorem find_of_mem (nd : (rows.map key).Nodup) (h : r ∈ rows) : find key (key r) rows = some r := by
  induction rows
  case nil => simp at h
  case cons r' rows ih =>
    simp only [List.map_cons, List.nodup_cons] at nd
    cases List.mem_cons.mp h
    case inl h => simp [find, h]
    case inr h =>
      have hne : key r' ≠ key r := fun e => nd.left (e ▸ List.mem_map_of_mem h)
      simpa [find, hne] using ih nd.right h

theorem find_replace_of_ne (h : key row ≠ k) : find key k (replace key row rows) = find key k rows := by
  induction rows
  case nil => rfl
  case cons r rows ih =>
    by_cases hr : key r = key row
    case pos => simpa [find, replace, hr, h] using ih
    case neg =>
      by_cases hk : key r = k
      case pos => simp [find, replace, hk, h.symm]
      case neg => simpa [find, replace, hr, hk] using ih

theorem find_replace_self (h : find key (key row) rows = some r) :
    find key (key row) (replace key row rows) = some row := by
  induction rows
  case nil => simp [find] at h
  case cons r' rows ih =>
    by_cases hr : key r' = key row
    case pos => simp [find, replace, hr]
    case neg => simpa [find, replace, hr] using ih (by simpa [find, hr] using h)

theorem replace_of_find_eq_none (h : find key (key row) rows = none) :
    replace key row rows = rows := by
  refine (List.map_congr_left fun r hr => ?_).trans (List.map_id _)
  have hne : key r ≠ key row := by simpa using List.find?_eq_none.mp h r hr
  simp [hne]

theorem find_replace_congr {rows' : List α} (h : find key k rows = find key k rows') :
    find key k (replace key row rows) = find key k (replace key row rows') := by
  by_cases hk : key row = k
  case neg => rw [find_replace_of_ne hk, find_replace_of_ne hk, h]
  case pos =>
    subst hk
    match hf : find key (key row) rows with
    | some r => rw [find_replace_self hf, find_replace_self (h ▸ hf)]
    | none   => rw [replace_of_find_eq_none hf, replace_of_find_eq_none (h ▸ hf), h]

@[simp]
theorem map_key_replace : (replace key row rows).map key = rows.map key := by
  rw [replace, List.map_map]
  refine List.map_congr_left fun r _ => ?_
  by_cases hr : key r = key row <;> simp [hr]

-- The rows of a kind, after one is replaced by a row that is not of that kind.
theorem filter_replace {p : α → Bool} (h : p row = false) :
    (replace key row rows).filter p = rows.filter fun r => p r ∧ key r ≠ key row := by
  induction rows
  case nil => rfl
  case cons r rows ih =>
    by_cases hr : key r = key row
    case pos => simpa [replace, hr, h] using ih
    case neg =>
      have hc : replace key row (r :: rows) = r :: replace key row rows := by simp [replace, hr]
      rw [hc, List.filter_cons, List.filter_cons, ih]
      simp [hr]

end Rows

-- A table whose rows have different keys.
structure Table {α κ : Type} (key : α → κ) where
  rows  : List α
  nodup : (rows.map key).Nodup

namespace Table

variable {α κ : Type} [DecidableEq κ] {key : α → κ}

def ofList (rows : List α) (nodup : (rows.map key).Nodup := by decide) : Table key where
  rows  := rows
  nodup := nodup

def find (k : κ) (t : Table key) : Option α :=
  Rows.find key k t.rows

def replace (row : α) (t : Table key) : Table key where
  rows  := Rows.replace key row t.rows
  nodup := by
    rw [Rows.map_key_replace]
    exact t.nodup

theorem key_ne_of_find {row : α} {t : Table key} (h : t.find (key row) = none) :
    key row ∉ t.rows.map key := by
  intro hm
  have ⟨r, hr, hk⟩ := List.mem_map.mp hm
  exact absurd hk (by simpa using List.find?_eq_none.mp h r hr)

-- Replaces the row with the same key, or adds a new one.
def put (row : α) (t : Table key) : Table key :=
  match h : t.find (key row) with
  | some _ => t.replace row
  | none   => {
    rows  := t.rows ++ [row]
    nodup := by
      rw [List.map_append, List.nodup_append]
      refine ⟨t.nodup, List.nodup_singleton _, fun k hk k' hk' he => ?_⟩
      rw [List.map_singleton, List.mem_singleton] at hk'
      exact key_ne_of_find h (hk' ▸ he ▸ hk) }

def erase (k : κ) (t : Table key) : Table key where
  rows  := t.rows.filter (key · ≠ k)
  nodup := t.nodup.sublist (List.filter_sublist.map key)

def filter (p : α → Bool) (t : Table key) : Table key where
  rows  := t.rows.filter p
  nodup := t.nodup.sublist (List.filter_sublist.map key)

variable {row r : α} {k k' : κ} {t : Table key}

theorem mem_of_mem_replace (h : r ∈ (t.replace row).rows) : r = row ∨ r ∈ t.rows := by
  obtain ⟨r', hr', he⟩ := List.mem_map.mp h
  split at he
  case isTrue  => exact .inl he.symm
  case isFalse => exact .inr (he ▸ hr')

theorem rows_put (h : t.find (key row) = none) : (t.put row).rows = t.rows ++ [row] := by
  unfold put
  split
  case h_1 hs => exact nomatch h.symm.trans hs
  case h_2 => rfl

theorem mem_of_mem_put (h : r ∈ (t.put row).rows) : r = row ∨ r ∈ t.rows := by
  unfold put at h
  split at h
  case h_1 => exact mem_of_mem_replace h
  case h_2 => simpa [or_comm] using h

theorem mem_of_mem_erase (h : r ∈ (t.erase k).rows) : r ∈ t.rows :=
  List.mem_of_mem_filter h

theorem key_of_find (h : t.find k = some r) : key r = k :=
  Rows.key_of_find h

theorem find_of_mem (h : r ∈ t.rows) : t.find (key r) = some r :=
  Rows.find_of_mem t.nodup h

theorem find_replace (h : t.find (key row) = some r) :
    (t.replace row).find k = if k = key row then some row else t.find k := by
  split
  case isTrue hk  => exact hk ▸ Rows.find_replace_self h
  case isFalse hk => exact Rows.find_replace_of_ne (Ne.symm hk)

theorem find_put : (t.put row).find k = if k = key row then some row else t.find k := by
  unfold put
  split
  case h_1 h => exact find_replace h
  case h_2 h =>
    unfold find Rows.find at h ⊢
    rw [List.find?_append]
    by_cases hk : k = key row
    case pos => simp [hk, h]
    case neg => simp [hk, Ne.symm hk]

-- A row that is put and then replaced.
theorem find_replace_put {row' : α} (h : key row' = key row) :
    ((t.put row).replace row').find k = if k = key row' then some row' else t.find k := by
  have hp : (t.put row).find (key row') = some row := by rw [find_put, if_pos h]
  rw [find_replace hp, find_put, h]
  split <;> rfl

omit [DecidableEq κ] in
theorem filter_eq_self {p : α → Bool} : t.filter p = t ↔ ∀ r ∈ t.rows, p r := by
  rw [← List.filter_eq_self]
  apply Iff.intro
  case mp  => exact fun h => congrArg rows h
  case mpr =>
    intro h
    obtain ⟨rows, nodup⟩ := t
    simp only [filter, Table.mk.injEq]
    exact h

theorem find_erase : (t.erase k').find k = if k = k' then none else t.find k := by
  unfold erase find Rows.find
  rw [List.find?_filter]
  by_cases hk : k = k'
  case pos =>
    subst hk
    simp
  case neg =>
    rw [if_neg hk]
    congr 1
    funext r
    by_cases hr : key r = k <;> simp [hr, hk]

end Table
