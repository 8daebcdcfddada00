import Licensing.Library.Machine
import Mathlib.Data.List.Basic

-- Stores that hold what they were given in memory and write all of it out at once, when the writing may fail.

namespace Backlog

open Machine

variable {α κ σ ι : Type} [DecidableEq κ] (key : α → κ)

-- The last of the records with a key counts.
def newest (xs : List α) (k : κ) : Option α :=
  xs.reverse.find? (key · = k)

variable {key} {xs ys : List α} {x : α} {k : κ}

@[simp]
theorem newest_nil : newest key [] k = none := rfl

theorem newest_append : newest key (xs ++ ys) k = (newest key ys k).or (newest key xs k) := by
  rw [newest, List.reverse_append, List.find?_append]
  rfl

theorem newest_singleton : newest key [x] k = if k = key x then some x else none := by
  by_cases h : key x = k <;> simp [newest, h, eq_comm]

theorem newest_concat : newest key (xs ++ [x]) k = if k = key x then some x else newest key xs k := by
  rw [newest_append, newest_singleton]
  split <;> simp

theorem newest_cons : newest key (x :: xs) k = (newest key xs k).or (if k = key x then some x else none) := by
  rw [← List.singleton_append, newest_append, newest_singleton]

theorem newest_isSome_iff : (newest key xs k).isSome ↔ ∃ x ∈ xs, key x = k := by
  simp [newest]

-- Records that are looked up by their key are the newest of any list that has just these.
theorem newest_eq {f : κ → Option α} (found : ∀ k x, f k = some x → key x = k)
    (mem : ∀ x, x ∈ xs ↔ f (key x) = some x) :
    newest key xs k = f k := by
  cases hn : newest key xs k
  case some x =>
    have hx : key x = k := by simpa using List.find?_some hn
    have here : x ∈ xs := List.mem_reverse.mp (List.mem_of_find?_eq_some hn)
    exact (hx ▸ (mem x).mp here).symm
  case none =>
    cases hf : f k
    case none   => rfl
    case some x =>
      have hx := found k x hf
      have here : x ∈ xs := (mem x).mpr (hx.symm ▸ hf)
      have none := List.find?_eq_none.mp hn x (List.mem_reverse.mpr here)
      exact absurd hx (by simpa using none)

-- What a step does with a record that it is given.
inductive Outcome (α : Type)
  | written (x : α)
  | unwritten (x : α)
  | refused
  | reopened

-- The records that have been taken, but not been written.
def backlog (p : List α) : Outcome α → List α
  | .written _   => []
  | .unwritten x => p ++ [x]
  | .refused     => p
  | .reopened    => []

-- `lines` is what has been written, and `view` what is read.
structure Store (σ ι α κ : Type) where
  step    : σ → ι → σ
  outcome : σ → ι → Outcome α
  lines   : σ → List α
  view    : σ → κ → Option α

structure Lawful (st : Store σ ι α κ) (key : α → κ) (inv : σ → Prop) : Prop where
  keeps : ∀ s i, inv s → inv (st.step s i)
  view  : ∀ s i k, inv s → st.view (st.step s i) k = match st.outcome s i with
    | .written x   => if k = key x then some x else st.view s k
    | .unwritten x => if k = key x then some x else st.view s k
    | .refused     => st.view s k
    | .reopened    => newest key (st.lines s) k
  lines : ∀ s i k, inv s → newest key (st.lines (st.step s i)) k = match st.outcome s i with
    | .written x => if k = key x then some x else st.view s k
    | _          => newest key (st.lines s) k

-- The store, and beside it the records that have not been written.
def track (st : Store σ ι α κ) (t : σ × List α) (i : ι) : σ × List α :=
  (st.step t.1 i, backlog t.2 (st.outcome t.1 i))

variable {st : Store σ ι α κ} {inv : σ → Prop}

def Accounted (st : Store σ ι α κ) (key : α → κ) (t : σ × List α) : Prop :=
  ∀ k, st.view t.1 k = newest key (st.lines t.1 ++ t.2) k

-- Only what is written changes the lines, and the backlog with it.
def Durable (st : Store σ ι α κ) (key : α → κ) (t : σ × List α) (i : ι) : Prop :=
  ∀ k, newest key (st.lines (st.step t.1 i)) k = match st.outcome t.1 i with
    | .written x => newest key (st.lines t.1 ++ t.2 ++ [x]) k
    | _          => newest key (st.lines t.1) k

theorem Lawful.durable (law : Lawful st key inv) {t : σ × List α} (hi : inv t.1) (h : Accounted st key t) (i : ι) :
    Durable st key t i := by
  intro k
  rw [law.lines _ _ _ hi]
  cases st.outcome t.1 i
  case written x => simp only [newest_concat, h k]
  all_goals rfl

theorem Lawful.accounted (law : Lawful st key inv) {t : σ × List α} (hi : inv t.1) (h : Accounted st key t) (i : ι) :
    Accounted st key (track st t i) := by
  intro k
  have lines := law.durable hi h i k
  have view  := law.view t.1 i k hi
  rw [track, newest_append, lines, view]
  cases st.outcome t.1 i
  case written x =>
    dsimp only [backlog]
    rw [newest_concat, ← h k, newest_nil, Option.none_or]
  case unwritten x =>
    dsimp only [backlog]
    rw [← newest_append, ← List.append_assoc, newest_concat, ← h k]
  case refused  => exact (h k).trans newest_append
  case reopened => rfl

-- Over a run, what is read is what has been written and the backlog.
theorem Lawful.run (law : Lawful st key inv) {s : σ} (hi : inv s) (h : ∀ k, st.view s k = newest key (st.lines s) k)
    (is : List ι) : Always (track st) (Accounted st key) (s, []) is ∧ Each (track st) (Durable st key) (s, []) is := by
  have start : inv s ∧ Accounted st key (s, []) := ⟨hi, fun k => by simpa using h k⟩
  have both : Always (track st) (fun t => inv t.1 ∧ Accounted st key t) (s, []) is :=
    Always.of_keeps (fun t i ht => ⟨law.keeps t.1 i ht.left, law.accounted ht.left ht.right i⟩) start
  exact ⟨both.mono fun t ht => ht.right, both.each fun t i ht => law.durable ht.left ht.right i⟩

end Backlog
