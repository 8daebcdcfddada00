import Licensing.Library.Json
import Mathlib.Data.List.Basic

-- Objects as what stands at their paths, and what the nearest of several objects has there.

namespace Json

-- What stands at a path: an object, or a value that is none.
inductive Place
  | object
  | value (v : Json)

def Object.place? (o : Object) : List String → Option Place
  | []     => some .object
  | k :: p =>
    match o.get? k with
    | none          => none
    | some (.obj m) => place? m p
    | some v        => if p = [] then some (.value v) else none

-- The object has the path, or a value on the way that is no object.
def Object.decides (o : Object) : List String → Bool
  | []     => true
  | k :: p =>
    match o.get? k with
    | none          => false
    | some (.obj m) => decides m p
    | some _        => true

-- What the nearest object that decides a path has there.
def nearest : List Object → List String → Option Place
  | [],      p => Object.place? [] p
  | o :: os, p => if o.decides p then o.place? p else nearest os p

-- The members of the objects in a value have names of their own.
inductive Named : Json → Prop
  | object {ms : Object} (nodup : (ms.map Prod.fst).Nodup) (members : ∀ m ∈ ms, Named m.2) : Named (.obj ms)
  | value {v : Json} (other : ∀ ms, v ≠ .obj ms) : Named v

-- An object overrides what stands at the paths that it decides.
def Overrides (place base : List String → Option Place) (o : Object) : Prop :=
  ∀ p, place p = if o.decides p then o.place? p else base p

-- The merge of two objects: an object overrides member by member, and deeper where both have an object.
inductive Merges : Object → Object → Object → Prop
  | intro {base o merged : Object} {sub : String → Object}
    (kept : ∀ k, o.get? k = none → merged.get? k = base.get? k)
    (value : ∀ k v, o.get? k = some v → (∀ m, v ≠ .obj m) → merged.get? k = some v)
    (object : ∀ k m, o.get? k = some (.obj m) → (∀ b, base.get? k ≠ some (.obj b)) → merged.get? k = some (.obj m))
    (both : ∀ k m b, o.get? k = some (.obj m) → base.get? k = some (.obj b) → merged.get? k = some (.obj (sub k)))
    (deeper : ∀ k m b, o.get? k = some (.obj m) → base.get? k = some (.obj b) → Merges b m (sub k)) :
    Merges base o merged

section Members

variable {α : Type} {k : String} {ms : List (String × α)}

theorem lookup_member (k : String) (m : String × α) (ms : List (String × α)) :
    List.lookup k (m :: ms) = if k = m.1 then some m.2 else List.lookup k ms := by
  by_cases h : k = m.1
  case pos => rw [List.lookup_cons, beq_iff_eq.mpr h, if_pos h]
  case neg => rw [List.lookup_cons, beq_eq_false_iff_ne.mpr h, if_neg h]

theorem lookup_of_notMem (h : k ∉ ms.map Prod.fst) : List.lookup k ms = none := by
  induction ms
  case nil => rfl
  case cons m ms ih =>
    have ⟨hm, hs⟩ := not_or.mp (mt List.mem_cons.mpr h)
    rw [lookup_member, if_neg hm, ih hs]

theorem mem_of_lookup {v : α} (h : List.lookup k ms = some v) : (k, v) ∈ ms := by
  induction ms
  case nil => cases h
  case cons m ms ih =>
    rw [lookup_member] at h
    split at h
    case isTrue hk =>
      cases h
      exact hk ▸ List.mem_cons_self
    case isFalse => exact List.mem_cons_of_mem _ (ih h)

theorem isSome_lookup_of_mem (h : k ∈ ms.map Prod.fst) : (List.lookup k ms).isSome := by
  induction ms
  case nil => cases h
  case cons m ms ih =>
    rw [lookup_member]
    split
    case isTrue => rfl
    case isFalse hk =>
      cases List.mem_cons.mp h
      case inl e => exact absurd e hk
      case inr h => exact ih h

theorem lookup_append (ms' : List (String × α)) :
    List.lookup k (ms ++ ms') = (List.lookup k ms).or (List.lookup k ms') := by
  induction ms
  case nil => rfl
  case cons m ms ih =>
    rw [List.cons_append, lookup_member, lookup_member, ih]
    split <;> rfl

theorem lookup_filter (f : String → Bool) (k : String) (ms : List (String × α)) :
    List.lookup k (ms.filter fun m => f m.1) = if f k then List.lookup k ms else none := by
  induction ms
  case nil => simp
  case cons m ms ih =>
    rw [lookup_member, List.filter_cons]
    by_cases hf : f m.1
    case pos =>
      rw [if_pos hf, lookup_member, ih]
      by_cases hk : k = m.1 <;> simp [hk, hf]
    case neg =>
      rw [if_neg hf, ih]
      by_cases hk : k = m.1 <;> simp [hk, hf]

end Members

section Places

variable {o : Object} {k : String} {v : Json} {p : List String}

theorem Object.place?_of_none (h : o.get? k = none) : o.place? (k :: p) = none := by
  simp [Object.place?, h]

theorem Object.place?_one (k : String) : (o.place? [k]).isSome = (o.get? k).isSome := by
  rw [place?]
  cases o.get? k
  case none   => rfl
  case some v => cases v <;> rfl

theorem Object.decides_of_none (h : o.get? k = none) : o.decides (k :: p) = false := by
  simp [Object.decides, h]

theorem Object.place?_of_obj {m : Object} (h : o.get? k = some (.obj m)) : o.place? (k :: p) = Object.place? m p := by
  simp [Object.place?, h]

theorem Object.decides_of_obj {m : Object} (h : o.get? k = some (.obj m)) :
    o.decides (k :: p) = Object.decides m p := by
  simp [Object.decides, h]

theorem Object.place?_of_value (h : o.get? k = some v) (other : ∀ m, v ≠ .obj m) :
    o.place? (k :: p) = if p = [] then some (.value v) else none := by
  cases v
  case obj m => exact absurd rfl (other m)
  all_goals simp [Object.place?, h]

theorem Object.decides_of_value (h : o.get? k = some v) (other : ∀ m, v ≠ .obj m) : o.decides (k :: p) := by
  cases v
  case obj m => exact absurd rfl (other m)
  all_goals simp [Object.decides, h]

theorem Object.get?_of_place?_object (h : o.place? (k :: p) = some .object) :
    ∃ m, o.get? k = some (.obj m) ∧ Object.place? m p = some .object := by
  cases hv : o.get? k
  case none =>
    rw [place?_of_none hv] at h
    cases h
  case some v =>
  by_cases other : ∀ m, v ≠ .obj m
  case pos =>
    rw [place?_of_value hv other] at h
    split at h <;> cases h
  case neg =>
    have ⟨m, hm⟩ := not_forall_not.mp other
    cases hm
    exact ⟨m, rfl, (place?_of_obj hv).symm.trans h⟩

theorem Object.place?_of_not_decides (h : ¬o.decides p) : o.place? p = none := by
  induction p generalizing o
  case nil => exact absurd rfl h
  case cons k p ih =>
    cases hv : o.get? k
    case none => exact place?_of_none hv
    case some v =>
    cases v
    case obj m =>
      rw [decides_of_obj hv] at h
      rw [place?_of_obj hv]
      exact ih h
    all_goals exact absurd (decides_of_value hv nofun) h

theorem Object.decides_of_place? (h : (o.place? p).isSome) : o.decides p := by
  apply Classical.byContradiction
  intro hn
  rw [place?_of_not_decides hn] at h
  cases h

theorem Named.nodup (h : Named (.obj o)) : (o.map Prod.fst).Nodup := by
  cases h
  case object nodup _ => exact nodup
  case value other    => exact absurd rfl (other o)

theorem Named.member (h : Named (.obj o)) (hv : o.get? k = some v) : Named v := by
  cases h
  case object members => exact members _ (mem_of_lookup hv)
  case value other    => exact absurd rfl (other o)

-- What stands at a path is decided by the object that overrides, and then by the other one.
theorem Merges.overrides {base o merged : Object} (h : Merges base o merged) :
    Overrides merged.place? base.place? o := by
  intro p
  induction p generalizing base o merged
  case nil => rfl
  case cons k p ih =>
  have ⟨kept, value, object, both, deeper⟩ := h
  cases hv : o.get? k
  case none =>
    rw [Object.decides_of_none hv]
    simp only [Object.place?, kept k hv]
    simp
  case some v =>
  by_cases other : ∀ m, v ≠ .obj m
  case pos =>
    rw [if_pos (Object.decides_of_value hv other), Object.place?_of_value hv other,
      Object.place?_of_value (value k v hv other) other]
  case neg =>
    have ⟨m, hm⟩ := not_forall_not.mp other
    cases hm
    rw [Object.decides_of_obj hv, Object.place?_of_obj hv]
    by_cases hb : ∃ b, base.get? k = some (.obj b)
    case pos =>
      have ⟨b, hb⟩ := hb
      rw [Object.place?_of_obj (both k m b hv hb), Object.place?_of_obj hb]
      exact ih (deeper k m b hv hb)
    case neg =>
      rw [Object.place?_of_obj (object k m hv (not_exists.mp hb))]
      split
      case isTrue => rfl
      case isFalse hd =>
        rw [Object.place?_of_not_decides hd]
        cases p
        case nil => exact absurd rfl hd
        case cons k' p =>
          cases hb' : base.get? k
          case none   => rw [Object.place?_of_none hb']
          case some b =>
            rw [Object.place?_of_value hb' fun m hm => hb ⟨m, hm ▸ hb'⟩]
            rfl

end Places

end Json
