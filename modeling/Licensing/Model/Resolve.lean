import Licensing.Library.JsonPaths
import Licensing.Model.Issuer

-- The resolution of a template: what it inherits from the templates above it, in both ports.

namespace Licensing

open Json

-- The ancestors of a template up to the cap, the closest first, and whether the cap cut them off.
def walk (loader : String → Option LicenseTemplate) :
    Nat → List String → Option String → List LicenseTemplate × Bool
  | _,        _,       none    => ([], false)
  | 0,        _,       some _  => ([], true)
  | room + 1, visited, some id =>
    if id ∈ visited then ([], false)
    else match loader id with
      | none      => ([], false)
      | some node =>
        let rest := walk loader room (id :: visited) node.parentId
        (node :: rest.1, rest.2)

namespace Go

structure Resolved where
  template       : LicenseTemplate
  entitlements   : Json.Object
  meta_          : Json.Object
  inheritedDepth : Nat
  truncated      : Bool

-- The objects of the closest templates come first, and are merged last.
def mergeAll (os : List Json.Object) : Json.Object :=
  os.foldr (fun o merged => deepMerge merged o) []

def resolve (leaf : LicenseTemplate) (loader : String → Option LicenseTemplate) : Resolved :=
  let chain := walk loader maxTemplateDepth [leaf.id] leaf.parentId
  { template       := leaf
    entitlements   := mergeAll ((leaf :: chain.1).map LicenseTemplate.entitlements)
    meta_          := mergeAll ((leaf :: chain.1).map LicenseTemplate.meta_)
    inheritedDepth := chain.1.length
    truncated      := chain.2 }

end Go

namespace Ts

-- A value, with whether the prototype of an object is that of all plain objects.
inductive Merged
  | value (v : Json)
  | object (plain : Bool) (own : List (String × Merged))

abbrev Own :=
  List (String × Merged)

mutual

def Merged.ofJson : Json → Merged
  | .obj ms => .object true (Own.ofMembers ms)
  | v       => .value v

def Own.ofMembers : List (String × Json) → List (String × Merged)
  | []           => []
  | (k, v) :: ms => (k, Merged.ofJson v) :: Own.ofMembers ms

end

-- The prototype of an object: that of all plain objects, none, or an object that has been assigned.
inductive Prototype
  | plain
  | null
  | assigned (v : Merged)

structure Out where
  own       : Own := []
  prototype : Prototype := .plain

-- `out[k]`. What all objects inherit is a function or an accessor, and is left out here.
def Out.get? (out : Out) (k : String) : Option Merged :=
  match out.own.lookup k, out.prototype with
  | some v, _                          => some v
  | none,   .assigned (.object _ own)  => own.lookup k
  | none,   _                          => none

def Own.put : Own → String → Merged → Own
  | [],             k, v => [(k, v)]
  | (k', v') :: ms, k, v => if k' = k then (k, v) :: ms else (k', v') :: Own.put ms k v

-- The accessor `__proto__`: an object or null becomes the prototype, and anything else is ignored.
def Out.setPrototype (out : Out) : Merged → Out
  | .value .null    => { out with prototype := .null }
  | .value (.arr x) => { out with prototype := .assigned (.value (.arr x)) }
  | .value _        => out
  | v               => { out with prototype := .assigned v }

-- `out[k] = v`. An object without a prototype has no accessor.
def Out.set (out : Out) (k : String) (v : Merged) : Out :=
  match out.own.lookup k, out.prototype with
  | none, .null => { out with own := Own.put out.own k v }
  | none, _     => if k = "__proto__" then out.setPrototype v else { out with own := Own.put out.own k v }
  | _,    _     => { out with own := Own.put out.own k v }

def Out.merged (out : Out) : Merged :=
  .object (match out.prototype with | .plain => true | _ => false) out.own

-- The members of the overriding object are in the order in which they are enumerated.
def deepMergeInto (out : Out) : List (String × Json) → Out
  | []                => out
  | (k, .obj o) :: ms =>
    let v := match out.get? k with
      | some (.object true existing) => (deepMergeInto { own := existing } o).merged
      | _                            => .ofJson (.obj o)
    deepMergeInto (out.set k v) ms
  | (k, v) :: ms      => deepMergeInto (out.set k (.value v)) ms

def deepMergeJson (base : Own) (override : Json.Object) : Own :=
  (deepMergeInto { own := base } override).own

def mergeAll (os : List Json.Object) : Own :=
  os.foldr (fun o merged => deepMergeJson merged o) []

-- What is left of a merged object when it is written: its own members.
mutual

def Merged.toJson : Merged → Json
  | .value v      => v
  | .object _ own => .obj (Own.toJson own)

def Own.toJson : List (String × Merged) → List (String × Json)
  | []           => []
  | (k, v) :: ms => (k, Merged.toJson v) :: Own.toJson ms

end

structure ResolvedTemplate where
  template       : LicenseTemplate
  entitlements   : Own
  meta_          : Own
  inheritedDepth : Nat
  truncated      : Bool

def resolveTemplate (leaf : LicenseTemplate) (loader : String → Option LicenseTemplate) : ResolvedTemplate :=
  let chain := walk loader maxTemplateDepth [leaf.id] leaf.parentId
  { template       := leaf
    entitlements   := mergeAll ((leaf :: chain.1).map LicenseTemplate.entitlements)
    meta_          := mergeAll ((leaf :: chain.1).map LicenseTemplate.meta_)
    inheritedDepth := chain.1.length
    truncated      := chain.2 }

end Ts

section Overriding

variable {base o : Json.Object} {k : String} {v : Json} {p : List String}

-- What a member becomes: objects are merged, and anything else is replaced.
def Go.overridden (existing : Option Json) : Json → Json
  | .obj o =>
    match existing with
    | some (.obj b) => .obj (deepMerge b o)
    | _             => .obj o
  | v => v

theorem deepMerge_cons (base : Json.Object) (k : String) (v : Json) (ms : List (String × Json)) :
    deepMerge base ((k, v) :: ms) = deepMerge (Go.copyMap base [(k, Go.overridden (base.get? k) v)]) ms := by
  cases v
  case obj o =>
    rw [deepMerge]
    cases h : base.get? k
    case none   => simp [Go.overridden]
    case some b => cases b <;> simp [Go.overridden]
  all_goals
    rw [deepMerge]
    case _ => rfl
    case _ => simp

theorem get?_copyMap_one (base : Json.Object) (k k' : String) (v : Json) :
    Json.Object.get? (Go.copyMap base [(k', v)]) k = if k = k' then some v else base.get? k := by
  have hf := lookup_filter (fun name => (Json.Object.get? [(k', v)] name).isNone) k base
  have hs : Json.Object.get? [(k', v)] k = if k = k' then some v else none := lookup_member ..
  rw [Json.Object.get?, Go.copyMap, lookup_append, hf, hs]
  split <;> simp [Json.Object.get?, lookup_member, *]

theorem get?_deepMerge (nodup : (o.map Prod.fst).Nodup) (base : Json.Object) (k : String) :
    Json.Object.get? (deepMerge base o) k =
      match o.get? k with
      | none   => base.get? k
      | some v => some (Go.overridden (base.get? k) v) := by
  induction o generalizing base
  case nil => simp [deepMerge, Json.Object.get?]
  case cons m ms ih =>
    obtain ⟨hm, nodup⟩ := List.nodup_cons.mp nodup
    have hs : Json.Object.get? (m :: ms) k = if k = m.1 then some m.2 else Json.Object.get? ms k := lookup_member ..
    rw [deepMerge_cons, ih nodup, get?_copyMap_one, hs]
    by_cases hk : k = m.1
    case pos =>
      have hn : Json.Object.get? ms m.1 = none := lookup_of_notMem hm
      simp [hn, hk]
    case neg => simp [hk]

-- What is below a name in the merged objects, if both have an object there.
def Go.below (base o : Json.Object) (k : String) : Json.Object :=
  match base.get? k, o.get? k with
  | some (.obj b), some (.obj m) => deepMerge b m
  | _,             _             => []

theorem merges_deepMerge (named : Named (.obj o)) (base : Json.Object) : Merges base o (deepMerge base o) := by
  generalize hv : Json.obj o = v at named
  induction named generalizing o base
  case value other => exact absurd hv.symm (other o)
  case object ms nodup members ih =>
    cases hv
    have hk := get?_deepMerge nodup base
    refine @Merges.intro base ms _ (Go.below base ms) ?kept ?value ?object ?both ?deeper
    case kept =>
      intro k ho
      simp [hk, ho]
    case value =>
      intro k v ho other
      cases v
      case obj m => exact absurd rfl (other m)
      all_goals simp [hk, ho, Go.overridden]
    case object =>
      intro k m ho hb
      cases he : base.get? k
      case none => simp [hk, ho, he, Go.overridden]
      case some b =>
      cases b
      case obj b => exact absurd he (hb b)
      all_goals simp [hk, ho, he, Go.overridden]
    case both =>
      intro k m b ho hb
      simp [hk, ho, hb, Go.overridden, Go.below]
    case deeper =>
      intro k m b ho hb
      simp only [Go.below, ho, hb]
      exact ih _ (mem_of_lookup ho) b rfl

end Overriding

-- What stands at a path of all objects together, after the closest of them was merged.
theorem Go.place?_mergeAll {os : List Json.Object} (named : ∀ o ∈ os, Named (.obj o)) (p : List String) :
    Json.Object.place? (Go.mergeAll os) p = nearest os p := by
  induction os generalizing p
  case nil => rfl
  case cons o os ih =>
    have h := (merges_deepMerge (named o List.mem_cons_self) (Go.mergeAll os)).overrides p
    rw [ih fun o ho => named o (List.mem_cons_of_mem _ ho)] at h
    exact h

namespace Ts

section Members

variable {own : Own} {out : Out} {o : Json.Object} {k k' : String} {v : Merged}

mutual

theorem Merged.toJson_ofJson : (v : Json) → (Merged.ofJson v).toJson = v
  | .obj ms  => by rw [Merged.ofJson, Merged.toJson, Own.toJson_ofMembers ms]
  | .null    => rfl
  | .bool _  => rfl
  | .num _   => rfl
  | .str _   => rfl
  | .arr _   => rfl

theorem Own.toJson_ofMembers : (ms : List (String × Json)) → Own.toJson (Own.ofMembers ms) = ms
  | []           => rfl
  | (k, v) :: ms => by rw [Own.ofMembers, Own.toJson, Merged.toJson_ofJson v, Own.toJson_ofMembers ms]

end

theorem lookup_ofMembers (ms : List (String × Json)) (k : String) :
    (Own.ofMembers ms).lookup k = (ms.lookup k).map Merged.ofJson := by
  induction ms
  case nil => rfl
  case cons m ms ih =>
    rw [Own.ofMembers, lookup_member, lookup_member, ih]
    split <;> rfl

theorem get?_toJson (own : Own) (k : String) :
    Json.Object.get? (Own.toJson own) k = (own.lookup k).map Merged.toJson := by
  rw [Json.Object.get?]
  induction own
  case nil => rfl
  case cons m ms ih =>
    rw [Own.toJson, lookup_member, lookup_member, ih]
    split <;> rfl

theorem lookup_put (own : Own) (k k' : String) (v : Merged) :
    List.lookup k' (Own.put own k v) = if k' = k then some v else own.lookup k' := by
  induction own
  case nil => simp [Own.put, lookup_member]
  case cons m ms ih =>
    rw [Own.put]
    by_cases h : m.1 = k
    case pos =>
      rw [if_pos h, lookup_member, lookup_member, h]
      split <;> rfl
    case neg =>
      rw [if_neg h, lookup_member, lookup_member, ih]
      by_cases hk : k' = m.1
      case pos => rw [if_pos hk, if_pos hk, if_neg (hk ▸ h)]
      case neg => rw [if_neg hk, if_neg hk]

theorem own_setPrototype (out : Out) (v : Merged) : (out.setPrototype v).own = out.own := by
  cases v
  case object => rfl
  case value v => cases v <;> rfl

-- An assignment leaves the other members as they are.
theorem lookup_set_ne (h : k' ≠ k) : (out.set k v).own.lookup k' = out.own.lookup k' := by
  rw [Out.set]
  split
  case h_1 => rw [lookup_put, if_neg h]
  case h_2 =>
    split
    case isTrue  => rw [own_setPrototype]
    case isFalse => rw [lookup_put, if_neg h]
  case h_3 => rw [lookup_put, if_neg h]

theorem set_of_own {w : Merged} (h : out.own.lookup k = some w) :
    out.set k v = { out with own := out.own.put k v } := by
  simp [Out.set, h]

theorem set_of_ne (h : k ≠ "__proto__") : out.set k v = { out with own := out.own.put k v } := by
  rw [Out.set]
  split
  case h_1 => rfl
  case h_2 => rw [if_neg h]
  case h_3 => rfl

theorem set_proto (h : out.own.lookup "__proto__" = none) (hp : out.prototype ≠ .null) :
    (out.set "__proto__" v).own = out.own := by
  rw [Out.set]
  split
  case h_1 hn => exact absurd hn hp
  case h_2    => rw [if_pos rfl, own_setPrototype]
  case h_3 hn _ => exact absurd h (by assumption)

end Members

section Loop

variable {own : Own} {out : Out} {o : Json.Object} {k : String} {v : Json}

-- What a member becomes, given what `out[k]` was.
def overridden (existing : Option Merged) : Json → Merged
  | .obj o =>
    match existing with
    | some (.object true own) => (deepMergeInto { own } o).merged
    | _                       => .ofJson (.obj o)
  | v => .value v

theorem deepMergeInto_cons (out : Out) (k : String) (v : Json) (ms : List (String × Json)) :
    deepMergeInto out ((k, v) :: ms) = deepMergeInto (out.set k (overridden (out.get? k) v)) ms := by
  cases v
  case obj o =>
    rw [deepMergeInto]
    cases h : out.get? k
    case none   => simp [overridden]
    case some w =>
      cases w
      case value => simp [overridden]
      case object plain _ => cases plain <;> simp [overridden]
  all_goals
    rw [deepMergeInto]
    case _ => rfl
    case _ => simp

theorem get?_of_own {w : Merged} (h : out.own.lookup k = some w) : out.get? k = some w := by
  simp [Out.get?, h]

theorem get?_plain (h : out.prototype = .plain) (k : String) : out.get? k = out.own.lookup k := by
  cases hk : out.own.lookup k <;> simp [Out.get?, h, hk]

theorem lookup_deepMergeInto_of_notMem (h : k ∉ o.map Prod.fst) :
    (deepMergeInto out o).own.lookup k = out.own.lookup k := by
  induction o generalizing out
  case nil => rw [deepMergeInto]
  case cons m ms ih =>
    have ⟨hm, hs⟩ := not_or.mp (mt List.mem_cons.mpr h)
    rw [deepMergeInto_cons, ih hs, lookup_set_ne hm]

-- A member that was there is merged, whatever the prototype has become.
theorem lookup_deepMergeInto_of_own (nodup : (o.map Prod.fst).Nodup) {w : Merged} (h : out.own.lookup k = some w)
    (hv : o.get? k = some v) : (deepMergeInto out o).own.lookup k = some (overridden (some w) v) := by
  induction o generalizing out
  case nil => cases hv
  case cons m ms ih =>
    have ⟨hm, nodup⟩ := List.nodup_cons.mp nodup
    rw [Json.Object.get?, lookup_member] at hv
    rw [deepMergeInto_cons]
    by_cases hk : k = m.1
    case pos =>
      rw [if_pos hk] at hv
      cases hv
      cases hk
      rw [lookup_deepMergeInto_of_notMem hm, get?_of_own h, set_of_own h, lookup_put, if_pos rfl]
    case neg =>
      rw [if_neg hk] at hv
      exact ih nodup ((lookup_set_ne hk).trans h) hv

-- A member of that name is lost if the object had none.
theorem lookup_proto_deepMergeInto (nodup : (o.map Prod.fst).Nodup) (h : out.own.lookup "__proto__" = none)
    (hp : out.prototype ≠ .null) : (deepMergeInto out o).own.lookup "__proto__" = none := by
  induction o generalizing out
  case nil =>
    rw [deepMergeInto]
    exact h
  case cons m ms ih =>
    have ⟨hm, nodup⟩ := List.nodup_cons.mp nodup
    rw [deepMergeInto_cons]
    by_cases hk : m.1 = "__proto__"
    case pos =>
      rw [hk] at hm ⊢
      rw [lookup_deepMergeInto_of_notMem hm, set_proto h hp, h]
    case neg =>
      apply ih nodup
      case h  => rw [lookup_set_ne (Ne.symm hk), h]
      case hp =>
        rw [set_of_ne hk]
        exact hp

-- Where no prototype is assigned, the members are those of the two objects.
theorem lookup_deepMergeInto (nodup : (o.map Prod.fst).Nodup) (hp : out.prototype = .plain)
    (unset : "__proto__" ∈ o.map Prod.fst → (out.own.lookup "__proto__").isSome) :
    (deepMergeInto out o).prototype = .plain ∧ ∀ k, (deepMergeInto out o).own.lookup k =
      match o.get? k with
      | none   => out.own.lookup k
      | some v => some (overridden (out.own.lookup k) v) := by
  induction o generalizing out
  case nil =>
    rw [deepMergeInto]
    exact ⟨hp, fun _ => rfl⟩
  case cons m ms ih =>
    have ⟨hm, nodup⟩ := List.nodup_cons.mp nodup
    have hset : out.set m.1 (overridden (out.get? m.1) m.2) =
        { out with own := out.own.put m.1 (overridden (out.get? m.1) m.2) } := by
      by_cases hk : m.1 = "__proto__"
      case neg => exact set_of_ne hk
      case pos =>
        have ⟨w, hw⟩ := Option.isSome_iff_exists.mp (unset (by simp [hk]))
        exact set_of_own (hk ▸ hw)
    rw [deepMergeInto_cons, hset, get?_plain hp]
    generalize hout : ({ out with own := out.own.put m.1 (overridden (out.own.lookup m.1) m.2) } : Out) = out'
    have hown : out'.own = out.own.put m.1 (overridden (out.own.lookup m.1) m.2) := hout ▸ rfl
    have unset' : "__proto__" ∈ ms.map Prod.fst → (out'.own.lookup "__proto__").isSome := by
      intro hs
      have hne : "__proto__" ≠ m.1 := fun h => hm (h ▸ hs)
      rw [hown, lookup_put, if_neg hne]
      exact unset (List.mem_cons_of_mem _ hs)
    have ⟨hp', hl⟩ := ih nodup (hout ▸ hp) unset'
    refine ⟨hp', fun k => ?_⟩
    rw [hl k, hown, Json.Object.get?, Json.Object.get?, lookup_member, lookup_put]
    by_cases hk : k = m.1
    case pos =>
      have hn : List.lookup m.1 ms = none := lookup_of_notMem hm
      simp [hk, hn]
    case neg => simp [hk]

end Loop

-- The prototypes in a value are those of plain objects.
inductive Merged.Plain : Merged → Prop
  | value {v : Json} (other : ∀ ms, v ≠ .obj ms) : Plain (.value v)
  | object {own : Own} (members : ∀ k v, own.lookup k = some v → Plain v) : Plain (.object true own)

def Own.Plain (own : Own) : Prop :=
  ∀ k v, own.lookup k = some v → v.Plain

-- A member of that name is assigned to an object that has none of its own.
def SetsPrototype (base : List String → Option Place) (o : Json.Object) : Prop :=
  ∃ p, o.place? p = some .object ∧ base p = some .object ∧
    (o.place? (p ++ ["__proto__"])).isSome ∧ base (p ++ ["__proto__"]) = none

section Merge

variable {own : Own} {out : Out} {o : Json.Object} {k : String} {v : Json}

theorem plain_ofJson (named : Named v) : (Merged.ofJson v).Plain := by
  induction named
  case value v other =>
    cases v
    case obj ms => exact absurd rfl (other ms)
    all_goals exact .value nofun
  case object ms nodup members ih =>
    apply Merged.Plain.object
    intro k w hw
    have ⟨v, hv, e⟩ := Option.map_eq_some_iff.mp ((lookup_ofMembers ms k).symm.trans hw)
    exact e ▸ ih _ (mem_of_lookup hv)

-- What is an object when it is written is a plain object.
theorem Own.Plain.object (plain : own.Plain) {b : Json.Object}
    (h : Json.Object.get? (Own.toJson own) k = some (.obj b)) :
    ∃ e : Own, own.lookup k = some (.object true e) ∧ e.Plain ∧ Own.toJson e = b := by
  rw [get?_toJson] at h
  have ⟨w, hw, e⟩ := Option.map_eq_some_iff.mp h
  cases plain k w hw
  case value other  => exact absurd e (other b)
  case object ms hm => exact ⟨ms, hw, hm, Json.obj.inj e⟩

theorem SetsPrototype.deeper {base : Json.Object} {b m : Json.Object} (ho : o.get? k = some (.obj m))
    (hb : base.get? k = some (.obj b)) (h : SetsPrototype b.place? m) : SetsPrototype base.place? o := by
  have ⟨p, hm, hb', hs, hn⟩ := h
  exact ⟨k :: p, (Object.place?_of_obj ho).trans hm, (Object.place?_of_obj hb).trans hb',
    (congrArg Option.isSome (Object.place?_of_obj ho)).trans hs, (Object.place?_of_obj hb).trans hn⟩

def below (own : Own) (o : Json.Object) (k : String) : Json.Object :=
  match own.lookup k, o.get? k with
  | some (.object true e), some (.obj m) => Own.toJson (deepMergeInto { own := e } m).own
  | _,                     _             => []

theorem overridden_of_ne {existing : Option Merged} (h : ∀ e, existing ≠ some (.object true e)) (m : Json.Object) :
    overridden existing (.obj m) = .ofJson (.obj m) := by
  rw [overridden]
  exact fun e he => h e he

theorem isSome_lookup_proto (unset : ¬SetsPrototype (Json.Object.place? (Own.toJson out.own)) o)
    (hs : "__proto__" ∈ o.map Prod.fst) : (out.own.lookup "__proto__").isSome := by
  apply Classical.byContradiction
  intro hn
  have ho : (Json.Object.place? o ["__proto__"]).isSome := by
    rw [Object.place?_one]
    exact isSome_lookup_of_mem hs
  have hb : Json.Object.place? (Own.toJson out.own) ["__proto__"] = none := by
    apply Object.place?_of_none
    rw [get?_toJson, Option.not_isSome_iff_eq_none.mp hn]
    rfl
  exact unset ⟨[], rfl, rfl, ho, hb⟩

-- Where both have an object, the one is merged into the other, and nothing is assigned to the prototype either.
def MergesBelow (out : Out) (o : Json.Object) : Prop :=
  ∀ k m b, o.get? k = some (.obj m) → Json.Object.get? (Own.toJson out.own) k = some (.obj b) →
    ∃ e : Own, out.own.lookup k = some (.object true e) ∧ Own.toJson e = b ∧
      (deepMergeInto { own := e } m).prototype = .plain ∧ (deepMergeInto { own := e } m).own.Plain ∧
      Merges b m (Own.toJson (deepMergeInto { own := e } m).own)

theorem plain_overridden (named : Named v) (ho : o.get? k = some v) (both : MergesBelow out o) :
    (overridden (out.own.lookup k) v).Plain := by
  cases v
  case obj m =>
    by_cases he : ∃ e, out.own.lookup k = some (.object true e)
    case pos =>
      have ⟨e, he⟩ := he
      have hb : Json.Object.get? (Own.toJson out.own) k = some (.obj (Own.toJson e)) := by
        rw [get?_toJson, he]
        rfl
      have ⟨e', he', _, hpl, hown, _⟩ := both k m _ ho hb
      cases he.symm.trans he'
      simp only [overridden, he, Out.merged, hpl]
      exact .object hown
    case neg =>
      rw [overridden_of_ne (not_exists.mp he)]
      exact plain_ofJson named
  all_goals exact .value nofun

-- A merge of the members is a merge of the texts.
theorem merges_of_overridden {own' : Own} (both : MergesBelow out o) (h : ∀ k, own'.lookup k =
      match o.get? k with
      | none   => out.own.lookup k
      | some v => some (overridden (out.own.lookup k) v)) :
    Merges (Own.toJson out.own) o (Own.toJson own') := by
  have hk (k : String) : Json.Object.get? (Own.toJson own') k =
      ((match o.get? k with
        | none   => out.own.lookup k
        | some v => some (overridden (out.own.lookup k) v)).map Merged.toJson) := by
    rw [get?_toJson, h k]
  refine @Merges.intro _ o _ (below out.own o) ?kept ?value ?object ?both ?deeper
  case kept =>
    intro k ho
    rw [hk, ho, get?_toJson]
  case value =>
    intro k v ho other
    rw [hk, ho]
    cases v
    case obj m => exact absurd rfl (other m)
    all_goals rfl
  case object =>
    intro k m ho hb
    have hne : ∀ e, out.own.lookup k ≠ some (.object true e) := by
      intro e he
      apply hb (Own.toJson e)
      rw [get?_toJson, he]
      rfl
    rw [hk, ho]
    simp only [overridden_of_ne hne, Option.map_some, Merged.toJson_ofJson]
  case both =>
    intro k m b ho hb
    have ⟨e, he, _, hpl, _⟩ := both k m b ho hb
    rw [hk, ho]
    simp [overridden, below, he, ho, Out.merged, Merged.toJson]
  case deeper =>
    intro k m b ho hb
    have ⟨e, he, _, _, _, h⟩ := both k m b ho hb
    simp only [below, he, ho]
    exact h

theorem merges_deepMergeInto (named : Named (.obj o)) (hp : out.prototype = .plain) (plain : out.own.Plain)
    (unset : ¬SetsPrototype (Json.Object.place? (Own.toJson out.own)) o) :
    (deepMergeInto out o).prototype = .plain ∧ (deepMergeInto out o).own.Plain ∧
      Merges (Own.toJson out.own) o (Own.toJson (deepMergeInto out o).own) := by
  generalize hv : Json.obj o = v at named
  induction named generalizing o out
  case value other => exact absurd hv.symm (other o)
  case object ms nodup members ih =>
    cases hv
    have ⟨hp', hl⟩ := lookup_deepMergeInto nodup hp (isSome_lookup_proto unset)
    have both : MergesBelow out ms := by
      intro k m b ho hb
      have ⟨e, he, hplain, hj⟩ := plain.object hb
      have h : _ ∧ _ ∧ Merges _ _ _ :=
        @ih _ (mem_of_lookup ho) { own := e } m rfl hplain (fun hs => unset (hs.deeper ho (hj ▸ hb))) rfl
      exact ⟨e, he, hj, h.1, h.2.1, hj ▸ h.2.2⟩
    refine ⟨hp', ?plain, merges_of_overridden both hl⟩
    case plain =>
      intro k w hw
      rw [hl k] at hw
      cases ho : ms.get? k
      case none =>
        rw [ho] at hw
        exact plain k w hw
      case some v =>
        rw [ho] at hw
        cases Option.some.inj hw
        exact plain_overridden (members _ (mem_of_lookup ho)) ho both

-- What is assigned to the prototype is not among the members.
theorem place?_proto_deepMergeInto (named : Named (.obj o)) (hp : out.prototype = .plain) (plain : out.own.Plain)
    {p : List String} (ho : o.place? p = some .object)
    (hb : Json.Object.place? (Own.toJson out.own) p = some .object)
    (hn : Json.Object.place? (Own.toJson out.own) (p ++ ["__proto__"]) = none) :
    Json.Object.place? (Own.toJson (deepMergeInto out o).own) (p ++ ["__proto__"]) = none := by
  induction p generalizing o out
  case nil =>
    have hl : out.own.lookup "__proto__" = none := by
      have h := Object.place?_one (o := Own.toJson out.own) "__proto__"
      rw [get?_toJson] at h
      rw [List.nil_append] at hn
      rw [hn] at h
      cases hw : out.own.lookup "__proto__"
      case none   => rfl
      case some w =>
        rw [hw] at h
        cases h
    have hlost := lookup_proto_deepMergeInto named.nodup hl (hp ▸ nofun)
    apply Object.place?_of_none
    rw [get?_toJson, hlost]
    rfl
  case cons k p ih =>
    have ⟨m, hm, ho⟩ := Object.get?_of_place?_object ho
    have ⟨b, hk, hb⟩ := Object.get?_of_place?_object hb
    have ⟨e, he, hplain, hj⟩ := plain.object hk
    have hl := lookup_deepMergeInto_of_own named.nodup he hm
    have hr : Json.Object.get? (Own.toJson (deepMergeInto out o).own) k =
        some (.obj (Own.toJson (deepMergeInto { own := e } m).own)) := by
      rw [get?_toJson, hl]
      simp [overridden, Out.merged, Merged.toJson]
    rw [List.cons_append, Object.place?_of_obj hk, ← hj] at hn
    rw [List.cons_append, Object.place?_of_obj hr]
    exact ih (named.member hm) rfl hplain ho (hj ▸ hb) hn

end Merge

section Fold

variable {os : List Json.Object}

-- After each template, what stands at the paths is what the closest of the templates decides.
def MergesInOrder (os : List Json.Object) : Prop :=
  ∀ rest, rest <:+ os → ∀ p, Json.Object.place? (Own.toJson (mergeAll rest)) p = nearest rest p

-- No template assigns a prototype to what was merged before.
def SetsNoPrototype (os : List Json.Object) : Prop :=
  ∀ o rest, o :: rest <:+ os → ¬SetsPrototype (nearest rest) o

theorem nearest_of_merges {rest : List Json.Object} {o : Json.Object} {merged base : Json.Object}
    (h : Merges base o merged) (hb : ∀ p, base.place? p = nearest rest p) (p : List String) :
    merged.place? p = nearest (o :: rest) p := by
  rw [h.overrides p, hb p]
  rfl

-- As long as no prototype is assigned, the merged members are those of plain objects.
theorem mergeAll_of_setsNoPrototype (named : ∀ o ∈ os, Named (.obj o)) (h : SetsNoPrototype os) :
    (mergeAll os).Plain ∧ ∀ p, Json.Object.place? (Own.toJson (mergeAll os)) p = nearest os p := by
  induction os
  case nil => exact ⟨nofun, fun _ => rfl⟩
  case cons o os ih =>
    have ⟨plain, hb⟩ := ih (fun o ho => named o (List.mem_cons_of_mem _ ho)) fun o rest hs =>
      h o rest (hs.trans (List.suffix_cons _ _))
    have unset : ¬SetsPrototype (Json.Object.place? (Own.toJson (mergeAll os))) o := by
      rw [funext hb]
      exact h o os (List.suffix_refl _)
    have ⟨_, plain', merges⟩ :=
      @merges_deepMergeInto { own := mergeAll os } o (named o List.mem_cons_self) rfl plain unset
    exact ⟨plain', nearest_of_merges merges hb⟩

-- The templates are merged in their order just if no prototype is assigned.
theorem mergesInOrder_iff (named : ∀ o ∈ os, Named (.obj o)) : MergesInOrder os ↔ SetsNoPrototype os := by
  constructor
  case mpr =>
    intro h rest hs
    exact (mergeAll_of_setsNoPrototype (fun o ho => named o (hs.subset ho)) fun o rest' hs' =>
      h o rest' (hs'.trans hs)).2
  case mp =>
    induction os
    case nil =>
      intro _ o rest hs
      cases List.suffix_nil.mp hs
    case cons o os ih =>
      intro h
      have named' : ∀ o ∈ os, Named (.obj o) := fun o ho => named o (List.mem_cons_of_mem _ ho)
      have hos := ih named' fun rest hs => h rest (hs.trans (List.suffix_cons _ _))
      intro o' rest hs
      cases List.suffix_cons_iff.mp hs
      case inr hs => exact hos o' rest hs
      case inl e =>
        cases e
        intro ⟨p, ho, hb, hset, hn⟩
        have ⟨plain, hm⟩ := mergeAll_of_setsNoPrototype named' hos
        rw [← hm] at hb hn
        have hlost :=
          @place?_proto_deepMergeInto { own := mergeAll os } o (named o List.mem_cons_self) rfl plain p ho hb hn
        have hd := Object.decides_of_place? hset
        have hr := h (o :: os) (List.suffix_refl _) (p ++ ["__proto__"])
        rw [nearest, if_pos hd] at hr
        rw [← hr] at hset
        have hmerged : mergeAll (o :: os) = (deepMergeInto { own := mergeAll os } o).own := rfl
        rw [hmerged, hlost] at hset
        cases hset

end Fold

end Ts

section Walk

variable {loader : String → Option LicenseTemplate} {visited : List String} {cursor : Option String}
  {chain : List LicenseTemplate}

-- All ancestors, the closest first, up to a template that is missing or was there before.
inductive Ancestors (loader : String → Option LicenseTemplate) :
    List String → Option String → List LicenseTemplate → Prop
  | root {visited : List String} : Ancestors loader visited none []
  | revisited {visited : List String} {id : String} (old : id ∈ visited) : Ancestors loader visited (some id) []
  | missing {visited : List String} {id : String} (new : id ∉ visited) (absent : loader id = none) :
    Ancestors loader visited (some id) []
  | parent {visited : List String} {id : String} {node : LicenseTemplate} {chain : List LicenseTemplate}
    (new : id ∉ visited) (found : loader id = some node)
    (rest : Ancestors loader (id :: visited) node.parentId chain) : Ancestors loader visited (some id) (node :: chain)

-- The walk goes as far as there is room, and is cut off if there is a parent left.
theorem walk_of_ancestors (h : Ancestors loader visited cursor chain) (room : Nat) :
    (walk loader room visited cursor).1 = chain.take room ∧
      ((walk loader room visited cursor).2 ↔
        ∃ id, (cursor :: chain.map LicenseTemplate.parentId)[room]? = some (some id)) := by
  induction h generalizing room
  case root visited => cases room <;> simp [walk]
  case revisited visited id old => cases room <;> simp [walk, old]
  case missing visited id new absent => cases room <;> simp [walk, new, absent]
  case parent visited id node chain new found rest ih =>
    cases room
    case zero => simp [walk]
    case succ room => simp [walk, new, found, ih room]

-- A finite map has an end.
theorem exists_ancestors (ids : List String) (finite : ∀ id, loader id ≠ none → id ∈ ids)
    (visited : List String) (cursor : Option String) : ∃ chain, Ancestors loader visited cursor chain := by
  induction hn : (ids.filter (· ∉ visited)).length using Nat.strong_induction_on generalizing visited cursor
  case h n ih =>
    cases cursor
    case none => exact ⟨[], .root⟩
    case some id =>
    by_cases old : id ∈ visited
    case pos => exact ⟨[], .revisited old⟩
    case neg =>
    cases found : loader id
    case none => exact ⟨[], .missing old found⟩
    case some node =>
      have mem := finite id (by simp [found])
      have less : (ids.filter (· ∉ id :: visited)).length < n := by
        have hf : ids.filter (· ∉ id :: visited) = (ids.filter (· ∉ visited)).filter (· ≠ id) := by
          rw [List.filter_filter]
          congr 1
          funext i
          simp [not_or]
        rw [hf, ← hn]
        exact List.length_filter_lt_length_iff_exists.mpr ⟨id, by simp [mem, old], by simp⟩
      obtain ⟨chain, rest⟩ := ih _ less (id :: visited) node.parentId rfl
      exact ⟨node :: chain, .parent old found rest⟩

theorem Ancestors.unique {chain' : List LicenseTemplate} (h : Ancestors loader visited cursor chain)
    (h' : Ancestors loader visited cursor chain') : chain = chain' := by
  have hw := (walk_of_ancestors h (chain.length + chain'.length)).1
  have hw' := (walk_of_ancestors h' (chain.length + chain'.length)).1
  rw [List.take_of_length_le (Nat.le_add_right _ _)] at hw
  rw [List.take_of_length_le (Nat.le_add_left _ _)] at hw'
  exact hw.symm.trans hw'

theorem Ancestors.found (h : Ancestors loader visited cursor chain) {t : LicenseTemplate} (ht : t ∈ chain) :
    ∃ id, loader id = some t := by
  induction h
  case root      => cases ht
  case revisited => cases ht
  case missing   => cases ht
  case parent id _ _ _ found _ ih =>
    cases List.mem_cons.mp ht
    case inl e => exact ⟨id, e ▸ found⟩
    case inr h => exact ih h

end Walk

section Resolution

-- What is seen of a resolved template: what stands at the paths of its objects, and how far it inherits.
structure Resolution where
  entitlements   : List String → Option Place
  meta_          : List String → Option Place
  inheritedDepth : Nat
  truncated      : Bool

def Go.Resolved.seen (r : Go.Resolved) : Resolution where
  entitlements   := r.entitlements.place?
  meta_          := r.meta_.place?
  inheritedDepth := r.inheritedDepth
  truncated      := r.truncated

def Ts.ResolvedTemplate.seen (r : Ts.ResolvedTemplate) : Resolution where
  entitlements   := Json.Object.place? (Ts.Own.toJson r.entitlements)
  meta_          := Json.Object.place? (Ts.Own.toJson r.meta_)
  inheritedDepth := r.inheritedDepth
  truncated      := r.truncated

-- A template, and its closest ancestors up to the cap.
def lineage (leaf : LicenseTemplate) (ancestors : List LicenseTemplate) : List LicenseTemplate :=
  leaf :: ancestors.take maxTemplateDepth

-- The closest template that decides a path has its way, and what is left out is told.
structure Resolution.Exact (r : Resolution) (leaf : LicenseTemplate) (ancestors : List LicenseTemplate) : Prop where
  entitlements   : r.entitlements = nearest ((lineage leaf ancestors).map LicenseTemplate.entitlements)
  meta_          : r.meta_ = nearest ((lineage leaf ancestors).map LicenseTemplate.meta_)
  inheritedDepth : r.inheritedDepth = min maxTemplateDepth ancestors.length
  truncated      : r.truncated ↔
    ∃ id, ((leaf :: ancestors).map LicenseTemplate.parentId)[maxTemplateDepth]? = some (some id)

theorem Resolution.Exact.eq {r r' : Resolution} {leaf : LicenseTemplate} {ancestors : List LicenseTemplate}
    (h : r.Exact leaf ancestors) (h' : r'.Exact leaf ancestors) : r = r' := by
  cases r
  cases r'
  simp only [Resolution.mk.injEq]
  exact ⟨h.entitlements.trans h'.entitlements.symm, h.meta_.trans h'.meta_.symm,
    h.inheritedDepth.trans h'.inheritedDepth.symm, Bool.eq_iff_iff.mpr (h.truncated.trans h'.truncated.symm)⟩

-- The objects of a template are maps.
structure LicenseTemplate.Maps (t : LicenseTemplate) : Prop where
  entitlements : Named (.obj t.entitlements)
  meta_        : Named (.obj t.meta_)

-- The template of an id, among finitely many.
def loaderOf (templates : List LicenseTemplate) (id : String) : Option LicenseTemplate :=
  templates.find? (·.id = id)

-- Both ports resolve a template to what it is, and the other port does so after each template it merges.
structure ResolvesAlike (templates : List LicenseTemplate) (leaf : LicenseTemplate)
    (ancestors : List LicenseTemplate) : Prop where
  go           : (Go.resolve leaf (loaderOf templates)).seen.Exact leaf ancestors
  ts           : (Ts.resolveTemplate leaf (loaderOf templates)).seen.Exact leaf ancestors
  same         : (Go.resolve leaf (loaderOf templates)).seen = (Ts.resolveTemplate leaf (loaderOf templates)).seen
  entitlements : Ts.MergesInOrder ((lineage leaf ancestors).map LicenseTemplate.entitlements)
  meta_        : Ts.MergesInOrder ((lineage leaf ancestors).map LicenseTemplate.meta_)

variable {templates : List LicenseTemplate} {leaf : LicenseTemplate} {ancestors : List LicenseTemplate}

theorem named_lineage (maps : ∀ t ∈ leaf :: templates, t.Maps)
    (h : Ancestors (loaderOf templates) [leaf.id] leaf.parentId ancestors) :
    ∀ t ∈ lineage leaf ancestors, t.Maps := by
  intro t ht
  cases List.mem_cons.mp ht
  case inl e => exact maps t (e ▸ List.mem_cons_self)
  case inr ht =>
    have ⟨_, found⟩ := h.found (List.mem_of_mem_take ht)
    exact maps t (List.mem_cons_of_mem _ (List.mem_of_find?_eq_some found))

theorem go_exact (maps : ∀ t ∈ leaf :: templates, t.Maps)
    (h : Ancestors (loaderOf templates) [leaf.id] leaf.parentId ancestors) :
    (Go.resolve leaf (loaderOf templates)).seen.Exact leaf ancestors := by
  have ⟨hw, ht⟩ := walk_of_ancestors h maxTemplateDepth
  have named := named_lineage maps h
  refine ⟨?entitlements, ?meta_, ?inheritedDepth, ?truncated⟩
  case entitlements =>
    funext p
    simp only [Go.Resolved.seen, Go.resolve, hw]
    exact Go.place?_mergeAll (List.forall_mem_map.mpr fun t ht => (named t ht).entitlements) p
  case meta_ =>
    funext p
    simp only [Go.Resolved.seen, Go.resolve, hw]
    exact Go.place?_mergeAll (List.forall_mem_map.mpr fun t ht => (named t ht).meta_) p
  case inheritedDepth => simp only [Go.Resolved.seen, Go.resolve, hw, List.length_take]
  case truncated      => exact ht

theorem ts_exact (h : Ancestors (loaderOf templates) [leaf.id] leaf.parentId ancestors)
    (entitlements : Ts.MergesInOrder ((lineage leaf ancestors).map LicenseTemplate.entitlements))
    (meta_ : Ts.MergesInOrder ((lineage leaf ancestors).map LicenseTemplate.meta_)) :
    (Ts.resolveTemplate leaf (loaderOf templates)).seen.Exact leaf ancestors := by
  have ⟨hw, ht⟩ := walk_of_ancestors h maxTemplateDepth
  refine ⟨?entitlements, ?meta_, ?inheritedDepth, ?truncated⟩
  case entitlements =>
    funext p
    simp only [Ts.ResolvedTemplate.seen, Ts.resolveTemplate, hw]
    exact entitlements _ (List.suffix_refl _) p
  case meta_ =>
    funext p
    simp only [Ts.ResolvedTemplate.seen, Ts.resolveTemplate, hw]
    exact meta_ _ (List.suffix_refl _) p
  case inheritedDepth => simp only [Ts.ResolvedTemplate.seen, Ts.resolveTemplate, hw, List.length_take]
  case truncated      => exact ht

-- Every template has its ancestors, and is resolved alike just if no member `__proto__` is assigned.
theorem resolvesAlike_iff (maps : ∀ t ∈ leaf :: templates, t.Maps) :
    ∃ ancestors, Ancestors (loaderOf templates) [leaf.id] leaf.parentId ancestors ∧
      (Go.resolve leaf (loaderOf templates)).seen.Exact leaf ancestors ∧
      (ResolvesAlike templates leaf ancestors ↔
        Ts.SetsNoPrototype ((lineage leaf ancestors).map LicenseTemplate.entitlements) ∧
        Ts.SetsNoPrototype ((lineage leaf ancestors).map LicenseTemplate.meta_)) := by
  have finite : ∀ id, loaderOf templates id ≠ none → id ∈ templates.map LicenseTemplate.id := by
    intro id h
    have ⟨t, found⟩ := Option.ne_none_iff_exists'.mp h
    have e : t.id = id := by simpa using List.find?_some found
    exact List.mem_map.mpr ⟨t, List.mem_of_find?_eq_some found, e⟩
  have ⟨ancestors, h⟩ := exists_ancestors _ finite [leaf.id] leaf.parentId
  have named := named_lineage maps h
  have go := go_exact maps h
  refine ⟨ancestors, h, go, ?_⟩
  rw [← Ts.mergesInOrder_iff (List.forall_mem_map.mpr fun t ht => (named t ht).entitlements),
    ← Ts.mergesInOrder_iff (List.forall_mem_map.mpr fun t ht => (named t ht).meta_)]
  constructor
  case mp  => exact fun h => ⟨h.entitlements, h.meta_⟩
  case mpr =>
    intro ⟨entitlements, meta_⟩
    have ts := ts_exact h entitlements meta_
    exact ⟨go, ts, go.eq ts, entitlements, meta_⟩

def templateOf (id : String) (parentId : Option String) (entitlements : Json.Object) : LicenseTemplate where
  id                  := id
  scopeId             := none
  parentId            := parentId
  name                := id
  maxUsages           := 5
  trialDurationSec    := 0
  trialCooldownSec    := none
  graceDurationSec    := 0
  forceOnlineAfterSec := none
  entitlements        := entitlements
  meta_               := []
  createdAt           := "2026-01-01T00:00:00.000000Z"
  updatedAt           := "2026-01-01T00:00:00.000000Z"

theorem maps_templateOf (id : String) (parentId : Option String) (k : String) (n : Nat) :
    (templateOf id parentId [(k, .ofNat n)]).Maps where
  entitlements := .object (List.nodup_singleton k) (by
    intro m hm
    cases List.mem_singleton.mp hm
    exact .value nofun)
  meta_        := .object List.nodup_nil nofun

theorem resolvesAlike_sample :
    let leaf := templateOf "b" (some "a") [("tier", .ofNat 2)]
    let templates := [templateOf "a" none [("seats", .ofNat 5)]]
    ∃ ancestors, Ancestors (loaderOf templates) [leaf.id] leaf.parentId ancestors ∧
      (Go.resolve leaf (loaderOf templates)).seen.Exact leaf ancestors ∧
      (ResolvesAlike templates leaf ancestors ↔
        Ts.SetsNoPrototype ((lineage leaf ancestors).map LicenseTemplate.entitlements) ∧
        Ts.SetsNoPrototype ((lineage leaf ancestors).map LicenseTemplate.meta_)) :=
  resolvesAlike_iff (by
    intro t ht
    cases List.mem_cons.mp ht
    case inl e => exact e ▸ maps_templateOf ..
    case inr h => exact List.mem_singleton.mp h ▸ maps_templateOf ..)

-- A member `__proto__` of a template is an entitlement in one port only.
theorem not_resolve_alike :
    let leaf := templateOf "a" none [("__proto__", .ofNat 1)]
    leaf.Maps ∧ (Go.resolve leaf (loaderOf [])).seen ≠ (Ts.resolveTemplate leaf (loaderOf [])).seen := by
  intro leaf
  refine ⟨maps_templateOf .., fun h => ?_⟩
  have hp := congrFun (congrArg Resolution.entitlements h) ["__proto__"]
  have hgo : (Go.resolve leaf (loaderOf [])).seen.entitlements ["__proto__"] = some (.value (.ofNat 1)) := by
    apply (Go.place?_mergeAll ?named ["__proto__"]).trans
    case named => simpa [walk, leaf, templateOf] using (maps_templateOf "a" none "__proto__" 1).entitlements
    simp [walk, nearest, leaf, templateOf, Object.decides, Object.place?, Object.get?, Json.ofNat]
  have hts : (Ts.resolveTemplate leaf (loaderOf [])).seen.entitlements ["__proto__"] = none := by
    have lost : (Ts.mergeAll [leaf.entitlements]).lookup "__proto__" = none :=
      Ts.lookup_proto_deepMergeInto (List.nodup_singleton _) rfl (by simp)
    have hw : walk (loaderOf []) maxTemplateDepth [leaf.id] leaf.parentId = ([], false) := rfl
    simp only [Ts.ResolvedTemplate.seen, Ts.resolveTemplate, hw, Object.place?, Ts.get?_toJson]
    simp [lost]
  cases hgo.symm.trans (hp.trans hts)

end Resolution

end Licensing
