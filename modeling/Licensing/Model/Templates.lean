import Licensing.Library.Forest
import Licensing.Library.Rows
import Licensing.Model.Entities
import Licensing.Model.Errors

-- The hierarchies of templates in a store.

namespace Licensing

def createdTemplate (now id : String) (input : LicenseTemplateInput) : LicenseTemplate where
  id                  := id
  scopeId             := input.scopeId
  parentId            := input.parentId
  name                := input.name
  maxUsages           := input.maxUsages
  trialDurationSec    := input.trialDurationSec
  trialCooldownSec    := input.trialCooldownSec
  graceDurationSec    := input.graceDurationSec
  forceOnlineAfterSec := input.forceOnlineAfterSec
  entitlements        := input.entitlements
  meta_               := input.meta_
  createdAt           := now
  updatedAt           := now

def patchedTemplate (now : String) (patch : LicenseTemplatePatch) (t : LicenseTemplate) :
    LicenseTemplate :=
  { t with
    name                := patch.name.getD t.name
    parentId            := patch.parentId.getD t.parentId
    maxUsages           := patch.maxUsages.getD t.maxUsages
    trialDurationSec    := patch.trialDurationSec.getD t.trialDurationSec
    trialCooldownSec    := patch.trialCooldownSec.getD t.trialCooldownSec
    graceDurationSec    := patch.graceDurationSec.getD t.graceDurationSec
    forceOnlineAfterSec := patch.forceOnlineAfterSec.getD t.forceOnlineAfterSec
    entitlements        := patch.entitlements.getD t.entitlements
    meta_               := patch.meta_.getD t.meta_
    updatedAt           := now }

def templateCycle (id : String) : Error :=
  newError .templateCycle ("template parent chain forms a cycle through " ++ id)

inductive TemplateOp
  | create (input : LicenseTemplateInput)
  | update (id : String) (patch : LicenseTemplatePatch)
  | delete (id : String)

@[reducible]
def TemplateOp.Res : TemplateOp → Type
  | create _ | update _ _ => LicenseTemplate
  | delete _              => Unit

def parentOf (find : String → Option LicenseTemplate) (id : String) : Option String :=
  (find id).bind LicenseTemplate.parentId

section Table

variable {t : Table LicenseTemplate.id} {row old : LicenseTemplate} {id : String}

theorem parentOf_put :
    parentOf ((t.put row).find ·) = Function.update (parentOf (t.find ·)) row.id row.parentId := by
  funext id
  rw [parentOf, Table.find_put, Function.update_apply]
  split <;> rfl

theorem parentOf_replace (h : t.find row.id = some old) :
    parentOf ((t.replace row).find ·) = Function.update (parentOf (t.find ·)) row.id row.parentId := by
  funext id
  rw [parentOf, Table.find_replace h, Function.update_apply]
  split <;> rfl

theorem parentOf_erase :
    parentOf ((t.erase id).find ·) = Function.update (parentOf (t.find ·)) id none := by
  funext id'
  rw [parentOf, Table.find_erase, Function.update_apply]
  split <;> rfl

end Table

-- The walk towards the root, at most 64 hops, and what it has visited if it meets `forbidden`.
def walkParentChain (find : String → Option LicenseTemplate) (startParent forbidden : String) :
    Option (List String) :=
  Forest.walk (parentOf find) forbidden 64 startParent

-- What an operation that succeeds does to the hierarchy.
inductive TemplateActs (parent : String → Option String) (freshId : String) :
    TemplateOp → (String → Option String) → Prop
  | created {input : LicenseTemplateInput} : TemplateActs parent freshId (.create input)
      (Function.update parent freshId input.parentId)
  | kept {id : String} {patch : LicenseTemplatePatch} (parentId : patch.parentId = none) :
      TemplateActs parent freshId (.update id patch) parent
  | moved {id : String} {patch : LicenseTemplatePatch} {p : Option String}
      (parentId : patch.parentId = some p)
      (walk : ∀ q, p = some q → Forest.walk parent id 64 q = none) :
      TemplateActs parent freshId (.update id patch) (Function.update parent id p)
  | deleted {id : String} : TemplateActs parent freshId (.delete id) (Function.update parent id none)

-- A patch that was applied to a template.
theorem TemplateActs.patched {parent : String → Option String} {freshId id now : String}
    {patch : LicenseTemplatePatch} {cur : LicenseTemplate} (hc : parent id = cur.parentId)
    (walk : ∀ p, patch.parentId = some (some p) → Forest.walk parent id 64 p = none) :
    TemplateActs parent freshId (.update id patch)
      (Function.update parent id (patchedTemplate now patch cur).parentId) := by
  cases hp : patch.parentId with
  | none =>
    rw [patchedTemplate, hp, Option.getD_none, ← hc, Function.update_eq_self]
    exact .kept hp
  | some p =>
    rw [patchedTemplate, hp, Option.getD_some]
    exact .moved hp fun q hq => walk q (hq ▸ hp)

-- A store of templates, with the operations that it offers.
structure TemplateStore (σ : Type) where
  offers    : TemplateOp → Prop
  find      : String → σ → Option LicenseTemplate
  exec      : (now freshId : String) → (o : TemplateOp) → offers o → σ → Except Error o.Res × σ
  unchanged : ∀ {now freshId o h s e}, (exec now freshId o h s).1 = .error e →
    (exec now freshId o h s).2 = s
  acts      : ∀ {now freshId o h s a}, (exec now freshId o h s).1 = .ok a →
    TemplateActs (parentOf (find · s)) freshId o (parentOf (find · (exec now freshId o h s).2))

namespace TemplateStore

variable {σ : Type} (store : TemplateStore σ)

def parent (s : σ) : String → Option String :=
  parentOf (store.find · s)

-- A new id is not in use, neither for a template nor as a parent.
structure Fresh (freshId : String) (o : TemplateOp) (s : σ) : Prop where
  find   : store.find freshId s = none
  parent : ∀ id, store.parent s id ≠ some freshId
  input  : ∀ input, o = .create input → input.parentId ≠ some freshId

-- The template that moves is not further than 64 hops above its new parent.
def Shallow (s : σ) : TemplateOp → Prop
  | .update id patch => ∀ p, patch.parentId = some (some p) →
    ∀ n, 64 ≤ n → Forest.ancestor (store.parent s) n p ≠ some id
  | _ => True

-- The stores after runs whose steps meet a condition.
inductive Reachable (meets : σ → TemplateOp → Prop) : σ → Prop
  | empty {s : σ} (find : ∀ id, store.find id s = none) : Reachable meets s
  | step {s : σ} (reachable : Reachable meets s) (now freshId : String) (o : TemplateOp)
    (offers : store.offers o) (fresh : store.Fresh freshId o s) (condition : meets s o) :
    Reachable meets (store.exec now freshId o offers s).2

def Closes (s : σ) (id : String) (patch : LicenseTemplatePatch) : Prop :=
  ∃ p, patch.parentId = some p ∧ ¬Forest.Acyclic (Function.update (store.parent s) id p)

variable {store} {s : σ} {now freshId id : String} {patch : LicenseTemplatePatch}

open Forest

theorem Shallow.ancestor_ne (h : store.Shallow s (.update id patch)) {p : String}
    (hp : patch.parentId = some (some p)) (walk : walk (store.parent s) id 64 p = none) (n : Nat) :
    ancestor (store.parent s) n p ≠ some id := by
  by_cases hn : n < 64
  case pos => exact walk_eq_none_iff.mp walk n hn
  case neg => exact h p hp n (Nat.le_of_not_lt hn)

theorem acyclic_step {o : TemplateOp} {offers : store.offers o} (fresh : store.Fresh freshId o s)
    (shallow : store.Shallow s o) (acyclic : Acyclic (store.parent s)) :
    Acyclic (store.parent (store.exec now freshId o offers s).2) := by
  cases hr : (store.exec now freshId o offers s).1 with
  | error e => rwa [store.unchanged hr]
  | ok a =>
    have acts := store.acts hr
    change TemplateActs (store.parent s) _ _ (store.parent _) at acts
    generalize store.parent (store.exec now freshId o offers s).2 = parent' at acts
    cases acts
    case created input =>
      cases hp : input.parentId with
      | none   => exact acyclic.remove _
      | some p =>
        -- Nothing is below the new template yet.
        refine acyclic.update fun n hn => ?_
        cases n
        case zero   => exact fresh.input input rfl (hp.trans hn)
        case succ n =>
          rw [ancestor_succ'] at hn
          obtain ⟨c, -, hc⟩ := Option.bind_eq_some_iff.mp hn
          exact fresh.parent c hc
    case kept => exact acyclic
    case moved p hp walk =>
      cases p with
      | none   => exact acyclic.remove _
      | some p => exact acyclic.update (Shallow.ancestor_ne shallow hp (walk p rfl))
    case deleted => exact acyclic.remove _

theorem Reachable.acyclic (h : store.Reachable store.Shallow s) : Acyclic (store.parent s) := by
  induction h
  case empty find => exact acyclic_of_no_parent fun id => by rw [parent, parentOf, find, Option.bind_none]
  case step fresh shallow ih => exact acyclic_step fresh shallow ih

-- An update that would close a cycle fails, and leaves the store as it is.
theorem exec_of_closes {offers : store.offers (.update id patch)}
    (shallow : store.Shallow s (.update id patch)) (acyclic : Acyclic (store.parent s))
    (closes : store.Closes s id patch) :
    ∃ e, store.exec now freshId (.update id patch) offers s = (.error e, s) := by
  obtain ⟨p, hp, hc⟩ := closes
  cases hr : (store.exec now freshId (.update id patch) offers s).1 with
  | error e => exact ⟨e, Prod.ext hr (store.unchanged hr)⟩
  | ok a =>
    refine absurd ?_ hc
    have acts := store.acts hr
    change TemplateActs (store.parent s) _ _ (store.parent _) at acts
    generalize store.parent (store.exec now freshId (.update id patch) offers s).2 = parent' at acts
    cases acts
    case kept h => exact nomatch h.symm.trans hp
    case moved p' walk hp' =>
      cases hp.symm.trans hp'
      cases p with
      | none   => exact acyclic.remove _
      | some p => exact acyclic.update (Shallow.ancestor_ne shallow hp (walk p rfl))

end TemplateStore

end Licensing
