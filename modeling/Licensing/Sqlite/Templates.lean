import Licensing.Memory.Templates
import Licensing.Sqlite.Pages

-- The templates of the SQLite adapter, and the hierarchies of all adapters.

namespace Licensing

namespace Sqlite

structure State where
  scopes         : Table LicenseScope.id := .ofList [] List.nodup_nil
  licenses       : Table License.id := .ofList [] List.nodup_nil
  templates      : Table LicenseTemplate.id := .ofList [] List.nodup_nil
  trialIssuances : Table TrialIssuance.id := .ofList [] List.nodup_nil

def checkFailed (name : String) : Error :=
  .other ("constraint failed: CHECK constraint failed: " ++ name ++ " (275)")

def foreignKeyFailed : Error :=
  .other "constraint failed: FOREIGN KEY constraint failed (787)"

-- The length of a text ends at a NUL.
def length (s : String) : Nat :=
  (s.toList.takeWhile (· ≠ '\x00')).length

def checkTemplate (t : LicenseTemplate) : Except Error Unit :=
  if 128 < length t.name then .error (checkFailed "license_templates_name_len")
  else if t.maxUsages < 1 then .error (checkFailed "license_templates_max_usages")
  else if t.trialDurationSec < 0 then .error (checkFailed "license_templates_trial_sec")
  else if t.graceDurationSec < 0 then .error (checkFailed "license_templates_grace_sec")
  else if t.forceOnlineAfterSec.any (· < 0) then .error (checkFailed "license_templates_force_sec")
  else .ok ()

-- The two unique indexes on the name treat the templates without a scope as a group.
def uniqueTemplate (others : List LicenseTemplate) (t : LicenseTemplate) : Except Error Unit :=
  if others.any fun o => o.scopeId = t.scopeId ∧ o.name = t.name then
    .error <| newError .uniqueConstraintViolation <|
      if t.scopeId.isSome then "scope_name: scope_id,name" else "scope_name: name"
  else .ok ()

-- A reference of a template to itself is satisfied by the row that is written.
def referencesOfTemplate (t : LicenseTemplate) (s : State) : Except Error Unit :=
  if t.scopeId.any fun id => (s.scopes.find id).isNone then .error foreignKeyFailed
  else if t.parentId.any fun id => id ≠ t.id ∧ (s.templates.find id).isNone then .error foreignKeyFailed
  else .ok ()

def constraints (others : List LicenseTemplate) (t : LicenseTemplate) (s : State) : Except Error Unit := do
  checkTemplate t
  uniqueTemplate others t
  referencesOfTemplate t s

def createTemplate (now freshId : String) (input : LicenseTemplateInput) (s : State) :
    Except Error LicenseTemplate × State :=
  let row := createdTemplate now freshId input
  if (s.templates.find freshId).isSome then
    (.error (newError .uniqueConstraintViolation "license_templates.id: id"), s)
  else
    match constraints s.templates.rows row s with
    | .error e => (.error e, s)
    | .ok _    => (.ok row, { s with templates := s.templates.put row })

def checkParent (id : String) (patch : LicenseTemplatePatch) (s : State) : Except Error Unit :=
  match patch.parentId with
  | some (some parentId) =>
    match walkParentChain (s.templates.find ·) parentId id with
    | some _ => .error (templateCycle id)
    | none   => .ok ()
  | _ => .ok ()

def updateTemplate (now id : String) (patch : LicenseTemplatePatch) (s : State) :
    Except Error LicenseTemplate × State :=
  match checkParent id patch s with
  | .error e => (.error e, s)
  | .ok _    =>
    match s.templates.find id with
    | none     => (.error (newError .uniqueConstraintViolation ("pk: " ++ id)), s)
    | some cur =>
      let next := patchedTemplate now patch cur
      match constraints (s.templates.rows.filter (·.id ≠ id)) next s with
      | .error e => (.error e, s)
      | .ok _    => (.ok next, { s with templates := s.templates.replace next })

-- The templates below, and the trials, keep a row from being deleted.
def deleteTemplate (id : String) (s : State) : Except Error Unit × State :=
  if s.licenses.rows.any fun l => l.templateId = some id then
    (.error (newError .uniqueConstraintViolation ("template " ++ id ++ " is referenced by licenses")), s)
  else if (s.templates.rows.any fun t => t.id ≠ id ∧ t.parentId = some id) ∨
      s.trialIssuances.rows.any fun i => i.templateId = some id then
    (.error foreignKeyFailed, s)
  else if (s.templates.find id).isNone then
    (.error (newError .licenseNotFound ("template not found: " ++ id)), s)
  else (.ok (), { s with templates := s.templates.erase id })

def execTemplate (now freshId : String) : (o : TemplateOp) → State → Except Error o.Res × State
  | .create input,    s => createTemplate now freshId input s
  | .update id patch, s => updateTemplate now id patch s
  | .delete id,       s => deleteTemplate id s

variable {now freshId id : String} {input : LicenseTemplateInput} {patch : LicenseTemplatePatch}
  {s : State} {e : Error} {t : LicenseTemplate}

theorem createTemplate_error (h : (createTemplate now freshId input s).1 = .error e) :
    (createTemplate now freshId input s).2 = s := by
  revert h
  unfold createTemplate
  split
  case isTrue  => exact fun _ => rfl
  case isFalse =>
    simp only
    split
    case h_1 => exact fun _ => rfl
    case h_2 =>
      intro h
      contradiction

theorem updateTemplate_error (h : (updateTemplate now id patch s).1 = .error e) :
    (updateTemplate now id patch s).2 = s := by
  revert h
  unfold updateTemplate
  split
  case h_1 => exact fun _ => rfl
  case h_2 =>
    split
    case h_1 => exact fun _ => rfl
    case h_2 =>
      simp only
      split
      case h_1 => exact fun _ => rfl
      case h_2 =>
        intro h
        contradiction

theorem deleteTemplate_error (h : (deleteTemplate id s).1 = .error e) : (deleteTemplate id s).2 = s := by
  revert h
  unfold deleteTemplate
  repeat' split
  case isFalse.isFalse.isFalse =>
    intro h
    contradiction
  all_goals exact fun _ => rfl

theorem createTemplate_acts (h : (createTemplate now freshId input s).1 = .ok t) :
    TemplateActs (parentOf (s.templates.find ·)) freshId (.create input)
      (parentOf ((createTemplate now freshId input s).2.templates.find ·)) := by
  unfold createTemplate at h ⊢
  split at h
  case isTrue => contradiction
  case isFalse hi =>
    simp only [if_neg hi] at h ⊢
    split at h
    case h_1 => contradiction
    case h_2 hc =>
      simp only [parentOf_put]
      exact .created

theorem walk_of_checkParent (h : checkParent id patch s = .ok ()) {p : String}
    (hp : patch.parentId = some (some p)) :
    Forest.walk (parentOf (s.templates.find ·)) id 64 p = none := by
  rw [checkParent, hp] at h
  simp only at h
  split at h
  case h_1 => contradiction
  case h_2 walk => exact walk

theorem updateTemplate_acts (h : (updateTemplate now id patch s).1 = .ok t) :
    TemplateActs (parentOf (s.templates.find ·)) freshId (.update id patch)
      (parentOf ((updateTemplate now id patch s).2.templates.find ·)) := by
  unfold updateTemplate at h ⊢
  cases hp : checkParent id patch s with
  | error e => simp [hp] at h
  | ok _ =>
    simp only [hp] at h ⊢
    cases hf : s.templates.find id with
    | none     => simp [hf] at h
    | some cur =>
      simp only [hf] at h ⊢
      split at h
      case h_1 => contradiction
      case h_2 hc =>
        have hid : cur.id = id := Table.key_of_find hf
        have hr : s.templates.find (patchedTemplate now patch cur).id = some cur := hid.symm ▸ hf
        simp only [parentOf_replace hr]
        refine hid ▸ .patched ?_ fun _ hq => hid.symm ▸ walk_of_checkParent hp hq
        rw [parentOf, hid, hf, Option.bind_some]

theorem deleteTemplate_acts (h : (deleteTemplate id s).1 = .ok ()) :
    TemplateActs (parentOf (s.templates.find ·)) freshId (.delete id)
      (parentOf ((deleteTemplate id s).2.templates.find ·)) := by
  revert h
  unfold deleteTemplate
  repeat' split
  case isFalse.isFalse.isFalse =>
    intro _
    simp only [parentOf_erase]
    exact .deleted
  all_goals
    intro h
    contradiction

def templates : TemplateStore State where
  offers _  := True
  find id s := s.templates.find id
  exec now freshId o _ := execTemplate now freshId o
  unchanged {_ _ o _ _ _} h :=
    match o with
    | .create _   => createTemplate_error h
    | .update _ _ => updateTemplate_error h
    | .delete _   => deleteTemplate_error h
  acts {_ _ o _ _ _} h :=
    match o with
    | .create _   => createTemplate_acts h
    | .update _ _ => updateTemplate_acts h
    | .delete _   => deleteTemplate_acts h

end Sqlite

def Adapter.State : Adapter → Type
  | goMemory | tsMemory => Memory.State
  | goSqlite            => Sqlite.State

-- The adapter of the TypeScript port does not delete templates.
def Adapter.templates : (adapter : Adapter) → TemplateStore adapter.State
  | goMemory => Go.memory.templates fun _ => True
  | goSqlite => Sqlite.templates
  | tsMemory => Ts.memory.templates fun o => ∀ id, o ≠ .delete id

-- As long as no template is moved under one that is 64 hops or more below it, the hierarchy has no
-- cycles, and an update that would close one fails.
theorem templates_acyclic (adapter : Adapter) {s : adapter.State}
    (h : adapter.templates.Reachable adapter.templates.Shallow s) :
    Forest.Acyclic (adapter.templates.parent s) ∧
      ∀ now freshId id patch offers, adapter.templates.Shallow s (.update id patch) →
        adapter.templates.Closes s id patch →
        ∃ e, adapter.templates.exec now freshId (.update id patch) offers s = (.error e, s) :=
  ⟨h.acyclic, fun _ _ _ _ _ shallow closes => TemplateStore.exec_of_closes shallow h.acyclic closes⟩

section Chain

-- A chain of templates, each below the one before.

open Memory Forest

def chainId (n : Nat) : String :=
  .ofList (.replicate n 'x')

def chainInput (n : Nat) : LicenseTemplateInput := {
  scopeId             := none
  parentId            := if n = 0 then none else some (chainId (n - 1))
  name                := chainId n
  maxUsages           := 1
  trialDurationSec    := 0
  trialCooldownSec    := none
  graceDurationSec    := 0
  forceOnlineAfterSec := none
  entitlements        := []
  meta_               := [] }

def chainRow (n : Nat) : LicenseTemplate :=
  createdTemplate "" (chainId n) (chainInput n)

theorem chainId_inj {m n : Nat} : chainId m = chainId n ↔ m = n := by
  refine ⟨fun h => ?_, congrArg chainId⟩
  have hl := congrArg (List.length ∘ String.toList) h
  simpa [chainId] using hl

def chain : Nat → Memory.State
  | 0     => {}
  | n + 1 => (Memory.createTemplate Go.memory "" (chainId n) (chainInput n) (chain n)).2

variable {k n : Nat}

section Rows

variable (rows : (chain n).templates.rows = (List.range n).map chainRow)

include rows

theorem mem_chain_iff {t : LicenseTemplate} :
    t ∈ (chain n).templates.rows ↔ ∃ k < n, chainRow k = t := by
  simp [rows]

theorem find_chain : (chain n).templates.find (chainId k) = if k < n then some (chainRow k) else none := by
  split
  case isTrue hk => exact Table.find_of_mem ((mem_chain_iff rows).mpr ⟨k, hk, rfl⟩)
  case isFalse hk =>
    refine List.find?_eq_none.mpr fun t ht he => hk ?_
    obtain ⟨k', hk', rfl⟩ := (mem_chain_iff rows).mp ht
    exact chainId_inj.mp (of_decide_eq_true he) ▸ hk'

theorem chain_succ :
    chain (n + 1) = { chain n with templates := (chain n).templates.put (chainRow n) } := by
  have hu : ¬(chain n).templates.rows.any fun t => t.scopeId = none ∧ t.name = chainId n := by
    rw [List.any_eq_true]
    rintro ⟨t, ht, hn⟩
    obtain ⟨k, hk, rfl⟩ := (mem_chain_iff rows).mp ht
    exact hk.ne (chainId_inj.mp (of_decide_eq_true hn).right)
  have hp : ((chainInput n).parentId.filter fun id => ((chain n).templates.find id).isNone) = none := by
    cases n
    case zero   => rfl
    case succ n => simp [chainInput, find_chain rows]
  rw [chain, Memory.createTemplate, show (chainInput n).scopeId = none from rfl,
    show (chainInput n).name = chainId n from rfl, if_neg hu, hp]
  rfl

end Rows

theorem rows_chain (n : Nat) : (chain n).templates.rows = (List.range n).map chainRow := by
  induction n
  case zero => rfl
  case succ n ih =>
    have hn : (chain n).templates.find (chainRow n).id = none :=
      (find_chain ih).trans (if_neg (lt_irrefl n))
    rw [chain_succ ih, List.range_succ, List.map_append, ← ih]
    exact Table.rows_put hn

theorem parent_chain (h : k + 1 < n) :
    Adapter.goMemory.templates.parent (chain n) (chainId (k + 1)) = some (chainId k) := by
  change ((chain n).templates.find (chainId (k + 1))).bind _ = _
  rw [find_chain (rows_chain n), if_pos h]
  rfl

theorem parent_root (h : 0 < n) : Adapter.goMemory.templates.parent (chain n) (chainId 0) = none := by
  change ((chain n).templates.find (chainId 0)).bind _ = _
  rw [find_chain (rows_chain n), if_pos h]
  rfl

theorem ancestor_chain (h : k < n) {j : Nat} (hj : j ≤ k) :
    ancestor (Adapter.goMemory.templates.parent (chain n)) j (chainId k) = some (chainId (k - j)) := by
  induction j generalizing k
  case zero => rfl
  case succ j ih =>
    obtain ⟨k, rfl⟩ : ∃ k', k = k' + 1 := ⟨k - 1, by omega⟩
    rw [ancestor, parent_chain h, Option.bind_some, ih (by omega) (by omega), Nat.add_sub_add_right]

theorem fresh_chain (n : Nat) :
    Adapter.goMemory.templates.Fresh (chainId n) (.create (chainInput n)) (chain n) where
  find := (find_chain (rows_chain n)).trans (if_neg (lt_irrefl n))
  parent id h := by
    obtain ⟨t, ht, hp⟩ := Option.bind_eq_some_iff.mp h
    obtain ⟨k, hk, rfl⟩ := (mem_chain_iff (rows_chain n)).mp (Rows.mem_of_find ht)
    cases k
    case zero   => contradiction
    case succ k => exact absurd (chainId_inj.mp (Option.some.inj hp)) (by omega)
  input input h hp := by
    cases h
    cases n
    case zero   => contradiction
    case succ n => exact absurd (chainId_inj.mp (Option.some.inj hp)) (by omega)

theorem reachable_chain {meets : Memory.State → TemplateOp → Prop} (creates : ∀ s input, meets s (.create input))
    (n : Nat) : Adapter.goMemory.templates.Reachable meets (chain n) := by
  induction n
  case zero   => exact .empty fun _ => rfl
  case succ n ih => exact ih.step "" (chainId n) (.create (chainInput n)) trivial (fresh_chain n) (creates _ _)

theorem ancestor_beyond (h : k < n) (j : Nat) :
    ancestor (Adapter.goMemory.templates.parent (chain n)) (k + 1 + j) (chainId k) = none := by
  rw [ancestor_add, ancestor_succ', ancestor_chain h le_rfl, Nat.sub_self, Option.bind_some,
    parent_root (by omega), Option.bind_none]

-- The first template of a chain is not moved below the last one.
theorem chain_acyclic : Acyclic (Adapter.goMemory.templates.parent (chain 3)) ∧
    ∃ e, Adapter.goMemory.templates.exec "" "" (.update (chainId 0) { parentId := some (some (chainId 2)) })
      trivial (chain 3) = (.error e, chain 3) := by
  have closes := not_acyclic_update (ancestor_chain (show 2 < 3 by decide) le_rfl)
  obtain ⟨acyclic, closing⟩ := templates_acyclic .goMemory (reachable_chain (fun _ _ => trivial) 3)
  refine ⟨acyclic, closing _ _ _ _ _ ?_ ⟨_, rfl, closes⟩⟩
  intro p hp m hm
  obtain ⟨j, rfl⟩ : ∃ j, m = 2 + 1 + j := ⟨m - 3, by omega⟩
  cases hp
  rw [ancestor_beyond (by decide)]
  nofun

def closing : LicenseTemplatePatch := {
  parentId := some (some (chainId 64)) }

-- The walk from a template that is 64 hops below the first one does not come to it.
theorem checkParent_chain (h : 64 < n) :
    Memory.checkParent Go.memory (chainId 0) closing (chain n) = .ok () := by
  have hw : walkParentChain ((chain n).templates.find ·) (chainId 64) (chainId 0) = none := by
    refine walk_eq_none_iff.mpr fun k hk he => ?_
    have ha := (ancestor_chain h hk.le).symm.trans he
    exact absurd (chainId_inj.mp (Option.some.inj ha)) (by omega)
  have hf : (chain n).templates.find (chainId 64) = some (chainRow 64) :=
    (find_chain (rows_chain n)).trans (if_pos h)
  simp only [Memory.checkParent, closing, hf, Option.isNone_some, Bool.false_eq_true, if_false, hw]

theorem parent_closed (h : 64 < n) : Adapter.goMemory.templates.parent
      (Memory.updateTemplate Go.memory "" (chainId 0) closing (chain n)).2 =
    Function.update (Adapter.goMemory.templates.parent (chain n)) (chainId 0) (some (chainId 64)) := by
  have hf : (chain n).templates.find (chainId 0) = some (chainRow 0) :=
    (find_chain (rows_chain n)).trans (if_pos (by omega))
  rw [Memory.updateTemplate, hf]
  simp only [checkParent_chain h]
  exact parentOf_replace hf

theorem exists_cycle (h : 64 < n) : ∃ s, Adapter.goMemory.templates.Reachable (fun _ _ => True) s ∧
    ¬Acyclic (Adapter.goMemory.templates.parent s) := by
  have fresh : Adapter.goMemory.templates.Fresh (chainId n) (.update (chainId 0) closing) (chain n) :=
    { fresh_chain n with input := nofun }
  have created : Adapter.goMemory.templates.Reachable (fun _ _ => True) (chain n) :=
    reachable_chain (fun _ _ => trivial) n
  refine ⟨_, created.step "" (chainId n) (.update (chainId 0) closing) trivial fresh trivial, ?_⟩
  intro acyclic
  refine not_acyclic_update (ancestor_chain h le_rfl) ?_
  exact parent_closed h ▸ acyclic

-- After 65 templates were created, each below the one before, the first one is moved under the last.
theorem not_templates_acyclic :
    ¬∀ (adapter : Adapter) (s : adapter.State),
      adapter.templates.Reachable (fun _ _ => True) s → Acyclic (adapter.templates.parent s) := by
  intro h
  obtain ⟨s, reachable, cycle⟩ := exists_cycle (Nat.lt_succ_self 64)
  exact cycle (h .goMemory s reachable)

end Chain

end Licensing
