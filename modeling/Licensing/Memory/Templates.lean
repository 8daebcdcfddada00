import Licensing.Memory.Adapter
import Licensing.Model.Templates

-- The templates of the adapters that keep the rows in memory.

namespace Licensing

namespace Memory

variable (port : Port)

def createTemplate (now freshId : String) (input : LicenseTemplateInput) (s : State) :
    Except Error LicenseTemplate × State :=
  if s.templates.rows.any fun t => t.scopeId = input.scopeId ∧ t.name = input.name then
    (.error (port.unique "scope_name" (input.scopeId.getD "null" ++ ":" ++ input.name)), s)
  else
    match input.parentId.filter fun id => (s.templates.find id).isNone with
    | some id => (.error (port.unique "parent_id" id), s)
    | none    =>
      let row := createdTemplate now freshId input
      (.ok row, { s with templates := s.templates.put row })

def checkParent (id : String) (patch : LicenseTemplatePatch) (s : State) : Except Error Unit :=
  match patch.parentId with
  | some (some parentId) =>
    if (s.templates.find parentId).isNone then .error (port.unique "parent_id" parentId)
    else
      match walkParentChain (s.templates.find ·) parentId id with
      | some _ => .error (templateCycle id)
      | none   => .ok ()
  | _ => .ok ()

def updateTemplate (now id : String) (patch : LicenseTemplatePatch) (s : State) :
    Except Error LicenseTemplate × State :=
  match s.templates.find id with
  | none     => (.error (port.unique "pk" id), s)
  | some cur =>
    match checkParent port id patch s with
    | .error e => (.error e, s)
    | .ok _    =>
      let next := patchedTemplate now patch cur
      (.ok next, { s with templates := s.templates.replace next })

def deleteTemplate (id : String) (s : State) : Except Error Unit × State :=
  if (s.templates.find id).isNone then
    (.error (newError .licenseNotFound ("template not found: " ++ id)), s)
  else if s.licenses.rows.any fun l => l.templateId = some id then
    (.error (port.unique "template_id" (id ++ " (referenced by license)")), s)
  else (.ok (), { s with templates := s.templates.erase id })

def Port.execTemplate (now freshId : String) : (o : TemplateOp) → State → Except Error o.Res × State
  | .create input,    s => createTemplate port now freshId input s
  | .update id patch, s => updateTemplate port now id patch s
  | .delete id,       s => deleteTemplate port id s

variable {port} {now freshId id : String} {input : LicenseTemplateInput}
  {patch : LicenseTemplatePatch} {s : State} {e : Error} {t : LicenseTemplate}

theorem createTemplate_error (h : (createTemplate port now freshId input s).1 = .error e) :
    (createTemplate port now freshId input s).2 = s := by
  revert h
  unfold createTemplate
  split
  case isTrue  => exact fun _ => rfl
  case isFalse =>
    split
    case h_1 => exact fun _ => rfl
    case h_2 =>
      intro h
      contradiction

theorem updateTemplate_error (h : (updateTemplate port now id patch s).1 = .error e) :
    (updateTemplate port now id patch s).2 = s := by
  revert h
  unfold updateTemplate
  split
  case h_1 => exact fun _ => rfl
  case h_2 =>
    split
    case h_1 => exact fun _ => rfl
    case h_2 =>
      intro h
      contradiction

theorem deleteTemplate_error (h : (deleteTemplate port id s).1 = .error e) :
    (deleteTemplate port id s).2 = s := by
  revert h
  unfold deleteTemplate
  split
  case isTrue  => exact fun _ => rfl
  case isFalse =>
    split
    case isTrue  => exact fun _ => rfl
    case isFalse =>
      intro h
      contradiction

theorem walk_of_checkParent (h : checkParent port id patch s = .ok ()) {p : String}
    (hp : patch.parentId = some (some p)) :
    Forest.walk (parentOf (s.templates.find ·)) id 64 p = none := by
  rw [checkParent, hp] at h
  simp only at h
  split at h
  case isTrue  => contradiction
  case isFalse =>
    split at h
    case h_1 => contradiction
    case h_2 walk => exact walk

theorem createTemplate_acts (h : (createTemplate port now freshId input s).1 = .ok t) :
    TemplateActs (parentOf (s.templates.find ·)) freshId (.create input)
      (parentOf ((createTemplate port now freshId input s).2.templates.find ·)) := by
  unfold createTemplate at h ⊢
  split at h
  case isTrue => contradiction
  case isFalse hu =>
    rw [if_neg hu]
    split at h
    case h_1 => contradiction
    case h_2 hp =>
      simp only [parentOf_put]
      exact .created

theorem updateTemplate_acts (h : (updateTemplate port now id patch s).1 = .ok t) :
    TemplateActs (parentOf (s.templates.find ·)) freshId (.update id patch)
      (parentOf ((updateTemplate port now id patch s).2.templates.find ·)) := by
  unfold updateTemplate at h ⊢
  cases hf : s.templates.find id with
  | none     => simp [hf] at h
  | some cur =>
    simp only [hf] at h ⊢
    cases hc : checkParent port id patch s with
    | error e => simp [hc] at h
    | ok _    =>
      have hid : cur.id = id := Table.key_of_find hf
      have hr : s.templates.find (patchedTemplate now patch cur).id = some cur := hid.symm ▸ hf
      simp only [parentOf_replace hr]
      refine hid ▸ .patched ?_ fun _ hp => hid.symm ▸ walk_of_checkParent hc hp
      rw [parentOf, hid, hf, Option.bind_some]

theorem deleteTemplate_acts (h : (deleteTemplate port id s).1 = .ok ()) :
    TemplateActs (parentOf (s.templates.find ·)) freshId (.delete id)
      (parentOf ((deleteTemplate port id s).2.templates.find ·)) := by
  unfold deleteTemplate at h ⊢
  split at h
  case isTrue => contradiction
  case isFalse hf =>
    rw [if_neg hf]
    split at h
    case isTrue => contradiction
    case isFalse hl =>
      simp only [if_neg hl, parentOf_erase]
      exact .deleted

-- The store of a port, with the operations that it has.
def Port.templates (port : Port) (offers : TemplateOp → Prop) : TemplateStore State where
  offers    := offers
  find id s := s.templates.find id
  exec now freshId o _ := port.execTemplate now freshId o
  unchanged {_ _ o _ _ _} h :=
    match o with
    | .create _   => createTemplate_error h
    | .update _ _ => updateTemplate_error h
    | .delete _   => deleteTemplate_error h
  acts {_ _ o _ _ _} h :=
    match o with
    | .create _   => createTemplate_acts h
    | .update _ _ => updateTemplate_acts h
    | .delete _   => deleteTemplate_acts h

end Memory

end Licensing
