import Licensing.Library.Machine
import Licensing.Library.Prog
import Licensing.Model.Templates

-- Updates of templates in the SQL adapters of the Go port, as the admin handler asks for them. Every
-- statement commits by itself, and the statements of different updates come in any order.

namespace Licensing

namespace Reparent

open Forest Machine

inductive Statement
  | selectParentId (id : String)
  | update (id : String) (patch : LicenseTemplatePatch)
  | selectTemplate (id : String)

@[reducible]
def Statement.Ans : Statement → Type
  | selectParentId _              => Except Error (Option (Option String))
  | update _ _ | selectTemplate _ => Except Error (Option LicenseTemplate)

abbrev Sql := Prog Statement Statement.Ans Error

-- At most `hops` steps towards the root. The result is what was visited, if it comes to `forbidden`.
def walkFrom (forbidden : String) : Nat → List String → String → Sql (Option (List String))
  | 0,        _,       _      => return none
  | hops + 1, visited, cursor =>
    if cursor = forbidden then return some (visited ++ [cursor])
    else do
      match ← (.call (.selectParentId cursor) .ofExcept : Sql _) with
      | some (some parentId) => walkFrom forbidden hops (visited ++ [cursor]) parentId
      | _                    => return none

def checkParent (id : String) (patch : LicenseTemplatePatch) : Sql Unit :=
  match patch.parentId with
  | some (some parentId) => do
    match ← walkFrom id 64 [] parentId with
    | some _ => .throw (templateCycle id)
    | none   => return ()
  | _ => return ()

inductive SqlAdapter
  | postgres
  | sqlite

def rowOf (id : String) : Option LicenseTemplate → Sql LicenseTemplate
  | some row => return row
  | none     => .throw (newError .uniqueConstraintViolation ("pk: " ++ id))

-- SQLite reads the row again after the update.
def SqlAdapter.execUpdate (id : String) (patch : LicenseTemplatePatch) : SqlAdapter → Sql LicenseTemplate
  | postgres => do rowOf id (← (.call (.update id patch) .ofExcept : Sql _))
  | sqlite   => do
    let _ ← (.call (.update id patch) .ofExcept : Sql _)
    rowOf id (← (.call (.selectTemplate id) .ofExcept : Sql _))

def SqlAdapter.updateTemplate (adapter : SqlAdapter) (id : String) (patch : LicenseTemplatePatch) :
    Sql LicenseTemplate := do
  checkParent id patch
  adapter.execUpdate id patch

-- The call whose next statement is performed, and the clock. A statement may be refused, for a constraint
-- or for an identifier that is none.
structure Turn (Tid : Type) where
  call    : Tid
  now     : String := ""
  refused : Option Error := none

section Machine

variable {Tid : Type}

def Turn.answer {α : Type} (k : Turn Tid) (a : α) : Except Error α :=
  match k.refused with
  | some e => .error e
  | none   => .ok a

def exec (k : Turn Tid) : (o : Statement) → Table LicenseTemplate.id → o.Ans × Table LicenseTemplate.id
  | .selectParentId id, s => (k.answer ((s.find id).map (·.parentId)), s)
  | .selectTemplate id, s => (k.answer (s.find id), s)
  | .update id patch,   s =>
    match k.refused, s.find id with
    | some e, _        => (.error e, s)
    | none,   none     => (.ok none, s)
    | none,   some cur =>
      let next := patchedTemplate k.now patch cur
      (.ok (some next), s.replace next)

-- A call is reading from its first look at a parent to its write or its end.
structure Updates (Tid : Type) where
  templates : Table LicenseTemplate.id
  prog      : Tid → Sql LicenseTemplate
  reading   : Tid → Bool

def Updates.parent (u : Updates Tid) : String → Option String :=
  parentOf (u.templates.find ·)

def reads : Statement → Bool
  | .selectParentId _ => true
  | _                 => false

def ended : Sql LicenseTemplate → Bool
  | .call _ _ => false
  | _         => true

variable [DecidableEq Tid]

def step (u : Updates Tid) (k : Turn Tid) : Updates Tid :=
  match u.prog k.call with
  | .call o next =>
    let (a, s) := exec k o u.templates
    { templates := s
      prog      := Function.update u.prog k.call (next a)
      reading   := Function.update u.reading k.call (reads o && !ended (next a)) }
  | _ => u

def start (adapter : SqlAdapter) (s : Table LicenseTemplate.id) (calls : Tid → String × LicenseTemplatePatch) :
    Updates Tid where
  templates := s
  prog t    := adapter.updateTemplate (calls t).1 (calls t).2
  reading _ := false

-- The statement that comes next puts the template `id` under `p`.
def Moves (u : Updates Tid) (k : Turn Tid) (id p : String) : Prop :=
  ∃ patch next, u.prog k.call = .call (.update id patch) next ∧ patch.parentId = some (some p) ∧
    k.refused = none ∧ (u.templates.find id).isSome

-- At the time of its move, a template is not above its new parent.
def StillApart (u : Updates Tid) (k : Turn Tid) : Prop :=
  ∀ id p, Moves u k id p → ∀ n, ancestor u.parent n p ≠ some id

-- Nobody else is reading when a template is moved, and the walk was not cut short.
structure Undisturbed (u : Updates Tid) (k : Turn Tid) : Prop where
  alone   : ∀ id p, Moves u k id p → ∀ t, t ≠ k.call → u.reading t = false
  shallow : ∀ id p, Moves u k id p → ∀ n, 64 ≤ n → ancestor u.parent n p ≠ some id

end Machine

section Program

variable {adapter : SqlAdapter} {parent parent' : String → Option String} {id cursor p : String}
  {patch : LicenseTemplatePatch} {hops k : Nat} {visited : List String} {prog : Sql LicenseTemplate}

-- The statements after which the hierarchy is as it was.
def IsQuiet : Statement → Prop
  | .update _ _ => False
  | _           => True

-- The rest of an update whose walk has come to the cursor.
def resume (adapter : SqlAdapter) (id : String) (patch : LicenseTemplatePatch) (hops : Nat) (visited : List String)
    (cursor : String) : Sql LicenseTemplate := do
  match ← walkFrom id hops visited cursor with
  | some _ => .throw (templateCycle id)
  | none   => adapter.execUpdate id patch

theorem resume_zero : resume adapter id patch 0 visited cursor = adapter.execUpdate id patch := rfl

theorem resume_self : resume adapter id patch (hops + 1) visited id = .throw (templateCycle id) := by
  simp [resume, walkFrom]

theorem resume_succ (h : cursor ≠ id) : ∃ next, resume adapter id patch (hops + 1) visited cursor =
    .call (.selectParentId cursor) next ∧ (∀ e, next (.error e) = .throw e) ∧
      (∀ p, next (.ok (some (some p))) = resume adapter id patch hops (visited ++ [cursor]) p) ∧
      next (.ok (some none)) = adapter.execUpdate id patch ∧ next (.ok none) = adapter.execUpdate id patch := by
  simp only [resume, walkFrom, h, if_false, Prog.call_bind]
  exact ⟨_, rfl, fun _ => rfl, fun _ => rfl, rfl, rfl⟩

theorem updateTemplate_eq : adapter.updateTemplate id patch =
    match patch.parentId with
    | some (some p) => resume adapter id patch 64 [] p
    | _             => adapter.execUpdate id patch := by
  unfold SqlAdapter.updateTemplate checkParent
  split
  case h_1 =>
    simp only [resume, LawfulMonad.bind_assoc]
    congr 1
    funext chain
    cases chain <;> rfl
  case h_2 => rfl

theorem execUpdate_eq : ∃ next, adapter.execUpdate id patch = .call (.update id patch) next ∧
    ∀ a, (next a).Calls IsQuiet := by
  cases adapter
  case postgres =>
    refine ⟨_, rfl, fun a => ?_⟩
    rcases a with _ | _ | _ <;> trivial
  case sqlite =>
    refine ⟨_, rfl, fun a => ?_⟩
    cases a
    case error => trivial
    case ok    => exact ⟨trivial, fun a => by rcases a with _ | _ | _ <;> trivial⟩

-- What a call still does, and what its walk has told it. The template is not among those that the walk
-- has passed, and these are the ones above the new parent as far as there are any.
inductive Sound (parent : String → Option String) : Sql LicenseTemplate → Prop
  | quiet {prog : Sql LicenseTemplate} (quiet : prog.Calls IsQuiet) : Sound parent prog
  | writes {adapter : SqlAdapter} {id : String} {patch : LicenseTemplatePatch}
      (walked : ∀ p, patch.parentId = some (some p) → ∀ j < 64, ancestor parent j p ≠ some id) :
    Sound parent (adapter.execUpdate id patch)
  | walks {adapter : SqlAdapter} {id : String} {patch : LicenseTemplatePatch} {hops k : Nat} {visited : List String}
      {cursor p : String} (parentId : patch.parentId = some (some p)) (length : hops + k = 64)
      (passed : ∀ j < k, ancestor parent j p ≠ some id) (here : ∀ a, ancestor parent k p = some a → a = cursor) :
    Sound parent (resume adapter id patch hops visited cursor)

theorem Sound.mono (s : Sound parent prog) (h : ∀ a b, parent' a = some b → parent a = some b) :
    Sound parent' prog := by
  cases s
  case quiet q       => exact .quiet q
  case writes walked => exact .writes fun p hp j hj ha => walked p hp j hj (ancestor_mono h ha)
  case walks parentId length passed here =>
    exact .walks parentId length (fun j hj ha => passed j hj (ancestor_mono h ha)) fun a ha =>
      here a (ancestor_mono h ha)

theorem sound_updateTemplate : Sound parent (adapter.updateTemplate id patch) := by
  rw [updateTemplate_eq]
  split
  case h_1 p hp =>
    apply Sound.walks (k := 0) hp rfl
    case passed => simp
    case here   => simp [ancestor]
  case h_2 hp => exact .writes fun p h => absurd h (hp p)

theorem Sound.ends {prog : Sql LicenseTemplate} (h : ended prog) : Sound parent prog := by
  cases prog
  case call => simp [ended] at h
  all_goals exact .quiet trivial

section Walk

variable (passed : ∀ j < k, ancestor parent j p ≠ some id) (here : ∀ a, ancestor parent k p = some a → a = cursor)
  (hne : cursor ≠ id)

include passed here hne

theorem passed_succ : ∀ j < k + 1, ancestor parent j p ≠ some id := by
  intro j hj ha
  cases Nat.lt_succ_iff_lt_or_eq.mp hj
  case inl hj => exact passed j hj ha
  case inr hj => exact hne (here id (hj ▸ ha)).symm

-- Above a root there is nothing.
theorem passed_root (root : parent cursor = none) (j : Nat) : ancestor parent j p ≠ some id := by
  by_cases hj : j < k + 1
  case pos => exact passed_succ passed here hne j hj
  case neg =>
    obtain ⟨m, rfl⟩ := Nat.exists_eq_add_of_le (Nat.le_of_not_lt hj)
    rw [ancestor_add]
    intro ha
    obtain ⟨b, hb, _⟩ := Option.bind_eq_some_iff.mp ha
    rw [ancestor_succ'] at hb
    obtain ⟨c, hc, hb⟩ := Option.bind_eq_some_iff.mp hb
    rw [here c hc, root] at hb
    cases hb

end Walk

-- What a walk reads takes it one step further.
theorem Sound.select {next} (s : Sound parent (.call (.selectParentId cursor) next))
    (a : Statement.Ans (.selectParentId cursor))
    (ha : ∀ x, a = .ok x → x.bind (fun p => p) = parent cursor) : Sound parent (next a) := by
  generalize hp : (Prog.call _ next : Sql LicenseTemplate) = prog at s
  cases s
  case quiet q =>
    subst hp
    exact .quiet (q.right a)
  case writes adapter id patch walked =>
    obtain ⟨next', he, _⟩ := execUpdate_eq
    cases hp.trans he
  case walks adapter id patch hops k visited cursor' p parentId length passed here =>
    have writes : (hp : patch.parentId = some (some p)) → (∀ j < 64, ancestor parent j p ≠ some id) →
        Sound parent (adapter.execUpdate id patch) := fun hp h => .writes fun p' hp' => by
      cases hp.symm.trans hp'
      exact h
    cases hops
    case zero =>
      obtain ⟨next', he, _⟩ := execUpdate_eq
      rw [resume_zero] at hp
      cases hp.trans he
    case succ hops =>
      by_cases hne : cursor' = id
      case pos =>
        subst hne
        rw [resume_self] at hp
        cases hp
      case neg =>
        obtain ⟨next', he, failed, up, root, missing⟩ := resume_succ hne
        cases hp.trans he
        have rooted : parent cursor = none → Sound parent (adapter.execUpdate id patch) := fun hr =>
          writes parentId fun j _ => passed_root passed here hne hr j
        rcases a with e | _ | _ | q
        case error       => exact failed e ▸ .quiet trivial
        case ok.none     => exact missing ▸ rooted (ha _ rfl).symm
        case ok.some.none => exact root ▸ rooted (ha _ rfl).symm
        case ok.some.some =>
          rw [up]
          refine .walks (k := k + 1) parentId (by omega) (passed_succ passed here hne) fun a h => ?_
          rw [ancestor_succ'] at h
          obtain ⟨c, hc, h⟩ := Option.bind_eq_some_iff.mp h
          rw [here c hc, ← ha _ rfl] at h
          exact (Option.some.inj h).symm

-- Only the statements of a walk, and the one that writes, come before an update has nothing left to write.
theorem Sound.update {next} (s : Sound parent (.call (.update id patch) next)) :
    (∀ p, patch.parentId = some (some p) → ∀ j < 64, ancestor parent j p ≠ some id) ∧
      ∀ a, (next a).Calls IsQuiet := by
  generalize hp : (Prog.call _ next : Sql LicenseTemplate) = prog at s
  cases s
  case quiet q =>
    subst hp
    exact q.left.elim
  case writes adapter id' patch' walked =>
    obtain ⟨next', he, quiet⟩ := execUpdate_eq
    cases hp.trans he
    exact ⟨walked, quiet⟩
  case walks adapter id' patch' hops k visited cursor p parentId length passed here =>
    cases hops
    case zero =>
      obtain ⟨next', he, quiet⟩ := execUpdate_eq
      rw [resume_zero] at hp
      cases hp.trans he
      refine ⟨fun p' hp' => ?_, quiet⟩
      cases hp'.symm.trans parentId
      simpa [← length] using passed
    case succ hops =>
      by_cases hne : cursor = id'
      case pos =>
        rw [hne, resume_self] at hp
        cases hp
      case neg =>
        obtain ⟨next', he, _⟩ := resume_succ hne
        cases hp.trans he

theorem Sound.selectTemplate {next} (s : Sound parent (.call (.selectTemplate id) next))
    (a : Statement.Ans (.selectTemplate id)) : (next a).Calls IsQuiet := by
  generalize hp : (Prog.call _ next : Sql LicenseTemplate) = prog at s
  cases s
  case quiet q =>
    subst hp
    exact q.right a
  case writes =>
    obtain ⟨next', he, _⟩ := execUpdate_eq
    cases hp.trans he
  case walks adapter id' patch' hops k visited cursor p parentId length passed here =>
    cases hops
    case zero =>
      obtain ⟨next', he, quiet⟩ := execUpdate_eq
      rw [resume_zero] at hp
      cases hp.trans he
    case succ hops =>
      by_cases hne : cursor = id'
      case pos =>
        rw [hne, resume_self] at hp
        cases hp
      case neg =>
        obtain ⟨next', he, _⟩ := resume_succ hne
        cases hp.trans he

end Program

section Steps

variable {Tid : Type} {k : Turn Tid} {s : Table LicenseTemplate.id} {id : String} {patch : LicenseTemplatePatch}

theorem parent_written {q : Option String} (hp : patch.parentId = some q) (hr : k.refused = none)
    (hf : (s.find id).isSome) :
    parentOf ((exec k (.update id patch) s).2.find ·) = Function.update (parentOf (s.find ·)) id q := by
  obtain ⟨cur, hf⟩ := Option.isSome_iff_exists.mp hf
  have hid : cur.id = id := Table.key_of_find hf
  have hn : s.find (patchedTemplate k.now patch cur).id = some cur := hid.symm ▸ hf
  have he : (exec k (.update id patch) s).2 = s.replace (patchedTemplate k.now patch cur) := by
    simp only [exec, hr, hf]
  rw [he, parentOf_replace hn, patchedTemplate, hp, Option.getD_some]
  exact hid ▸ rfl

theorem parent_kept (h : patch.parentId = none ∨ k.refused ≠ none ∨ s.find id = none) :
    parentOf ((exec k (.update id patch) s).2.find ·) = parentOf (s.find ·) := by
  simp only [exec]
  split
  case h_1 => rfl
  case h_2 => rfl
  case h_3 cur hr hf =>
    have hp : patch.parentId = none := by simpa [hr, hf] using h
    have hid : cur.id = id := Table.key_of_find hf
    have hn : s.find (patchedTemplate k.now patch cur).id = some cur := hid.symm ▸ hf
    have hc : parentOf (s.find ·) cur.id = cur.parentId := by rw [parentOf, hid, hf, Option.bind_some]
    rw [parentOf_replace hn, patchedTemplate, hp, Option.getD_none]
    exact Function.update_eq_self_iff.mpr hc.symm

variable {u : Updates Tid} {p : String}

theorem Sound.next {o : Statement} {next} (h : Sound (parentOf (s.find ·)) (.call o next)) :
    Sound (parentOf ((exec k o s).2.find ·)) (next (exec k o s).1) ∧
      (reads o = false → (next (exec k o s).1).Calls IsQuiet) := by
  cases o
  case selectParentId c =>
    refine ⟨h.select _ fun x hx => ?_, by simp [reads]⟩
    have hx : x = (s.find c).map (·.parentId) := by
      simp only [exec, Turn.answer] at hx
      split at hx
      case h_1 => cases hx
      case h_2 => exact (Except.ok.inj hx).symm
    rw [hx, parentOf]
    cases s.find c <;> rfl
  case selectTemplate => exact ⟨.quiet (h.selectTemplate _), fun _ => h.selectTemplate _⟩
  case update         => exact ⟨.quiet (h.update.right _), fun _ => h.update.right _⟩

-- What holds of the calls as long as none of them is disturbed. A call that is not reading has read
-- nothing that could change.
structure Orderly (u : Updates Tid) : Prop where
  acyclic : Acyclic u.parent
  sound   : ∀ t, Sound u.parent (u.prog t)
  idle    : ∀ t, u.reading t = false → ∀ parent, Sound parent (u.prog t)

theorem orderly_start {adapter : SqlAdapter} {calls : Tid → String × LicenseTemplatePatch}
    (acyclic : Acyclic (parentOf (s.find ·))) : Orderly (start adapter s calls) where
  acyclic  := acyclic
  sound _  := sound_updateTemplate
  idle _ _ _ := sound_updateTemplate

theorem Undisturbed.stillApart (d : Undisturbed u k) (h : Orderly u) : StillApart u k := by
  intro id p m n
  by_cases hn : n < 64
  case neg => exact d.shallow id p m n (Nat.le_of_not_lt hn)
  case pos =>
    obtain ⟨patch, next, hp, hq, _⟩ := m
    have hs := h.sound k.call
    rw [hp] at hs
    exact hs.update.left p hq n hn

variable [DecidableEq Tid]

theorem step_call {o : Statement} {next} (h : u.prog k.call = .call o next) : step u k = {
    templates := (exec k o u.templates).2
    prog      := Function.update u.prog k.call (next (exec k o u.templates).1)
    reading   := Function.update u.reading k.call (reads o && !ended (next (exec k o u.templates).1)) } := by
  simp only [step, h]

theorem step_ended (h : ∀ o next, u.prog k.call ≠ .call o next) : step u k = u := by
  unfold step
  split
  case h_1 o next hp => exact absurd hp (h o next)
  case h_2 => rfl

theorem parent_of_moves (h : Moves u k id p) : (step u k).parent = Function.update u.parent id (some p) := by
  obtain ⟨patch, next, hp, hq, hr, hf⟩ := h
  rw [step_call hp]
  exact parent_written hq hr hf

-- A statement that moves no template adds nothing to the hierarchy.
theorem parent_of_not_moves (h : ∀ id p, ¬Moves u k id p) (a b : String) (hb : (step u k).parent a = some b) :
    u.parent a = some b := by
  cases hp : u.prog k.call
  case call o next =>
    rw [step_call hp] at hb
    cases o
    case selectParentId | selectTemplate => exact hb
    case update id patch =>
      by_cases hw : patch.parentId = none ∨ k.refused ≠ none ∨ u.templates.find id = none
      case pos => exact (congrFun (parent_kept hw) a).symm.trans hb
      case neg =>
        push Not at hw
        obtain ⟨hq, hr, hf⟩ := hw
        obtain ⟨q, hq⟩ := Option.ne_none_iff_exists'.mp hq
        have hf : (u.templates.find id).isSome := Option.isSome_iff_ne_none.mpr hf
        have hu := congrFun (parent_written hq hr hf) a
        cases q
        case some p => exact absurd ⟨patch, next, hp, hq, hr, hf⟩ (h id p)
        case none =>
          have hb := hu.symm.trans hb
          by_cases ha : a = id
          case pos => simp [ha] at hb
          case neg => rwa [Function.update_of_ne ha] at hb
  all_goals
    rw [step_ended (by simp [hp])] at hb
    exact hb

-- A statement keeps the hierarchy acyclic just when it moves no template below itself.
theorem step_acyclic_iff (acyclic : Acyclic u.parent) : Acyclic (step u k).parent ↔ StillApart u k := by
  by_cases h : ∃ id p, Moves u k id p
  case pos =>
    obtain ⟨id, p, m⟩ := h
    rw [parent_of_moves m, acyclic_update_iff acyclic]
    apply Iff.intro
    case mp =>
      intro ha id' p' m'
      obtain ⟨_, _, hp, hq, _⟩ := m
      obtain ⟨_, _, hp', hq', _⟩ := m'
      cases hp.symm.trans hp'
      cases hq.symm.trans hq'
      exact ha
    case mpr => exact fun ha => ha id p m
  case neg =>
    have h : ∀ id p, ¬Moves u k id p := fun id p m => h ⟨id, p, m⟩
    exact iff_of_true (acyclic.mono (parent_of_not_moves h)) fun id p m => absurd m (h id p)

theorem Orderly.step (h : Orderly u) (d : Undisturbed u k) : Orderly (step u k) := by
  have acyclic := (step_acyclic_iff h.acyclic).mpr (d.stillApart h)
  have others : ∀ t, t ≠ k.call → Sound (Reparent.step u k).parent (u.prog t) := by
    intro t ht
    by_cases hm : ∃ id p, Moves u k id p
    case pos =>
      obtain ⟨id, p, m⟩ := hm
      exact h.idle t (d.alone id p m t ht) _
    case neg => exact (h.sound t).mono (parent_of_not_moves fun id p m => hm ⟨id, p, m⟩)
  cases hp : u.prog k.call
  case call o next =>
    have hs := h.sound k.call
    rw [hp] at hs
    have hn := Sound.next (k := k) hs
    rw [step_call hp] at acyclic others ⊢
    constructor
    case acyclic => exact acyclic
    case sound =>
      intro t
      by_cases ht : t = k.call
      case pos =>
        subst ht
        simp only [Function.update_self]
        exact hn.left
      case neg => simpa [ht] using others t ht
    case idle =>
      intro t hr parent
      by_cases ht : t = k.call
      case pos =>
        subst ht
        simp only [Function.update_self, Bool.and_eq_false_imp, Bool.not_eq_false'] at hr ⊢
        cases ho : reads o
        case false => exact .quiet (hn.right ho)
        case true  => exact .ends (hr ho)
      case neg =>
        simp only [Function.update_of_ne ht] at hr ⊢
        exact h.idle t hr parent
  all_goals
    rw [step_ended (by simp [hp])]
    exact h

-- The hierarchy stays free of cycles just when no template is above its new parent at the time of the write. The walk
-- has made sure of that if nobody else was reading then and the walk came to its end.
theorem stays_acyclic_iff (adapter : SqlAdapter) (calls : Tid → String × LicenseTemplatePatch)
    (acyclic : Acyclic (parentOf (s.find ·))) (turns : List (Turn Tid)) :
    (Always Reparent.step (Acyclic ·.parent) (start adapter s calls) turns ↔
      Each Reparent.step StillApart (start adapter s calls) turns) ∧
    (Each Reparent.step Undisturbed (start adapter s calls) turns →
      Always Reparent.step (Acyclic ·.parent) (start adapter s calls) turns) := by
  apply And.intro
  case left => exact always_iff_each (fun u k h => step_acyclic_iff h) acyclic
  case right =>
    intro each
    have ordered := Each.always (fun u k h d => Orderly.step h d) (orderly_start acyclic) each
    exact ordered.mono fun _ h => h.acyclic

end Steps

-- Two templates, each moved under the other one after both walks.
def rootTemplate (id : String) : LicenseTemplate where
  id                  := id
  scopeId             := none
  parentId            := none
  name                := id
  maxUsages           := 1
  trialDurationSec    := 0
  trialCooldownSec    := none
  graceDurationSec    := 0
  forceOnlineAfterSec := none
  entitlements        := []
  meta_               := []
  createdAt           := ""
  updatedAt           := ""

def sampleTable : Table LicenseTemplate.id :=
  .ofList [rootTemplate "a", rootTemplate "b"]

def sampleCalls : Bool → String × LicenseTemplatePatch
  | true  => ("a", { parentId := some (some "b") })
  | false => ("b", { parentId := some (some "a") })

theorem acyclic_sampleTable : Acyclic (parentOf (sampleTable.find ·)) := by
  apply acyclic_of_no_parent
  intro id
  cases hf : sampleTable.find id
  case none => simp [parentOf, hf]
  case some t =>
    have ht := Rows.mem_of_find hf
    simp only [sampleTable, Table.ofList, List.mem_cons, List.not_mem_nil, or_false] at ht
    rcases ht with rfl | rfl
    all_goals simp [parentOf, hf, rootTemplate]

theorem not_stays_acyclic : ¬∀ (adapter : SqlAdapter) (calls : Bool → String × LicenseTemplatePatch)
    (s : Table LicenseTemplate.id) (turns : List (Turn Bool)), Acyclic (parentOf (s.find ·)) →
    Always step (Acyclic ·.parent) (start adapter s calls) turns := by
  intro h
  have always := h .sqlite sampleCalls sampleTable [⟨true, "", none⟩, ⟨false, "", none⟩, ⟨true, "", none⟩,
    ⟨false, "", none⟩] acyclic_sampleTable
  exact always.last 1 "a" (by decide)

theorem Undisturbed.of_not_moves {Tid : Type} {u : Updates Tid} {k : Turn Tid} (h : ∀ id p, ¬Moves u k id p) :
    Undisturbed u k where
  alone id p m   := (h id p m).elim
  shallow id p m := (h id p m).elim

-- The second update comes after the first one, and is refused for the cycle that it would close.
def afterwards : List (Turn Bool) :=
  [⟨true, "", none⟩, ⟨true, "", none⟩, ⟨false, "", none⟩, ⟨false, "", none⟩]

theorem stays_acyclic_alone :
    Each step StillApart (start .postgres sampleTable sampleCalls) afterwards ∧
      Always step (Acyclic ·.parent) (start .postgres sampleTable sampleCalls) afterwards := by
  obtain ⟨iff, enough⟩ := stays_acyclic_iff .postgres sampleCalls acyclic_sampleTable afterwards
  have always : Always step (Acyclic ·.parent) (start .postgres sampleTable sampleCalls) afterwards := by
    refine enough ⟨.of_not_moves ?_, ⟨?_, ?_⟩, .of_not_moves ?_, .of_not_moves ?_, trivial⟩
    case refine_2 =>
      intro _ _ _ t ht
      cases t
      case false => rfl
      case true  => contradiction
    case refine_3 =>
      intro id p m n hn
      obtain ⟨patch, next, hp, hq, _⟩ := m
      cases hp
      cases hq
      obtain ⟨n, rfl⟩ : ∃ m, n = m + 1 := ⟨n - 1, by omega⟩
      have root : (step (start .postgres sampleTable sampleCalls) ⟨true, "", none⟩).parent "b" = none := rfl
      simp [ancestor, root]
    all_goals
      intro id p m
      obtain ⟨patch, next, hp, _⟩ := m
      cases hp
  exact ⟨iff.mp always, always⟩

end Reparent

end Licensing
