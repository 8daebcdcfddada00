import Licensing.Memory.Requests
import Licensing.Model.Timestamps

-- The seats and the dates of the licenses, and what the requests do to them.

namespace Licensing

open Memory Prog

namespace Go

-- The seats and the dates of a license. A date that is set has an instant, if it can be read.
structure Terms where
  maxUsages  : Int
  expiresAt  : Option (Option Int)
  graceUntil : Option (Option Int)

def InOrder : Option (Option Int) → Option (Option Int) → Prop
  | some (some expiresAt), some (some graceUntil) => expiresAt < graceUntil
  | some _, some _ => False
  | _, _           => True

instance : (expiresAt graceUntil : Option (Option Int)) → Decidable (InOrder expiresAt graceUntil)
  | some (some e), some (some g) => inferInstanceAs (Decidable (e < g))
  | some none,     some _        => .isFalse id
  | some (some _), some none     => .isFalse id
  | some none,     none          => .isTrue trivial
  | some (some _), none          => .isTrue trivial
  | none,          _             => .isTrue trivial

-- At least one seat, and a grace that ends strictly later than the license.
structure Terms.Sound (t : Terms) : Prop where
  seats : 1 ≤ t.maxUsages
  dates : InOrder t.expiresAt t.graceUntil

def termsOf (l : License) : Terms where
  maxUsages  := l.maxUsages
  expiresAt  := moment l.expiresAt
  graceUntil := moment l.graceUntil

def Constrained (s : Store) : Prop :=
  ∀ l ∈ s.licenses.rows, (termsOf l).Sound

-- The instants that a license from a template is to have.
def templateTerms (input : CreateLicenseFromTemplateInput) (t : LicenseTemplate) (now : String) : Terms :=
  let expiresAt := match input.expiresAt with
    | some expiresAt => moment expiresAt
    | none           =>
      if t.trialDurationSec ≤ 0 then none else (parseTime now).map (laterBy t.trialDurationSec)
  { maxUsages  := input.maxUsages.getD t.maxUsages
    expiresAt  := expiresAt
    graceUntil := match input.graceUntil with
      | some graceUntil => moment graceUntil
      | none            =>
        if t.graceDurationSec ≤ 0 then none else expiresAt.bind (·.map (laterBy t.graceDurationSec)) }

theorem termsOf_fromTemplate {input : CreateLicenseFromTemplateInput} {t : LicenseTemplate} {now key : String}
    {ω : Env} : termsOf (createdLicense ω ((fromTemplate input t now).row key)) = templateTerms input t now := by
  have hexp : moment (fromTemplate input t now).expiresAt = (templateTerms input t now).expiresAt := by
    simp only [fromTemplate, templateTerms]
    match input.expiresAt with
    | some e => rfl
    | none   =>
      simp only [Option.getD_none, computeExpiresAt]
      split
      case isTrue  => rfl
      case isFalse => exact moment_addSeconds _ _
  have hgrace : moment (fromTemplate input t now).graceUntil = (templateTerms input t now).graceUntil := by
    have hg : (templateTerms input t now).graceUntil = match input.graceUntil with
      | some graceUntil => moment graceUntil
      | none            => if t.graceDurationSec ≤ 0 then none else
        (moment (fromTemplate input t now).expiresAt).bind (·.map (laterBy t.graceDurationSec)) := by
      rw [hexp]
      rfl
    rw [hg]
    simp only [fromTemplate]
    match input.graceUntil with
    | some g => rfl
    | none   =>
      simp only [Option.getD_none, computeGraceUntil]
      split
      case isTrue  => rfl
      case isFalse =>
        generalize input.expiresAt.getD (computeExpiresAt now t.trialDurationSec) = e
        cases e
        case none   => rfl
        case some e => exact moment_addSeconds _ _
  have hterms : ∀ a b : Terms, a.maxUsages = b.maxUsages → a.expiresAt = b.expiresAt →
      a.graceUntil = b.graceUntil → a = b := by
    intro a b h₁ h₂ h₃
    cases a
    cases b
    simp_all
  exact hterms _ _ rfl hexp hgrace

section Keeps

variable {s s' : Store} {l : License}

-- No license has other terms than one had before.
def KeepsTerms (s s' : Store) : Prop :=
  ∀ l' ∈ s'.licenses.rows, ∃ l ∈ s.licenses.rows, termsOf l = termsOf l'

theorem KeepsTerms.of_eq (h : s'.licenses = s.licenses) : KeepsTerms s s' :=
  fun l hl => ⟨l, h ▸ hl, rfl⟩

theorem KeepsTerms.constrained (k : KeepsTerms s s') (h : Constrained s) : Constrained s' := by
  intro l' hl'
  have ⟨l, hl, ht⟩ := k l' hl'
  exact ht ▸ h l hl

theorem KeepsTerms.replaced {next : License} (hl : s.licenses.find l.id = some l)
    (hs : s'.licenses = s.licenses.replace next) (ht : termsOf next = termsOf l) : KeepsTerms s s' := by
  intro l' hl'
  rw [hs] at hl'
  cases Table.mem_of_mem_replace hl'
  case inl he => exact ⟨l, Rows.mem_of_find hl, by rw [he, ht]⟩
  case inr hm => exact ⟨l', hm, rfl⟩

-- The terms that an operation of the lifecycle writes.
def lifecycleTerms : LifecycleOp → License → Terms
  | .renew opts, l => {
    maxUsages  := l.maxUsages
    expiresAt  := moment opts.expiresAt
    graceUntil := moment (opts.graceUntil.getD l.graceUntil) }
  | _, l => termsOf l

theorem decision_terms {op : LifecycleOp} {now : String} {c : LicenseChange}
    (h : op.decision l now = .ok (some c)) (t : String) :
    termsOf (patchedLicense t c.patch l) = lifecycleTerms op l := by
  cases op
  case tick opts =>
    simp only [LifecycleOp.decision] at h
    split at h
    case isTrue  => cases h
    case isFalse =>
      split at h
      all_goals cases h <;> rfl
  all_goals
    simp only [LifecycleOp.decision] at h
    split at h
    all_goals cases h <;> rfl

theorem Outcome.writes {may : Env → Store → Prop} {op : LifecycleOp} {r : Except Error License}
    (h : Outcome may op l s r s') (hl : s.licenses.find l.id = some l) : s' = s ∨
    ∃ next, s.licenses.Writes next s'.licenses ∧ termsOf next = lifecycleTerms op l := by
  cases h
  case refused => exact .inl rfl
  case idle    => exact .inl rfl
  case changed now c next ω ω' decision patched finds =>
    subst patched
    exact .inr ⟨_, Table.writes_replace hl, decision_terms decision _⟩

theorem KeepsTerms.of_outcome {may : Env → Store → Prop} {op : LifecycleOp} {r : Except Error License}
    (h : Outcome may op l s r s') (hl : s.licenses.find l.id = some l)
    (ht : lifecycleTerms op l = termsOf l) : KeepsTerms s s' := by
  match h.writes hl with
  | .inl hs             => exact .of_eq (congrArg (·.licenses) hs)
  | .inr ⟨next, hw, hn⟩ =>
    intro l' hl'
    cases (hw l').mp hl'
    case inl he => exact ⟨l, Rows.mem_of_find hl, by rw [he, hn, ht]⟩
    case inr hm => exact ⟨l', hm.left, rfl⟩

theorem licenses_of_isAside {ω : Env} {o : ServiceOp} (ho : IsAside o) (s : Store) :
    (execService ω o s).2.licenses = s.licenses := by
  cases o
  case storage o =>
    have h := execStorage_acts ω s o
    simp only [execService]
    generalize execStorage ω o s = x at h
    obtain ⟨a, s'⟩ := x
    cases h
    case createLicense | updateLicense | deleteLicense => exact ho.elim
    all_goals rfl
  all_goals rfl

theorem Registered.keepsTerms {may : Env → Store → Prop} (h : Registered may s l s')
    (hl : s.licenses.find l.id = some l) : KeepsTerms s s' := by
  match h with
  | .seat _ _              => exact .of_eq rfl
  | .activated _ _ outcome => exact (KeepsTerms.of_outcome outcome hl rfl :)

theorem Rotated.keepsTerms {may : Env → Store → Prop} (h : Rotated may s l s')
    (hl : s.licenses.find l.id = some l) : KeepsTerms s s' := by
  cases h
  case rotated key now opts revoked ω ω' s₁ status seats finds =>
    have ⟨us, hs⟩ := seats
    subst hs
    exact .replaced hl rfl rfl

theorem SeatRevoked.keepsTerms {may : Env → Store → Prop} (h : SeatRevoked may s s') : KeepsTerms s s' := by
  cases h
  case revoked => exact .of_eq rfl

-- The requests that ask for no terms.
def Silent : AdminRequest → Prop
  | .createLicense _ _ | .createLicenseFromTemplate _ _ | .updateLicense _ _ | .lifecycle (.renew _) _ => False
  | _ => True

theorem serve_lifecycle (op : LifecycleOp) (ω : Nat → Env) (hl : s.licenses.find l.id = some l) :
    ∃ r, Outcome (fun _ _ => True) op l s r (serve ω (.lifecycle op l.id) s).2 ∧
      (serve ω (.lifecycle op l.id) s).1 = r.map fun _ => () := by
  have hl' : (lifecycle l.id op.fn).Wp execOp (fun _ _ => True) _ s := lifecycle_wp op l.id
  have hw := service_wp hl'
  have hs : serve ω (.lifecycle op l.id) s =
      (((transactService ω (lifecycle l.id op.fn).service s).1.map fun _ => ()),
        (transactService ω (lifecycle l.id op.fn).service s).2) := rfl
  match hw.transact (Finds.all (fun _ _ => trivial) _ ω s) with
  | .inl ⟨a, s', he, h⟩ =>
    simp only [hl] at h
    exact ⟨.ok a, by rw [hs, transactService, he]; exact h, by rw [hs, transactService, he]⟩
  | .inr ⟨e, s', he, h⟩ =>
    simp only [hl] at h
    cases h
    case refused decision =>
      exact ⟨.error e, by rw [hs, transactService, he]; exact .refused decision, by rw [hs, transactService, he]⟩

theorem serve_lifecycle_none {op : LifecycleOp} {ω : Nat → Env} {id : String} (hl : s.licenses.find id = none) :
    (serve ω (.lifecycle op id) s).2 = s := by
  have finds : AdminFinds (fun _ _ => True) s (.lifecycle op id, ω) := Finds.all (fun _ _ => trivial) _ _ _
  match serve_wp finds (service_wp (lifecycle_wp op id)) nofun with
  | .inr hs     => exact hs
  | .inl ⟨_, h⟩ => simp [hl] at h

theorem Silent.keepsTerms {r : AdminRequest} (h : Silent r) (ω : Nat → Env) (s : Store) :
    KeepsTerms s (serve ω r s).2 := by
  have finds : AdminFinds (fun _ _ => True) s (r, ω) := Finds.all (fun _ _ => trivial) _ _ _
  have same : ∀ {s' : Store}, s' = s → KeepsTerms s s' := fun h => .of_eq (congrArg (·.licenses) h)
  cases r
  case createLicense             => exact h.elim
  case createLicenseFromTemplate => exact h.elim
  case updateLicense             => exact h.elim
  case lifecycle op id =>
    match hl : s.licenses.find id with
    | none   => exact same (serve_lifecycle_none hl)
    | some l =>
      have hid : l.id = id := Table.key_of_find hl
      have ⟨_, ho, _⟩ := serve_lifecycle op ω (hid ▸ hl)
      rw [hid] at ho
      refine .of_outcome ho (hid ▸ hl) ?_
      cases op
      case renew => exact h.elim
      all_goals rfl
  case registerUsage fuel input actor =>
    match serve_wp finds (service_wp (registerUsage_wp fuel input actor)) nofun with
    | .inr hs     => exact same hs
    | .inl ⟨_, h⟩ =>
      match h.resolve_left nofun with
      | .inl hs          => exact same hs
      | .inr ⟨l, hl, hr⟩ =>
        have hid : l.id = input.licenseId := Table.key_of_find hl
        exact hr.keepsTerms (hid ▸ hl)
  case revokeUsage usageId opts =>
    match serve_wp finds (service_wp (revokeUsage_wp usageId opts)) nofun with
    | .inr hs     => exact same hs
    | .inl ⟨_, h⟩ =>
      match h.resolve_left nofun with
      | .inl hs => exact same hs
      | .inr hr => exact hr.keepsTerms
  case rotateLicenseKey fuel id opts =>
    match serve_wp finds (service_wp (rotateLicenseKey_wp fuel id opts)) nofun with
    | .inr hs     => exact same hs
    | .inl ⟨_, h⟩ =>
      have ⟨l, hl, hr⟩ := h.resolve_left nofun
      have hid : l.id = id := Table.key_of_find hl
      exact hr.keepsTerms (hid ▸ hl)
  case deleteLicense id =>
    match serve_deleteLicense ω id s with
    | .inl ⟨_, hs⟩ => exact same hs
    | .inr ⟨_, hs⟩ =>
      rw [hs]
      exact fun l hl => ⟨l, Table.mem_of_mem_erase hl, rfl⟩
  case aside a =>
    rw [serve_of_direct (r := .aside a) trivial]
    have step : ∀ (ω : Env) (o : ServiceOp) (s' : Store), IsAside o → True → s'.licenses = s.licenses →
        (execService ω o s').2.licenses = s.licenses :=
      fun ω o s' ho _ hs => (licenses_of_isAside ho s').trans hs
    exact .of_eq ((Wp.keeps step a.aside rfl).eval finds)

end Keeps

end Go

end Licensing
