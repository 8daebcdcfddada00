import Licensing.Memory.Transitions

-- What a license goes through from its creation on.

namespace Licensing

open Machine

-- The state diagram, and what the functions add to it: renewals, and the expiry of an active license.
def LicenseStatus.Edge : LicenseStatus → LicenseStatus → Prop
  | revoked,   _         => False
  | pending,   active    => True
  | active,    suspended => True
  | suspended, active    => True
  | active,    grace     => True
  | grace,     expired   => True
  | active,    expired   => True
  | grace,     active    => True
  | expired,   active    => True
  | _,         revoked   => True
  | _,         _         => False

-- A license that has been activated has the time of it.
def License.Stamped (l : License) : Prop :=
  l.status ≠ .pending → l.status ≠ .revoked → l.activatedAt.isSome

namespace LifecycleOp

def IsRenewal : LifecycleOp → Prop
  | renew _ => True
  | _       => False

-- Only an active license is suspended, and a renewal does not take the place of the activation.
def Guarded : LifecycleOp → License → Prop
  | suspend _, l => l.status ≠ .pending ∧ l.status ≠ .grace ∧ l.status ≠ .expired
  | renew _,   l => l.status = .pending → l.activatedAt.isSome
  | _,         _ => True

end LifecycleOp

-- One step in the life of a license.
structure License.Steps (renewal : Prop) (l l' : License) : Prop where
  edge    : l'.status = l.status ∨ l.status.Edge l'.status
  stamped : l'.Stamped
  kept    : l.status ≠ .pending → l'.activatedAt = l.activatedAt
  expired : l.status = .expired → l'.status = .expired ∨ l'.status = .revoked ∨ renewal

namespace License.Steps

variable {renewal renewal' : Prop} {l l' : License}

theorem same (hs : l.Stamped) (status : l'.status = l.status) (activatedAt : l'.activatedAt = l.activatedAt) :
    l.Steps renewal l' where
  edge    := .inl status
  stamped := by simpa [Stamped, status, activatedAt] using hs
  kept    := fun _ => activatedAt
  expired := fun he => .inl (status.trans he)

theorem mono (h : renewal → renewal') (hs : l.Steps renewal l') : l.Steps renewal' l' where
  edge    := hs.edge
  stamped := hs.stamped
  kept    := hs.kept
  expired := fun he => (hs.expired he).imp_right (Or.imp_right h)

theorem not_pending (hs : l.Steps renewal l') (h : l.status ≠ .pending) : l'.status ≠ .pending := by
  cases hs.edge
  case inl he => exact he ▸ h
  case inr he =>
    intro hp
    cases hl : l.status
    all_goals simp [hl, hp, LicenseStatus.Edge] at he

theorem revoked (hs : l.Steps renewal l') (h : l.status = .revoked) : l'.status = .revoked := by
  cases hs.edge
  case inl he => exact he.trans h
  case inr he => simp [h, LicenseStatus.Edge] at he

end License.Steps

namespace LifecycleOp

open Memory

variable {op : LifecycleOp} {l : License} {now clock : String} {c : LicenseChange}

theorem effectiveStatus_cases (l : License) (now : String) : effectiveStatus l now = l.status ∨
    (l.status = .active ∨ l.status = .grace) ∧
      (effectiveStatus l now = .grace ∨ effectiveStatus l now = .expired) := by
  cases hs : l.status
  case active | grace =>
    simp only [effectiveStatus, hs]
    split
    case h_1 => simp
    case h_2 =>
      split
      case isTrue => simp
      case isFalse =>
        split
        case h_1 => split <;> simp
        case h_2 => simp
  all_goals simp [effectiveStatus, hs]

theorem tick_decision {opts : TransitionOptions} (h : (tick opts).decision l now = .ok (some c)) :
    l.status = .active ∧ c = setStatus .grace "license.grace_entered" ∨
      (l.status = .active ∨ l.status = .grace) ∧ c = setStatus .expired "license.expired" := by
  simp only [decision] at h
  split at h
  case isTrue     => cases h
  case isFalse hn =>
    obtain ⟨hs, ht⟩ := (effectiveStatus_cases l now).resolve_left hn
    cases ht
    case inl hg =>
      have ha : l.status = .active := hs.resolve_right fun he => hn (hg.trans he.symm)
      simp only [hg, Except.ok.injEq, Option.some.injEq] at h
      exact .inl ⟨ha, h.symm⟩
    case inr he =>
      simp only [he, Except.ok.injEq, Option.some.injEq] at h
      exact .inr ⟨hs, h.symm⟩

theorem decision_steps (hd : op.decision l now = .ok (some c)) (hg : op.Guarded l) (hs : l.Stamped) :
    l.Steps op.IsRenewal (patchedLicense clock c.patch l) := by
  cases op
  case tick =>
    have ht := tick_decision hd
    constructor
    all_goals
      rcases ht with ⟨hl, hc⟩ | ⟨hl | hl, hc⟩
      all_goals simp_all [patchedLicense, setStatus, License.Stamped, LicenseStatus.Edge, Guarded, IsRenewal]
  all_goals
    cases hl : l.status
    all_goals
      simp [decision, hl] at hd
  all_goals
    subst hd
    constructor
    all_goals simp_all [patchedLicense, setStatus, License.Stamped, LicenseStatus.Edge, Guarded, IsRenewal]

-- Otherwise the diagram has no such edge, or an active license has no time of its activation.
theorem decision_of_not_guarded (hg : ¬op.Guarded l) : ∃ c, (∀ now, op.decision l now = .ok (some c)) ∧
    ((c.patch.status = some .suspended ∧ l.status ≠ .suspended ∧ ¬l.status.Edge .suspended) ∨
      (c.patch.status = some .active ∧ c.patch.activatedAt = none ∧ l.activatedAt = none)) := by
  cases op
  case suspend opts =>
    refine ⟨setStatus .suspended "license.suspended", fun now => ?_, .inl ⟨rfl, ?_⟩⟩
    all_goals
      cases hl : l.status
      all_goals simp_all [decision, Guarded, LicenseStatus.Edge]
  case renew opts =>
    obtain ⟨hp, ha⟩ : l.status = .pending ∧ l.activatedAt = none := by simpa [Guarded] using hg
    exact ⟨_, fun now => by simp [decision, hp]; rfl, .inr ⟨rfl, rfl, ha⟩⟩
  all_goals exact absurd trivial hg

end LifecycleOp

-- The operations on a license. Each is one transaction.
inductive LicenseOp
  | lifecycle (op : LifecycleOp) (id : String)
  | registerUsage (fuel : Nat) (input : RegisterUsageInput) (actor : Option String)
  | rotateLicenseKey (fuel : Nat) (id : String) (opts : RotateLicenseKeyOptions)

namespace LicenseOp

def Guarded (id : String) (s : Memory.Store) : LicenseOp → Prop
  | lifecycle op id' => id' = id → ∀ l, s.licenses.find id = some l → op.Guarded l
  | _                => True

def Renews (id : String) : LicenseOp → Prop
  | lifecycle (.renew _) id' => id' = id
  | _                        => False

end LicenseOp

namespace Go

open Memory Prog

def perform (ω : Nat → Env) : LicenseOp → Store → Store
  | .lifecycle op id,              s => (transact ω (lifecycle id op.fn) s).2
  | .registerUsage fuel inp actor, s => (transact ω (registerUsage fuel inp actor) s).2
  | .rotateLicenseKey fuel id opts, s => (transact ω (rotateLicenseKey fuel id opts) s).2

def licenseStep (s : Store) (r : LicenseOp × (Nat → Env)) : Store :=
  perform r.2 r.1 s

-- An operation writes the row of one license at most: as the lifecycle decides, or with a new key.
inductive WritesLicense (r : LicenseOp) (s : Store) : Table License.id → Prop
  | nothing : WritesLicense r s s.licenses
  | rotated {l : License} {key clock : String} (row : s.licenses.find l.id = some l) :
    WritesLicense r s (s.licenses.replace (patchedLicense clock { licenseKey := some key } l))
  | decided {op : LifecycleOp} {l : License} {c : LicenseChange} {now clock : String}
      (row : s.licenses.find l.id = some l)
      (of : r = .lifecycle op l.id ∨ l.status = .pending ∧ ∃ opts, op = .activate opts)
      (decision : op.decision l now = .ok (some c)) :
    WritesLicense r s (s.licenses.replace (patchedLicense clock c.patch l))

theorem perform_writes (ω : Nat → Env) (r : LicenseOp) (s : Store) :
    WritesLicense r s (perform ω r s).licenses := by
  have finds : ∀ {α : Type} (p : Tx α), p.Finds execOp (fun _ _ => True) ω s :=
    fun p => Finds.all (fun _ _ => trivial) p ω s
  cases r
  case lifecycle op id =>
    cases (lifecycle_wp op id).transact (finds _)
    case inr h =>
      obtain ⟨e, s', he, _⟩ := h
      simpa [perform, transact, he] using .nothing
    case inl h =>
      obtain ⟨a, s', he, h⟩ := h
      cases hl : s.licenses.find id
      case none   => simp [hl] at h
      case some l =>
        have hid : l.id = id := Table.key_of_find hl
        subst hid
        simp only [hl] at h
        simp only [perform, transact, he]
        cases h
        case idle      => exact .nothing
        case changed decision _ patched => exact patched ▸ .decided hl (.inl rfl) decision
  case registerUsage fuel input actor =>
    cases (registerUsage_wp fuel input actor).transact (finds _)
    case inr h =>
      obtain ⟨e, s', he, _⟩ := h
      simpa [perform, transact, he] using .nothing
    case inl h =>
      obtain ⟨a, s', he, h⟩ := h
      simp only [perform, transact, he]
      cases h.resolve_left (by simp)
      case inl hs => exact hs ▸ .nothing
      case inr h =>
        obtain ⟨l, hl, hr⟩ := h
        have hid : l.id = input.licenseId := Table.key_of_find hl
        cases hr
        case seat => exact .nothing
        case activated pending _ outcome =>
          cases outcome
          case idle => exact .nothing
          case changed decision _ patched =>
            exact patched ▸ .decided (hid ▸ hl) (.inr ⟨pending, _, rfl⟩) decision
  case rotateLicenseKey fuel id opts =>
    cases (rotateLicenseKey_wp fuel id opts).transact (finds _)
    case inr h =>
      obtain ⟨e, s', he, _⟩ := h
      simpa [perform, transact, he] using .nothing
    case inl h =>
      obtain ⟨a, s', he, h⟩ := h
      simp only [perform, transact, he]
      obtain ⟨l, hl, hr⟩ := h.resolve_left (by simp)
      have hid : l.id = id := Table.key_of_find hl
      cases hr
      case rotated seats _ =>
        obtain ⟨us, hs⟩ := seats
        subst hs
        exact .rotated (hid ▸ hl)

variable {r : LicenseOp} {s : Store} {t : Table License.id} {id : String} {l : License}

theorem find_patched {patch : LicensePatch} {clock : String} (hl : s.licenses.find l.id = some l) :
    (s.licenses.replace (patchedLicense clock patch l)).find id =
      if id = l.id then some (patchedLicense clock patch l) else s.licenses.find id :=
  Table.find_replace hl

theorem WritesLicense.steps (w : WritesLicense r s t) (hl : s.licenses.find id = some l) (hs : l.Stamped)
    (hg : r.Guarded id s) : ∃ l', t.find id = some l' ∧ l.Steps (r.Renews id) l' := by
  cases w
  case nothing => exact ⟨l, hl, .same hs rfl rfl⟩
  case rotated l₀ key clock row =>
    rw [find_patched row]
    by_cases hid : id = l₀.id
    case neg => exact ⟨l, by simpa [hid] using hl, .same hs rfl rfl⟩
    case pos =>
      have he : l₀ = l := Option.some.inj (row.symm.trans (hid ▸ hl))
      exact ⟨_, if_pos hid, .same hs (he ▸ rfl) (he ▸ rfl)⟩
  case decided op l₀ c now clock row of decision =>
    rw [find_patched row]
    by_cases hid : id = l₀.id
    case neg => exact ⟨l, by simpa [hid] using hl, .same hs rfl rfl⟩
    case pos =>
      have he : l₀ = l := Option.some.inj (row.symm.trans (hid ▸ hl))
      subst he
      refine ⟨_, if_pos hid, ?_⟩
      cases of
      case inl ho =>
        subst ho
        apply (LifecycleOp.decision_steps decision (hg hid.symm l₀ hl) hs).mono
        intro hr
        cases op
        case renew => exact hid.symm
        all_goals exact hr.elim
      case inr h =>
        obtain ⟨_, opts, ho⟩ := h
        subst ho
        exact (LifecycleOp.decision_steps decision trivial hs).mono False.elim

-- An operation of the lifecycle that changes a license whatever the time is.
theorem lifecycle_decides (ω : Nat → Env) {op : LifecycleOp} {c : LicenseChange} (hl : s.licenses.find id = some l)
    (hd : ∀ now, op.decision l now = .ok (some c)) :
    ∃ clock, (perform ω (.lifecycle op id) s).licenses.find id = some (patchedLicense clock c.patch l) := by
  have finds : (lifecycle id op.fn).Finds execOp (fun _ _ => True) ω s :=
    Finds.all (fun _ _ => trivial) _ _ _
  cases (lifecycle_wp op id).transact finds
  case inr h =>
    obtain ⟨e, s', he, h⟩ := h
    simp only [hl] at h
    cases h
    case refused decision => simp [hd] at decision
  case inl h =>
    obtain ⟨a, s', he, h⟩ := h
    simp only [hl] at h
    cases h
    case idle decision => simp [hd] at decision
    case changed ω _ decision _ patched =>
      have hc : c = _ := Option.some.inj (Except.ok.inj ((hd _).symm.trans decision))
      have hid : l.id = id := Table.key_of_find hl
      subst hid hc
      have hf : (s.licenses.replace a).find l.id = some a := by
        rw [patched]
        exact (find_patched hl).trans (if_pos rfl)
      refine ⟨ω.clock, ?_⟩
      rw [perform, transact, he, ← patched]
      exact hf

-- The license after the first operations of a run.
def row (id : String) (s : Store) (is : List (LicenseOp × (Nat → Env))) (n : Nat) : Option License :=
  (after licenseStep s is n).licenses.find id

-- Its status follows the diagram and is never anything else once it is revoked. It has the same time
-- of activation from when it is active on. If it is active again after it was expired, it was renewed.
structure StatusLaw (id : String) (s : Store) (is : List (LicenseOp × (Nat → Env))) : Prop where
  edges     : ∀ n < is.length, ∃ l l', row id s is n = some l ∧ row id s is (n + 1) = some l' ∧
    (l'.status = l.status ∨ l.status.Edge l'.status)
  revoked   : ∀ m n l l', m ≤ n → n ≤ is.length → row id s is m = some l → row id s is n = some l' →
    l.status = .revoked → l'.status = .revoked
  activated : ∀ m n l l', m ≤ n → n ≤ is.length → row id s is m = some l → row id s is n = some l' →
    l.status = .active → l.activatedAt.isSome ∧ l'.activatedAt = l.activatedAt
  renewed   : ∀ m n l l', m ≤ n → n ≤ is.length → row id s is m = some l → row id s is n = some l' →
    l.status = .expired → l'.status = .active →
    ∃ k, m ≤ k ∧ k < n ∧ ∃ i, is[k]? = some i ∧ i.1.Renews id

section Run

-- The license is there, and has the property.
def Holds (id : String) (P : License → Prop) (s : Store) : Prop :=
  ∃ l, s.licenses.find id = some l ∧ P l

variable {is : List (LicenseOp × (Nat → Env))}

def Guarded (id : String) (s : Store) (r : LicenseOp × (Nat → Env)) : Prop :=
  r.1.Guarded id s

-- One step of a run that is guarded.
theorem Guarded.steps {i : LicenseOp × (Nat → Env)} (hg : Guarded id s i) (hl : s.licenses.find id = some l)
    (hs : l.Stamped) :
    ∃ l', (licenseStep s i).licenses.find id = some l' ∧ l.Steps (i.1.Renews id) l' :=
  (perform_writes i.2 i.1 s).steps hl hs hg

variable {m n : Nat}

-- What the steps of a license keep holds of it from one state of the run on.
theorem holds_after {P : License → Prop} (he : Each licenseStep (Guarded id) s is) (hmn : m ≤ n)
    (hn : n ≤ is.length) (hm : Holds id (fun l => l.Stamped ∧ P l) (after licenseStep s is m))
    (step : ∀ k i l l', m ≤ k → k < n → is[k]? = some i → l.Steps (i.1.Renews id) l' → P l → P l') :
    Holds id (fun l => l.Stamped ∧ P l) (after licenseStep s is n) := by
  apply after_keeps hmn hn hm
  intro k hmk hkn ⟨l, hl, hs, hp⟩
  have hk : k < is.length := hkn.trans_le hn
  have ⟨l', hl', st⟩ := (each_iff.mp he k hk).steps hl hs
  rw [after_succ hk]
  exact ⟨l', hl', st.stamped, step k is[k] l l' hmk hkn (List.getElem?_eq_getElem hk) st hp⟩

theorem stamped_after (he : Each licenseStep (Guarded id) s is) (hs : Holds id License.Stamped s)
    (hn : n ≤ is.length) : Holds id License.Stamped (after licenseStep s is n) := by
  have ⟨l, hl, hs⟩ := hs
  have ⟨l', hl', hs', _⟩ := holds_after (P := fun _ => True) he (Nat.zero_le n) hn ⟨l, hl, hs, trivial⟩
    fun _ _ _ _ _ _ _ _ _ => trivial
  exact ⟨l', hl', hs'⟩

theorem row_keeps {P : License → Prop} (he : Each licenseStep (Guarded id) s is)
    (hs : Holds id License.Stamped s) (hmn : m ≤ n) (hn : n ≤ is.length)
    (step : ∀ k i l l', m ≤ k → k < n → is[k]? = some i → l.Steps (i.1.Renews id) l' → P l → P l')
    {l₁ l₂ : License} (h₁ : row id s is m = some l₁) (h₂ : row id s is n = some l₂) (hp : P l₁) : P l₂ := by
  have ⟨l, hl, hs⟩ := stamped_after he hs (hmn.trans hn)
  have h : l = l₁ := Option.some.inj (hl.symm.trans h₁)
  have ⟨l', hl', _, hp'⟩ := holds_after he hmn hn ⟨l, hl, hs, h ▸ hp⟩ step
  exact Option.some.inj (hl'.symm.trans h₂) ▸ hp'

theorem statusLaw_of_guarded (he : Each licenseStep (Guarded id) s is)
    (hs : Holds id License.Stamped s) : StatusLaw id s is where
  edges n hn := by
    have ⟨l, hl, hs⟩ := stamped_after he hs hn.le
    have ⟨l', hl', st⟩ := (each_iff.mp he n hn).steps hl hs
    exact ⟨l, l', hl, by rw [row, after_succ hn, hl'], st.edge⟩
  revoked m n l₁ l₂ hmn hn h₁ h₂ hr := by
    apply row_keeps (P := fun l => l.status = .revoked) he hs hmn hn _ h₁ h₂ hr
    intro _ _ _ _ _ _ _ st hr
    exact st.revoked hr
  activated m n l₁ l₂ hmn hn h₁ h₂ ha := by
    have ⟨l, hl, hs'⟩ := stamped_after he hs (hmn.trans hn)
    have h : l = l₁ := Option.some.inj (hl.symm.trans h₁)
    have hk : l₂.status ≠ .pending ∧ l₂.activatedAt = l₁.activatedAt := by
      apply row_keeps (P := fun l => l.status ≠ .pending ∧ l.activatedAt = l₁.activatedAt) he hs hmn
        hn _ h₁ h₂ ⟨by simp [ha], rfl⟩
      intro _ _ _ _ _ _ _ st ⟨hp, hk⟩
      exact ⟨st.not_pending hp, (st.kept hp).trans hk⟩
    subst h
    exact ⟨hs' (by simp [ha]) (by simp [ha]), hk.right⟩
  renewed m n l₁ l₂ hmn hn h₁ h₂ hx ha := by
    by_contra hnr
    have hk : l₂.status = .expired ∨ l₂.status = .revoked := by
      apply row_keeps (P := fun l => l.status = .expired ∨ l.status = .revoked) he hs hmn hn _ h₁ h₂
        (.inl hx)
      intro k i l l' hmk hkn hi st hp
      cases hp
      case inr hr => exact .inr (st.revoked hr)
      case inl hx =>
        match st.expired hx with
        | .inl h        => exact .inl h
        | .inr (.inl h) => exact .inr h
        | .inr (.inr h) => exact absurd ⟨k, hmk, hkn, i, hi, h⟩ hnr
    simp [ha] at hk

theorem guarded_of_statusLaw (h : StatusLaw id s is) : Each licenseStep (Guarded id) s is := by
  apply each_iff.mpr
  intro n hn
  have ⟨l₁, l₂, h₁, h₂, hedge⟩ := h.edges n hn
  unfold Guarded LicenseOp.Guarded
  split
  case h_2 => trivial
  case h_1 op id' hi =>
    intro hid l hl
    subst hid
    by_contra hg
    have ⟨c, hd, hv⟩ := LifecycleOp.decision_of_not_guarded hg
    have hl₁ : l₁ = l := Option.some.inj (h₁.symm.trans hl)
    have ⟨clock, hn₂⟩ := lifecycle_decides is[n].2 hl hd
    have hl₂ : l₂ = patchedLicense clock c.patch l := by
      rw [row, after_succ hn, licenseStep, hi, hn₂] at h₂
      exact (Option.some.inj h₂).symm
    subst hl₁ hl₂
    match hv with
    | .inl ⟨hs, hne, hnot⟩ => simp [patchedLicense, hs, hne.symm, hnot] at hedge
    | .inr ⟨hs, ha, hnone⟩ =>
      have hact := (h.activated (n + 1) (n + 1) _ _ le_rfl hn h₂ h₂ (by simp [patchedLicense, hs])).left
      simp [patchedLicense, ha, hnone] at hact

-- The law holds in just the runs whose suspensions find the license active, or are refused, and whose
-- renewals find it activated.
theorem statusLaw_iff (created : Holds id (fun l => l.status = .pending) s) :
    StatusLaw id s is ↔ Each licenseStep (Guarded id) s is := by
  apply Iff.intro guarded_of_statusLaw
  intro he
  have ⟨l, hl, hp⟩ := created
  exact statusLaw_of_guarded he ⟨l, hl, fun hn => absurd hp hn⟩

end Run

-- A store with one license, as it is created.
def pendingStore : Store :=
  (execStorage { freshId := "l" } (.createLicense {
    scopeId        := none
    templateId     := none
    licensableType := "User"
    licensableId   := "1"
    licenseKey     := "LIC-1"
    status         := .pending
    maxUsages      := 1
    activatedAt    := none
    expiresAt      := none
    graceUntil     := none
    meta_          := [] }) {}).2

def request (op : LifecycleOp) : LicenseOp × (Nat → Env) :=
  (.lifecycle op "l", fun _ => {})

theorem statusLaw_of_activation :
    StatusLaw "l" pendingStore [request (.activate {}), request (.suspend {}), request (.resume {})] := by
  apply (statusLaw_iff ⟨_, rfl, rfl⟩).mpr
  refine ⟨fun _ _ _ => trivial, fun _ l hl => ?_, fun _ _ _ => trivial, trivial⟩
  cases hl
  exact ⟨nofun, nofun, nofun⟩

-- A pending license that is suspended and resumed is active, and has never been activated.
theorem not_statusLaw :
    ¬∀ id s is, Holds id (fun l => l.status = .pending) s → StatusLaw id s is := by
  intro h
  have law := h "l" pendingStore [request (.suspend {}), request (.resume {})] ⟨_, rfl, rfl⟩
  exact nomatch (law.activated 2 2 _ _ le_rfl le_rfl rfl rfl rfl).left

end Go

end Licensing
