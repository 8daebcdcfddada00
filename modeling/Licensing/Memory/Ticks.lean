import Mathlib.Data.Set.Insert
import Mathlib.Data.String.Basic
import Licensing.Library.Machine
import Licensing.Memory.StatusHistory
import Licensing.Model.Clocks

-- The status that is calculated when a license is read, and the one that a sweep has persisted.

namespace Licensing

open Machine Memory

-- The way that time takes a license.
inductive LicenseStatus.Forward : LicenseStatus → LicenseStatus → Prop
  | stays {status : LicenseStatus} : Forward status status
  | lapses : Forward .active .grace
  | ends : Forward .active .expired
  | closes : Forward .grace .expired

section Effective

variable {l l' : License} {t t' : String}

-- The status at an instant depends on the stored one and the dates.
structure SameDates (l l' : License) : Prop where
  expiresAt  : l'.expiresAt = l.expiresAt
  graceUntil : l'.graceUntil = l.graceUntil

theorem SameDates.trans {l'' : License} (h : SameDates l l') (h' : SameDates l' l'') : SameDates l l'' where
  expiresAt  := h'.expiresAt.trans h.expiresAt
  graceUntil := h'.graceUntil.trans h.graceUntil

theorem effectiveStatus_congr (h : SameDates l l') (hs : l'.status = l.status) (t : String) :
    effectiveStatus l' t = effectiveStatus l t := by
  simp only [effectiveStatus, hs, h.expiresAt, h.graceUntil]

theorem effectiveStatus_of_not_timed (h : l.status ≠ .active) (h' : l.status ≠ .grace) (t : String) :
    effectiveStatus l t = l.status := by
  cases hs : l.status
  case active | grace => contradiction
  all_goals simp [effectiveStatus, hs]

-- What a license that has not ended becomes when it has expired.
theorem effectiveStatus_expired {e : String} (h : l.status = .active ∨ l.status = .grace)
    (he : l.expiresAt = some e) (ht : e ≤ t) :
    effectiveStatus l t = if ∃ g, l.graceUntil = some g ∧ t < g then .grace else .expired := by
  have hn : ¬t < e := not_lt.mpr ht
  cases h
  all_goals
    cases hg : l.graceUntil
    all_goals simp_all [effectiveStatus]

theorem effectiveStatus_unexpired (h : ∀ e, l.expiresAt = some e → t < e) :
    effectiveStatus l t = l.status := by
  cases he : l.expiresAt
  case none   => cases hs : l.status <;> simp [effectiveStatus, hs, he]
  case some e => cases hs : l.status <;> simp [effectiveStatus, hs, he, h e he]

def License.InGrace (l : License) (t : String) : Prop :=
  ∃ g, l.graceUntil = some g ∧ t < g

-- Where a text of the clock has come past the dates of a license, another one does not fall behind them.
structure License.StaysPast (l : License) (t t' : String) : Prop where
  lapsed : ∀ e, l.expiresAt = some e → e ≤ t → l.InGrace t → l.status = .grace ∨ e ≤ t'
  ended  : ∀ e, l.expiresAt = some e → e ≤ t → ¬l.InGrace t → e ≤ t' ∧ ¬l.InGrace t'

theorem effectiveStatus_past {e : String} (h : l.status = .active ∨ l.status = .grace)
    (he : l.expiresAt = some e) (ht : e ≤ t) (hg : ¬l.InGrace t) : effectiveStatus l t = .expired :=
  (effectiveStatus_expired h he ht).trans (if_neg hg)

theorem effectiveStatus_inGrace {e : String} (h : l.status = .active ∨ l.status = .grace)
    (he : l.expiresAt = some e) (ht : e ≤ t) (hg : l.InGrace t) : effectiveStatus l t = .grace :=
  (effectiveStatus_expired h he ht).trans (if_pos hg)

theorem effectiveStatus_eq_expired_iff (h : l.status = .active ∨ l.status = .grace) :
    effectiveStatus l t = .expired ↔ ∃ e, l.expiresAt = some e ∧ e ≤ t ∧ ¬l.InGrace t := by
  by_cases hu : ∀ e, l.expiresAt = some e → t < e
  case pos =>
    rw [effectiveStatus_unexpired hu]
    refine iff_of_false (fun hs => ?_) fun ⟨e, he, ht, _⟩ => absurd (hu e he) (not_lt.mpr ht)
    obtain h | h := h <;> simp [h] at hs
  case neg =>
    push Not at hu
    obtain ⟨e, he, ht⟩ := hu
    by_cases hg : l.InGrace t
    case pos => simp [effectiveStatus_inGrace h he ht hg, hg]
    case neg => simp [effectiveStatus_past h he ht hg, he, ht, hg]

-- The status that has been persisted at one time stands for the license at another one.
theorem effectiveStatus_persisted_iff (h : SameDates l l') (hs : l'.status = effectiveStatus l t)
    (timed : l.status = .active ∨ l.status = .grace) :
    effectiveStatus l' t' = effectiveStatus l t' ↔ l.StaysPast t t' := by
  by_cases hu : ∀ e, l.expiresAt = some e → t < e
  case pos =>
    have same := effectiveStatus_congr h (hs.trans (effectiveStatus_unexpired hu)) t'
    refine iff_of_true same ⟨fun e he ht => ?_, fun e he ht => ?_⟩
    all_goals exact absurd (hu e he) (not_lt.mpr ht)
  case neg =>
    push Not at hu
    obtain ⟨e, he, ht⟩ := hu
    by_cases hg : l.InGrace t
    case pos =>
      have past : l.StaysPast t t' ↔ l.status = .grace ∨ e ≤ t' := by
        refine ⟨fun p => p.lapsed e he ht hg, fun later => ⟨fun e' he' _ _ => ?_, fun _ _ _ hn => absurd hg hn⟩⟩
        cases he.symm.trans he'
        exact later
      rw [past]
      rw [effectiveStatus_inGrace timed he ht hg] at hs
      by_cases ht' : e ≤ t'
      case pos =>
        have same : effectiveStatus l' t' = effectiveStatus l t' := by
          rw [effectiveStatus_expired (.inr hs) (h.expiresAt.trans he) ht', effectiveStatus_expired timed he ht',
            h.graceUntil]
        exact iff_of_true same (.inr ht')
      case neg =>
        have early : ∀ e, l.expiresAt = some e → t' < e := by
          intro e' he'
          cases he.symm.trans he'
          exact not_le.mp ht'
        have early' : ∀ e, l'.expiresAt = some e → t' < e := fun e he => early e (h.expiresAt ▸ he)
        rw [effectiveStatus_unexpired early, effectiveStatus_unexpired early', hs]
        simp [ht', eq_comm]
    case neg =>
      have past : l.StaysPast t t' ↔ e ≤ t' ∧ ¬l.InGrace t' := by
        refine ⟨fun p => p.ended e he ht hg, fun later => ⟨fun _ _ _ hn => absurd hn hg, fun e' he' _ _ => ?_⟩⟩
        cases he.symm.trans he'
        exact later
      rw [past]
      rw [effectiveStatus_past timed he ht hg] at hs
      rw [effectiveStatus_of_not_timed (by simp [hs]) (by simp [hs]), hs, eq_comm, effectiveStatus_eq_expired_iff timed]
      simp [he]

theorem effectiveStatus_persisted (h : SameDates l l') (hs : l'.status = effectiveStatus l t)
    (past : l.status = .active ∨ l.status = .grace → l.StaysPast t t') :
    effectiveStatus l' t' = effectiveStatus l t' := by
  by_cases timed : l.status = .active ∨ l.status = .grace
  case pos => exact (effectiveStatus_persisted_iff h hs timed).mpr (past timed)
  case neg =>
    have hn := not_or.mp timed
    exact effectiveStatus_congr h (hs.trans (effectiveStatus_of_not_timed hn.left hn.right t)) t'

theorem not_active_of_persisted {u : String} (hs : l'.status = effectiveStatus l u) (grace : l.status = .grace) :
    l'.status ≠ .active := by
  rw [hs]
  by_cases hu : ∀ e, l.expiresAt = some e → u < e
  case pos => simp [effectiveStatus_unexpired hu, grace]
  case neg =>
    push Not at hu
    obtain ⟨e, he, ht⟩ := hu
    rw [effectiveStatus_expired (.inr grace) he ht]
    split <;> simp

-- What is persisted stays past the dates as long as the license does.
theorem License.StaysPast.persisted {u : String} (past : l.status = .active ∨ l.status = .grace → l.StaysPast t t')
    (h : SameDates l l') (hs : l'.status = effectiveStatus l u) (timed' : l'.status = .active ∨ l'.status = .grace) :
    l'.StaysPast t t' := by
  have inGrace (t : String) : l'.InGrace t ↔ l.InGrace t := by rw [InGrace, InGrace, h.graceUntil]
  have timed : l.status = .active ∨ l.status = .grace := by
    by_contra hn
    have hn' := not_or.mp hn
    rw [hs, effectiveStatus_of_not_timed hn'.left hn'.right] at timed'
    exact hn timed'
  have ⟨lapsed, ended⟩ := past timed
  constructor
  case lapsed =>
    intro e he ht hg
    obtain grace | later := lapsed e (h.expiresAt ▸ he) ht ((inGrace t).mp hg)
    case inl => exact .inl (timed'.resolve_left (not_active_of_persisted hs grace))
    case inr => exact .inr later
  case ended =>
    intro e he ht hg
    rw [inGrace] at hg ⊢
    exact ended e (h.expiresAt ▸ he) ht hg

-- An active license does not come back from what it has become.
theorem effectiveStatus_forward (h : l.status = .active) (past : l.StaysPast t t') :
    (effectiveStatus l t).Forward (effectiveStatus l t') := by
  by_cases hu : ∀ e, l.expiresAt = some e → t < e
  case pos =>
    rw [effectiveStatus_unexpired hu, h]
    by_cases hu' : ∀ e, l.expiresAt = some e → t' < e
    case pos => exact (effectiveStatus_unexpired hu').trans h ▸ .stays
    case neg =>
      push Not at hu'
      obtain ⟨e, he, hle⟩ := hu'
      rw [effectiveStatus_expired (.inl h) he hle]
      split
      case isTrue  => exact .lapses
      case isFalse => exact .ends
  case neg =>
    push Not at hu
    obtain ⟨e, he, hle⟩ := hu
    by_cases hg : l.InGrace t
    case pos =>
      have hle' : e ≤ t' := (past.lapsed e he hle hg).resolve_left (by simp [h])
      rw [effectiveStatus_inGrace (.inl h) he hle hg, effectiveStatus_expired (.inl h) he hle']
      split
      case isTrue  => exact .stays
      case isFalse => exact .closes
    case neg =>
      have later := past.ended e he hle hg
      rw [effectiveStatus_past (.inl h) he hle hg, effectiveStatus_past (.inl h) he later.left later.right]
      exact .stays

end Effective

section Sweep

variable (port : Memory.Port)

-- A tick reads the license and the clock in a transaction of its own.
structure TickCall where
  opts : TransitionOptions
  env  : Nat → Env

def TickCall.now (c : TickCall) : String :=
  (c.env 1).clock

def tickLicense (id : String) (s : State) (c : TickCall) : Except Error License × State :=
  (Atomic.transact port.exec { env := c.env } (lifecycle id fun l => tick l c.opts) s)

def tickStep (id : String) (s : State) (c : TickCall) : State :=
  (tickLicense port id s c).2

variable {port} {id : String} {s : State} {l l' : License} {c : TickCall}

-- What is stored of the license has the status that it is to have.
structure Persists (l l' : License) (t : String) : Prop where
  dates  : SameDates l l'
  status : l'.status = effectiveStatus l t

theorem tickLicense_idle (hl : s.licenses.find id = some l) (hs : effectiveStatus l c.now = l.status) :
    tickLicense port id s c = (.ok l, s) := by
  simp only [TickCall.now] at hs
  simp [tickLicense, Atomic.transact, lifecycle, tick, Tx.getLicense, Tx.perform, Tx.nowISO, Prog.eval, Port.exec,
    getLicense, hl, hs]

theorem tickLicense_due (hl : s.licenses.find id = some l) (hs : effectiveStatus l c.now ≠ l.status) :
    let l' := patchedLicense (c.env 2).clock { status := some (effectiveStatus l c.now) } l
    (tickLicense port id s c).1 = .ok l' ∧ (tickStep port id s c).licenses.find id = some l' := by
  have hid : l.id = id := Table.key_of_find hl
  have hf : ∀ now patch, (s.licenses.replace (patchedLicense now patch l)).find id =
      if id = l.id then some (patchedLicense now patch l) else s.licenses.find id :=
    fun _ _ => Table.find_replace (hid.symm ▸ hl)
  have ht := ((LifecycleOp.effectiveStatus_cases l c.now).resolve_left hs).right
  simp only [TickCall.now] at hs ht ⊢
  cases ht
  all_goals
    rename_i ht
    rw [ht] at hs
    simp [tickStep, tickLicense, Atomic.transact, lifecycle, tick, Tx.getLicense, Tx.perform, Tx.nowISO, Prog.eval,
      Port.exec, getLicense, Tx.updateLicense, updateLicense, writeLifecycleAudit, Tx.appendAudit, appendAudit, hl, ht,
      hs, hf, hid]

-- A tick answers with the license as it is stored then.
variable (port) in
theorem tickLicense_persists (hl : s.licenses.find id = some l) : ∃ l', (tickLicense port id s c).1 = .ok l' ∧
    (tickStep port id s c).licenses.find id = some l' ∧ Persists l l' c.now := by
  by_cases hs : effectiveStatus l c.now = l.status
  case pos =>
    rw [tickStep, tickLicense_idle hl hs]
    exact ⟨l, rfl, hl, ⟨rfl, rfl⟩, hs.symm⟩
  case neg =>
    exact ⟨_, (tickLicense_due hl hs).left, (tickLicense_due hl hs).right, ⟨rfl, rfl⟩, rfl⟩

-- Ticks change nothing of what the license is reported to be later, as long as the clock does not fall behind its
-- dates.
variable (port) in
theorem tickSteps_keep {ticks : List TickCall} {t : String} (hl : s.licenses.find id = some l)
    (ht : ∀ c ∈ ticks, l.status = .active ∨ l.status = .grace → l.StaysPast c.now t) :
    ∃ l', (run (tickStep port id) s ticks).licenses.find id = some l' ∧
      SameDates l l' ∧ effectiveStatus l' t = effectiveStatus l t := by
  induction ticks generalizing s l
  case nil => exact ⟨l, hl, ⟨rfl, rfl⟩, rfl⟩
  case cons c ticks ih =>
    obtain ⟨l₁, _, hl₁, p⟩ := tickLicense_persists port hl
    have past : ∀ c' ∈ ticks, l₁.status = .active ∨ l₁.status = .grace → l₁.StaysPast c'.now t :=
      fun c' hc => License.StaysPast.persisted (ht c' (.tail _ hc)) p.dates p.status
    obtain ⟨l', hl', dates, he⟩ := ih hl₁ past
    refine ⟨l', hl', p.dates.trans dates, he.trans ?_⟩
    exact effectiveStatus_persisted p.dates p.status (ht c (.head _))

theorem staysPast_self : l.StaysPast c.now c.now :=
  ⟨fun _ _ ht _ => .inr ht, fun _ _ ht hg => ⟨ht, hg⟩⟩

-- A tick leaves nothing to do for another one at the same instant.
theorem tickLicense_again {c' : TickCall} (hl : s.licenses.find id = some l) (hc : c'.now = c.now) :
    tickLicense port id (tickStep port id s c) c' = tickLicense port id s c := by
  obtain ⟨l', ha, hl', p⟩ := tickLicense_persists port hl
  have hs : effectiveStatus l' c'.now = l'.status := by
    rw [hc, p.status]
    exact effectiveStatus_persisted p.dates p.status fun _ => staysPast_self
  rw [tickLicense_idle hl' hs]
  exact Prod.ext ha.symm rfl

-- The ticks and the reads of a license at some instants, by a clock that writes the instants as `text`.
structure TickLaw (port : Memory.Port) (id : String) (s : State) (l : License) (text : Int → String)
    (instants : Set Int) : Prop where
  reported : ∀ t ∈ instants, ∀ t' ∈ instants, t ≤ t' → ∀ c, c.now = text t →
    ∃ l', (tickLicense port id s c).1 = .ok l' ∧ effectiveStatus l' (text t') = effectiveStatus l (text t')
  swept    : ∀ ticks, ∀ t' ∈ instants, (∀ c ∈ ticks, ∃ t ∈ instants, t ≤ t' ∧ c.now = text t) →
    ∃ l', (run (tickStep port id) s ticks).licenses.find id = some l' ∧
      effectiveStatus l' (text t') = effectiveStatus l (text t')
  forward  : l.status = .active → ∀ t ∈ instants, ∀ t' ∈ instants, t ≤ t' →
    (effectiveStatus l (text t)).Forward (effectiveStatus l (text t'))
  again    : ∀ c c', c'.now = c.now → tickLicense port id (tickStep port id s c) c' = tickLicense port id s c

-- The clock does not fall behind the dates of a license that time can end.
def License.KeepsPast (l : License) (text : Int → String) (instants : Set Int) : Prop :=
  l.status = .active ∨ l.status = .grace →
    ∀ t ∈ instants, ∀ t' ∈ instants, t ≤ t' → l.StaysPast (text t) (text t')

-- It does not if its texts are in the order of the instants.
theorem keepsPast_of_ordered {text : Int → String} {instants : Set Int}
    (ordered : ∀ t ∈ instants, ∀ t' ∈ instants, t ≤ t' → text t ≤ text t') : l.KeepsPast text instants := by
  intro _ t ht t' ht' hle
  have later := ordered t ht t' ht' hle
  constructor
  case lapsed => exact fun e _ he _ => .inr (he.trans later)
  case ended  => exact fun e _ he hg => ⟨he.trans later, fun ⟨g, hg', hlt⟩ => hg ⟨g, hg', later.trans_lt hlt⟩⟩

def tickAt (now : String) : TickCall where
  opts  := {}
  env _ := { clock := now }

-- Ticks change nothing of what the license is reported to be afterwards just if the clock, whose texts are compared
-- with those of the dates, does not fall behind a date that it has reached.
theorem tickLaw_iff (port : Memory.Port) (hl : s.licenses.find id = some l) (text : Int → String)
    (instants : Set Int) : TickLaw port id s l text instants ↔ l.KeepsPast text instants := by
  constructor
  case mp =>
    intro law timed t ht t' ht' hle
    obtain ⟨l', ha, he⟩ := law.reported t ht t' ht' hle (tickAt (text t)) rfl
    obtain ⟨l₁, ha₁, -, p⟩ := tickLicense_persists port (c := tickAt (text t)) hl
    cases ha.symm.trans ha₁
    exact (effectiveStatus_persisted_iff p.dates p.status timed).mp he
  case mpr =>
    intro past
    constructor
    case reported =>
      intro t ht t' ht' hle c hc
      obtain ⟨l', ha, -, p⟩ := tickLicense_persists port (c := c) hl
      refine ⟨l', ha, effectiveStatus_persisted p.dates p.status fun timed => ?_⟩
      exact hc ▸ past timed t ht t' ht' hle
    case swept =>
      intro ticks t' ht' hc
      have stays : ∀ c ∈ ticks, l.status = .active ∨ l.status = .grace → l.StaysPast c.now (text t') := by
        intro c hm timed
        obtain ⟨t, ht, hle, hn⟩ := hc c hm
        exact hn ▸ past timed t ht t' ht' hle
      obtain ⟨l', hl', -, he⟩ := tickSteps_keep port hl stays
      exact ⟨l', hl', he⟩
    case forward =>
      intro active t ht t' ht' hle
      exact effectiveStatus_forward active (past (.inl active) t ht t' ht' hle)
    case again => exact fun _ _ hc => tickLicense_again hl hc

end Sweep

-- A license that is swept on the day it expires, and again after its grace period.
def lapsingLicense : License where
  id             := "lic_1"
  scopeId        := none
  templateId     := none
  licensableType := "User"
  licensableId   := "u1"
  licenseKey     := "LIC-1"
  status         := .active
  maxUsages      := 1
  activatedAt    := none
  expiresAt      := some "2026-01-01T00:00:00.000000Z"
  graceUntil     := some "2026-01-15T00:00:00.000000Z"
  meta_          := []
  createdAt      := "2025-01-01T00:00:00.000000Z"
  updatedAt      := "2025-01-01T00:00:00.000000Z"
  isTrial        := false

def lapsingState : State where
  licenses := .ofList [lapsingLicense]

-- By the clock of the TypeScript port.
theorem tickLaw_lapsing :
    ∃ l', (run (tickStep Go.memory "lic_1") lapsingState [tickAt (Ts.isoFromMs 1767225600000),
        tickAt (Ts.isoFromMs 1769904000000)]).licenses.find "lic_1" = some l' ∧
      effectiveStatus l' (Ts.isoFromMs 1772323200000) =
        effectiveStatus lapsingLicense (Ts.isoFromMs 1772323200000) := by
  have ordered : ∀ t ∈ ({1767225600000, 1769904000000, 1772323200000} : Set Int),
      ∀ t' ∈ ({1767225600000, 1769904000000, 1772323200000} : Set Int), t ≤ t' → Ts.isoFromMs t ≤ Ts.isoFromMs t' := by
    simp only [Set.mem_insert_iff, Set.mem_singleton_iff]
    rintro t (rfl | rfl | rfl) t' (rfl | rfl | rfl) hle
    all_goals first | exact le_rfl | exact absurd hle (by decide) | exact of_decide_eq_true (by decide +kernel)
  have row : lapsingState.licenses.find "lic_1" = some lapsingLicense := rfl
  have law := (tickLaw_iff Go.memory row Ts.isoFromMs {1767225600000, 1769904000000, 1772323200000}).mpr
    (keepsPast_of_ordered ordered)
  refine law.swept _ 1772323200000 (by simp) ?_
  simp only [List.mem_cons, List.not_mem_nil, or_false]
  rintro c (rfl | rfl)
  · exact ⟨1767225600000, by simp, by decide, rfl⟩
  · exact ⟨1769904000000, by simp, by decide, rfl⟩

-- It expires in the middle of a second, whose first text, without a fraction, is greater than those that follow.
def halfSecondLicense : License :=
  { lapsingLicense with expiresAt := some (Go.systemClock 1767225600500000000), graceUntil := none }

theorem not_tickLaw : ¬TickLaw Go.memory "lic_1" { licenses := .ofList [halfSecondLicense] } halfSecondLicense
    Go.systemClock {1767225600000000000, 1767225600250000000} := by
  intro law
  have back := law.forward rfl 1767225600000000000 (by simp) 1767225600250000000 (by simp) (by decide)
  have expired : effectiveStatus halfSecondLicense (Go.systemClock 1767225600000000000) = .expired := by decide +kernel
  have active : effectiveStatus halfSecondLicense (Go.systemClock 1767225600250000000) = .active := by decide +kernel
  rw [expired, active] at back
  cases back

end Licensing
