import Licensing.Memory.AuditTrail
import Licensing.Memory.Requests

-- Which requests are told by the audit log.

namespace Licensing

open Machine Memory Prog

namespace Go

-- A request that changes a license adds to its log, one that fails does nothing to it, and the log
-- tells the status and the dates of every license.
structure Lawful (s : Store) (i : AdminRequest × (Nat → Env)) : Prop where
  logged     : ∀ id, audited s id ≠ audited (adminStep s i) id →
    ∃ e es, entries (adminStep s i) id = entries s id ++ e :: es
  failed     : ∀ e, (serve i.2 i.1 s).1 = .error e → Untouched s (adminStep s i)
  reproduced : Reproduces (adminStep s i)

-- A new license has not been activated before, a PATCH changes none of the fields, and no license is
-- deleted.
def Recorded (s : Store) (i : AdminRequest × (Nat → Env)) : Prop :=
  match i.1 with
  | .createLicense input _ => ∀ key, keyOf (i.2 0) input = .ok key →
    Admits s (.createLicense (input.row key)) → input.activatedAt = none
  | .updateLicense id body => ∀ l, s.licenses.find id = some l →
    (patchedLicense "" body.patch l).audited = l.audited
  | .deleteLicense id      => ¬Admits s (.deleteLicense id)
  | _                      => True

variable {s s' : Store} {ω : Nat → Env} {r : AdminRequest} {id : String}

theorem Trail.logs (t : Trail s s') (h : audited s id ≠ audited s' id) :
    ∃ e es, entries s' id = entries s id ++ e :: es := by
  have ⟨es, he⟩ := t.grows id
  cases es
  case nil       => exact absurd (by simpa using he) (t.logged id h)
  case cons e es => exact ⟨e, es, he.symm⟩

theorem untouched_of_isAside {ω : Env} {o : ServiceOp} (ho : IsAside o) (finds : FreshId ω s) :
    Untouched s (execService ω o s).2 := by
  cases o
  case storage o =>
    have h := execStorage_acts ω s o
    simp only [execService]
    generalize execStorage ω o s = x at h
    obtain ⟨a, s'⟩ := x
    cases h
    case createLicense | updateLicense | deleteLicense => exact ho.elim
    case appendAudit input =>
      refine ⟨rfl, fun id => ?_⟩
      have hn : (appended ω input).licenseId ≠ some id := by
        intro h
        cases (ho : input.licenseId = none).symm.trans h
      exact (entries_logged finds.entry).trans (if_neg hn)
    all_goals exact .of_eq rfl rfl
  all_goals exact .of_eq rfl rfl

theorem aside_wp (a : Aside) : a.body.Wp execService FreshId (fun _ s' => Untouched s s') s := by
  apply Wp.keeps (I := fun s' => Untouched s s') _ a.aside (.of_eq rfl rfl)
  intro ω o s' ho finds u
  exact u.trans (untouched_of_isAside ho finds)

theorem serve_trail (finds : AdminFinds FreshId s (r, ω)) (hr : Recorded s (r, ω)) :
    Trail s (serve ω r s).2 := by
  have same : ∀ {s'}, s' = s → Trail s s' := fun h => .of_eq (by rw [h]) (by rw [h])
  cases r
  case createLicense input opts =>
    rw [serve_of_not_direct (r := .createLicense input opts) id]
    rcases createLicense_transact finds with ⟨e, _, he⟩ | ⟨key, l, s', hk, he, h⟩
    case inl => exact he ▸ .of_eq rfl rfl
    case inr =>
      rw [AdminRequest.program, he]
      exact h.trail (hr key hk h.admits)
  case createLicenseFromTemplate input opts =>
    rw [serve_of_not_direct (r := .createLicenseFromTemplate input opts) id]
    rcases createLicenseFromTemplate_transact finds with ⟨e, _, he⟩ | ⟨t, key, l, s', _, hk, he, h⟩
    case inl => exact he ▸ .of_eq rfl rfl
    case inr =>
      rw [AdminRequest.program, he]
      exact h.trail rfl
  case lifecycle op id =>
    rcases serve_wp finds (service_wp (lifecycle_wp op id)) (fun h => by cases h) with ⟨l', h⟩ | hs
    case inl =>
      cases hl : s.licenses.find id
      case none => simp [hl] at h
      case some l =>
        have hid : l.id = id := Table.key_of_find hl
        simp only [hl] at h
        exact h.trail (hid ▸ hl)
    case inr => exact same hs
  case registerUsage fuel input actor =>
    rcases serve_wp finds (service_wp (registerUsage_wp fuel input actor)) (fun h => by cases h) with ⟨_, h⟩ | hs
    case inl =>
      rcases h.resolve_left (by simp) with hs | ⟨l, hl, hr⟩
      case inl => exact same hs
      case inr =>
        have hid : l.id = input.licenseId := Table.key_of_find hl
        exact hr.trail (hid ▸ hl)
    case inr => exact same hs
  case revokeUsage usageId opts =>
    rcases serve_wp finds (service_wp (revokeUsage_wp usageId opts)) (fun h => by cases h) with ⟨_, h⟩ | hs
    case inl =>
      rcases h.resolve_left (by simp) with hs | hr
      case inl => exact same hs
      case inr => exact hr.trail
    case inr => exact same hs
  case rotateLicenseKey fuel id opts =>
    rcases serve_wp finds (service_wp (rotateLicenseKey_wp fuel id opts)) (fun h => by cases h) with ⟨_, h⟩ | hs
    case inl =>
      obtain ⟨l, hl, hr⟩ := h.resolve_left (by simp)
      have hid : l.id = id := Table.key_of_find hl
      exact hr.trail (hid ▸ hl)
    case inr => exact same hs
  case updateLicense id body =>
    rcases serve_updateLicense ω id body s with ⟨_, hs⟩ | ⟨l, hl, hs⟩
    case inl => exact same hs
    case inr =>
      have hid : l.id = id := Table.key_of_find hl
      rw [hs]
      exact Trail.rewritten (l := l) (hid ▸ hl) rfl (hr l hl)
  case deleteLicense id =>
    rcases serve_deleteLicense ω id s with ⟨_, hs⟩ | ⟨ha, _⟩
    case inl => exact same hs
    case inr => exact absurd ha hr
  case aside a =>
    rw [serve_of_direct (r := .aside a) trivial]
    exact ((aside_wp a).eval finds).trail

theorem lawful_of_recorded (finds : AdminFinds FreshId s (r, ω)) (hr : Recorded s (r, ω))
    (h : Reproduces s) : Lawful s (r, ω) where
  logged id     := (serve_trail finds hr).logs
  reproduced    := (serve_trail finds hr).reproduced h
  failed e he   := by
    by_cases ha : ∃ a, r = .aside a
    case neg =>
      have hs : adminStep s (r, ω) = s := serve_failed (fun a h => ha ⟨a, h⟩) he
      exact .of_eq (by rw [hs]) (by rw [hs])
    case pos =>
      have ⟨a, hr⟩ := ha
      subst hr
      rw [adminStep, serve_of_direct (r := .aside a) trivial]
      exact (aside_wp a).eval finds

theorem Inserted.activatedAt {input : CreateLicenseInput} {key : String} {l : License}
    (h : Inserted FreshId input key s (.ok l) s') (hr : Reproduces s') : input.activatedAt = none := by
  cases h
  case inserted now opts ω ω' admits finds row finds' =>
    subst row
    have hnil : entries (s.added (createdLicense ω (input.row key))) ω.freshId = [] := by
      apply List.filter_eq_nil_iff.mpr
      intro e he
      simpa using finds.subject e he
    have hf : ((s.added (createdLicense ω (input.row key))).licenses).find ω.freshId =
        some (createdLicense ω (input.row key)) := by
      rw [Store.added, Table.find_put]
      exact if_pos rfl
    have hm := hr ω.freshId _ hf ("activated_at", .ofOption input.activatedAt) (by
      simp [lifecycleSnapshot, createdLicense, CreateLicenseInput.row])
    rw [entries_logged finds'.entry, if_pos (by rfl), hnil] at hm
    cases ha : input.activatedAt
    case none   => rfl
    case some t =>
      rw [ha] at hm
      cases hm

-- What is not recorded breaks the law at once.
theorem recorded_of_lawful (finds : AdminFinds FreshId s (r, ω)) (h : Lawful s (r, ω)) :
    Recorded s (r, ω) := by
  have unlogged : ∀ id, entries (adminStep s (r, ω)) id = entries s id →
      audited s id = audited (adminStep s (r, ω)) id := by
    intro id he
    by_contra ha
    obtain ⟨e, es, hl⟩ := h.logged id ha
    simp [he] at hl
  cases r
  case createLicense input opts =>
    intro key hk admits
    rcases createLicense_transact finds with ⟨e, hr, _⟩ | ⟨key', l, s', _, he, hi⟩
    case inl => exact absurd admits (hr key hk)
    case inr =>
      have hs : adminStep s (.createLicense input opts, ω) = s' := by
        rw [adminStep, serve_of_not_direct (r := .createLicense input opts) id, AdminRequest.program, he]
      exact hi.activatedAt (hs ▸ h.reproduced)
  case updateLicense id body =>
    intro l hl
    rcases serve_updateLicense ω id body s with ⟨hn, _⟩ | ⟨l', hl', hs⟩
    case inl => cases hn.symm.trans hl
    case inr =>
      cases hl.symm.trans hl'
      have hid : l.id = id := Table.key_of_find hl
      have ha := unlogged id (by rw [adminStep, hs]; rfl)
      have hf : (s.replaced (patchedLicense (ω 0).clock body.patch l)).licenses.find id = _ :=
        find_replaced (l := l) (hid ▸ hl) rfl
      rw [adminStep, hs, audited, audited, hl, hf, if_pos hid.symm] at ha
      exact (Option.some.inj ha).symm
  case deleteLicense id =>
    intro admits
    rcases serve_deleteLicense ω id s with ⟨hn, _⟩ | ⟨_, hs⟩
    case inl => exact hn admits
    case inr =>
      obtain ⟨l, hl⟩ := Table.has_iff.mp admits.left
      have ha := unlogged id (by rw [adminStep, hs]; rfl)
      rw [adminStep, hs, audited, audited, hl, Table.find_erase, if_pos rfl] at ha
      cases ha
  all_goals trivial

-- The log tells of every license, and of every change that a license goes through, in just the runs
-- whose requests are all recorded.
theorem lawful_iff_recorded (is : List (AdminRequest × (Nat → Env)))
    (finds : Each adminStep (AdminFinds FreshId) {} is) :
    Each adminStep Lawful {} is ↔ Each adminStep Recorded {} is := by
  have agree : ∀ s i, Reproduces s → AdminFinds FreshId s i → (Lawful s i ↔ Recorded s i) :=
    fun s i hr hf => ⟨recorded_of_lawful hf, fun h => lawful_of_recorded hf h hr⟩
  have keeps : ∀ s i, Reproduces s → AdminFinds FreshId s i → Lawful s i → Reproduces (adminStep s i) :=
    fun s i _ _ h => h.reproduced
  exact each_congr agree keeps (fun id l hl => nomatch hl) finds

instance (ω : Env) (s : Store) : Decidable (FreshId ω s) :=
  decidable_of_iff
    ((∀ l ∈ s.licenses.rows, l.id ≠ ω.freshId) ∧ (∀ e ∈ s.audit.rows, e.id ≠ ω.freshId) ∧
      ∀ e ∈ s.audit.rows, e.licenseId ≠ some ω.freshId)
    ⟨fun h => ⟨h.left, h.right.left, h.right.right⟩, fun h => ⟨h.license, h.entry, h.subject⟩⟩

-- Identifiers that have not been seen.
def freshIds (ids : List String) (n : Nat) : Env where
  freshId := ids.getD n ""

-- The license `b`, by the entry `d`.
def newLicense : AdminRequest × (Nat → Env) :=
  (.createLicense { licensableType := "User", licensableId := "1", maxUsages := 1 } {},
    freshIds ["a", "b", "c", "d"])

def suspension : AdminRequest × (Nat → Env) :=
  (.lifecycle (.suspend {}) "b", freshIds ["e", "f", "g", "h"])

def seatChange : AdminRequest × (Nat → Env) :=
  (.updateLicense "b" { maxUsages := some 2 }, freshIds ["e"])

theorem newLicense_finds : AdminFinds FreshId {} newLicense :=
  ⟨by decide, by decide, by decide, by decide, trivial⟩

theorem lawful_suspension : Each adminStep Lawful {} [newLicense, suspension] := by
  have finds : AdminFinds FreshId (adminStep {} newLicense) suspension :=
    ⟨by decide, by decide, by decide, by decide, trivial⟩
  apply (lawful_iff_recorded [newLicense, suspension] ⟨newLicense_finds, finds, trivial⟩).mpr
  exact ⟨fun _ _ _ => rfl, trivial, trivial⟩

-- The change of a seat limit by a PATCH is not logged.
theorem not_lawful : ¬∀ is, Each adminStep (AdminFinds FreshId) {} is → Each adminStep Lawful {} is := by
  intro h
  have finds : AdminFinds FreshId (adminStep {} newLicense) seatChange := ⟨by decide, trivial⟩
  have law := (h [newLicense, seatChange] ⟨newLicense_finds, finds, trivial⟩).right.left
  have he := recorded_of_lawful finds law _ rfl
  exact absurd (congrArg AuditedFields.maxUsages he) (by decide)

end Go

end Licensing
