import Licensing.Memory.Services

-- The audit log of a license, and what it tells about the row.

namespace Licensing

open Memory

-- What an entry tells about the status and the dates of its license.
def AuditLogEntry.told (e : AuditLogEntry) (key : String) : Option Json :=
  if e.event ∈ statusEvents then e.newState.bind (·.get? key) else none

-- A field of the license as its entries tell it, from the first to the last. What no entry tells is null.
def replay (es : List AuditLogEntry) (key : String) : Json :=
  es.foldl (fun v e => (e.told key).getD v) .null

theorem replay_append (es : List AuditLogEntry) (e : AuditLogEntry) (key : String) :
    replay (es ++ [e]) key = (e.told key).getD (replay es key) := by
  simp [replay]

-- The fields of a row whose changes are logged.
structure AuditedFields where
  status      : LicenseStatus
  activatedAt : Option String
  expiresAt   : Option String
  graceUntil  : Option String
  maxUsages   : Int
  meta_       : Json.Object

def License.audited (l : License) : AuditedFields where
  status      := l.status
  activatedAt := l.activatedAt
  expiresAt   := l.expiresAt
  graceUntil  := l.graceUntil
  maxUsages   := l.maxUsages
  meta_       := l.meta_

namespace Go

-- The log of a license, in the order in which it was written.
def entries (s : Store) (id : String) : List AuditLogEntry :=
  s.audit.rows.filter (·.licenseId = some id)

def audited (s : Store) (id : String) : Option AuditedFields :=
  (s.licenses.find id).map License.audited

-- The entries of every license tell its current status and dates.
def Reproduces (s : Store) : Prop :=
  ∀ id l, s.licenses.find id = some l → ∀ m ∈ lifecycleSnapshot l, replay (entries s id) m.1 = m.2

-- A new identifier is not in the store, neither as one of a row nor as one that is referred to.
structure FreshId (ω : Env) (s : Store) : Prop where
  license : ∀ l ∈ s.licenses.rows, l.id ≠ ω.freshId
  entry   : ∀ e ∈ s.audit.rows, e.id ≠ ω.freshId
  subject : ∀ e ∈ s.audit.rows, e.licenseId ≠ some ω.freshId

-- Every change of a row comes with an entry, and the log tells what it told about the rows.
structure Trail (s s' : Store) : Prop where
  grows      : ∀ id, entries s id <+: entries s' id
  logged     : ∀ id, audited s id ≠ audited s' id → entries s id ≠ entries s' id
  reproduced : Reproduces s → Reproduces s'

variable {s s' s'' : Store} {id : String} {ω : Env}

theorem Trail.trans (t : Trail s s') (t' : Trail s' s'') : Trail s s'' where
  grows id   := (t.grows id).trans (t'.grows id)
  logged id h he := by
    have hg := t.grows id
    have hg' := t'.grows id
    have h₁ : entries s id = entries s' id := hg.eq_of_length_le (he ▸ hg'.length_le)
    have h₂ : entries s' id = entries s'' id := h₁ ▸ he
    by_cases ha : audited s id = audited s' id
    case pos => exact t'.logged id (ha ▸ h) h₂
    case neg => exact t.logged id ha h₁
  reproduced := t'.reproduced ∘ t.reproduced

-- No license is written, and no entry about one.
structure Untouched (s s' : Store) : Prop where
  licenses : s'.licenses = s.licenses
  entries  : ∀ id, entries s' id = entries s id

theorem Untouched.of_eq (hl : s'.licenses = s.licenses) (ha : s'.audit = s.audit) : Untouched s s' where
  licenses  := hl
  entries _ := by simp [Go.entries, ha]

theorem Untouched.trans (u : Untouched s s') (u' : Untouched s' s'') : Untouched s s'' where
  licenses   := u'.licenses.trans u.licenses
  entries id := (u'.entries id).trans (u.entries id)

theorem Untouched.trail (u : Untouched s s') : Trail s s' where
  grows id     := by simp [u.entries]
  logged id h  := absurd (by simp [audited, u.licenses]) h
  reproduced h := by
    intro id l hf
    have hm := h id l (u.licenses ▸ hf)
    simpa [u.entries] using hm

theorem Trail.of_eq (hl : s'.licenses = s.licenses) (ha : s'.audit = s.audit) : Trail s s' :=
  (Untouched.of_eq hl ha).trail

theorem entries_logged {e : AuditLogEntry} (h : ∀ e' ∈ s.audit.rows, e'.id ≠ e.id) :
    entries (s.logged e) id = if e.licenseId = some id then entries s id ++ [e] else entries s id := by
  rw [entries, Store.logged, Table.rows_put (Table.find_eq_none h), List.filter_append]
  by_cases hid : e.licenseId = some id
  case pos => simp [hid, entries]
  case neg => simp [hid, entries]

theorem entries_grow {e : AuditLogEntry} (h : ∀ e' ∈ s.audit.rows, e'.id ≠ e.id) :
    entries s id <+: entries (s.logged e) id := by
  rw [entries_logged h]
  split
  case isTrue  => exact List.prefix_append _ _
  case isFalse => exact List.prefix_rfl

-- An entry that tells nothing about the row.
theorem Trail.quiet {e : AuditLogEntry} (hl : s'.licenses = s.licenses) (ha : s'.audit = s.audit)
    (h : ∀ e' ∈ s'.audit.rows, e'.id ≠ e.id) (told : ∀ key, e.told key = none) :
    Trail s (s'.logged e) := by
  apply (Trail.of_eq hl ha).trans
  refine ⟨fun _ => entries_grow h, fun _ ha => absurd rfl ha, fun hr id l hl m hm => ?_⟩
  have hv := hr id l hl m hm
  rw [entries_logged h]
  split
  case isTrue  => simpa [replay_append, told] using hv
  case isFalse => exact hv

theorem snapshot_congr {l l' : License} (h : l.audited = l'.audited) :
    lifecycleSnapshot l = lifecycleSnapshot l' := by
  simp_all [License.audited, lifecycleSnapshot]

theorem get?_snapshot {l : License} {m : String × Json} (hm : m ∈ lifecycleSnapshot l) :
    Json.Object.get? (lifecycleSnapshot l) m.1 = some m.2 := by
  simp only [lifecycleSnapshot, List.mem_cons, List.not_mem_nil, or_false] at hm
  rcases hm with rfl | rfl | rfl | rfl
  all_goals rfl

theorem find_replaced {l next : License} (hl : s.licenses.find l.id = some l) (hid : next.id = l.id) :
    (s.replaced next).licenses.find id = if id = l.id then some next else s.licenses.find id := by
  have hr : (s.licenses.replace next).find id = if id = next.id then some next else s.licenses.find id :=
    Table.find_replace (hid ▸ hl)
  rwa [hid] at hr

-- A row is written, but for its audited fields.
theorem Trail.rewritten {l next : License} (hl : s.licenses.find l.id = some l) (hid : next.id = l.id)
    (ha : next.audited = l.audited) : Trail s (s.replaced next) where
  grows _ := List.prefix_rfl
  logged id h := by
    apply absurd _ h
    rw [audited, audited, find_replaced hl hid]
    split
    case isTrue he => simp [he, hl, ha]
    case isFalse   => rfl
  reproduced hr := by
    intro id l' hf m hm
    rw [find_replaced hl hid] at hf
    split at hf
    case isTrue he =>
      cases hf
      exact hr id l (he ▸ hl) m (snapshot_congr ha ▸ hm)
    case isFalse => exact hr id l' hf m hm

-- A row is written, and its status and dates are logged.
theorem Trail.changed {l next : License} {e : AuditLogEntry} (hl : s.licenses.find l.id = some l)
    (hid : next.id = l.id) (h : ∀ e' ∈ s.audit.rows, e'.id ≠ e.id) (he : e.licenseId = some l.id)
    (event : e.event ∈ statusEvents) (state : e.newState = some (lifecycleSnapshot next)) :
    Trail s ((s.replaced next).logged e) where
  grows id := entries_grow (s := s.replaced next) h
  logged id ha := by
    rw [entries_logged (s := s.replaced next) h]
    by_cases hi : id = l.id
    case pos => simp [hi, he, entries, Store.replaced]
    case neg =>
      apply absurd _ ha
      simp [audited, Store.logged, find_replaced hl hid, hi]
  reproduced hr := by
    intro id l' hf m hm
    rw [entries_logged (s := s.replaced next) h]
    rw [Store.logged, find_replaced hl hid] at hf
    split at hf
    case isTrue hi =>
      cases hf
      have told : e.told m.1 = some m.2 := by simp [AuditLogEntry.told, event, state, get?_snapshot hm]
      simp [hi, he, replay_append, told]
    case isFalse hi =>
      have hv := hr id l' hf m hm
      simpa [he, Ne.symm hi, entries, Store.replaced] using hv

-- A row is added, with an entry that tells its status and dates.
theorem Trail.created {l : License} {e : AuditLogEntry}
    (hs : ∀ e' ∈ s.audit.rows, e'.licenseId ≠ some l.id) (h : ∀ e' ∈ s.audit.rows, e'.id ≠ e.id)
    (he : e.licenseId = some l.id) (told : ∀ m ∈ lifecycleSnapshot l, (e.told m.1).getD .null = m.2) :
    Trail s ((s.added l).logged e) where
  grows id := entries_grow (s := s.added l) h
  logged id ha := by
    rw [entries_logged (s := s.added l) h]
    by_cases hi : id = l.id
    case pos => simp [hi, he, entries, Store.added]
    case neg =>
      apply absurd _ ha
      simp [audited, Store.logged, Store.added, Table.find_put, hi]
  reproduced hr := by
    intro id l' hf m hm
    rw [entries_logged (s := s.added l) h]
    rw [Store.logged, Store.added, Table.find_put] at hf
    split at hf
    case isTrue hi =>
      cases hf
      have hnil : entries (s.added l) id = [] := by
        apply List.filter_eq_nil_iff.mpr
        intro e' hm'
        simpa [hi] using hs e' hm'
      simpa [hi, he, replay, hi ▸ hnil] using told m hm
    case isFalse hi =>
      have hv := hr id l' hf m hm
      simpa [he, Ne.symm hi, entries, Store.added] using hv

section Services

variable {op : LifecycleOp} {l : License} {r : Except Error License}

theorem Outcome.trail (h : Outcome FreshId op l s r s') (hl : s.licenses.find l.id = some l) : Trail s s' := by
  cases h
  case refused => exact .of_eq rfl rfl
  case idle    => exact .of_eq rfl rfl
  case changed c next ω ω' decision patched finds =>
    subst patched
    exact .changed hl rfl finds.entry rfl c.status rfl

theorem Trail.seat {u : LicenseUsage} {count : Nat} {actor : Option String} {now : String}
    (finds : FreshId ω (s.seated u)) :
    Trail s ((s.seated u).logged (appended ω (seatAudit l u count actor now))) :=
  .quiet rfl rfl finds.entry fun _ => rfl

theorem Registered.trail (h : Registered FreshId s l s') (hl : s.licenses.find l.id = some l) :
    Trail s s' := by
  cases h
  case seat finds                      => exact .seat finds
  case activated pending finds outcome => exact (Trail.seat finds).trans (outcome.trail hl)

theorem Rotated.trail (h : Rotated FreshId s l s') (hl : s.licenses.find l.id = some l) : Trail s s' := by
  cases h
  case rotated key now opts revoked ω ω' s₁ status seats finds =>
    have ⟨us, hs⟩ := seats
    subst hs
    have t : Trail s (s.replaced (patchedLicense ω.clock { licenseKey := some key } l)) :=
      .rewritten hl rfl rfl
    exact t.trans (.quiet rfl rfl finds.entry fun _ => rfl)

theorem SeatRevoked.trail (h : SeatRevoked FreshId s s') : Trail s s' := by
  cases h
  case revoked finds => exact .quiet rfl rfl finds.entry fun _ => rfl

theorem Inserted.trail {input : CreateLicenseInput} {key : String} (h : Inserted FreshId input key s r s')
    (ha : input.activatedAt = none) : Trail s s' := by
  cases h
  case refused => exact .of_eq rfl rfl
  case inserted l now opts ω ω' admits row finds finds' =>
    subst row
    apply Trail.created finds.subject finds'.entry rfl
    intro m hm
    simp only [lifecycleSnapshot, List.mem_cons, List.not_mem_nil, or_false] at hm
    rcases hm with rfl | rfl | rfl | rfl
    case inr.inl => simp [createdLicense, CreateLicenseInput.row, ha]; rfl
    all_goals rfl

end Services

end Go

end Licensing
