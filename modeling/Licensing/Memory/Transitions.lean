import Licensing.Library.Wp
import Licensing.Memory.Acts
import Licensing.Model.LicenseService
import Licensing.Model.Transactions

-- The functions on a license, performed on the rows in memory.

namespace Licensing

-- What is logged of a change.
def lifecycleAudit (prior next : License) (event occurredAt : String) (opts : TransitionOptions) :
    AuditLogInput where
  licenseId  := some prior.id
  scopeId    := prior.scopeId
  actor      := opts.actor.getD "system"
  actorKind  := opts.actorKind
  actorId    := opts.actorId
  event      := event
  priorState := some (lifecycleSnapshot prior)
  newState   := some (lifecycleSnapshot next)
  occurredAt := occurredAt

def seatAudit (license : License) (usage : LicenseUsage) (activeCount : Nat) (actor : Option String)
    (now : String) : AuditLogInput where
  licenseId  := some license.id
  scopeId    := license.scopeId
  actor      := actor.getD "system"
  event      := "usage.registered"
  newState   := some [
    ("usage_id", .str usage.id),
    ("fingerprint", .str usage.fingerprint),
    ("active_count", .ofNat (activeCount + 1))]
  occurredAt := now

def rotationAudit (license : License) (revoked : List String) (opts : RotateLicenseKeyOptions)
    (now : String) : AuditLogInput where
  licenseId  := some license.id
  scopeId    := license.scopeId
  actor      := opts.actor.getD "system"
  actorKind  := opts.actorKind
  actorId    := opts.actorId
  event      := "license.key_rotated"
  priorState := some [("active_usages", .ofNat revoked.length)]
  newState   := some [("active_usages", .ofNat 0), ("usages_revoked", .ofNat revoked.length)]
  occurredAt := now

namespace Memory

variable {ω ω' : Env} {l : License} {now : String} {c : LicenseChange} {opts : TransitionOptions}

def Store.added (s : Store) (l : License) : Store :=
  { s with licenses := s.licenses.put l }

def Store.replaced (s : Store) (l : License) : Store :=
  { s with licenses := s.licenses.replace l }

def Store.seated (s : Store) (u : LicenseUsage) : Store :=
  { s with usages := s.usages.put u }

def Store.logged (s : Store) (e : AuditLogEntry) : Store :=
  { s with audit := s.audit.put e }

end Memory

namespace Go

open Memory Prog

def execOp (ω : Env) (o : Op) : Store → o.Ans × Store :=
  onState (memory.exec ω o)

-- A transaction alone. The commit is an assignment, and does not fail.
def transact {α : Type} (ω : Nat → Env) (body : Tx α) (s : Store) : Except Error α × Store :=
  Atomic.transact execOp { env := ω } body s

variable {may : Env → Store → Prop} {s : Store} {l : License}

theorem updateLicense_cases (ω : Env) (patch : LicensePatch) (hl : s.licenses.find l.id = some l) :
    (∃ e, execOp ω (.tx (.updateLicense l.id patch)) s = (.error e, s)) ∨
      execOp ω (.tx (.updateLicense l.id patch)) s =
        (.ok (patchedLicense ω.clock patch l), s.replaced (patchedLicense ω.clock patch l)) := by
  simp only [execOp, onState, Port.exec, updateLicense, getLicense, hl]
  split
  case h_1 => exact .inl ⟨_, rfl⟩
  case h_2 => exact .inr rfl

theorem createUsage_cases (ω : Env) (input : LicenseUsageInput) (s : Store) :
    (∃ e, execOp ω (.tx (.createUsage input)) s = (.error e, s)) ∨
      ∃ u, execOp ω (.tx (.createUsage input)) s = (.ok u, s.seated u) := by
  simp only [execOp, onState, Port.exec, createUsage]
  split
  case isTrue  => exact .inl ⟨_, rfl⟩
  case isFalse => exact .inr ⟨_, rfl⟩

theorem updateUsage_cases (ω : Env) (id : String) (patch : LicenseUsagePatch) (s : Store) :
    (∃ e, execOp ω (.tx (.updateUsage id patch)) s = (.error e, s)) ∨
      ∃ us u, execOp ω (.tx (.updateUsage id patch)) s = (.ok u, { s with usages := us }) := by
  simp only [execOp, onState, Port.exec, updateUsage]
  split
  case h_1 => exact .inl ⟨_, rfl⟩
  case h_2 =>
    split
    case isTrue  => exact .inl ⟨_, rfl⟩
    case isFalse => exact .inr ⟨_, _, rfl⟩

-- What is left to ensure after a call.
section Bind

variable {β : Type} {post : Except Error β → Store → Prop}

theorem nowISO_bind {f : String → Tx β} (h : ∀ now, (f now).Wp execOp may post s) :
    (Tx.nowISO >>= f).Wp execOp may post s :=
  fun ω _ => h ω.clock

theorem getLicense_bind {id : String} {f : Option License → Tx β}
    (h : (f (s.licenses.find id)).Wp execOp may post s) :
    (Tx.getLicense id >>= f).Wp execOp may post s :=
  fun _ _ => h

theorem updateLicense_bind {patch : LicensePatch} {f : License → Tx β}
    (hl : s.licenses.find l.id = some l) (he : ∀ e, post (.error e) s)
    (h : ∀ ω, may ω s → (f (patchedLicense ω.clock patch l)).Wp execOp may post
      (s.replaced (patchedLicense ω.clock patch l))) :
    (Tx.updateLicense l.id patch >>= f).Wp execOp may post s := by
  intro ω finds
  match updateLicense_cases ω patch hl with
  | .inl ⟨e, hc⟩ =>
    simp only [hc]
    exact he e
  | .inr hc =>
    simp only [hc]
    exact h ω finds

theorem createUsage_bind {input : LicenseUsageInput} {f : LicenseUsage → Tx β}
    (he : ∀ e, post (.error e) s) (h : ∀ u, (f u).Wp execOp may post (s.seated u)) :
    (Tx.createUsage input >>= f).Wp execOp may post s := by
  intro ω _
  match createUsage_cases ω input s with
  | .inl ⟨e, hc⟩ =>
    simp only [hc]
    exact he e
  | .inr ⟨u, hc⟩ =>
    simp only [hc]
    exact h u

theorem getUsage_bind {id : String} {f : Option LicenseUsage → Tx β}
    (h : (f (s.usages.find id)).Wp execOp may post s) :
    (Tx.getUsage id >>= f).Wp execOp may post s :=
  fun _ _ => h

theorem updateUsage_bind {id : String} {patch : LicenseUsagePatch} {f : LicenseUsage → Tx β}
    (he : ∀ e, post (.error e) s) (h : ∀ us u, (f u).Wp execOp may post { s with usages := us }) :
    (Tx.updateUsage id patch >>= f).Wp execOp may post s := by
  intro ω _
  match updateUsage_cases ω id patch s with
  | .inl ⟨e, hc⟩ =>
    simp only [hc]
    exact he e
  | .inr ⟨us, u, hc⟩ =>
    simp only [hc]
    exact h us u

theorem appendAudit_bind {input : AuditLogInput} {f : AuditLogEntry → Tx β}
    (h : ∀ ω, may ω s → (f (appended ω input)).Wp execOp may post (s.logged (appended ω input))) :
    (Tx.appendAudit input >>= f).Wp execOp may post s :=
  h

end Bind

-- What becomes of the store, and of the caller, by what is decided for the license.
inductive Outcome (may : Env → Store → Prop) (op : LifecycleOp) (l : License) (s : Store) :
    Except Error License → Store → Prop
  | refused {now : String} {e : Error} (decision : op.decision l now = .error e) :
    Outcome may op l s (.error e) s
  | idle {now : String} (decision : op.decision l now = .ok none) : Outcome may op l s (.ok l) s
  | changed {now : String} {c : LicenseChange} {next : License} {ω ω' : Env}
      (decision : op.decision l now = .ok (some c)) (patched : next = patchedLicense ω.clock c.patch l)
      (finds : may ω' (s.replaced next)) :
    Outcome may op l s (.ok next)
      ((s.replaced next).logged (appended ω' (lifecycleAudit l next c.event now op.opts)))

-- A patch without a key is not refused.
theorem carryOut_wp {op : LifecycleOp} {now : String} {c : LicenseChange}
    (hl : s.licenses.find l.id = some l) (decision : op.decision l now = .ok (some c)) :
    (LifecycleOp.carryOut l op.opts now c).Wp execOp may (Outcome may op l s) s := by
  intro ω _
  simp only [execOp, onState, Port.exec, updateLicense, getLicense, hl, c.licenseKey]
  intro ω' finds
  exact .changed decision rfl finds

theorem fn_wp (op : LifecycleOp) (hl : s.licenses.find l.id = some l) :
    (op.fn l).Wp execOp may (Outcome may op l s) s := by
  match op.fn_cases l with
  | .inl ⟨e, hf, hd⟩       => exact hf ▸ .refused (hd "")
  | .inr (.inl ⟨hf, hd⟩)   => exact hf ▸ .idle (hd "")
  | .inr (.inr hf) =>
    rw [hf]
    intro ω _
    match hd : op.decision l ω.clock with
    | .error e     => simpa [execOp, onState, Port.exec, hd] using .refused hd
    | .ok none     => simpa [execOp, onState, Port.exec, hd] using .idle hd
    | .ok (some c) => simpa [execOp, onState, Port.exec, hd] using carryOut_wp hl hd

-- The lifecycle as the handlers use it, on the row that they find.
theorem lifecycle_wp (op : LifecycleOp) (id : String) :
    (lifecycle id op.fn).Wp execOp may (fun r s' => match s.licenses.find id with
      | none   => ∃ e, r = .error e
      | some l => Outcome may op l s r s') s := by
  apply getLicense_bind
  match hl : s.licenses.find id with
  | none   => exact ⟨_, rfl⟩
  | some l =>
    have hid : l.id = id := Table.key_of_find hl
    exact fn_wp op (hid ▸ hl)

-- The calls that write nothing, and those that write no license and no log.
section Calls

def ReadsRows : Op → Prop
  | .tx (.updateLicense _ _) | .tx (.createUsage _) | .tx (.updateUsage _ _) | .tx (.appendAudit _) => False
  | _ => True

def WritesSeats : Op → Prop
  | .tx (.updateLicense _ _) | .tx (.appendAudit _) => False
  | _ => True

theorem execOp_of_reads {ω : Env} {o : Op} (h : ReadsRows o) : (execOp ω o s).2 = s := by
  cases o
  case tx o =>
    cases o
    case updateLicense | createUsage | updateUsage | appendAudit => exact h.elim
    all_goals rfl
  all_goals rfl

theorem execOp_writes_seats (ω : Env) (s : Store) {o : Op} (h : WritesSeats o) :
    ∃ us, (execOp ω o s).2 = { s with usages := us } := by
  cases o
  case tx o =>
    cases o
    case updateLicense | appendAudit => exact h.elim
    case createUsage input =>
      match createUsage_cases ω input s with
      | .inl ⟨e, hc⟩ => exact ⟨s.usages, by rw [hc]⟩
      | .inr ⟨u, hc⟩ => exact ⟨s.usages.put u, by rw [hc, Store.seated]⟩
    case updateUsage id patch =>
      match updateUsage_cases ω id patch s with
      | .inl ⟨e, hc⟩     => exact ⟨s.usages, by rw [hc]⟩
      | .inr ⟨us, u, hc⟩ => exact ⟨us, by rw [hc]⟩
    all_goals exact ⟨_, rfl⟩
  all_goals exact ⟨_, rfl⟩

variable {α : Type} {p : Tx α}

theorem reads_wp (hp : p.Calls ReadsRows) : p.Wp execOp may (fun _ s' => s' = s) s := by
  apply Wp.keeps (I := (· = s)) _ hp rfl
  intro ω o s' hr _ hs
  exact (execOp_of_reads hr).trans hs

theorem writes_seats_wp (hp : p.Calls WritesSeats) :
    p.Wp execOp may (fun _ s' => ∃ us, s' = { s with usages := us }) s := by
  have step : ∀ ω o s', WritesSeats o → may ω s' → (∃ us : Table LicenseUsage.id, s' = { s with usages := us }) →
      ∃ us : Table LicenseUsage.id, (execOp ω o s').2 = { s with usages := us } := by
    intro ω o s' ho _ ⟨us, hs⟩
    have ⟨us', h⟩ := execOp_writes_seats ω s' ho
    exact ⟨us', h.trans (by rw [hs])⟩
  exact Wp.keeps (I := fun s' => ∃ us : Table LicenseUsage.id, s' = { s with usages := us }) step hp ⟨s.usages, rfl⟩

theorem reads_bind {β : Type} {f : α → Tx β} {post : Except Error β → Store → Prop}
    (hp : p.Calls ReadsRows) (he : ∀ e, post (.error e) s) (h : ∀ a, (f a).Wp execOp may post s) :
    (p >>= f).Wp execOp may post s := by
  apply Wp.bind
  apply (reads_wp hp).mono
  intro r s' hs
  cases r
  case ok a    => exact hs ▸ h a
  case error e => exact hs ▸ he e

end Calls

-- A seat of the license is taken and logged, and the first one activates the license.
inductive Registered (may : Env → Store → Prop) (s : Store) (l : License) : Store → Prop
  | seat {u : LicenseUsage} {count : Nat} {actor : Option String} {now : String} {ω : Env}
      (usable : l.status = .active ∨ l.status = .grace) (finds : may ω (s.seated u)) :
    Registered may s l ((s.seated u).logged (appended ω (seatAudit l u count actor now)))
  | activated {u : LicenseUsage} {count : Nat} {actor : Option String} {now : String} {ω : Env}
      {opts : TransitionOptions} {next : License} {s' : Store} (pending : l.status = .pending)
      (finds : may ω (s.seated u)) (outcome : Outcome may (.activate opts) l
        ((s.seated u).logged (appended ω (seatAudit l u count actor now))) (.ok next) s') :
    Registered may s l s'

theorem insertSeat_wp {l : License} (hl : s.licenses.find l.id = some l)
    (usable : l.status = .active ∨ l.status = .pending ∨ l.status = .grace)
    (input : RegisterUsageInput) (count : Nat) (actor : Option String) :
    (insertSeat l input count actor).Wp execOp may
      (fun r s' => (∃ e, r = .error e) ∨ Registered may s l s') s := by
  apply nowISO_bind
  intro now
  apply createUsage_bind fun e => .inl ⟨e, rfl⟩
  intro u
  apply appendAudit_bind
  intro ω finds
  apply Wp.ite
  case hq =>
    intro hp
    have hu : l.status = .active ∨ l.status = .grace := by simpa [hp] using usable
    exact .inr (.seat hu finds)
  case hp =>
    intro hp
    have ha : (activate l { actor := some (actor.getD "system") }).Wp execOp may _
        ((s.seated u).logged (appended ω (seatAudit l u count actor now))) := fn_wp (.activate _) hl
    apply Wp.bind
    apply ha.mono
    intro r s' ho
    cases r
    case error e => exact .inl ⟨e, rfl⟩
    case ok next => exact .inr (.activated hp finds ho)

theorem registerUsage_wp (fuel : Nat) (input : RegisterUsageInput) (actor : Option String) :
    (registerUsage fuel input actor).Wp execOp may (fun r s' => (∃ e, r = .error e) ∨ s' = s ∨
      ∃ l, s.licenses.find input.licenseId = some l ∧ Registered may s l s') s := by
  apply getLicense_bind
  cases hl : s.licenses.find input.licenseId
  case none   => exact .inl ⟨_, rfl⟩
  case some l =>
    have hid : l.id = input.licenseId := Table.key_of_find hl
    have usable : (assertUsable l).Wp execOp may (fun r s' => s' = s ∧ ((∃ e, r = .error e) ∨
        l.status = .active ∨ l.status = .pending ∨ l.status = .grace)) s := by
      unfold assertUsable
      split
      all_goals simp_all
    apply Wp.bind
    apply usable.mono
    rintro r s' ⟨hs, hu⟩
    subst hs
    cases r
    case error e => exact .inl ⟨e, rfl⟩
    case ok =>
      have hu := hu.resolve_left (by simp)
      apply reads_bind (findActiveUsageFrom_calls (fun _ => trivial) _ _) fun e => .inl ⟨e, rfl⟩
      intro existing
      cases existing
      case some u => exact .inr (.inl rfl)
      case none   =>
        apply reads_bind (countActiveUsagesFrom_calls (fun _ => trivial) _ _ _) fun e => .inl ⟨e, rfl⟩
        intro count
        apply Wp.ite
        case hp => exact fun _ => .inl ⟨_, rfl⟩
        intro _
        apply (insertSeat_wp (hid ▸ hl) hu input count actor).mono
        intro r s' h
        exact h.imp id fun hr => .inr ⟨l, rfl, hr⟩

theorem revokeSeats_calls (now : String) : (us : List LicenseUsage) → (revoked : List String) →
    (revokeSeats now us revoked).Calls WritesSeats
  | [],      _ => trivial
  | _ :: us, _ => (perform_calls trivial).bind fun _ => revokeSeats_calls now us _

theorem revokeSeatsFrom_calls (licenseId now : String) : (fuel : Nat) → (cursor : String) →
    (revoked : List String) → (revokeSeatsFrom licenseId now fuel cursor revoked).Calls WritesSeats
  | 0,        _, _ => trivial
  | fuel + 1, cursor, _ => by
    have hl : (Tx.listUsages { licenseId := some licenseId, status := [.active] }
      { limit := 500, cursor := cursor }).Calls WritesSeats := perform_calls trivial
    apply Calls.bind _ hl
    intro page
    apply Calls.bind _ (revokeSeats_calls now page.items _)
    intro revoked
    split
    case isTrue  => trivial
    case isFalse => exact revokeSeatsFrom_calls licenseId now fuel _ _

-- The license has a new key, some of its seats are revoked, and that is logged.
inductive Rotated (may : Env → Store → Prop) (s : Store) (l : License) : Store → Prop
  | rotated {key now : String} {opts : RotateLicenseKeyOptions} {revoked : List String} {ω ω' : Env}
      {s₁ : Store} (status : l.status ≠ .revoked)
      (seats : ∃ us, s₁ =
        { s.replaced (patchedLicense ω.clock { licenseKey := some key } l) with usages := us })
      (finds : may ω' s₁) :
    Rotated may s l (s₁.logged (appended ω' (rotationAudit l revoked opts now)))

theorem rotateLicenseKey_wp (fuel : Nat) (id : String) (opts : RotateLicenseKeyOptions) :
    (rotateLicenseKey fuel id opts).Wp execOp may (fun r s' => (∃ e, r = .error e) ∨
      ∃ l, s.licenses.find id = some l ∧ Rotated may s l s') s := by
  apply getLicense_bind
  match hl : s.licenses.find id with
  | none   => exact .inl ⟨_, rfl⟩
  | some l =>
    have hid : l.id = id := Table.key_of_find hl
    by_cases hr : l.status = .revoked
    case pos => simp [hr]
    case neg =>
      simp only [hr, if_false]
      intro ω _
      apply updateLicense_bind (s := s) (hid ▸ hl) fun e => .inl ⟨e, rfl⟩
      intro ω _
      apply nowISO_bind
      intro now
      apply Wp.bind
      apply (writes_seats_wp (revokeSeatsFrom_calls l.id now fuel "" [])).mono
      intro r s₁ seats
      cases r
      case error e => exact .inl ⟨e, rfl⟩
      case ok revoked =>
        apply appendAudit_bind
        intro ω' finds
        exact .inr ⟨l, rfl, .rotated hr seats finds⟩

-- A seat is revoked, and that is logged for the license that it belongs to.
inductive SeatRevoked (may : Env → Store → Prop) (s : Store) : Store → Prop
  | revoked {us : Table LicenseUsage.id} {u : LicenseUsage} {license : Option License}
      {opts : RevokeUsageOptions} {now : String} {ω : Env} (finds : may ω { s with usages := us }) :
    SeatRevoked may s (Store.logged { s with usages := us } (appended ω (revokedAudit u license opts now)))

theorem revokeUsage_wp (usageId : String) (opts : RevokeUsageOptions) :
    (revokeUsage usageId opts).Wp execOp may
      (fun r s' => (∃ e, r = .error e) ∨ s' = s ∨ SeatRevoked may s s') s := by
  apply getUsage_bind
  match s.usages.find usageId with
  | none   => exact .inl ⟨_, rfl⟩
  | some u =>
    apply Wp.ite
    case hp => exact fun _ => .inr (.inl rfl)
    intro _
    apply nowISO_bind
    intro now
    apply updateUsage_bind fun e => .inl ⟨e, rfl⟩
    intro us updated ω _
    apply appendAudit_bind
    intro ω finds
    exact .inr (.inr (.revoked finds))

end Go

namespace Ts

open Memory Prog

-- No read of a license fails in memory, so that the ports revoke a seat alike.
theorem eval_revokeUsage (port : Port) (usageId : String) (opts : RevokeUsageOptions) (ω : Nat → Env) (s : State) :
    (revokeUsage usageId opts).eval port.exec ω s = (Licensing.revokeUsage usageId opts).eval port.exec ω s := by
  simp only [revokeUsage, Licensing.revokeUsage, Tx.getUsage, Tx.perform, call_bind, eval, Port.exec, pure_bind]
  cases getUsage usageId s with
  | none   => rfl
  | some u =>
    by_cases h : u.status = .revoked
    case pos => simp [h]
    case neg =>
      simp only [h, if_false, Tx.nowISO, Tx.updateUsage, Tx.perform, call_bind, pure_bind, eval, Port.exec]
      generalize updateUsage port.unique _ usageId _ s = run
      obtain ⟨r, s'⟩ := run
      cases r with
      | error _    => rfl
      | ok updated => rfl

end Ts

end Licensing
