import Licensing.Memory.Transitions

-- Deletions of licenses in the SQL adapters of the Go port, as the admin handler asks for them. Every statement
-- commits by itself, and registrations of seats of the same license come in between.

namespace Licensing

namespace Deletion

open Go Memory Prog

inductive Statement
  | countActive (licenseId : String)
  | deleteUsages (licenseId : String)
  | deleteLicense (id : String)

-- A seat refers to the license, or an entry of the log does, which is not to be updated when its reference is set
-- to null.
inductive Refusal
  | foreignKey
  | immutableAuditLog

@[reducible]
def Statement.Ans : Statement → Type
  | countActive _   => Nat
  | deleteUsages _  => Unit
  | deleteLicense _ => Except Refusal Nat

abbrev Sql := Prog Statement Statement.Ans Error

-- The driver's own text stands for a reference that is violated.
def mapError (foreignKey : String) : Refusal → Error
  | .foreignKey        => .other foreignKey
  | .immutableAuditLog => newError .immutableAuditLog "audit rows are append-only"

-- The seats go first, so that they do not hold the license.
def deleteRows (foreignKey id : String) : Sql Unit := do
  let _ ← (.call (.deleteUsages id) .pure : Sql Unit)
  match ← (.call (.deleteLicense id) .pure : Sql (Except Refusal Nat)) with
  | .error refusal => .throw (mapError foreignKey refusal)
  | .ok 0          => .throw (newError .licenseNotFound ("license not found: " ++ id))
  | .ok _          => return ()

def deleteLicense (foreignKey id : String) : Sql Unit := do
  let n ← (.call (.countActive id) .pure : Sql Nat)
  if 0 < n then
    .throw (newError .uniqueConstraintViolation
      ("license " ++ id ++ " has active usages — revoke them before deleting"))
  else deleteRows foreignKey id

def Unseated (id : String) (s : Store) : Prop :=
  ∀ u ∈ s.usages.rows, u.licenseId ≠ id

def Unreferenced (id : String) (s : Store) : Prop :=
  ∀ e ∈ s.audit.rows, e.licenseId ≠ some id

-- No seat of the license is active.
def Vacant (id : String) (s : Store) : Prop :=
  ∀ u ∈ s.usages.rows, u.licenseId = id → u.status ≠ .active

instance (id : String) (s : Store) : Decidable (Unseated id s) :=
  inferInstanceAs (Decidable (∀ u ∈ s.usages.rows, u.licenseId ≠ id))

instance (id : String) (s : Store) : Decidable (Unreferenced id s) :=
  inferInstanceAs (Decidable (∀ e ∈ s.audit.rows, e.licenseId ≠ some id))

def isActiveOf (id : String) (u : LicenseUsage) : Bool :=
  u.licenseId = id ∧ u.status = .active

def perform : (o : Statement) → Store → o.Ans × Store
  | .countActive id,   s => ((s.usages.rows.filter (isActiveOf id)).length, s)
  | .deleteUsages id,  s => ((), { s with usages := s.usages.filter (·.licenseId ≠ id) })
  | .deleteLicense id, s =>
    match s.licenses.find id with
    | none   => (.ok 0, s)
    | some _ =>
      if ¬Unseated id s then (.error .foreignKey, s)
      else if ¬Unreferenced id s then (.error .immutableAuditLog, s)
      else (.ok 1, { s with licenses := s.licenses.erase id })

-- A transaction that registers a seat of the license.
structure Registration where
  fuel        : Nat
  fingerprint : String
  clientMeta  : Json.Object
  actor       : Option String
  env         : Nat → Env

def Registration.perform (id : String) (s : Store) (r : Registration) : Store :=
  (transact r.env (registerUsage r.fuel ⟨id, r.fingerprint, r.clientMeta⟩ r.actor) s).2

def settle (id : String) (rs : List Registration) (s : Store) : Store :=
  rs.foldl (Registration.perform id) s

-- A statement, after the registrations that come before it.
def exec (id : String) (rs : List Registration) (o : Statement) (s : Store) : o.Ans × Store :=
  perform o (settle id rs s)

def run (foreignKey id : String) (between : Nat → List Registration) (s : Store) : Except Error Unit × Store :=
  (deleteLicense foreignKey id).eval (exec id) between s

-- No statement of the program changes the rows that it finds.
def Untouched (id : String) : Sql Unit → (Nat → List Registration) → Store → Prop
  | .call o next, between, s =>
    (exec id (between 0) o s).2 = settle id (between 0) s ∧
      Untouched id (next (exec id (between 0) o s).1) (fun n => between (n + 1)) (exec id (between 0) o s).2
  | _, _, _ => True

section Found

variable (id : String) (between : Nat → List Registration) (s : Store)

-- The rows that each of the statements finds.
def counted : Store :=
  settle id (between 0) s

def emptied : Store :=
  settle id (between 1) (counted id between s)

def deleted : Store :=
  settle id (between 2) (perform (.deleteUsages id) (emptied id between s)).2

-- A license without active seats is deleted with its seats, and the log stays. A deletion that fails has changed
-- nothing.
structure Lawful (foreignKey : String) : Prop where
  deletes : (s.licenses.find id).isSome → Vacant id (counted id between s) → Vacant id (emptied id between s) →
    Vacant id (deleted id between s) → ∃ s', run foreignKey id between s = (.ok (), s') ∧
      s'.licenses.find id = none ∧ Unseated id s' ∧ ∀ e ∈ s.audit.rows, e ∈ s'.audit.rows
  fails   : ∀ e s', run foreignKey id between s = (.error e, s') →
    Untouched id (deleteLicense foreignKey id) between s

-- There is an active seat from the start, or no entry of the log refers to the license when it is deleted, or it has
-- no seats and is not there or is taken again after its seats were to be deleted.
inductive Proceeds : Prop
  | occupied (h : ¬Vacant id (counted id between s))
  | unreferenced (found : (s.licenses.find id).isSome) (h : Unreferenced id (deleted id between s))
  | unseated (h : Unseated id (emptied id between s))
      (missing : s.licenses.find id = none ∨ ¬Vacant id (deleted id between s))

end Found

section Registrations

variable {id : String} {s s' : Store} {may : Env → Store → Prop} {l : License}

theorem referenced_logged {e : AuditLogEntry} (h : e.licenseId = some id) : ¬Unreferenced id (s.logged e) := by
  intro hu
  have hf : (s.logged e).audit.find e.id = some e := by
    rw [Store.logged, Table.find_put, if_pos rfl]
  exact hu e (Rows.mem_of_find hf) h

-- The entry of a seat that is taken refers to the license.
theorem referenced_of_registered (h : Registered may s l s') : ¬Unreferenced l.id s' := by
  cases h
  case seat => exact referenced_logged rfl
  case activated outcome =>
    cases outcome
    case idle    => exact referenced_logged rfl
    case changed => exact referenced_logged rfl

theorem found_of_outcome {op : LifecycleOp} {next : License} (hl : s.licenses.find l.id = some l)
    (h : Outcome may op l s (.ok next) s') : (s'.licenses.find l.id).isSome := by
  cases h
  case idle => rw [hl]; rfl
  case changed patched _ =>
    have hn : next.id = l.id := by rw [patched]; rfl
    have hr : (s.licenses.replace next).find l.id = some next := by
      rw [Table.find_replace (hn ▸ hl), if_pos hn.symm]
    exact hr ▸ rfl

theorem found_of_registered (hl : s.licenses.find l.id = some l) (h : Registered may s l s') :
    (s'.licenses.find l.id).isSome := by
  cases h
  case seat => exact hl ▸ rfl
  case activated outcome =>
    refine found_of_outcome ?_ outcome
    exact hl

-- A registration does nothing, or its entry in the log refers to the license.
theorem perform_cases (r : Registration) (s : Store) : r.perform id s = s ∨
    (¬Unreferenced id (r.perform id s) ∧ (s.licenses.find id).isSome ∧
      ((r.perform id s).licenses.find id).isSome) := by
  let input : RegisterUsageInput := ⟨id, r.fingerprint, r.clientMeta⟩
  have wp : (registerUsage r.fuel input r.actor).Wp execOp (fun _ _ => True) _ s := registerUsage_wp _ _ _
  rcases wp.transact (Finds.all (fun _ _ => trivial) _ r.env s) with ⟨a, s', he, h⟩ | ⟨e, s', he, _⟩
  case inr => exact .inl (by rw [Registration.perform, transact, he])
  case inl =>
    rw [Registration.perform, transact, he]
    rcases h with ⟨e, h⟩ | h | ⟨l, hl, h⟩
    · cases h
    · exact .inl h
    · obtain rfl : l.id = id := Table.key_of_find hl
      exact .inr ⟨referenced_of_registered h, by rw [hl]; rfl, found_of_registered hl h⟩

theorem settle_cases (rs : List Registration) (s : Store) : settle id rs s = s ∨ ¬Unreferenced id (settle id rs s) := by
  induction rs generalizing s
  case nil => exact .inl rfl
  case cons r rs ih =>
    rcases ih (r.perform id s) with h | h
    case inr => exact .inr h
    case inl =>
      change settle id rs (r.perform id s) = s ∨ ¬Unreferenced id (settle id rs (r.perform id s))
      rw [h]
      exact (perform_cases r s).imp_right And.left

theorem found_settle (rs : List Registration) (s : Store) :
    ((settle id rs s).licenses.find id).isSome = (s.licenses.find id).isSome := by
  induction rs generalizing s
  case nil => rfl
  case cons r rs ih =>
    apply (ih (r.perform id s)).trans
    rcases perform_cases r s with h | ⟨_, h, h'⟩
    case inl => rw [h]
    case inr => rw [h, h']

theorem settle_of_unreferenced {rs : List Registration} (h : Unreferenced id (settle id rs s)) :
    settle id rs s = s :=
  (settle_cases rs s).resolve_right (not_not.mpr h)

end Registrations

section Run

variable {foreignKey id : String} {between : Nat → List Registration} {s : Store}

theorem count_pos_iff : 0 < (perform (.countActive id) s).1 ↔ ¬Vacant id s := by
  simp [perform, Vacant, List.length_pos_iff_exists_mem, isActiveOf]

theorem perform_deleteUsages_iff : (perform (.deleteUsages id) s).2 = s ↔ Unseated id s := by
  have hs : (perform (.deleteUsages id) s).2 = s ↔ s.usages.filter (·.licenseId ≠ id) = s.usages := by
    apply Iff.intro
    case mp  => exact fun h => congrArg (fun s : Store => s.usages) h
    case mpr => exact fun h => by rw [perform, h]
  rw [hs, Table.filter_eq_self]
  simp [Unseated]

theorem unseated_deleteUsages : Unseated id (perform (.deleteUsages id) s).2 := by
  simp [Unseated, perform, Table.filter]

theorem found_deleted : ((deleted id between s).licenses.find id).isSome = (s.licenses.find id).isSome := by
  rw [deleted, found_settle, perform, emptied, found_settle, counted, found_settle]

theorem run_of_occupied (h : ¬Vacant id (counted id between s)) :
    (∃ e, (run foreignKey id between s).1 = .error e) ∧ Untouched id (deleteLicense foreignKey id) between s := by
  have hc : 0 < (exec id (between 0) (.countActive id) s).1 := count_pos_iff.mpr h
  simp only [run, deleteLicense, call_bind, pure_bind, eval, Untouched, if_pos hc]
  exact ⟨⟨_, rfl⟩, rfl, trivial⟩

theorem run_of_vacant (h : Vacant id (counted id between s)) :
    run foreignKey id between s = (deleteRows foreignKey id).eval (exec id) (fun n => between (n + 1))
      (counted id between s) ∧
    (Untouched id (deleteLicense foreignKey id) between s ↔
      Untouched id (deleteRows foreignKey id) (fun n => between (n + 1)) (counted id between s)) := by
  have hc : ¬0 < (exec id (between 0) (.countActive id) s).1 := fun hc => count_pos_iff.mp hc h
  simp only [run, deleteLicense, call_bind, pure_bind, eval, Untouched, if_neg hc]
  exact ⟨rfl, and_iff_right rfl⟩

-- Nothing refers to the license.
structure Removable (id : String) (s : Store) : Prop where
  found        : (s.licenses.find id).isSome
  unseated     : Unseated id s
  unreferenced : Unreferenced id s

theorem perform_of_removable (h : Removable id s) :
    perform (.deleteLicense id) s = (.ok 1, { s with licenses := s.licenses.erase id }) := by
  obtain ⟨l, hl⟩ := Option.isSome_iff_exists.mp h.found
  simp [perform, hl, h.unseated, h.unreferenced]

theorem perform_of_not_removable (h : ¬Removable id s) :
    perform (.deleteLicense id) s = (.ok 0, s) ∨ ∃ r, perform (.deleteLicense id) s = (.error r, s) := by
  cases hl : s.licenses.find id
  case none => simp [perform, hl]
  case some l =>
    by_cases hu : Unseated id s
    case neg => exact .inr ⟨.foreignKey, by simp [perform, hl, hu]⟩
    case pos =>
      have hr : ¬Unreferenced id s := fun hr => h ⟨by rw [hl]; rfl, hu, hr⟩
      exact .inr ⟨.immutableAuditLog, by simp [perform, hl, hu, hr]⟩

-- What the last statement finds.
theorem exec_deleteLicense : exec id (between 2) (.deleteLicense id)
    (exec id (between 1) (.deleteUsages id) (counted id between s)).2 =
      perform (.deleteLicense id) (deleted id between s) :=
  rfl

theorem run_of_removable (h : Vacant id (counted id between s)) (hr : Removable id (deleted id between s)) :
    run foreignKey id between s = (.ok (),
      { deleted id between s with licenses := (deleted id between s).licenses.erase id }) := by
  rw [(run_of_vacant h).left, deleteRows]
  simp only [call_bind, pure_bind, eval, Nat.reduceAdd, exec_deleteLicense, perform_of_removable hr]
  rfl

-- A deletion that fails at its last statement has changed something if there were seats.
theorem run_of_not_removable (h : Vacant id (counted id between s)) (hr : ¬Removable id (deleted id between s)) :
    (∃ e, (run foreignKey id between s).1 = .error e) ∧
      (Untouched id (deleteLicense foreignKey id) between s ↔ Unseated id (emptied id between s)) := by
  rw [(run_of_vacant h).left, (run_of_vacant h).right, deleteRows]
  simp only [call_bind, pure_bind, eval, Untouched, Nat.reduceAdd, exec_deleteLicense]
  have hu : (exec id (between 1) (.deleteUsages id) (counted id between s)).2 =
      settle id (between 1) (counted id between s) ↔ Unseated id (emptied id between s) :=
    perform_deleteUsages_iff
  rw [← hu]
  rcases perform_of_not_removable hr with he | ⟨r, he⟩
  case inl =>
    simp only [he]
    exact ⟨⟨_, rfl⟩, and_iff_left ⟨rfl, trivial⟩⟩
  case inr =>
    simp only [he]
    exact ⟨⟨_, rfl⟩, and_iff_left ⟨rfl, trivial⟩⟩

-- Where no entry of the log refers to the license, no seat of it was taken.
theorem removable_of_unreferenced (found : (s.licenses.find id).isSome)
    (h : Unreferenced id (deleted id between s)) : Removable id (deleted id between s) where
  found        := found_deleted.trans found
  unseated     := by
    rw [deleted, settle_of_unreferenced h]
    exact unseated_deleteUsages
  unreferenced := h

theorem audit_of_unreferenced (h : Unreferenced id (deleted id between s)) :
    (deleted id between s).audit = s.audit := by
  have hd : deleted id between s = (perform (.deleteUsages id) (emptied id between s)).2 := settle_of_unreferenced h
  have he : emptied id between s = counted id between s := settle_of_unreferenced (by rw [hd] at h; exact h)
  have hc : counted id between s = s := settle_of_unreferenced (by rw [hd, perform, he] at h; exact h)
  rw [hd, perform, he, hc]

theorem lawful_of_proceeds (h : Proceeds id between s) : Lawful id between s foreignKey := by
  by_cases vacant : Vacant id (counted id between s)
  case neg =>
    obtain ⟨⟨e, he⟩, hu⟩ := @run_of_occupied foreignKey id between s vacant
    exact { deletes := fun _ hv => absurd hv vacant, fails := fun _ _ _ => hu }
  case pos =>
    by_cases hr : Removable id (deleted id between s)
    case pos =>
      have run := @run_of_removable foreignKey id between s vacant hr
      constructor
      case deletes =>
        intro _ _ _ _
        refine ⟨_, run, ?_, hr.unseated, fun e he => ?_⟩
        case refine_1 => exact Table.find_erase.trans (if_pos rfl)
        case refine_2 => exact audit_of_unreferenced hr.unreferenced ▸ he
      case fails =>
        intro e s' he
        rw [run] at he
        cases he
    case neg =>
      obtain ⟨⟨e, he⟩, hu⟩ := @run_of_not_removable foreignKey id between s vacant hr
      cases h
      case occupied h           => exact absurd vacant h
      case unreferenced found h => exact absurd (removable_of_unreferenced found h) hr
      case unseated h missing   =>
        constructor
        case fails => exact fun _ _ _ => hu.mpr h
        case deletes =>
          intro found _ _ hv
          rcases missing with hm | hm
          case inl => simp [hm] at found
          case inr => exact absurd hv hm

theorem proceeds_of_lawful (h : Lawful id between s foreignKey) : Proceeds id between s := by
  by_cases vacant : Vacant id (counted id between s)
  case neg => exact .occupied vacant
  case pos =>
    by_cases hr : Removable id (deleted id between s)
    case pos => exact .unreferenced (found_deleted ▸ hr.found) hr.unreferenced
    case neg =>
      obtain ⟨⟨e, he⟩, hu⟩ := @run_of_not_removable foreignKey id between s vacant hr
      have unseated : Unseated id (emptied id between s) := hu.mp (h.fails e _ (Prod.ext he rfl))
      refine .unseated unseated ?_
      by_contra hn
      rw [not_or, not_not] at hn
      have found := Option.isSome_iff_ne_none.mpr hn.left
      obtain ⟨s', run, _⟩ := h.deletes found vacant (fun u hm hid => absurd hid (unseated u hm)) hn.right
      rw [run] at he
      cases he

-- A deletion does as it should just if an active seat stops it at once, or no entry of the log refers to the license,
-- or there are no seats that it could have deleted before it fails.
theorem deleteLicense_lawful_iff (foreignKey id : String) (between : Nat → List Registration) (s : Store) :
    Lawful id between s foreignKey ↔ Proceeds id between s :=
  ⟨proceeds_of_lawful, lawful_of_proceeds⟩

end Run

section Sample

def loggedLicense : License where
  id             := "lic_1"
  scopeId        := none
  templateId     := none
  licensableType := "User"
  licensableId   := "u1"
  licenseKey     := "K"
  status         := .active
  maxUsages      := 1
  activatedAt    := none
  expiresAt      := none
  graceUntil     := none
  meta_          := []
  createdAt      := "2026-01-01T00:00:00.000000Z"
  updatedAt      := "2026-01-01T00:00:00.000000Z"
  isTrial        := false

def revokedSeat : LicenseUsage where
  id           := "use_1"
  licenseId    := "lic_1"
  fingerprint  := "f"
  status       := .revoked
  registeredAt := "2026-01-01T00:00:00.000000Z"
  revokedAt    := some "2026-01-02T00:00:00.000000Z"
  lastSeenAt   := "2026-01-01T00:00:00.000000Z"
  clientMeta   := []
  createdAt    := "2026-01-01T00:00:00.000000Z"
  updatedAt    := "2026-01-02T00:00:00.000000Z"

def createdEntry : AuditLogEntry where
  id         := "log_1"
  licenseId  := some "lic_1"
  scopeId    := none
  actor      := "admin"
  actorKind  := .admin
  actorId    := none
  event      := "license.created"
  priorState := none
  newState   := none
  occurredAt := "2026-01-01T00:00:00.000000Z"

def loggedStore : Store where
  licenses := .ofList [loggedLicense]
  usages   := .ofList [revokedSeat]
  audit    := .ofList [createdEntry]

-- The seat of a license with an entry in the log is gone, and the license stays.
theorem not_deleteLicense_lawful : ¬∀ foreignKey id between s, Lawful id between s foreignKey := by
  intro h
  have run : ∃ e, (run "" "lic_1" (fun _ => []) loggedStore).1 = .error e := ⟨_, rfl⟩
  have vacant (s : Store) (hs : s.usages.rows = [revokedSeat] ∨ s.usages.rows = []) : Vacant "lic_1" s := by
    rcases hs with hs | hs <;> simp [Vacant, hs, revokedSeat]
  obtain ⟨s', ok, _⟩ := (h "" "lic_1" (fun _ => []) loggedStore).deletes rfl (vacant _ (.inl rfl)) (vacant _ (.inl rfl))
    (vacant _ (.inr rfl))
  obtain ⟨e, he⟩ := run
  rw [ok] at he
  cases he

end Sample

end Deletion

end Licensing
