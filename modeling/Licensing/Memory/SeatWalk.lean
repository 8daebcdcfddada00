import Licensing.Memory.KeyRotation

-- Registrations of seats, performed on the rows in memory, by the seats that there are.

namespace Licensing

namespace Go

open Memory Prog KeyRotation

variable {s : Store} {l : License} {licenseId fingerprint : String} {fuel : Nat}

-- What the operations that only list rows answer.
def answerOf (ω : Env) (s : Store) (o : Op) : o.Ans :=
  (execOp ω o s).1

def ListsSeats : Op → Prop
  | .tx (.listUsages _ _) => True
  | _                     => False

theorem execOp_listsSeats (ω ω' : Env) {o : Op} (h : ListsSeats o) : execOp ω o s = (answerOf ω' s o, s) := by
  cases o
  case tx o =>
    cases o
    case listUsages => rfl
    all_goals exact h.elim
  all_goals exact h.elim

-- The filter of `findActiveUsage`.
def seatOf (licenseId fingerprint : String) : LicenseUsageFilter where
  licenseId   := some licenseId
  fingerprint := some fingerprint
  status      := [.active]

-- A page of the rows that pass the filter, with the rows that follow the cursor.
theorem listUsages_pageAfter (filter : LicenseUsageFilter) (limit : Int) (cursor : String) :
    memory.listUsages filter { limit := limit, cursor := cursor } s.toState =
      pageAfter Go.cursors tupleOf (memory.limit limit) (s.usages.rows.filter filter.accepts)
        ((Go.cursors.decode cursor).map Go.cursors.keyOf) :=
  Memory.paginate_eq (@Cursors.nodup_keys _ tupleOf _ _ (s.usages.nodup.sublist (List.filter_sublist.map _))) cursor

theorem stamped_filter (stamped : Stamped tupleOf s.usages.rows) (p : LicenseUsage → Bool) :
    Stamped tupleOf (s.usages.rows.filter p) :=
  fun row hr => stamped row (List.mem_of_mem_filter hr)

theorem nodup_filter (p : LicenseUsage → Bool) :
    ((s.usages.rows.filter p).map (Go.cursors.keyOf ∘ tupleOf)).Nodup :=
  @Cursors.nodup_keys _ tupleOf _ _ (s.usages.nodup.sublist (List.filter_sublist.map _))

-- The keys of the rows in the order of the pages, and what of them a cursor leaves.
abbrev pageKey (u : LicenseUsage) : Cursors.Key :=
  Go.cursors.keyOf (tupleOf u)

def cursorKey (cursor : String) : Option Cursors.Key :=
  (Go.cursors.decode cursor).map Go.cursors.keyOf

-- A page holds all rows that are left, or its cursor leaves those that it does not hold.
theorem pageAfter_cases (rows : List LicenseUsage) (hs : Stamped tupleOf rows)
    (nd : (rows.map (Go.cursors.keyOf ∘ tupleOf)).Nodup) {limit : Nat} (hn : 0 < limit) (c : Option Cursors.Key) :
    ((pageAfter Go.cursors tupleOf limit rows c).cursor = "" ∧
      (pageAfter Go.cursors tupleOf limit rows c).items = Keyset.rest pageKey c rows) ∨
    ((pageAfter Go.cursors tupleOf limit rows c).cursor ≠ "" ∧
      (pageAfter Go.cursors tupleOf limit rows c).items = (Keyset.rest pageKey c rows).take limit ∧
      limit < (Keyset.rest pageKey c rows).length ∧
      Keyset.rest pageKey (cursorKey (pageAfter Go.cursors tupleOf limit rows c).cursor) rows =
        (Keyset.rest pageKey c rows).drop limit) := by
  by_cases hl : limit < (Keyset.rest pageKey c rows).length
  case neg =>
    exact .inl ⟨if_neg hl, List.take_of_length_le (Nat.le_of_not_lt hl)⟩
  case pos =>
    obtain ⟨row, hr, hc, hd⟩ := @cursor_pageAfter _ tupleOf Go.cursors rows limit c hs hn hl
    have next : cursorKey (Go.cursors.encode (tupleOf row)) = some (pageKey row) := by simp [cursorKey, hd]
    rw [hc, next]
    exact .inr ⟨encode_ne_empty hd, rfl, hl, Keyset.rest_drop nd hr⟩

-- The count goes on with the seats that follow the cursor.
theorem run_countActiveUsagesFrom (ω : Env) (stamped : Stamped tupleOf s.usages.rows) (fuel : Nat) (cursor : String)
    (count : Nat)
    (hf : (Keyset.rest pageKey (cursorKey cursor) (seats licenseId s.toState)).length < fuel) :
    (countActiveUsagesFrom licenseId fuel cursor count).run (answerOf ω s) =
      .ok (count + (Keyset.rest pageKey (cursorKey cursor) (seats licenseId s.toState)).length) := by
  induction fuel generalizing cursor count
  case zero => exact absurd hf (Nat.not_lt_zero _)
  case succ fuel ih =>
    have ha : answerOf ω s (.tx (.listUsages { licenseId := some licenseId, status := [.active] }
        { limit := 500, cursor := cursor })) =
        .ok (pageAfter Go.cursors tupleOf 500 (seats licenseId s.toState) (cursorKey cursor)) :=
      congrArg Except.ok (listUsages_pageAfter (activeOf licenseId) _ _)
    have cases := pageAfter_cases (seats licenseId s.toState) (stamped_filter stamped _) (nodup_filter _)
      (by decide : 0 < 500) (cursorKey cursor)
    rw [countActiveUsagesFrom, Tx.listUsages, Tx.perform, Prog.call_bind, Prog.run_call, ha]
    generalize pageAfter Go.cursors tupleOf 500 (seats licenseId s.toState) (cursorKey cursor) = page at cases
    dsimp only [Prog.pure_bind]
    obtain ⟨hc, hi⟩ | ⟨hc, hi, hl, hr⟩ := cases
    · simp [hc, hi]
    · have hd := List.length_drop (i := 500) (l := Keyset.rest pageKey (cursorKey cursor) (seats licenseId s.toState))
      rw [if_neg hc, ih _ _ (by rw [hr, hd]; omega), hr, hi, hd, List.length_take_of_le (Nat.le_of_lt hl),
        Nat.add_assoc, Nat.add_sub_cancel' (Nat.le_of_lt hl)]

theorem rest_first (rows : List LicenseUsage) :
    Keyset.rest pageKey (cursorKey "") rows = Keyset.sorted pageKey rows := by
  have hc : cursorKey "" = none := congrArg _ Go.cursors.decode_empty
  rw [hc]
  exact Keyset.rest_none

theorem run_countActiveUsages (ω : Env) (stamped : Stamped tupleOf s.usages.rows) (hf : s.usages.rows.length < fuel) :
    (countActiveUsages fuel licenseId).run (answerOf ω s) = .ok (seats licenseId s.toState).length := by
  have hl : (Keyset.rest pageKey (cursorKey "") (seats licenseId s.toState)).length =
      (seats licenseId s.toState).length := by
    rw [rest_first, Keyset.sorted_perm.length_eq]
  have hle : (seats licenseId s.toState).length ≤ s.usages.rows.length := List.length_filter_le _ _
  rw [countActiveUsages, run_countActiveUsagesFrom ω stamped fuel "" 0 (by omega), hl, Nat.zero_add]

theorem accepts_seatOf (u : LicenseUsage) :
    (seatOf licenseId fingerprint).accepts u = isActiveSeat licenseId fingerprint u := by
  simp [LicenseUsageFilter.accepts, seatOf, isActiveSeat, Bool.and_assoc, eq_comm]

-- The seat that is found is an active one of the device, and none is found only if there is none.
theorem run_findActiveUsage (ω : Env) (stamped : Stamped tupleOf s.usages.rows) (hf : 0 < fuel)
    (licenseId fingerprint : String) :
    ∃ existing, (findActiveUsage fuel licenseId fingerprint).run (answerOf ω s) = .ok existing ∧
      (∀ u, existing = some u → u ∈ s.usages.rows ∧ isActiveSeat licenseId fingerprint u) ∧
      (existing = none → ∀ u ∈ s.usages.rows, ¬isActiveSeat licenseId fingerprint u) := by
  obtain ⟨fuel, rfl⟩ := Nat.exists_eq_add_one.mpr hf
  let rows := s.usages.rows.filter (seatOf licenseId fingerprint).accepts
  have mem (u : LicenseUsage) (hu : u ∈ Keyset.rest pageKey (cursorKey "") rows) :
      u ∈ s.usages.rows ∧ isActiveSeat licenseId fingerprint u := by
    rw [rest_first, Keyset.sorted_perm.mem_iff, List.mem_filter, accepts_seatOf] at hu
    exact hu
  have ha : answerOf ω s (.tx (.listUsages
      { licenseId := some licenseId, fingerprint := some fingerprint, status := [.active] }
      { limit := 100, cursor := "" })) = .ok (pageAfter Go.cursors tupleOf 100 rows (cursorKey "")) :=
    congrArg Except.ok (listUsages_pageAfter (seatOf licenseId fingerprint) _ _)
  have cases := pageAfter_cases rows (stamped_filter stamped _) (nodup_filter _) (by decide : 0 < 100)
    (cursorKey "")
  rw [findActiveUsage, findActiveUsageFrom, Tx.listUsages, Tx.perform, Prog.call_bind, Prog.run_call, ha]
  generalize pageAfter Go.cursors tupleOf 100 rows (cursorKey "") = page at cases
  dsimp only [Prog.pure_bind]
  have items : ∀ u ∈ page.items, u ∈ Keyset.rest pageKey (cursorKey "") rows := by
    obtain ⟨-, hi⟩ | ⟨-, hi, -, -⟩ := cases
    · exact fun u hu => hi ▸ hu
    · exact fun u hu => List.mem_of_mem_take (hi ▸ hu)
  cases hu : page.items.find? (·.fingerprint = fingerprint)
  case some u =>
    refine ⟨some u, rfl, ?_, by simp⟩
    rintro _ ⟨⟩
    exact mem u (items u (List.mem_of_find?_eq_some hu))
  case none =>
    have empty : page.items = [] := by
      refine List.eq_nil_iff_forall_not_mem.mpr fun u hm => ?_
      have hne := List.find?_eq_none.mp hu u hm
      have hs := (mem u (items u hm)).right
      simp [isActiveSeat] at hs
      simp [hs] at hne
    obtain ⟨hc, hi⟩ | ⟨-, hi, hl, -⟩ := cases
    case inl =>
      refine ⟨none, by simp [hc], by simp, fun _ u hu hs => ?_⟩
      have hm : u ∈ Keyset.rest pageKey (cursorKey "") rows := by
        rw [rest_first, Keyset.sorted_perm.mem_iff, List.mem_filter, accepts_seatOf]
        exact ⟨hu, hs⟩
      rw [← hi, empty] at hm
      exact absurd hm List.not_mem_nil
    case inr =>
      have h := congrArg List.length (hi.symm.trans empty)
      rw [List.length_take_of_le (Nat.le_of_lt hl)] at h
      contradiction

def Usable (status : LicenseStatus) : Prop :=
  status = .active ∨ status = .pending ∨ status = .grace

theorem assertUsable_cases (l : License) : (Usable l.status ∧ assertUsable l = .pure ()) ∨
    (¬Usable l.status ∧ ∃ code message, assertUsable l = .throw (newError code message)) := by
  unfold assertUsable Usable
  cases l.status <;> simp

variable {input : RegisterUsageInput}

-- What becomes of the store, and of the caller, by the seats of the license.
inductive SeatOutcome (s : Store) (input : RegisterUsageInput) : Except Error RegisterUsageResult → Store → Prop
  | unknown {e : Error} (missing : s.licenses.find input.licenseId = none) : SeatOutcome s input (.error e) s
  | unusable {l : License} {e : Error} (row : s.licenses.find input.licenseId = some l)
      (status : ¬Usable l.status) : SeatOutcome s input (.error e) s
  | seated {l : License} {u : LicenseUsage} (row : s.licenses.find input.licenseId = some l)
      (usable : Usable l.status) (found : u ∈ s.usages.rows)
      (seat : isActiveSeat input.licenseId input.fingerprint u) :
    SeatOutcome s input (.ok ⟨u, l, false⟩) s
  | full {l : License} {message : String} (row : s.licenses.find input.licenseId = some l)
      (usable : Usable l.status)
      (free : ∀ u ∈ s.usages.rows, ¬isActiveSeat input.licenseId input.fingerprint u)
      (full : l.maxUsages ≤ (seats input.licenseId s.toState).length) :
    SeatOutcome s input (.error (newError .seatLimitExceeded message)) s
  | taken {l next : License} {u : LicenseUsage} {s' : Store} (row : s.licenses.find input.licenseId = some l)
      (usable : Usable l.status)
      (free : ∀ u ∈ s.usages.rows, ¬isActiveSeat input.licenseId input.fingerprint u)
      (room : (seats input.licenseId s.toState).length < l.maxUsages)
      (seat : isActiveSeat input.licenseId input.fingerprint u)
      (started : next = l ∧ l.status ≠ .pending ∨ l.status = .pending ∧ ∃ now clock, next =
        patchedLicense clock { status := some .active, activatedAt := some (some now) } l)
      (usages : s'.usages = s.usages.put u) (keys : s'.keys = s.keys) (scopes : s'.scopes = s.scopes) :
    SeatOutcome s input (.ok ⟨u, next, true⟩) s'

-- A seat is not refused if the device has none.
theorem createUsage_of_free (ω : Env) (usage : LicenseUsageInput) (active : usage.status = .active)
    (free : ∀ u ∈ s.usages.rows, ¬isActiveSeat usage.licenseId usage.fingerprint u) :
    ∃ u, execOp ω (.tx (.createUsage usage)) s = (.ok u, s.seated u) ∧
      isActiveSeat usage.licenseId usage.fingerprint u := by
  have hn : ¬(usage.status = .active ∧
      s.usages.rows.any (isActiveSeat usage.licenseId usage.fingerprint)) := by
    rw [List.any_eq_true]
    rintro ⟨-, u, hu, hs⟩
    exact free u hu hs
  simp only [execOp, onState, Port.exec, Memory.createUsage, if_neg hn]
  exact ⟨_, rfl, by simp [isActiveSeat, active]⟩

theorem insertSeat_taken (row : s.licenses.find input.licenseId = some l) (usable : Usable l.status)
    (free : ∀ u ∈ s.usages.rows, ¬isActiveSeat input.licenseId input.fingerprint u)
    (room : (seats input.licenseId s.toState).length < l.maxUsages) (count : Nat) (actor : Option String) :
    (insertSeat l input count actor).Wp execOp (fun _ _ => True) (SeatOutcome s input) s := by
  have hid : l.id = input.licenseId := Table.key_of_find row
  apply nowISO_bind
  intro now ω _
  obtain ⟨u, hc, seat⟩ := createUsage_of_free ω {
    licenseId    := input.licenseId
    fingerprint  := input.fingerprint
    status       := .active
    registeredAt := now
    clientMeta   := input.clientMeta } rfl free
  rw [hc]
  apply appendAudit_bind
  intro ω _
  apply Wp.ite
  case hq =>
    intro hp
    exact .taken row usable free room seat (.inl ⟨rfl, hp⟩) rfl rfl rfl
  case hp =>
    intro hp
    have ha : (activate l { actor := some (actor.getD "system") }).Wp execOp (fun _ _ => True) _
        ((s.seated u).logged (appended ω (seatAudit l u count actor now))) :=
      fn_wp (.activate _) (hid ▸ row : s.licenses.find l.id = some l)
    apply Wp.bind
    apply ha.mono
    intro r s' ho
    cases ho
    case refused now e hd => simp [LifecycleOp.decision, hp] at hd
    case idle now hd      => simp [LifecycleOp.decision, hp] at hd
    case changed since c next ω₁ ω₂ hd hn finds =>
      simp only [LifecycleOp.decision, hp, Except.ok.injEq, Option.some.injEq] at hd
      subst hd
      exact .taken row usable free room seat (.inr ⟨hp, since, ω₁.clock, hn⟩) rfl rfl rfl

-- A registration ends in one of these ways, whatever it finds.
theorem registerUsage_outcome (stamped : Stamped tupleOf s.usages.rows) (hf : s.usages.rows.length < fuel)
    (actor : Option String) :
    (registerUsage fuel input actor).Wp execOp (fun _ _ => True) (SeatOutcome s input) s := by
  apply getLicense_bind
  cases row : s.licenses.find input.licenseId
  case none   => exact .unknown row
  case some l =>
    obtain ⟨usable, ha⟩ | ⟨status, code, message, ha⟩ := assertUsable_cases l
    case inr =>
      simp only [ha]
      exact .unusable row status
    case inl =>
      obtain ⟨existing, he, found, free⟩ := run_findActiveUsage {} stamped (Nat.zero_lt_of_lt hf)
        input.licenseId input.fingerprint
      simp only [ha, Prog.pure_bind]
      apply Wp.bind
      apply Wp.of_calls (fun ω o => execOp_listsSeats ω {}) (findActiveUsageFrom_calls (fun _ => trivial) _ _)
      rw [← findActiveUsage, he]
      cases existing
      case some u => exact .seated row usable (found u rfl).left (found u rfl).right
      case none   =>
        have free := free rfl
        apply Wp.bind
        apply Wp.of_calls (fun ω o => execOp_listsSeats ω {}) (countActiveUsagesFrom_calls (fun _ => trivial) _ _ _)
        rw [← countActiveUsages, run_countActiveUsages {} stamped hf]
        apply Wp.ite
        case hp => exact fun hle => .full row usable free hle
        case hq => exact fun hlt => insertSeat_taken row usable free (Int.not_le.mp hlt) _ _

end Go

end Licensing
