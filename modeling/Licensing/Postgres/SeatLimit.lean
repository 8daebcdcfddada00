import Mathlib.Data.List.Perm.Subperm
import Licensing.Postgres.Registrations

-- How many active seats concurrent registrations commit.

namespace Licensing.Postgres

open Prog ReadCommitted

-- The active seats of a license.
def Tables.seats (db : Tables) (licenseId : String) : List UsageRow :=
  db.usages.filter fun u => u.licenseId = licenseId ∧ u.status = .active

def Tables.maxUsages? (db : Tables) (id : String) : Option Int :=
  (db.license? id).map LicenseRow.maxUsages

-- Every active seat that is committed when a transaction is granted the row lock on the license is
-- among those that the transaction has counted.
def countedSeats (s : Store) (seen : Nat → Trace) (t : Nat) : Session → Bool
  | .stmt (.selectLicenseForUpdate id) =>
    ((s.committed.seats id).map UsageRow.id).isSubperm (((seen t).counted id).map UsageRow.id)
  | _ => true

theorem countedSeats_length {s : Store} {seen : Nat → Trace} {id : String}
    (h : countedSeats s seen t (.stmt (.selectLicenseForUpdate id))) :
    (s.committed.seats id).length ≤ ((seen t).counted id).length := by
  have h := (List.isSubperm_iff.mp h).length_le
  simpa using h

section Writes

variable {cfg : Config} {ω : Env} {db db₀ : Tables} {ws : List Write}

-- The seats that writes add to a license.
def Write.seats (licenseId : String) : Write → List UsageRow
  | .insertUsage row => [row].filter fun u => u.licenseId = licenseId ∧ u.status = .active
  | _                => []

-- Writes that change neither the limit of a license nor an existing seat.
def Write.Keeps (db : Tables) : Write → Prop
  | .putLicense row => db.maxUsages? row.id = some row.maxUsages
  | .putUsage _     => False
  | _               => True

theorem maxUsages?_apply {w : Write} (h : ∀ id, db.maxUsages? id = db₀.maxUsages? id)
    (hw : w.Keeps db₀) (id : String) : (apply db w).maxUsages? id = db₀.maxUsages? id := by
  cases w
  case putLicense row =>
    by_cases hid : row.id = id
    case neg =>
      rw [← h id]
      simp only [Tables.maxUsages?, Tables.license?, apply]
      rw [Rows.find_replace_of_ne hid]
    case pos =>
      subst hid
      have hm : db₀.maxUsages? row.id = some row.maxUsages := hw
      obtain ⟨r, hr, _⟩ := Option.map_eq_some_iff.mp ((h row.id).trans hm)
      rw [hm]
      simp only [Tables.maxUsages?, Tables.license?, apply]
      rw [Rows.find_replace_self hr]
      rfl
  all_goals exact h id

theorem maxUsages?_foldl (hw : ∀ w ∈ ws, w.Keeps db₀) (h : ∀ id, db.maxUsages? id = db₀.maxUsages? id)
    (id : String) : (ws.foldl apply db).maxUsages? id = db₀.maxUsages? id := by
  induction ws generalizing db
  case nil => exact h id
  case cons w ws ih =>
    have hw := List.forall_mem_cons.mp hw
    exact ih hw.right (maxUsages?_apply h hw.left)

theorem seats_foldl (hw : ∀ w ∈ ws, w.Keeps db₀) (id : String) :
    (ws.foldl apply db).seats id = db.seats id ++ ws.flatMap (Write.seats id) := by
  induction ws generalizing db
  case nil => simp
  case cons w ws ih =>
    have hw := List.forall_mem_cons.mp hw
    rw [List.foldl_cons, ih hw.right, List.flatMap_cons, ← List.append_assoc]
    congr 1
    cases w
    case insertUsage row => exact List.filter_append ..
    case putUsage row => exact hw.left.elim
    all_goals exact (List.append_nil _).symm

end Writes

section Invariant

variable {cfg : Config} {db : Tables} {s s' : Store} {t t' : Nat} {h : Trace}

def Tables.HasRoom (db : Tables) (limit : Option Int) (licenseId : String) (n : Nat) : Prop :=
  ∀ m, limit = some m → ((db.seats licenseId).length + n : Int) ≤ m

-- What holds of a registration between any two statements: a seat is added only by a transaction
-- that holds the row lock of the license, and the lock is granted only where there is room for it.
structure Registering (db : Tables) (s : Store) (t : Nat) (h : Trace) : Prop where
  read     : ∀ id r, h.Read id r → db.maxUsages? id = some r.maxUsages
  keeps    : ∀ w ∈ s.pending t, w.Keeps db
  inserted : ∀ r, .insertUsage r ∈ s.pending t →
    h.Inserted ∧ s.locked (.license r.licenseId) = some t
  granted  : ∀ id, h.Open → h.Granted id → s.locked (.license id) = some t ∧
    (¬h.Inserted → s.committed.HasRoom (db.maxUsages? id) id 1)
  room     : ∀ id, s.committed.HasRoom (db.maxUsages? id) id
    ((s.pending t).flatMap (Write.seats id)).length

structure WithinLimit (cfg : Config) (db : Tables) (s : Store) (seen : Nat → Trace) : Prop where
  locked      : (engine cfg).WriteLocked s
  limits      : ∀ id, s.committed.maxUsages? id = db.maxUsages? id
  registering : ∀ t, Registering db s t (seen t)

namespace Registering

theorem initial (hdb : ∀ id, db.HasRoom (db.maxUsages? id) id 0) (t : Nat) :
    Registering db (.initial db) t [] where
  read _ _ h      := nomatch h
  keeps _ h       := nomatch h
  inserted _ h    := nomatch h
  granted _ _ h   := nomatch h
  room            := hdb

-- A transaction adds no seats to a license whose row lock it does not hold.
theorem seats_pending (rg : Registering db s t h) {id : String}
    (hl : s.locked (.license id) ≠ some t) : (s.pending t).flatMap (Write.seats id) = [] := by
  refine List.flatMap_eq_nil_iff.mpr fun w hw => ?_
  cases w
  case insertUsage r =>
    refine List.filter_eq_nil_iff.mpr fun u hu hid => hl ?_
    rw [List.mem_singleton.mp hu] at hid
    have hid : r.licenseId = id := (of_decide_eq_true hid).left
    exact hid ▸ (rg.inserted r hw).right
  all_goals rfl

theorem seats_view (rg : Registering db s t h) (id : String) :
    ((engine cfg).view t s).seats id =
      s.committed.seats id ++ (s.pending t).flatMap (Write.seats id) :=
  seats_foldl rg.keeps id

theorem committed_room {o : Session} {a : o.Ans} (rg : Registering db s t h)
    (e : (engine cfg).Effect t s o a s') (id : String) :
    s'.committed.HasRoom (db.maxUsages? id) id 0 := by
  intro m hm
  have room := rg.room id m hm
  cases e
  case commit =>
    have hs : ((engine cfg).commit t s).committed.seats id = _ := rg.seats_view id
    rw [hs, List.length_append]
    push_cast
    simpa using room
  all_goals exact (Int.add_le_add_left (Int.natCast_nonneg _) _).trans room

-- A step of another transaction.
theorem other {h' : Trace} {o : Session} {a : o.Ans} (rg : Registering db s t h)
    (rg' : Registering db s t' h') (ht : t' ≠ t) (e : (engine cfg).Effect t s o a s') :
    Registering db s' t' h' := by
  have pending : s'.pending t' = s.pending t' := e.pending_of_ne ht
  have seats {id} (hl : s.locked (.license id) = some t') :
      s'.committed.seats id = s.committed.seats id := by
    cases e
    case commit =>
      have hn := rg.seats_pending fun h => ht (Option.some.inj (hl.symm.trans h))
      exact (rg.seats_view id).trans (hn ▸ List.append_nil _)
    all_goals rfl
  refine ⟨rg'.read, pending ▸ rg'.keeps, fun r hr => ?_, fun id ho hg => ?_, fun id m hm => ?_⟩
  case refine_1 =>
    have ⟨hi, hl⟩ := rg'.inserted r (pending ▸ hr)
    exact ⟨hi, e.locked_of_ne ht hl⟩
  case refine_2 =>
    have ⟨hl, room⟩ := rg'.granted id ho hg
    refine ⟨e.locked_of_ne ht hl, fun hi m hm => ?_⟩
    rw [seats hl]
    exact room hi m hm
  case refine_3 =>
    rw [pending]
    by_cases hl : s.locked (.license id) = some t'
    case pos =>
      rw [seats hl]
      exact rg'.room id m hm
    case neg =>
      rw [rg'.seats_pending hl]
      exact rg.committed_room e id m hm

theorem ended {o : Session} {a : o.Ans} (rg : Registering db s t h)
    (e : (engine cfg).Effect t s o a s') (ho : ∀ q, o ≠ .stmt q) :
    Registering db s' t (⟨o, s, a⟩ :: h) := by
  have pending : s'.pending t = [] := by
    cases e
    case stmt q _ _ => exact absurd rfl (ho q)
    all_goals exact Function.update_self ..
  refine ⟨fun id r ⟨s, hr⟩ => ?_, ?_, ?_, fun id op _ => ?_, fun id => ?_⟩
  · refine rg.read id r ⟨s, (List.mem_cons.mp hr).resolve_left fun he => ?_⟩
    exact ho _ (congrArg Event.op he).symm
  · exact fun _ hw => nomatch pending ▸ hw
  · exact fun _ hr => nomatch pending ▸ hr
  · have ⟨q, hq⟩ := op _ List.mem_cons_self
    exact absurd hq (ho q)
  · rw [pending]
    exact rg.committed_room e id

end Registering

namespace WithinLimit

variable {seen : Nat → Trace}

theorem initial (hdb : ∀ id, db.HasRoom (db.maxUsages? id) id 0) :
    WithinLimit cfg db (.initial db) fun _ => [] where
  locked      := .initial db
  limits _    := rfl
  registering := .initial hdb

theorem maxUsages?_view (wl : WithinLimit cfg db s seen) (t : Nat) (id : String) :
    ((engine cfg).view t s).maxUsages? id = db.maxUsages? id :=
  maxUsages?_foldl (wl.registering t).keeps wl.limits id

section Stmt

variable {q : Stmt} {ω : Env}

-- What a transaction reads is the limit that the license has had all along.
theorem read (wl : WithinLimit cfg db s seen) (id : String) (r : LicenseRow)
    (hr : Trace.Read (⟨.stmt q, s, (exec cfg q ω ((engine cfg).view t s)).1⟩ :: seen t) id r) :
    db.maxUsages? id = some r.maxUsages := by
  have ⟨s', hr⟩ := hr
  cases List.mem_cons.mp hr
  case inr hr => exact (wl.registering t).read id r ⟨s', hr⟩
  case inl he =>
    generalize ha : (exec cfg q ω ((engine cfg).view t s)).1 = a at he
    cases he
    have hl := congrArg (·.1) (Except.ok.inj (answer_ok ha))
    have hv : ((engine cfg).view t s).license? id = some r := hl
    rw [← wl.maxUsages?_view t id, Tables.maxUsages?, hv]
    rfl

theorem keeps (wl : WithinLimit cfg db s seen) (may : (seen t).MayRegister (.stmt q))
    {a : q.Res} {w : Write} : Wrote cfg ω ((engine cfg).view t s) q a w → w.Keeps db
  | @Wrote.updateLicense _ _ _ id set r r' row updated _ => by
    have hm : set.maxUsages = none := may.right
    have hid : r'.id = id := (updatedLicense_id updated).trans (Tables.id_of_license? row)
    have hmax : r'.maxUsages = r.maxUsages := by rw [updatedLicense_maxUsages updated, hm]; rfl
    show db.maxUsages? r'.id = some r'.maxUsages
    rw [hid, hmax, ← wl.maxUsages?_view t id, Tables.maxUsages?, row]
    rfl
  | .insertUsage _ _  => trivial
  | .updateUsage _ _  => may.right.elim
  | .insertAudit _    => trivial

theorem inserted (wl : WithinLimit cfg db s seen) (may : (seen t).MayRegister (.stmt q))
    {a : q.Res} {r : UsageRow} : Wrote cfg ω ((engine cfg).view t s) q a (.insertUsage r) →
    ¬(seen t).Inserted ∧ s.locked (.license r.licenseId) = some t ∧
      s.committed.HasRoom (db.maxUsages? r.licenseId) r.licenseId 1
  | @Wrote.insertUsage _ _ _ v _ ins _ => by
    have ⟨ho, fresh, hg, _⟩ := may
    have hid : r.licenseId = v.licenseId := (insertedUsage_eq ins).right.left
    have ⟨hl, room⟩ := (wl.registering t).granted v.licenseId ho hg
    exact hid ▸ ⟨fresh, hl, room fresh⟩

-- The row lock is granted where there is room, because all committed seats have been counted.
theorem granted (wl : WithinLimit cfg db s seen) {id : String}
    (may : (seen t).MayRegister (.stmt (.selectLicenseForUpdate id)))
    (counted : countedSeats s seen t (.stmt (.selectLicenseForUpdate id))) :
    .license id ∈ locks (.selectLicenseForUpdate id) ((engine cfg).view t s) ∧
      s.committed.HasRoom (db.maxUsages? id) id 1 := by
  have ⟨_, _, r, hr, hn⟩ := may
  have hm := (wl.registering t).read id r hr
  have hc := countedSeats_length counted
  refine ⟨?_, fun m h => ?_⟩
  case refine_1 =>
    have hv := (wl.maxUsages?_view t id).trans hm
    have ⟨_, hv, _⟩ := Option.map_eq_some_iff.mp hv
    simp [locks, hv]
  case refine_2 =>
    have hm : m = r.maxUsages := Option.some.inj (h.symm.trans hm)
    omega

theorem room (wl : WithinLimit cfg db s seen) (may : (seen t).MayRegister (.stmt q)) {a : q.Res}
    {w : Write} (wr : Wrote cfg ω ((engine cfg).view t s) q a w) (id : String) :
    s.committed.HasRoom (db.maxUsages? id) id ((s.pending t ++ [w]).flatMap (Write.seats id)).length := by
  have rg := wl.registering t
  rw [List.flatMap_append, List.flatMap_singleton]
  cases w
  case insertUsage r =>
    have ⟨fresh, _, room⟩ := wl.inserted may wr
    by_cases hid : r.licenseId = id
    case neg => simpa [Write.seats, hid] using rg.room id
    case pos =>
      -- The transaction has not added a seat before.
      have hz : (s.pending t).flatMap (Write.seats id) = [] := by
        refine List.flatMap_eq_nil_iff.mpr fun w hw => ?_
        cases w
        case insertUsage r' => exact absurd (rg.inserted r' hw).left fresh
        all_goals rfl
      subst hid
      have hle : (Write.seats r.licenseId (.insertUsage r)).length ≤ 1 :=
        (List.length_filter_le _ _ :)
      intro m hm
      have := room m hm
      rw [hz, List.nil_append]
      omega
  all_goals exact (List.append_nil _).symm ▸ rg.room id

theorem stmt (wl : WithinLimit cfg db s seen) (may : (seen t).MayRegister (.stmt q))
    (counted : countedSeats s seen t (.stmt q))
    (free : Engine.blocked t (locks q ((engine cfg).view t s)) s = false) :
    Registering db (Engine.write t (locks q ((engine cfg).view t s))
      (exec cfg q ω ((engine cfg).view t s)).2 s) t
      (⟨.stmt q, s, (exec cfg q ω ((engine cfg).view t s)).1⟩ :: seen t) := by
  have rg := wl.registering t
  have pending : (Engine.write t (locks q ((engine cfg).view t s))
      (exec cfg q ω ((engine cfg).view t s)).2 s).pending t =
        s.pending t ++ (exec cfg q ω ((engine cfg).view t s)).2 := Function.update_self ..
  refine ⟨wl.read, fun w hw => ?_, fun r hr => ?_, fun id _ ⟨s', hg⟩ => ?_, fun id => ?_⟩
  case refine_1 =>
    rw [pending] at hw
    exact (List.mem_append.mp hw).elim (rg.keeps w) fun hw => wl.keeps may (exec_wrote hw)
  case refine_2 =>
    rw [pending] at hr
    cases List.mem_append.mp hr
    case inl hr =>
      have ⟨⟨e, he, hv⟩, hl⟩ := rg.inserted r hr
      exact ⟨⟨e, List.mem_cons_of_mem _ he, hv⟩, Engine.locked_write free hl _⟩
    case inr hr =>
      have wr := exec_wrote hr
      have ⟨_, hl, _⟩ := wl.inserted may wr
      refine ⟨⟨_, List.mem_cons_self, ?_⟩, Engine.locked_write free hl _⟩
      generalize (exec cfg q ω ((engine cfg).view t s)).1 = a at wr ⊢
      cases wr
      exact ⟨_, rfl⟩
  case refine_3 =>
    cases List.mem_cons.mp hg
    case inl he =>
      have hq := ReadCommitted.Op.stmt.inj (congrArg Event.op he)
      subst hq
      have ⟨hl, room⟩ := wl.granted may counted
      exact ⟨if_pos hl, fun _ => room⟩
    case inr hg =>
      have ⟨hl, room⟩ := rg.granted id may.left ⟨s', hg⟩
      refine ⟨Engine.locked_write free hl _, fun hi => room fun ⟨e, he, hv⟩ => hi ?_⟩
      exact ⟨e, List.mem_cons_of_mem _ he, hv⟩
  case refine_4 =>
    rw [pending]
    cases exec_writes cfg ω ((engine cfg).view t s) q
    case inl hn => exact hn ▸ (List.append_nil (s.pending t)).symm ▸ rg.room id
    case inr hw =>
      have ⟨w, hw, wr⟩ := hw
      exact hw ▸ wl.room may wr id

end Stmt

theorem step {o : Session} {a : o.Ans} (wl : WithinLimit cfg db s seen)
    (may : (seen t).MayRegister o) (counted : countedSeats s seen t o)
    (e : (engine cfg).Effect t s o a s') :
    WithinLimit cfg db s' (Function.update seen t (⟨o, s, a⟩ :: seen t)) where
  locked := wl.locked.effect e
  limits id := by
    cases e
    case commit => exact wl.maxUsages?_view t id
    all_goals exact wl.limits id
  registering t' := by
    by_cases ht : t' = t
    case neg =>
      rw [Function.update_of_ne ht]
      exact (wl.registering t).other (wl.registering t') ht e
    case pos =>
      subst ht
      rw [Function.update_self]
      cases o
      case stmt =>
        cases e
        case stmt free => exact wl.stmt may counted free
      case commit   => exact (wl.registering t').ended e fun _ => nofun
      case rollback => exact (wl.registering t').ended e fun _ => nofun

end WithinLimit

end Invariant

section Runs

variable {cfg : Config} {db : Tables} {rs : Nat → Registration} {c : Sessions}

-- As long as every seat that is committed when the row lock on a license is granted has been counted,
-- no more seats are committed than the license has.
theorem counted_seats_within_limit
    (hdb : ∀ id m, db.maxUsages? id = some m → ((db.seats id).length : Int) ≤ m)
    (run : Threads.Run (engine cfg).step countedSeats (registrations db rs) c) (id : String) (m : Int)
    (hm : c.shared.committed.maxUsages? id = some m) :
    ((c.shared.committed.seats id).length : Int) ≤ m := by
  have initial : WithinLimit cfg db (.initial db) fun _ => [] := .initial fun id m hm => by
    simpa using hdb id m hm
  have ⟨wl, _⟩ := run.invariant (WithinLimit cfg db) (fun t => registration_obeys (rs t)) initial
    fun wl may counted h => wl.step may counted (Engine.step_effect h)
  have room := (wl.registering 0).room id m (wl.limits id ▸ hm)
  omega

end Runs

-- Two devices register at the same time, one through each port.
def registerDevice (t : Nat) : Registration where
  port  := if t = 0 then .go else .ts
  fuel  := 1
  input := {
    licenseId   := activeLicense.id
    fingerprint := String.ofList (List.replicate (t + 1) 'f')
    clientMeta  := [] }
  actor := none

def turns (t : Nat) (n : Nat) : List (Nat × Env) :=
  List.replicate n (t, {
    now     := 1776074400000000
    clock   := "2026-04-13T10:00:00Z"
    freshId := registerDevice t |>.input.fingerprint })

-- A registration that starts after the other one finds the seat taken.
theorem later_registration_within_limit :
    ∃ c : Sessions,
      Threads.Run (engine rfc3339).step countedSeats
        (registrations { licenses := [activeLicense] } registerDevice) c ∧
      c.shared.committed.maxUsages? activeLicense.id = some 1 ∧
      ((c.shared.committed.seats activeLicense.id).length : Int) ≤ 1 := by
  have h : ((registrations { licenses := [activeLicense] } registerDevice).run (engine rfc3339).step
      countedSeats (turns 0 10 ++ turns 1 4)).isSome := by rfl
  have run := Threads.Run.of_isSome h
  have hm : (Option.get _ h).shared.committed.maxUsages? activeLicense.id = some 1 := by rfl
  refine ⟨_, run, hm, counted_seats_within_limit (fun id m hm => ?_) run activeLicense.id 1 hm⟩
  have ⟨r, hr, hm⟩ := Option.map_eq_some_iff.mp hm
  have hr : r = activeLicense := List.mem_singleton.mp (Rows.mem_of_find hr)
  subst hr
  show ((0 : Nat) : Int) ≤ m
  exact hm ▸ (by decide)

-- Two registrations that count the seats before either takes the lock both take the last seat.
theorem registrations_exceed_limit :
    ¬∀ (rs : Nat → Registration) (c : Sessions) (id : String) (m : Int),
      (∀ t t', t ≠ t' → (rs t).input.fingerprint ≠ (rs t').input.fingerprint) →
      Threads.Run (engine rfc3339).step (fun _ _ _ _ => true)
        (registrations { licenses := [activeLicense] } rs) c →
      c.shared.committed.maxUsages? id = some m →
      ((c.shared.committed.seats id).length : Int) ≤ m := by
  intro h
  have hr : ((registrations { licenses := [activeLicense] } registerDevice).run (engine rfc3339).step
      (fun _ _ _ _ => true) (turns 0 4 ++ turns 1 4 ++ turns 0 6 ++ turns 1 6)).isSome := by rfl
  have distinct (t t' : Nat) (ht : t ≠ t') :
      (registerDevice t).input.fingerprint ≠ (registerDevice t').input.fingerprint := by
    intro hf
    have hl := congrArg String.length hf
    simp [registerDevice] at hl
    exact ht hl
  have hle := h registerDevice _ activeLicense.id 1 distinct (.of_isSome hr) (by rfl)
  have hs : ((Option.get _ hr).shared.committed.seats activeLicense.id).length = 2 := by rfl
  rw [hs] at hle
  exact absurd hle (by decide)

end Licensing.Postgres
