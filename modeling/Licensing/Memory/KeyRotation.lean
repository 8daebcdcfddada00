import Licensing.Memory.Transitions
import Licensing.Sqlite.Pages

-- Rotations of a license key in the adapters that keep the rows in memory. The seats are revoked while the
-- pages of active seats are followed, so that a page shows its rows for the last time.

namespace Licensing

namespace KeyRotation

open Memory Prog

def tupleOf (u : LicenseUsage) : CursorTuple :=
  ⟨u.createdAt, u.id⟩

def activeOf (licenseId : String) : LicenseUsageFilter where
  licenseId := some licenseId
  status    := [.active]

-- The active seats of a license.
def seats (licenseId : String) (s : State) : List LicenseUsage :=
  s.usages.rows.filter (activeOf licenseId).accepts

-- In the order of the pages.
def inOrder (port : Port) (licenseId : String) (s : State) : List LicenseUsage :=
  Keyset.sorted (port.cursors.keyOf ∘ tupleOf) (seats licenseId s)

-- A page is never empty, and a cursor is read back as what it was made of or, where that was not
-- complete, as none.
structure Paged (port : Port) : Prop where
  limit  : 0 < port.limit 500
  encode : ∀ t, port.cursors.encode t ≠ ""
  decode : ∀ t, port.cursors.decode (port.cursors.encode t) = none ∨
    port.cursors.decode (port.cursors.encode t) = some t

theorem paged_go : Paged Go.memory where
  limit    := by decide
  encode t := encode_cursorJson_ne Go.escape t
  decode t := by
    change Go.decodeCursor (Go.encodeCursor t) = none ∨ Go.decodeCursor (Go.encodeCursor t) = some t
    rw [Go.decodeCursor_encodeCursor_eq]
    split
    case isTrue  => exact .inl rfl
    case isFalse => exact .inr rfl

theorem paged_ts : Paged Ts.memory where
  limit    := by decide
  encode t := encode_cursorJson_ne Ts.escape t
  decode t := by
    have decodes : Ts.memory.cursors.decode = Ts.decodeCursor := rfl
    have encodes : Ts.memory.cursors.encode = Ts.encodeCursor := rfl
    rw [decodes, encodes, Ts.decodeCursor_encodeCursor]
    exact .inr rfl

-- Some seats are revoked, and nothing else is different.
structure Vacated (s s' : State) (gone : List String) : Prop where
  frame : s' = { s with usages := s'.usages }
  found : ∀ k, (s'.usages.find k).isSome = (s.usages.find k).isSome
  rows  : ∀ k ∉ gone, s'.usages.find k = s.usages.find k
  seats : ∀ id, seats id s' = (seats id s).filter fun u => u.id ∉ gone

section Vacated

variable {s s' s'' : State} {gone gone' : List String} {licenseId : String} {u : LicenseUsage}

theorem mem_seats : u ∈ seats licenseId s ↔ u ∈ s.usages.rows ∧ u.licenseId = licenseId ∧ u.status = .active := by
  simp [seats, activeOf, LicenseUsageFilter.accepts, eq_comm (a := licenseId)]

theorem nodup_seats : ((seats licenseId s).map LicenseUsage.id).Nodup :=
  s.usages.nodup.sublist (List.filter_sublist.map _)

theorem Vacated.refl : Vacated s s [] where
  frame      := rfl
  found _    := rfl
  rows _ _   := rfl
  seats id   := by simp

theorem Vacated.trans (v : Vacated s s' gone) (v' : Vacated s' s'' gone') : Vacated s s'' (gone ++ gone') where
  frame := by
    rw [v'.frame, v.frame]
  found k := (v'.found k).trans (v.found k)
  rows k hk := by
    rw [List.mem_append, not_or] at hk
    exact (v'.rows k hk.right).trans (v.rows k hk.left)
  seats id := by
    rw [v'.seats, v.seats, List.filter_filter]
    congr 1
    funext u
    simp [not_or, Bool.and_comm]

theorem Vacated.replace {next : LicenseUsage} (h : s.usages.find next.id = some u) (hr : next.status = .revoked) :
    Vacated s { s with usages := s.usages.replace next } [next.id] where
  frame := rfl
  found k := by
    rw [Table.find_replace h]
    split
    case isTrue hk => rw [hk, h]; rfl
    case isFalse   => rfl
  rows k hk := by
    rw [Table.find_replace h, if_neg (by simpa using hk)]
  seats id := by
    have hn : (activeOf id).accepts next = false := by simp [activeOf, LicenseUsageFilter.accepts, hr]
    have hf : (Rows.replace LicenseUsage.id next s.usages.rows).filter (activeOf id).accepts = _ :=
      Rows.filter_replace hn
    rw [KeyRotation.seats, KeyRotation.seats, List.filter_filter]
    refine hf.trans (List.filter_congr fun r _ => ?_)
    simp [Bool.and_comm]

end Vacated

def revocation (now : String) : LicenseUsagePatch where
  status    := some .revoked
  revokedAt := some (some now)

section Run

variable {port : Port} {may : Env → State → Prop} {s : State} {licenseId now : String}

theorem revokeSeat_wp {u : LicenseUsage} (h : (s.usages.find u.id).isSome) {α : Type} {next : LicenseUsage → Tx α}
    {post : Except Error α → State → Prop}
    (hn : ∀ row s', Vacated s s' [u.id] → (next row).Wp port.exec may post s') :
    (Tx.updateUsage u.id (revocation now) >>= next).Wp port.exec may post s := by
  intro ω _
  obtain ⟨cur, hc⟩ := Option.isSome_iff_exists.mp h
  have hk : cur.id = u.id := Table.key_of_find hc
  have he : port.exec ω (.tx (.updateUsage u.id (revocation now))) s =
      (.ok (patchedUsage ω.clock (revocation now) cur),
        { s with usages := s.usages.replace (patchedUsage ω.clock (revocation now) cur) }) := by
    simp [Port.exec, updateUsage, getUsage, hc, revocation]
  rw [he]
  apply hn
  have v : Vacated s _ [(patchedUsage ω.clock (revocation now) cur).id] := Vacated.replace (hk.symm ▸ hc) rfl
  exact hk ▸ v

theorem revokeSeats_wp {us : List LicenseUsage} (h : ∀ u ∈ us, (s.usages.find u.id).isSome) (revoked : List String) :
    (revokeSeats now us revoked).Wp port.exec may
      (fun r s' => r = .ok (revoked ++ us.map LicenseUsage.id) ∧ Vacated s s' (us.map LicenseUsage.id)) s := by
  induction us generalizing s revoked
  case nil => exact ⟨by simp, .refl⟩
  case cons u us ih =>
    apply revokeSeat_wp (h u (.head _))
    intro row s' v
    have h' : ∀ u ∈ us, (s'.usages.find u.id).isSome := fun u hu => (v.found u.id).trans (h u (.tail _ hu))
    apply (ih h' (revoked ++ [u.id])).mono
    rintro r s'' ⟨rfl, v'⟩
    exact ⟨by simp, v.trans v'⟩

theorem nodup_keys : ((seats licenseId s).map (port.cursors.keyOf ∘ tupleOf)).Nodup :=
  @Cursors.nodup_keys _ tupleOf _ _ nodup_seats

theorem listUsages_eq (cursor : String) :
    port.listUsages (activeOf licenseId) { limit := 500, cursor := cursor } s =
      pageAfter port.cursors tupleOf (port.limit 500) (seats licenseId s)
        ((port.cursors.decode cursor).map port.cursors.keyOf) :=
  Memory.paginate_eq nodup_keys cursor

-- The page has the first seats that are left. It is the last one, or its cursor is the one of its last seat.
inductive Shows (port : Port) (licenseId : String) (s : State) : Page LicenseUsage → Prop
  | last {page : Page LicenseUsage} (items : page.items = inOrder port licenseId s) (cursor : page.cursor = "") :
    Shows port licenseId s page
  | more {page : Page LicenseUsage} {u : LicenseUsage} (cursor : page.cursor = port.cursors.encode (tupleOf u))
      (items : page.items = (inOrder port licenseId s).take (port.limit 500))
      (getLast : page.items.getLast? = some u) :
    Shows port licenseId s page

theorem shows_pageAfter (paged : Paged port) {c : Option Cursors.Key}
    (hc : ∀ u ∈ seats licenseId s, Keyset.isAfter (port.cursors.keyOf ∘ tupleOf) c u) :
    Shows port licenseId s (pageAfter port.cursors tupleOf (port.limit 500) (seats licenseId s) c) := by
  have hr : Keyset.rest (port.cursors.keyOf ∘ tupleOf) c (seats licenseId s) = inOrder port licenseId s :=
    Keyset.rest_of_forall hc
  rw [pageAfter, hr]
  by_cases hl : port.limit 500 < (inOrder port licenseId s).length
  case pos =>
    obtain ⟨u, hu⟩ := Keyset.exists_getLast?_take paged.limit hl
    exact .more (by simp [hl, hu]) rfl hu
  case neg => exact .last (List.take_of_length_le (Nat.le_of_not_lt hl)) (by simp [hl])

-- The seats that are left come after the cursor, and with every page they are fewer.
theorem revokeSeatsFrom_wp (paged : Paged port) (fuel : Nat) (cursor : String) (revoked : List String)
    (hf : (seats licenseId s).length < fuel)
    (hc : ∀ u ∈ seats licenseId s, Keyset.isAfter (port.cursors.keyOf ∘ tupleOf)
      ((port.cursors.decode cursor).map port.cursors.keyOf) u) :
    (revokeSeatsFrom licenseId now fuel cursor revoked).Wp port.exec may
      (fun r s' => r = .ok (revoked ++ (inOrder port licenseId s).map LicenseUsage.id) ∧
        Vacated s s' ((inOrder port licenseId s).map LicenseUsage.id)) s := by
  induction fuel generalizing s cursor revoked
  case zero => simp at hf
  case succ fuel ih =>
    intro ω _
    have hp : port.exec ω (.tx (.listUsages (activeOf licenseId) { limit := 500, cursor := cursor })) s =
        (.ok (pageAfter port.cursors tupleOf (port.limit 500) (seats licenseId s)
          ((port.cursors.decode cursor).map port.cursors.keyOf)), s) := by
      rw [Port.exec, listUsages_eq]
    have shows := shows_pageAfter paged hc
    rw [activeOf] at hp
    rw [hp]
    generalize pageAfter port.cursors tupleOf (port.limit 500) (seats licenseId s) _ = page at shows
    have held : ∀ u ∈ page.items, (s.usages.find u.id).isSome := by
      intro u hu
      have hm : u ∈ inOrder port licenseId s := by
        cases shows
        case last items _   => exact items ▸ hu
        case more _ items _ => exact List.mem_of_mem_take (items ▸ hu)
      have hs : u ∈ s.usages.rows := (mem_seats.mp (Keyset.sorted_perm.mem_iff.mp hm)).left
      rw [Table.find_of_mem hs]
      rfl
    change (revokeSeats now page.items revoked >>= _).Wp port.exec may _ s
    apply Wp.bind
    apply (revokeSeats_wp held revoked).mono
    rintro r s' ⟨rfl, v⟩
    cases shows
    case last items last =>
      simp only [last, if_true]
      exact ⟨by rw [items], items ▸ v⟩
    case more u more items getLast =>
      have hne : page.cursor ≠ "" := more ▸ paged.encode _
      have left : inOrder port licenseId s' = (inOrder port licenseId s).drop (port.limit 500) := by
        rw [inOrder, v.seats, items]
        exact Keyset.sorted_removed nodup_keys nodup_seats _
      have fewer : (seats licenseId s').length < fuel := by
        have hl : (seats licenseId s').length = (inOrder port licenseId s').length :=
          Keyset.sorted_perm.length_eq.symm
        have hs : (inOrder port licenseId s).length = (seats licenseId s).length := Keyset.sorted_perm.length_eq
        have he : inOrder port licenseId s ≠ [] := by
          rintro h
          simp [items, h] at getLast
        have := paged.limit
        have := List.length_pos_iff.mpr he
        rw [hl, left, List.length_drop]
        omega
      have after : ∀ b ∈ seats licenseId s', Keyset.isAfter (port.cursors.keyOf ∘ tupleOf)
          ((port.cursors.decode page.cursor).map port.cursors.keyOf) b := by
        intro b hb
        rw [v.seats, List.mem_filter, decide_eq_true_eq, items] at hb
        rw [more]
        rcases paged.decode (tupleOf u) with hd | hd
        case inl => rw [hd]; rfl
        case inr =>
          rw [hd]
          exact Keyset.isAfter_removed nodup_keys (items ▸ getLast) hb.left hb.right
      simp only [hne, if_false]
      apply (ih page.cursor _ fewer after).mono
      rintro r s'' ⟨rfl, v'⟩
      have all : page.items.map LicenseUsage.id ++ (inOrder port licenseId s').map LicenseUsage.id =
          (inOrder port licenseId s).map LicenseUsage.id := by
        rw [left, items, ← List.map_append, List.take_append_drop]
      exact ⟨by rw [List.append_assoc, all], all ▸ v.trans v'⟩

end Run

-- The license has the new key, and its seats, each of them reported once, are no longer active. The rows of other
-- licenses are what they were, and one log entry is new.
structure Rotates (licenseId newKey : String) (s s' : State) (result : RotateLicenseKeyResult) : Prop where
  license   : s'.licenses.find licenseId = some result.license
  key       : result.license.licenseKey = newKey
  vacant    : ∀ u ∈ s'.usages.rows, u.licenseId = licenseId → u.status ≠ .active
  nodup     : result.revokedUsageIds.Nodup
  revoked   : ∀ id, id ∈ result.revokedUsageIds ↔
    ∃ u ∈ s.usages.rows, u.id = id ∧ u.licenseId = licenseId ∧ u.status = .active
  usages    : ∀ id ∉ result.revokedUsageIds, s'.usages.find id = s.usages.find id
  licenses  : ∀ id ≠ licenseId, s'.licenses.find id = s.licenses.find id
  scopes    : s'.scopes = s.scopes
  templates : s'.templates = s.templates
  keys      : s'.keys = s.keys
  audit     : ∃ e, e.licenseId = some licenseId ∧ s'.audit.rows = s.audit.rows ++ [e]

-- Why a key is not rotated.
inductive Refused (port : Port) (refusal licenseId newKey : String) (s : State) : Error → Prop
  | missing (find : s.licenses.find licenseId = none) :
    Refused port refusal licenseId newKey s (newError .licenseNotFound ("license not found: " ++ licenseId))
  | revoked {l : License} (find : s.licenses.find licenseId = some l) (status : l.status = .revoked) :
    Refused port refusal licenseId newKey s (newError .licenseRevoked refusal)
  | taken (used : ∃ l ∈ s.licenses.rows, l.id ≠ licenseId ∧ l.licenseKey = newKey) :
    Refused port refusal licenseId newKey s (port.unique "license_key" newKey)

section Rotation

variable {port : Port} {s : State} {l : License} {refusal licenseId newKey : String} {fuel : Nat} {ω : Nat → Env}

-- What comes after the new key has been generated.
def replaceKey (fuel : Nat) (license : License) (opts : RotateLicenseKeyOptions) (newKey : String) :
    Tx RotateLicenseKeyResult := do
  let updated ← Tx.updateLicense license.id { licenseKey := some newKey }
  let now ← Tx.nowISO
  let revoked ← revokeSeatsFrom license.id now fuel "" []
  let _ ← Tx.appendAudit (rotationAudit license revoked opts now)
  return { license := updated, revokedUsageIds := revoked }

theorem eval_rotateLicenseKey (hl : s.licenses.find licenseId = some l) (hr : l.status ≠ .revoked)
    (opts : RotateLicenseKeyOptions) : (rotateLicenseKey refusal fuel licenseId opts).eval port.exec ω s =
      (replaceKey fuel l opts (ω 1).licenseKey).eval port.exec (fun n => ω (n + 2)) s := by
  simp [rotateLicenseKey, Tx.getLicense, Tx.perform, eval, Port.exec, getLicense, hl, hr, Tx.generateLicenseKey]
  rfl

-- The new key is taken if another license has it.
theorem updateLicense_key (ω : Env) (hl : s.licenses.find l.id = some l) :
    (∃ e, port.exec ω (.tx (.updateLicense l.id { licenseKey := some newKey })) s = (.error e, s) ∧
      Refused port refusal l.id newKey s e) ∨
    port.exec ω (.tx (.updateLicense l.id { licenseKey := some newKey })) s =
      (.ok (patchedLicense ω.clock { licenseKey := some newKey } l),
        { s with licenses := s.licenses.replace (patchedLicense ω.clock { licenseKey := some newKey } l) }) := by
  by_cases used : ∃ l' ∈ s.licenses.rows, ¬l'.id = l.id ∧ l'.licenseKey = newKey
  case pos =>
    refine .inl ⟨_, ?_, .taken used⟩
    simp [Port.exec, updateLicense, getLicense, hl, used, Option.filter]
  case neg =>
    refine .inr ?_
    simp [Port.exec, updateLicense, getLicense, hl, used, Option.filter]

theorem rotates {s' : State} {next : License} {row : AuditLogEntry} (hl : s.licenses.find l.id = some l)
    (hid : next.id = l.id) (key : next.licenseKey = newKey)
    (v : Vacated { s with licenses := s.licenses.replace next } s' ((inOrder port l.id s).map LicenseUsage.id))
    (fresh : s.audit.find row.id = none) (owner : row.licenseId = some l.id) :
    Rotates l.id newKey s { s' with audit := s'.audit.put row }
      { license := next, revokedUsageIds := (inOrder port l.id s).map LicenseUsage.id } := by
  have mem : ∀ u, u ∈ inOrder port l.id s ↔ u ∈ seats l.id s := fun u => Keyset.sorted_perm.mem_iff
  have find : ∀ id, (s.licenses.replace next).find id = if id = l.id then some next else s.licenses.find id :=
    fun id => hid ▸ Table.find_replace (hid ▸ hl)
  have licenses : s'.licenses = s.licenses.replace next := by rw [v.frame]
  have audit : s'.audit = s.audit := by rw [v.frame]
  constructor
  case license   => simp [licenses, find]
  case key       => exact key
  case vacant =>
    intro u hu hl ha
    have hs : u ∈ seats l.id s' := mem_seats.mpr ⟨hu, hl, ha⟩
    rw [v.seats, List.mem_filter, decide_eq_true_eq] at hs
    exact hs.right (List.mem_map_of_mem ((mem u).mpr hs.left))
  case nodup     => exact (Keyset.sorted_perm.map _).nodup_iff.mpr nodup_seats
  case revoked =>
    intro id
    simp only [List.mem_map, mem, mem_seats]
    exact exists_congr fun u => by tauto
  case usages    => exact v.rows
  case licenses  => exact fun id hne => by simp [licenses, find, hne]
  case scopes    => rw [v.frame]
  case templates => rw [v.frame]
  case keys      => rw [v.frame]
  case audit     => exact ⟨row, owner, by rw [audit, Table.rows_put fresh]⟩

theorem replaceKey_wp (paged : Paged port) (hl : s.licenses.find l.id = some l)
    (hf : s.usages.rows.length < fuel) (opts : RotateLicenseKeyOptions) :
    (replaceKey fuel l opts newKey).Wp port.exec (fun ω _ => s.audit.find ω.freshId = none)
      (fun r s' => (∃ result, r = .ok result ∧ Rotates l.id newKey s s' result) ∨
        ∃ e, r = .error e ∧ Refused port refusal l.id newKey s e) s := by
  intro ω _
  rcases @updateLicense_key port s l refusal newKey ω hl with ⟨e, he, refused⟩ | he
  case inl =>
    rw [he]
    exact .inr ⟨e, rfl, refused⟩
  case inr =>
    rw [he]
    intro ω' _
    let next := patchedLicense ω.clock { licenseKey := some newKey } l
    let s₁ : State := { s with licenses := s.licenses.replace next }
    have fewer : (seats l.id s₁).length < fuel := lt_of_le_of_lt (List.length_filter_le _ _) hf
    change (revokeSeatsFrom l.id ω'.clock fuel "" [] >>= _).Wp port.exec _ _ s₁
    apply Wp.bind
    apply (revokeSeatsFrom_wp paged fuel "" [] fewer (fun _ _ => by rw [port.cursors.decode_empty]; rfl)).mono
    rintro r s' ⟨rfl, v⟩ ω'' fresh
    refine .inl ⟨_, rfl, ?_⟩
    exact rotates hl rfl rfl v fresh rfl

-- A rotation of a key revokes every active seat of the license, of however many pages, and reports each of them
-- once; or it has a reason to fail and does nothing. A walk over more pages than there are seats is not cut short.
theorem rotateLicenseKey_rotates (hp : port = Go.memory ∨ port = Ts.memory) (hf : s.usages.rows.length < fuel)
    (fresh : ∀ n, s.audit.find (ω n).freshId = none) (refusal licenseId : String) (opts : RotateLicenseKeyOptions) :
    (∃ result s', Atomic.transact port.exec { env := ω } (rotateLicenseKey refusal fuel licenseId opts) s =
        (.ok result, s') ∧ Rotates licenseId (ω 1).licenseKey s s' result) ∨
    ∃ e, Atomic.transact port.exec { env := ω } (rotateLicenseKey refusal fuel licenseId opts) s = (.error e, s) ∧
      Refused port refusal licenseId (ω 1).licenseKey s e := by
  have paged : Paged port := by
    rcases hp with rfl | rfl
    case inl => exact paged_go
    case inr => exact paged_ts
  cases hl : s.licenses.find licenseId
  case none =>
    refine .inr ⟨_, ?_, .missing hl⟩
    simp [Atomic.transact, rotateLicenseKey, Tx.getLicense, Tx.perform, eval, Port.exec, getLicense, hl]
  case some l =>
    by_cases hr : l.status = .revoked
    case pos =>
      refine .inr ⟨_, ?_, .revoked hl hr⟩
      simp [Atomic.transact, rotateLicenseKey, Tx.getLicense, Tx.perform, eval, Port.exec, getLicense, hl, hr]
    case neg =>
      have hid : l.id = licenseId := Table.key_of_find hl
      have replaces := @replaceKey_wp port s l refusal (ω 1).licenseKey fuel paged (hid ▸ hl) hf opts
      have finds (n : Nat) := fresh (n + 2)
      have ends := replaces.eval (Finds.of_forall _ _ finds)
      rw [← eval_rotateLicenseKey hl hr, hid] at ends
      simp only [Atomic.transact]
      generalize (rotateLicenseKey refusal fuel licenseId opts).eval port.exec ω s = run at ends
      obtain ⟨r, s'⟩ := run
      rcases ends with ⟨result, rfl, rotated⟩ | ⟨e, rfl, refused⟩
      case inl => exact .inl ⟨result, s', rfl, rotated⟩
      case inr => exact .inr ⟨e, rfl, refused⟩

end Rotation

def leakedLicense : License where
  id             := "lic_1"
  scopeId        := none
  templateId     := none
  licensableType := "User"
  licensableId   := "u1"
  licenseKey     := "LIC-1"
  status         := .active
  maxUsages      := 2
  activatedAt    := none
  expiresAt      := none
  graceUntil     := none
  meta_          := []
  createdAt      := "2026-01-01T00:00:00.000000Z"
  updatedAt      := "2026-01-01T00:00:00.000000Z"
  isTrial        := false

def leakedSeat (id : String) (status : UsageStatus) : LicenseUsage where
  id           := id
  licenseId    := "lic_1"
  fingerprint  := id
  status       := status
  registeredAt := "2026-01-01T00:00:00.000000Z"
  revokedAt    := none
  lastSeenAt   := "2026-01-01T00:00:00.000000Z"
  clientMeta   := []
  createdAt    := "2026-01-01T00:00:00.000000Z"
  updatedAt    := "2026-01-01T00:00:00.000000Z"

def leaked : State where
  licenses := .ofList [leakedLicense]
  usages   := .ofList [leakedSeat "use_1" .active, leakedSeat "use_2" .revoked, leakedSeat "use_3" .active]

theorem not_refused_leaked {port : Port} {refusal : String} {e : Error} :
    ¬Refused port refusal "lic_1" "LIC-2" leaked e := by
  rintro (find | ⟨find, status⟩ | ⟨l, mem, other, -⟩)
  case missing => contradiction
  case revoked =>
    cases find
    contradiction
  case taken =>
    rw [List.mem_singleton.mp mem] at other
    exact other rfl

-- Two of the three seats were active.
theorem rotateLicenseKey_rotates_leaked :
    (∃ result s', Atomic.transact Go.memory.exec { env := fun _ => { licenseKey := "LIC-2" } }
      (Go.rotateLicenseKey 4 "lic_1" {}) leaked = (.ok result, s') ∧ Rotates "lic_1" "LIC-2" leaked s' result) ∧
    ∃ result s', Atomic.transact Ts.memory.exec { env := fun _ => { licenseKey := "LIC-2" } }
      (Ts.rotateLicenseKey 4 "lic_1" {}) leaked = (.ok result, s') ∧ Rotates "lic_1" "LIC-2" leaked s' result := by
  constructor
  case left =>
    exact Or.resolve_right (rotateLicenseKey_rotates (.inl rfl) (by decide) (fun _ => rfl) _ "lic_1" {})
      fun ⟨_, _, refused⟩ => not_refused_leaked refused
  case right =>
    exact Or.resolve_right (rotateLicenseKey_rotates (.inr rfl) (by decide) (fun _ => rfl) _ "lic_1" {})
      fun ⟨_, _, refused⟩ => not_refused_leaked refused

end KeyRotation

end Licensing
