import Licensing.Library.Rows
import Licensing.Model.Entities
import Licensing.Model.Errors
import Mathlib.Data.List.Sort
import Mathlib.Data.Prod.Lex
import Mathlib.Data.String.Basic

-- The store of keys that comes with the hierarchy: records by their id, and ids by their kid.

namespace Licensing

def KeyAlg.toString : KeyAlg → String
  | ed25519 => "ed25519"
  | rsPss   => "rs256-pss"
  | hs256   => "hs256"

def KeyRole.toString : KeyRole → String
  | root    => "root"
  | signing => "signing"

structure KeyStoreFilter where
  scopeId : Option (Option String) := none
  role    : Option KeyRole := none
  state   : Option KeyState := none
  alg     : Option KeyAlg := none

def KeyStoreFilter.accepts (f : KeyStoreFilter) (k : LicenseKey) : Bool :=
  f.scopeId.all (k.scopeId = ·) && f.role.all (k.role = ·) && f.state.all (k.state = ·) &&
    f.alg.all (k.alg = ·)

structure KeyStore where
  byId  : Table LicenseKey.id := .ofList [] List.nodup_nil
  byKid : List (String × String) := []

namespace KeyStore

def insert (record : LicenseKey) (s : KeyStore) : KeyStore where
  byId  := s.byId.put record
  byKid := (record.kid, record.id) :: s.byKid

def put (kidInUse : String → Error) (record : LicenseKey) (s : KeyStore) : Except Error KeyStore :=
  if (s.byKid.lookup record.kid).any (· ≠ record.id) then .error (kidInUse record.kid)
  else .ok (s.insert record)

def get (id : String) (s : KeyStore) : Option LicenseKey :=
  s.byId.find id

def findByKid (kid : String) (s : KeyStore) : Option LicenseKey :=
  (s.byKid.lookup kid).bind fun id => s.get id

def list (filter : KeyStoreFilter) (s : KeyStore) : List LicenseKey :=
  (s.byId.rows.filter filter.accepts).insertionSort fun a b =>
    toLex (a.createdAt, a.id) ≤ toLex (b.createdAt, b.id)

def update (malformed : String → Error) (id : String) (next : LicenseKey) (s : KeyStore) :
    Except Error KeyStore :=
  if (s.get id).isNone then .error (malformed ("key not found: " ++ id))
  else if id ≠ next.id then .error (malformed "update cannot change id")
  else .ok (s.insert next)

-- Every record is found by its kid, and there is one of that kid only.
structure Indexed (s : KeyStore) : Prop where
  kid   : ∀ id k, s.get id = some k → s.byKid.lookup k.kid = some id
  index : ∀ kid id, s.byKid.lookup kid = some id → ∃ k, s.get id = some k ∧ k.kid = kid

variable {s : KeyStore} {k next : LicenseKey} {id kid : String}

theorem id_of_get (h : s.get id = some k) : k.id = id :=
  Table.key_of_find h

theorem mem_rows_iff : k ∈ s.byId.rows ↔ s.get k.id = some k :=
  ⟨Table.find_of_mem, Rows.mem_of_find⟩

@[simp]
theorem mem_list {filter : KeyStoreFilter} :
    k ∈ s.list filter ↔ s.get k.id = some k ∧ filter.accepts k := by
  rw [list, List.mem_insertionSort, List.mem_filter, mem_rows_iff]

@[simp]
theorem get_insert : (s.insert k).get id = if id = k.id then some k else s.get id :=
  Table.find_put

theorem mem_list_insert {a : LicenseKey} {filter : KeyStoreFilter} : a ∈ (s.insert k).list filter ↔
    (a = k ∧ filter.accepts k) ∨ (a.id ≠ k.id ∧ a ∈ s.list filter) := by
  rw [mem_list, mem_list, get_insert]
  by_cases hi : a.id = k.id
  case pos =>
    simp only [hi, if_true, Option.some.injEq, ne_eq, not_true_eq_false, false_and, or_false]
    exact ⟨fun ⟨he, ha⟩ => ⟨he.symm, he ▸ ha⟩, fun ⟨he, ha⟩ => ⟨he.symm, he ▸ ha⟩⟩
  case neg =>
    have hn : a ≠ k := fun he => hi (congrArg LicenseKey.id he)
    simp [hi, hn]

theorem mem_list_of_insert {a : LicenseKey} {filter : KeyStoreFilter} (hn : ¬filter.accepts k)
    (ha : a ∈ (s.insert k).list filter) : a ∈ s.list filter := by
  rw [mem_list_insert] at ha
  exact ha.elim (fun hk => (hn hk.2).elim) And.right

theorem lookup_insert :
    (s.insert k).byKid.lookup kid = if kid = k.kid then some k.id else s.byKid.lookup kid := by
  rw [insert, List.lookup_cons]
  by_cases h : kid = k.kid
  case pos => simp [h]
  case neg => rw [beq_false_of_ne h, if_neg h]

theorem nodup_list (filter : KeyStoreFilter) : (s.list filter).Nodup := by
  rw [list, (List.perm_insertionSort _ _).nodup_iff]
  exact s.byId.nodup.of_map.filter _

theorem update_eq_ok_iff {malformed : String → Error} {s' : KeyStore} :
    s.update malformed id next = .ok s' ↔
      (s.get id).isSome ∧ id = next.id ∧ s.insert next = s' := by
  unfold update
  split
  case isTrue h => simp_all
  case isFalse h =>
    split
    case isTrue hn => simp_all
    case isFalse hn => simp_all [Option.isSome_iff_ne_none]

theorem put_eq_ok_iff {kidInUse : String → Error} {s' : KeyStore} : s.put kidInUse k = .ok s' ↔
    (∀ id, s.byKid.lookup k.kid = some id → id = k.id) ∧ s.insert k = s' := by
  unfold put
  split
  case isTrue h => simp_all [Option.any_eq_true]
  case isFalse h => simp_all [Option.any_eq_true]

namespace Indexed

theorem empty : ({} : KeyStore).Indexed := by
  constructor
  case kid =>
    intro id k h
    have none : ({} : KeyStore).get id = none := rfl
    simp [none] at h
  case index =>
    intro kid id h
    simp at h

theorem findByKid_eq_some_iff (h : s.Indexed) : s.findByKid kid = some k ↔ s.get k.id = some k ∧ k.kid = kid := by
  rw [findByKid, Option.bind_eq_some_iff]
  refine ⟨?_, fun ⟨hk, he⟩ => ⟨k.id, he ▸ h.kid _ _ hk, hk⟩⟩
  rintro ⟨id, hl, hg⟩
  obtain ⟨k', hk', he⟩ := h.index kid id hl
  cases hg.symm.trans hk'
  exact ⟨(id_of_get hg).symm ▸ hg, he⟩

-- A record with a new id.
theorem lookup_of_put (h : s.Indexed) (hn : s.get k.id = none)
    (hp : ∀ id, s.byKid.lookup k.kid = some id → id = k.id) : s.byKid.lookup k.kid = none := by
  cases hl : s.byKid.lookup k.kid
  case none => rfl
  case some id =>
    obtain ⟨k', hk', _⟩ := h.index _ _ hl
    rw [hp id hl, hn] at hk'
    contradiction

theorem insert_new (h : s.Indexed) (hn : s.get k.id = none) (hl : s.byKid.lookup k.kid = none) :
    (s.insert k).Indexed where
  kid id k' hk' := by
    rw [get_insert] at hk'
    rw [lookup_insert]
    split at hk'
    case isTrue he => cases hk'; simp [he]
    case isFalse he =>
      have := h.kid id k' hk'
      rw [if_neg (fun hc => by simp [← hc, this] at hl), this]
  index kid id hi := by
    rw [lookup_insert] at hi
    rw [get_insert]
    split at hi
    case isTrue hc => cases hi; exact ⟨k, by simp, hc.symm⟩
    case isFalse hc =>
      obtain ⟨k', hk', he⟩ := h.index kid id hi
      rw [if_neg (fun hc => by simp [← hc, hk'] at hn)]
      exact ⟨k', hk', he⟩

-- A record that replaces another one of the same kid.
theorem insert_update (h : s.Indexed) (hk : s.get next.id = some k) (he : next.kid = k.kid) :
    (s.insert next).Indexed where
  kid id k' hk' := by
    rw [get_insert] at hk'
    rw [lookup_insert]
    split at hk'
    case isTrue hi => cases hk'; simp [hi]
    case isFalse hi =>
      have hl := h.kid id k' hk'
      rw [if_neg (fun hc => hi ?_), hl]
      rw [hc, he, h.kid _ _ hk] at hl
      exact (Option.some.inj hl).symm
  index kid id hi := by
    rw [lookup_insert] at hi
    rw [get_insert]
    split at hi
    case isTrue hc => cases hi; exact ⟨next, by simp, hc.symm⟩
    case isFalse hc =>
      obtain ⟨k', hk', hk''⟩ := h.index kid id hi
      have hn : id ≠ next.id := by
        rintro rfl
        cases hk.symm.trans hk'
        exact hc (hk''.symm.trans he.symm)
      rw [if_neg hn]
      exact ⟨k', hk', hk''⟩

end Indexed

end KeyStore

end Licensing
