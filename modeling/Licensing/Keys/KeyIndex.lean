import Licensing.Keys.Hierarchy
import Licensing.Library.Machine

-- The index of the key stores: calls that store records, from an empty store on.

namespace Licensing

namespace KeyStore

open Machine

inductive Call
  | put (record : LicenseKey)
  | update (id : String) (next : LicenseKey)

-- What a call puts into both maps, if it is accepted.
def Call.stored (s : KeyStore) : Call → Option LicenseKey
  | put record     => if (s.byKid.lookup record.kid).any (· ≠ record.id) then none else some record
  | update id next => if (s.get id).isNone ∨ id ≠ next.id then none else some next

def Call.result (port : HierarchyPort) (s : KeyStore) : Call → Except Error KeyStore
  | put record     => s.put port.kidInUse record
  | update id next => s.update port.malformed id next

-- A call that is refused leaves the store as it was.
def call (port : HierarchyPort) (s : KeyStore) (c : Call) : KeyStore :=
  match c.result port s with
  | .ok s'   => s'
  | .error _ => s

-- A record that is replaced keeps its kid.
def KeepsKid (s : KeyStore) (c : Call) : Prop :=
  ∀ k old, c.stored s = some k → s.get k.id = some old → old.kid = k.kid

-- The index has the kids of the records and nothing else, so that records are found by their kid.
structure Exact (find : KeyStore → String → Option LicenseKey) (s : KeyStore) : Prop where
  index  : ∀ kid id, s.byKid.lookup kid = some id ↔ ∃ k, s.get id = some k ∧ k.kid = kid
  found  : ∀ kid k, find s kid = some k ↔ s.get k.id = some k ∧ k.kid = kid
  unique : ∀ k k', s.get k.id = some k → s.get k'.id = some k' → k.kid = k'.kid → k = k'

variable {s : KeyStore} {k : LicenseKey} {c : Call} {port : HierarchyPort}

theorem call_eq (port : HierarchyPort) (s : KeyStore) (c : Call) : call port s c = (c.stored s).elim s s.insert := by
  cases c
  case put record =>
    simp only [call, Call.result, Call.stored, put]
    split_ifs <;> rfl
  case update id next =>
    simp only [call, Call.result, Call.stored, update]
    split_ifs <;> simp_all

namespace Indexed

theorem index_iff (h : s.Indexed) (kid id : String) :
    s.byKid.lookup kid = some id ↔ ∃ k, s.get id = some k ∧ k.kid = kid :=
  ⟨h.index kid id, fun ⟨k, hk, he⟩ => he ▸ h.kid id k hk⟩

theorem unique (h : s.Indexed) {k k' : LicenseKey} (hk : s.get k.id = some k) (hk' : s.get k'.id = some k')
    (he : k.kid = k'.kid) : k = k' := by
  have hl := h.kid _ _ hk
  rw [he, h.kid _ _ hk'] at hl
  rw [Option.some.inj hl, hk] at hk'
  exact Option.some.inj hk'

-- A record with another kid leaves the kid of the one that it replaces in the index.
theorem insert_iff (h : s.Indexed) (hl : s.get k.id = none → s.byKid.lookup k.kid = none) :
    (s.insert k).Indexed ↔ ∀ old, s.get k.id = some old → old.kid = k.kid := by
  constructor
  case mp =>
    intro hi old hold
    by_contra hne
    have hstale : (s.insert k).byKid.lookup old.kid = some k.id := by
      rw [lookup_insert, if_neg hne, h.kid _ _ hold]
    have ⟨k', hk', hkid⟩ := hi.index _ _ hstale
    rw [get_insert, if_pos rfl] at hk'
    cases hk'
    exact hne hkid.symm
  case mpr =>
    intro hkeeps
    cases hold : s.get k.id
    case none => exact h.insert_new hold (hl hold)
    case some old => exact h.insert_update hold (hkeeps old hold).symm

theorem call_iff (h : s.Indexed) : (call port s c).Indexed ↔ KeepsKid s c := by
  rw [call_eq]
  cases hs : c.stored s
  case none => simp [KeepsKid, hs, h]
  case some k =>
    have hk : KeepsKid s c ↔ ∀ old, s.get k.id = some old → old.kid = k.kid := by
      rw [KeepsKid, hs]
      refine ⟨fun h old => h k old rfl, fun h k' old hk => ?_⟩
      cases hk
      exact h old
    rw [hk]
    refine h.insert_iff fun hn => ?_
    cases c
    case put record =>
      simp only [Call.stored] at hs
      split_ifs at hs with hb
      cases hs
      refine h.lookup_of_put hn fun id hid => ?_
      simpa [hid] using hb
    case update id next =>
      simp only [Call.stored] at hs
      split_ifs at hs with hb
      cases hs
      have hid : id = k.id := by simpa using (not_or.mp hb).right
      simp [hid, hn] at hb

end Indexed

-- The other port does not find a record whose id is empty.
def findNamed (s : KeyStore) (kid : String) : Option LicenseKey :=
  (s.byKid.lookup kid).bind fun id => if id = "" then none else s.get id

theorem exact_iff_indexed : Exact (flip findByKid) s ↔ s.Indexed := by
  constructor
  case mp =>
    intro h
    exact ⟨fun id k hk => (h.index k.kid id).mpr ⟨k, hk, rfl⟩, fun kid id hi => (h.index kid id).mp hi⟩
  case mpr =>
    intro h
    exact ⟨h.index_iff, fun kid k => h.findByKid_eq_some_iff, fun k k' => h.unique⟩

theorem exact_iff_named : Exact findNamed s ↔ s.Indexed ∧ s.get "" = none := by
  constructor
  case mp =>
    intro h
    have hi : s.Indexed :=
      ⟨fun id k hk => (h.index k.kid id).mpr ⟨k, hk, rfl⟩, fun kid id hi => (h.index kid id).mp hi⟩
    refine ⟨hi, ?_⟩
    cases he : s.get ""
    case none => rfl
    case some k =>
      have hid := id_of_get he
      have hf := (h.found k.kid k).mpr ⟨hid ▸ he, rfl⟩
      rw [findNamed, hi.kid _ _ he] at hf
      simp at hf
  case mpr =>
    intro ⟨h, he⟩
    refine ⟨h.index_iff, fun kid k => ?_, fun k k' => h.unique⟩
    rw [← h.findByKid_eq_some_iff, findNamed, findByKid]
    cases hl : s.byKid.lookup kid
    case none => rfl
    case some id =>
      obtain ⟨k', hk', _⟩ := h.index _ _ hl
      have hne : id ≠ "" := fun hc => by simp [hc, he] at hk'
      rw [Option.bind_some, Option.bind_some, if_neg hne]

theorem exact_empty : Exact (flip findByKid) {} :=
  exact_iff_indexed.mpr Indexed.empty

-- A record that is stored has an id.
def Named (s : KeyStore) (c : Call) : Prop :=
  ∀ k, c.stored s = some k → k.id ≠ ""

theorem exact_call_iff (h : Exact (flip findByKid) s) : Exact (flip findByKid) (call port s c) ↔ KeepsKid s c := by
  rw [exact_iff_indexed] at h ⊢
  exact h.call_iff

theorem exact_named_call_iff (h : Exact findNamed s) :
    Exact findNamed (call port s c) ↔ KeepsKid s c ∧ Named s c := by
  rw [exact_iff_named] at h ⊢
  refine and_congr h.left.call_iff ?_
  rw [call_eq, Named]
  cases hs : c.stored s
  case none => simp [h.right]
  case some k =>
    rw [Option.elim_some, get_insert, h.right, ite_eq_right_iff]
    constructor
    case mp =>
      intro hn k' hk' he
      cases hk'
      exact nomatch hn he.symm
    case mpr => exact fun hn he => absurd he.symm (hn k rfl)

end KeyStore

-- The store of the command line tool: the records in memory, and those of the lines of the file.
structure FileStore where
  memory : KeyStore := {}
  loaded : Bool := false
  file   : Option (List LicenseKey) := none

namespace FileStore

open KeyStore Machine

-- What fails of a call: the reading of the file, after some of its lines, and the writing.
structure Faults where
  reading : Option Nat := none
  flush   : Bool := false

-- The last two are `TokenMalformed: key not found: %s` and `TokenMalformed: update cannot change id`,
-- the second is `UniqueConstraintViolation: kid %q already bound to id %s`.
inductive FileError
  | unreadable
  | kidInUse (kid id : String)
  | flush
  | notFound (id : String)
  | idChanged

def storeLines (ks : List LicenseKey) (m : KeyStore) : KeyStore :=
  ks.foldl (fun m k => m.insert k) m

-- Lines that were read before an error stay in memory.
def loadIfNeeded (faults : Faults) (s : FileStore) : Except FileError Unit × FileStore :=
  if s.loaded then (.ok (), s)
  else match faults.reading with
    | some n => (.error .unreadable, { s with memory := storeLines ((s.file.getD []).take n) s.memory })
    | none   => (.ok (), { s with memory := storeLines (s.file.getD []) s.memory, loaded := true })

-- The records by the time of their creation, then by id. The file is renamed into place after it was written.
def flush (faults : Faults) (s : FileStore) : Except FileError Unit × FileStore :=
  if faults.flush then (.error .flush, s) else (.ok (), { s with file := some (s.memory.list {}) })

def put (faults : Faults) (record : LicenseKey) (s : FileStore) : Except FileError Unit × FileStore :=
  match s.loadIfNeeded faults with
  | (.error e, s) => (.error e, s)
  | (.ok (), s)   =>
    match s.memory.byKid.lookup record.kid with
    | some id =>
      if id ≠ record.id then (.error (.kidInUse record.kid id), s)
      else flush faults { s with memory := s.memory.insert record }
    | none    => flush faults { s with memory := s.memory.insert record }

def update (faults : Faults) (id : String) (next : LicenseKey) (s : FileStore) : Except FileError Unit × FileStore :=
  match s.loadIfNeeded faults with
  | (.error e, s) => (.error e, s)
  | (.ok (), s)   =>
    if (s.memory.get id).isNone then (.error (.notFound id), s)
    else if id ≠ next.id then (.error .idChanged, s)
    else flush faults { s with memory := s.memory.insert next }

-- A call, or the file is opened by another process.
inductive Event
  | call (c : Call) (faults : Faults)
  | reopen

def step (s : FileStore) : Event → FileStore
  | .call (.put record) faults     => (s.put faults record).2
  | .call (.update id next) faults => (s.update faults id next).2
  | .reopen                        => { file := s.file }

-- An accepted call keeps the kid of the record that it replaces.
def Keeps (s : FileStore) : Event → Prop
  | .call c faults => (s.loadIfNeeded faults).1.isOk → KeepsKid (s.loadIfNeeded faults).2.memory c
  | .reopen        => True

-- The lines of the file are of records with ids and kids of their own. What is in memory while the file
-- is not read to its end comes from it.
structure Stored (s : FileStore) : Prop where
  ids    : ((s.file.getD []).map LicenseKey.id).Nodup
  kids   : ((s.file.getD []).map LicenseKey.kid).Nodup
  memory : ¬s.loaded → ∀ id k, s.memory.get id = some k → k ∈ s.file.getD []

variable {s : FileStore} {faults : Faults} {c : Call} {ks file : List LicenseKey} {m : KeyStore}

-- Where one record ends up does not depend on the others, because ids and kids are not shared.
theorem storeLines_indexed (ids : (file.map LicenseKey.id).Nodup) (kids : (file.map LicenseKey.kid).Nodup)
    (hks : ∀ k ∈ ks, k ∈ file) (h : m.Indexed) (hm : ∀ id k, m.get id = some k → k ∈ file) :
    (storeLines ks m).Indexed ∧ ∀ id k, (storeLines ks m).get id = some k → k ∈ file := by
  induction ks generalizing m
  case nil => exact ⟨h, hm⟩
  case cons k ks ih =>
    have hk := hks k List.mem_cons_self
    refine ih (fun a ha => hks a (List.mem_cons_of_mem k ha)) ?_ ?_
    · refine (h.insert_iff fun hn => ?_).mpr fun old hold => ?_
      · cases hl : m.byKid.lookup k.kid
        case none => rfl
        case some id =>
          have ⟨k', hk', he⟩ := h.index _ _ hl
          cases List.inj_on_of_nodup_map kids (hm id k' hk') hk he
          rw [id_of_get hk', hk'] at hn
          cases hn
      · cases List.inj_on_of_nodup_map ids (hm _ old hold) hk (id_of_get hold)
        rfl
    · intro id a ha
      rw [get_insert] at ha
      split_ifs at ha
      case pos => exact Option.some.inj ha ▸ hk
      case neg => exact hm id a ha

theorem loadIfNeeded_file : (s.loadIfNeeded faults).2.file = s.file := by
  rw [loadIfNeeded]
  split_ifs
  case pos => rfl
  case neg => cases faults.reading <;> rfl

theorem loaded_of_isOk (h : (s.loadIfNeeded faults).1.isOk) : (s.loadIfNeeded faults).2.loaded := by
  rw [loadIfNeeded] at h ⊢
  split_ifs at h ⊢ with hl
  case pos => exact hl
  case neg =>
    cases hr : faults.reading
    case none   => rfl
    case some n => simp [hr, Except.isOk, Except.toBool] at h

theorem indexed_loadIfNeeded (faults : Faults) (h : s.memory.Indexed) (hs : s.Stored) :
    (s.loadIfNeeded faults).2.memory.Indexed ∧ (s.loadIfNeeded faults).2.Stored := by
  rw [loadIfNeeded]
  split_ifs
  case pos => exact ⟨h, hs⟩
  case neg hl =>
    cases faults.reading
    case none =>
      have hi := storeLines_indexed hs.ids hs.kids (fun _ hk => hk) h (hs.memory hl)
      exact ⟨hi.left, hs.ids, hs.kids, fun hn => absurd rfl hn⟩
    case some n =>
      have hks : ∀ k ∈ (s.file.getD []).take n, k ∈ s.file.getD [] := fun _ => List.mem_of_mem_take
      have hi := storeLines_indexed hs.ids hs.kids hks h (hs.memory hl)
      exact ⟨hi.left, hs.ids, hs.kids, fun _ => hi.right⟩

theorem step_call (s : FileStore) (c : Call) (faults : Faults) : s.step (.call c faults) =
    if (s.loadIfNeeded faults).1.isOk then
      (c.stored (s.loadIfNeeded faults).2.memory).elim (s.loadIfNeeded faults).2 fun k =>
        (flush faults { (s.loadIfNeeded faults).2 with memory := (s.loadIfNeeded faults).2.memory.insert k }).2
    else (s.loadIfNeeded faults).2 := by
  cases c
  case put record =>
    simp only [step, put, Call.stored]
    rcases s.loadIfNeeded faults with ⟨r, s'⟩
    cases r
    case error e => rfl
    case ok u =>
      cases hl : s'.memory.byKid.lookup record.kid
      case none => simp [hl, Except.isOk, Except.toBool]
      case some id => by_cases hid : id = record.id <;> simp [hl, hid, Except.isOk, Except.toBool]
  case update id next =>
    simp only [step, update, Call.stored]
    rcases s.loadIfNeeded faults with ⟨r, s'⟩
    cases r
    case error e => rfl
    case ok u =>
      by_cases hid : id = next.id
      case pos =>
        cases hid
        by_cases hg : s'.memory.get next.id = none <;> simp [hg, Except.isOk, Except.toBool]
      case neg => by_cases hg : s'.memory.get id = none <;> simp [hg, hid, Except.isOk, Except.toBool]

-- What is written are the records of memory, whose ids and kids are not shared.
theorem stored_flush (h : s.memory.Indexed) (hs : s.Stored) (hl : s.loaded) : (flush faults s).2.Stored := by
  rw [flush]
  split_ifs
  case pos => exact hs
  case neg =>
    have hmem (k : LicenseKey) : k ∈ s.memory.list {} ↔ s.memory.get k.id = some k := by
      rw [mem_list]
      exact and_iff_left rfl
    refine ⟨?_, ?_, fun hn => absurd hl hn⟩
    · refine (nodup_list {}).map_on fun k hk k' hk' he => ?_
      have hk := (hmem k).mp hk
      rw [he, (hmem k').mp hk'] at hk
      exact (Option.some.inj hk).symm
    · exact (nodup_list {}).map_on fun k hk k' hk' he => h.unique ((hmem k).mp hk) ((hmem k').mp hk') he

theorem memory_flush : (flush faults s).2.memory = s.memory := by
  rw [flush]
  split_ifs <;> rfl

theorem indexed_step_iff {e : Event} (h : s.memory.Indexed) (hs : s.Stored) :
    (s.step e).memory.Indexed ↔ s.Keeps e := by
  cases e
  case reopen => exact iff_of_true Indexed.empty trivial
  case call c faults =>
    have ⟨hi, _⟩ := indexed_loadIfNeeded faults h hs
    rw [step_call, Keeps]
    split_ifs with hok
    case neg => exact iff_of_true hi fun h => absurd h hok
    case pos =>
      have hc : (call Go.hierarchy (s.loadIfNeeded faults).2.memory c).Indexed ↔ _ := hi.call_iff
      rw [forall_prop_of_true hok, ← hc, call_eq]
      cases c.stored (s.loadIfNeeded faults).2.memory
      case none => rfl
      case some k =>
        rw [Option.elim_some, memory_flush]
        rfl

theorem stored_step {e : Event} (h : s.memory.Indexed) (hs : s.Stored) (hn : (s.step e).memory.Indexed) :
    (s.step e).Stored := by
  cases e
  case reopen => exact ⟨hs.ids, hs.kids, fun _ _ _ hk => nomatch hk⟩
  case call c faults =>
    have ⟨hi, hl⟩ := indexed_loadIfNeeded faults h hs
    rw [step_call] at hn ⊢
    split_ifs at hn ⊢ with hok
    case neg => exact hl
    case pos =>
      cases hc : c.stored (s.loadIfNeeded faults).2.memory
      case none => exact hl
      case some k =>
        rw [hc, Option.elim_some, memory_flush] at hn
        have hloaded := loaded_of_isOk hok
        exact stored_flush hn ⟨hl.ids, hl.kids, fun h => absurd hloaded h⟩ hloaded

end FileStore

open KeyStore FileStore Machine

theorem exact_iff (calls : List Call) (events : List Event) :
    (Always (call Go.hierarchy) (Exact (flip findByKid)) {} calls ↔ Each (call Go.hierarchy) KeepsKid {} calls) ∧
    (Always (call Ts.hierarchy) (Exact findNamed) {} calls ↔
      Each (call Ts.hierarchy) (fun s c => KeepsKid s c ∧ Named s c) {} calls) ∧
    (Always FileStore.step (fun s => Exact (flip findByKid) s.memory) {} events ↔
      Each FileStore.step Keeps {} events) := by
  refine ⟨?_, ?_, ?_⟩
  · exact always_iff_each (fun _ _ => exact_call_iff) exact_empty
  · refine always_iff_each (fun _ _ => exact_named_call_iff) ?_
    exact exact_iff_named.mpr ⟨Indexed.empty, rfl⟩
  · refine always_iff_each_of_inv (q := FileStore.Stored) (fun s e hp hs => ?_) (fun s e hp hs hn => ?_) exact_empty ?_
    · rw [exact_iff_indexed] at hp ⊢
      exact indexed_step_iff hp hs
    · rw [exact_iff_indexed] at hp hn
      exact stored_step hp hs hn
    · exact ⟨List.nodup_nil, List.nodup_nil, fun _ _ _ hk => nomatch hk⟩

def sampleRecord (id kid : String) : LicenseKey where
  id            := id
  scopeId       := none
  kid           := kid
  alg           := .ed25519
  role          := .signing
  state         := .active
  publicPem     := "pem"
  privatePemEnc := none
  rotatedFrom   := none
  rotatedAt     := none
  notBefore     := "2026-01-01T00:00:00.000000Z"
  notAfter      := none
  meta_         := []
  createdAt     := "2026-01-01T00:00:00.000000Z"
  updatedAt     := "2026-01-01T00:00:00.000000Z"

-- The first kid stays in the index.
theorem not_always_exact : ¬Always (call Go.hierarchy) (Exact (flip findByKid)) {}
    [.put (sampleRecord "1" "a"), .update "1" (sampleRecord "1" "b")] := by
  intro h
  have ⟨k, hk, he⟩ := (h.right.right.index "a" "1").mp rfl
  cases hk
  exact absurd he (by decide)

end Licensing
