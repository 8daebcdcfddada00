import Licensing.Keys.KeyIndex
import Licensing.Library.Backlog

-- The files of keys of both command line tools, which are read once and written whole after every change.

namespace Licensing

namespace FileStore

open KeyStore Backlog

-- What fails of a call that reads is the reading of the file only.
def get (faults : Faults) (id : String) (s : FileStore) : Except FileError (Option LicenseKey) × FileStore :=
  match s.loadIfNeeded faults with
  | (.error e, s) => (.error e, s)
  | (.ok (), s)   => (.ok (s.memory.get id), s)

def list (faults : Faults) (filter : KeyStoreFilter) (s : FileStore) :
    Except FileError (List LicenseKey) × FileStore :=
  match s.loadIfNeeded faults with
  | (.error e, s) => (.error e, s)
  | (.ok (), s)   => (.ok (s.memory.list filter), s)

def serve (faults : Faults) : Call → FileStore → Except FileError Unit × FileStore
  | .put record, s     => s.put faults record
  | .update id next, s => s.update faults id next

-- A call of either port, whose file is written by `flush`.
def serveWith (flush : Faults → FileStore → Except FileError Unit × FileStore) (faults : Faults) (c : Call)
    (s : FileStore) : Except FileError Unit × FileStore :=
  match s.loadIfNeeded faults with
  | (.error e, s) => (.error e, s)
  | (.ok (), s)   =>
    match c with
    | .put record =>
      match s.memory.byKid.lookup record.kid with
      | some id =>
        if id ≠ record.id then (.error (.kidInUse record.kid id), s)
        else flush faults { s with memory := s.memory.insert record }
      | none    => flush faults { s with memory := s.memory.insert record }
    | .update id next =>
      if (s.memory.get id).isNone then (.error (.notFound id), s)
      else if id ≠ next.id then (.error .idChanged, s)
      else flush faults { s with memory := s.memory.insert next }

theorem serve_eq_serveWith : serve = serveWith flush := by
  funext faults c s
  cases c <;> rfl

-- The other port writes the records in the order in which they came.
def flushRows (faults : Faults) (s : FileStore) : Except FileError Unit × FileStore :=
  if faults.flush then (.error .flush, s) else (.ok (), { s with file := some s.memory.byId.rows })

-- The calls that write, the calls that read, and another process that opens the file.
inductive Access
  | call (c : Call) (faults : Faults)
  | get (id : String) (faults : Faults)
  | list (filter : KeyStoreFilter) (faults : Faults)
  | reopen

-- What a port does with a call that writes.
abbrev Serve :=
  Faults → Call → FileStore → Except FileError Unit × FileStore

def access (serve : Serve) (s : FileStore) : Access → FileStore
  | .call c faults      => (serve faults c s).2
  | .get id faults      => (s.get faults id).2
  | .list filter faults => (s.list faults filter).2
  | .reopen             => { file := s.file }

def record : Call → LicenseKey
  | .put record    => record
  | .update _ next => next

def answered (k : LicenseKey) : Except FileError Unit → Backlog.Outcome LicenseKey
  | .ok ()        => .written k
  | .error .flush => .unwritten k
  | .error _      => .refused

-- As the caller sees it.
def outcome (serve : Serve) (s : FileStore) : Access → Backlog.Outcome LicenseKey
  | .call c faults       => answered (record c) (serve faults c s).1
  | .get _ _ | .list _ _ => .refused
  | .reopen              => .reopened

def lines (s : FileStore) : List LicenseKey :=
  s.file.getD []

-- What is read if the file can be read.
def view (s : FileStore) (id : String) : Option LicenseKey :=
  (s.loadIfNeeded {}).2.memory.get id

def store (serve : Serve) : Store FileStore Access LicenseKey String where
  step    := access serve
  outcome := outcome serve
  lines   := lines
  view    := view

-- What is in memory while the file has not been read to its end is in the file.
def Partial (s : FileStore) : Prop :=
  ¬s.loaded → ∀ id k, s.memory.get id = some k → (newest LicenseKey.id s.lines id).isSome

-- What a call may come to. `emit` are the lines that are written for the records in memory.
inductive Served (emit : KeyStore → List LicenseKey) (s : FileStore) : Backlog.Outcome LicenseKey → FileStore → Prop
  | refused {s'} (file : s'.file = s.file) (part : s'.Partial) (view : ∀ id, s'.view id = s.view id) :
    Served emit s .refused s'
  | unwritten {k s'} (file : s'.file = s.file) (loaded : s'.loaded)
    (view : ∀ id, s'.view id = if id = k.id then some k else s.view id) : Served emit s (.unwritten k) s'
  | written {k s'} (file : s'.file = some (emit s'.memory)) (loaded : s'.loaded)
    (view : ∀ id, s'.view id = if id = k.id then some k else s.view id) : Served emit s (.written k) s'
  | reopened : Served emit s .reopened { file := s.file }

variable {s : FileStore} {faults : Faults} {c : Call} {xs : List LicenseKey} {m : KeyStore} {k : LicenseKey}

theorem get_storeLines {id : String} : (storeLines xs m).get id = (newest LicenseKey.id xs id).or (m.get id) := by
  induction xs generalizing m
  case nil => rfl
  case cons x xs ih =>
    rw [storeLines, List.foldl_cons, ← storeLines, ih, get_insert, newest_cons, Option.or_assoc]
    split <;> simp

theorem newest_emit {emit : KeyStore → List LicenseKey} (emitted : ∀ m k, k ∈ emit m ↔ m.get k.id = some k)
    (m : KeyStore) (id : String) : newest LicenseKey.id (emit m) id = m.get id :=
  newest_eq (f := m.get) (fun _ _ => id_of_get) (emitted m)

theorem view_of_loaded (h : s.loaded) (id : String) : s.view id = s.memory.get id := by
  rw [view, loadIfNeeded, if_pos h]

theorem view_of_unloaded (hs : s.Partial) (h : ¬s.loaded) (id : String) :
    s.view id = newest LicenseKey.id s.lines id := by
  rw [view, loadIfNeeded, if_neg h]
  show (storeLines s.lines s.memory).get id = _
  rw [get_storeLines]
  cases hn : newest LicenseKey.id s.lines id
  case some k => rfl
  case none =>
    cases hg : s.memory.get id
    case none   => rfl
    case some k => simpa [hn] using hs h id k hg

theorem partial_closed (file : Option (List LicenseKey)) : Partial { file := file } := by
  intro _ id k h
  have none : ({} : KeyStore).get id = none := rfl
  simp [none] at h

-- The reading of the file, be it cut short, changes nothing of what is read.
theorem served_load {emit : KeyStore → List LicenseKey} (hs : s.Partial) (faults : Faults) :
    Served emit s .refused (s.loadIfNeeded faults).2 := by
  rw [loadIfNeeded]
  split
  case isTrue h => exact .refused rfl hs fun _ => rfl
  case isFalse h =>
    cases faults.reading
    case none =>
      refine .refused rfl (fun hn => absurd rfl hn) fun id => ?_
      rw [view_of_loaded rfl, view, loadIfNeeded, if_neg h]
    case some n =>
      have part : Partial { s with memory := storeLines (s.lines.take n) s.memory } := by
        intro _ id k hk
        rw [get_storeLines] at hk
        cases ht : newest LicenseKey.id (s.lines.take n) id
        case none   => exact hs h id k (by simpa [ht] using hk)
        case some x =>
          obtain ⟨x, hx, hid⟩ := newest_isSome_iff.mp (Option.isSome_of_eq_some ht)
          exact newest_isSome_iff.mpr ⟨x, List.mem_of_mem_take hx, hid⟩
      refine .refused rfl part fun id => ?_
      rw [view_of_unloaded hs h]
      exact view_of_unloaded part h id

theorem loaded_of_ok (h : (s.loadIfNeeded faults).1 = .ok ()) :
    (s.loadIfNeeded faults).2.loaded ∧ ∀ id, (s.loadIfNeeded faults).2.memory.get id = s.view id := by
  have loaded : (s.loadIfNeeded faults).2.loaded := loaded_of_isOk (by rw [h]; rfl)
  refine ⟨loaded, fun id => ?_⟩
  rw [view]
  by_cases hl : s.loaded
  case pos => rw [loadIfNeeded, loadIfNeeded, if_pos hl, if_pos hl]
  case neg =>
    rw [loadIfNeeded, if_neg hl] at h ⊢
    cases hr : faults.reading
    case none   => rw [loadIfNeeded, if_neg hl]
    case some n => simp [hr] at h

-- A call that reads leaves behind what the reading of the file left.
theorem get_state {id : String} : (s.get faults id).2 = (s.loadIfNeeded faults).2 := by
  rw [get]
  split <;> simp_all

theorem list_state {filter : KeyStoreFilter} : (s.list faults filter).2 = (s.loadIfNeeded faults).2 := by
  rw [list]
  split <;> simp_all

theorem unreadable_of_error {e : FileError} (h : (s.loadIfNeeded faults).1 = .error e) : e = .unreadable := by
  rw [loadIfNeeded] at h
  split at h
  case isTrue => simp at h
  case isFalse => cases hr : faults.reading <;> simp_all

section Flush

variable {flush : Faults → FileStore → Except FileError Unit × FileStore} {emit : KeyStore → List LicenseKey}

def Flushes (flush : Faults → FileStore → Except FileError Unit × FileStore) (emit : KeyStore → List LicenseKey) :
    Prop :=
  ∀ faults s, flush faults s =
    if faults.flush then (.error .flush, s) else (.ok (), { s with file := some (emit s.memory) })

theorem served_flush (hf : Flushes flush emit) {s₁ : FileStore} (file : s₁.file = s.file) (loaded : s₁.loaded)
    (view : ∀ id, s₁.memory.get id = s.view id) (k : LicenseKey) :
    Served emit s (answered k (flush faults { s₁ with memory := s₁.memory.insert k }).1)
      (flush faults { s₁ with memory := s₁.memory.insert k }).2 := by
  have inserted (id : String) : (s₁.memory.insert k).get id = if id = k.id then some k else s.view id := by
    rw [get_insert, view]
  rw [hf]
  split
  case isTrue =>
    refine .unwritten file loaded fun id => ?_
    exact (view_of_loaded (s := { s₁ with memory := s₁.memory.insert k }) loaded id).trans (inserted id)
  case isFalse =>
    refine .written rfl loaded fun id => ?_
    exact (view_of_loaded (s := { s₁ with memory := s₁.memory.insert k, file := _ }) loaded id).trans (inserted id)

theorem served_call (hf : Flushes flush emit) (hs : s.Partial) (faults : Faults) (c : Call) :
    Served emit s (outcome (serveWith flush) s (.call c faults)) (serveWith flush faults c s).2 := by
  have load : Served emit s .refused (s.loadIfNeeded faults).2 := served_load hs faults
  have file : (s.loadIfNeeded faults).2.file = s.file := loadIfNeeded_file
  rw [outcome, serveWith]
  generalize hr : s.loadIfNeeded faults = r at load file
  obtain ⟨answer, s₁⟩ := r
  cases answer
  case error e =>
    cases unreadable_of_error (congrArg Prod.fst hr)
    exact load
  case ok =>
    have read : (s.loadIfNeeded faults).1 = .ok () := congrArg Prod.fst hr
    have ok := loaded_of_ok read
    rw [hr] at ok
    have taken (k : LicenseKey) : Served emit s
        (answered k (flush faults { s₁ with memory := s₁.memory.insert k }).1)
        (flush faults { s₁ with memory := s₁.memory.insert k }).2 :=
      served_flush hf file ok.left ok.right k
    cases c
    case put record =>
      dsimp only
      cases s₁.memory.byKid.lookup record.kid
      case none    => exact taken record
      case some id =>
        dsimp only
        by_cases hid : id = record.id
        case pos =>
          rw [if_neg (not_not.mpr hid)]
          exact taken record
        case neg =>
          rw [if_pos hid]
          exact load
    case update id next =>
      dsimp only
      by_cases hg : (s₁.memory.get id).isNone
      case pos =>
        rw [if_pos hg]
        exact load
      case neg =>
        by_cases hid : id = next.id
        case pos =>
          rw [if_neg hg, if_neg (not_not.mpr hid)]
          exact taken next
        case neg =>
          rw [if_neg hg, if_pos hid]
          exact load

theorem served (hf : Flushes flush emit) (hs : s.Partial) (a : Access) :
    Served emit s (outcome (serveWith flush) s a) (access (serveWith flush) s a) := by
  cases a
  case call c faults => exact served_call hf hs faults c
  case get id faults =>
    show Served emit s .refused (s.get faults id).2
    rw [get_state]
    exact served_load hs faults
  case list filter faults =>
    show Served emit s .refused (s.list faults filter).2
    rw [list_state]
    exact served_load hs faults
  case reopen => exact .reopened

theorem lawful (hf : Flushes flush emit) (emitted : ∀ m k, k ∈ emit m ↔ m.get k.id = some k) :
    Lawful (store (serveWith flush)) LicenseKey.id Partial where
  keeps s a hs := by
    have served := served hf hs a
    simp only [store]
    generalize access (serveWith flush) s a = s', outcome (serveWith flush) s a = o at served
    cases served with
    | refused _ part     => exact part
    | unwritten _ loaded => exact fun h => absurd loaded h
    | written _ loaded   => exact fun h => absurd loaded h
    | reopened           => exact partial_closed s.file
  view s a id hs := by
    have served := served hf hs a
    simp only [store]
    generalize access (serveWith flush) s a = s', outcome (serveWith flush) s a = o at served
    cases served with
    | refused _ _ view   => exact view id
    | unwritten _ _ view => exact view id
    | written _ _ view   => exact view id
    | reopened           => exact view_of_unloaded (partial_closed s.file) (by simp) id
  lines s a id hs := by
    have served := served hf hs a
    simp only [store]
    generalize access (serveWith flush) s a = s', outcome (serveWith flush) s a = o at served
    cases served with
    | refused file           => simp [lines, file]
    | unwritten file         => simp [lines, file]
    | written file loaded view =>
      rw [lines, file, Option.getD_some, newest_emit emitted, ← view_of_loaded loaded]
      exact view id
    | reopened               => rfl

end Flush

theorem flushes_flush : Flushes flush (KeyStore.list {}) :=
  fun _ _ => rfl

theorem flushes_flushRows : Flushes flushRows fun m => m.byId.rows :=
  fun _ _ => rfl

-- What a call answers that reads the records, if the file can be read.
structure Reads (s : FileStore) (found : String → Option LicenseKey) : Prop where
  get  : ∀ faults id, faults.reading = none → (s.get faults id).1 = .ok (found id)
  list : ∀ faults filter, faults.reading = none → ∃ ks, (s.list faults filter).1 = .ok ks ∧
    ∀ k, k ∈ ks ↔ found k.id = some k ∧ filter.accepts k

theorem reads_view (s : FileStore) : s.Reads s.view := by
  have load (faults : Faults) (h : faults.reading = none) : (s.loadIfNeeded faults).1 = .ok () := by
    rw [loadIfNeeded]
    split <;> simp [h]
  constructor
  case get =>
    intro faults id h
    have ok := load faults h
    rw [FileStore.get, ← (loaded_of_ok ok).right]
    split <;> simp_all
  case list =>
    intro faults filter h
    have ok := load faults h
    refine ⟨(s.loadIfNeeded faults).2.memory.list filter, ?_, fun k => ?_⟩
    · rw [FileStore.list]
      split <;> simp_all
    · rw [mem_list, (loaded_of_ok ok).right]

end FileStore

open FileStore KeyStore Backlog Machine

-- What is read is always the newest of what is in the file and of what could not be written to it.
def KeepsAccount (serve : Serve) (file : Option (List LicenseKey)) (calls : List Access) : Prop :=
  Always (track (store serve)) (fun t => t.1.Reads (newest LicenseKey.id (t.1.lines ++ t.2)))
      ({ file := file }, []) calls ∧
    Each (track (store serve)) (Durable (store serve) LicenseKey.id) ({ file := file }, []) calls

theorem keepsAccount {flush : Faults → FileStore → Except FileError Unit × FileStore}
    {emit : KeyStore → List LicenseKey} (hf : Flushes flush emit) (emitted : ∀ m k, k ∈ emit m ↔ m.get k.id = some k)
    (file : Option (List LicenseKey)) (calls : List Access) : KeepsAccount (serveWith flush) file calls := by
  have start (id : String) : view { file := file } id = newest LicenseKey.id (lines { file := file }) id :=
    view_of_unloaded (partial_closed file) (by simp) id
  obtain ⟨accounted, durable⟩ := (lawful hf emitted).run (partial_closed file) start calls
  refine ⟨accounted.mono fun t h => ?_, durable⟩
  have view : newest LicenseKey.id (t.1.lines ++ t.2) = t.1.view := funext fun id => (h id).symm
  rw [view]
  exact reads_view t.1

-- Of a call that fails to write, the record is read as long as the file stays open, is written with the next call
-- that does not fail, and is lost if the file is closed before.
theorem keyFiles_accounted (file : Option (List LicenseKey)) (calls : List Access) :
    KeepsAccount FileStore.serve file calls ∧ KeepsAccount (serveWith flushRows) file calls := by
  constructor
  case left =>
    rw [serve_eq_serveWith]
    exact keepsAccount flushes_flush (fun m k => by simp [KeyStoreFilter.accepts]) file calls
  case right => exact keepsAccount flushes_flushRows (fun m k => mem_rows_iff) file calls

end Licensing
