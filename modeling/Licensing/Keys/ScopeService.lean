import Licensing.Keys.SigningKeys
import Licensing.Memory.Store

-- Rotations of signing keys in the scope services. The hierarchy works on the rows of a storage, which draws ids
-- and times of its own for the keys that are put there.

namespace Licensing

def KeyState.toString : KeyState → String
  | active   => "active"
  | retiring => "retiring"

namespace ScopeService

open Memory KeyHierarchy

-- `retireOutgoingAt` is `none` if it was not supplied.
structure RotateSigningKeyInput where
  scopeId           : Option String
  alg               : KeyAlg
  rootKid           : String
  rootPassphrase    : String
  signingPassphrase : String
  retireOutgoingAt  : Option (Option String) := none
  kid               : Option String := none

-- What the ports do differently.
structure ScopePort where
  hierarchy     : HierarchyPort
  makeKid       : KeyRole → String → String
  memory        : Memory.Port
  kidTaken      : String → Error
  rotateOptions : RotateSigningKeyInput → RotateSigningOptions
  actor         : Option String → String

def ScopePort.keyHierarchy {ρ κ : Type} (port : ScopePort) (backends : KeyBackends ρ κ) : KeyHierarchy ρ κ where
  port     := port.hierarchy
  backends := backends
  makeKid  := port.makeKid

-- What the storage finds at each write of a rotation, and the time of the entry in the log.
structure Writes where
  demote     : Env
  put        : Env
  link       : Env
  audit      : Env
  occurredAt : String

-- The rows as a store of keys. A list has the rows of all pages.
def keyStore (s : State) : KeyStore where
  byId  := s.keys
  byKid := s.keys.rows.map fun k => (k.kid, k.id)

-- The ids that the storage has given to the keys that were put, by the ids of the hierarchy.
structure StorageKeyStore where
  tx    : State
  idMap : List (String × String) := []

def keyInput (record : LicenseKey) : LicenseKeyInput where
  scopeId       := record.scopeId
  kid           := record.kid
  alg           := record.alg
  role          := record.role
  state         := record.state
  publicPem     := record.publicPem
  privatePemEnc := record.privatePemEnc
  rotatedFrom   := record.rotatedFrom
  rotatedAt     := record.rotatedAt
  notBefore     := record.notBefore
  notAfter      := record.notAfter
  meta_         := record.meta_

def keyPatch (next : LicenseKey) : LicenseKeyPatch where
  state       := some next.state
  rotatedFrom := some next.rotatedFrom
  rotatedAt   := some next.rotatedAt
  notAfter    := some next.notAfter
  meta_       := some next.meta_

namespace StorageKeyStore

variable (port : ScopePort) (ω : Env)

def resolve (id : String) (s : StorageKeyStore) : String :=
  (s.idMap.lookup id).getD id

def put (record : LicenseKey) (s : StorageKeyStore) : Except Error StorageKeyStore :=
  if s.tx.keys.rows.any (·.kid = record.kid) then .error (port.kidTaken record.kid)
  else match createKey port.memory ω (keyInput record) s.tx with
    | (.error e, _)       => .error e
    | (.ok persisted, tx) => .ok { tx := tx, idMap := (record.id, persisted.id) :: s.idMap }

def update (id : String) (next : LicenseKey) (s : StorageKeyStore) : Except Error StorageKeyStore :=
  let realId := s.resolve id
  match s.tx.keys.find realId with
  | none   => .error (port.hierarchy.malformed ("key not found: " ++ realId))
  | some _ =>
    match updateKey port.memory ω.clock realId (keyPatch next) s.tx with
    | (.error e, _) => .error e
    | (.ok _, tx)   => .ok { s with tx := tx }

end StorageKeyStore

variable {ρ κ : Type} (port : ScopePort) (backends : KeyBackends ρ κ) (d : Draw ρ) (w : Writes)

-- The rotation of the hierarchy, over a storage.
def rotateSigning (opts : RotateSigningOptions) (s : StorageKeyStore) :
    Except Error (RotateResult × StorageKeyStore) := do
  match ← d.storing .listActive (.ok ((keyStore s.tx).list (activeSigning opts.scopeId opts.alg))) with
  | []             =>
    .error (port.hierarchy.malformed ("no active signing key to rotate for scope=" ++
      scopeDescription opts.scopeId ++ " alg=" ++ opts.alg.toString))
  | _ :: _ :: rest =>
    .error (port.hierarchy.severalActive (rest.length + 2) (scopeDescription opts.scopeId) opts.alg)
  | [outgoing]     =>
    let s        ← d.storing .demote (s.update port w.demote outgoing.id (retiring d opts outgoing))
    let incoming ← (port.keyHierarchy backends).signingRecord d (issueOptions opts) (keyStore s.tx)
    let s        ← d.storing .put (s.put port w.put incoming)
    let s        ← d.storing .link (s.update port w.link incoming.id (linked d outgoing incoming))
    return (⟨retiring d opts outgoing, linked d outgoing incoming⟩, s)

def rotatedAudit (input : RotateSigningKeyInput) (actor : Option String) (result : RotateResult) : AuditLogInput where
  licenseId  := none
  scopeId    := input.scopeId
  actor      := port.actor actor
  event      := "key.rotated"
  priorState := some [("kid", .str result.outgoing.kid), ("state", .str "active")]
  newState   := some [
    ("outgoing_kid", .str result.outgoing.kid), ("outgoing_state", .str result.outgoing.state.toString),
    ("incoming_kid", .str result.incoming.kid), ("incoming_state", .str result.incoming.state.toString),
    ("alg", .str input.alg.toString)]
  occurredAt := w.occurredAt

-- One transaction, of which nothing stays if it fails.
def rotateSigningKey (input : RotateSigningKeyInput) (actor : Option String) (s : State) :
    Except Error RotateResult × State :=
  match rotateSigning port backends d w (port.rotateOptions input) { tx := s } with
  | .error e           => (.error e, s)
  | .ok (result, store) => (.ok result, (appendAudit w.audit (rotatedAudit port w input actor result) store.tx).2)

end ScopeService

namespace Go

-- `RetireOutgoingSet` is not copied, so that the end of the outgoing key is not.
def rotOpts (input : ScopeService.RotateSigningKeyInput) : RotateSigningOptions where
  scopeId           := input.scopeId
  alg               := input.alg
  rootKid           := input.rootKid
  rootPassphrase    := input.rootPassphrase
  signingPassphrase := input.signingPassphrase
  kid               := input.kid

def scopeService : ScopeService.ScopePort where
  hierarchy     := hierarchy
  makeKid       := defaultMakeKid
  memory        := memory
  kidTaken kid  := newError .uniqueConstraintViolation ("kid: " ++ kid)
  rotateOptions := rotOpts
  actor a       := (a.filter (· ≠ "")).getD "system"

end Go

namespace Ts

def rotateOptions (input : ScopeService.RotateSigningKeyInput) : RotateSigningOptions where
  scopeId           := input.scopeId
  alg               := input.alg
  rootKid           := input.rootKid
  rootPassphrase    := input.rootPassphrase
  signingPassphrase := input.signingPassphrase
  retireOutgoingAt  := input.retireOutgoingAt
  kid               := input.kid

def scopeService : ScopeService.ScopePort where
  hierarchy     := hierarchy
  makeKid       := defaultMakeKid
  memory        := memory
  kidTaken      := uniqueConstraintViolation "kid"
  rotateOptions := rotateOptions
  actor a       := a.getD "system"

end Ts

namespace ScopeService

open Memory KeyHierarchy

variable {ρ κ : Type} {port : ScopePort} {backends : KeyBackends ρ κ} {d : Draw ρ} {w : Writes}
  {opts : RotateSigningOptions} {input : RotateSigningKeyInput} {actor : Option String} {s s' : State}
  {result : RotateResult} {outgoing incoming : LicenseKey}

section StorageKeyStore

variable {ω : Env} {store store' : StorageKeyStore} {record next : LicenseKey} {id : String}

theorem put_eq_ok (h : store.put port ω record = .ok store') :
    (∀ k ∈ store.tx.keys.rows, k.kid ≠ record.kid) ∧ store' = {
      tx    := { store.tx with keys := store.tx.keys.put (createdKey ω (keyInput record)) }
      idMap := (record.id, ω.freshId) :: store.idMap } := by
  unfold StorageKeyStore.put at h
  split at h
  case isTrue => cases h
  case isFalse hk =>
    have kids : ∀ k ∈ store.tx.keys.rows, k.kid ≠ record.kid := by simpa using hk
    unfold createKey at h
    split at h
    case h_1 => cases h
    case h_2 he =>
      cases h
      split at he
      case isTrue => cases he
      case isFalse =>
        split at he
        case isTrue => cases he
        case isFalse =>
          cases he
          exact ⟨kids, rfl⟩

theorem update_eq_ok (h : store.update port ω id next = .ok store') :
    ∃ cur, store.tx.keys.find (store.resolve id) = some cur ∧ store' = { store with
      tx := { store.tx with keys := store.tx.keys.replace (patchedKey ω.clock (keyPatch next) cur) } } := by
  unfold StorageKeyStore.update at h
  dsimp only at h
  split at h
  case h_1 => cases h
  case h_2 cur hc =>
    refine ⟨cur, hc, ?_⟩
    unfold updateKey at h
    rw [hc] at h
    split at h
    case h_1 => cases h
    case h_2 he =>
      cases h
      dsimp only at he
      split at he
      case isTrue => cases he
      case isFalse =>
        cases he
        rfl

end StorageKeyStore

-- The row of the key that a rotation retires, and of the one that it issues.
def retiredRow (d : Draw ρ) (w : Writes) (opts : RotateSigningOptions) (outgoing : LicenseKey) : LicenseKey :=
  { retiring d opts outgoing with updatedAt := w.demote.clock }

def issuedRow (d : Draw ρ) (w : Writes) (outgoing incoming : LicenseKey) : LicenseKey :=
  { linked d outgoing incoming with
    id        := w.put.freshId
    createdAt := w.put.clock
    updatedAt := w.link.clock }

-- What a rotation that succeeds returns, and what it has done to the keys.
structure Rotates (d : Draw ρ) (w : Writes) (opts : RotateSigningOptions) (s s' : State)
    (outgoing incoming : LicenseKey) (result : RotateResult) : Prop where
  active    : (keyStore s).list (activeSigning opts.scopeId opts.alg) = [outgoing]
  id        : incoming.id = d.id
  state     : incoming.state = .active
  createdAt : incoming.createdAt = d.now
  kid       : ∀ id k, s.keys.find id = some k → k.kid ≠ incoming.kid
  result    : result = ⟨retiring d opts outgoing, linked d outgoing incoming⟩
  find      : ∀ id, s'.keys.find id =
    if id = w.put.freshId then some (issuedRow d w outgoing incoming)
    else if id = outgoing.id then some (retiredRow d w opts outgoing) else s.keys.find id

theorem find_of_active (active : (keyStore s).list (activeSigning opts.scopeId opts.alg) = [outgoing]) :
    s.keys.find outgoing.id = some outgoing := by
  have hm : outgoing ∈ (keyStore s).list (activeSigning opts.scopeId opts.alg) := by simp [active]
  exact (KeyStore.mem_list.mp hm).left

theorem rotateSigning_eq_ok {store : StorageKeyStore}
    (h : rotateSigning port backends d w opts { tx := s } = .ok (result, store)) :
    ∃ outgoing incoming, Rotates d w opts s store.tx outgoing incoming result := by
  rw [rotateSigning, bind_eq_ok_iff] at h
  obtain ⟨actives, hl, h⟩ := h
  obtain ⟨_, hl⟩ := storing_eq_ok_iff.mp hl
  split at h
  case h_1 => cases h
  case h_2 => cases h
  case h_3 outgoing _ =>
    have active := Except.ok.inj hl
    have found := find_of_active active
    simp only [bind_eq_ok_iff, storing_eq_ok_iff] at h
    obtain ⟨s₁, ⟨_, hu⟩, incoming, hi, s₂, ⟨_, hp⟩, s₃, ⟨_, hk⟩, h⟩ := h
    cases h
    obtain ⟨cur, hc, rfl⟩ := update_eq_ok hu
    cases found.symm.trans hc
    obtain ⟨hkid, rfl⟩ := put_eq_ok hp
    obtain ⟨cur, hc, rfl⟩ := update_eq_ok hk
    obtain ⟨root, g, enc, sig, _, rfl⟩ := signingRecord_eq_ok_iff.mp hi
    simp only [StorageKeyStore.resolve, List.lookup_cons_self, Option.getD_some, Table.find_put] at hc
    rw [createdKey, if_pos rfl] at hc
    cases hc
    have retired (id : String) : (s.keys.replace (retiredRow d w opts outgoing)).find id =
        if id = outgoing.id then some (retiredRow d w opts outgoing) else s.keys.find id :=
      Table.find_replace found
    refine ⟨outgoing, _, active, rfl, rfl, rfl, fun id k hk => ?_, rfl, fun id => ?_⟩
    case refine_1 =>
      by_cases hid : id = outgoing.id
      case pos =>
        have hr := retired id
        rw [if_pos hid] at hr
        cases found.symm.trans (hid ▸ hk)
        exact hkid (retiredRow d w opts outgoing) (Rows.mem_of_find hr)
      case neg =>
        have hr := retired id
        rw [if_neg hid, hk] at hr
        exact hkid k (Rows.mem_of_find hr)
    case refine_2 =>
      rw [← retired]
      exact Table.find_replace_put rfl

theorem rotateSigningKey_eq_ok (h : rotateSigningKey port backends d w input actor s = (.ok result, s')) :
    ∃ outgoing incoming, Rotates d w (port.rotateOptions input) s s' outgoing incoming result := by
  unfold rotateSigningKey at h
  split at h
  case h_1 => cases h
  case h_2 hr =>
    cases h
    obtain ⟨outgoing, incoming, r⟩ := rotateSigning_eq_ok hr
    exact ⟨outgoing, incoming, { r with }⟩

-- The keys are stored as they were asked for and as they are returned.
structure StoredRotation (retireOutgoingAt : Option (Option String)) (s' : State) (outgoing : LicenseKey)
    (result : RotateResult) : Prop where
  retiring : ∃ row, s'.keys.find outgoing.id = some row ∧ row.state = .retiring ∧
    row.notAfter = retireOutgoingAt.getD outgoing.notAfter
  issued   : ∃ row ∈ s'.keys.rows, row.kid = result.incoming.kid ∧ row.state = .active ∧
    row.rotatedFrom = some outgoing.id
  outgoing : s'.keys.find result.outgoing.id = some result.outgoing
  incoming : s'.keys.find result.incoming.id = some result.incoming

-- The storage draws the id that the hierarchy has drawn, which is new, and reads the same times.
structure DrawsAgree (d : Draw ρ) (w : Writes) (outgoing : LicenseKey) : Prop where
  id     : w.put.freshId = d.id
  new    : d.id ≠ outgoing.id
  demote : w.demote.clock = d.rotatedAt
  put    : w.put.clock = d.now
  link   : w.link.clock = d.rotatedAt

namespace Rotates

theorem stored (r : Rotates d w opts s s' outgoing incoming result) (agree : DrawsAgree d w outgoing)
    {retireOutgoingAt : Option (Option String)}
    (retire : opts.retireOutgoingAt.getD outgoing.notAfter = retireOutgoingAt.getD outgoing.notAfter) :
    StoredRotation retireOutgoingAt s' outgoing result := by
  have issued : s'.keys.find d.id = some (linked d outgoing incoming) := by
    rw [r.find, if_pos agree.id.symm, issuedRow, agree.id, agree.put, agree.link, ← r.id, ← r.createdAt]
    rfl
  have retired : s'.keys.find outgoing.id = some (retiring d opts outgoing) := by
    rw [r.find, if_neg (agree.id ▸ agree.new.symm), if_pos rfl, retiredRow, agree.demote]
    rfl
  rw [r.result]
  constructor
  case retiring => exact ⟨_, retired, rfl, retire⟩
  case issued   => exact ⟨_, Rows.mem_of_find issued, rfl, r.state, rfl⟩
  case outgoing => exact retired
  case incoming => exact (congrArg s'.keys.find r.id).trans issued

theorem agree_of_stored {retireOutgoingAt : Option (Option String)}
    (r : Rotates d w opts s s' outgoing incoming result)
    (stored : StoredRotation retireOutgoingAt s' outgoing result) :
    DrawsAgree d w outgoing ∧
      opts.retireOutgoingAt.getD outgoing.notAfter = retireOutgoingAt.getD outgoing.notAfter := by
  have hret : s'.keys.find outgoing.id = some (retiring d opts outgoing) := by
    have ho := stored.outgoing
    rwa [r.result] at ho
  have hlin : s'.keys.find d.id = some (linked d outgoing incoming) := by
    have hi := stored.incoming
    rwa [r.result, show (linked d outgoing incoming).id = d.id from r.id] at hi
  have hnew : outgoing.id ≠ w.put.freshId := by
    intro he
    rw [r.find, if_pos he, Option.some.injEq] at hret
    have hs : incoming.state = .retiring := congrArg LicenseKey.state hret
    rw [r.state] at hs
    contradiction
  have hid : d.id = w.put.freshId := by
    by_contra hne
    rw [r.find, if_neg hne] at hlin
    split at hlin
    case isTrue =>
      have hs : KeyState.retiring = incoming.state := congrArg LicenseKey.state (Option.some.inj hlin)
      rw [r.state] at hs
      contradiction
    case isFalse => exact r.kid _ _ hlin rfl
  have hrow := hret
  rw [r.find, if_neg hnew, if_pos rfl, Option.some.injEq] at hrow
  have hiss := hlin
  rw [r.find, if_pos hid, Option.some.injEq] at hiss
  obtain ⟨row, hf, _, hn⟩ := stored.retiring
  cases hret.symm.trans hf
  refine ⟨⟨hid.symm, fun he => hnew (he.symm.trans hid), ?_, ?_, ?_⟩, hn⟩
  case refine_1 => exact congrArg LicenseKey.updatedAt hrow
  case refine_2 => exact (congrArg LicenseKey.createdAt hiss).trans r.createdAt
  case refine_3 => exact congrArg LicenseKey.updatedAt hiss

theorem stored_iff {retireOutgoingAt : Option (Option String)}
    (r : Rotates d w opts s s' outgoing incoming result) :
    StoredRotation retireOutgoingAt s' outgoing result ↔ DrawsAgree d w outgoing ∧
      opts.retireOutgoingAt.getD outgoing.notAfter = retireOutgoingAt.getD outgoing.notAfter :=
  ⟨r.agree_of_stored, fun ⟨agree, retire⟩ => r.stored agree retire⟩

end Rotates

-- In both ports a rotation returns what it has stored only if the storage draws the id that the hierarchy has
-- drawn and reads the same times. Besides, the Go port does not set the end of the outgoing key.
theorem rotateSigningKey_stored_iff (backends : KeyBackends ρ κ) (d : Draw ρ) (w : Writes)
    (input : RotateSigningKeyInput) (actor : Option String) (s s' : State) (result : RotateResult) :
    (rotateSigningKey Go.scopeService backends d w input actor s = (.ok result, s') → ∃ outgoing,
      (keyStore s).list (activeSigning input.scopeId input.alg) = [outgoing] ∧
        (StoredRotation input.retireOutgoingAt s' outgoing result ↔ DrawsAgree d w outgoing ∧
          outgoing.notAfter = input.retireOutgoingAt.getD outgoing.notAfter)) ∧
    (rotateSigningKey Ts.scopeService backends d w input actor s = (.ok result, s') → ∃ outgoing,
      (keyStore s).list (activeSigning input.scopeId input.alg) = [outgoing] ∧
        (StoredRotation input.retireOutgoingAt s' outgoing result ↔ DrawsAgree d w outgoing)) := by
  constructor
  case left =>
    intro h
    obtain ⟨outgoing, incoming, r⟩ := rotateSigningKey_eq_ok h
    exact ⟨outgoing, r.active, r.stored_iff⟩
  case right =>
    intro h
    obtain ⟨outgoing, incoming, r⟩ := rotateSigningKey_eq_ok h
    exact ⟨outgoing, r.active, r.stored_iff.trans (and_iff_left rfl)⟩

section Sample

-- A root and the only signing key of the global scope.
def storedRoot : LicenseKey :=
  { rootKey with id := "i0" }

def sampleState : State where
  keys := .ofList [storedRoot, soleKey]

def sampleInput : RotateSigningKeyInput where
  scopeId           := none
  alg               := .ed25519
  rootKid           := "r1"
  rootPassphrase    := "p"
  signingPassphrase := "q"
  retireOutgoingAt  := some (some "2026-02-01T00:00:00Z")
  kid               := some "k2"

-- The id of the storage is another one than that of the hierarchy.
def sampleWrites : Writes where
  demote     := {}
  put        := { freshId := "i3" }
  link       := {}
  audit      := { freshId := "i4" }
  occurredAt := ""

def retiredState (port : ScopePort) : State :=
  let row := retiredRow (drawing "i2") sampleWrites (port.rotateOptions sampleInput) soleKey
  { sampleState with keys := sampleState.keys.replace row }

def sampleAttestation (port : ScopePort) : List UInt8 :=
  0 :: attestationBytes "k2" .ed25519 (port.hierarchy.base64urlEncode []) "" none

def issuedKey (port : ScopePort) : LicenseKey :=
  (port.keyHierarchy plainBackends).newSigning (drawing "i2") (issueOptions (port.rotateOptions sampleInput))
    storedRoot plainKey (some "q") (sampleAttestation port)

theorem signingRecord_sample (hp : port = Go.scopeService ∨ port = Ts.scopeService) :
    (port.keyHierarchy plainBackends).signingRecord (drawing "i2") (issueOptions (port.rotateOptions sampleInput))
      (keyStore (retiredState port)) = .ok (issuedKey port) := by
  have lawful : port.hierarchy.Lawful := by
    rcases hp with rfl | rfl
    case inl => exact Go.lawful_hierarchy
    case inr => exact Ts.lawful_hierarchy
  have attested : (port.keyHierarchy plainBackends).attestSigning (drawing "i2") storedRoot "p" "k2" .ed25519 []
      "" none = .ok (sampleAttestation port) := by
    simp only [attestSigning, storedRoot, rootKey, bind_eq_ok_iff]
    exact ⟨(), rfl, [], rfl, (), rfl, _, lawful.canonical _ _ _ _ _, rfl⟩
  apply signingRecord_eq_ok_iff.mpr
  refine ⟨storedRoot, plainKey, some "q", sampleAttestation port, ?_, rfl⟩
  rcases hp with rfl | rfl
  all_goals exact {
    signingPassphrase := by decide
    rootPassphrase    := by decide
    asymmetric        := by decide
    listed            := rfl
    vacant            := rfl
    found             := rfl
    known             := rfl
    role              := rfl
    alg               := rfl
    scope             := rfl
    backend           := rfl
    generated         := rfl
    sealed            := rfl
    attested          := attested }

theorem rotateSigningKey_sample (hp : port = Go.scopeService ∨ port = Ts.scopeService) : ∃ result s',
    rotateSigningKey port plainBackends (drawing "i2") sampleWrites sampleInput none sampleState =
      (.ok result, s') := by
  have record := signingRecord_sample hp
  have runs : ∃ r, rotateSigning port plainBackends (drawing "i2") sampleWrites (port.rotateOptions sampleInput)
      { tx := sampleState } = .ok r := by
    rcases hp with rfl | rfl
    all_goals
      exact ⟨_, bind_eq_ok_iff.mpr ⟨[soleKey], rfl, bind_eq_ok_iff.mpr ⟨{ tx := retiredState _ }, rfl,
        bind_eq_ok_iff.mpr ⟨_, record, bind_eq_ok_iff.mpr ⟨_, rfl, bind_eq_ok_iff.mpr ⟨_, rfl, rfl⟩⟩⟩⟩⟩⟩
  obtain ⟨⟨result, store⟩, runs⟩ := runs
  rw [rotateSigningKey, runs]
  exact ⟨result, _, rfl⟩

theorem rotateSigningKey_stored_sample :
    (∃ result s' outgoing, (keyStore sampleState).list (activeSigning none .ed25519) = [outgoing] ∧
      (StoredRotation sampleInput.retireOutgoingAt s' outgoing result ↔
        DrawsAgree (drawing "i2") sampleWrites outgoing ∧
          outgoing.notAfter = sampleInput.retireOutgoingAt.getD outgoing.notAfter)) ∧
    ∃ result s' outgoing, (keyStore sampleState).list (activeSigning none .ed25519) = [outgoing] ∧
      (StoredRotation sampleInput.retireOutgoingAt s' outgoing result ↔
        DrawsAgree (drawing "i2") sampleWrites outgoing) := by
  obtain ⟨result, s', hgo⟩ := rotateSigningKey_sample (.inl rfl)
  obtain ⟨result', s'', hts⟩ := rotateSigningKey_sample (.inr rfl)
  exact ⟨⟨result, s', (rotateSigningKey_stored_iff _ _ _ _ _ _ _ _).left hgo⟩,
    ⟨result', s'', (rotateSigningKey_stored_iff _ _ _ _ _ _ _ _).right hts⟩⟩

-- The end that was asked for is not set in the Go port.
theorem not_rotateSigningKey_stored :
    ¬∀ (port : ScopePort) (d : Draw Unit) w input actor s s' result outgoing,
      port = Go.scopeService ∨ port = Ts.scopeService →
        rotateSigningKey port plainBackends d w input actor s = (.ok result, s') →
          (keyStore s).list (activeSigning input.scopeId input.alg) = [outgoing] →
            StoredRotation input.retireOutgoingAt s' outgoing result := by
  intro hall
  obtain ⟨result, s', h⟩ := rotateSigningKey_sample (.inl rfl)
  have stored := hall _ _ _ _ _ _ _ _ soleKey (.inl rfl) h rfl
  obtain ⟨outgoing, incoming, r⟩ := rotateSigningKey_eq_ok h
  cases List.singleton_inj.mp (r.active.symm.trans rfl : [outgoing] = [soleKey])
  have he := (r.agree_of_stored stored).right
  contradiction

end Sample

end ScopeService

end Licensing
