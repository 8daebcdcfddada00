import Licensing.Keys.Attestation
import Licensing.Model.Clocks
import Licensing.Postgres.Adapter

-- Signing keys that the scope service of the Go port issues on Postgres, and their attestations as the
-- adapters of both ports read the rows.

namespace Licensing

open KeyHierarchy

namespace Postgres

-- What the store adds to a new row, and why it refuses it, if it does.
structure Insertion where
  id      : String
  now     : Int
  refused : Option Error := none

def createKey (ins : Insertion) (record : LicenseKey) : KeyRow where
  id            := ins.id
  scopeId       := record.scopeId
  kid           := record.kid
  alg           := record.alg
  role          := record.role
  state         := record.state
  publicPem     := record.publicPem
  privatePemEnc := record.privatePemEnc
  rotatedFrom   := record.rotatedFrom
  rotatedAt     := Go.tsOrNull record.rotatedAt
  notBefore     := Go.tsVal record.notBefore
  notAfter      := Go.tsOrNull record.notAfter
  meta_         := record.meta_
  createdAt     := ins.now
  updatedAt     := ins.now

-- The rows as a store of keys.
def keyStore (iso : Int → String) (t : Table KeyRow.id) : KeyStore where
  byId  := ⟨t.rows.map (scanKey iso), by rw [List.map_map]; exact t.nodup⟩
  byKid := t.rows.map fun r => (r.kid, r.id)

variable {ρ κ : Type}

-- The record is read again after it was put. The log is left out, which no key depends on.
def issueInitialSigningKey (h : KeyHierarchy ρ κ) (d : Draw ρ) (ins : Insertion) (opts : IssueSigningOptions)
    (t : Table KeyRow.id) : Except Error LicenseKey × Table KeyRow.id :=
  match h.signingRecord d opts (keyStore Go.isoFromTime t) with
  | .error e   => (.error e, t)
  | .ok record =>
    if t.rows.any (·.kid = record.kid) then
      (.error (newError .uniqueConstraintViolation ("kid: " ++ record.kid)), t)
    else match t.find ins.id, ins.refused with
      | some _, _    => (.error (newError .uniqueConstraintViolation "license_keys_pkey"), t)
      | none, some e => (.error e, t)
      | none, none   => (.ok (scanKey Go.isoFromTime (createKey ins record)), t.put (createKey ins record))

section KeyStore

variable {iso : Int → String} {t : Table KeyRow.id} {r : KeyRow} {kid : String}

theorem get_keyStore (id : String) : (keyStore iso t).get id = (t.find id).map (scanKey iso) := by
  rw [KeyStore.get, keyStore, Table.find, Rows.find, List.find?_map]
  rfl

-- No two rows have the same kid.
theorem findByKid_keyStore (kids : (t.rows.map KeyRow.kid).Nodup) (hr : r ∈ t.rows) :
    (keyStore iso t).findByKid r.kid = some (scanKey iso r) := by
  have hl : (keyStore iso t).byKid.lookup r.kid = some r.id := by
    apply lookup_eq_some_of_mem
    case hd =>
      rw [keyStore, List.map_map]
      exact kids
    case hm => exact List.mem_map.mpr ⟨r, hr, rfl⟩
  rw [KeyStore.findByKid, hl, Option.bind_some, get_keyStore, Table.find_of_mem hr]
  rfl

theorem row_of_findByKid {k : LicenseKey} (h : (keyStore iso t).findByKid kid = some k) :
    ∃ r ∈ t.rows, scanKey iso r = k := by
  rw [KeyStore.findByKid, Option.bind_eq_some_iff] at h
  obtain ⟨id, _, hg⟩ := h
  rw [get_keyStore, Option.map_eq_some_iff] at hg
  obtain ⟨r, hr, hk⟩ := hg
  exact ⟨r, Rows.mem_of_find hr, hk⟩

end KeyStore

section Attestation

variable {h h' : KeyHierarchy ρ κ} {d : Draw ρ} {ins : Insertion} {opts : IssueSigningOptions} {t t' : Table KeyRow.id}
  {k : LicenseKey} {iso : Int → String}

theorem issueInitialSigningKey_eq_ok (issued : issueInitialSigningKey h d ins opts t = (.ok k, t')) :
    ∃ record, h.signingRecord d opts (keyStore Go.isoFromTime t) = .ok record ∧
      k = scanKey Go.isoFromTime (createKey ins record) ∧ t.find ins.id = none ∧ t' = t.put (createKey ins record) := by
  unfold issueInitialSigningKey at issued
  split at issued
  case h_1 => cases issued
  case h_2 record hr =>
    split at issued
    case isTrue => cases issued
    case isFalse =>
      split at issued
      case h_1 => cases issued
      case h_2 => cases issued
      case h_3 hf _ =>
        cases issued
        exact ⟨record, hr, rfl, hf, rfl⟩

-- The signature covers the texts of the clock and of the request, and the attestation is that of the texts
-- which are read.
theorem verifyAttestation_row {root : LicenseKey} {g : Generated} {enc : Option String} {sig : List UInt8}
    (hb : h.backends.Sound) (hp : h.port = Go.hierarchy) (hb' : h'.backends = h.backends) (hp' : h'.port.Lawful)
    (he : h'.port.base64urlEncode = Go.base64urlEncode)
    (ha : h.Attests d opts (keyStore Go.isoFromTime t) root g enc sig) (gen : Genuine h.backends root)
    (hkid : root.kid ≠ "") {rootRow row : KeyRow} (hroot : scanKey Go.isoFromTime rootRow = root)
    (hrow : row = createKey ins (h.newSigning d opts root g enc sig)) {later : Table KeyRow.id}
    (kids : (later.rows.map KeyRow.kid).Nodup) (hr : rootRow ∈ later.rows) (hk : row ∈ later.rows) :
    h'.verifyAttestation row.kid (keyStore iso later) =
      .ok (decide (iso (Go.tsVal d.now) = d.now ∧ (Go.tsOrNull opts.notAfter).map iso = opts.notAfter)) := by
  obtain ⟨hsig, himp, m, hm, hv⟩ := ha.verifies hb gen
  have hm' : m = attestationBytes (h.kid opts.kid .signing d.id) opts.alg (Go.base64urlEncode g.publicRaw) d.now
      opts.notAfter := by
    rw [hp] at hm
    exact (Except.ok.inj (hm.symm.trans (Go.lawful_hierarchy.canonical _ _ _ _ _)))
  have hne : Go.base64urlEncode sig ≠ "" := Go.lawful_hierarchy.encode_ne hsig rfl
  have hmeta : attestation? (scanKey iso row) = some (root.kid, Go.base64urlEncode sig) := by
    apply attestation?_rootAttestation hkid hne
    rw [hrow]
    change rootAttestation root.kid (h.port.base64urlEncode sig) = _
    rw [hp]
    rfl
  have hfind : (keyStore iso later).findByKid row.kid = some (scanKey iso row) := findByKid_keyStore kids hk
  have hfound : (keyStore iso later).findByKid root.kid = some (scanKey iso rootRow) := by
    rw [← hroot]
    exact findByKid_keyStore kids hr
  have hrole : (scanKey iso rootRow).role = .root := by
    have hr := ha.role
    rwa [← hroot] at hr
  have halg : (scanKey iso rootRow).alg = opts.alg := by
    have ha := ha.alg
    rwa [← hroot] at ha
  have hpem : (scanKey iso rootRow).publicPem = root.publicPem := by rw [← hroot]; rfl
  have hdecode : h'.port.base64urlDecode (Go.base64urlEncode sig) = .ok sig := he ▸ hp'.decode sig
  have hsr : (scanKey iso row).role = .signing := by rw [hrow]; rfl
  have hsa : (scanKey iso row).alg = opts.alg := by rw [hrow]; rfl
  have hsp : (scanKey iso row).publicPem = g.publicPem := by rw [hrow]; rfl
  have hskid : (scanKey iso row).kid = h.kid opts.kid .signing d.id := by rw [hrow]; rfl
  have hsb : (scanKey iso row).notBefore = iso (Go.tsVal d.now) := by rw [hrow]; rfl
  have hsn : (scanKey iso row).notAfter = (Go.tsOrNull opts.notAfter).map iso := by rw [hrow]; rfl
  have hraw := hb.publicRaw ha.asymmetric ha.generated
  have hcanonical := hp'.canonical (h.kid opts.kid .signing d.id) opts.alg g.publicRaw (iso (Go.tsVal d.now))
    ((Go.tsOrNull opts.notAfter).map iso)
  rw [KeyHierarchy.verifyAttestation, hfind]
  simp [hsr, hmeta, hfound, hrole, halg, hsa, hb', ha.backend, hpem, himp, hsp, hraw, hskid, hsb, hsn, hcanonical,
    hdecode, hv, hm', he, bind, Except.bind, attestationBytes_inj]

-- A signing key that the scope service issues is verified by the Go port just if the clock is at a whole
-- microsecond, but no whole ten of them, and the end has the six digits of the text that is read. It is never
-- verified by the TypeScript port, whose texts end with zeros. Rows of the table stay as they are.
theorem verifyAttestation_issued_iff (hb : h.backends.Sound) (hp : h.port = Go.hierarchy) {n : Int}
    (hn : FourDigits (n / 1000000000)) (clock : d.now = Go.systemClock n)
    (roots : ∀ r ∈ t.rows, r.role = .root → Genuine h.backends (scanKey Go.isoFromTime r) ∧ r.kid ≠ "")
    (issued : issueInitialSigningKey h d ins opts t = (.ok k, t')) {later : Table KeyRow.id}
    (kids : (later.rows.map KeyRow.kid).Nodup) (stay : ∀ r ∈ t'.rows, r ∈ later.rows) :
    (h.verifyAttestation k.kid (keyStore Go.isoFromTime later) = .ok true ↔
      (1000 ∣ n ∧ ¬10000 ∣ n) ∧ ∀ text, opts.notAfter = some text → IsMicros text) ∧
    { h with port := Ts.hierarchy }.verifyAttestation k.kid (keyStore Ts.toIso later) = .ok false := by
  obtain ⟨record, hr, rfl, new, rfl⟩ := issueInitialSigningKey_eq_ok issued
  obtain ⟨root, g, enc, sig, ha, rfl⟩ := signingRecord_eq_ok_iff.mp hr
  obtain ⟨rootRow, hm, hroot⟩ := row_of_findByKid ha.known
  have hrole : rootRow.role = .root := by
    have hr := ha.role
    rwa [← hroot] at hr
  obtain ⟨gen, hkid⟩ := roots rootRow hm hrole
  let row := createKey ins (h.newSigning d opts root g enc sig)
  have hput : (t.put row).rows = t.rows ++ [row] := Table.rows_put new
  have hin : row ∈ later.rows := stay _ (by simp [row, hput])
  have hrin : rootRow ∈ later.rows := stay _ (by simp [row, hput, hm])
  have verify (h' : KeyHierarchy ρ κ) (iso : Int → String) (hb' : h'.backends = h.backends) (hp' : h'.port.Lawful)
      (he : h'.port.base64urlEncode = Go.base64urlEncode) : h'.verifyAttestation row.kid (keyStore iso later) =
        .ok (decide (iso (Go.tsVal d.now) = d.now ∧ (Go.tsOrNull opts.notAfter).map iso = opts.notAfter)) :=
    verifyAttestation_row hb hp hb' hp' he ha (hroot ▸ gen) (hroot ▸ hkid) hroot rfl kids hrin hin
  have go := verify h Go.isoFromTime rfl (hp ▸ Go.lawful_hierarchy) (hp ▸ rfl)
  have ts := verify { h with port := Ts.hierarchy } Ts.toIso rfl Ts.lawful_hierarchy rfl
  refine ⟨(iff_of_eq (congrArg (· = _) go)).trans ?_, ts.trans ?_⟩
  case refine_1 =>
    rw [Except.ok.injEq, decide_eq_true_eq, clock]
    exact and_congr (go_readBack_iff.trans (isMicros_systemClock_iff hn)) (go_readBackOrNull_iff opts.notAfter)
  case refine_2 =>
    rw [Except.ok.injEq, decide_eq_false_iff_not, clock]
    exact fun h => isoFromMs_ne_systemClock h.left

end Attestation

-- A root, and a signing key that it attests at some instant.
def rootRow : KeyRow where
  id            := "i1"
  scopeId       := none
  kid           := "r1"
  alg           := .ed25519
  role          := .root
  state         := .active
  publicPem     := ""
  privatePemEnc := some "p"
  rotatedFrom   := none
  rotatedAt     := none
  notBefore     := 1767225600000000
  notAfter      := none
  meta_         := []
  createdAt     := 1767225600000000
  updatedAt     := 1767225600000000

def rootTable : Table KeyRow.id :=
  .ofList [rootRow]

def drawnAt (n : Int) : Draw Unit :=
  { drawing "i2" with now := Go.systemClock n }

def inserted : Insertion where
  id  := "i3"
  now := 1767225600000000

def issuedAt (n : Int) : LicenseKey :=
  sampleHierarchy.newSigning (drawnAt n) sampleSigning (scanKey Go.isoFromTime rootRow) plainKey (some "q")
    (sampleSignature (drawnAt n) sampleSigning)

theorem attests_rootRow (n : Int) : sampleHierarchy.Attests (drawnAt n) sampleSigning
    (keyStore Go.isoFromTime rootTable) (scanKey Go.isoFromTime rootRow) plainKey (some "q")
      (sampleSignature (drawnAt n) sampleSigning) where
  signingPassphrase := by decide
  rootPassphrase    := by decide
  asymmetric        := by decide
  listed            := rfl
  vacant            := rfl
  found             := rfl
  known             := rfl
  role              := rfl
  alg               := rfl
  scope             := rfl
  backend           := rfl
  generated         := rfl
  sealed            := rfl
  attested          := by
    simp only [attestSigning, scanKey, rootRow, bind_eq_ok_iff]
    exact ⟨(), rfl, [], rfl, (), rfl, _, Go.attestationCanonical_eq _ _ _ _ _, rfl⟩

theorem issueInitialSigningKey_rootTable (n : Int) :
    issueInitialSigningKey sampleHierarchy (drawnAt n) inserted sampleSigning rootTable =
      (.ok (scanKey Go.isoFromTime (createKey inserted (issuedAt n))),
        rootTable.put (createKey inserted (issuedAt n))) := by
  have hr := signingRecord_eq_ok_iff.mpr ⟨_, _, _, _, attests_rootRow n, rfl⟩
  rw [issueInitialSigningKey, hr]
  rfl

theorem genuine_rootRow : ∀ r ∈ rootTable.rows, r.role = .root →
    Genuine sampleHierarchy.backends (scanKey Go.isoFromTime r) ∧ r.kid ≠ "" := by
  intro r hr _
  rw [List.mem_singleton.mp hr]
  refine ⟨⟨"", (), plainKey, rfl, rfl, ?_⟩, by decide⟩
  rintro enc ⟨⟩
  exact ⟨[], "p", (), rfl, rfl⟩

def issuedTable (n : Int) : Table KeyRow.id :=
  rootTable.put (createKey inserted (issuedAt n))

theorem nodup_issuedTable (n : Int) : ((issuedTable n).rows.map KeyRow.kid).Nodup := by
  rw [issuedTable, Table.rows_put rfl]
  exact (by decide : ["r1", "k1"].Nodup)

-- At a whole microsecond.
theorem verifyAttestation_issued_micros :
    (sampleHierarchy.verifyAttestation "k1" (keyStore Go.isoFromTime (issuedTable 1767225600123456000)) = .ok true ↔
      (1000 ∣ (1767225600123456000 : Int) ∧ ¬10000 ∣ (1767225600123456000 : Int)) ∧
        ∀ text, sampleSigning.notAfter = some text → IsMicros text) ∧
      { sampleHierarchy with port := Ts.hierarchy }.verifyAttestation "k1"
        (keyStore Ts.toIso (issuedTable 1767225600123456000)) = .ok false :=
  verifyAttestation_issued_iff sound_plainBackends rfl (by decide) rfl genuine_rootRow
    (issueInitialSigningKey_rootTable 1767225600123456000) (nodup_issuedTable _) fun _ hr => hr

-- At an instant of nanoseconds.
theorem not_verifyAttestation_issued : ¬∀ (h : KeyHierarchy Unit Unit) d ins opts t k t' n, h.backends.Sound →
    h.port = Go.hierarchy → FourDigits (n / 1000000000) → d.now = Go.systemClock n →
      (∀ r ∈ t.rows, r.role = .root → Genuine h.backends (scanKey Go.isoFromTime r) ∧ r.kid ≠ "") →
        issueInitialSigningKey h d ins opts t = (.ok k, t') → (t'.rows.map KeyRow.kid).Nodup →
          h.verifyAttestation k.kid (keyStore Go.isoFromTime t') = .ok true ∧
            { h with port := Ts.hierarchy }.verifyAttestation k.kid (keyStore Ts.toIso t') = .ok true := by
  intro hv
  let n : Int := 1767225600123456789
  have ht := (hv sampleHierarchy (drawnAt n) inserted sampleSigning rootTable _ _ n sound_plainBackends rfl (by decide)
    rfl genuine_rootRow (issueInitialSigningKey_rootTable n) (nodup_issuedTable n)).left
  have hr := genuine_rootRow rootRow (.head _) rfl
  have hroot : rootRow ∈ (issuedTable n).rows := by
    rw [issuedTable, Table.rows_put rfl]
    exact .head _
  have hissued : createKey inserted (issuedAt n) ∈ (issuedTable n).rows := by
    rw [issuedTable, Table.rows_put rfl]
    exact .tail _ (.head _)
  have hf : sampleHierarchy.verifyAttestation "k1" (keyStore Go.isoFromTime (issuedTable n)) = _ :=
    verifyAttestation_row sound_plainBackends rfl rfl Go.lawful_hierarchy rfl (attests_rootRow n) hr.left hr.right
      rfl rfl (nodup_issuedTable n) hroot hissued
  have hd := Except.ok.inj (hf.symm.trans ht)
  rw [decide_eq_true_eq] at hd
  have := (isMicros_systemClock_iff (n := n) (by decide)).mp (go_readBack_iff.mp hd.left)
  omega

end Postgres

end Licensing
