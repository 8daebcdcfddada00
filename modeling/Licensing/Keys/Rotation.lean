import Licensing.Keys.Hierarchy

-- What the calls of the hierarchy do to its store, and what is left of a rotation that fails.

namespace Licensing

namespace KeyHierarchy

variable {ρ κ : Type} {h : KeyHierarchy ρ κ} {d : Draw ρ} {s s' : KeyStore}

theorem storing_eq_ok_iff {α : Type} {c : StoreCall} {x : Except Error α} {a : α} :
    d.storing c x = .ok a ↔ d.fault c = none ∧ x = .ok a := by
  cases hf : d.fault c <;> simp [Draw.storing, hf]

theorem store_eq_ok_iff {record k : LicenseKey} : h.store d record s = (.ok k, s') ↔
    d.fault .put = none ∧ (∀ id, s.byKid.lookup record.kid = some id → id = record.id) ∧
      k = record ∧ s' = s.insert record := by
  unfold store
  split
  case h_1 e he =>
    refine iff_of_false nofun fun ⟨hf, hk, _⟩ => ?_
    rw [storing_eq_ok_iff.mpr ⟨hf, KeyStore.put_eq_ok_iff.mpr ⟨hk, rfl⟩⟩] at he
    contradiction
  case h_2 s₁ he =>
    obtain ⟨hf, hp⟩ := storing_eq_ok_iff.mp he
    obtain ⟨hk, rfl⟩ := KeyStore.put_eq_ok_iff.mp hp
    refine ⟨fun hs => ?_, fun ⟨_, _, hr, hs⟩ => by rw [hr, hs]⟩
    cases hs
    exact ⟨hf, hk, rfl, rfl⟩

theorem store_of_error {record : LicenseKey} {e : Error} (he : (h.store d record s).1 = .error e) :
    (h.store d record s).2 = s := by
  unfold store at he ⊢
  split <;> simp_all

theorem issueSigning_of_error {opts : IssueSigningOptions} {e : Error}
    (he : (h.issueSigning d opts s).1 = .error e) : (h.issueSigning d opts s).2 = s := by
  unfold issueSigning at he ⊢
  split at he
  case h_1 hr => rfl
  case h_2 => exact store_of_error he

theorem generateRoot_of_error {opts : GenerateRootOptions} {e : Error}
    (he : (h.generateRoot d opts s).1 = .error e) : (h.generateRoot d opts s).2 = s := by
  unfold generateRoot at he ⊢
  split at he
  case h_1 hr => rfl
  case h_2 => exact store_of_error he

-- What it takes to make the record of a signing key.
structure Attests (h : KeyHierarchy ρ κ) (d : Draw ρ) (opts : IssueSigningOptions) (s : KeyStore)
    (root : LicenseKey) (g : Generated) (privateEnc : Option String) (signature : List UInt8) :
    Prop where
  signingPassphrase : opts.signingPassphrase ≠ ""
  rootPassphrase    : opts.rootPassphrase ≠ ""
  asymmetric        : opts.alg ≠ .hs256
  listed            : d.fault .listExisting = none
  vacant            : s.list (activeSigning opts.scopeId opts.alg) = []
  found             : d.fault .findRoot = none
  known             : s.findByKid opts.rootKid = some root
  role              : root.role = .root
  alg               : root.alg = opts.alg
  scope             : root.scopeId = opts.scopeId
  backend           : h.backends.get opts.alg = .ok ()
  generated         : h.backends.generate opts.alg opts.signingPassphrase d.generateSeed = .ok g
  sealed            : h.sealPrivate d g opts.signingPassphrase = .ok privateEnc
  attested          : h.attestSigning d root opts.rootPassphrase (h.kid opts.kid .signing d.id)
    opts.alg g.publicRaw d.now opts.notAfter = .ok signature

def newSigning (h : KeyHierarchy ρ κ) (d : Draw ρ) (opts : IssueSigningOptions) (root : LicenseKey)
    (g : Generated) (privateEnc : Option String) (signature : List UInt8) : LicenseKey where
  id            := d.id
  scopeId       := opts.scopeId
  kid           := h.kid opts.kid .signing d.id
  alg           := opts.alg
  role          := .signing
  state         := .active
  publicPem     := g.publicPem
  privatePemEnc := privateEnc
  rotatedFrom   := none
  rotatedAt     := none
  notBefore     := d.now
  notAfter      := opts.notAfter
  meta_         := rootAttestation root.kid (h.port.base64urlEncode signature)
  createdAt     := d.now
  updatedAt     := d.now

theorem requireRoot_eq_ok_iff {rootKid : String} {alg : KeyAlg} {scopeId : Option String}
    {root : LicenseKey} : h.requireRoot d rootKid alg scopeId s = .ok root ↔
      d.fault .findRoot = none ∧ s.findByKid rootKid = some root ∧ root.role = .root ∧
        root.alg = alg ∧ root.scopeId = scopeId := by
  rw [requireRoot, bind_eq_ok_iff]
  simp only [storing_eq_ok_iff, Except.ok.injEq]
  refine ⟨?_, ?_⟩
  case refine_1 =>
    rintro ⟨found, ⟨hf, rfl⟩, hr⟩
    split at hr
    case h_1 => contradiction
    case h_2 root' he =>
      split at hr
      case isTrue => contradiction
      case isFalse hrole =>
        split at hr
        case isTrue => contradiction
        case isFalse halg =>
          split at hr
          case isTrue => contradiction
          case isFalse hscope =>
            cases hr
            exact ⟨hf, he, not_not.mp hrole, not_not.mp halg, not_not.mp hscope⟩
  case refine_2 =>
    rintro ⟨hf, he, hrole, halg, hscope⟩
    exact ⟨_, ⟨hf, rfl⟩, by simp [he, hrole, halg, hscope]⟩

theorem signingRecord_eq_ok_iff {opts : IssueSigningOptions} {k : LicenseKey} :
    h.signingRecord d opts s = .ok k ↔ ∃ root g privateEnc signature,
      h.Attests d opts s root g privateEnc signature ∧
        h.newSigning d opts root g privateEnc signature = k := by
  have asymmetric : h.ensureAsymmetricAlg opts.alg = .ok () ↔ opts.alg ≠ .hs256 := by
    unfold ensureAsymmetricAlg
    split <;> simp_all
  rw [signingRecord]
  split
  case isTrue hp => exact iff_of_false nofun fun ⟨_, _, _, _, ha, _⟩ => ha.signingPassphrase hp
  case isFalse hs =>
    split
    case isTrue hp => exact iff_of_false nofun fun ⟨_, _, _, _, ha, _⟩ => ha.rootPassphrase hp
    case isFalse hr =>
      simp only [bind_eq_ok_iff, exists_const, asymmetric, storing_eq_ok_iff]
      refine ⟨?_, ?_⟩
      case refine_1 =>
        rintro ⟨ha, _, ⟨hl, hv⟩, hk⟩
        cases hv
        split at hk
        case isTrue => contradiction
        case isFalse hv =>
          simp only [bind_eq_ok_iff, requireRoot_eq_ok_iff] at hk
          obtain ⟨root, ⟨hf, hfound, hrole, halg, hscope⟩, _, hb, g, hg, enc, henc, sig, hsig, hk⟩ := hk
          cases hk
          exact ⟨root, g, enc, sig, ⟨hs, hr, ha, hl, not_not.mp hv, hf, hfound, hrole, halg, hscope, hb, hg,
            henc, hsig⟩, rfl⟩
      case refine_2 =>
        rintro ⟨root, g, enc, sig, ha, rfl⟩
        refine ⟨ha.asymmetric, _, ⟨ha.listed, rfl⟩, ?_⟩
        rw [if_neg (not_not.mpr ha.vacant)]
        simp only [bind_eq_ok_iff, requireRoot_eq_ok_iff]
        exact ⟨root, ⟨ha.found, ha.known, ha.role, ha.alg, ha.scope⟩, _, ha.backend, g, ha.generated, enc,
          ha.sealed, sig, ha.attested, rfl⟩

theorem issueSigning_eq_ok_iff {opts : IssueSigningOptions} {k : LicenseKey} :
    h.issueSigning d opts s = (.ok k, s') ↔ ∃ root g privateEnc signature,
      h.Attests d opts s root g privateEnc signature ∧
        h.newSigning d opts root g privateEnc signature = k ∧
        d.fault .put = none ∧ (∀ id, s.byKid.lookup k.kid = some id → id = k.id) ∧ s' = s.insert k := by
  unfold issueSigning
  split
  case h_1 e he =>
    refine iff_of_false nofun fun ⟨root, g, enc, sig, ha, hk, _⟩ => ?_
    rw [signingRecord_eq_ok_iff.mpr ⟨root, g, enc, sig, ha, hk⟩] at he
    contradiction
  case h_2 record he =>
    rw [store_eq_ok_iff]
    refine ⟨?_, ?_⟩
    case refine_1 =>
      rintro ⟨hf, hk, rfl, rfl⟩
      obtain ⟨root, g, enc, sig, ha, hr⟩ := signingRecord_eq_ok_iff.mp he
      exact ⟨root, g, enc, sig, ha, hr, hf, hk, rfl⟩
    case refine_2 =>
      rintro ⟨root, g, enc, sig, ha, hr, hf, hk, rfl⟩
      rw [signingRecord_eq_ok_iff.mpr ⟨root, g, enc, sig, ha, hr⟩] at he
      cases he
      exact ⟨hf, hk, rfl, rfl⟩

-- A rotation retires the outgoing key.
structure Demotes (d : Draw ρ) (opts : RotateSigningOptions) (s : KeyStore) (outgoing : LicenseKey) :
    Prop where
  listed  : d.fault .listActive = none
  active  : s.list (activeSigning opts.scopeId opts.alg) = [outgoing]
  demoted : d.fault .demote = none

def demoted (d : Draw ρ) (opts : RotateSigningOptions) (outgoing : LicenseKey) (s : KeyStore) :
    KeyStore :=
  s.insert (retiring d opts outgoing)

def linked (d : Draw ρ) (outgoing incoming : LicenseKey) : LicenseKey :=
  { incoming with rotatedFrom := some outgoing.id, updatedAt := d.rotatedAt }

section Rotate

variable {opts : RotateSigningOptions} {outgoing : LicenseKey}

theorem Demotes.mem (hd : Demotes d opts s outgoing) :
    s.get outgoing.id = some outgoing ∧
      (activeSigning opts.scopeId opts.alg).accepts outgoing := by
  rw [← KeyStore.mem_list, hd.active]
  exact List.mem_singleton_self _

theorem rotateSigning_of_demotes (hd : Demotes d opts s outgoing) : h.rotateSigning d opts s =
    match h.issueSigning d (issueOptions opts) (demoted d opts outgoing s) with
    | (.error e, s)     => (.error e, s)
    | (.ok incoming, s) =>
      match d.storing .link (s.update h.port.malformed incoming.id (linked d outgoing incoming)) with
      | .error e => (.error e, s)
      | .ok s    => (.ok ⟨retiring d opts outgoing, linked d outgoing incoming⟩, s) := by
  have hu : s.update h.port.malformed outgoing.id (retiring d opts outgoing) =
      .ok (demoted d opts outgoing s) :=
    KeyStore.update_eq_ok_iff.mpr ⟨by simp [hd.mem.1], rfl, rfl⟩
  rw [rotateSigning, Draw.storing, hd.listed]
  simp only [hd.active]
  rw [Draw.storing, hd.demoted]
  simp only [hu]
  rfl

theorem rotateSigning_of_not_demotes (hn : ∀ outgoing, ¬Demotes d opts s outgoing) :
    ∃ e, h.rotateSigning d opts s = (.error e, s) := by
  unfold rotateSigning
  split
  case h_1 e _ => exact ⟨e, rfl⟩
  case h_2 => exact ⟨_, rfl⟩
  case h_3 => exact ⟨_, rfl⟩
  case h_4 outgoing hl =>
    obtain ⟨hf, hl⟩ := storing_eq_ok_iff.mp hl
    cases hd : d.fault .demote
    case none => exact (hn outgoing ⟨hf, Except.ok.inj hl, hd⟩).elim
    case some e => exact ⟨e, by simp [Draw.storing, hd]⟩

-- Whatever a rotation needs after it has retired the outgoing key.
def CanIssue (h : KeyHierarchy ρ κ) (d : Draw ρ) (opts : IssueSigningOptions) (s : KeyStore) : Prop :=
  d.fault .put = none ∧
    (∀ id, s.byKid.lookup (h.kid opts.kid .signing d.id) = some id → id = d.id) ∧
    ∃ root g privateEnc signature, h.Attests d opts s root g privateEnc signature

theorem canIssue_iff {opts : IssueSigningOptions} :
    h.CanIssue d opts s ↔ ∃ k s', h.issueSigning d opts s = (.ok k, s') := by
  simp only [issueSigning_eq_ok_iff]
  refine ⟨?_, ?_⟩
  case refine_1 =>
    rintro ⟨hf, hk, root, g, enc, sig, ha⟩
    exact ⟨_, _, root, g, enc, sig, ha, rfl, hf, hk, rfl⟩
  case refine_2 =>
    rintro ⟨k, s', root, g, enc, sig, ha, rfl, hf, hk, _⟩
    exact ⟨hf, hk, root, g, enc, sig, ha⟩

theorem rotateSigning_eq_ok_iff {result : RotateResult} :
    h.rotateSigning d opts s = (.ok result, s') ↔ ∃ outgoing incoming s₁,
      Demotes d opts s outgoing ∧
        h.issueSigning d (issueOptions opts) (demoted d opts outgoing s) = (.ok incoming, s₁) ∧
        d.fault .link = none ∧ result = ⟨retiring d opts outgoing, linked d outgoing incoming⟩ ∧
        s' = s₁.insert (linked d outgoing incoming) := by
  by_cases hd : ∃ outgoing, Demotes d opts s outgoing
  case neg =>
    obtain ⟨e, he⟩ := rotateSigning_of_not_demotes (h := h) (not_exists.mp hd)
    rw [he]
    exact iff_of_false nofun fun ⟨outgoing, _, _, hd', _⟩ => hd ⟨outgoing, hd'⟩
  case pos =>
    obtain ⟨outgoing, hd⟩ := hd
    have unique {outgoing'} (hd' : Demotes d opts s outgoing') : outgoing' = outgoing :=
      List.singleton_inj.mp (hd'.active.symm.trans hd.active)
    rw [rotateSigning_of_demotes hd]
    refine ⟨fun hr => ?_, ?_⟩
    case refine_1 =>
      split at hr
      case h_1 => cases hr
      case h_2 incoming s₁ hi =>
        split at hr
        case h_1 => cases hr
        case h_2 s₂ hu =>
          obtain ⟨hf, hu⟩ := storing_eq_ok_iff.mp hu
          obtain ⟨_, _, rfl⟩ := KeyStore.update_eq_ok_iff.mp hu
          cases hr
          exact ⟨outgoing, incoming, s₁, hd, hi, hf, rfl, rfl⟩
    case refine_2 =>
      rintro ⟨outgoing', incoming, s₁, hd', hi, hf, rfl, rfl⟩
      cases unique hd'
      obtain ⟨_, _, _, _, _, _, _, _, hs⟩ := issueSigning_eq_ok_iff.mp hi
      have hg : (s₁.get incoming.id).isSome := by simp [hs]
      have hu : s₁.update h.port.malformed incoming.id (linked d outgoing incoming) =
          .ok (s₁.insert (linked d outgoing incoming)) :=
        KeyStore.update_eq_ok_iff.mpr ⟨hg, rfl, rfl⟩
      simp only [hi, hu, Draw.storing, hf]

theorem demoted_ne (hd : Demotes d opts s outgoing) : demoted d opts outgoing s ≠ s := by
  intro he
  obtain ⟨hg, ha⟩ := hd.mem
  have hr : (demoted d opts outgoing s).get outgoing.id = some (retiring d opts outgoing) := by
    simp [demoted, retiring]
  rw [he, hg, Option.some.injEq] at hr
  rw [hr] at ha
  simp [KeyStoreFilter.accepts, activeSigning, retiring] at ha

-- A rotation that fails after the outgoing key was retired leaves it so.
theorem rotateSigning_of_not_canIssue (hd : Demotes d opts s outgoing)
    (hn : ¬h.CanIssue d (issueOptions opts) (demoted d opts outgoing s)) :
    ∃ e, h.rotateSigning d opts s = (.error e, demoted d opts outgoing s) := by
  rw [rotateSigning_of_demotes hd]
  split
  case h_1 e s₁ hi =>
    have hs := issueSigning_of_error (congrArg Prod.fst hi)
    rw [hi] at hs
    exact ⟨e, congrArg (Prod.mk _) hs⟩
  case h_2 incoming s₁ hi => exact (hn (canIssue_iff.mpr ⟨_, _, hi⟩)).elim

end Rotate

-- A failed rotation leaves the store as it was, unless the outgoing key is retired and the incoming
-- one cannot be issued and linked.
theorem rotateSigning_unchanged_iff (h : KeyHierarchy ρ κ) (d : Draw ρ) (opts : RotateSigningOptions)
    (s : KeyStore) :
    (∀ e, (h.rotateSigning d opts s).1 = .error e → (h.rotateSigning d opts s).2 = s) ↔
      ∀ outgoing, Demotes d opts s outgoing →
        d.fault .link = none ∧ h.CanIssue d (issueOptions opts) (demoted d opts outgoing s) := by
  refine ⟨fun hu outgoing hd => ?_, fun hc e he => ?_⟩
  case refine_1 =>
    have hi : h.CanIssue d (issueOptions opts) (demoted d opts outgoing s) := by
      by_contra hn
      obtain ⟨e, he⟩ := rotateSigning_of_not_canIssue hd hn
      rw [he] at hu
      exact demoted_ne hd (hu e rfl)
    refine ⟨?_, hi⟩
    obtain ⟨incoming, s₁, hi⟩ := canIssue_iff.mp hi
    by_contra hf
    obtain ⟨e, hf⟩ := Option.ne_none_iff_exists'.mp hf
    rw [rotateSigning_of_demotes hd] at hu
    simp only [hi, Draw.storing, hf] at hu
    obtain ⟨_, _, _, _, _, _, _, _, hs⟩ := issueSigning_eq_ok_iff.mp hi
    have hl := congrArg (fun s => s.byKid.length) (hs.symm.trans (hu e rfl))
    simp only [KeyStore.insert, demoted, List.length_cons] at hl
    omega
  case refine_2 =>
    by_cases hd : ∃ outgoing, Demotes d opts s outgoing
    case neg =>
      obtain ⟨e', he'⟩ := rotateSigning_of_not_demotes (h := h) (not_exists.mp hd)
      rw [he']
    case pos =>
      obtain ⟨outgoing, hd⟩ := hd
      obtain ⟨hf, hi⟩ := hc outgoing hd
      obtain ⟨incoming, s₁, hi⟩ := canIssue_iff.mp hi
      rw [rotateSigning_eq_ok_iff.mpr ⟨outgoing, incoming, s₁, hd, hi, hf, rfl, rfl⟩] at he
      contradiction

-- A rotation under a root that is not there.
def soleKey : LicenseKey where
  id            := "i1"
  scopeId       := none
  kid           := "k1"
  alg           := .ed25519
  role          := .signing
  state         := .active
  publicPem     := ""
  privatePemEnc := none
  rotatedFrom   := none
  rotatedAt     := none
  notBefore     := ""
  notAfter      := none
  meta_         := []
  createdAt     := ""
  updatedAt     := ""

def soleStore : KeyStore where
  byId  := .ofList [soleKey]
  byKid := [("k1", "i1")]

def orphanedRotation : RotateSigningOptions where
  scopeId           := none
  alg               := .ed25519
  rootKid           := "r1"
  rootPassphrase    := "p"
  signingPassphrase := "q"

def sampleDraw : Draw Unit where
  id           := "i2"
  now          := ""
  generateSeed := ()
  wrapSeed     := ()
  signSeed     := ()

def noBackends : KeyBackends Unit Unit where
  get _               := .error (.other "")
  generate _ _ _      := .error (.other "")
  wrap _ _ _          := .error (.other "")
  unwrap _ _          := .error (.other "")
  importPrivate _ _ _ := .error (.other "")
  sign _ _ _ _        := .error (.other "")
  importPublic _ _    := .error (.other "")
  verify _ _ _ _      := .error (.other "")
  publicRaw _ _       := .error (.other "")

theorem demotes_soleKey : Demotes sampleDraw orphanedRotation soleStore soleKey :=
  ⟨rfl, rfl, rfl⟩

theorem not_rotateSigning_unchanged :
    ¬∀ (h : KeyHierarchy Unit Unit) d opts s e, h.port = Go.hierarchy ∨ h.port = Ts.hierarchy →
      (h.rotateSigning d opts s).1 = .error e → (h.rotateSigning d opts s).2 = s := by
  intro hu
  let h : KeyHierarchy Unit Unit := ⟨Go.hierarchy, noBackends, Go.defaultMakeKid⟩
  have hn : ¬h.CanIssue sampleDraw (issueOptions orphanedRotation)
      (demoted sampleDraw orphanedRotation soleKey soleStore) := by
    rintro ⟨_, _, _, _, _, _, ha⟩
    have hk := ha.known
    contradiction
  obtain ⟨e, he⟩ := rotateSigning_of_not_canIssue demotes_soleKey hn
  have hs := hu h sampleDraw orphanedRotation soleStore e (.inl rfl)
  rw [he] at hs
  exact demoted_ne demotes_soleKey (hs rfl)

end KeyHierarchy

end Licensing
