import Licensing.Keys.Backends
import Licensing.Keys.Rotation

-- The active signing keys over whole runs of the hierarchy.

namespace Licensing

inductive KeyCall
  | generateRoot (opts : GenerateRootOptions)
  | issueSigning (opts : IssueSigningOptions)
  | rotateSigning (opts : RotateSigningOptions)

namespace KeyStore

variable {s : KeyStore}

-- There is at most one active signing key of a scope and an algorithm.
def OneActive (s : KeyStore) : Prop :=
  ∀ scopeId alg a b, a ∈ s.list (activeSigning scopeId alg) → b ∈ s.list (activeSigning scopeId alg) →
    a = b

theorem OneActive.length_list_le_one (ho : s.OneActive) (scopeId : Option String) (alg : KeyAlg) :
    (s.list (activeSigning scopeId alg)).length ≤ 1 := by
  have hn := s.nodup_list (activeSigning scopeId alg)
  have he := ho scopeId alg
  cases hl : s.list (activeSigning scopeId alg) with
  | nil => simp
  | cons a as =>
    cases as with
    | nil => simp
    | cons b bs =>
      rw [hl] at hn he
      have hab := he a b (by simp) (by simp)
      simp [hab] at hn

theorem OneActive.list_eq_singleton (ho : s.OneActive) {scopeId : Option String} {alg : KeyAlg}
    {k : LicenseKey} (hk : k ∈ s.list (activeSigning scopeId alg)) :
    s.list (activeSigning scopeId alg) = [k] := by
  have hl := ho.length_list_le_one scopeId alg
  cases he : s.list (activeSigning scopeId alg) with
  | nil => simp [he] at hk
  | cons a as =>
    cases as with
    | nil => rw [he, List.mem_singleton] at hk; rw [hk]
    | cons b bs => simp [he] at hl

end KeyStore

namespace KeyHierarchy

variable {ρ κ : Type} {h : KeyHierarchy ρ κ} {d : Draw ρ} {s s' : KeyStore}

-- The store after a call, be it a failed one.
def perform (h : KeyHierarchy ρ κ) (d : Draw ρ) : KeyCall → KeyStore → KeyStore
  | .generateRoot opts,  s => (h.generateRoot d opts s).2
  | .issueSigning opts,  s => (h.issueSigning d opts s).2
  | .rotateSigning opts, s => (h.rotateSigning d opts s).2

-- The stores that a sequence of calls leads to. All calls have a new id, and meet the condition `P`.
inductive Reaches (h : KeyHierarchy ρ κ) (P : Draw ρ → KeyCall → KeyStore → Prop) (s : KeyStore) :
    KeyStore → Prop
  | refl : Reaches h P s s
  | call (d : Draw ρ) (c : KeyCall) {s' : KeyStore} : Reaches h P s s' → s'.get d.id = none →
    P d c s' → Reaches h P s (h.perform d c s')

def Unconditional (_ : Draw ρ) (_ : KeyCall) (_ : KeyStore) : Prop :=
  True

def Reachable (h : KeyHierarchy ρ κ) (s : KeyStore) : Prop :=
  h.Reaches Unconditional {} s

-- The record that a call, which has begun in a store, writes next.
inductive Writes (h : KeyHierarchy ρ κ) (d : Draw ρ) (c : KeyCall) (s₀ : KeyStore) :
    KeyStore → LicenseKey → Prop
  | root {opts s k} : c = .generateRoot opts → h.rootRecord d opts = .ok k → s.get k.id = none →
    s.byKid.lookup k.kid = none → Writes h d c s₀ s k
  | signing {opts root g privateEnc signature s k} :
    h.Attests d opts s root g privateEnc signature →
    h.newSigning d opts root g privateEnc signature = k → s.get k.id = none →
    s.byKid.lookup k.kid = none → Writes h d c s₀ s k
  | retire {opts outgoing} : c = .rotateSigning opts → Demotes d opts s₀ outgoing →
    Writes h d c s₀ s₀ (retiring d opts outgoing)
  | link {s k} (outgoing) : s.get k.id = some k → Writes h d c s₀ s (linked d outgoing k)

theorem id_of_rootRecord {opts : GenerateRootOptions} {k : LicenseKey}
    (hr : h.rootRecord d opts = .ok k) : k.id = d.id ∧ k.role = .root := by
  unfold rootRecord at hr
  split at hr
  case isTrue => contradiction
  case isFalse =>
    simp only [bind_eq_ok_iff] at hr
    obtain ⟨_, _, _, _, _, _, _, _, hk⟩ := hr
    cases hk
    exact ⟨rfl, rfl⟩

theorem Writes.indexed {c : KeyCall} {s₀ : KeyStore} {k : LicenseKey} (hs : s.Indexed)
    (hw : h.Writes d c s₀ s k) : (s.insert k).Indexed := by
  cases hw
  case root hn hl       => exact hs.insert_new hn hl
  case signing hn hl    => exact hs.insert_new hn hl
  case retire hd        => exact hs.insert_update hd.mem.1 rfl
  case link k _ hg      => exact hs.insert_update (k := k) hg rfl

-- What every write keeps is kept by a call.
theorem perform_induction {I : KeyStore → Prop} {c : KeyCall}
    (write : ∀ s' k, s'.Indexed → I s' → h.Writes d c s s' k → I (s'.insert k)) (hx : s.Indexed)
    (hi : I s) (hn : s.get d.id = none) : (h.perform d c s).Indexed ∧ I (h.perform d c s) := by
  have next {s' k} (hs : s'.Indexed ∧ I s') (hw : h.Writes d c s s' k) :
      (s'.insert k).Indexed ∧ I (s'.insert k) :=
    ⟨hw.indexed hs.1, write s' k hs.1 hs.2 hw⟩
  have issued {opts s s'} {k : LicenseKey} (hs : s.Indexed ∧ I s) (hn : s.get d.id = none)
      (hi : h.issueSigning d opts s = (.ok k, s')) : s' = s.insert k ∧ s'.Indexed ∧ I s' := by
    obtain ⟨_, _, _, _, ha, hk, _, hl, rfl⟩ := issueSigning_eq_ok_iff.mp hi
    have hid : k.id = d.id := hk ▸ rfl
    have hn' : s.get k.id = none := hid ▸ hn
    exact ⟨rfl, next hs (.signing ha hk hn' (hs.1.lookup_of_put hn' hl))⟩
  cases c
  case generateRoot opts =>
    cases hr : h.generateRoot d opts s
    case mk r s' =>
      cases r
      case error e =>
        have hs := generateRoot_of_error (congrArg Prod.fst hr)
        rw [perform, hs]
        exact ⟨hx, hi⟩
      case ok k =>
        rw [perform, hr]
        unfold generateRoot at hr
        split at hr
        case h_1 => cases hr
        case h_2 record he =>
          obtain ⟨_, hl, rfl, rfl⟩ := store_eq_ok_iff.mp hr
          have hn' : s.get k.id = none := (id_of_rootRecord he).1 ▸ hn
          exact next ⟨hx, hi⟩ (.root rfl he hn' (hx.lookup_of_put hn' hl))
  case issueSigning opts =>
    cases hr : h.issueSigning d opts s
    case mk r s' =>
      cases r
      case error e =>
        have hs := issueSigning_of_error (congrArg Prod.fst hr)
        rw [perform, hs]
        exact ⟨hx, hi⟩
      case ok k =>
        rw [perform, hr]
        exact (issued ⟨hx, hi⟩ hn hr).2
  case rotateSigning opts =>
    rw [perform]
    by_cases hd : ∃ outgoing, Demotes d opts s outgoing
    case neg =>
      obtain ⟨e, he⟩ := rotateSigning_of_not_demotes (h := h) (not_exists.mp hd)
      rw [he]
      exact ⟨hx, hi⟩
    case pos =>
      obtain ⟨outgoing, hd⟩ := hd
      have hs := next ⟨hx, hi⟩ (.retire rfl hd)
      have hn' : (demoted d opts outgoing s).get d.id = none := by
        rw [demoted, KeyStore.get_insert, if_neg, hn]
        intro he
        have hg := hd.mem.1
        rw [show outgoing.id = d.id from he.symm, hn] at hg
        contradiction
      rw [rotateSigning_of_demotes hd]
      split
      case h_1 e s₁ hr =>
        have he := issueSigning_of_error (congrArg Prod.fst hr)
        rw [hr] at he
        exact he ▸ hs
      case h_2 incoming s₁ hr =>
        obtain ⟨he, hs'⟩ := issued hs hn' hr
        split
        case h_1 => exact hs'
        case h_2 s₂ hu =>
          obtain ⟨_, hu⟩ := storing_eq_ok_iff.mp hu
          obtain ⟨_, _, rfl⟩ := KeyStore.update_eq_ok_iff.mp hu
          exact next hs' (.link outgoing (by simp [he]))

theorem Writes.oneActive {c : KeyCall} {s₀ : KeyStore} {k : LicenseKey} (ho : s.OneActive)
    (hw : h.Writes d c s₀ s k) : (s.insert k).OneActive := by
  intro scopeId alg a b ha hb
  by_cases hn : (activeSigning scopeId alg).accepts k
  case neg => exact ho scopeId alg a b (KeyStore.mem_list_of_insert hn ha) (KeyStore.mem_list_of_insert hn hb)
  case pos =>
    have hk := hn
    simp only [KeyStoreFilter.accepts, activeSigning, Option.all_some, Bool.and_eq_true,
      decide_eq_true_eq] at hn
    obtain ⟨⟨⟨hscope, hrole⟩, hstate⟩, halg⟩ := hn
    rw [KeyStore.mem_list_insert] at ha hb
    cases hw
    case root hr _ _ =>
      rw [(id_of_rootRecord hr).2] at hrole
      contradiction
    case signing opts root g enc signature hat he _ _ =>
      have hv : s.list (activeSigning scopeId alg) = [] := by
        rw [← hscope, ← halg, ← he]
        exact hat.vacant
      rw [hv] at ha hb
      simp only [List.not_mem_nil, and_false, or_false] at ha hb
      rw [ha.1, hb.1]
    case retire => contradiction
    case link k outgoing hg =>
      have hm : k ∈ s.list (activeSigning scopeId alg) := KeyStore.mem_list.mpr ⟨hg, hk⟩
      have same {a} (ha : a ∈ s.list (activeSigning scopeId alg)) : a.id = k.id :=
        congrArg LicenseKey.id (ho scopeId alg a k ha hm)
      rcases ha with ⟨rfl, _⟩ | ⟨hna, ha⟩
      case inr => exact (hna (same ha)).elim
      case inl =>
        rcases hb with ⟨rfl, _⟩ | ⟨hnb, hb⟩
        case inr => exact (hnb (same hb)).elim
        case inl => rfl

-- What every write keeps is kept by a run.
theorem Reaches.induction {P : Draw ρ → KeyCall → KeyStore → Prop} {I : KeyStore → Prop}
    (hr : h.Reaches P s s') (hx : s.Indexed) (hi : I s)
    (write : ∀ d c s s' k, P d c s → s'.Indexed → I s' → h.Writes d c s s' k → I (s'.insert k)) :
    s'.Indexed ∧ I s' := by
  induction hr
  case refl => exact ⟨hx, hi⟩
  case call d c s' _ hn hp ih =>
    exact perform_induction (fun s k hs hi hw => write d c _ s k hp hs hi hw) ih.1 ih.2 hn

theorem Reachable.oneActive (hr : h.Reachable s) : s.Indexed ∧ s.OneActive := by
  refine Reaches.induction hr .empty (fun scopeId alg a b ha _ => ?_) fun d c _ s k _ _ ho hw => hw.oneActive ho
  have hg := (KeyStore.mem_list.mp ha).1
  contradiction

-- What a successful rotation leaves.
structure Rotated (opts : RotateSigningOptions) (s s' : KeyStore) (result : RotateResult) : Prop where
  active   : s'.list (activeSigning opts.scopeId opts.alg) = [result.incoming]
  new      : s.get result.incoming.id = none
  previous : ∃ outgoing, s.list (activeSigning opts.scopeId opts.alg) = [outgoing] ∧
    outgoing.id = result.outgoing.id ∧ outgoing.kid = result.outgoing.kid
  stored   : s'.get result.outgoing.id = some result.outgoing
  retiring : result.outgoing.state = .retiring

theorem rotated_of_ok {opts : RotateSigningOptions} {result : RotateResult} (ho : s'.OneActive)
    (hn : s.get d.id = none) (hr : h.rotateSigning d opts s = (.ok result, s')) :
    Rotated opts s s' result := by
  obtain ⟨outgoing, incoming, s₁, hd, hi, _, rfl, rfl⟩ := rotateSigning_eq_ok_iff.mp hr
  obtain ⟨root, g, enc, sig, _, rfl, _, _, rfl⟩ := issueSigning_eq_ok_iff.mp hi
  have hne : outgoing.id ≠ d.id := by
    intro he
    have hg := hd.mem.1
    rw [he, hn] at hg
    contradiction
  refine ⟨?_, hn, ⟨outgoing, hd.active, rfl, rfl⟩, ?_, rfl⟩
  case refine_1 =>
    refine ho.list_eq_singleton (KeyStore.mem_list.mpr ⟨by simp, ?_⟩)
    simp [KeyStoreFilter.accepts, activeSigning, linked, newSigning, issueOptions]
  case refine_2 => simp [demoted, retiring, linked, newSigning, hne]

-- A root, a signing key that it attests, and a rotation of that key.
def sampleHierarchy : KeyHierarchy Unit Unit :=
  ⟨Go.hierarchy, plainBackends, Go.defaultMakeKid⟩

def drawing (id : String) : Draw Unit :=
  { sampleDraw with id }

def sampleRoot : GenerateRootOptions where
  scopeId    := none
  alg        := .ed25519
  passphrase := "p"
  kid        := some "r1"

def sampleSigning : IssueSigningOptions where
  scopeId           := none
  alg               := .ed25519
  rootKid           := "r1"
  rootPassphrase    := "p"
  signingPassphrase := "q"
  kid               := some "k1"

def sampleRotation (retireOutgoingAt : Option (Option String)) : RotateSigningOptions :=
  { orphanedRotation with retireOutgoingAt, kid := some "k2" }

def rootKey : LicenseKey :=
  { soleKey with id := "i1", kid := "r1", role := .root, privatePemEnc := some "p" }

def rootStore : KeyStore :=
  KeyStore.insert rootKey {}

def sampleSignature (d : Draw Unit) (opts : IssueSigningOptions) : List UInt8 :=
  0 :: attestationBytes (sampleHierarchy.kid opts.kid .signing d.id) opts.alg (Go.base64urlEncode [])
    d.now opts.notAfter

def sampleIncoming (d : Draw Unit) (opts : IssueSigningOptions) : LicenseKey :=
  sampleHierarchy.newSigning d opts rootKey plainKey (some opts.signingPassphrase)
    (sampleSignature d opts)

theorem attests_sample {d : Draw Unit} {opts : IssueSigningOptions} (hd : d.fault = fun _ => none)
    (hs : opts.scopeId = none) (ha : opts.alg = .ed25519) (hp : opts.rootPassphrase = "p")
    (hq : opts.signingPassphrase ≠ "") (hv : s.list (activeSigning opts.scopeId opts.alg) = [])
    (hk : s.findByKid opts.rootKid = some rootKey) : sampleHierarchy.Attests d opts s rootKey plainKey
      (some opts.signingPassphrase) (sampleSignature d opts) where
  signingPassphrase := hq
  rootPassphrase    := by simp [hp]
  asymmetric        := by simp [ha]
  listed            := by rw [hd]
  vacant            := hv
  found             := by rw [hd]
  known             := hk
  role              := rfl
  alg               := ha.symm
  scope             := hs.symm
  backend           := rfl
  generated         := rfl
  sealed            := rfl
  attested          := by
    simp only [attestSigning, rootKey, hp, bind_eq_ok_iff]
    exact ⟨(), rfl, [], rfl, (), rfl, _, Go.attestationCanonical_eq _ _ _ _ _, rfl⟩

def signingStore : KeyStore :=
  rootStore.insert (sampleIncoming (drawing "i2") sampleSigning)

theorem perform_sampleSigning :
    sampleHierarchy.perform (drawing "i2") (.issueSigning sampleSigning) rootStore = signingStore := by
  have ha : sampleHierarchy.Attests (drawing "i2") sampleSigning rootStore rootKey plainKey (some "q")
      (sampleSignature (drawing "i2") sampleSigning) :=
    attests_sample rfl rfl rfl rfl (by decide) rfl rfl
  have hi := issueSigning_eq_ok_iff.mpr ⟨_, _, _, _, ha, rfl, rfl, nofun, rfl⟩
  rw [perform, hi]
  rfl

theorem reachable_signingStore : sampleHierarchy.Reachable signingStore := by
  have hr : sampleHierarchy.Reachable rootStore :=
    .call (drawing "i1") (.generateRoot sampleRoot) .refl rfl trivial
  rw [← perform_sampleSigning]
  exact .call (drawing "i2") (.issueSigning sampleSigning) hr rfl trivial

-- The store after a rotation of the sample key.
def rotatedStore (retireOutgoingAt : Option (Option String)) : KeyStore :=
  let d := drawing "i3"
  let outgoing := sampleIncoming (drawing "i2") sampleSigning
  let opts := sampleRotation retireOutgoingAt
  let incoming := sampleIncoming d (issueOptions opts)
  ((demoted d opts outgoing signingStore).insert incoming).insert (linked d outgoing incoming)

theorem rotateSigning_sample (retireOutgoingAt : Option (Option String)) : ∃ result,
    sampleHierarchy.rotateSigning (drawing "i3") (sampleRotation retireOutgoingAt) signingStore =
      (.ok result, rotatedStore retireOutgoingAt) := by
  have hd : Demotes (drawing "i3") (sampleRotation retireOutgoingAt) signingStore
      (sampleIncoming (drawing "i2") sampleSigning) := ⟨rfl, rfl, rfl⟩
  have hq : "q" ≠ "" := by decide
  have ha : sampleHierarchy.Attests (drawing "i3") (issueOptions (sampleRotation retireOutgoingAt))
      (demoted (drawing "i3") (sampleRotation retireOutgoingAt)
        (sampleIncoming (drawing "i2") sampleSigning) signingStore) rootKey plainKey (some "q") _ :=
    attests_sample rfl rfl rfl rfl hq rfl rfl
  have hi := issueSigning_eq_ok_iff.mpr ⟨_, _, _, _, ha, rfl, rfl, nofun, rfl⟩
  exact ⟨_, rotateSigning_eq_ok_iff.mpr ⟨_, _, _, hd, hi, rfl, rfl, rfl⟩⟩

-- At any time there is at most one active signing key of a scope and an algorithm, and after a
-- successful rotation there is the new one.
theorem Reachable.active_signing_keys (hr : h.Reachable s) :
    (∀ scopeId alg, (s.list (activeSigning scopeId alg)).length ≤ 1) ∧
      ∀ d opts result s', s.get d.id = none → h.rotateSigning d opts s = (.ok result, s') →
        Rotated opts s s' result := by
  refine ⟨hr.oneActive.2.length_list_le_one, fun d opts result s' hn he => ?_⟩
  have hr' := (Reachable.oneActive (.call d (.rotateSigning opts) hr hn trivial)).2
  rw [perform, he] at hr'
  exact rotated_of_ok hr' hn he

theorem rotated_sample : (∀ scopeId alg, (signingStore.list (activeSigning scopeId alg)).length ≤ 1) ∧
    ∃ result, Rotated (sampleRotation none) signingStore (rotatedStore none) result := by
  obtain ⟨hl, hr⟩ := Reachable.active_signing_keys reachable_signingStore
  obtain ⟨result, he⟩ := rotateSigning_sample none
  exact ⟨hl, result, hr (drawing "i3") _ result _ rfl he⟩

end KeyHierarchy

end Licensing
