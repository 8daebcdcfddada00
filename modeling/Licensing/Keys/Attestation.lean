import Licensing.Keys.SigningKeys

-- The attestations of signing keys over whole runs of the hierarchy.

namespace Licensing

variable {ρ κ : Type}

namespace KeyHierarchy

variable {h : KeyHierarchy ρ κ} {d : Draw ρ} {s s' : KeyStore}

-- A key that was generated, whose own private half is sealed in the record.
def Genuine (b : KeyBackends ρ κ) (k : LicenseKey) : Prop :=
  ∃ passphrase seed g, b.generate k.alg passphrase seed = .ok g ∧ k.publicPem = g.publicPem ∧
    ∀ enc, k.privatePemEnc = some enc → ∃ der passphrase' seed',
      g.privateDER = .ok (some der) ∧ b.wrap der passphrase' seed' = .ok enc

-- The attestation of a signing key verifies under its root.
structure Attested (h : KeyHierarchy ρ κ) (root k : LicenseKey) : Prop where
  role     : root.role = .root
  alg      : root.alg = k.alg
  kid      : root.kid ≠ ""
  backend  : h.backends.get k.alg = .ok ()
  imported : h.backends.importPublic k.alg root.publicPem = .ok ()
  signed   : ∃ raw m sig, h.backends.publicRaw k.alg k.publicPem = .ok raw ∧
    h.port.attestationCanonical k.kid k.alg raw k.notBefore k.notAfter = .ok m ∧
    k.meta_ = rootAttestation root.kid (h.port.base64urlEncode sig) ∧
    h.port.base64urlEncode sig ≠ "" ∧ h.port.base64urlDecode (h.port.base64urlEncode sig) = .ok sig ∧
    h.backends.verify k.alg root.publicPem m sig = .ok true

theorem attestation?_rootAttestation {k : LicenseKey} {rootKid signature : String} (hr : rootKid ≠ "")
    (hs : signature ≠ "") (hm : k.meta_ = rootAttestation rootKid signature) :
    attestation? k = some (rootKid, signature) := by
  rw [attestation?, hm]
  simp [rootAttestation, Json.Object.get?, List.lookup_cons, hr, hs]

theorem Attested.verifyAttestation {root k : LicenseKey} (ha : h.Attested root k) (hx : s.Indexed)
    (hk : s.get k.id = some k) (hrole : k.role = .signing) (hr : s.get root.id = some root) :
    h.verifyAttestation k.kid s = .ok true := by
  obtain ⟨raw, m, sig, hraw, hm, hmeta, hne, hdec, hv⟩ := ha.signed
  have hfind : s.findByKid k.kid = some k := hx.findByKid_eq_some_iff.mpr ⟨hk, rfl⟩
  have hroot : s.findByKid root.kid = some root := hx.findByKid_eq_some_iff.mpr ⟨hr, rfl⟩
  simp [KeyHierarchy.verifyAttestation, hfind, hrole, attestation?_rootAttestation ha.kid hne hmeta,
    hroot, ha.role, ha.alg, ha.backend, ha.imported, hraw, hm, hdec, hv]

-- A record that replaces another one and attests the same.
structure Amends (k k₀ : LicenseKey) : Prop where
  role          : k.role = k₀.role
  alg           : k.alg = k₀.alg
  kid           : k.kid = k₀.kid
  publicPem     : k.publicPem = k₀.publicPem
  privatePemEnc : k.privatePemEnc = k₀.privatePemEnc
  meta_         : k.meta_ = k₀.meta_
  notBefore     : k.notBefore = k₀.notBefore
  notAfter      : k.notAfter = k₀.notAfter

theorem Genuine.amend {k k₀ : LicenseKey} (hg : Genuine h.backends k₀) (ha : Amends k k₀) :
    Genuine h.backends k := by
  unfold Genuine at hg ⊢
  rwa [ha.alg, ha.publicPem, ha.privatePemEnc]

theorem Attested.amend {root k k₀ : LicenseKey} (ha : h.Attested root k₀) (hk : Amends k k₀) :
    h.Attested root k where
  role     := ha.role
  alg      := ha.alg.trans hk.alg.symm
  kid      := ha.kid
  backend  := hk.alg ▸ ha.backend
  imported := hk.alg ▸ ha.imported
  signed   := by
    rw [hk.alg, hk.publicPem, hk.kid, hk.notBefore, hk.notAfter, hk.meta_]
    exact ha.signed

theorem Attested.amend_root {root root₀ k : LicenseKey} (ha : h.Attested root₀ k)
    (hr : Amends root root₀) : h.Attested root k where
  role     := hr.role.trans ha.role
  alg      := hr.alg.trans ha.alg
  kid      := hr.kid ▸ ha.kid
  backend  := ha.backend
  imported := hr.publicPem ▸ ha.imported
  signed   := by
    rw [hr.kid, hr.publicPem]
    exact ha.signed

-- Every root is one that was generated, and every signing key is attested by a root.
structure Audited (h : KeyHierarchy ρ κ) (s : KeyStore) : Prop where
  root    : ∀ {id k}, s.get id = some k → k.role = .root → Genuine h.backends k ∧ k.kid ≠ ""
  signing : ∀ {id k}, s.get id = some k → k.role = .signing →
    ∃ id root, s.get id = some root ∧ h.Attested root k

theorem Audited.insert_new {k : LicenseKey} (ha : h.Audited s) (hn : s.get k.id = none)
    (hr : k.role = .root → Genuine h.backends k ∧ k.kid ≠ "")
    (hs : k.role = .signing → ∃ id root, s.get id = some root ∧ h.Attested root k) :
    h.Audited (s.insert k) := by
  have kept {id root} (hg : s.get id = some root) : (s.insert k).get id = some root := by
    have hne : id ≠ k.id := by
      rintro rfl
      rw [hn] at hg
      contradiction
    rw [KeyStore.get_insert, if_neg hne, hg]
  have still {k'} (hk : ∃ id root, s.get id = some root ∧ h.Attested root k') :
      ∃ id root, (s.insert k).get id = some root ∧ h.Attested root k' := by
    obtain ⟨id, root, hg, ha⟩ := hk
    exact ⟨id, root, kept hg, ha⟩
  constructor
  case root =>
    intro id k' hg hrole
    rw [KeyStore.get_insert] at hg
    split at hg
    case isTrue => cases hg; exact hr hrole
    case isFalse => exact ha.root hg hrole
  case signing =>
    intro id k' hg hrole
    rw [KeyStore.get_insert] at hg
    split at hg
    case isTrue => cases hg; exact still (hs hrole)
    case isFalse => exact still (ha.signing hg hrole)

theorem Audited.insert_amended {k k₀ : LicenseKey} (ha : h.Audited s) (hk : s.get k.id = some k₀)
    (hm : Amends k k₀) : h.Audited (s.insert k) := by
  have still {k'} (hk' : ∃ id root, s.get id = some root ∧ h.Attested root k') :
      ∃ id root, (s.insert k).get id = some root ∧ h.Attested root k' := by
    obtain ⟨id, root, hg, hat⟩ := hk'
    by_cases hid : id = k.id
    case neg => exact ⟨id, root, by rw [KeyStore.get_insert, if_neg hid, hg], hat⟩
    case pos =>
      rw [hid, hk] at hg
      cases hg
      exact ⟨k.id, k, by simp, hat.amend_root hm⟩
  constructor
  case root =>
    intro id k' hg hrole
    rw [KeyStore.get_insert] at hg
    split at hg
    case isFalse => exact ha.root hg hrole
    case isTrue =>
      cases hg
      obtain ⟨hg, hkid⟩ := ha.root hk (hm.role ▸ hrole)
      exact ⟨hg.amend hm, hm.kid ▸ hkid⟩
  case signing =>
    intro id k' hg hrole
    rw [KeyStore.get_insert] at hg
    split at hg
    case isFalse => exact still (ha.signing hg hrole)
    case isTrue =>
      cases hg
      obtain ⟨id, root, hg, hat⟩ := ha.signing hk (hm.role ▸ hrole)
      exact still ⟨id, root, hg, hat.amend hm⟩

-- What each call must respect for the attestations to remain valid: a root has a kid, and a rotation
-- leaves the end of the key that it retires.
def KeepsAttestations (h : KeyHierarchy ρ κ) (d : Draw ρ) : KeyCall → KeyStore → Prop
  | .generateRoot opts,  _ => h.kid opts.kid .root d.id ≠ ""
  | .issueSigning _,     _ => True
  | .rotateSigning opts, s => ∀ outgoing ∈ s.list (activeSigning opts.scopeId opts.alg),
    opts.retireOutgoingAt.getD outgoing.notAfter = outgoing.notAfter

theorem rootRecord_eq_ok {opts : GenerateRootOptions} {k : LicenseKey}
    (hr : h.rootRecord d opts = .ok k) :
    k.role = .root ∧ k.kid = h.kid opts.kid .root d.id ∧ Genuine h.backends k := by
  unfold rootRecord at hr
  split at hr
  case isTrue => contradiction
  case isFalse =>
    simp only [bind_eq_ok_iff] at hr
    obtain ⟨_, _, _, _, g, hg, enc, henc, hk⟩ := hr
    cases hk
    refine ⟨rfl, rfl, opts.passphrase, d.generateSeed, g, hg, rfl, ?_⟩
    rintro enc' rfl
    simp only [sealPrivate, bind_eq_ok_iff] at henc
    obtain ⟨der, hder, henc⟩ := henc
    cases der with
    | none => cases henc
    | some der =>
      simp only [bind_eq_ok_iff] at henc
      obtain ⟨_, hw, he⟩ := henc
      cases he
      exact ⟨der, opts.passphrase, d.wrapSeed, hder, hw⟩

-- The signature of an attestation verifies for the message that was signed, and for no other.
theorem Attests.verifies {opts : IssueSigningOptions} {root : LicenseKey} {g : Generated}
    {enc : Option String} {sig : List UInt8} (ha : h.Attests d opts s root g enc sig)
    (hb : h.backends.Sound) (hr : Genuine h.backends root) : sig ≠ [] ∧
      h.backends.importPublic opts.alg root.publicPem = .ok () ∧
      ∃ m, h.port.attestationCanonical (h.kid opts.kid .signing d.id) opts.alg g.publicRaw d.now opts.notAfter = .ok m ∧
        ∀ m', h.backends.verify opts.alg root.publicPem m' sig = .ok (m' = m) := by
  obtain ⟨passphrase, seed, g₀, hg₀, hpub, hseal⟩ := hr
  have hsig := ha.attested
  unfold attestSigning at hsig
  split at hsig
  case h_1 => contradiction
  case h_2 sealed he =>
    simp only [bind_eq_ok_iff] at hsig
    obtain ⟨_, _, opened, hopen, priv, himp, m, hm, hsign⟩ := hsig
    obtain ⟨der, passphrase', seed', hder, hwrap⟩ := hseal sealed he
    have hv := hb.verify hg₀ hder hwrap hopen (hpub ▸ himp) hsign
    rw [ha.alg] at hg₀ hv
    exact ⟨hb.signature hsign, hpub ▸ hb.importPublic hg₀, m, hm, hpub ▸ hv⟩

theorem Attests.toAttested {opts : IssueSigningOptions} {root : LicenseKey} {g : Generated}
    {enc : Option String} {sig : List UInt8} (ha : h.Attests d opts s root g enc sig)
    (hb : h.backends.Sound) (hp : h.port.Lawful) (hn : h.port.base64urlDecode "" = .ok [])
    (hr : Genuine h.backends root) (hkid : root.kid ≠ "") :
    h.Attested root (h.newSigning d opts root g enc sig) := by
  obtain ⟨hsig, himp, m, hm, hv⟩ := ha.verifies hb hr
  refine ⟨ha.role, ha.alg, hkid, ha.backend, himp, g.publicRaw, m, sig,
    hb.publicRaw ha.asymmetric ha.generated, hm, rfl, hp.encode_ne hsig hn, hp.decode sig, ?_⟩
  have hv' : h.backends.verify opts.alg root.publicPem m sig = .ok true := by simpa using hv m
  exact hv'

theorem Writes.audited {c : KeyCall} {s₀ : KeyStore} {k : LicenseKey} (hb : h.backends.Sound)
    (hp : h.port.Lawful) (hn : h.port.base64urlDecode "" = .ok []) (hc : h.KeepsAttestations d c s₀)
    (hs : s.Indexed) (ha : h.Audited s) (hw : h.Writes d c s₀ s k) : h.Audited (s.insert k) := by
  cases hw
  case root opts hr hg _ =>
    obtain ⟨hrole, hkid, hgen⟩ := rootRecord_eq_ok hr
    subst c
    refine ha.insert_new hg (fun _ => ⟨hgen, hkid ▸ hc⟩) fun hs => ?_
    rw [hrole] at hs
    contradiction
  case signing opts root g enc sig hat he hg _ =>
    obtain ⟨hroot, hkid⟩ := hs.findByKid_eq_some_iff.mp hat.known
    obtain ⟨hgen, hne⟩ := ha.root hroot hat.role
    subst he
    exact ha.insert_new hg nofun fun _ => ⟨root.id, root, hroot, hat.toAttested hb hp hn hgen hne⟩
  case retire outgoing he hd =>
    subst he
    have hk := hc outgoing (by simp [hd.active])
    exact ha.insert_amended hd.mem.1 ⟨rfl, rfl, rfl, rfl, rfl, rfl, rfl, hk⟩
  case link k outgoing hg =>
    exact ha.insert_amended (k := linked d outgoing k) hg ⟨rfl, rfl, rfl, rfl, rfl, rfl, rfl, rfl⟩

-- A key that was written keeps its kid and its role.
def Keeps (k : LicenseKey) (s : KeyStore) : Prop :=
  ∃ k', s.get k.id = some k' ∧ k'.kid = k.kid ∧ k'.role = k.role

theorem Writes.keeps {c : KeyCall} {s₀ : KeyStore} {k k' : LicenseKey} (hk : Keeps k s)
    (hw : h.Writes d c s₀ s k') : Keeps k (s.insert k') := by
  obtain ⟨k₀, hg, hkid, hrole⟩ := hk
  by_cases hid : k.id = k'.id
  case neg => exact ⟨k₀, by rw [KeyStore.get_insert, if_neg hid, hg], hkid, hrole⟩
  case pos =>
    refine ⟨k', by rw [KeyStore.get_insert, if_pos hid], ?_⟩
    rw [hid] at hg
    cases hw
    case root hn _    => rw [hn] at hg; contradiction
    case signing hn _ => rw [hn] at hg; contradiction
    case retire hd =>
      cases hd.mem.1.symm.trans hg
      exact ⟨hkid, hrole⟩
    case link k _ hg' =>
      cases hg'.symm.trans hg
      exact ⟨hkid, hrole⟩

theorem Audited.empty : h.Audited {} :=
  ⟨nofun, nofun⟩

theorem Audited.verifyAttestation {k : LicenseKey} (ha : h.Audited s) (hx : s.Indexed)
    (hk : s.get k.id = some k) (hs : k.role = .signing) : h.verifyAttestation k.kid s = .ok true := by
  obtain ⟨id, root, hr, hat⟩ := ha.signing hk hs
  exact hat.verifyAttestation hx hk hs (KeyStore.id_of_get hr ▸ hr)

-- In a run whose rotations leave the ends of the keys they retire, and whose roots all have a kid,
-- the attestation of a signing key stays valid.
theorem Reaches.attestation_valid {k : LicenseKey} (hb : h.backends.Sound)
    (hp : h.port = Go.hierarchy ∨ h.port = Ts.hierarchy) (hr : h.Reaches h.KeepsAttestations {} s)
    (hr' : h.Reaches h.KeepsAttestations s s') (hk : s.get k.id = some k) (hs : k.role = .signing) :
    h.verifyAttestation k.kid s' = .ok true := by
  have hl : h.port.Lawful := by
    rcases hp with hp | hp
    case inl => exact hp ▸ Go.lawful_hierarchy
    case inr => exact hp ▸ Ts.lawful_hierarchy
  have hn : h.port.base64urlDecode "" = .ok [] := by
    rcases hp with hp | hp <;> rw [hp] <;> rfl
  obtain ⟨hx, ha⟩ := hr.induction .empty .empty fun d c s s' k hc hs ha hw =>
    hw.audited hb hl hn hc hs ha
  have hi : h.Audited s ∧ Keeps k s := ⟨ha, k, hk, rfl, rfl⟩
  obtain ⟨hx', ha', k', hk', hkid, hrole⟩ := hr'.induction (I := fun s => h.Audited s ∧ Keeps k s) hx hi
    fun d c s s' k hc hs hi hw => ⟨hw.audited hb hl hn hc hs hi.1, hw.keeps hi.2⟩
  have hid := KeyStore.id_of_get hk'
  rw [← hkid]
  exact ha'.verifyAttestation hx' (hid ▸ hk') (hrole.trans hs)

theorem reaches_signingStore : sampleHierarchy.Reaches sampleHierarchy.KeepsAttestations {} signingStore := by
  have hkid : sampleHierarchy.kid sampleRoot.kid .root "i1" ≠ "" := by decide
  have hr : sampleHierarchy.Reaches sampleHierarchy.KeepsAttestations {} rootStore :=
    .call (drawing "i1") (.generateRoot sampleRoot) .refl rfl hkid
  rw [← perform_sampleSigning]
  exact .call (drawing "i2") (.issueSigning sampleSigning) hr rfl trivial

theorem verifyAttestation_sample : sampleHierarchy.verifyAttestation "k1" (rotatedStore none) = .ok true := by
  have hr : sampleHierarchy.Reaches sampleHierarchy.KeepsAttestations signingStore (rotatedStore none) := by
    obtain ⟨result, he⟩ := rotateSigning_sample none
    have hs : sampleHierarchy.perform (drawing "i3") (.rotateSigning (sampleRotation none)) signingStore =
        rotatedStore none := by rw [perform, he]
    exact hs ▸ .call (drawing "i3") (.rotateSigning (sampleRotation none)) .refl rfl fun _ _ => rfl
  exact Reaches.attestation_valid (k := sampleIncoming (drawing "i2") sampleSigning) sound_plainBackends
    (.inl rfl) reaches_signingStore hr rfl rfl

-- A rotation that sets the end of the key it retires.
theorem verifyAttestation_of_retireOutgoingAt :
    sampleHierarchy.verifyAttestation "k1" (rotatedStore (some (some "t"))) = .ok false := by
  let k := retiring (drawing "i3") (sampleRotation (some (some "t")))
    (sampleIncoming (drawing "i2") sampleSigning)
  let signature := sampleSignature (drawing "i2") sampleSigning
  have hn : Go.base64urlEncode signature ≠ "" :=
    Go.lawful_hierarchy.encode_ne (List.cons_ne_nil _ _) rfl
  have ha : attestation? k = some ("r1", Go.base64urlEncode signature) :=
    attestation?_rootAttestation (by decide) hn rfl
  have hk : (rotatedStore (some (some "t"))).findByKid "k1" = some k := rfl
  have hr : (rotatedStore (some (some "t"))).findByKid "r1" = some rootKey := rfl
  have hc : sampleHierarchy.port.attestationCanonical k.kid k.alg [] k.notBefore k.notAfter =
      .ok (attestationBytes "k1" .ed25519 (Go.base64urlEncode []) "" (some "t")) :=
    Go.attestationCanonical_eq _ _ _ _ _
  have hd : sampleHierarchy.port.base64urlDecode (Go.base64urlEncode signature) = .ok signature :=
    Go.lawful_hierarchy.decode signature
  have hv : signature ≠ 0 :: attestationBytes "k1" .ed25519 (Go.base64urlEncode []) "" (some "t") := by
    intro he
    have hi := (attestationBytes_inj.mp (List.cons_inj_right 0 |>.mp he)).right
    contradiction
  have hs : ¬k.role ≠ .signing := by decide
  have hrole : ¬(rootKey.role ≠ .root ∨ rootKey.alg ≠ k.alg) := by decide
  rw [KeyHierarchy.verifyAttestation, hk]
  simp only [ha, hr, if_neg hs, if_neg hrole, bind_eq_ok_iff]
  refine ⟨(), rfl, (), rfl, [], rfl, _, hc, ?_⟩
  rw [hd]
  exact congrArg Except.ok (decide_eq_false hv)

theorem not_verifyAttestation_reaches : ¬∀ (h : KeyHierarchy Unit Unit) s s' k, h.backends.Sound →
    h.port = Go.hierarchy ∨ h.port = Ts.hierarchy → h.Reachable s → h.Reaches Unconditional s s' →
      s.get k.id = some k → k.role = .signing → h.verifyAttestation k.kid s' = .ok true := by
  intro hv
  obtain ⟨result, he⟩ := rotateSigning_sample (some (some "t"))
  have hr : sampleHierarchy.Reaches Unconditional signingStore (rotatedStore (some (some "t"))) := by
    have hs : sampleHierarchy.perform (drawing "i3")
        (.rotateSigning (sampleRotation (some (some "t")))) signingStore =
          rotatedStore (some (some "t")) := by rw [perform, he]
    exact hs ▸ .call (drawing "i3") (.rotateSigning _) .refl rfl trivial
  have ht := hv sampleHierarchy signingStore _ (sampleIncoming (drawing "i2") sampleSigning)
    sound_plainBackends (.inl rfl) reachable_signingStore hr rfl rfl
  rw [show (sampleIncoming (drawing "i2") sampleSigning).kid = "k1" from rfl,
    verifyAttestation_of_retireOutgoingAt] at ht
  contradiction

end KeyHierarchy

end Licensing
