import Licensing.Keys.Attestation
import Licensing.Memory.Adapter
import Licensing.Tokens.ClientToken
import Licensing.Tokens.IssueToken

-- The windows of signing keys, when tokens are issued and when they are verified.

namespace Licensing

namespace LicenseKey

-- The end of the window has come. Instants are in nanoseconds.
def Over (k : LicenseKey) (now : Int) : Prop :=
  ∃ s t, k.notAfter = some s ∧ Go.parseTime s = some t ∧ t ≤ now

-- The window has an end that is an instant.
def Ends (k : LicenseKey) : Prop :=
  ∃ s t, k.notAfter = some s ∧ Go.parseTime s = some t

-- It comes, in whole seconds.
theorem Ends.over {k : LicenseKey} (h : k.Ends) : ∃ now : Int, k.Over (now * 1000000000) := by
  obtain ⟨s, t, hs, ht⟩ := h
  exact ⟨t / 1000000000 + 1, s, t, hs, ht, by omega⟩

structure InWindow (k : LicenseKey) (now : Int) : Prop where
  started : ∃ t, Go.parseTime k.notBefore = some t ∧ t ≤ now
  notOver : ∀ s, k.notAfter = some s → ∃ t, Go.parseTime s = some t ∧ now < t

-- The window around an instant that is given by its text.
def InWindowAt (k : LicenseKey) (nowISO : String) : Prop :=
  ∃ now, Go.parseTime nowISO = some now ∧ k.InWindow now

end LicenseKey

namespace Go

-- A list of keys has those only that the filter accepts.
def ListsKeys (answer : (o : Op) → o.Ans) : Prop :=
  ∀ f request page, answer (.tx (.listKeys f request)) = .ok page →
    ∀ k ∈ page.items, Memory.acceptsKey f k

theorem listsKeys_memory (port : Memory.Port) (ω : Memory.Env) (s : Memory.State) :
    ListsKeys fun o => (port.exec ω o s).1 := by
  intro f request page h k hk
  cases h
  exact (List.mem_filter.mp (Memory.mem_of_mem_paginate hk)).right

section Issuance

variable {answer : (o : Op) → o.Ans} {fuel : Nat} {scopeId : Option String} {alg : KeyAlg} {k : LicenseKey}

-- The key that is found is on one of the pages.
theorem listed_of_findFirstActiveKeyFrom {cursor : String}
    (h : (findFirstActiveKeyFrom scopeId alg fuel cursor).run answer = .ok (some k)) :
    ∃ request page, answer (.tx (.listKeys (activeKeys scopeId alg) request)) = .ok page ∧
      k ∈ page.items := by
  induction fuel generalizing cursor
  case zero => simp [findFirstActiveKeyFrom] at h
  case succ fuel ih =>
    obtain ⟨page, hp, h⟩ := Prog.run_bind_eq_ok_iff.mp h
    have hp : answer (.tx (.listKeys (activeKeys scopeId alg) ⟨50, cursor⟩)) = .ok page := by
      cases ha : answer (.tx (.listKeys (activeKeys scopeId alg) ⟨50, cursor⟩))
      case error e => simp [Tx.listKeys, Tx.perform, ha] at hp
      case ok a    => simpa [Tx.listKeys, Tx.perform, ha] using hp
    split at h
    case h_1 hi =>
      cases h
      exact ⟨_, page, hp, by simp [hi]⟩
    case h_2 =>
      split at h
      case isTrue  => simp at h
      case isFalse => exact ih h

theorem listed_of_findActiveSigningKey
    (h : (findActiveSigningKey fuel scopeId alg).run answer = .ok (some k)) :
    ∃ scopeId', (scopeId' = none ∨ scopeId' = scopeId) ∧ ∃ request page,
      answer (.tx (.listKeys (activeKeys scopeId' alg) request)) = .ok page ∧ k ∈ page.items := by
  unfold findActiveSigningKey at h
  cases scopeId
  case none    => exact ⟨none, .inl rfl, listed_of_findFirstActiveKeyFrom h⟩
  case some id =>
    obtain ⟨o, ho, h⟩ := Prog.run_bind_eq_ok_iff.mp h
    cases o
    case none     => exact ⟨none, .inl rfl, listed_of_findFirstActiveKeyFrom h⟩
    case some key =>
      cases h
      exact ⟨some id, .inr rfl, listed_of_findFirstActiveKeyFrom ho⟩

-- The key of an issuance is active, and global or of the scope.
theorem of_findActiveSigningKey (lists : ListsKeys answer)
    (h : (findActiveSigningKey fuel scopeId alg).run answer = .ok (some k)) :
    k.state = .active ∧ k.role = .signing ∧ (k.scopeId = none ∨ k.scopeId = scopeId) := by
  obtain ⟨scopeId', hs', request, page, hp, hk⟩ := listed_of_findActiveSigningKey h
  have ha := lists _ _ _ hp k hk
  simp only [Memory.acceptsKey, activeKeys, Option.all_some, Option.all_none, Bool.and_eq_true,
    decide_eq_true_eq] at ha
  obtain ⟨⟨⟨⟨hs, -⟩, -⟩, hr⟩, ht⟩ := ha
  exact ⟨ht.symm, hr.symm, hs ▸ hs'⟩

theorem private_of_importSigningPrivate {ρ κ : Type} {b : KeyBackends ρ κ} {passphrase : String} {handle : κ}
    (h : importSigningPrivate b k passphrase = .ok handle) : k.privatePemEnc ≠ none := by
  intro hn
  simp only [importSigningPrivate, hn] at h
  split at h
  case isTrue  => contradiction
  case isFalse =>
    split at h
    all_goals contradiction

-- Every token is signed with an active key inside its window.
def SignsInWindow (answer : (o : Op) → o.Ans) : Prop :=
  ∀ (ρ κ : Type) (fuel : Nat) (b : KeyBackends ρ κ) (seed : ρ) (jti : String) (input : IssueTokenInput)
    (r : IssueTokenResult), (issueToken fuel b seed jti input).run answer = .ok r →
    ∃ k, (findActiveSigningKey fuel input.license.scopeId input.alg).run answer = .ok (some k) ∧
      r.kid = k.kid ∧ k.state = .active ∧ k.InWindowAt (answer .nowISO)

-- A key that the store offers for the licenses of a scope.
structure Offers (answer : (o : Op) → o.Ans) (scopeId : Option String) (alg : KeyAlg) (k : LicenseKey) :
    Prop where
  found   : ∃ fuel, (findActiveSigningKey fuel scopeId alg).run answer = .ok (some k)
  private_ : k.privatePemEnc ≠ none
  scope   : ∀ id, scopeId = some id → ∃ scope, answer (.tx (.getScope id)) = .ok (some scope)

-- A license that can be issued a token with whatever key there is.
def anyLicense (scopeId : Option String) : License where
  id             := "l"
  scopeId        := scopeId
  templateId     := none
  licensableType := "user"
  licensableId   := "1"
  licenseKey     := "L"
  status         := .active
  maxUsages      := 1
  activatedAt    := none
  expiresAt      := none
  graceUntil     := none
  meta_          := []
  createdAt      := ""
  updatedAt      := ""
  isTrial        := false

def anyUsage : LicenseUsage where
  id           := "u"
  licenseId    := "l"
  fingerprint  := "f"
  status       := .active
  registeredAt := ""
  revokedAt    := none
  lastSeenAt   := ""
  clientMeta   := []
  createdAt    := ""
  updatedAt    := ""

def anyInput (scopeId : Option String) (alg : KeyAlg) : IssueTokenInput where
  license           := anyLicense scopeId
  licenseMeta       := []
  usage             := anyUsage
  alg               := alg
  signingPassphrase := "p"
  ttlSeconds        := 1

-- Backends that open every key.
def openBackends : KeyBackends Unit Unit :=
  { plainBackends with unwrap := fun _ _ => .ok [] }

theorem Offers.issueToken (offers : Offers answer scopeId alg k) (lists : ListsKeys answer) :
    ∃ fuel r, (findActiveSigningKey fuel scopeId alg).run answer = .ok (some k) ∧
      (issueToken fuel openBackends () "j" (anyInput scopeId alg)).run answer = .ok r := by
  obtain ⟨fuel, hf⟩ := offers.found
  obtain ⟨enc, he⟩ := Option.ne_none_iff_exists'.mp offers.private_
  obtain ⟨-, hr, hs⟩ := of_findActiveSigningKey lists hf
  have ready : Ready answer fuel openBackends () (anyInput scopeId alg) := by
    constructor
    case ttl    => simp only [anyInput]; decide
    case usage  => exact ⟨rfl, rfl⟩
    case status => exact .inl rfl
    case scope  => exact offers.scope
    case plain  => exact ⟨rfl, rfl, rfl⟩
    case key    =>
      refine ⟨k, hf, ?_, ⟨(), ?_, fun data => ⟨0 :: data, rfl⟩⟩, rfl, port.lic1Codec, rfl, ?_⟩
      case refine_1 =>
        intro scope hk
        rcases hs with hs | hs
        case inl => simp [hs] at hk
        case inr => exact hs.symm.trans hk
      case refine_2 => simp [importSigningPrivate, anyInput, hr, he, openBackends, plainBackends]
      case refine_3 =>
        simp only [anyInput]
        cases alg <;> decide
  obtain ⟨r, h⟩ : ∃ r, (Go.issueToken fuel openBackends () "j" (anyInput scopeId alg)).run answer = .ok r := by
    refine ready.issueToken_iff.mpr ⟨none, rfl, ?_⟩
    obtain ⟨hl, hu⟩ := unixSeconds_bounds (answer .nowISO)
    constructor
    case issued       => omega
    case expires      =>
      have ho : (1 : Int64).toInt = 1 := rfl
      rw [Int64.toInt_add, show (anyInput scopeId alg).ttlSeconds = 1 from rfl, ho, Int.bmod_eq_of_le]
      all_goals omega
    case maxUsages    => simp only [anyInput, anyLicense]; decide
    case deadline     => simp
    case entitlements =>
      rintro _ ⟨⟩
    case meta_        =>
      rintro _ ⟨⟩
  exact ⟨fuel, r, hf, h⟩

theorem signsInWindow_iff (lists : ListsKeys answer) : SignsInWindow answer ↔
    ∀ scopeId alg k, Offers answer scopeId alg k → k.InWindowAt (answer .nowISO) := by
  apply Iff.intro
  case mp =>
    intro signs scopeId alg k offers
    obtain ⟨fuel, r, hf, hr⟩ := offers.issueToken lists
    obtain ⟨k', hf', -, -, hw⟩ := signs _ _ _ _ _ _ _ _ hr
    cases hf.symm.trans hf'
    exact hw
  case mpr =>
    intro offered ρ κ fuel b seed jti input r hr
    obtain ⟨-, -, k, hf, hi⟩ := issueToken_eq_ok_iff.mp hr
    refine ⟨k, hf, hi.kid, (of_findActiveSigningKey lists hf).left, offered _ _ k ⟨⟨fuel, hf⟩, ?_, ?_⟩⟩
    case refine_1 =>
      obtain ⟨_, _, -, -, ht⟩ := hi.token
      obtain ⟨handle, hh, -⟩ := bind_eq_ok_iff.mp ht
      exact private_of_importSigningPrivate hh
    case refine_2 =>
      obtain ⟨_, _, hs, -⟩ := hi.token
      intro id hid
      rcases run_scopeSlug_iff.mp hs with ⟨hn, -⟩ | ⟨id', scope, hid', ha, -⟩
      case inl => simp [hn] at hid
      case inr =>
        cases hid.symm.trans hid'
        exact ⟨scope, ha⟩

end Issuance

section Verification

variable {answer : (o : Op) → o.Ans} {β κ : Type} {alg : β → GoString}

def storedKey (k : LicenseKey) : StoredKey GoString :=
  ⟨Bytes.ofString k.kid, Bytes.ofString k.alg.toString, k.publicPem⟩

-- A server over the rows of a store.
def serverOf (answer : (o : Op) → o.Ans) (importPublic : β → KeyRecord GoString → Except Error κ)
    (verify : β → κ → List UInt8 → List UInt8 → Except Error Bool) : Server GoString β κ where
  keyByKid kid :=
    match Bytes.toString? kid with
    | some kid => (answer (.tx (.getKeyByKid kid))).map (Option.map storedKey)
    | none     => .ok none
  importPublic := importPublic
  verify       := verify

variable {backends : AlgorithmRegistry alg} {importPublic : β → KeyRecord GoString → Except Error κ}
  {verify : β → κ → List UInt8 → List UInt8 → Except Error Bool}

-- The token names a retiring key whose window is over. The clock is read in seconds.
def NamesRetired (answer : (o : Op) → o.Ans) (parts : DecodedEnvelope GoString Map) (now : Int) : Prop :=
  ∃ kid k, parts.header.kid = Bytes.ofString kid ∧ answer (.tx (.getKeyByKid kid)) = .ok (some k) ∧
    k.state = .retiring ∧ k.Over (now * 1000000000)

-- No token of a retiring key is accepted once the window of the key is over.
def RejectsRetired (answer : (o : Op) → o.Ans) (backends : AlgorithmRegistry alg)
    (importPublic : β → KeyRecord GoString → Except Error κ)
    (verify : β → κ → List UInt8 → List UInt8 → Except Error Bool) : Prop :=
  ∀ token grace now parts, (verifyClientToken backends token grace).run
    ((serverOf answer importPublic verify).answer now) = .ok parts → ¬NamesRetired answer parts now

theorem verifyClientToken_eq_ok_iff {server : Server GoString β κ} {token : GoString} {grace : Int64}
    {now : Int} {parts : DecodedEnvelope GoString Map} :
    (verifyClientToken backends token grace).run (server.answer now) = .ok parts ↔
      (verifyStored backends token).run (server.answer now) = .ok parts := by
  rw [verifyClientToken, Prog.run_bind_eq_ok_iff]
  apply Iff.intro
  case mp =>
    rintro ⟨parts', hp, h⟩
    have hf := asFloat64_of_decodeEnvelope (decodeEnvelope_of_verifyStored hp)
    simp [Prog.run_bind, hf] at h
    exact h ▸ hp
  case mpr =>
    intro hp
    have hf := asFloat64_of_decodeEnvelope (decodeEnvelope_of_verifyStored hp)
    exact ⟨parts, hp, by simp [Prog.run_bind, hf]⟩

theorem keyByKid_eq_ok_iff {kid : String} {record : StoredKey GoString} :
    (serverOf answer importPublic verify).keyByKid (Bytes.ofString kid) = .ok (some record) ↔
      ∃ k, answer (.tx (.getKeyByKid kid)) = .ok (some k) ∧ storedKey k = record := by
  simp only [serverOf, Bytes.toString?_ofString]
  cases answer (.tx (.getKeyByKid kid))
  case error => simp [Except.map]
  case ok k? => cases k? <;> simp [Except.map]

-- No window is read, so every token that a retiring key has signed is accepted after the end of the window too.
theorem rejectsRetired_iff : RejectsRetired answer backends importPublic verify ↔
    ∀ k, answer (.tx (.getKeyByKid k.kid)) = .ok (some k) → k.state = .retiring → k.Ends →
      ∀ token parts, decodeEnvelope token = .ok parts →
        ¬SignedBy backends importPublic verify (storedKey k) parts := by
  constructor
  case mp =>
    intro rejects k row retiring ends token parts decoded signed
    obtain ⟨now, ended⟩ := ends.over
    have kid : parts.header.kid = Bytes.ofString k.kid := by rw [signed.header, storedKey]
    have accepted : (verifyStored backends token).run ((serverOf answer importPublic verify).answer now) =
        .ok parts :=
      verifyStored_eq_ok_iff.mpr ⟨decoded, storedKey k, kid ▸ keyByKid_eq_ok_iff.mpr ⟨k, row, rfl⟩, signed⟩
    exact rejects token 0 now parts (verifyClientToken_eq_ok_iff.mpr accepted)
      ⟨k.kid, k, kid, row, retiring, ended⟩
  case mpr =>
    rintro unsigned token grace now parts accepted ⟨kid, k, hkid, row, retiring, s, t, hs, ht, -⟩
    obtain ⟨decoded, record, hk, signed⟩ := verifyStored_eq_ok_iff.mp (verifyClientToken_eq_ok_iff.mp accepted)
    rw [hkid] at hk
    obtain ⟨k', row', rfl⟩ := keyByKid_eq_ok_iff.mp hk
    cases row.symm.trans row'
    have same : kid = k.kid := Bytes.ofString_injective <| by rw [← hkid, signed.header, storedKey]
    exact unsigned k (same ▸ row) retiring ⟨s, t, hs, ht⟩ token parts decoded signed

-- What the windows of the keys ask of a store, of the clock, and of the signatures of the keys.
structure WithinWindows (answer : (o : Op) → o.Ans) (backends : AlgorithmRegistry alg)
    (importPublic : β → KeyRecord GoString → Except Error κ)
    (verify : β → κ → List UInt8 → List UInt8 → Except Error Bool) : Prop where
  offered  : ∀ scopeId alg k, Offers answer scopeId alg k → k.InWindowAt (answer .nowISO)
  unsigned : ∀ k, answer (.tx (.getKeyByKid k.kid)) = .ok (some k) → k.state = .retiring → k.Ends →
    ∀ token parts, decodeEnvelope token = .ok parts →
      ¬SignedBy backends importPublic verify (storedKey k) parts

-- The windows are kept if the store offers no key outside its window, and no retiring key that ends has ever signed
-- a token.
theorem keys_withinWindows_iff (lists : ListsKeys answer) :
    SignsInWindow answer ∧ RejectsRetired answer backends importPublic verify ↔
      WithinWindows answer backends importPublic verify := by
  rw [signsInWindow_iff lists, rejectsRetired_iff]
  exact ⟨fun ⟨ho, hu⟩ => ⟨ho, hu⟩, fun h => ⟨h.offered, h.unsigned⟩⟩

section Sample

def windowKey (notAfter : Option String) : LicenseKey where
  id            := "3"
  scopeId       := none
  kid           := "k"
  alg           := .ed25519
  role          := .signing
  state         := .active
  publicPem     := ""
  privatePemEnc := some "secret"
  rotatedFrom   := none
  rotatedAt     := none
  notBefore     := "2025-01-01T00:00:00Z"
  notAfter      := notAfter
  meta_         := []
  createdAt     := ""
  updatedAt     := ""

-- A key that has been rotated out, and whose public half accepts no signature.
def retiredKey : LicenseKey :=
  { windowKey (some "2025-12-31T00:00:00Z") with id := "4", kid := "r", state := .retiring, publicPem := "none" }

-- A store with two keys, at the beginning of 2026.
def windowAnswer (notAfter : Option String) : (o : Op) → o.Ans
  | .tx (.listKeys f _)    => .ok ⟨[windowKey notAfter, retiredKey].filter (Memory.acceptsKey f), ""⟩
  | .tx (.getKeyByKid kid) => .ok ([windowKey notAfter, retiredKey].find? (·.kid = kid))
  | .tx _                  => .error (.other "")
  | .nowISO                => "2026-01-01T00:00:00Z"
  | .generateLicenseKey    => ""

theorem listsKeys_window (notAfter : Option String) : ListsKeys (windowAnswer notAfter) := by
  intro f request page h k hk
  cases h
  exact (List.mem_filter.mp hk).right

theorem eq_of_offers_window {notAfter : Option String} {scopeId : Option String} {alg : KeyAlg}
    {k : LicenseKey} (h : Offers (windowAnswer notAfter) scopeId alg k) : k = windowKey notAfter := by
  obtain ⟨fuel, hf⟩ := h.found
  obtain ⟨active, -⟩ := of_findActiveSigningKey (listsKeys_window notAfter) hf
  obtain ⟨_, -, request, page, hp, hk⟩ := listed_of_findActiveSigningKey hf
  cases hp
  have among : k = windowKey notAfter ∨ k = retiredKey := by simpa using (List.mem_filter.mp hk).left
  refine among.resolve_right ?_
  rintro rfl
  contradiction

theorem offers_window (notAfter : Option String) :
    Offers (windowAnswer notAfter) none .ed25519 (windowKey notAfter) where
  found    := ⟨1, rfl⟩
  private_ := by simp [windowKey]
  scope    := by simp

def readPem (_ : Unit) (record : KeyRecord GoString) : Except Error String :=
  .ok record.publicPem

def verifyPem (_ : Unit) (pem : String) (_ _ : List UInt8) : Except Error Bool :=
  .ok (pem ≠ "none")

theorem keys_withinWindows_never :
    SignsInWindow (windowAnswer none) ∧ RejectsRetired (windowAnswer none) trusted readPem verifyPem := by
  refine (keys_withinWindows_iff (listsKeys_window none)).mpr ?_
  constructor
  case offered =>
    intro scopeId alg k h
    rw [eq_of_offers_window h]
    refine ⟨1767225600000000000, by decide +kernel, ⟨1735689600000000000, by decide +kernel, by decide⟩, ?_⟩
    simp [windowKey]
  case unsigned =>
    rintro k row retiring - token parts - ⟨-, b, -, -, pem, hi, hv⟩
    have found := List.mem_of_find?_eq_some (Except.ok.inj row)
    have among : k = windowKey none ∨ k = retiredKey := by simpa using found
    obtain rfl | rfl := among
    case inl => contradiction
    case inr =>
      cases hi
      exact absurd (Except.ok.inj hv) (by decide)

-- A key whose window was over with 2025 signs on.
theorem not_keys_withinWindows : ¬∀ answer : (o : Op) → o.Ans, ListsKeys answer →
    SignsInWindow answer ∧
      RejectsRetired answer trusted (fun _ _ => .ok ()) (fun _ _ _ _ => .ok true) := by
  intro h
  have hl := listsKeys_window (some "2025-12-31T00:00:00Z")
  obtain ⟨now, hn, hw⟩ := (signsInWindow_iff hl).mp (h _ hl).left _ _ _ (offers_window _)
  obtain ⟨t, ht, hlt⟩ := hw.notOver _ rfl
  have hn' : parseTime "2026-01-01T00:00:00Z" = some 1767225600000000000 := by decide +kernel
  have ht' : parseTime "2025-12-31T00:00:00Z" = some 1767139200000000000 := by decide +kernel
  cases hn'.symm.trans hn
  cases ht'.symm.trans ht
  contradiction

end Sample

end Verification

end Go

end Licensing
