import Licensing.Keys.Hierarchy
import Licensing.Model.Clocks
import Licensing.Model.UsageService
import Licensing.Tokens.Kept

-- The issuance of tokens, and when it succeeds.

namespace Licensing

def UsageStatus.toString : UsageStatus → String
  | active  => "active"
  | revoked => "revoked"

namespace Go

-- The license comes with the values that its metadata holds, where no map is like an empty one. An
-- override that is set may be to nothing.
structure IssueTokenInput where
  license           : License
  licenseMeta       : Map
  usage             : LicenseUsage
  alg               : KeyAlg
  signingPassphrase : String
  ttlSeconds        : Int64
  tokenFormat       : String := ""
  forceOnlineAfter  : Option (Option Int64) := none
  entitlements      : Option (Option Map) := none
  meta_             : Option Map := none

structure IssueTokenResult where
  token : GoString
  kid   : String
  jti   : String
  iat   : Int64
  exp   : Int64

def fingerprintRejected (message : String) : Error :=
  newError .fingerprintRejected message

def checkUsage (input : IssueTokenInput) : Except Error Unit :=
  if input.ttlSeconds ≤ 0 then
    .error (fingerprintRejected
      ("issueToken.ttlSeconds must be > 0 (got " ++ toString input.ttlSeconds ++ ")"))
  else if input.usage.licenseId ≠ input.license.id then
    .error (tokenMalformed ("usage.license_id (" ++ input.usage.licenseId ++
      ") does not belong to license " ++ input.license.id))
  else if input.usage.status ≠ .active then
    .error (tokenMalformed ("usage " ++ input.usage.id ++ " is not active (status=" ++
      input.usage.status.toString ++ ")"))
  else .ok ()

def checkEffectiveStatus (license : License) : LicenseStatus → Except Error Unit
  | .active | .grace => .ok ()
  | .pending   => .error (tokenMalformed
    ("license " ++ license.id ++ " is still pending — activate via registerUsage first"))
  | .suspended => .error (newError .licenseSuspended "license is suspended")
  | .revoked   => .error (newError .licenseRevoked "license is revoked")
  | .expired   => .error (newError .licenseExpired "license has expired")

-- The filter of `findFirstActiveKey`.
def activeKeys (scopeId : Option String) (alg : KeyAlg) : LicenseKeyFilter where
  scopeId := some scopeId
  alg     := some alg
  role    := some .signing
  state   := some .active

def findFirstActiveKeyFrom (scopeId : Option String) (alg : KeyAlg) : Nat → String → Tx (Option LicenseKey)
  | 0,        _      => .throw outOfFuel
  | fuel + 1, cursor => do
    let page ← Tx.listKeys (activeKeys scopeId alg) { limit := 50, cursor := cursor }
    match page.items with
    | key :: _ => return some key
    | []       =>
      if page.cursor = "" then return none
      else findFirstActiveKeyFrom scopeId alg fuel page.cursor

def findFirstActiveKey (fuel : Nat) (scopeId : Option String) (alg : KeyAlg) : Tx (Option LicenseKey) :=
  findFirstActiveKeyFrom scopeId alg fuel ""

-- Tries the scope first and falls back to the global key.
def findActiveSigningKey (fuel : Nat) (scopeId : Option String) (alg : KeyAlg) :
    Tx (Option LicenseKey) := do
  match scopeId with
  | none    => findFirstActiveKey fuel none alg
  | some id =>
    match ← findFirstActiveKey fuel (some id) alg with
    | some key => return some key
    | none     => findFirstActiveKey fuel none alg

def noSigningKey (scopeId : Option String) (alg : KeyAlg) : Error :=
  newError .unknownKid <| match scopeId with
    | none    => "no active global signing key for alg=" ++ alg.toString
    | some id => "no active signing key for scope=" ++ id ++ " alg=" ++ alg.toString ++
      " (and no global fallback)"

def checkKeyScope (signing : LicenseKey) (license : License) : Except Error Unit :=
  match signing.scopeId with
  | none       => .ok ()
  | some scope =>
    if license.scopeId = some scope then .ok ()
    else .error (newError .unknownKid ("signing key " ++ signing.kid ++ " scope (" ++ scope ++
      ") does not match license scope (" ++ license.scopeId.getD "global" ++ ")"))

-- The slug of the scope, for the claim `scope`.
def scopeSlug (license : License) : Tx String :=
  match license.scopeId with
  | none    => .pure ""
  | some id => do
    match ← Tx.getScope id with
    | none       => .throw (tokenMalformed ("license references unknown scope " ++ id))
    | some scope => return scope.slug

def unixSeconds (iso : String) : Int64 :=
  .ofInt (((parseTime iso).map (· / 1000000000)).getD 0)

def forceOnlineMaxSec : Int64 :=
  10 * 365 * 24 * 3600

def validateForceOnlineDeadline (candidate iat : Int64) (context : String) : Except Error Unit :=
  if candidate < iat then
    .error (fingerprintRejected (context ++ " (" ++ toString candidate ++ ") is in the past (iat=" ++
      toString iat ++ ")"))
  else if iat + forceOnlineMaxSec < candidate then
    .error (fingerprintRejected (context ++ " (" ++ toString candidate ++ ") exceeds max horizon (" ++
      toString (iat + forceOnlineMaxSec) ++ ")"))
  else .ok ()

-- A float is an integer if the conversion there and back does not change it.
def wholeNumber : Value → Option Int64
  | .int64 i   => some i
  | .float64 x => if x.le (.ofInt (toInt64 x).toInt) ∧ (Binary64.ofInt (toInt64 x).toInt).le x then
      some (toInt64 x) else none
  | _          => none

-- The offending value is left out of the text.
def resolveForceOnlineAfter (input : IssueTokenInput) (iat : Int64) : Except Error (Option Int64) :=
  match input.forceOnlineAfter with
  | some none     => .ok none
  | some (some v) => do
    validateForceOnlineDeadline v iat "forceOnlineAfter"
    return some v
  | none          =>
    match input.licenseMeta.lookup (Bytes.ofString "force_online_after_sec") with
    | none     => .ok none
    | some raw =>
      match wholeNumber raw with
      | none     => .error (fingerprintRejected
        "license.meta.force_online_after_sec must be a positive integer")
      | some sec =>
        if sec ≤ 0 then .error (fingerprintRejected
          ("license.meta.force_online_after_sec must be a positive integer (got " ++ toString sec ++ ")"))
        else if forceOnlineMaxSec < sec then .error (fingerprintRejected
          ("license.meta.force_online_after_sec (" ++ toString sec ++ ") exceeds max horizon (" ++
            toString forceOnlineMaxSec ++ ")"))
        else .ok (some (iat + sec))

def resolveEntitlements (input : IssueTokenInput) : Option Map :=
  match input.entitlements with
  | some entitlements => entitlements
  | none              => input.licenseMeta.as "entitlements" Value.asMap

-- The claims of a token, in the order in which they are set.
def payloadOf (input : IssueTokenInput) (status : LicenseStatus) (slug jti : String) (iat : Int64)
    (forceOnlineAfter : Option Int64) : Map :=
  [(Bytes.ofString "jti", .string (Bytes.ofString jti)),
    (Bytes.ofString "iat", .int64 iat),
    (Bytes.ofString "nbf", .int64 iat),
    (Bytes.ofString "exp", .int64 (iat + input.ttlSeconds)),
    (Bytes.ofString "scope", .string (Bytes.ofString slug)),
    (Bytes.ofString "license_id", .string (Bytes.ofString input.license.id)),
    (Bytes.ofString "usage_id", .string (Bytes.ofString input.usage.id)),
    (Bytes.ofString "usage_fingerprint", .string (Bytes.ofString input.usage.fingerprint)),
    (Bytes.ofString "status", .string (Bytes.ofString status.toString)),
    (Bytes.ofString "max_usages", .int64 (.ofInt input.license.maxUsages))] ++
  (forceOnlineAfter.map fun v => (Bytes.ofString "force_online_after", .int64 v)).toList ++
  ((resolveEntitlements input).map fun m => (Bytes.ofString "entitlements", .map m)).toList ++
  (input.meta_.map fun m => (Bytes.ofString "meta", .map m)).toList

variable {ρ κ : Type}

-- The private half of a signing key, opened and imported.
def importSigningPrivate (b : KeyBackends ρ κ) (signing : LicenseKey) (passphrase : String) :
    Except Error κ := do
  if passphrase = "" then
    .error (newError .missingKeyPassphrase "ImportSigningPrivate requires a non-empty passphrase")
  else if signing.role ≠ .signing then
    .error (tokenMalformed ("key " ++ signing.kid ++ " has role=" ++ signing.role.toString ++
      "; only signing keys may sign LIC1 tokens"))
  else match signing.privatePemEnc with
  | none     => .error (tokenMalformed ("key " ++ signing.kid ++ " holds only public material"))
  | some enc => do
    let _   ← b.get signing.alg
    let der ← b.unwrap enc passphrase
    b.importPrivate signing.alg der signing.publicPem

-- The format that is asked for, LIC1 unless there is one.
def formatOf (input : IssueTokenInput) : String :=
  if input.tokenFormat = "" then "LIC1" else input.tokenFormat

def codecForFormat (format : String) : Except Error (TokenCodec GoString Map) :=
  if format = "LIC1" then .ok port.lic1Codec
  else if format = "LIC2" then .ok port.lic2Codec
  else .error (newError .unsupportedTokenFormat ("unknown token format: " ++ format))

-- Encodes and signs the claims in the format that is asked for.
def encodeToken (b : KeyBackends ρ κ) (seed : ρ) (input : IssueTokenInput) (signing : LicenseKey)
    (payload : Map) : Except Error GoString := do
  let handle ← importSigningPrivate b signing input.signingPassphrase
  let _      ← b.get input.alg
  let codec  ← codecForFormat (formatOf input)
  if codec.supportsAlg (Bytes.ofString input.alg.toString) then
    (codec.encode ⟨Bytes.ofString input.alg.toString, Bytes.ofString signing.kid, payload⟩).run fun data =>
      b.sign input.alg handle data seed
  else .error (newError .unsupportedAlgorithm
    ("token format " ++ formatOf input ++ " does not support alg=" ++ input.alg.toString))

-- The part of `issueToken` that follows the choice of a key. The hook that is told about the token is
-- left out.
def issueSigned (b : KeyBackends ρ κ) (seed : ρ) (jti : String) (input : IssueTokenInput)
    (nowISO : String) (signing : LicenseKey) : Tx IssueTokenResult := do
  .ofExcept (checkKeyScope signing input.license)
  let slug ← scopeSlug input.license
  let iat := unixSeconds nowISO
  let forceOnlineAfter ← .ofExcept (resolveForceOnlineAfter input iat)
  let token ← .ofExcept (encodeToken b seed input signing
    (payloadOf input (effectiveStatus input.license nowISO) slug jti iat forceOnlineAfter))
  return { token := token, kid := signing.kid, jti := jti, iat := iat, exp := iat + input.ttlSeconds }

def issueToken (fuel : Nat) (b : KeyBackends ρ κ) (seed : ρ) (jti : String) (input : IssueTokenInput) :
    Tx IssueTokenResult := do
  .ofExcept (checkUsage input)
  let nowISO ← Tx.nowISO
  .ofExcept (checkEffectiveStatus input.license (effectiveStatus input.license nowISO))
  match ← findActiveSigningKey fuel input.license.scopeId input.alg with
  | none         => .throw (noSigningKey input.license.scopeId input.alg)
  | some signing => issueSigned b seed jti input nowISO signing

-- The seconds that an issuance accepts as the distance of the deadline.
def InHorizon (n : Int) : Prop :=
  1 ≤ n ∧ n ≤ 315360000

instance (n : Int) : Decidable (InHorizon n) :=
  inferInstanceAs (Decidable (_ ∧ _))

theorem toInt64_ofInt {n : Int} (h : n.natAbs < 2 ^ 53) : toInt64 (.ofInt n) = .ofInt n := by
  have hz := toInt?_ofLiteral_intText h
  rw [ofLiteral_intText_eq] at hz
  cases hx : Binary64.ofInt n
  case finite s m =>
    rw [hx, Binary64.toInt?, Option.ite_none_right_eq_some] at hz
    obtain ⟨-, hz⟩ := hz
    cases hz
    rw [toInt64]
    have hr : -2 ^ 63 ≤ Binary64.scaled s (m / Binary64.one) ∧
        Binary64.scaled s (m / Binary64.one) < 2 ^ 63 := by omega
    exact if_pos hr
  all_goals
    rw [hx] at hz
    simp [Binary64.toInt?] at hz

-- A float beyond the safe range is converted to an integer beyond it.
theorem not_inHorizon_toInt64 {n : Int} (h : ¬n.natAbs < 2 ^ 53) :
    ¬InHorizon (toInt64 (.ofInt n)).toInt := by
  have hmin : ¬InHorizon Int64.minValue.toInt := by decide
  cases hx : Binary64.ofInt n
  case finite s m =>
    have hq := Binary64.le_of_ofInt hx (Nat.le_of_not_lt h)
    rw [toInt64]
    split_ifs with hr
    case neg => exact hmin
    case pos =>
      rw [Int64.toInt_ofInt_of_le hr.1 hr.2]
      rintro ⟨hl, hu⟩
      generalize m / Binary64.one = q at hl hu hq
      cases s <;> rw [Binary64.scaled] at hl hu <;> omega
  all_goals exact hmin

theorem wholeNumber_ofInt {n : Int} (h : n.natAbs < 2 ^ 53) :
    wholeNumber (.float64 (.ofInt n)) = some (.ofInt n) := by
  have hn : (Int64.ofInt n).toInt = n := Int64.toInt_ofInt_of_le (by omega) (by omega)
  have hr := Binary64.Represents.ofInt h
  rw [wholeNumber, toInt64_ofInt h, hn, hr.le_eq hr]
  simp

-- The number of seconds in the metadata, as far as it is one that an issuance accepts.
theorem wholeNumber_of_inHorizon {n : Int} {v : Value} (h : HoldsNumber (toString n) v) (hn : InHorizon n) :
    wholeNumber v = some (.ofInt n) := by
  obtain ⟨hl, hu⟩ := hn
  cases v <;> simp only [HoldsNumber] at h
  case int64 i => rw [wholeNumber, toString_int_inj h, Int64.ofInt_toInt]
  case float64 x =>
    rw [h, toString_int, ofLiteral_intText_eq]
    exact wholeNumber_ofInt (by omega)

theorem inHorizon_of_wholeNumber {n : Int} {v : Value} {sec : Int64} (h : HoldsNumber (toString n) v)
    (hs : wholeNumber v = some sec) (hn : InHorizon sec.toInt) : InHorizon n := by
  cases v <;> simp only [HoldsNumber] at h
  case int64 i =>
    cases hs
    rwa [toString_int_inj h]
  case float64 x =>
    rw [h, toString_int, ofLiteral_intText_eq] at hs
    by_cases hb : n.natAbs < 2 ^ 53
    case pos =>
      rw [wholeNumber_ofInt hb] at hs
      cases hs
      rwa [Int64.toInt_ofInt_of_le (by omega) (by omega)] at hn
    case neg =>
      rw [wholeNumber, Option.ite_none_right_eq_some] at hs
      rw [← Option.some.inj hs.2] at hn
      exact absurd hn (not_inHorizon_toInt64 hb)

-- The clock shows a year of four digits, or nothing that is read.
theorem unixSeconds_bounds (iso : String) :
    -1000000000000 < (unixSeconds iso).toInt ∧ (unixSeconds iso).toInt < 1000000000000 := by
  rw [unixSeconds]
  cases h : parseTime iso
  case none   => simp
  case some t =>
    obtain ⟨hl, hu⟩ := parseTime_bounds h
    rw [Option.map_some, Option.getD_some, Int64.toInt_ofInt_of_le (by omega) (by omega)]
    exact ⟨hl, hu⟩

theorem inHorizon_iff {sec : Int64} : InHorizon sec.toInt ↔ ¬sec ≤ 0 ∧ ¬forceOnlineMaxSec < sec := by
  rw [Int64.le_iff_toInt_le, Int64.lt_iff_toInt_lt, InHorizon]
  have hz : (0 : Int64).toInt = 0 := rfl
  have hm : forceOnlineMaxSec.toInt = 315360000 := rfl
  rw [hz, hm]
  omega

-- The deadline that the metadata asks for.
theorem resolveForceOnlineAfter_of_lookup {input : IssueTokenInput} {iat : Int64} {raw : Value}
    (plain : input.forceOnlineAfter = none)
    (h : input.licenseMeta.lookup (Bytes.ofString "force_online_after_sec") = some raw)
    {deadline : Option Int64} : resolveForceOnlineAfter input iat = .ok deadline ↔
      ∃ sec, wholeNumber raw = some sec ∧ InHorizon sec.toInt ∧ deadline = some (iat + sec) := by
  simp only [resolveForceOnlineAfter, plain, h]
  cases wholeNumber raw
  case none     => simp
  case some sec =>
    simp only [Option.some.injEq, exists_eq_left', inHorizon_iff]
    split
    case isTrue hz => simp [hz]
    case isFalse hz =>
      split
      case isTrue hm  => simp [hm]
      case isFalse hm => simp [hz, hm, eq_comm]

section Success

variable {answer : (o : Op) → o.Ans} {fuel : Nat} {b : KeyBackends ρ κ} {seed : ρ} {jti : String}
  {input : IssueTokenInput} {signing : LicenseKey}

theorem checkUsage_eq_ok_iff : checkUsage input = .ok () ↔
    0 < input.ttlSeconds ∧ input.usage.licenseId = input.license.id ∧ input.usage.status = .active := by
  unfold checkUsage
  have ht : input.ttlSeconds ≤ 0 ↔ ¬0 < input.ttlSeconds := Int64.not_lt.symm
  simp only [ht]
  split
  case isTrue h => simp_all
  case isFalse h =>
    split
    case isTrue hl => simp_all
    case isFalse hl => split <;> simp_all

theorem checkEffectiveStatus_eq_ok_iff {license : License} {status : LicenseStatus} :
    checkEffectiveStatus license status = .ok () ↔ status = .active ∨ status = .grace := by
  cases status <;> simp [checkEffectiveStatus]

theorem checkKeyScope_eq_ok_iff {license : License} : checkKeyScope signing license = .ok () ↔
    ∀ scope, signing.scopeId = some scope → license.scopeId = some scope := by
  unfold checkKeyScope
  split
  case h_1 h => simp [h]
  case h_2 scope h => split <;> simp_all

theorem run_scopeSlug_iff {license : License} {slug : String} :
    (scopeSlug license).run answer = .ok slug ↔
      (license.scopeId = none ∧ slug = "") ∨
        ∃ id scope, license.scopeId = some id ∧ answer (.tx (.getScope id)) = .ok (some scope) ∧
          slug = scope.slug := by
  unfold scopeSlug
  cases hs : license.scopeId
  case none => simp [eq_comm]
  case some id =>
    rw [Prog.run_bind_eq_ok_iff]
    cases ha : answer (.tx (.getScope id))
    case error e => simp [Tx.getScope, Tx.perform, ha]
    case ok a    => cases a <;> simp [Tx.getScope, Tx.perform, ha, eq_comm]

-- A key with which a token is issued, and the token.
structure IssuedWith (answer : (o : Op) → o.Ans) (b : KeyBackends ρ κ) (seed : ρ) (jti : String)
    (input : IssueTokenInput) (nowISO : String) (signing : LicenseKey) (r : IssueTokenResult) : Prop where
  scope : checkKeyScope signing input.license = .ok ()
  token : ∃ slug deadline, (scopeSlug input.license).run answer = .ok slug ∧
    resolveForceOnlineAfter input (unixSeconds nowISO) = .ok deadline ∧
    encodeToken b seed input signing (payloadOf input (effectiveStatus input.license nowISO) slug jti
      (unixSeconds nowISO) deadline) = .ok r.token
  kid   : r.kid = signing.kid
  jti   : r.jti = jti
  iat   : r.iat = unixSeconds nowISO
  exp   : r.exp = unixSeconds nowISO + input.ttlSeconds

theorem issueSigned_eq_ok_iff {nowISO : String} {r : IssueTokenResult} :
    (issueSigned b seed jti input nowISO signing).run answer = .ok r ↔
      IssuedWith answer b seed jti input nowISO signing r := by
  rw [issueSigned]
  simp only [Prog.run_ofExcept, Prog.run_bind_eq_ok_iff]
  apply Iff.intro
  case mp =>
    rintro ⟨_, hs, slug, hslug, deadline, hd, token, ht, h⟩
    cases h
    exact ⟨hs, ⟨slug, deadline, hslug, hd, ht⟩, rfl, rfl, rfl, rfl⟩
  case mpr =>
    intro h
    obtain ⟨slug, deadline, hslug, hd, ht⟩ := h.token
    refine ⟨(), h.scope, slug, hslug, deadline, hd, r.token, ht, ?_⟩
    have hr : r = ⟨r.token, signing.kid, jti, unixSeconds nowISO, unixSeconds nowISO + input.ttlSeconds⟩ := by
      rw [← h.kid, ← h.jti, ← h.exp, ← h.iat]
    exact congrArg Except.ok hr.symm

-- Every step of an issuance that succeeds.
theorem issueToken_eq_ok_iff {r : IssueTokenResult} :
    (issueToken fuel b seed jti input).run answer = .ok r ↔
      checkUsage input = .ok () ∧
      checkEffectiveStatus input.license (effectiveStatus input.license (answer .nowISO)) = .ok () ∧
      ∃ signing, (findActiveSigningKey fuel input.license.scopeId input.alg).run answer = .ok (some signing) ∧
        IssuedWith answer b seed jti input (answer .nowISO) signing r := by
  rw [issueToken]
  simp only [Prog.run_ofExcept, Prog.run_bind_eq_ok_iff, Tx.nowISO, Prog.run_call, Prog.run_pure,
    Except.ok.injEq, exists_eq_left']
  apply Iff.intro
  case mp =>
    rintro ⟨_, hu, _, hs, key, hk, h⟩
    cases key
    case none         => simp at h
    case some signing => exact ⟨hu, hs, signing, hk, issueSigned_eq_ok_iff.mp h⟩
  case mpr =>
    rintro ⟨hu, hs, signing, hk, h⟩
    exact ⟨(), hu, (), hs, some signing, hk, issueSigned_eq_ok_iff.mpr h⟩

theorem canonicalize_map_iff {ms : Map} : (∃ bytes, canonicalize (.map ms) = .ok bytes) ↔
    ∀ m ∈ writtenMembers ms, Written (writeString m.1) ∧ Written m.2 := by
  rw [← written_object_iff, canonicalize]
  cases writeObject (writtenMembers ms) <;> simp [Except.map, Written]

theorem headerBytes_ok (alg kid : String) :
    ∃ bytes, port.headerBytes (Bytes.ofString alg) (Bytes.ofString kid) = .ok bytes := by
  refine canonicalize_map_iff.mpr ?_
  simp [writtenMembers, written_string, writeValue, written_int64_iff]

theorem footerBytes_ok (kid : String) : ∃ bytes, port.footerBytes (Bytes.ofString kid) = .ok bytes := by
  refine canonicalize_map_iff.mpr ?_
  simp [writtenMembers, written_string, writeValue]

section Codecs

variable {signs : List UInt8 → Except Error (List UInt8)} {alg : KeyAlg} {kid : String} {payload : Map}

theorem encodeLIC1_ok_iff (hs : ∀ data, ∃ sig, signs data = .ok sig) :
    (∃ token, (port.encodeLIC1 ⟨Bytes.ofString alg.toString, Bytes.ofString kid, payload⟩).run signs =
      .ok token) ↔ ∃ bytes, canonicalize (.map payload) = .ok bytes := by
  obtain ⟨header, hh⟩ := headerBytes_ok alg.toString kid
  have hp : port.canonicalize payload = canonicalize (.map payload) := rfl
  rw [Port.encodeLIC1, hh, Port.encode, hp]
  cases canonicalize (.map payload)
  case error e     => simp
  case ok bytes =>
    obtain ⟨sig, hsig⟩ := hs (port.lic1SigningInput (port.literal (port.base64urlEncode header))
      (port.literal (port.base64urlEncode bytes)))
    simp [sign, hsig]

theorem encodeLIC2_ok_iff (ha : alg = .ed25519) (hs : ∀ data, ∃ sig, signs data = .ok sig) :
    (∃ token, (port.encodeLIC2 ⟨Bytes.ofString alg.toString, Bytes.ofString kid, payload⟩).run signs =
      .ok token) ↔ ∃ bytes, canonicalize (.map payload) = .ok bytes := by
  subst ha
  obtain ⟨footer, hf⟩ := footerBytes_ok kid
  have hp : port.canonicalize payload = canonicalize (.map payload) := rfl
  have ha : Bytes.ofString KeyAlg.ed25519.toString = port.literal algEd25519 := rfl
  rw [Port.encodeLIC2]
  simp only [ha, ne_eq, not_true_eq_false, if_false, hp, hf]
  cases canonicalize (.map payload)
  case error e     => simp
  case ok bytes =>
    obtain ⟨sig, hsig⟩ := hs (lic2SigningInput bytes footer)
    simp [sign, hsig]

end Codecs

-- What it takes to sign with a key, apart from claims that can be written.
structure CanSign (b : KeyBackends ρ κ) (seed : ρ) (input : IssueTokenInput) (signing : LicenseKey) :
    Prop where
  handle  : ∃ handle, importSigningPrivate b signing input.signingPassphrase = .ok handle ∧
    ∀ data, ∃ sig, b.sign input.alg handle data seed = .ok sig
  backend : b.get input.alg = .ok ()
  codec   : ∃ codec, codecForFormat (formatOf input) = .ok codec ∧
    codec.supportsAlg (Bytes.ofString input.alg.toString)

theorem lic2_supportsAlg_iff {alg : KeyAlg} :
    port.lic2Codec.supportsAlg (Bytes.ofString alg.toString) ↔ alg = .ed25519 := by
  have hi := Bytes.ofString_injective.eq_iff (a := alg.toString) (b := algEd25519)
  change decide (Bytes.ofString alg.toString = Bytes.ofString algEd25519) = true ↔ _
  rw [decide_eq_true_iff, hi]
  cases alg <;> simp [KeyAlg.toString, algEd25519]

theorem CanSign.encodeToken_ok_iff (h : CanSign b seed input signing) {payload : Map} :
    (∃ token, encodeToken b seed input signing payload = .ok token) ↔
      ∀ m ∈ writtenMembers payload, Written (writeString m.1) ∧ Written m.2 := by
  obtain ⟨handle, hh, hs⟩ := h.handle
  obtain ⟨codec, hc, ha⟩ := h.codec
  rw [encodeToken, hh, h.backend, hc, ← canonicalize_map_iff]
  simp only [ok_bind, ha, if_true]
  rw [codecForFormat] at hc
  split at hc
  case isTrue =>
    cases hc
    exact encodeLIC1_ok_iff hs
  case isFalse =>
    split at hc
    case isTrue =>
      cases hc
      exact encodeLIC2_ok_iff (lic2_supportsAlg_iff.mp ha) hs
    case isFalse => contradiction

theorem writtenMembers_append (ms ms' : Map) :
    writtenMembers (ms ++ ms') = writtenMembers ms ++ writtenMembers ms' := by
  induction ms
  case nil => rfl
  case cons m ms ih => simp [writtenMembers, ih]

-- Claims that the canonical writer accepts.
structure Writable (input : IssueTokenInput) (iat : Int64) (deadline : Option Int64) : Prop where
  issued       : iat.toInt.natAbs < 2 ^ 53
  expires      : (iat + input.ttlSeconds).toInt.natAbs < 2 ^ 53
  maxUsages    : (Int64.ofInt input.license.maxUsages).toInt.natAbs < 2 ^ 53
  deadline     : ∀ v, deadline = some v → v.toInt.natAbs < 2 ^ 53
  entitlements : ∀ m, resolveEntitlements input = some m → Written (writeValue (.map m))
  meta_        : ∀ m, input.meta_ = some m → Written (writeValue (.map m))

theorem writable_iff {status : LicenseStatus} {slug : String} {iat : Int64} {deadline : Option Int64} :
    (∀ m ∈ writtenMembers (payloadOf input status slug jti iat deadline),
      Written (writeString m.1) ∧ Written m.2) ↔ Writable input iat deadline := by
  have optional {α : Type} (o : Option α) (name : String) (v : α → Value) :
      (∀ m ∈ writtenMembers (o.map fun a => (Bytes.ofString name, v a)).toList,
        Written (writeString m.1) ∧ Written m.2) ↔ ∀ a, o = some a → Written (writeValue (v a)) := by
    cases o <;> simp [writtenMembers, written_string]
  rw [payloadOf, writtenMembers_append, writtenMembers_append, writtenMembers_append]
  simp only [List.forall_mem_append, optional]
  simp only [writtenMembers, List.forall_mem_cons, written_string, writeValue, written_int64_iff, true_and,
    List.not_mem_nil, false_implies, implies_true, and_true]
  apply Iff.intro
  case mp =>
    rintro ⟨⟨⟨⟨issued, -, expires, maxUsages⟩, deadline⟩, entitlements⟩, meta_⟩
    exact ⟨issued, expires, maxUsages, deadline, entitlements, meta_⟩
  case mpr =>
    exact fun h => ⟨⟨⟨⟨h.issued, h.issued, h.expires, h.maxUsages⟩, h.deadline⟩, h.entitlements⟩, h.meta_⟩

-- With a key that can sign, an issuance depends on the claims only.
theorem CanSign.exists_issuedWith_iff {nowISO : String} (h : CanSign b seed input signing)
    (scope : checkKeyScope signing input.license = .ok ())
    (slug : ∃ slug, (scopeSlug input.license).run answer = .ok slug) :
    (∃ r, IssuedWith answer b seed jti input nowISO signing r) ↔
      ∃ deadline, resolveForceOnlineAfter input (unixSeconds nowISO) = .ok deadline ∧
        Writable input (unixSeconds nowISO) deadline := by
  apply Iff.intro
  case mp =>
    rintro ⟨r, hr⟩
    obtain ⟨_, deadline, -, hd, ht⟩ := hr.token
    exact ⟨deadline, hd, writable_iff.mp (h.encodeToken_ok_iff.mp ⟨_, ht⟩)⟩
  case mpr =>
    rintro ⟨deadline, hd, hw⟩
    obtain ⟨slug, hs⟩ := slug
    obtain ⟨token, ht⟩ := h.encodeToken_ok_iff.mpr (writable_iff.mpr hw)
    exact ⟨⟨token, signing.kid, jti, _, _⟩, scope, ⟨slug, deadline, hs, hd, ht⟩, rfl, rfl, rfl, rfl⟩

-- An activated license, before its end, with a matching key that can sign.
structure Ready (answer : (o : Op) → o.Ans) (fuel : Nat) (b : KeyBackends ρ κ) (seed : ρ)
    (input : IssueTokenInput) : Prop where
  ttl    : 0 < input.ttlSeconds ∧ input.ttlSeconds < 2 ^ 52
  usage  : input.usage.licenseId = input.license.id ∧ input.usage.status = .active
  status : effectiveStatus input.license (answer .nowISO) = .active ∨
    effectiveStatus input.license (answer .nowISO) = .grace
  key    : ∃ signing, (findActiveSigningKey fuel input.license.scopeId input.alg).run answer =
      .ok (some signing) ∧
    (∀ scope, signing.scopeId = some scope → input.license.scopeId = some scope) ∧
    CanSign b seed input signing
  scope  : ∀ id, input.license.scopeId = some id →
    ∃ scope, answer (.tx (.getScope id)) = .ok (some scope)
  plain  : input.forceOnlineAfter = none ∧ input.entitlements = none ∧ input.meta_ = none

theorem Ready.issueToken_iff (h : Ready answer fuel b seed input) :
    (∃ r, (issueToken fuel b seed jti input).run answer = .ok r) ↔
      ∃ deadline, resolveForceOnlineAfter input (unixSeconds (answer .nowISO)) = .ok deadline ∧
        Writable input (unixSeconds (answer .nowISO)) deadline := by
  obtain ⟨signing, hk, hs, hc⟩ := h.key
  have hs := checkKeyScope_eq_ok_iff.mpr hs
  have slug : ∃ slug, (scopeSlug input.license).run answer = .ok slug := by
    cases hi : input.license.scopeId
    case none    => exact ⟨"", run_scopeSlug_iff.mpr (.inl ⟨hi, rfl⟩)⟩
    case some id =>
      obtain ⟨scope, ha⟩ := h.scope id hi
      exact ⟨scope.slug, run_scopeSlug_iff.mpr (.inr ⟨id, scope, hi, ha, rfl⟩)⟩
  rw [← hc.exists_issuedWith_iff hs slug]
  apply exists_congr
  intro r
  rw [issueToken_eq_ok_iff]
  apply Iff.intro
  case mp =>
    rintro ⟨-, -, signing', hk', hr⟩
    cases hk.symm.trans hk'
    exact hr
  case mpr =>
    exact fun hr => ⟨checkUsage_eq_ok_iff.mpr ⟨h.ttl.left, h.usage⟩, checkEffectiveStatus_eq_ok_iff.mpr h.status,
      signing, hk, hr⟩

end Success

end Go

end Licensing
