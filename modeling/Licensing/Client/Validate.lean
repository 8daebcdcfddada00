import Licensing.Client.Device

-- The offline validation of tokens.

namespace Licensing

structure RequiredClaims (σ ν P A : Type) where
  jti              : σ
  iat              : ν
  nbf              : ν
  exp              : ν
  scope            : σ
  licenseID        : σ
  usageID          : σ
  usageFingerprint : σ
  status           : σ
  maxUsages        : ν
  forceOnlineAfter : Option ν
  entitlements     : Option P
  aud              : A
  iss              : Option σ

structure ValidateResult (σ ν P A : Type) where
  kid              : σ
  alg              : σ
  licenseID        : σ
  usageID          : σ
  scope            : σ
  status           : σ
  maxUsages        : ν
  iat              : ν
  nbf              : ν
  exp              : ν
  forceOnlineAfter : Option ν
  entitlements     : Option P
  aud              : A
  iss              : Option σ

def RequiredClaims.result {σ ν P A : Type} (c : RequiredClaims σ ν P A) (header : EnvelopeHeader σ) :
    ValidateResult σ ν P A where
  kid              := header.kid
  alg              := header.alg
  licenseID        := c.licenseID
  usageID          := c.usageID
  scope            := c.scope
  status           := c.status
  maxUsages        := c.maxUsages
  iat              := c.iat
  nbf              := c.nbf
  exp              := c.exp
  forceOnlineAfter := c.forceOnlineAfter
  entitlements     := c.entitlements
  aud              := c.aud
  iss              := c.iss

structure PeekResult (σ ν : Type) where
  kid              : σ
  alg              : σ
  iat              : ν
  nbf              : ν
  exp              : ν
  forceOnlineAfter : Option ν

namespace Go

-- `(*Error).Error`
def errorText (code : ErrorCode) (message : String) : String :=
  if message = "" then code.toString else code.toString ++ ": " ++ message

def translateVerifyError : Error → ClientError
  | .other message           => .other message
  | .licensing code message  =>
    match code with
    | .unknownKid           => .client .unknownKid (errorText code message)
    | .algorithmMismatch    => .client .algorithmMismatch (errorText code message)
    | .unsupportedAlgorithm => .client .unsupportedAlgorithm (errorText code message)
    | _                     => invalidTokenFormat (errorText code message)

-- `strconv.ParseInt(s, 10, 64)`, and whether it has no error.
def parseInt (lit : String) : Int64 × Bool :=
  match integer? lit.toList with
  | none   => (0, false)
  | some n =>
    if n < -2 ^ 63 then (.minValue, false)
    else if 2 ^ 63 ≤ n then (.maxValue, false)
    else (.ofInt n, true)

def claimString (p : Map) (key : String) : Option GoString :=
  p.as key Value.asString

def claimInt64 (p : Map) (key : String) : Int64 × Bool :=
  match p.lookup (Bytes.ofString key) with
  | some (.number lit) => parseInt lit
  | some (.float64 x)  =>
    let y := Binary64.ofInt (toInt64 x).toInt
    (toInt64 x, x.le y && y.le x)
  | some (.int64 i) => (i, true)
  | _               => (0, false)

def claimOptInt64 (p : Map) (key : String) : Option Int64 :=
  let (i, ok) := claimInt64 p key
  if ok then some i else none

def invalidClaim (key : String) : ClientError :=
  invalidTokenFormat ("missing or invalid claim: " ++ key)

def requiredString (p : Map) (key : String) : Except ClientError GoString :=
  match claimString p key with
  | some s => .ok s
  | none   => .error (invalidClaim key)

def requiredInt64 (p : Map) (key : String) : Except ClientError Int64 :=
  match claimOptInt64 p key with
  | some i => .ok i
  | none   => .error (invalidClaim key)

-- The elements of an array, if all of them are strings.
def audience : List Value → Except ClientError (List GoString)
  | []      => .ok []
  | x :: xs =>
    match x.asString with
    | some s => return s :: (← audience xs)
    | none   => .error (invalidTokenFormat "aud array must contain only strings")

def parseAud (p : Map) : Except ClientError (Option (List GoString)) :=
  match p.lookup (Bytes.ofString "aud") with
  | none | some .nil   => .ok none
  | some (.string s)   => .ok (some [s])
  | some (.slice xs)   => return some (← audience xs)
  | some _             => .error (invalidTokenFormat "aud must be a string or array of strings")

def parseIss (p : Map) : Except ClientError (Option GoString) :=
  match p.lookup (Bytes.ofString "iss") with
  | none | some .nil => .ok none
  | some (.string s) => .ok (some s)
  | some _           => .error (invalidTokenFormat "iss must be a string")

abbrev Claims :=
  RequiredClaims GoString Int64 Map (Option (List GoString))

-- An optional integer or object that is something else is left out.
def assertClaimShape (p : Map) : Except ClientError Claims := do
  let jti              ← requiredString p "jti"
  let iat              ← requiredInt64 p "iat"
  let nbf              ← requiredInt64 p "nbf"
  let exp              ← requiredInt64 p "exp"
  let scope            ← requiredString p "scope"
  let licenseID        ← requiredString p "license_id"
  let usageID          ← requiredString p "usage_id"
  let usageFingerprint ← requiredString p "usage_fingerprint"
  let status           ← requiredString p "status"
  let maxUsages        ← requiredInt64 p "max_usages"
  let aud              ← parseAud p
  let iss              ← parseIss p
  return {
    jti := jti, iat := iat, nbf := nbf, exp := exp, scope := scope, licenseID := licenseID
    usageID := usageID, usageFingerprint := usageFingerprint, status := status
    maxUsages        := maxUsages
    forceOnlineAfter := claimOptInt64 p "force_online_after"
    entitlements     := p.as "entitlements" Value.asMap
    aud := aud, iss := iss }

theorem requiredString_eq_ok_iff {p : Map} {key : String} {s : GoString} :
    requiredString p key = .ok s ↔ claimString p key = some s := by
  unfold requiredString
  split <;> simp_all

theorem requiredInt64_eq_ok_iff {p : Map} {key : String} {i : Int64} :
    requiredInt64 p key = .ok i ↔ claimOptInt64 p key = some i := by
  unfold requiredInt64
  split <;> simp_all

-- What the claims of a payload are.
structure Claimed (p : Map) (c : Claims) : Prop where
  jti              : claimString p "jti" = some c.jti
  iat              : claimOptInt64 p "iat" = some c.iat
  nbf              : claimOptInt64 p "nbf" = some c.nbf
  exp              : claimOptInt64 p "exp" = some c.exp
  scope            : claimString p "scope" = some c.scope
  licenseID        : claimString p "license_id" = some c.licenseID
  usageID          : claimString p "usage_id" = some c.usageID
  usageFingerprint : claimString p "usage_fingerprint" = some c.usageFingerprint
  status           : claimString p "status" = some c.status
  maxUsages        : claimOptInt64 p "max_usages" = some c.maxUsages
  aud              : parseAud p = .ok c.aud
  iss              : parseIss p = .ok c.iss
  forceOnlineAfter : claimOptInt64 p "force_online_after" = c.forceOnlineAfter
  entitlements     : p.as "entitlements" Value.asMap = c.entitlements

theorem assertClaimShape_eq_ok_iff {p : Map} {c : Claims} :
    assertClaimShape p = .ok c ↔ Claimed p c := by
  simp only [assertClaimShape, bind_eq_ok_iff, requiredString_eq_ok_iff, requiredInt64_eq_ok_iff]
  refine ⟨?_, fun h => ?_⟩
  case refine_1 =>
    rintro ⟨_, h₁, _, h₂, _, h₃, _, h₄, _, h₅, _, h₆, _, h₇, _, h₈, _, h₉, _, h₁₀, _, h₁₁, _, h₁₂, hc⟩
    cases hc
    exact ⟨h₁, h₂, h₃, h₄, h₅, h₆, h₇, h₈, h₉, h₁₀, h₁₁, h₁₂, rfl, rfl⟩
  case refine_2 =>
    refine ⟨_, h.jti, _, h.iat, _, h.nbf, _, h.exp, _, h.scope, _, h.licenseID, _, h.usageID, _,
      h.usageFingerprint, _, h.status, _, h.maxUsages, _, h.aud, _, h.iss, ?_⟩
    rw [h.forceOnlineAfter, h.entitlements]
    rfl

-- An audience and an issuer that are empty are not pinned.
structure ValidateOptions {β : Type} (alg : β → GoString) where
  verify           : VerifyOptions alg
  jtiLedger        : Bool := false
  expectedAudience : GoString := []
  expectedIssuer   : GoString := []
  fingerprint      : GoString
  nowSec           : Int64
  skewSec          : Int64 := 0

variable {β κ : Type} {alg : β → GoString}

def ValidateOptions.skew (o : ValidateOptions alg) : Int64 :=
  if 0 < o.skewSec then o.skewSec else 60

def audContains (aud : Option (List GoString)) (target : GoString) : Bool :=
  (aud.getD []).any (· = target)

def audDescription : Option (List GoString) → String
  | none     => "no aud"
  | some [a] => "aud=" ++ GoString.toString a
  | some aud => "aud=[" ++ toString aud.length ++ " values]"

def checkWindow (o : ValidateOptions alg) (c : Claims) : Except ClientError Unit :=
  if o.nowSec + o.skew < c.nbf then
    .error (.client .tokenNotYetValid ("token not valid until " ++ toString c.nbf ++ " (now=" ++
      toString o.nowSec ++ ", skew=" ++ toString o.skew ++ ")"))
  else if c.exp + o.skew < o.nowSec then
    .error (.client .tokenExpired ("token expired at " ++ toString c.exp ++ " (now=" ++
      toString o.nowSec ++ ", skew=" ++ toString o.skew ++ ")"))
  else .ok ()

def checkStatus (c : Claims) : Except ClientError Unit :=
  if c.status = Bytes.ofString "active" ∨ c.status = Bytes.ofString "grace" then .ok ()
  else if c.status = Bytes.ofString "revoked" then
    .error (.client .licenseRevoked "license is revoked")
  else if c.status = Bytes.ofString "suspended" then
    .error (.client .licenseSuspended "license is suspended")
  else if c.status = Bytes.ofString "expired" then
    .error (.client .tokenExpired "token status is expired")
  else .error (invalidTokenFormat ("unexpected token status: " ++ GoString.toString c.status))

def checkForceOnline (o : ValidateOptions alg) (c : Claims) : Except ClientError Unit :=
  match c.forceOnlineAfter with
  | none          => .ok ()
  | some deadline =>
    if deadline ≤ o.nowSec then
      .error (.client .requiresOnlineRefresh ("force_online_after " ++ toString deadline ++
        " has passed (now=" ++ toString o.nowSec ++ ")"))
    else .ok ()

def checkFingerprint (o : ValidateOptions alg) (c : Claims) : Except ClientError Unit :=
  if c.usageFingerprint ≠ o.fingerprint then
    .error (.client .fingerprintMismatch ("token fingerprint \"" ++
      GoString.toString c.usageFingerprint ++ "\" does not match \"" ++
      GoString.toString o.fingerprint ++ "\""))
  else .ok ()

def checkAudience (o : ValidateOptions alg) (c : Claims) : Except ClientError Unit :=
  if o.expectedAudience ≠ [] ∧ ¬audContains c.aud o.expectedAudience then
    .error (.client .audienceMismatch ("expected aud=" ++ GoString.toString o.expectedAudience ++
      ", token has " ++ audDescription c.aud))
  else .ok ()

def checkIssuer (o : ValidateOptions alg) (c : Claims) : Except ClientError Unit :=
  if o.expectedIssuer ≠ [] ∧ c.iss.getD [] ≠ o.expectedIssuer then
    .error (.client .issuerMismatch ("expected iss=" ++ GoString.toString o.expectedIssuer ++
      ", token has " ++ (c.iss.elim "no iss" fun iss => "iss=" ++ GoString.toString iss)))
  else .ok ()

def checkClaims (o : ValidateOptions alg) (c : Claims) : Except ClientError Unit := do
  checkWindow o c
  checkStatus c
  checkForceOnline o c
  checkFingerprint o c
  checkAudience o c
  checkIssuer o c

-- The claims that are accepted.
structure ValidateOptions.Admits (o : ValidateOptions alg) (c : Claims) : Prop where
  nbf         : c.nbf ≤ o.nowSec + o.skew
  exp         : o.nowSec ≤ c.exp + o.skew
  status      : c.status = Bytes.ofString "active" ∨ c.status = Bytes.ofString "grace"
  online      : ∀ deadline, c.forceOnlineAfter = some deadline → o.nowSec < deadline
  fingerprint : c.usageFingerprint = o.fingerprint
  audience    : o.expectedAudience ≠ [] → o.expectedAudience ∈ c.aud.getD []
  issuer      : o.expectedIssuer ≠ [] → c.iss.getD [] = o.expectedIssuer

theorem checkClaims_eq_ok_iff {o : ValidateOptions alg} {c : Claims} :
    checkClaims o c = .ok () ↔ o.Admits c := by
  have window : checkWindow o c = .ok () ↔ c.nbf ≤ o.nowSec + o.skew ∧ o.nowSec ≤ c.exp + o.skew := by
    unfold checkWindow
    split <;> simp_all
  have status : checkStatus c = .ok () ↔
      c.status = Bytes.ofString "active" ∨ c.status = Bytes.ofString "grace" := by
    unfold checkStatus
    split
    case isTrue h  => simp [h]
    case isFalse h =>
      refine iff_of_false ?_ h
      split <;> [skip; split <;> [skip; split]] <;> nofun
  have online : checkForceOnline o c = .ok () ↔
      ∀ deadline, c.forceOnlineAfter = some deadline → o.nowSec < deadline := by
    unfold checkForceOnline
    cases c.forceOnlineAfter <;> simp
  have fingerprint : checkFingerprint o c = .ok () ↔ c.usageFingerprint = o.fingerprint := by
    simp [checkFingerprint]
  have audience : checkAudience o c = .ok () ↔
      (o.expectedAudience ≠ [] → o.expectedAudience ∈ c.aud.getD []) := by
    simp [checkAudience, audContains]
  have issuer : checkIssuer o c = .ok () ↔
      (o.expectedIssuer ≠ [] → c.iss.getD [] = o.expectedIssuer) := by
    simp [checkIssuer]
  simp only [checkClaims, bind_eq_ok_iff, exists_const, window, status, online, fingerprint,
    audience, issuer]
  apply Iff.intro
  case mp =>
    rintro ⟨hw, hs, ho, hf, ha, hi⟩
    exact ⟨hw.1, hw.2, hs, ho, hf, ha, hi⟩
  case mpr => exact fun h => ⟨⟨h.nbf, h.exp⟩, h.status, h.online, h.fingerprint, h.audience, h.issuer⟩

-- The store has an empty token if it has none.
abbrev TokenState :=
  StoredTokenState GoString Int64

abbrev Device (β κ α : Type) :=
  Licensing.Device GoString β κ GoString Int64 GoString α

def validate (token : GoString) (opts : ValidateOptions alg) :
    Device β κ (ValidateResult GoString Int64 Map (Option (List GoString))) := do
  let parts  ← Device.verifying translateVerifyError (verifyEnvelope opts.verify token)
  let claims ← .ofExcept (assertClaimShape parts.payload)
  let _      ← .ofExcept (checkClaims opts claims)
  if ¬opts.jtiLedger then return claims.result parts.header
  else do
    let firstUse ← Device.recordJtiUse "jti ledger: " claims.jti (claims.exp + opts.skew)
    if firstUse then return claims.result parts.header
    else .throw (.client .tokenReplayed ("jti " ++ GoString.toString claims.jti ++
      " was previously recorded by this verifier"))

-- Integers that have errors are used as they are.
def peek (token : GoString) : Except ClientError (PeekResult GoString Int64) :=
  match decodeEnvelope token with
  | .error e  => .error (translateVerifyError e)
  | .ok parts => .ok {
      kid              := parts.header.kid
      alg              := parts.header.alg
      iat              := (claimInt64 parts.payload "iat").1
      nbf              := (claimInt64 parts.payload "nbf").1
      exp              := (claimInt64 parts.payload "exp").1
      forceOnlineAfter := claimOptInt64 parts.payload "force_online_after" }

end Go

namespace Ts

-- Only what a verification can fail with has a code of its own; the code of a malformed token is
-- not among them.
def translateVerifyError : Error → ClientError
  | .other message          => invalidTokenFormat ("unexpected verify failure: " ++ message)
  | .licensing code message =>
    match code with
    | .unknownKid        => .client .unknownKid ("no public key registered for kid: " ++ message)
    | .algorithmMismatch => .client .algorithmMismatch ("expected alg ? for kid, got " ++ message)
    | .unsupportedAlgorithm => .client .unsupportedAlgorithm ("algorithm not registered: " ++ message)
    | .tokenSignatureInvalid | .unsupportedTokenFormat => invalidTokenFormat message
    | _ => invalidTokenFormat ("unexpected verify failure: " ++ message)

-- `payload[key]` of a key that is in the payload.
def req (p : Value) (key : String) : Except ClientError Value :=
  match p.get? key with
  | some v => .ok v
  | none   => .error (invalidTokenFormat ("missing required claim: " ++ key))

def asString (key : String) (v : Value) : Except ClientError JsString :=
  match v.asString with
  | some s => .ok s
  | none   => .error (invalidTokenFormat ("claim " ++ key ++ " is not a string"))

def asNumber (key : String) (v : Value) : Except ClientError Binary64 :=
  match v.asNumber.filter Binary64.isFinite with
  | some x => .ok x
  | none   => .error (invalidTokenFormat ("claim " ++ key ++ " is not a finite number"))

def requiredString (p : Value) (key : String) : Except ClientError JsString := do
  asString key (← req p key)

def requiredNumber (p : Value) (key : String) : Except ClientError Binary64 := do
  asNumber key (← req p key)

def parseForceOnlineAfter (p : Value) : Except ClientError (Option Binary64) :=
  match p.get? "force_online_after" with
  | none | some .null => .ok none
  | some v            => some <$> asNumber "force_online_after" v

def parseEntitlements (p : Value) : Except ClientError (Option Value) :=
  match p.get? "entitlements" with
  | none | some .null       => .ok none
  | some (.object own proto) => .ok (some (.object own proto))
  | some _ => .error (invalidTokenFormat "entitlements must be an object")

inductive Audience
  | string (s : JsString)
  | array (ss : List JsString)

def audience : List Value → Except ClientError (List JsString)
  | []      => .ok []
  | x :: xs =>
    match x.asString with
    | some s => return s :: (← audience xs)
    | none   => .error (invalidTokenFormat "aud array must contain only strings")

def parseAud (p : Value) : Except ClientError (Option Audience) :=
  match p.get? "aud" with
  | none | some .null => .ok none
  | some (.string s)  => .ok (some (.string s))
  | some (.array xs)  => return some (.array (← audience xs))
  | some _            => .error (invalidTokenFormat "aud must be a string or array of strings")

def parseIss (p : Value) : Except ClientError (Option JsString) :=
  match p.get? "iss" with
  | none | some .null => .ok none
  | some (.string s)  => .ok (some s)
  | some _            => .error (invalidTokenFormat "iss must be a string")

abbrev Claims :=
  RequiredClaims JsString Binary64 Value (Option Audience)

def assertClaimShape (p : Value) : Except ClientError Claims := do
  let jti              ← requiredString p "jti"
  let iat              ← requiredNumber p "iat"
  let nbf              ← requiredNumber p "nbf"
  let exp              ← requiredNumber p "exp"
  let scope            ← requiredString p "scope"
  let licenseID        ← requiredString p "license_id"
  let usageID          ← requiredString p "usage_id"
  let usageFingerprint ← requiredString p "usage_fingerprint"
  let status           ← requiredString p "status"
  let maxUsages        ← requiredNumber p "max_usages"
  let forceOnlineAfter ← parseForceOnlineAfter p
  let entitlements     ← parseEntitlements p
  let aud              ← parseAud p
  let iss              ← parseIss p
  return {
    jti := jti, iat := iat, nbf := nbf, exp := exp, scope := scope, licenseID := licenseID
    usageID := usageID, usageFingerprint := usageFingerprint, status := status
    maxUsages := maxUsages, forceOnlineAfter := forceOnlineAfter, entitlements := entitlements
    aud := aud, iss := iss }

structure ValidateOptions {β : Type} (alg : β → JsString) where
  verify           : VerifyOptions alg
  jtiLedger        : Bool := false
  expectedAudience : Option JsString := none
  expectedIssuer   : Option JsString := none
  fingerprint      : JsString
  nowSec           : Binary64
  skewSec          : Option Binary64 := none

variable {β κ : Type} {alg : β → JsString}

def ValidateOptions.skew (o : ValidateOptions alg) : Binary64 :=
  o.skewSec.getD (.ofInt 60)

def audMatches (expected : JsString) : Option Audience → Bool
  | some (.string s) => s = expected
  | some (.array ss) => expected ∈ ss
  | none             => false

def audDescription : Option Audience → String
  | none             => "no aud"
  | some (.string s) => "aud=" ++ JsString.toString s
  | some (.array ss) => "aud=[" ++ toString ss.length ++ " values]"

-- The numbers are left out of the texts.
def checkWindow (o : ValidateOptions alg) (c : Claims) : Except ClientError Unit :=
  if (o.nowSec.add o.skew).lt c.nbf then .error (.client .tokenNotYetValid "nbf")
  else if (c.exp.add o.skew).lt o.nowSec then .error (.client .tokenExpired "exp")
  else .ok ()

def checkStatus (c : Claims) : Except ClientError Unit :=
  if c.status = .ofString "active" ∨ c.status = .ofString "grace" then .ok ()
  else if c.status = .ofString "suspended" then
    .error (.client .licenseSuspended "license is suspended")
  else if c.status = .ofString "revoked" then
    .error (.client .licenseRevoked "license has been revoked")
  else if c.status = .ofString "expired" then
    .error (.client .tokenExpired "token carries status=expired")
  else .error (invalidTokenFormat ("unknown status: " ++ JsString.toString c.status))

def checkForceOnline (o : ValidateOptions alg) (c : Claims) : Except ClientError Unit :=
  match c.forceOnlineAfter with
  | none          => .ok ()
  | some deadline =>
    if deadline.le o.nowSec then .error (.client .requiresOnlineRefresh "force_online_after")
    else .ok ()

def checkFingerprint (o : ValidateOptions alg) (c : Claims) : Except ClientError Unit :=
  if c.usageFingerprint ≠ o.fingerprint then
    .error (.client .fingerprintMismatch "token fingerprint does not match current device")
  else .ok ()

def checkAudience (o : ValidateOptions alg) (c : Claims) : Except ClientError Unit :=
  match o.expectedAudience with
  | none          => .ok ()
  | some expected =>
    if audMatches expected c.aud then .ok ()
    else .error (.client .audienceMismatch ("expected aud=" ++ JsString.toString expected ++
      ", token has " ++ audDescription c.aud))

def checkIssuer (o : ValidateOptions alg) (c : Claims) : Except ClientError Unit :=
  match o.expectedIssuer with
  | none          => .ok ()
  | some expected =>
    if c.iss ≠ some expected then
      .error (.client .issuerMismatch ("expected iss=" ++ JsString.toString expected ++
        ", token has " ++ (c.iss.elim "no iss" fun iss => "iss=" ++ JsString.toString iss)))
    else .ok ()

def checkClaims (o : ValidateOptions alg) (c : Claims) : Except ClientError Unit := do
  checkWindow o c
  checkStatus c
  checkForceOnline o c
  checkFingerprint o c
  checkAudience o c
  checkIssuer o c

-- Past its deadline no token is accepted.
theorem not_le_of_checkClaims {o : ValidateOptions alg} {c : Claims} {u : Unit}
    (h : checkClaims o c = .ok u) : ∀ deadline, c.forceOnlineAfter = some deadline →
      ¬deadline.le o.nowSec := by
  intro deadline hd hle
  obtain ⟨_, _, h⟩ := bind_eq_ok_iff.mp h
  obtain ⟨_, _, h⟩ := bind_eq_ok_iff.mp h
  obtain ⟨_, ho, _⟩ := bind_eq_ok_iff.mp h
  simp [checkForceOnline, hd, hle] at ho

abbrev TokenState :=
  StoredTokenState (Option JsString) Binary64

-- The data of a response may be any value.
abbrev Device (β κ α : Type) :=
  Licensing.Device JsString β κ (Option JsString) Binary64 Value α

def validate (token : JsString) (opts : ValidateOptions alg) :
    Device β κ (ValidateResult JsString Binary64 Value (Option Audience)) := do
  let parts  ← Device.verifying translateVerifyError (verify opts.verify token)
  let claims ← .ofExcept (assertClaimShape parts.payload)
  let _      ← .ofExcept (checkClaims opts claims)
  if ¬opts.jtiLedger then return claims.result parts.header
  else do
    let firstUse ← Device.recordJtiUse "" claims.jti (claims.exp.add opts.skew)
    if firstUse then return claims.result parts.header
    else .throw (.client .tokenReplayed ("jti " ++ JsString.toString claims.jti ++
      " was previously recorded by this verifier"))

-- Every failure is one of the format.
def peek (token : JsString) : Except ClientError (PeekResult JsString Binary64) :=
  match decodeUnverified token with
  | .error _  => .error (invalidTokenFormat "token could not be parsed")
  | .ok parts =>
    match assertClaimShape parts.payload with
    | .error _   => .error (invalidTokenFormat "token could not be parsed")
    | .ok claims => .ok {
        kid              := parts.header.kid
        alg              := parts.header.alg
        iat              := claims.iat
        nbf              := claims.nbf
        exp              := claims.exp
        forceOnlineAfter := claims.forceOnlineAfter }

end Ts

end Licensing
