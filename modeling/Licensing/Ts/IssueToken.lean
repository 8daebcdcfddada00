import Licensing.Library.Outcomes
import Licensing.Tokens.ForceOnline

-- The issuance of tokens in TypeScript.

namespace Licensing

namespace Ts

open Prog

-- An override that is set may be to `null`, which is nothing.
structure TokenInput extends IssueTokenInput where
  license           : License
  usage             : LicenseUsage
  ttlSeconds        : Binary64
  alg               : KeyAlg
  signingPassphrase : String
  tokenFormat       : Option String := none
  entitlements      : Option (Option Value) := none
  meta_             : Option Value := none

structure IssueTokenResult where
  token : JsString
  kid   : String
  iat   : Binary64
  exp   : Binary64
  jti   : String

-- The lifetime is left out of the text.
def checkUsage (input : TokenInput) : Except Error Unit :=
  if input.ttlSeconds.le (.ofInt 0) then
    .error (newError .fingerprintRejected "issueToken.ttlSeconds must be > 0")
  else if input.usage.licenseId ≠ input.license.id then
    .error (tokenMalformed ("usage.license_id (" ++ input.usage.licenseId ++
      ") does not belong to license " ++ input.license.id))
  else if input.usage.status ≠ .active then
    .error (tokenMalformed ("usage " ++ input.usage.id ++ " is not active (status=" ++
      input.usage.status.toString ++ ")"))
  else .ok ()

def checkEffectiveStatus (license : License) : LicenseStatus → Except Error Unit
  | .active | .grace => .ok ()
  | .pending   => .error (tokenMalformed
    ("license " ++ license.id ++ " is still pending — activate via registerUsage first"))
  | .suspended => .error (newError .licenseSuspended "license is suspended")
  | .revoked   => .error (newError .licenseRevoked "license is revoked")
  | .expired   => .error (newError .licenseExpired "license has expired")

-- The walk over the pages is that of the other port.
def findActiveSigningKey (fuel : Nat) (scopeId : Option String) (alg : KeyAlg) : Tx (Option LicenseKey) :=
  Go.findActiveSigningKey fuel scopeId alg

def noSigningKey (scopeId : Option String) (alg : KeyAlg) : Error :=
  unknownKid <| match scopeId with
    | none    => "no active global signing key for alg=" ++ alg.toString
    | some id => "no active signing key for scope=" ++ id ++ " alg=" ++ alg.toString ++ " (and no global fallback)"

def checkKeyScope (signing : LicenseKey) (license : License) : Except Error Unit :=
  match signing.scopeId with
  | none       => .ok ()
  | some scope =>
    if license.scopeId = some scope then .ok ()
    else .error (unknownKid ("signing key " ++ signing.kid ++ " scope (" ++ scope ++
      ") does not match license scope (" ++ license.scopeId.getD "global" ++ ")"))

def resolveScopeSlug (license : License) : Tx String :=
  match license.scopeId with
  | none    => .pure ""
  | some id => do
    match ← Tx.getScope id with
    | none       => .throw (tokenMalformed ("license references unknown scope " ++ id))
    | some scope => return scope.slug

def resolveEntitlements (input : TokenInput) : Option Value :=
  match input.entitlements with
  | some entitlements => entitlements
  | none              =>
    match input.licenseMeta.get? "entitlements" with
    | some (.object own prototype) => some (.object own prototype)
    | some (.array xs)             => some (.array xs)
    | _                            => none

-- `Math.floor(Date.parse(iso) / 1000)`, with `Date.parse` as it is.
def unixSeconds (dateParse : String → Option Int) (iso : String) : Binary64 :=
  match dateParse iso with
  | some ms => .ofInt (ms / 1000)
  | none    => .nan

-- The claims that every token has.
def requiredClaims (input : TokenInput) (status : LicenseStatus) (slug jti : String) (iat : Binary64) :
    List (JsString × Value) :=
  [(.ofString "jti", .string (.ofString jti)),
    (.ofString "iat", .number iat),
    (.ofString "nbf", .number iat),
    (.ofString "exp", .number (iat.add input.ttlSeconds)),
    (.ofString "scope", .string (.ofString slug)),
    (.ofString "license_id", .string (.ofString input.license.id)),
    (.ofString "usage_id", .string (.ofString input.usage.id)),
    (.ofString "usage_fingerprint", .string (.ofString input.usage.fingerprint)),
    (.ofString "status", .string (.ofString status.toString)),
    (.ofString "max_usages", .number (.ofInt input.license.maxUsages))]

def claimsOf (input : TokenInput) (status : LicenseStatus) (slug jti : String) (iat : Binary64)
    (forceOnlineAfter : Option Binary64) : List (JsString × Value) :=
  requiredClaims input status slug jti iat ++
  (forceOnlineAfter.map fun v => (JsString.ofString "force_online_after", Value.number v)).toList ++
  ((resolveEntitlements input).map fun m => (JsString.ofString "entitlements", m)).toList ++
  (input.meta_.map fun m => (JsString.ofString "meta", m)).toList

def payloadOf (input : TokenInput) (status : LicenseStatus) (slug jti : String) (iat : Binary64)
    (forceOnlineAfter : Option Binary64) : Value :=
  .object (claimsOf input status slug jti iat forceOnlineAfter) none

variable {ρ κ : Type}

-- The hierarchy is made for this key. A key without a private half has no text, or an empty one.
def importSigningPrivate (b : KeyBackends ρ κ) (signing : LicenseKey) (passphrase : String) : Except Error κ := do
  if passphrase = "" then
    .error (newError .missingKeyPassphrase "key passphrase is required and must not be empty")
  else if signing.role ≠ .signing then
    .error (tokenMalformed ("key " ++ signing.kid ++ " has role=" ++ signing.role.toString ++
      "; only signing keys may sign LIC1 tokens"))
  else match signing.privatePemEnc.filter (· ≠ "") with
  | none     => .error (tokenMalformed ("key " ++ signing.kid ++ " holds only public material"))
  | some enc => do
    let _   ← b.get signing.alg
    let der ← b.unwrap enc passphrase
    b.importPrivate signing.alg der signing.publicPem

def formatOf (input : TokenInput) : String :=
  input.tokenFormat.getD "LIC1"

def codecForFormat (format : String) : Except Error (TokenCodec JsString Value) :=
  if format = "LIC1" then .ok port.lic1Codec
  else if format = "LIC2" then .ok port.lic2Codec
  else .error (unsupportedTokenFormat (.ofString ("unknown token format: " ++ format)))

-- The algorithms that are supported are left out of the text.
def encodeToken (b : KeyBackends ρ κ) (seed : ρ) (input : TokenInput) (signing : LicenseKey)
    (payload : Value) : Except Error JsString := do
  let handle ← importSigningPrivate b signing input.signingPassphrase
  let _      ← b.get input.alg
  let codec  ← codecForFormat (formatOf input)
  if codec.supportsAlg (.ofString input.alg.toString) then
    (codec.encode ⟨.ofString input.alg.toString, .ofString signing.kid, payload⟩).run fun data =>
      b.sign input.alg handle data seed
  else .error (unsupportedAlgorithm
    ("token format " ++ formatOf input ++ " does not support alg=" ++ input.alg.toString))

variable (dateParse : String → Option Int)

-- The part of `issueToken` that follows the choice of a key. The hook that is told about the token is
-- left out.
def issueSigned (b : KeyBackends ρ κ) (seed : ρ) (jti : String) (input : TokenInput)
    (nowIso : String) (signing : LicenseKey) : Tx IssueTokenResult := do
  .ofExcept (checkKeyScope signing input.license)
  let slug ← resolveScopeSlug input.license
  let iat := unixSeconds dateParse nowIso
  let forceOnlineAfter ← .ofExcept (resolveForceOnlineAfter input.toIssueTokenInput iat)
  let token ← .ofExcept (encodeToken b seed input signing
    (payloadOf input (effectiveStatus input.license nowIso) slug jti iat forceOnlineAfter))
  return { token := token, kid := signing.kid, iat := iat, exp := iat.add input.ttlSeconds, jti := jti }

def issueToken (fuel : Nat) (b : KeyBackends ρ κ) (seed : ρ) (jti : String) (input : TokenInput) :
    Tx IssueTokenResult := do
  .ofExcept (checkUsage input)
  let nowIso ← Tx.nowISO
  .ofExcept (checkEffectiveStatus input.license (effectiveStatus input.license nowIso))
  match ← findActiveSigningKey fuel input.license.scopeId input.alg with
  | none         => .throw (noSigningKey input.license.scopeId input.alg)
  | some signing => issueSigned dateParse b seed jti input nowIso signing

-- A token that was issued with claims. `deadline` is the claim `force_online_after`.
structure IssuedFor (b : KeyBackends ρ κ) (seed : ρ) (input : TokenInput) (r : IssueTokenResult)
    (own : List (JsString × Value)) (deadline : Option Binary64) : Prop where
  claims : ∃ status slug jti iat, resolveForceOnlineAfter input.toIssueTokenInput iat = .ok deadline ∧
    own = claimsOf input status slug jti iat deadline
  token  : ∃ signing, r.kid = signing.kid ∧ encodeToken b seed input signing (.object own none) = .ok r.token

variable {dateParse} {fuel : Nat} {b : KeyBackends ρ κ} {seed : ρ} {jti : String} {input : TokenInput}

theorem issued_of_mayEnd {r : IssueTokenResult} (h : (issueToken dateParse fuel b seed jti input).MayEnd (.ok r)) :
    ∃ own deadline, IssuedFor b seed input r own deadline := by
  rw [issueToken, mayEnd_bind_ok] at h
  have ⟨_, _, h⟩ := h
  have ⟨nowIso, _, h⟩ := mayEnd_bind_ok.mp h
  have ⟨_, _, h⟩ := mayEnd_bind_ok.mp h
  have ⟨key, hk, h⟩ := mayEnd_bind_ok.mp h
  cases key
  case none         => cases h
  case some signing =>
    have ⟨_, _, h⟩ := mayEnd_bind_ok.mp h
    have ⟨slug, _, h⟩ := mayEnd_bind_ok.mp h
    have ⟨deadline, hd, h⟩ := mayEnd_bind_ok.mp h
    have ⟨token, ht, h⟩ := mayEnd_bind_ok.mp h
    cases h
    exact ⟨_, deadline, ⟨_, slug, jti, _, (mayEnd_ofExcept.mp hd).symm, rfl⟩, signing, rfl,
      (mayEnd_ofExcept.mp ht).symm⟩

end Ts

end Licensing
