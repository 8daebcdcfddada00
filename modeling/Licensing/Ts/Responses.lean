import Licensing.Go.Responses
import Licensing.Model.Issuer
import Licensing.Model.KeyText
import Licensing.Ts.IssueToken

-- The responses of TypeScript that hand out a token, and what the responses of both ports report.

namespace Licensing

namespace Ts

open Prog JsonText

-- `new Date(ms).toISOString()`. A `Date` drops what is below a millisecond.
def toISOString : Binary64 → Except Error String
  | .finite s m =>
    if m ≤ 8640000000000000 * Binary64.one then
      let ms := Binary64.scaled s (m / Binary64.one)
      .ok (.ofList (Rfc3339.dateTime Rfc3339.expandedYear (ms / 1000) ++ Rfc3339.fraction 3 (ms % 1000).toNat))
    else .error invalidTime
  | _ => .error invalidTime

def isoOf (unixSec : Binary64) : Except Error String :=
  toISOString (unixSec.mul (.ofInt 1000))

-- `Math.floor`.
def floor : Binary64 → Binary64
  | .finite false m => .finite false (m / Binary64.one * Binary64.one)
  | .finite true m  => .finite true ((m + (Binary64.one - 1)) / Binary64.one * Binary64.one)
  | x               => x

-- The configuration of the handlers, where `none` stands for what is not set.
structure ClientContext (ρ κ : Type) where
  backends          : KeyBackends ρ κ
  signingPassphrase : String
  tokenTtlSec       : Option Binary64 := none
  defaultAlg        : Option KeyAlg := none
  tokenFormat       : Option String := none
  forceOnlineAfter  : Option (Option Binary64) := none

-- What checks the tokens of clients. `wall` stands in for a clock that cannot be read, with which no token
-- is issued.
structure Verifier (β κ' : Type) where
  alg      : β → JsString
  backends : List (JsString × β)
  backend  : (op : BackendOp JsString β κ') → op.Ans
  wall     : Int

variable {ρ κ β κ' : Type}

namespace ClientContext

variable (ctx : ClientContext ρ κ)

def alg : KeyAlg :=
  ctx.defaultAlg.getD .ed25519

def ttl : Binary64 :=
  ctx.tokenTtlSec.getD (.ofInt 3600)

-- A license comes with the value that its metadata is read as.
def tokenInput (held : Json.Object → Value) (license : License) (usage : LicenseUsage) : TokenInput where
  licenseMeta       := held license.meta_
  forceOnlineAfter  := ctx.forceOnlineAfter
  license           := license
  usage             := usage
  ttlSeconds        := ctx.ttl
  alg               := ctx.alg
  signingPassphrase := ctx.signingPassphrase
  tokenFormat       := ctx.tokenFormat

def refreshAfter (start : Binary64) : Except Error String :=
  isoOf (start.add (floor (ctx.ttl.mul (.ofLiteral "0.75".toList))))

end ClientContext

-- The claim is read from the token itself.
def reportOf (token : JsString) : Except Error (Option String) := do
  let parts ← decodeUnverified token
  ((parts.payload.get? "force_online_after").bind Value.asNumber).mapM isoOf

def tokenData (token : JsString) (expiresAt refreshAt : String) (foa : Option String) : Json :=
  .obj ([("token", .str token.toString), ("expires_at", .str expiresAt), ("refresh_recommended_at", .str refreshAt)] ++
    (foa.map fun foa => ("force_online_after", .str foa)).toList)

def activated (ctx : ClientContext ρ κ) (issued : IssueTokenResult) : Except Error Json := do
  let expiresAt ← isoOf issued.exp
  let refreshAt ← ctx.refreshAfter issued.iat
  let foa       ← reportOf issued.token
  return tokenData issued.token expiresAt refreshAt foa

-- The seconds are those of the clock, which is read again.
def reissued (ctx : ClientContext ρ κ) (issued : IssueTokenResult) (nowSec : Binary64) : Except Error Json := do
  let foa       ← reportOf issued.token
  let expiresAt ← isoOf issued.exp
  let refreshAt ← ctx.refreshAfter nowSec
  return tokenData issued.token expiresAt refreshAt foa

def respondWith : Except Error Json → Response
  | .ok data => .ok data
  | .error e => errFromLicensing e

def requireFingerprint (o : Json.Object) : Except Response String := do
  let fingerprint ← requireString o "fingerprint"
  if fingerprint.length = 64 ∧ fingerprint.toList.all fun c => c.isDigit ∨ 'a' ≤ c ∧ c ≤ 'f' then return fingerprint
  else .error (badRequest "field fingerprint must be a 64-char lowercase hex SHA-256")

def optionalObject (o : Json.Object) (key : String) : Except Response (Option Json.Object) :=
  match o.get? key with
  | none | some .null => .ok none
  | some (.obj v)     => .ok (some v)
  | some _            => .error (badRequest ("field must be an object: " ++ key))

structure ActivateBody where
  licenseKey  : String
  fingerprint : String
  clientMeta  : Option Json.Object

def activateBody (body : Option Json) : Except Response ActivateBody := do
  let o           ← requireJsonObject body
  let licenseKey  ← requireString o "license_key"
  let fingerprint ← requireFingerprint o
  let clientMeta  ← optionalObject o "client_meta"
  return { licenseKey, fingerprint, clientMeta }

-- A key of another form is the key of no license.
def findLicenseByKey (licenseKey : String) : Handler (Except Error (Option License)) :=
  match normalizeLicenseKey licenseKey with
  | none            => .pure (.ok none)
  | some normalized => Handler.attempt (.getLicenseByKey normalized)

-- Performs the check of a token with the storage and the clock of a handler.
def Verifier.check {α : Type} (v : Verifier β κ') (dateParse : String → Option Int) :
    ClientCheck JsString β κ' α → Handler (Except Error α)
  | .pure a                       => .pure (.ok a)
  | .throw e                      => .pure (.error e)
  | .call (.backend op) next      => v.check dateParse (next (v.backend op))
  | .call .nowSec next            => .call (.op .nowISO) fun now =>
    v.check dateParse (next (((dateParse now).map (· / 1000)).getD v.wall))
  | .call (.getKeyByKid kid) next => .call (.op (.tx (.getKeyByKid kid.toString))) fun record =>
    v.check dateParse (next (record.map (Option.map fun k => ⟨.ofString k.kid, .ofString k.alg.toString, k.publicPem⟩)))

section Handlers

variable (dateParse : String → Option Int) (fuel : Nat) (ctx : ClientContext ρ κ) (held : Json.Object → Value)
  (seed : ρ) (jti : String)

def issueFor (license : License) (usage : LicenseUsage) : Handler (Except Error IssueTokenResult) :=
  Handler.directly (issueToken dateParse fuel ctx.backends seed jti (ctx.tokenInput held license usage))

def handleActivate (body : Option Json) : Handler Response :=
  match activateBody body with
  | .error response => .pure response
  | .ok body        => do
    match ← findLicenseByKey body.licenseKey with
    | .error e           => return errFromLicensing e
    | .ok none           => return .err 404 "InvalidLicenseKey" "license key is invalid or unknown"
    | .ok (some license) =>
      let registration := registerUsage fuel
        { licenseId := license.id, fingerprint := body.fingerprint, clientMeta := body.clientMeta.getD [] } none
      match ← Handler.transaction registration with
      | .error e => return errFromLicensing e
      | .ok reg  =>
        let issued ← issueFor dateParse fuel ctx held seed jti reg.license reg.usage
        return respondWith (issued.bind (activated ctx))

-- The seat of a token. A storage that fails is told about as any other error.
def seatOf (licenseId usageId : String) : Handler (Except Response (License × LicenseUsage)) := do
  match ← Handler.attempt (.getLicense licenseId) with
  | .error e           => return .error (errFromLicensing e)
  | .ok none           => return .error (.err 404 "LicenseNotFound" ("license not found: " ++ licenseId))
  | .ok (some license) =>
    match ← Handler.attempt (.getUsage usageId) with
    | .error e         => return .error (errFromLicensing e)
    | .ok none         => return .error (.err 404 "NotFound" ("usage not found: " ++ usageId))
    | .ok (some usage) =>
      if usage.licenseId ≠ license.id then
        return .error (.err 401 "TokenMalformed" "token usage does not belong to token license")
      else if usage.status ≠ .active then
        return .error (.err 403 "LicenseRevoked" ("usage " ++ usage.id ++ " is no longer active"))
      else return .ok (license, usage)

def reissueFor (license : License) (usage : LicenseUsage) : Handler Response := do
  match ← issueFor dateParse fuel ctx held seed jti license usage with
  | .error e   => return errFromLicensing e
  | .ok issued =>
    let now ← Handler.nowISO
    return respondWith (reissued ctx issued (unixSeconds dateParse now))

def handleRefresh (v : Verifier β κ') (body : Option Json) : Handler Response :=
  match (requireJsonObject body).bind fun o => requireString o "token" with
  | .error response => .pure response
  | .ok token       => do
    match ← v.check dateParse (verifyClientToken v.alg v.backends (.ofString token) ctx.ttl) with
    | .error e  => return errFromLicensing e
    | .ok parts =>
      match (parts.payload.get? "license_id").bind Value.asString,
        (parts.payload.get? "usage_id").bind Value.asString with
      | some licenseId, some usageId =>
        match ← seatOf licenseId.toString usageId.toString with
        | .error response       => return response
        | .ok (license, usage) => reissueFor dateParse fuel ctx held seed jti license usage
      | _, _ => return .err 401 "TokenMalformed" "token missing required claims"

end Handlers

section IssuedFor

variable {b : KeyBackends ρ κ} {seed : ρ} {input : TokenInput} {r : IssueTokenResult} {own : List (JsString × Value)}
  {deadline : Option Binary64}

-- The signatures of Ed25519 have 64 bytes.
def SignsEd25519 (b : KeyBackends ρ κ) : Prop :=
  ∀ {handle data seed sig}, b.sign .ed25519 handle data seed = .ok sig → sig.length = ed25519SigLen

theorem eq_ed25519_of_toString {alg : KeyAlg} (h : JsString.ofString alg.toString = port.literal algEd25519) :
    alg = .ed25519 := by
  have h := ofString_injective h
  cases alg
  case ed25519 => rfl
  all_goals exact absurd h (by decide)

-- The tokens of the formats, by what is encoded in them.
theorem token_of_encodeToken {signing : LicenseKey} {payload : Value} {token : JsString} (signs : SignsEd25519 b)
    (h : encodeToken b seed input signing payload = .ok token) :
    ∃ bytes sig, canonicalize payload = .ok bytes ∧
      (token = Port.Lawful.lic1Token port (headerJSON input.alg.toString signing.kid) bytes sig ∨
        sig.length = ed25519SigLen ∧ token = Port.Lawful.lic2Token port bytes (footerJSON signing.kid) sig) := by
  rw [encodeToken] at h
  have ⟨handle, _, h⟩ := bind_eq_ok_iff.mp h
  have ⟨_, _, h⟩ := bind_eq_ok_iff.mp h
  have ⟨codec, hc, h⟩ := bind_eq_ok_iff.mp h
  split at h
  case isFalse => cases h
  case isTrue  =>
  rw [codecForFormat] at hc
  split at hc
  case isTrue =>
    cases hc
    have ⟨bytes, sig, hb, e⟩ := Port.token_of_encodeLIC1 (headerBytes_eq _ _) h
    exact ⟨bytes, sig, hb, .inl e⟩
  case isFalse =>
    split at hc
    case isFalse => cases hc
    case isTrue  =>
      cases hc
      have ⟨bytes, sig, data, hb, hs, ha, e⟩ := Port.token_of_encodeLIC2 (footerBytes_eq _) h
      have hs : b.sign input.alg handle data seed = .ok sig := hs
      rw [eq_ed25519_of_toString ha] at hs
      exact ⟨bytes, sig, hb, .inr ⟨signs hs, e⟩⟩

-- Either format is read back as the claims that were written.
theorem parsed_of_encodeToken {signing : LicenseKey} {token : JsString} {parts : DecodedEnvelope JsString Value}
    (signs : SignsEd25519 b) (hv : (Value.object own none).IsValue)
    (h : encodeToken b seed input signing (.object own none) = .ok token) (hd : decodeUnverified token = .ok parts) :
    ∃ bytes errors, canonicalize (.object own none) = .ok bytes ∧ parseObject errors bytes = .ok parts.payload := by
  have ⟨bytes, sig, hb, ht⟩ := token_of_encodeToken signs h
  have ⟨_, _, he⟩ := encodes_of_ok hv hb
  cases ht
  case inl e =>
    have hd : port.decodeEnvelope (Port.Lawful.lic1Token port _ bytes sig) = .ok parts := e ▸ hd
    exact ⟨bytes, lic1Errors "payload", hb, Port.parsed_of_lic1Token lawful hd⟩
  case inr e =>
    have ⟨hs, e⟩ := e
    have hf : footerJSON signing.kid ≠ [] := (encodes_footerData _).ne_nil
    have hd : port.decodeEnvelope (Port.Lawful.lic2Token port bytes _ sig) = .ok parts := e ▸ hd
    exact ⟨bytes, lic2Errors "payload", hb, Port.parsed_of_lic2Token lawful he.ne_nil hf hs hd⟩

-- What is encoded is decoded, if the key has a name and no object has a member `__proto__`.
theorem exists_decoded_of_encodeToken {signing : LicenseKey} {token : JsString} (signs : SignsEd25519 b)
    (hv : (Value.object own none).IsValue) (ha : (Value.object own none).Avoids proto) (hk : signing.kid ≠ "")
    (h : encodeToken b seed input signing (.object own none) = .ok token) :
    ∃ parts, decodeUnverified token = .ok parts := by
  have ⟨bytes, sig, hb, ht⟩ := token_of_encodeToken signs h
  have ⟨_, _, he⟩ := encodes_of_ok hv hb
  have parsed errors : ∃ w, parseObject errors bytes = .ok w :=
    ((yields_iff hv hb errors).mpr ha).imp fun _ => And.left
  cases ht
  case inl e =>
    have allowed : input.alg.toString ∈ headerAllowedAlgs := by cases input.alg <;> decide
    have ⟨_, hw⟩ := parsed (lic1Errors "payload")
    have hh : port.parseHeader (headerJSON input.alg.toString signing.kid) = _ := parseHeader_eq allowed hk
    exact ⟨_, e ▸ lawful.decodeEnvelope_lic1Token sig hh hw⟩
  case inr e =>
    obtain ⟨hs, rfl⟩ := e
    have ⟨w, hw⟩ := parsed (lic2Errors "payload")
    have hf : port.parseFooter (footerJSON signing.kid) = _ := parseFooter_eq hk
    have hm : port.parseMessage bytes = .ok w := hw
    have hd := lawful.decode_lic2Token he.ne_nil (encodes_footerData signing.kid).ne_nil hs
    rw [hf, hm] at hd
    have routed : decodeUnverified (Port.Lawful.lic2Token port bytes (footerJSON signing.kid) sig) =
        port.decodeLIC2 (Port.Lawful.lic2Token port bytes (footerJSON signing.kid) sig) := by
      rw [decodeUnverified, Port.decodeEnvelope, lawful.codecFor_lic2Token]
      rfl
    exact ⟨_, routed.trans hd⟩

variable {status : LicenseStatus} {slug jti : String} {iat : Binary64}

theorem lookup_claimsOf : (claimsOf input status slug jti iat deadline).lookup (.ofString "force_online_after") =
    deadline.map .number := by
  rw [claimsOf]
  cases deadline <;> cases resolveEntitlements input <;> cases input.meta_ <;> rfl

theorem names_claimsOf : (claimsOf input status slug jti iat deadline).map Prod.fst =
    (claimNames deadline.isSome (resolveEntitlements input).isSome input.meta_.isSome).map JsString.ofString := by
  rw [claimsOf]
  cases deadline <;> cases resolveEntitlements input <;> cases input.meta_ <;> rfl

theorem proto_notMem_claimsOf : proto ∉ (claimsOf input status slug jti iat deadline).map Prod.fst := by
  have plain : ∀ deadline entitlements meta_, "__proto__" ∉ claimNames deadline entitlements meta_ := by decide
  rw [names_claimsOf, List.mem_map]
  intro ⟨name, hm, e⟩
  rw [proto_eq] at e
  exact plain _ _ _ (ofString_injective e ▸ hm)

theorem areMembers_iff {ms : List (JsString × Value)} : Value.AreMembers ms ↔ ∀ m ∈ ms, m.2.IsValue := by
  induction ms
  case nil          => simp [Value.AreMembers]
  case cons m ms ih => simp [Value.AreMembers, ih]

theorem isValue_claimsOf (entitlements : ∀ v, resolveEntitlements input = some v → v.IsValue)
    (meta_ : ∀ v, input.meta_ = some v → v.IsValue) :
    (Value.object (claimsOf input status slug jti iat deadline) none).IsValue := by
  refine ⟨?names, ?values⟩
  case names =>
    rw [names_claimsOf]
    exact (nodup_claimNames _ _ _).map ofString_injective
  case values =>
    have optional {α : Type} (o : Option α) (name : String) (v : α → Value) (h : ∀ a, o = some a → (v a).IsValue) :
        ∀ m ∈ (o.map fun a => (JsString.ofString name, v a)).toList, m.2.IsValue := by
      cases o <;> simp [h]
    rw [areMembers_iff, claimsOf]
    simp only [List.forall_mem_append]
    refine ⟨⟨⟨?required, ?deadline⟩, ?entitlements⟩, ?meta_⟩
    case required     => simp [requiredClaims, Value.IsValue]
    case deadline     => exact optional _ _ _ fun _ _ => trivial
    case entitlements => exact optional _ _ _ entitlements
    case meta_        => exact optional _ _ _ meta_

theorem avoids_claimsOf (entitlements : ∀ v, resolveEntitlements input = some v → v.Avoids proto)
    (meta_ : ∀ v, input.meta_ = some v → v.Avoids proto) :
    (Value.object (claimsOf input status slug jti iat deadline) none).Avoids proto := by
  have optional {α : Type} (o : Option α) (name : String) (v : α → Value) (h : ∀ a, o = some a → (v a).Avoids proto) :
      ∀ m ∈ (o.map fun a => (JsString.ofString name, v a)).toList, m.2.Avoids proto := by
    cases o <;> simp [h]
  have values : ∀ m ∈ claimsOf input status slug jti iat deadline, m.2.Avoids proto := by
    rw [claimsOf]
    simp only [List.forall_mem_append]
    refine ⟨⟨⟨?required, ?deadline⟩, ?entitlements⟩, ?meta_⟩
    case required     => simp [requiredClaims, Value.Avoids]
    case deadline     => exact optional _ _ _ fun _ _ => trivial
    case entitlements => exact optional _ _ _ entitlements
    case meta_        => exact optional _ _ _ meta_
  refine (Value.avoidMembers_iff _ _).mpr fun m hm => ⟨fun e => ?_, values m hm⟩
  have named : m.1 ∈ (claimsOf input status slug jti iat deadline).map Prod.fst := List.mem_map_of_mem hm
  exact proto_notMem_claimsOf (e ▸ named)

-- A number that could be written is read back.
theorem number_of_parsed {bytes : List UInt8} {errors : ObjectErrors} {w : Value} {key : String}
    {number : Option Binary64}
    (hv : (Value.object own none).IsValue) (plain : proto ∉ own.map Prod.fst)
    (hc : canonicalize (.object own none) = .ok bytes) (read : parseObject errors bytes = .ok w)
    (hl : own.lookup (.ofString key) = number.map .number) : (w.get? key).bind Value.asNumber = number := by
  rw [get?_carried hv plain hc read, hl]
  cases number
  case none   => rfl
  case some x =>
    have ⟨d, hd, he⟩ := encodes_of_ok hv hc
    have ⟨ds, hs, e⟩ := Option.map_eq_some_iff.mp hd
    subst e
    have named : key.toList ∈ ds.map Prod.fst := by
      have hm : JsString.ofString key ∈ own.map Prod.fst := (isSome_lookup own _).mp (by simp [hl])
      rw [← names_members? hs, List.mem_map] at hm
      have ⟨m, hm, e⟩ := hm
      exact List.mem_map.mpr ⟨m, hm, utf16_injective e⟩
    have ⟨data, hdata⟩ := Option.isSome_iff_exists.mp ((isSome_lookup ds _).mpr named)
    have hx : x.toInt?.map Data.int = some data := by
      have h := lookup_members? hs key
      rw [hdata, hl] at h
      exact h.symm
    have ⟨n, hn, e⟩ := Option.map_eq_some_iff.mp hx
    subst e
    have ⟨_, _, split, _⟩ := List.lookup_eq_some_iff.mp hdata
    have mem : (key.toList, Data.int n) ∈ ds := by simp [split]
    have small : n.natAbs < 2 ^ 53 := (Data.safeMembers_iff ds).mp he.safe _ mem
    have hr : (Value.number x).data? = some (.int n) := hx
    simp only [Option.map_some, Option.bind_some, hr]
    have hi : (Data.int n).normal = .int n := rfl
    rw [hi, ofRaw_int small, Binary64.ofInt_of_toInt? hn small]
    rfl

-- The claim of the payload is what a response finds in the token.
theorem IssuedFor.reports {text : Option String} (h : IssuedFor b seed input r own deadline) (signs : SignsEd25519 b)
    (hv : (Value.object own none).IsValue) (hr : reportOf r.token = .ok text) : deadline.mapM isoOf = .ok text := by
  have ⟨status, slug, jti, iat, _, e⟩ := h.claims
  have ⟨signing, _, ht⟩ := h.token
  have ⟨parts, hd, hr⟩ := bind_eq_ok_iff.mp hr
  have ⟨bytes, errors, hc, read⟩ := parsed_of_encodeToken signs hv ht hd
  have plain : proto ∉ own.map Prod.fst := e ▸ proto_notMem_claimsOf
  have hl : own.lookup (.ofString "force_online_after") = deadline.map .number := e ▸ lookup_claimsOf
  rw [number_of_parsed hv plain hc read hl] at hr
  exact hr

end IssuedFor

-- A response that hands out a token which was issued for a seat.
def Activated (ctx : ClientContext ρ κ) (held : Json.Object → Value) (seed : ρ) (response : Response) : Prop :=
  ∃ license usage issued own deadline expiresAt refreshAt text,
    IssuedFor ctx.backends seed (ctx.tokenInput held license usage) issued own deadline ∧
    reportOf issued.token = .ok text ∧ response = .ok (tokenData issued.token expiresAt refreshAt text)

section Handlers

variable {dateParse : String → Option Int} {fuel : Nat} {ctx : ClientContext ρ κ} {v : Verifier β κ'}
  {held : Json.Object → Value} {seed : ρ} {jti : String} {response : Response}

theorem data_of_respondWith {r : Except Error Json} (success : (respondWith r).IsSuccess) :
    ∃ data, r = .ok data ∧ respondWith r = .ok data := by
  cases r
  case error e   => exact absurd success (not_isSuccess_errFromLicensing e)
  case ok data => exact ⟨data, rfl, rfl⟩

theorem activated_of_respondWith {license : License} {usage : LicenseUsage} {issued : IssueTokenResult}
    (hi : (issueToken dateParse fuel ctx.backends seed jti (ctx.tokenInput held license usage)).MayEnd (.ok issued))
    (success : (respondWith (activated ctx issued)).IsSuccess) :
    Activated ctx held seed (respondWith (activated ctx issued)) := by
  obtain ⟨own, deadline, hi⟩ := issued_of_mayEnd hi
  obtain ⟨data, hd, hr⟩ := data_of_respondWith success
  rw [hr]
  obtain ⟨expiresAt, _, hd⟩ := bind_eq_ok_iff.mp hd
  obtain ⟨refreshAt, _, hd⟩ := bind_eq_ok_iff.mp hd
  obtain ⟨text, ht, hd⟩ := bind_eq_ok_iff.mp hd
  cases hd
  exact ⟨_, _, issued, own, deadline, expiresAt, refreshAt, text, hi, ht, rfl⟩

theorem activated_of_reissueFor {license : License} {usage : LicenseUsage}
    (h : (reissueFor dateParse fuel ctx held seed jti license usage).MayEnd (.ok response))
    (success : response.IsSuccess) : Activated ctx held seed response := by
  obtain ⟨r, hr, h⟩ := mayEnd_bind_ok.mp h
  cases r
  case error e =>
    cases h
    exact absurd success (not_isSuccess_errFromLicensing e)
  case ok issued =>
    obtain ⟨own, deadline, hi⟩ := issued_of_mayEnd (Go.mayEnd_directly.mp hr)
    obtain ⟨now, _, h⟩ := mayEnd_bind_ok.mp h
    cases h
    obtain ⟨data, hd, hr⟩ := data_of_respondWith success
    rw [hr]
    obtain ⟨text, ht, hd⟩ := bind_eq_ok_iff.mp hd
    obtain ⟨expiresAt, _, hd⟩ := bind_eq_ok_iff.mp hd
    obtain ⟨refreshAt, _, hd⟩ := bind_eq_ok_iff.mp hd
    cases hd
    exact ⟨_, _, issued, own, deadline, expiresAt, refreshAt, text, hi, ht, rfl⟩

theorem activateBody_rejects (body : Option Json) : Rejects (activateBody body) := by
  apply (requireJsonObject_rejects body).bind
  intro o
  apply (requireString_rejects o "license_key").bind
  intro licenseKey
  refine .bind ?fingerprint fun fingerprint => .bind ?clientMeta fun clientMeta => .ok _
  case fingerprint =>
    apply (requireString_rejects o "fingerprint").bind
    intro fingerprint
    split
    case isTrue  => exact .ok _
    case isFalse => exact .badRequest _
  case clientMeta =>
    rw [optionalObject]
    split
    case h_4 => exact .badRequest _
    all_goals exact .ok _

theorem not_mayEnd_err {status : Nat} {code message : String} (hs : 300 ≤ status) (success : response.IsSuccess) :
    ¬(Prog.pure (Response.err status code message) : Handler Response).MayEnd (.ok response) := by
  intro h
  cases h
  exact Response.not_isSuccess_err hs _ _ success

theorem activated_of_handleActivate {body : Option Json}
    (h : (handleActivate dateParse fuel ctx held seed jti body).MayEnd (.ok response)) (success : response.IsSuccess) :
    Activated ctx held seed response := by
  rw [handleActivate] at h
  cases hb : activateBody body
  case error r =>
    rw [hb] at h
    cases h
    exact absurd success ((activateBody_rejects body).not_isSuccess hb)
  case ok b =>
    rw [hb] at h
    obtain ⟨found, hf, h⟩ := mayEnd_bind_ok.mp h
    cases found
    case error e =>
      cases h
      exact absurd success (not_isSuccess_errFromLicensing e)
    case ok license =>
    cases license
    case none         => exact absurd h (not_mayEnd_err (by decide) success)
    case some license =>
    obtain ⟨registered, hr, h⟩ := mayEnd_bind_ok.mp h
    cases registered
    case error e =>
      cases h
      exact absurd success (not_isSuccess_errFromLicensing e)
    case ok reg =>
    obtain ⟨issued, hi, h⟩ := mayEnd_bind_ok.mp h
    cases issued
    case error e =>
      cases h
      exact absurd success (not_isSuccess_errFromLicensing e)
    case ok issued =>
      cases h
      exact activated_of_respondWith (Go.mayEnd_directly.mp hi) success

-- A seat that is not found answers with an error.
theorem not_isSuccess_seatOf {licenseId usageId : String}
    (h : (seatOf licenseId usageId).MayEnd (.ok (.error response))) : ¬response.IsSuccess := by
  obtain ⟨license, hl, h⟩ := mayEnd_bind_ok.mp h
  cases license
  case error e =>
    cases h
    exact not_isSuccess_errFromLicensing e
  case ok license =>
  cases license
  case none =>
    cases h
    exact Response.not_isSuccess_err (by decide) _ _
  case some license =>
  obtain ⟨usage, hu, h⟩ := mayEnd_bind_ok.mp h
  cases usage
  case error e =>
    cases h
    exact not_isSuccess_errFromLicensing e
  case ok usage =>
  cases usage
  case none =>
    cases h
    exact Response.not_isSuccess_err (by decide) _ _
  case some usage =>
  dsimp only at h
  split at h
  case isTrue =>
    cases h
    exact Response.not_isSuccess_err (by decide) _ _
  case isFalse =>
  split at h
  case isFalse => cases h
  case isTrue  =>
    cases h
    exact Response.not_isSuccess_err (by decide) _ _

theorem activated_of_handleRefresh {body : Option Json}
    (h : (handleRefresh dateParse fuel ctx held seed jti v body).MayEnd (.ok response)) (success : response.IsSuccess) :
    Activated ctx held seed response := by
  rw [handleRefresh] at h
  cases hb : (requireJsonObject body).bind fun o => requireString o "token"
  case error r =>
    rw [hb] at h
    cases h
    have rejects := (requireJsonObject_rejects body).bind fun o => requireString_rejects o "token"
    exact absurd success (rejects.not_isSuccess hb)
  case ok token =>
    rw [hb] at h
    obtain ⟨checked, hc, h⟩ := mayEnd_bind_ok.mp h
    cases checked
    case error e =>
      cases h
      exact absurd success (not_isSuccess_errFromLicensing e)
    case ok parts =>
    dsimp only at h
    cases hl : (parts.payload.get? "license_id").bind Value.asString
    case none =>
      rw [hl] at h
      exact absurd h (not_mayEnd_err (by decide) success)
    case some licenseId =>
    cases hu : (parts.payload.get? "usage_id").bind Value.asString
    case none =>
      rw [hl, hu] at h
      exact absurd h (not_mayEnd_err (by decide) success)
    case some usageId =>
    rw [hl, hu] at h
    obtain ⟨seat, hs, h⟩ := mayEnd_bind_ok.mp h
    cases seat
    case error r =>
      cases h
      exact absurd success (not_isSuccess_seatOf hs)
    case ok => exact activated_of_reissueFor h success

end Handlers

-- What clients ask for a token.
inductive TokenRequest
  | activate (body : Option Json)
  | refresh (body : Option Json)

def TokenRequest.handle (dateParse : String → Option Int) (fuel : Nat) (ctx : ClientContext ρ κ) (v : Verifier β κ')
    (held : Json.Object → Value) (seed : ρ) (jti : String) : TokenRequest → Handler Response
  | activate body => handleActivate dateParse fuel ctx held seed jti body
  | refresh body  => handleRefresh dateParse fuel ctx held seed jti v body

-- What a response hands out: a token that was issued for a license, and whose payload carries the deadline that is
-- resolved for the license, or none.
structure HandsOut (ctx : ClientContext ρ κ) (held : Json.Object → Value) (seed : ρ) (response : Response)
    (deadline : Option Binary64) : Prop where
  token : ∃ license usage issued own,
    IssuedFor ctx.backends seed (ctx.tokenInput held license usage) issued own deadline ∧
    response.member "token" = some (.str issued.token.toString) ∧
    own.lookup (.ofString "force_online_after") = deadline.map .number

-- A response reports the deadline that the payload of its token carries.
def Reports (response : Response) (deadline : Option Binary64) : Prop :=
  ∃ text, deadline.mapM isoOf = .ok text ∧ response.member "force_online_after" = text.map .str

theorem isValue_of_issued {ctx : ClientContext ρ κ} {held : Json.Object → Value} {seed : ρ} {license : License}
    {usage : LicenseUsage} {issued : IssueTokenResult} {own : List (JsString × Value)} {deadline : Option Binary64}
    (objects : ∀ m, ∃ own, held m = .object own none ∧ (held m).IsValue)
    (h : IssuedFor ctx.backends seed (ctx.tokenInput held license usage) issued own deadline) :
    (Value.object own none).IsValue := by
  obtain ⟨_, _, _, _, _, e⟩ := h.claims
  rw [e]
  apply isValue_claimsOf
  case meta_        =>
    intro _ h
    cases h
  case entitlements =>
    obtain ⟨members, hm, hv⟩ := objects license.meta_
    have read : (ctx.tokenInput held license usage).licenseMeta = .object members none := hm
    have values : Value.AreMembers members := (hm ▸ hv : (Value.object members none).IsValue).right
    intro w hw
    rw [resolveEntitlements, read] at hw
    cases hl : members.lookup (.ofString "entitlements")
    case none =>
      simp [ClientContext.tokenInput, Value.get?, hl] at hw
    case some x =>
      obtain ⟨_, _, split, _⟩ := List.lookup_eq_some_iff.mp hl
      have value : x.IsValue := areMembers_iff.mp values (JsString.ofString "entitlements", x) (by simp [split])
      cases x <;> simp [ClientContext.tokenInput, Value.get?, hl] at hw
      all_goals exact hw ▸ value

theorem reports_of_activated {ctx : ClientContext ρ κ} {held : Json.Object → Value} {seed : ρ} {response : Response}
    (signs : SignsEd25519 ctx.backends) (objects : ∀ m, ∃ own, held m = .object own none ∧ (held m).IsValue)
    (h : Activated ctx held seed response) :
    ∃ deadline, HandsOut ctx held seed response deadline ∧ Reports response deadline := by
  have ⟨license, usage, issued, own, deadline, expiresAt, refreshAt, text, hi, ht, hr⟩ := h
  have ⟨_, _, _, _, _, e⟩ := hi.claims
  refine ⟨deadline, ⟨license, usage, issued, own, hi, ?member, ?carries⟩, text, ?reads, ?reports⟩
  case member  => rw [hr]; rfl
  case carries => exact e ▸ lookup_claimsOf
  case reads   => exact hi.reports signs (isValue_of_issued objects hi) ht
  case reports =>
    rw [hr]
    cases text <;> rfl

end Ts

end Licensing
