import Licensing.Go.Activation
import Licensing.Keys.KeyWindow
import Licensing.Library.Outcomes
import Licensing.Tokens.Carried
import Licensing.Tokens.ClientToken

-- The responses that hand out a token, and the deadline that they report beside it.

namespace Licensing

-- A member of the data of a response.
def Response.member (r : Response) (name : String) : Option Json :=
  match r.body with
  | some (.obj body) =>
    match Json.Object.get? body "data" with
    | some (.obj data) => Json.Object.get? data name
    | _                => none
  | _ => none

@[simp]
theorem Response.member_ok (data : Json.Object) (status : Nat) (name : String) :
    (Response.ok (.obj data) status).member name = data.get? name :=
  rfl

-- The names of the claims of a payload, by the claims that it may have besides those of all payloads.
def claimNames (deadline entitlements meta_ : Bool) : List String :=
  ["jti", "iat", "nbf", "exp", "scope", "license_id", "usage_id", "usage_fingerprint", "status", "max_usages"] ++
    (if deadline then ["force_online_after"] else []) ++ (if entitlements then ["entitlements"] else []) ++
    (if meta_ then ["meta"] else [])

theorem nodup_claimNames : ∀ deadline entitlements meta_, (claimNames deadline entitlements meta_).Nodup := by
  decide

namespace Go

open JsonText Prog

variable {ρ κ β κ' : Type} {alg : β → GoString}

-- What checks the tokens of clients: the registered backends and their answers. `wall` is the time that
-- stands in for a clock that cannot be read.
structure Verifier (alg : β → GoString) (κ' : Type) where
  registry : AlgorithmRegistry alg
  backend  : (op : BackendOp GoString β κ') → op.Ans
  wall     : Int

-- Performs the check of a token with the storage and the clock of a handler.
def Verifier.check {α : Type} (v : Verifier alg κ') :
    ClientCheck GoString β κ' α → Handler (Except Error α)
  | .pure a                       => .pure (.ok a)
  | .throw e                      => .pure (.error e)
  | .call (.backend op) next      => v.check (next (v.backend op))
  | .call .nowSec next            => .call (.op .nowISO) fun now =>
    v.check (next (((parseTime now).map (· / 1000000000)).getD v.wall))
  | .call (.getKeyByKid kid) next => .call (.op (.tx (.getKeyByKid (GoString.toString kid)))) fun record =>
    v.check (next (record.map (Option.map storedKey)))

structure RefreshBody where
  token : String

-- The transaction of a refresh.
def activeSeat (licenseId usageId : String) : Tx (License × LicenseUsage) := do
  match ← Tx.getLicense licenseId with
  | none         => .throw (newError .licenseNotFound ("license not found: " ++ licenseId))
  | some license =>
    match ← Tx.getUsage usageId with
    | none       => .throw (newError .licenseNotFound ("usage not found: " ++ usageId))
    | some usage =>
      if usage.licenseId ≠ license.id then
        .throw (tokenMalformed "token usage does not belong to token license")
      else if usage.status ≠ .active then
        .throw (newError .licenseRevoked ("usage " ++ usage.id ++ " is no longer active"))
      else return (license, usage)

def handleRefresh (fuel : Nat) (ctx : ClientContext ρ κ) (v : Verifier alg κ') (held : Json.Object → Map)
    (seed : ρ) (jti : String) (body : Option (Except String RefreshBody)) : Handler Response :=
  match decodeBody body with
  | .error response => .pure response
  | .ok body =>
    if body.token = "" then .pure (.err 400 "BadRequest" "token is required")
    else do
      match ← v.check (verifyClientToken v.registry (Bytes.ofString body.token) (ctx.ttl * 1000000000)) with
      | .error e  => return writeErrorFromLicensing e
      | .ok parts =>
        let licenseId := GoString.toString ((parts.payload.as "license_id" Value.asString).getD [])
        let usageId   := GoString.toString ((parts.payload.as "usage_id" Value.asString).getD [])
        if licenseId = "" ∨ usageId = "" then
          return .err 401 "TokenMalformed" "token missing required claims"
        else
          match ← Handler.transaction (activeSeat licenseId usageId) with
          | .error e             => return writeErrorFromLicensing e
          | .ok (license, usage) =>
            issueFor fuel ctx held seed jti { usage := usage, license := license, created := false }

section IssuedFor

variable {fuel : Nat} {b : KeyBackends ρ κ} {seed : ρ} {jti : String} {input : IssueTokenInput}

-- A token that was issued with a payload. `deadline` is the claim `force_online_after`.
structure IssuedFor (b : KeyBackends ρ κ) (seed : ρ) (input : IssueTokenInput) (r : IssueTokenResult)
    (payload : Map) (deadline : Option Int64) : Prop where
  claims : ∃ status slug jti iat, resolveForceOnlineAfter input iat = .ok deadline ∧
    payload = payloadOf input status slug jti iat deadline
  token  : ∃ signing, r.kid = signing.kid ∧ encodeToken b seed input signing payload = .ok r.token

-- A token that was signed with a key which the storage holds.
structure SignedFor (fuel : Nat) (b : KeyBackends ρ κ) (seed : ρ) (input : IssueTokenInput) (r : IssueTokenResult)
    (signing : LicenseKey) (payload : Map) (deadline : Option Int64) : Prop where
  found  : (findActiveSigningKey fuel input.license.scopeId input.alg).MayEnd (.ok (some signing))
  claims : ∃ status slug jti iat, resolveForceOnlineAfter input iat = .ok deadline ∧
    payload = payloadOf input status slug jti iat deadline
  kid    : r.kid = signing.kid
  token  : encodeToken b seed input signing payload = .ok r.token

theorem signed_of_mayEnd {r : IssueTokenResult} (h : (issueToken fuel b seed jti input).MayEnd (.ok r)) :
    ∃ signing payload deadline, SignedFor fuel b seed input r signing payload deadline := by
  rw [issueToken, mayEnd_bind_ok] at h
  obtain ⟨_, _, h⟩ := h
  obtain ⟨nowISO, _, h⟩ := mayEnd_bind_ok.mp h
  obtain ⟨_, _, h⟩ := mayEnd_bind_ok.mp h
  obtain ⟨key, hk, h⟩ := mayEnd_bind_ok.mp h
  cases key
  case none         => cases h
  case some signing =>
    obtain ⟨_, _, h⟩ := mayEnd_bind_ok.mp h
    obtain ⟨slug, _, h⟩ := mayEnd_bind_ok.mp h
    obtain ⟨deadline, hd, h⟩ := mayEnd_bind_ok.mp h
    obtain ⟨token, ht, h⟩ := mayEnd_bind_ok.mp h
    cases h
    exact ⟨signing, _, deadline, hk, ⟨_, slug, jti, _, (mayEnd_ofExcept.mp hd).symm, rfl⟩, rfl,
      (mayEnd_ofExcept.mp ht).symm⟩

variable {status : LicenseStatus} {slug : String} {iat : Int64} {deadline : Option Int64}

theorem names_payloadOf : (payloadOf input status slug jti iat deadline).map Prod.fst =
    (claimNames deadline.isSome (resolveEntitlements input).isSome input.meta_.isSome).map Bytes.ofString := by
  rw [payloadOf]
  cases deadline <;> cases resolveEntitlements input <;> cases input.meta_ <;> rfl

theorem areMembers_iff {ms : Map} : Value.AreMembers ms ↔ ∀ m ∈ ms, m.2.IsValue := by
  induction ms
  case nil          => simp [Value.AreMembers]
  case cons m ms ih => simp [Value.AreMembers, ih]

theorem isValue_payloadOf (entitlements : ∀ m, resolveEntitlements input = some m → (Value.map m).IsValue)
    (meta_ : ∀ m, input.meta_ = some m → (Value.map m).IsValue) :
    (Value.map (payloadOf input status slug jti iat deadline)).IsValue := by
  refine ⟨?names, ?values⟩
  case names =>
    rw [names_payloadOf]
    exact (nodup_claimNames _ _ _).map Bytes.ofString_injective
  case values =>
    have optional {α : Type} (o : Option α) (name : String) (v : α → Value) (h : ∀ a, o = some a → (v a).IsValue) :
        ∀ m ∈ (o.map fun a => (Bytes.ofString name, v a)).toList, m.2.IsValue := by
      cases o <;> simp [h]
    rw [areMembers_iff, payloadOf]
    simp only [List.forall_mem_append]
    refine ⟨⟨⟨?fixed, ?deadline⟩, ?entitlements⟩, ?meta_⟩
    case fixed        => simp [Value.IsValue]
    case deadline     => exact optional _ _ _ fun _ _ => trivial
    case entitlements => exact optional _ _ _ entitlements
    case meta_        => exact optional _ _ _ meta_

-- The claim is written to the payload as it was resolved.
theorem lookup_payloadOf : (payloadOf input status slug jti iat deadline).lookup (Bytes.ofString "force_online_after") =
      deadline.map .int64 := by
  rw [payloadOf]
  cases deadline <;> cases resolveEntitlements input <;> cases input.meta_ <;> rfl

-- The tokens of the formats, by what is encoded in them.
theorem token_of_encodeToken {signing : LicenseKey} {payload : Map} {token : GoString}
    (h : encodeToken b seed input signing payload = .ok token) :
    ∃ bytes sig, canonicalize (.map payload) = .ok bytes ∧
      ((formatOf input = "LIC1" ∧
          token = Port.Lawful.lic1Token port (headerJSON input.alg.toString signing.kid) bytes sig) ∨
        (formatOf input = "LIC2" ∧ token = Port.Lawful.lic2Token port bytes (footerJSON signing.kid) sig)) := by
  rw [encodeToken] at h
  obtain ⟨_, _, h⟩ := bind_eq_ok_iff.mp h
  obtain ⟨_, _, h⟩ := bind_eq_ok_iff.mp h
  obtain ⟨codec, hc, h⟩ := bind_eq_ok_iff.mp h
  by_cases ha : codec.supportsAlg (Bytes.ofString input.alg.toString)
  case neg =>
    rw [if_neg ha] at h
    cases h
  case pos =>
  rw [if_pos ha] at h
  rw [codecForFormat] at hc
  split at hc
  case isTrue format =>
    cases hc
    obtain ⟨bytes, sig, hb, e⟩ := Port.token_of_encodeLIC1 headerBytes_eq h
    exact ⟨bytes, sig, hb, .inl ⟨format, e⟩⟩
  case isFalse =>
    split at hc
    case isFalse => cases hc
    case isTrue format =>
      cases hc
      obtain ⟨bytes, sig, _, hb, _, _, e⟩ := Port.token_of_encodeLIC2 (footerBytes_eq _) h
      exact ⟨bytes, sig, hb, .inr ⟨format, e⟩⟩

-- The decoder takes one of the formats only.
theorem extract_lic2Token (message footer sig : List UInt8) :
    extractForceOnlineAfter (Port.Lawful.lic2Token port message footer sig) = none := by
  have hc : codecFor (Port.Lawful.lic2Token port message footer sig) = .ok port.lic2Codec :=
    lawful.codecFor_lic2Token message footer sig
  have hp : port.lic2Codec.tokenPrefix ≠ lic1Prefix := by decide
  rw [extractForceOnlineAfter, decodeUnverified, hc, ok_bind, if_pos hp]

theorem decodeUnverified_lic1Token (header payload sig : List UInt8) :
    decodeUnverified (Port.Lawful.lic1Token port header payload sig) =
      port.decodeLIC1 (Port.Lawful.lic1Token port header payload sig) := by
  have hc : codecFor (Port.Lawful.lic1Token port header payload sig) = .ok port.lic1Codec :=
    Port.Lawful.codecFor_lic1Token header payload sig
  have hp : ¬port.lic1Codec.tokenPrefix ≠ lic1Prefix := not_not.mpr rfl
  rw [decodeUnverified, hc, ok_bind, if_neg hp]

theorem mem_headerAllowedAlgs (alg : KeyAlg) : alg.toString ∈ headerAllowedAlgs := by
  cases alg <;> decide

-- A header has to name a key.
theorem parseHeader_of_empty (alg : KeyAlg) : ∃ e, parseHeader (headerJSON alg.toString "") = .error e := by
  have hp := (encodes_headerData alg.toString "").go_parse_eq (normal_headerData _ _) "header"
  have ho : ofMembers (Data.rawMembers [("alg".toList, .str alg.toString.toList), ("kid".toList, .str "".toList),
      ("typ".toList, .str "lic".toList), ("v".toList, .int 1)]) =
      [(Bytes.ofString "alg", .string (Bytes.ofString alg.toString)),
        (Bytes.ofString "kid", .string []),
        (Bytes.ofString "typ", .string (Bytes.ofString "lic")), (Bytes.ofString "v", .number "1")] := by
    simp only [Data.rawMembers, Data.raw, ofMembers, ofRaw, stringOf_map, String.ofList_toList]
    rfl
  have hk : Map.as (ofMembers (Data.rawMembers [("alg".toList, .str alg.toString.toList),
      ("kid".toList, .str "".toList), ("typ".toList, .str "lic".toList), ("v".toList, .int 1)])) "kid"
      Value.asString = some [] := ho ▸ rfl
  rw [parseHeader, hp, ok_bind]
  split
  case h_1 => exact ⟨_, rfl⟩
  case h_2 =>
  split
  case h_1 => exact ⟨_, rfl⟩
  case h_2 =>
  split
  case isTrue  => exact ⟨_, rfl⟩
  case isFalse =>
  split
  case isTrue  => exact ⟨_, rfl⟩
  case isFalse =>
  split
  case h_1 => exact ⟨_, rfl⟩
  case h_2 =>
  split
  case isTrue  => exact ⟨_, rfl⟩
  case isFalse =>
    rw [hk]
    exact ⟨_, rfl⟩

theorem extract_lic1Token {alg : KeyAlg} {kid : String} {payload : Map} {bytes : List UInt8}
    (hv : (Value.map payload).IsValue) (hc : canonicalize (.map payload) = .ok bytes)
    (hd : payload.lookup (Bytes.ofString "force_online_after") = deadline.map .int64) (sig : List UInt8) :
    extractForceOnlineAfter (Port.Lawful.lic1Token port (headerJSON alg.toString kid) bytes sig) =
      if kid = "" then none else deadline := by
  rw [extractForceOnlineAfter, decodeUnverified_lic1Token, lawful.decode_lic1Token]
  by_cases hk : kid = ""
  case pos =>
    have ⟨e, he⟩ := parseHeader_of_empty alg
    have he : port.parseHeader (headerJSON alg.toString kid) = .error e := hk ▸ he
    rw [if_pos hk, he]
    rfl
  case neg =>
    have hh : port.parseHeader (headerJSON alg.toString kid) = .ok ⟨Bytes.ofString alg.toString, Bytes.ofString kid⟩ :=
      parseHeader_eq (mem_headerAllowedAlgs alg) hk
    have ⟨o, ho, _⟩ := readsBack hv hc "payload"
    have hp : port.parsePayload bytes = .ok o := ho
    have hl := lookup_carried hv hc ho "force_online_after"
    rw [if_neg hk, hh, hp]
    simp only [ok_bind, Pure.pure, Except.pure]
    rw [hl, hd]
    cases deadline
    case none   => rfl
    case some v =>
      have hi : int64? (.ofList (intText v.toInt)) = some v.toInt := by
        have bounds : -2 ^ 63 ≤ v.toInt ∧ v.toInt < 2 ^ 63 := ⟨v.le_toInt, v.toInt_lt⟩
        rw [int64?, String.toList_ofList, integer?_intText, Option.filter_some, if_pos (decide_eq_true bounds)]
      simp only [Option.map_some, Option.bind_some, Value.data?, Data.normal, Data.raw, ofRaw]
      rw [hi, Option.map_some, Int64.ofInt_toInt]

-- The format and the key decide whether the claim is found.
theorem SignedFor.extract {r : IssueTokenResult} {signing : LicenseKey} {payload : Map}
    (h : SignedFor fuel b seed input r signing payload deadline) (hv : (Value.map payload).IsValue) :
    extractForceOnlineAfter r.token = if formatOf input = "LIC1" ∧ signing.kid ≠ "" then deadline else none := by
  have ⟨_, _, _, _, _, hp⟩ := h.claims
  have ⟨bytes, sig, hc, format⟩ := token_of_encodeToken h.token
  cases format
  case inl format =>
    have hd : payload.lookup (Bytes.ofString "force_online_after") = deadline.map .int64 := hp ▸ lookup_payloadOf
    rw [format.right, extract_lic1Token hv hc hd]
    by_cases kid : signing.kid = "" <;> simp [format.left, kid]
  case inr format =>
    have other : ¬(formatOf input = "LIC1" ∧ signing.kid ≠ "") := by simp [format.left]
    rw [format.right, extract_lic2Token, if_neg other]

end IssuedFor

theorem mayEnd_directly {α : Type} {r : Except Error α} : {p : Tx α} →
    ((Handler.directly p).MayEnd (.ok r) ↔ p.MayEnd r)
  | .pure a      => by simp [Handler.directly]
  | .throw e     => by simp [Handler.directly]
  | .call o next => exists_congr fun a => mayEnd_directly (p := next a)

-- A response that hands out a token which was issued for a seat.
def Activated (fuel : Nat) (ctx : ClientContext ρ κ) (held : Json.Object → Map) (seed : ρ)
    (response : Response) : Prop :=
  ∃ license usage issued signing payload deadline, response = .ok (ctx.activated issued) ∧
    SignedFor fuel ctx.backends seed (ctx.issueInput held license usage) issued signing payload deadline

section Handlers

variable {fuel : Nat} {ctx : ClientContext ρ κ} {v : Verifier alg κ'} {held : Json.Object → Map} {seed : ρ}
  {jti : String} {response : Response}

theorem activated_of_issueFor {reg : RegisterUsageResult}
    (h : (issueFor fuel ctx held seed jti reg).MayEnd (.ok response)) (success : response.IsSuccess) :
    Activated fuel ctx held seed response := by
  have ⟨r, hr, h⟩ := mayEnd_bind_ok.mp h
  cases r
  case error e =>
    cases h
    exact absurd success (not_isSuccess_writeError e)
  case ok issued =>
    cases h
    obtain ⟨signing, payload, deadline, hs⟩ := signed_of_mayEnd (mayEnd_directly.mp hr)
    exact ⟨_, _, issued, signing, payload, deadline, rfl, hs⟩

theorem not_isSuccess_decodeBody {α : Type} {body : Option (Except String α)}
    (h : decodeBody body = .error response) : ¬response.IsSuccess := by
  cases body
  case none =>
    cases h
    exact Response.not_isSuccess_err (by decide) _ _
  case some r =>
    cases r
    case ok    => cases h
    case error =>
      cases h
      exact Response.not_isSuccess_err (by decide) _ _

-- A response that no storage is asked for.
theorem not_mayEnd_err {status : Nat} {code message : String} (hs : 300 ≤ status) (success : response.IsSuccess) :
    ¬(Prog.pure (Response.err status code message) : Handler Response).MayEnd (.ok response) := by
  intro h
  cases h
  exact Response.not_isSuccess_err hs _ _ success

theorem activated_of_handleActivate {body : Option (Except String ActivateBody)}
    (h : (handleActivate fuel ctx held seed jti body).MayEnd (.ok response)) (success : response.IsSuccess) :
    Activated fuel ctx held seed response := by
  rw [handleActivate] at h
  cases hb : decodeBody body
  case error r =>
    rw [hb] at h
    cases h
    exact absurd success (not_isSuccess_decodeBody hb)
  case ok b =>
    rw [hb] at h
    dsimp only at h
    by_cases hl : b.licenseKey = ""
    case pos =>
      rw [if_pos hl] at h
      exact absurd h (not_mayEnd_err (by decide) success)
    case neg =>
    rw [if_neg hl] at h
    by_cases hf : b.fingerprint = ""
    case pos =>
      rw [if_pos hf] at h
      exact absurd h (not_mayEnd_err (by decide) success)
    case neg =>
    rw [if_neg hf] at h
    have ⟨found, hfound, h⟩ := mayEnd_bind_ok.mp h
    cases found
    case error e =>
      cases h
      exact absurd success (not_isSuccess_writeError e)
    case ok license =>
    cases license
    case none => exact absurd h (not_mayEnd_err (by decide) success)
    case some license =>
    have ⟨registered, hr, h⟩ := mayEnd_bind_ok.mp h
    cases registered
    case error e =>
      cases h
      exact absurd success (not_isSuccess_writeError e)
    case ok reg => exact activated_of_issueFor h success

theorem activated_of_handleRefresh {body : Option (Except String RefreshBody)}
    (h : (handleRefresh fuel ctx v held seed jti body).MayEnd (.ok response)) (success : response.IsSuccess) :
    Activated fuel ctx held seed response := by
  rw [handleRefresh] at h
  cases hb : decodeBody body
  case error r =>
    rw [hb] at h
    cases h
    exact absurd success (not_isSuccess_decodeBody hb)
  case ok b =>
    rw [hb] at h
    dsimp only at h
    by_cases ht : b.token = ""
    case pos =>
      rw [if_pos ht] at h
      exact absurd h (not_mayEnd_err (by decide) success)
    case neg =>
    rw [if_neg ht] at h
    have ⟨checked, hc, h⟩ := mayEnd_bind_ok.mp h
    cases checked
    case error e =>
      cases h
      exact absurd success (not_isSuccess_writeError e)
    case ok parts =>
    dsimp only at h
    split at h
    case isTrue  => exact absurd h (not_mayEnd_err (by decide) success)
    case isFalse =>
    have ⟨seat, hs, h⟩ := mayEnd_bind_ok.mp h
    cases seat
    case error e =>
      cases h
      exact absurd success (not_isSuccess_writeError e)
    case ok => exact activated_of_issueFor h success

end Handlers

-- What clients ask for a token.
inductive TokenRequest
  | activate (body : Option (Except String ActivateBody))
  | refresh (body : Option (Except String RefreshBody))

def TokenRequest.handle (fuel : Nat) (ctx : ClientContext ρ κ) (v : Verifier alg κ') (held : Json.Object → Map)
    (seed : ρ) (jti : String) : TokenRequest → Handler Response
  | activate body => handleActivate fuel ctx held seed jti body
  | refresh body  => handleRefresh fuel ctx v held seed jti body

-- What a response hands out: a token that was issued for a license, with a key of the storage, and whose payload
-- carries the deadline that is resolved for the license, or none.
structure HandsOut (fuel : Nat) (ctx : ClientContext ρ κ) (held : Json.Object → Map) (seed : ρ) (response : Response)
    (license : License) (signing : LicenseKey) (deadline : Option Int64) : Prop where
  token : ∃ usage issued payload,
    SignedFor fuel ctx.backends seed (ctx.issueInput held license usage) issued signing payload deadline ∧
    response.member "token" = some (.str issued.token.toString) ∧
    payload.lookup (Bytes.ofString "force_online_after") = deadline.map .int64

-- A response reports the deadline that the payload of its token carries.
def Reports (response : Response) (deadline : Option Int64) : Prop :=
  response.member "force_online_after" = deadline.map fun v => .str (isoOf v)

-- Neither the server nor the license sets a deadline.
def SetsNoDeadline (ctx : ClientContext ρ κ) (licenseMeta : Map) : Prop :=
  ctx.forceOnlineAfter = none ∧ licenseMeta.lookup (Bytes.ofString "force_online_after_sec") = none

-- Tokens of one format are read back, as long as their key has a name.
def Rereads (ctx : ClientContext ρ κ) (signing : LicenseKey) : Prop :=
  (ctx.tokenFormat = "" ∨ ctx.tokenFormat = "LIC1") ∧ signing.kid ≠ ""

theorem isValue_of_signed {ctx : ClientContext ρ κ} {held : Json.Object → Map} {seed : ρ} {fuel : Nat}
    {license : License} {usage : LicenseUsage} {issued : IssueTokenResult} {signing : LicenseKey} {payload : Map}
    {deadline : Option Int64}
    (maps : ∀ m, (Value.map (held m)).IsValue)
    (h : SignedFor fuel ctx.backends seed (ctx.issueInput held license usage) issued signing payload deadline) :
    (Value.map payload).IsValue := by
  have ⟨_, _, _, _, _, hp⟩ := h.claims
  rw [hp]
  apply isValue_payloadOf
  case meta_        => exact nofun
  case entitlements =>
    intro m hm
    have ⟨v, hv, hm⟩ := Option.bind_eq_some_iff.mp hm
    have ⟨_, _, e, _⟩ := List.lookup_eq_some_iff.mp hv
    have mem : (Bytes.ofString "entitlements", v) ∈ (ctx.issueInput held license usage).licenseMeta := by simp [e]
    have value : v.IsValue := areMembers_iff.mp (maps license.meta_).right _ mem
    cases v
    case map ms =>
      cases hm
      exact value
    all_goals cases hm

-- A deadline that is set is the claim, unless it is refused.
theorem resolved_eq_none_iff {ctx : ClientContext ρ κ} {held : Json.Object → Map} {license : License}
    {usage : LicenseUsage} {iat : Int64} {deadline : Option Int64}
    (h : resolveForceOnlineAfter (ctx.issueInput held license usage) iat = .ok deadline) :
    deadline = none ↔ SetsNoDeadline ctx (held license.meta_) := by
  rw [SetsNoDeadline]
  cases hf : ctx.forceOnlineAfter
  case some v =>
    have override : (ctx.issueInput held license usage).forceOnlineAfter = some (some v) := by
      simp [ClientContext.issueInput, hf]
    rw [resolveForceOnlineAfter, override] at h
    obtain ⟨_, _, h⟩ := bind_eq_ok_iff.mp h
    cases h
    simp
  case none =>
    have plain : (ctx.issueInput held license usage).forceOnlineAfter = none := by
      simp [ClientContext.issueInput, hf]
    cases hl : (held license.meta_).lookup (Bytes.ofString "force_online_after_sec")
    case none     =>
      have hl : (ctx.issueInput held license usage).licenseMeta.lookup (Bytes.ofString "force_online_after_sec") =
        none := hl
      rw [resolveForceOnlineAfter, plain, hl] at h
      cases h
      simp
    case some raw =>
      obtain ⟨_, _, _, e⟩ := (resolveForceOnlineAfter_of_lookup plain hl).mp h
      simp [e]

theorem reports_iff {ctx : ClientContext ρ κ} {held : Json.Object → Map} {seed : ρ} {fuel : Nat} {response : Response}
    (maps : ∀ m, (Value.map (held m)).IsValue) (h : Activated fuel ctx held seed response) :
    ∃ license signing deadline, HandsOut fuel ctx held seed response license signing deadline ∧
      (Reports response deadline ↔ SetsNoDeadline ctx (held license.meta_) ∨ Rereads ctx signing) := by
  have ⟨license, usage, issued, signing, payload, deadline, hr, hs⟩ := h
  have ⟨_, _, _, _, hd, hp⟩ := hs.claims
  refine ⟨license, signing, deadline, ⟨usage, issued, payload, hs, ?token, ?carries⟩, ?reports⟩
  case token   => rw [hr]; rfl
  case carries => exact hp ▸ lookup_payloadOf
  case reports =>
    have extract := hs.extract (isValue_of_signed maps hs)
    have format : formatOf (ctx.issueInput held license usage) = "LIC1" ↔
        ctx.tokenFormat = "" ∨ ctx.tokenFormat = "LIC1" := by
      by_cases ht : ctx.tokenFormat = "" <;> simp [formatOf, ClientContext.issueInput, ht]
    have member : response.member "force_online_after" =
        (extractForceOnlineAfter issued.token).map fun v => .str (isoOf v) := by
      rw [hr, ClientContext.activated]
      cases extractForceOnlineAfter issued.token <;> rfl
    simp only [format] at extract
    rw [Reports, member, extract, ← resolved_eq_none_iff hd, Rereads]
    split
    case isTrue h  => exact iff_of_true rfl (.inr h)
    case isFalse h =>
      rw [or_iff_left h]
      cases deadline <;> simp

-- Every response that hands out a token is one of these.
theorem activated_of_handle {fuel : Nat} {ctx : ClientContext ρ κ} {v : Verifier alg κ'} {held : Json.Object → Map}
    {seed : ρ} {jti : String} {response : Response} (request : TokenRequest)
    (h : (request.handle fuel ctx v held seed jti).MayEnd (.ok response)) (success : response.IsSuccess) :
    Activated fuel ctx held seed response := by
  cases request
  case activate => exact activated_of_handleActivate h success
  case refresh  => exact activated_of_handleRefresh h success

end Go

end Licensing
