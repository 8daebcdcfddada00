import Licensing.Ts.Responses

-- The deadline that the responses of both ports report beside a token.

namespace Licensing

open Prog

-- A port reports the deadline of every token that it hands out, if it reads the token back. In Go that takes
-- the format with a header, and a key with a name.
theorem reportedDeadline_iff {ρ κ β κ' : Type} {alg : β → Go.GoString} (fuel : Nat) (seed : ρ) (jti : String)
    (response : Response) (success : response.IsSuccess) :
    (∀ (ctx : Go.ClientContext ρ κ) (v : Go.Verifier alg κ') (held : Json.Object → Go.Map) (request : Go.TokenRequest),
      (∀ m, (Go.Value.map (held m)).IsValue) → (request.handle fuel ctx v held seed jti).MayEnd (.ok response) →
      ∃ license signing deadline, Go.HandsOut fuel ctx held seed response license signing deadline ∧
        (Go.Reports response deadline ↔ Go.SetsNoDeadline ctx (held license.meta_) ∨ Go.Rereads ctx signing)) ∧
    ∀ (dateParse : String → Option Int) (ctx : Ts.ClientContext ρ κ) (v : Ts.Verifier β κ')
      (held : Json.Object → Ts.Value) (request : Ts.TokenRequest), Ts.SignsEd25519 ctx.backends →
      (∀ m, ∃ own, held m = .object own none ∧ (held m).IsValue) →
      (request.handle dateParse fuel ctx v held seed jti).MayEnd (.ok response) →
      ∃ deadline, Ts.HandsOut ctx held seed response deadline ∧ Ts.Reports response deadline := by
  constructor
  case left =>
    intro ctx v held request maps h
    exact Go.reports_iff maps (Go.activated_of_handle request h success)
  case right =>
    intro dateParse ctx v held request signs objects h
    apply Ts.reports_of_activated signs objects
    cases request
    case activate => exact Ts.activated_of_handleActivate h success
    case refresh  => exact Ts.activated_of_handleRefresh h success

namespace Go

-- An issuer that asks every client to be online by a time in 2027.
def pasetoIssuer : ClientContext Unit Unit where
  backends          := openBackends
  signingPassphrase := "p"
  tokenFormat       := "LIC2"
  forceOnlineAfter  := some 1800000000

def pasetoRequest : TokenRequest :=
  .activate (some (.ok { licenseKey := "LIC-0000-0000-0000-0000-0000", fingerprint := "f" }))

def trustingVerifier : Verifier (fun _ : Unit => Bytes.ofString "ed25519") Unit where
  registry := trusted
  backend  := fun
    | .importPublic .. => .ok ()
    | .verify ..       => .ok true
  wall     := 0

theorem issuable_pasetoIssuer : Issuable 1 openBackends () (windowAnswer none)
    (pasetoIssuer.issueInput (fun _ => []) (anyLicense none) anyUsage) := by
  have now : unixSeconds (windowAnswer none .nowISO) = 1767225600 := by
    show unixSeconds "2026-01-01T00:00:00Z" = 1767225600
    decide +kernel
  constructor
  case status => exact .inl rfl
  case scope  => exact fun _ h => by cases h
  case key    =>
    exact ⟨windowKey none, rfl, by simp [windowKey], ⟨(), rfl, fun data => ⟨0 :: data, rfl⟩⟩, rfl, port.lic2Codec, rfl,
      lic2_supportsAlg_iff.mpr rfl⟩
  case claims =>
    refine ⟨some 1800000000, ?_, ?_⟩
    case refine_1 =>
      rw [now]
      rfl
    case refine_2 =>
      rw [now]
      constructor
      case issued       => decide
      case expires      => decide
      case maxUsages    => decide
      case deadline     => rintro _ ⟨⟩; decide
      case entitlements => exact fun _ h => by cases h
      case meta_        => exact fun _ h => by cases h

-- It activates a license, and hands out a token for the seat that is registered.
theorem mayEnd_pasetoRequest : ∃ issued,
    (pasetoRequest.handle 1 pasetoIssuer trustingVerifier (fun _ => []) () "j").MayEnd
      (.ok (.ok (pasetoIssuer.activated issued))) := by
  have steady : Steady openBackends () := fun _ _ data data' _ => ⟨0 :: data', rfl⟩
  have ⟨issued, h⟩ : ∃ issued, (issueToken 1 openBackends () "j"
      (pasetoIssuer.issueInput (fun _ => []) (anyLicense none) anyUsage)).run (windowAnswer none) = .ok issued :=
    (exists_run_issueToken_iff steady rfl).mpr issuable_pasetoIssuer
  have found : (findLicenseByKey "LIC-0000-0000-0000-0000-0000").MayEnd (.ok (.ok (some (anyLicense none)))) := by
    have key : normalizeLicenseKey "LIC-0000-0000-0000-0000-0000" = some "LIC-0000-0000-0000-0000-0000" := by decide
    rw [findLicenseByKey, key]
    exact ⟨.ok (some (anyLicense none)), rfl⟩
  refine ⟨issued, mayEnd_bind_ok.mpr ⟨_, found, ?_⟩⟩
  refine mayEnd_bind_ok.mpr ⟨.ok ⟨anyUsage, anyLicense none, true⟩, ⟨_, rfl⟩, ?_⟩
  refine mayEnd_bind_ok.mpr ⟨.ok issued, mayEnd_directly.mpr ?_, rfl⟩
  exact h ▸ mayEnd_run _ _

theorem isValue_nil (m : Json.Object) : (Value.map ((fun _ => []) m)).IsValue :=
  ⟨List.nodup_nil, trivial⟩

end Go

namespace Ts

-- Its signatures are as long as those of Ed25519.
def signingBackends : KeyBackends Unit Unit :=
  { Go.openBackends with sign := fun _ _ _ _ => .ok (List.replicate 64 0) }

theorem signsEd25519_signingBackends : SignsEd25519 signingBackends := by
  rintro _ _ _ _ ⟨⟩
  rfl

def pasetoIssuer : ClientContext Unit Unit where
  backends          := signingBackends
  signingPassphrase := "p"
  tokenFormat       := some "LIC2"
  forceOnlineAfter  := some (some (.ofInt 1800000000))

def fingerprint : String :=
  "e3b0c44298fc1c149afbf4c8996fb92427ae41e4649b934ca495991b7852b855"

def pasetoRequest : TokenRequest :=
  .activate (some (.obj [("license_key", .str "LIC-0000-0000-0000-0000-0000"), ("fingerprint", .str fingerprint)]))

def trustingVerifier : Verifier Unit Unit where
  alg      := fun _ => .ofString "ed25519"
  backends := []
  backend  := fun
    | .importPublic .. => .ok ()
    | .verify ..       => .ok true
  wall     := 0

-- It is the beginning of 2026, and no license has metadata.
def sampleDate (_ : String) : Option Int :=
  some 1767225600000

def noMeta (_ : Json.Object) : Value :=
  .object [] none

theorem isValue_noMeta (m : Json.Object) : ∃ own, noMeta m = .object own none ∧ (noMeta m).IsValue :=
  ⟨[], rfl, List.nodup_nil, trivial⟩

def sampleInput : TokenInput :=
  pasetoIssuer.tokenInput noMeta (Go.anyLicense none) Go.anyUsage

theorem run_issueToken_sample : ∃ issued,
    (issueToken sampleDate 1 signingBackends () "j" sampleInput).run (Go.windowAnswer none) = .ok issued ∧
      issued.kid = "k" ∧ (isoOf issued.exp).isOk ∧ (pasetoIssuer.refreshAfter issued.iat).isOk := by
  have h : ((issueToken sampleDate 1 signingBackends () "j" sampleInput).run (Go.windowAnswer none)).toOption.any
      (fun issued => issued.kid = "k" && (isoOf issued.exp).isOk && (pasetoIssuer.refreshAfter issued.iat).isOk) := by
    decide +kernel
  cases hr : (issueToken sampleDate 1 signingBackends () "j" sampleInput).run (Go.windowAnswer none)
  case error e => rw [hr] at h; cases h
  case ok issued =>
    rw [hr] at h
    exact ⟨issued, rfl, by simpa [Except.toOption, and_assoc] using h⟩

theorem exists_ok_of_isOk {ε α : Type} {x : Except ε α} (h : x.isOk) : ∃ a, x = .ok a := by
  cases x
  case ok a    => exact ⟨a, rfl⟩
  case error e => cases h

-- A deadline that the server sets is the claim, unless it is refused.
theorem resolved_of_override {input : IssueTokenInput} {v iat : Binary64} {deadline : Option Binary64}
    (hf : input.forceOnlineAfter = some (some v)) (h : resolveForceOnlineAfter input iat = .ok deadline) :
    deadline = some v := by
  rw [resolveForceOnlineAfter, hf] at h
  obtain ⟨w, hw, rfl⟩ := map_eq_ok_iff.mp h
  unfold validateForceOnlineDeadline at hw
  split at hw
  case isTrue => contradiction
  case isFalse =>
    split at hw
    case isTrue => contradiction
    case isFalse =>
      split at hw <;> cases hw
      rfl

-- The claim of the token is read.
theorem reportOf_sample {issued : IssueTokenResult} {own : List (JsString × Value)} {deadline : Option Binary64}
    (h : IssuedFor pasetoIssuer.backends () (pasetoIssuer.tokenInput noMeta (Go.anyLicense none) Go.anyUsage) issued
      own deadline) (kid : issued.kid = "k") : ∃ text, reportOf issued.token = .ok text := by
  have hv := isValue_of_issued isValue_noMeta h
  have ⟨signing, named, token⟩ := h.token
  have ⟨status, slug, jti, iat, resolved, claims⟩ := h.claims
  have carried : own.lookup (.ofString "force_online_after") = deadline.map .number := claims ▸ lookup_claimsOf
  have plain : proto ∉ own.map Prod.fst := claims ▸ proto_notMem_claimsOf
  have set : deadline = some (.ofInt 1800000000) := resolved_of_override rfl resolved
  have avoids : (Value.object own none).Avoids proto := claims ▸ avoids_claimsOf (fun _ h => by cases h) nofun
  have ⟨parts, hd⟩ := exists_decoded_of_encodeToken signsEd25519_signingBackends hv avoids
    (by rw [← named, kid]; decide) token
  have ⟨bytes, errors, hc, read⟩ := parsed_of_encodeToken signsEd25519_signingBackends hv token hd
  have number := number_of_parsed hv plain hc read carried
  have ⟨text, iso⟩ := exists_ok_of_isOk (by decide +kernel : (isoOf (.ofInt 1800000000)).isOk)
  refine ⟨some text, ?_⟩
  rw [reportOf, hd, ok_bind, number, set]
  simp [iso]

-- A key that is found, a seat that is registered and a token that is issued answer the request.
theorem mayEnd_handleActivate {ρ κ : Type} {dateParse : String → Option Int} {fuel : Nat} {ctx : ClientContext ρ κ}
    {held : Json.Object → Value} {seed : ρ} {jti : String} {body : Option Json} {b : ActivateBody} {license : License}
    {usage : LicenseUsage} {answer : (o : Op) → o.Ans} {issued : IssueTokenResult} {data : Json}
    (hb : activateBody body = .ok b) (found : (findLicenseByKey b.licenseKey).MayEnd (.ok (.ok (some license))))
    (hi : (issueToken dateParse fuel ctx.backends seed jti (ctx.tokenInput held license usage)).run answer = .ok issued)
    (hd : activated ctx issued = .ok data) :
    (handleActivate dateParse fuel ctx held seed jti body).MayEnd (.ok (.ok data)) := by
  rw [handleActivate, hb]
  refine mayEnd_bind_ok.mpr ⟨_, found, ?_⟩
  refine mayEnd_bind_ok.mpr ⟨.ok ⟨usage, license, true⟩, ⟨_, rfl⟩, ?_⟩
  refine mayEnd_bind_ok.mpr ⟨.ok issued, Go.mayEnd_directly.mpr (hi ▸ mayEnd_run answer _), ?_⟩
  rw [Except.bind, hd]
  rfl

theorem issued_of_run {ρ κ : Type} {dateParse : String → Option Int} {fuel : Nat} {b : KeyBackends ρ κ} {seed : ρ}
    {jti : String} {input : TokenInput} {answer : (o : Op) → o.Ans} {r : IssueTokenResult}
    (h : (issueToken dateParse fuel b seed jti input).run answer = .ok r) :
    ∃ own deadline, IssuedFor b seed input r own deadline :=
  issued_of_mayEnd (h ▸ mayEnd_run answer _)

-- It activates a license, and hands out a token that is read back.
theorem mayEnd_pasetoRequest : ∃ data,
    (pasetoRequest.handle sampleDate 1 pasetoIssuer trustingVerifier noMeta () "j").MayEnd (.ok (.ok data)) := by
  have ⟨issued, h, kid, expires, refresh⟩ := run_issueToken_sample
  have ⟨own, deadline, signed⟩ := issued_of_run h
  have ⟨text, report⟩  := reportOf_sample signed kid
  have ⟨expiresAt, he⟩ := exists_ok_of_isOk expires
  have ⟨refreshAt, hr⟩ := exists_ok_of_isOk refresh
  have data : activated pasetoIssuer issued = .ok (tokenData issued.token expiresAt refreshAt text) := by
    rw [activated, he, ok_bind, hr, ok_bind, report]
    rfl
  have body : activateBody (some (.obj [("license_key", .str "LIC-0000-0000-0000-0000-0000"),
      ("fingerprint", .str fingerprint)])) = .ok ⟨"LIC-0000-0000-0000-0000-0000", fingerprint, none⟩ := by
    rfl
  have found : (findLicenseByKey "LIC-0000-0000-0000-0000-0000").MayEnd (.ok (.ok (some (Go.anyLicense none)))) := by
    have key : normalizeLicenseKey "LIC-0000-0000-0000-0000-0000" = some "LIC-0000-0000-0000-0000-0000" := by decide
    rw [findLicenseByKey, key]
    exact ⟨.ok (some (Go.anyLicense none)), rfl⟩
  exact ⟨_, mayEnd_handleActivate body found h data⟩

end Ts

-- Both have set a deadline. In Go it is not reported, since the format has no header.
theorem reportedDeadline_iff_paseto :
    (∃ response license signing deadline,
      Go.HandsOut 1 Go.pasetoIssuer (fun _ => []) () response license signing deadline ∧
        ¬Go.Reports response deadline) ∧
    ∃ response deadline, Ts.HandsOut Ts.pasetoIssuer Ts.noMeta () response deadline ∧ Ts.Reports response deadline := by
  constructor
  case left =>
    have ⟨issued, h⟩ := Go.mayEnd_pasetoRequest
    have ⟨license, signing, deadline, hands, iff⟩ := (reportedDeadline_iff 1 () "j"
      (.ok (Go.pasetoIssuer.activated issued)) (Response.isSuccess_ok _)).left Go.pasetoIssuer Go.trustingVerifier _
      Go.pasetoRequest Go.isValue_nil h
    refine ⟨_, license, signing, deadline, hands, fun reports => ?_⟩
    obtain none | format := iff.mp reports
    case inl => exact absurd none.left (by decide)
    case inr => exact absurd format.left (by decide)
  case right =>
    have ⟨data, h⟩ := Ts.mayEnd_pasetoRequest
    have ⟨deadline, hands, reports⟩ := (@reportedDeadline_iff Unit Unit Unit Unit (fun _ => Bytes.ofString "ed25519")
      1 () "j" (.ok data) (Response.isSuccess_ok _)).right Ts.sampleDate Ts.pasetoIssuer Ts.trustingVerifier Ts.noMeta
      Ts.pasetoRequest Ts.signsEd25519_signingBackends Ts.isValue_noMeta h
    exact ⟨_, deadline, hands, reports⟩

end Licensing
