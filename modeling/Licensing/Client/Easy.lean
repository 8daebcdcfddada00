import Licensing.Client.Refresh

-- The client for applications, which refreshes the stored token and validates what is stored then.

namespace Licensing

structure LicenseHandle (σ ν P G : Type) where
  licenseID      : σ
  usageID        : σ
  status         : σ
  maxUsages      : ν
  exp            : ν
  entitlements   : Option P
  graceStartedAt : G
  isInGrace      : Bool

namespace Go

structure ClientVerifyConfig {β : Type} (alg : β → GoString) where
  verify           : VerifyOptions alg
  expectedAudience : GoString := []
  expectedIssuer   : GoString := []
  skewSec          : Int64 := 0

structure Client {β : Type} (alg : β → GoString) where
  verify         : Option (ClientVerifyConfig alg)
  gracePeriodSec : Int64 := 604800

namespace Client

variable {β κ : Type} {alg : β → GoString}

def requireVerify (c : Client alg) (method : String) : Except ClientError (ClientVerifyConfig alg) :=
  match c.verify with
  | some verify => .ok verify
  | none        => .error (.other ("easy.Client." ++ method ++
      ": verify config is required (ClientConfig.Verify); " ++
      "the LIC1 protocol has no JWKS-style discovery endpoint, so the " ++
      "public-key bundle must be supplied at construction time"))

-- An issuer that is up, but does not refresh, is no reason for grace: the mark is taken back.
def refresh (c : Client alg) : Device β κ (RefreshOutcome GoString Int64) := do
  let preState ← Device.readStore "read token store: "
  let now      ← Device.nowSec
  let out      ← Go.refresh { nowSec := now, graceWindowSec := some c.gracePeriodSec }
  if ¬out.kind.IsGrace then return out
  else if ¬(← Device.probeHealth) then return out
  else do
    if out.kind = .graceEntered then
      Device.writeStore "rollback grace marker: " preState
    .throw (.client .issuerProtocolError
      ("/refresh failed but /health is OK — issuer process is up but the " ++
        "refresh route is broken; not entering grace"))

def validateOptions (verify : ClientVerifyConfig alg) (fingerprint : GoString) (nowSec : Int64) :
    ValidateOptions alg where
  verify           := verify.verify
  expectedAudience := verify.expectedAudience
  expectedIssuer   := verify.expectedIssuer
  fingerprint      := fingerprint
  nowSec           := nowSec
  skewSec          := verify.skewSec

def guard (c : Client alg) (fingerprint : GoString) :
    Device β κ (LicenseHandle GoString Int64 Map Int64) := do
  let verify ← .ofExcept (c.requireVerify "Guard")
  let state  ← Device.readStore "read token store: "
  if state.token = [] then .throw (.client .noToken "no stored token")
  else do
    let _     ← c.refresh
    let fresh ← Device.readStore "read token store: "
    if fresh.token = [] then .throw (.client .noToken "no stored token")
    else do
      let now    ← Device.nowSec
      let result ← validate fresh.token (validateOptions verify fingerprint now)
      return {
        licenseID      := result.licenseID
        usageID        := result.usageID
        status         := result.status
        maxUsages      := result.maxUsages
        exp            := result.exp
        entitlements   := result.entitlements
        graceStartedAt := fresh.graceStartSec.getD 0
        isInGrace      := result.status = Bytes.ofString "grace" || fresh.graceStartSec.isSome }

end Client

end Go

namespace Ts

structure ClientVerifyConfig {β : Type} (alg : β → JsString) where
  verify           : VerifyOptions alg
  expectedAudience : Option JsString := none
  expectedIssuer   : Option JsString := none
  skewSec          : Option Binary64 := none

structure Client {β : Type} (alg : β → JsString) where
  verify         : Option (ClientVerifyConfig alg)
  gracePeriodSec : Option Binary64 := none

namespace Client

variable {β κ : Type} {alg : β → JsString}

def requireVerify (c : Client alg) (method : String) : Except ClientError (ClientVerifyConfig alg) :=
  match c.verify with
  | some verify => .ok verify
  | none        => .error (.other ("Licensing.client." ++ method ++ "() requires a verify config"))

def gracePeriod (c : Client alg) : Binary64 :=
  c.gracePeriodSec.getD (.ofInt 604800)

def refresh (c : Client alg) : Device β κ (RefreshOutcome JsString Binary64) := do
  let preState ← Device.readStore ""
  let now      ← Device.nowSec
  let out      ← Ts.refresh { nowSec := now, graceWindowSec := some c.gracePeriod }
  if ¬out.kind.IsGrace then return out
  else if ¬(← Device.probeHealth) then return out
  else do
    if out.kind = .graceEntered then
      Device.writeStore "" ⟨some (preState.token.getD out.token), preState.graceStartSec⟩
    .throw (.client .issuerProtocolError
      ("/refresh failed but /health is OK — issuer process is up but the " ++
        "refresh route is broken; not entering grace"))

def validateOptions (verify : ClientVerifyConfig alg) (fingerprint : JsString) (nowSec : Binary64) :
    ValidateOptions alg where
  verify           := verify.verify
  expectedAudience := verify.expectedAudience
  expectedIssuer   := verify.expectedIssuer
  fingerprint      := fingerprint
  nowSec           := nowSec
  skewSec          := verify.skewSec

-- The issuer is not asked for its health here.
def guard (c : Client alg) (fingerprint : JsString) :
    Device β κ (LicenseHandle JsString Binary64 Value (Option Binary64)) := do
  let verify ← .ofExcept (c.requireVerify "guard")
  let state  ← Device.readStore ""
  if state.token.isNone then .throw (.client .noToken "no token stored locally")
  else do
    let now   ← Device.nowSec
    let _     ← Ts.refresh { nowSec := now, graceWindowSec := some c.gracePeriod }
    let fresh ← Device.readStore ""
    match fresh.token with
    | none       => .throw (.client .noToken "no token stored locally")
    | some token => do
      let now    ← Device.nowSec
      let result ← validate token (validateOptions verify fingerprint now)
      return {
        licenseID      := result.licenseID
        usageID        := result.usageID
        status         := result.status
        maxUsages      := result.maxUsages
        exp            := result.exp
        entitlements   := result.entitlements
        graceStartedAt := fresh.graceStartSec
        isInGrace      := result.status = .ofString "grace" || fresh.graceStartSec.isSome }

end Client

end Ts

end Licensing
