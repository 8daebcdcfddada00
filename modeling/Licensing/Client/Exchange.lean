import Licensing.Client.Refresh

-- The calls that exchange something with the issuer beside the refresh: heartbeats, activation and deactivation. What
-- is stored on the device follows from the answer.

namespace Licensing

-- `R` is the type of the data in the answer.
inductive ExchangeOp (τ ν R : Type)
  | readStore
  | writeStore (state : StoredTokenState τ ν)
  | clearStore
  | post

@[reducible]
def ExchangeOp.Ans {τ ν R : Type} : ExchangeOp τ ν R → Type
  | readStore    => Except String (StoredTokenState τ ν)
  | writeStore _ => Except String Unit
  | clearStore   => Except String Unit
  | post         => Except ClientError R

abbrev Exchange (τ ν R : Type) :=
  Prog (ExchangeOp τ ν R) ExchangeOp.Ans ClientError

-- What fails of an operation, and what the issuer answers.
structure ExchangeEnv (R : Type) where
  readFault  : Option String := none
  writeFault : Option String := none
  clearFault : Option String := none
  post       : Except ClientError R

-- `empty` is what a store holds that has been cleared.
def ExchangeOp.exec {τ ν R : Type} (empty : StoredTokenState τ ν) (w : ExchangeEnv R) :
    (op : ExchangeOp τ ν R) → StoredTokenState τ ν → op.Ans × StoredTokenState τ ν
  | .readStore, s        => (w.readFault.elim (.ok s) .error, s)
  | .writeStore state, s =>
    match w.writeFault with
    | some e => (.error e, s)
    | none   => (.ok (), state)
  | .clearStore, s =>
    match w.clearFault with
    | some e => (.error e, s)
    | none   => (.ok (), empty)
  | .post, s => (w.post, s)

namespace Exchange

variable {τ ν R α : Type}

def orOther (label : String) : Except String α → Exchange τ ν R α
  | .ok a    => .pure a
  | .error e => .throw (.other (label ++ e))

def clearStore (label : String) : Exchange τ ν R Unit :=
  .call .clearStore (orOther label)

def writeStore (label : String) (state : StoredTokenState τ ν) : Exchange τ ν R Unit :=
  .call (.writeStore state) (orOther label)

def readStore : Exchange τ ν R (StoredTokenState τ ν) :=
  .call .readStore (orOther "")

-- The answer of the issuer, be it an error.
def post : Exchange τ ν R (Except ClientError R) :=
  .call .post .pure

end Exchange

-- The issuer says that the token is of no use any more.
def ClientError.isRejected : ClientError → Bool
  | .client code _ => code = .licenseRevoked || code = .licenseSuspended
  | .other _       => false

def ClientError.isAlreadyGone : ClientError → Bool
  | .client code _ => code = .invalidLicenseKey || code = .licenseRevoked
  | .other _       => false

-- Whether it succeeded, and the errors that were reported, in order.
abbrev HeartbeatResult :=
  Bool × List ClientError

structure DeactivateResult where
  issuerConfirmed : Bool

namespace Go

abbrev ExchangeM (R : Type) := Exchange GoString Int64 R

-- Only the token that was rejected is cleared.
def clearRejected (token : GoString) : ExchangeM Unit (List ClientError) :=
  .call .readStore fun
  | .error _ => .pure []
  | .ok cur  =>
    if cur.token ≠ token then .pure []
    else .call .clearStore fun
      | .error e => .pure [.other e]
      | .ok ()   => .pure []

-- The grace is ended by a write of the state that was read before.
def sendOneHeartbeat : ExchangeM Unit HeartbeatResult :=
  .call .readStore fun
  | .error e  => .pure (false, [.other e])
  | .ok state =>
    if state.token = [] then .pure (true, [])
    else .call .post fun
      | .error err => do
        let reported ← if err.isRejected then clearRejected state.token else .pure []
        return (false, reported ++ [err])
      | .ok () =>
        if state.graceStartSec.isNone then .pure (true, [])
        else .call (.writeStore ⟨state.token, none⟩) fun
          | .error e => .pure (true, [.other e])
          | .ok ()   => .pure (true, [])

structure ActivateResult where
  token     : GoString
  usageID   : GoString
  licenseID : GoString

def activateDevice : ExchangeM ActivateResult ActivateResult := do
  let resp ← .ofExcept (← Exchange.post)
  if resp.token = [] then .throw (invalidTokenFormat "issuer returned empty token")
  else if resp.usageID = [] ∨ resp.licenseID = [] then
    .throw (invalidTokenFormat "issuer response missing usage_id or license_id")
  else do
    Exchange.writeStore "write token store: " ⟨resp.token, none⟩
    return resp

def deactivateDevice : ExchangeM Unit DeactivateResult := do
  match ← Exchange.post with
  | .error err =>
    if err.isAlreadyGone then do
      Exchange.clearStore "clear store: "
      return { issuerConfirmed := false }
    else .throw err
  | .ok () => do
    Exchange.clearStore "clear store: "
    return { issuerConfirmed := true }

end Go

namespace Ts

abbrev ExchangeM (R : Type) := Exchange (Option JsString) Binary64 R

-- A token that has been replaced meanwhile is not touched.
def tickOnce : ExchangeM Unit HeartbeatResult := do
  let stateBefore ← Exchange.readStore
  if stateBefore.token.isNone then return (true, [])
  else
    let acknowledged : ExchangeM Unit Unit := do
      .ofExcept (← Exchange.post)
      let stateAfter ← Exchange.readStore
      if stateAfter.token = stateBefore.token ∧ stateAfter.graceStartSec.isSome then
        Exchange.writeStore "" ⟨stateAfter.token, none⟩
      else .pure ()
    acknowledged.handle fun
    | .ok ()     => .pure (true, [])
    | .error err => do
      if err.isRejected then do
        let stateNow ← Exchange.readStore
        if stateNow.token = stateBefore.token then Exchange.clearStore "" else .pure ()
      return (false, [err])

def sendOneHeartbeat : ExchangeM Unit HeartbeatResult :=
  tickOnce.handle fun
  | .ok result => .pure result
  | .error err => .pure (false, [err])

structure ActivateResult where
  token     : JsString
  usageId   : JsString
  licenseId : JsString

def activationResult : Value → Except ClientError ActivateResult
  | .null | .other _ => .error (.other "TypeError")
  | data             =>
    match (data.get? "token").bind Value.asString with
    | none | some [] => .error (invalidTokenFormat "issuer returned success but no token string")
    | some token     =>
      match (data.get? "usage_id").bind Value.asString, (data.get? "license_id").bind Value.asString with
      | some usageId, some licenseId => .ok ⟨token, usageId, licenseId⟩
      | _, _ => .error (invalidTokenFormat
          "issuer returned success but usage_id/license_id missing or not strings")

def activateDevice (licenseKey fingerprint : JsString) : ExchangeM Value ActivateResult :=
  if licenseKey = [] then .throw (.client .invalidLicenseKey "license key must be a non-empty string")
  else if fingerprint = [] then .throw (.client .fingerprintMismatch "fingerprint must be a non-empty string")
  else do
    let data ← .ofExcept (← Exchange.post)
    let result ← .ofExcept (activationResult data)
    Exchange.writeStore "" ⟨some result.token, none⟩
    return result

-- An error of the store is none of the taxonomy.
def deactivateDevice (reason : JsString) : ExchangeM Unit DeactivateResult :=
  if reason = [] then .throw (.other "deactivate requires a non-empty reason")
  else
    let confirmed : ExchangeM Unit DeactivateResult := do
      .ofExcept (← Exchange.post)
      Exchange.clearStore ""
      return { issuerConfirmed := true }
    confirmed.handle fun
    | .ok result => .pure result
    | .error err =>
      if err.isAlreadyGone then do
        Exchange.clearStore ""
        return { issuerConfirmed := false }
      else .throw err

end Ts

end Licensing
