import Licensing.Client.Validate

-- The refresh of the stored token. Past the deadline `force_online_after` an unreachable issuer lets the
-- device enter a window of grace.

namespace Licensing

inductive RefreshKind
  | refreshed
  | notDue
  | graceEntered
  | graceContinued
  deriving DecidableEq, Repr

def RefreshKind.IsGrace (k : RefreshKind) : Prop :=
  k = graceEntered ∨ k = graceContinued

instance : DecidablePred RefreshKind.IsGrace :=
  fun _ => inferInstanceAs (Decidable (_ ∨ _))

structure RefreshOutcome (σ ν : Type) where
  kind          : RefreshKind
  token         : σ
  graceStartSec : Option ν := none

def issuerUnreachable? : ClientError → Bool
  | .client code _ => code = .issuerUnreachable
  | .other _       => false

def quarter : Binary64 :=
  .rounded false Binary64.one 4

namespace Go

-- A window of zero seconds is no grace at all, and any threshold that is not positive is a quarter.
structure RefreshOptions where
  nowSec             : Int64
  proactiveThreshold : Binary64 := .finite false 0
  graceWindowSec     : Option Int64 := none

def RefreshOptions.threshold (o : RefreshOptions) : Binary64 :=
  if (Binary64.finite false 0).lt o.proactiveThreshold then o.proactiveThreshold else quarter

def RefreshOptions.graceWindow (o : RefreshOptions) : Int64 :=
  o.graceWindowSec.getD 604800

def shouldProactiveRefresh (peeked : PeekResult GoString Int64) (nowSec : Int64)
    (threshold : Binary64) : Bool :=
  let lifetime  := peeked.exp - peeked.nbf
  let remaining := peeked.exp - nowSec
  lifetime ≤ 0 || remaining ≤ 0 ||
    ((Binary64.ofInt remaining.toInt).div (.ofInt lifetime.toInt)).lt threshold

def RefreshOptions.forced (o : RefreshOptions) (peeked : PeekResult GoString Int64) : Bool :=
  peeked.forceOnlineAfter.any (· ≤ o.nowSec)

variable {β κ : Type}

-- What an issuer that is out of reach makes of a refresh.
def handleUnreachable (o : RefreshOptions) (state : TokenState) (forced : Bool) :
    Device β κ (RefreshOutcome GoString Int64) :=
  if ¬forced then return { kind := .notDue, token := state.token }
  else if o.graceWindow = 0 then
    .throw (.client .requiresOnlineRefresh
      "force_online_after deadline passed; online refresh required")
  else match state.graceStartSec with
  | some start =>
    return { kind := .graceContinued, token := state.token, graceStartSec := some start }
  | none       => do
    Device.writeStore "write grace state: " ⟨state.token, some o.nowSec⟩
    return { kind := .graceEntered, token := state.token, graceStartSec := some o.nowSec }

def refresh (o : RefreshOptions) : Device β κ (RefreshOutcome GoString Int64) := do
  let state ← Device.readStore "read token store: "
  if state.token = [] then .throw (.client .noToken "no stored token")
  else
    let peeked ← .ofExcept (peek state.token)
    if 0 < o.graceWindow ∧ state.graceStartSec.any (· + o.graceWindow ≤ o.nowSec) then
      .throw (.client .graceExpired "grace window has expired")
    else
      let forced    := o.forced peeked
      let proactive := shouldProactiveRefresh peeked o.nowSec o.threshold
      if ¬forced ∧ ¬proactive ∧ state.graceStartSec.isNone then
        return { kind := .notDue, token := state.token }
      else match ← Device.postRefresh state.token with
      | .error e =>
        if issuerUnreachable? e then handleUnreachable o state forced else .throw e
      | .ok token => do
        Device.writeStore "write refreshed token: " ⟨token, none⟩
        return { kind := .refreshed, token := token }

end Go

namespace Ts

structure RefreshOptions where
  nowSec             : Binary64
  proactiveThreshold : Option Binary64 := none
  graceWindowSec     : Option Binary64 := none

def RefreshOptions.threshold (o : RefreshOptions) : Binary64 :=
  o.proactiveThreshold.getD quarter

def RefreshOptions.graceWindow (o : RefreshOptions) : Binary64 :=
  o.graceWindowSec.getD (.ofInt 604800)

def zero : Binary64 :=
  .finite false 0

def shouldProactiveRefresh (peeked : PeekResult JsString Binary64) (nowSec threshold : Binary64) :
    Bool :=
  if threshold.le zero then false
  else
    let lifetime  := peeked.exp.sub peeked.nbf
    let remaining := peeked.exp.sub nowSec
    lifetime.le zero || remaining.le zero || (remaining.div lifetime).lt threshold

def RefreshOptions.forced (o : RefreshOptions) (peeked : PeekResult JsString Binary64) : Bool :=
  peeked.forceOnlineAfter.any fun deadline => deadline.le o.nowSec

variable {β κ : Type}

def handleUnreachable (o : RefreshOptions) (token : JsString) (graceStartSec : Option Binary64)
    (forced : Bool) : Device β κ (RefreshOutcome JsString Binary64) :=
  if ¬forced then return { kind := .notDue, token := token }
  else if o.graceWindow.le zero ∧ zero.le o.graceWindow then
    .throw (.client .requiresOnlineRefresh "forced refresh failed, grace disabled")
  else match graceStartSec with
  | some start =>
    if (start.add o.graceWindow).lt o.nowSec then .throw (.client .graceExpired "grace started")
    else return { kind := .graceContinued, token := token, graceStartSec := some start }
  | none => do
    Device.writeStore "" ⟨some token, some o.nowSec⟩
    return { kind := .graceEntered, token := token, graceStartSec := some o.nowSec }

-- The token of a response. A property of `null` or of `undefined` cannot be read.
def refreshedToken : Value → Except ClientError JsString
  | .null | .other _ => .error (.other "TypeError")
  | data             =>
    match (data.get? "token").bind Value.asString with
    | none | some [] => .error (invalidTokenFormat
        "issuer returned success but no refreshed token string")
    | some token     => .ok token

def refresh (o : RefreshOptions) : Device β κ (RefreshOutcome JsString Binary64) := do
  let state ← Device.readStore ""
  match state.token with
  | none              => .throw (.client .noToken "no token stored locally")
  | some currentToken =>
    let metadata ← .ofExcept (peek currentToken)
    if zero.lt o.graceWindow ∧
        state.graceStartSec.any (fun start => (start.add o.graceWindow).lt o.nowSec) then
      .throw (.client .graceExpired "grace started")
    else
      let forced    := o.forced metadata
      let proactive := shouldProactiveRefresh metadata o.nowSec o.threshold
      if ¬forced ∧ ¬proactive ∧ state.graceStartSec.isNone then
        return { kind := .notDue, token := currentToken }
      else match ← Device.postRefresh currentToken with
      | .error e =>
        if issuerUnreachable? e then handleUnreachable o currentToken state.graceStartSec forced
        else .throw e
      | .ok data => do
        let token ← .ofExcept (refreshedToken data)
        Device.writeStore "" ⟨some token, none⟩
        return { kind := .refreshed, token := token }

end Ts

end Licensing
