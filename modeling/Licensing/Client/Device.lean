import Licensing.Library.Atomic
import Licensing.Tokens.Verify

-- What the client of a device asks for: its own store of tokens, its clock and its keys, and the
-- issuer.

namespace Licensing

inductive ClientErrorCode
  | invalidLicenseKey
  | fingerprintMismatch
  | audienceMismatch
  | issuerMismatch
  | tokenReplayed
  | tokenExpired
  | tokenNotYetValid
  | seatLimitExceeded
  | licenseRevoked
  | licenseSuspended
  | requiresOnlineRefresh
  | graceExpired
  | noToken
  | issuerUnreachable
  | rateLimited
  | invalidTokenFormat
  | unsupportedAlgorithm
  | algorithmMismatch
  | unknownKid
  | issuerProtocolError
  deriving DecidableEq, Repr

-- An error of the taxonomy of clients, or another error that passes through.
inductive ClientError
  | client (code : ClientErrorCode) (message : String)
  | other (message : String)
  deriving DecidableEq, Repr

def ClientError.HasCode (e : ClientError) (code : ClientErrorCode) : Prop :=
  ∃ message, e = .client code message

def invalidTokenFormat (message : String) : ClientError :=
  .client .invalidTokenFormat message

-- The token of a state is of the type `τ`, and the clock counts in `ν`.
structure StoredTokenState (τ ν : Type) where
  token         : τ
  graceStartSec : Option ν

-- The data of a response is of the type `R`.
inductive DeviceOp (σ β κ τ ν R : Type)
  | backend (op : BackendOp σ β κ)
  | recordJtiUse (jti : σ) (expSec : ν)
  | nowSec
  | readStore
  | writeStore (state : StoredTokenState τ ν)
  | postRefresh (token : σ)
  | probeHealth

@[reducible]
def DeviceOp.Ans {σ β κ τ ν R : Type} : DeviceOp σ β κ τ ν R → Type
  | backend op       => op.Ans
  | recordJtiUse _ _ => Except String Bool
  | nowSec           => ν
  | readStore        => Except String (StoredTokenState τ ν)
  | writeStore _     => Except String Unit
  | postRefresh _    => Except ClientError R
  | probeHealth      => Bool

abbrev Device (σ β κ τ ν R : Type) :=
  Prog (DeviceOp σ β κ τ ν R) DeviceOp.Ans ClientError

namespace Device

variable {σ β κ τ ν R α : Type}

-- An error of the store passes through, with what the port puts before its text.
def orOther (label : String) : Except String α → Device σ β κ τ ν R α
  | .ok a    => .pure a
  | .error e => .throw (.other (label ++ e))

def nowSec : Device σ β κ τ ν R ν :=
  .call .nowSec .pure

def readStore (label : String) : Device σ β κ τ ν R (StoredTokenState τ ν) :=
  .call .readStore (orOther label)

def writeStore (label : String) (state : StoredTokenState τ ν) : Device σ β κ τ ν R Unit :=
  .call (.writeStore state) (orOther label)

def recordJtiUse (label : String) (jti : σ) (expSec : ν) : Device σ β κ τ ν R Bool :=
  .call (.recordJtiUse jti expSec) (orOther label)

def probeHealth : Device σ β κ τ ν R Bool :=
  .call .probeHealth .pure

-- The answer of the issuer, be it an error.
def postRefresh (token : σ) : Device σ β κ τ ν R (Except ClientError R) :=
  .call (.postRefresh token) .pure

-- The verification of a token, whose errors are translated.
def verifying (translate : Error → ClientError) (p : Verification σ β κ α) :
    Device σ β κ τ ν R α :=
  (p.translate fun op => .call (.backend op) .pure : Prog (DeviceOp σ β κ τ ν R) DeviceOp.Ans _ α).handle
    fun
    | .ok a    => .pure a
    | .error e => .throw (translate e)

end Device

-- What surrounds a device during one call.
structure Surroundings (σ β κ ν R : Type) where
  importPublic : β → KeyRecord σ → Except Error κ
  verify       : β → κ → List UInt8 → List UInt8 → Except Error Bool
  nowSec       : ν
  readFault    : Option String := none
  writeFault   : Option String := none
  ledgerFault  : Option String := none
  postRefresh  : σ → Except ClientError R
  healthy      : Bool

-- Backends that accept everything, without the issuer.
def acceptAll {σ ν R : Type} (nowSec : ν) : Surroundings σ Unit Unit ν R where
  importPublic _ _ := .ok ()
  verify _ _ _ _   := .ok true
  nowSec           := nowSec
  postRefresh _    := .error (.other "")
  healthy          := false

-- The store of a device, and the ledger of the tokens that it has used.
structure DeviceState (σ τ ν : Type) where
  stored  : StoredTokenState τ ν
  entries : List (σ × ν)

def Surroundings.backend {σ β κ ν R : Type} (w : Surroundings σ β κ ν R) :
    (op : BackendOp σ β κ) → op.Ans
  | .importPublic b record       => w.importPublic b record
  | .verify b key data signature => w.verify b key data signature

def DeviceOp.exec {σ β κ τ ν R : Type} [DecidableEq σ] (w : Surroundings σ β κ ν R) :
    (op : DeviceOp σ β κ τ ν R) → DeviceState σ τ ν → op.Ans × DeviceState σ τ ν
  | .backend op, s              => (w.backend op, s)
  | .recordJtiUse jti expSec, s =>
    match w.ledgerFault with
    | some e => (.error e, s)
    | none   =>
      if jti ∈ s.entries.map Prod.fst then (.ok false, s)
      else (.ok true, { s with entries := s.entries ++ [(jti, expSec)] })
  | .nowSec, s           => (w.nowSec, s)
  | .readStore, s        => (w.readFault.elim (.ok s.stored) .error, s)
  | .writeStore state, s =>
    match w.writeFault with
    | some e => (.error e, s)
    | none   => (.ok (), { s with stored := state })
  | .postRefresh token, s => (w.postRefresh token, s)
  | .probeHealth, s       => (w.healthy, s)

namespace Device

variable {σ β κ τ ν R α α' : Type} [DecidableEq σ] {w : Surroundings σ β κ ν R}
  {s s' : DeviceState σ τ ν}

-- A call in surroundings that do not change meanwhile.
def call (w : Surroundings σ β κ ν R) (p : Device σ β κ τ ν R α) (s : DeviceState σ τ ν) :
    Except ClientError α × DeviceState σ τ ν :=
  p.eval DeviceOp.exec (fun _ => w) s

theorem call_ofExcept {x : Except ClientError α} :
    call w (.ofExcept x : Device σ β κ τ ν R α) s = (x, s) := by
  cases x <;> rfl

section Bind

variable {p : Device σ β κ τ ν R α} {f : α → Device σ β κ τ ν R α'}

theorem call_bind_ok {a : α} (h : call w p s = (.ok a, s')) :
    call w (p >>= f) s = call w (f a) s' := by
  rw [call, Prog.eval_bind, show p.eval DeviceOp.exec (fun _ => w) s = _ from h]
  rfl

theorem call_bind_error {e : ClientError} (h : call w p s = (.error e, s')) :
    call w (p >>= f) s = (.error e, s') := by
  rw [call, Prog.eval_bind, show p.eval DeviceOp.exec (fun _ => w) s = _ from h]

end Bind

theorem call_verifying {translate : Error → ClientError} {p : Verification σ β κ α} :
    call w (verifying translate p : Device σ β κ τ ν R α) s =
      ((p.run w.backend).mapError translate, s) := by
  have answered op s : (Prog.call (.backend op) .pure : Prog (DeviceOp σ β κ τ ν R) _ Error _).eval
      DeviceOp.exec (fun _ => w) s = (.ok (w.backend op), s) :=
    rfl
  rw [call, verifying, Prog.eval_handle, Prog.eval_translate w answered]
  cases p.run w.backend <;> rfl

def Yields (w : Surroundings σ β κ ν R) (p : Device σ β κ τ ν R α) (s : DeviceState σ τ ν) (a : α)
    (s' : DeviceState σ τ ν) : Prop :=
  call w p s = (.ok a, s')

theorem error_of_not_yields {p : Device σ β κ τ ν R α} (h : ∀ a s', ¬Yields w p s a s') :
    ∃ e, (call w p s).1 = .error e := by
  match hc : call w p s with
  | (.error e, _) => exact ⟨e, rfl⟩
  | (.ok a, s')   => exact (h a s' hc).elim

@[simp]
theorem yields_pure {a b : α} :
    Yields w (.pure a : Device σ β κ τ ν R α) s b s' ↔ a = b ∧ s = s' := by
  simp [Yields, call, Prog.eval]

@[simp]
theorem yields_throw {e : ClientError} {b : α} :
    Yields w (.throw e : Device σ β κ τ ν R α) s b s' ↔ False := by
  simp [Yields, call, Prog.eval]

@[simp]
theorem yields_ofExcept {x : Except ClientError α} {b : α} :
    Yields w (.ofExcept x : Device σ β κ τ ν R α) s b s' ↔ x = .ok b ∧ s = s' := by
  cases x <;> simp

theorem yields_bind {p : Device σ β κ τ ν R α} {f : α → Device σ β κ τ ν R α'} {b : α'} :
    Yields w (p >>= f) s b s' ↔ ∃ a s₁, Yields w p s a s₁ ∧ Yields w (f a) s₁ b s' := by
  rw [Yields, call, Prog.eval_bind]
  match he : p.eval DeviceOp.exec (fun _ => w) s with
  | (.ok a, s₁)    => simp [Yields, call, he]
  | (.error e, s₁) => simp [Yields, call, he]

@[simp]
theorem yields_nowSec {now : ν} :
    Yields w (nowSec : Device σ β κ τ ν R ν) s now s' ↔ w.nowSec = now ∧ s = s' := by
  simp [Yields, call, nowSec, Prog.eval, DeviceOp.exec]

@[simp]
theorem yields_probeHealth {healthy : Bool} :
    Yields w (probeHealth : Device σ β κ τ ν R Bool) s healthy s' ↔ w.healthy = healthy ∧ s = s' := by
  simp [Yields, call, probeHealth, Prog.eval, DeviceOp.exec]

@[simp]
theorem yields_postRefresh {token : σ} {x : Except ClientError R} :
    Yields w (postRefresh token : Device σ β κ τ ν R _) s x s' ↔ w.postRefresh token = x ∧ s = s' := by
  simp [Yields, call, postRefresh, Prog.eval, DeviceOp.exec]

@[simp]
theorem yields_readStore {label : String} {state : StoredTokenState τ ν} :
    Yields w (readStore label : Device σ β κ τ ν R _) s state s' ↔
      w.readFault = none ∧ s.stored = state ∧ s = s' := by
  cases h : w.readFault <;> simp [Yields, call, readStore, orOther, Prog.eval, DeviceOp.exec, h]

@[simp]
theorem yields_writeStore {label : String} {state : StoredTokenState τ ν} {u : Unit} :
    Yields w (writeStore label state : Device σ β κ τ ν R _) s u s' ↔
      w.writeFault = none ∧ { s with stored := state } = s' := by
  cases h : w.writeFault <;> simp [Yields, call, writeStore, orOther, Prog.eval, DeviceOp.exec, h]

@[simp]
theorem yields_verifying {translate : Error → ClientError} {p : Verification σ β κ α} {a : α} :
    Yields w (verifying translate p : Device σ β κ τ ν R α) s a s' ↔
      p.run w.backend = .ok a ∧ s = s' := by
  rw [Yields, call_verifying]
  cases p.run w.backend <;> simp [Except.mapError]

end Device

end Licensing
