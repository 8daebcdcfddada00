import Licensing.Client.Claims
import Licensing.Library.Ledger

-- Validations that share a ledger of the tokens that were used.

namespace Licensing

open Device

section Spend

variable {σ β κ τ ν R A C α : Type}

-- The token that a validation asks the ledger for, if everything else about it is in order, and
-- when its entry may be pruned.
def spend? (w : Surroundings σ β κ ν R) (verification : Verification σ β κ A)
    (shape : A → Except ClientError C) (check : C → Except ClientError Unit) (use : C → σ × ν) :
    Option (σ × ν) := do
  let parts  ← (verification.run w.backend).toOption
  let claims ← (shape parts).toOption
  let _      ← (check claims).toOption
  if w.ledgerFault = none then some (use claims) else none

variable {w : Surroundings σ β κ ν R}

theorem spend?_eq_some_iff {verification : Verification σ β κ A} {shape : A → Except ClientError C}
    {check : C → Except ClientError Unit} {use : C → σ × ν} {jti : σ} {expSec : ν} :
    spend? w verification shape check use = some (jti, expSec) ↔
      ∃ parts claims, verification.run w.backend = .ok parts ∧ shape parts = .ok claims ∧
        check claims = .ok () ∧ w.ledgerFault = none ∧ use claims = (jti, expSec) := by
  have toOption {ε α : Type} {x : Except ε α} {a : α} : x.toOption = some a ↔ x = .ok a := by
    cases x <;> simp [Except.toOption]
  simp only [spend?, Option.bind_eq_bind, Option.bind_eq_some_iff, toOption,
    Option.ite_none_right_eq_some, Option.some.injEq]
  exact ⟨fun ⟨parts, hv, claims, hs, _, hc, hf, hu⟩ => ⟨parts, claims, hv, hs, hc, hf, hu⟩,
    fun ⟨parts, claims, hv, hs, hc, hf, hu⟩ => ⟨parts, hv, claims, hs, (), hc, hf, hu⟩⟩

variable [DecidableEq σ] {s : DeviceState σ τ ν}

-- Prunes the entries that have expired, and counts them.
def DeviceState.pruneExpired (expired : ν → ν → Bool) (nowSec : ν) (s : DeviceState σ τ ν) :
    Nat × DeviceState σ τ ν :=
  (s.entries.countP fun entry => expired entry.2 nowSec,
    { s with entries := Ledger.prune expired nowSec s.entries })

-- The validation of a port, with a ledger.
def ledgered (translate : Error → ClientError) (verification : Verification σ β κ A)
    (shape : A → Except ClientError C) (check : C → Except ClientError Unit) (use : C → σ × ν)
    (label : String) (result : A → C → α) (replayed : C → ClientError) : Device σ β κ τ ν R α := do
  let parts  ← verifying translate verification
  let claims ← .ofExcept (shape parts)
  let _      ← .ofExcept (check claims)
  let firstUse ← recordJtiUse label (use claims).1 (use claims).2
  if firstUse then return result parts claims else .throw (replayed claims)

variable {translate : Error → ClientError} {verification : Verification σ β κ A}
  {shape : A → Except ClientError C} {check : C → Except ClientError Unit} {use : C → σ × ν}
  {label : String} {result : A → C → α} {replayed : C → ClientError}

theorem call_ledgered_of_none (h : spend? w verification shape check use = none) :
    ∃ e, call w (ledgered translate verification shape check use label result replayed) s =
      (.error e, s) := by
  unfold ledgered
  cases hv : verification.run w.backend with
  | error e => exact ⟨_, call_bind_error (by rw [call_verifying, hv]; rfl)⟩
  | ok parts =>
    rw [call_bind_ok (by rw [call_verifying, hv]; rfl)]
    cases hs : shape parts with
    | error e => exact ⟨_, call_bind_error (by rw [call_ofExcept])⟩
    | ok claims =>
      rw [call_bind_ok call_ofExcept]
      cases hc : check claims with
      | error e => exact ⟨_, call_bind_error (by rw [call_ofExcept])⟩
      | ok _ =>
        rw [call_bind_ok call_ofExcept]
        cases hf : w.ledgerFault with
        | none   => simp [spend?, hv, hs, hc, hf, Except.toOption] at h
        | some e =>
          refine ⟨.other (label ++ e), call_bind_error ?_⟩
          simp [call, recordJtiUse, Prog.eval, DeviceOp.exec, hf, orOther]

theorem call_ledgered_of_some {jti : σ} {expSec : ν}
    (h : spend? w verification shape check use = some (jti, expSec)) :
    ∃ x, call w (ledgered translate verification shape check use label result replayed) s =
      (x, { s with entries := (Ledger.record jti expSec s.entries).2 }) ∧
        (x.isOk ↔ (Ledger.record jti expSec s.entries).1) := by
  obtain ⟨parts, claims, hv, hs, hc, hf, hu⟩ := spend?_eq_some_iff.mp h
  unfold ledgered
  rw [call_bind_ok (by rw [call_verifying, hv]; rfl), call_bind_ok (by rw [call_ofExcept, hs]),
    call_bind_ok (by rw [call_ofExcept, hc]), hu]
  have hr : call w (recordJtiUse label jti expSec : Device σ β κ τ ν R Bool) s =
      (.ok (Ledger.record jti expSec s.entries).1,
        { s with entries := (Ledger.record jti expSec s.entries).2 }) := by
    by_cases hm : jti ∈ s.entries.map Prod.fst <;>
      simp [call, recordJtiUse, Prog.eval, DeviceOp.exec, hf, orOther, Ledger.record, hm]
  rw [call_bind_ok hr]
  split
  case isTrue h  => exact ⟨.ok (result parts claims), rfl, iff_of_true rfl h⟩
  case isFalse h => exact ⟨.error (replayed claims), rfl, iff_of_false Bool.false_ne_true h⟩

end Spend

inductive LedgerCall (V ν : Type)
  | validate (v : V)
  | pruneExpired (nowSec : ν)

-- How a port validates with a ledger: what a validation asks the ledger for, and when an entry has
-- expired.
structure LedgerPort (V σ τ ν R : Type) where
  validate : V → DeviceState σ τ ν → Except ClientError R × DeviceState σ τ ν
  spends   : V → Option (σ × ν)
  expired  : ν → ν → Bool
  nowSec   : V → ν

-- The device after some calls, and the tokens that were accepted.
structure LedgerRun (σ τ ν : Type) where
  device   : DeviceState σ τ ν
  accepted : List σ := []

namespace LedgerPort

variable {V σ τ ν R : Type} [DecidableEq σ]

structure Lawful (p : LedgerPort V σ τ ν R) : Prop where
  rejects : ∀ v s, p.spends v = none → ∃ e, p.validate v s = (.error e, s)
  records : ∀ v s jti expSec, p.spends v = some (jti, expSec) → ∃ x,
    p.validate v s = (x, { s with entries := (Ledger.record jti expSec s.entries).2 }) ∧
      (x.isOk ↔ (Ledger.record jti expSec s.entries).1)

variable (p : LedgerPort V σ τ ν R)

def instant : LedgerCall V ν → ν
  | .validate v          => p.nowSec v
  | .pruneExpired nowSec => nowSec

def step : LedgerCall V ν → LedgerRun σ τ ν → LedgerRun σ τ ν
  | .validate v, r =>
    let (result, device) := p.validate v r.device
    let accepted         := if result.isOk then ((p.spends v).map Prod.fst).toList else []
    { device, accepted := accepted ++ r.accepted }
  | .pruneExpired nowSec, r => { r with device := (r.device.pruneExpired p.expired nowSec).2 }

-- The last call comes first.
def run (stored : StoredTokenState τ ν) (calls : List (LedgerCall V ν)) : LedgerRun σ τ ν :=
  calls.foldr p.step { device := ⟨stored, []⟩ }

-- What a call asks the ledger for.
def requests (calls : List (LedgerCall V ν)) : List (Ledger.Request σ ν) :=
  calls.flatMap fun
    | .validate v          => (p.spends v).toList.map fun (jti, expSec) => .use jti expSec
    | .pruneExpired nowSec => [.prune nowSec]

variable {p}

theorem Lawful.run_eq (hp : p.Lawful) (stored : StoredTokenState τ ν)
    (calls : List (LedgerCall V ν)) :
    (p.run stored calls).device = ⟨stored, Ledger.entries p.expired (p.requests calls)⟩ ∧
      (p.run stored calls).accepted = Ledger.accepted p.expired (p.requests calls) := by
  induction calls with
  | nil => exact ⟨rfl, rfl⟩
  | cons c calls ih =>
    obtain ⟨hd, ha⟩ := ih
    unfold run at hd ha ⊢
    rw [requests, List.flatMap_cons, ← requests, List.foldr_cons]
    cases c with
    | pruneExpired nowSec =>
      rw [step, hd, ha]
      exact ⟨rfl, rfl⟩
    | validate v =>
      cases hs : p.spends v with
      | none =>
        obtain ⟨e, he⟩ := hp.rejects v ⟨stored, Ledger.entries p.expired (p.requests calls)⟩ hs
        simp [step, hd, ha, he, hs, Except.isOk, Except.toBool]
      | some use =>
        obtain ⟨x, hx, hok⟩ := hp.records v ⟨stored, Ledger.entries p.expired (p.requests calls)⟩ _ _ hs
        simp only [step, hd, ha, hx, hs, hok]
        refine ⟨rfl, ?_⟩
        simp only [Option.toList, List.map_cons, List.map_nil, List.singleton_append, Ledger.accepted]
        split <;> rfl

theorem Lawful.nodup_accepted_iff (hp : p.Lawful) (stored : StoredTokenState τ ν)
    (calls : List (LedgerCall V ν)) :
    (p.run stored calls).accepted.Nodup ↔ Ledger.Settled p.expired (p.requests calls) := by
  rw [(hp.run_eq stored calls).2, Ledger.nodup_accepted_iff]

end LedgerPort

namespace Go

-- A call of `Validate` with a ledger.
structure LedgerValidation {β : Type} (alg : β → GoString) (κ : Type) where
  surroundings : Surroundings GoString β κ Int64 GoString
  token        : GoString
  opts         : ValidateOptions alg
  ledger       : opts.jtiLedger

def ledgerPort {β : Type} (alg : β → GoString) (κ : Type) : LedgerPort (LedgerValidation alg κ) GoString
    GoString Int64 (ValidateResult GoString Int64 Map (Option (List GoString))) where
  validate v     := call v.surroundings (validate v.token v.opts)
  spends v       := spend? v.surroundings (verifyEnvelope v.opts.verify v.token)
    (fun parts => assertClaimShape parts.payload) (checkClaims v.opts)
    fun claims => (claims.jti, claims.exp + v.opts.skew)
  expired exp now := exp ≤ now
  nowSec v       := v.opts.nowSec

theorem validate_eq_ledgered {β κ : Type} {alg : β → GoString} {opts : ValidateOptions alg}
    (h : opts.jtiLedger) (token : GoString) : (validate token opts : Device β κ _) =
      ledgered translateVerifyError (verifyEnvelope opts.verify token)
        (fun parts => assertClaimShape parts.payload) (checkClaims opts)
        (fun claims => (claims.jti, claims.exp + opts.skew)) "jti ledger: "
        (fun parts claims => claims.result parts.header) fun claims => .client .tokenReplayed ("jti " ++
          GoString.toString claims.jti ++ " was previously recorded by this verifier") := by
  unfold validate ledgered
  simp only [h, not_true_eq_false, if_false]

theorem lawful_ledgerPort {β : Type} (alg : β → GoString) (κ : Type) : (ledgerPort alg κ).Lawful where
  rejects v s h := by
    change ∃ e, call _ (validate _ _) _ = _
    rw [validate_eq_ledgered v.ledger]
    exact call_ledgered_of_none h
  records v s jti expSec h := by
    change ∃ x, call _ (validate _ _) _ = _ ∧ _
    rw [validate_eq_ledgered v.ledger]
    exact call_ledgered_of_some h

end Go

namespace Ts

structure LedgerValidation {β : Type} (alg : β → JsString) (κ : Type) where
  surroundings : Surroundings JsString β κ Binary64 Value
  token        : JsString
  opts         : ValidateOptions alg
  ledger       : opts.jtiLedger

def ledgerPort {β : Type} (alg : β → JsString) (κ : Type) : LedgerPort (LedgerValidation alg κ) JsString
    (Option JsString) Binary64 (ValidateResult JsString Binary64 Value (Option Audience)) where
  validate v     := call v.surroundings (validate v.token v.opts)
  spends v       := spend? v.surroundings (verify v.opts.verify v.token)
    (fun parts => assertClaimShape parts.payload) (checkClaims v.opts)
    fun claims => (claims.jti, claims.exp.add v.opts.skew)
  expired exp now := exp.le now
  nowSec v       := v.opts.nowSec

theorem validate_eq_ledgered {β κ : Type} {alg : β → JsString} {opts : ValidateOptions alg}
    (h : opts.jtiLedger) (token : JsString) : (validate token opts : Device β κ _) =
      ledgered translateVerifyError (verify opts.verify token)
        (fun parts => assertClaimShape parts.payload) (checkClaims opts)
        (fun claims => (claims.jti, claims.exp.add opts.skew)) ""
        (fun parts claims => claims.result parts.header) fun claims => .client .tokenReplayed ("jti " ++
          JsString.toString claims.jti ++ " was previously recorded by this verifier") := by
  unfold validate ledgered
  simp only [h, not_true_eq_false, if_false]

theorem lawful_ledgerPort {β : Type} (alg : β → JsString) (κ : Type) : (ledgerPort alg κ).Lawful where
  rejects v s h := by
    change ∃ e, call _ (validate _ _) _ = _
    rw [validate_eq_ledgered v.ledger]
    exact call_ledgered_of_none h
  records v s jti expSec h := by
    change ∃ x, call _ (validate _ _) _ = _ ∧ _
    rw [validate_eq_ledgered v.ledger]
    exact call_ledgered_of_some h

end Ts

-- A token is validated at the end of its window, the ledger is pruned, and it is validated again.

namespace Go

def sampleValidation (token : GoString) :
    LedgerValidation (fun _ : Unit => Bytes.ofString "ed25519") Unit where
  surroundings := acceptAll 70
  token        := token
  opts         := {
    verify      := singleKey _ (Bytes.ofString "k1")
    jtiLedger   := true
    fingerprint := Bytes.ofString "f1"
    nowSec      := 70 }
  ledger       := rfl

theorem spends_sampleValidation {token : GoString} {parts : DecodedEnvelope GoString Map}
    (hd : decodeEnvelope token = .ok parts)
    (hh : parts.header = ⟨Bytes.ofString "ed25519", Bytes.ofString "k1"⟩)
    (hc : Claimed parts.payload (claims plainClaims)) :
    (ledgerPort _ _).spends (sampleValidation token) = some (Bytes.ofString "j1", 70) := by
  refine spend?_eq_some_iff.mpr ⟨parts, claims plainClaims, ?_, ?_, ?_, rfl, rfl⟩
  case refine_1 => exact Port.run_verifyEnvelope_singleKey hd hh (fun _ => rfl) fun _ _ => rfl
  case refine_2 => exact assertClaimShape_eq_ok_iff.mpr hc
  case refine_3 => exact checkClaims_eq_ok_iff.mpr {
    nbf         := show (0 : Int64) ≤ 70 + 60 by decide
    exp         := show (70 : Int64) ≤ 10 + 60 by decide
    status      := .inl rfl
    online      := nofun
    fingerprint := rfl
    audience    := nofun
    issuer      := nofun }

end Go

-- In a run of either port no token is accepted twice if and only if, at every validation that is in
-- order but for the ledger, the ledger has not been pruned past the expiry that came with the first
-- such validation of the token.
theorem accepted_once_iff {β β' : Type} (alg : β → Go.GoString) (alg' : β' → Ts.JsString)
    (κ κ' : Type) :
    (∀ stored calls, ((Go.ledgerPort alg κ).run stored calls).accepted.Nodup ↔
        Ledger.Settled (fun exp now => decide (exp ≤ now)) ((Go.ledgerPort alg κ).requests calls)) ∧
      ∀ stored calls, ((Ts.ledgerPort alg' κ').run stored calls).accepted.Nodup ↔
        Ledger.Settled Binary64.le ((Ts.ledgerPort alg' κ').requests calls) :=
  ⟨(Go.lawful_ledgerPort alg κ).nodup_accepted_iff, (Ts.lawful_ledgerPort alg' κ').nodup_accepted_iff⟩

theorem not_accepted_once :
    ¬∀ stored (calls : List (LedgerCall
        (Go.LedgerValidation (fun _ : Unit => Bytes.ofString "ed25519") Unit) Int64)),
      calls.Pairwise (fun c c' => (Go.ledgerPort _ _).instant c' ≤ (Go.ledgerPort _ _).instant c) →
        ((Go.ledgerPort _ _).run stored calls).accepted.Nodup := by
  intro h
  obtain ⟨parts, hd, hh, hc⟩ := Go.decodeEnvelope_sampleClaims valid_plainClaims rfl
  generalize Bytes.ofString (sampleToken plainClaims.data) = token at hd
  let v := Go.sampleValidation token
  have hs := Go.spends_sampleValidation hd hh hc
  have hn := h ⟨[], none⟩ [.validate v, .pruneExpired 70, .validate v] (by
    refine .cons ?_ (.cons ?_ (.cons ?_ .nil))
    all_goals simp [LedgerPort.instant, Go.ledgerPort, v, Go.sampleValidation])
  rw [(Go.lawful_ledgerPort _ _).nodup_accepted_iff] at hn
  simp only [LedgerPort.requests, List.flatMap_cons, v, hs] at hn
  refine hn.1 (.inr ⟨70, ?_, ?_⟩)
  case refine_1 => simp [Ledger.expiry?]
  case refine_2 => decide

end Licensing
