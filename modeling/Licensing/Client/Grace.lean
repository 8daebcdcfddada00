import Licensing.Client.Claims
import Licensing.Client.Easy

-- The window of grace: a device may enter it, but what it validates is refused all the same.

namespace Licensing

open Device JsonText

namespace Go

variable {β κ : Type} {alg : β → GoString} {w : Surroundings GoString β κ Int64 GoString}
  {s s' : DeviceState GoString GoString Int64} {out : RefreshOutcome GoString Int64}

theorem handleUnreachable_grace {o : RefreshOptions} {state : TokenState} {forced : Bool}
    (h : Yields w (handleUnreachable o state forced) s out s') (hg : out.kind.IsGrace)
    (hs : s.stored = state) : forced ∧ s'.stored.token = state.token ∧ s'.stored.graceStartSec.isSome := by
  unfold handleUnreachable at h
  split at h
  case isTrue =>
    obtain ⟨rfl, rfl⟩ := yields_pure.mp h
    simp [RefreshKind.IsGrace] at hg
  case isFalse hf =>
    refine ⟨by simpa using hf, ?_⟩
    split at h
    case isTrue => simp at h
    case isFalse =>
      split at h
      case h_1 start hstart =>
        obtain ⟨rfl, rfl⟩ := yields_pure.mp h
        simp [hs, hstart]
      case h_2 =>
        obtain ⟨_, s₁, hw, h⟩ := yields_bind.mp h
        obtain ⟨rfl, rfl⟩ := yields_pure.mp h
        obtain ⟨_, rfl⟩ := yields_writeStore.mp hw
        simp

-- Grace is for a token past its deadline only, and it keeps that token.
theorem refresh_grace {o : RefreshOptions} (h : Yields w (refresh o) s out s') (hg : out.kind.IsGrace) :
    s'.stored.token = s.stored.token ∧ s'.stored.graceStartSec.isSome ∧
      ∃ peeked, peek s.stored.token = .ok peeked ∧ o.forced peeked := by
  obtain ⟨state, s₁, hr, h⟩ := yields_bind.mp h
  obtain ⟨_, rfl, rfl⟩ := yields_readStore.mp hr
  split at h
  case isTrue => simp at h
  case isFalse =>
    obtain ⟨peeked, s₁, hx, h⟩ := yields_bind.mp h
    obtain ⟨hp, rfl⟩ := yields_ofExcept.mp hx
    split at h
    case isTrue => simp at h
    case isFalse =>
      dsimp only at h
      split at h
      case isTrue =>
        obtain ⟨rfl, rfl⟩ := yields_pure.mp h
        simp [RefreshKind.IsGrace] at hg
      case isFalse =>
        obtain ⟨answer, s₁, ha, h⟩ := yields_bind.mp h
        obtain ⟨_, rfl⟩ := yields_postRefresh.mp ha
        split at h
        case h_1 e =>
          split at h
          case isTrue =>
            obtain ⟨hf, ht, hs⟩ := handleUnreachable_grace h hg rfl
            exact ⟨ht, hs, peeked, hp, hf⟩
          case isFalse => simp at h
        case h_2 token =>
          obtain ⟨_, s₁, _, h⟩ := yields_bind.mp h
          obtain ⟨rfl, rfl⟩ := yields_pure.mp h
          simp [RefreshKind.IsGrace] at hg

theorem client_refresh_grace {c : Client alg} (h : Yields w c.refresh s out s')
    (hg : out.kind.IsGrace) :
    s'.stored.token = s.stored.token ∧ s'.stored.graceStartSec.isSome ∧
      ∃ peeked, peek s.stored.token = .ok peeked ∧
        peeked.forceOnlineAfter.any (· ≤ w.nowSec) := by
  obtain ⟨preState, s₁, hr, h⟩ := yields_bind.mp h
  obtain ⟨_, rfl, rfl⟩ := yields_readStore.mp hr
  obtain ⟨now, s₁, hn, h⟩ := yields_bind.mp h
  obtain ⟨rfl, rfl⟩ := yields_nowSec.mp hn
  obtain ⟨out', s₁, ho, h⟩ := yields_bind.mp h
  have kept (he : out' = out ∧ s₁ = s') : s'.stored.token = s.stored.token ∧
      s'.stored.graceStartSec.isSome ∧ ∃ peeked, peek s.stored.token = .ok peeked ∧
        peeked.forceOnlineAfter.any (· ≤ w.nowSec) := by
    obtain ⟨rfl, rfl⟩ := he
    exact refresh_grace ho hg
  split at h
  case isTrue => exact kept (yields_pure.mp h)
  case isFalse =>
    obtain ⟨healthy, s₂, hh, h⟩ := yields_bind.mp h
    obtain ⟨_, rfl⟩ := yields_probeHealth.mp hh
    split at h
    case isTrue => exact kept (yields_pure.mp h)
    case isFalse =>
      split at h <;> simp [yields_bind] at h

theorem peek_of_decodeEnvelope {token : GoString} {parts : DecodedEnvelope GoString Map}
    (h : decodeEnvelope token = .ok parts) : ∃ peeked, peek token = .ok peeked ∧
      peeked.forceOnlineAfter = claimOptInt64 parts.payload "force_online_after" :=
  ⟨_, by rw [peek, h], rfl⟩

-- A token past its deadline is not validated.
theorem not_yields_validate {token : GoString} (opts : ValidateOptions alg)
    {peeked : PeekResult GoString Int64} (hp : peek token = .ok peeked)
    (hf : peeked.forceOnlineAfter.any (· ≤ opts.nowSec)) {result} :
    ¬Yields w (validate token opts) s result s' := by
  intro h
  obtain ⟨parts, s₁, hv, h⟩ := yields_bind.mp h
  obtain ⟨hd, rfl⟩ := yields_verifying.mp hv
  obtain ⟨claims, s₁, hx, h⟩ := yields_bind.mp h
  obtain ⟨hc, rfl⟩ := yields_ofExcept.mp hx
  obtain ⟨_, s₁, hx, _⟩ := yields_bind.mp h
  obtain ⟨hk, _⟩ := yields_ofExcept.mp hx
  have hdec : decodeEnvelope token = .ok parts := Port.decodeEnvelope_of_run hd
  rw [peek, hdec] at hp
  cases hp
  rw [(assertClaimShape_eq_ok_iff.mp hc).forceOnlineAfter, Option.any_eq_true] at hf
  obtain ⟨deadline, hm, hle⟩ := hf
  have hlt := (checkClaims_eq_ok_iff.mp hk).online deadline hm
  exact Int64.lt_irrefl (Int64.lt_of_lt_of_le hlt (of_decide_eq_true hle))

theorem guard_error_of_grace {c : Client alg} (h : Yields w c.refresh s out s')
    (hg : out.kind.IsGrace) (fingerprint : GoString) :
    ∃ e, (call w (c.guard fingerprint) s).1 = .error e := by
  obtain ⟨ht, _, peeked, hp, hf⟩ := client_refresh_grace h hg
  refine error_of_not_yields fun handle s'' hy => ?_
  obtain ⟨verify, s₁, hx, hy⟩ := yields_bind.mp hy
  obtain ⟨_, rfl⟩ := yields_ofExcept.mp hx
  obtain ⟨state, s₁, hx, hy⟩ := yields_bind.mp hy
  obtain ⟨_, rfl, rfl⟩ := yields_readStore.mp hx
  split at hy
  case isTrue => simp at hy
  case isFalse =>
    obtain ⟨out', s₁, hr, hy⟩ := yields_bind.mp hy
    cases h.symm.trans hr
    obtain ⟨fresh, s₁, hx, hy⟩ := yields_bind.mp hy
    obtain ⟨_, rfl, rfl⟩ := yields_readStore.mp hx
    split at hy
    case isTrue => simp at hy
    case isFalse =>
      obtain ⟨now, s₁, hx, hy⟩ := yields_bind.mp hy
      obtain ⟨rfl, rfl⟩ := yields_nowSec.mp hx
      obtain ⟨result, s₁, hv, _⟩ := yields_bind.mp hy
      rw [ht] at hv
      exact not_yields_validate (Client.validateOptions verify fingerprint w.nowSec) hp hf hv

end Go

namespace Ts

variable {β κ : Type} {alg : β → JsString} {w : Surroundings JsString β κ Binary64 Value}
  {s s' : DeviceState JsString (Option JsString) Binary64} {out : RefreshOutcome JsString Binary64}

theorem handleUnreachable_grace {o : RefreshOptions} {token : JsString} {start : Option Binary64}
    {forced : Bool} (h : Yields w (handleUnreachable o token start forced) s out s')
    (hg : out.kind.IsGrace) (ht : s.stored.token = some token) :
    forced ∧ s'.stored.token = some token := by
  unfold handleUnreachable at h
  split at h
  case isTrue =>
    obtain ⟨rfl, rfl⟩ := yields_pure.mp h
    simp [RefreshKind.IsGrace] at hg
  case isFalse hf =>
    refine ⟨by simpa using hf, ?_⟩
    split at h
    case isTrue => simp at h
    case isFalse =>
      split at h
      case h_1 start =>
        split at h
        case isTrue => simp at h
        case isFalse =>
          obtain ⟨rfl, rfl⟩ := yields_pure.mp h
          exact ht
      case h_2 =>
        obtain ⟨_, s₁, hw, h⟩ := yields_bind.mp h
        obtain ⟨rfl, rfl⟩ := yields_pure.mp h
        obtain ⟨_, rfl⟩ := yields_writeStore.mp hw
        rfl

theorem refresh_grace {o : RefreshOptions} (h : Yields w (refresh o) s out s') (hg : out.kind.IsGrace) :
    ∃ token metadata, s.stored.token = some token ∧ s'.stored.token = some token ∧
      peek token = .ok metadata ∧ o.forced metadata := by
  obtain ⟨state, s₁, hr, h⟩ := yields_bind.mp h
  obtain ⟨_, rfl, rfl⟩ := yields_readStore.mp hr
  split at h
  case h_1 => simp at h
  case h_2 token ht =>
    obtain ⟨metadata, s₁, hx, h⟩ := yields_bind.mp h
    obtain ⟨hp, rfl⟩ := yields_ofExcept.mp hx
    split at h
    case isTrue => simp at h
    case isFalse =>
      dsimp only at h
      split at h
      case isTrue =>
        obtain ⟨rfl, rfl⟩ := yields_pure.mp h
        simp [RefreshKind.IsGrace] at hg
      case isFalse =>
        obtain ⟨answer, s₁, ha, h⟩ := yields_bind.mp h
        obtain ⟨_, rfl⟩ := yields_postRefresh.mp ha
        split at h
        case h_1 e =>
          split at h
          case isTrue =>
            obtain ⟨hf, ht'⟩ := handleUnreachable_grace h hg ht
            exact ⟨token, metadata, ht, ht', hp, hf⟩
          case isFalse => simp at h
        case h_2 data =>
          obtain ⟨_, s₁, _, h⟩ := yields_bind.mp h
          obtain ⟨_, s₁, _, h⟩ := yields_bind.mp h
          obtain ⟨rfl, rfl⟩ := yields_pure.mp h
          simp [RefreshKind.IsGrace] at hg

theorem not_yields_validate {token : JsString} (opts : ValidateOptions alg)
    {metadata : PeekResult JsString Binary64} (hp : peek token = .ok metadata)
    (hf : metadata.forceOnlineAfter.any fun deadline => deadline.le opts.nowSec) {result} :
    ¬Yields w (validate token opts) s result s' := by
  intro h
  obtain ⟨parts, s₁, hv, h⟩ := yields_bind.mp h
  obtain ⟨hd, rfl⟩ := yields_verifying.mp hv
  obtain ⟨claims, s₁, hx, h⟩ := yields_bind.mp h
  obtain ⟨hc, rfl⟩ := yields_ofExcept.mp hx
  obtain ⟨_, s₁, hx, _⟩ := yields_bind.mp h
  obtain ⟨hk, _⟩ := yields_ofExcept.mp hx
  have hdec : decodeUnverified token = .ok parts := Port.decodeEnvelope_of_run hd
  rw [peek, hdec] at hp
  simp only [hc] at hp
  cases hp
  rw [Option.any_eq_true] at hf
  obtain ⟨deadline, hm, hle⟩ := hf
  exact not_le_of_checkClaims hk deadline hm hle

theorem guard_error_of_grace {c : Client alg}
    (h : Yields w (refresh { nowSec := w.nowSec, graceWindowSec := some c.gracePeriod }) s out s')
    (hg : out.kind.IsGrace) (fingerprint : JsString) :
    ∃ e, (call w (c.guard fingerprint) s).1 = .error e := by
  obtain ⟨token, metadata, _, ht, hp, hf⟩ := refresh_grace h hg
  refine error_of_not_yields fun handle s'' hy => ?_
  obtain ⟨verify, s₁, hx, hy⟩ := yields_bind.mp hy
  obtain ⟨_, rfl⟩ := yields_ofExcept.mp hx
  obtain ⟨state, s₁, hx, hy⟩ := yields_bind.mp hy
  obtain ⟨_, rfl, rfl⟩ := yields_readStore.mp hx
  split at hy
  case isTrue => simp at hy
  case isFalse =>
    obtain ⟨now, s₁, hx, hy⟩ := yields_bind.mp hy
    obtain ⟨rfl, rfl⟩ := yields_nowSec.mp hx
    obtain ⟨out', s₁, hr, hy⟩ := yields_bind.mp hy
    cases h.symm.trans hr
    obtain ⟨fresh, s₁, hx, hy⟩ := yields_bind.mp hy
    obtain ⟨_, rfl, rfl⟩ := yields_readStore.mp hx
    split at hy
    case h_1 => simp at hy
    case h_2 token' ht' =>
      cases ht.symm.trans ht'
      obtain ⟨now, s₁, hx, hy⟩ := yields_bind.mp hy
      obtain ⟨rfl, rfl⟩ := yields_nowSec.mp hx
      obtain ⟨result, s₁, hv, _⟩ := yields_bind.mp hy
      exact not_yields_validate (Client.validateOptions verify fingerprint w.nowSec) hp hf hv

end Ts

-- In grace no device is let in, whatever its token says.
theorem guard_error_in_grace {β κ β' κ' : Type} {alg : β → Go.GoString} {alg' : β' → Ts.JsString}
    (goClient : Go.Client alg) (tsClient : Ts.Client alg')
    (goW : Surroundings Go.GoString β κ Int64 Go.GoString)
    (tsW : Surroundings Ts.JsString β' κ' Binary64 Ts.Value) :
    (∀ s out s' fingerprint, Yields goW goClient.refresh s out s' → out.kind.IsGrace →
        ∃ e, (call goW (goClient.guard fingerprint) s).1 = .error e) ∧
      ∀ s out s' fingerprint,
        Yields tsW (Ts.refresh { nowSec := tsW.nowSec, graceWindowSec := some tsClient.gracePeriod })
          s out s' → out.kind.IsGrace →
        ∃ e, (call tsW (tsClient.guard fingerprint) s).1 = .error e :=
  ⟨fun _ _ _ fingerprint h hg => Go.guard_error_of_grace h hg fingerprint,
    fun _ _ _ fingerprint h hg => Ts.guard_error_of_grace h hg fingerprint⟩

-- A token whose deadline is the epoch.
def overdueClaims : ClaimValues where
  jti              := "j1"
  iat              := 0
  nbf              := 0
  exp              := 10
  scope            := ""
  licenseID        := "l1"
  usageID          := "u1"
  usageFingerprint := "f1"
  status           := "active"
  maxUsages        := 1
  forceOnlineAfter := some (.int 0)

theorem valid_overdueClaims : overdueClaims.Valid := by
  constructor
  case forceOnlineAfter =>
    rintro d ⟨⟩
    exact ⟨trivial, show (0 : Int).natAbs < 2 ^ 53 by decide⟩
  case entitlements | additional => rintro d ⟨⟩
  all_goals decide

namespace Go

-- What is asked of a token, but for its deadline.
def OtherwiseValid {β κ : Type} {alg : β → GoString} (w : Surroundings GoString β κ Int64 GoString)
    (o : ValidateOptions alg) (token : GoString) : Prop :=
  ∃ parts claims, (verifyEnvelope o.verify token).run w.backend = .ok parts ∧
    Claimed parts.payload claims ∧ o.Admits { claims with forceOnlineAfter := none }

-- At the epoch, without the issuer.
def offline : Surroundings GoString Unit Unit Int64 GoString where
  importPublic _ _ := .ok ()
  verify _ _ _ _   := .ok true
  nowSec           := 0
  postRefresh _    := .error (.client .issuerUnreachable "issuer unreachable")
  healthy          := false

def sampleConfig : ClientVerifyConfig fun _ : Unit => Bytes.ofString "ed25519" where
  verify := singleKey _ (Bytes.ofString "k1")

def sampleClient : Client fun _ : Unit => Bytes.ofString "ed25519" where
  verify := some sampleConfig

theorem yields_refresh_graceEntered {β κ : Type} {w : Surroundings GoString β κ Int64 GoString}
    {token : GoString} {entries : List (GoString × Int64)} {o : RefreshOptions}
    {peeked : PeekResult GoString Int64} {message : String} (ht : token ≠ [])
    (hp : peek token = .ok peeked) (hf : o.forced peeked) (hw : o.graceWindow ≠ 0)
    (hu : w.postRefresh token = .error (.client .issuerUnreachable message))
    (hr : w.readFault = none) (hx : w.writeFault = none) :
    Yields w (Go.refresh o) ⟨⟨token, none⟩, entries⟩ ⟨.graceEntered, token, some o.nowSec⟩
      ⟨⟨token, some o.nowSec⟩, entries⟩ := by
  refine yields_bind.mpr ⟨_, _, yields_readStore.mpr ⟨hr, rfl, rfl⟩, ?_⟩
  rw [if_neg ht]
  refine yields_bind.mpr ⟨_, _, yields_ofExcept.mpr ⟨hp, rfl⟩, ?_⟩
  rw [if_neg (by simp)]
  dsimp only
  rw [if_neg (fun hn => hn.1 hf)]
  refine yields_bind.mpr ⟨_, _, yields_postRefresh.mpr ⟨hu, rfl⟩, ?_⟩
  simp [issuerUnreachable?, handleUnreachable, hf, hw, yields_bind, hx]

theorem yields_refresh_offline {token : GoString} {peeked : PeekResult GoString Int64}
    (ht : token ≠ []) (hp : peek token = .ok peeked) (hf : peeked.forceOnlineAfter = some 0) :
    Yields offline sampleClient.refresh ⟨⟨token, none⟩, []⟩ ⟨.graceEntered, token, some 0⟩
      ⟨⟨token, some 0⟩, []⟩ := by
  have hr : Yields offline (Go.refresh { nowSec := 0, graceWindowSec := some 604800 })
      ⟨⟨token, none⟩, []⟩ ⟨.graceEntered, token, some 0⟩ ⟨⟨token, some 0⟩, []⟩ :=
    yields_refresh_graceEntered ht hp (by simp [RefreshOptions.forced, hf])
      (by simp [RefreshOptions.graceWindow]) rfl rfl rfl
  refine yields_bind.mpr ⟨_, _, yields_readStore.mpr ⟨rfl, rfl, rfl⟩, ?_⟩
  refine yields_bind.mpr ⟨_, _, yields_nowSec.mpr ⟨rfl, rfl⟩, ?_⟩
  refine yields_bind.mpr ⟨_, _, hr, ?_⟩
  rw [if_neg (by simp [RefreshKind.IsGrace])]
  refine yields_bind.mpr ⟨_, _, yields_probeHealth.mpr ⟨rfl, rfl⟩, ?_⟩
  rw [if_pos (by simp [offline])]
  exact yields_pure.mpr ⟨rfl, rfl⟩

theorem otherwiseValid_of_claimed {token : GoString} {parts : DecodedEnvelope GoString Map}
    (hd : decodeEnvelope token = .ok parts)
    (hh : parts.header = ⟨Bytes.ofString "ed25519", Bytes.ofString "k1"⟩)
    (hc : Claimed parts.payload (claims overdueClaims)) :
    OtherwiseValid offline (Client.validateOptions sampleConfig (Bytes.ofString "f1") offline.nowSec) token :=
  ⟨parts, _, Port.run_verifyEnvelope_singleKey hd hh (fun _ => rfl) (fun _ _ => rfl), hc, {
    nbf         := by decide
    exp         := by decide
    status      := .inl rfl
    online      := nofun
    fingerprint := rfl
    audience    := nofun
    issuer      := nofun }⟩

end Go

-- The client of the Go port, on a device without the issuer.
theorem not_guard_in_grace :
    ¬∀ (w : Surroundings Go.GoString Unit Unit Int64 Go.GoString)
        (client : Go.Client fun _ : Unit => Bytes.ofString "ed25519") config s out s' fingerprint,
      client.verify = some config → Yields w client.refresh s out s' → out.kind.IsGrace →
      Go.OtherwiseValid w (Go.Client.validateOptions config fingerprint w.nowSec) s.stored.token →
      ∃ handle s'', Yields w (client.guard fingerprint) s handle s'' ∧ handle.isInGrace := by
  intro h
  obtain ⟨parts, hd, hh, hc⟩ := Go.decodeEnvelope_sampleClaims valid_overdueClaims rfl
  generalize Bytes.ofString (sampleToken overdueClaims.data) = token at hd
  obtain ⟨peeked, hp, hf⟩ := Go.peek_of_decodeEnvelope hd
  have hn : token ≠ [] := by
    rintro rfl
    contradiction
  have hr := Go.yields_refresh_offline hn hp (hf.trans hc.forceOnlineAfter)
  have hg : RefreshKind.graceEntered.IsGrace := .inl rfl
  obtain ⟨handle, s'', hy, _⟩ := h _ _ Go.sampleConfig _ _ _ (Bytes.ofString "f1") rfl hr hg
    (Go.otherwiseValid_of_claimed hd hh hc)
  obtain ⟨e, he⟩ := Go.guard_error_of_grace hr hg (Bytes.ofString "f1")
  exact absurd ((congrArg Prod.fst hy).symm.trans he) (by simp)

end Licensing
