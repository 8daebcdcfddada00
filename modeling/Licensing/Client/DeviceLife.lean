import Licensing.Client.Agreement
import Licensing.Client.Grace
import Licensing.Client.GraceWindow

-- The calls of a device over its life, and the window of grace that they share.

namespace Licensing

open Prog Windows

-- An answer that has no grace to tell of.
def callAnswer {ν α : Type} : Except ClientError α → Answer ν
  | .ok _    => .other
  | .error e => errorAnswer e

theorem FailsWith.not_graceExpired {α : Type} {x : Except ClientError α} {e : ClientError}
    (h : FailsWith (· ≠ .graceExpired) x) (he : x = .error e) : ¬e.HasCode .graceExpired := by
  rintro ⟨message, rfl⟩
  obtain ⟨code, ne, _, eq⟩ := h _ he
  cases eq
  exact ne rfl

theorem FormatOnly.not_graceExpired {α : Type} {x : Except ClientError α} {e : ClientError} (h : FormatOnly x)
    (he : x = .error e) : ¬e.HasCode .graceExpired := by
  rintro ⟨message, rfl⟩
  obtain ⟨_, rfl, _, eq⟩ := h _ he
  cases eq

-- What a validation does, which asks for the ledger at most.
structure WithoutGrace {σ τ ν α : Type} (s : DeviceState σ τ ν) (r : Except ClientError α) (s' : DeviceState σ τ ν) :
    Prop where
  error  : ∀ e, r = .error e → ¬e.HasCode .graceExpired
  stored : s'.stored = s.stored

theorem WithoutGrace.ok {σ τ ν α : Type} {s s' : DeviceState σ τ ν} {a : α} (h : s'.stored = s.stored) :
    WithoutGrace s (.ok a) s' :=
  ⟨nofun, h⟩

theorem WithoutGrace.failed {σ τ ν α : Type} {s s' : DeviceState σ τ ν} {e : ClientError}
    (he : ¬e.HasCode .graceExpired) (h : s'.stored = s.stored) :
    WithoutGrace s (.error e : Except ClientError α) s' := by
  refine ⟨fun e' eq => ?_, h⟩
  cases eq
  exact he

section Verifying

variable {σ β κ τ ν R α : Type} [DecidableEq σ] {translate : Error → ClientError}
variable {may : Surroundings σ β κ ν R → DeviceState σ τ ν → Prop} {s : DeviceState σ τ ν}
variable {post : Except ClientError α → DeviceState σ τ ν → Prop}

theorem wp_verifying (ok : ∀ a, post (.ok a) s) (error : ∀ e, post (.error (translate e)) s) :
    (p : Verification σ β κ α) → (Device.verifying translate p).Wp DeviceOp.exec may post s
  | .pure a   => ok a
  | .throw e  => error e
  | .call _ _ => fun _ _ => wp_verifying ok error _

theorem wp_recordJtiUse {label : String} {jti : σ} {expSec : ν} {next : Bool → Device σ β κ τ ν R α}
    (failed : ∀ e, post (.error (.other e)) s)
    (ok : ∀ first s', s'.stored = s.stored → (next first).Wp DeviceOp.exec may post s') :
    (Device.recordJtiUse label jti expSec >>= next).Wp DeviceOp.exec may post s := by
  rw [Device.recordJtiUse, call_bind, Wp.call_iff]
  intro w _
  cases hf : w.ledgerFault
  case some e => simpa [DeviceOp.exec, hf, Device.orOther] using failed _
  case none =>
    by_cases used : jti ∈ s.entries.map Prod.fst
    case pos => simpa only [DeviceOp.exec, hf, if_pos used, Device.orOther, Prog.pure_bind] using ok false s rfl
    case neg =>
      simp only [DeviceOp.exec, hf, if_neg used, Device.orOther, Prog.pure_bind]
      exact ok true { s with entries := s.entries ++ [(jti, expSec)] } rfl

end Verifying

-- What a keeper of the window has to do at a call.
theorem lawful_of_attempted {σ τ ν ι : Type} (usable : StoredTokenState τ ν → Prop) {elapsed : ν → ν → Prop}
    {k : Keeper (DeviceState σ τ ν) ι ν} (start : ∀ s, k.start s = s.stored.graceStartSec)
    (attempted : ∀ s i now, k.attempt i = some now → Attempted usable elapsed now s (k.answer s i) (k.step s i))
    (apart : ∀ s i, k.attempt i = none →
      k.answer s i = .other ∧ ∀ g, k.start (k.step s i) = some g → k.start s = some g) : Windows.Lawful k elapsed where
  granted s i g h := by
    cases ha : k.attempt i
    case none => simp [(apart s i ha).left] at h
    case some now =>
      have attempt := attempted s i now ha
      rw [h] at attempt
      simp only [start]
      exact ⟨now, rfl, attempt.granted⟩
  refused s i h := by
    cases ha : k.attempt i
    case none => simp [(apart s i ha).left] at h
    case some now =>
      have attempt := attempted s i now ha
      rw [h] at attempt
      obtain ⟨_, g, hg, past⟩ := attempt.refused_iff
      exact ⟨now, g, rfl, (start s).trans hg, past⟩
  barred s i j g t h hs ht past := by
    cases ha : k.attempt i
    case none => simp [(apart s i ha).left] at h
    case some now =>
      have attempt := attempted s i now ha
      rw [h] at attempt
      exact (attempted s j t ht).barred attempt.refused_iff.left ((start s).symm.trans hs) past
  opened s i g h := by
    cases ha : k.attempt i
    case none => exact .inl ((apart s i ha).right g h)
    case some now =>
      simp only [start] at h ⊢
      exact (attempted s i now ha).start_eq h

-- An operation that does not let a window begin.
def ExchangeOp.Closes {τ ν R : Type} : ExchangeOp τ ν R → Prop
  | .writeStore state => state.graceStartSec = none
  | _                 => True

theorem Exchange.start_eq {τ ν R α : Type} {p : Exchange τ ν R α} (h : p.Calls ExchangeOp.Closes)
    {empty s : StoredTokenState τ ν} (he : empty.graceStartSec = none) {ω : Nat → ExchangeEnv R} {g : ν}
    (next : (p.eval (ExchangeOp.exec empty) ω s).2.graceStartSec = some g) : s.graceStartSec = some g := by
  have step (w : ExchangeEnv R) (o : ExchangeOp τ ν R) (t : StoredTokenState τ ν) (closes : o.Closes) (_ : True)
      (kept : t.graceStartSec = some g → s.graceStartSec = some g) :
      (o.exec empty w t).2.graceStartSec = some g → s.graceStartSec = some g := by
    cases o
    case readStore => exact kept
    case post      => exact kept
    case clearStore =>
      simp only [ExchangeOp.exec]
      cases w.clearFault <;> simp_all
    case writeStore state =>
      have none : state.graceStartSec = none := closes
      simp only [ExchangeOp.exec]
      cases w.writeFault <;> simp_all
  have wp := Wp.keeps (I := fun t : StoredTokenState τ ν => t.graceStartSec = some g → s.graceStartSec = some g) step
    h id
  exact wp.eval (Finds.all (fun _ _ => trivial) p ω s) next

namespace Go

variable {β κ : Type} {alg : β → GoString} {now : Int64} {s : DeviceState GoString GoString Int64}

theorem checkClaims_failsWith (o : ValidateOptions alg) (c : Claims) :
    FailsWith (· ≠ .graceExpired) (checkClaims o c) := by
  have window : FailsWith (· ≠ .graceExpired) (checkWindow o c) := .ite (.client nofun) (.ite (.client nofun) (.ok _))
  have status : FailsWith (· ≠ .graceExpired) (checkStatus c) :=
    .ite (.ok _) (.ite (.client nofun) (.ite (.client nofun) (.ite (.client nofun) (.client nofun))))
  have online : FailsWith (· ≠ .graceExpired) (checkForceOnline o c) := by
    unfold checkForceOnline
    split <;> [exact .ok _; exact .ite (.client nofun) (.ok _)]
  have fingerprint : FailsWith (· ≠ .graceExpired) (checkFingerprint o c) := .ite (.client nofun) (.ok _)
  have audience : FailsWith (· ≠ .graceExpired) (checkAudience o c) := .ite (.client nofun) (.ok _)
  have issuer : FailsWith (· ≠ .graceExpired) (checkIssuer o c) := .ite (.client nofun) (.ok _)
  exact window.bind fun _ => status.bind fun _ => online.bind fun _ => fingerprint.bind fun _ =>
    audience.bind fun _ => issuer

theorem wp_validate (token : GoString) (o : ValidateOptions alg) (s : DeviceState GoString GoString Int64) :
    (validate token o : Device β κ _).Wp DeviceOp.exec (fun w _ => Posts now w) (WithoutGrace s) s := by
  rw [validate]
  apply Wp.bind
  apply wp_verifying
  case error => exact fun e => .failed (translateVerifyError_ne e) rfl
  case ok =>
    intro parts
    cases hc : assertClaimShape parts.payload
    case error e =>
      simp only [hc, ofExcept_error, Prog.throw_bind]
      exact WithoutGrace.failed (FormatOnly.not_graceExpired (formatOnly_assertClaimShape _) hc) rfl
    case ok claims =>
      cases hk : checkClaims o claims
      case error e =>
        simp only [hc, hk, ofExcept_ok, ofExcept_error, Prog.pure_bind, Prog.throw_bind]
        exact WithoutGrace.failed ((checkClaims_failsWith o claims).not_graceExpired hk) rfl
      case ok =>
        simp only [hc, hk, ofExcept_ok, Prog.pure_bind]
        apply Wp.ite
        case hp => exact fun _ => .ok rfl
        case hq =>
          intro _
          apply wp_recordJtiUse
          case failed => exact fun e => .failed (by rintro ⟨_, ⟨⟩⟩) rfl
          case ok =>
            intro first s' same
            apply Wp.ite
            case hp => exact fun _ => .ok same
            case hq => exact fun _ => .failed (by rintro ⟨_, ⟨⟩⟩) same

-- A guarded application learns of the grace that has expired.
theorem Client.wp_guard (c : Client alg) (fingerprint : GoString) (s : DeviceState GoString GoString Int64) :
    (c.guard fingerprint : Device β κ _).Wp DeviceOp.exec (fun w _ => Posts now w)
      (fun r s' => Attempted Refreshable (graceElapsed c.gracePeriodSec) now s (callAnswer r) s') s := by
  rw [Client.guard, Client.requireVerify]
  cases c.verify
  case none => exact .failed
  case some verify =>
    simp only [ofExcept_ok, Prog.pure_bind]
    rw [Device.readStore, call_bind, Wp.call_iff]
    intro w _
    cases hf : w.readFault
    case some e =>
      simp only [DeviceOp.exec, hf, Option.elim_some, Device.orOther, Prog.throw_bind]
      exact .failed
    case none =>
      simp only [DeviceOp.exec, hf, Option.elim_none, Device.orOther, Prog.pure_bind]
      apply Wp.ite
      case hp => exact fun none => .unusable (by simp [callAnswer, errorAnswer]) (fun h => h.left none) rfl
      case hq =>
        intro _
        apply Wp.bind
        apply Wp.mono _ (Client.wp_refresh c s)
        intro r s₁ attempted
        cases r
        case error e => exact attempted
        case ok out =>
          intro w _
          cases hf : w.readFault
          case some e =>
            simp only [DeviceOp.exec, hf, Option.elim_some, Device.orOther]
            exact attempted.answered (by simp [callAnswer, errorAnswer]) rfl
          case none =>
            simp only [DeviceOp.exec, hf, Option.elim_none, Device.orOther]
            apply Wp.ite
            case hp => exact fun _ => attempted.answered (by simp [callAnswer, errorAnswer]) rfl
            case hq =>
              intro _ w _
              apply Wp.bind
              apply Wp.pure_iff.mpr
              apply Wp.bind
              apply Wp.mono _ (wp_validate _ _ s₁)
              intro r s₂ apart
              cases r
              case ok result => exact attempted.answered (by simp [callAnswer]) apart.stored
              case error e   => exact attempted.answered (errorAnswer_mem (apart.error e rfl)) apart.stored

-- What surrounds a call, during which the clock stands still. The issuer is asked over HTTP.
def around (now : Int64) (http : Nat → GoString → Delivery) (ω : Nat → Surroundings GoString β κ Int64 GoString)
    (n : Nat) : Surroundings GoString β κ Int64 GoString :=
  { viaHttp (http n) (ω n) with nowSec := now }

theorem posts_around (http : Nat → GoString → Delivery) (ω : Nat → Surroundings GoString β κ Int64 GoString)
    (n : Nat) : Posts now (around now http ω n) := by
  refine ⟨rfl, fun token e h => ?_⟩
  simp only [around, viaHttp] at h
  split at h
  case h_1 e' he =>
    cases h
    exact ofIssuer_postJSON (http n token) e' he
  case h_2 => cases h

-- The calls of an application, each with what surrounds it.
inductive DeviceCall (β κ : Type)
  | refresh (now : Int64) (proactiveThreshold : Binary64) (http : Nat → GoString → Delivery)
    (ω : Nat → Surroundings GoString β κ Int64 GoString)
  | clientRefresh (now : Int64) (http : Nat → GoString → Delivery)
    (ω : Nat → Surroundings GoString β κ Int64 GoString)
  | guard (now : Int64) (fingerprint : GoString) (http : Nat → GoString → Delivery)
    (ω : Nat → Surroundings GoString β κ Int64 GoString)
  | heartbeat (ω : Nat → ExchangeEnv Unit)
  | activate (ω : Nat → ExchangeEnv ActivateResult)
  | deactivate (ω : Nat → ExchangeEnv Unit)

namespace DeviceCall

def attempt : DeviceCall β κ → Option Int64
  | refresh now _ _ _ | clientRefresh now _ _ | guard now _ _ _ => some now
  | heartbeat _ | activate _ | deactivate _                     => none

def exchange {R α : Type} (p : ExchangeM R α) (ω : Nat → ExchangeEnv R) (s : DeviceState GoString GoString Int64) :
    Answer Int64 × DeviceState GoString GoString Int64 :=
  (.other, { s with stored := (p.eval (ExchangeOp.exec ⟨[], none⟩) ω s.stored).2 })

def serve (c : Client alg) :
    DeviceCall β κ → DeviceState GoString GoString Int64 → Answer Int64 × DeviceState GoString GoString Int64
  | refresh now proactiveThreshold http ω, s =>
    let o := { nowSec := now, proactiveThreshold, graceWindowSec := some c.gracePeriodSec }
    let (r, s') := (Go.refresh o).eval DeviceOp.exec (around now http ω) s
    (refreshAnswer r, s')
  | clientRefresh now http ω, s =>
    let (r, s') := c.refresh.eval DeviceOp.exec (around now http ω) s
    (refreshAnswer r, s')
  | guard now fingerprint http ω, s =>
    let (r, s') := (c.guard fingerprint).eval DeviceOp.exec (around now http ω) s
    (callAnswer r, s')
  | heartbeat ω, s  => exchange sendOneHeartbeat ω s
  | activate ω, s   => exchange Go.activateDevice ω s
  | deactivate ω, s => exchange Go.deactivateDevice ω s

end DeviceCall

def keeper (c : Client alg) : Keeper (DeviceState GoString GoString Int64) (DeviceCall β κ) Int64 where
  step s i   := (i.serve c s).2
  start s    := s.stored.graceStartSec
  answer s i := (i.serve c s).1
  attempt    := DeviceCall.attempt

theorem calls_clearRejected (token : GoString) : (clearRejected token).Calls ExchangeOp.Closes := by
  refine ⟨trivial, fun r => ?_⟩
  cases r
  case error => trivial
  case ok    =>
    apply Calls.ite
    case hp => trivial
    case hq => exact ⟨trivial, fun r => by cases r <;> trivial⟩

theorem calls_sendOneHeartbeat : sendOneHeartbeat.Calls ExchangeOp.Closes := by
  refine ⟨trivial, fun r => ?_⟩
  cases r
  case error    => trivial
  case ok state =>
    apply Calls.ite
    case hp => trivial
    case hq =>
      refine ⟨trivial, fun r => ?_⟩
      cases r
      case error e =>
        apply Calls.ite
        case hp => exact Calls.bind (fun _ => by trivial) (calls_clearRejected state.token)
        case hq => trivial
      case ok =>
        apply Calls.ite
        case hp => trivial
        case hq => exact ⟨rfl, fun r => by cases r <;> trivial⟩

theorem calls_activateDevice : activateDevice.Calls ExchangeOp.Closes := by
  refine ⟨trivial, fun r => ?_⟩
  cases r
  case error   => trivial
  case ok resp =>
    apply Calls.ite
    case hp => trivial
    case hq =>
      apply Calls.ite
      case hp => trivial
      case hq => exact ⟨rfl, fun r => by cases r <;> trivial⟩

theorem calls_deactivateDevice : deactivateDevice.Calls ExchangeOp.Closes := by
  refine ⟨trivial, fun r => ?_⟩
  cases r
  case ok      => exact ⟨trivial, fun r => by cases r <;> trivial⟩
  case error e =>
    apply Calls.ite
    case hp => exact ⟨trivial, fun r => by cases r <;> trivial⟩
    case hq => trivial

theorem lawful_keeper (c : Client alg) :
    Windows.Lawful (keeper c : Keeper _ (DeviceCall β κ) _) (graceElapsed c.gracePeriodSec) := by
  apply lawful_of_attempted Refreshable (fun _ => rfl)
  case attempted =>
    intro s i now h
    cases i <;> cases h
    case refresh proactiveThreshold http ω =>
      have wp := Go.wp_refresh (β := β) (κ := κ)
        { nowSec := now, proactiveThreshold, graceWindowSec := some c.gracePeriodSec } s
      exact (wp.eval (Finds.of_forall _ _ (posts_around http ω))).attempted
    case clientRefresh http ω =>
      exact (Client.wp_refresh c s).eval (Finds.of_forall _ _ (posts_around http ω))
    case guard fingerprint http ω =>
      exact (Client.wp_guard c fingerprint s).eval (Finds.of_forall _ _ (posts_around http ω))
  case apart =>
    intro s i h
    cases i <;> cases h
    case heartbeat ω => exact ⟨rfl, fun g => Exchange.start_eq calls_sendOneHeartbeat rfl⟩
    case activate ω   => exact ⟨rfl, fun g => Exchange.start_eq calls_activateDevice rfl⟩
    case deactivate ω => exact ⟨rfl, fun g => Exchange.start_eq calls_deactivateDevice rfl⟩

end Go

namespace Ts

variable {β κ : Type} {alg : β → JsString} {now : Binary64} {s : DeviceState JsString (Option JsString) Binary64}

theorem translateVerifyError_ne (e : Error) : ¬(translateVerifyError e).HasCode .graceExpired := by
  rintro ⟨message, code⟩
  cases e
  case other => simp [translateVerifyError, Licensing.invalidTokenFormat] at code
  case licensing c m => cases c <;> simp [translateVerifyError, Licensing.invalidTokenFormat] at code

theorem checkClaims_failsWith (o : ValidateOptions alg) (c : Claims) :
    FailsWith (· ≠ .graceExpired) (checkClaims o c) := by
  have window : FailsWith (· ≠ .graceExpired) (checkWindow o c) := .ite (.client nofun) (.ite (.client nofun) (.ok _))
  have status : FailsWith (· ≠ .graceExpired) (checkStatus c) :=
    .ite (.ok _) (.ite (.client nofun) (.ite (.client nofun) (.ite (.client nofun) (.client nofun))))
  have online : FailsWith (· ≠ .graceExpired) (checkForceOnline o c) := by
    unfold checkForceOnline
    split <;> [exact .ok _; exact .ite (.client nofun) (.ok _)]
  have fingerprint : FailsWith (· ≠ .graceExpired) (checkFingerprint o c) := .ite (.client nofun) (.ok _)
  have audience : FailsWith (· ≠ .graceExpired) (checkAudience o c) := by
    unfold checkAudience
    split <;> [exact .ok _; exact .ite (.ok _) (.client nofun)]
  have issuer : FailsWith (· ≠ .graceExpired) (checkIssuer o c) := by
    unfold checkIssuer
    split <;> [exact .ok _; exact .ite (.client nofun) (.ok _)]
  exact window.bind fun _ => status.bind fun _ => online.bind fun _ => fingerprint.bind fun _ =>
    audience.bind fun _ => issuer

theorem wp_validate (token : JsString) (o : ValidateOptions alg)
    (s : DeviceState JsString (Option JsString) Binary64) :
    (validate token o : Device β κ _).Wp DeviceOp.exec (fun w _ => Posts now w) (WithoutGrace s) s := by
  rw [validate]
  apply Wp.bind
  apply wp_verifying
  case error => exact fun e => .failed (translateVerifyError_ne e) rfl
  case ok =>
    intro parts
    cases hc : assertClaimShape parts.payload
    case error e =>
      simp only [hc, ofExcept_error, Prog.throw_bind]
      exact WithoutGrace.failed (FormatOnly.not_graceExpired (formatOnly_assertClaimShape _) hc) rfl
    case ok claims =>
      cases hk : checkClaims o claims
      case error e =>
        simp only [hc, hk, ofExcept_ok, ofExcept_error, Prog.pure_bind, Prog.throw_bind]
        exact WithoutGrace.failed ((checkClaims_failsWith o claims).not_graceExpired hk) rfl
      case ok =>
        simp only [hc, hk, ofExcept_ok, Prog.pure_bind]
        apply Wp.ite
        case hp => exact fun _ => .ok rfl
        case hq =>
          intro _
          apply wp_recordJtiUse
          case failed => exact fun e => .failed (by rintro ⟨_, ⟨⟩⟩) rfl
          case ok =>
            intro first s' same
            apply Wp.ite
            case hp => exact fun _ => .ok same
            case hq => exact fun _ => .failed (by rintro ⟨_, ⟨⟩⟩) same

theorem Client.wp_guard (c : Client alg) (positive : zero.lt c.gracePeriod) (fingerprint : JsString)
    (s : DeviceState JsString (Option JsString) Binary64) :
    (c.guard fingerprint : Device β κ _).Wp DeviceOp.exec (fun w _ => Posts now w)
      (fun r s' => Attempted Refreshable (graceElapsed c.gracePeriod) now s (callAnswer r) s') s := by
  rw [Client.guard, Client.requireVerify]
  cases c.verify
  case none => exact .failed
  case some verify =>
    simp only [ofExcept_ok, Prog.pure_bind]
    rw [Device.readStore, call_bind, Wp.call_iff]
    intro w _
    cases hf : w.readFault
    case some e =>
      simp only [DeviceOp.exec, hf, Option.elim_some, Device.orOther, Prog.throw_bind]
      exact .failed
    case none =>
      simp only [DeviceOp.exec, hf, Option.elim_none, Device.orOther, Prog.pure_bind]
      apply Wp.ite
      case hp =>
        refine fun none => .unusable (by simp [callAnswer, errorAnswer]) (fun h => ?_) rfl
        obtain ⟨token, _, some, _⟩ := h
        simp [some] at none
      case hq =>
        intro _ w posts
        have clock : w.nowSec = now := posts.left
        simp only [DeviceOp.exec, clock]
        apply Wp.bind
        apply Wp.pure_iff.mpr
        apply Wp.bind
        have attempt : (Ts.refresh { nowSec := now, graceWindowSec := some c.gracePeriod } : Device β κ _).Wp
            DeviceOp.exec (fun w _ => Posts now w) (Refreshed Refreshable (graceElapsed c.gracePeriod) now s) s :=
          Ts.wp_refresh { nowSec := now, graceWindowSec := some c.gracePeriod } positive s
        apply Wp.mono _ attempt
        intro r s₁ refreshed
        have attempted := refreshed.attempted
        cases r
        case error e => exact attempted
        case ok out =>
          intro w _
          cases hf : w.readFault
          case some e =>
            simp only [DeviceOp.exec, hf, Option.elim_some, Device.orOther]
            exact attempted.answered (by simp [callAnswer, errorAnswer]) rfl
          case none =>
            simp only [DeviceOp.exec, hf, Option.elim_none, Device.orOther]
            apply Wp.bind
            apply Wp.pure_iff.mpr
            dsimp only
            split
            case h_1 => exact attempted.answered (by simp [callAnswer, errorAnswer]) rfl
            case h_2 =>
              intro w _
              apply Wp.bind
              apply Wp.pure_iff.mpr
              apply Wp.bind
              apply Wp.mono _ (wp_validate _ _ s₁)
              intro r s₂ apart
              cases r
              case ok result => exact attempted.answered (by simp [callAnswer]) apart.stored
              case error e   => exact attempted.answered (errorAnswer_mem (apart.error e rfl)) apart.stored

-- `toText` is how the engine converts a value to a string.
def around (toText : Json → Option String) (url : String) (now : Binary64) (http : Nat → JsString → Delivery)
    (ω : Nat → Surroundings JsString β κ Binary64 Value) (n : Nat) : Surroundings JsString β κ Binary64 Value :=
  { viaHttp toText url (http n) (ω n) with nowSec := now }

theorem posts_around (toText : Json → Option String) (url : String) (http : Nat → JsString → Delivery)
    (ω : Nat → Surroundings JsString β κ Binary64 Value) (n : Nat) :
    Posts now (around toText url now http ω n) := by
  refine ⟨rfl, fun token e h => ?_⟩
  simp only [around, viaHttp] at h
  split at h
  case h_1 e' he =>
    cases h
    exact ofIssuer_postJson (http n token) e' he
  all_goals cases h

inductive DeviceCall (β κ : Type)
  | refresh (now : Binary64) (proactiveThreshold : Option Binary64) (http : Nat → JsString → Delivery)
    (ω : Nat → Surroundings JsString β κ Binary64 Value)
  | clientRefresh (now : Binary64) (http : Nat → JsString → Delivery)
    (ω : Nat → Surroundings JsString β κ Binary64 Value)
  | guard (now : Binary64) (fingerprint : JsString) (http : Nat → JsString → Delivery)
    (ω : Nat → Surroundings JsString β κ Binary64 Value)
  | heartbeat (ω : Nat → ExchangeEnv Unit)
  | activate (licenseKey fingerprint : JsString) (ω : Nat → ExchangeEnv Value)
  | deactivate (reason : JsString) (ω : Nat → ExchangeEnv Unit)

namespace DeviceCall

def attempt : DeviceCall β κ → Option Binary64
  | refresh now _ _ _ | clientRefresh now _ _ | guard now _ _ _ => some now
  | heartbeat _ | activate _ _ _ | deactivate _ _               => none

def exchange {R α : Type} (p : ExchangeM R α) (ω : Nat → ExchangeEnv R)
    (s : DeviceState JsString (Option JsString) Binary64) :
    Answer Binary64 × DeviceState JsString (Option JsString) Binary64 :=
  (.other, { s with stored := (p.eval (ExchangeOp.exec ⟨none, none⟩) ω s.stored).2 })

def serve (toText : Json → Option String) (url : String) (c : Client alg) :
    DeviceCall β κ → DeviceState JsString (Option JsString) Binary64 →
      Answer Binary64 × DeviceState JsString (Option JsString) Binary64
  | refresh now proactiveThreshold http ω, s =>
    let o := { nowSec := now, proactiveThreshold, graceWindowSec := some c.gracePeriod }
    let (r, s') := (Ts.refresh o).eval DeviceOp.exec (around toText url now http ω) s
    (refreshAnswer r, s')
  | clientRefresh now http ω, s =>
    let (r, s') := c.refresh.eval DeviceOp.exec (around toText url now http ω) s
    (refreshAnswer r, s')
  | guard now fingerprint http ω, s =>
    let (r, s') := (c.guard fingerprint).eval DeviceOp.exec (around toText url now http ω) s
    (callAnswer r, s')
  | heartbeat ω, s                       => exchange sendOneHeartbeat ω s
  | activate licenseKey fingerprint ω, s => exchange (Ts.activateDevice licenseKey fingerprint) ω s
  | deactivate reason ω, s               => exchange (Ts.deactivateDevice reason) ω s

end DeviceCall

def keeper (toText : Json → Option String) (url : String) (c : Client alg) :
    Keeper (DeviceState JsString (Option JsString) Binary64) (DeviceCall β κ) Binary64 where
  step s i   := (i.serve toText url c s).2
  start s    := s.stored.graceStartSec
  answer s i := (i.serve toText url c s).1
  attempt    := DeviceCall.attempt

theorem calls_ofExcept {τ ν R α : Type} (x : Except ClientError α) :
    (.ofExcept x : Exchange τ ν R α).Calls ExchangeOp.Closes := by
  cases x <;> trivial

theorem calls_orOther {τ ν R α : Type} (label : String) (x : Except String α) :
    (Exchange.orOther label x : Exchange τ ν R α).Calls ExchangeOp.Closes := by
  cases x <;> trivial

theorem calls_tickOnce : tickOnce.Calls ExchangeOp.Closes := by
  refine Calls.bind (fun stateBefore => ?_) ⟨trivial, fun _ => calls_orOther _ _⟩
  apply Calls.ite
  case hp => trivial
  case hq =>
    apply Calls.handle
    case hf =>
      intro r
      cases r
      case ok      => trivial
      case error e =>
        apply Calls.ite
        case hq => trivial
        case hp =>
          refine Calls.bind (fun stateNow => ?_) ⟨trivial, fun _ => calls_orOther _ _⟩
          apply Calls.ite
          case hp => exact Calls.bind (fun _ => by trivial) ⟨trivial, fun _ => calls_orOther _ _⟩
          case hq => trivial
    refine Calls.bind (fun r => Calls.bind (fun _ => ?_) (calls_ofExcept r)) ⟨trivial, fun _ => trivial⟩
    refine Calls.bind (fun stateAfter => ?_) ⟨trivial, fun _ => calls_orOther _ _⟩
    apply Calls.ite
    case hp => exact ⟨rfl, fun _ => calls_orOther _ _⟩
    case hq => trivial

theorem calls_sendOneHeartbeat : sendOneHeartbeat.Calls ExchangeOp.Closes := by
  apply Calls.handle _ calls_tickOnce
  intro r
  cases r <;> trivial

theorem calls_activateDevice (licenseKey fingerprint : JsString) :
    (activateDevice licenseKey fingerprint).Calls ExchangeOp.Closes := by
  apply Calls.ite
  case hp => trivial
  case hq =>
    apply Calls.ite
    case hp => trivial
    case hq =>
      refine Calls.bind (fun r => Calls.bind (fun data => ?_) (calls_ofExcept r)) ⟨trivial, fun _ => trivial⟩
      refine Calls.bind (fun result => ?_) (calls_ofExcept _)
      exact Calls.bind (fun _ => by trivial) ⟨rfl, fun _ => calls_orOther _ _⟩

theorem calls_deactivateDevice (reason : JsString) : (deactivateDevice reason).Calls ExchangeOp.Closes := by
  have clearStore : (Exchange.clearStore "" : ExchangeM Unit Unit).Calls ExchangeOp.Closes :=
    ⟨trivial, fun _ => calls_orOther _ _⟩
  apply Calls.ite
  case hp => trivial
  case hq =>
    apply Calls.handle
    case hf =>
      intro r
      cases r
      case ok      => trivial
      case error e =>
        apply Calls.ite
        case hp => exact Calls.bind (fun _ => by trivial) clearStore
        case hq => trivial
    refine Calls.bind (fun r => Calls.bind (fun _ => ?_) (calls_ofExcept r)) ⟨trivial, fun _ => trivial⟩
    exact Calls.bind (fun _ => by trivial) clearStore

theorem lawful_keeper (toText : Json → Option String) (url : String) (c : Client alg)
    (positive : zero.lt c.gracePeriod) :
    Windows.Lawful (keeper toText url c : Keeper _ (DeviceCall β κ) _) (graceElapsed c.gracePeriod) := by
  apply lawful_of_attempted Refreshable (fun _ => rfl)
  case attempted =>
    intro s i now h
    cases i <;> cases h
    case refresh proactiveThreshold http ω =>
      have wp := Ts.wp_refresh (β := β) (κ := κ)
        { nowSec := now, proactiveThreshold, graceWindowSec := some c.gracePeriod } positive s
      exact (wp.eval (Finds.of_forall _ _ (posts_around toText url http ω))).attempted
    case clientRefresh http ω =>
      exact (Client.wp_refresh c positive s).eval (Finds.of_forall _ _ (posts_around toText url http ω))
    case guard fingerprint http ω =>
      exact (Client.wp_guard c positive fingerprint s).eval (Finds.of_forall _ _ (posts_around toText url http ω))
  case apart =>
    intro s i h
    cases i <;> cases h
    case heartbeat ω       => exact ⟨rfl, fun g => Exchange.start_eq calls_sendOneHeartbeat rfl⟩
    case activate l f ω    => exact ⟨rfl, fun g => Exchange.start_eq (calls_activateDevice l f) rfl⟩
    case deactivate r ω    => exact ⟨rfl, fun g => Exchange.start_eq (calls_deactivateDevice r) rfl⟩

end Ts

-- Whatever is called in whatever order, and whatever the issuer answers, no grace outlasts its window, and it is not
-- given anew by refreshing once more.
theorem grace_bounded {β κ β' κ' : Type} {alg : β → Go.GoString} {alg' : β' → Ts.JsString} (goClient : Go.Client alg)
    (tsClient : Ts.Client alg') (toText : Json → Option String) (url : String)
    (positive : Ts.zero.lt tsClient.gracePeriod) :
    Bounded (Go.keeper goClient : Keeper _ (Go.DeviceCall β κ) _) (Go.graceElapsed goClient.gracePeriodSec) (· ≤ ·) ∧
      Bounded (Ts.keeper toText url tsClient : Keeper _ (Ts.DeviceCall β' κ') _) (Ts.graceElapsed tsClient.gracePeriod)
        fun a b => a.le b := by
  constructor
  case left =>
    exact (Go.lawful_keeper goClient).bounded fun g t t' past later => ⟨past.left, Int64.le_trans past.right later⟩
  case right =>
    exact (Ts.lawful_keeper toText url tsClient positive).bounded fun g t t' past later =>
      ⟨past.left, Binary64.lt_of_lt_of_le past.right later⟩

-- The client of the TypeScript port with its defaults.
def Ts.sampleClient : Ts.Client fun _ : Unit => Ts.JsString.ofString "ed25519" where
  verify := none

theorem Ts.gracePeriod_sampleClient : Ts.zero.lt Ts.sampleClient.gracePeriod := by
  simp [Ts.Client.gracePeriod, Ts.sampleClient, Ts.zero, Binary64.ofInt, Binary64.zero_lt_rounded,
    Binary64.one_pos.ne']

-- Past the deadline, and without the issuer, a refresh opens the window.
theorem Go.refresh_granted {β κ : Type} {alg : β → Go.GoString} (c : Go.Client alg) {now : Int64}
    {token : Go.GoString} {peeked : PeekResult Go.GoString Int64} {w : Surroundings Go.GoString β κ Int64 Go.GoString}
    (proactiveThreshold : Binary64) (entries : List (Go.GoString × Int64))
    (writable : w.readFault = none ∧ w.writeFault = none) (filled : token ≠ []) (hp : Go.peek token = .ok peeked)
    (forced : peeked.forceOnlineAfter.any (· ≤ now)) (grace : c.gracePeriodSec ≠ 0) :
    (Go.keeper c).answer ⟨⟨token, none⟩, entries⟩ (.refresh now proactiveThreshold (fun _ _ => none) fun _ => w) =
        .granted now ∧
      (Go.keeper c).step ⟨⟨token, none⟩, entries⟩ (.refresh now proactiveThreshold (fun _ _ => none) fun _ => w) =
        ⟨⟨token, some now⟩, entries⟩ := by
  let o : Go.RefreshOptions := { nowSec := now, proactiveThreshold, graceWindowSec := some c.gracePeriodSec }
  have entered : (Go.refresh o).eval DeviceOp.exec (Go.around now (fun _ _ => none) fun _ => w)
      ⟨⟨token, none⟩, entries⟩ = (.ok ⟨.graceEntered, token, some now⟩, ⟨⟨token, some now⟩, entries⟩) :=
    Go.yields_refresh_graceEntered (w := Go.around now (fun _ _ => none) (fun _ => w) 0) filled hp forced grace rfl
      writable.left writable.right
  constructor
  case left  => exact congrArg (fun r => refreshAnswer r.1) entered
  case right => exact congrArg Prod.snd entered

-- Past the window a refresh does not reach the issuer.
theorem Go.refresh_expired {β κ : Type} {alg : β → Go.GoString} (c : Go.Client alg) {now g : Int64}
    {proactiveThreshold : Binary64} {s : DeviceState Go.GoString Go.GoString Int64}
    {http : Nat → Go.GoString → Delivery} {ω : Nat → Surroundings Go.GoString β κ Int64 Go.GoString}
    (readable : (ω 0).readFault = none) (usable : Go.Refreshable s.stored) (start : s.stored.graceStartSec = some g)
    (past : Go.graceElapsed c.gracePeriodSec g now) :
    (Go.keeper c).answer s (.refresh now proactiveThreshold http ω) = .refused := by
  obtain ⟨token, peeked, hp⟩ := usable
  let o : Go.RefreshOptions := { nowSec := now, proactiveThreshold, graceWindowSec := some c.gracePeriodSec }
  have expired : 0 < o.graceWindow ∧ s.stored.graceStartSec.any (· + o.graceWindow ≤ o.nowSec) := by
    refine ⟨past.left, ?_⟩
    rw [start]
    exact decide_eq_true past.right
  have readable : (Go.around now http ω 0).readFault = none := readable
  have refresh : (Go.refresh o).eval DeviceOp.exec (Go.around now http ω) s =
      (.error (.client .graceExpired "grace window has expired"), s) := by
    rw [Go.refresh, Device.readStore, call_bind, eval]
    simp only [DeviceOp.exec, readable, Option.elim_none, Device.orOther, Prog.pure_bind, if_neg token, hp,
      ofExcept_ok, if_pos expired, eval]
  exact congrArg (fun r => refreshAnswer r.1) refresh

namespace Ts

variable {β κ : Type} {alg : β → JsString} {toText : Json → Option String} {url : String} {now : Binary64}
variable {proactiveThreshold : Option Binary64} {token : JsString} {metadata : PeekResult JsString Binary64}

theorem yields_refresh_graceEntered {w : Surroundings JsString β κ Binary64 Value}
    {entries : List (JsString × Binary64)} {o : RefreshOptions} {message : String}
    (hp : peek token = .ok metadata) (hf : o.forced metadata)
    (positive : zero.lt o.graceWindow) (hu : w.postRefresh token = .error (.client .issuerUnreachable message))
    (hr : w.readFault = none) (hx : w.writeFault = none) :
    Device.Yields w (refresh o) ⟨⟨some token, none⟩, entries⟩ ⟨.graceEntered, token, some o.nowSec⟩
      ⟨⟨some token, some o.nowSec⟩, entries⟩ := by
  have enabled : ¬(o.graceWindow.le zero ∧ zero.le o.graceWindow) :=
    fun h => absurd (Binary64.lt_of_lt_of_le positive h.left) (by decide)
  refine Device.yields_bind.mpr ⟨_, _, Device.yields_readStore.mpr ⟨hr, rfl, rfl⟩, ?_⟩
  refine Device.yields_bind.mpr ⟨_, _, Device.yields_ofExcept.mpr ⟨hp, rfl⟩, ?_⟩
  rw [if_neg (by simp)]
  dsimp only
  rw [if_neg (fun hn => hn.1 hf)]
  refine Device.yields_bind.mpr ⟨_, _, Device.yields_postRefresh.mpr ⟨hu, rfl⟩, ?_⟩
  simp [issuerUnreachable?, handleUnreachable, hf, enabled, Device.yields_bind, hx]

theorem refresh_granted (toText : Json → Option String) (url : String) (c : Client alg)
    {w : Surroundings JsString β κ Binary64 Value} (proactiveThreshold : Option Binary64)
    (entries : List (JsString × Binary64)) (writable : w.readFault = none ∧ w.writeFault = none)
    (hp : peek token = .ok metadata) (forced : metadata.forceOnlineAfter.any fun deadline => deadline.le now)
    (positive : zero.lt c.gracePeriod) :
    (keeper toText url c).answer ⟨⟨some token, none⟩, entries⟩
        (.refresh now proactiveThreshold (fun _ _ => none) fun _ => w) = .granted now ∧
      (keeper toText url c).step ⟨⟨some token, none⟩, entries⟩
        (.refresh now proactiveThreshold (fun _ _ => none) fun _ => w) = ⟨⟨some token, some now⟩, entries⟩ := by
  let o : RefreshOptions := { nowSec := now, proactiveThreshold, graceWindowSec := some c.gracePeriod }
  have entered : (refresh o).eval DeviceOp.exec (around toText url now (fun _ _ => none) fun _ => w)
      ⟨⟨some token, none⟩, entries⟩ =
        (.ok ⟨.graceEntered, token, some now⟩, ⟨⟨some token, some now⟩, entries⟩) :=
    yields_refresh_graceEntered (w := around toText url now (fun _ _ => none) (fun _ => w) 0) hp forced positive rfl
      writable.left writable.right
  constructor
  case left  => exact congrArg (fun r => refreshAnswer r.1) entered
  case right => exact congrArg Prod.snd entered

theorem refresh_expired (c : Client alg) {g : Binary64} {entries : List (JsString × Binary64)}
    {http : Nat → JsString → Delivery} {ω : Nat → Surroundings JsString β κ Binary64 Value}
    (readable : (ω 0).readFault = none) (hp : peek token = .ok metadata) (past : graceElapsed c.gracePeriod g now) :
    (keeper toText url c).answer ⟨⟨some token, some g⟩, entries⟩ (.refresh now proactiveThreshold http ω) =
      .refused := by
  let o : RefreshOptions := { nowSec := now, proactiveThreshold, graceWindowSec := some c.gracePeriod }
  have expired : zero.lt o.graceWindow ∧ (some g).any fun start => (start.add o.graceWindow).lt o.nowSec := past
  have readable : (around toText url now http ω 0).readFault = none := readable
  have refresh : (refresh o).eval DeviceOp.exec (around toText url now http ω) ⟨⟨some token, some g⟩, entries⟩ =
      (.error (.client .graceExpired "grace started"), ⟨⟨some token, some g⟩, entries⟩) := by
    rw [Ts.refresh, Device.readStore, call_bind, eval]
    simp only [DeviceOp.exec, readable, Option.elim_none, Device.orOther, Prog.pure_bind, hp, ofExcept_ok,
      if_pos expired, eval]
  exact congrArg (fun r => refreshAnswer r.1) refresh

theorem peek_sampleClaims {c : ClaimValues} (h : c.Valid) (hn : c.normal = c)
    (ha : c.data.Avoids "__proto__".toList) (hf : c.forceOnlineAfter = some (.int 0))
    (he : c.entitlements = none) : ∃ metadata, peek (.ofString (sampleToken c.data)) = .ok metadata ∧
      metadata.forceOnlineAfter = some (.ofInt 0) := by
  obtain ⟨parts, hd, _, hp⟩ := decodeUnverified_sampleClaims h hn ha
  have deadline : parseForceOnlineAfter (payload c) = .ok (some (.ofInt 0)) := by
    rw [parseForceOnlineAfter_payload, hf]
    exact congrArg (some <$> ·) (asNumber_ofInt (by decide) _)
  have entitlements : parseEntitlements (payload c) = .ok none := by rw [parseEntitlements_payload, he]
  have shape : assertClaimShape parts.payload = .ok (claims c (some (.ofInt 0)) none) := by
    rw [hp, assertClaimShape_payload h, deadline, entitlements]
    rfl
  exact ⟨_, by rw [peek, hd]; simp only [shape]; rfl, rfl⟩

end Ts

-- In grace since the epoch, at the end of the window, and a second later.
theorem Go.runs_sample (bounded : Bounded (Go.keeper Go.sampleClient : Keeper _ (Go.DeviceCall Unit Unit) _)
    (Go.graceElapsed Go.sampleClient.gracePeriodSec) (· ≤ ·)) :
    ∃ s first second, ∀ http (ω : Nat → Surroundings Go.GoString Unit Unit Int64 Go.GoString),
      Windows.Runs (Go.keeper Go.sampleClient) (Go.graceElapsed Go.sampleClient.gracePeriodSec) s 0 first second
        (.clientRefresh 604801 http ω) := by
  obtain ⟨parts, hd, hh, hc⟩ := Go.decodeEnvelope_sampleClaims valid_overdueClaims rfl
  generalize Bytes.ofString (sampleToken overdueClaims.data) = token at hd
  obtain ⟨peeked, hp, hf⟩ := Go.peek_of_decodeEnvelope hd
  have hn : token ≠ [] := by
    rintro rfl
    contradiction
  have past : Go.graceElapsed Go.sampleClient.gracePeriodSec 0 604800 := ⟨by decide, by decide⟩
  have overdue : peeked.forceOnlineAfter.any (· ≤ (0 : Int64)) := by
    rw [hf, hc.forceOnlineAfter]
    decide
  obtain ⟨granted, entered⟩ :=
    Go.refresh_granted Go.sampleClient (w := Go.offline) quarter [] ⟨rfl, rfl⟩ hn hp overdue (by decide)
  generalize Go.sampleClient = c at bounded past granted entered ⊢
  have refused : (Go.keeper c).answer ⟨⟨token, some 0⟩, []⟩
      (.refresh 604800 quarter (fun _ _ => none) fun _ => Go.offline) = .refused :=
    Go.refresh_expired c rfl ⟨hn, peeked, hp⟩ rfl past
  rw [← entered] at refused
  exact ⟨_, _, _, fun http ω => bounded.runs rfl granted refused rfl rfl (Int64.le_refl _) (by decide)⟩

theorem avoids_overdueClaims : overdueClaims.data.Avoids "__proto__".toList := by
  refine ClaimValues.avoids_data (by decide) ?_
  rintro d (⟨⟨⟩⟩ | ⟨⟨⟩⟩ | ⟨⟨⟩⟩)
  trivial

theorem Ts.runs_sample (bounded : Bounded (Ts.keeper (fun _ => none) "" Ts.sampleClient : Keeper _
    (Ts.DeviceCall Unit Unit) _) (Ts.graceElapsed Ts.sampleClient.gracePeriod) fun a b => a.le b) :
    ∃ s first second, ∀ http (ω : Nat → Surroundings Ts.JsString Unit Unit Binary64 Ts.Value),
      Windows.Runs (Ts.keeper (fun _ => none) "" Ts.sampleClient) (Ts.graceElapsed Ts.sampleClient.gracePeriod) s
        (.ofInt 0) first second (.clientRefresh (.ofInt 604802) http ω) := by
  obtain ⟨metadata, hp, hf⟩ := Ts.peek_sampleClaims valid_overdueClaims rfl avoids_overdueClaims rfl rfl
  generalize Ts.JsString.ofString (sampleToken overdueClaims.data) = token at hp
  have start : (Binary64.ofInt 0).Represents 0 := .ofInt (by decide)
  have window : (Binary64.ofInt 604800).Represents 604800 := .ofInt (by decide)
  have ended : (Binary64.ofInt 604801).Represents 604801 := .ofInt (by decide)
  have later : (Binary64.ofInt 604802).Represents 604802 := .ofInt (by decide)
  have grace : Ts.sampleClient.gracePeriod = .ofInt 604800 := by
    simp only [Ts.Client.gracePeriod, Ts.sampleClient, Option.getD_none]
  have positive := Ts.gracePeriod_sampleClient
  generalize Ts.sampleClient = c at bounded grace positive ⊢
  have past : Ts.graceElapsed c.gracePeriod (.ofInt 0) (.ofInt 604801) := by
    refine ⟨positive, ?_⟩
    rw [grace, (start.add window (by decide)).lt_eq ended]
    decide
  have overdue : metadata.forceOnlineAfter.any fun deadline => deadline.le (.ofInt 0) := by
    rw [hf, Option.any_some, start.le_eq start]
    decide
  obtain ⟨granted, entered⟩ := Ts.refresh_granted (fun _ => none) "" c (w := acceptAll (.ofInt 0)) none []
    ⟨rfl, rfl⟩ hp overdue positive
  have refused : (Ts.keeper (fun _ => none) "" c).answer ⟨⟨some token, some (.ofInt 0)⟩, []⟩
      (.refresh (.ofInt 604801) none (fun _ _ => none) fun _ => acceptAll (.ofInt 0)) = .refused :=
    Ts.refresh_expired c rfl hp past
  rw [← entered] at refused
  have same : (Binary64.ofInt 604801).le (.ofInt 604801) := by
    rw [ended.le_eq ended]
    decide
  have next : (Binary64.ofInt 604801).le (.ofInt 604802) := by
    rw [ended.le_eq later]
    decide
  exact ⟨_, _, _, fun http ω => bounded.runs rfl granted refused rfl rfl same next⟩

theorem granted_then_refused :
    (∃ s first second, ∀ http (ω : Nat → Surroundings Go.GoString Unit Unit Int64 Go.GoString),
      Windows.Runs (Go.keeper Go.sampleClient) (Go.graceElapsed Go.sampleClient.gracePeriodSec) s 0 first second
        (.clientRefresh 604801 http ω)) ∧
    ∃ s first second, ∀ http (ω : Nat → Surroundings Ts.JsString Unit Unit Binary64 Ts.Value),
      Windows.Runs (Ts.keeper (fun _ => none) "" Ts.sampleClient) (Ts.graceElapsed Ts.sampleClient.gracePeriod) s
        (.ofInt 0) first second (.clientRefresh (.ofInt 604802) http ω) := by
  have bounded : Bounded (Go.keeper Go.sampleClient : Keeper _ (Go.DeviceCall Unit Unit) _)
      (Go.graceElapsed Go.sampleClient.gracePeriodSec) (· ≤ ·) ∧
      Bounded (Ts.keeper (fun _ => none) "" Ts.sampleClient : Keeper _ (Ts.DeviceCall Unit Unit) _)
        (Ts.graceElapsed Ts.sampleClient.gracePeriod) fun a b => a.le b :=
    grace_bounded Go.sampleClient Ts.sampleClient (fun _ => none) "" Ts.gracePeriod_sampleClient
  exact ⟨Go.runs_sample bounded.left, Ts.runs_sample bounded.right⟩

end Licensing
