import Licensing.Client.Easy
import Licensing.Client.Transport
import Licensing.Library.Binary64Order
import Licensing.Library.Windows
import Licensing.Library.Wp

-- The window of grace over the life of a device, which refreshes its token, sends heartbeats, and activates and
-- deactivates itself, in any order and whatever it is answered.

namespace Licensing

open Prog Windows

def errorAnswer {ν : Type} : ClientError → Answer ν
  | .client .graceExpired _ => .refused
  | .client _ _             => .other
  | .other _                => .failed

def refreshAnswer {σ ν : Type} : Except ClientError (RefreshOutcome σ ν) → Answer ν
  | .ok out =>
    match out.kind, out.graceStartSec with
    | .graceEntered, some start | .graceContinued, some start => .granted start
    | _, _ => .other
  | .error e => errorAnswer e

theorem errorAnswer_mem {ν : Type} {e : ClientError} (h : ¬e.HasCode .graceExpired) :
    (errorAnswer e : Answer ν) ∈ [.other, .failed] := by
  cases e
  case other => simp [errorAnswer]
  case client code message =>
    have ne : code ≠ .graceExpired := fun e => h ⟨message, e ▸ rfl⟩
    cases code <;> simp [errorAnswer] at ne ⊢

theorem refreshAnswer_ok_mem {σ ν : Type} (out : RefreshOutcome σ ν) :
    refreshAnswer (.ok out) = .other ∨ ∃ g, refreshAnswer (.ok out) = .granted g := by
  cases out with | mk kind token start =>
  cases kind <;> cases start <;> simp [refreshAnswer]

-- What becomes of a state when the device attempts to refresh its token.
inductive Attempted {σ τ ν : Type} (usable : StoredTokenState τ ν → Prop) (elapsed : ν → ν → Prop) (now : ν)
    (s : DeviceState σ τ ν) : Answer ν → DeviceState σ τ ν → Prop
  | failed : Attempted usable elapsed now s .failed s
  | unusable {a s'} (answer : a ∈ [.other, .failed]) (h : ¬usable s.stored) (same : s'.stored = s.stored) :
    Attempted usable elapsed now s a s'
  | refused {g} (h : usable s.stored) (start : s.stored.graceStartSec = some g) (past : elapsed g now) :
    Attempted usable elapsed now s .refused s
  | opened {a s'} (answer : a ∈ [.granted now, .other, .failed]) (start : s.stored.graceStartSec = none)
    (next : s'.stored.graceStartSec = some now) : Attempted usable elapsed now s a s'
  | used {g s'} (start : s.stored.graceStartSec = some g) (inside : ¬elapsed g now) (same : s'.stored = s.stored) :
    Attempted usable elapsed now s (.granted g) s'
  | passed {a s'} (answer : a ∈ [.other, .failed]) (inside : ∀ g, s.stored.graceStartSec = some g → ¬elapsed g now)
    (same : s'.stored = s.stored) : Attempted usable elapsed now s a s'
  | closed {a s'} (answer : a ∈ [.other, .failed]) (inside : ∀ g, s.stored.graceStartSec = some g → ¬elapsed g now)
    (next : s'.stored.graceStartSec = none) : Attempted usable elapsed now s a s'

namespace Attempted

variable {σ τ ν : Type} {usable : StoredTokenState τ ν → Prop} {elapsed : ν → ν → Prop} {now g : ν}
variable {s s' t : DeviceState σ τ ν} {a b : Answer ν}

theorem granted (h : Attempted usable elapsed now s (.granted g) s') : s'.stored.graceStartSec = some g ∧
    (s.stored.graceStartSec = none ∧ g = now ∨ s.stored.graceStartSec = some g ∧ ¬elapsed g now) := by
  cases h with
  | opened answer start next =>
    have e : g = now := by simpa using answer
    exact ⟨e ▸ next, .inl ⟨start, e⟩⟩
  | used start inside same => exact ⟨same ▸ start, .inr ⟨start, inside⟩⟩
  | unusable answer        => simp at answer
  | passed answer          => simp at answer
  | closed answer          => simp at answer

theorem refused_iff (h : Attempted usable elapsed now s .refused s') :
    usable s.stored ∧ ∃ g, s.stored.graceStartSec = some g ∧ elapsed g now := by
  cases h with
  | refused usable start past => exact ⟨usable, _, start, past⟩
  | unusable answer           => simp at answer
  | opened answer             => simp at answer
  | passed answer             => simp at answer
  | closed answer             => simp at answer

theorem barred (h : Attempted usable elapsed now s a s') (use : usable s.stored)
    (start : s.stored.graceStartSec = some g) (past : elapsed g now) : s' = s ∧ (a = .refused ∨ a = .failed) := by
  cases h with
  | failed               => exact ⟨rfl, .inr rfl⟩
  | refused              => exact ⟨rfl, .inl rfl⟩
  | unusable _ h         => exact absurd use h
  | opened _ none        => exact absurd (start.symm.trans none) (by simp)
  | used start' inside   =>
    cases start.symm.trans start'
    exact absurd past inside
  | passed _ inside      => exact absurd past (inside g start)
  | closed _ inside      => exact absurd past (inside g start)

theorem start_eq (h : Attempted usable elapsed now s a s') (next : s'.stored.graceStartSec = some g) :
    s.stored.graceStartSec = some g ∨ s.stored.graceStartSec = none ∧ some now = some g := by
  cases h with
  | opened _ start opened => exact .inr ⟨start, opened.symm.trans next⟩
  | closed _ _ none       => exact absurd (next.symm.trans none) (by simp)
  | failed                => exact .inl next
  | refused               => exact .inl next
  | unusable _ _ same     => exact .inl (same ▸ next)
  | used _ _ same         => exact .inl (same ▸ next)
  | passed _ _ same       => exact .inl (same ▸ next)

-- Whoever goes on after an answer that is no error may answer otherwise, and leaves what is stored.
theorem answered {out : RefreshOutcome σ ν} (h : Attempted usable elapsed now s (refreshAnswer (.ok out)) s')
    (answer : b ∈ [.other, .failed]) (same : t.stored = s'.stored) : Attempted usable elapsed now s b t := by
  generalize ha : refreshAnswer (.ok out) = a at h
  have ok := refreshAnswer_ok_mem out
  cases h with
  | failed                     => simp [ha] at ok
  | refused                    => simp [ha] at ok
  | unusable _ h same'         => exact .unusable answer h (same.trans same')
  | opened _ start next        => exact .opened (List.mem_cons_of_mem _ answer) start (same ▸ next)
  | passed _ inside same'      => exact .passed answer inside (same.trans same')
  | closed _ inside next       => exact .closed answer inside (same ▸ next)
  | used start inside same'    =>
    refine .passed answer (fun g' start' => ?_) (same.trans same')
    cases start.symm.trans start'
    exact inside

-- What has been granted is taken back.
theorem rolledBack (h : Attempted usable elapsed now s (.granted g) s') (answer : b ∈ [.other, .failed])
    (same : t.stored = s.stored) : Attempted usable elapsed now s b t := by
  cases h with
  | opened _ start        => exact .passed answer (fun g' start' => absurd (start.symm.trans start') (by simp)) same
  | used start inside =>
    refine .passed answer (fun g' start' => ?_) same
    cases start.symm.trans start'
    exact inside
  | unusable answer   => simp at answer
  | passed answer     => simp at answer
  | closed answer     => simp at answer

end Attempted

section Outcome

variable {σ τ ν : Type} {usable : StoredTokenState τ ν → Prop} {elapsed : ν → ν → Prop} {now : ν}
variable {s s' : DeviceState σ τ ν} {e : ClientError} {out : RefreshOutcome σ ν}

-- The device is told since when it is in grace, for a token of use.
structure Refreshed (usable : StoredTokenState τ ν → Prop) (elapsed : ν → ν → Prop) (now : ν) (s : DeviceState σ τ ν)
    (r : Except ClientError (RefreshOutcome σ ν)) (s' : DeviceState σ τ ν) : Prop where
  attempted : Attempted usable elapsed now s (refreshAnswer r) s'
  told      : ∀ out, r = .ok out → out.kind.IsGrace → usable s.stored ∧ ∃ g, refreshAnswer r = .granted g

theorem Refreshed.error
    (h : Attempted usable elapsed now s (refreshAnswer (.error e : Except _ (RefreshOutcome σ ν))) s') :
    Refreshed usable elapsed now s (.error e) s' :=
  ⟨h, nofun⟩

theorem Refreshed.quiet (kind : ¬out.kind.IsGrace) (h : Attempted usable elapsed now s (refreshAnswer (.ok out)) s') :
    Refreshed usable elapsed now s (.ok out) s' := by
  refine ⟨h, fun out' e grace => ?_⟩
  cases e
  exact absurd grace kind

end Outcome

-- The issuer does not answer with an error of this code.
def Posts {σ β κ ν R : Type} (now : ν) (w : Surroundings σ β κ ν R) : Prop :=
  w.nowSec = now ∧ ∀ token e, w.postRefresh token = .error e → ¬e.HasCode .graceExpired

namespace Go

variable {β κ : Type} {alg : β → GoString} {w : Surroundings GoString β κ Int64 GoString}
variable {s s' : DeviceState GoString GoString Int64} {now : Int64}

def Refreshable (state : TokenState) : Prop :=
  state.token ≠ [] ∧ ∃ peeked, peek state.token = .ok peeked

def graceElapsed (window start now : Int64) : Prop :=
  0 < window ∧ start + window ≤ now

theorem translateVerifyError_ne (e : Error) : ¬(translateVerifyError e).HasCode .graceExpired := by
  rintro ⟨message, code⟩
  cases e
  case other => simp [translateVerifyError] at code
  case licensing c m => cases c <;> simp [translateVerifyError, Licensing.invalidTokenFormat] at code

theorem peek_error {token : GoString} {e : ClientError} (h : peek token = .error e) : ¬e.HasCode .graceExpired := by
  rw [peek] at h
  split at h
  case h_1 e' _ =>
    cases h
    exact translateVerifyError_ne e'
  case h_2 => cases h

theorem wp_handleUnreachable {o : RefreshOptions} {forced : Bool} (use : Refreshable s.stored)
    (inside : ∀ g, s.stored.graceStartSec = some g → ¬graceElapsed o.graceWindow g o.nowSec) :
    (handleUnreachable o s.stored forced : Device β κ _).Wp DeviceOp.exec (fun w _ => Posts o.nowSec w)
      (Refreshed Refreshable (graceElapsed o.graceWindow) o.nowSec s) s := by
  rw [handleUnreachable]
  apply Wp.ite
  case hp => exact fun _ => .quiet (by simp [RefreshKind.IsGrace]) (.passed (by simp [refreshAnswer]) inside rfl)
  case hq =>
    intro _
    apply Wp.ite
    case hp => exact fun _ => .error (.passed (by simp [refreshAnswer, errorAnswer]) inside rfl)
    case hq =>
      intro _
      split
      case h_1 start hs => exact ⟨.used hs (inside start hs) rfl, fun _ _ _ => ⟨use, start, rfl⟩⟩
      case h_2 hs =>
        intro w _
        cases hf : w.writeFault
        case some e => simpa [DeviceOp.exec, hf, Device.orOther] using .error .failed
        case none   =>
          have opened : Attempted Refreshable (graceElapsed o.graceWindow) o.nowSec s (.granted o.nowSec)
              { s with stored := ⟨s.stored.token, some o.nowSec⟩ } := .opened (by simp) hs rfl
          simpa [DeviceOp.exec, hf, Device.orOther] using ⟨opened, fun _ _ _ => ⟨use, o.nowSec, rfl⟩⟩

theorem wp_refresh (o : RefreshOptions) (s : DeviceState GoString GoString Int64) :
    (refresh o : Device β κ _).Wp DeviceOp.exec (fun w _ => Posts o.nowSec w)
      (Refreshed Refreshable (graceElapsed o.graceWindow) o.nowSec s) s := by
  rw [refresh, Device.readStore, call_bind, Wp.call_iff]
  intro w _
  cases hf : w.readFault
  case some e => simpa [DeviceOp.exec, hf, Device.orOther] using .error .failed
  case none =>
    simp only [DeviceOp.exec, hf, Option.elim_none, Device.orOther, Prog.pure_bind]
    apply Wp.ite
    case hp => exact fun none => .error (.unusable (by simp [refreshAnswer, errorAnswer]) (fun h => h.left none) rfl)
    case hq =>
      intro token
      cases hp : peek s.stored.token
      case error e =>
        refine .error (.unusable (errorAnswer_mem (peek_error hp)) (fun h => ?_) rfl)
        obtain ⟨peeked, ok⟩ := h.right
        simp [hp] at ok
      case ok peeked =>
        rw [ofExcept_ok, Prog.pure_bind]
        apply Wp.ite
        case hp =>
          rintro ⟨positive, past⟩
          rw [Option.any_eq_true] at past
          obtain ⟨g, start, past⟩ := past
          exact .error (.refused ⟨token, peeked, hp⟩ start ⟨positive, of_decide_eq_true past⟩)
        case hq =>
          intro current
          have inside : ∀ g, s.stored.graceStartSec = some g → ¬graceElapsed o.graceWindow g o.nowSec := by
            rintro g start ⟨positive, past⟩
            exact current ⟨positive, by simpa [start] using past⟩
          apply Wp.ite
          case hp =>
            exact fun _ => .quiet (by simp [RefreshKind.IsGrace]) (.passed (by simp [refreshAnswer]) inside rfl)
          case hq =>
            intro _ w posts
            cases ha : w.postRefresh s.stored.token
            case error e =>
              simp only [DeviceOp.exec, ha]
              apply Wp.ite
              case hp => exact fun _ => wp_handleUnreachable ⟨token, peeked, hp⟩ inside
              case hq => exact fun _ => .error (.passed (errorAnswer_mem (posts.right _ _ ha)) inside rfl)
            case ok token =>
              simp only [DeviceOp.exec, ha]
              intro w _
              cases hf : w.writeFault
              case some e => simpa [DeviceOp.exec, hf, Device.orOther] using .error .failed
              case none   =>
                have closed : Attempted Refreshable (graceElapsed o.graceWindow) o.nowSec s .other
                    { s with stored := ⟨token, none⟩ } := .closed (by simp) inside rfl
                simpa [DeviceOp.exec, hf, Device.orOther] using .quiet (by simp [RefreshKind.IsGrace]) closed

-- The mark of the grace is taken back where the issuer is up.
theorem Client.wp_refresh (c : Client alg) (s : DeviceState GoString GoString Int64) :
    (c.refresh : Device β κ _).Wp DeviceOp.exec (fun w _ => Posts now w)
      (fun r s' => Attempted Refreshable (graceElapsed c.gracePeriodSec) now s (refreshAnswer r) s') s := by
  rw [Client.refresh, Device.readStore, call_bind, Wp.call_iff]
  intro w _
  cases hf : w.readFault
  case some e =>
    simp only [DeviceOp.exec, hf, Option.elim_some, Device.orOther, Prog.throw_bind]
    exact .failed
  case none =>
    simp only [DeviceOp.exec, hf, Option.elim_none, Device.orOther, Prog.pure_bind]
    intro w posts
    have clock : w.nowSec = now := posts.left
    simp only [DeviceOp.exec, clock]
    apply Wp.bind
    apply Wp.pure_iff.mpr
    apply Wp.bind
    have attempt : (Go.refresh { nowSec := now, graceWindowSec := some c.gracePeriodSec } : Device β κ _).Wp
        DeviceOp.exec (fun w _ => Posts now w) (Refreshed Refreshable (graceElapsed c.gracePeriodSec) now s) s :=
      Go.wp_refresh { nowSec := now, graceWindowSec := some c.gracePeriodSec } s
    apply Wp.mono _ attempt
    intro r s' refreshed
    cases r
    case error e => exact refreshed.attempted
    case ok out =>
      apply Wp.ite
      case hp => exact fun _ => refreshed.attempted
      case hq =>
        intro grace
        obtain ⟨-, g, granted⟩ := refreshed.told out rfl (not_not.mp grace)
        have attempted := granted ▸ refreshed.attempted
        intro w _
        apply Wp.ite
        case hp => exact fun _ => refreshed.attempted
        case hq =>
          intro _
          apply Wp.ite
          case hp =>
            intro _ w _
            cases hf : w.writeFault
            case some e =>
              simp only [DeviceOp.exec, hf, Device.orOther]
              exact refreshed.attempted.answered (by simp [refreshAnswer, errorAnswer]) rfl
            case none =>
              simp only [DeviceOp.exec, hf, Device.orOther]
              exact attempted.rolledBack (by simp [refreshAnswer, errorAnswer]) rfl
          case hq => exact fun _ => refreshed.attempted.answered (by simp [refreshAnswer, errorAnswer]) rfl

end Go

namespace Ts

variable {β κ : Type} {alg : β → JsString} {w : Surroundings JsString β κ Binary64 Value}
variable {s s' : DeviceState JsString (Option JsString) Binary64} {now : Binary64}

def Refreshable (state : TokenState) : Prop :=
  ∃ token metadata, state.token = some token ∧ peek token = .ok metadata

def graceElapsed (window start now : Binary64) : Prop :=
  zero.lt window ∧ (start.add window).lt now

theorem peek_error {token : JsString} {e : ClientError} (h : peek token = .error e) : ¬e.HasCode .graceExpired := by
  rintro ⟨message, rfl⟩
  rw [peek] at h
  split at h
  case h_1 => simp [Licensing.invalidTokenFormat] at h
  case h_2 => split at h <;> simp [Licensing.invalidTokenFormat] at h

theorem refreshedToken_error {data : Value} {e : ClientError} (h : refreshedToken data = .error e) :
    ¬e.HasCode .graceExpired := by
  rintro ⟨message, rfl⟩
  unfold refreshedToken at h
  split at h
  case h_3 => split at h <;> simp [Licensing.invalidTokenFormat] at h
  all_goals simp at h

-- The window is looked at once more, though the clock has been read before.
theorem wp_handleUnreachable {o : RefreshOptions} {token : JsString} {forced : Bool} (use : Refreshable s.stored)
    (current : s.stored.token = some token) (positive : zero.lt o.graceWindow)
    (inside : ∀ g, s.stored.graceStartSec = some g → ¬graceElapsed o.graceWindow g o.nowSec) :
    (handleUnreachable o token s.stored.graceStartSec forced : Device β κ _).Wp DeviceOp.exec
      (fun w _ => Posts o.nowSec w) (Refreshed Refreshable (graceElapsed o.graceWindow) o.nowSec s) s := by
  unfold handleUnreachable
  apply Wp.ite
  case hp => exact fun _ => .quiet (by simp [RefreshKind.IsGrace]) (.passed (by simp [refreshAnswer]) inside rfl)
  case hq =>
    intro _
    apply Wp.ite
    case hp => exact fun _ => .error (.passed (by simp [refreshAnswer, errorAnswer]) inside rfl)
    case hq =>
      intro _
      split
      case h_1 start hs =>
        apply Wp.ite
        case hp => exact fun past => absurd ⟨positive, past⟩ (inside start hs)
        case hq => exact fun _ => ⟨.used hs (inside start hs) rfl, fun _ _ _ => ⟨use, start, rfl⟩⟩
      case h_2 hs =>
        intro w _
        cases hf : w.writeFault
        case some e => simpa [DeviceOp.exec, hf, Device.orOther] using .error .failed
        case none   =>
          have opened : Attempted Refreshable (graceElapsed o.graceWindow) o.nowSec s (.granted o.nowSec)
              { s with stored := ⟨s.stored.token, some o.nowSec⟩ } := .opened (by simp) hs rfl
          rw [current] at opened
          simpa [DeviceOp.exec, hf, Device.orOther] using ⟨opened, fun _ _ _ => ⟨use, o.nowSec, rfl⟩⟩

theorem wp_refresh (o : RefreshOptions) (positive : zero.lt o.graceWindow)
    (s : DeviceState JsString (Option JsString) Binary64) :
    (refresh o : Device β κ _).Wp DeviceOp.exec (fun w _ => Posts o.nowSec w)
      (Refreshed Refreshable (graceElapsed o.graceWindow) o.nowSec s) s := by
  rw [refresh, Device.readStore, call_bind, Wp.call_iff]
  intro w _
  cases hf : w.readFault
  case some e => simpa [DeviceOp.exec, hf, Device.orOther] using .error .failed
  case none =>
    simp only [DeviceOp.exec, hf, Option.elim_none, Device.orOther, Prog.pure_bind]
    split
    case h_1 none =>
      refine .error (.unusable (by simp [refreshAnswer, errorAnswer]) (fun h => ?_) rfl)
      obtain ⟨token, _, some, _⟩ := h
      simp [none] at some
    case h_2 token some =>
      cases hp : peek token
      case error e =>
        refine .error (.unusable (errorAnswer_mem (peek_error hp)) (fun h => ?_) rfl)
        obtain ⟨token', metadata, some', ok⟩ := h
        cases some.symm.trans some'
        simp [hp] at ok
      case ok metadata =>
        rw [ofExcept_ok, Prog.pure_bind]
        have use : Refreshable s.stored := ⟨token, metadata, some, hp⟩
        apply Wp.ite
        case hp =>
          rintro ⟨_, past⟩
          rw [Option.any_eq_true] at past
          obtain ⟨g, start, past⟩ := past
          exact .error (.refused use start ⟨positive, past⟩)
        case hq =>
          intro current
          have inside : ∀ g, s.stored.graceStartSec = .some g → ¬graceElapsed o.graceWindow g o.nowSec := by
            rintro g start ⟨_, past⟩
            exact current ⟨positive, by simpa [start] using past⟩
          apply Wp.ite
          case hp =>
            exact fun _ => .quiet (by simp [RefreshKind.IsGrace]) (.passed (by simp [refreshAnswer]) inside rfl)
          case hq =>
            intro _ w posts
            cases ha : w.postRefresh token
            case error e =>
              simp only [DeviceOp.exec, ha]
              apply Wp.ite
              case hp => exact fun _ => wp_handleUnreachable use some positive inside
              case hq => exact fun _ => .error (.passed (errorAnswer_mem (posts.right _ _ ha)) inside rfl)
            case ok data =>
              simp only [DeviceOp.exec, ha]
              apply Wp.bind
              apply Wp.pure_iff.mpr
              cases hr : refreshedToken data
              case error e =>
                simp only [hr, ofExcept_error, Prog.throw_bind]
                exact Refreshed.error (.passed (errorAnswer_mem (refreshedToken_error hr)) inside rfl)
              case ok token =>
                simp only [hr, ofExcept_ok, Prog.pure_bind]
                intro w _
                cases hf : w.writeFault
                case some e => simpa [DeviceOp.exec, hf, Device.orOther] using .error .failed
                case none   =>
                  have closed : Attempted Refreshable (graceElapsed o.graceWindow) o.nowSec s .other
                      { s with stored := ⟨.some token, none⟩ } := .closed (by simp) inside rfl
                  simpa [DeviceOp.exec, hf, Device.orOther] using .quiet (by simp [RefreshKind.IsGrace]) closed

theorem Client.wp_refresh (c : Client alg) (positive : zero.lt c.gracePeriod)
    (s : DeviceState JsString (Option JsString) Binary64) :
    (c.refresh : Device β κ _).Wp DeviceOp.exec (fun w _ => Posts now w)
      (fun r s' => Attempted Refreshable (graceElapsed c.gracePeriod) now s (refreshAnswer r) s') s := by
  rw [Client.refresh, Device.readStore, call_bind, Wp.call_iff]
  intro w _
  cases hf : w.readFault
  case some e =>
    simp only [DeviceOp.exec, hf, Option.elim_some, Device.orOther, Prog.throw_bind]
    exact .failed
  case none =>
    simp only [DeviceOp.exec, hf, Option.elim_none, Device.orOther, Prog.pure_bind]
    intro w posts
    have clock : w.nowSec = now := posts.left
    simp only [DeviceOp.exec, clock]
    apply Wp.bind
    apply Wp.pure_iff.mpr
    apply Wp.bind
    have attempt : (Ts.refresh { nowSec := now, graceWindowSec := some c.gracePeriod } : Device β κ _).Wp
        DeviceOp.exec (fun w _ => Posts now w) (Refreshed Refreshable (graceElapsed c.gracePeriod) now s) s :=
      Ts.wp_refresh { nowSec := now, graceWindowSec := some c.gracePeriod } positive s
    apply Wp.mono _ attempt
    intro r s' refreshed
    cases r
    case error e => exact refreshed.attempted
    case ok out =>
      apply Wp.ite
      case hp => exact fun _ => refreshed.attempted
      case hq =>
        intro grace
        obtain ⟨use, g, granted⟩ := refreshed.told out rfl (not_not.mp grace)
        obtain ⟨token, _, some, _⟩ := use
        have attempted := granted ▸ refreshed.attempted
        intro w _
        apply Wp.ite
        case hp => exact fun _ => refreshed.attempted
        case hq =>
          intro _
          apply Wp.ite
          case hp =>
            intro _ w _
            cases hf : w.writeFault
            case some e =>
              simp only [DeviceOp.exec, hf, Device.orOther]
              exact refreshed.attempted.answered (by simp [refreshAnswer, errorAnswer]) rfl
            case none =>
              have same : (⟨.some (s.stored.token.getD out.token), s.stored.graceStartSec⟩ : TokenState) =
                  s.stored := by
                rw [some, Option.getD_some, ← some]
              simp only [DeviceOp.exec, hf, Device.orOther, same]
              exact attempted.rolledBack (by simp [refreshAnswer, errorAnswer]) rfl
          case hq => exact fun _ => refreshed.attempted.answered (by simp [refreshAnswer, errorAnswer]) rfl

end Ts

end Licensing
