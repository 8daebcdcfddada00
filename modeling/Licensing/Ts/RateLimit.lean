import Mathlib.Data.Rat.Floor
import Mathlib.Data.Finset.Card
import Licensing.Library.Interleave
import Licensing.Library.TokenBucket

-- Concurrent requests that pass the rate limit of the TypeScript port. A check reads the clock, and
-- then waits for the store twice.

namespace Licensing

namespace Ts

open Prog TokenBucket

namespace RateLimit

structure Bucket where
  tokens       : ℚ
  lastRefillMs : ℚ
  deriving DecidableEq

structure HandlerRequest where
  headers    : String → Option String
  remoteAddr : String

structure RateLimitOptions where
  burst        : ℚ
  refillPerSec : ℚ
  keyFn        : HandlerRequest → String := HandlerRequest.remoteAddr
  skipPublic   : Bool := false

inductive Op
  | now
  | get (key : String)
  | set (key : String) (bucket : Bucket)

@[reducible]
def Op.Ans : Op → Type
  | now     => ℚ
  | get _   => Option Bucket
  | set _ _ => Unit

inductive Outcome
  | next
  | tooMany (retryAfter : Int)
  deriving DecidableEq

abbrev Check := Prog Op Op.Ans Empty Outcome

def prevOf (opts : RateLimitOptions) (nowMs : ℚ) (existing : Option Bucket) : Bucket :=
  existing.getD { tokens := opts.burst, lastRefillMs := nowMs }

def refilledOf (opts : RateLimitOptions) (nowMs : ℚ) (prev : Bucket) : ℚ :=
  let elapsedSec := max 0 ((nowMs - prev.lastRefillMs) / 1000)
  min opts.burst (prev.tokens + elapsedSec * opts.refillPerSec)

def settle (opts : RateLimitOptions) (key : String) (nowMs : ℚ) (existing : Option Bucket) : Check :=
  let refilled := refilledOf opts nowMs (prevOf opts nowMs existing)
  if refilled < 1 then
    let needed := 1 - refilled
    let retryAfter := max 1 ⌈needed / opts.refillPerSec⌉
    call (.set key { tokens := refilled, lastRefillMs := nowMs }) fun () => .pure (.tooMany retryAfter)
  else
    call (.set key { tokens := refilled - 1, lastRefillMs := nowMs }) fun () => .pure .next

def check (opts : RateLimitOptions) (key : String) : Check :=
  call .now fun nowMs => call (.get key) (settle opts key nowMs)

-- The middleware that `rateLimit` builds.
def middleware (opts : RateLimitOptions) (req : HandlerRequest) : Check :=
  if opts.skipPublic && req.headers "x-licensing-route-public" = some "1" then .pure .next
  else check opts (opts.keyFn req)

abbrev Buckets := String → Option Bucket

abbrev Trace := List (Event Op Op.Ans Buckets)

-- The clock may show anything.
def exec {Tid : Type} (_ : Tid) (clock : ℚ) : (o : Op) → Buckets → Option (o.Ans × Buckets)
  | .now,            s => some (clock, s)
  | .get key,        s => some (s key, s)
  | .set key bucket, s => some ((), Function.update s key bucket)

-- What the clock showed to a check.
def reading : Trace → Option ℚ
  | []                => none
  | ⟨.now, _, n⟩ :: _ => some n
  | _ :: seen         => reading seen

abbrev Requests (Tid : Type) := Threads Tid Buckets Op Op.Ans Empty Outcome

section Run

variable {Tid : Type} [DecidableEq Tid]

def start (opts : RateLimitOptions) (reqs : Tid → HandlerRequest) : Requests Tid :=
  .initial (fun _ => none) fun i => middleware opts (reqs i)

def seconds (ms : ℚ) : ℚ := ms / 1000

-- A check let its request through, and the clock showed it this time.
structure AllowedAt (c : Requests Tid) (i : Tid) (nowMs : ℚ) : Prop where
  outcome : c.prog i = .pure .next
  time    : reading (c.seen i) = some nowMs

def WithinRate (opts : RateLimitOptions) (reqs : Tid → HandlerRequest) (c : Requests Tid) : Prop :=
  ∀ key, ∀ s t : ℚ, s ≤ t → ∀ allowed : Finset Tid,
    (∀ i ∈ allowed, opts.keyFn (reqs i) = key ∧ ∃ n, AllowedAt c i n ∧ s ≤ n ∧ n ≤ t) →
      allowed.card ≤ opts.burst + opts.refillPerSec * (seconds t - seconds s)

-- A check that writes finds the bucket it has read, and the clock has not gone back since then.
def undisturbed (s : Buckets) (seen : Tid → Trace) (i : Tid) : Op → Bool
  | .set key _ =>
    match seen i with
    | [⟨.get _, _, existing⟩, ⟨.now, _, nowMs⟩] =>
      s key = existing ∧ existing.all fun b => b.lastRefillMs ≤ nowMs
    | _ => true
  | _ => true

end Run

section Settle

variable {opts : RateLimitOptions} {key : String} {nowMs : ℚ} {existing : Option Bucket} {granted : List ℚ}

theorem seconds_le {n m : ℚ} : seconds n ≤ seconds m ↔ n ≤ m :=
  div_le_div_iff_of_pos_right (by decide +kernel)

def Bucket.account (b : Bucket) : Account ℚ := ⟨b.tokens, seconds b.lastRefillMs⟩

-- What the bucket of a key tells about the requests that it was granted.
inductive Paced (opts : RateLimitOptions) : Option Bucket → List ℚ → Prop
  | none : Paced opts none []
  | some {bucket granted} (metered : Metered opts.burst opts.refillPerSec granted bucket.account) :
    Paced opts (some bucket) granted

theorem Paced.refilled (h : Paced opts existing granted) (past : ∀ b ∈ existing, b.lastRefillMs ≤ nowMs) :
    Metered opts.burst opts.refillPerSec granted
      ⟨refilledOf opts nowMs (prevOf opts nowMs existing), seconds nowMs⟩ := by
  cases h
  case none => simpa [refilledOf, prevOf] using Metered.fresh (seconds nowMs)
  case some bucket metered =>
    have past : bucket.lastRefillMs ≤ nowMs := past bucket rfl
    apply metered.wait (seconds_le.mpr past)
    have elapsed : 0 ≤ seconds nowMs - seconds bucket.lastRefillMs := sub_nonneg.mpr (seconds_le.mpr past)
    have split : (nowMs - bucket.lastRefillMs) / 1000 = seconds nowMs - seconds bucket.lastRefillMs := sub_div ..
    simp only [refilledOf, prevOf, Option.getD_some, split, max_eq_right elapsed, Account.level, Bucket.account,
      mul_comm, le_refl]

theorem Paced.within_le (h : Paced opts existing granted) (burst : 0 < opts.burst) (refill : 0 < opts.refillPerSec)
    {s t : ℚ} (hst : s ≤ t) : within s t granted ≤ opts.burst + opts.refillPerSec * (t - s) := by
  cases h
  case some metered => exact metered.within_le burst.le refill.le hst
  case none => exact (Metered.fresh s).within_le burst.le refill.le hst

-- A check that has read the bucket of its key writes what is left of it.
theorem settle_cases (opts : RateLimitOptions) (key : String) (nowMs : ℚ) (existing : Option Bucket) :
    ∃ bucket outcome, settle opts key nowMs existing = call (.set key bucket) (fun () => .pure outcome) ∧
      ∀ granted, Paced opts existing granted → (∀ b ∈ existing, b.lastRefillMs ≤ nowMs) →
        Paced opts (some bucket) (if outcome = .next then seconds nowMs :: granted else granted) := by
  rw [settle]
  dsimp only
  split
  case isTrue =>
    refine ⟨_, _, rfl, fun granted paced past => .some ?_⟩
    exact paced.refilled past
  case isFalse enough =>
    refine ⟨_, _, rfl, fun granted paced past => .some ?_⟩
    exact (paced.refilled past).spend (not_lt.mp enough)

end Settle

section Invariant

variable {Tid : Type} [DecidableEq Tid] {opts : RateLimitOptions} {reqs : Tid → HandlerRequest}

-- How far a request has come.
inductive Phase (opts : RateLimitOptions) (key : String) : Trace → Check → Prop
  | skipped : Phase opts key [] (.pure .next)
  | fresh : Phase opts key [] (check opts key)
  | timed (s : Buckets) (nowMs : ℚ) :
    Phase opts key [⟨.now, s, nowMs⟩] (call (.get key) (settle opts key nowMs))
  | found (s s' : Buckets) (nowMs : ℚ) (existing : Option Bucket) :
    Phase opts key [⟨.get key, s', existing⟩, ⟨.now, s, nowMs⟩] (settle opts key nowMs existing)
  | settled (s s' s'' : Buckets) (nowMs : ℚ) (existing : Option Bucket) (bucket : Bucket) (outcome : Outcome) :
    Phase opts key [⟨.set key bucket, s'', ()⟩, ⟨.get key, s', existing⟩, ⟨.now, s, nowMs⟩] (.pure outcome)

theorem phase_middleware (opts : RateLimitOptions) (req : HandlerRequest) :
    Phase opts (opts.keyFn req) [] (middleware opts req) := by
  rw [middleware]
  split
  case isTrue  => exact .skipped
  case isFalse => exact .fresh

-- The requests of a key that were allowed, with their times, and what its bucket tells about them.
structure Inv (opts : RateLimitOptions) (reqs : Tid → HandlerRequest) (key : String) (c : Requests Tid) : Prop where
  phase : ∀ i, Phase opts (opts.keyFn (reqs i)) (c.seen i) (c.prog i)
  paced : ∃ granted : List (Tid × ℚ), Paced opts (c.shared key) (granted.map fun g => seconds g.2) ∧
    ∀ i n, opts.keyFn (reqs i) = key → AllowedAt c i n → (i, n) ∈ granted

omit [DecidableEq Tid] in
theorem inv_start (opts : RateLimitOptions) (reqs : Tid → HandlerRequest) (key : String) :
    Inv opts reqs key (start opts reqs) where
  phase := fun i => phase_middleware opts (reqs i)
  paced := by
    refine ⟨[], .none, ?_⟩
    intro i n _ allowed
    have time := allowed.time
    simp [start, Threads.initial, reading] at time

variable {key : String} {c c' : Requests Tid} {i j : Tid} {o : Op} {p : Check} {a : o.Ans} {s : Buckets} {n : ℚ}

theorem AllowedAt.of_answer_ne (h : AllowedAt (c.answer i o p a s) j n) (hj : j ≠ i) : AllowedAt c j n where
  outcome := by simpa [Threads.answer, hj] using h.outcome
  time    := by simpa [Threads.answer, hj] using h.time

theorem AllowedAt.of_answer_self (h : AllowedAt (c.answer i o p a s) i n) :
    p = .pure .next ∧ reading (⟨o, c.shared, a⟩ :: c.seen i) = some n :=
  ⟨by simpa [Threads.answer] using h.outcome, by simpa [Threads.answer] using h.time⟩

theorem Inv.phase_answer (h : Inv opts reqs key c)
    (phase : Phase opts (opts.keyFn (reqs i)) (⟨o, c.shared, a⟩ :: c.seen i) p) (j : Tid) :
    Phase opts (opts.keyFn (reqs j)) ((c.answer i o p a s).seen j) ((c.answer i o p a s).prog j) := by
  by_cases hj : j = i
  case pos =>
    subst hj
    simpa [Threads.answer] using phase
  case neg => simpa [Threads.answer, hj] using h.phase j

-- A check that only reads.
theorem Inv.answer_quiet (h : Inv opts reqs key c)
    (phase : Phase opts (opts.keyFn (reqs i)) (⟨o, c.shared, a⟩ :: c.seen i) p) (running : p ≠ .pure .next) :
    Inv opts reqs key (c.answer i o p a c.shared) where
  phase := h.phase_answer phase
  paced := by
    have ⟨granted, paced, known⟩ := h.paced
    refine ⟨granted, paced, fun j n hk allowed => ?_⟩
    by_cases hj : j = i
    case pos => exact absurd (hj ▸ allowed).of_answer_self.left running
    case neg => exact known j n hk (allowed.of_answer_ne hj)

-- A check that writes what is left of the bucket that it finds.
theorem Inv.answer_set (h : Inv opts reqs key c) {k : String} {bucket : Bucket} {outcome : Outcome} (nowMs : ℚ)
    (hk : opts.keyFn (reqs i) = k)
    (phase : Phase opts k (⟨.set k bucket, c.shared, ()⟩ :: c.seen i) (.pure outcome))
    (time : reading (c.seen i) = some nowMs)
    (next : ∀ granted, Paced opts (c.shared k) granted →
      Paced opts (some bucket) (if outcome = .next then seconds nowMs :: granted else granted)) :
    Inv opts reqs key (c.answer i (.set k bucket) (.pure outcome) () (Function.update c.shared k bucket)) where
  phase := h.phase_answer (hk ▸ phase)
  paced := by
    obtain ⟨granted, paced, known⟩ := h.paced
    by_cases hkey : key = k
    case neg =>
      have same : Function.update c.shared k (some bucket) key = c.shared key := Function.update_of_ne hkey _ _
      refine ⟨granted, by simpa [Threads.answer, same] using paced, fun j n hj allowed => ?_⟩
      have other : j ≠ i := by
        rintro rfl
        exact hkey (hj.symm.trans hk)
      exact known j n hj (allowed.of_answer_ne other)
    case pos =>
      subst hkey
      have paced := next _ paced
      have shared : (c.answer i (.set key bucket) (.pure outcome) () (Function.update c.shared key bucket)).shared key =
        some bucket := Function.update_self ..
      rw [shared]
      have self : ∀ {n}, AllowedAt (c.answer i (.set key bucket) (.pure outcome) ()
          (Function.update c.shared key bucket)) i n → outcome = .next ∧ n = nowMs := by
        intro n allowed
        obtain ⟨ho, hr⟩ := allowed.of_answer_self
        exact ⟨Prog.pure.inj ho, Option.some.inj (hr.symm.trans time)⟩
      by_cases allowed : outcome = .next
      case pos =>
        refine ⟨(i, nowMs) :: granted, by simpa [allowed] using paced, fun j n hj at_ => ?_⟩
        by_cases he : j = i
        case pos =>
          subst he
          simp [(self at_).right]
        case neg => exact List.mem_cons_of_mem _ (known j n hj (at_.of_answer_ne he))
      case neg =>
        refine ⟨granted, by simpa [allowed] using paced, fun j n hj at_ => ?_⟩
        by_cases he : j = i
        case pos => exact absurd (self (he ▸ at_)).left allowed
        case neg => exact known j n hj (at_.of_answer_ne he)

theorem settle_ne_next {nowMs : ℚ} {existing : Option Bucket} : settle opts key nowMs existing ≠ .pure .next := by
  have ⟨_, _, e, _⟩ := settle_cases opts key nowMs existing
  simp [e]

theorem Inv.step (h : Inv opts reqs key c) (e : Threads.Step exec undisturbed i c c') : Inv opts reqs key c' := by
  have phase := h.phase i
  cases e
  case intro ω o next a s next_op guarded answer =>
    generalize hseen : c.seen i = seen at phase
    rw [next_op] at phase
    generalize hprog : call o next = p at phase
    cases phase
    case skipped => cases hprog
    case settled => cases hprog
    case fresh =>
      rw [check] at hprog
      cases hprog
      cases answer
      exact h.answer_quiet (hseen ▸ .timed c.shared ω) (by simp)
    case timed s nowMs =>
      cases hprog
      cases answer
      exact h.answer_quiet (hseen ▸ .found s c.shared nowMs _) settle_ne_next
    case found s s' nowMs existing =>
      have ⟨bucket, outcome, settle, next⟩ := settle_cases opts (opts.keyFn (reqs i)) nowMs existing
      rw [settle] at hprog
      cases hprog
      cases answer
      simp only [undisturbed, hseen, Bool.decide_and, Bool.and_eq_true, decide_eq_true_eq] at guarded
      have ⟨same, past⟩ := guarded
      refine h.answer_set nowMs rfl (hseen ▸ .settled s s' c.shared nowMs existing bucket outcome) ?_ ?_
      case refine_1 => exact hseen ▸ rfl
      case refine_2 =>
        intro granted paced
        exact next granted (same ▸ paced) (by simpa [Option.all_eq_true] using past)

theorem Inv.run (key : String) (run : Threads.Run exec undisturbed (start opts reqs) c) : Inv opts reqs key c :=
  run.keeps _ (inv_start opts reqs key) fun _ e h => h.step e

end Invariant

end RateLimit

end Ts

end Licensing
