import Licensing.Client.Readings

-- What the validations of both ports make of the same payload.

namespace Licensing

open Device JsonText

-- The options of a validation, for either port.
structure CommonOptions where
  fingerprint      : String
  nowSec           : Int
  skewSec          : Option Int := none
  expectedAudience : Option String := none
  expectedIssuer   : Option String := none

-- In the Go port a skew that is not given is zero, and a pin that is not given is empty.
def CommonOptions.go {β : Type} {alg : β → Go.GoString} (o : CommonOptions)
    (verify : VerifyOptions alg) : Go.ValidateOptions alg where
  verify           := verify
  expectedAudience := Bytes.ofString (o.expectedAudience.getD "")
  expectedIssuer   := Bytes.ofString (o.expectedIssuer.getD "")
  fingerprint      := Bytes.ofString o.fingerprint
  nowSec           := .ofInt o.nowSec
  skewSec          := .ofInt (o.skewSec.getD 0)

def CommonOptions.ts {β : Type} {alg : β → Ts.JsString} (o : CommonOptions)
    (verify : VerifyOptions alg) : Ts.ValidateOptions alg where
  verify           := verify
  expectedAudience := o.expectedAudience.map .ofString
  expectedIssuer   := o.expectedIssuer.map .ofString
  fingerprint      := .ofString o.fingerprint
  nowSec           := .ofInt o.nowSec
  skewSec          := o.skewSec.map .ofInt

-- The values of both ports that are the same.

def SameString (s : Go.GoString) (u : Ts.JsString) : Prop :=
  ∃ t, s = Bytes.ofString t ∧ u = .ofString t

def SameNumber (i : Int64) (x : Binary64) : Prop :=
  x.Represents i.toInt

def SameAudience : Option (List Go.GoString) → Option Ts.Audience → Prop
  | none,    none             => True
  | some ss, some (.string u) => ∃ s, ss = [s] ∧ SameString s u
  | some ss, some (.array us) => List.Forall₂ SameString ss us
  | _,       _                => False

structure SameResult (r : ValidateResult Go.GoString Int64 Go.Map (Option (List Go.GoString)))
    (r' : ValidateResult Ts.JsString Binary64 Ts.Value (Option Ts.Audience)) : Prop where
  kid              : SameString r.kid r'.kid
  alg              : SameString r.alg r'.alg
  licenseID        : SameString r.licenseID r'.licenseID
  usageID          : SameString r.usageID r'.usageID
  scope            : SameString r.scope r'.scope
  status           : SameString r.status r'.status
  maxUsages        : SameNumber r.maxUsages r'.maxUsages
  iat              : SameNumber r.iat r'.iat
  nbf              : SameNumber r.nbf r'.nbf
  exp              : SameNumber r.exp r'.exp
  forceOnlineAfter : Option.Rel SameNumber r.forceOnlineAfter r'.forceOnlineAfter
  entitlements     : Option.Rel (fun m v => SameValue (.map m) v) r.entitlements r'.entitlements
  aud              : SameAudience r.aud r'.aud
  iss              : Option.Rel SameString r.iss r'.iss

-- The outcomes are results that are the same, or errors of the same code.
def Agree {α β : Type} (R : α → β → Prop) : Except ClientError α → Except ClientError β → Prop
  | .ok a,    .ok b     => R a b
  | .error e, .error e' => ∃ code, e.HasCode code ∧ e'.HasCode code
  | _,        _         => False

-- How an outcome ends: with a code, or without an error.
def EndsWith {α : Type} (x : Except ClientError α) (code : Option ClientErrorCode) : Prop :=
  match x with
  | .ok _    => code = none
  | .error e => ∃ c, code = some c ∧ e.HasCode c

open Classical in
-- The code of the first check that fails.
noncomputable def firstFailing {γ : Type} : List (Prop × γ) → Option γ
  | []               => none
  | (p, c) :: checks => if p then some c else firstFailing checks

section FirstFailing

variable {γ : Type} {p q : Prop} {c : γ} {checks checks' : List (Prop × γ)}

theorem firstFailing_ne (h : c ∉ checks.map Prod.snd) : firstFailing checks ≠ some c := by
  induction checks
  case nil => simp [firstFailing]
  case cons check checks ih =>
    rw [List.map_cons, List.mem_cons, not_or] at h
    rw [firstFailing]
    split
    case isTrue  => exact fun he => h.left (Option.some.inj he).symm
    case isFalse => exact ih h.right

-- The same code for two checks, if nothing that follows has it as well.
theorem firstFailing_cons_eq_iff (h : firstFailing checks ≠ some c) (h' : firstFailing checks' ≠ some c) :
    firstFailing ((p, c) :: checks) = firstFailing ((q, c) :: checks') ↔
      (p ↔ q) ∧ (¬p → firstFailing checks = firstFailing checks') := by
  rw [firstFailing, firstFailing]
  by_cases hp : p <;> by_cases hq : q <;> simp [hp, hq, h, Ne.symm h']

end FirstFailing

section Ends

variable {α β : Type} {code code' : Option ClientErrorCode}

theorem EndsWith.error {c : ClientErrorCode} {m : String} :
    EndsWith (.error (.client c m) : Except ClientError α) (some c) :=
  ⟨c, rfl, m, rfl⟩

-- A check that fails with one code, and what comes after it.
theorem EndsWith.check {p q : Prop} [Decidable p] {c : ClientErrorCode} {m : String} {x : Except ClientError α}
    {checks : List (Prop × ClientErrorCode)} (h : p ↔ q) (hx : EndsWith x (firstFailing checks)) :
    EndsWith ((if p then .error (.client c m) else .ok () : Except ClientError Unit) >>= fun _ => x)
      (firstFailing ((q, c) :: checks)) := by
  by_cases hp : p
  case pos => rw [if_pos hp, firstFailing, if_pos (h.mp hp)]; exact .error
  case neg => rw [if_neg hp, firstFailing, if_neg (mt h.mpr hp)]; exact hx

theorem EndsWith.passed {q : Prop} {c : ClientErrorCode} {x : Except ClientError α}
    {checks : List (Prop × ClientErrorCode)} (h : ¬q) (hx : EndsWith x (firstFailing checks)) :
    EndsWith ((.ok () : Except ClientError Unit) >>= fun _ => x) (firstFailing ((q, c) :: checks)) := by
  rw [firstFailing, if_neg h]
  exact hx

-- Two checks in one.
theorem EndsWith.checks {p p' q q' : Prop} [Decidable p] [Decidable q] {c c' : ClientErrorCode} {m m' : String}
    {x : Except ClientError α} {checks : List (Prop × ClientErrorCode)} (h : p ↔ p') (h' : q ↔ q')
    (hx : EndsWith x (firstFailing checks)) :
    EndsWith ((if p then .error (.client c m) else if q then .error (.client c' m') else .ok () :
      Except ClientError Unit) >>= fun _ => x) (firstFailing ((p', c) :: (q', c') :: checks)) := by
  by_cases hp : p
  case pos => rw [if_pos hp, firstFailing, if_pos (h.mp hp)]; exact .error
  case neg =>
    rw [if_neg hp, firstFailing, if_neg (mt h.mpr hp)]
    exact .check h' hx

-- The check of the status, and what comes after it.
theorem EndsWith.settled {checks : List (Prop × ClientErrorCode)} {y : Except ClientError Unit}
    {x : Except ClientError α} (hy : EndsWith y code) (hx : EndsWith x (firstFailing checks)) :
    EndsWith (y >>= fun _ => x) (firstFailing (code.elim checks fun c => [(True, c)])) := by
  cases y
  case ok _ =>
    cases hy
    exact hx
  case error e =>
    obtain ⟨c, rfl, he⟩ := hy
    exact ⟨c, by simp [firstFailing], he⟩

theorem EndsWith.exists_ok_iff {x : Except ClientError α} (h : EndsWith x code) : (∃ a, x = .ok a) ↔ code = none := by
  cases x
  case ok a    => exact iff_of_true ⟨a, rfl⟩ h
  case error e =>
    obtain ⟨c, rfl, -⟩ := h
    simp

-- Outcomes agree if they end alike, with the same results.
theorem agree_iff_of_endsWith {R : α → β → Prop} {x : Except ClientError α} {y : Except ClientError β}
    (hx : EndsWith x code) (hy : EndsWith y code') :
    Agree R x y ↔ code = code' ∧ ∀ a b, x = .ok a → y = .ok b → R a b := by
  cases x <;> cases y
  case ok.ok a b =>
    cases hx
    cases hy
    simp [Agree]
  case ok.error a e =>
    obtain ⟨c, rfl, -⟩ := hy
    cases hx
    simp [Agree]
  case error.ok e b =>
    obtain ⟨c, rfl, -⟩ := hx
    cases hy
    simp [Agree]
  case error.error e e' =>
    obtain ⟨c, rfl, m, rfl⟩ := hx
    obtain ⟨c', rfl, m', rfl⟩ := hy
    simp only [Agree, ClientError.HasCode, ClientError.client.injEq, Option.some.injEq, reduceCtorEq,
      false_implies, implies_true, and_true]
    constructor
    case mp =>
      rintro ⟨_, ⟨_, rfl, -⟩, _, h, -⟩
      exact h.symm
    case mpr =>
      rintro rfl
      exact ⟨c, ⟨m, rfl, rfl⟩, m', rfl, rfl⟩

end Ends

-- How the checks of a port come out for a payload, in the order in which they are made.
structure Findings where
  takes     : Prop
  early     : Prop
  late      : Prop
  status    : Option String
  overdue   : Prop
  foreign   : Prop
  elsewhere : Prop
  stranger  : Prop

namespace Findings

-- The code that a status is refused with.
def refusal (status : Option String) : Option ClientErrorCode :=
  if status = some "active" ∨ status = some "grace" then none
  else if status = some "revoked" then some .licenseRevoked
  else if status = some "suspended" then some .licenseSuspended
  else if status = some "expired" then some .tokenExpired
  else some .invalidTokenFormat

-- The checks that come after the status.
def pins (f : Findings) : List (Prop × ClientErrorCode) :=
  [(f.overdue, .requiresOnlineRefresh), (f.foreign, .fingerprintMismatch), (f.elsewhere, .audienceMismatch),
    (f.stranger, .issuerMismatch)]

-- The checks that come after the window.
def checked (f : Findings) : List (Prop × ClientErrorCode) :=
  (refusal f.status).elim f.pins fun c => [(True, c)]

noncomputable def code (f : Findings) : Option ClientErrorCode :=
  firstFailing ((¬f.takes, .invalidTokenFormat) :: (f.early, .tokenNotYetValid) :: (f.late, .tokenExpired) :: f.checked)

-- The checks that come before the deadline are passed.
structure Current (f : Findings) : Prop where
  early  : ¬f.early
  late   : ¬f.late
  status : f.status = some "active" ∨ f.status = some "grace"

-- A token in its window whose status is none that is known.
structure Unknown (f : Findings) : Prop where
  early  : ¬f.early
  late   : ¬f.late
  status : refusal f.status = some .invalidTokenFormat

-- All checks are passed.
structure Passed (f : Findings) : Prop extends f.Current where
  overdue   : ¬f.overdue
  foreign   : ¬f.foreign
  elsewhere : ¬f.elsewhere
  stranger  : ¬f.stranger

-- What the checks of two ports have to have in common, as far as they are made.
structure Matches (f g : Findings) : Prop where
  early     : f.early ↔ g.early
  late      : ¬f.early → f.status ≠ some "expired" → (f.late ↔ g.late)
  overdue   : f.Current → (f.overdue ↔ g.overdue)
  foreign   : f.Current → ¬f.overdue → (f.foreign ↔ g.foreign)
  elsewhere : f.Current → ¬f.overdue → ¬f.foreign → (f.elsewhere ↔ g.elsewhere)
  stranger  : f.Current → ¬f.overdue → ¬f.foreign → ¬f.elsewhere → (f.stranger ↔ g.stranger)

variable {f g : Findings}

theorem refusal_eq_none_iff {status : Option String} :
    refusal status = none ↔ status = some "active" ∨ status = some "grace" := by
  unfold refusal
  split
  case isTrue h  => simp [h]
  case isFalse h =>
    refine iff_of_false ?_ h
    repeat' split
    all_goals simp

theorem refusal_eq_expired_iff {status : Option String} :
    refusal status = some .tokenExpired ↔ status = some "expired" := by
  unfold refusal
  split
  case isTrue h  => obtain rfl | rfl := h <;> simp
  case isFalse   =>
    repeat' split
    all_goals simp_all

theorem refusal_ne_notYetValid (status : Option String) : refusal status ≠ some .tokenNotYetValid := by
  unfold refusal
  repeat' split
  all_goals simp

theorem pins_eq_iff : firstFailing f.pins = firstFailing g.pins ↔ (f.overdue ↔ g.overdue) ∧
    (¬f.overdue → (f.foreign ↔ g.foreign) ∧ (¬f.foreign → (f.elsewhere ↔ g.elsewhere) ∧
      (¬f.elsewhere → (f.stranger ↔ g.stranger)))) := by
  rw [pins, pins]
  rw [firstFailing_cons_eq_iff (firstFailing_ne (by simp)) (firstFailing_ne (by simp)),
    firstFailing_cons_eq_iff (firstFailing_ne (by simp)) (firstFailing_ne (by simp)),
    firstFailing_cons_eq_iff (firstFailing_ne (by simp)) (firstFailing_ne (by simp)),
    firstFailing_cons_eq_iff (by simp [firstFailing]) (by simp [firstFailing])]
  simp

theorem checked_ne {c : ClientErrorCode} (status : refusal f.status ≠ some c)
    (pins : c ∉ f.pins.map Prod.snd) : firstFailing f.checked ≠ some c := by
  unfold checked
  cases h : refusal f.status
  case none   => exact firstFailing_ne pins
  case some _ => simpa [firstFailing, h] using status

theorem code_of_takes (h : f.takes) :
    f.code = firstFailing ((f.early, .tokenNotYetValid) :: (f.late, .tokenExpired) :: f.checked) := by
  rw [code, firstFailing, if_neg (not_not.mpr h)]

theorem code_of_not_takes (h : ¬f.takes) : f.code = some .invalidTokenFormat := by
  rw [code, firstFailing, if_pos h]

-- A payload whose claims are taken is rejected for its format if its status is none that is known.
theorem code_eq_format_iff (h : f.takes) : f.code = some .invalidTokenFormat ↔ f.Unknown := by
  have pins : firstFailing f.pins ≠ some .invalidTokenFormat := firstFailing_ne (by simp [Findings.pins])
  have checked : firstFailing f.checked = some .invalidTokenFormat ↔ refusal f.status = some .invalidTokenFormat := by
    unfold Findings.checked
    cases refusal f.status
    case none   => simpa using pins
    case some c => simp [firstFailing]
  rw [code_of_takes h, firstFailing, firstFailing]
  constructor
  case mp =>
    intro he
    split at he
    case isTrue => contradiction
    case isFalse early =>
      split at he
      case isTrue => contradiction
      case isFalse late => exact ⟨early, late, checked.mp he⟩
  case mpr =>
    intro unknown
    rw [if_neg unknown.early, if_neg unknown.late, checked.mpr unknown.status]

theorem code_eq_none_iff (h : f.takes) : f.code = none ↔ f.Passed := by
  rw [code_of_takes h, firstFailing, firstFailing, checked]
  constructor
  case mp =>
    intro he
    split at he
    case isTrue => contradiction
    case isFalse early =>
      split at he
      case isTrue => contradiction
      case isFalse late =>
        cases hr : refusal f.status <;> rw [hr] at he
        case some c => simp [firstFailing] at he
        case none   =>
          have hp : ¬f.overdue ∧ ¬f.foreign ∧ ¬f.elsewhere ∧ ¬f.stranger := by
            simpa [pins, firstFailing, ite_eq_iff] using he
          exact ⟨⟨early, late, refusal_eq_none_iff.mp hr⟩, hp.1, hp.2.1, hp.2.2.1, hp.2.2.2⟩
  case mpr =>
    intro hp
    rw [if_neg hp.early, if_neg hp.late, refusal_eq_none_iff.mpr hp.status]
    simp [pins, firstFailing, hp.overdue, hp.foreign, hp.elsewhere, hp.stranger]

-- The codes of payloads that both ports take.
theorem code_eq_iff_matches (hf : f.takes) (hg : g.takes) (status : f.status = g.status) :
    f.code = g.code ↔ f.Matches g := by
  have early (h : Findings) : firstFailing ((h.late, .tokenExpired) :: h.checked) ≠ some .tokenNotYetValid := by
    rw [firstFailing]
    split
    case isTrue  => simp
    case isFalse => exact checked_ne (refusal_ne_notYetValid _) (by simp [pins])
  rw [code_of_takes hf, code_of_takes hg, firstFailing_cons_eq_iff (early f) (early g)]
  by_cases expired : f.status = some "expired"
  case pos =>
    have ended (h : Findings) (he : h.status = some "expired") :
        firstFailing ((h.late, .tokenExpired) :: h.checked) = some .tokenExpired := by
      rw [firstFailing, checked, refusal_eq_expired_iff.mpr he]
      split <;> simp [firstFailing]
    have current : ¬f.Current := fun h => by
      have := h.status
      simp [expired] at this
    rw [ended f expired, ended g (status ▸ expired)]
    exact ⟨fun h => ⟨h.left, fun _ hn => absurd expired hn, fun h => absurd h current, fun h => absurd h current,
      fun h => absurd h current, fun h => absurd h current⟩, fun h => ⟨h.early, fun _ => rfl⟩⟩
  case neg =>
    have late (h : Findings) (he : h.status ≠ some "expired") : firstFailing h.checked ≠ some .tokenExpired :=
      checked_ne (fun hr => he (refusal_eq_expired_iff.mp hr)) (by simp [pins])
    rw [firstFailing_cons_eq_iff (late f expired) (late g (status ▸ expired)), checked, checked, ← status]
    cases hr : refusal f.status
    case some c =>
      have current : ¬f.Current := fun h => by
        have := refusal_eq_none_iff.mpr h.status
        simp [hr] at this
      simp only [Option.elim_some, implies_true, and_true]
      exact ⟨fun h => ⟨h.left, fun he _ => h.right he, fun h => absurd h current, fun h => absurd h current,
        fun h => absurd h current, fun h => absurd h current⟩, fun h => ⟨h.early, fun he => h.late he expired⟩⟩
    case none =>
      have current : f.Current ↔ ¬f.early ∧ ¬f.late :=
        ⟨fun h => ⟨h.early, h.late⟩, fun h => ⟨h.left, h.right, refusal_eq_none_iff.mp hr⟩⟩
      simp only [Option.elim_none, pins_eq_iff]
      constructor
      case mp =>
        rintro ⟨he, hl⟩
        refine ⟨he, fun hn _ => (hl hn).left, ?_, ?_, ?_, ?_⟩
        all_goals
          intro hc
          obtain ⟨ho, hp⟩ := (hl hc.early).right hc.late
        · exact ho
        · exact fun h₁ => (hp h₁).left
        · exact fun h₁ h₂ => ((hp h₁).right h₂).left
        · exact fun h₁ h₂ h₃ => ((hp h₁).right h₂).right h₃
      case mpr =>
        intro m
        refine ⟨m.early, fun hn => ⟨m.late hn expired, fun hl => ?_⟩⟩
        have hc := current.mpr ⟨hn, hl⟩
        exact ⟨m.overdue hc, fun h₁ => ⟨m.foreign hc h₁, fun h₂ => ⟨m.elsewhere hc h₁ h₂,
          fun h₃ => m.stranger hc h₁ h₂ h₃⟩⟩⟩

end Findings

section Port

variable (o : CommonOptions) (ms : List (List Piece × Raw))

-- The comparisons with the clock. A skew of zero or less is the default one in the Go port.

def Go.skewOf (o : CommonOptions) : Int64 :=
  if 0 < Int64.ofInt (o.skewSec.getD 0) then .ofInt (o.skewSec.getD 0) else 60

def Ts.skewOf (o : CommonOptions) : Binary64 :=
  .ofInt (o.skewSec.getD 60)

def Go.Early : Prop :=
  ∃ nbf ∈ int64Of? (claim? ms "nbf"), .ofInt o.nowSec + Go.skewOf o < nbf

def Ts.Early : Prop :=
  ∃ nbf ∈ doubleOf? (member? "nbf" (.obj ms)), ((Binary64.ofInt o.nowSec).add (Ts.skewOf o)).lt nbf

def Go.Late : Prop :=
  ∃ exp ∈ int64Of? (claim? ms "exp"), exp + Go.skewOf o < .ofInt o.nowSec

def Ts.Late : Prop :=
  ∃ exp ∈ doubleOf? (member? "exp" (.obj ms)), (exp.add (Ts.skewOf o)).lt (.ofInt o.nowSec)

def Go.Overdue : Prop :=
  ∃ deadline ∈ int64Of? (claim? ms "force_online_after"), deadline ≤ .ofInt o.nowSec

def Ts.Overdue : Prop :=
  ∃ deadline ∈ doubleOf? (member? "force_online_after" (.obj ms)), deadline.le (.ofInt o.nowSec)

-- A pin that the payload meets. An empty one is none in the Go port.

def Go.MeetsAudience (t : String) : Prop :=
  t = "" ∨ Bytes.ofString t ∈ stringsOf Go.stringOf (claim? ms "aud")

def Ts.MeetsAudience (t : String) : Prop :=
  Ts.JsString.ofString t ∈ stringsOf units (member? "aud" (.obj ms))

def Go.MeetsIssuer (t : String) : Prop :=
  t = "" ∨ stringOf? (claim? ms "iss") = some t

def Ts.MeetsIssuer (t : String) : Prop :=
  unitsOf? (member? "iss" (.obj ms)) = some (.ofString t)

def Go.findings : Findings where
  takes     := Go.Takes ms
  early     := Go.Early o ms
  late      := Go.Late o ms
  status    := stringOf? (claim? ms "status")
  overdue   := Go.Overdue o ms
  foreign   := stringOf? (claim? ms "usage_fingerprint") ≠ some o.fingerprint
  elsewhere := ∃ t ∈ o.expectedAudience, ¬Go.MeetsAudience ms t
  stranger  := ∃ t ∈ o.expectedIssuer, ¬Go.MeetsIssuer ms t

def Ts.findings : Findings where
  takes     := Ts.Takes ms
  early     := Ts.Early o ms
  late      := Ts.Late o ms
  status    := stringOf? (member? "status" (.obj ms))
  overdue   := Ts.Overdue o ms
  foreign   := unitsOf? (member? "usage_fingerprint" (.obj ms)) ≠ some (.ofString o.fingerprint)
  elsewhere := ∃ t ∈ o.expectedAudience, ¬Ts.MeetsAudience ms t
  stranger  := ∃ t ∈ o.expectedIssuer, ¬Ts.MeetsIssuer ms t

end Port

-- What the outcome of a validation is, once the token is verified.

section Validated

variable {β β' : Type} {alg : β → Go.GoString} {alg' : β' → Ts.JsString} {o : CommonOptions}
  {ms : List (List Piece × Raw)} {verify : VerifyOptions alg} {verify' : VerifyOptions alg'}

def Go.validated (opts : Go.ValidateOptions alg) (header : EnvelopeHeader Go.GoString) (p : Go.Map) :
    Except ClientError (ValidateResult Go.GoString Int64 Go.Map (Option (List Go.GoString))) := do
  let c ← Go.assertClaimShape p
  let _ ← Go.checkClaims opts c
  return c.result header

def Ts.validated (opts : Ts.ValidateOptions alg') (header : EnvelopeHeader Ts.JsString) (p : Ts.Value) :
    Except ClientError (ValidateResult Ts.JsString Binary64 Ts.Value (Option Ts.Audience)) := do
  let c ← Ts.assertClaimShape p
  let _ ← Ts.checkClaims opts c
  return c.result header

theorem Ts.skew_ts : (o.ts verify').skew = Ts.skewOf o :=
  Option.getD_map Binary64.ofInt 60 o.skewSec

theorem Go.endsWith_checkStatus {c : Go.Claims} {t : String} (hc : c.status = Bytes.ofString t) :
    EndsWith (Go.checkStatus c) (Findings.refusal (some t)) := by
  simp only [Go.checkStatus, hc, Bytes.ofString_injective.eq_iff, Findings.refusal, Option.some.injEq]
  repeat' split
  all_goals first | rfl | exact .error

theorem Ts.endsWith_checkStatus {c : Ts.Claims} {t : String}
    (hc : ∀ s : String, '\ufffd' ∉ s.toList → (c.status = .ofString s ↔ t = s)) :
    EndsWith (Ts.checkStatus c) (Findings.refusal (some t)) := by
  simp only [Ts.checkStatus, hc "active" (by decide), hc "grace" (by decide), hc "suspended" (by decide),
    hc "revoked" (by decide), hc "expired" (by decide), Findings.refusal, Option.some.injEq]
  split
  case isTrue => rfl
  case isFalse =>
    by_cases hs : t = "suspended"
    case pos => subst hs; exact .error
    case neg =>
      rw [if_neg hs, if_neg hs]
      repeat' split
      all_goals exact .error

-- Whatever fails with a code for which the predicate holds.
def FailsWith {α : Type} (P : ClientErrorCode → Prop) (x : Except ClientError α) : Prop :=
  ∀ e, x = .error e → ∃ code, P code ∧ e.HasCode code

namespace FailsWith

variable {α α' : Type} {P : ClientErrorCode → Prop} {x : Except ClientError α}

theorem ok (a : α) : FailsWith P (.ok a) :=
  nofun

theorem client {code : ClientErrorCode} {m : String} (h : P code) :
    FailsWith P (.error (.client code m) : Except ClientError α) := by
  rintro _ ⟨⟩
  exact ⟨code, h, m, rfl⟩

theorem bind {f : α → Except ClientError α'} (h : FailsWith P x) (hf : ∀ a, FailsWith P (f a)) :
    FailsWith P (x >>= f) := by
  cases x with
  | ok a    => exact hf a
  | error e => exact fun _ he => h _ (congrArg _ (Except.error.inj he))

theorem ite {p : Prop} [Decidable p] {x' : Except ClientError α} (h : FailsWith P x)
    (h' : FailsWith P x') : FailsWith P (if p then x else x') := by
  split <;> assumption

end FailsWith

-- What fails for the format of a payload only.
def FormatOnly {α : Type} (x : Except ClientError α) : Prop :=
  FailsWith (· = .invalidTokenFormat) x

theorem Go.formatOnly_audience : (xs : List Go.Value) → FormatOnly (Go.audience xs)
  | []      => .ok _
  | x :: xs => by
    rw [Go.audience]
    split
    case h_1 => exact (formatOnly_audience xs).bind fun _ => .ok _
    case h_2 => exact .client rfl

theorem Ts.formatOnly_audience : (xs : List Ts.Value) → FormatOnly (Ts.audience xs)
  | []      => .ok _
  | x :: xs => by
    rw [Ts.audience]
    split
    case h_1 => exact (formatOnly_audience xs).bind fun _ => .ok _
    case h_2 => exact .client rfl

theorem Go.formatOnly_assertClaimShape (p : Go.Map) : FormatOnly (Go.assertClaimShape p) := by
  have string key : FormatOnly (Go.requiredString p key) := by
    unfold Go.requiredString
    split <;> [exact .ok _; exact .client rfl]
  have int64 key : FormatOnly (Go.requiredInt64 p key) := by
    unfold Go.requiredInt64
    split <;> [exact .ok _; exact .client rfl]
  have aud : FormatOnly (Go.parseAud p) := by
    unfold Go.parseAud
    split
    case h_4 xs _ => exact (Go.formatOnly_audience xs).bind fun _ => .ok _
    all_goals first | exact .ok _ | exact .client rfl
  have iss : FormatOnly (Go.parseIss p) := by
    unfold Go.parseIss
    split <;> first | exact .ok _ | exact .client rfl
  exact (string _).bind fun _ => (int64 _).bind fun _ => (int64 _).bind fun _ => (int64 _).bind fun _ =>
    (string _).bind fun _ => (string _).bind fun _ => (string _).bind fun _ => (string _).bind fun _ =>
    (string _).bind fun _ => (int64 _).bind fun _ => aud.bind fun _ => iss.bind fun _ => .ok _

theorem Ts.formatOnly_assertClaimShape (p : Ts.Value) : FormatOnly (Ts.assertClaimShape p) := by
  have req key : FormatOnly (Ts.req p key) := by
    unfold Ts.req
    split <;> [exact .ok _; exact .client rfl]
  have asNumber key v : FormatOnly (Ts.asNumber key v) := by
    unfold Ts.asNumber
    split <;> [exact .ok _; exact .client rfl]
  have string key : FormatOnly (Ts.requiredString p key) := by
    refine (req key).bind fun v => ?_
    unfold Ts.asString
    split <;> [exact .ok _; exact .client rfl]
  have number key : FormatOnly (Ts.requiredNumber p key) :=
    (req key).bind fun v => asNumber key v
  have forceOnlineAfter : FormatOnly (Ts.parseForceOnlineAfter p) := by
    unfold Ts.parseForceOnlineAfter
    split
    case h_3 v _ _ => exact (asNumber _ v).bind fun _ => .ok _
    all_goals exact .ok _
  have entitlements : FormatOnly (Ts.parseEntitlements p) := by
    unfold Ts.parseEntitlements
    split <;> first | exact .ok _ | exact .client rfl
  have aud : FormatOnly (Ts.parseAud p) := by
    unfold Ts.parseAud
    split
    case h_4 xs _ => exact (Ts.formatOnly_audience xs).bind fun _ => .ok _
    all_goals first | exact .ok _ | exact .client rfl
  have iss : FormatOnly (Ts.parseIss p) := by
    unfold Ts.parseIss
    split <;> first | exact .ok _ | exact .client rfl
  exact (string _).bind fun _ => (number _).bind fun _ => (number _).bind fun _ => (number _).bind fun _ =>
    (string _).bind fun _ => (string _).bind fun _ => (string _).bind fun _ => (string _).bind fun _ =>
    (string _).bind fun _ => (number _).bind fun _ => forceOnlineAfter.bind fun _ =>
    entitlements.bind fun _ => aud.bind fun _ => iss.bind fun _ => .ok _

-- What a claim is, as it is asked about.
theorem exists_mem_iff_of_eq {α : Type} {a : α} {a? : Option α} (h : a? = some a) (p : α → Prop) :
    (∃ x ∈ a?, p x) ↔ p a := by
  simp [h]

theorem Go.endsWith_checkForceOnline {c : Go.Claims} {α : Type} {x : Except ClientError α}
    {checks : List (Prop × ClientErrorCode)}
    (hc : int64Of? (claim? ms "force_online_after") = c.forceOnlineAfter) (hx : EndsWith x (firstFailing checks)) :
    EndsWith (Go.checkForceOnline (o.go verify) c >>= fun _ => x)
      (firstFailing (((Go.findings o ms).overdue, .requiresOnlineRefresh) :: checks)) := by
  rw [Go.checkForceOnline, ← hc]
  cases hd : int64Of? (claim? ms "force_online_after")
  case none   => exact .passed (by simp [Go.findings, Go.Overdue, hd]) hx
  case some d => exact .check (exists_mem_iff_of_eq hd (· ≤ Int64.ofInt o.nowSec)).symm hx

theorem Go.foreign_iff {fp : Go.GoString}
    (h : (stringOf? (claim? ms "usage_fingerprint")).map Bytes.ofString = some fp) :
    fp ≠ (o.go verify).fingerprint ↔ (Go.findings o ms).foreign := by
  obtain ⟨t, ht, rfl⟩ := Option.map_eq_some_iff.mp h
  simp only [Go.findings, CommonOptions.go, ht, ne_eq, Bytes.ofString_injective.eq_iff, Option.some.injEq]

theorem Go.getD_audienceOf (raw? : Option Raw) : (Go.audienceOf raw?).getD [] = stringsOf Go.stringOf raw? := by
  cases raw? with
  | none     => rfl
  | some raw => cases raw <;> rfl

theorem Go.ofString_ne_nil_iff {t : String} : Bytes.ofString t ≠ [] ↔ t ≠ "" :=
  Bytes.ofString_injective.ne_iff (y := "")

theorem Go.elsewhere_iff {aud : Option (List Go.GoString)} (h : Go.audienceOf (claim? ms "aud") = aud) :
    (o.go verify).expectedAudience ≠ [] ∧ ¬Go.audContains aud (o.go verify).expectedAudience ↔
      (Go.findings o ms).elsewhere := by
  subst h
  have contains (target : Go.GoString) : Go.audContains (Go.audienceOf (claim? ms "aud")) target ↔
      target ∈ stringsOf Go.stringOf (claim? ms "aud") := by
    simp [Go.audContains, Go.getD_audienceOf]
  simp only [Go.findings, Go.MeetsAudience, CommonOptions.go, contains, Go.ofString_ne_nil_iff, not_or]
  cases o.expectedAudience <;> simp

theorem Go.stranger_iff {iss : Option Go.GoString}
    (h : (stringOf? (claim? ms "iss")).map Bytes.ofString = iss) :
    (o.go verify).expectedIssuer ≠ [] ∧ iss.getD [] ≠ (o.go verify).expectedIssuer ↔
      (Go.findings o ms).stranger := by
  subst h
  simp only [Go.findings, Go.MeetsIssuer, CommonOptions.go, not_or]
  cases o.expectedIssuer with
  | none   => simp [Go.ofString_ne_nil_iff]
  | some t =>
    simp only [Option.getD_some, Go.ofString_ne_nil_iff, Option.mem_some, exists_eq_left']
    refine and_congr_right fun ht => ?_
    cases stringOf? (claim? ms "iss") with
    | none   => simpa using (Go.ofString_ne_nil_iff.mpr ht).symm
    | some s => simp [Bytes.ofString_injective.eq_iff]

theorem Go.endsWith_validated (header : EnvelopeHeader Go.GoString) :
    EndsWith (Go.validated (o.go verify) header (Go.ofMembers ms)) (Go.findings o ms).code := by
  by_cases takes : Go.Takes ms
  case neg =>
    rw [Findings.code_of_not_takes takes]
    cases hs : Go.assertClaimShape (Go.ofMembers ms)
    case ok c    => exact absurd (Go.takes_iff.mpr ⟨c, Go.assertClaimShape_eq_ok_iff.mp hs⟩) takes
    case error e =>
      rw [Go.validated, hs]
      obtain ⟨_, rfl, he⟩ := Go.formatOnly_assertClaimShape _ e hs
      exact ⟨_, rfl, he⟩
  case pos =>
    obtain ⟨c, hc⟩ := Go.takes_iff.mp takes
    obtain ⟨t, status, hst⟩ := Option.map_eq_some_iff.mp (Go.claimString_ofMembers ▸ hc.status)
    have nbf : int64Of? (claim? ms "nbf") = some c.nbf := Go.claimOptInt64_ofMembers ▸ hc.nbf
    have exp : int64Of? (claim? ms "exp") = some c.exp := Go.claimOptInt64_ofMembers ▸ hc.exp
    have online : int64Of? (claim? ms "force_online_after") = c.forceOnlineAfter :=
      Go.claimOptInt64_ofMembers ▸ hc.forceOnlineAfter
    have fingerprint : (stringOf? (claim? ms "usage_fingerprint")).map Bytes.ofString = some c.usageFingerprint :=
      Go.claimString_ofMembers ▸ hc.usageFingerprint
    rw [Findings.code_of_takes takes, Go.validated, Go.assertClaimShape_eq_ok_iff.mpr hc, ok_bind]
    simp only [Go.checkClaims, bind_assoc]
    refine .checks (exists_mem_iff_of_eq nbf _).symm
      (exists_mem_iff_of_eq exp fun exp => exp + Go.skewOf o < .ofInt o.nowSec).symm ?_
    rw [Findings.checked, show (Go.findings o ms).status = some t from status]
    refine .settled (Go.endsWith_checkStatus hst.symm) ?_
    refine Go.endsWith_checkForceOnline online ?_
    refine .check (Go.foreign_iff fingerprint) ?_
    refine .check (Go.elsewhere_iff (Go.parseAud_eq_ok_iff.mp hc.aud).right) ?_
    exact .check (Go.stranger_iff (Go.parseIss_eq_ok_iff.mp hc.iss).right) rfl

theorem Ts.early_iff {nbf : Binary64} (h : doubleOf? (member? "nbf" (.obj ms)) = some nbf) :
    ((o.ts verify').nowSec.add (o.ts verify').skew).lt nbf ↔ (Ts.findings o ms).early := by
  rw [Ts.skew_ts]
  simp only [Ts.findings, Ts.Early, CommonOptions.ts, h, Option.mem_some, exists_eq_left']

theorem Ts.late_iff {exp : Binary64} (h : doubleOf? (member? "exp" (.obj ms)) = some exp) :
    (exp.add (o.ts verify').skew).lt (o.ts verify').nowSec ↔ (Ts.findings o ms).late := by
  rw [Ts.skew_ts]
  simp only [Ts.findings, Ts.Late, CommonOptions.ts, h, Option.mem_some, exists_eq_left']

theorem Ts.foreign_iff {fp : Ts.JsString} (h : unitsOf? (member? "usage_fingerprint" (.obj ms)) = some fp) :
    fp ≠ (o.ts verify').fingerprint ↔ (Ts.findings o ms).foreign := by
  simp only [Ts.findings, CommonOptions.ts, h, ne_eq, Option.some.injEq]

theorem Ts.endsWith_checkForceOnline {c : Ts.Claims} {α : Type} {x : Except ClientError α}
    {checks : List (Prop × ClientErrorCode)}
    (hc : doubleOf? (member? "force_online_after" (.obj ms)) = c.forceOnlineAfter)
    (hx : EndsWith x (firstFailing checks)) : EndsWith (Ts.checkForceOnline (o.ts verify') c >>= fun _ => x)
      (firstFailing (((Ts.findings o ms).overdue, .requiresOnlineRefresh) :: checks)) := by
  rw [Ts.checkForceOnline, ← hc]
  cases hd : doubleOf? (member? "force_online_after" (.obj ms))
  case none   => exact .passed (by simp [Ts.findings, Ts.Overdue, hd]) hx
  case some d =>
    refine .check ?_ hx
    simp only [Ts.findings, Ts.Overdue, CommonOptions.ts, hd, Option.mem_some, exists_eq_left']

theorem Ts.audMatches_audienceOf (expected : Ts.JsString) (raw? : Option Raw) :
    Ts.audMatches expected (Ts.audienceOf raw?) ↔ expected ∈ stringsOf units raw? := by
  cases raw? with
  | none     => simp [Ts.audMatches, Ts.audienceOf, stringsOf]
  | some raw => cases raw <;> simp [Ts.audMatches, Ts.audienceOf, stringsOf, eq_comm]

theorem Ts.endsWith_checkAudience {c : Ts.Claims} {α : Type} {x : Except ClientError α}
    {checks : List (Prop × ClientErrorCode)} (hc : Ts.audienceOf (member? "aud" (.obj ms)) = c.aud)
    (hx : EndsWith x (firstFailing checks)) : EndsWith (Ts.checkAudience (o.ts verify') c >>= fun _ => x)
      (firstFailing (((Ts.findings o ms).elsewhere, .audienceMismatch) :: checks)) := by
  rw [Ts.checkAudience, ← hc]
  simp only [Ts.findings, Ts.MeetsAudience, CommonOptions.ts]
  cases o.expectedAudience with
  | none   => exact .passed (by simp) hx
  | some t =>
    dsimp only [Option.map_some]
    rw [← ite_not]
    exact .check (by simp [Ts.audMatches_audienceOf]) hx

theorem Ts.endsWith_checkIssuer {c : Ts.Claims} {α : Type} {x : Except ClientError α}
    {checks : List (Prop × ClientErrorCode)} (hc : unitsOf? (member? "iss" (.obj ms)) = c.iss)
    (hx : EndsWith x (firstFailing checks)) : EndsWith (Ts.checkIssuer (o.ts verify') c >>= fun _ => x)
      (firstFailing (((Ts.findings o ms).stranger, .issuerMismatch) :: checks)) := by
  rw [Ts.checkIssuer, ← hc]
  simp only [Ts.findings, Ts.MeetsIssuer, CommonOptions.ts]
  cases o.expectedIssuer with
  | none   => exact .passed (by simp) hx
  | some t => exact .check (by simp) hx

theorem Ts.status_iff {c : Ts.Claims} {ps : List Piece} (h : units ps = c.status) (s : String)
    (hs : '\ufffd' ∉ s.toList) : c.status = .ofString s ↔ String.ofList (JsonText.text ps) = s := by
  rw [← h, eq_comm, Ts.JsString.ofString, ← units_eq_iff hs, ← String.toList_inj, String.toList_ofList, eq_comm]

theorem Ts.endsWith_validated (hd : (Raw.obj ms).Distinct Go.stringOf) (header : EnvelopeHeader Ts.JsString) :
    EndsWith (Ts.validated (o.ts verify') header (Ts.ofRaw (.obj ms))) (Ts.findings o ms).code := by
  by_cases takes : Ts.Takes ms
  case neg =>
    rw [Findings.code_of_not_takes takes]
    cases hs : Ts.assertClaimShape (Ts.ofRaw (.obj ms))
    case ok c    => exact absurd ((Ts.assertClaimShape_eq_ok_iff hd).mp hs).left takes
    case error e =>
      rw [Ts.validated, hs]
      obtain ⟨_, rfl, he⟩ := Ts.formatOnly_assertClaimShape _ e hs
      exact ⟨_, rfl, he⟩
  case pos =>
    obtain ⟨c, shape⟩ := (Ts.takes_iff hd).mp takes
    obtain ⟨-, hc⟩ := (Ts.assertClaimShape_eq_ok_iff hd).mp shape
    obtain ⟨ps, hps⟩ := takes.required.strings "status" (by decide)
    have units : units ps = c.status := by simpa [hps, unitsOf?] using hc.status
    have status : (Ts.findings o ms).status = some (.ofList (JsonText.text ps)) := by
      simp only [Ts.findings, hps, stringOf?]
    rw [Findings.code_of_takes takes, Ts.validated, shape, ok_bind]
    simp only [Ts.checkClaims, bind_assoc]
    have early : ((o.ts verify').nowSec.add (o.ts verify').skew).lt c.nbf ↔ (Ts.findings o ms).early :=
      Ts.early_iff hc.nbf
    have late : (c.exp.add (o.ts verify').skew).lt (o.ts verify').nowSec ↔ (Ts.findings o ms).late :=
      Ts.late_iff hc.exp
    rw [Ts.checkWindow]
    generalize (o.ts verify').nowSec.add (o.ts verify').skew = sum at early ⊢
    generalize c.exp.add (o.ts verify').skew = sum' at late ⊢
    refine .checks early late ?_
    rw [Findings.checked, status]
    refine .settled (Ts.endsWith_checkStatus (Ts.status_iff units)) ?_
    refine Ts.endsWith_checkForceOnline hc.forceOnlineAfter ?_
    refine .check (Ts.foreign_iff hc.usageFingerprint) ?_
    exact Ts.endsWith_checkAudience hc.aud (Ts.endsWith_checkIssuer hc.iss rfl)

end Validated

-- The results are the same.
section Results

variable {ms : List (List Piece × Raw)} {name : String}

theorem sameString_iff {ps : List Piece} : SameString (Go.stringOf ps) (units ps) ↔ paired (units ps) := by
  constructor
  case mp =>
    rintro ⟨t, -, h⟩
    exact h ▸ paired_utf16 t.toList
  case mpr =>
    intro h
    exact ⟨.ofList (JsonText.text ps), rfl, by rw [ofString_ofList_text, (utf16_text_iff ps).mpr h]⟩

theorem forall₂_sameString_iff {xs : List Raw} (h : ∀ x ∈ xs, ∃ ps, x = .str ps) :
    List.Forall₂ SameString (stringsOf Go.stringOf (some (.arr xs))) (stringsOf units (some (.arr xs))) ↔
      PlainElements xs := by
  induction xs
  case nil => simp [stringsOf, PlainElements]
  case cons x xs ih =>
    rw [List.forall_mem_cons] at h
    obtain ⟨⟨ps, rfl⟩, h⟩ := h
    rw [PlainElements, Plain, ← ih h, ← sameString_iff]
    simp [stringsOf]

-- A number that Go reads exactly, and a value that Go finds and that both ports take for the same.

def SameInteger (ms : List (List Piece × Raw)) (name : String) : Prop :=
  ∀ lit, member? name (.obj ms) = some (.num lit) →
    ∃ i, int64Of? (claim? ms name) = some i ∧ (Binary64.ofLiteral lit).Represents i.toInt

def PlainClaim (ms : List (List Piece × Raw)) (name : String) : Prop :=
  ∀ raw, member? name (.obj ms) = some raw → raw = .null ∨ claim? ms name = some raw ∧ Plain raw

-- What a result has of the payload, read alike by both ports.
structure SameReadings (ms : List (List Piece × Raw)) : Prop where
  integers : ∀ name ∈ ["iat", "nbf", "exp", "max_usages", "force_online_after"], SameInteger ms name
  plain    : ∀ name ∈ ["scope", "license_id", "usage_id", "status", "entitlements", "aud", "iss"], PlainClaim ms name

-- A number of both ports.
theorem sameNumber_iff {i : Int64} {x : Binary64} (hi : int64Of? (claim? ms name) = some i)
    (hx : doubleOf? (member? name (.obj ms)) = some x) : SameNumber i x ↔ SameInteger ms name := by
  obtain ⟨lit, hp⟩ : ∃ lit, member? name (.obj ms) = some (.num lit) := by
    unfold doubleOf? at hx
    split at hx
    case h_1 lit hp => exact ⟨lit, hp⟩
    case h_2        => contradiction
  rw [hp, doubleOf?, Option.some.injEq] at hx
  simp [SameInteger, hp, hi, SameNumber, hx]

theorem sameNumber?_iff : Option.Rel SameNumber (int64Of? (claim? ms name)) (doubleOf? (member? name (.obj ms))) ↔
    SameInteger ms name := by
  cases hx : doubleOf? (member? name (.obj ms))
  case some x =>
    cases hi : int64Of? (claim? ms name)
    case some i => rw [Option.rel_some_some, sameNumber_iff hi hx]
    case none   =>
      obtain ⟨lit, hp⟩ : ∃ lit, member? name (.obj ms) = some (.num lit) := by
        unfold doubleOf? at hx
        split at hx
        case h_1 lit hp => exact ⟨lit, hp⟩
        case h_2        => contradiction
      simp [SameInteger, hp, hi]
  case none =>
    have absent (lit) : member? name (.obj ms) ≠ some (.num lit) := fun hp => by simp [hp, doubleOf?] at hx
    have hi : int64Of? (claim? ms name) = none := by
      cases hc : claim? ms name with
      | none     => rfl
      | some raw =>
        cases raw
        case num lit => exact absurd (member?_of_claim hc) (absent lit)
        all_goals rfl
    rw [hi]
    exact iff_of_true .none fun lit hp => absurd hp (absent lit)

-- A string that both ports ask for.
theorem sameString_claim_iff {s : Go.GoString} {u : Ts.JsString}
    (hs : (stringOf? (claim? ms name)).map Bytes.ofString = some s)
    (hu : unitsOf? (member? name (.obj ms)) = some u) : SameString s u ↔ PlainClaim ms name := by
  obtain ⟨ps, hc⟩ := Go.exists_stringOf?_iff.mp ⟨s, hs⟩
  have hp := member?_of_claim hc
  rw [hc, stringOf?, Option.map_some, Option.some.injEq] at hs
  rw [hp, unitsOf?, Option.some.injEq] at hu
  rw [← hs, ← hu, show Bytes.ofString (.ofList (JsonText.text ps)) = Go.stringOf ps from rfl, sameString_iff]
  simp [PlainClaim, hp, hc, Plain]

-- A claim that is no own member of the payload, or one that both ports find.
theorem claim_cases (ms : List (List Piece × Raw)) (name : String) : claim? ms name = none ∨
    ∃ raw, claim? ms name = some raw ∧ member? name (.obj ms) = some raw := by
  cases hc : claim? ms name with
  | none     => exact .inl rfl
  | some raw => exact .inr ⟨raw, rfl, member?_of_claim hc⟩

theorem sameIssuer_iff (form : ∀ raw, member? name (.obj ms) = some raw → raw = .null ∨ ∃ ps, raw = .str ps) :
    Option.Rel SameString ((stringOf? (claim? ms name)).map Bytes.ofString) (unitsOf? (member? name (.obj ms))) ↔
      PlainClaim ms name := by
  rw [PlainClaim]
  obtain hc | ⟨raw, hc, hp⟩ := claim_cases ms name
  case inl =>
    rw [hc]
    cases hp : member? name (.obj ms) with
    | none     => simp [stringOf?, unitsOf?]
    | some raw => obtain rfl | ⟨ps, rfl⟩ := form raw hp <;> simp [stringOf?, unitsOf?]
  case inr =>
    rw [hc, hp]
    obtain rfl | ⟨ps, rfl⟩ := form raw hp
    case inl => simp [stringOf?, unitsOf?]
    case inr =>
      rw [stringOf?, unitsOf?, Option.map_some, Option.rel_some_some,
        show Bytes.ofString (.ofList (JsonText.text ps)) = Go.stringOf ps from rfl, sameString_iff]
      simp [Plain]

theorem sameAudience_iff (form : ∀ raw, member? name (.obj ms) = some raw → raw = .null ∨ (∃ ps, raw = .str ps) ∨
      ∃ xs, raw = .arr xs ∧ ∀ x ∈ xs, ∃ ps, x = .str ps) :
    SameAudience (Go.audienceOf (claim? ms name)) (Ts.audienceOf (member? name (.obj ms))) ↔
      PlainClaim ms name := by
  rw [PlainClaim]
  obtain hc | ⟨raw, hc, hp⟩ := claim_cases ms name
  case inl =>
    rw [hc]
    cases hp : member? name (.obj ms) with
    | none     => simp [Go.audienceOf, Ts.audienceOf, SameAudience]
    | some raw =>
      obtain rfl | ⟨ps, rfl⟩ | ⟨xs, rfl, -⟩ := form raw hp <;> simp [Go.audienceOf, Ts.audienceOf, SameAudience]
  case inr =>
    rw [hc, hp]
    obtain rfl | ⟨ps, rfl⟩ | ⟨xs, rfl, hx⟩ := form raw hp
    case inl     => simp [Go.audienceOf, Ts.audienceOf, SameAudience]
    case inr.inl =>
      have same : SameString (Go.stringOf ps) (units ps) ↔ _ := sameString_iff
      simpa [Go.audienceOf, Ts.audienceOf, SameAudience, stringsOf, Plain] using same
    case inr.inr =>
      have same := forall₂_sameString_iff hx
      simpa [Go.audienceOf, Ts.audienceOf, SameAudience, Plain] using same

theorem Go.asMap_claim : (Go.ofMembers ms).as name Go.Value.asMap =
    (claim? ms name).bind fun raw => (Go.ofRaw raw).asMap := by
  rw [Go.Map.as, Go.lookup_claim, Option.bind_map]
  rfl

theorem sameEntitlements_iff (hd : (Raw.obj ms).Distinct Go.stringOf)
    (form : ∀ raw, member? name (.obj ms) = some raw → raw = .null ∨ ∃ ms, raw = .obj ms) :
    Option.Rel (fun m v => SameValue (.map m) v) ((Go.ofMembers ms).as name Go.Value.asMap)
      (objectOf? Ts.ofRaw (member? name (.obj ms))) ↔
      PlainClaim ms name := by
  rw [Go.asMap_claim]
  rw [PlainClaim]
  obtain hc | ⟨raw, hc, hp⟩ := claim_cases ms name
  case inl =>
    rw [hc]
    cases hp : member? name (.obj ms) with
    | none     => simp [objectOf?]
    | some raw => obtain rfl | ⟨ms', rfl⟩ := form raw hp <;> simp [objectOf?]
  case inr =>
    rw [hc, hp]
    obtain rfl | ⟨ms', rfl⟩ := form raw hp
    case inl => simp [objectOf?, Go.ofRaw, Go.Value.asMap]
    case inr =>
      have same := sameValue_iff (.obj ms') (distinct_claim hd hc)
      simpa [objectOf?, Go.ofRaw, Go.Value.asMap] using same

theorem sameResult_iff {c : Go.Claims} {c' : Ts.Claims} {header : EnvelopeHeader Go.GoString}
    {header' : EnvelopeHeader Ts.JsString} (hd : (Raw.obj ms).Distinct Go.stringOf)
    (hc : Go.Claimed (Go.ofMembers ms) c) (takes : Ts.Takes ms) (hc' : Ts.Claimed ms c')
    (hk : SameString header.kid header'.kid) (ha : SameString header.alg header'.alg) :
    SameResult (c.result header) (c'.result header') ↔ SameReadings ms := by
  have string {name s} (h : Go.claimString (Go.ofMembers ms) name = some s) :
      (stringOf? (claim? ms name)).map Bytes.ofString = some s := Go.claimString_ofMembers ▸ h
  have int64 {name i} (h : Go.claimOptInt64 (Go.ofMembers ms) name = i) : int64Of? (claim? ms name) = i :=
    Go.claimOptInt64_ofMembers ▸ h
  have scope       := sameString_claim_iff (string hc.scope) hc'.scope
  have licenseID   := sameString_claim_iff (string hc.licenseID) hc'.licenseID
  have usageID     := sameString_claim_iff (string hc.usageID) hc'.usageID
  have status      := sameString_claim_iff (string hc.status) hc'.status
  have iat         := sameNumber_iff (int64 hc.iat) hc'.iat
  have nbf         := sameNumber_iff (int64 hc.nbf) hc'.nbf
  have exp         := sameNumber_iff (int64 hc.exp) hc'.exp
  have maxUsages   := sameNumber_iff (int64 hc.maxUsages) hc'.maxUsages
  have online      := @sameNumber?_iff ms "force_online_after"
  have aud         := sameAudience_iff takes.required.aud
  have iss         := sameIssuer_iff takes.required.iss
  have entitlements := sameEntitlements_iff hd takes.optional.entitlements
  rw [int64 hc.forceOnlineAfter, hc'.forceOnlineAfter] at online
  rw [(Go.parseAud_eq_ok_iff.mp hc.aud).right, hc'.aud] at aud
  rw [(Go.parseIss_eq_ok_iff.mp hc.iss).right, hc'.iss] at iss
  rw [hc.entitlements, hc'.entitlements] at entitlements
  constructor
  case mp =>
    intro r
    constructor <;> simp only [List.forall_mem_cons, List.not_mem_nil, false_imp_iff, implies_true, and_true]
    case integers =>
      exact ⟨iat.mp r.iat, nbf.mp r.nbf, exp.mp r.exp, maxUsages.mp r.maxUsages, online.mp r.forceOnlineAfter⟩
    case plain =>
      exact ⟨scope.mp r.scope, licenseID.mp r.licenseID, usageID.mp r.usageID, status.mp r.status,
        entitlements.mp r.entitlements, aud.mp r.aud, iss.mp r.iss⟩
  case mpr =>
    intro r
    have integer {name} := r.integers name
    have plain {name} := r.plain name
    exact ⟨hk, ha, licenseID.mpr (plain (by decide)), usageID.mpr (plain (by decide)), scope.mpr (plain (by decide)),
      status.mpr (plain (by decide)), maxUsages.mpr (integer (by decide)), iat.mpr (integer (by decide)),
      nbf.mpr (integer (by decide)), exp.mpr (integer (by decide)), online.mpr (integer (by decide)),
      entitlements.mpr (plain (by decide)), aud.mpr (plain (by decide)), iss.mpr (plain (by decide))⟩

end Results

-- What the ports have to read alike of a payload that both take, as far as the checks get.
structure ComparedAlike (o : CommonOptions) (ms : List (List Piece × Raw)) : Prop where
  nbf         : Go.Early o ms ↔ Ts.Early o ms
  exp         : ¬Go.Early o ms → stringOf? (claim? ms "status") ≠ some "expired" → (Go.Late o ms ↔ Ts.Late o ms)
  deadline    : (Go.findings o ms).Current → (Go.Overdue o ms ↔ Ts.Overdue o ms)
  fingerprint : (Go.findings o ms).Current → ¬Go.Overdue o ms →
    ∀ ps, claim? ms "usage_fingerprint" = some (.str ps) → JsonText.text ps = o.fingerprint.toList → paired (units ps)
  audience    : (Go.findings o ms).Current → ¬Go.Overdue o ms →
    stringOf? (claim? ms "usage_fingerprint") = some o.fingerprint →
    ∀ t ∈ o.expectedAudience, Go.MeetsAudience ms t ↔ Ts.MeetsAudience ms t
  issuer      : (Go.findings o ms).Current → ¬Go.Overdue o ms →
    stringOf? (claim? ms "usage_fingerprint") = some o.fingerprint →
    (∀ t ∈ o.expectedAudience, Go.MeetsAudience ms t) →
    ∀ t ∈ o.expectedIssuer, Go.MeetsIssuer ms t ↔ Ts.MeetsIssuer ms t
  result      : (Go.findings o ms).Passed → SameReadings ms

-- A payload that one port only takes has to have a status that this port does not know, in its window.
structure ValidatedAlike (o : CommonOptions) (ms : List (List Piece × Raw)) : Prop where
  onlyGo : Go.Takes ms → ¬Ts.Takes ms → (Go.findings o ms).Unknown
  onlyTs : ¬Go.Takes ms → Ts.Takes ms → (Ts.findings o ms).Unknown
  both   : Go.Takes ms → Ts.Takes ms → ComparedAlike o ms

-- Of options and payloads that are taken alike otherwise, the optional claims decide.
section Regular

-- The skew is positive or not given, no pin is empty, and the clock leaves room for the skew.
structure CommonOptions.Regular (o : CommonOptions) : Prop where
  now      : o.nowSec.natAbs + (o.skewSec.getD 60).natAbs < 2 ^ 53
  skew     : ∀ k ∈ o.skewSec, 0 < k
  audience : o.expectedAudience ≠ some ""
  issuer   : o.expectedIssuer ≠ some ""

-- The literals of integers.
def Integral (lit : List Char) (n : Int) : Prop :=
  lit = intText n ∨ n = 0 ∧ lit = ['-', '0']

theorem Integral.integer? {lit : List Char} {n : Int} (h : Integral lit n) :
    Licensing.integer? lit = some n := by
  obtain rfl | ⟨rfl, rfl⟩ := h
  case inl => exact integer?_intText n
  case inr => rfl

theorem Integral.represents {lit : List Char} {n : Int} (h : Integral lit n) (hn : n.natAbs < 2 ^ 53) :
    (Binary64.ofLiteral lit).Represents n := by
  obtain rfl | ⟨rfl, rfl⟩ := h
  case inl => exact Ts.ofInt_eq hn ▸ .ofInt hn
  case inr =>
    have hr : Binary64.Literal.read ['-', '0'] = ⟨true, 0, 0⟩ := read_natText (m := 0) rfl
    rw [Binary64.ofLiteral, hr, Binary64.Literal.toBinary64]
    simp only [le_refl, if_true, Int.toNat_zero, Nat.pow_zero, Nat.mul_one]
    rw [Binary64.rounded_of_lt _ (by decide), Nat.zero_mul]
    have hz : (0 : Int) * Binary64.one = Binary64.scaled true 0 := Int.zero_mul _
    exact ⟨true, 0, rfl, hz.symm⟩

def integerClaims : List String :=
  ["iat", "nbf", "exp", "max_usages", "force_online_after"]

-- The claims that a result has besides numbers.
def resultClaims : List String :=
  ["scope", "license_id", "usage_id", "usage_fingerprint", "status", "aud", "iss", "entitlements"]

-- What a payload has to be besides: no member is called `__proto__`, the numbers are integers that a double holds
-- exactly, also after the skew is added, and what a result has is plain.
structure Plainly (o : CommonOptions) (ms : List (List Piece × Raw)) : Prop where
  names    : ∀ m ∈ ms, units m.1 ≠ Ts.proto
  integers : ∀ name ∈ integerClaims, ∀ lit, claim? ms name = some (.num lit) →
    ∃ n : Int, Integral lit n ∧ n.natAbs + (o.skewSec.getD 60).natAbs < 2 ^ 53
  values   : ∀ name ∈ resultClaims, ∀ raw, claim? ms name = some raw → Plain raw

variable {o : CommonOptions} {ms : List (List Piece × Raw)} {name : String}

theorem member?_eq_claim (h : ∀ m ∈ ms, units m.1 ≠ Ts.proto) : member? name (.obj ms) = claim? ms name := by
  have inherited : inheritedMember? name ms = none := by
    induction ms
    case nil => rfl
    case cons m ms ih =>
      rw [List.forall_mem_cons] at h
      rw [inheritedMember?, if_neg h.left, ih h.right]
  rw [member?, inherited, Option.or_none]

theorem int64_lt_iff {a b : Int} (ha : a.natAbs < 2 ^ 63) (hb : b.natAbs < 2 ^ 63) :
    Int64.ofInt a < Int64.ofInt b ↔ a < b := by
  rw [Int64.lt_iff_toInt_lt, Int64.toInt_ofInt_of_le (by omega) (by omega),
    Int64.toInt_ofInt_of_le (by omega) (by omega)]

theorem Integral.integer64? {lit : List Char} {n : Int} (h : Integral lit n) (hn : n.natAbs < 2 ^ 53) :
    Licensing.integer64? lit = some (.ofInt n) := by
  rw [Licensing.integer64?, h.integer?, Option.bind_some, if_pos (by omega)]

-- A comparison of a number that is an integer, as both ports make it.
theorem Plainly.compared_iff (h : Plainly o ms) (hn : name ∈ integerClaims) {p : Int64 → Prop} {q : Binary64 → Prop}
    (hpq : ∀ n x, n.natAbs + (o.skewSec.getD 60).natAbs < 2 ^ 53 → x.Represents n → (p (.ofInt n) ↔ q x)) :
    (∃ i ∈ int64Of? (claim? ms name), p i) ↔ ∃ x ∈ doubleOf? (member? name (.obj ms)), q x := by
  rw [member?_eq_claim h.names]
  cases hc : claim? ms name with
  | none     => simp [int64Of?, doubleOf?]
  | some raw =>
    cases raw
    case num lit =>
      obtain ⟨n, integral, room⟩ := h.integers name hn lit hc
      have small : n.natAbs < 2 ^ 53 := by omega
      simpa [int64Of?, integral.integer64? small, doubleOf?] using hpq n _ room (integral.represents small)
    all_goals simp [int64Of?, doubleOf?]

theorem CommonOptions.Regular.skewOf (h : o.Regular) : Go.skewOf o = .ofInt (o.skewSec.getD 60) := by
  have room := h.now
  unfold Go.skewOf
  cases hs : o.skewSec with
  | none   => rfl
  | some k =>
    have hk := h.skew k hs
    simp only [hs, Option.getD_some] at room ⊢
    refine if_pos ?_
    rw [Int64.lt_iff_toInt_lt, Int64.toInt_ofInt_of_le (by omega) (by omega)]
    exact hk

theorem early_iff_early (ho : o.Regular) (hp : Plainly o ms) : Go.Early o ms ↔ Ts.Early o ms := by
  have room := ho.now
  refine hp.compared_iff (by decide) fun n x hn hx => ?_
  have sum := (Binary64.Represents.ofInt (n := o.nowSec) (by omega)).add
    (.ofInt (n := o.skewSec.getD 60) (by omega)) (by omega)
  rw [ho.skewOf, ← Int64.ofInt_add, int64_lt_iff (by omega) (by omega), Ts.skewOf, sum.lt_eq hx, decide_eq_true_eq]

theorem late_iff_late (ho : o.Regular) (hp : Plainly o ms) : Go.Late o ms ↔ Ts.Late o ms := by
  have room := ho.now
  refine hp.compared_iff (by decide) fun n x hn hx => ?_
  have sum := hx.add (.ofInt (n := o.skewSec.getD 60) (by omega)) (by omega)
  rw [ho.skewOf, ← Int64.ofInt_add, int64_lt_iff (by omega) (by omega), Ts.skewOf, sum.lt_eq (.ofInt (by omega)),
    decide_eq_true_eq]

theorem overdue_iff_overdue (ho : o.Regular) (hp : Plainly o ms) : Go.Overdue o ms ↔ Ts.Overdue o ms := by
  have room := ho.now
  refine hp.compared_iff (by decide) fun n x hn hx => ?_
  rw [hx.le_eq (.ofInt (by omega)), decide_eq_true_eq, Int64.le_iff_toInt_le,
    Int64.toInt_ofInt_of_le (by omega) (by omega), Int64.toInt_ofInt_of_le (by omega) (by omega)]

-- A plain text is the same in both ports.
theorem stringOf_eq_iff {ps : List Piece} (h : paired (units ps)) {t : String} :
    Go.stringOf ps = Bytes.ofString t ↔ units ps = Ts.JsString.ofString t := by
  obtain ⟨t', hs, hu⟩ := sameString_iff.mpr h
  rw [hs, hu]
  exact ⟨fun he => Bytes.ofString_injective he ▸ rfl, fun he => Ts.ofString_injective he ▸ rfl⟩

theorem mem_stringsOf_iff {t : String} : (raw? : Option Raw) → (∀ raw ∈ raw?, Plain raw) →
    (Bytes.ofString t ∈ stringsOf Go.stringOf raw? ↔ Ts.JsString.ofString t ∈ stringsOf units raw?)
  | some (.str ps), h => by
    simp only [stringsOf, List.mem_singleton]
    rw [eq_comm, stringOf_eq_iff (h _ rfl)]
    exact eq_comm
  | some (.arr xs), h => by
    have hx : PlainElements xs := h _ rfl
    clear h
    induction xs
    case nil => simp [stringsOf]
    case cons x xs ih =>
      have rest := ih hx.right
      cases x
      case str ps =>
        have first : Bytes.ofString t = Go.stringOf ps ↔ Ts.JsString.ofString t = units ps :=
          eq_comm.trans ((stringOf_eq_iff hx.left).trans eq_comm)
        have split {α : Type} (f : List Piece → α) (xs : List Raw) :
            stringsOf f (some (.arr (.str ps :: xs))) = f ps :: stringsOf f (some (.arr xs)) := rfl
        rw [split, split, List.mem_cons, List.mem_cons]
        exact or_congr first rest
      all_goals exact rest
  | none, _ | some .null, _ | some (.bool _), _ | some (.num _), _ | some (.obj _), _ => by simp [stringsOf]

theorem Plainly.takes_iff_takes (h : Plainly o ms) (hw : OptionalFormed (claim? ms)) : Go.Takes ms ↔ Ts.Takes ms := by
  have read : (member? · (.obj ms)) = claim? ms := funext fun _ => member?_eq_claim h.names
  have number {name lit} (hn : name ∈ requiredNumbers) (hc : claim? ms name = some (.num lit)) :
      (integer64? lit).isSome ∧ (Binary64.ofLiteral lit).isFinite := by
    have subset : requiredNumbers ⊆ integerClaims := by decide
    obtain ⟨n, integral, room⟩ := h.integers name (subset hn) lit hc
    have small : n.natAbs < 2 ^ 53 := by omega
    exact ⟨by rw [integral.integer64? small]; rfl, (integral.represents small).isFinite⟩
  constructor
  case mp =>
    intro takes
    refine ⟨?_, ?_⟩ <;> rw [read]
    case refine_2 => exact hw
    case refine_1 =>
      exact ⟨takes.strings, fun name hn => by
        obtain ⟨lit, hc, -⟩ := takes.numbers name hn
        exact ⟨lit, hc, (number hn hc).right⟩, takes.aud, takes.iss⟩
  case mpr =>
    intro takes
    have required := takes.required
    rw [read] at required
    exact ⟨required.strings, fun name hn => by
      obtain ⟨lit, hc, -⟩ := required.numbers name hn
      exact ⟨lit, hc, (number hn hc).left⟩, required.aud, required.iss⟩

theorem Plainly.sameReadings (h : Plainly o ms) : SameReadings ms := by
  constructor
  case integers =>
    intro name hn lit hc
    rw [member?_eq_claim h.names] at hc
    obtain ⟨n, integral, room⟩ := h.integers name hn lit hc
    have small : n.natAbs < 2 ^ 53 := by omega
    refine ⟨.ofInt n, by rw [hc]; exact integral.integer64? small, ?_⟩
    rw [Int64.toInt_ofInt_of_le (by omega) (by omega)]
    exact integral.represents small
  case plain =>
    intro name hn raw hc
    have subset : ["scope", "license_id", "usage_id", "status", "entitlements", "aud", "iss"] ⊆ resultClaims := by
      decide
    rw [member?_eq_claim h.names] at hc
    exact .inr ⟨hc, h.values name (subset hn) raw hc⟩

theorem meetsAudience_iff (hp : Plainly o ms) {t : String} (ht : t ≠ "") :
    Go.MeetsAudience ms t ↔ Ts.MeetsAudience ms t := by
  rw [Go.MeetsAudience, Ts.MeetsAudience, or_iff_right ht, member?_eq_claim hp.names]
  exact mem_stringsOf_iff _ fun raw hc => hp.values "aud" (by decide) raw hc

theorem meetsIssuer_iff (hp : Plainly o ms) {t : String} (ht : t ≠ "") :
    Go.MeetsIssuer ms t ↔ Ts.MeetsIssuer ms t := by
  rw [Go.MeetsIssuer, Ts.MeetsIssuer, or_iff_right ht, member?_eq_claim hp.names]
  cases hc : claim? ms "iss" with
  | none     => simp [stringOf?, unitsOf?]
  | some raw =>
    cases raw
    case str ps =>
      have same := stringOf_eq_iff (hp.values "iss" (by decide) _ hc) (t := t)
      rw [Go.stringOf, Bytes.ofString_injective.eq_iff] at same
      simpa [stringOf?, unitsOf?] using same
    all_goals simp [stringOf?, unitsOf?]

-- The ports agree on what is regular, if the optional claims are well formed.
theorem validatedAlike_of_regular (ho : o.Regular) (hp : Plainly o ms) (hw : OptionalFormed (claim? ms)) :
    ValidatedAlike o ms := by
  have takes := hp.takes_iff_takes hw
  refine ⟨fun hg hn => absurd (takes.mp hg) hn, fun hn ht => absurd (takes.mpr ht) hn, fun _ _ => ?_⟩
  constructor
  case nbf         => exact early_iff_early ho hp
  case exp         => exact fun _ _ => late_iff_late ho hp
  case deadline    => exact fun _ => overdue_iff_overdue ho hp
  case fingerprint => exact fun _ _ ps hc _ => hp.values "usage_fingerprint" (by decide) _ hc
  case audience    => exact fun _ _ _ t ht => meetsAudience_iff hp fun he => ho.audience (he ▸ ht)
  case issuer      => exact fun _ _ _ _ t ht => meetsIssuer_iff hp fun he => ho.issuer (he ▸ ht)
  case result      => exact fun _ => hp.sameReadings

end Regular

section Validate

variable {β β' κ κ' : Type} {alg : β → Go.GoString} {alg' : β' → Ts.JsString} {o : CommonOptions}
  {ms : List (List Piece × Raw)} {verify : VerifyOptions alg} {verify' : VerifyOptions alg'}

theorem foreign_iff_foreign {ps : List Piece} (hc : claim? ms "usage_fingerprint" = some (.str ps)) :
    ((Go.findings o ms).foreign ↔ (Ts.findings o ms).foreign) ↔
      ∀ ps, claim? ms "usage_fingerprint" = some (.str ps) → JsonText.text ps = o.fingerprint.toList →
        paired (units ps) := by
  have hp := member?_of_claim hc
  simp only [Go.findings, Ts.findings, hc, hp, stringOf?, unitsOf?, ne_eq, Option.some.injEq, not_iff_not,
    Raw.str.injEq, forall_eq']
  rw [← String.toList_inj, String.toList_ofList, Ts.JsString.ofString]
  constructor
  case mp =>
    intro h ht
    exact (utf16_text_iff ps).mp (by rw [h.mp ht, ht])
  case mpr =>
    intro h
    refine ⟨fun ht => ?_, fun hu => ?_⟩
    case refine_1 => rw [← ht, (utf16_text_iff ps).mpr (h ht)]
    case refine_2 => rw [← textOfUnits_units, hu, textOfUnits_utf16]

theorem exists_not_iff_exists_not {α : Type} {a? : Option α} {p q : α → Prop} :
    ((∃ a ∈ a?, ¬p a) ↔ ∃ a ∈ a?, ¬q a) ↔ ∀ a ∈ a?, p a ↔ q a := by
  cases a? <;> simp [not_iff_not]

theorem status_eq_status (hg : Go.Takes ms) : (Go.findings o ms).status = (Ts.findings o ms).status := by
  obtain ⟨ps, hc⟩ := hg.strings "status" (by decide)
  simp only [Go.findings, Ts.findings, hc, member?_of_claim hc]

theorem comparedAlike_iff (hg : Go.Takes ms) : ComparedAlike o ms ↔
    (Go.findings o ms).Matches (Ts.findings o ms) ∧ ((Go.findings o ms).Passed → SameReadings ms) := by
  obtain ⟨ps, hc⟩ := hg.strings "usage_fingerprint" (by decide)
  have foreign := foreign_iff_foreign (o := o) hc
  have named : ¬(Go.findings o ms).foreign ↔ stringOf? (claim? ms "usage_fingerprint") = some o.fingerprint :=
    not_not
  have elsewhere : ¬(Go.findings o ms).elsewhere ↔ ∀ t ∈ o.expectedAudience, Go.MeetsAudience ms t := by
    simp [Go.findings]
  constructor
  case mp =>
    intro h
    refine ⟨⟨h.nbf, h.exp, h.deadline, fun hc ho => foreign.mpr (h.fingerprint hc ho), fun hc ho hf => ?_,
      fun hc ho hf he => ?_⟩, h.result⟩
    case refine_1 => exact exists_not_iff_exists_not.mpr (h.audience hc ho (named.mp hf))
    case refine_2 => exact exists_not_iff_exists_not.mpr (h.issuer hc ho (named.mp hf) (elsewhere.mp he))
  case mpr =>
    rintro ⟨h, result⟩
    refine ⟨h.early, h.late, h.overdue, fun hc ho => foreign.mp (h.foreign hc ho), fun hc ho hf => ?_,
      fun hc ho hf he => ?_, result⟩
    case refine_1 => exact exists_not_iff_exists_not.mp (h.elsewhere hc ho (named.mpr hf))
    case refine_2 => exact exists_not_iff_exists_not.mp (h.stranger hc ho (named.mpr hf) (elsewhere.mpr he))

variable {token : Go.GoString} {token' : Ts.JsString} {parts : DecodedEnvelope Go.GoString Go.Map}
  {parts' : DecodedEnvelope Ts.JsString Ts.Value}
  {w : Surroundings Go.GoString β κ Int64 Go.GoString}
  {w' : Surroundings Ts.JsString β' κ' Binary64 Ts.Value}

theorem Go.call_validate {opts : Go.ValidateOptions alg} (hl : opts.jtiLedger = false)
    (hv : (Go.verifyEnvelope opts.verify token).run w.backend = .ok parts)
    (s : DeviceState Go.GoString Go.GoString Int64) :
    (call w (Go.validate token opts) s).1 = Go.validated opts parts.header parts.payload := by
  rw [Go.validate, call_bind_ok (by rw [call_verifying, hv]; rfl), Go.validated]
  cases hs : Go.assertClaimShape parts.payload with
  | error e => exact congrArg Prod.fst (call_bind_error call_ofExcept)
  | ok c    =>
    rw [call_bind_ok call_ofExcept, ok_bind]
    cases hc : Go.checkClaims opts c with
    | error e => exact congrArg Prod.fst (call_bind_error call_ofExcept)
    | ok _    =>
      rw [call_bind_ok call_ofExcept, if_pos (by simp [hl])]
      rfl

theorem Ts.call_validate {opts : Ts.ValidateOptions alg'} (hl : opts.jtiLedger = false)
    (hv : (Ts.verify opts.verify token').run w'.backend = .ok parts')
    (s : DeviceState Ts.JsString (Option Ts.JsString) Binary64) :
    (call w' (Ts.validate token' opts) s).1 = Ts.validated opts parts'.header parts'.payload := by
  rw [Ts.validate, call_bind_ok (by rw [call_verifying, hv]; rfl), Ts.validated]
  cases hs : Ts.assertClaimShape parts'.payload with
  | error e => exact congrArg Prod.fst (call_bind_error call_ofExcept)
  | ok c    =>
    rw [call_bind_ok call_ofExcept, ok_bind]
    cases hc : Ts.checkClaims opts c with
    | error e => exact congrArg Prod.fst (call_bind_error call_ofExcept)
    | ok _    =>
      rw [call_bind_ok call_ofExcept, if_pos (by simp [hl])]
      rfl

-- The payload of a token, as each port has read it from the same text.
structure ReadFrom (ms : List (List Piece × Raw)) (p : Go.Map) (q : Ts.Value) : Prop where
  distinct : (Raw.obj ms).Distinct Go.stringOf
  go       : p = Go.ofMembers ms
  ts       : q = Ts.ofRaw (.obj ms)

-- What both ports accept is read from the same text.
theorem readFrom_of_parsed {b : List UInt8} {label : String} {errors : Ts.ObjectErrors} {p : Go.Map} {q : Ts.Value}
    (hg : Go.parseJSONObject b label = .ok p) (ht : Ts.parseObject errors b = .ok q) : ∃ ms, ReadFrom ms p q := by
  obtain ⟨s, ms, rest, hs, -⟩ := Go.parseJSONObject_eq_ok_iff.mp hg
  obtain ⟨ms, rest, hv, hr, rfl⟩ := (go_ok_iff hs).mp hg
  have unmarked : ∀ cs, s.toList ≠ '\ufeff' :: cs := fun cs hc => by
    rw [hc, value_mark] at hv
    contradiction
  obtain ⟨ms', rest', hv', -, rfl⟩ := (ts_ok_iff (textDecode_of_no_mark hs unmarked)).mp ht
  cases hv.symm.trans hv'
  exact ⟨ms, hr.distinct, rfl, rfl⟩

theorem Go.validated_eq_ok {opts : Go.ValidateOptions alg} {header : EnvelopeHeader Go.GoString} {p : Go.Map}
    {r : ValidateResult Go.GoString Int64 Go.Map (Option (List Go.GoString))}
    (h : Go.validated opts header p = .ok r) : ∃ c, Go.assertClaimShape p = .ok c ∧ c.result header = r := by
  simp only [Go.validated, bind_eq_ok_iff] at h
  obtain ⟨c, shape, _, -, hr⟩ := h
  exact ⟨c, shape, pure_eq_ok_iff.mp hr⟩

theorem Ts.validated_eq_ok {opts : Ts.ValidateOptions alg'} {header : EnvelopeHeader Ts.JsString} {p : Ts.Value}
    {r : ValidateResult Ts.JsString Binary64 Ts.Value (Option Ts.Audience)}
    (h : Ts.validated opts header p = .ok r) : ∃ c, Ts.assertClaimShape p = .ok c ∧ c.result header = r := by
  simp only [Ts.validated, bind_eq_ok_iff] at h
  obtain ⟨c, shape, _, -, hr⟩ := h
  exact ⟨c, shape, pure_eq_ok_iff.mp hr⟩

theorem validated_agree_iff {header : EnvelopeHeader Go.GoString} {header' : EnvelopeHeader Ts.JsString}
    (hk : SameString header.kid header'.kid) (ha : SameString header.alg header'.alg)
    (hd : (Raw.obj ms).Distinct Go.stringOf) :
    Agree SameResult (Go.validated (o.go verify) header (Go.ofMembers ms))
        (Ts.validated (o.ts verify') header' (Ts.ofRaw (.obj ms))) ↔
      ValidatedAlike o ms := by
  have go : EndsWith (Go.validated (o.go verify) header (Go.ofMembers ms)) (Go.findings o ms).code :=
    Go.endsWith_validated header
  have ts : EndsWith (Ts.validated (o.ts verify') header' (Ts.ofRaw (.obj ms))) (Ts.findings o ms).code :=
    Ts.endsWith_validated hd header'
  -- Of results that are returned, what both ports return is the same if the payload is read alike.
  have results {r r'} (hr : Go.validated (o.go verify) header (Go.ofMembers ms) = .ok r)
      (hr' : Ts.validated (o.ts verify') header' (Ts.ofRaw (.obj ms)) = .ok r') :
      SameResult r r' ↔ SameReadings ms := by
    obtain ⟨c, shape, rfl⟩ := Go.validated_eq_ok hr
    obtain ⟨c', shape', rfl⟩ := Ts.validated_eq_ok hr'
    obtain ⟨takes, hc'⟩ := (Ts.assertClaimShape_eq_ok_iff hd).mp shape'
    exact sameResult_iff hd (Go.assertClaimShape_eq_ok_iff.mp shape) takes hc' hk ha
  rw [agree_iff_of_endsWith go ts]
  by_cases hg : Go.Takes ms
  case pos =>
    by_cases ht : Ts.Takes ms
    case pos =>
      have alike : ValidatedAlike o ms ↔ ComparedAlike o ms :=
        ⟨fun h => h.both hg ht, fun h => ⟨fun _ hn => absurd ht hn, fun hn => absurd hg hn, fun _ _ => h⟩⟩
      rw [alike, comparedAlike_iff hg, Findings.code_eq_iff_matches hg ht (status_eq_status hg)]
      refine and_congr_right fun m => ?_
      have same := (Findings.code_eq_iff_matches hg ht (status_eq_status hg)).mpr m
      constructor
      case mp =>
        intro h passed
        have none := (Findings.code_eq_none_iff (f := Go.findings o ms) hg).mpr passed
        obtain ⟨r, hr⟩   := go.exists_ok_iff.mpr none
        obtain ⟨r', hr'⟩ := ts.exists_ok_iff.mpr (same ▸ none)
        exact (results hr hr').mp (h r r' hr hr')
      case mpr =>
        intro h r r' hr hr'
        have passed := (Findings.code_eq_none_iff hg).mp (go.exists_ok_iff.mp ⟨r, hr⟩)
        exact (results hr hr').mpr (h passed)
    case neg =>
      have format := Findings.code_of_not_takes (f := Ts.findings o ms) ht
      have unknown := Findings.code_eq_format_iff (f := Go.findings o ms) hg
      rw [format, unknown]
      rw [format] at ts
      constructor
      case mp  => exact fun h => ⟨fun _ _ => h.left, fun hn => absurd hg hn, fun _ h => absurd h ht⟩
      case mpr => exact fun h => ⟨h.onlyGo hg ht, fun _ r' _ hr' => by simpa using ts.exists_ok_iff.mp ⟨r', hr'⟩⟩
  case neg =>
    have format := Findings.code_of_not_takes (f := Go.findings o ms) hg
    rw [format] at go
    by_cases ht : Ts.Takes ms
    case pos =>
      have unknown := Findings.code_eq_format_iff (f := Ts.findings o ms) ht
      rw [format, eq_comm, unknown]
      constructor
      case mp  => exact fun h => ⟨fun h => absurd h hg, fun _ _ => h.left, fun h => absurd h hg⟩
      case mpr => exact fun h => ⟨h.onlyTs hg ht, fun r _ hr _ => by simpa using go.exists_ok_iff.mp ⟨r, hr⟩⟩
    case neg =>
      rw [format, Findings.code_of_not_takes (f := Ts.findings o ms) ht]
      exact iff_of_true ⟨rfl, fun r _ hr _ => by simpa using go.exists_ok_iff.mp ⟨r, hr⟩⟩
        ⟨fun h => absurd h hg, fun _ h => absurd h ht, fun h => absurd h hg⟩

-- The outcomes are the same if and only if the payload is read alike, as far as the checks get.
theorem validate_agree_iff {token : Go.GoString} {token' : Ts.JsString} {parts : DecodedEnvelope Go.GoString Go.Map}
    {parts' : DecodedEnvelope Ts.JsString Ts.Value} {w : Surroundings Go.GoString β κ Int64 Go.GoString}
    {w' : Surroundings Ts.JsString β' κ' Binary64 Ts.Value}
    (hv : (Go.verifyEnvelope verify token).run w.backend = .ok parts)
    (hv' : (Ts.verify verify' token').run w'.backend = .ok parts')
    (hk : SameString parts.header.kid parts'.header.kid)
    (ha : SameString parts.header.alg parts'.header.alg)
    (hr : ReadFrom ms parts.payload parts'.payload) (s : DeviceState Go.GoString Go.GoString Int64)
    (s' : DeviceState Ts.JsString (Option Ts.JsString) Binary64) :
    Agree SameResult (call w (Go.validate token (o.go verify)) s).1
        (call w' (Ts.validate token' (o.ts verify')) s').1 ↔
      ValidatedAlike o ms := by
  rw [Go.call_validate rfl hv, Ts.call_validate rfl hv', hr.go, hr.ts]
  exact validated_agree_iff hk ha hr.distinct

end Validate

section Sample

theorem claim?_rawMembers (ms : List (List Char × Data)) (name : String) :
    claim? (Data.rawMembers ms) name = (ms.lookup name.toList).map Data.raw := by
  have hm : ((Data.rawMembers ms).map fun m => (JsonText.text m.1, m.2)) =
      ms.map fun m => (id m.1, m.2.raw) := by
    rw [rawMembers_eq, List.map_map]
    exact List.map_congr_left fun m _ => by simp [Escape.text_map]
  rw [claim?, hm]
  exact lookup_map Function.injective_id _ ms _

theorem readFrom_payload {c : ClaimValues} (h : c.Valid) (ha : c.data.Avoids "__proto__".toList) :
    ReadFrom (Data.rawMembers c.members) (Go.payload c) (Ts.payload c) where
  distinct := distinct_raw stringOf_map_injective c.data h.encodes.distinct
  go       := rfl
  ts       := by
    have hp := plain_raw c.data ha
    rw [ClaimValues.data, Data.raw, Plain, plainMembers_iff] at hp
    rw [Ts.ofRaw_obj_of_plain fun m hm => (hp m hm).1.2, Ts.payload, rawMembers_eq, List.map_map]
    congr 1
    exact List.map_congr_left fun m _ => by simp [units_map]

-- In the tenth second.
def sampleOptions : CommonOptions where
  fingerprint := "f1"
  nowSec      := 10

theorem regular_sampleOptions : sampleOptions.Regular where
  now      := by decide
  skew     := nofun
  audience := nofun
  issuer   := nofun

-- The deadline is a text.
def textualDeadline : ClaimValues :=
  { plainClaims with forceOnlineAfter := some (.str "soon".toList) }

theorem valid_textualDeadline : textualDeadline.Valid := by
  constructor
  case forceOnlineAfter =>
    rintro d ⟨⟩
    exact ⟨trivial, trivial⟩
  case entitlements | additional => rintro d ⟨⟩
  all_goals decide

theorem verified_sample {c : ClaimValues} (h : c.Valid) (hn : c.normal = c)
    (ha : c.data.Avoids "__proto__".toList) : ∃ token token' parts parts',
      (Go.verifyEnvelope (singleKey (fun _ => Bytes.ofString "ed25519") (Bytes.ofString "k1")) token).run
          (acceptAll (0 : Int64) : Surroundings _ _ _ _ Go.GoString).backend = .ok parts ∧
        (Ts.verify (singleKey (fun _ => Ts.JsString.ofString "ed25519") (Ts.JsString.ofString "k1")) token').run
          (acceptAll (.ofInt 0) : Surroundings _ _ _ Binary64 Ts.Value).backend = .ok parts' ∧
        SameString parts.header.kid parts'.header.kid ∧ SameString parts.header.alg parts'.header.alg ∧
        ReadFrom (Data.rawMembers c.members) parts.payload parts'.payload := by
  obtain ⟨parts, hd, hh, hp⟩ := Go.decodeEnvelope_sampleToken h.encodes c.normal_data
  obtain ⟨parts', hd', hh', hp'⟩ := Ts.decodeUnverified_sampleClaims h hn ha
  rw [hn] at hp
  refine ⟨_, _, parts, parts', Port.run_verifyEnvelope_singleKey hd hh (fun _ => rfl) fun _ _ => rfl,
    Port.run_verifyEnvelope_singleKey hd' hh' (fun _ => rfl) fun _ _ => rfl, ?_, ?_, ?_⟩
  case refine_1 => exact ⟨"k1", by rw [hh], by rw [hh']⟩
  case refine_2 => exact ⟨"ed25519", by rw [hh], by rw [hh']⟩
  case refine_3 =>
    rw [hp, hp']
    exact readFrom_payload h ha

theorem plainly_rawMembers {o : CommonOptions} {c : ClaimValues} (ha : c.data.Avoids "__proto__".toList)
    (h : ∀ name ∈ integerClaims, ∀ n : Int, c.members.lookup name.toList = some (.int n) →
      n.natAbs + (o.skewSec.getD 60).natAbs < 2 ^ 53) : Plainly o (Data.rawMembers c.members) := by
  have plain := plain_raw c.data ha
  rw [ClaimValues.data, Data.raw, Plain, plainMembers_iff] at plain
  refine ⟨fun m hm => (plain m hm).1.2, fun name hn lit hc => ?_, fun name _ raw hc => ?_⟩
  case refine_1 =>
    rw [claim?_rawMembers, Option.map_eq_some_iff] at hc
    obtain ⟨d, hd, hr⟩ := hc
    cases d
    case int n =>
      cases hr
      exact ⟨n, .inl rfl, h name hn n hd⟩
    all_goals contradiction
  case refine_2 =>
    obtain ⟨key, hm⟩ := mem_of_claim hc
    exact (plain _ hm).2

theorem takes_textualDeadline : Go.Takes (Data.rawMembers textualDeadline.members) := by
  have string {name} (h : ∃ s, textualDeadline.members.lookup name.toList = some (.str s)) :
      ∃ ps, claim? (Data.rawMembers textualDeadline.members) name = some (.str ps) := by
    obtain ⟨s, h⟩ := h
    exact ⟨_, by rw [claim?_rawMembers, h]; rfl⟩
  have int {name} (h : ∃ n : Int, n.natAbs < 2 ^ 53 ∧ textualDeadline.members.lookup name.toList = some (.int n)) :
      ∃ lit, claim? (Data.rawMembers textualDeadline.members) name = some (.num lit) ∧ (integer64? lit).isSome := by
    obtain ⟨n, hn, h⟩ := h
    have integral : Integral (intText n) n := .inl rfl
    exact ⟨_, by rw [claim?_rawMembers, h]; rfl, by rw [integral.integer64? hn]; rfl⟩
  constructor
  case strings =>
    simp only [requiredStrings, List.forall_mem_cons]
    exact ⟨string ⟨_, rfl⟩, string ⟨_, rfl⟩, string ⟨_, rfl⟩, string ⟨_, rfl⟩, string ⟨_, rfl⟩, string ⟨_, rfl⟩,
      by simp⟩
  case numbers =>
    simp only [requiredNumbers, List.forall_mem_cons]
    exact ⟨int ⟨0, by decide, rfl⟩, int ⟨0, by decide, rfl⟩, int ⟨10, by decide, rfl⟩, int ⟨1, by decide, rfl⟩, by simp⟩
  case aud | iss =>
    intro raw h
    rw [claim?_rawMembers] at h
    contradiction

theorem avoids_textualDeadline : textualDeadline.data.Avoids "__proto__".toList := by
  refine ClaimValues.avoids_data (by decide) ?_
  rintro d (⟨⟨⟩⟩ | ⟨⟨⟩⟩ | ⟨⟨⟩⟩)
  trivial

theorem not_takes_textualDeadline : ¬Ts.Takes (Data.rawMembers textualDeadline.members) := by
  intro h
  have hc := claim?_rawMembers textualDeadline.members "force_online_after"
  obtain h | ⟨_, h, -⟩ := h.optional.forceOnlineAfter _ (member?_of_claim hc)
  all_goals contradiction

-- The clients of both ports, that know the one key.
def sampleGo (c : CommonOptions) (token : Go.GoString) :
    Except ClientError (ValidateResult Go.GoString Int64 Go.Map (Option (List Go.GoString))) :=
  (call (acceptAll (0 : Int64) : Surroundings _ _ _ _ Go.GoString) (Go.validate token
    (c.go (singleKey (fun _ => Bytes.ofString "ed25519") (Bytes.ofString "k1")))) ⟨⟨[], none⟩, []⟩).1

def sampleTs (c : CommonOptions) (token : Ts.JsString) :
    Except ClientError (ValidateResult Ts.JsString Binary64 Ts.Value (Option Ts.Audience)) :=
  (call (acceptAll (.ofInt 0) : Surroundings _ _ _ Binary64 Ts.Value) (Ts.validate token
    (c.ts (singleKey (fun _ => Ts.JsString.ofString "ed25519") (Ts.JsString.ofString "k1"))))
    ⟨⟨none, none⟩, []⟩).1

theorem validate_agree_sample :
    ∃ token token', Agree SameResult (sampleGo sampleOptions token) (sampleTs sampleOptions token') := by
  have ha : plainClaims.data.Avoids "__proto__".toList :=
    ClaimValues.avoids_data (by decide) (by rintro d (⟨⟨⟩⟩ | ⟨⟨⟩⟩ | ⟨⟨⟩⟩))
  have plainly : Plainly sampleOptions (Data.rawMembers plainClaims.members) := by
    refine plainly_rawMembers ha fun name hn n hl => ?_
    simp only [integerClaims, List.mem_cons, List.not_mem_nil, or_false] at hn
    obtain rfl | rfl | rfl | rfl | rfl := hn <;> cases hl <;> decide
  have formed : OptionalFormed (claim? (Data.rawMembers plainClaims.members)) := by
    constructor
    all_goals
      intro raw h
      rw [claim?_rawMembers] at h
      contradiction
  obtain ⟨token, token', parts, parts', hv, hv', hk, hg, hr⟩ := verified_sample valid_plainClaims rfl ha
  exact ⟨token, token', (validate_agree_iff hv hv' hk hg hr _ _).mpr
    (validatedAlike_of_regular regular_sampleOptions plainly formed)⟩

theorem not_validate_agree : ¬∀ o ms token token' parts parts',
    (Go.verifyEnvelope (singleKey (fun _ => Bytes.ofString "ed25519") (Bytes.ofString "k1")) token).run
        (acceptAll (0 : Int64) : Surroundings _ _ _ _ Go.GoString).backend = .ok parts →
      (Ts.verify (singleKey (fun _ => Ts.JsString.ofString "ed25519") (Ts.JsString.ofString "k1")) token').run
        (acceptAll (.ofInt 0) : Surroundings _ _ _ Binary64 Ts.Value).backend = .ok parts' →
      SameString parts.header.kid parts'.header.kid → SameString parts.header.alg parts'.header.alg →
      ReadFrom ms parts.payload parts'.payload →
      Agree SameResult (sampleGo o token) (sampleTs o token') := by
  intro h
  obtain ⟨token, token', parts, parts', hv, hv', hk, ha, hr⟩ :=
    verified_sample valid_textualDeadline rfl avoids_textualDeadline
  have hag := h sampleOptions _ token token' parts parts' hv hv' hk ha hr
  rw [sampleGo, sampleTs, Go.call_validate rfl hv, Ts.call_validate rfl hv', hr.go, hr.ts,
    validated_agree_iff hk ha hr.distinct] at hag
  have unknown := (hag.onlyGo takes_textualDeadline not_takes_textualDeadline).status
  have active : (Go.findings sampleOptions (Data.rawMembers textualDeadline.members)).status = some "active" := by
    simp only [Go.findings]
    rw [claim?_rawMembers]
    rfl
  rw [active] at unknown
  simp [Findings.refusal] at unknown

end Sample

end Licensing
