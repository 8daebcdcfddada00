import Licensing.Tokens.IssueToken
import Licensing.Tokens.TokenRoundTrip

-- The deadline by which a client has to be online again, as both ports resolve it.

namespace Licensing

open JsonText

namespace Ts

-- The license comes with the value of its metadata.
structure IssueTokenInput where
  licenseMeta      : Value
  forceOnlineAfter : Option (Option Binary64) := none

def FORCE_ONLINE_MAX_SEC : Binary64 :=
  .ofInt (10 * 365 * 24 * 3600)

-- `Number.isSafeInteger`, which no infinity is.
def isSafeInteger : Binary64 → Bool
  | .finite _ m => m % Binary64.one = 0 ∧ m / Binary64.one < 2 ^ 53
  | _           => false

-- The text of a safe integer. A zero has no sign.
def integerText : Binary64 → String
  | .finite s m => toString (Binary64.scaled s (m / Binary64.one))
  | _           => ""

-- A value that is no safe integer is left out of the text.
def validateForceOnlineDeadline (candidate iat : Binary64) (context : String) : Except Error Binary64 :=
  if !candidate.isFinite || !isSafeInteger candidate then
    .error (newError .fingerprintRejected (context ++ " must be a finite integer"))
  else if candidate.lt iat then .error (newError .fingerprintRejected
    (context ++ " (" ++ integerText candidate ++ ") is in the past (iat=" ++ integerText iat ++ ")"))
  else if (iat.add FORCE_ONLINE_MAX_SEC).lt candidate then .error (newError .fingerprintRejected
    (context ++ " (" ++ integerText candidate ++ ") exceeds max horizon (" ++
      integerText (iat.add FORCE_ONLINE_MAX_SEC) ++ ")"))
  else .ok candidate

-- Here, too.
def resolveForceOnlineAfter (input : IssueTokenInput) (iat : Binary64) : Except Error (Option Binary64) :=
  match input.forceOnlineAfter with
  | some none             => .ok none
  | some (some candidate) => (validateForceOnlineDeadline candidate iat "forceOnlineAfter").map some
  | none                  =>
    match input.licenseMeta.get? "force_online_after_sec" with
    | some (.number fromMeta) =>
      if !fromMeta.isFinite || !isSafeInteger fromMeta || fromMeta.le (.ofInt 0) then
        .error (newError .fingerprintRejected "license.meta.force_online_after_sec must be a positive integer")
      else if FORCE_ONLINE_MAX_SEC.lt fromMeta then .error (newError .fingerprintRejected
        ("license.meta.force_online_after_sec (" ++ integerText fromMeta ++ ") exceeds max horizon (" ++
          integerText FORCE_ONLINE_MAX_SEC ++ ")"))
      else .ok (some (iat.add fromMeta))
    | _ => .ok none

-- What is read of a member, by its kind if it is an array or an object.
def HoldsMember : Option Json → Option Value → Prop
  | none,             none                => True
  | some .null,       some .null          => True
  | some (.bool b),   some (.boolean b')  => b = b'
  | some (.num lit),  some (.number x)    => x = Binary64.ofLiteral lit.toList
  | some (.str s),    some (.string s')   => s' = .ofString s
  | some (.arr _),    some (.array _)     => True
  | some (.obj _),    some (.object _ _)  => True
  | _,                _                   => False

end Ts

namespace ForceOnline

-- One license and one override, as each of the ports has them.
structure SameInput (ms : List (String × Json)) (go : Go.IssueTokenInput) (ts : Ts.IssueTokenInput) : Prop where
  go_meta  : Go.HoldMembers ms go.licenseMeta
  ts_meta  : ∃ own, ts.licenseMeta = .object own none ∧
    ∀ key, Ts.HoldsMember (ms.lookup key) (own.lookup (.ofString key))
  override : ts.forceOnlineAfter = go.forceOnlineAfter.map fun v => v.map fun v => .ofInt v.toInt

-- The seconds that a `Date` can show. The other port does not get as far.
def IsUnixTime (n : Int) : Prop :=
  n.natAbs ≤ 8640000000000

instance (n : Int) : Decidable (IsUnixTime n) :=
  inferInstanceAs (Decidable (_ ≤ _))

-- Both report no deadline, or the same one within the horizon, or fail with the same code.
inductive Agrees (iat : Int) : Except Error (Option Int64) → Except Error (Option Binary64) → Prop
  | unset : Agrees iat (.ok none) (.ok none)
  | deadline {d : Int64} {x : Binary64} (same : x.Represents d.toInt) (notBefore : iat ≤ d.toInt)
      (notAfter : d.toInt ≤ iat + 315360000) : Agrees iat (.ok (some d)) (.ok (some x))
  | fails {code : ErrorCode} {message message' : String} :
    Agrees iat (.error (.licensing code message)) (.error (.licensing code message'))

theorem isSafeInteger_iff {x : Binary64} :
    Ts.isSafeInteger x ↔ ∃ n : Int, n.natAbs < 2 ^ 53 ∧ x.Represents n := by
  cases x
  case finite s m =>
    have size := Binary64.natAbs_scaled s (m / Binary64.one)
    simp only [Ts.isSafeInteger, decide_eq_true_eq, Binary64.represents_iff]
    apply Iff.intro
    case mp  => exact fun ⟨hm, hq⟩ => ⟨_, size.symm ▸ hq, hm, rfl⟩
    case mpr =>
      intro ⟨n, hn, hm, e⟩
      rw [e] at size
      exact ⟨hm, size ▸ hn⟩
  all_goals
    apply Iff.intro
    case mp  => intro h; cases h
    case mpr => intro ⟨_, _, _, _, h, _⟩; cases h

-- What a number of the metadata stands for, if an issuance accepts it.
def Accepted (x : Binary64) (n : Int) : Prop :=
  Go.InHorizon n ∧ x.Represents n

theorem maxSec_represents : Ts.FORCE_ONLINE_MAX_SEC.Represents 315360000 :=
  .ofInt (by decide)

theorem zero_represents : (Binary64.ofInt 0).Represents 0 :=
  .ofInt (by decide)

theorem natAbs_lt_of_inHorizon {n : Int} (h : Go.InHorizon n) : n.natAbs < 2 ^ 53 := by
  have ⟨hl, hu⟩ := h
  omega

-- A double that stands for a small integer is converted to it, and only such a double is whole.
theorem toInt64_of_represents {x : Binary64} {n : Int} (h : x.Represents n) (hn : n.natAbs < 2 ^ 53) :
    Go.toInt64 x = .ofInt n := by
  have ⟨s, m, e, _⟩ := h
  subst e
  have ⟨_, e⟩ := Binary64.represents_iff.mp h
  have range : -2 ^ 63 ≤ n ∧ n < 2 ^ 63 := by omega
  rw [Go.toInt64, e]
  exact if_pos range

theorem wholeNumber_float_iff {x : Binary64} {sec : Int64} :
    (Go.wholeNumber (.float64 x) = some sec ∧ Go.InHorizon sec.toInt) ↔ Accepted x sec.toInt := by
  rw [Go.wholeNumber, Option.ite_none_right_eq_some, Option.some.injEq]
  apply Iff.intro
  case mp =>
    rintro ⟨⟨⟨hle, hge⟩, e⟩, h⟩
    rw [e] at hle hge
    exact ⟨h, .of_le (.ofInt (natAbs_lt_of_inHorizon h)) hle hge⟩
  case mpr =>
    rintro ⟨h, hr⟩
    have small := natAbs_lt_of_inHorizon h
    have e : Go.toInt64 x = sec := (toInt64_of_represents hr small).trans (Int64.ofInt_toInt sec)
    have hs := Binary64.Represents.ofInt small
    rw [e, hr.le_eq hs, hs.le_eq hr]
    simp [h]

theorem wholeNumber_iff {lit : String} {v : Go.Value} (held : Go.HoldsNumber lit v) {sec : Int64} :
    (Go.wholeNumber v = some sec ∧ Go.InHorizon sec.toInt) ↔
      Accepted (Binary64.ofLiteral lit.toList) sec.toInt := by
  cases v <;> simp only [Go.HoldsNumber] at held
  case float64 x => exact held ▸ wholeNumber_float_iff
  case int64 i =>
    rw [held, toString_int, ofLiteral_intText_eq, Go.wholeNumber, Option.some.injEq]
    apply Iff.intro
    case mp =>
      rintro ⟨e, h⟩
      subst e
      exact ⟨h, .ofInt (natAbs_lt_of_inHorizon h)⟩
    case mpr =>
      rintro ⟨h, hr⟩
      exact ⟨Int64.toInt_inj.mp (Binary64.eq_of_represents_ofInt hr (natAbs_lt_of_inHorizon h)), h⟩

theorem ts_number_iff {x : Binary64} :
    (!x.isFinite || !Ts.isSafeInteger x || x.le (.ofInt 0)) = false ∧ Ts.FORCE_ONLINE_MAX_SEC.lt x = false ↔
      ∃ n, Accepted x n := by
  simp only [Bool.or_eq_false_iff, Bool.not_eq_false', isSafeInteger_iff, Accepted, Go.InHorizon]
  apply Iff.intro
  case mp =>
    rintro ⟨⟨⟨_, n, _, hr⟩, hp⟩, hm⟩
    rw [hr.le_eq zero_represents, decide_eq_false_iff_not] at hp
    rw [maxSec_represents.lt_eq hr, decide_eq_false_iff_not] at hm
    exact ⟨n, by omega, hr⟩
  case mpr =>
    rintro ⟨n, h, hr⟩
    rw [hr.le_eq zero_represents, maxSec_represents.lt_eq hr, decide_eq_false_iff_not, decide_eq_false_iff_not]
    exact ⟨⟨⟨hr.isFinite, n, natAbs_lt_of_inHorizon h, hr⟩, by omega⟩, by omega⟩

-- An error has the code of a rejected fingerprint.
def Rejects {α : Type} (x : Except Error α) : Prop :=
  ∀ e, x = .error e → e.HasCode .fingerprintRejected

theorem rejects_ok {α : Type} (a : α) : Rejects (.ok a) := by
  simp [Rejects]

theorem rejects_error {α : Type} (message : String) : Rejects (.error (newError .fingerprintRejected message) :
    Except Error α) := by
  intro e h
  exact Except.error.inj h ▸ ⟨message, rfl⟩

theorem Rejects.map {α β : Type} {x : Except Error α} (h : Rejects x) (f : α → β) : Rejects (x.map f) := by
  cases x
  case ok => exact rejects_ok _
  case error e =>
    intro e' he
    exact h e' (congrArg _ (Except.error.inj he))

theorem go_validate_rejects (candidate iat : Int64) (context : String) :
    Rejects (Go.validateForceOnlineDeadline candidate iat context) := by
  rw [Go.validateForceOnlineDeadline]
  split_ifs
  case pos     => exact rejects_error _
  case pos     => exact rejects_error _
  case neg     => exact rejects_ok _

theorem ts_validate_rejects (candidate iat : Binary64) (context : String) :
    Rejects (Ts.validateForceOnlineDeadline candidate iat context) := by
  rw [Ts.validateForceOnlineDeadline]
  split_ifs
  case neg => exact rejects_ok _
  all_goals exact rejects_error _

theorem go_rejects (input : Go.IssueTokenInput) (iat : Int64) : Rejects (Go.resolveForceOnlineAfter input iat) := by
  rw [Go.resolveForceOnlineAfter]
  cases input.forceOnlineAfter
  case some v =>
    cases v
    case none   => exact rejects_ok _
    case some v => exact (go_validate_rejects v iat "forceOnlineAfter").map fun _ => some v
  case none =>
    cases input.licenseMeta.lookup (Bytes.ofString "force_online_after_sec")
    case none => exact rejects_ok _
    case some raw =>
      dsimp only
      cases Go.wholeNumber raw
      case none => exact rejects_error _
      case some sec =>
        dsimp only
        split_ifs
        case neg => exact rejects_ok _
        all_goals exact rejects_error _

theorem ts_rejects (input : Ts.IssueTokenInput) (iat : Binary64) : Rejects (Ts.resolveForceOnlineAfter input iat) := by
  rw [Ts.resolveForceOnlineAfter]
  cases input.forceOnlineAfter
  case some v =>
    cases v
    case none   => exact rejects_ok _
    case some v => exact (ts_validate_rejects v iat "forceOnlineAfter").map some
  case none =>
    dsimp only
    split
    case h_2 => exact rejects_ok _
    case h_1 =>
      split_ifs
      case neg => exact rejects_ok _
      all_goals exact rejects_error _

section Agreement

variable {iat : Int64}

theorem add_represents (unixTime : IsUnixTime iat.toInt) {x : Binary64} {n : Int} (h : Accepted x n) :
    ((Binary64.ofInt iat.toInt).add x).Represents (iat.toInt + n) := by
  have ⟨hl, hu⟩ := h.left
  rw [IsUnixTime] at unixTime
  exact .add (.ofInt (by omega)) h.right (by omega)

theorem toInt_add_inHorizon (unixTime : IsUnixTime iat.toInt) {sec : Int64} (h : Go.InHorizon sec.toInt) :
    (iat + sec).toInt = iat.toInt + sec.toInt := by
  have ⟨hl, hu⟩ := h
  rw [IsUnixTime] at unixTime
  rw [Int64.toInt_add]
  apply Int.bmod_eq_of_le <;> omega

-- Where one port fails, the other one has to fail.
theorem agrees_of_rejects {x : Except Error (Option Int64)} {y : Except Error (Option Binary64)}
    (hx : Rejects x) (hy : Rejects y) (failed : ∀ d, x ≠ .ok d) (failed' : ∀ d, y ≠ .ok d) :
    Agrees iat.toInt x y := by
  cases x
  case ok d => exact absurd rfl (failed d)
  case error e =>
    cases y
    case ok d => exact absurd rfl (failed' d)
    case error e' =>
      have ⟨m, h⟩ := hx e rfl
      have ⟨m', h'⟩ := hy e' rfl
      rw [h, h']
      exact .fails

theorem go_validate_iff (unixTime : IsUnixTime iat.toInt) (v : Int64) (context : String) :
    Go.validateForceOnlineDeadline v iat context = .ok () ↔
      iat.toInt ≤ v.toInt ∧ v.toInt ≤ iat.toInt + 315360000 := by
  have horizon : (iat + Go.forceOnlineMaxSec).toInt = iat.toInt + 315360000 :=
    toInt_add_inHorizon unixTime (by decide)
  have past : v < iat ↔ v.toInt < iat.toInt := Int64.lt_iff_toInt_lt
  have late : iat + Go.forceOnlineMaxSec < v ↔ iat.toInt + 315360000 < v.toInt :=
    Int64.lt_iff_toInt_lt.trans (horizon ▸ Iff.rfl)
  rw [Go.validateForceOnlineDeadline]
  split_ifs
  case pos h     => simp [past.mp h]
  case pos h     => simp [late.mp h]
  case neg h h'  => simp [not_lt.mp (mt past.mpr h), not_lt.mp (mt late.mpr h')]

theorem ts_validate_iff (unixTime : IsUnixTime iat.toInt) {v : Int} {x : Binary64} (context : String) :
    Ts.validateForceOnlineDeadline (.ofInt v) (.ofInt iat.toInt) context = .ok x ↔
      x = .ofInt v ∧ iat.toInt ≤ v ∧ v ≤ iat.toInt + 315360000 := by
  have small : IsUnixTime iat.toInt := unixTime
  rw [IsUnixTime] at small
  have now : (Binary64.ofInt iat.toInt).Represents iat.toInt := .ofInt (by omega)
  have horizon : ((Binary64.ofInt iat.toInt).add Ts.FORCE_ONLINE_MAX_SEC).Represents (iat.toInt + 315360000) :=
    add_represents unixTime ⟨by decide, maxSec_represents⟩
  by_cases hv : v.natAbs < 2 ^ 53
  case pos =>
    have hr := Binary64.Represents.ofInt hv
    have safe := isSafeInteger_iff.mpr ⟨v, hv, hr⟩
    rw [Ts.validateForceOnlineDeadline, hr.isFinite, safe, hr.lt_eq now, horizon.lt_eq hr]
    simp only [Bool.not_true, Bool.or_self, Bool.false_eq_true, if_false, decide_eq_true_eq]
    split_ifs
    case pos h    => simp [h]
    case pos h    => simp [h]
    case neg h h' => simp [not_lt.mp h, not_lt.mp h', eq_comm]
  case neg =>
    have unsafe_ : Ts.isSafeInteger (.ofInt v) = false := by
      rw [← Bool.not_eq_true, isSafeInteger_iff]
      intro ⟨n, hn, hr⟩
      exact hv (Binary64.eq_of_represents_ofInt hr hn ▸ hn)
    have far : ¬(iat.toInt ≤ v ∧ v ≤ iat.toInt + 315360000) := by omega
    rw [Ts.validateForceOnlineDeadline, unsafe_]
    simp [far]

-- An override is checked alike.
theorem validate_agrees (unixTime : IsUnixTime iat.toInt) (v : Int64) :
    Agrees iat.toInt ((Go.validateForceOnlineDeadline v iat "forceOnlineAfter").map fun _ => some v)
      ((Ts.validateForceOnlineDeadline (.ofInt v.toInt) (.ofInt iat.toInt) "forceOnlineAfter").map some) := by
  by_cases within : iat.toInt ≤ v.toInt ∧ v.toInt ≤ iat.toInt + 315360000
  case pos =>
    have small : IsUnixTime iat.toInt := unixTime
    rw [IsUnixTime] at small
    rw [(go_validate_iff unixTime v _).mpr within, (ts_validate_iff unixTime _).mpr ⟨rfl, within⟩]
    exact .deadline (.ofInt (by omega)) within.left within.right
  case neg =>
    apply agrees_of_rejects
    case hx => exact (go_validate_rejects v iat _).map _
    case hy => exact (ts_validate_rejects _ _ _).map _
    case failed =>
      intro d h
      cases hv : Go.validateForceOnlineDeadline v iat "forceOnlineAfter"
      case ok    => exact within ((go_validate_iff unixTime v _).mp hv)
      case error =>
        rw [hv] at h
        contradiction
    case failed' =>
      intro d h
      cases hv : Ts.validateForceOnlineDeadline (.ofInt v.toInt) (.ofInt iat.toInt) "forceOnlineAfter"
      case ok    => exact within ((ts_validate_iff unixTime _).mp hv).right
      case error =>
        rw [hv] at h
        contradiction

theorem ts_number_ok_iff {ts : Ts.IssueTokenInput} {x now : Binary64} {deadline : Option Binary64}
    (plain : ts.forceOnlineAfter = none)
    (ts_meta : ts.licenseMeta.get? "force_online_after_sec" = some (.number x)) :
    Ts.resolveForceOnlineAfter ts now = .ok deadline ↔ (∃ n, Accepted x n) ∧ deadline = some (now.add x) := by
  rw [← ts_number_iff]
  simp only [Ts.resolveForceOnlineAfter, plain, ts_meta]
  generalize (!x.isFinite || !Ts.isSafeInteger x || x.le (.ofInt 0)) = unfit
  generalize Ts.FORCE_ONLINE_MAX_SEC.lt x = far
  cases unfit <;> cases far <;> simp [eq_comm]

-- The deadline that the metadata asks for is taken alike if it is a number.
theorem number_agrees (unixTime : IsUnixTime iat.toInt) {go : Go.IssueTokenInput} {ts : Ts.IssueTokenInput}
    {lit : String} {raw : Go.Value} (held : Go.HoldsNumber lit raw) (plain : go.forceOnlineAfter = none)
    (plain' : ts.forceOnlineAfter = none)
    (go_meta : go.licenseMeta.lookup (Bytes.ofString "force_online_after_sec") = some raw)
    (ts_meta : ts.licenseMeta.get? "force_online_after_sec" = some (.number (Binary64.ofLiteral lit.toList))) :
    Agrees iat.toInt (Go.resolveForceOnlineAfter go iat) (Ts.resolveForceOnlineAfter ts (.ofInt iat.toInt)) := by
  by_cases accepted : ∃ n, Accepted (.ofLiteral lit.toList) n
  case pos =>
    have ⟨n, h⟩ := accepted
    have ⟨hl, hu⟩ := h.left
    have hn : (Int64.ofInt n).toInt = n := Int64.toInt_ofInt_of_le (by omega) (by omega)
    have taken : Accepted (.ofLiteral lit.toList) (Int64.ofInt n).toInt := hn.symm ▸ h
    have ⟨whole, horizon⟩ := (wholeNumber_iff held).mpr taken
    rw [(Go.resolveForceOnlineAfter_of_lookup plain go_meta).mpr ⟨_, whole, horizon, rfl⟩,
      (ts_number_ok_iff plain' ts_meta).mpr ⟨accepted, rfl⟩]
    have sum := toInt_add_inHorizon unixTime horizon
    rw [hn] at sum
    exact .deadline (sum ▸ add_represents unixTime h) (by omega) (by omega)
  case neg =>
    apply agrees_of_rejects (go_rejects go iat) (ts_rejects ts _)
    case failed =>
      intro d ok
      have ⟨sec, whole, horizon, _⟩ := (Go.resolveForceOnlineAfter_of_lookup plain go_meta).mp ok
      exact accepted ⟨_, (wholeNumber_iff held).mp ⟨whole, horizon⟩⟩
    case failed' =>
      intro d ok
      exact accepted ((ts_number_ok_iff plain' ts_meta).mp ok).left

-- Anything but a number fails in one port, and is no deadline in the other one.
theorem not_agrees_of_not_number {go : Go.IssueTokenInput} {ts : Ts.IssueTokenInput} {j : Json} {raw : Go.Value}
    {raw' : Ts.Value} (held : Go.HoldsJson j raw) (held' : Ts.HoldsMember (some j) (some raw'))
    (other : ∀ lit, j ≠ .num lit) (plain : go.forceOnlineAfter = none) (plain' : ts.forceOnlineAfter = none)
    (go_meta : go.licenseMeta.lookup (Bytes.ofString "force_online_after_sec") = some raw)
    (ts_meta : ts.licenseMeta.get? "force_online_after_sec" = some raw') (now : Binary64) :
    ¬Agrees iat.toInt (Go.resolveForceOnlineAfter go iat) (Ts.resolveForceOnlineAfter ts now) := by
  have failed : Go.wholeNumber raw = none := by
    cases j
    case num lit => exact absurd rfl (other lit)
    all_goals cases raw <;> first | rfl | simp [Go.HoldsJson] at held
  have ignored : ∀ x, raw' ≠ .number x := by
    rintro x rfl
    cases j <;> simp [Ts.HoldsMember] at held'
    case num lit => exact other lit rfl
  have unset : Ts.resolveForceOnlineAfter ts now = .ok none := by
    simp only [Ts.resolveForceOnlineAfter, plain', ts_meta]
    split
    case h_1 x e => exact absurd (Option.some.inj e) (ignored x)
    case h_2     => rfl
  have rejected : ∃ e, Go.resolveForceOnlineAfter go iat = .error e := by
    simp [Go.resolveForceOnlineAfter, plain, go_meta, failed]
  obtain ⟨e, rejected⟩ := rejected
  rw [unset, rejected]
  intro h
  cases h

end Agreement

theorem get?_object (own : List (Ts.JsString × Ts.Value)) (key : String) :
    (Ts.Value.object own none).get? key = own.lookup (.ofString key) := by
  rw [Ts.Value.get?]
  cases own.lookup (.ofString key) <;> rfl

-- The ports agree just when the metadata asks for the deadline by a number, or not at all.
theorem resolveForceOnlineAfter_agrees_iff {ms : List (String × Json)} {go : Go.IssueTokenInput}
    {ts : Ts.IssueTokenInput} (same : SameInput ms go ts) {iat : Int64} (unixTime : IsUnixTime iat.toInt) :
    Agrees iat.toInt (Go.resolveForceOnlineAfter go iat) (Ts.resolveForceOnlineAfter ts (.ofInt iat.toInt)) ↔
      (go.forceOnlineAfter = none →
        ∀ v, ms.lookup "force_online_after_sec" = some v → ∃ lit, v = .num lit) := by
  obtain ⟨own, object, members⟩ := same.ts_meta
  have override := same.override
  cases plain : go.forceOnlineAfter
  case some v =>
    rw [plain] at override
    simp only [reduceCtorEq, false_implies, iff_true]
    cases v
    case none   =>
      rw [Go.resolveForceOnlineAfter, plain, Ts.resolveForceOnlineAfter, override]
      exact .unset
    case some v =>
      rw [Go.resolveForceOnlineAfter, plain, Ts.resolveForceOnlineAfter, override]
      exact validate_agrees unixTime v
  case none =>
    rw [plain] at override
    have plain' : ts.forceOnlineAfter = none := override
    have member := members "force_online_after_sec"
    rw [← get?_object, ← object] at member
    rcases Go.lookup_held same.go_meta "force_online_after_sec" with
      ⟨absent, go_meta⟩ | ⟨j, raw, found, go_meta, held⟩
    · rw [absent] at member
      cases ts_meta : ts.licenseMeta.get? "force_online_after_sec"
      case some => simp [ts_meta, Ts.HoldsMember] at member
      case none =>
        simp only [Go.resolveForceOnlineAfter, Ts.resolveForceOnlineAfter, plain, plain', go_meta, ts_meta, absent]
        simp [Agrees.unset]
    · rw [found] at member
      cases ts_meta : ts.licenseMeta.get? "force_online_after_sec"
      case none => cases j <;> simp [ts_meta, Ts.HoldsMember] at member
      case some raw' =>
        rw [ts_meta] at member
        by_cases number : ∃ lit, j = .num lit
        case pos =>
          obtain ⟨lit, e⟩ := number
          subst e
          cases raw' <;> simp only [Ts.HoldsMember] at member
          subst member
          have agrees := number_agrees unixTime (Go.holds_number_iff.mp held) plain plain' go_meta ts_meta
          simp [agrees, found]
        case neg =>
          have other : ∀ lit, j ≠ .num lit := fun lit e => number ⟨lit, e⟩
          have differ : ¬Agrees iat.toInt _ (Ts.resolveForceOnlineAfter ts (.ofInt iat.toInt)) :=
            not_agrees_of_not_number held member other plain plain' go_meta ts_meta _
          simp only [differ, found, Option.some.injEq, forall_eq', number, imp_false, not_true_eq_false]

section Sample

def sampleJson (sec : Json) : List (String × Json) :=
  [("force_online_after_sec", sec)]

def sampleLicense : License where
  id             := "l1"
  scopeId        := none
  templateId     := none
  licensableType := "User"
  licensableId   := "u1"
  licenseKey     := "LIC-1"
  status         := .active
  maxUsages      := 1
  isTrial        := false
  activatedAt    := none
  expiresAt      := none
  graceUntil     := none
  meta_          := []
  createdAt      := ""
  updatedAt      := ""

def sampleUsage : LicenseUsage where
  id           := "s1"
  licenseId    := "l1"
  fingerprint  := "fp"
  status       := .active
  registeredAt := ""
  lastSeenAt   := ""
  revokedAt    := none
  clientMeta   := []
  createdAt    := ""
  updatedAt    := ""

def goSample (sec : Go.Value) : Go.IssueTokenInput where
  license           := sampleLicense
  licenseMeta       := [(Bytes.ofString "force_online_after_sec", sec)]
  usage             := sampleUsage
  alg               := .ed25519
  signingPassphrase := ""
  ttlSeconds        := 3600

def tsSample (sec : Ts.Value) : Ts.IssueTokenInput where
  licenseMeta := .object [(.ofString "force_online_after_sec", sec)] none

theorem sameInput_sample {j : Json} {v : Go.Value} {w : Ts.Value} (hv : Go.HoldsJson j v)
    (hw : Ts.HoldsMember (some j) (some w)) : SameInput (sampleJson j) (goSample v) (tsSample w) where
  go_meta  := ⟨rfl, hv, trivial⟩
  override := rfl
  ts_meta  := by
    refine ⟨_, rfl, fun key => ?_⟩
    rw [sampleJson, List.lookup_cons, List.lookup_cons]
    by_cases hk : key = "force_online_after_sec"
    case pos => simpa [hk] using hw
    case neg =>
      have hb : Ts.JsString.ofString key ≠ .ofString "force_online_after_sec" := Ts.ofString_injective.ne hk
      rw [beq_false_of_ne hk, beq_false_of_ne hb]
      trivial

-- One hour.
theorem resolveForceOnlineAfter_agrees_hour :
    Agrees 1767225600 (Go.resolveForceOnlineAfter (goSample (.int64 3600)) 1767225600)
      (Ts.resolveForceOnlineAfter (tsSample (.number (.ofLiteral "3600".toList))) (.ofInt 1767225600)) := by
  have held : Go.HoldsJson (.num "3600") (.int64 3600) := Go.holds_number_iff.mpr rfl
  have held' : Ts.HoldsMember (some (.num "3600")) (some (.number (.ofLiteral "3600".toList))) := rfl
  have same := sameInput_sample held held'
  have iat : IsUnixTime (Int64.toInt 1767225600) := by decide
  refine (resolveForceOnlineAfter_agrees_iff same iat).mpr fun _ v hv => ?_
  exact ⟨"3600", (Option.some.inj hv).symm⟩

-- The same as a text.
theorem not_resolveForceOnlineAfter_agrees : ¬∀ (ms : List (String × Json)) (go : Go.IssueTokenInput)
    (ts : Ts.IssueTokenInput) (iat : Int64), SameInput ms go ts → IsUnixTime iat.toInt →
      Agrees iat.toInt (Go.resolveForceOnlineAfter go iat) (Ts.resolveForceOnlineAfter ts (.ofInt iat.toInt)) := by
  intro h
  have held : Go.HoldsJson (.str "3600") (.string (Bytes.ofString "3600")) := rfl
  have held' : Ts.HoldsMember (some (.str "3600")) (some (.string (.ofString "3600"))) := rfl
  have same := sameInput_sample held held'
  have agrees := h _ _ _ 1767225600 same (by decide)
  cases agrees

end Sample

end ForceOnline

end Licensing
