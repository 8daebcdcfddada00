import Licensing.Go.TemplateTokens

-- The dates of the licenses that are created from templates.

namespace Licensing

namespace TemplateService

open Go

-- The date lies exactly `d` seconds after the other. There is none without a duration.
inductive Follows (d : Int) : Option String → Option String → Prop
  | unset : Follows d none none
  | never {since : Option String} (zero : d ≤ 0) : Follows d since none
  | later {since date : String} {t : Int} (pos : 0 < d) (read : parseTime since = some t)
    (written : parseTime date = some (t + d * 1000000000)) : Follows d (some since) (some date)

theorem Follows.lt {d : Int} {since date : String} (h : Follows d (some since) (some date)) :
    ∃ t t', parseTime since = some t ∧ parseTime date = some t' ∧ t < t' := by
  cases h
  case later t pos read written => exact ⟨t, _, read, written, by omega⟩

-- The dates of a license are those of its template where the caller gives no others.
structure DatesExact (input : CreateLicenseFromTemplateInput) (template : LicenseTemplate) (now : String)
    (license : License) : Prop where
  expires : input.expiresAt = none → Follows template.trialDurationSec (some now) license.expiresAt
  grace   : input.graceUntil = none →
    Follows template.graceDurationSec license.expiresAt license.graceUntil

-- The nanoseconds of `d` seconds are a machine integer, and the year they lead to has four digits.
def InRange (d t : Int) : Prop :=
  d * 1000000000 < 2 ^ 63 ∧ FourDigits (t / 1000000000 + d)

instance (d t : Int) : Decidable (InRange d t) :=
  inferInstanceAs (Decidable (_ ∧ _))

-- A date that `d` seconds can be added to: it is read, and it lies on a microsecond.
def CanAdd (d : Int) (since : Option String) : Prop :=
  ∀ s, since = some s → 0 < d → ∃ t, parseTime s = some t ∧ t % 1000 = 0 ∧ InRange d t

structure CanDate (input : CreateLicenseFromTemplateInput) (template : LicenseTemplate) (now : String) :
    Prop where
  expires : input.expiresAt = none → CanAdd template.trialDurationSec (some now)
  grace   : input.graceUntil = none → ∀ e, input.expiresAt = some e → CanAdd template.graceDurationSec e
  both    : input.expiresAt = none → input.graceUntil = none → 0 < template.trialDurationSec →
    0 < template.graceDurationSec → ∀ t, parseTime now = some t →
    InRange template.graceDurationSec (t + template.trialDurationSec * 1000000000)

theorem laterBy_eq_iff {d t : Int} (h : 0 < d) :
    laterBy d t = some (t + d * 1000000000) ↔ t % 1000 = 0 ∧ InRange d t := by
  have hq : secondsDuration d + (2 ^ 64 : Nat) * Int.bdiv (d * 1000000000) (2 ^ 64) = d * 1000000000 :=
    Int.bmod_add_bdiv _ _
  have hl : -((2 ^ 64 : Nat) / 2 : Int) ≤ secondsDuration d := Int.le_bmod (by decide)
  have hu : secondsDuration d < ((2 ^ 64 : Nat) + 1 : Int) / 2 := Int.bmod_lt (by decide)
  have hs : secondsDuration d = d * 1000000000 ↔ d * 1000000000 < 2 ^ 63 := by omega
  have hc : (t + secondsDuration d) / 1000 * 1000 = t + d * 1000000000 ↔
      t % 1000 = 0 ∧ secondsDuration d = d * 1000000000 := by omega
  have hd : (t + d * 1000000000) / 1000 / 1000000 = t / 1000000000 + d := by omega
  simp only [laterBy, InRange]
  split
  case isTrue hf =>
    rw [Option.some.injEq, hc, hs]
    refine and_congr_right fun _ => (and_iff_left_of_imp fun hr => ?_).symm
    rwa [hs.mpr hr, hd] at hf
  case isFalse hf =>
    rw [← hd]
    simp only [reduceCtorEq, false_iff]
    intro h
    rw [hs.mpr h.right.left] at hf
    exact hf h.right.right

theorem follows_addSeconds_iff {d : Int} (h : 0 < d) (s : String) :
    Follows d (some s) (addSeconds s d) ↔ CanAdd d (some s) := by
  have hm := moment_addSeconds s d
  simp only [CanAdd, Option.some.injEq, forall_eq', h, forall_const]
  cases hp : parseTime s
  case none =>
    have ha : addSeconds s d = none := by simp [addSeconds, hp]
    rw [ha]
    simp only [reduceCtorEq, false_and, exists_false, iff_false]
    intro hf
    cases hf
    omega
  case some t =>
    simp only [Option.some.injEq, exists_eq_left', ← laterBy_eq_iff h]
    rw [hp, Option.map_some, moment] at hm
    obtain ⟨date, ha, hd⟩ := Option.map_eq_some_iff.mp hm
    rw [ha]
    apply Iff.intro
    case mp =>
      intro hf
      cases hf
      case later read written =>
        cases hp.symm.trans read
        rw [← hd, written]
    case mpr => exact fun hl => .later h hp (hd.trans hl)

theorem follows_computeGraceUntil_iff (d : Int) (since : Option String) :
    Follows d since (computeGraceUntil since d) ↔ CanAdd d since := by
  by_cases h : d ≤ 0
  case pos =>
    have hc : CanAdd d since := fun _ _ hd => absurd hd (Int.not_lt.mpr h)
    simp only [computeGraceUntil, h, if_true, hc, iff_true]
    exact .never h
  case neg =>
    simp only [computeGraceUntil, h, if_false]
    cases since
    case none   => exact iff_of_true .unset nofun
    case some s => exact follows_addSeconds_iff (Int.not_le.mp h) s

theorem follows_computeExpiresAt_iff (d : Int) (now : String) :
    Follows d (some now) (computeExpiresAt now d) ↔ CanAdd d (some now) :=
  follows_computeGraceUntil_iff d (some now)

-- The grace period of a license whose expiry is exact.
theorem canAdd_expires_iff {trial grace : Int} {now : String} {expires : Option String}
    (h : Follows trial (some now) expires) (can : CanAdd trial (some now)) :
    CanAdd grace expires ↔ (0 < trial → 0 < grace → ∀ t, parseTime now = some t →
      InRange grace (t + trial * 1000000000)) := by
  cases h
  case never zero => exact iff_of_true nofun fun hp => absurd hp (Int.not_lt.mpr zero)
  case later date t pos written read =>
    obtain ⟨t', hr, hz, -⟩ := can now rfl pos
    cases read.symm.trans hr
    clear can
    simp only [CanAdd, Option.some.injEq, forall_eq', written, exists_eq_left', pos, forall_const, read]
    have : (t + trial * 1000000000) % 1000 = 0 := by omega
    simp [this]

-- A store keeps the dates it is given.
def KeepsDates (answer : (o : ServiceOp) → o.Ans) : Prop :=
  ∀ input l, answer (.storage (.createLicense input)) = .ok l →
    l.expiresAt = input.expiresAt ∧ l.graceUntil = input.graceUntil

theorem keepsDates_memory (ω : Memory.Env) (s : Memory.Store) : KeepsDates fun o => (execService ω o s).1 := by
  intro input l h
  have acts := execStorage_acts ω s (.createLicense input)
  change (execStorage ω (.createLicense input) s).1 = .ok l at h
  generalize execStorage ω (.createLicense input) s = r at acts h
  obtain ⟨a, s'⟩ := r
  subst h
  cases acts
  case createLicense => exact ⟨rfl, rfl⟩
  case read h        => exact False.elim h

variable {answer : (o : ServiceOp) → o.Ans} {input : CreateLicenseFromTemplateInput}
  {opts : CreateLicenseOptions} {template : LicenseTemplate} {license : License}

theorem dates_of_createLicenseFromTemplate (keeps : KeepsDates answer)
    (found : answer (.storage (.getTemplate input.templateId)) = .ok (some template))
    (h : (createLicenseFromTemplate input opts).run answer = .ok license) :
    license.expiresAt = (fromTemplate input template (answer .nowISO)).expiresAt ∧
      license.graceUntil = (fromTemplate input template (answer .nowISO)).graceUntil := by
  obtain ⟨o, ho, h⟩ := Prog.run_bind_eq_ok_iff.mp h
  rw [run_perform, found] at ho
  cases ho
  obtain ⟨now, hn, h⟩ := Prog.run_bind_eq_ok_iff.mp h
  cases hn
  obtain ⟨key, hl⟩ := of_createLicense h
  exact keeps _ _ hl

theorem createLicenseFromTemplate_dates_iff (keeps : KeepsDates answer)
    (found : answer (.storage (.getTemplate input.templateId)) = .ok (some template))
    (h : (createLicenseFromTemplate input opts).run answer = .ok license) :
    DatesExact input template (answer .nowISO) license ↔ CanDate input template (answer .nowISO) := by
  obtain ⟨he, hg⟩ := dates_of_createLicenseFromTemplate keeps found h
  generalize answer .nowISO = now at he hg
  simp only [fromTemplate] at he hg
  have expires : (input.expiresAt = none → Follows template.trialDurationSec (some now) license.expiresAt) ↔
      (input.expiresAt = none → CanAdd template.trialDurationSec (some now)) := by
    apply imp_congr_right
    intro hi
    rw [he, hi, Option.getD_none, follows_computeExpiresAt_iff]
  have grace : (input.graceUntil = none → Follows template.graceDurationSec license.expiresAt license.graceUntil) ↔
      (input.graceUntil = none → CanAdd template.graceDurationSec license.expiresAt) := by
    apply imp_congr_right
    intro hi
    rw [hg, ← he, hi, Option.getD_none, follows_computeGraceUntil_iff]
  apply Iff.intro
  case mp =>
    rintro ⟨hx, hy⟩
    have cx := expires.mp hx
    have cy := grace.mp hy
    constructor
    case expires => exact cx
    case grace =>
      intro hi e h
      have := cy hi
      rwa [he, h] at this
    case both => exact fun hi hi' => (canAdd_expires_iff (hx hi) (cx hi)).mp (cy hi')
  case mpr =>
    rintro ⟨cx, cy, both⟩
    have hx := expires.mpr cx
    refine ⟨hx, grace.mpr fun hi => ?_⟩
    cases h : input.expiresAt
    case none   => exact (canAdd_expires_iff (hx h) (cx h)).mpr (both h hi)
    case some e =>
      rw [he, h]
      exact cy hi e h

section Sample

def trialTemplate (trialDurationSec : Int64) : CreateTemplateInput where
  name             := "trial"
  maxUsages        := 1
  trialDurationSec := trialDurationSec
  graceDurationSec := 604800

def trialRow (trialDurationSec : Int64) : LicenseTemplate :=
  createdTemplate sampleEnv.clock sampleEnv.freshId (trialTemplate trialDurationSec).row

def trialStore (trialDurationSec : Int64) : Memory.Store :=
  (execStorage sampleEnv (.createTemplate (trialTemplate trialDurationSec).row) {}).2

def trialLicense (trialDurationSec : Int64) : License :=
  Memory.createdLicense sampleEnv
    ((fromTemplate sampleLicensed (trialRow trialDurationSec) sampleEnv.clock).row "AAAAA")

theorem parseTime_sampleClock : parseTime sampleEnv.clock = some 1767225600000000000 := by decide +kernel

-- Two weeks of trial and a week of grace.
theorem createLicenseFromTemplate_dates_weeks :
    DatesExact sampleLicensed (trialRow 1209600) sampleEnv.clock (trialLicense 1209600) := by
  have found : (execService sampleEnv (.storage (.getTemplate "1")) (trialStore 1209600)).1 =
    .ok (some (trialRow 1209600)) := rfl
  have licensed : (createLicenseFromTemplate sampleLicensed {}).run
    (fun o => (execService sampleEnv o (trialStore 1209600)).1) = .ok (trialLicense 1209600) := rfl
  apply (createLicenseFromTemplate_dates_iff (keepsDates_memory _ _) found licensed).mpr
  constructor
  case expires =>
    intro _ _ hs _
    cases hs
    exact ⟨_, parseTime_sampleClock, by decide, by decide⟩
  case grace =>
    intro _ _ h
    cases h
  case both =>
    intro _ _ _ _ t ht
    cases parseTime_sampleClock.symm.trans ht
    decide

-- The nanoseconds of 293 years wrap around: the trial ends before it starts.
theorem not_createLicenseFromTemplate_dates : ¬∀ (answer answer' : (o : ServiceOp) → o.Ans)
    (created : CreateTemplateInput) (actor : Option String) (template : LicenseTemplate)
    (input : CreateLicenseFromTemplateInput) (opts : CreateLicenseOptions) (license : License),
    (createTemplate created actor).run answer = .ok template → KeepsDates answer' →
    answer' (.storage (.getTemplate input.templateId)) = .ok (some template) →
    (createLicenseFromTemplate input opts).run answer' = .ok license →
    DatesExact input template (answer' .nowISO) license := by
  intro h
  have hd := h (fun o => (execService sampleEnv o {}).1)
    (fun o => (execService sampleEnv o (trialStore 9246182400)).1) (trialTemplate 9246182400) none
    (trialRow 9246182400) sampleLicensed {} (trialLicense 9246182400) rfl
    (keepsDates_memory sampleEnv (trialStore 9246182400)) rfl rfl
  obtain ⟨_, -, -, hr, -⟩ := (follows_computeExpiresAt_iff _ _).mp (hd.expires rfl) _ rfl (by decide)
  exact absurd hr (by decide)

end Sample

end TemplateService

end Licensing
