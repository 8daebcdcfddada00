import Licensing.Keys.Attestation
import Licensing.Memory.Services
import Licensing.Tokens.IssueToken

-- The licenses that are created from templates, and the tokens that are issued for them.

namespace Licensing

namespace TemplateService

open Go

-- The numbers are machine integers.
structure CreateTemplateInput where
  scopeId             : Option String := none
  parentId            : Option String := none
  forceOnlineAfterSec : Option Int64 := none
  trialCooldownSec    : Option Int64 := none
  entitlements        : Json.Object := []
  meta_               : Json.Object := []
  name                : String
  maxUsages           : Int64
  trialDurationSec    : Int64 := 0
  graceDurationSec    : Int64 := 0

def CreateTemplateInput.row (input : CreateTemplateInput) : LicenseTemplateInput where
  scopeId             := input.scopeId
  parentId            := input.parentId
  name                := input.name
  maxUsages           := input.maxUsages.toInt
  trialDurationSec    := input.trialDurationSec.toInt
  trialCooldownSec    := input.trialCooldownSec.map Int64.toInt
  graceDurationSec    := input.graceDurationSec.toInt
  forceOnlineAfterSec := input.forceOnlineAfterSec.map Int64.toInt
  entitlements        := input.entitlements
  meta_               := input.meta_

def templateAudit (created : LicenseTemplate) (occurredAt : String) (actor : Option String) :
    AuditLogInput where
  licenseId  := none
  scopeId    := created.scopeId
  actor      := actor.getD "system"
  event      := "template.created"
  newState   := some [
    ("template_id", .str created.id),
    ("name", .str created.name),
    ("max_usages", .ofInt created.maxUsages),
    ("trial_duration_sec", .ofInt created.trialDurationSec),
    ("grace_duration_sec", .ofInt created.graceDurationSec)]
  occurredAt := occurredAt

def createTemplate (input : CreateTemplateInput) (actor : Option String) : Service LicenseTemplate := do
  if input.maxUsages < 1 then
    .throw (fingerprintRejected
      ("template.max_usages must be >= 1 (got " ++ toString input.maxUsages ++ ")"))
  else if input.trialDurationSec < 0 then
    .throw (fingerprintRejected
      ("template.trial_duration_sec must be >= 0 (got " ++ toString input.trialDurationSec ++ ")"))
  else if input.graceDurationSec < 0 then
    .throw (fingerprintRejected
      ("template.grace_duration_sec must be >= 0 (got " ++ toString input.graceDurationSec ++ ")"))
  else
    let created ← Service.perform (.createTemplate input.row)
    let now ← Service.nowISO
    let _ ← Service.perform (.appendAudit (templateAudit created now actor))
    return created

-- A store keeps what it is given of a template and of a license.
structure Keeps (answer : (o : ServiceOp) → o.Ans) : Prop where
  template : ∀ {input t}, answer (.storage (.createTemplate input)) = .ok t →
    t.maxUsages = input.maxUsages ∧ t.forceOnlineAfterSec = input.forceOnlineAfterSec ∧
      t.entitlements = input.entitlements
  license  : ∀ {input l}, answer (.storage (.createLicense input)) = .ok l →
    l.maxUsages = input.maxUsages ∧ l.meta_ = input.meta_

-- What a token can be issued for.
structure CreateTemplateInput.Issuable (input : CreateTemplateInput) : Prop where
  forceOnline  : ∀ sec, input.forceOnlineAfterSec = some sec → InHorizon sec.toInt
  maxUsages    : input.maxUsages < 2 ^ 53
  entitlements : AreSafeMembers input.entitlements

-- The adapter that keeps the rows in memory does.
theorem keeps_memory (ω : Memory.Env) (s : Memory.Store) : Keeps fun o => (execService ω o s).1 where
  template {input t} h := by
    have acts := execStorage_acts ω s (.createTemplate input)
    change (execStorage ω (.createTemplate input) s).1 = .ok t at h
    generalize execStorage ω (.createTemplate input) s = r at acts h
    obtain ⟨a, s'⟩ := r
    subst h
    cases acts
    case createTemplate => exact ⟨rfl, rfl, rfl⟩
    case read h         => exact False.elim h
  license {input l} h := by
    have acts := execStorage_acts ω s (.createLicense input)
    change (execStorage ω (.createLicense input) s).1 = .ok l at h
    generalize execStorage ω (.createLicense input) s = r at acts h
    obtain ⟨a, s'⟩ := r
    subst h
    cases acts
    case createLicense => exact ⟨rfl, rfl⟩
    case read h        => exact False.elim h

section Creation

variable {answer : (o : ServiceOp) → o.Ans} {input : CreateTemplateInput} {actor : Option String}
  {t : LicenseTemplate}

theorem run_perform {o : StorageOp} {a : o.Res} :
    (Service.perform o).run answer = .ok a ↔ answer (.storage o) = .ok a := by
  cases h : answer (.storage o) <;> simp [Service.perform, h]

theorem of_createTemplate (h : (createTemplate input actor).run answer = .ok t) :
    1 ≤ input.maxUsages ∧ answer (.storage (.createTemplate input.row)) = .ok t := by
  unfold createTemplate at h
  split at h
  case isTrue => simp at h
  case isFalse hm =>
    split at h
    case isTrue => simp at h
    case isFalse =>
      split at h
      case isTrue => simp at h
      case isFalse =>
        obtain ⟨created, hc, h⟩ := Prog.run_bind_eq_ok_iff.mp h
        obtain ⟨now, -, h⟩ := Prog.run_bind_eq_ok_iff.mp h
        obtain ⟨_, -, h⟩ := Prog.run_bind_eq_ok_iff.mp h
        cases h
        exact ⟨Int64.not_lt.mp hm, run_perform.mp hc⟩

theorem of_insertLicense {input : CreateLicenseInput} {key : String} {opts : CreateLicenseOptions}
    {l : License} (h : (insertLicense input key opts).run answer = .ok l) :
    answer (.storage (.createLicense (input.row key))) = .ok l := by
  obtain ⟨created, hc, h⟩ := Prog.run_bind_eq_ok_iff.mp h
  obtain ⟨now, -, h⟩ := Prog.run_bind_eq_ok_iff.mp h
  obtain ⟨_, -, h⟩ := Prog.run_bind_eq_ok_iff.mp h
  cases h
  exact run_perform.mp hc

theorem of_createLicense {input : CreateLicenseInput} {opts : CreateLicenseOptions} {l : License}
    (h : (createLicense input opts).run answer = .ok l) :
    ∃ key, answer (.storage (.createLicense (input.row key))) = .ok l := by
  unfold createLicense at h
  split at h
  all_goals
    obtain ⟨key, -, h⟩ := Prog.run_bind_eq_ok_iff.mp h
    exact ⟨key, of_insertLicense h⟩

-- What a license takes over from its template.
theorem of_createLicenseFromTemplate {input : CreateLicenseFromTemplateInput} {opts : CreateLicenseOptions}
    {l : License} (keeps : Keeps answer)
    (found : answer (.storage (.getTemplate input.templateId)) = .ok (some t))
    (h : (createLicenseFromTemplate input opts).run answer = .ok l) :
    ∃ now, l.maxUsages = (fromTemplate input t now).maxUsages ∧ l.meta_ = (fromTemplate input t now).meta_ := by
  obtain ⟨o, ho, h⟩ := Prog.run_bind_eq_ok_iff.mp h
  rw [run_perform, found] at ho
  cases ho
  obtain ⟨now, -, h⟩ := Prog.run_bind_eq_ok_iff.mp h
  obtain ⟨key, hl⟩ := of_createLicense h
  exact ⟨now, keeps.license hl⟩

end Creation

-- The metadata of a license that adds nothing to its template.
def templateMeta (t : LicenseTemplate) : Json.Object :=
  (if t.entitlements = [] then [] else [("entitlements", .obj t.entitlements)]) ++
    (t.forceOnlineAfterSec.map fun n => ("force_online_after_sec", .ofInt n)).toList

theorem meta_fromTemplate {input : CreateLicenseFromTemplateInput} {t : LicenseTemplate} {now : String}
    (h : input.meta_ = []) : (fromTemplate input t now).meta_ = templateMeta t := by
  simp [fromTemplate, copyMap, Json.Object.get?, h, templateMeta]

theorem lookup_entitlements (t : LicenseTemplate) : (templateMeta t).lookup "entitlements" =
    if t.entitlements = [] then none else some (.obj t.entitlements) := by
  unfold templateMeta
  split
  all_goals cases t.forceOnlineAfterSec <;> simp [List.lookup_cons]

theorem lookup_forceOnline (t : LicenseTemplate) : (templateMeta t).lookup "force_online_after_sec" =
    t.forceOnlineAfterSec.map .ofInt := by
  unfold templateMeta
  split
  all_goals cases t.forceOnlineAfterSec <;> simp [List.lookup_cons]

section Issuance

variable {ρ κ : Type} {answer : (o : Op) → o.Ans} {fuel : Nat} {b : KeyBackends ρ κ} {seed : ρ}
  {jti : String} {input : IssueTokenInput} {t : LicenseTemplate}

theorem resolveEntitlements_held (plain : input.entitlements = none)
    (held : HoldMembers (templateMeta t) input.licenseMeta) :
    (resolveEntitlements input = none ∧ t.entitlements = []) ∨
      ∃ ms, resolveEntitlements input = some ms ∧ HoldMembers t.entitlements ms := by
  have hl := lookup_entitlements t
  rw [resolveEntitlements, plain, Map.as]
  cases lookup_held held "entitlements"
  case inl h =>
    rw [h.left] at hl
    rw [h.right]
    split at hl
    case isTrue he => exact .inl ⟨rfl, he⟩
    case isFalse   => contradiction
  case inr h =>
    obtain ⟨j, v, hj, hv, hh⟩ := h
    rw [hj] at hl
    rw [hv]
    split at hl
    case isTrue  => contradiction
    case isFalse =>
      cases hl
      cases v <;> simp only [HoldsJson] at hh
      case map ms => exact .inr ⟨ms, rfl, hh⟩

theorem written_entitlements_iff (plain : input.entitlements = none)
    (held : HoldMembers (templateMeta t) input.licenseMeta) :
    (∀ ms, resolveEntitlements input = some ms → Written (writeValue (.map ms))) ↔
      AreSafeMembers t.entitlements := by
  rcases resolveEntitlements_held plain held with ⟨hr, he⟩ | ⟨ms, hr, hm⟩
  case inl => simp [hr, he, AreSafeMembers]
  case inr =>
    have hw : Written (writeValue (.map ms)) ↔ AreSafeMembers t.entitlements := written_value_iff (.obj _) hm
    simp [hr, hw]

theorem resolveForceOnlineAfter_held {iat : Int64} (plain : input.forceOnlineAfter = none)
    (held : HoldMembers (templateMeta t) input.licenseMeta) {deadline : Option Int64} :
    resolveForceOnlineAfter input iat = .ok deadline ↔
      (∀ n, t.forceOnlineAfterSec = some n → InHorizon n) ∧
        deadline = t.forceOnlineAfterSec.map fun n => iat + .ofInt n := by
  have hl := lookup_forceOnline t
  cases lookup_held held "force_online_after_sec"
  case inl h =>
    rw [h.left] at hl
    have hn := Option.map_eq_none_iff.mp hl.symm
    simp [resolveForceOnlineAfter, plain, h.right, hn, eq_comm]
  case inr h =>
    obtain ⟨j, v, hj, hv, hh⟩ := h
    rw [hj] at hl
    obtain ⟨n, hn, rfl⟩ := Option.map_eq_some_iff.mp hl.symm
    have hh : HoldsNumber (toString n) v := holds_number_iff.mp hh
    rw [resolveForceOnlineAfter_of_lookup plain hv]
    simp only [hn, Option.some.injEq, forall_eq', Option.map_some]
    apply Iff.intro
    case mp =>
      rintro ⟨sec, hs, hi, rfl⟩
      have hi' := inHorizon_of_wholeNumber hh hs hi
      cases hs.symm.trans (wholeNumber_of_inHorizon hh hi')
      exact ⟨hi', rfl⟩
    case mpr =>
      rintro ⟨hi, rfl⟩
      refine ⟨.ofInt n, wholeNumber_of_inHorizon hh hi, ?_, rfl⟩
      obtain ⟨hl, hu⟩ := hi
      rw [Int64.toInt_ofInt_of_le (by omega) (by omega)]
      exact ⟨hl, hu⟩

-- The claims can be written if what the template gave to the license can.
theorem claims_iff (h : Ready answer fuel b seed input)
    (held : HoldMembers (templateMeta t) input.licenseMeta) :
    (∃ deadline, resolveForceOnlineAfter input (unixSeconds (answer .nowISO)) = .ok deadline ∧
        Writable input (unixSeconds (answer .nowISO)) deadline) ↔
      (∀ n, t.forceOnlineAfterSec = some n → InHorizon n) ∧
        (Int64.ofInt input.license.maxUsages).toInt.natAbs < 2 ^ 53 ∧ AreSafeMembers t.entitlements := by
  obtain ⟨hp, he, hm⟩ := h.plain
  obtain ⟨hl, hu⟩ := unixSeconds_bounds (answer .nowISO)
  have sum {k : Int64} (hk : 0 ≤ k.toInt) (hk' : k.toInt < 2 ^ 52) :
      (unixSeconds (answer .nowISO) + k).toInt.natAbs < 2 ^ 53 := by
    rw [Int64.toInt_add]
    have : ((unixSeconds (answer .nowISO)).toInt + k.toInt).bmod (2 ^ 64) =
        (unixSeconds (answer .nowISO)).toInt + k.toInt := by
      apply Int.bmod_eq_of_le <;> omega
    omega
  apply Iff.intro
  case mp =>
    rintro ⟨deadline, hd, hw⟩
    exact ⟨((resolveForceOnlineAfter_held hp held).mp hd).left, hw.maxUsages,
      (written_entitlements_iff he held).mp hw.entitlements⟩
  case mpr =>
    rintro ⟨hf, hmax, hs⟩
    refine ⟨_, (resolveForceOnlineAfter_held hp held).mpr ⟨hf, rfl⟩, ?_⟩
    constructor
    case issued       => omega
    case expires      =>
      have ht := Int64.lt_iff_toInt_lt.mp h.ttl.left
      have ht' := Int64.lt_iff_toInt_lt.mp h.ttl.right
      exact sum (Int.le_of_lt ht) ht'
    case maxUsages    => exact hmax
    case entitlements => exact (written_entitlements_iff he held).mpr hs
    case meta_        => simp [hm]
    case deadline     =>
      intro v hv
      obtain ⟨n, hn, rfl⟩ := Option.map_eq_some_iff.mp hv
      obtain ⟨hn, hn'⟩ := hf n hn
      have hi : (Int64.ofInt n).toInt = n := Int64.toInt_ofInt_of_le (by omega) (by omega)
      exact sum (by omega) (by omega)

-- A license of a template that was accepted, as stores keep them, without overrides and in whatever
-- status it is now.
inductive LicensedFrom (created : CreateTemplateInput) (input : IssueTokenInput) : Prop
  | intro {answer answer' : (o : ServiceOp) → o.Ans} (actor : Option String)
    (licensed : CreateLicenseFromTemplateInput) (opts : CreateLicenseOptions) (t : LicenseTemplate)
    (l : License) (activatedAt : Option String) (status : LicenseStatus) (updatedAt : String)
    (keeps : Keeps answer) (template : (createTemplate created actor).run answer = .ok t)
    (keeps' : Keeps answer') (found : answer' (.storage (.getTemplate licensed.templateId)) = .ok (some t))
    (maxUsages : licensed.maxUsages = none) (meta_ : licensed.meta_ = [])
    (license : (createLicenseFromTemplate licensed opts).run answer' = .ok l)
    (activated : input.license =
      { l with status := status, activatedAt := activatedAt, updatedAt := updatedAt })
    (held : HoldMembers input.license.meta_ input.licenseMeta) : LicensedFrom created input

variable {created : CreateTemplateInput}

theorem LicensedFrom.copied (h : LicensedFrom created input) : 1 ≤ created.maxUsages ∧
    ∃ t : LicenseTemplate, t.forceOnlineAfterSec = created.forceOnlineAfterSec.map Int64.toInt ∧
      t.entitlements = created.entitlements ∧ input.license.maxUsages = created.maxUsages.toInt ∧
      HoldMembers (templateMeta t) input.licenseMeta := by
  obtain ⟨_, _, _, _, _, _, _, _, keeps, template, keeps', found, maxUsages, meta_, license, activated, held⟩ := h
  obtain ⟨hone, ht⟩ := of_createTemplate template
  obtain ⟨tm, tf, te⟩ := keeps.template ht
  obtain ⟨now, lm, lmeta⟩ := of_createLicenseFromTemplate keeps' found license
  refine ⟨hone, _, tf, te, ?_, ?_⟩
  case refine_1 =>
    rw [activated, lm, fromTemplate, maxUsages, Option.getD_none, tm, CreateTemplateInput.row]
  case refine_2 => rwa [activated, lmeta, meta_fromTemplate meta_] at held

-- A token is issued for an activated license of a template if nothing that was copied from the
-- template stands in the way.
theorem issueToken_template_iff (licensed : LicensedFrom created input)
    (ready : Ready answer fuel b seed input) :
    (∃ r, (issueToken fuel b seed jti input).run answer = .ok r) ↔ created.Issuable := by
  obtain ⟨hone, t, tf, te, hm, held⟩ := licensed.copied
  rw [ready.issueToken_iff, claims_iff ready held, hm, Int64.ofInt_toInt, tf, te]
  have hsafe : created.maxUsages.toInt.natAbs < 2 ^ 53 ↔ created.maxUsages < 2 ^ 53 := by
    have hl := Int64.le_iff_toInt_le.mp hone
    rw [Int64.lt_iff_toInt_lt]
    have h₁ : (1 : Int64).toInt = 1 := rfl
    have h₂ : (2 ^ 53 : Int64).toInt = 2 ^ 53 := rfl
    omega
  have hforce : (∀ n, created.forceOnlineAfterSec.map Int64.toInt = some n → InHorizon n) ↔
      ∀ sec, created.forceOnlineAfterSec = some sec → InHorizon sec.toInt := by
    cases created.forceOnlineAfterSec <;> simp
  rw [hsafe, hforce]
  exact ⟨fun ⟨hf, hu, hs⟩ => ⟨hf, hu, hs⟩, fun h => ⟨h.forceOnline, h.maxUsages, h.entitlements⟩⟩

section Sample

def sampleTemplate (forceOnlineAfterSec : Int64) : CreateTemplateInput where
  name                := "basic"
  maxUsages           := 1
  forceOnlineAfterSec := some forceOnlineAfterSec

def sampleEnv : Memory.Env where
  clock      := "2026-01-01T00:00:00Z"
  freshId    := "1"
  licenseKey := "AAAAA"

def sampleRow (forceOnlineAfterSec : Int64) : LicenseTemplate :=
  createdTemplate sampleEnv.clock sampleEnv.freshId (sampleTemplate forceOnlineAfterSec).row

-- The store that holds the template.
def sampleStore (forceOnlineAfterSec : Int64) : Memory.Store :=
  (execStorage sampleEnv (.createTemplate (sampleTemplate forceOnlineAfterSec).row) {}).2

def sampleLicensed : CreateLicenseFromTemplateInput where
  templateId     := "1"
  licensableType := "user"
  licensableId   := "7"
  status         := some .active

def sampleLicense (forceOnlineAfterSec : Int64) : License :=
  Memory.createdLicense sampleEnv
    ((fromTemplate sampleLicensed (sampleRow forceOnlineAfterSec) sampleEnv.clock).row "AAAAA")

def sampleUsage : LicenseUsage where
  id           := "2"
  licenseId    := "1"
  fingerprint  := "f"
  status       := .active
  registeredAt := ""
  revokedAt    := none
  lastSeenAt   := ""
  clientMeta   := []
  createdAt    := ""
  updatedAt    := ""

def sampleKey : LicenseKey where
  id            := "3"
  scopeId       := none
  kid           := "k"
  alg           := .ed25519
  role          := .signing
  state         := .active
  publicPem     := ""
  privatePemEnc := some "secret"
  rotatedFrom   := none
  rotatedAt     := none
  notBefore     := ""
  notAfter      := none
  meta_         := []
  createdAt     := ""
  updatedAt     := ""

def sampleAnswer : (o : Op) → o.Ans
  | .tx (.listKeys _ _) => .ok ⟨[sampleKey], ""⟩
  | .tx _               => .error (.other "")
  | .nowISO             => sampleEnv.clock
  | .generateLicenseKey => ""

def sampleInput (forceOnlineAfterSec : Int64) : IssueTokenInput where
  license           := sampleLicense forceOnlineAfterSec
  licenseMeta       := [(Bytes.ofString "force_online_after_sec", .int64 forceOnlineAfterSec)]
  usage             := sampleUsage
  alg               := .ed25519
  signingPassphrase := "secret"
  ttlSeconds        := 3600

theorem ready_sample (sec : Int64) : Ready sampleAnswer 1 plainBackends () (sampleInput sec) where
  ttl    := by simp only [sampleInput]; decide
  usage  := ⟨rfl, rfl⟩
  status := .inl rfl
  key    := ⟨sampleKey, rfl, by simp [sampleKey], ⟨(), rfl, fun data => ⟨0 :: data, rfl⟩⟩, rfl,
    port.lic1Codec, rfl, by simp only [sampleInput]; decide⟩
  scope  := by simp [sampleInput, sampleLicense, Memory.createdLicense, CreateLicenseInput.row, fromTemplate,
    sampleLicensed, sampleRow, createdTemplate, CreateTemplateInput.row, sampleTemplate]
  plain  := ⟨rfl, rfl, rfl⟩

theorem licensedFrom_sample (sec : Int64) : LicensedFrom (sampleTemplate sec) (sampleInput sec) := by
  refine .intro none sampleLicensed {} (sampleRow sec) (sampleLicense sec) none .active sampleEnv.clock
    (keeps_memory sampleEnv {}) ?template (keeps_memory sampleEnv (sampleStore sec)) ?found rfl rfl ?license
    rfl ?held
  case template => rfl
  case found => rfl
  case license => rfl
  case held =>
    refine ⟨rfl, ?_, trivial⟩
    exact holds_number_iff.mpr rfl

theorem issueToken_template_day :
    ∃ r, (issueToken 1 plainBackends () "j" (sampleInput 86400)).run sampleAnswer = .ok r := by
  refine (issueToken_template_iff (licensedFrom_sample 86400) (ready_sample 86400)).mpr ⟨?_, ?_, trivial⟩
  case refine_1 =>
    rintro _ ⟨⟩
    decide
  case refine_2 => decide

-- No token is issued for a license of a template that is to be always online.
theorem not_issueToken_template : ¬∀ (answer : (o : Op) → o.Ans) (fuel : Nat) (b : KeyBackends Unit Unit)
    (jti : String) (created : CreateTemplateInput) (input : IssueTokenInput), LicensedFrom created input →
      Ready answer fuel b () input → ∃ r, (issueToken fuel b () jti input).run answer = .ok r := by
  intro h
  have ready := ready_sample 0
  obtain ⟨deadline, hd, -⟩ := ready.issueToken_iff.mp
    (h sampleAnswer 1 plainBackends "j" (sampleTemplate 0) (sampleInput 0) (licensedFrom_sample 0) ready)
  obtain ⟨sec, hs, hi, -⟩ := (resolveForceOnlineAfter_of_lookup rfl rfl).mp hd
  cases hs
  revert hi
  decide

end Sample

end Issuance

end TemplateService

end Licensing
