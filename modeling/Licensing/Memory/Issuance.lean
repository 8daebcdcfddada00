import Licensing.Memory.Issuer
import Licensing.Memory.Terms

-- What becomes of a store, and of the caller, when the issuer is asked for a license.

namespace Licensing

open Memory Prog

namespace Go

variable (hmac : String → String → String)

-- A storage in memory does not fail on its own.
def issueEnv (ω : Nat → Nat → Env) (n : Nat) : IssuerEnv where
  env := ω n

-- What the calls of the issuer find, part by part.

def templateOf (s : Store) (input : IssueInput) : Option LicenseTemplate :=
  input.templateId.bind (s.templates.find ·)

def expiryEnv (s : Store) (input : IssueInput) (ω : Nat → Nat → Env) (n : Nat) : IssuerEnv :=
  issueEnv ω (n + (findTemplate input.templateId).callCount execIssue (issueEnv ω) s)

def trialEnv (s : Store) (input : IssueInput) (ω : Nat → Nat → Env) (n : Nat) : IssuerEnv :=
  expiryEnv s input ω (n + (issueExpiresAt input (templateOf s input)).callCount execIssue
    (expiryEnv s input ω) s)

def createEnv (s : Store) (i : Issuer) (input : IssueInput) (ω : Nat → Nat → Env) (n : Nat) : IssuerEnv :=
  if input.isTrial then
    match trialHash hmac i input with
    | .error _            => trialEnv s input ω n
    | .ok fingerprintHash =>
      trialEnv s input ω (n + (dedupe i (templateOf s input) input.templateId fingerprintHash).callCount
        execIssue (trialEnv s input ω) s)
  else trialEnv s input ω n

-- The end of a license that is issued, unless it cannot be calculated.
def issueExpiry (input : IssueInput) (template : Option LicenseTemplate) (now : String) :
    Option (Option (Option Int)) :=
  match input.expiresAt, template with
  | none, some t =>
    if 0 < t.trialDurationSec then (parseTime now).map fun ns => some (laterBy t.trialDurationSec ns)
    else some none
  | expiresAt, _ => some (moment expiresAt)

def issueTerms (s : Store) (input : IssueInput) (ω : Nat → Nat → Env) : Option Terms :=
  if input.templateId.isSome ∧ (templateOf s input).isNone then none
  else (issueExpiry input (templateOf s input) ((expiryEnv s input ω 0).env 0).clock).map fun expiresAt => {
    maxUsages  := issueMaxUsages input (templateOf s input)
    expiresAt  := expiresAt
    graceUntil := moment input.graceUntil }

-- The key is malformed, or another license has it or the same owner.
def Refuses (s : Store) (ω : Env) (licenseKey : String) (owner : String × String × Option String) : Prop :=
  ∀ key, keyOf ω { licensableType := owner.1, licensableId := owner.2.1, licenseKey, maxUsages := 1 } = .ok key →
    ∃ l ∈ s.licenses.rows, l.licenseKey = key ∨ licensableScope l = owner

def issueOwner (i : Issuer) (input : IssueInput) : String × String × Option String :=
  (input.licensableType, input.licensableId, if input.scopeIdSet then input.scopeId else i.defaultScopeId)

-- The fingerprint has had a trial, and has to wait.
def Waits (s : Store) (i : Issuer) (input : IssueInput) (fingerprintHash now : String) : Prop :=
  ∃ row, findTrialIssuance ⟨input.templateId, fingerprintHash⟩ s = some row ∧
    ∀ issued now', parseTime row.issuedAt = some issued → parseTime now = some now' →
      now' < issued + secondsDuration (trialCooldown i (templateOf s input))

-- A trial is refused before anything is written.
def TrialRefused (s : Store) (i : Issuer) (input : IssueInput) (now : String) : Prop :=
  ∀ fingerprintHash, trialHash hmac i input = .ok fingerprintHash → Waits s i input fingerprintHash now

-- No trial has been recorded that would be forgotten.
def FirstTrial (s : Store) (i : Issuer) (input : IssueInput) : Prop :=
  ∀ fingerprintHash, trialHash hmac i input = .ok fingerprintHash →
    findTrialIssuance ⟨input.templateId, fingerprintHash⟩ s = none

section Evaluate

variable {Ω : Nat → IssuerEnv} {s : Store} {i : Issuer} {input : IssueInput}

theorem issueExpiresAt_eval (Ω : Nat → IssuerEnv) (s : Store) (input : IssueInput) (template : Option LicenseTemplate) :
    (issueExpiry input template ((Ω 0).env 0).clock = none ∧
      ∃ e, (issueExpiresAt input template).eval execIssue Ω s = (.error e, s)) ∨
    ∃ expiresAt, issueExpiry input template ((Ω 0).env 0).clock = some (moment expiresAt) ∧
      (issueExpiresAt input template).eval execIssue Ω s = (.ok expiresAt, s) := by
  simp only [issueExpiresAt, issueExpiry]
  cases input.expiresAt
  case some e => exact .inr ⟨some e, rfl, rfl⟩
  cases template
  case none   => exact .inr ⟨none, rfl, rfl⟩
  case some t =>
    by_cases hd : 0 < t.trialDurationSec
    case neg => exact .inr ⟨none, by simp [hd, moment], by simp [hd, eval]⟩
    case pos =>
      have hm := moment_addSeconds ((Ω 0).env 0).clock t.trialDurationSec
      simp only [hd, if_true, Issuance.nowISO, call_bind, Prog.pure_bind, eval, execIssue]
      cases ha : addSeconds ((Ω 0).env 0).clock t.trialDurationSec
      case none =>
        have hp : parseTime ((Ω 0).env 0).clock = none := by simpa [ha, moment, eq_comm] using hm
        exact .inl ⟨by simp [hp], _, rfl⟩
      case some e =>
        refine .inr ⟨some e, ?_, rfl⟩
        cases hp : parseTime ((Ω 0).env 0).clock
        case none    => simp [ha, hp, moment] at hm
        case some ns => simpa [ha, hp] using hm.symm

-- A trial is let through if it is the first one, or has waited long enough.
theorem dedupe_eval (healthy : ∀ n, (Ω n).fault = none) (s : Store) (i : Issuer) (input : IssueInput)
    (fingerprintHash : String) :
    let q : TrialIssuanceLookup := ⟨input.templateId, fingerprintHash⟩
    let r := (dedupe i (templateOf s input) input.templateId fingerprintHash).eval execIssue Ω s
    findTrialIssuance q s = none ∧ r = (.ok (), s) ∨
    Waits s i input fingerprintHash ((Ω 1).env 0).clock ∧ (∃ e, r = (.error e, s)) ∨
    ∃ row, findTrialIssuance q s = some row ∧
      ¬Waits s i input fingerprintHash ((Ω 1).env 0).clock ∧ r = (.ok (), deleteTrialIssuance row.id s) := by
  intro q r
  have hf := healthy 0
  simp only [r, dedupe, Issuance.findTrialIssuance, call_bind, eval, execIssue, IssuerEnv.orFault, hf, execStorage,
    ofExcept_ok, Prog.pure_bind]
  cases hrow : findTrialIssuance q s
  case none => exact .inl ⟨rfl, rfl⟩
  case some row =>
    right
    cases hi : parseTime row.issuedAt
    case none => exact .inl ⟨⟨row, hrow, by simp [hi]⟩, by simp [hi, eval]⟩
    case some issued =>
      simp only [hi, Issuance.nowISO, call_bind, Prog.pure_bind, eval, execIssue]
      cases hn : parseTime ((Ω 1).env 0).clock
      case none => exact .inl ⟨⟨row, hrow, by simp [hn]⟩, by simp [eval]⟩
      case some now =>
        by_cases hw : now < issued + secondsDuration (trialCooldown i (templateOf s input))
        case pos => exact .inl ⟨⟨row, hrow, by simp [hi, hn, hw]⟩, by simp [hw, eval]⟩
        case neg =>
          have hf := healthy 2
          refine .inr ⟨row, rfl, ?_, by
            simp [hw, Issuance.deleteTrialIssuance, eval, execIssue, IssuerEnv.orFault, hf, execStorage]⟩
          rintro ⟨row', hrow', h⟩
          cases hrow.symm.trans hrow'
          exact hw (h issued now hi hn)

theorem createLicense_eval {input : CreateLicenseInput} {opts : CreateLicenseOptions} {α : Type}
    {f : License → Issuance CreateLicenseInput α} (healthy : (Ω 0).fault = none) :
    (Issuance.createLicense input opts >>= f).eval execIssue Ω s =
      match transactService (Ω 0).env (createLicense input opts) s with
      | (.ok l, s')    => (f l).eval execIssue (fun n => Ω (n + 1)) s'
      | (.error e, s') => (.error e, s') := by
  simp only [Issuance.createLicense, call_bind, eval, execIssue, IssuerEnv.orFault, healthy]
  generalize transactService (Ω 0).env (createLicense input opts) s = r
  obtain ⟨a, s'⟩ := r
  cases a
  case ok    => rfl
  case error => rfl

def ownerOf (input : CreateLicenseInput) : String × String × Option String :=
  (input.licensableType, input.licensableId, input.scopeId)

theorem not_admits_iff {input : CreateLicenseInput} {key : String} :
    ¬Admits s (.createLicense (input.row key)) ↔
      ∃ l ∈ s.licenses.rows, l.licenseKey = key ∨ licensableScope l = ownerOf input := by
  simp only [Admits, ownerOf, CreateLicenseInput.row, ne_eq, not_forall, not_and_or, not_not, exists_prop]

-- A license is created unless it is refused.
theorem created_cases (input : CreateLicenseInput) (opts : CreateLicenseOptions) (ω : Nat → Env) (s : Store) :
    Refuses s (ω 0) input.licenseKey (ownerOf input) ∧
      (∃ e, transactService ω (createLicense input opts) s = (.error e, s)) ∨
    ¬Refuses s (ω 0) input.licenseKey (ownerOf input) ∧
      ∃ l s' ω' key, transactService ω (createLicense input opts) s = (.ok l, s') ∧
        l = createdLicense ω' (input.row key) ∧ s.licenses.Writes l s'.licenses := by
  have finds : (createLicense input opts).Finds execService (fun _ _ => True) ω s :=
    Finds.all (fun _ _ => trivial) _ ω s
  match createLicense_transact finds with
  | .inl ⟨e, h, he⟩ => exact .inl ⟨fun key hk => not_admits_iff.mp (h key hk), e, he⟩
  | .inr ⟨key, l, s', hk, he, hi⟩ =>
    have ⟨ω', row, hw⟩ : ∃ ω', l = createdLicense ω' (input.row key) ∧ s.licenses.Writes l s'.licenses :=
      match hi with
      | .inserted _ row _ _ => ⟨_, row, Table.writes_put⟩
    exact .inr ⟨fun h => not_admits_iff.mpr (h key hk) hi.admits, l, s', ω', key, he, row, hw⟩

variable {hmac} {ω : Nat → Nat → Env}

theorem refuses_congr {s' : Store} (h : s'.licenses = s.licenses) (ω : Env) (key : String)
    (owner : String × String × Option String) : Refuses s' ω key owner ↔ Refuses s ω key owner := by
  simp only [Refuses, h]

-- What becomes of the licenses when one is issued from a store that a trial has been forgotten in.
inductive Created (s : Store) (i : Issuer) (input : IssueInput) (ω : Env) (t : Terms) :
    Except Error License → Store → Store → Prop
  | refused {e : Error} {s' : Store} (refused : Refuses s ω input.licenseKey (issueOwner i input))
      (same : s'.licenses = s.licenses) : Created s i input ω t (.error e) s' s'
  | written {r : Except Error License} {l : License} {s₀ s' : Store}
      (admitted : ¬Refuses s ω input.licenseKey (issueOwner i input)) (terms : termsOf l = t)
      (writes : s.licenses.Writes l s'.licenses) : Created s i input ω t r s₀ s'

theorem createIssued_eval {Ω : Nat → IssuerEnv} (healthy : (Ω 0).fault = none) {s₀ : Store}
    (same : s₀.toState = s.toState) (i : Issuer) (input : IssueInput) (expiresAt : Option String) (maxUsages : Int)
    (meta_ : Json.Object) {f : License → Issuance CreateLicenseInput License}
    (keeps : ∀ l Ω s', ((f l).eval execIssue Ω s').2.licenses = s'.licenses) :
    let p := createIssued i input expiresAt maxUsages meta_ >>= f
    Created s i input ((Ω 0).env 0)
      { maxUsages := maxUsages, expiresAt := moment expiresAt, graceUntil := moment input.graceUntil }
      (p.eval execIssue Ω s₀).1 s₀ (p.eval execIssue Ω s₀).2 := by
  intro p
  have hl : s₀.licenses = s.licenses := congrArg State.licenses same
  simp only [p, createIssued, createLicense_eval healthy]
  match created_cases (issueLicenseInput i input expiresAt maxUsages meta_)
      { actor := some (if input.actor = "" then i.defaultActor else input.actor) } (Ω 0).env s₀ with
  | .inl ⟨h, e, he⟩ =>
    simp only [he]
    exact .refused ((refuses_congr hl _ _ _).mp h) hl
  | .inr ⟨h, l, s', ω', key, he, row, hw⟩ =>
    simp only [he]
    refine .written (l := l) (mt (refuses_congr hl _ _ _).mpr h) (by rw [row]; rfl) ?_
    rw [keeps, ← hl]
    exact hw

variable (hmac) in
-- An issuer refuses, or it comes to create the license.
inductive Issued (s : Store) (i : Issuer) (input : IssueInput) (ω : Nat → Nat → Env) :
    Except Error License → Store → Prop
  | refused {e : Error} (h : issueTerms s input ω = none ∨ issueMaxUsages input (templateOf s input) ≤ 0 ∨
      input.isTrial ∧ TrialRefused hmac s i input ((trialEnv s input ω 1).env 0).clock) :
    Issued s i input ω (.error e) s
  | created {t : Terms} {r : Except Error License} {s₀ s' : Store} (terms : issueTerms s input ω = some t)
      (seats : 0 < issueMaxUsages input (templateOf s input))
      (trial : ¬(input.isTrial ∧ TrialRefused hmac s i input ((trialEnv s input ω 1).env 0).clock))
      (first : s₀ = s ↔ (input.isTrial → FirstTrial hmac s i input))
      (created : Created s i input ((createEnv hmac s i input ω 0).env 0) t r s₀ s') :
    Issued s i input ω r s'

-- The latest of the rows.
def latest (rows : List TrialIssuance) (best : Option TrialIssuance) : Option TrialIssuance :=
  rows.foldl (fun best row => if best.all (·.issuedAt < row.issuedAt) then some row else best) best

theorem latest_mem {rows : List TrialIssuance} {best : Option TrialIssuance} {row : TrialIssuance}
    (h : latest rows best = some row) : best = some row ∨ row ∈ rows := by
  induction rows generalizing best
  case nil => exact .inl h
  case cons r rows ih =>
    match ih h with
    | .inr hm => exact .inr (List.mem_cons_of_mem r hm)
    | .inl hr =>
      beta_reduce at hr
      split at hr
      case isTrue  => exact .inr (Option.some.inj hr ▸ List.mem_cons_self)
      case isFalse => exact .inl hr

theorem latest_eq_none {rows : List TrialIssuance} {best : Option TrialIssuance}
    (h : latest rows best = none) : best = none ∧ rows = [] := by
  induction rows generalizing best
  case nil => exact ⟨h, rfl⟩
  case cons r rows ih =>
    have ⟨hb, _⟩ := ih h
    beta_reduce at hb
    split at hb
    case isTrue       => exact nomatch hb
    case isFalse hall => simp [hb] at hall

theorem findTrialIssuance_spec {q : TrialIssuanceLookup} {row : TrialIssuance}
    (h : findTrialIssuance q s = some row) : row ∈ s.trialIssuances.rows ∧
      row.templateId = q.templateId ∧ row.fingerprintHash = q.fingerprintHash := by
  have hm := (latest_mem h).resolve_left nofun
  simpa using hm

theorem findTrialIssuance_eq_none {q : TrialIssuanceLookup} (h : findTrialIssuance q s = none)
    (row : TrialIssuance) (hm : row ∈ s.trialIssuances.rows) :
    ¬(row.templateId = q.templateId ∧ row.fingerprintHash = q.fingerprintHash) := by
  have hf := (latest_eq_none h).right
  simpa using List.filter_eq_nil_iff.mp hf row hm

theorem deleteTrialIssuance_ne {q : TrialIssuanceLookup} {row : TrialIssuance}
    (h : findTrialIssuance q s = some row) : deleteTrialIssuance row.id s ≠ s := by
  intro he
  have hm : row ∈ (deleteTrialIssuance row.id s).trialIssuances.rows := he.symm ▸ (findTrialIssuance_spec h).left
  exact (Table.mem_erase.mp hm).right rfl

theorem recordTrialIssuance_licenses (q : TrialIssuanceInput) (l : License) (Ω : Nat → IssuerEnv) (s : Store) :
    ((Issuance.recordTrialIssuance q >>= fun _ => (Prog.pure l : Issuance CreateLicenseInput License)).eval
      execIssue Ω s).2.licenses = s.licenses := by
  simp only [Issuance.recordTrialIssuance, call_bind, eval, execIssue, IssuerEnv.orFault]
  cases (Ω 0).fault
  case some e => rfl
  case none =>
    simp only [execStorage, recordTrialIssuance]
    split
    case isTrue  => rfl
    case isFalse => rfl

-- The part of a trial that comes after its checks, if they are passed.
theorem issueTrial_cases (ht : input.isTrial) {t : Terms} {expiresAt : Option String} {maxUsages : Int}
    (meta_ : Json.Object) (seats : 0 < issueMaxUsages input (templateOf s input))
    (terms : issueTerms s input ω = some t) (hcreate : t =
      { maxUsages := maxUsages, expiresAt := moment expiresAt, graceUntil := moment input.graceUntil }) :
    let p := issueTrial hmac i input (templateOf s input) (createIssued i input expiresAt maxUsages meta_)
    Issued hmac s i input ω (p.eval execIssue (trialEnv s input ω) s).1
      (p.eval execIssue (trialEnv s input ω) s).2 := by
  intro p
  cases hh : trialHash hmac i input
  case error e =>
    simp only [p, issueTrial, hh, ofExcept_error, throw_bind, eval]
    refine .refused (.inr (.inr ⟨ht, fun _ h => ?_⟩))
    cases hh.symm.trans h
  case ok fingerprintHash =>
    have only : ∀ {P : String → Prop}, (∀ h, trialHash hmac i input = .ok h → P h) ↔ P fingerprintHash := by
      simp [hh]
    have henv : createEnv hmac s i input ω = fun n => trialEnv s input ω (n +
        (dedupe i (templateOf s input) input.templateId fingerprintHash).callCount execIssue
          (trialEnv s input ω) s) := by
      funext n
      simp [createEnv, ht, hh]
    have healthy : (createEnv hmac s i input ω 0).fault = none := by
      rw [henv]
      rfl
    have created := fun (s₀ : Store) (same : s₀.toState = s.toState) =>
      createIssued_eval healthy same i input expiresAt maxUsages meta_ (recordTrialIssuance_licenses
        { templateId := input.templateId, fingerprintHash })
    simp only [p, issueTrial, hh, ofExcept_ok, Prog.pure_bind]
    rw [eval_bind_from, ← henv]
    rcases dedupe_eval (fun n => rfl : ∀ n, (trialEnv s input ω n).fault = none) s i input fingerprintHash with
      ⟨hn, he⟩ | ⟨hw, e, he⟩ | ⟨row, hf, hw, he⟩
    case inl =>
      simp only [he]
      have trial : ¬(input.isTrial ∧ TrialRefused hmac s i input ((trialEnv s input ω 1).env 0).clock) := by
        rintro ⟨_, hr⟩
        obtain ⟨row, hf, _⟩ := only.mp hr
        cases hn.symm.trans hf
      have first : s = s ↔ (input.isTrial → FirstTrial hmac s i input) :=
        iff_of_true rfl fun _ => only.mpr hn
      exact .created terms seats trial first (hcreate ▸ created s rfl)
    case inr.inl =>
      simp only [he]
      exact .refused (.inr (.inr ⟨ht, only.mpr hw⟩))
    case inr.inr =>
      simp only [he]
      have first : deleteTrialIssuance row.id s = s ↔ (input.isTrial → FirstTrial hmac s i input) := by
        apply iff_of_false (deleteTrialIssuance_ne hf)
        intro h
        cases hf.symm.trans (only.mp (h ht))
      exact .created terms seats (fun h => hw (only.mp h.right)) first
        (hcreate ▸ created (deleteTrialIssuance row.id s) rfl)

theorem issueWith_cases (s : Store) (i : Issuer) (input : IssueInput) (ω : Nat → Nat → Env)
    {found : Option (LicenseTemplate × Json.Object)} (hf : found.map Prod.fst = templateOf s input)
    (hs : ∀ id, input.templateId = some id → (s.templates.find id).isSome) :
    Issued hmac s i input ω ((issueWith hmac i input found).eval execIssue (expiryEnv s input ω) s).1
      ((issueWith hmac i input found).eval execIssue (expiryEnv s input ω) s).2 := by
  have hterms : issueTerms s input ω =
      (issueExpiry input (templateOf s input) ((expiryEnv s input ω 0).env 0).clock).map fun expiresAt => {
        maxUsages  := issueMaxUsages input (templateOf s input)
        expiresAt  := expiresAt
        graceUntil := moment input.graceUntil } := by
    refine if_neg ?_
    rintro ⟨hid, hn⟩
    obtain ⟨id, hid⟩ := Option.isSome_iff_exists.mp hid
    have hsome := hs id hid
    simp [templateOf, hid] at hn
    simp [hn] at hsome
  simp only [issueWith, hf]
  by_cases hm : issueMaxUsages input (templateOf s input) ≤ 0
  case pos =>
    simp only [hm, if_true, eval]
    exact .refused (.inr (.inl hm))
  case neg =>
    simp only [hm, if_false, eval_bind_from]
    rcases issueExpiresAt_eval (expiryEnv s input ω) s input (templateOf s input) with
      ⟨hx, e, he⟩ | ⟨expiresAt, hx, he⟩
    case inl =>
      simp only [he]
      exact .refused (.inl (by rw [hterms, hx]; rfl))
    case inr =>
      simp only [he]
      rw [hx] at hterms
      by_cases ht : input.isTrial
      case pos =>
        simp only [ht, if_true]
        exact issueTrial_cases ht _ (Int.not_le.mp hm) hterms rfl
      case neg =>
        have henv : createEnv hmac s i input ω = trialEnv s input ω := by
          funext n
          simp [createEnv, ht]
        have keeps : ∀ l Ω (s' : Store),
            ((Prog.pure l : Issuance CreateLicenseInput License).eval execIssue Ω s').2.licenses =
            s'.licenses := fun _ _ _ => rfl
        simp only [if_neg ht]
        rw [← Prog.bind_pure (createIssued _ _ _ _ _)]
        refine .created hterms (Int.not_le.mp hm) (fun h => ht h.left) (iff_of_true rfl fun h => absurd h ht) ?_
        rw [henv]
        exact createIssued_eval (rfl : (trialEnv s input ω 0).fault = none) rfl i input expiresAt _ _ keeps

theorem issue_cases (s : Store) (i : Issuer) (input : IssueInput) (ω : Nat → Nat → Env) :
    Issued hmac s i input ω ((issue hmac i input).eval execIssue (issueEnv ω) s).1
      ((issue hmac i input).eval execIssue (issueEnv ω) s).2 := by
  rw [issue, eval_bind_from]
  have ht := findTemplate_eval (s := s) (fun n => rfl : ∀ n, (issueEnv ω n).fault = none) input.templateId
  match ht with
  | .inl ⟨id, e, hid, ht, he⟩ =>
    simp only [he]
    exact .refused (.inl (by simp [issueTerms, templateOf, hid, ht]))
  | .inr ⟨found, hs, hf, he⟩ =>
    simp only [he]
    exact issueWith_cases s i input ω hf hs

end Evaluate

end Go

end Licensing
