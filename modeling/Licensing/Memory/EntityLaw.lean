import Licensing.Memory.Issuance

-- Which requests keep the seats and the dates of every license in order.

namespace Licensing

open Machine Memory Prog

namespace Go

-- The requests of the admin interface and the issuer, with what their calls find.
inductive LicenseRequest
  | admin (r : AdminRequest) (ω : Nat → Env)
  | issue (i : Issuer) (input : IssueInput) (ω : Nat → Nat → Env)

variable (hmac : String → String → String)

def answerRequest (s : Store) : LicenseRequest → Except Error Unit × Store
  | .admin r ω       => serve ω r s
  | .issue i input ω =>
    let (a, s') := (issue hmac i input).eval execIssue (issueEnv ω) s
    (a.map fun _ => (), s')

def requestStep (s : Store) (r : LicenseRequest) : Store :=
  (answerRequest hmac s r).2

-- What a request asks the storage to write to a license.
def asked (s : Store) : LicenseRequest → Option Terms
  | .admin (.createLicense input _) _ => some {
    maxUsages  := input.maxUsages
    expiresAt  := moment input.expiresAt
    graceUntil := moment input.graceUntil }
  | .admin (.createLicenseFromTemplate input _) ω =>
    (s.templates.find input.templateId).map fun t => templateTerms input t (ω 1).clock
  | .admin (.lifecycle (.renew opts) id) _ => (s.licenses.find id).map fun l => {
    maxUsages  := l.maxUsages
    expiresAt  := moment opts.expiresAt
    graceUntil := moment (opts.graceUntil.getD l.graceUntil) }
  | .admin (.updateLicense id body) _ => (s.licenses.find id).map fun l => {
    maxUsages  := body.maxUsages.getD l.maxUsages
    expiresAt  := moment ((decodeOptString body.expiresAt).getD l.expiresAt)
    graceUntil := moment ((decodeOptString body.graceUntil).getD l.graceUntil) }
  | .issue _ input ω => issueTerms s input ω
  | _ => none

-- The checks that a request fails on, apart from its seats and dates.
def Refused (s : Store) : LicenseRequest → Prop
  | .admin (.createLicense input _) ω =>
    Refuses s (ω 0) input.licenseKey (input.licensableType, input.licensableId, input.scopeId)
  | .admin (.createLicenseFromTemplate input _) ω => ∀ t, s.templates.find input.templateId = some t →
    Refuses s (ω 2) input.licenseKey
      (input.licensableType, input.licensableId, input.scopeId.getD t.scopeId)
  | .admin (.lifecycle (.renew _) id) _ =>
    ∃ l, s.licenses.find id = some l ∧ (l.status = .suspended ∨ l.status = .revoked)
  | .issue i input ω => issueMaxUsages input (templateOf s input) ≤ 0 ∨
    (input.isTrial ∧ TrialRefused hmac s i input ((trialEnv s input ω 1).env 0).clock) ∨
      Refuses s ((createEnv hmac s i input ω 0).env 0) input.licenseKey (issueOwner i input) ∧
        (input.isTrial → FirstTrial hmac s i input)
  | _ => False

-- The request asks for seats and dates that are in order, or it is refused whatever it asks for.
def Acceptable (s : Store) (r : LicenseRequest) : Prop :=
  ∀ t, asked s r = some t → t.Sound ∨ Refused hmac s r

-- Every license is in order, and a request that would break it fails and changes nothing.
structure Upheld (s : Store) (r : LicenseRequest) : Prop where
  constrained : Constrained (requestStep hmac s r)
  refused     : ∀ t, asked s r = some t → ¬t.Sound →
    (∃ e, (answerRequest hmac s r).1 = .error e) ∧ requestStep hmac s r = s

section Law

variable {hmac} {s : Store} {r : LicenseRequest}

variable (hmac) in
-- A request asks for nothing, it is refused, it fails after a first write, or it writes what it asks for.
inductive Answered (s : Store) (r : LicenseRequest) : Prop
  | silent (silent : asked s r = none) (keeps : KeepsTerms s (requestStep hmac s r))
  | refused (refused : Refused hmac s r) (fails : ∃ e, (answerRequest hmac s r).1 = .error e)
      (same : requestStep hmac s r = s)
  | broken {t : Terms} (asks : asked s r = some t) (admitted : ¬Refused hmac s r)
      (changed : requestStep hmac s r ≠ s) (keeps : KeepsTerms s (requestStep hmac s r))
  | written {t : Terms} {l : License} (asks : asked s r = some t) (admitted : ¬Refused hmac s r)
      (writes : s.licenses.Writes l (requestStep hmac s r).licenses) (terms : termsOf l = t)

theorem Answered.upheld_iff (a : Answered hmac s r) (h : Constrained s) :
    Upheld hmac s r ↔ Acceptable hmac s r := by
  cases a
  case silent silent keeps =>
    have none : ∀ t, asked s r ≠ some t := fun t ht => nomatch silent.symm.trans ht
    exact iff_of_true ⟨keeps.constrained h, fun t ht => absurd ht (none t)⟩ fun t ht => absurd ht (none t)
  case refused refused fails same =>
    have constrained : Constrained (requestStep hmac s r) := by rw [same]; exact h
    exact iff_of_true ⟨constrained, fun _ _ _ => ⟨fails, same⟩⟩ fun _ _ => .inr refused
  case broken t asks admitted changed keeps =>
    apply Iff.intro
    case mp =>
      intro hu t' ht'
      left
      by_contra hn
      exact changed (hu.refused t' ht' hn).right
    case mpr =>
      intro ha
      have hs := (ha t asks).resolve_right admitted
      refine ⟨keeps.constrained h, fun t' ht' hn => absurd ?_ hn⟩
      cases asks.symm.trans ht'
      exact hs
  case written t l asks admitted writes terms =>
    have hc : Constrained (requestStep hmac s r) ↔ t.Sound := terms ▸ writes.forall_iff h
    apply Iff.intro
    case mp =>
      intro hu t' ht'
      cases asks.symm.trans ht'
      exact .inl (hc.mp hu.constrained)
    case mpr =>
      intro ha
      have hs := (ha t asks).resolve_right admitted
      refine ⟨hc.mpr hs, fun t' ht' hn => absurd ?_ hn⟩
      cases asks.symm.trans ht'
      exact hs

theorem answered_issue (s : Store) (i : Issuer) (input : IssueInput) (ω : Nat → Nat → Env) :
    Answered hmac s (.issue i input ω) := by
  have h : Issued hmac s i input ω _ _ := issue_cases s i input ω
  have hstep : requestStep hmac s (.issue i input ω) = ((issue hmac i input).eval execIssue (issueEnv ω) s).2 := rfl
  have hans : (answerRequest hmac s (.issue i input ω)).1 =
      ((issue hmac i input).eval execIssue (issueEnv ω) s).1.map fun _ => () := rfl
  generalize (issue hmac i input).eval execIssue (issueEnv ω) s = x at h hstep hans
  have ⟨a, s'⟩ := x
  have fails : ∀ {e}, a = .error e → ∃ e, (answerRequest hmac s (.issue i input ω)).1 = .error e :=
    fun {e} ha => ⟨e, by rw [hans, ha]; rfl⟩
  cases h
  case refused e h =>
    match h with
    | .inl hn         => exact .silent hn (.of_eq (congrArg (·.licenses) hstep))
    | .inr (.inl hm)  => exact .refused (.inl hm) (fails rfl) hstep
    | .inr (.inr htr) => exact .refused (.inr (.inl htr)) (fails rfl) hstep
  case created t s₀ terms seats trial first created =>
    have admitted : ¬(Refuses s ((createEnv hmac s i input ω 0).env 0) input.licenseKey (issueOwner i input) ∧
        (input.isTrial → FirstTrial hmac s i input)) → ¬Refused hmac s (.issue i input ω) := by
      intro hn hr
      match hr with
      | .inl hm        => exact absurd hm (Int.not_le.mpr seats)
      | .inr (.inl ht) => exact trial ht
      | .inr (.inr hr) => exact hn hr
    cases created
    case refused e refused same =>
      by_cases hf : input.isTrial → FirstTrial hmac s i input
      case pos => exact .refused (.inr (.inr ⟨refused, hf⟩)) (fails rfl) (hstep.trans (first.mpr hf))
      case neg =>
        have changed : requestStep hmac s (.issue i input ω) ≠ s := fun hs => hf (first.mp (hstep.symm.trans hs))
        exact .broken terms (admitted fun h => hf h.right) changed (.of_eq (by rw [hstep]; exact same))
    case written l admits terms' writes =>
      exact .written terms (admitted fun h => admits h.left) (by rw [hstep]; exact writes) terms'

theorem answered_createLicense (s : Store) (input : CreateLicenseInput) (opts : CreateLicenseOptions)
    (ω : Nat → Env) : Answered hmac s (.admin (.createLicense input opts) ω) := by
  have hs : serve ω (.createLicense input opts) s =
      (((transactService ω (createLicense input opts) s).1.map fun _ => ()),
        (transactService ω (createLicense input opts) s).2) := rfl
  match created_cases input opts ω s with
  | .inl ⟨hr, e, he⟩ =>
    refine .refused hr ⟨e, ?_⟩ ?_
    case _ => simp only [answerRequest, hs, he]; rfl
    case _ => simp only [requestStep, answerRequest, hs, he]
  | .inr ⟨hr, l, s', ω', key, he, row, hw⟩ =>
    refine .written rfl hr (l := l) ?_ (by rw [row]; rfl)
    simp only [requestStep, answerRequest, hs, he]
    exact hw

theorem answered_createLicenseFromTemplate (s : Store) (input : CreateLicenseFromTemplateInput)
    (opts : CreateLicenseOptions) (ω : Nat → Env) :
    Answered hmac s (.admin (.createLicenseFromTemplate input opts) ω) := by
  have finds : (createLicenseFromTemplate input opts).Finds execService (fun _ _ => True) ω s :=
    Finds.all (fun _ _ => trivial) _ ω s
  have hs : serve ω (.createLicenseFromTemplate input opts) s =
      (((transactService ω (createLicenseFromTemplate input opts) s).1.map fun _ => ()),
        (transactService ω (createLicenseFromTemplate input opts) s).2) := rfl
  match createLicenseFromTemplate_transact finds with
  | .inl ⟨e, hr, he⟩ =>
    have same : requestStep hmac s (.admin (.createLicenseFromTemplate input opts) ω) = s := by
      simp only [requestStep, answerRequest, hs, he]
    have fails : (answerRequest hmac s (.admin (.createLicenseFromTemplate input opts) ω)).1 = .error e := by
      simp only [answerRequest, hs, he]
      rfl
    exact .refused (fun t ht key hk => not_admits_iff.mp (hr t key ht hk)) ⟨e, fails⟩ same
  | .inr ⟨t, key, l, s', ht, hk, he, hi⟩ =>
    have ⟨ω', row, hw⟩ : ∃ ω', l = createdLicense ω' ((fromTemplate input t (ω 1).clock).row key) ∧
        s.licenses.Writes l s'.licenses :=
      match hi with
      | .inserted _ row _ _ => ⟨_, row, Table.writes_put⟩
    have asks : asked s (.admin (.createLicenseFromTemplate input opts) ω) =
        some (templateTerms input t (ω 1).clock) := by
      simp [asked, ht]
    have admitted : ¬Refused hmac s (.admin (.createLicenseFromTemplate input opts) ω) :=
      fun hr => not_admits_iff.mpr (hr t ht key hk) hi.admits
    refine .written asks admitted (l := l) ?_ (by rw [row]; exact termsOf_fromTemplate)
    simp only [requestStep, answerRequest, hs, he]
    exact hw

theorem renew_decision (opts : RenewOptions) (l : License) (now : String) :
    (l.status = .suspended ∨ l.status = .revoked) ∧
      (∃ e, LifecycleOp.decision (.renew opts) l now = .error e) ∨
    ¬(l.status = .suspended ∨ l.status = .revoked) ∧
      ∃ c, LifecycleOp.decision (.renew opts) l now = .ok (some c) := by
  cases h : l.status
  all_goals simp [LifecycleOp.decision, h]

theorem answered_renew (s : Store) (opts : RenewOptions) (id : String) (ω : Nat → Env) :
    Answered hmac s (.admin (.lifecycle (.renew opts) id) ω) := by
  cases hl : s.licenses.find id
  case none => exact .silent (by simp [asked, hl]) (.of_eq (congrArg (·.licenses) (serve_lifecycle_none hl)))
  case some l =>
    have hid : l.id = id := Table.key_of_find hl
    subst hid
    obtain ⟨a, ho, ha⟩ := serve_lifecycle (.renew opts) ω hl
    have asks : asked s (.admin (.lifecycle (.renew opts) l.id) ω) = some (lifecycleTerms (.renew opts) l) := by
      simp [asked, hl, lifecycleTerms]
    generalize hx : serve ω (.lifecycle (.renew opts) l.id) s = x at ho ha
    have hans : answerRequest hmac s (.admin (.lifecycle (.renew opts) l.id) ω) = x := hx
    obtain ⟨b, s'⟩ := x
    have hstep : requestStep hmac s (.admin (.lifecycle (.renew opts) l.id) ω) = s' := by rw [requestStep, hans]
    cases ho
    case refused now e decision =>
      rcases renew_decision opts l now with ⟨hr, _⟩ | ⟨_, c, hd⟩
      case inl => exact .refused ⟨l, hl, hr⟩ ⟨e, by rw [hans, ha]; rfl⟩ hstep
      case inr => cases decision.symm.trans hd
    case idle now decision =>
      rcases renew_decision opts l now with ⟨_, e, hd⟩ | ⟨_, c, hd⟩
      case inl => cases decision.symm.trans hd
      case inr => cases decision.symm.trans hd
    case changed now c next ω₁ ω₂ decision patched finds =>
      rcases renew_decision opts l now with ⟨_, e, hd⟩ | ⟨hr, _, _⟩
      case inl => cases decision.symm.trans hd
      case inr =>
        have admitted : ¬Refused hmac s (.admin (.lifecycle (.renew opts) l.id) ω) := by
          rintro ⟨l', hl', hr'⟩
          cases hl.symm.trans hl'
          exact hr hr'
        refine .written asks admitted (l := next) ?_ (by rw [patched]; exact decision_terms decision _)
        rw [hstep, patched]
        exact Table.writes_replace hl

theorem answered_updateLicense (s : Store) (id : String) (body : UpdateLicenseBody) (ω : Nat → Env) :
    Answered hmac s (.admin (.updateLicense id body) ω) := by
  match serve_updateLicense ω id body s with
  | .inl ⟨hl, hs⟩    => exact .silent (by simp [asked, hl]) (.of_eq (congrArg (·.licenses) hs))
  | .inr ⟨l, hl, hs⟩ =>
    have hid : l.id = id := Table.key_of_find hl
    refine .written (by simp only [asked, hl]; rfl) (fun h => h) (l := patchedLicense (ω 0).clock body.patch l) ?_ rfl
    have hstep : requestStep hmac s (.admin (.updateLicense id body) ω) = _ := hs
    rw [hstep]
    exact Table.writes_replace (hid ▸ hl)

theorem answered (s : Store) (r : LicenseRequest) : Answered hmac s r := by
  cases r
  case issue i input ω => exact answered_issue s i input ω
  case admin r ω =>
    cases r
    case createLicense input opts             => exact answered_createLicense s input opts ω
    case createLicenseFromTemplate input opts => exact answered_createLicenseFromTemplate s input opts ω
    case updateLicense id body                => exact answered_updateLicense s id body ω
    case lifecycle op id =>
      cases op
      case renew opts => exact answered_renew s opts id ω
      all_goals exact .silent rfl (Silent.keepsTerms (by trivial) ω s)
    all_goals exact .silent rfl (Silent.keepsTerms (by trivial) ω s)

-- The licenses stay in order in just the runs whose requests are all acceptable.
theorem upheld_iff_acceptable (hmac : String → String → String) (rs : List LicenseRequest) :
    Each (requestStep hmac) (Upheld hmac) {} rs ↔ Each (requestStep hmac) (Acceptable hmac) {} rs := by
  have agree : ∀ s r, Constrained s → True → (Upheld hmac s r ↔ Acceptable hmac s r) :=
    fun s r h _ => (answered s r).upheld_iff h
  have keeps : ∀ s r, Constrained s → True → Upheld hmac s r → Constrained (requestStep hmac s r) :=
    fun _ _ _ _ h => h.constrained
  exact each_congr agree keeps (fun l hl => nomatch hl) (Each.all fun _ _ => trivial)

-- A license whose grace ends a month after it does.
def licenseWithGrace : LicenseRequest :=
  .admin (.createLicense {
    licensableType := "User"
    licensableId   := "1"
    maxUsages      := 1
    status         := some .active
    expiresAt      := some "2026-01-01T00:00:00.000000Z"
    graceUntil     := some "2026-02-01T00:00:00.000000Z" } {}) fun n => { freshId := toString n }

def renewal : LicenseRequest :=
  .admin (.lifecycle (.renew { expiresAt := some "2027-01-01T00:00:00.000000Z" }) "1") fun _ => {}

-- It keeps its grace when it is renewed for longer.
theorem not_upheld : ¬∀ hmac rs, Each (requestStep hmac) (Upheld hmac) {} rs := by
  intro h
  have hu := (h (fun _ _ => "") [licenseWithGrace, renewal]).right.left.constrained
  have ⟨l, hl, he, hg⟩ : ∃ l, (requestStep (fun _ _ => "") (requestStep (fun _ _ => "") {} licenseWithGrace)
      renewal).licenses.find "1" = some l ∧ l.expiresAt = some "2027-01-01T00:00:00.000000Z" ∧
      l.graceUntil = some "2026-02-01T00:00:00.000000Z" := ⟨_, rfl, rfl, rfl⟩
  have hd : InOrder (moment l.expiresAt) (moment l.graceUntil) := (hu l (Rows.mem_of_find hl)).dates
  rw [he, hg] at hd
  exact absurd hd (by decide)

end Law
end Go

end Licensing
