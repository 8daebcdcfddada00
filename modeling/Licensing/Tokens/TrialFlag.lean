import Licensing.Go.Responses
import Licensing.Memory.TrialLaw
import Licensing.Model.LicenseTables
import Licensing.Ts.Responses

-- What becomes of the flag of a trial: in the table of the licenses, and in the tokens.

namespace Licensing

open Machine Prog Trial

theorem notMem_claimNames : ∀ deadline entitlements meta_, "trial" ∉ claimNames deadline entitlements meta_ := by
  decide

section Issuances

variable {κ α : Type} {t : LicenseTable} {row : κ → String → LicenseInput} {s s' : t.Rows}

-- What a call of an issuance may be answered, with the licenses before and after it: a license that is
-- created is read from the row that is inserted for it. A failure writes nothing, nor do the other calls.
def Serves (t : LicenseTable) (row : κ → String → LicenseInput) (s : t.Rows) : (o : IssuerOp κ) → o.Ans → t.Rows → Prop
  | .createLicense input _, .ok l, s' =>
    ∃ found key r, t.inserted found (row input key) = some r ∧ l = t.scan r ∧ s' = s.put r
  | _, _, s' => s' = s

def Creates : IssuerOp κ → Prop
  | .createLicense _ _ => True
  | _                  => False

theorem serves_aside (s : t.Rows) (o : IssuerOp κ) (a : o.Ans) (s' : t.Rows) (aside : ¬Creates o)
    (h : Serves t row s o a s') : s' = s := by
  cases o
  case createLicense => exact absurd trivial aside
  all_goals exact h

theorem endsIn_aside {p : Issuance κ α} {r : Except Error α} (aside : p.Calls fun o => ¬Creates o)
    (h : p.EndsIn (Serves t row) s r s') : s' = s :=
  Calls.endsIn serves_aside aside h

theorem not_creates_of_isSilent : ∀ o : IssuerOp κ, IsSilent o → ¬Creates o := by
  intro o h
  cases o <;> simp [IsSilent, Creates] at h ⊢

theorem findTemplate_calls (templateId : Option String) :
    (findTemplate templateId : Issuance κ (Option (LicenseTemplate × Json.Object))).Calls IsSilent := by
  cases templateId
  case none    => trivial
  case some id =>
    refine ⟨trivial, fun a => ?_⟩
    rcases a with _ | _ | leaf
    case error   => trivial
    case ok.none => trivial
    case ok.some =>
      have resolves : (resolveTemplate leaf : Issuance κ Json.Object).Calls IsSilent :=
        (ancestors_calls _ _ _).bind fun _ => (by trivial)
      exact resolves.bind fun _ => (by trivial)

-- The row of the license that an issuance has created.
def CreatedIn (t : LicenseTable) (row : κ → String → LicenseInput) (s : t.Rows) (l : License) (s' : t.Rows) : Prop :=
  ∃ found input key r, t.inserted found (row input key) = some r ∧ l = t.scan r ∧ s' = s.put r

theorem created_of_create {input : κ} {opts : CreateLicenseOptions} {l : License}
    (h : (Issuance.createLicense input opts).EndsIn (Serves t row) s (.ok l) s') : CreatedIn t row s l s' := by
  have ⟨a, u, hs, h⟩ := h
  cases a
  case error => cases h.left
  case ok    =>
    have ⟨found, key, r, hr, hl, hu⟩ := hs
    cases h.left
    exact ⟨found, input, key, r, hr, hl, h.right.trans hu⟩

-- The trial is recorded after the license is created.
theorem created_of_trial {create : Issuance κ License} {check : Issuance κ Unit} {input : TrialIssuanceInput}
    {l : License} (aside : check.Calls fun o => ¬Creates o)
    (created : ∀ {s s' l}, create.EndsIn (Serves t row) s (.ok l) s' → CreatedIn t row s l s')
    (h : (check >>= fun _ => create >>= fun license => Issuance.recordTrialIssuance input >>= fun _ =>
      Pure.pure license).EndsIn (Serves t row) s (.ok l) s') : CreatedIn t row s l s' := by
  have ⟨_, u, hc, h⟩ := endsIn_bind_ok.mp h
  have ⟨license, v, hl, h⟩ := endsIn_bind_ok.mp h
  have ⟨_, w, hr, h⟩ := endsIn_bind_ok.mp h
  have hv : w = v := by
    apply endsIn_aside _ hr
    refine ⟨id, fun a => ?_⟩
    cases a <;> trivial
  have hu := endsIn_aside aside hc
  have ⟨e, hs⟩ := h
  cases e
  rw [hs, hv]
  exact created (hu ▸ hl)

end Issuances

namespace Go

variable {hmac : String → String → String} {i : Issuer} {input : IssueInput} {t : LicenseTable} {s s' : t.Rows}
  {l : License}

theorem dedupe_calls (template : Option LicenseTemplate) (templateId : Option String) (fingerprintHash : String) :
    (dedupe i template templateId fingerprintHash).Calls fun o => ¬Creates o := by
  refine ⟨id, fun a => ?_⟩
  rcases a with _ | _ | existing
  case error   => trivial
  case ok.none => trivial
  case ok.some =>
    simp only [ofExcept_ok, Prog.bind]
    cases parseTime existing.issuedAt
    case none        => trivial
    case some issued =>
      refine ⟨id, fun now => ?_⟩
      simp only [Prog.bind]
      cases parseTime now
      case none     => trivial
      case some now =>
        dsimp only
        split
        case isTrue  => trivial
        case isFalse =>
          refine ⟨id, fun a => ?_⟩
          cases a <;> trivial

theorem created_of_issue (h : (issue hmac i input).EndsIn (Serves t CreateLicenseInput.row) s (.ok l) s') :
    CreatedIn t CreateLicenseInput.row s l s' := by
  obtain ⟨found, u, hf, h⟩ := endsIn_bind_ok.mp h
  have hu := endsIn_aside ((findTemplate_calls _).mono not_creates_of_isSilent) hf
  rw [hu] at h
  rw [issueWith] at h
  dsimp only at h
  split at h
  case isTrue  => cases h.left
  case isFalse =>
    obtain ⟨expiresAt, v, he, h⟩ := endsIn_bind_ok.mp h
    have hv := endsIn_aside ((issueExpiresAt_calls _ _).mono not_creates_of_isSilent) he
    rw [hv] at h
    split at h
    case isFalse => exact created_of_create h
    case isTrue  =>
      obtain ⟨fingerprintHash, w, hh, h⟩ := endsIn_bind_ok.mp h
      have hw : w = s := by
        apply endsIn_aside _ hh
        cases trialHash hmac i input <;> trivial
      rw [hw] at h
      exact created_of_trial (dedupe_calls _ _ _) created_of_create h

-- The payloads of the tokens that are issued for a license, in whatever state it is read.
def IssuedTo (id : String) (payload : Map) : Prop :=
  ∃ (ρ κ : Type) (fuel : Nat) (b : KeyBackends ρ κ) (seed : ρ) (jti : String) (input : IssueTokenInput)
    (r : IssueTokenResult) (deadline : Option Int64), input.license.id = id ∧
    (issueToken fuel b seed jti input).MayEnd (.ok r) ∧ IssuedFor b seed input r payload deadline

def CarriesTrial (payload : Map) : Prop :=
  payload.lookup (Bytes.ofString "trial") = some (.bool true)

theorem not_carriesTrial {id : String} {payload : Map} (h : IssuedTo id payload) : ¬CarriesTrial payload := by
  have ⟨_, _, _, _, _, _, _, _, _, _, _, hi⟩ := h
  have ⟨_, _, _, _, _, e⟩ := hi.claims
  intro carries
  have hs : (payload.lookup (Bytes.ofString "trial")).isSome := by
    rw [show payload.lookup (Bytes.ofString "trial") = some (.bool true) from carries]
    rfl
  have hm := (isSome_lookup payload _).mp hs
  rw [e, names_payloadOf] at hm
  have ⟨name, hn, hb⟩ := List.mem_map.mp hm
  cases Bytes.ofString_injective hb
  exact notMem_claimNames _ _ _ hn

-- The flag is kept: it is stored with the license, whatever is called later, and every token carries it.
structure TrialKept (a : AdapterKind) (issuedAsTrial : Bool) (id : String) (s : (licenses a).Rows)
    (calls : List LicenseTable.Call) : Prop where
  stored : Always (licenses a).step ((licenses a).Flagged id issuedAsTrial) s calls
  tokens : ∀ payload, IssuedTo id payload → (CarriesTrial payload ↔ issuedAsTrial = true)

end Go

namespace Ts

variable {hmac : String → String → String} {dateParse : String → Option Int} {i : Issuer} {input : IssueInput}
  {t : LicenseTable} {s s' : t.Rows} {l : License}

theorem dedupe_calls (template : Option LicenseTemplate) (templateId : Option String) (fingerprintHash : String) :
    (dedupe dateParse i template templateId fingerprintHash).Calls fun o => ¬Creates o := by
  have delete (id : String) : (Issuance.deleteTrialIssuance id : Issuance CreateLicenseInput Unit).Calls fun o =>
      ¬Creates o := by
    refine ⟨fun h => h, fun a => ?_⟩
    cases a <;> trivial
  refine ⟨id, fun a => ?_⟩
  rcases a with _ | _ | existing
  case error   => trivial
  case ok.none => trivial
  case ok.some =>
    refine ⟨id, fun now => ?_⟩
    simp only [Prog.bind]
    cases (dateParse existing.issuedAt).map (· + trialCooldown i template * 1000)
    case none            => exact delete _
    case some eligibleMs =>
      dsimp only
      split
      case isFalse => exact delete _
      case isTrue  => cases toISO (some eligibleMs) <;> trivial

theorem created_of_issue (h : (issue hmac dateParse i input).EndsIn (Serves t CreateLicenseInput.row) s (.ok l) s') :
    CreatedIn t CreateLicenseInput.row s l s' := by
  have ⟨found, u, hf, h⟩ := endsIn_bind_ok.mp h
  have hu := endsIn_aside ((findTemplate_calls _).mono not_creates_of_isSilent) hf
  rw [hu] at h
  dsimp only at h
  cases hm : input.maxUsages <|> (found.map Prod.fst).map LicenseTemplate.maxUsages
  case none           =>
    rw [hm] at h
    cases h.left
  case some maxUsages =>
    rw [hm] at h
    have ⟨expiresAt, v, he, h⟩ := endsIn_bind_ok.mp h
    have hv := endsIn_aside ((issueExpiresAt_calls _ _).mono not_creates_of_isSilent) he
    rw [hv] at h
    split at h
    case isFalse => exact created_of_create h
    case isTrue  =>
      have ⟨fingerprintHash, w, hh, h⟩ := endsIn_bind_ok.mp h
      have hw : w = s := by
        apply endsIn_aside _ hh
        cases trialHash hmac i input <;> trivial
      rw [hw] at h
      exact created_of_trial (dedupe_calls _ _ _) created_of_create h

def IssuedTo (id : String) (own : List (JsString × Value)) : Prop :=
  ∃ (ρ κ : Type) (dateParse : String → Option Int) (fuel : Nat) (b : KeyBackends ρ κ) (seed : ρ) (jti : String)
    (input : TokenInput) (r : IssueTokenResult) (deadline : Option Binary64), input.license.id = id ∧
    (issueToken dateParse fuel b seed jti input).MayEnd (.ok r) ∧ IssuedFor b seed input r own deadline

def CarriesTrial (own : List (JsString × Value)) : Prop :=
  own.lookup (.ofString "trial") = some (.boolean true)

theorem not_carriesTrial {id : String} {own : List (JsString × Value)} (h : IssuedTo id own) : ¬CarriesTrial own := by
  have ⟨_, _, _, _, _, _, _, _, _, _, _, _, hi⟩ := h
  have ⟨_, _, _, _, _, e⟩ := hi.claims
  intro carries
  have hs : (own.lookup (.ofString "trial")).isSome := by
    rw [show own.lookup (.ofString "trial") = some (.boolean true) from carries]
    rfl
  have hm := (isSome_lookup own _).mp hs
  rw [e, names_claimsOf] at hm
  have ⟨name, hn, hb⟩ := List.mem_map.mp hm
  cases ofString_injective hb
  exact notMem_claimNames _ _ _ hn

structure TrialKept (a : AdapterKind) (issuedAsTrial : Bool) (id : String) (s : (licenses a).Rows)
    (calls : List LicenseTable.Call) : Prop where
  stored : Always (licenses a).step ((licenses a).Flagged id issuedAsTrial) s calls
  tokens : ∀ own, IssuedTo id own → (CarriesTrial own ↔ issuedAsTrial = true)

end Ts

section Stored

variable {κ : Type} {t : LicenseTable} {row : κ → String → LicenseInput} {s s' : t.Rows} {l : License}

theorem getLicense_of_created (flagless : t.Flagless) (h : CreatedIn t row s l s') :
    t.getLicense s' l.id = some l ∧ l.isTrial = false := by
  have ⟨_, _, _, r, hr, hl, hs⟩ := h
  rw [hs, hl, LicenseTable.getLicense, flagless.scan_id, Table.find_put, if_pos rfl]
  exact ⟨rfl, flagless.inserted hr⟩

-- A license that has just been created is stored without the flag, and never gets it.
theorem always_flagged_iff (flagless : t.Flagless) (h : CreatedIn t row s l s') (calls : List LicenseTable.Call)
    (isTrial : Bool) : Always t.step (t.Flagged l.id isTrial) s' calls ↔ isTrial = false := by
  have ⟨hg, flag⟩ := getLicense_of_created flagless h
  apply Iff.intro
  case mp  =>
    intro ha
    have hf : t.Flagged l.id isTrial s' := by
      cases calls
      case nil  => exact ha
      case cons => exact ha.left
    exact (hf l hg).symm.trans flag
  case mpr =>
    intro e
    subst e
    apply flagless.flagged_always
    intro l' hl
    cases hg.symm.trans hl
    exact flag

end Stored

theorem go_trialKept_iff {hmac : String → String → String} {a : AdapterKind} {i : Go.Issuer} {input : Go.IssueInput}
    {s s' : (Go.licenses a).Rows} {l : License} {calls : List LicenseTable.Call}
    (h : (Go.issue hmac i input).EndsIn (Serves (Go.licenses a) CreateLicenseInput.row) s (.ok l) s') :
    Go.TrialKept a input.isTrial l.id s' calls ↔ input.isTrial = false := by
  have stored := always_flagged_iff (LicenseTable.go_flagless a) (Go.created_of_issue h) calls input.isTrial
  apply Iff.intro
  case mp  => exact fun kept => stored.mp kept.stored
  case mpr =>
    refine fun paid => ⟨stored.mpr paid, fun payload issued => ?_⟩
    exact iff_of_false (Go.not_carriesTrial issued) (by simp [paid])

theorem ts_trialKept_iff {hmac : String → String → String} {dateParse : String → Option Int} {a : AdapterKind}
    {i : Ts.Issuer} {input : Ts.IssueInput} {s s' : (Ts.licenses a).Rows} {l : License}
    {calls : List LicenseTable.Call}
    (h : (Ts.issue hmac dateParse i input).EndsIn (Serves (Ts.licenses a) Ts.CreateLicenseInput.row) s (.ok l) s') :
    Ts.TrialKept a input.isTrial l.id s' calls ↔ input.isTrial = false := by
  have stored := always_flagged_iff (LicenseTable.ts_flagless a) (Ts.created_of_issue h) calls input.isTrial
  apply Iff.intro
  case mp  => exact fun kept => stored.mp kept.stored
  case mpr =>
    refine fun paid => ⟨stored.mpr paid, fun own issued => ?_⟩
    exact iff_of_false (Ts.not_carriesTrial issued) (by simp [paid])

theorem trialKept_iff (hmac : String → String → String) (dateParse : String → Option Int) (a : AdapterKind)
    (calls : List LicenseTable.Call) :
    (∀ (i : Go.Issuer) (input : Go.IssueInput) (s s' : (Go.licenses a).Rows) (l : License),
      (Go.issue hmac i input).EndsIn (Serves (Go.licenses a) CreateLicenseInput.row) s (.ok l) s' →
      (Go.TrialKept a input.isTrial l.id s' calls ↔ input.isTrial = false)) ∧
    ∀ (i : Ts.Issuer) (input : Ts.IssueInput) (s s' : (Ts.licenses a).Rows) (l : License),
      (Ts.issue hmac dateParse i input).EndsIn (Serves (Ts.licenses a) Ts.CreateLicenseInput.row) s (.ok l) s' →
      (Ts.TrialKept a input.isTrial l.id s' calls ↔ input.isTrial = false) :=
  ⟨fun _ _ _ _ _ => go_trialKept_iff, fun _ _ _ _ _ => ts_trialKept_iff⟩

def sampleIssuer : Go.Issuer where
  trialPepper := "0123456789abcdef0123456789abcdef"

def sampleIssue (isTrial : Bool) : Go.IssueInput where
  fingerprint    := "device"
  licensableType := "user"
  licensableId   := "1"
  maxUsages      := 1
  maxUsagesSet   := true
  isTrial        := isTrial

def sampleLicense (isTrial : Bool) : License :=
  Memory.createdLicense {} <| CreateLicenseInput.row
    (Go.issueLicenseInput sampleIssuer (sampleIssue isTrial) none 1 (issueMeta none isTrial [])) "key"

-- The rows when there are none before.
def sampleRows (isTrial : Bool) : (Go.licenses .memory).Rows :=
  Table.put (sampleLicense isTrial) (.ofList [] List.nodup_nil)

theorem issue_sample (isTrial : Bool) : (Go.issue (fun _ _ => "hash") sampleIssuer (sampleIssue isTrial)).EndsIn
    (Serves (Go.licenses .memory) CreateLicenseInput.row) (.ofList [] List.nodup_nil) (.ok (sampleLicense isTrial))
    (sampleRows isTrial) := by
  have created : ∃ found key r, (Go.licenses .memory).inserted found (CreateLicenseInput.row
      (Go.issueLicenseInput sampleIssuer (sampleIssue isTrial) none 1 (issueMeta none isTrial [])) key) = some r ∧
      sampleLicense isTrial = (Go.licenses .memory).scan r ∧
      sampleRows isTrial = Table.put r (.ofList [] List.nodup_nil) :=
    ⟨{}, "key", sampleLicense isTrial, rfl, rfl, rfl⟩
  cases isTrial
  case false => exact ⟨.ok (sampleLicense false), sampleRows false, created, rfl, rfl⟩
  case true  =>
    exact ⟨.ok none, .ofList [] List.nodup_nil, rfl, .ok (sampleLicense true), sampleRows true, created,
      .ok ⟨"trial", none, "hash", ""⟩, sampleRows true, rfl, rfl, rfl⟩

def tsIssue : Ts.IssueInput where
  licensableType := "user"
  licensableId   := "1"
  maxUsages      := some 1

def tsLicense : License :=
  Memory.createdLicense {} <| Ts.CreateLicenseInput.row
    (Ts.issueLicenseInput {} tsIssue none 1 (issueMeta none false [])) "key"

def tsRows : (Ts.licenses .memory).Rows :=
  Table.put tsLicense (.ofList [] List.nodup_nil)

theorem issue_ts : (Ts.issue (fun _ _ => "hash") (fun _ => none) {} tsIssue).EndsIn
    (Serves (Ts.licenses .memory) Ts.CreateLicenseInput.row) (.ofList [] List.nodup_nil) (.ok tsLicense) tsRows :=
  ⟨.ok tsLicense, tsRows, ⟨{}, "key", tsLicense, rfl, rfl, rfl⟩, rfl, rfl⟩

-- The license gets more seats and is suspended; its deletion fails at first.
def laterCalls : List LicenseTable.Call :=
  [{ op := .updateLicense "" { maxUsages := some 5 } }, { op := .updateLicense "" { status := some .suspended } },
    { op := .deleteLicense "", fails := true }, { op := .deleteLicense "" }]

theorem trialKept_iff_sample :
    Go.TrialKept .memory false (sampleLicense false).id (sampleRows false) laterCalls ∧
      Ts.TrialKept .memory false tsLicense.id tsRows laterCalls := by
  obtain ⟨go, ts⟩ := trialKept_iff (fun _ _ => "hash") (fun _ => none) .memory laterCalls
  constructor
  case left  => exact (go sampleIssuer (sampleIssue false) _ _ _ (issue_sample false)).mpr rfl
  case right => exact (ts {} tsIssue _ _ _ issue_ts).mpr rfl

-- A trial is stored as a license that is none.
theorem not_trialKept : ¬∀ (hmac : String → String → String) (a : AdapterKind) (i : Go.Issuer) (input : Go.IssueInput)
    (s s' : (Go.licenses a).Rows) (l : License) (calls : List LicenseTable.Call),
    (Go.issue hmac i input).EndsIn (Serves (Go.licenses a) CreateLicenseInput.row) s (.ok l) s' →
    Go.TrialKept a input.isTrial l.id s' calls := by
  intro h
  have kept := h (fun _ _ => "hash") .memory sampleIssuer (sampleIssue true) _ _ _ [] (issue_sample true)
  cases kept.stored (sampleLicense true) rfl

end Licensing
