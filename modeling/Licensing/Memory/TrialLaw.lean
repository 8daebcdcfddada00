import Licensing.Memory.TrialRace

-- Both issuers, at the trials of one template and fingerprint that are asked for at the same time.

namespace Licensing

open Machine Memory Prog

theorem recorded_acts {κ : Type} {port : Trial.Port κ} {memory : Memory.Port} {ω : IssuerEnv}
    {s : Store} {input : TrialIssuanceInput} :
    Trial.Acts port ω s (.recordTrialIssuance input) (recordTrialIssuance memory (ω.env 0) input s).1
      (recordTrialIssuance memory (ω.env 0) input s).2 := by
  rw [recordTrialIssuance]
  split
  case isTrue h =>
    refine .notRecorded fun _ => ?_
    simpa [Trial.IsOf] using h
  case isFalse => exact .recorded ⟨rfl, rfl⟩ rfl

-- A license that is admitted has a new key.
theorem Memory.Admits.put_ne {s : Store} {input : LicenseInput} {l : License}
    (h : Admits s (.createLicense input)) (hl : l.licenseKey = input.licenseKey) :
    s.licenses.put l ≠ s.licenses := by
  intro he
  have hw : s.licenses.Writes l (s.licenses.put l) := Table.writes_put
  have hm : l ∈ s.licenses.rows := he ▸ (hw l).mpr (.inl rfl)
  exact (h l hm).left hl

namespace Go

open Trial

def trialPort : Trial.Port CreateLicenseInput where
  exec    := execIssue
  read    := parseTime
  now
    | .nowISO, now => parseTime now
    | _, _         => none
  refuses input ω s := Refuses s (ω.env 0) input.licenseKey (ownerOf input)

theorem trialPort_correct : trialPort.Correct := by
  intro ω s o
  cases o
  case nowISO | dateNow => exact .silent trivial trivial
  all_goals
    simp only [trialPort, execIssue, IssuerEnv.orFault]
    cases hf : ω.fault
  case getTemplate.some         => exact .silent trivial trivial
  case getTemplate.none         => exact .silent trivial rfl
  case findTrialIssuance.some   => exact .notLooked
  case findTrialIssuance.none q =>
    simp only [execStorage]
    cases hr : findTrialIssuance q s
    case none => exact .notFound (findTrialIssuance_eq_none hr)
    case some row =>
      obtain ⟨hm, hi⟩ := findTrialIssuance_spec hr
      exact .found hm hi
  case deleteTrialIssuance.some => exact .notDeleted
  case deleteTrialIssuance.none => exact .deleted
  case recordTrialIssuance.some => exact .notRecorded (by simp [hf])
  case recordTrialIssuance.none => exact recorded_acts
  case createLicense.some       => exact .notCreated (by simp [hf])
  case createLicense.none input opts =>
    have finds : (createLicense input opts).Finds execService (fun _ _ => True) ω.env s :=
      Finds.all (fun _ _ => trivial) _ ω.env s
    rcases createLicense_transact finds with ⟨e, hr, he⟩ | ⟨key, l, s', hk, he, hi⟩
    case inl =>
      simp only [he]
      exact .notCreated fun _ key hk => not_admits_iff.mp (hr key hk)
    case inr =>
      simp only [he]
      cases hi with
      | inserted admits row _ _ => exact .created rfl rfl (admits.put_ne (by rw [row]; rfl))

-- What the calls have in common. Whom the license is for differs from call to call.
structure AsksTrial (templateId : Option String) (fingerprint : String) (input : IssueInput) : Prop where
  isTrial     : input.isTrial = true
  templateId  : input.templateId = templateId
  fingerprint : input.fingerprint = fingerprint

-- The cooldown window, in nanoseconds.
def trialWindow (i : Issuer) (templateId : Option String) (s : Store) : Int :=
  trialCooldown i (templateId.bind (s.templates.find ·)) * 1000000000

def race {Tid : Type} (hmac : String → String → String) (i : Issuer) (templateId : Option String)
    (fingerprint : String) (inputs : Tid → IssueInput) (s : Store) : Race CreateLicenseInput Tid :=
  start trialPort ⟨templateId, hmac i.trialPepper fingerprint⟩ (fun t => issue hmac i (inputs t)) s

variable {hmac : String → String → String} {templates : Table LicenseTemplate.id} {q : TrialIssuanceLookup}
  {window : Int}

theorem issueExpiresAt_calls (input : IssueInput) (template : Option LicenseTemplate) :
    (issueExpiresAt input template).Calls IsSilent := by
  simp only [issueExpiresAt]
  cases input.expiresAt
  case some e => trivial
  cases template
  case none   => trivial
  case some t =>
    by_cases hd : 0 < t.trialDurationSec
    case neg => simp only [hd, if_false]; trivial
    case pos =>
      simp only [hd, if_true]
      refine ⟨trivial, fun now => ?_⟩
      simp only [Prog.bind]
      cases addSeconds now t.trialDurationSec <;> trivial

theorem issueTrial_early {i : Issuer} {input : IssueInput} {template : Option LicenseTemplate}
    (hq : ∀ h, trialHash hmac i input = .ok h → q = ⟨input.templateId, h⟩)
    (hw : window = secondsDuration (trialCooldown i template)) {c : CreateLicenseInput} {opts : CreateLicenseOptions} :
    Early trialPort q window templates (issueTrial hmac i input template (Issuance.createLicense c opts)) := by
  rw [issueTrial]
  cases hh : trialHash hmac i input
  case error e => exact .failed e
  case ok h =>
    cases hq h hh
    have creating : Creating ⟨input.templateId, h⟩ (Issuance.createLicense c opts >>= fun license =>
        Issuance.recordTrialIssuance ⟨input.templateId, h⟩ >>= fun _ => Pure.pure license) :=
      .create (fun e => ⟨e, rfl⟩) fun l => .record (fun e => ⟨e, rfl⟩) fun row => ⟨l, rfl⟩
    refine .look (fun e => ⟨e, rfl⟩) creating fun row => ?_
    simp only [ofExcept_ok, Prog.bind]
    cases hr : parseTime row.issuedAt
    case none => exact .failed _
    case some issued =>
      refine .ask (o := .nowISO) trivial fun now => ?_
      simp only [Prog.bind]
      cases hn : parseTime now
      case none => exact .inl ⟨_, rfl⟩
      case some now' =>
        by_cases hlt : now' < issued + secondsDuration (trialCooldown i template)
        case pos => exact .inl ⟨_, by simp [hlt]; rfl⟩
        case neg =>
          refine .inr ⟨?_, ?_⟩
          case _ =>
            simp only [hlt, if_false]
            exact .delete (fun e => ⟨e, rfl⟩) creating
          case _ =>
            intro x hx
            cases hr.symm.trans hx
            exact ⟨now', hn, hw ▸ Int.not_lt.mp hlt⟩

theorem issue_early {i : Issuer} {input : IssueInput} (trial : input.isTrial = true)
    (hq : ∀ h, trialHash hmac i input = .ok h → q = ⟨input.templateId, h⟩)
    (hw : window = secondsDuration (trialCooldown i (input.templateId.bind (templates.find ·)))) :
    Early trialPort q window templates (issue hmac i input) := by
  refine .of_template fun found hfound => ?_
  simp only [issueWith, trial, if_true]
  split
  case isTrue  => exact .failed _
  case isFalse =>
    refine .bind_of_calls (fun expiresAt => ?_) (issueExpiresAt_calls _ _)
    exact issueTrial_early hq (hfound ▸ hw)

theorem race_early {i : Issuer} {input : IssueInput} {templateId : Option String} {fingerprint : String} {s : Store}
    (h : AsksTrial templateId fingerprint input)
    (hw : trialWindow i templateId s = secondsDuration (trialCooldown i (templateId.bind (s.templates.find ·)))) :
    Early trialPort ⟨templateId, hmac i.trialPepper fingerprint⟩ (trialWindow i templateId s) s.templates
      (issue hmac i input) := by
  have ⟨trial, ht, hf⟩ := h
  subst ht hf
  refine issue_early trial (fun h hh => ?_) hw
  simp only [trialHash, hashFingerprint] at hh
  split at hh
  case isTrue  => exact nomatch hh
  case isFalse =>
    split at hh
    case isTrue  => exact nomatch hh
    case isFalse =>
      split at hh
      case isTrue  => exact nomatch hh
      case isFalse => cases hh; rfl

end Go

namespace Ts

open Trial

-- The key is malformed, or another license has it or the same owner.
def Refuses (s : Store) (ω : Env) (input : CreateLicenseInput) : Prop :=
  ∀ key, keyOf ω input = .ok key → ¬Admits s (.createLicense (input.row key))

variable {hmac : String → String → String} {dateParse : String → Option Int}

variable (dateParse) in
def trialPort : Trial.Port CreateLicenseInput where
  exec    := execIssue
  read    := dateParse
  now
    | .dateNow, ms => some ms
    | _, _         => none
  refuses input ω s := Refuses s (ω.env 0) input

theorem createLicense_acts {ω : IssuerEnv} {input : CreateLicenseInput} {opts : CreateLicenseOptions} {s : Store} :
    Trial.Acts (trialPort dateParse) ω s (.createLicense input opts) (createLicense ω.env input opts s).1
      (createLicense ω.env input opts s).2 := by
  simp only [createLicense]
  cases hk : keyOf (ω.env 0) input
  case error e =>
    refine .notCreated fun _ key h => ?_
    cases hk.symm.trans h
  case ok key =>
    simp only [Memory.createLicense]
    cases hc : licenseConflict memory (input.row key) s.toState
    case some e =>
      refine .notCreated fun _ key' h => ?_
      cases hk.symm.trans h
      simp [← Go.licenseConflict_eq_none (p := memory), hc]
    case none => exact .created rfl rfl ((Go.licenseConflict_eq_none.mp hc).put_ne rfl)

theorem trialPort_correct : (trialPort dateParse).Correct := by
  intro ω s o
  cases o
  case nowISO | dateNow => exact .silent trivial trivial
  all_goals
    simp only [trialPort, execIssue, IssuerEnv.orFault]
    cases hf : ω.fault
  case getTemplate.some         => exact .silent trivial trivial
  case getTemplate.none         => exact .silent trivial rfl
  case findTrialIssuance.some   => exact .notLooked
  case findTrialIssuance.none q =>
    cases hr : findTrialIssuance q s
    case none => exact .notFound (by simpa [findTrialIssuance, IsOf] using hr)
    case some row => exact .found (List.mem_of_find?_eq_some hr) (by simpa [IsOf] using List.find?_some hr)
  case deleteTrialIssuance.some => exact .notDeleted
  case deleteTrialIssuance.none => exact .deleted
  case recordTrialIssuance.some => exact .notRecorded (by simp [hf])
  case recordTrialIssuance.none => exact recorded_acts
  case createLicense.some       => exact .notCreated (by simp [hf])
  case createLicense.none       => exact createLicense_acts

structure AsksTrial (templateId : Option String) (fingerprint : String) (input : IssueInput) : Prop where
  isTrial     : input.isTrial = true
  templateId  : input.templateId = templateId
  fingerprint : input.fingerprint = some fingerprint

-- The cooldown window, in milliseconds.
def trialWindow (i : Issuer) (templateId : Option String) (s : Store) : Int :=
  trialCooldown i (templateId.bind (s.templates.find ·)) * 1000

-- Without a pepper nothing is looked up.
def race {Tid : Type} (hmac : String → String → String) (dateParse : String → Option Int) (i : Issuer)
    (templateId : Option String) (fingerprint : String) (inputs : Tid → IssueInput) (s : Store) :
    Race CreateLicenseInput Tid :=
  start (trialPort dateParse) ⟨templateId, hmac (i.trialPepper.getD "") fingerprint⟩
    (fun t => issue hmac dateParse i (inputs t)) s

variable {templates : Table LicenseTemplate.id} {q : TrialIssuanceLookup} {window : Int}

theorem issueExpiresAt_calls (input : IssueInput) (template : Option LicenseTemplate) :
    (issueExpiresAt dateParse input template).Calls IsSilent := by
  simp only [issueExpiresAt]
  match input.expiresAt, template with
  | none, none     => trivial
  | some e, _      => trivial
  | none, some t   =>
    by_cases hd : 0 < t.trialDurationSec
    case neg => simp only [hd, if_false]; trivial
    case pos =>
      simp only [hd, if_true]
      refine ⟨trivial, fun now => ?_⟩
      simp only [Prog.bind]
      cases toISO ((dateParse now).map (· + t.trialDurationSec * 1000)) <;> trivial

theorem issueTrial_early {i : Issuer} {input : IssueInput} {template : Option LicenseTemplate}
    (hq : ∀ h, trialHash hmac i input = .ok h → q = ⟨input.templateId, h⟩)
    (hw : window = trialCooldown i template * 1000) {c : CreateLicenseInput} {opts : CreateLicenseOptions} :
    Early (trialPort dateParse) q window templates
      (issueTrial hmac dateParse i input template (Issuance.createLicense c opts)) := by
  rw [issueTrial]
  match hh : trialHash hmac i input with
  | .error e => exact .failed e
  | .ok h    =>
    cases hq h hh
    have creating : Creating ⟨input.templateId, h⟩ (Issuance.createLicense c opts >>= fun license =>
        Issuance.recordTrialIssuance ⟨input.templateId, h⟩ >>= fun _ => Pure.pure license) :=
      .create (fun e => ⟨e, rfl⟩) fun l => .record (fun e => ⟨e, rfl⟩) fun row => ⟨l, rfl⟩
    refine .look (fun e => ⟨e, rfl⟩) creating fun row => ?_
    refine .ask (o := .dateNow) trivial fun now => ?_
    simp only [Prog.bind]
    match hr : dateParse row.issuedAt with
    | none        => exact .inr ⟨.delete (fun e => ⟨e, rfl⟩) creating, fun x hx => nomatch hr.symm.trans hx⟩
    | some issued =>
      simp only [Option.map_some]
      by_cases hlt : now < issued + trialCooldown i template * 1000
      case pos =>
        left
        simp only [hlt, if_true]
        cases toISO (some (issued + trialCooldown i template * 1000))
        case error e => exact ⟨e, rfl⟩
        case ok      => exact ⟨_, rfl⟩
      case neg =>
        simp only [hlt, if_false]
        refine .inr ⟨.delete (fun e => ⟨e, rfl⟩) creating, fun x hx => ?_⟩
        cases hr.symm.trans hx
        exact ⟨now, rfl, hw ▸ Int.not_lt.mp hlt⟩

theorem issue_early {i : Issuer} {input : IssueInput} (trial : input.isTrial = true)
    (hq : ∀ h, trialHash hmac i input = .ok h → q = ⟨input.templateId, h⟩)
    (hw : window = trialCooldown i (input.templateId.bind (templates.find ·)) * 1000) :
    Early (trialPort dateParse) q window templates (issue hmac dateParse i input) := by
  refine .of_template fun found hfound => ?_
  simp only [trial, if_true]
  split
  case h_1 => exact .failed _
  case h_2 =>
    refine .bind_of_calls (fun expiresAt => ?_) (issueExpiresAt_calls _ _)
    exact issueTrial_early hq (hfound ▸ hw)

theorem race_early {i : Issuer} {input : IssueInput} {templateId : Option String} {fingerprint : String} {s : Store}
    (h : AsksTrial templateId fingerprint input) :
    Early (trialPort dateParse) ⟨templateId, hmac (i.trialPepper.getD "") fingerprint⟩ (trialWindow i templateId s)
      s.templates (issue hmac dateParse i input) := by
  have ⟨trial, ht, hf⟩ := h
  subst ht
  refine issue_early trial (fun h hh => ?_) rfl
  simp only [trialHash, hf] at hh
  match hp : i.trialPepper with
  | none        => simp [hp] at hh
  | some pepper =>
    simp only [hp, hashFingerprint] at hh
    split at hh
    case isTrue  => exact nomatch hh
    case isFalse => cases hh; rfl

end Ts

namespace Trial

-- Trials that are asked for at the same time are a cooldown window apart, and those that fail leave
-- nothing behind, in the runs in which no call is disturbed.
theorem trials_apart (hmac : String → String → String) (dateParse : String → Option Int) {Tid : Type}
    [DecidableEq Tid] {s : Store} (hs : s.trialIssuances.Unique indexed) (templateId : Option String)
    (fingerprint : String) (ks : List (Tick Tid)) :
    (∀ i (inputs : Tid → Go.IssueInput), (∀ t, Go.AsksTrial templateId fingerprint (inputs t)) →
      -2 ^ 63 ≤ Go.trialWindow i templateId s ∧ Go.trialWindow i templateId s < 2 ^ 63 →
      Each (step Go.trialPort) (Undisturbed Go.trialPort)
        (Go.race hmac i templateId fingerprint inputs s) ks →
      Always (step Go.trialPort) (Lawful (Go.trialWindow i templateId s))
        (Go.race hmac i templateId fingerprint inputs s) ks) ∧
    (∀ i (inputs : Tid → Ts.IssueInput), (∀ t, Ts.AsksTrial templateId fingerprint (inputs t)) →
      Each (step (Ts.trialPort dateParse)) (Undisturbed (Ts.trialPort dateParse))
        (Ts.race hmac dateParse i templateId fingerprint inputs s) ks →
      Always (step (Ts.trialPort dateParse)) (Lawful (Ts.trialWindow i templateId s))
        (Ts.race hmac dateParse i templateId fingerprint inputs s) ks) := by
  apply And.intro
  case left =>
    intro i inputs asks hw hu
    have hd : Go.trialWindow i templateId s =
        Go.secondsDuration (Go.trialCooldown i (templateId.bind (s.templates.find ·))) := by
      rw [Go.secondsDuration, Int.bmod_eq_of_le (by exact hw.left) (by exact hw.right)]
      rfl
    exact lawful_of_undisturbed Go.trialPort_correct hs (fun t => Go.race_early (asks t) hd) hu
  case right =>
    intro i inputs asks hu
    exact lawful_of_undisturbed Ts.trialPort_correct hs (fun t => Ts.race_early (asks t)) hu

-- Two customers with one device.

def pepper : String := "0123456789abcdef0123456789abcdef"

def digest : String := "8dada1057a1975042a96b1e57e94d4138f3fa4e9f848c577fa20408f0eaf96b5"

def midnight : String := "2026-01-01T00:00:00.000000Z"

def parseMidnight (t : String) : Option Int :=
  if t = midnight then some 1767225600000 else none

def goInput (t : Bool) : Go.IssueInput where
  licensableType := "User"
  licensableId   := if t then "1" else "2"
  maxUsages      := 1
  maxUsagesSet   := true
  isTrial        := true
  fingerprint    := "device"

def tsInput (t : Bool) : Ts.IssueInput where
  licensableType := "User"
  licensableId   := if t then "1" else "2"
  maxUsages      := some 1
  isTrial        := true
  fingerprint    := some "device"

def ticks (instant : Int) (calls : List Bool) : List (Tick Bool) :=
  calls.map fun t => {
    call    := t
    env     := {
      env := fun n => {
        clock      := midnight
        freshId    := toString n ++ if t then "1" else "2"
        licenseKey := if t then "LIC-0000-0000-0000-0000-0001" else "LIC-0000-0000-0000-0000-0002" }
      ms  := 1767225600000 }
    instant := instant }

def goRace : Race CreateLicenseInput Bool :=
  Go.race (fun _ _ => digest) { trialPepper := pepper } none "device" goInput {}

def tsRace : Race Ts.CreateLicenseInput Bool :=
  Ts.race (fun _ _ => digest) parseMidnight { trialPepper := some pepper } none "device" tsInput {}

-- Both look before one of them has created a license.
theorem not_trials_apart : ¬∀ hmac dateParse (s : Store), s.trialIssuances.Unique indexed →
    ∀ templateId fingerprint (ks : List (Tick Bool)),
      (∀ i inputs, (∀ t, Go.AsksTrial templateId fingerprint (inputs t)) →
        Always (step Go.trialPort) (Lawful (Go.trialWindow i templateId s))
          (Go.race hmac i templateId fingerprint inputs s) ks) ∧
      (∀ i inputs, (∀ t, Ts.AsksTrial templateId fingerprint (inputs t)) →
        Always (step (Ts.trialPort dateParse)) (Lawful (Ts.trialWindow i templateId s))
          (Ts.race hmac dateParse i templateId fingerprint inputs s) ks) := by
  intro h
  have hu : ({} : Store).trialIssuances.Unique indexed := Table.unique_nil
  have ha : (run (step Go.trialPort) goRace (ticks 1767225600000000000 [true, false, true, false])).issued.Pairwise
      fun n m => Go.trialWindow { trialPepper := pepper } none {} ≤ |n - m| :=
    ((h (fun _ _ => digest) parseMidnight {} hu none "device" _).left _ goInput fun _ => ⟨rfl, rfl, rfl⟩).last.apart
  have hr : (run (step Go.trialPort) goRace (ticks 1767225600000000000 [true, false, true, false])).issued =
      [1767225600000000000, 1767225600000000000] := by decide +kernel
  rw [hr] at ha
  simp [Go.trialWindow, Go.trialCooldown] at ha

theorem Undisturbed.of_call {κ : Type} {port : Port κ} {r : Race κ Bool} {k : Tick Bool} {o : IssuerOp κ}
    {next : o.Ans → Issuance κ License} (forward : r.time ≤ k.instant) (healthy : k.env.fault = none)
    (hp : r.prog k.call = .call o next) (fits : Fits port r k o) : Undisturbed port r k where
  forward := fun _ => forward
  healthy := fun _ => healthy
  fits    := fun o' next' h => by
    cases hp.symm.trans h
    exact fits

-- The second customer looks after the first one has got the trial.
def afterwards : List Bool :=
  [true, true, true, false, false]

theorem trials_apart_alone :
    Always (step Go.trialPort) (Lawful (Go.trialWindow { trialPepper := pepper } none {})) goRace
      (ticks 1767225600000000000 afterwards) ∧
    Always (step (Ts.trialPort parseMidnight)) (Lawful (Ts.trialWindow { trialPepper := some pepper } none {})) tsRace
      (ticks 1767225600000 afterwards) := by
  have hs : ({} : Store).trialIssuances.Unique indexed := Table.unique_nil
  have go := (trials_apart (fun _ _ => digest) parseMidnight hs none "device"
    (ticks 1767225600000000000 afterwards)).left { trialPepper := pepper } goInput fun _ => ⟨rfl, rfl, rfl⟩
  have ts := (trials_apart (fun _ _ => digest) parseMidnight hs none "device"
    (ticks 1767225600000 afterwards)).right { trialPepper := some pepper } tsInput fun _ => ⟨rfl, rfl, rfl⟩
  refine ⟨go (by decide) ⟨?_, ?_, ?_, ?_, ?_, trivial⟩, ts ⟨?_, ?_, ?_, ?_, ?_, trivial⟩⟩
  case refine_1 | refine_6 => exact .of_call (by decide) rfl rfl fun t ht => rfl
  case refine_2 | refine_7 =>
    exact .of_call (by decide) rfl rfl fun h => absurd h fun h => h.elim (fun h => h) (not_touches _)
  case refine_3 =>
    exact .of_call (by decide) rfl rfl ⟨1767225600000000000, by decide +kernel, by decide +kernel⟩
  case refine_8 =>
    exact .of_call (by decide) rfl rfl ⟨1767225600000, by decide +kernel, by decide +kernel⟩
  case refine_4 | refine_9 =>
    refine .of_call (by decide) rfl rfl fun t ht => ?_
    cases t
    case false => contradiction
    case true  => rfl
  case refine_5 =>
    refine .of_call (by decide) rfl rfl fun n hn => ?_
    have now : Go.trialPort.now .nowISO midnight = some 1767225600000000000 := by decide +kernel
    cases now.symm.trans hn
    exact le_rfl
  case refine_10 =>
    refine .of_call (by decide) rfl rfl fun n hn => ?_
    cases hn
    exact le_rfl

end Trial

end Licensing
