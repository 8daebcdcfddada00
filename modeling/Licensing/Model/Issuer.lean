import Licensing.Library.Utf16
import Licensing.Model.Services

-- The issuer of the high-level interface. It calls the storage several times: only the license itself,
-- with its audit entry, is written in a transaction.

namespace Licensing

-- `κ` is what a license is created from. Its creation is one call, which is a transaction.
inductive IssuerOp (κ : Type)
  | getTemplate (id : String)
  | findTrialIssuance (query : TrialIssuanceLookup)
  | deleteTrialIssuance (id : String)
  | recordTrialIssuance (input : TrialIssuanceInput)
  | createLicense (input : κ) (opts : CreateLicenseOptions)
  | nowISO
  | dateNow

@[reducible]
def IssuerOp.Ans {κ : Type} : IssuerOp κ → Type
  | getTemplate _         => Except Error (Option LicenseTemplate)
  | findTrialIssuance _   => Except Error (Option TrialIssuance)
  | deleteTrialIssuance _ => Except Error Unit
  | recordTrialIssuance _ => Except Error TrialIssuance
  | createLicense _ _     => Except Error License
  | nowISO                => String
  | dateNow               => Int

abbrev Issuance (κ : Type) := Prog (IssuerOp κ) IssuerOp.Ans Error

variable {κ : Type}

namespace Issuance

def getTemplate (id : String) : Issuance κ (Option LicenseTemplate) :=
  .call (.getTemplate id) .ofExcept

def findTrialIssuance (query : TrialIssuanceLookup) : Issuance κ (Option TrialIssuance) :=
  .call (.findTrialIssuance query) .ofExcept

def deleteTrialIssuance (id : String) : Issuance κ Unit :=
  .call (.deleteTrialIssuance id) .ofExcept

def recordTrialIssuance (input : TrialIssuanceInput) : Issuance κ TrialIssuance :=
  .call (.recordTrialIssuance input) .ofExcept

def createLicense (input : κ) (opts : CreateLicenseOptions) : Issuance κ License :=
  .call (.createLicense input opts) .ofExcept

-- The clock of the issuer.
def nowISO : Issuance κ String := .call .nowISO .pure

-- The clock of the system, in milliseconds.
def dateNow : Issuance κ Int := .call .dateNow .pure

end Issuance

-- The later object wins, member by member where both sides are objects.
def deepMerge (base : Json.Object) : Json.Object → Json.Object
  | []                => base
  | (k, .obj o) :: ms =>
    let v := match base.get? k with
      | some (.obj b) => deepMerge b o
      | _             => o
    deepMerge (Go.copyMap base [(k, .obj v)]) ms
  | (k, v) :: ms      => deepMerge (Go.copyMap base [(k, v)]) ms

def maxTemplateDepth : Nat := 5

-- The ancestors of a template, the closest first.
def ancestors : Nat → List String → Option String → Issuance κ (List LicenseTemplate)
  | fuel + 1, visited, some id =>
    if id ∈ visited then .pure []
    else do
      match ← Issuance.getTemplate id with
      | none      => .pure []
      | some node =>
        let rest ← ancestors fuel (id :: visited) node.parentId
        return node :: rest
  | _, _, _ => .pure []

-- The entitlements of a template and of what it inherits from.
def resolveTemplate (leaf : LicenseTemplate) : Issuance κ Json.Object := do
  let chain ← ancestors maxTemplateDepth [leaf.id] leaf.parentId
  return deepMerge (chain.foldr (fun t merged => deepMerge merged t.entitlements) []) leaf.entitlements

-- The template that a license is issued from, with its entitlements.
def findTemplate : Option String → Issuance κ (Option (LicenseTemplate × Json.Object))
  | none            => .pure none
  | some templateId => do
    match ← Issuance.getTemplate templateId with
    | none      => .throw (newError .fingerprintRejected ("template not found: " ++ templateId))
    | some leaf =>
      let entitlements ← resolveTemplate leaf
      return some (leaf, entitlements)

-- What is written to the meta of a license, the caller's own fields last.
def issueMeta (entitlements : Option Json.Object) (isTrial : Bool) (meta_ : Json.Object) : Json.Object :=
  Go.copyMap
    ((entitlements.map fun e => ("entitlements", .obj e)).toList ++
      if isTrial then [("is_trial", .bool true)] else [])
    meta_

def minPepperLength : Nat := 32

def pepperTooShort (n : Nat) : Error :=
  .other ("pepper must be at least 32 characters (got " ++ toString n ++ ")")

def trialAlreadyIssued : Error :=
  newError .trialAlreadyIssued "trial already issued for this fingerprint within the cooldown window"

namespace Go

structure Issuer where
  defaultActor     : String := "system"
  defaultScopeId   : Option String := none
  trialPepper      : String := ""
  trialCooldownSec : Int := 90 * 86400

-- `none` stands for an empty status.
structure IssueInput where
  meta_          : Json.Object := []
  templateId     : Option String := none
  scopeId        : Option String := none
  scopeIdSet     : Bool := false
  expiresAt      : Option String := none
  graceUntil     : Option String := none
  fingerprint    : String := ""
  licensableType : String
  licensableId   : String
  licenseKey     : String := ""
  status         : Option LicenseStatus := none
  actor          : String := ""
  maxUsages      : Int := 0
  maxUsagesSet   : Bool := false
  isTrial        : Bool := false

-- The keyed digest of the standard library, as a hexadecimal text.
variable (hmac : String → String → String)

def hashFingerprint (pepper fingerprintInput : String) : Except Error String :=
  if pepper.utf8ByteSize < minPepperLength then .error (pepperTooShort pepper.utf8ByteSize)
  else .ok (hmac pepper fingerprintInput)

def trialHash (i : Issuer) (input : IssueInput) : Except Error String :=
  if input.fingerprint = "" then
    .error (newError .fingerprintRejected "easy: IsTrial=true requires Fingerprint")
  else if i.trialPepper = "" then
    .error (newError .fingerprintRejected
      "easy: issuer has no TrialPepper configured — set IssuerConfig.TrialPepper to issue trials")
  else hashFingerprint hmac i.trialPepper input.fingerprint

-- How long the next trial of a fingerprint has to wait.
def trialCooldown (i : Issuer) (template : Option LicenseTemplate) : Int :=
  (template.bind LicenseTemplate.trialCooldownSec).getD i.trialCooldownSec

-- Refuses a trial within the cooldown of the last one, and forgets the last one otherwise.
def dedupe (i : Issuer) (template : Option LicenseTemplate) (templateId : Option String)
    (fingerprintHash : String) : Issuance CreateLicenseInput Unit := do
  match ← Issuance.findTrialIssuance { templateId, fingerprintHash } with
  | none          => return ()
  | some existing =>
    match parseTime existing.issuedAt with
    | none        => .throw (.other "invalid trial_issuances.issued_at")
    | some issued =>
      match parseTime (← Issuance.nowISO) with
      | none     => .throw (.other "clock returned invalid ISO timestamp")
      | some now =>
        if now < issued + secondsDuration (trialCooldown i template) then .throw trialAlreadyIssued
        else Issuance.deleteTrialIssuance existing.id

def issueMaxUsages (input : IssueInput) (template : Option LicenseTemplate) : Int :=
  if input.maxUsagesSet then input.maxUsages
  else (template.map LicenseTemplate.maxUsages).getD input.maxUsages

def issueExpiresAt (input : IssueInput) (template : Option LicenseTemplate) :
    Issuance CreateLicenseInput (Option String) :=
  match input.expiresAt, template with
  | none, some t =>
    if 0 < t.trialDurationSec then do
      match addSeconds (← Issuance.nowISO) t.trialDurationSec with
      | none     => .throw (.other "clock returned invalid ISO timestamp")
      | some exp => .pure (some exp)
    else .pure none
  | expiresAt, _ => .pure expiresAt

def issueLicenseInput (i : Issuer) (input : IssueInput) (expiresAt : Option String) (maxUsages : Int)
    (meta_ : Json.Object) : CreateLicenseInput where
  scopeId        := if input.scopeIdSet then input.scopeId else i.defaultScopeId
  templateId     := input.templateId
  licensableType := input.licensableType
  licensableId   := input.licensableId
  licenseKey     := input.licenseKey
  status         := input.status
  maxUsages      := maxUsages
  expiresAt      := expiresAt
  graceUntil     := input.graceUntil
  meta_          := meta_

def createIssued (i : Issuer) (input : IssueInput) (expiresAt : Option String) (maxUsages : Int)
    (meta_ : Json.Object) : Issuance CreateLicenseInput License :=
  Issuance.createLicense (issueLicenseInput i input expiresAt maxUsages meta_)
    { actor := some (if input.actor = "" then i.defaultActor else input.actor) }

-- The trial is recorded after the license is there. A digest is never empty.
def issueTrial (i : Issuer) (input : IssueInput) (template : Option LicenseTemplate)
    (create : Issuance CreateLicenseInput License) : Issuance CreateLicenseInput License := do
  let fingerprintHash ← .ofExcept (trialHash hmac i input)
  dedupe i template input.templateId fingerprintHash
  let license ← create
  let _ ← Issuance.recordTrialIssuance { templateId := input.templateId, fingerprintHash }
  return license

def issueWith (i : Issuer) (input : IssueInput) (found : Option (LicenseTemplate × Json.Object)) :
    Issuance CreateLicenseInput License :=
  let template := found.map Prod.fst
  let maxUsages := issueMaxUsages input template
  if maxUsages ≤ 0 then
    .throw (newError .fingerprintRejected "easy: Issue requires MaxUsages when no template is supplied")
  else do
    let expiresAt ← issueExpiresAt input template
    let meta_ := issueMeta (found.map Prod.snd) input.isTrial input.meta_
    let create := createIssued i input expiresAt maxUsages meta_
    if input.isTrial then issueTrial hmac i input template create else create

def issue (i : Issuer) (input : IssueInput) : Issuance CreateLicenseInput License := do
  let found ← findTemplate input.templateId
  issueWith hmac i input found

end Go

namespace Ts

-- `none` stands for a field that is left out. A key may be empty.
structure CreateLicenseInput where
  scopeId        : Option String
  templateId     : Option String
  licensableType : String
  licensableId   : String
  licenseKey     : Option String := none
  status         : Option LicenseStatus := none
  maxUsages      : Int
  expiresAt      : Option String := none
  graceUntil     : Option String := none
  meta_          : Json.Object

structure Issuer where
  defaultActor     : String := "system"
  defaultScopeId   : Option String := none
  trialPepper      : Option String := none
  trialCooldownSec : Int := 90 * 86400

structure IssueInput where
  licensableType : String
  licensableId   : String
  licenseKey     : Option String := none
  maxUsages      : Option Int := none
  status         : Option LicenseStatus := none
  templateId     : Option String := none
  scopeId        : Option (Option String) := none
  expiresAt      : Option (Option String) := none
  graceUntil     : Option (Option String) := none
  meta_          : Json.Object := []
  isTrial        : Bool := false
  fingerprint    : Option String := none
  actor          : Option String := none

-- The length of a text in the units of ECMAScript.
def length (s : String) : Nat :=
  (JsonText.utf16 s.toList).length

-- The keyed digest of the platform, as a hexadecimal text, and `Date.parse`.
variable (hmac : String → String → String) (dateParse : String → Option Int)

def hashFingerprint (pepper fingerprintInput : String) : Except Error String :=
  if length pepper < minPepperLength then .error (pepperTooShort (length pepper))
  else .ok (hmac pepper fingerprintInput)

def trialHash (i : Issuer) (input : IssueInput) : Except Error String :=
  match input.fingerprint, i.trialPepper with
  | none, _ => .error (newError .fingerprintRejected "isTrial=true requires `fingerprint`")
  | _, none => .error (newError .fingerprintRejected
    "issuer has no `trialPepper` configured — pass it to `Licensing.issuer(\x7b trialPepper \x7d)` to issue trials")
  | some fingerprint, some trialPepper => hashFingerprint hmac trialPepper fingerprint

def trialCooldown (i : Issuer) (template : Option LicenseTemplate) : Int :=
  (template.bind LicenseTemplate.trialCooldownSec).getD i.trialCooldownSec

-- What a `Date` can be.
def maxTime : Int := 8640000000000000

def invalidTime : Error :=
  .other "Invalid time value"

-- `new Date(ms).toISOString()`, extended to microseconds.
def toISO (ms : Option Int) : Except Error String :=
  match ms with
  | none    => .error invalidTime
  | some ms => if -maxTime ≤ ms ∧ ms ≤ maxTime then .ok (isoFromMs ms) else .error invalidTime

-- A trial that has been issued at no readable time does not hold up another one.
def dedupe (i : Issuer) (template : Option LicenseTemplate) (templateId : Option String)
    (fingerprintHash : String) : Issuance CreateLicenseInput Unit := do
  match ← Issuance.findTrialIssuance { templateId, fingerprintHash } with
  | none          => return ()
  | some existing =>
    let now ← Issuance.dateNow
    match (dateParse existing.issuedAt).map (· + trialCooldown i template * 1000) with
    | none            => Issuance.deleteTrialIssuance existing.id
    | some eligibleMs =>
      if now < eligibleMs then do
        let _ ← .ofExcept (toISO (some eligibleMs))
        .throw trialAlreadyIssued
      else Issuance.deleteTrialIssuance existing.id

def issueExpiresAt (input : IssueInput) (template : Option LicenseTemplate) :
    Issuance CreateLicenseInput (Option String) :=
  match input.expiresAt, template with
  | none, some t =>
    if 0 < t.trialDurationSec then do
      let now ← Issuance.nowISO
      let exp ← .ofExcept (toISO ((dateParse now).map (· + t.trialDurationSec * 1000)))
      return some exp
    else .pure none
  | expiresAt, _ => .pure expiresAt.join

def issueLicenseInput (i : Issuer) (input : IssueInput) (expiresAt : Option String) (maxUsages : Int)
    (meta_ : Json.Object) : CreateLicenseInput where
  scopeId        := input.scopeId.getD i.defaultScopeId
  templateId     := input.templateId
  licensableType := input.licensableType
  licensableId   := input.licensableId
  licenseKey     := input.licenseKey
  status         := input.status
  maxUsages      := maxUsages
  expiresAt      := expiresAt
  graceUntil     := input.graceUntil.join
  meta_          := meta_

def issueTrial (i : Issuer) (input : IssueInput) (template : Option LicenseTemplate)
    (create : Issuance CreateLicenseInput License) : Issuance CreateLicenseInput License := do
  let fingerprintHash ← .ofExcept (trialHash hmac i input)
  dedupe dateParse i template input.templateId fingerprintHash
  let license ← create
  let _ ← Issuance.recordTrialIssuance { templateId := input.templateId, fingerprintHash }
  return license

def issue (i : Issuer) (input : IssueInput) : Issuance CreateLicenseInput License := do
  let found ← findTemplate input.templateId
  let template := found.map Prod.fst
  match input.maxUsages <|> template.map LicenseTemplate.maxUsages with
  | none           =>
    .throw (newError .fingerprintRejected "issue() requires `maxUsages` when no template is supplied")
  | some maxUsages =>
    let expiresAt ← issueExpiresAt dateParse input template
    let meta_ := issueMeta (found.map Prod.snd) input.isTrial input.meta_
    let create := Issuance.createLicense (issueLicenseInput i input expiresAt maxUsages meta_)
      { actor := some (input.actor.getD i.defaultActor) }
    if input.isTrial then issueTrial hmac dateParse i input template create else create

end Ts

end Licensing
