import Licensing.Keys.Backends
import Licensing.Memory.SeatWalk
import Licensing.Memory.Ticks
import Licensing.Model.Handler
import Licensing.Tokens.IssueToken

-- The activation of a device: a seat is taken in a transaction, and the token is issued after it.

namespace Licensing

-- Performs a program outside of a transaction, and hands its outcome over.
def Handler.directly {α : Type} : Tx α → Handler (Except Error α)
  | .pure a      => .pure (.ok a)
  | .throw e     => .pure (.error e)
  | .call o next => .call (.op o) fun a => directly (next a)

namespace Go

open Prog Memory

-- A body that the decoder has read, or its message.
def decodeBody {α : Type} : Option (Except String α) → Except Response α
  | none                  => .error (.err 400 "BadRequest" "request body is required")
  | some (.error message) => .error (.err 400 "BadRequest" ("invalid JSON body: " ++ message))
  | some (.ok body)       => .ok body

structure ActivateBody where
  clientMeta  : Json.Object := []
  licenseKey  : String
  fingerprint : String

variable {ρ κ : Type}

-- The configuration of the handlers, where `none` stands for what is not set.
structure ClientContext (ρ κ : Type) where
  backends          : KeyBackends ρ κ
  signingPassphrase : String
  defaultAlg        : Option KeyAlg := none
  tokenFormat       : String := ""
  tokenTTLSec       : Int64 := 0
  forceOnlineAfter  : Option Int64 := none

def ClientContext.alg (ctx : ClientContext ρ κ) : KeyAlg :=
  ctx.defaultAlg.getD .ed25519

def ClientContext.ttl (ctx : ClientContext ρ κ) : Int64 :=
  if 0 < ctx.tokenTTLSec then ctx.tokenTTLSec else 3600

theorem ClientContext.ttl_pos (ctx : ClientContext ρ κ) : 0 < ctx.ttl := by
  unfold ClientContext.ttl
  split
  case isTrue h  => exact h
  case isFalse h => decide

-- `time.Unix(unixSec, 0).UTC().Format(time.RFC3339)`.
def isoOf (unixSec : Int64) : String :=
  .ofList (Rfc3339.dateTime Rfc3339.year unixSec.toInt ++ ['Z'])

-- `iat + int64(float64(ttl)*0.75)`.
def refreshRecommendedAt (iat ttl : Int64) : Int64 :=
  iat + toInt64 ((Binary64.ofInt ttl.toInt).mul (.ofLiteral "0.75".toList))

def extractForceOnlineAfter (token : GoString) : Option Int64 :=
  match decodeUnverified token with
  | .error _  => none
  | .ok parts =>
    match parts.payload.lookup (Bytes.ofString "force_online_after") with
    | some (.float64 x)  => some (toInt64 x)
    | some (.number lit) => (int64? lit).map .ofInt
    | some (.int64 i)    => some i
    | _                  => none

-- A license comes with the values that hold its metadata.
def ClientContext.issueInput (ctx : ClientContext ρ κ) (held : Json.Object → Map) (license : License)
    (usage : LicenseUsage) : IssueTokenInput where
  license           := license
  licenseMeta       := held license.meta_
  usage             := usage
  alg               := ctx.alg
  signingPassphrase := ctx.signingPassphrase
  ttlSeconds        := ctx.ttl
  tokenFormat       := if ctx.tokenFormat = "" then "LIC1" else ctx.tokenFormat
  forceOnlineAfter  := ctx.forceOnlineAfter.map some

def ClientContext.activated (ctx : ClientContext ρ κ) (issued : IssueTokenResult) : Json :=
  .obj ([("token", .str issued.token.toString),
      ("expires_at", .str (isoOf issued.exp)),
      ("refresh_recommended_at", .str (isoOf (refreshRecommendedAt issued.iat ctx.ttl)))] ++
    ((extractForceOnlineAfter issued.token).map fun foa => ("force_online_after", .str (isoOf foa))).toList)

-- A key of another form is the key of no license.
def findLicenseByKey (licenseKey : String) : Handler (Except Error (Option License)) :=
  match normalizeLicenseKey licenseKey with
  | none            => .pure (.ok none)
  | some normalized => Handler.attempt (.getLicenseByKey normalized)

-- The part of `handleActivate` that follows the registration.
def issueFor (fuel : Nat) (ctx : ClientContext ρ κ) (held : Json.Object → Map) (seed : ρ) (jti : String)
    (reg : RegisterUsageResult) : Handler Response := do
  match ← Handler.directly (issueToken fuel ctx.backends seed jti
    (ctx.issueInput held reg.license reg.usage)) with
  | .error e   => return writeErrorFromLicensing e
  | .ok issued => return .ok (ctx.activated issued)

def handleActivate (fuel : Nat) (ctx : ClientContext ρ κ) (held : Json.Object → Map) (seed : ρ) (jti : String)
    (body : Option (Except String ActivateBody)) : Handler Response :=
  match decodeBody body with
  | .error response => .pure response
  | .ok body =>
    if body.licenseKey = "" then .pure (.err 400 "BadRequest" "license_key is required")
    else if body.fingerprint = "" then .pure (.err 400 "BadRequest" "fingerprint is required")
    else do
      match ← findLicenseByKey body.licenseKey with
      | .error e           => return writeErrorFromLicensing e
      | .ok none           => return .err 404 "InvalidLicenseKey" "license key is invalid or unknown"
      | .ok (some license) =>
        let registration := registerUsage fuel
          { licenseId := license.id, fingerprint := body.fingerprint, clientMeta := body.clientMeta }
          (some "http:activate")
        match ← Handler.transaction registration with
        | .error e => return writeErrorFromLicensing e
        | .ok reg  => issueFor fuel ctx held seed jti reg

section Respond

variable {α β : Type}

-- Serves a request alone on the rows in memory. What it finds differs from call to call.
def respond : Handler α → (Nat → Nat → Env) → Store → Except Error α × Store
  | .pure a,                        _, s => (.ok a, s)
  | .throw e,                       _, s => (.error e, s)
  | .call (.op o) next,             ω, s =>
    respond (next (execOp (ω 0 0) o s).1) (fun n => ω (n + 1)) (execOp (ω 0 0) o s).2
  | .call (.transaction body) next, ω, s =>
    respond (next (transact (ω 0) body s).1) (fun n => ω (n + 1)) (transact (ω 0) body s).2

variable {s : Store} {f : Except Error α → Handler β}

-- Calls that are answered alike, without a change of the rows.
theorem respond_of_calls {kind : Op → Prop} {answer : (o : Op) → o.Ans}
    (h : ∀ ω o, kind o → execOp ω o s = (answer o, s)) : {p : Tx α} → p.Calls kind → (ω : Nat → Nat → Env) →
    ∃ ω', respond (Handler.directly p >>= f) ω s = respond (f (p.run answer)) ω' s
  | .pure _,   _, ω => ⟨ω, rfl⟩
  | .throw _,  _, ω => ⟨ω, rfl⟩
  | .call o _, c, ω => by
    obtain ⟨ω', ih⟩ := respond_of_calls h (c.right (answer o)) (fun n => ω (n + 1))
    refine ⟨ω', ?_⟩
    rw [run_call, ← ih, Handler.directly, call_bind, respond, h (ω 0 0) o c.left]

end Respond

section Issuance

variable {s s' : Store} {fuel : Nat} {b : KeyBackends ρ κ} {seed : ρ} {jti : String} {input : IssueTokenInput}

def ReadsKeys : Op → Prop
  | .tx (.listKeys _ _) | .tx (.getScope _) => True
  | _ => False

theorem findFirstActiveKeyFrom_calls (scopeId : Option String) (alg : KeyAlg) : (fuel : Nat) →
    (cursor : String) → (findFirstActiveKeyFrom scopeId alg fuel cursor).Calls ReadsKeys
  | 0,        _ => trivial
  | fuel + 1, _ => by
    apply Calls.bind _ (perform_calls trivial)
    intro page
    cases page.items
    case cons => trivial
    case nil  =>
      dsimp only
      split
      case isTrue  => trivial
      case isFalse => exact findFirstActiveKeyFrom_calls scopeId alg fuel _

theorem findActiveSigningKey_calls (scopeId : Option String) (alg : KeyAlg) :
    (findActiveSigningKey fuel scopeId alg).Calls ReadsKeys := by
  cases scopeId
  case none    => exact findFirstActiveKeyFrom_calls none alg fuel ""
  case some id =>
    apply Calls.bind _ (findFirstActiveKeyFrom_calls (some id) alg fuel "")
    intro key
    cases key
    case some => trivial
    case none => exact findFirstActiveKeyFrom_calls none alg fuel ""

theorem ofExcept_calls {α : Type} {kind : Op → Prop} (x : Except Error α) : (ofExcept x : Tx α).Calls kind := by
  cases x <;> trivial

theorem scopeSlug_calls (license : License) : (scopeSlug license).Calls ReadsKeys := by
  unfold scopeSlug
  cases license.scopeId
  case none    => trivial
  case some id =>
    apply Calls.bind _ (perform_calls trivial)
    intro scope
    cases scope <;> trivial

-- What follows the look at the clock.
theorem issueSigned_calls (nowISO : String) (signing : LicenseKey) :
    (issueSigned b seed jti input nowISO signing).Calls ReadsKeys := by
  apply Calls.bind _ (ofExcept_calls _)
  intro _
  apply Calls.bind _ (scopeSlug_calls _)
  intro slug
  apply Calls.bind _ (ofExcept_calls _)
  intro deadline
  apply Calls.bind _ (ofExcept_calls _)
  intro token
  trivial

theorem execOp_readsKeys (ω ω' : Env) {o : Op} (h : ReadsKeys o) : execOp ω o s = (answerOf ω' s o, s) := by
  cases o
  case tx o =>
    cases o
    case listKeys | getScope => rfl
    all_goals exact h.elim
  all_goals exact h.elim

-- An issuance changes nothing, and looks at the clock first.
theorem respond_issueToken {β : Type} {f : Except Error IssueTokenResult → Handler β} (ω : Nat → Nat → Env) :
    ∃ ω', respond (Handler.directly (issueToken fuel b seed jti input) >>= f) ω s =
      respond (f ((issueToken fuel b seed jti input).run (answerOf (ω 0 0) s))) ω' s := by
  rw [issueToken]
  cases checkUsage input
  case error e => exact ⟨ω, rfl⟩
  case ok      =>
    rw [ofExcept_ok, pure_bind, Tx.nowISO, call_bind, Handler.directly, call_bind, respond, run_call]
    apply respond_of_calls (fun ω' o => execOp_readsKeys ω' (ω 0 0))
    apply Calls.bind _ (ofExcept_calls _)
    intro _
    apply Calls.bind _ (findActiveSigningKey_calls _ _)
    intro key
    cases key
    case none => trivial
    case some => exact issueSigned_calls _ _

-- Whether a private key can sign does not depend on what is signed.
def Steady (b : KeyBackends ρ κ) (seed : ρ) : Prop :=
  ∀ alg handle data data', (∃ sig, b.sign alg handle data seed = .ok sig) →
    ∃ sig, b.sign alg handle data' seed = .ok sig

theorem run_sign {signs : List UInt8 → Except Error (List UInt8)} (data : List UInt8) :
    (sign data).run signs = signs data := by
  rw [sign, run_call, run_ofExcept]

theorem signed_of_encode {format : String} {codec : TokenCodec GoString Map} {token : GoString}
    {signs : List UInt8 → Except Error (List UInt8)} {x : CodecEncodeInput GoString Map}
    (hc : codecForFormat format = .ok codec) (h : (codec.encode x).run signs = .ok token) :
    ∃ data sig, signs data = .ok sig := by
  rw [codecForFormat] at hc
  split at hc
  case isTrue =>
    cases hc
    have h : (port.encodeLIC1 x).run signs = .ok token := h
    rw [Port.encodeLIC1, Port.encode] at h
    simp only [run_bind_eq_ok_iff, run_sign] at h
    obtain ⟨_, -, _, -, sig, hs, -⟩ := h
    exact ⟨_, sig, hs⟩
  case isFalse =>
    split at hc
    case isFalse => contradiction
    case isTrue  =>
      cases hc
      have h : (port.encodeLIC2 x).run signs = .ok token := h
      rw [Port.encodeLIC2] at h
      split at h
      case isTrue  => contradiction
      case isFalse =>
        simp only [run_bind_eq_ok_iff, run_sign] at h
        obtain ⟨_, -, _, -, sig, hs, -⟩ := h
        exact ⟨_, sig, hs⟩

theorem encodeToken_iff (steady : Steady b seed) {signing : LicenseKey} {payload : Map} :
    (∃ token, encodeToken b seed input signing payload = .ok token) ↔ CanSign b seed input signing ∧
      ∀ m ∈ writtenMembers payload, Written (writeString m.1) ∧ Written m.2 := by
  apply Iff.intro
  case mpr => exact fun h => h.left.encodeToken_ok_iff.mpr h.right
  case mp =>
    rintro ⟨token, h⟩
    have can : CanSign b seed input signing := by
      rw [encodeToken] at h
      simp only [bind_eq_ok_iff] at h
      obtain ⟨handle, hh, _, hb, codec, hc, h⟩ := h
      split at h
      case isFalse => contradiction
      case isTrue ha =>
        obtain ⟨data, hs⟩ := signed_of_encode hc h
        exact ⟨⟨handle, hh, fun data' => steady _ _ data data' hs⟩, hb, codec, hc, ha⟩
    exact ⟨can, can.encodeToken_ok_iff.mp ⟨token, h⟩⟩

-- What it takes to issue a token for a license: it is not before its start or past its end, there is a key
-- that fits and can sign, its scope is known, and the claims can be written.
structure Issuable (fuel : Nat) (b : KeyBackends ρ κ) (seed : ρ) (answer : (o : Op) → o.Ans)
    (input : IssueTokenInput) : Prop where
  status : effectiveStatus input.license (answer .nowISO) = .active ∨
    effectiveStatus input.license (answer .nowISO) = .grace
  key    : ∃ signing, (findActiveSigningKey fuel input.license.scopeId input.alg).run answer =
      .ok (some signing) ∧
    (∀ scope, signing.scopeId = some scope → input.license.scopeId = some scope) ∧
    CanSign b seed input signing
  scope  : ∀ id, input.license.scopeId = some id →
    ∃ scope, answer (.tx (.getScope id)) = .ok (some scope)
  claims : ∃ deadline, resolveForceOnlineAfter input (unixSeconds (answer .nowISO)) = .ok deadline ∧
    Writable input (unixSeconds (answer .nowISO)) deadline

theorem exists_run_issueToken_iff {answer : (o : Op) → o.Ans} (steady : Steady b seed)
    (usage : checkUsage input = .ok ()) :
    (∃ r, (issueToken fuel b seed jti input).run answer = .ok r) ↔ Issuable fuel b seed answer input := by
  apply Iff.intro
  case mp =>
    rintro ⟨r, h⟩
    obtain ⟨-, hs, signing, hk, hi⟩ := issueToken_eq_ok_iff.mp h
    obtain ⟨slug, deadline, hslug, hd, ht⟩ := hi.token
    obtain ⟨can, hw⟩ := (encodeToken_iff steady).mp ⟨_, ht⟩
    constructor
    case status => exact checkEffectiveStatus_eq_ok_iff.mp hs
    case key    => exact ⟨signing, hk, checkKeyScope_eq_ok_iff.mp hi.scope, can⟩
    case claims => exact ⟨deadline, hd, writable_iff.mp hw⟩
    case scope  =>
      intro id hid
      obtain ⟨hn, -⟩ | ⟨id', scope, hs, ha, -⟩ := run_scopeSlug_iff.mp hslug
      case inl => simp [hn] at hid
      case inr =>
        cases hid.symm.trans hs
        exact ⟨scope, ha⟩
  case mpr =>
    intro h
    obtain ⟨signing, hk, hs, can⟩ := h.key
    have slug : ∃ slug, (scopeSlug input.license).run answer = .ok slug := by
      cases hi : input.license.scopeId
      case none    => exact ⟨"", run_scopeSlug_iff.mpr (.inl ⟨hi, rfl⟩)⟩
      case some id =>
        obtain ⟨scope, ha⟩ := h.scope id hi
        exact ⟨scope.slug, run_scopeSlug_iff.mpr (.inr ⟨id, scope, hi, ha, rfl⟩)⟩
    obtain ⟨r, hr⟩ := (can.exists_issuedWith_iff (checkKeyScope_eq_ok_iff.mpr hs) slug).mpr h.claims
    exact ⟨r, issueToken_eq_ok_iff.mpr ⟨usage, checkEffectiveStatus_eq_ok_iff.mpr h.status, signing, hk, hr⟩⟩

-- The rows that an issuance reads are not those of the seats.
theorem run_issueToken_congr (keys : s'.keys = s.keys) (scopes : s'.scopes = s.scopes) (ω : Env) :
    (issueToken fuel b seed jti input).run (answerOf ω s') =
      (issueToken fuel b seed jti input).run (answerOf ω s) := by
  have same : ∀ o, ReadsKeys o ∨ o = .nowISO → answerOf ω s' o = answerOf ω s o := by
    rintro o (h | rfl)
    case inr => rfl
    case inl =>
      cases o
      case tx o =>
        cases o
        case listKeys => simp [answerOf, execOp, onState, Port.exec, Port.listKeys, keys]
        case getScope => simp [answerOf, execOp, onState, Port.exec, scopes]
        all_goals exact h.elim
      all_goals exact h.elim
  rw [issueToken]
  apply Calls.run_congr same
  apply Calls.bind _ (ofExcept_calls _)
  intro _
  refine ⟨.inr rfl, fun now => ?_⟩
  apply Calls.mono fun _ => .inl
  apply Calls.bind _ (ofExcept_calls _)
  intro _
  apply Calls.bind _ (findActiveSigningKey_calls _ _)
  intro key
  cases key
  case none => trivial
  case some => exact issueSigned_calls _ _

-- The claims are not about the seat.
theorem Issuable.of_license {answer : (o : Op) → o.Ans} {ctx : ClientContext ρ κ} {held : Json.Object → Map}
    {l l' : License} {u u' : LicenseUsage} (status : l'.status = l.status) (expiresAt : l'.expiresAt = l.expiresAt)
    (graceUntil : l'.graceUntil = l.graceUntil) (scopeId : l'.scopeId = l.scopeId)
    (maxUsages : l'.maxUsages = l.maxUsages) (meta_ : l'.meta_ = l.meta_)
    (h : Issuable fuel b seed answer (ctx.issueInput held l u)) :
    Issuable fuel b seed answer (ctx.issueInput held l' u') := by
  cases l
  cases l'
  cases status
  cases expiresAt
  cases graceUntil
  cases scopeId
  cases maxUsages
  cases meta_
  obtain ⟨signing, hk, hs, can⟩ := h.key
  obtain ⟨deadline, hd, hw⟩ := h.claims
  constructor
  case status => exact h.status
  case scope  => exact h.scope
  case key    => exact ⟨signing, hk, hs, can.handle, can.backend, can.codec⟩
  case claims =>
    exact ⟨deadline, hd, hw.issued, hw.expires, hw.maxUsages, hw.deadline, hw.entitlements, hw.meta_⟩

end Issuance

section Activation

variable {s : Store} {fuel : Nat} {ctx : ClientContext ρ κ} {held : Json.Object → Map} {seed : ρ} {jti : String}
  {body : Option (Except String ActivateBody)} {licenseKey fingerprint : String}
  {ω : Nat → Nat → Env}

-- A license as it is when its first seat is taken.
def started (l : License) : License :=
  if l.status = .pending then { l with status := .active } else l

-- A seat of a license, whatever the device.
def seatFor (l : License) : LicenseUsage where
  id           := ""
  licenseId    := l.id
  fingerprint  := ""
  status       := .active
  registeredAt := ""
  revokedAt    := none
  lastSeenAt   := ""
  clientMeta   := []
  createdAt    := ""
  updatedAt    := ""

-- The license of a request takes a new seat for the device.
structure TakesSeat (s : Store) (body : ActivateBody) (l : License) : Prop where
  row    : ∃ key, normalizeLicenseKey body.licenseKey = some key ∧ Memory.getLicenseByKey key s.toState = some l
  usable : Usable l.status
  free   : ∀ u ∈ s.usages.rows, ¬isActiveSeat l.id body.fingerprint u
  room   : (KeyRotation.seats l.id s.toState).length < l.maxUsages

-- An answer that is an error leaves the seats as they were.
def LeavesSeats (s : Store) (r : Except Error Response × Store) : Prop :=
  ∀ response, r.1 = .ok response → ¬response.IsSuccess → r.2.usages = s.usages

theorem not_isSuccess_writeError (e : Error) : ¬(writeErrorFromLicensing e).IsSuccess := by
  cases e
  case licensing c m => exact Response.not_isSuccess_err (le_errorStatus (by decide) c) _ _
  case other         => exact Response.not_isSuccess_err (by decide) _ _

theorem respond_issueFor {reg : RegisterUsageResult} : respond (issueFor fuel ctx held seed jti reg) ω s =
    (.ok (match (issueToken fuel ctx.backends seed jti (ctx.issueInput held reg.license reg.usage)).run
        (answerOf (ω 0 0) s) with
      | .error e   => writeErrorFromLicensing e
      | .ok issued => .ok (ctx.activated issued)), s) := by
  obtain ⟨ω', h⟩ := respond_issueToken (f := fun
    | .error e   => Prog.pure (writeErrorFromLicensing e)
    | .ok issued => Prog.pure (Response.ok (ctx.activated issued))) ω
  refine h.trans ?_
  cases (issueToken fuel ctx.backends seed jti (ctx.issueInput held reg.license reg.usage)).run (answerOf (ω 0 0) s)
  case error => rfl
  case ok    => rfl

theorem leavesSeats_same {r : Except Error Response} : LeavesSeats s (r, s) :=
  fun _ _ _ => rfl

theorem mem_put (u : LicenseUsage) (t : Table LicenseUsage.id) : u ∈ (t.put u).rows :=
  Rows.mem_of_find (by simp [Table.find_put] : (t.put u).find u.id = some u)

-- A new seat is left if and only if no token is issued for it.
theorem leavesSeats_taken_iff {s' : Store} {l next : License} {u : LicenseUsage} (steady : Steady ctx.backends seed)
    (free : ∀ u ∈ s.usages.rows, ¬isActiveSeat l.id fingerprint u) (seat : isActiveSeat l.id fingerprint u)
    (started_ : next = l ∧ l.status ≠ .pending ∨ l.status = .pending ∧ ∃ now clock, next =
        patchedLicense clock { status := some .active, activatedAt := some (some now) } l)
    (usages : s'.usages = s.usages.put u) (keys : s'.keys = s.keys) (scopes : s'.scopes = s.scopes) :
    LeavesSeats s (respond (issueFor fuel ctx held seed jti ⟨u, next, true⟩) ω s') ↔
      Issuable fuel ctx.backends seed (answerOf (ω 0 0) s) (ctx.issueInput held (started l) (seatFor l)) := by
  have hu : u.licenseId = l.id ∧ u.fingerprint = fingerprint ∧ u.status = .active := by
    simpa [isActiveSeat] using seat
  have hid : next.id = l.id := by
    obtain ⟨rfl, -⟩ | ⟨-, now, clock, rfl⟩ := started_
    all_goals rfl
  have usage : checkUsage (ctx.issueInput held next u) = .ok () :=
    checkUsage_eq_ok_iff.mpr ⟨ctx.ttl_pos, hu.left.trans hid.symm, hu.right.right⟩
  have moved : Issuable fuel ctx.backends seed (answerOf (ω 0 0) s) (ctx.issueInput held next u) ↔
      Issuable fuel ctx.backends seed (answerOf (ω 0 0) s) (ctx.issueInput held (started l) (seatFor l)) := by
    rw [started]
    obtain ⟨rfl, hp⟩ | ⟨hp, now, clock, rfl⟩ := started_
    case inl =>
      rw [if_neg hp]
      exact ⟨.of_license rfl rfl rfl rfl rfl rfl, .of_license rfl rfl rfl rfl rfl rfl⟩
    case inr =>
      rw [if_pos hp]
      exact ⟨.of_license rfl rfl rfl rfl rfl rfl, .of_license rfl rfl rfl rfl rfl rfl⟩
  rw [respond_issueFor, run_issueToken_congr keys scopes, ← moved, ← exists_run_issueToken_iff steady usage]
  cases (issueToken fuel ctx.backends seed jti (ctx.issueInput held next u)).run (answerOf (ω 0 0) s)
  case ok issued =>
    refine iff_of_true ?_ ⟨issued, rfl⟩
    rintro _ ⟨⟩ hn
    exact absurd (Response.isSuccess_ok _) hn
  case error e =>
    refine iff_of_false ?_ (by simp)
    intro h
    have same := usages.symm.trans (h _ rfl (not_isSuccess_writeError e))
    exact free u (same ▸ mem_put u s.usages) seat

-- What follows the look at the license.
theorem leavesSeats_registration_iff {input : RegisterUsageInput} {actor : Option String} {l : License}
    (stamped : Stamped KeyRotation.tupleOf s.usages.rows) (hf : s.usages.rows.length < fuel)
    (steady : Steady ctx.backends seed)
    (row : s.licenses.find input.licenseId = some l) {f : Except Error RegisterUsageResult → Handler Response}
    (failed : ∀ e, f (.error e) = .pure (writeErrorFromLicensing e))
    (done : ∀ reg, f (.ok reg) = issueFor fuel ctx held seed jti reg) :
    LeavesSeats s (respond (Handler.transaction (registerUsage fuel input actor) >>= f) ω s) ↔
      (Usable l.status → (∀ u ∈ s.usages.rows, ¬isActiveSeat l.id input.fingerprint u) →
        (KeyRotation.seats l.id s.toState).length < l.maxUsages →
        Issuable fuel ctx.backends seed (answerOf (ω 1 0) s) (ctx.issueInput held (started l) (seatFor l))) := by
  have hid : l.id = input.licenseId := Table.key_of_find row
  have begun : respond (Handler.transaction (registerUsage fuel input actor) >>= f) ω s =
      respond (f (transact (ω 0) (registerUsage fuel input actor) s).1) (fun n => ω (n + 1))
        (transact (ω 0) (registerUsage fuel input actor) s).2 := rfl
  have outcome : (registerUsage fuel input actor).Wp execOp (fun _ _ => True) (SeatOutcome s input) s :=
    registerUsage_outcome stamped hf actor
  have ended := outcome.transact (Finds.all (fun _ _ => trivial) _ (ω 0) _)
  rw [begun, hid]
  obtain ⟨reg, s', ht, ho⟩ | ⟨e, s', ht, ho⟩ := ended
  case inr =>
    replace ht : transact (ω 0) (registerUsage fuel input actor) s = (.error e, s) := ht
    rw [ht, failed]
    clear ht
    refine iff_of_true leavesSeats_same fun usable free room => ?_
    cases ho
    case unknown missing         => simp [missing] at row
    case unusable row' status    => cases row.symm.trans row'; exact absurd usable status
    case full row' usable' free' full => cases row.symm.trans row'; exact absurd full (Int.not_le.mpr room)
  case inl =>
    replace ht : transact (ω 0) (registerUsage fuel input actor) s = (.ok reg, s') := ht
    rw [ht, done]
    clear ht
    cases ho
    case seated l' u row' usable' found seat =>
      refine iff_of_true ?_ fun _ free => absurd seat (free u found)
      rw [respond_issueFor]
      exact leavesSeats_same
    case taken l' next u row' usable free room seat begins usages keys scopes =>
      cases row.symm.trans row'
      rw [← hid] at free seat room
      rw [leavesSeats_taken_iff steady free seat begins usages keys scopes, ← hid]
      exact ⟨fun h _ _ _ => h, fun h => h usable free room⟩

theorem findLicenseByKey_bind {key : String} {f : Except Error (Option License) → Handler Response}
    (hk : normalizeLicenseKey licenseKey = some key) : respond (findLicenseByKey licenseKey >>= f) ω s =
      respond (f (.ok (Memory.getLicenseByKey key s.toState))) (fun n => ω (n + 1)) s := by
  rw [findLicenseByKey, hk]
  rfl

-- A new seat is taken only for a license that a token can be issued for.
def TokenFollows (fuel : Nat) (ctx : ClientContext ρ κ) (held : Json.Object → Map) (seed : ρ)
    (body : Option (Except String ActivateBody)) (ω : Nat → Nat → Env) (s : Store) : Prop :=
  ∀ b, decodeBody body = .ok b → ∀ l, b.fingerprint ≠ "" → TakesSeat s b l →
    Issuable fuel ctx.backends seed (answerOf (ω 2 0) s) (ctx.issueInput held (started l) (seatFor l))

theorem handleActivate_leavesSeats_iff (stamped : Stamped KeyRotation.tupleOf s.usages.rows)
    (hf : s.usages.rows.length < fuel) (steady : Steady ctx.backends seed) :
    LeavesSeats s (respond (handleActivate fuel ctx held seed jti body) ω s) ↔
      TokenFollows fuel ctx held seed body ω s := by
  unfold handleActivate TokenFollows
  cases hb : decodeBody body
  case error r => exact iff_of_true leavesSeats_same (by simp)
  case ok b    =>
    simp only [Except.ok.injEq, forall_eq']
    split
    case isTrue he =>
      refine iff_of_true leavesSeats_same fun l _ takes => ?_
      obtain ⟨key, hk, -⟩ := takes.row
      rw [he] at hk
      contradiction
    case isFalse =>
      split
      case isTrue he => exact iff_of_true leavesSeats_same fun l hn => absurd he hn
      case isFalse hn =>
        cases hk : normalizeLicenseKey b.licenseKey
        case none =>
          refine iff_of_true ?_ fun l _ takes => ?_
          case refine_1 =>
            rw [findLicenseByKey, hk]
            exact leavesSeats_same
          case refine_2 =>
            obtain ⟨key, hk', -⟩ := takes.row
            simp [hk] at hk'
        case some key =>
          rw [findLicenseByKey_bind hk]
          have named : ∀ l, TakesSeat s b l → Memory.getLicenseByKey key s.toState = some l := by
            intro l takes
            obtain ⟨key', hk', hl⟩ := takes.row
            cases hk.symm.trans hk'
            exact hl
          cases hl : Memory.getLicenseByKey key s.toState
          case none =>
            refine iff_of_true leavesSeats_same fun l _ takes => ?_
            have := named l takes
            simp [hl] at this
          case some l =>
            have row : s.licenses.find l.id = some l := Table.find_of_mem (List.mem_of_find?_eq_some hl)
            dsimp only
            rw [leavesSeats_registration_iff stamped hf steady row (fun _ => rfl) fun _ => rfl]
            apply Iff.intro
            case mp =>
              intro h l' _ takes
              cases hl.symm.trans (named l' takes)
              exact h takes.usable takes.free takes.room
            case mpr => exact fun h usable free room => h l hn ⟨⟨key, hk, hl⟩, usable, free, room⟩

end Activation

section Registration

variable {s : Store} {fuel : Nat} {input : RegisterUsageInput} {actor : Option String} {ω : Nat → Env}
  {now : String}

-- Only a license that is not past its end takes a seat. An active one that is past it is refused as expired.
structure RegistersUsable (fuel : Nat) (input : RegisterUsageInput) (actor : Option String) (ω : Nat → Env)
    (s : Store) (now : String) : Prop where
  usable  : ∀ l r s', s.licenses.find input.licenseId = some l →
    transact ω (registerUsage fuel input actor) s = (.ok r, s') → Usable (effectiveStatus l now)
  expired : ∀ l, s.licenses.find input.licenseId = some l → l.status = .active →
    effectiveStatus l now = .expired → ∃ message,
      transact ω (registerUsage fuel input actor) s = (.error (newError .licenseExpired message), s)

-- A license that is past its end is marked as expired, or it is in grace and all its seats are taken, none of
-- them by the device.
def ShutsOut (input : RegisterUsageInput) (s : Store) (now : String) : Prop :=
  ∀ l, s.licenses.find input.licenseId = some l → effectiveStatus l now = .expired →
    l.status = .expired ∨ l.status = .grace ∧
      (∀ u ∈ s.usages.rows, ¬isActiveSeat input.licenseId input.fingerprint u) ∧
      l.maxUsages ≤ (KeyRotation.seats input.licenseId s.toState).length

theorem Usable.not_expired {status : LicenseStatus} (h : Usable status) : status ≠ .expired := by
  rintro rfl
  simp [Usable] at h

-- The clock turns a status that takes seats into no other one that does not, than the expired one.
theorem usable_effectiveStatus {l : License} (usable : Usable l.status) (h : effectiveStatus l now ≠ .expired) :
    Usable (effectiveStatus l now) := by
  by_cases hu : ∀ e, l.expiresAt = some e → now < e
  case pos => rwa [effectiveStatus_unexpired hu]
  case neg =>
    simp only [not_forall, not_lt] at hu
    obtain ⟨e, he, ht⟩ := hu
    obtain ha | hp | hg := usable
    case inr.inl =>
      rw [effectiveStatus_of_not_timed (by simp [hp]) (by simp [hp]), hp]
      exact .inr (.inl rfl)
    all_goals
      rw [effectiveStatus_expired (by simp_all) he ht] at h ⊢
      split at h
      case isTrue hc => exact if_pos hc ▸ .inr (.inr rfl)
      case isFalse   => exact absurd rfl h

theorem active_or_grace {l : License} (h : effectiveStatus l now = .expired) (hs : l.status ≠ .expired) :
    l.status = .active ∨ l.status = .grace := by
  by_contra hn
  rw [not_or] at hn
  exact hs ((effectiveStatus_of_not_timed hn.left hn.right now).symm.trans h)

theorem registersUsable_iff (stamped : Stamped KeyRotation.tupleOf s.usages.rows) (hf : s.usages.rows.length < fuel) :
    RegistersUsable fuel input actor ω s now ↔ ShutsOut input s now := by
  have outcome : (registerUsage fuel input actor).Wp execOp (fun _ _ => True) (SeatOutcome s input) s :=
    registerUsage_outcome stamped hf actor
  have ended := outcome.transact (Finds.all (fun _ _ => trivial) _ ω _)
  apply Iff.intro
  case mp =>
    intro law l row he
    by_cases hs : l.status = .expired
    case pos => exact .inl hs
    case neg =>
      right
      have timed := active_or_grace he hs
      have usable : Usable l.status := timed.imp_right .inr
      obtain ⟨reg, s', ht, -⟩ | ⟨e, s', ht, ho⟩ := ended
      case inl => exact absurd he (law.usable l reg s' row ht).not_expired
      case inr =>
        cases ho
        case unknown missing               => simp [missing] at row
        case unusable l' row' status       => cases row.symm.trans row'; exact absurd usable status
        case full l' message row' _ free full =>
          cases row.symm.trans row'
          refine ⟨timed.resolve_left fun ha => ?_, free, full⟩
          obtain ⟨message', ht'⟩ := law.expired l row ha he
          have same := congrArg Prod.fst (ht.symm.trans ht')
          simp [newError] at same
  case mpr =>
    intro h
    constructor
    case expired =>
      intro l row ha he
      obtain hs | ⟨hs, -⟩ := h l row he
      all_goals simp [ha] at hs
    case usable =>
      intro l r s' row ht
      obtain ⟨reg, s'', ht', ho⟩ | ⟨e, s'', ht', -⟩ := ended
      case inr => simp [transact, ht'] at ht
      case inl =>
        clear ht ht'
        cases ho
        case seated l' u row' usable found seat =>
          cases row.symm.trans row'
          refine usable_effectiveStatus usable fun he => ?_
          obtain hs | ⟨-, free, -⟩ := h l row he
          case inl => exact usable.not_expired hs
          case inr => exact free u found seat
        case taken l' next u row' usable free room seat begins usages keys scopes =>
          cases row.symm.trans row'
          refine usable_effectiveStatus usable fun he => ?_
          obtain hs | ⟨-, -, full⟩ := h l row he
          case inl => exact usable.not_expired hs
          case inr => exact absurd full (Int.not_le.mpr room)

end Registration

-- A registration takes a seat of a license before its end only, and an activation that fails takes none.
theorem registration_activation_iff {s : Store} {fuel : Nat} {input : RegisterUsageInput} {actor : Option String}
    {ω : Nat → Env} {now : String} {ctx : ClientContext ρ κ} {held : Json.Object → Map} {seed : ρ} {jti : String}
    {body : Option (Except String ActivateBody)} {ω' : Nat → Nat → Env}
    (stamped : Stamped KeyRotation.tupleOf s.usages.rows) (hf : s.usages.rows.length < fuel)
    (steady : Steady ctx.backends seed) :
    (RegistersUsable fuel input actor ω s now ∧
      LeavesSeats s (respond (handleActivate fuel ctx held seed jti body) ω' s)) ↔
    ShutsOut input s now ∧ TokenFollows fuel ctx held seed body ω' s :=
  and_congr (registersUsable_iff stamped hf) (handleActivate_leavesSeats_iff stamped hf steady)

def lapsedLicense : License where
  id             := "lic_1"
  scopeId        := none
  templateId     := none
  licensableType := "User"
  licensableId   := "u1"
  licenseKey     := "LIC-0000-0000-0000-0000-0000"
  status         := .active
  maxUsages      := 1
  activatedAt    := some "2025-01-01T00:00:00.000000Z"
  expiresAt      := some "2026-01-01T00:00:00.000000Z"
  graceUntil     := none
  meta_          := []
  createdAt      := "2025-01-01T00:00:00.000000Z"
  updatedAt      := "2025-01-01T00:00:00.000000Z"
  isTrial        := false

def lapsed : Store where
  licenses := (Table.ofList [] List.nodup_nil).put lapsedLicense

theorem stamped_lapsed : Stamped KeyRotation.tupleOf lapsed.usages.rows :=
  fun _ hr => absurd hr List.not_mem_nil

def newDevice : RegisterUsageInput where
  licenseId   := "lic_1"
  fingerprint := "fp"
  clientMeta  := []

-- Half a year after its end the license is still marked as active.
theorem not_shutsOut_lapsed : ¬ShutsOut newDevice lapsed "2026-06-01T00:00:00Z" := by
  intro h
  have := h lapsedLicense rfl (by decide)
  simp [lapsedLicense] at this

theorem steady_plainBackends : Steady plainBackends () :=
  fun _ _ _ data' _ => ⟨0 :: data', rfl⟩

def plainContext : ClientContext Unit Unit where
  backends          := plainBackends
  signingPassphrase := "p"

def newActivation : Option (Except String ActivateBody) :=
  some (.ok { licenseKey := "LIC-0000-0000-0000-0000-0000", fingerprint := "fp" })

def june : Env where
  clock := "2026-06-01T00:00:00Z"

theorem registration_activation_lapsed : ¬(RegistersUsable 1 newDevice none (fun _ => june) lapsed june.clock ∧
    LeavesSeats lapsed (respond (handleActivate 1 plainContext (fun _ => []) () "jti" newActivation)
      (fun _ _ => june) lapsed)) := by
  rw [registration_activation_iff stamped_lapsed (by decide) steady_plainBackends]
  exact fun h => not_shutsOut_lapsed h.left

-- The license takes a seat, and then no token is issued for it.
theorem not_registration_activation : ¬RegistersUsable 1 newDevice none (fun _ => june) lapsed june.clock ∧
    ¬LeavesSeats lapsed (respond (handleActivate 1 plainContext (fun _ => []) () "jti" newActivation)
      (fun _ _ => june) lapsed) := by
  rw [registersUsable_iff stamped_lapsed (by decide),
    handleActivate_leavesSeats_iff stamped_lapsed (by decide) steady_plainBackends]
  refine ⟨not_shutsOut_lapsed, fun h => ?_⟩
  have takes : TakesSeat lapsed { licenseKey := "LIC-0000-0000-0000-0000-0000", fingerprint := "fp" }
      lapsedLicense := by
    constructor
    case row    => exact ⟨"LIC-0000-0000-0000-0000-0000", by decide, rfl⟩
    case usable => exact .inl rfl
    case free   => exact fun u hu => absurd hu List.not_mem_nil
    case room   => decide
  have issuable := h _ rfl lapsedLicense (by decide) takes
  have expired : effectiveStatus lapsedLicense june.clock = .expired := by decide
  obtain hs | hs := issuable.status
  all_goals exact absurd (expired.symm.trans hs) (by decide)

end Go

end Licensing
