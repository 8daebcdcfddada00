import Licensing.Tokens.Codecs

-- The verification of tokens, which asks a signature backend only if every table agrees with the
-- token on the algorithm.

namespace Licensing

-- The public half of a key.
structure KeyRecord (σ : Type) where
  alg       : σ
  publicPem : String
  publicRaw : List UInt8

-- The backends are found by the algorithm that each of them has.
structure AlgorithmRegistry {σ β : Type} (alg : β → σ) where
  backends : List β
  nodup    : (backends.map alg).Nodup

structure KeyAlgBindings (σ : Type) where
  bindings : List (σ × σ)

structure VerifyOptions {σ β : Type} (alg : β → σ) where
  registry : AlgorithmRegistry alg
  bindings : KeyAlgBindings σ
  keys     : List (σ × KeyRecord σ)

def unknownKid (kid : String) : Error :=
  newError .unknownKid ("unknown kid: " ++ kid)

def algorithmMismatch (expected actual : String) : Error :=
  newError .algorithmMismatch ("alg mismatch for kid: expected " ++ expected ++ ", got " ++ actual)

section

variable {σ β : Type} [DecidableEq σ] {alg : β → σ}

namespace AlgorithmRegistry

def register (r : AlgorithmRegistry alg) (toString : σ → String) (b : β) :
    Except Error (AlgorithmRegistry alg) :=
  if h : alg b ∈ r.backends.map alg then
    .error (newError .algorithmAlreadyRegistered
      ("a backend is already registered for alg: " ++ toString (alg b)))
  else .ok {
    backends := r.backends ++ [b]
    nodup    := by
      rw [List.map_append]
      exact r.nodup.append (List.nodup_singleton _) (by simpa using h) }

def get (r : AlgorithmRegistry alg) (toString : σ → String) (a : σ) : Except Error β :=
  match r.backends.find? (alg · = a) with
  | some b => .ok b
  | none   => .error (newError .unsupportedAlgorithm ("no backend registered for alg: " ++ toString a))

theorem alg_of_get {r : AlgorithmRegistry alg} {toString : σ → String} {a : σ} {b : β}
    (h : r.get toString a = .ok b) : b ∈ r.backends ∧ alg b = a := by
  unfold get at h
  split at h
  case h_1 b' hf =>
    cases h
    exact ⟨List.mem_of_find?_eq_some hf, by simpa using List.find?_some hf⟩
  case h_2 => contradiction

theorem get_eq_ok_iff {r : AlgorithmRegistry alg} {toString : σ → String} {a : σ} {b : β} :
    r.get toString a = .ok b ↔ b ∈ r.backends ∧ alg b = a := by
  refine ⟨alg_of_get, ?_⟩
  rintro ⟨mem, rfl⟩
  have found : (r.backends.find? (alg · = alg b)).isSome :=
    List.find?_isSome.mpr ⟨b, mem, decide_eq_true rfl⟩
  obtain ⟨b', hf⟩ := Option.isSome_iff_exists.mp found
  have same : b' = b :=
    List.inj_on_of_nodup_map r.nodup (List.mem_of_find?_eq_some hf) mem (by simpa using List.find?_some hf)
  rw [get, hf, same]

end AlgorithmRegistry

def KeyAlgBindings.expect (b : KeyAlgBindings σ) (toString : σ → String) (kid a : σ) :
    Except Error σ :=
  match b.bindings.lookup kid with
  | none       => .error (unknownKid (toString kid))
  | some bound =>
    if bound ≠ a then .error (algorithmMismatch (toString bound) (toString a)) else .ok bound

theorem KeyAlgBindings.lookup_of_expect {b : KeyAlgBindings σ} {toString : σ → String} {kid a a' : σ}
    (h : b.expect toString kid a = .ok a') : b.bindings.lookup kid = some a := by
  unfold expect at h
  split at h
  case h_1 => contradiction
  case h_2 bound hb =>
    split at h
    case isTrue => contradiction
    case isFalse he => rw [hb, Decidable.not_not.mp he]

end

-- What a backend is asked. A public key is known by the handle that was imported.
inductive BackendOp (σ β κ : Type)
  | importPublic (backend : β) (record : KeyRecord σ)
  | verify (backend : β) (key : κ) (data signature : List UInt8)

def BackendOp.Ans {σ β κ : Type} : BackendOp σ β κ → Type
  | importPublic _ _ => Except Error κ
  | verify _ _ _ _   => Except Error Bool

abbrev Verification (σ β κ : Type) :=
  Prog (BackendOp σ β κ) BackendOp.Ans Error

section

variable {σ β κ P : Type} [DecidableEq σ] {alg : β → σ}

def importPublic (backend : β) (record : KeyRecord σ) : Verification σ β κ κ :=
  .call (.importPublic backend record) fun ans => .ofExcept ans

def verifySignature (backend : β) (key : κ) (data signature : List UInt8) :
    Verification σ β κ Bool :=
  .call (.verify backend key data signature) fun ans => .ofExcept ans

-- Checks the signature of a token that has been decoded.
def verifyDecoded (opts : VerifyOptions alg) (toString : σ → String) (parts : DecodedEnvelope σ P) :
    Verification σ β κ (DecodedEnvelope σ P) := do
  -- The guard against algorithm confusion comes before any backend.
  let _ ← .ofExcept (opts.bindings.expect toString parts.header.kid parts.header.alg)
  let backend ← .ofExcept (opts.registry.get toString parts.header.alg)
  match opts.keys.lookup parts.header.kid with
  | none        => .throw (unknownKid (toString parts.header.kid))
  | some record =>
    if record.alg ≠ parts.header.alg then
      .throw (algorithmMismatch (toString record.alg) (toString parts.header.alg))
    else do
      let key ← importPublic backend record
      let ok  ← verifySignature backend key parts.signingInput parts.signature
      if ok then return parts
      else .throw (newError .tokenSignatureInvalid "token signature verification failed")

-- A token that all tables know is verified if the backend takes its signature for valid.
theorem run_verifyDecoded {opts : VerifyOptions alg} {toString : σ → String}
    {parts : DecodedEnvelope σ P} {backend : β} {record : KeyRecord σ} {key : κ}
    {answer : (op : BackendOp σ β κ) → op.Ans}
    (hb : opts.bindings.bindings.lookup parts.header.kid = some parts.header.alg)
    (hr : opts.registry.get toString parts.header.alg = .ok backend)
    (hk : opts.keys.lookup parts.header.kid = some record) (ha : record.alg = parts.header.alg)
    (hi : answer (.importPublic backend record) = .ok key)
    (hv : answer (.verify backend key parts.signingInput parts.signature) = .ok true) :
    (verifyDecoded opts toString parts).run answer = .ok parts := by
  simp [verifyDecoded, KeyAlgBindings.expect, hb, hr, hk, ha, importPublic, verifySignature, hi, hv]

def Port.verifyEnvelope {α : Type} [DecidableEq α] {alg : β → List α} (p : Port α P)
    (opts : VerifyOptions alg) (token : List α) :
    Verification (List α) β κ (DecodedEnvelope (List α) P) := do
  let parts ← .ofExcept (p.decodeEnvelope token)
  verifyDecoded opts p.toString parts

end

namespace Go

variable {β κ : Type} {alg : β → GoString}

def verifyEnvelope (opts : VerifyOptions alg) (token : GoString) :
    Verification GoString β κ (DecodedEnvelope GoString Map) :=
  port.verifyEnvelope opts token

-- Accepts LIC1 only.
def verify (opts : VerifyOptions alg) (token : GoString) :
    Verification GoString β κ (DecodedEnvelope GoString Map) := do
  let parts ← .ofExcept (decodeUnverified token)
  let _     ← verifyEnvelope opts token
  return parts

end Go

def Ts.verify {β κ : Type} {alg : β → JsString} (opts : VerifyOptions alg) (token : JsString) :
    Verification JsString β κ (DecodedEnvelope JsString Value) :=
  port.verifyEnvelope opts token

-- What a token has signed, as its own segments say.
inductive Port.Signs {α P : Type} [DecidableEq α] (p : Port α P) (token : List α) :
    List UInt8 → List UInt8 → Prop
  | lic1 {name header payload sig signature} : p.literal lic1Prefix <+: token →
    token.splitOn p.dot = [name, header, payload, sig] → p.base64urlDecode sig = .ok signature →
    p.Signs token (p.lic1SigningInput header payload) signature
  | lic2 {body footer message signature footerBytes} : ¬p.literal lic1Prefix <+: token →
    token = p.literal lic2Prefix ++ body ++ p.dot :: footer →
    p.base64urlDecode body = .ok (message ++ signature) → signature.length = ed25519SigLen →
    p.base64urlDecode footer = .ok footerBytes →
    p.Signs token (lic2SigningInput message footerBytes) signature

namespace Port

variable {α P : Type} [DecidableEq α] {p : Port α P} {token : List α}
  {parts : DecodedEnvelope (List α) P}

theorem signs_of_decodeEnvelope (h : p.decodeEnvelope token = .ok parts) :
    p.Signs token parts.signingInput parts.signature := by
  cases decoded_of_decodeEnvelope h
  case lic1 hp hs _ _ hd _ _ => exact .lic1 hp hs hd
  case lic2 hn ht _ hb hl hf _ _ => exact .lic2 hn ht hb hl hf

end Port

section

variable {σ β κ P : Type} [DecidableEq σ] {alg : β → σ}

-- All tables have the algorithm of the token.
structure TablesAgree (opts : VerifyOptions alg) (header : EnvelopeHeader σ) (backend : β)
    (record : KeyRecord σ) : Prop where
  bound      : opts.bindings.bindings.lookup header.kid = some header.alg
  registered : backend ∈ opts.registry.backends
  backendAlg : alg backend = header.alg
  recorded   : opts.keys.lookup header.kid = some record
  recordAlg  : record.alg = header.alg

-- A token is verified if all tables agree on it and the backend takes its signature for valid.
theorem run_verifyDecoded_eq_ok_iff {opts : VerifyOptions alg} {toString : σ → String}
    {parts parts' : DecodedEnvelope σ P} {answer : (op : BackendOp σ β κ) → op.Ans} :
    (verifyDecoded opts toString parts).run answer = .ok parts' ↔
    parts' = parts ∧ ∃ backend record, TablesAgree opts parts.header backend record ∧
      ∃ key, answer (.importPublic backend record) = .ok key ∧
        answer (.verify backend key parts.signingInput parts.signature) = .ok true := by
  constructor
  case mp =>
    intro h
    rw [verifyDecoded] at h
    obtain ⟨_, hb, h⟩ := Prog.run_bind_eq_ok_iff.mp h
    obtain ⟨backend, hr, h⟩ := Prog.run_bind_eq_ok_iff.mp h
    rw [Prog.run_ofExcept] at hb hr
    obtain ⟨registered, backendAlg⟩ := AlgorithmRegistry.alg_of_get hr
    split at h
    case h_1 => contradiction
    case h_2 record hk =>
      split at h
      case isTrue => contradiction
      case isFalse ha =>
        obtain ⟨key, hi, h⟩ := Prog.run_bind_eq_ok_iff.mp h
        obtain ⟨ok, hv, h⟩ := Prog.run_bind_eq_ok_iff.mp h
        replace hi : answer (.importPublic backend record) = .ok key := (Prog.run_ofExcept ..).symm.trans hi
        replace hv : answer (.verify backend key parts.signingInput parts.signature) = .ok ok :=
          (Prog.run_ofExcept ..).symm.trans hv
        cases ok
        case false => contradiction
        case true =>
          cases h
          exact ⟨rfl, backend, record, ⟨KeyAlgBindings.lookup_of_expect hb, registered, backendAlg, hk,
            Decidable.not_not.mp ha⟩, key, hi, hv⟩
  case mpr =>
    rintro ⟨rfl, backend, record, agree, key, hi, hv⟩
    exact run_verifyDecoded agree.bound
      (AlgorithmRegistry.get_eq_ok_iff.mpr ⟨agree.registered, agree.backendAlg⟩) agree.recorded agree.recordAlg hi hv

-- What has been asked of the backends, most recent first.
abbrev Asked (σ β κ : Type) :=
  List (Prog.Event (BackendOp σ β κ) BackendOp.Ans Unit)

def imported (backend : β) (record : KeyRecord σ) (ans : Except Error κ) :
    Prog.Event (BackendOp σ β κ) BackendOp.Ans Unit :=
  ⟨.importPublic backend record, (), ans⟩

def verified (backend : β) (key : κ) (data signature : List UInt8) (ans : Except Error Bool) :
    Prog.Event (BackendOp σ β κ) BackendOp.Ans Unit :=
  ⟨.verify backend key data signature, (), ans⟩

-- The key is imported first, and what is verified with it is what the token has signed.
inductive MayAsk (opts : VerifyOptions alg) (parts : DecodedEnvelope σ P) :
    Asked σ β κ → BackendOp σ β κ → Prop
  | importPublic {backend record} : TablesAgree opts parts.header backend record →
    MayAsk opts parts [] (.importPublic backend record)
  | verify {backend record key} : TablesAgree opts parts.header backend record →
    MayAsk opts parts [imported backend record (.ok key)]
      (.verify backend key parts.signingInput parts.signature)

-- The last answer was that the signature is valid.
def Accepted (parts : DecodedEnvelope σ P) (asked : Asked σ β κ) : Prop :=
  ∃ backend key before,
    asked = verified backend key parts.signingInput parts.signature (.ok true) :: before

def Settled (parts : DecodedEnvelope σ P) (asked : Asked σ β κ)
    (result : Except Error (DecodedEnvelope σ P)) : Prop :=
  match result with
  | .ok parts' => parts' = parts ∧ Accepted parts asked
  | .error _   => ¬Accepted parts asked

theorem verifyDecoded_obeys (opts : VerifyOptions alg) (toString : σ → String)
    (parts : DecodedEnvelope σ P) :
    (verifyDecoded opts toString parts : Verification σ β κ _).Obeys (fun _ _ _ => True)
      (MayAsk opts parts) (Settled parts) [] := by
  have none : ¬Accepted parts ([] : Asked σ β κ) := by
    rintro ⟨_, _, _, h⟩
    contradiction
  unfold verifyDecoded
  cases hb : opts.bindings.expect toString parts.header.kid parts.header.alg
  case error => exact none
  case ok =>
    cases hr : opts.registry.get toString parts.header.alg
    case error => exact none
    case ok backend =>
      simp only [Prog.ofExcept_ok, Prog.pure_bind]
      cases hk : opts.keys.lookup parts.header.kid
      case none => exact none
      case some record =>
        dsimp only
        split
        case isTrue => exact none
        case isFalse ha =>
          have ⟨registered, backendAlg⟩ := AlgorithmRegistry.alg_of_get hr
          have agree : TablesAgree opts parts.header backend record :=
            ⟨KeyAlgBindings.lookup_of_expect hb, registered, backendAlg, hk, Decidable.not_not.mp ha⟩
          refine ⟨.importPublic agree, fun _ key _ => ?_⟩
          match key with
          | .error _ =>
            rintro ⟨_, _, _, h⟩
            cases h
          | .ok key  =>
            refine ⟨.verify agree, fun _ ok _ => ?_⟩
            match ok with
            | .ok true  => exact ⟨rfl, _, _, _, rfl⟩
            | .ok false | .error _ =>
              rintro ⟨_, _, _, h⟩
              cases h

end

namespace Port

variable {α β κ P : Type} [DecidableEq α] {alg : β → List α}

def MayAsk (p : Port α P) (opts : VerifyOptions alg) (token : List α) (asked : Asked (List α) β κ)
    (op : BackendOp (List α) β κ) : Prop :=
  ∃ parts, p.decodeEnvelope token = .ok parts ∧ p.Signs token parts.signingInput parts.signature ∧
    Licensing.MayAsk opts parts asked op

def Settled (p : Port α P) (token : List α) (asked : Asked (List α) β κ)
    (result : Except Error (DecodedEnvelope (List α) P)) : Prop :=
  match result with
  | .ok parts => p.decodeEnvelope token = .ok parts ∧ Accepted parts asked
  | .error _  => ∀ parts, p.decodeEnvelope token = .ok parts → ¬Accepted parts asked

theorem verifyEnvelope_obeys (p : Port α P) (opts : VerifyOptions alg) (token : List α) :
    (p.verifyEnvelope opts token : Verification (List α) β κ _).Obeys (fun _ _ _ => True)
      (p.MayAsk opts token) (p.Settled token) [] := by
  unfold verifyEnvelope
  cases hd : p.decodeEnvelope token
  case error =>
    intro parts h
    cases hd.symm.trans h
  case ok parts =>
    refine (verifyDecoded_obeys opts p.toString parts).imp (fun _ _ _ => id) ?_ ?_
    · exact fun _ _ h => ⟨parts, hd, signs_of_decodeEnvelope hd, h⟩
    · rintro asked (_ | _) h
      case error =>
        intro parts' hd'
        cases hd.symm.trans hd'
        exact h
      case ok => exact ⟨h.1 ▸ hd, h.1 ▸ h.2⟩

end Port

-- A verified token is one that has been decoded.
theorem Port.decodeEnvelope_of_run {α β κ P : Type} [DecidableEq α] {alg : β → List α}
    {p : Port α P} {opts : VerifyOptions alg} {token : List α} {parts : DecodedEnvelope (List α) P}
    {answer : (op : BackendOp (List α) β κ) → op.Ans}
    (h : (p.verifyEnvelope opts token).run answer = .ok parts) : p.decodeEnvelope token = .ok parts := by
  obtain ⟨_, hs⟩ : ∃ asked, p.Settled token asked ((p.verifyEnvelope opts token).run answer) :=
    (p.verifyEnvelope_obeys opts token).run fun _ => ⟨(), trivial⟩
  rw [h] at hs
  exact hs.1

theorem Go.decodeEnvelope_of_decodeUnverified {token : GoString}
    {parts : DecodedEnvelope GoString Map} (h : decodeUnverified token = .ok parts) :
    port.decodeEnvelope token = .ok parts := by
  obtain ⟨codec, hc, h⟩ := bind_eq_ok_iff.mp h
  split at h
  case isTrue => contradiction
  case isFalse hp =>
    have hcodec : codec = port.lic1Codec := by
      rw [codecFor, Port.codecFor_eq] at hc
      split at hc
      case isTrue =>
        cases hc
        rfl
      case isFalse =>
        split at hc
        case isTrue =>
          cases hc
          exact absurd (by decide) hp
        case isFalse => contradiction
    exact bind_eq_ok_iff.mpr ⟨codec, hc, hcodec ▸ h⟩

theorem Go.verify_obeys {β κ : Type} {alg : β → GoString} (opts : VerifyOptions alg)
    (token : GoString) : (verify opts token : Verification GoString β κ _).Obeys (fun _ _ _ => True)
      (port.MayAsk opts token) (port.Settled token) [] := by
  unfold verify
  cases hd : decodeUnverified token
  case error e =>
    rintro parts _ ⟨_, _, _, h⟩
    cases h
  case ok parts =>
    have hp := decodeEnvelope_of_decodeUnverified hd
    simp only [Prog.ofExcept_ok, Prog.pure_bind]
    refine Prog.Obeys.bind <| (port.verifyEnvelope_obeys opts token).mono ?_
    rintro asked (_ | parts') h
    case error => exact h
    case ok =>
      obtain ⟨hp', ha⟩ := h
      cases hp.symm.trans hp'
      exact ⟨hp, ha⟩

-- A backend is asked only for the algorithm that the token and all tables have, and only about what
-- the token has signed. A token is accepted if and only if the backend says so in the end.
theorem verify_confined {β κ : Type} :
    (∀ {alg : β → Go.GoString} (opts : VerifyOptions alg) token,
      (Go.verifyEnvelope opts token : Verification _ β κ _).Obeys (fun _ _ _ => True)
        (Go.port.MayAsk opts token) (Go.port.Settled token) []) ∧
    (∀ {alg : β → Go.GoString} (opts : VerifyOptions alg) token,
      (Go.verify opts token : Verification _ β κ _).Obeys (fun _ _ _ => True)
        (Go.port.MayAsk opts token) (Go.port.Settled token) []) ∧
    (∀ {alg : β → Ts.JsString} (opts : VerifyOptions alg) token,
      (Ts.verify opts token : Verification _ β κ _).Obeys (fun _ _ _ => True)
        (Ts.port.MayAsk opts token) (Ts.port.Settled token) []) :=
  ⟨Go.port.verifyEnvelope_obeys, Go.verify_obeys, Ts.port.verifyEnvelope_obeys⟩

end Licensing
