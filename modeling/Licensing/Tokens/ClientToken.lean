import Licensing.Tokens.Payload

-- The tokens that clients present: a verified token is accepted inside its window only.

namespace Licensing

open JsonText

structure StoredKey (σ : Type) where
  kid       : σ
  alg       : σ
  publicPem : String

-- What the check of a token asks for. The clock is read in whole seconds.
inductive ClientOp (σ β κ : Type)
  | getKeyByKid (kid : σ)
  | backend (op : BackendOp σ β κ)
  | nowSec

@[reducible]
def ClientOp.Ans {σ β κ : Type} : ClientOp σ β κ → Type
  | getKeyByKid _ => Except Error (Option (StoredKey σ))
  | backend op    => op.Ans
  | nowSec        => Int

abbrev ClientCheck (σ β κ : Type) :=
  Prog (ClientOp σ β κ) ClientOp.Ans Error

section

variable {σ β κ α : Type}

def askStore (kid : σ) : ClientCheck σ β κ (Option (StoredKey σ)) :=
  .call (.getKeyByKid kid) fun ans => .ofExcept ans

def nowSec : ClientCheck σ β κ Int :=
  .call .nowSec .pure

def askBackends (p : Verification σ β κ α) : ClientCheck σ β κ α :=
  p.translate fun op => .call (.backend op) .pure

-- The store and the backends of a server.
structure Server (σ β κ : Type) where
  keyByKid     : σ → Except Error (Option (StoredKey σ))
  importPublic : β → KeyRecord σ → Except Error κ
  verify       : β → κ → List UInt8 → List UInt8 → Except Error Bool

def Server.backend (s : Server σ β κ) : (op : BackendOp σ β κ) → op.Ans
  | .importPublic b record       => s.importPublic b record
  | .verify b key data signature => s.verify b key data signature

def Server.answer (s : Server σ β κ) (now : Int) : (op : ClientOp σ β κ) → op.Ans
  | .getKeyByKid kid => s.keyByKid kid
  | .backend op      => s.backend op
  | .nowSec          => now

@[simp]
theorem run_nowSec (s : Server σ β κ) (now : Int) :
    (nowSec : ClientCheck σ β κ Int).run (s.answer now) = .ok now :=
  rfl

theorem run_askBackends (s : Server σ β κ) (now : Int) (p : Verification σ β κ α) :
    (askBackends p).run (s.answer now) = p.run s.backend :=
  Prog.run_translate (fun _ => rfl) p

end

theorem lookup_singleton_eq_some_iff {κ α : Type} [DecidableEq κ] {k k' : κ} {a a' : α} :
    [(k, a)].lookup k' = some a' ↔ k' = k ∧ a = a' := by
  rw [List.lookup_cons]
  cases h : k' == k
  case false => simp [beq_eq_false_iff_ne.mp h]
  case true  => simp [eq_of_beq h]

namespace Go

variable {β κ : Type} {alg : β → GoString}

-- A `time.Duration` counts nanoseconds.
def durationSeconds (d : Int64) : Binary64 :=
  let nsec := (d % 1000000000).toInt
  (Binary64.ofInt (d / 1000000000).toInt).add
    (.rounded (nsec < 0) (nsec.natAbs * Binary64.one) 1000000000)

-- The part of `verifyClientToken` that checks the signature, with a table of one key.
def verifyStored (backends : AlgorithmRegistry alg) (token : GoString) :
    ClientCheck GoString β κ (DecodedEnvelope GoString Map) := do
  let head ← .ofExcept (decodeEnvelope token)
  match ← askStore head.header.kid with
  | none        => .throw (unknownKid (GoString.toString head.header.kid))
  | some record =>
    let opts : VerifyOptions alg := {
      registry := backends
      bindings := ⟨[(record.kid, record.alg)]⟩
      keys     := [(record.kid, ⟨record.alg, record.publicPem, []⟩)] }
    askBackends (verifyEnvelope opts token)

def verifyClientToken (backends : AlgorithmRegistry alg) (token : GoString)
    (allowExpiredWithin : Int64) : ClientCheck GoString β κ (DecodedEnvelope GoString Map) := do
  let parts ← verifyStored backends token
  let now   ← nowSec
  let now   := Int64.ofInt now
  let early := (parts.payload.as "nbf" Value.asFloat64).any fun nbf => now < toInt64 nbf
  let late  := (parts.payload.as "exp" Value.asFloat64).any fun exp =>
    toInt64 exp + toInt64 (durationSeconds allowExpiredWithin) ≤ now
  if early then .throw (newError .tokenMalformed "token not yet valid (nbf in future)")
  else if late then .throw (newError .tokenExpired "token is expired")
  else return parts

-- The window is configured in seconds, as a lifetime of tokens.
def Accepts (backends : AlgorithmRegistry alg) (server : Server GoString β κ) (now : Int)
    (token : GoString) (grace : Int64) : Prop :=
  ∃ parts, (verifyClientToken backends token (grace * 1000000000)).run (server.answer now) = .ok parts

-- The signed integers of the payload, as far as it has them, are around the clock.
structure Map.InWindow (m : Map) (now grace : Int) : Prop where
  nbf : ∀ n, (m.as "nbf" Value.asNumber).bind (integer? ·.toList) = some n → n ≤ now
  exp : ∀ n, (m.as "exp" Value.asNumber).bind (integer? ·.toList) = some n → now < n + grace

-- Numbers are read as literals, never as floats.
theorem asFloat64_ofMembers (ms : List (List Piece × Raw)) (key : String) :
    (ofMembers ms).as key Value.asFloat64 = none := by
  have member raw : (ofRaw raw).asFloat64 = none := by
    cases raw <;> rfl
  induction ms
  case nil => rfl
  case cons m ms ih =>
    rw [ofMembers, Map.as, List.lookup_cons]
    split
    case h_1 => exact member m.2
    case h_2 => exact ih

theorem asFloat64_of_decodeEnvelope {token : GoString} {parts : DecodedEnvelope GoString Map}
    (h : decodeEnvelope token = .ok parts) (key : String) :
    parts.payload.as key Value.asFloat64 = none := by
  have parsed {b o} (h : parseJSONObject b "payload" = .ok o) : o.as key Value.asFloat64 = none := by
    obtain ⟨_, ms, _, _, _, _, _, rfl⟩ := parseJSONObject_eq_ok_iff.mp h
    exact asFloat64_ofMembers ms key
  cases Port.decoded_of_decodeEnvelope h
  case lic1 ho   => exact parsed ho
  case lic2 hm => exact parsed hm

theorem decodeEnvelope_of_verifyStored {backends : AlgorithmRegistry alg} {token : GoString}
    {server : Server GoString β κ} {now : Int} {parts : DecodedEnvelope GoString Map}
    (h : (verifyStored backends token).run (server.answer now) = .ok parts) :
    decodeEnvelope token = .ok parts := by
  rw [verifyStored, Prog.run_bind] at h
  obtain ⟨_, _, h⟩ := bind_eq_ok_iff.mp h
  rw [Prog.run_bind] at h
  obtain ⟨record, _, h⟩ := bind_eq_ok_iff.mp h
  split at h
  case h_1 => contradiction
  case h_2 =>
    rw [run_askBackends] at h
    exact Port.decodeEnvelope_of_run h

-- The token names the stored key, and its signature is one of that key as the public half tells.
structure SignedBy (backends : AlgorithmRegistry alg) (importPublic : β → KeyRecord GoString → Except Error κ)
    (verify : β → κ → List UInt8 → List UInt8 → Except Error Bool) (record : StoredKey GoString)
    (parts : DecodedEnvelope GoString Map) : Prop where
  header    : parts.header = ⟨record.alg, record.kid⟩
  signature : ∃ b ∈ backends.backends, alg b = record.alg ∧ ∃ key,
    importPublic b ⟨record.alg, record.publicPem, []⟩ = .ok key ∧
      verify b key parts.signingInput parts.signature = .ok true

theorem verifyStored_eq_ok_iff {backends : AlgorithmRegistry alg} {token : GoString}
    {server : Server GoString β κ} {now : Int} {parts : DecodedEnvelope GoString Map} :
    (verifyStored backends token).run (server.answer now) = .ok parts ↔
    decodeEnvelope token = .ok parts ∧ ∃ record, server.keyByKid parts.header.kid = .ok (some record) ∧
      SignedBy backends server.importPublic server.verify record parts := by
  constructor
  case mp =>
    intro h
    have decoded := decodeEnvelope_of_verifyStored h
    refine ⟨decoded, ?_⟩
    rw [verifyStored, decoded, Prog.ofExcept_ok, Prog.pure_bind] at h
    obtain ⟨record?, hk, h⟩ := Prog.run_bind_eq_ok_iff.mp h
    rw [askStore, Prog.run_call, Prog.run_ofExcept] at hk
    cases record?
    case none => contradiction
    case some record =>
      rw [run_askBackends, verifyEnvelope, Port.verifyEnvelope, show port.decodeEnvelope token = _ from decoded,
        Prog.ofExcept_ok, Prog.pure_bind, run_verifyDecoded_eq_ok_iff] at h
      obtain ⟨-, b, record', agree, key, hi, hv⟩ := h
      obtain ⟨bound, registered, backendAlg, recorded, recordAlg⟩ := agree
      obtain ⟨kid, alg⟩ := lookup_singleton_eq_some_iff.mp bound
      obtain ⟨-, rfl⟩ := lookup_singleton_eq_some_iff.mp recorded
      refine ⟨record, hk, ?_, b, registered, backendAlg.trans alg.symm, key, hi, hv⟩
      rw [← kid, alg]
  case mpr =>
    rintro ⟨decoded, record, hk, header, b, registered, backendAlg, key, hi, hv⟩
    rw [verifyStored, decoded, Prog.ofExcept_ok, Prog.pure_bind]
    refine Prog.run_bind_eq_ok_iff.mpr ⟨some record, ?_, ?_⟩
    case refine_1 => exact (Prog.run_ofExcept ..).trans hk
    case refine_2 =>
      rw [run_askBackends, verifyEnvelope, Port.verifyEnvelope, show port.decodeEnvelope token = _ from decoded,
        Prog.ofExcept_ok, Prog.pure_bind, run_verifyDecoded_eq_ok_iff]
      refine ⟨rfl, b, _, ⟨?_, registered, ?_, ?_, ?_⟩, key, hi, hv⟩
      all_goals simp [header, backendAlg]

-- No verified token is rejected.
theorem accepts_of_verifyStored {backends : AlgorithmRegistry alg} {token : GoString}
    {server : Server GoString β κ} {now : Int} {parts : DecodedEnvelope GoString Map}
    (h : (verifyStored backends token).run (server.answer now) = .ok parts) (grace : Int64) :
    Accepts backends server now token grace := by
  have hf := asFloat64_of_decodeEnvelope (decodeEnvelope_of_verifyStored h)
  refine ⟨parts, ?_⟩
  rw [verifyClientToken, Prog.run_bind, h]
  simp [Prog.run_bind, hf]

end Go

namespace Ts

variable {β κ : Type} {alg : β → JsString}

def verifyStored (alg : β → JsString) (backends : List (JsString × β)) (token : JsString) :
    ClientCheck JsString β κ (DecodedEnvelope JsString Value) := do
  let head ← .ofExcept (decodeUnverified token)
  match ← askStore head.header.kid with
  | none        => .throw (unknownKid head.header.kid.toString)
  | some stored =>
    match backends.lookup stored.alg with
    | none         => .throw (newError .unsupportedAlgorithm
        ("backend missing for alg: " ++ JsString.toString stored.alg))
    | some backend =>
      let opts : VerifyOptions alg := {
        registry := ⟨[backend], List.nodup_singleton _⟩
        bindings := ⟨[(stored.kid, stored.alg)]⟩
        keys     := [(stored.kid, ⟨stored.alg, stored.publicPem, []⟩)] }
      askBackends (verify opts token)

def verifyClientToken (alg : β → JsString) (backends : List (JsString × β)) (token : JsString)
    (allowExpiredWithinSec : Binary64) : ClientCheck JsString β κ (DecodedEnvelope JsString Value) := do
  let parts ← verifyStored alg backends token
  let now   ← nowSec
  let now   := Binary64.ofInt now
  let early := ((parts.payload.get? "nbf").bind Value.asNumber).any fun nbf => now.lt nbf
  let late  := ((parts.payload.get? "exp").bind Value.asNumber).any fun exp =>
    (exp.add allowExpiredWithinSec).le now
  if early then .throw (newError .tokenMalformed "token not yet valid (nbf in future)")
  else if late then .throw (newError .tokenExpired "token is expired")
  else return parts

def Accepts (alg : β → JsString) (backends : List (JsString × β)) (server : Server JsString β κ)
    (now : Int) (token : JsString) (grace : Binary64) : Prop :=
  ∃ parts, (verifyClientToken alg backends token grace).run (server.answer now) = .ok parts

-- The numbers of the payload, as far as it has them, are around the clock.
structure Value.InWindow (v : Value) (now grace : Binary64) : Prop where
  nbf : ∀ x, (v.get? "nbf").bind asNumber = some x → ¬now.lt x
  exp : ∀ x, (v.get? "exp").bind asNumber = some x → ¬(x.add grace).le now

theorem Value.inWindow_iff {v : Value} {now grace : Binary64} : v.InWindow now grace ↔
    ((v.get? "nbf").bind asNumber).any (fun nbf => now.lt nbf) = false ∧
    ((v.get? "exp").bind asNumber).any (fun exp => (exp.add grace).le now) = false := by
  refine ⟨fun h => ⟨?_, ?_⟩, fun h => ⟨fun x hx => ?_, fun x hx => ?_⟩⟩
  case refine_1 => simpa [Option.any_eq_false] using h.nbf
  case refine_2 => simpa [Option.any_eq_false] using h.exp
  case refine_3 => simpa [hx] using h.1
  case refine_4 => simpa [hx] using h.2

theorem accepts_iff_of_verifyStored {backends : List (JsString × β)} {token : JsString}
    {server : Server JsString β κ} {now : Int} {parts : DecodedEnvelope JsString Value}
    (h : (verifyStored alg backends token).run (server.answer now) = .ok parts)
    (grace : Binary64) : Accepts alg backends server now token grace ↔
      parts.payload.InWindow (.ofInt now) grace := by
  rw [Accepts, verifyClientToken, Prog.run_bind, h, Value.inWindow_iff]
  simp only [ok_bind, Prog.run_bind, run_nowSec]
  split
  case isTrue he => simp [he]
  case isFalse he =>
    split
    case isTrue hl => simp [hl]
    case isFalse hl => exact iff_of_true ⟨parts, rfl⟩ ⟨by simpa using he, by simpa using hl⟩

end Ts

-- The window of a verified token is checked by one port only.
theorem accepts_iff_inWindow {β κ β' κ' : Type} {alg : β → Go.GoString} {alg' : β' → Ts.JsString}
    {goBackends : AlgorithmRegistry alg} {tsBackends : List (Ts.JsString × β')}
    {goServer : Server Go.GoString β κ} {tsServer : Server Ts.JsString β' κ'} {token : String}
    {now : Int} {goParts : DecodedEnvelope Go.GoString Go.Map}
    {tsParts : DecodedEnvelope Ts.JsString Ts.Value}
    (hg : (Go.verifyStored goBackends (Bytes.ofString token)).run (goServer.answer now) = .ok goParts)
    (ht : (Ts.verifyStored alg' tsBackends (.ofString token)).run (tsServer.answer now) =
      .ok tsParts) (grace : Int64) :
    (Go.Accepts goBackends goServer now (Bytes.ofString token) grace →
        goParts.payload.InWindow now grace.toInt) ∧
      (Go.Accepts goBackends goServer now (Bytes.ofString token) grace ↔
        Ts.Accepts alg' tsBackends tsServer now (.ofString token) (.ofInt grace.toInt)) ↔
    goParts.payload.InWindow now grace.toInt ∧
      tsParts.payload.InWindow (.ofInt now) (.ofInt grace.toInt) := by
  have hgo := Go.accepts_of_verifyStored hg grace
  have hts := Ts.accepts_iff_of_verifyStored ht (.ofInt grace.toInt)
  simp only [hgo, hts, true_imp_iff, true_iff]

-- A payload that says that it expires with the first second.
def expiringData : Data :=
  .obj [("exp".toList, .int 0)]

theorem encodes_expiringData : Encodes expiringData (bytesOf expiringData.normal.text) :=
  have hs : (0 : Int).natAbs < 2 ^ 53 := by decide
  ⟨rfl, ⟨List.nodup_singleton _, trivial, trivial⟩, ⟨hs, trivial⟩, rfl⟩

-- A server with one key, which takes every signature for valid.
def trusting {σ : Type} (kid alg : σ) : Server σ Unit Unit where
  keyByKid _       := .ok (some ⟨kid, alg, ""⟩)
  importPublic _ _ := .ok ()
  verify _ _ _ _   := .ok true

namespace Go

def trusted : AlgorithmRegistry fun _ : Unit => Bytes.ofString "ed25519" :=
  ⟨[()], List.nodup_singleton _⟩

def trustingServer : Server GoString Unit Unit :=
  trusting (Bytes.ofString "k1") (Bytes.ofString "ed25519")

theorem verifyStored_trusted {token : GoString} {parts : DecodedEnvelope GoString Map}
    (h : decodeEnvelope token = .ok parts)
    (hd : parts.header = ⟨Bytes.ofString "ed25519", Bytes.ofString "k1"⟩) (now : Int) :
    (verifyStored trusted token).run (trustingServer.answer now) = .ok parts := by
  rw [verifyStored, h]
  change (askBackends (port.verifyEnvelope (singleKey _ _) token)).run _ = _
  rw [run_askBackends]
  exact Port.run_verifyEnvelope_singleKey h (by rw [hd]) (fun _ => rfl) (fun _ _ => rfl)

theorem verifyStored_expiring (now : Int) : ∃ parts,
    (verifyStored trusted (Bytes.ofString (sampleToken expiringData))).run
      (trustingServer.answer now) = .ok parts ∧
    parts.payload = [(Bytes.ofString "exp", .number "0")] := by
  obtain ⟨parts, he, hh, hp⟩ := decodeEnvelope_sampleToken encodes_expiringData rfl
  exact ⟨parts, verifyStored_trusted he hh now, hp⟩

end Go

namespace Ts

def trusted : List (JsString × Unit) :=
  [(.ofString "ed25519", ())]

def trustingServer : Server JsString Unit Unit :=
  trusting (.ofString "k1") (.ofString "ed25519")

theorem verifyStored_trusted {token : JsString} {parts : DecodedEnvelope JsString Value}
    (h : decodeUnverified token = .ok parts)
    (hd : parts.header = ⟨.ofString "ed25519", .ofString "k1"⟩) (now : Int) :
    (verifyStored (fun _ => .ofString "ed25519") trusted token).run (trustingServer.answer now) =
      .ok parts := by
  rw [verifyStored, h]
  change (askBackends (port.verifyEnvelope (singleKey _ _) token)).run _ = _
  rw [run_askBackends]
  exact Port.run_verifyEnvelope_singleKey h (by rw [hd]) (fun _ => rfl) (fun _ _ => rfl)

theorem verifyStored_expiring (now : Int) : ∃ parts,
    (verifyStored (fun _ => .ofString "ed25519") trusted (.ofString (sampleToken expiringData))).run
      (trustingServer.answer now) = .ok parts := by
  obtain ⟨parts, he, hh, _⟩ :=
    decodeUnverified_sampleToken encodes_expiringData rfl ⟨⟨by decide, trivial⟩, trivial⟩
  exact ⟨parts, verifyStored_trusted he hh now⟩

end Ts

-- A second after it has expired.
theorem not_inWindow_expiring : ¬Go.Map.InWindow [(Bytes.ofString "exp", .number "0")] 1 0 := by
  intro h
  have he := h.exp 0 rfl
  contradiction

theorem accepts_iff_inWindow_expiring :
    ¬((Go.Accepts Go.trusted Go.trustingServer 1 (Bytes.ofString (sampleToken expiringData)) 0 →
        Go.Map.InWindow [(Bytes.ofString "exp", .number "0")] 1 0) ∧
      (Go.Accepts Go.trusted Go.trustingServer 1 (Bytes.ofString (sampleToken expiringData)) 0 ↔
        Ts.Accepts (fun _ => .ofString "ed25519") Ts.trusted Ts.trustingServer 1
          (.ofString (sampleToken expiringData)) (.ofInt 0))) := by
  obtain ⟨goParts, hg, hp⟩ := Go.verifyStored_expiring 1
  obtain ⟨_, ht⟩ := Ts.verifyStored_expiring 1
  have h := accepts_iff_inWindow hg ht 0
  rw [hp] at h
  exact fun hn => not_inWindow_expiring (h.mp hn).1

theorem not_accepts_inWindow :
    ¬∀ (token : String) (now : Int) (grace : Int64) goParts tsParts,
      (Go.verifyStored Go.trusted (Bytes.ofString token)).run (Go.trustingServer.answer now) =
        .ok goParts →
      (Ts.verifyStored (fun _ => .ofString "ed25519") Ts.trusted (.ofString token)).run
        (Ts.trustingServer.answer now) = .ok tsParts →
      (Go.Accepts Go.trusted Go.trustingServer now (Bytes.ofString token) grace →
        goParts.payload.InWindow now grace.toInt) ∧
      (Go.Accepts Go.trusted Go.trustingServer now (Bytes.ofString token) grace ↔
        Ts.Accepts (fun _ => .ofString "ed25519") Ts.trusted Ts.trustingServer now (.ofString token)
          (.ofInt grace.toInt)) := by
  intro h
  obtain ⟨goParts, hg, hp⟩ := Go.verifyStored_expiring 1
  obtain ⟨tsParts, ht⟩ := Ts.verifyStored_expiring 1
  have hw := (h _ 1 0 goParts tsParts hg ht).1 (Go.accepts_of_verifyStored hg 0)
  rw [hp] at hw
  exact not_inWindow_expiring hw

end Licensing
