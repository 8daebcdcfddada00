import Licensing.Tokens.TokenRoundTrip
import Licensing.Tokens.Verify

-- The bytes that are signed: those of LIC1, those of LIC2, and the attestations of signing keys.

namespace Licensing

open JsonText

-- The bytes that a codec hands over for a signature, or for the check of one.
inductive Port.Signed {α P : Type} [DecidableEq α] (p : Port α P) (codec : TokenCodec (List α) P) :
    List UInt8 → Prop
  | encoded {input signed next} : codec.encode input = .call signed next → p.Signed codec signed
  | decoded {token parts} : p.codecFor token = .ok codec → codec.decode token = .ok parts →
    p.Signed codec parts.signingInput

def Go.attestationCanonical (kid alg : GoString) (publicRaw : List UInt8) (notBefore : GoString)
    (notAfter : Option GoString) : Except Error (List UInt8) :=
  canonicalize <| .map [
    (Bytes.ofString "kid", .string kid),
    (Bytes.ofString "alg", .string alg),
    (Bytes.ofString "pub", .string (Bytes.ofString (base64urlEncode publicRaw))),
    (Bytes.ofString "not_before", .string notBefore),
    (Bytes.ofString "not_after", notAfter.elim .nil .string)]

def Ts.attestationCanonical (kid alg : JsString) (publicRaw : List UInt8) (notBefore : JsString)
    (notAfter : Option JsString) : Except Error (List UInt8) :=
  canonicalize <| .object [
    (.ofString "kid", .string kid),
    (.ofString "alg", .string alg),
    (.ofString "pub", .string (.ofString (base64urlEncode publicRaw))),
    (.ofString "not_before", .string notBefore),
    (.ofString "not_after", notAfter.elim .null .string)] none

inductive Context
  | lic1
  | lic2
  | attestation

-- The ports have the same keys, so a context has the bytes of both.
inductive SignedIn : Context → List UInt8 → Prop
  | goEncode {header payload b next} : Go.encode header payload = .call b next → SignedIn .lic1 b
  | goLIC1 {b} : Go.port.Signed Go.port.lic1Codec b → SignedIn .lic1 b
  | tsLIC1 {b} : Ts.port.Signed Ts.port.lic1Codec b → SignedIn .lic1 b
  | goLIC2 {b} : Go.port.Signed Go.port.lic2Codec b → SignedIn .lic2 b
  | tsLIC2 {b} : Ts.port.Signed Ts.port.lic2Codec b → SignedIn .lic2 b
  | goAttestation {kid alg publicRaw notBefore notAfter b} :
    Go.attestationCanonical kid alg publicRaw notBefore notAfter = .ok b → SignedIn .attestation b
  | tsAttestation {kid alg publicRaw notBefore notAfter b} :
    Ts.attestationCanonical kid alg publicRaw notBefore notAfter = .ok b → SignedIn .attestation b

namespace Port

variable {α P : Type} [DecidableEq α] {p : Port α P} {b : List UInt8}

omit [DecidableEq α] in
theorem signed_of_encode {header : Except Error (List UInt8)} {payload : P}
    {next : Except Error (List UInt8) → Signing (List α)} (h : p.encode header payload = .call b next) :
    ∃ header payload, b = p.lic1SigningInput (p.literal (p.base64urlEncode header)) payload := by
  unfold encode at h
  cases header
  case error => cases h
  case ok =>
    cases hp : p.canonicalize payload
    case error =>
      rw [hp] at h
      cases h
    case ok =>
      rw [hp] at h
      cases h
      exact ⟨_, _, rfl⟩

theorem lic1_of_signed (h : p.Lawful) (hs : p.Signed p.lic1Codec b) :
    ∃ header payload bytes, b = p.lic1SigningInput header payload ∧ p.base64urlDecode header = .ok bytes := by
  cases hs
  case encoded input next he =>
    obtain ⟨_, _, rfl⟩ := signed_of_encode he
    exact ⟨_, _, _, rfl, h.decode _⟩
  case decoded token parts hc hd =>
    simp only [lic1Codec, decodeLIC1] at hd
    split at hd
    case h_1 =>
      obtain ⟨_, hh, hd⟩ := bind_eq_ok_iff.mp hd
      obtain ⟨_, _, hd⟩ := bind_eq_ok_iff.mp hd
      obtain ⟨_, _, hd⟩ := bind_eq_ok_iff.mp hd
      obtain ⟨_, _, hd⟩ := bind_eq_ok_iff.mp hd
      obtain ⟨_, _, hd⟩ := bind_eq_ok_iff.mp hd
      cases hd
      exact ⟨_, _, _, rfl, hh⟩
    case h_2 => contradiction

theorem lic2_of_signed (hs : p.Signed p.lic2Codec b) : ∃ message footer, b = lic2SigningInput message footer := by
  cases hs
  case encoded input next he =>
    simp only [lic2Codec, encodeLIC2] at he
    split at he
    case isTrue => cases he
    case isFalse =>
      cases hp : p.canonicalize input.payload
      case error =>
        rw [hp] at he
        cases he
      case ok =>
        cases hf : p.footerBytes input.kid
        case error =>
          rw [hp, hf] at he
          cases he
        case ok =>
          rw [hp, hf] at he
          cases he
          exact ⟨_, _, rfl⟩
  case decoded token parts hc hd =>
    simp only [lic2Codec, decodeLIC2] at hd
    split at hd
    case isTrue => contradiction
    case isFalse =>
      split at hd
      case h_1 =>
        obtain ⟨_, _, hd⟩ := bind_eq_ok_iff.mp hd
        contradiction
      case h_2 =>
        obtain ⟨_, _, hd⟩ := bind_eq_ok_iff.mp hd
        obtain ⟨_, _, hd⟩ := bind_eq_ok_iff.mp hd
        split at hd
        case isTrue => contradiction
        case isFalse =>
          obtain ⟨_, _, hd⟩ := bind_eq_ok_iff.mp hd
          obtain ⟨_, _, hd⟩ := bind_eq_ok_iff.mp hd
          cases hd
          exact ⟨_, _, rfl⟩
      case h_3 => contradiction

end Port

-- The contexts differ in the first byte already.
def firstByte (context : Context) (b : UInt8) : Prop :=
  match context with
  | .lic1        => b ≠ 4 ∧ b ≠ 0x7b
  | .lic2        => b = 4
  | .attestation => b = 0x7b

theorem ofString_cons {c : Char} (h : c.toNat < 0x80) (cs : List Char) :
    Bytes.ofString (.ofList (c :: cs)) = .ofNat c.toNat :: Bytes.ofString (.ofList cs) := by
  rw [Bytes.ofString_ofList, List.flatMap_cons, Bytes.encodeChar_of_lt h, Bytes.ofString_ofList]
  rfl

-- The characters of segments, and the dot between them.
structure Leads (c : Char) : Prop where
  ascii : c.toNat < 0x80
  first : firstByte .lic1 (.ofNat c.toNat)

theorem Leads.sextet {n : Nat} (h : n < 64) : Leads (Base64.sextet n) where
  ascii := (by decide : ∀ n < 64, (Base64.sextet n).toNat < 0x80) n h
  first := (by decide : ∀ n < 64, UInt8.ofNat (Base64.sextet n).toNat ≠ 4 ∧
    UInt8.ofNat (Base64.sextet n).toNat ≠ 0x7b) n h

theorem Leads.dot : Leads '.' where
  ascii := by decide
  first := ⟨by decide, by decide⟩

theorem Leads.of_sextets {cs : List Char} {ns : List Nat} (h : cs.mapM Base64.sextet? = some ns) :
    ∀ c ∈ cs, Leads c := by
  have ⟨hs, lt⟩ := Base64.map_sextet h
  intro c hc
  rw [← hs] at hc
  obtain ⟨n, hn, rfl⟩ := List.mem_map.mp hc
  exact .sextet (lt n hn)

theorem Encodes.firstByte {d : Data} {b : List UInt8} (h : Encodes d b) :
    ∃ x xs, b = x :: xs ∧ firstByte .attestation x := by
  obtain ⟨ms, hms⟩ := h.normal_eq
  rw [h.bytes, hms, Data.text, bytesOf, ofString_cons (by decide)]
  exact ⟨_, _, rfl, rfl⟩

theorem firstByte_lic2 (message footer : List UInt8) :
    ∃ x xs, lic2SigningInput message footer = x :: xs ∧ firstByte .lic2 x :=
  ⟨4, _, rfl, rfl⟩

namespace Go

theorem leads_of_decoded {s : GoString} {b : List UInt8} (h : base64urlDecode (charsOf s) = .ok b) :
    ∀ c ∈ charsOf s, Leads c := by
  unfold base64urlDecode at h
  split at h
  case isTrue => contradiction
  case isFalse =>
    split at h
    case h_1 => contradiction
    case h_2 hn => exact .of_sextets hn

theorem firstByte_lic1 {header : GoString} {b : List UInt8} (payload : GoString)
    (h : port.base64urlDecode header = .ok b) :
    ∃ x xs, port.lic1SigningInput header payload = x :: xs ∧ firstByte .lic1 x := by
  match header with
  | []      => exact ⟨46, _, rfl, Leads.dot.first⟩
  | x :: xs =>
    have hl := (leads_of_decoded h (.ofNat x.toNat) List.mem_cons_self).first
    have hv : x.toNat.isValidChar := .inl (Nat.lt_trans x.toNat_lt (by decide))
    rw [toNat_ofNat hv, UInt8.ofNat_toNat] at hl
    exact ⟨x, _, rfl, hl⟩

theorem firstByte_attestation {kid alg notBefore : GoString} {notAfter : Option GoString}
    {publicRaw b : List UInt8} (h : attestationCanonical kid alg publicRaw notBefore notAfter = .ok b) :
    ∃ x xs, b = x :: xs ∧ firstByte .attestation x := by
  have hn : (["kid", "alg", "pub", "not_before", "not_after"].map Bytes.ofString).Nodup := by decide
  have hv : (notAfter.elim .nil Value.string).IsValue := by cases notAfter <;> trivial
  unfold attestationCanonical at h
  obtain ⟨_, _, he⟩ := encodes_of_ok
    (by exact ⟨hn, trivial, trivial, trivial, trivial, hv, trivial⟩) h
  exact he.firstByte

end Go

namespace Ts

theorem leads_of_decoded {s : JsString} {b : List UInt8} (h : base64urlDecode (charsOf s) = .ok b) :
    ∀ c ∈ charsOf s, Leads c := by
  unfold base64urlDecode at h
  split at h
  case isTrue => contradiction
  case isFalse =>
    split at h
    case h_1 => contradiction
    case h_2 hn => exact .of_sextets hn

-- A unit that leads is a character by itself.
theorem firstByte_utf8 {u : UInt16} (h : Leads (charOfUnit u)) (us : JsString) :
    ∃ x xs, port.utf8 (u :: us) = x :: xs ∧ firstByte .lic1 x := by
  have hu : isHigh u = false := by
    by_contra hn
    have hc : charOfUnit u = '\ufffd' := if_pos (.inl (by simpa using hn))
    have hl := h.ascii
    rw [hc] at hl
    contradiction
  have ht : textOfUnits (u :: us) = charOfUnit u :: textOfUnits us :=
    text_unit fun hh => by
      rw [hu] at hh
      contradiction
  have hb : port.utf8 (u :: us) = Bytes.ofString (.ofList (textOfUnits (u :: us))) := rfl
  rw [hb, ht, ofString_cons h.ascii]
  exact ⟨_, _, rfl, h.first⟩

theorem firstByte_lic1 {header : JsString} {b : List UInt8} (payload : JsString)
    (h : port.base64urlDecode header = .ok b) :
    ∃ x xs, port.lic1SigningInput header payload = x :: xs ∧ firstByte .lic1 x := by
  match header with
  | []      => exact firstByte_utf8 (u := 46) Leads.dot payload
  | u :: us => exact firstByte_utf8 (leads_of_decoded h _ List.mem_cons_self) _

theorem firstByte_attestation {kid alg notBefore : JsString} {notAfter : Option JsString}
    {publicRaw b : List UInt8} (h : attestationCanonical kid alg publicRaw notBefore notAfter = .ok b) :
    ∃ x xs, b = x :: xs ∧ firstByte .attestation x := by
  have hn : (["kid", "alg", "pub", "not_before", "not_after"].map JsString.ofString).Nodup := by decide
  have hv : (notAfter.elim .null Value.string).IsValue := by cases notAfter <;> trivial
  unfold attestationCanonical at h
  obtain ⟨_, _, he⟩ := encodes_of_ok
    (by exact ⟨hn, trivial, trivial, trivial, trivial, hv, trivial⟩) h
  exact he.firstByte

end Ts

theorem SignedIn.firstByte {context : Context} {b : List UInt8} (h : SignedIn context b) :
    ∃ x xs, b = x :: xs ∧ firstByte context x := by
  cases h
  case goEncode h =>
    obtain ⟨_, payload, rfl⟩ := Port.signed_of_encode h
    exact Go.firstByte_lic1 payload (Go.lawful.decode _)
  case goLIC1 h =>
    obtain ⟨_, payload, _, rfl, hd⟩ := Port.lic1_of_signed Go.lawful h
    exact Go.firstByte_lic1 payload hd
  case tsLIC1 h =>
    obtain ⟨_, payload, _, rfl, hd⟩ := Port.lic1_of_signed Ts.lawful h
    exact Ts.firstByte_lic1 payload hd
  case goLIC2 h =>
    obtain ⟨_, _, rfl⟩ := Port.lic2_of_signed h
    exact firstByte_lic2 _ _
  case tsLIC2 h =>
    obtain ⟨_, _, rfl⟩ := Port.lic2_of_signed h
    exact firstByte_lic2 _ _
  case goAttestation h => exact Go.firstByte_attestation h
  case tsAttestation h => exact Ts.firstByte_attestation h

theorem context_of_firstByte {c c' : Context} {x : UInt8} (h : firstByte c x) (h' : firstByte c' x) :
    c = c' := by
  cases c <;> cases c' <;> simp_all [firstByte]

-- The encoding of LIC2 keeps its pieces apart, and no bytes are signed in two contexts.
theorem signed_apart :
    (∀ ps qs : List (List UInt8), (∀ p ∈ ps, p.length < 2 ^ 53) → (∀ q ∈ qs, q.length < 2 ^ 53) →
      Pae.pae ps = Pae.pae qs → ps = qs) ∧
    ∀ c c' b, SignedIn c b → SignedIn c' b → c = c' := by
  refine ⟨fun ps qs hp hq h => ?_, fun c c' b h h' => ?_⟩
  · exact Pae.pae_injective (fun p hm => Nat.lt_trans (hp p hm) (by decide))
      (fun q hm => Nat.lt_trans (hq q hm) (by decide)) h
  · obtain ⟨x, xs, rfl, hx⟩ := h.firstByte
    obtain ⟨_, _, he, hx'⟩ := h'.firstByte
    cases he
    exact context_of_firstByte hx hx'

end Licensing
