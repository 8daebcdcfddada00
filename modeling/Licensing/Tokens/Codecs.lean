import Licensing.Library.Pae
import Licensing.Library.Prog
import Licensing.Tokens.StrictJson

-- The token formats LIC1 and LIC2, and the router over them.

namespace Licensing

open JsonText

def lic1Prefix : String :=
  "LIC1."

def lic2Prefix : String :=
  "v4.public."

def ed25519SigLen : Nat :=
  64

def algEd25519 : String :=
  "ed25519"

def headerAllowedAlgs : List String :=
  ["ed25519", "rs256-pss", "hs256"]

def headerFields : List String :=
  ["v", "typ", "alg", "kid"]

-- The strings of a port are of the type `σ`, and its JSON objects of the type `P`.
structure EnvelopeHeader (σ : Type) where
  alg : σ
  kid : σ

structure DecodedEnvelope (σ P : Type) where
  header       : EnvelopeHeader σ
  payload      : P
  signingInput : List UInt8
  signature    : List UInt8

-- The private key and the backend are those that a signature is asked of.
structure CodecEncodeInput (σ P : Type) where
  alg     : σ
  kid     : σ
  payload : P

-- A program that asks a backend for signatures of bytes.
abbrev Signing :=
  Prog (List UInt8) (fun _ => Except Error (List UInt8)) Error

def sign (data : List UInt8) : Signing (List UInt8) :=
  .call data .ofExcept

structure TokenCodec (σ P : Type) where
  tokenPrefix : String
  supportsAlg : σ → Bool
  decode      : σ → Except Error (DecodedEnvelope σ P)
  encode      : CodecEncodeInput σ P → Signing σ

def lic2SigningInput (message footer : List UInt8) : List UInt8 :=
  Pae.pae [Bytes.ofString lic2Prefix, message, footer, []]

-- What the codecs of the ports differ in. A string is a sequence of bytes or of code units.
structure Port (α P : Type) where
  literal            : String → List α
  dot                : α
  toString           : List α → String
  utf8               : List α → List UInt8
  base64urlEncode    : List UInt8 → String
  base64urlDecode    : List α → Except Error (List UInt8)
  headerBytes        : List α → List α → Except Error (List UInt8)
  footerBytes        : List α → Except Error (List UInt8)
  canonicalize       : P → Except Error (List UInt8)
  parseHeader        : List UInt8 → Except Error (EnvelopeHeader (List α))
  parsePayload       : List UInt8 → Except Error P
  parseFooter        : List UInt8 → Except Error (List α)
  parseMessage       : List UInt8 → Except Error P
  tokenMalformed     : String → Error
  unsupportedAlg     : String → Error
  unsupportedFormat  : List α → Error
  segmentsExpected   : Nat → Error

namespace Port

variable {α P : Type} [DecidableEq α] (p : Port α P)

def lic1SigningInput (headerB64 payloadB64 : List α) : List UInt8 :=
  p.utf8 (headerB64 ++ p.dot :: payloadB64)

-- The header is given by its canonical form.
def encode (header : Except Error (List UInt8)) (payload : P) : Signing (List α) := do
  let headerBytes  ← .ofExcept header
  let payloadBytes ← .ofExcept (p.canonicalize payload)
  let headerB64    := p.literal (p.base64urlEncode headerBytes)
  let payloadB64   := p.literal (p.base64urlEncode payloadBytes)
  let sig          ← sign (p.lic1SigningInput headerB64 payloadB64)
  return p.literal lic1Prefix ++ headerB64 ++ p.dot :: payloadB64 ++
    p.dot :: p.literal (p.base64urlEncode sig)

def encodeLIC1 (input : CodecEncodeInput (List α) P) : Signing (List α) :=
  p.encode (p.headerBytes input.alg input.kid) input.payload

def decodeLIC1 (token : List α) : Except Error (DecodedEnvelope (List α) P) :=
  match token.splitOn p.dot with
  | [_, headerB64, payloadB64, sigB64] => do
    let headerBytes  ← p.base64urlDecode headerB64
    let payloadBytes ← p.base64urlDecode payloadB64
    let signature    ← p.base64urlDecode sigB64
    let header       ← p.parseHeader headerBytes
    let payload      ← p.parsePayload payloadBytes
    return {
      header       := header
      payload      := payload
      signingInput := p.lic1SigningInput headerB64 payloadB64
      signature    := signature }
  | parts => .error (p.segmentsExpected parts.length)

def lic1Codec : TokenCodec (List α) P where
  tokenPrefix := lic1Prefix
  supportsAlg alg := alg ∈ headerAllowedAlgs.map p.literal
  decode := p.decodeLIC1
  encode := p.encodeLIC1

def encodeLIC2 (input : CodecEncodeInput (List α) P) : Signing (List α) :=
  if input.alg ≠ p.literal algEd25519 then
    .throw (p.unsupportedAlg ("LIC2 (PASETO v4.public) supports ed25519 only, got " ++
      p.toString input.alg ++
      " — either switch the signing algorithm to ed25519, or issue LIC1 tokens instead"))
  else do
    let message ← .ofExcept (p.canonicalize input.payload)
    let footer  ← .ofExcept (p.footerBytes input.kid)
    let sig     ← sign (lic2SigningInput message footer)
    return p.literal lic2Prefix ++ p.literal (p.base64urlEncode (message ++ sig)) ++
      p.dot :: p.literal (p.base64urlEncode footer)

-- The message and the signature.
def decodeBody (payloadB64 : List α) : Except Error (List UInt8 × List UInt8) := do
  let body ← p.base64urlDecode payloadB64
  if body.length ≤ ed25519SigLen then
    .error (p.tokenMalformed ("LIC2 payload is " ++ ToString.toString body.length ++
      " bytes, too short to contain a 64-byte signature"))
  else return (body.take (body.length - ed25519SigLen), body.drop (body.length - ed25519SigLen))

def decodeLIC2 (token : List α) : Except Error (DecodedEnvelope (List α) P) :=
  let rest := token.drop (p.literal lic2Prefix).length
  if rest = [] then .error (p.tokenMalformed "LIC2 token has no payload segment")
  else match rest.splitOn p.dot with
  | [payloadB64] => do
    let _ ← p.decodeBody payloadB64
    .error (p.tokenMalformed "LIC2 requires a footer carrying kid")
  | [payloadB64, footerB64] => do
    let (message, signature) ← p.decodeBody payloadB64
    let footerBytes ← p.base64urlDecode footerB64
    if footerBytes = [] then .error (p.tokenMalformed "LIC2 requires a footer carrying kid")
    else
      let kid     ← p.parseFooter footerBytes
      let payload ← p.parseMessage message
      return {
        header       := { alg := p.literal algEd25519, kid := kid }
        payload      := payload
        signingInput := lic2SigningInput message footerBytes
        signature    := signature }
  | segments => .error (p.tokenMalformed ("LIC2 token has " ++ ToString.toString segments.length ++
      " segments after the header, expected 1 or 2"))

def lic2Codec : TokenCodec (List α) P where
  tokenPrefix := lic2Prefix
  supportsAlg alg := alg = p.literal algEd25519
  decode := p.decodeLIC2
  encode := p.encodeLIC2

-- The codecs in the order of their registration.
def codecs : List (TokenCodec (List α) P) :=
  [p.lic1Codec, p.lic2Codec]

def codecFor (token : List α) : Except Error (TokenCodec (List α) P) :=
  match p.codecs.find? fun codec => p.literal codec.tokenPrefix <+: token with
  | some codec => .ok codec
  | none       => .error (p.unsupportedFormat token)

theorem codecFor_eq (token : List α) : p.codecFor token =
    if p.literal lic1Prefix <+: token then .ok p.lic1Codec
    else if p.literal lic2Prefix <+: token then .ok p.lic2Codec
    else .error (p.unsupportedFormat token) := by
  have h₁ : p.lic1Codec.tokenPrefix = lic1Prefix := rfl
  have h₂ : p.lic2Codec.tokenPrefix = lic2Prefix := rfl
  by_cases hp : p.literal lic1Prefix <+: token
  case pos => simp [codecFor, codecs, h₁, hp]
  case neg =>
    by_cases hp' : p.literal lic2Prefix <+: token <;> simp [codecFor, codecs, h₁, h₂, hp, hp']

def decodeEnvelope (token : List α) : Except Error (DecodedEnvelope (List α) P) := do
  let codec ← p.codecFor token
  codec.decode token

-- A token that is decoded, by the segments it has.
inductive Decoded (token : List α) : DecodedEnvelope (List α) P → Prop
  | lic1 {name headerB64 payloadB64 sigB64 headerBytes payloadBytes signature header payload} :
    p.literal lic1Prefix <+: token →
    token.splitOn p.dot = [name, headerB64, payloadB64, sigB64] →
    p.base64urlDecode headerB64 = .ok headerBytes →
    p.base64urlDecode payloadB64 = .ok payloadBytes →
    p.base64urlDecode sigB64 = .ok signature →
    p.parseHeader headerBytes = .ok header →
    p.parsePayload payloadBytes = .ok payload →
    Decoded token ⟨header, payload, p.lic1SigningInput headerB64 payloadB64, signature⟩
  | lic2 {payloadB64 footerB64 message signature footerBytes kid payload} :
    ¬p.literal lic1Prefix <+: token →
    token = p.literal lic2Prefix ++ payloadB64 ++ p.dot :: footerB64 →
    (token.drop (p.literal lic2Prefix).length).splitOn p.dot = [payloadB64, footerB64] →
    p.base64urlDecode payloadB64 = .ok (message ++ signature) →
    signature.length = ed25519SigLen →
    p.base64urlDecode footerB64 = .ok footerBytes →
    p.parseFooter footerBytes = .ok kid →
    p.parseMessage message = .ok payload →
    Decoded token ⟨⟨p.literal algEd25519, kid⟩, payload, lic2SigningInput message footerBytes,
      signature⟩

section

variable {p} {token : List α} {parts : DecodedEnvelope (List α) P}

theorem decoded_of_decodeLIC1 (hp : p.literal lic1Prefix <+: token)
    (h : p.decodeLIC1 token = .ok parts) : p.Decoded token parts := by
  unfold decodeLIC1 at h
  split at h
  case h_1 hs =>
    obtain ⟨_, hh, h⟩ := bind_eq_ok_iff.mp h
    obtain ⟨_, hb, h⟩ := bind_eq_ok_iff.mp h
    obtain ⟨_, hd, h⟩ := bind_eq_ok_iff.mp h
    obtain ⟨_, ho, h⟩ := bind_eq_ok_iff.mp h
    obtain ⟨_, hl, h⟩ := bind_eq_ok_iff.mp h
    cases h
    exact .lic1 hp hs hh hb hd ho hl
  case h_2 => contradiction

omit [DecidableEq α] in
theorem of_decodeBody {seg : List α} {message signature : List UInt8}
    (h : p.decodeBody seg = .ok (message, signature)) :
    p.base64urlDecode seg = .ok (message ++ signature) ∧ signature.length = ed25519SigLen := by
  obtain ⟨body, hb, h⟩ := bind_eq_ok_iff.mp h
  split at h
  case isTrue => contradiction
  case isFalse hl =>
    cases h
    refine ⟨by rw [hb, List.take_append_drop], ?_⟩
    rw [List.length_drop]
    omega

theorem decoded_of_decodeLIC2 (hn : ¬p.literal lic1Prefix <+: token)
    (hp : p.literal lic2Prefix <+: token) (h : p.decodeLIC2 token = .ok parts) :
    p.Decoded token parts := by
  unfold decodeLIC2 at h
  dsimp only at h
  split at h
  case isTrue => contradiction
  case isFalse =>
    split at h
    case h_1 =>
      obtain ⟨_, _, h⟩ := bind_eq_ok_iff.mp h
      contradiction
    case h_2 payloadB64 footerB64 hs =>
      obtain ⟨⟨message, signature⟩, hb, h⟩ := bind_eq_ok_iff.mp h
      obtain ⟨footerBytes, hf, h⟩ := bind_eq_ok_iff.mp h
      split at h
      case isTrue => contradiction
      case isFalse =>
        obtain ⟨_, hk, h⟩ := bind_eq_ok_iff.mp h
        obtain ⟨_, hm, h⟩ := bind_eq_ok_iff.mp h
        cases h
        obtain ⟨hd, hl⟩ := of_decodeBody hb
        have ht : token = p.literal lic2Prefix ++ payloadB64 ++ p.dot :: footerB64 := by
          obtain ⟨rest, rfl⟩ := hp
          rw [List.drop_left] at hs
          have hi : [p.dot].intercalate (rest.splitOn p.dot) = rest := List.intercalate_splitOn p.dot
          rw [← hi, hs]
          simp [List.intercalate_cons_cons]
        exact .lic2 hn ht hs hd hl hf hk hm
    case h_3 => contradiction

theorem decoded_of_decodeEnvelope (h : p.decodeEnvelope token = .ok parts) :
    p.Decoded token parts := by
  obtain ⟨codec, hc, h⟩ := bind_eq_ok_iff.mp h
  rw [codecFor_eq] at hc
  split at hc
  case isTrue hp =>
    cases hc
    exact decoded_of_decodeLIC1 hp h
  case isFalse hn =>
    split at hc
    case isTrue hp =>
      cases hc
      exact decoded_of_decodeLIC2 hn hp h
    case isFalse => contradiction

end

end Port

namespace Go

-- The bytes as characters, which are those of the alphabet of base64url as long as they are ASCII.
def charsOf (s : GoString) : List Char :=
  s.map fun b => .ofNat b.toNat

-- A message shows what is not UTF-8 as U+FFFD.
def GoString.toString (s : GoString) : String :=
  .ofList (Utf8.decodeBytes s)

structure LIC1Header where
  v   : Int64
  typ : GoString
  alg : GoString
  kid : GoString

def headerToMap (h : LIC1Header) : Value :=
  .map [(Bytes.ofString "v", .int64 h.v), (Bytes.ofString "typ", .string h.typ),
    (Bytes.ofString "alg", .string h.alg), (Bytes.ofString "kid", .string h.kid)]

-- The iteration over a map has no order, and the offending values are left out of the texts.
def parseHeader (b : List UInt8) : Except Error (EnvelopeHeader GoString) := do
  let obj ← parseJSONObject b "header"
  match obj.find? fun m => m.1 ∉ headerFields.map Bytes.ofString with
  | some (k, _) => .error (tokenMalformed ("header contains unknown field: " ++ GoString.toString k))
  | none        =>
    match headerFields.find? fun f => (obj.lookup (Bytes.ofString f)).isNone with
    | some req => .error (tokenMalformed ("header missing field: " ++ req))
    | none     =>
      if (obj.as "v" Value.asNumber).bind int64? ≠ some 1 then
        .error (tokenMalformed "header.v must be 1")
      else if obj.as "typ" Value.asString ≠ some (Bytes.ofString "lic") then
        .error (tokenMalformed "header.typ must be \"lic\"")
      else match obj.as "alg" Value.asString with
      | none     => .error (newError .unsupportedAlgorithm "header.alg must be a string")
      | some alg =>
        if alg ∉ headerAllowedAlgs.map Bytes.ofString then
          .error (newError .unsupportedAlgorithm
            ("no backend registered for alg: " ++ GoString.toString alg))
        else match obj.as "kid" Value.asString with
        | none | some [] => .error (tokenMalformed "header.kid must be a non-empty string")
        | some kid       => return { alg := alg, kid := kid }

def parseFooter (b : List UInt8) : Except Error GoString := do
  let footer ← parseJSONObject b "footer"
  match footer.as "kid" Value.asString with
  | none | some [] => .error (tokenMalformed "LIC2 footer.kid must be a non-empty string")
  | some kid       => return kid

-- What precedes the first dot, if that is near.
def clipPrefix (token : GoString) : GoString :=
  match (token.take 17).idxOf? 46 with
  | some i => token.take (i + 1)
  | none   => token.take 16

def port : Port UInt8 Map where
  literal              := Bytes.ofString
  dot                  := 46
  toString             := GoString.toString
  utf8                 := id
  base64urlEncode      := base64urlEncode
  base64urlDecode s    := base64urlDecode (charsOf s)
  headerBytes alg kid  := canonicalize (headerToMap ⟨1, Bytes.ofString "lic", alg, kid⟩)
  footerBytes kid      := canonicalize (.map [(Bytes.ofString "kid", .string kid)])
  canonicalize payload := canonicalize (.map payload)
  parseHeader          := parseHeader
  parsePayload b       := parseJSONObject b "payload"
  parseFooter          := parseFooter
  parseMessage b       := parseJSONObject b "payload"
  tokenMalformed       := tokenMalformed
  unsupportedAlg       := newError .unsupportedAlgorithm
  unsupportedFormat t  := newError .unsupportedTokenFormat
    ("unsupported token format: " ++ GoString.toString (clipPrefix t))
  segmentsExpected n   := tokenMalformed
    ("expected 4 dot-separated segments, got " ++ toString n)

-- Unlike the codec, which uses it, this takes any version and type.
def encode (header : LIC1Header) (payload : Map) : Signing GoString :=
  port.encode (canonicalize (headerToMap header)) payload

def codecFor (token : GoString) : Except Error (TokenCodec GoString Map) :=
  port.codecFor token

def decodeEnvelope (token : GoString) : Except Error (DecodedEnvelope GoString Map) :=
  port.decodeEnvelope token

-- The version and the type of the header are those that `parseHeader` checks.
def decodeUnverified (token : GoString) : Except Error (DecodedEnvelope GoString Map) := do
  let codec ← codecFor token
  if codec.tokenPrefix ≠ lic1Prefix then
    .error (newError .unsupportedTokenFormat ("token format " ++ codec.tokenPrefix ++
      " is not LIC1; use DecodeEnvelope for format-agnostic decoding"))
  else port.decodeLIC1 token

end Go

namespace Ts

-- The code units as characters.
def charsOf (s : JsString) : List Char :=
  s.map charOfUnit

def unsupportedAlgorithm (alg : String) : Error :=
  newError .unsupportedAlgorithm ("no backend registered for alg: " ++ alg)

-- The prefix is quoted as JSON, where a surrogate without its partner would be escaped.
def unsupportedTokenFormat (tokenPrefix : JsString) : Error :=
  newError .unsupportedTokenFormat
    ("unsupported token format prefix: " ++ .ofList (quote (textOfUnits tokenPrefix)))

def header (alg kid : JsString) : Value :=
  .object [(.ofString "v", .number (.ofInt 1)), (.ofString "typ", .string (.ofString "lic")),
    (.ofString "alg", .string alg), (.ofString "kid", .string kid)] none

-- The offending values are left out of the texts, unless they are strings.
def parseHeader (b : List UInt8) : Except Error (EnvelopeHeader JsString) := do
  let obj ← parseJSONObject b "header"
  match obj.keys.find? fun k => k ∉ headerFields.map JsString.ofString with
  | some k => .error (tokenMalformed ("header contains unknown field: " ++ k.toString))
  | none   =>
    match headerFields.find? fun f => (obj.get? f).isNone with
    | some required => .error (tokenMalformed ("header missing field: " ++ required))
    | none          =>
      if (obj.get? "v").bind Value.asNumber ≠ some (.ofInt 1) then
        .error (tokenMalformed "header.v must be 1")
      else if (obj.get? "typ").bind Value.asString ≠ some (.ofString "lic") then
        .error (tokenMalformed "header.typ must be \"lic\"")
      else match (obj.get? "alg").bind Value.asString with
      | none     => .error (unsupportedAlgorithm "")
      | some alg =>
        if alg ∉ headerAllowedAlgs.map JsString.ofString then
          .error (unsupportedAlgorithm alg.toString)
        else match (obj.get? "kid").bind Value.asString with
        | none | some [] => .error (tokenMalformed "header.kid must be a non-empty string")
        | some kid       => return { alg := alg, kid := kid }

def parseFooter (b : List UInt8) : Except Error JsString := do
  let obj ← parseLIC2Object b "footer"
  match (obj.get? "kid").bind Value.asString with
  | none | some [] => .error (tokenMalformed "LIC2 footer.kid must be a non-empty string")
  | some kid       => return kid

def unsupportedPrefix (token : JsString) : JsString :=
  match token.idxOf? 46 with
  | some i => token.take (i + 1)
  | none   => token.take 16

def port : Port UInt16 Value where
  literal              := JsString.ofString
  dot                  := 46
  toString             := JsString.toString
  utf8 s               := Bytes.ofString (JsString.toString s)
  base64urlEncode      := base64urlEncode
  base64urlDecode s    := base64urlDecode (charsOf s)
  headerBytes alg kid  := canonicalize (header alg kid)
  footerBytes kid      := canonicalize (.object [(.ofString "kid", .string kid)] none)
  canonicalize         := canonicalize
  parseHeader          := parseHeader
  parsePayload b       := parseJSONObject b "payload"
  parseFooter          := parseFooter
  parseMessage b       := parseLIC2Object b "payload"
  tokenMalformed       := tokenMalformed
  unsupportedAlg       := unsupportedAlgorithm
  unsupportedFormat t  := unsupportedTokenFormat (unsupportedPrefix t)
  segmentsExpected n   := tokenMalformed
    ("LIC1 token has " ++ toString n ++ " dot-separated segments, expected 4")

def codecFor (token : JsString) : Except Error (TokenCodec JsString Value) :=
  port.codecFor token

def decodeUnverified (token : JsString) : Except Error (DecodedEnvelope JsString Value) :=
  port.decodeEnvelope token

end Ts

end Licensing
