import Licensing.Tokens.Codecs
import Licensing.Tokens.RoundTrip

-- What is encoded as a token is decoded again.

namespace Licensing

open JsonText

namespace Port

variable {α P : Type} [DecidableEq α] {p : Port α P}

-- What the codecs rely on: segments are read back and have no dots, and the prefixes are different.
structure Lawful (p : Port α P) : Prop where
  decode : ∀ b, p.base64urlDecode (p.literal (p.base64urlEncode b)) = .ok b
  dotless : ∀ b, p.dot ∉ p.literal (p.base64urlEncode b)
  lic1 : ∃ name, p.literal lic1Prefix = name ++ [p.dot] ∧ p.dot ∉ name
  lic2 : ∀ cs, ¬p.literal lic1Prefix <+: p.literal lic2Prefix ++ cs

namespace Lawful

def lic1Token (p : Port α P) (header payload sig : List UInt8) : List α :=
  p.literal lic1Prefix ++ p.literal (p.base64urlEncode header) ++
    p.dot :: p.literal (p.base64urlEncode payload) ++ p.dot :: p.literal (p.base64urlEncode sig)

theorem splitOn_lic1Token (h : p.Lawful) (header payload sig : List UInt8) :
    ∃ name, (lic1Token p header payload sig).splitOn p.dot =
      [name, p.literal (p.base64urlEncode header), p.literal (p.base64urlEncode payload),
        p.literal (p.base64urlEncode sig)] := by
  obtain ⟨name, hp, hn⟩ := h.lic1
  refine ⟨name, ?_⟩
  have ht : lic1Token p header payload sig = [p.dot].intercalate
      [name, p.literal (p.base64urlEncode header), p.literal (p.base64urlEncode payload),
        p.literal (p.base64urlEncode sig)] := by
    simp [lic1Token, hp, List.intercalate_cons_cons]
  rw [ht]
  refine List.splitOn_intercalate p.dot ?_ (by simp)
  simp only [List.forall_mem_cons, h.dotless, hn]
  simp

theorem codecFor_lic1Token (header payload sig : List UInt8) :
    p.codecFor (lic1Token p header payload sig) = .ok p.lic1Codec := by
  have hp : p.literal lic1Prefix <+: lic1Token p header payload sig := by
    simp [lic1Token, List.append_assoc]
  rw [codecFor_eq, if_pos hp]

theorem decode_lic1Token (h : p.Lawful) (header payload sig : List UInt8) :
    p.decodeLIC1 (lic1Token p header payload sig) = do
      let decoded ← p.parseHeader header
      let object  ← p.parsePayload payload
      return {
        header       := decoded
        payload      := object
        signingInput := p.lic1SigningInput (p.literal (p.base64urlEncode header))
          (p.literal (p.base64urlEncode payload))
        signature    := sig } := by
  obtain ⟨name, hs⟩ := h.splitOn_lic1Token header payload sig
  rw [decodeLIC1, hs]
  simp only [h.decode]
  rfl

theorem decodeEnvelope_lic1Token (h : p.Lawful) {header payload : List UInt8} (sig : List UInt8)
    {decoded : EnvelopeHeader (List α)} {object : P} (hh : p.parseHeader header = .ok decoded)
    (hp : p.parsePayload payload = .ok object) :
    p.decodeEnvelope (lic1Token p header payload sig) = .ok {
      header       := decoded
      payload      := object
      signingInput := p.lic1SigningInput (p.literal (p.base64urlEncode header))
        (p.literal (p.base64urlEncode payload))
      signature    := sig } := by
  have hd := h.decode_lic1Token header payload sig
  rw [hh, hp] at hd
  rw [decodeEnvelope, codecFor_lic1Token]
  exact hd

def lic2Token (p : Port α P) (message footer sig : List UInt8) : List α :=
  p.literal lic2Prefix ++ p.literal (p.base64urlEncode (message ++ sig)) ++
    p.dot :: p.literal (p.base64urlEncode footer)

theorem codecFor_lic2Token (h : p.Lawful) (message footer sig : List UInt8) :
    p.codecFor (lic2Token p message footer sig) = .ok p.lic2Codec := by
  have hp : p.literal lic2Prefix <+: lic2Token p message footer sig := by
    simp [lic2Token, List.append_assoc]
  have hn : ¬p.literal lic1Prefix <+: lic2Token p message footer sig := by
    rw [lic2Token, List.append_assoc]
    exact h.lic2 _
  rw [codecFor_eq, if_neg hn, if_pos hp]

theorem decode_lic2Token (h : p.Lawful) {message footer sig : List UInt8} (hm : message ≠ [])
    (hf : footer ≠ []) (hs : sig.length = ed25519SigLen) :
    p.decodeLIC2 (lic2Token p message footer sig) = do
      let kid    ← p.parseFooter footer
      let object ← p.parseMessage message
      return {
        header       := { alg := p.literal algEd25519, kid := kid }
        payload      := object
        signingInput := lic2SigningInput message footer
        signature    := sig } := by
  have hr : (lic2Token p message footer sig).drop (p.literal lic2Prefix).length =
      [p.dot].intercalate [p.literal (p.base64urlEncode (message ++ sig)),
        p.literal (p.base64urlEncode footer)] := by
    simp [lic2Token, List.intercalate_cons_cons]
  have hb : p.decodeBody (p.literal (p.base64urlEncode (message ++ sig))) = .ok (message, sig) := by
    have hl : ¬(message ++ sig).length ≤ ed25519SigLen := by
      have := List.length_pos_of_ne_nil hm
      rw [List.length_append, hs]
      omega
    have hd : (message ++ sig).length - ed25519SigLen = message.length := by
      rw [List.length_append, hs, Nat.add_sub_cancel]
    rw [decodeBody, h.decode]
    simp only [bind, Except.bind, if_neg hl, hd, List.take_left, List.drop_left]
    rfl
  have hn : [p.dot].intercalate [p.literal (p.base64urlEncode (message ++ sig)),
      p.literal (p.base64urlEncode footer)] ≠ [] := by
    simp [List.intercalate_cons_cons]
  rw [decodeLIC2, hr]
  dsimp only
  rw [if_neg hn, List.splitOn_intercalate p.dot (by simp [h.dotless]) (by simp)]
  simp only [hb, h.decode, bind, Except.bind, if_neg hf]

end Lawful

-- The signed token is routed to its codec, which decodes it to what was encoded and signed.
def RoundTrips (p : Port α P) (same : P → P → Prop) (codec : TokenCodec (List α) P)
    (input : CodecEncodeInput (List α) P) (sig : List UInt8) : Prop :=
  ∃ signed next token parts, codec.encode input = .call signed next ∧ next (.ok sig) = .pure token ∧
    p.codecFor token = .ok codec ∧ codec.decode token = .ok parts ∧
    parts.header = ⟨input.alg, input.kid⟩ ∧ same input.payload parts.payload ∧
    parts.signature = sig ∧ parts.signingInput = signed

section

variable {same : P → P → Prop} {input : CodecEncodeInput (List α) P} {sig payload : List UInt8}

theorem roundTrips_lic1_iff (h : p.Lawful) {header : List UInt8}
    (hh : p.headerBytes input.alg input.kid = .ok header)
    (hp : p.canonicalize input.payload = .ok payload)
    (hd : p.parseHeader header = .ok ⟨input.alg, input.kid⟩) :
    p.RoundTrips same p.lic1Codec input sig ↔
      ∃ object, p.parsePayload payload = .ok object ∧ same input.payload object := by
  have he : p.lic1Codec.encode input = .call (p.lic1SigningInput
      (p.literal (p.base64urlEncode header)) (p.literal (p.base64urlEncode payload)))
      fun ans => Prog.ofExcept ans >>= fun sig => .pure (Lawful.lic1Token p header payload sig) := by
    simp only [lic1Codec, encodeLIC1, encode, hh, hp]
    rfl
  have ht := h.decode_lic1Token header payload sig
  simp only [hd] at ht
  refine ⟨?_, ?_⟩
  · rintro ⟨signed, next, token, parts, hc, hn, _, hdec, _, hs, _, _⟩
    rw [he] at hc
    cases hc
    cases hn
    cases ho : p.parsePayload payload
    case error e =>
      rw [ho] at ht
      cases hdec.symm.trans ht
    case ok object =>
      rw [ho] at ht
      cases hdec.symm.trans ht
      exact ⟨object, rfl, hs⟩
  · rintro ⟨object, ho, hs⟩
    rw [ho] at ht
    exact ⟨_, _, _, _, he, rfl, Lawful.codecFor_lic1Token _ _ _, ht, rfl, hs, rfl, rfl⟩

theorem roundTrips_lic2_iff (h : p.Lawful) {footer : List UInt8}
    (ha : input.alg = p.literal algEd25519) (hf : p.footerBytes input.kid = .ok footer)
    (hp : p.canonicalize input.payload = .ok payload) (hk : p.parseFooter footer = .ok input.kid)
    (hne : payload ≠ [] ∧ footer ≠ []) (hl : sig.length = ed25519SigLen) :
    p.RoundTrips same p.lic2Codec input sig ↔
      ∃ object, p.parseMessage payload = .ok object ∧ same input.payload object := by
  have he : p.lic2Codec.encode input = .call (lic2SigningInput payload footer)
      fun ans => Prog.ofExcept ans >>= fun sig => .pure (Lawful.lic2Token p payload footer sig) := by
    simp only [lic2Codec, encodeLIC2, ha, hf, hp, ne_eq, not_true_eq_false, if_false]
    rfl
  have ht := h.decode_lic2Token hne.1 hne.2 hl
  simp only [hk] at ht
  refine ⟨?_, ?_⟩
  · rintro ⟨signed, next, token, parts, hc, hn, _, hdec, _, hs, _, _⟩
    rw [he] at hc
    cases hc
    cases hn
    cases ho : p.parseMessage payload
    case error e =>
      rw [ho] at ht
      cases hdec.symm.trans ht
    case ok object =>
      rw [ho] at ht
      cases hdec.symm.trans ht
      exact ⟨object, rfl, hs⟩
  · rintro ⟨object, ho, hs⟩
    rw [ho] at ht
    exact ⟨_, _, _, _, he, rfl, h.codecFor_lic2Token _ _ _, ht, by rw [← ha], hs, rfl, rfl⟩

-- Nothing is signed that has no canonical JSON.
theorem not_roundTrips_lic1 {e : Error} (hh : p.headerBytes input.alg input.kid = .error e) :
    ¬p.RoundTrips same p.lic1Codec input sig := by
  rintro ⟨_, _, _, _, hc, _⟩
  simp only [lic1Codec, encodeLIC1, encode, hh] at hc
  cases hc

theorem not_roundTrips_lic2 {e : Error} (hf : p.footerBytes input.kid = .error e) :
    ¬p.RoundTrips same p.lic2Codec input sig := by
  rintro ⟨_, _, _, _, hc, _⟩
  simp only [lic2Codec, encodeLIC2, hf] at hc
  split at hc
  · cases hc
  · cases hp : p.canonicalize input.payload <;> rw [hp] at hc <;> cases hc

end

section

open Prog

variable {x : CodecEncodeInput (List α) P} {signs : List UInt8 → Except Error (List UInt8)} {token : List α}

-- What is encoded in a token of each of the formats.
omit [DecidableEq α] in
theorem token_of_encodeLIC1 {header : List UInt8} (hh : p.headerBytes x.alg x.kid = .ok header)
    (h : (p.encodeLIC1 x).run signs = .ok token) :
    ∃ bytes sig, p.canonicalize x.payload = .ok bytes ∧ token = Lawful.lic1Token p header bytes sig := by
  rw [encodeLIC1, hh, encode, run_bind_eq_ok_iff] at h
  have ⟨_, hh, h⟩ := h
  have ⟨bytes, hb, h⟩ := run_bind_eq_ok_iff.mp h
  have ⟨sig, _, h⟩ := run_bind_eq_ok_iff.mp h
  cases hh
  cases h
  rw [run_ofExcept] at hb
  exact ⟨bytes, sig, hb, rfl⟩

theorem token_of_encodeLIC2 {footer : List UInt8} (hf : p.footerBytes x.kid = .ok footer)
    (h : (p.encodeLIC2 x).run signs = .ok token) :
    ∃ bytes sig data, p.canonicalize x.payload = .ok bytes ∧ signs data = .ok sig ∧
      x.alg = p.literal algEd25519 ∧ token = Lawful.lic2Token p bytes footer sig := by
  rw [encodeLIC2] at h
  split at h
  case isTrue    => cases h
  case isFalse ha =>
    have ⟨bytes, hb, h⟩ := run_bind_eq_ok_iff.mp h
    have ⟨_, hf', h⟩ := run_bind_eq_ok_iff.mp h
    have ⟨sig, hs, h⟩ := run_bind_eq_ok_iff.mp h
    rw [run_ofExcept] at hb hf'
    cases hf.symm.trans hf'
    cases h
    rw [sign, run_call, run_ofExcept] at hs
    exact ⟨bytes, sig, _, hb, hs, not_not.mp ha, rfl⟩

variable {parts : DecodedEnvelope (List α) P} {header message footer sig : List UInt8}

theorem parsed_of_lic1Token (h : p.Lawful)
    (hd : p.decodeEnvelope (Lawful.lic1Token p header message sig) = .ok parts) :
    p.parsePayload message = .ok parts.payload := by
  rw [decodeEnvelope, Lawful.codecFor_lic1Token] at hd
  have hd : p.decodeLIC1 (Lawful.lic1Token p header message sig) = .ok parts := hd
  rw [h.decode_lic1Token] at hd
  have ⟨_, _, hd⟩ := bind_eq_ok_iff.mp hd
  have ⟨object, ho, hd⟩ := bind_eq_ok_iff.mp hd
  cases hd
  exact ho

theorem parsed_of_lic2Token (h : p.Lawful) (hm : message ≠ []) (hf : footer ≠ []) (hs : sig.length = ed25519SigLen)
    (hd : p.decodeEnvelope (Lawful.lic2Token p message footer sig) = .ok parts) :
    p.parseMessage message = .ok parts.payload := by
  rw [decodeEnvelope, h.codecFor_lic2Token] at hd
  have hd : p.decodeLIC2 (Lawful.lic2Token p message footer sig) = .ok parts := hd
  rw [h.decode_lic2Token hm hf hs] at hd
  have ⟨_, _, hd⟩ := bind_eq_ok_iff.mp hd
  have ⟨object, ho, hd⟩ := bind_eq_ok_iff.mp hd
  cases hd
  exact ho

end

end Port

-- The characters of a segment.

theorem ascii_encode (b : List UInt8) : ∀ c ∈ Base64.encode b, c.toNat < 0x80 :=
  Base64.forall_mem_encode (by decide) b

theorem dotless_encode (b : List UInt8) : ∀ c ∈ Base64.encode b, c.toNat ≠ 46 :=
  Base64.forall_mem_encode (by decide) b

namespace Go

theorem charsOf_ofString {cs : List Char} (h : ∀ c ∈ cs, c.toNat < 0x80) :
    charsOf (Bytes.ofString (.ofList cs)) = cs := by
  have hs := Bytes.ofString_of_ascii (s := .ofList cs) (by simpa using h)
  rw [String.toList_ofList] at hs
  have hc : charsOf (Bytes.ofString (.ofList cs)) =
      ((Bytes.ofString (.ofList cs)).map UInt8.toNat).map Char.ofNat := by
    rw [List.map_map]
    rfl
  rw [hc, hs, List.map_map]
  exact List.map_id'' (fun c => Char.ofNat_toNat c) cs

theorem lawful : port.Lawful where
  decode b := by
    change base64urlDecode (charsOf (Bytes.ofString (base64urlEncode b))) = _
    rw [base64urlEncode, charsOf_ofString (ascii_encode b), go_base64urlDecode_encode]
  dotless b h := by
    have hs := Bytes.ofString_of_ascii (s := .ofList (Base64.encode b)) (by simpa using ascii_encode b)
    have hm : (46 : UInt8).toNat ∈ (Bytes.ofString (base64urlEncode b)).map UInt8.toNat :=
      List.mem_map_of_mem h
    rw [base64urlEncode, hs, String.toList_ofList] at hm
    obtain ⟨c, hc, he⟩ := List.mem_map.mp hm
    exact dotless_encode b c hc he
  lic1 := ⟨[76, 73, 67, 49], rfl, by decide⟩
  lic2 cs h := by
    have he : (76 : UInt8) = 118 := (List.cons_prefix_cons.mp h).1
    contradiction

end Go

namespace Ts

theorem utf16_cons {c : Char} (h : c.toNat < 0x80) (cs : List Char) :
    utf16 (c :: cs) = .ofNat c.toNat :: utf16 cs := by
  have hl : c.toNat < 0x10000 := by omega
  rw [utf16, List.flatMap_cons, unitsOfChar, if_pos hl]
  rfl

theorem charsOf_utf16 {cs : List Char} (h : ∀ c ∈ cs, c.toNat < 0x80) : charsOf (utf16 cs) = cs := by
  induction cs
  case nil => rfl
  case cons c cs ih =>
    rw [List.forall_mem_cons] at h
    have hc := (charOfUnit_ofNat (c := c) (by omega)).2
    have hs := ih h.2
    rw [charsOf] at hs
    rw [utf16_cons h.1, charsOf, List.map_cons, hc, hs]

theorem lawful : port.Lawful where
  decode b := by
    change base64urlDecode (charsOf (utf16 (base64urlEncode b).toList)) = _
    rw [base64urlEncode, String.toList_ofList, charsOf_utf16 (ascii_encode b),
      ts_base64urlDecode_encode]
  dotless b h := by
    have hs := utf16_of_ascii (ascii_encode b)
    have hm : (46 : UInt16).toNat ∈ (utf16 (base64urlEncode b).toList).map UInt16.toNat :=
      List.mem_map_of_mem h
    rw [base64urlEncode, String.toList_ofList, hs] at hm
    obtain ⟨c, hc, he⟩ := List.mem_map.mp hm
    exact dotless_encode b c hc he
  lic1 := ⟨[76, 73, 67, 49], rfl, by decide⟩
  lic2 cs h := by
    have he : (76 : UInt16) = 118 := (List.cons_prefix_cons.mp h).1
    contradiction

end Ts

-- The text that a token is in both ports.
def lic1Text (header payload sig : List UInt8) : String :=
  .ofList <| lic1Prefix.toList ++ (Base64.encode header ++
    '.' :: (Base64.encode payload ++ '.' :: Base64.encode sig))

theorem Go.ofString_lic1Text (header payload sig : List UInt8) :
    Bytes.ofString (lic1Text header payload sig) = Port.Lawful.lic1Token port header payload sig := by
  have hd cs : Bytes.ofString (.ofList ('.' :: cs)) = 46 :: Bytes.ofString (.ofList cs) :=
    Bytes.ofString_append ['.'] cs
  simp only [lic1Text, Bytes.ofString_append, hd, String.ofList_toList]
  simp only [Port.Lawful.lic1Token, List.append_assoc]
  rfl

theorem Ts.ofString_lic1Text (header payload sig : List UInt8) :
    JsString.ofString (lic1Text header payload sig) =
      Port.Lawful.lic1Token port header payload sig := by
  have hd cs : utf16 ('.' :: cs) = 46 :: utf16 cs := rfl
  have ha cs ds : utf16 (cs ++ ds) = utf16 cs ++ utf16 ds := List.flatMap_append
  have he b : port.literal (port.base64urlEncode b) = utf16 (Base64.encode b) :=
    congrArg utf16 String.toList_ofList
  simp only [JsString.ofString, lic1Text, String.toList_ofList, ha, hd]
  simp only [Port.Lawful.lic1Token, List.append_assoc, he]
  rfl

-- The header of LIC1 and the footer of LIC2.

def headerData (alg kid : List Char) : Data :=
  .obj [("v".toList, .int 1), ("typ".toList, .str "lic".toList), ("alg".toList, .str alg),
    ("kid".toList, .str kid)]

def footerData (kid : List Char) : Data :=
  .obj [("kid".toList, .str kid)]

def headerJSON (alg kid : String) : List UInt8 :=
  bytesOf (headerData alg.toList kid.toList).normal.text

def footerJSON (kid : String) : List UInt8 :=
  bytesOf (footerData kid.toList).normal.text

theorem normal_headerData (alg kid : List Char) : (headerData alg kid).normal =
    .obj [("alg".toList, .str alg), ("kid".toList, .str kid), ("typ".toList, .str "lic".toList),
      ("v".toList, .int 1)] :=
  rfl

theorem encodes_headerData (alg kid : String) :
    Encodes (headerData alg.toList kid.toList) (headerJSON alg kid) := by
  have hn : ["v".toList, "typ".toList, "alg".toList, "kid".toList].Nodup := by decide
  have hs : (1 : Int).natAbs < 2 ^ 53 := by decide
  exact ⟨rfl, ⟨hn, trivial, trivial, trivial, trivial, trivial⟩,
    ⟨hs, trivial, trivial, trivial, trivial⟩, rfl⟩

theorem encodes_footerData (kid : String) : Encodes (footerData kid.toList) (footerJSON kid) :=
  ⟨rfl, ⟨List.nodup_singleton _, trivial, trivial⟩, ⟨trivial, trivial⟩, rfl⟩

namespace Go

theorem headerBytes_eq {alg kid : String} : port.headerBytes (Bytes.ofString alg) (Bytes.ofString kid) =
    .ok (headerJSON alg kid) := by
  have hd : (headerToMap ⟨1, Bytes.ofString "lic", Bytes.ofString alg, Bytes.ofString kid⟩).data? =
      some (headerData alg.toList kid.toList) := by
    simp [headerToMap, Value.data?, Value.members?, Bytes.toString?_ofString, headerData]
  have he := encodes_headerData alg kid
  exact ((canonical hd).object rfl).accepted he.safe

theorem parseHeader_eq {alg kid : String} (ha : alg ∈ headerAllowedAlgs) (hk : kid ≠ "") :
    parseHeader (headerJSON alg kid) =
      .ok ⟨Bytes.ofString alg, Bytes.ofString kid⟩ := by
  have hp := (encodes_headerData alg kid).go_parse_eq (normal_headerData _ _) "header"
  have ho : ofMembers (Data.rawMembers [("alg".toList, .str alg.toList), ("kid".toList, .str kid.toList),
      ("typ".toList, .str "lic".toList), ("v".toList, .int 1)]) =
      [(Bytes.ofString "alg", .string (Bytes.ofString alg)),
        (Bytes.ofString "kid", .string (Bytes.ofString kid)),
        (Bytes.ofString "typ", .string (Bytes.ofString "lic")), (Bytes.ofString "v", .number "1")] := by
    simp only [Data.rawMembers, Data.raw, ofMembers, ofRaw, stringOf_map, String.ofList_toList]
    rfl
  rw [ho] at hp
  generalize hobj : [(Bytes.ofString "alg", Value.string (Bytes.ofString alg)),
        (Bytes.ofString "kid", .string (Bytes.ofString kid)),
        (Bytes.ofString "typ", .string (Bytes.ofString "lic")), (Bytes.ofString "v", .number "1")] = obj
    at hp
  have hu : obj.find? (fun m => m.1 ∉ headerFields.map Bytes.ofString) = none := hobj ▸ rfl
  have hm : headerFields.find? (fun f => (obj.lookup (Bytes.ofString f)).isNone) = none := hobj ▸ rfl
  have hv : (Map.as obj "v" Value.asNumber).bind int64? = some 1 := by
    have hl : Map.as obj "v" Value.asNumber = some "1" := hobj ▸ rfl
    have hi : integer? "1".toList = some 1 := integer?_intText 1
    rw [hl, Option.bind_some, int64?, hi]
    rfl
  have ht : Map.as obj "typ" Value.asString = some (Bytes.ofString "lic") := hobj ▸ rfl
  have ha' : Map.as obj "alg" Value.asString = some (Bytes.ofString alg) := hobj ▸ rfl
  have hk' : Map.as obj "kid" Value.asString = some (Bytes.ofString kid) := hobj ▸ rfl
  have hn : Bytes.ofString kid ≠ [] := fun h => hk (Bytes.ofString_injective h)
  have hin : Bytes.ofString alg ∈ headerAllowedAlgs.map Bytes.ofString := List.mem_map_of_mem ha
  rw [parseHeader, hp]
  simp only [bind, Except.bind, hu, hm, hv, ht, ha', hk', hin, not_true_eq_false, ne_eq, if_false]
  rfl

theorem footerBytes_eq (kid : String) :
    port.footerBytes (Bytes.ofString kid) = .ok (footerJSON kid) := by
  have hd : (Value.map [(Bytes.ofString "kid", .string (Bytes.ofString kid))]).data? =
      some (footerData kid.toList) := by
    simp [Value.data?, Value.members?, Bytes.toString?_ofString, footerData]
  exact ((canonical hd).object rfl).accepted (encodes_footerData kid).safe

theorem parseFooter_eq {kid : String} (hk : kid ≠ "") :
    parseFooter (footerJSON kid) = .ok (Bytes.ofString kid) := by
  have hp := (encodes_footerData kid).go_parse_eq rfl "footer"
  have ho : ofMembers (Data.rawMembers [("kid".toList, .str kid.toList)]) =
      [(Bytes.ofString "kid", .string (Bytes.ofString kid))] := by
    simp only [Data.rawMembers, Data.raw, ofMembers, ofRaw, stringOf_map, String.ofList_toList]
  have hk' : Map.as [(Bytes.ofString "kid", .string (Bytes.ofString kid))] "kid" Value.asString =
      some (Bytes.ofString kid) := rfl
  have hn : Bytes.ofString kid ≠ [] := fun h => hk (Bytes.ofString_injective h)
  rw [parseFooter, hp.trans (congrArg _ ho)]
  simp only [bind, Except.bind, hk']
  rfl

-- A key has to be named by a text.
theorem kid_of_canonicalize {ms : Map} {kid : GoString} {b : List UInt8}
    (hm : (Bytes.ofString "kid", .string kid) ∈ ms) (h : canonicalize (.map ms) = .ok b) :
    (Bytes.toString? kid).isSome := by
  obtain ⟨_, hw, _⟩ := map_eq_ok_iff.mp h
  have hk : (Bytes.ofString "kid", writeString kid) ∈ writtenMembers ms := by
    clear h hw
    induction ms
    case nil => cases hm
    case cons m ms ih =>
      rw [writtenMembers]
      rcases List.mem_cons.mp hm with rfl | hm
      · exact List.mem_cons_self
      · exact List.mem_cons_of_mem _ (ih hm)
  obtain ⟨_, _, _, hv⟩ := of_writeObject hw _ hk
  obtain ⟨t, ht⟩ := eq_ofString_of_written hv
  rw [ht]
  rfl

theorem headerBytes_error (alg : GoString) {kid : GoString} (h : Bytes.toString? kid = none) :
    ∃ e, port.headerBytes alg kid = .error e := by
  refine error_of_not_ok fun b hb => ?_
  have hs : (Bytes.toString? kid).isSome := kid_of_canonicalize (by simp) hb
  rw [h] at hs
  contradiction

theorem footerBytes_error {kid : GoString} (h : Bytes.toString? kid = none) :
    ∃ e, port.footerBytes kid = .error e := by
  refine error_of_not_ok fun b hb => ?_
  have hs : (Bytes.toString? kid).isSome := kid_of_canonicalize (by simp) hb
  rw [h] at hs
  contradiction

def SamePayload (v w : Map) : Prop :=
  ∃ d, (Value.map v).Denotes d ∧ (Value.map w).Denotes d

theorem roundTrips_iff {codec : TokenCodec GoString Map} (hc : codec ∈ port.codecs)
    {input : CodecEncodeInput GoString Map} {b sig : List UInt8}
    (hv : (Value.map input.payload).IsValue) (h : port.canonicalize input.payload = .ok b)
    (ha : codec.supportsAlg input.alg) (hk : input.kid ≠ [])
    (hl : codec.tokenPrefix = lic2Prefix → sig.length = ed25519SigLen) :
    port.RoundTrips SamePayload codec input sig ↔ (Bytes.toString? input.kid).isSome := by
  have hp : ∃ o, parseJSONObject b "payload" = .ok o ∧ SamePayload input.payload o := by
    obtain ⟨o, ho, _, hs⟩ := readsBack hv h "payload"
    exact ⟨o, ho, hs⟩
  obtain ⟨d, _, he⟩ := encodes_of_ok hv h
  cases ht : Bytes.toString? input.kid
  case none =>
    refine iff_of_false ?_ (by simp)
    rcases List.mem_pair.mp hc with rfl | rfl
    · obtain ⟨_, hh⟩ := headerBytes_error input.alg ht
      exact Port.not_roundTrips_lic1 hh
    · obtain ⟨_, hf⟩ := footerBytes_error ht
      exact Port.not_roundTrips_lic2 hf
  case some kid =>
    refine iff_of_true ?_ rfl
    have hkid : input.kid = Bytes.ofString kid := (Bytes.toString?_eq_some ht).symm
    have hne : kid ≠ "" := by
      rintro rfl
      exact hk hkid
    rcases List.mem_pair.mp hc with rfl | rfl
    · obtain ⟨alg, hm, halg⟩ := List.mem_map.mp (of_decide_eq_true ha)
      have halg : input.alg = Bytes.ofString alg := halg.symm
      have hh : port.headerBytes input.alg input.kid = .ok (headerJSON alg kid) := by
        rw [halg, hkid]
        exact headerBytes_eq
      have hd : port.parseHeader (headerJSON alg kid) = .ok ⟨input.alg, input.kid⟩ := by
        rw [halg, hkid]
        exact parseHeader_eq hm hne
      exact (Port.roundTrips_lic1_iff lawful hh h hd).mpr hp
    · have halg : input.alg = port.literal algEd25519 := of_decide_eq_true ha
      have hf : port.footerBytes input.kid = .ok (footerJSON kid) := by
        rw [hkid]
        exact footerBytes_eq kid
      have hd : port.parseFooter (footerJSON kid) = .ok input.kid := by
        rw [hkid]
        exact parseFooter_eq hne
      exact (Port.roundTrips_lic2_iff lawful halg hf h hd
        ⟨he.ne_nil, (encodes_footerData kid).ne_nil⟩ (hl rfl)).mpr hp

end Go

namespace Ts

theorem ofInt_eq {n : Int} (h : n.natAbs < 2 ^ 53) :
    Binary64.ofInt n = Binary64.ofLiteral (intText n) := by
  rw [ofLiteral_intText h]
  exact Binary64.rounded_of_lt _ h

theorem chars?_ofString (s : String) : Value.chars? (JsString.ofString s) = some s.toList := by
  rw [Value.chars?, JsString.ofString, if_pos (paired_utf16 _), textOfUnits_utf16]

theorem ofString_injective : Function.Injective JsString.ofString := fun _ _ h =>
  String.toList_inj.mp (utf16_injective h)

theorem headerBytes_eq (alg kid : String) :
    port.headerBytes (JsString.ofString alg) (JsString.ofString kid) =
      .ok (headerJSON alg kid) := by
  have hn : (Binary64.ofInt 1).toInt? = some 1 := by
    rw [ofInt_eq (by decide), toInt?_ofLiteral_intText (by decide)]
  have hd : (header (JsString.ofString alg) (JsString.ofString kid)).data? =
      some (headerData alg.toList kid.toList) := by
    simp [header, Value.data?, Value.members?, hn, chars?_ofString, headerData]
  have he := encodes_headerData alg kid
  exact ((canonical hd he.distinct).object rfl).accepted he.safe

-- An object without a member `__proto__` is read as its members.
theorem parseObject_eq {d : Data} {b : List UInt8} {ms : List (List Char × Data)} (h : Encodes d b)
    (hms : d.normal = .obj ms) (ha : d.Avoids "__proto__".toList) (errors : ObjectErrors) :
    parseObject errors b = .ok (.object (ms.map fun m => (utf16 m.1, ofRaw m.2.raw)) none) := by
  have hs := (Data.safe_normal d).mpr h.safe
  have hd := (Data.distinct_normal d).mpr h.distinct
  have hn := (Data.avoids_normal _ d).mpr ha
  have hp : ∀ m ∈ Data.rawMembers ms, units m.1 ≠ proto := by
    rw [hms] at hn
    rw [rawMembers_eq, List.forall_mem_map]
    intro m hm
    rw [units_map, proto_eq, utf16_injective.ne_iff]
    exact ((Data.avoidMembers_iff _ ms).mp hn m hm).1
  refine (h.ts_parse errors).mpr ⟨firstFault_raw _ hs hd hn, ?_⟩
  rw [hms, Data.raw, ofRaw_obj_of_plain hp, rawMembers_eq, List.map_map]
  exact congrArg (Value.object · none) <| List.map_congr_left fun m _ => by simp [units_map]

theorem parseHeader_eq {alg kid : String} (ha : alg ∈ headerAllowedAlgs) (hk : kid ≠ "") :
    parseHeader (headerJSON alg kid) =
      .ok ⟨JsString.ofString alg, JsString.ofString kid⟩ := by
  have hp : parseObject (lic1Errors "header") (headerJSON alg kid) =
      .ok (.object [(JsString.ofString "alg", .string (JsString.ofString alg)),
        (JsString.ofString "kid", .string (JsString.ofString kid)),
        (JsString.ofString "typ", .string (JsString.ofString "lic")),
        (JsString.ofString "v", .number (.ofInt 1))] none) := by
    rw [parseObject_eq (encodes_headerData _ _) (normal_headerData _ _) ⟨⟨by decide, trivial⟩,
      ⟨by decide, trivial⟩, ⟨by decide, trivial⟩, ⟨by decide, trivial⟩, trivial⟩]
    simp only [List.map_cons, List.map_nil, Data.raw, ofRaw, units_map, ofInt_eq (n := 1) (by decide)]
    rfl
  generalize hobj : Value.object [(JsString.ofString "alg", .string (JsString.ofString alg)),
        (JsString.ofString "kid", .string (JsString.ofString kid)),
        (JsString.ofString "typ", .string (JsString.ofString "lic")),
        (JsString.ofString "v", .number (.ofInt 1))] none = obj at hp
  have hu : obj.keys.find? (fun k => k ∉ headerFields.map JsString.ofString) = none := hobj ▸ rfl
  have hm : headerFields.find? (fun f => (obj.get? f).isNone) = none := hobj ▸ rfl
  have hv : (obj.get? "v").bind Value.asNumber = some (.ofInt 1) := hobj ▸ rfl
  have ht : (obj.get? "typ").bind Value.asString = some (JsString.ofString "lic") := hobj ▸ rfl
  have ha' : (obj.get? "alg").bind Value.asString = some (JsString.ofString alg) := hobj ▸ rfl
  have hk' : (obj.get? "kid").bind Value.asString = some (JsString.ofString kid) := hobj ▸ rfl
  have hn : JsString.ofString kid ≠ [] := fun h => hk (ofString_injective h)
  have hin : JsString.ofString alg ∈ headerAllowedAlgs.map JsString.ofString :=
    List.mem_map_of_mem ha
  rw [parseHeader, parseJSONObject, hp]
  simp only [bind, Except.bind, hu, hm, hv, ht, ha', hk', hin, not_true_eq_false, ne_eq, if_false]
  rfl

theorem footerBytes_eq (kid : String) :
    port.footerBytes (JsString.ofString kid) = .ok (footerJSON kid) := by
  have hd : (Value.object [(JsString.ofString "kid", .string (JsString.ofString kid))] none).data? =
      some (footerData kid.toList) := by
    simp [Value.data?, Value.members?, chars?_ofString, footerData]
  have he := encodes_footerData kid
  exact ((canonical hd he.distinct).object rfl).accepted he.safe

theorem parseFooter_eq {kid : String} (hk : kid ≠ "") :
    parseFooter (footerJSON kid) = .ok (JsString.ofString kid) := by
  have hp : parseObject (lic2Errors "footer") (footerJSON kid) =
      .ok (.object [(JsString.ofString "kid", .string (JsString.ofString kid))] none) := by
    have hm : (footerData kid.toList).normal = .obj [("kid".toList, .str kid.toList)] := rfl
    rw [parseObject_eq (encodes_footerData _) hm ⟨⟨by decide, trivial⟩, trivial⟩]
    simp only [List.map_cons, List.map_nil, Data.raw, ofRaw, units_map]
    rfl
  have hk' : ((Value.object [(JsString.ofString "kid", .string (JsString.ofString kid))] none).get?
      "kid").bind Value.asString = some (JsString.ofString kid) := rfl
  have hn : JsString.ofString kid ≠ [] := fun h => hk (ofString_injective h)
  rw [parseFooter, parseLIC2Object, hp]
  simp only [bind, Except.bind, hk']
  rfl

theorem kid_of_canonicalize {own : List (JsString × Value)} {kid : JsString} {b : List UInt8}
    (hm : (JsString.ofString "kid", .string kid) ∈ own) (h : canonicalize (.object own none) = .ok b) :
    paired kid := by
  obtain ⟨_, hw, _⟩ := map_eq_ok_iff.mp h
  have hk : (JsString.ofString "kid", writeString kid) ∈ writtenMembers own := by
    clear h hw
    induction own
    case nil => cases hm
    case cons m ms ih =>
      rw [writtenMembers]
      rcases List.mem_cons.mp hm with rfl | hm
      · exact List.mem_cons_self
      · exact List.mem_cons_of_mem _ (ih hm)
  obtain ⟨_, _, _, hv⟩ := of_writeObject hw _ hk
  obtain ⟨_, hv, _⟩ := bind_eq_ok_iff.mp hv
  exact validateUtf16_eq_ok_iff.mp hv

theorem headerBytes_error (alg : JsString) {kid : JsString} (h : ¬paired kid) :
    ∃ e, port.headerBytes alg kid = .error e :=
  error_of_not_ok fun _ hb => h <| kid_of_canonicalize (by simp) hb

theorem footerBytes_error {kid : JsString} (h : ¬paired kid) : ∃ e, port.footerBytes kid = .error e :=
  error_of_not_ok fun _ hb => h <| kid_of_canonicalize (by simp) hb

def SamePayload (v w : Value) : Prop :=
  ∃ d, v.Denotes d ∧ w.Denotes d

theorem roundTrips_iff {codec : TokenCodec JsString Value} (hc : codec ∈ port.codecs)
    {input : CodecEncodeInput JsString Value} {b sig : List UInt8} (hv : input.payload.IsValue)
    (h : port.canonicalize input.payload = .ok b) (ha : codec.supportsAlg input.alg)
    (hk : input.kid ≠ []) (hl : codec.tokenPrefix = lic2Prefix → sig.length = ed25519SigLen) :
    port.RoundTrips SamePayload codec input sig ↔
      paired input.kid ∧ input.payload.Avoids proto := by
  have hp errors : (∃ w, parseObject errors b = .ok w ∧ SamePayload input.payload w) ↔
      input.payload.Avoids proto :=
    yields_iff hv h errors
  obtain ⟨d, _, he⟩ := encodes_of_ok hv h
  by_cases ht : paired input.kid
  case neg =>
    refine iff_of_false ?_ fun h => ht h.1
    rcases List.mem_pair.mp hc with rfl | rfl
    · obtain ⟨_, hh⟩ := headerBytes_error input.alg ht
      exact Port.not_roundTrips_lic1 hh
    · obtain ⟨_, hf⟩ := footerBytes_error ht
      exact Port.not_roundTrips_lic2 hf
  case pos =>
    obtain ⟨kid, hkid⟩ : ∃ s, input.kid = JsString.ofString s :=
      ⟨.ofList (textOfUnits input.kid), by
        rw [JsString.ofString, String.toList_ofList, utf16_textOfUnits ht]⟩
    have hne : kid ≠ "" := by
      rintro rfl
      exact hk hkid
    rw [and_iff_right ht]
    rcases List.mem_pair.mp hc with rfl | rfl
    · obtain ⟨alg, hm, halg⟩ := List.mem_map.mp (of_decide_eq_true ha)
      have halg : input.alg = JsString.ofString alg := halg.symm
      have hh : port.headerBytes input.alg input.kid = .ok (headerJSON alg kid) := by
        rw [halg, hkid]
        exact headerBytes_eq alg kid
      have hd : port.parseHeader (headerJSON alg kid) = .ok ⟨input.alg, input.kid⟩ := by
        rw [halg, hkid]
        exact parseHeader_eq hm hne
      exact (Port.roundTrips_lic1_iff lawful hh h hd).trans (hp _)
    · have halg : input.alg = port.literal algEd25519 := of_decide_eq_true ha
      have hf : port.footerBytes input.kid = .ok (footerJSON kid) := by
        rw [hkid]
        exact footerBytes_eq kid
      have hd : port.parseFooter (footerJSON kid) = .ok input.kid := by
        rw [hkid]
        exact parseFooter_eq hne
      exact (Port.roundTrips_lic2_iff lawful halg hf h hd
        ⟨he.ne_nil, (encodes_footerData kid).ne_nil⟩ (hl rfl)).trans (hp _)

end Ts

-- A token of the key `k1`, whatever its signature is.
def sampleToken (d : Data) : String :=
  lic1Text (headerJSON "ed25519" "k1") (bytesOf d.normal.text) []

theorem Go.decodeEnvelope_sampleToken {d : Data} {ms : List (List Char × Data)}
    (h : Encodes d (bytesOf d.normal.text)) (hms : d.normal = .obj ms) :
    ∃ parts, decodeEnvelope (Bytes.ofString (sampleToken d)) = .ok parts ∧
      parts.header = ⟨Bytes.ofString "ed25519", Bytes.ofString "k1"⟩ ∧
      parts.payload = ofMembers (Data.rawMembers ms) := by
  have hh : port.parseHeader (headerJSON "ed25519" "k1") = _ := parseHeader_eq (by decide) (by decide)
  have hp : port.parsePayload (bytesOf d.normal.text) = _ := h.go_parse_eq hms "payload"
  have he := lawful.decodeEnvelope_lic1Token [] hh hp
  rw [← ofString_lic1Text] at he
  exact ⟨_, he, rfl, rfl⟩

theorem Ts.decodeUnverified_sampleToken {d : Data} {ms : List (List Char × Data)}
    (h : Encodes d (bytesOf d.normal.text)) (hms : d.normal = .obj ms)
    (ha : d.Avoids "__proto__".toList) :
    ∃ parts, decodeUnverified (.ofString (sampleToken d)) = .ok parts ∧
      parts.header = ⟨.ofString "ed25519", .ofString "k1"⟩ ∧
      parts.payload = .object (ms.map fun m => (utf16 m.1, ofRaw m.2.raw)) none := by
  have hh : port.parseHeader (headerJSON "ed25519" "k1") = _ := parseHeader_eq (by decide) (by decide)
  have hp : port.parsePayload (bytesOf d.normal.text) = _ := parseObject_eq h hms ha _
  have he := lawful.decodeEnvelope_lic1Token [] hh hp
  rw [← ofString_lic1Text] at he
  exact ⟨_, he, rfl, rfl⟩

-- A token is decoded to what was encoded, if the key is named by a text. The TypeScript port has to
-- read the payload back, too.
theorem roundTrips_iff_avoids_proto (b sig : List UInt8) :
    (∀ codec ∈ Go.port.codecs, ∀ input, (Go.Value.map input.payload).IsValue →
      Go.port.canonicalize input.payload = .ok b → codec.supportsAlg input.alg → input.kid ≠ [] →
      (codec.tokenPrefix = lic2Prefix → sig.length = ed25519SigLen) →
      (Go.port.RoundTrips Go.SamePayload codec input sig ↔ (Bytes.toString? input.kid).isSome)) ∧
    (∀ codec ∈ Ts.port.codecs, ∀ input, input.payload.IsValue →
      Ts.port.canonicalize input.payload = .ok b → codec.supportsAlg input.alg → input.kid ≠ [] →
      (codec.tokenPrefix = lic2Prefix → sig.length = ed25519SigLen) →
      (Ts.port.RoundTrips Ts.SamePayload codec input sig ↔
        paired input.kid ∧ input.payload.Avoids Ts.proto)) :=
  ⟨fun _ hc _ hv h ha hk hl => Go.roundTrips_iff hc hv h ha hk hl,
    fun _ hc _ hv h ha hk hl => Ts.roundTrips_iff hc hv h ha hk hl⟩

def twoSeats : Data :=
  .obj [("jti".toList, .str "t1".toList), ("max_usages".toList, .int 2)]

def Go.twoSeats : Map :=
  [(Bytes.ofString "jti", .string (Bytes.ofString "t1")), (Bytes.ofString "max_usages", .int64 2)]

def Ts.twoSeats : Value :=
  .object [(.ofString "jti", .string (.ofString "t1")),
    (.ofString "max_usages", .number (.finite false (2 * Binary64.one)))] none

theorem Go.data?_twoSeats : (Value.map twoSeats).data? = some Licensing.twoSeats := by
  simp only [twoSeats, Value.data?, Value.members?, Bytes.toString?_ofString]
  rfl

theorem Ts.data?_twoSeats : twoSeats.data? = some Licensing.twoSeats := by
  have two : (Binary64.finite false (2 * Binary64.one)).toInt? = some 2 := Binary64.toInt?_finite nofun
  simp only [twoSeats, Value.data?, Value.members?, two]
  rfl

theorem distinct_twoSeats : twoSeats.Distinct :=
  ⟨by decide, trivial, trivial, trivial⟩

theorem roundTrips_iff_avoids_proto_lic2 :
    Go.port.RoundTrips Go.SamePayload Go.port.lic2Codec
      ⟨Bytes.ofString "ed25519", Bytes.ofString "k1", Go.twoSeats⟩ (List.replicate 64 0) ∧
    Ts.port.RoundTrips Ts.SamePayload Ts.port.lic2Codec
      ⟨Ts.JsString.ofString "ed25519", Ts.JsString.ofString "k1", Ts.twoSeats⟩ (List.replicate 64 0) := by
  have safe : twoSeats.Safe := by simp [twoSeats, Data.Safe, Data.SafeMembers]
  constructor
  case left =>
    have written := ((Go.canonical Go.data?_twoSeats).object rfl).accepted safe
    have supports : Go.port.lic2Codec.supportsAlg (Bytes.ofString "ed25519") := by decide
    have distinct : (Go.Value.map Go.twoSeats).IsValue := ⟨by decide, trivial, trivial, trivial⟩
    exact ((roundTrips_iff_avoids_proto _ (List.replicate 64 0)).1 Go.port.lic2Codec (by simp [Port.codecs])
      ⟨Bytes.ofString "ed25519", Bytes.ofString "k1", Go.twoSeats⟩ distinct written supports (by decide)
      fun _ => List.length_replicate).mpr (by rw [Bytes.toString?_ofString]; rfl)
  case right =>
    have canonicalize : Ts.canonicalize = Ts.port.canonicalize := rfl
    have written := ((Ts.canonical Ts.data?_twoSeats distinct_twoSeats).object rfl).accepted safe
    rw [canonicalize] at written
    have supports : Ts.port.lic2Codec.supportsAlg (Ts.JsString.ofString "ed25519") := by decide
    have distinct : Ts.twoSeats.IsValue := ⟨by decide, trivial, trivial, trivial⟩
    have named : Ts.JsString.ofString "k1" ≠ [] := by decide
    have text : paired (Ts.JsString.ofString "k1") := by decide
    have avoids : Ts.twoSeats.Avoids Ts.proto := ⟨⟨by decide, trivial⟩, ⟨by decide, trivial⟩, trivial⟩
    exact ((roundTrips_iff_avoids_proto _ (List.replicate 64 0)).2 Ts.port.lic2Codec (by simp [Port.codecs])
      ⟨Ts.JsString.ofString "ed25519", Ts.JsString.ofString "k1", Ts.twoSeats⟩ distinct written supports named
      fun _ => List.length_replicate).mpr ⟨text, avoids⟩

theorem not_roundTrips :
    ¬∀ codec ∈ Ts.port.codecs, ∀ input b sig, input.payload.IsValue →
      Ts.port.canonicalize input.payload = .ok b → codec.supportsAlg input.alg → input.kid ≠ [] →
      (codec.tokenPrefix = lic2Prefix → sig.length = ed25519SigLen) →
      Ts.port.RoundTrips Ts.SamePayload codec input sig := by
  intro h
  let payload : Ts.Value := .object [(Ts.proto, .null)] none
  let input : CodecEncodeInput Ts.JsString Ts.Value := ⟨.ofString "ed25519", .ofString "k1", payload⟩
  have hd : payload.data? = some (.obj [("__proto__".toList, .null)]) := rfl
  have hn : Data.Distinct (.obj [("__proto__".toList, .null)]) := ⟨by simp, trivial, trivial⟩
  have hw := ((Ts.canonical hd hn).object rfl).accepted ⟨trivial, trivial⟩
  have hv : payload.IsValue := ⟨by simp, trivial, trivial⟩
  have ha : Ts.port.lic2Codec.supportsAlg input.alg := by decide
  have hc : Ts.port.lic2Codec ∈ Ts.port.codecs := by simp [Port.codecs]
  have hi : Ts.port.RoundTrips Ts.SamePayload Ts.port.lic2Codec input (List.replicate 64 0) ↔
      paired input.kid ∧ input.payload.Avoids Ts.proto :=
    Ts.roundTrips_iff hc hv hw ha (by decide) fun _ => List.length_replicate
  have hr := h _ hc input _ (List.replicate 64 0) hv hw ha (by decide) fun _ => List.length_replicate
  exact (hi.mp hr).2.1.1 rfl

end Licensing
