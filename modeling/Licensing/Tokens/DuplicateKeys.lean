import Licensing.Tokens.RoundTrip
import Licensing.Tokens.Verify

-- Texts in which an object repeats a name, and the tokens that carry them.

namespace Licensing

open JsonText

-- The bytes are what the token has for a header, a footer or a payload.
inductive Port.Carries {α P : Type} [DecidableEq α] (p : Port α P) (token : List α)
    (b : List UInt8) : Prop
  | lic1Header {name header payload sig} : p.literal lic1Prefix <+: token →
    token.splitOn p.dot = [name, header, payload, sig] → p.base64urlDecode header = .ok b →
    p.Carries token b
  | lic1Payload {name header payload sig} : p.literal lic1Prefix <+: token →
    token.splitOn p.dot = [name, header, payload, sig] → p.base64urlDecode payload = .ok b →
    p.Carries token b
  | lic2Footer {body footer} : ¬p.literal lic1Prefix <+: token → p.literal lic2Prefix <+: token →
    (token.drop (p.literal lic2Prefix).length).splitOn p.dot = [body, footer] →
    p.base64urlDecode footer = .ok b → p.Carries token b
  | lic2Payload {body footer signature} : ¬p.literal lic1Prefix <+: token →
    p.literal lic2Prefix <+: token →
    (token.drop (p.literal lic2Prefix).length).splitOn p.dot = [body, footer] →
    p.base64urlDecode body = .ok (b ++ signature) → signature.length = ed25519SigLen →
    p.Carries token b

-- Nothing that a codec parses the bytes as is accepted.
structure Port.Rejects {α P : Type} (p : Port α P) (b : List UInt8) : Prop where
  header  : ∀ h, p.parseHeader b ≠ .ok h
  payload : ∀ o, p.parsePayload b ≠ .ok o
  footer  : ∀ kid, p.parseFooter b ≠ .ok kid
  message : ∀ o, p.parseMessage b ≠ .ok o

namespace Port

variable {α P : Type} [DecidableEq α] {p : Port α P} {token : List α} {b : List UInt8}

theorem decodeEnvelope_of_carries (hr : p.Rejects b) (hc : p.Carries token b) :
    ∃ e, p.decodeEnvelope token = .error e := by
  refine error_of_not_ok fun parts h => ?_
  cases decoded_of_decodeEnvelope h
  case lic1 hp hs hh hb _ ho hl =>
    cases hc
    case lic1Header hs' hd =>
      cases hs.symm.trans hs'
      cases hh.symm.trans hd
      exact hr.header _ ho
    case lic1Payload hs' hd =>
      cases hs.symm.trans hs'
      cases hb.symm.trans hd
      exact hr.payload _ hl
    case lic2Footer hn _ _ _      => exact hn hp
    case lic2Payload hn _ _ _ _   => exact hn hp
  case lic2 hn _ hs hb hl hf hk hm =>
    cases hc
    case lic1Header hp _ _  => exact hn hp
    case lic1Payload hp _ _ => exact hn hp
    case lic2Footer hs' hd =>
      cases hs.symm.trans hs'
      cases hf.symm.trans hd
      exact hr.footer _ hk
    case lic2Payload hs' hd hl' =>
      cases hs.symm.trans hs'
      obtain ⟨rfl, _⟩ := List.append_inj' (Except.ok.inj (hb.symm.trans hd)) (hl.trans hl'.symm)
      exact hr.message _ hm

-- No backend is asked about such a token, and it is not accepted.
theorem verifyEnvelope_of_carries {β κ : Type} {alg : β → List α} (hr : p.Rejects b)
    (hc : p.Carries token b) (opts : VerifyOptions alg) :
    ∃ e, (p.verifyEnvelope opts token : Verification (List α) β κ _) = .throw e := by
  obtain ⟨e, he⟩ := decodeEnvelope_of_carries hr hc
  exact ⟨e, by rw [verifyEnvelope, he]; rfl⟩

end Port

-- The bytes of a text are read as that text.

theorem toString?_bytesOf (cs : List Char) : Bytes.toString? (bytesOf cs) = some (.ofList cs) :=
  Bytes.toString?_ofString _

theorem textDecode_bytesOf {cs : List Char} {raw : Raw} (h : parse cs = some raw) :
    Ts.textDecode (bytesOf cs) = some cs := by
  rw [textDecode_of_no_mark (toString?_bytesOf cs), String.toList_ofList]
  intro cs' hc
  rw [String.toList_ofList] at hc
  obtain ⟨_, hv, _⟩ := parse_eq_some_iff.mp h
  rw [hc, value_mark] at hv
  contradiction

-- Names that have the same code units are the same to both ports.
mutual

theorem distinct_units : (raw : Raw) → raw.Distinct Go.stringOf → raw.Distinct units
  | .null, _ | .bool _, _ | .num _, _ | .str _, _ => trivial
  | .arr xs, h => distinct_unitsElements xs h
  | .obj ms, h => ⟨nodup_units h.1, distinct_unitsMembers ms h.2⟩

theorem distinct_unitsElements : (xs : List Raw) → Raw.DistinctElements Go.stringOf xs →
    Raw.DistinctElements units xs
  | [], _      => trivial
  | x :: xs, h => ⟨distinct_units x h.1, distinct_unitsElements xs h.2⟩

theorem distinct_unitsMembers : (ms : List (List Piece × Raw)) → Raw.DistinctMembers Go.stringOf ms →
    Raw.DistinctMembers units ms
  | [], _           => trivial
  | (_, v) :: ms, h => ⟨distinct_units v h.1, distinct_unitsMembers ms h.2⟩

end

namespace Go

-- What the port does with a text that has to be rejected for a repeated name.
structure RejectsDuplicate (cs : List Char) : Prop where
  strict : ∀ label, ∃ e, parseJSONObject (bytesOf cs) label = .error e ∧
    e.HasCode .canonicalJSONDuplicateKey
  verifyEnvelope : ∀ {β κ : Type} {alg : β → GoString} (opts : VerifyOptions alg) token,
    port.Carries token (bytesOf cs) →
      ∃ e, (verifyEnvelope opts token : Verification GoString β κ _) = .throw e
  verify : ∀ {β κ : Type} {alg : β → GoString} (opts : VerifyOptions alg) token,
    port.Carries token (bytesOf cs) →
      ∃ e, (verify opts token : Verification GoString β κ _) = .throw e

theorem rejects {b : List UInt8} (h : ∀ label, ∃ e, parseJSONObject b label = .error e) :
    port.Rejects b where
  header x hx := by
    obtain ⟨_, ho, _⟩ := bind_eq_ok_iff.mp hx
    obtain ⟨_, he⟩ := h "header"
    cases ho.symm.trans he
  payload o ho := by
    obtain ⟨_, he⟩ := h "payload"
    cases Eq.trans (Eq.symm ho) he
  footer kid hk := by
    obtain ⟨_, ho, _⟩ := bind_eq_ok_iff.mp hk
    obtain ⟨_, he⟩ := h "footer"
    cases ho.symm.trans he
  message o ho := by
    obtain ⟨_, he⟩ := h "payload"
    cases Eq.trans (Eq.symm ho) he

theorem rejectsDuplicate {cs : List Char} {raw : Raw} (h : parse cs = some raw)
    (hd : ¬raw.Distinct units) : RejectsDuplicate cs := by
  have strict : ∀ label, ∃ e, parseJSONObject (bytesOf cs) label = .error e ∧
      e.HasCode .canonicalJSONDuplicateKey := by
    intro label
    obtain ⟨rest, hv, _⟩ := parse_eq_some_iff.mp h
    rw [← String.toList_ofList (l := cs)] at hv
    exact parseJSONObject_duplicate label (toString?_bytesOf cs) hv (hd ∘ distinct_units raw)
  have hr : port.Rejects (bytesOf cs) := rejects fun label =>
    have ⟨e, he, _⟩ := strict label
    ⟨e, he⟩
  refine ⟨strict, fun opts token hc => Port.verifyEnvelope_of_carries hr hc opts, ?_⟩
  intro β κ alg opts token hc
  obtain ⟨e, he⟩ : ∃ e, decodeUnverified token = .error e := by
    obtain ⟨_, hn⟩ := Port.decodeEnvelope_of_carries hr hc
    refine error_of_not_ok fun parts hp => ?_
    cases (decodeEnvelope_of_decodeUnverified hp).symm.trans hn
  exact ⟨e, by rw [Go.verify, he]; rfl⟩

end Go

namespace Ts

structure RejectsDuplicate (cs : List Char) : Prop where
  strict : ∃ key, strictParse cs = .error (.canonicalJSONDuplicateKey key)
  lic1 : ∀ label, ∃ e, parseJSONObject (bytesOf cs) label = .error e ∧
    e.HasCode .canonicalJSONDuplicateKey
  lic2 : ∀ label, ∃ key, parseLIC2Object (bytesOf cs) label =
    .error ((lic2Errors label).strict (.canonicalJSONDuplicateKey key))
  verify : ∀ {β κ : Type} {alg : β → JsString} (opts : VerifyOptions alg) token,
    port.Carries token (bytesOf cs) →
      ∃ e, (verify opts token : Verification JsString β κ _) = .throw e

theorem rejects {b : List UInt8} (h : ∀ errors, ∃ e, parseObject errors b = .error e) :
    port.Rejects b where
  header x hx := by
    obtain ⟨_, ho, _⟩ := bind_eq_ok_iff.mp hx
    obtain ⟨_, he⟩ := h (lic1Errors "header")
    cases ho.symm.trans he
  payload o ho := by
    obtain ⟨_, he⟩ := h (lic1Errors "payload")
    cases Eq.trans (Eq.symm ho) he
  footer kid hk := by
    obtain ⟨_, ho, _⟩ := bind_eq_ok_iff.mp hk
    obtain ⟨_, he⟩ := h (lic2Errors "footer")
    cases ho.symm.trans he
  message o ho := by
    obtain ⟨_, he⟩ := h (lic2Errors "payload")
    cases Eq.trans (Eq.symm ho) he

theorem rejectsDuplicate_iff {cs : List Char} {raw : Raw} (h : parse cs = some raw) :
    RejectsDuplicate cs ↔ ∃ key, firstFault raw = some (.canonicalJSONDuplicateKey key) := by
  have hp := strictParse_of_parse h
  refine ⟨fun hr => ?_, fun ⟨key, hf⟩ => ?_⟩
  · obtain ⟨key, hs⟩ := hr.strict
    rw [hp] at hs
    cases hf : firstFault raw <;> rw [hf] at hs <;> cases hs
    exact ⟨key, rfl⟩
  · rw [hf] at hp
    have ho errors : parseObject errors (bytesOf cs) =
        .error (errors.strict (.canonicalJSONDuplicateKey key)) := by
      rw [parseObject, textDecode_bytesOf h]
      dsimp only
      rw [hp]
      rfl
    refine ⟨⟨key, hp⟩, fun label => ⟨_, ho _, hasCode_newError _ _⟩, fun label => ⟨key, ho _⟩, ?_⟩
    intro β κ alg opts token hc
    exact Port.verifyEnvelope_of_carries (rejects fun errors => ⟨_, ho errors⟩) hc opts

end Ts

-- The Go port rejects every text that repeats a name. The other one rejects those in which a name is
-- found to be repeated, before anything else is found.
theorem rejectsDuplicate_iff_firstFault {cs : List Char} {raw : Raw} (hp : parse cs = some raw)
    (hd : ¬raw.Distinct units) :
    Go.RejectsDuplicate cs ∧
      (Ts.RejectsDuplicate cs ↔
        ∃ key, Ts.firstFault raw = some (.canonicalJSONDuplicateKey key)) :=
  ⟨Go.rejectsDuplicate hp hd, Ts.rejectsDuplicate_iff hp⟩

-- The same member twice.
def twice (name : List Char) : Data :=
  .obj [(name, .bool true), (name, .bool true)]

theorem parse_twice (name : List Char) : parse (twice name).text = some (twice name).raw :=
  parse_eq_some_iff.mpr ⟨[], parse_text _, rfl⟩

theorem not_distinct_twice (name : List Char) : ¬(twice name).raw.Distinct units := by
  intro h
  have hn := h.1
  rw [Data.rawMembers, Data.rawMembers, List.map_cons, List.map_cons, List.nodup_cons] at hn
  exact hn.1 List.mem_cons_self

theorem firstFault_twice (name : List Char) : Ts.firstFault (twice name).raw =
    if utf16 name = Ts.proto then none else some (.canonicalJSONDuplicateKey (utf16 name)) := by
  simp only [twice, Data.raw, Data.rawMembers, Ts.firstFault, Ts.membersFault, units_map]
  by_cases hp : utf16 name = Ts.proto <;> simp [hp, Ts.detaches]

theorem rejectsDuplicate_iff_firstFault_twice :
    Go.RejectsDuplicate (twice "kid".toList).text ∧ Ts.RejectsDuplicate (twice "kid".toList).text :=
  (rejectsDuplicate_iff_firstFault (parse_twice _) (not_distinct_twice _)).imp_right fun h =>
    h.mpr ⟨_, (firstFault_twice _).trans (if_neg (by decide))⟩

theorem not_rejectsDuplicate :
    ¬∀ cs raw, parse cs = some raw → ¬raw.Distinct units → Ts.RejectsDuplicate cs := by
  intro h
  have hr := h _ _ (parse_twice "__proto__".toList) (not_distinct_twice _)
  obtain ⟨key, hf⟩ := (Ts.rejectsDuplicate_iff (parse_twice _)).mp hr
  rw [firstFault_twice, if_pos Ts.proto_eq.symm] at hf
  contradiction

end Licensing
