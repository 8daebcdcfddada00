import Licensing.Library.Segments
import Licensing.Tokens.DuplicateKeys
import Licensing.Tokens.TokenRoundTrip

-- What the ports say of a string that is no LIC2 token.

namespace Licensing

open JsonText

-- What a caller learns from a result: an error without a code has escaped from a parser.
inductive Outcome
  | decoded
  | rejected (code : ErrorCode)
  | escaped
  deriving DecidableEq

def outcome {α : Type} : Except Error α → Outcome
  | .ok _                      => .decoded
  | .error (.licensing code _) => .rejected code
  | .error (.other _)          => .escaped

-- The codes of the token formats.
def Outcome.Documented (o : Outcome) : Prop :=
  o = .decoded ∨ o = .rejected .tokenMalformed ∨ o = .rejected .canonicalJSONDuplicateKey ∨
    o = .rejected .unsupportedTokenFormat

-- The Go port is sent the bytes of the string. Nothing escapes from the verification unless it
-- escapes from a backend.
structure DecodedAlike (token : Ts.JsString) : Prop where
  documented : (outcome (Ts.decodeUnverified token)).Documented
  verify     : ∀ {β κ : Type} {alg : β → Ts.JsString} (opts : VerifyOptions alg)
    (answer : (op : BackendOp Ts.JsString β κ) → op.Ans),
    (∀ b r, outcome (answer (.importPublic b r)) ≠ .escaped) →
    (∀ b k d s, outcome (answer (.verify b k d s)) ≠ .escaped) →
    outcome ((Ts.verify opts token).run answer) ≠ .escaped
  same       : outcome (Go.decodeEnvelope (utf8 token)) = outcome (Ts.decodeUnverified token)

theorem outcome_bind {α β : Type} {x : Except Error α} {f : α → Except Error β} {o : Outcome}
    (h : outcome x = o) (ho : o ≠ .decoded) : outcome (x >>= f) = o := by
  match x with
  | .ok _                      => exact (ho h.symm).elim
  | .error (.licensing code _) => exact h
  | .error (.other _)          => exact h

theorem rejected_bind {α β : Type} {x : Except Error α} {f : α → Except Error β} {code : ErrorCode}
    (h : outcome x = .rejected code) : outcome (x >>= f) = .rejected code :=
  outcome_bind h (by simp)

theorem escaped_bind {α β : Type} {x : Except Error α} {f : α → Except Error β}
    (h : outcome x = .escaped) : outcome (x >>= f) = .escaped :=
  outcome_bind h (by simp)

theorem outcome_eq_decoded_iff {α : Type} {x : Except Error α} : outcome x = .decoded ↔ ∃ a, x = .ok a := by
  match x with
  | .ok a                   => simp [outcome]
  | .error (.licensing _ _) => simp [outcome]
  | .error (.other _)       => simp [outcome]

section Segments

theorem ascii_of_sextets {cs : List Char} {ns : List Nat} (h : cs.mapM Base64.sextet? = some ns) :
    ∀ c ∈ cs, c.toNat < 0x80 := by
  obtain ⟨hs, lt⟩ := Base64.map_sextet h
  intro c hc
  rw [← hs] at hc
  obtain ⟨n, hn, rfl⟩ := List.mem_map.mp hc
  exact (by decide : ∀ n < 64, (Base64.sextet n).toNat < 0x80) n (lt n hn)

theorem charsOf_of_ascii {u : Ts.JsString} (h : ∀ c ∈ textOfUnits u, c.toNat < 0x80) :
    Go.charsOf (utf8 u) = textOfUnits u ∧ Ts.charsOf u = textOfUnits u := by
  have hp : paired u := paired_of_text fun hm => absurd (h _ hm) (by decide)
  refine ⟨Go.charsOf_ofString h, ?_⟩
  have hc := Ts.charsOf_utf16 h
  rwa [utf16_textOfUnits hp] at hc

-- A segment has the same sextets in both ports.
theorem mapM_charsOf (u : Ts.JsString) :
    (Go.charsOf (utf8 u)).mapM Base64.sextet? = (Ts.charsOf u).mapM Base64.sextet? := by
  by_cases h : ∀ c ∈ textOfUnits u, c.toNat < 0x80
  case pos => rw [(charsOf_of_ascii h).left, (charsOf_of_ascii h).right]
  case neg =>
    have go : (Go.charsOf (utf8 u)).mapM Base64.sextet? = none := by
      by_contra hn
      obtain ⟨ns, hs⟩ := Option.ne_none_iff_exists'.mp hn
      refine h fun c hc => ?_
      refine Bytes.ascii_of_ofString (s := .ofList (textOfUnits u)) (fun b hb => ?_) c (by simpa using hc)
      have ha := ascii_of_sextets hs (.ofNat b.toNat) (List.mem_map_of_mem hb)
      rwa [toNat_ofNat (.inl (Nat.lt_trans b.toNat_lt (by decide)))] at ha
    have ts : (Ts.charsOf u).mapM Base64.sextet? = none := by
      by_contra hn
      obtain ⟨ns, hs⟩ := Option.ne_none_iff_exists'.mp hn
      have ha : ∀ v ∈ u, (charOfUnit v).toNat < 0x80 := fun v hv =>
        ascii_of_sextets hs _ (List.mem_map_of_mem hv)
      rw [textOfUnits_of_ascii ha] at h
      exact h fun c hc => ascii_of_sextets hs c hc
    rw [go, ts]

-- No sextet is left over that the Go port reports with an error of its library.
def Whole (segment : Ts.JsString) : Prop :=
  ∀ ns, (Ts.charsOf segment).mapM Base64.sextet? = some ns → ns.length % 4 ≠ 1

-- The bytes of a segment are the same, or it is malformed.
inductive Segment (segment : Ts.JsString) : Prop
  | foreign {m m' : String} (go : Go.port.base64urlDecode (utf8 segment) = .error (newError .tokenMalformed m))
    (ts : Ts.port.base64urlDecode segment = .error (newError .tokenMalformed m'))
  | bytes {b : List UInt8} (go : Go.port.base64urlDecode (utf8 segment) = .ok b)
    (ts : Ts.port.base64urlDecode segment = .ok b)

theorem segment_of_whole {segment : Ts.JsString} (h : Whole segment) : Segment segment := by
  have hm := mapM_charsOf segment
  cases hs : (Ts.charsOf segment).mapM Base64.sextet?
  case none =>
    obtain ⟨m, go⟩ := go_base64urlDecode_foreign (hm.trans hs)
    obtain ⟨m', ts⟩ := ts_base64urlDecode_foreign hs
    exact .foreign go ts
  case some ns =>
    obtain ⟨bs, hb, ts⟩ := ts_base64urlDecode hs
    have go := go_base64urlDecode (hm.trans hs)
    rw [Base64.bytes_strict, if_neg (h ns hs), hb] at go
    exact .bytes go ts

-- Otherwise the error has no code.
theorem other_of_not_whole {segment : Ts.JsString} (h : ¬Whole segment) :
    ∃ m, Go.port.base64urlDecode (utf8 segment) = .error (.other m) := by
  simp only [Whole, not_forall, Decidable.not_not] at h
  obtain ⟨ns, hs, hl⟩ := h
  have go := go_base64urlDecode ((mapM_charsOf segment).trans hs)
  rw [Base64.bytes_strict, if_pos hl] at go
  exact ⟨_, go⟩

end Segments

section Objects

def isObject : Raw → Bool
  | .obj _ => true
  | _      => false

-- A text that the TypeScript port reads as JSON, with nothing in it that this port rejects.
def IsJson (p : Raw → Prop) (b : List UInt8) : Prop :=
  ∀ cs, Ts.textDecode b = some cs → ∃ raw, parse cs = some raw ∧ Ts.firstFault raw = none ∧ p raw

theorem IsJson.imp {p q : Raw → Prop} {b : List UInt8} (h : IsJson p b) (hi : ∀ raw, p raw → q raw) :
    IsJson q b := by
  intro cs hc
  obtain ⟨raw, hp, hf, hr⟩ := h cs hc
  exact ⟨raw, hp, hf, hi raw hr⟩

def Marked (b : List UInt8) : Prop :=
  Ts.byteOrderMark <+: b

variable {b : List UInt8} {cs : List Char} {raw : Raw} {label : String}

theorem textDecode_of_not_marked (h : ¬Marked b) : Ts.textDecode b = (Bytes.toString? b).map String.toList := by
  have hm : ¬Ts.byteOrderMark <+: b := h
  rw [Ts.textDecode, if_neg hm]

theorem more_of_skipSpace {rest : List Char} (h : skipSpace rest = []) : Go.more rest = false := by
  simp [Go.more, Decoder.more, h]

-- A byte order mark is malformed JSON.
theorem go_marked (h : Marked b) :
    outcome (Go.parseJSONObject b label) = .rejected .tokenMalformed := by
  cases hs : Bytes.toString? b
  case none =>
    rw [Go.parseJSONObject, hs]
    rfl
  case some s =>
    obtain ⟨bs, rfl⟩ := h
    rw [← ofString_mark] at hs
    obtain ⟨ds, hd, -⟩ := Bytes.toList_of_prefix hs
    rw [ofString_mark] at hs
    rw [Go.parseJSONObject, hs]
    dsimp only
    rw [hd]
    rfl

theorem go_untext (h : Ts.textDecode b = none) :
    outcome (Go.parseJSONObject b label) = .rejected .tokenMalformed := by
  by_cases hm : Marked b
  case pos => exact go_marked hm
  case neg =>
    rw [textDecode_of_not_marked hm, Option.map_eq_none_iff] at h
    rw [Go.parseJSONObject, h]
    rfl

theorem go_of_parse (hm : ¬Marked b) (hc : Ts.textDecode b = some cs) (hp : parse cs = some raw) :
    Go.parseJSONObject b label = (Go.strictReader label).interp raw >>= fun
      | .map o => return o
      | _      => .error (Go.tokenMalformed (label ++ " must decode to a JSON object")) := by
  rw [textDecode_of_not_marked hm] at hc
  obtain ⟨s, hs, rfl⟩ := Option.map_eq_some_iff.mp hc
  obtain ⟨rest, hv, hr⟩ := parse_eq_some_iff.mp hp
  rw [Go.parse_of_value label hs hv, more_of_skipSpace hr]
  rfl

theorem go_duplicate (hm : ¬Marked b) (hc : Ts.textDecode b = some cs) (hp : parse cs = some raw)
    (hd : ¬raw.Distinct Go.stringOf) :
    outcome (Go.parseJSONObject b label) = .rejected .canonicalJSONDuplicateKey := by
  obtain ⟨e, he, m, rfl⟩ := (Go.settles_interp label raw).rejected hd
  rw [go_of_parse hm hc hp, he]
  rfl

theorem go_object {ms : List (List Piece × Raw)} (hm : ¬Marked b) (hc : Ts.textDecode b = some cs)
    (hp : parse cs = some (.obj ms)) (hd : (Raw.obj ms).Distinct Go.stringOf) :
    Go.parseJSONObject b label = .ok (Go.ofMembers ms) := by
  rw [go_of_parse hm hc hp, (Go.settles_interp label _).accepted hd]
  rfl

theorem go_other (hm : ¬Marked b) (hc : Ts.textDecode b = some cs) (hp : parse cs = some raw)
    (hd : raw.Distinct Go.stringOf) (ho : isObject raw = false) :
    outcome (Go.parseJSONObject b label) = .rejected .tokenMalformed := by
  rw [go_of_parse hm hc hp, (Go.settles_interp label _).accepted hd]
  cases raw
  case obj => contradiction
  all_goals rfl

theorem ts_untext (h : Ts.textDecode b = none) :
    outcome (Ts.parseLIC2Object b label) = .rejected .tokenMalformed := by
  rw [Ts.parseLIC2Object, Ts.parseObject, h]
  rfl

-- The errors of the strict parser are passed on as they are.
theorem ts_escaped (h : ¬IsJson (fun _ => True) b) : outcome (Ts.parseLIC2Object b label) = .escaped := by
  simp only [IsJson, not_forall] at h
  obtain ⟨cs, hc, h⟩ := h
  rw [Ts.parseLIC2Object, Ts.parseObject, hc]
  cases hs : Ts.strictParse cs
  case error e =>
    dsimp only
    rw [hs]
    cases e <;> rfl
  case ok v =>
    obtain ⟨raw, hp, hf, -⟩ := Ts.strictParse_eq_ok_iff.mp hs
    exact (h ⟨raw, hp, hf, trivial⟩).elim

theorem ts_object {ms : List (List Piece × Raw)} (hc : Ts.textDecode b = some cs)
    (hp : parse cs = some (.obj ms)) (hf : Ts.firstFault (.obj ms) = none) :
    Ts.parseLIC2Object b label = .ok (Ts.ofRaw (.obj ms)) :=
  Ts.parseObject_eq_ok_iff.mpr ⟨cs, ms, hc, hp, hf, rfl⟩

theorem ts_other (hc : Ts.textDecode b = some cs) (hp : parse cs = some raw)
    (hf : Ts.firstFault raw = none) (ho : isObject raw = false) :
    outcome (Ts.parseLIC2Object b label) = .rejected .tokenMalformed := by
  rw [Ts.parseLIC2Object, Ts.parseObject, hc]
  dsimp only
  rw [Ts.strictParse_eq_ok_iff.mpr ⟨raw, hp, hf, rfl⟩]
  cases raw
  case obj => contradiction
  all_goals rfl

end Objects

section Kid

def kidName : Ts.JsString :=
  .ofString "kid"

-- The footer names a key, perhaps by a property that it inherits.
def Ts.NamesKid (b : List UInt8) : Prop :=
  ∃ cs raw kid, textDecode b = some cs ∧ parse cs = some raw ∧
    (ofRaw raw).get? "kid" = some (.string kid) ∧ kid ≠ []

-- The footer has a member that names a key.
def Go.NamesKid (b : List UInt8) : Prop :=
  ¬Marked b ∧ ∃ cs ms k ps, Ts.textDecode b = some cs ∧ parse cs = some (.obj ms) ∧
    (k, .str ps) ∈ ms ∧ units k = kidName ∧ units ps ≠ []

theorem stringOf_eq_kid_iff (k : List Piece) : Go.stringOf k = Bytes.ofString "kid" ↔ units k = kidName := by
  apply Iff.intro
  case mp =>
    intro h
    have ht : text k = "kid".toList := by
      have := Bytes.ofString_injective h
      rw [← this, String.toList_ofList]
    have hp : paired (units k) := paired_of_text (by rw [textOfUnits_units, ht]; decide)
    rw [(utf16_text_iff k).mpr hp, ht]
    rfl
  case mpr =>
    intro h
    have ht : text k = "kid".toList := by
      rw [← textOfUnits_units, h]
      exact textOfUnits_utf16 _
    rw [Go.stringOf, ht]
    rfl

theorem stringOf_eq_nil_iff (ps : List Piece) : Go.stringOf ps = [] ↔ units ps = [] := by
  have hu := textOfUnits_units ps
  apply Iff.intro
  case mp =>
    intro h
    have ht : text ps = [] := by
      have := Bytes.ofString_injective (h.trans (by rfl : [] = Bytes.ofString ""))
      rw [← String.toList_ofList (l := text ps), this]
      rfl
    have hp : paired (units ps) := paired_of_text (by rw [hu, ht]; simp)
    rw [(utf16_text_iff ps).mpr hp, ht]
    rfl
  case mpr =>
    intro h
    rw [h] at hu
    rw [Go.stringOf, ← hu]
    rfl

theorem go_ofMembers (ms : List (List Piece × Raw)) :
    Go.ofMembers ms = ms.map fun m => (Go.stringOf m.1, Go.ofRaw m.2) := by
  induction ms
  case nil            => rfl
  case cons m ms ih => rw [Go.ofMembers, ih, List.map_cons]

theorem go_kid_iff {ms : List (List Piece × Raw)} (hd : (ms.map fun m => Go.stringOf m.1).Nodup)
    {kid : Go.GoString} : Go.Map.as (Go.ofMembers ms) "kid" Go.Value.asString = some kid ↔
      ∃ k ps, (k, .str ps) ∈ ms ∧ units k = kidName ∧ Go.stringOf ps = kid := by
  have hn : ((Go.ofMembers ms).map Prod.fst).Nodup := by rwa [go_ofMembers, List.map_map]
  rw [Go.Map.as, Option.bind_eq_some_iff]
  apply Iff.intro
  case mp =>
    rintro ⟨v, hv, hs⟩
    obtain ⟨_, _, he, -⟩ := List.lookup_eq_some_iff.mp hv
    have hm : (Bytes.ofString "kid", v) ∈ Go.ofMembers ms := by simp [he]
    rw [go_ofMembers] at hm
    obtain ⟨⟨k, raw⟩, hr, heq⟩ := List.mem_map.mp hm
    obtain ⟨hk, rfl⟩ := Prod.mk.inj heq
    cases raw
    case str => exact ⟨k, _, hr, (stringOf_eq_kid_iff k).mp hk, Option.some.inj hs⟩
    all_goals contradiction
  case mpr =>
    rintro ⟨k, ps, hm, hk, rfl⟩
    refine ⟨.string (Go.stringOf ps), lookup_eq_some_of_mem hn ?_, rfl⟩
    rw [go_ofMembers, ← (stringOf_eq_kid_iff k).mpr hk]
    exact List.mem_map_of_mem (f := fun m => (Go.stringOf m.1, Go.ofRaw m.2)) hm

theorem lookup_assign {o : Ts.Members} {k k' : Ts.JsString} {v v' : Ts.Value}
    (h : o.own.lookup k = some v) : (o.assign k' v').own.lookup k = some v := by
  unfold Ts.Members.assign
  split
  case isTrue  => split <;> exact h
  case isFalse => simp [List.lookup_append, h]

theorem lookup_ofMembers_of_own {o : Ts.Members} {k : Ts.JsString} {v : Ts.Value}
    (h : o.own.lookup k = some v) (ms : List (List Piece × Raw)) :
    (Ts.ofMembers o ms).own.lookup k = some v := by
  induction ms generalizing o
  case nil            => exact h
  case cons m ms ih => exact ih (lookup_assign h)

-- A member of another name than `__proto__` is found, whatever `__proto__` does.
theorem lookup_ofMembers_of_mem {o : Ts.Members} {ms : List (List Piece × Raw)} {k : List Piece} {raw : Raw}
    (hk : units k ≠ Ts.proto) (hn : (ms.map fun m => units m.1).Nodup)
    (ho : o.own.lookup (units k) = none) (hm : (k, raw) ∈ ms) :
    (Ts.ofMembers o ms).own.lookup (units k) = some (Ts.ofRaw raw) := by
  induction ms generalizing o
  case nil => contradiction
  case cons m ms ih =>
    rw [List.map_cons, List.nodup_cons] at hn
    rcases List.mem_cons.mp hm with rfl | hm
    case inl =>
      refine lookup_ofMembers_of_own ?_ ms
      rw [Ts.Members.assign, if_neg fun h => hk h.left]
      simp [List.lookup_append, ho]
    case inr =>
      refine ih hn.right ?_ hm
      have hne : units k ≠ units m.1 := fun he => hn.left (he ▸ List.mem_map_of_mem (f := fun m => units m.1) hm)
      unfold Ts.Members.assign
      split
      case isTrue  => split <;> exact ho
      case isFalse => simp [List.lookup_append, ho, hne]

theorem ts_kid {cs : List Char} {ms : List (List Piece × Raw)} {b : List UInt8} {k ps : List Piece}
    (hd : (Raw.obj ms).Distinct Go.stringOf) (hc : Ts.textDecode b = some cs)
    (hp : parse cs = some (.obj ms)) (hm : (k, .str ps) ∈ ms) (hk : units k = kidName) (hn : units ps ≠ []) :
    Ts.NamesKid b := by
  have hl := lookup_ofMembers_of_mem (o := {}) (by rw [hk]; decide) (nodup_units hd.left) rfl hm
  refine ⟨cs, _, units ps, hc, hp, ?_, hn⟩
  rw [hk] at hl
  rw [Ts.ofRaw]
  generalize (Ts.ofMembers {} ms).own = own at hl
  generalize (Ts.ofMembers {} ms).prototype = prototype
  have hs : own.lookup (Ts.JsString.ofString "kid") = some (.string (units ps)) := hl
  cases prototype <;> rw [Ts.Value.get?, hs]

end Kid

section Footer

variable {b : List UInt8}

-- The names in the footer are different to the Go port as well, unless it does not get to them.
def FooterReadable (b : List UInt8) : Prop :=
  IsJson (fun raw => Marked b ∨ raw.Distinct Go.stringOf) b

-- An object is a payload to the Go port as well.
def MessageReadable (named : Prop) (b : List UInt8) : Prop :=
  IsJson (fun raw => (isObject raw → named ∧ ¬Marked b) ∧
    (named → ¬Marked b → raw.Distinct Go.stringOf)) b

theorem ts_footer_escaped (h : ¬IsJson (fun _ => True) b) : outcome (Ts.parseFooter b) = .escaped :=
  escaped_bind (ts_escaped h)

theorem ts_footer_named (json : IsJson (fun _ => True) b) (h : Ts.NamesKid b) :
    ∃ kid, Ts.parseFooter b = .ok kid := by
  obtain ⟨cs, raw, kid, hc, hp, hk, hn⟩ := h
  obtain ⟨raw', hp', hf, -⟩ := json cs hc
  cases hp.symm.trans hp'
  cases raw
  case obj ms =>
    rw [Ts.parseFooter, ts_object hc hp hf, ok_bind, hk]
    cases kid
    case nil       => contradiction
    case cons u us => exact ⟨u :: us, rfl⟩
  all_goals contradiction

theorem ts_footer_unnamed (json : IsJson (fun _ => True) b) (h : ¬Ts.NamesKid b) :
    outcome (Ts.parseFooter b) = .rejected .tokenMalformed := by
  cases hc : Ts.textDecode b
  case none => exact rejected_bind (ts_untext hc)
  case some cs =>
    obtain ⟨raw, hp, hf, -⟩ := json cs hc
    cases ho : isObject raw
    case false => exact rejected_bind (ts_other hc hp hf ho)
    case true =>
      cases raw
      case obj ms =>
        rw [Ts.parseFooter, ts_object hc hp hf, ok_bind]
        split
        case h_1 => rfl
        case h_2 => rfl
        case h_3 kid hn hk =>
          obtain ⟨v, hv, hs⟩ := Option.bind_eq_some_iff.mp hk
          cases v
          case string =>
            cases hs
            exact (h ⟨cs, _, kid, hc, hp, hv, hn⟩).elim
          all_goals contradiction
      all_goals contradiction

theorem go_footer_named (readable : FooterReadable b) (h : Go.NamesKid b) :
    (∃ kid, Go.parseFooter b = .ok kid) ∧ Ts.NamesKid b := by
  obtain ⟨hm, cs, ms, k, ps, hc, hp, hk, hu, hn⟩ := h
  obtain ⟨raw, hp', hf, hd⟩ := readable cs hc
  cases hp.symm.trans hp'
  replace hd := hd.resolve_left hm
  refine ⟨?_, ts_kid hd hc hp hk hu hn⟩
  have hs := (go_kid_iff hd.left).mpr ⟨k, ps, hk, hu, rfl⟩
  rw [Go.parseFooter, go_object hm hc hp hd, ok_bind, hs]
  have hne : Go.stringOf ps ≠ [] := fun he => hn ((stringOf_eq_nil_iff ps).mp he)
  cases he : Go.stringOf ps
  case nil       => contradiction
  case cons x xs => exact ⟨x :: xs, rfl⟩

theorem go_footer_unnamed (readable : FooterReadable b) (h : ¬Go.NamesKid b) :
    outcome (Go.parseFooter b) = .rejected .tokenMalformed := by
  by_cases hm : Marked b
  case pos => exact rejected_bind (go_marked hm)
  case neg =>
    cases hc : Ts.textDecode b
    case none => exact rejected_bind (go_untext hc)
    case some cs =>
      obtain ⟨raw, hp, hf, hd⟩ := readable cs hc
      replace hd := hd.resolve_left hm
      cases ho : isObject raw
      case false => exact rejected_bind (go_other hm hc hp hd ho)
      case true =>
        cases raw
        case obj ms =>
          rw [Go.parseFooter, go_object hm hc hp hd, ok_bind]
          split
          case h_1 => rfl
          case h_2 => rfl
          case h_3 kid hn hk =>
            obtain ⟨k, ps, hkm, hu, hs⟩ := (go_kid_iff hd.left).mp hk
            refine (h ⟨hm, cs, ms, k, ps, hc, hp, hkm, hu, fun he => hn ?_⟩).elim
            rw [← hs, (stringOf_eq_nil_iff ps).mpr he]
        all_goals contradiction

-- The Go port is the only one that finds a repeated name.
theorem go_footer_duplicate (json : IsJson (fun _ => True) b) (h : ¬FooterReadable b) :
    outcome (Go.parseFooter b) = .rejected .canonicalJSONDuplicateKey := by
  simp only [FooterReadable, IsJson, not_forall] at h
  obtain ⟨cs, hc, h⟩ := h
  obtain ⟨raw, hp, hf, -⟩ := json cs hc
  have hn : ¬(Marked b ∨ raw.Distinct Go.stringOf) := fun hr => h ⟨raw, hp, hf, hr⟩
  obtain ⟨hm, hd⟩ := not_or.mp hn
  exact rejected_bind (go_duplicate hm hc hp hd)

theorem ts_message (label : String) : outcome (Ts.parseLIC2Object b label) = .escaped ∨
    outcome (Ts.parseLIC2Object b label) = .decoded ∨
    outcome (Ts.parseLIC2Object b label) = .rejected .tokenMalformed := by
  by_cases json : IsJson (fun _ => True) b
  case neg => exact .inl (ts_escaped json)
  case pos =>
    cases hc : Ts.textDecode b
    case none => exact .inr (.inr (ts_untext hc))
    case some cs =>
      obtain ⟨raw, hp, hf, -⟩ := json cs hc
      cases ho : isObject raw
      case false => exact .inr (.inr (ts_other hc hp hf ho))
      case true =>
        cases raw
        case obj ms => exact .inr (.inl (outcome_eq_decoded_iff.mpr ⟨_, ts_object hc hp hf⟩))
        all_goals contradiction

-- The payload, after a footer that both ports accept.
theorem message_iff (label label' : String) : MessageReadable True b ↔
    outcome (Ts.parseLIC2Object b label) ≠ .escaped ∧
      outcome (Go.parseJSONObject b label') = outcome (Ts.parseLIC2Object b label) := by
  apply Iff.intro
  case mp =>
    intro readable
    cases hc : Ts.textDecode b
    case none => simp [ts_untext hc, go_untext hc]
    case some cs =>
      obtain ⟨raw, hp, hf, ho, hd⟩ := readable cs hc
      cases hr : isObject raw
      case false =>
        rw [ts_other hc hp hf hr]
        refine ⟨by simp, ?_⟩
        by_cases hm : Marked b
        case pos => exact go_marked hm
        case neg => exact go_other hm hc hp (hd trivial hm) hr
      case true =>
        have hm := (ho hr).right
        cases raw
        case obj ms =>
          rw [ts_object hc hp hf, go_object hm hc hp (hd trivial hm)]
          simp [outcome]
        all_goals contradiction
  case mpr =>
    rintro ⟨escaped, same⟩ cs hc
    have json : IsJson (fun _ => True) b := by
      by_contra hn
      exact escaped (ts_escaped hn)
    obtain ⟨raw, hp, hf, -⟩ := json cs hc
    refine ⟨raw, hp, hf, fun hr => ⟨trivial, fun hm => ?_⟩, fun _ hm => ?_⟩
    case refine_1 =>
      cases raw
      case obj ms =>
        rw [go_marked hm, ts_object hc hp hf] at same
        simp [outcome] at same
      all_goals contradiction
    case refine_2 =>
      by_contra hd
      rw [go_duplicate hm hc hp hd] at same
      rcases ts_message (b := b) label with h | h | h
      all_goals simp [h] at same

-- The payload, after a footer that only the TypeScript port accepts.
theorem message_unnamed_iff (label : String) : MessageReadable False b ↔
    outcome (Ts.parseLIC2Object b label) = .rejected .tokenMalformed := by
  apply Iff.intro
  case mp =>
    intro readable
    cases hc : Ts.textDecode b
    case none => exact ts_untext hc
    case some cs =>
      obtain ⟨raw, hp, hf, ho, -⟩ := readable cs hc
      exact ts_other hc hp hf (Bool.eq_false_iff.mpr fun hr => (ho hr).left)
  case mpr =>
    intro malformed cs hc
    have json : IsJson (fun _ => True) b := by
      by_contra hn
      rw [ts_escaped hn] at malformed
      simp at malformed
    obtain ⟨raw, hp, hf, -⟩ := json cs hc
    refine ⟨raw, hp, hf, fun hr => ?_, False.elim⟩
    cases raw
    case obj ms =>
      rw [ts_object hc hp hf] at malformed
      simp [outcome] at malformed
    all_goals contradiction

end Footer

section Tokens

-- The outcome is a documented one, and the same in the Go port.
def SameFate {α β : Type} (go : Except Error α) (ts : Except Error β) : Prop :=
  (outcome ts).Documented ∧ outcome go = outcome ts

section

variable {α β : Type} {go : Except Error α} {ts : Except Error β}

theorem sameFate_malformed (hg : outcome go = .rejected .tokenMalformed)
    (ht : outcome ts = .rejected .tokenMalformed) : SameFate go ts :=
  ⟨.inr (.inl ht), hg.trans ht.symm⟩

theorem not_sameFate_of_escaped (ht : outcome ts = .escaped) : ¬SameFate go ts := by
  rintro ⟨documented, -⟩
  simp [Outcome.Documented, ht] at documented

theorem not_sameFate_of_go_escaped (hg : outcome go = .escaped) : ¬SameFate go ts := by
  rintro ⟨documented, same⟩
  exact not_sameFate_of_escaped (same ▸ hg) ⟨documented, same⟩

end

-- What the segments have to be, in the order in which they are looked at.
def SegmentsReadable : List Ts.JsString → Prop
  | [payload]         => Whole payload
  | [payload, footer] => Whole payload ∧
    ∀ body, Ts.port.base64urlDecode payload = .ok body → ed25519SigLen < body.length → Whole footer ∧
    ∀ b, Ts.port.base64urlDecode footer = .ok b → b ≠ [] → FooterReadable b ∧
      (Ts.NamesKid b → MessageReadable (Go.NamesKid b) (body.take (body.length - ed25519SigLen)))
  | _                 => True

-- The token is not one of LIC2, or it can be read.
def Readable (token : Ts.JsString) : Prop :=
  ∀ rest, token = Ts.port.literal lic2Prefix ++ rest → SegmentsReadable (rest.splitOn Ts.port.dot)

namespace Port

variable {α P : Type} [DecidableEq α] (p : Port α P) {rest payload footer : List α}

theorem decodeLIC2_one (hr : rest ≠ []) (h : rest.splitOn p.dot = [payload]) :
    p.decodeLIC2 (p.literal lic2Prefix ++ rest) = p.decodeBody payload >>= fun _ =>
      .error (p.tokenMalformed "LIC2 requires a footer carrying kid") := by
  rw [decodeLIC2]
  simp only [List.drop_left, hr, if_false, h]

theorem decodeLIC2_two (h : rest.splitOn p.dot = [payload, footer]) :
    p.decodeLIC2 (p.literal lic2Prefix ++ rest) = p.decodeBody payload >>= fun body =>
      p.base64urlDecode footer >>= fun b =>
        if b = [] then .error (p.tokenMalformed "LIC2 requires a footer carrying kid")
        else p.parseFooter b >>= fun kid => p.parseMessage body.1 >>= fun o =>
          .ok ⟨⟨p.literal algEd25519, kid⟩, o, lic2SigningInput body.1 b, body.2⟩ := by
  have hr : rest ≠ [] := fun he => by simp [he] at h
  rw [decodeLIC2]
  simp only [List.drop_left, hr, if_false, h]
  rfl

end Port

section

variable {α β : Type}

theorem decoded_bind {x : Except Error α} {f : α → β} : outcome (x >>= fun a => .ok (f a)) = outcome x := by
  match x with
  | .ok _                   => rfl
  | .error (.licensing _ _) => rfl
  | .error (.other _)       => rfl

end

-- What the ports make of the bytes of the footer and of the payload.
theorem sameFate_objects_iff {α β : Type} (b message : List UInt8) (f : Go.GoString → Go.Map → α)
    (g : Ts.JsString → Ts.Value → β) :
    SameFate (Go.parseFooter b >>= fun kid => Go.parseJSONObject message "payload" >>= fun o => .ok (f kid o))
      (Ts.parseFooter b >>= fun kid => Ts.parseLIC2Object message "payload" >>= fun o => .ok (g kid o)) ↔
    FooterReadable b ∧ (Ts.NamesKid b → MessageReadable (Go.NamesKid b) message) := by
  by_cases json : IsJson (fun _ => True) b
  case neg =>
    refine iff_of_false (not_sameFate_of_escaped (escaped_bind (ts_footer_escaped json))) fun h => ?_
    exact json (h.left.imp fun _ _ => trivial)
  case pos =>
    by_cases readable : FooterReadable b
    case neg =>
      refine iff_of_false (fun h => ?_) fun h => readable h.left
      have hg := h.right
      rw [rejected_bind (go_footer_duplicate json readable)] at hg
      by_cases ht : Ts.NamesKid b
      case neg => simp [rejected_bind (ts_footer_unnamed json ht)] at hg
      case pos =>
        obtain ⟨kid, hk⟩ := ts_footer_named json ht
        rw [hk, ok_bind, decoded_bind] at hg
        rcases ts_message (b := message) "payload" with h | h | h
        all_goals simp [h] at hg
    case pos =>
      by_cases ht : Ts.NamesKid b
      case neg =>
        refine iff_of_true (sameFate_malformed (rejected_bind ?_) (rejected_bind (ts_footer_unnamed json ht)))
          ⟨readable, fun h => (ht h).elim⟩
        exact go_footer_unnamed readable fun hg => ht (go_footer_named readable hg).right
      case pos =>
        obtain ⟨kid, hk⟩ := ts_footer_named json ht
        simp only [hk, ok_bind, SameFate, decoded_bind, readable, ht, true_and, forall_const]
        by_cases hg : Go.NamesKid b
        case pos =>
          obtain ⟨kid', hk'⟩ := (go_footer_named readable hg).left
          simp only [hk', ok_bind, decoded_bind, hg, message_iff "payload" "payload"]
          refine and_congr_left fun same => ?_
          rcases ts_message (b := message) "payload" with h | h | h
          all_goals simp [h, Outcome.Documented]
        case neg =>
          simp only [rejected_bind (go_footer_unnamed readable hg), hg, message_unnamed_iff "payload"]
          rcases ts_message (b := message) "payload" with h | h | h
          all_goals simp [h, Outcome.Documented]

theorem sameFate_footer_iff {α β : Type} (footer : Ts.JsString) (message : List UInt8)
    (f : List UInt8 → Go.GoString → Go.Map → α) (g : List UInt8 → Ts.JsString → Ts.Value → β) :
    SameFate (Go.port.base64urlDecode (utf8 footer) >>= fun b =>
        if b = [] then .error (Go.port.tokenMalformed "LIC2 requires a footer carrying kid")
        else Go.port.parseFooter b >>= fun kid => Go.port.parseMessage message >>= fun o => .ok (f b kid o))
      (Ts.port.base64urlDecode footer >>= fun b =>
        if b = [] then .error (Ts.port.tokenMalformed "LIC2 requires a footer carrying kid")
        else Ts.port.parseFooter b >>= fun kid => Ts.port.parseMessage message >>= fun o => .ok (g b kid o)) ↔
    Whole footer ∧ ∀ b, Ts.port.base64urlDecode footer = .ok b → b ≠ [] →
      FooterReadable b ∧ (Ts.NamesKid b → MessageReadable (Go.NamesKid b) message) := by
  by_cases hw : Whole footer
  case neg =>
    obtain ⟨m, go⟩ := other_of_not_whole hw
    refine iff_of_false (not_sameFate_of_go_escaped (escaped_bind ?_)) fun h => hw h.left
    rw [go]
    rfl
  case pos =>
    cases segment_of_whole hw
    case foreign m m' go ts =>
      rw [go, ts]
      refine iff_of_true (sameFate_malformed rfl rfl) ⟨hw, fun b hb => ?_⟩
      cases hb
    case bytes b go ts =>
      rw [go, ts, ok_bind, ok_bind]
      simp only [hw, true_and, Except.ok.injEq, forall_eq']
      by_cases hb : b = []
      case pos =>
        simp only [hb, if_true]
        exact iff_of_true (sameFate_malformed rfl rfl) fun h => absurd rfl h
      case neg =>
        simp only [hb, if_false, not_false_eq_true, ne_eq, forall_const]
        exact sameFate_objects_iff b message (f b) (g b)

theorem decodeBody_eq {α P : Type} [DecidableEq α] {p : Port α P} {seg : List α} {body : List UInt8}
    (h : p.base64urlDecode seg = .ok body) (hl : ed25519SigLen < body.length) : p.decodeBody seg =
      .ok (body.take (body.length - ed25519SigLen), body.drop (body.length - ed25519SigLen)) := by
  rw [Port.decodeBody, h, ok_bind, if_neg (Nat.not_le.mpr hl)]
  rfl

theorem decodeBody_short {α P : Type} [DecidableEq α] {p : Port α P} {seg : List α} {body : List UInt8}
    (h : p.base64urlDecode seg = .ok body) (hl : ¬ed25519SigLen < body.length) :
    ∃ m, p.decodeBody seg = .error (p.tokenMalformed m) := by
  rw [Port.decodeBody, h, ok_bind, if_pos (Nat.not_lt.mp hl)]
  exact ⟨_, rfl⟩

theorem sameFate_body_iff {α β : Type} (payload : Ts.JsString)
    (f : List UInt8 × List UInt8 → Except Error α) (g : List UInt8 × List UInt8 → Except Error β) :
    SameFate (Go.port.decodeBody (utf8 payload) >>= f) (Ts.port.decodeBody payload >>= g) ↔
    Whole payload ∧ ∀ body, Ts.port.base64urlDecode payload = .ok body → ed25519SigLen < body.length →
      SameFate (f (body.take (body.length - ed25519SigLen), body.drop (body.length - ed25519SigLen)))
        (g (body.take (body.length - ed25519SigLen), body.drop (body.length - ed25519SigLen))) := by
  by_cases hw : Whole payload
  case neg =>
    obtain ⟨m, go⟩ := other_of_not_whole hw
    refine iff_of_false (not_sameFate_of_go_escaped (escaped_bind ?_)) fun h => hw h.left
    rw [Port.decodeBody, go]
    rfl
  case pos =>
    simp only [hw, true_and]
    cases segment_of_whole hw
    case foreign m m' go ts =>
      rw [Port.decodeBody, Port.decodeBody, go, ts]
      refine iff_of_true (sameFate_malformed rfl rfl) fun b hb => ?_
      cases hb
    case bytes body go ts =>
      simp only [ts, Except.ok.injEq, forall_eq']
      by_cases hl : ed25519SigLen < body.length
      case pos =>
        rw [decodeBody_eq go hl, decodeBody_eq ts hl]
        simp [hl]
      case neg =>
        obtain ⟨m, go'⟩ := decodeBody_short go hl
        obtain ⟨m', ts'⟩ := decodeBody_short ts hl
        rw [go', ts']
        exact iff_of_true (sameFate_malformed rfl rfl) fun h => (hl h).elim

theorem Port.decodeLIC2_nil {α P : Type} [DecidableEq α] (p : Port α P) :
    p.decodeLIC2 (p.literal lic2Prefix ++ []) = .error (p.tokenMalformed "LIC2 token has no payload segment") := by
  rw [decodeLIC2]
  simp only [List.drop_left, if_true]

theorem Port.decodeLIC2_many {α P : Type} [DecidableEq α] (p : Port α P) {rest a b c : List α}
    {segments : List (List α)} (h : rest.splitOn p.dot = a :: b :: c :: segments) :
    ∃ m, p.decodeLIC2 (p.literal lic2Prefix ++ rest) = .error (p.tokenMalformed m) := by
  have hr : rest ≠ [] := fun he => by simp [he] at h
  rw [decodeLIC2]
  simp only [List.drop_left, hr, if_false, h]
  exact ⟨_, rfl⟩

theorem sameFate_lic2_iff (rest : Ts.JsString) :
    SameFate (Go.port.decodeLIC2 (Go.port.literal lic2Prefix ++ utf8 rest))
      (Ts.port.decodeLIC2 (Ts.port.literal lic2Prefix ++ rest)) ↔
    SegmentsReadable (rest.splitOn Ts.port.dot) := by
  have hs : (utf8 rest).splitOn Go.port.dot = (rest.splitOn Ts.port.dot).map utf8 :=
    splitOn_utf8 (u := 46) (by decide) rest
  by_cases hr : rest = []
  case pos =>
    subst hr
    refine iff_of_true (sameFate_malformed ?_ ?_) ?_
    case refine_1 => exact congrArg outcome (Port.decodeLIC2_nil Go.port)
    case refine_2 => exact congrArg outcome (Port.decodeLIC2_nil Ts.port)
    case refine_3 =>
      intro ns hn
      cases hn
      decide
  case neg =>
    generalize hts : rest.splitOn Ts.port.dot = segments at hs
    match segments with
    | []                           => exact (List.splitOn_ne_nil _ _ hts).elim
    | [payload]                    =>
      have hu : utf8 rest ≠ [] := fun hn => hr (utf8_eq_nil_iff.mp hn)
      rw [Port.decodeLIC2_one Go.port hu hs, Port.decodeLIC2_one Ts.port hr hts, sameFate_body_iff]
      exact and_iff_left fun _ _ _ => sameFate_malformed rfl rfl
    | [payload, footer]            =>
      rw [Port.decodeLIC2_two Go.port hs, Port.decodeLIC2_two Ts.port hts, sameFate_body_iff]
      refine and_congr_right fun _ => forall₂_congr fun body _ => imp_congr_right fun _ => ?_
      exact sameFate_footer_iff footer _ _ _
    | a :: b :: c :: segments      =>
      obtain ⟨m, hg⟩ := Port.decodeLIC2_many Go.port hs
      obtain ⟨m', ht⟩ := Port.decodeLIC2_many Ts.port hts
      rw [hg, ht]
      exact iff_of_true (sameFate_malformed rfl rfl) trivial

theorem literal_utf8_iff {pre : String} (h : pre.toList.all (·.toNat < 0x80)) (token : Ts.JsString) :
    Go.port.literal pre <+: utf8 token ↔ Ts.port.literal pre <+: token := by
  have ha : ∀ c ∈ pre.toList, c.toNat < 0x80 := fun c hc => of_decide_eq_true (List.all_eq_true.mp h c hc)
  have hp : Bytes.ofString (.ofList pre.toList) <+: utf8 token ↔ utf16 pre.toList <+: token := prefix_utf8_iff ha
  rwa [String.ofList_toList] at hp

theorem utf8_literal_append (rest : Ts.JsString) :
    utf8 (Ts.port.literal lic2Prefix ++ rest) = Go.port.literal lic2Prefix ++ utf8 rest := by
  have ht : textOfUnits (utf16 lic2Prefix.toList ++ rest) = lic2Prefix.toList ++ textOfUnits rest :=
    textOfUnits_utf16_append _ _
  have hl : Ts.port.literal lic2Prefix = utf16 lic2Prefix.toList := rfl
  rw [hl, utf8, ht, Bytes.ofString_append, String.ofList_toList]
  rfl

-- The tokens that are not decoded as LIC1.
theorem sameFate_iff_readable {token : Ts.JsString} (h : ¬Ts.port.literal lic1Prefix <+: token) :
    SameFate (Go.decodeEnvelope (utf8 token)) (Ts.decodeUnverified token) ↔ Readable token := by
  have hg : ¬Go.port.literal lic1Prefix <+: utf8 token := fun hp =>
    h ((literal_utf8_iff (by decide) token).mp hp)
  rw [Go.decodeEnvelope, Ts.decodeUnverified, Port.decodeEnvelope, Port.decodeEnvelope, Port.codecFor_eq,
    Port.codecFor_eq, if_neg h, if_neg hg]
  by_cases hp : Ts.port.literal lic2Prefix <+: token
  case neg =>
    rw [if_neg hp, if_neg fun hp' => hp ((literal_utf8_iff (by decide) token).mp hp')]
    refine iff_of_true ⟨.inr (.inr (.inr rfl)), rfl⟩ fun rest hr => ?_
    exact (hp ⟨rest, hr.symm⟩).elim
  case pos =>
    rw [if_pos hp, if_pos ((literal_utf8_iff (by decide) token).mpr hp)]
    obtain ⟨rest, rfl⟩ := hp
    rw [utf8_literal_append]
    refine (sameFate_lic2_iff rest).trans ⟨fun hs rest' he => ?_, fun hr => hr rest rfl⟩
    rw [← List.append_cancel_left he]
    exact hs

theorem bind_not_escaped {α β : Type} {x : Except Error α} {f : α → Except Error β}
    (hx : outcome x ≠ .escaped) (hf : ∀ a, x = .ok a → outcome (f a) ≠ .escaped) :
    outcome (x >>= f) ≠ .escaped := by
  match x with
  | .ok a                   => exact hf a rfl
  | .error (.licensing _ _) => simp [bind, Except.bind, outcome]
  | .error (.other _)       => exact (hx rfl).elim

-- A backend that lets nothing escape leaves nothing to escape.

section

variable {σ β κ P : Type} [DecidableEq σ] {alg : β → σ}

theorem expect_outcome (b : KeyAlgBindings σ) (toString : σ → String) (kid a : σ) :
    outcome (b.expect toString kid a) ≠ .escaped := by
  unfold KeyAlgBindings.expect
  split
  case h_1 => simp [outcome, unknownKid, newError]
  case h_2 => split <;> simp [outcome, algorithmMismatch, newError]

theorem get_outcome (r : AlgorithmRegistry alg) (toString : σ → String) (a : σ) :
    outcome (r.get toString a) ≠ .escaped := by
  unfold AlgorithmRegistry.get
  split <;> simp [outcome, newError]

omit [DecidableEq σ] in
theorem run_importPublic (b : β) (r : KeyRecord σ) (answer : (op : BackendOp σ β κ) → op.Ans) :
    (importPublic b r).run answer = answer (.importPublic b r) :=
  Prog.run_ofExcept _

omit [DecidableEq σ] in
theorem run_verifySignature (b : β) (k : κ) (data sig : List UInt8)
    (answer : (op : BackendOp σ β κ) → op.Ans) :
    (verifySignature b k data sig).run answer = answer (.verify b k data sig) :=
  Prog.run_ofExcept _

theorem verifyDecoded_outcome (opts : VerifyOptions alg) (toString : σ → String)
    (parts : DecodedEnvelope σ P) {answer : (op : BackendOp σ β κ) → op.Ans}
    (hi : ∀ b r, outcome (answer (.importPublic b r)) ≠ .escaped)
    (hv : ∀ b k d s, outcome (answer (.verify b k d s)) ≠ .escaped) :
    outcome ((verifyDecoded opts toString parts).run answer) ≠ .escaped := by
  unfold verifyDecoded
  rw [Prog.run_bind, Prog.run_ofExcept]
  refine bind_not_escaped (expect_outcome _ _ _ _) fun _ _ => ?_
  rw [Prog.run_bind, Prog.run_ofExcept]
  refine bind_not_escaped (get_outcome _ _ _) fun backend _ => ?_
  split
  case h_1 => simp [unknownKid, newError, outcome]
  case h_2 record hk =>
    split
    case isTrue => simp [algorithmMismatch, newError, outcome]
    case isFalse =>
      rw [Prog.run_bind, run_importPublic]
      refine bind_not_escaped (hi backend record) fun key _ => ?_
      rw [Prog.run_bind, run_verifySignature]
      refine bind_not_escaped (hv backend key _ _) fun ok _ => ?_
      cases ok <;> simp [newError, outcome]

end

theorem decodedAlike_iff_readable {token : Ts.JsString} (h : ¬Ts.port.literal lic1Prefix <+: token) :
    DecodedAlike token ↔ Readable token := by
  rw [← sameFate_iff_readable h]
  apply Iff.intro
  case mp => exact fun alike => ⟨alike.documented, alike.same⟩
  case mpr =>
    rintro ⟨documented, same⟩
    refine ⟨documented, fun opts answer hi hv => ?_, same⟩
    rw [Ts.verify, Port.verifyEnvelope, Prog.run_bind, Prog.run_ofExcept]
    cases hd : Ts.port.decodeEnvelope token
    case ok parts => exact verifyDecoded_outcome opts _ parts hi hv
    case error e =>
      rw [Ts.decodeUnverified, hd] at documented
      cases e
      case licensing        => simp [bind, Except.bind, outcome]
      case other            => simp [outcome, Outcome.Documented] at documented

section Sample

open Port.Lawful

-- A token whose payload is the empty object.
def footerToken (footer : List UInt8) : Ts.JsString :=
  lic2Token Ts.port (bytesOf ['{', '}']) footer (List.replicate 64 0)

theorem not_lic1_footerToken (footer : List UInt8) : ¬Ts.port.literal lic1Prefix <+: footerToken footer := by
  rw [footerToken, lic2Token, List.append_assoc]
  exact Ts.lawful.lic2 _

theorem whole_encode (b : List UInt8) : Whole (Ts.port.literal (Ts.port.base64urlEncode b)) := by
  intro ns hn
  have hl : Ts.port.literal (Ts.port.base64urlEncode b) = utf16 (Base64.encode b) :=
    congrArg utf16 String.toList_ofList
  rw [hl, Ts.charsOf_utf16 (ascii_encode b)] at hn
  have hs : (Base64.encode b).mapM Base64.sextet? = some (Base64.sextets b) :=
    Base64.mapM_sextet? (Base64.sextets_lt b)
  cases hs.symm.trans hn
  exact Base64.Clean.length ((Base64.encode_eq_iff hs (Base64.bytes_sextets false b)).mp rfl)

theorem readable_footerToken {footer : List UInt8} (readable : FooterReadable footer)
    (named : Go.NamesKid footer) (message : MessageReadable True (bytesOf ['{', '}'])) :
    Readable (footerToken footer) := by
  intro rest hr
  rw [footerToken, lic2Token, List.append_assoc] at hr
  rw [← List.append_cancel_left hr, List.splitOn_append_cons_self,
    List.splitOn_eq_singleton (Ts.lawful.dotless _), List.splitOn_eq_singleton (Ts.lawful.dotless _)]
  refine ⟨whole_encode _, fun body hb _ => ⟨whole_encode _, fun b hf _ => ?_⟩⟩
  cases (Ts.lawful.decode _).symm.trans hb
  cases (Ts.lawful.decode _).symm.trans hf
  refine ⟨readable, fun _ => ?_⟩
  have ht : (bytesOf ['{', '}'] ++ List.replicate 64 0).take
      ((bytesOf ['{', '}'] ++ List.replicate 64 (0 : UInt8)).length - ed25519SigLen) = bytesOf ['{', '}'] := by
    rw [List.length_append, List.length_replicate, ed25519SigLen, Nat.add_sub_cancel, List.take_left]
  rw [ht]
  simpa only [named] using message

theorem not_marked_bytesOf {cs : List Char} {raw : Raw} (h : parse cs = some raw) : ¬Marked (bytesOf cs) := by
  rintro ⟨bs, hb⟩
  have hs := toString?_bytesOf cs
  rw [← hb, ← ofString_mark] at hs
  obtain ⟨ds, hd, -⟩ := Bytes.toList_of_prefix hs
  obtain ⟨_, hv, -⟩ := parse_eq_some_iff.mp h
  rw [String.toList_ofList] at hd
  rw [hd, List.singleton_append, value_mark] at hv
  contradiction

theorem parse_object_nil : parse ['{', '}'] = some (.obj []) := by rfl

-- A footer that names the key "k".
theorem decodedAlike_kid : DecodedAlike (footerToken (bytesOf (footerData ['k']).text)) := by
  have hp : parse (footerData ['k']).text = some (.obj
      [("kid".toList.map Escape.short.piece, .str (['k'].map Escape.short.piece))]) :=
    parse_eq_some_iff.mpr ⟨[], parse_text _, rfl⟩
  apply (decodedAlike_iff_readable (not_lic1_footerToken _)).mpr
  refine readable_footerToken ?footer ?named ?message
  case footer =>
    intro cs h
    cases (textDecode_bytesOf hp).symm.trans h
    refine ⟨_, hp, by rfl, .inr ⟨List.nodup_singleton _, trivial, trivial⟩⟩
  case named =>
    refine ⟨not_marked_bytesOf hp, _, _, _, _, textDecode_bytesOf hp, hp, List.mem_singleton_self _, ?_, ?_⟩
    case refine_1 => exact units_map _
    case refine_2 => decide
  case message =>
    intro cs h
    cases (textDecode_bytesOf parse_object_nil).symm.trans h
    exact ⟨_, parse_object_nil, rfl, fun _ => ⟨trivial, not_marked_bytesOf parse_object_nil⟩,
      fun _ _ => ⟨List.nodup_nil, trivial⟩⟩

-- The errors of the strict parser escape.
theorem not_decodedAlike : ¬∀ token, ¬Ts.port.literal lic1Prefix <+: token → DecodedAlike token := by
  intro h
  have hd := (h (footerToken (bytesOf ['{'])) (not_lic1_footerToken _)).documented
  have hc : Ts.textDecode (bytesOf ['{']) = some ['{'] := by
    rw [textDecode_of_no_mark (toString?_bytesOf ['{']), String.toList_ofList]
    simp
  have hf : Ts.port.parseFooter (bytesOf ['{']) = .error (.other "malformed JSON") := by
    change Ts.parseFooter (bytesOf ['{']) = _
    rw [Ts.parseFooter, Ts.parseLIC2Object, Ts.parseObject, hc]
    rfl
  have hm : bytesOf ['{', '}'] ≠ [] := by decide
  have hn : bytesOf ['{'] ≠ [] := by decide
  have hs : (List.replicate 64 (0 : UInt8)).length = ed25519SigLen := List.length_replicate
  have hl : Ts.port.decodeLIC2 (footerToken (bytesOf ['{'])) = .error (.other "malformed JSON") := by
    rw [footerToken, Port.Lawful.decode_lic2Token Ts.lawful hm hn hs, hf]
    rfl
  have ht : Ts.decodeUnverified (footerToken (bytesOf ['{'])) = .error (.other "malformed JSON") := by
    have hcodec : Ts.port.codecFor (footerToken (bytesOf ['{'])) = .ok Ts.port.lic2Codec :=
      Port.Lawful.codecFor_lic2Token Ts.lawful _ _ _
    rw [Ts.decodeUnverified, Port.decodeEnvelope, hcodec, ok_bind]
    exact hl
  rw [ht] at hd
  simp [outcome, Outcome.Documented] at hd

end Sample

end Tokens

end Licensing
