import Licensing.Library.Base64
import Licensing.Model.Errors

-- The base64url codecs of the token segments.

namespace Licensing

namespace Go

def tokenMalformed (message : String) : Error :=
  newError .tokenMalformed message

def base64urlEncode (b : List UInt8) : String :=
  .ofList (Base64.encode b)

-- The last error is that of `encoding/base64`.
def base64urlDecode (s : List Char) : Except Error (List UInt8) :=
  if '=' ∈ s then .error (tokenMalformed "base64url segment contains padding")
  else match s.mapM Base64.sextet? with
    | none    => .error (tokenMalformed "base64url segment contains invalid characters")
    | some ns =>
      match Base64.bytes true ns with
      | some bs => .ok bs
      | none    => .error (.other ("illegal base64 data at input byte " ++ toString (s.length - 1)))

end Go

namespace Ts

def tokenMalformed (reason : String) : Error :=
  newError .tokenMalformed ("malformed token: " ++ reason)

def base64urlEncode (b : List UInt8) : String :=
  .ofList (Base64.encode b)

-- `Buffer.from` drops a single character too many.
def base64urlDecode (s : List Char) : Except Error (List UInt8) :=
  if '=' ∈ s then .error (tokenMalformed "base64url segment contains padding")
  else match s.mapM Base64.sextet? with
    | none    => .error (tokenMalformed "base64url segment contains invalid characters")
    | some ns =>
      match Base64.bytes false ns with
      | some bs => .ok bs
      | none    => .error (tokenMalformed "base64url segment contains invalid characters")

end Ts

section

variable {s : List Char} {ns : List Nat}

theorem not_padded (h : s.mapM Base64.sextet? = some ns) : '=' ∉ s := by
  intro hm
  have ⟨hs, lt⟩ := Base64.map_sextet h
  obtain ⟨n, hn, he⟩ := List.mem_map.mp (hs ▸ hm)
  exact absurd he ((by decide : ∀ n < 64, Base64.sextet n ≠ '=') n (lt n hn))

theorem go_base64urlDecode (h : s.mapM Base64.sextet? = some ns) : Go.base64urlDecode s =
    match Base64.bytes true ns with
    | some bs => .ok bs
    | none    => .error (.other ("illegal base64 data at input byte " ++ toString (s.length - 1))) := by
  simp [Go.base64urlDecode, not_padded h, h]

theorem go_base64urlDecode_foreign (h : s.mapM Base64.sextet? = none) :
    ∃ m, Go.base64urlDecode s = .error (newError .tokenMalformed m) := by
  unfold Go.base64urlDecode
  split
  · exact ⟨_, rfl⟩
  · rw [h]
    exact ⟨_, rfl⟩

theorem ts_base64urlDecode_foreign (h : s.mapM Base64.sextet? = none) :
    ∃ m, Ts.base64urlDecode s = .error (newError .tokenMalformed m) := by
  unfold Ts.base64urlDecode
  split
  · exact ⟨_, rfl⟩
  · rw [h]
    exact ⟨_, rfl⟩

theorem ts_base64urlDecode (h : s.mapM Base64.sextet? = some ns) :
    ∃ bs, Base64.bytes false ns = some bs ∧ Ts.base64urlDecode s = .ok bs := by
  have ⟨bs, hb⟩ := Base64.exists_bytes ns
  exact ⟨bs, hb, by simp [Ts.base64urlDecode, not_padded h, h, hb]⟩

end

@[simp]
theorem go_base64urlDecode_encode (b : List UInt8) :
    Go.base64urlDecode (Base64.encode b) = .ok b := by
  have h : (Base64.encode b).mapM Base64.sextet? = some (Base64.sextets b) :=
    Base64.mapM_sextet? (Base64.sextets_lt b)
  rw [go_base64urlDecode h, Base64.bytes_sextets]

@[simp]
theorem ts_base64urlDecode_encode (b : List UInt8) :
    Ts.base64urlDecode (Base64.encode b) = .ok b := by
  have h : (Base64.encode b).mapM Base64.sextet? = some (Base64.sextets b) :=
    Base64.mapM_sextet? (Base64.sextets_lt b)
  obtain ⟨bs, hb, hd⟩ := ts_base64urlDecode h
  rw [Base64.bytes_sextets] at hb
  cases hb
  exact hd

-- What the decoders of both ports do with a segment as they should.
structure CanonicalSegment (s : String) : Prop where
  go_canonical : ∀ b, Go.base64urlDecode s.toList = .ok b → Go.base64urlEncode b = s
  ts_canonical : ∀ b, Ts.base64urlDecode s.toList = .ok b → Ts.base64urlEncode b = s
  go_error     : ∀ e, Go.base64urlDecode s.toList = .error e → e.HasCode .tokenMalformed
  ts_error     : ∀ e, Ts.base64urlDecode s.toList = .error e → e.HasCode .tokenMalformed
  same         : ∀ b, Go.base64urlDecode s.toList = .ok b ↔ Ts.base64urlDecode s.toList = .ok b

-- A character is foreign, or nothing is left over behind the last byte.
def CleanSegment (s : String) : Prop :=
  ∀ ns, s.toList.mapM Base64.sextet? = some ns → Base64.Clean ns

theorem canonicalSegment_of_foreign {s : String} (h : s.toList.mapM Base64.sextet? = none) :
    CanonicalSegment s := by
  obtain ⟨m, hm⟩ := go_base64urlDecode_foreign h
  obtain ⟨m', hm'⟩ := ts_base64urlDecode_foreign h
  refine ⟨?_, ?_, ?_, ?_, ?_⟩ <;> simp only [hm, hm']
  · nofun
  · nofun
  · rintro _ ⟨⟩
    exact ⟨m, rfl⟩
  · rintro _ ⟨⟩
    exact ⟨m', rfl⟩
  · exact fun _ => ⟨nofun, nofun⟩

theorem canonicalSegment_iff_of_sextets {s : String} {ns : List Nat}
    (h : s.toList.mapM Base64.sextet? = some ns) : CanonicalSegment s ↔ Base64.Clean ns := by
  obtain ⟨bs, hb, ts⟩ := ts_base64urlDecode h
  have encoded : Ts.base64urlEncode bs = s ↔ Base64.Clean ns := by
    rw [← Base64.encode_eq_iff h hb, Ts.base64urlEncode, ← String.toList_inj, String.toList_ofList]
  refine ⟨fun c => encoded.mp (c.ts_canonical bs ts), fun hc => ?_⟩
  have go : Go.base64urlDecode s.toList = .ok bs := by
    rw [go_base64urlDecode h, Base64.bytes_strict, if_neg hc.length, hb]
  refine ⟨?_, ?_, ?_, ?_, ?_⟩ <;> simp only [go, ts]
  · rintro _ ⟨⟩
    exact encoded.mpr hc
  · rintro _ ⟨⟩
    exact encoded.mpr hc
  · nofun
  · nofun
  · exact fun _ => trivial

-- What is encoded is decoded. Conversely, the decoders are strict on exactly the clean segments.
theorem canonicalSegment_iff_clean (b : List UInt8) (s : String) :
    (Go.base64urlDecode (Go.base64urlEncode b).toList = .ok b ∧
      Ts.base64urlDecode (Ts.base64urlEncode b).toList = .ok b) ∧
    (CanonicalSegment s ↔ CleanSegment s) := by
  refine And.intro ?_ ?_
  case refine_1 => simp [Go.base64urlEncode, Ts.base64urlEncode]
  case refine_2 =>
    match h : s.toList.mapM Base64.sextet? with
    | none    =>
      exact ⟨fun _ ns hn => by simp [h] at hn, fun _ => canonicalSegment_of_foreign h⟩
    | some ns =>
      rw [canonicalSegment_iff_of_sextets h]
      exact ⟨fun hc _ hn => Option.some.inj (h.symm.trans hn) ▸ hc, fun hc => hc ns h⟩

-- The decoders of both ports take a character with bits to spare for another one.
theorem not_canonicalSegment : ¬∀ s, CanonicalSegment s :=
  fun h => absurd ((h "AB").go_canonical [0] (by rfl)) (by decide)

end Licensing
