import Licensing.Keys.Hierarchy
import Licensing.Tokens.Payload

-- What the ports write into an attestation, and what is promised of the backends.

namespace Licensing

open JsonText

def attestationData (kid : String) (alg : KeyAlg) (pub notBefore : String) (notAfter : Option String) :
    Data :=
  .obj [("kid".toList, text kid), ("alg".toList, text alg.toString), ("pub".toList, text pub),
    ("not_before".toList, text notBefore), ("not_after".toList, notAfter.elim .null text)]

def attestationBytes (kid : String) (alg : KeyAlg) (pub notBefore : String) (notAfter : Option String) :
    List UInt8 :=
  bytesOf (attestationData kid alg pub notBefore notAfter).normal.text

theorem normal_attestationData (kid : String) (alg : KeyAlg) (pub notBefore : String)
    (notAfter : Option String) : (attestationData kid alg pub notBefore notAfter).normal =
      .obj [("alg".toList, text alg.toString), ("kid".toList, text kid),
        ("not_after".toList, notAfter.elim .null text), ("not_before".toList, text notBefore),
        ("pub".toList, text pub)] := by
  cases notAfter <;> rfl

theorem encodes_attestationData (kid : String) (alg : KeyAlg) (pub notBefore : String)
    (notAfter : Option String) : Encodes (attestationData kid alg pub notBefore notAfter)
      (attestationBytes kid alg pub notBefore notAfter) := by
  have hn : ["kid".toList, "alg".toList, "pub".toList, "not_before".toList, "not_after".toList].Nodup := by
    decide
  refine ⟨rfl, ⟨hn, ?_⟩, ?_, rfl⟩
  all_goals cases notAfter <;> exact ⟨trivial, trivial, trivial, trivial, trivial, trivial⟩

theorem attestationBytes_inj {kid : String} {alg : KeyAlg} {pub notBefore notBefore' : String}
    {notAfter notAfter' : Option String} : attestationBytes kid alg pub notBefore notAfter =
      attestationBytes kid alg pub notBefore' notAfter' ↔ notBefore = notBefore' ∧ notAfter = notAfter' := by
  refine ⟨fun h => ?_, fun ⟨hb, ha⟩ => by rw [hb, ha]⟩
  have he := encodes_attestationData kid alg pub notBefore notAfter
  rw [h] at he
  have hs : _ = _ := he.same (encodes_attestationData kid alg pub notBefore' notAfter')
  rw [normal_attestationData, normal_attestationData] at hs
  cases notAfter <;> cases notAfter' <;> simp_all [text, String.toList_inj]

theorem Go.attestationCanonical_eq (kid : String) (alg : KeyAlg) (publicRaw : List UInt8)
    (notBefore : String) (notAfter : Option String) :
    hierarchy.attestationCanonical kid alg publicRaw notBefore notAfter =
      .ok (attestationBytes kid alg (base64urlEncode publicRaw) notBefore notAfter) := by
  change attestationCanonical _ _ _ _ _ = _
  rw [attestationCanonical, attestationBytes]
  refine ((canonical ?_).object rfl).accepted (encodes_attestationData _ _ _ _ _).safe
  cases notAfter <;>
    simp [Value.data?, Value.members?, Bytes.toString?_ofString, attestationData, text]

theorem Ts.attestationCanonical_eq (kid : String) (alg : KeyAlg) (publicRaw : List UInt8)
    (notBefore : String) (notAfter : Option String) :
    hierarchy.attestationCanonical kid alg publicRaw notBefore notAfter =
      .ok (attestationBytes kid alg (base64urlEncode publicRaw) notBefore notAfter) := by
  have he := encodes_attestationData kid alg (base64urlEncode publicRaw) notBefore notAfter
  change attestationCanonical _ _ _ _ _ = _
  rw [attestationCanonical, attestationBytes]
  refine ((canonical ?_ he.distinct).object rfl).accepted he.safe
  cases notAfter <;> simp [Value.data?, Value.members?, chars?_ofString, attestationData, text]

-- The strings of an attestation are read back.
structure HierarchyPort.Lawful (port : HierarchyPort) : Prop where
  canonical : ∀ kid alg publicRaw notBefore notAfter,
    port.attestationCanonical kid alg publicRaw notBefore notAfter =
      .ok (attestationBytes kid alg (port.base64urlEncode publicRaw) notBefore notAfter)
  decode    : ∀ b, port.base64urlDecode (port.base64urlEncode b) = .ok b

theorem Go.lawful_hierarchy : hierarchy.Lawful where
  canonical := attestationCanonical_eq
  decode b  := by
    change base64urlDecode (base64urlEncode b).toList = _
    rw [base64urlEncode, String.toList_ofList, go_base64urlDecode_encode]

theorem Ts.lawful_hierarchy : hierarchy.Lawful where
  canonical := attestationCanonical_eq
  decode b  := by
    change base64urlDecode (base64urlEncode b).toList = _
    rw [base64urlEncode, String.toList_ofList, ts_base64urlDecode_encode]

theorem HierarchyPort.Lawful.encode_ne {port : HierarchyPort} (hp : port.Lawful) {b : List UInt8}
    (hb : b ≠ []) (hn : port.base64urlDecode "" = .ok []) : port.base64urlEncode b ≠ "" := by
  intro he
  have hd := hp.decode b
  rw [he, hn] at hd
  exact hb (Except.ok.inj hd).symm

variable {ρ κ : Type}

-- What is promised of the backends: a generated key is imported again, and what its private half has
-- signed, once it was sealed and opened again, is verified for the very same message.
structure KeyBackends.Sound (b : KeyBackends ρ κ) : Prop where
  importPublic : ∀ {alg passphrase seed g}, b.generate alg passphrase seed = .ok g →
    b.importPublic alg g.publicPem = .ok ()
  publicRaw    : ∀ {alg passphrase seed g}, alg ≠ .hs256 → b.generate alg passphrase seed = .ok g →
    b.publicRaw alg g.publicPem = .ok g.publicRaw
  signature    : ∀ {alg priv m seed sig}, b.sign alg priv m seed = .ok sig → sig ≠ []
  verify       : ∀ {alg passphrase seed g der passphrase' seed' enc opening opened priv m seed'' sig},
    b.generate alg passphrase seed = .ok g → g.privateDER = .ok (some der) →
    b.wrap der passphrase' seed' = .ok enc → b.unwrap enc opening = .ok opened →
    b.importPrivate alg opened g.publicPem = .ok priv → b.sign alg priv m seed'' = .ok sig →
    ∀ m', b.verify alg g.publicPem m' sig = .ok (m' = m)

-- Backends that seal with the passphrase itself, and put a byte in front of what they sign.
def plainKey : Generated where
  publicPem  := ""
  publicRaw  := []
  privateDER := .ok (some [])

def plainBackends : KeyBackends Unit Unit where
  get _                  := .ok ()
  generate _ _ _         := .ok plainKey
  wrap _ passphrase _    := .ok passphrase
  unwrap enc passphrase  := if enc = passphrase then .ok [] else .error (.other "")
  importPrivate _ _ _    := .ok ()
  sign _ _ m _           := .ok (0 :: m)
  importPublic _ _       := .ok ()
  verify _ _ m signature := .ok (signature = 0 :: m)
  publicRaw _ _          := .ok []

theorem sound_plainBackends : plainBackends.Sound where
  importPublic _            := rfl
  publicRaw _ hg            := by cases hg; rfl
  signature hs              := by cases hs; exact List.cons_ne_nil _ _
  verify _ _ _ _ _ hs m'    := by
    cases hs
    simp [plainBackends, eq_comm]

end Licensing
