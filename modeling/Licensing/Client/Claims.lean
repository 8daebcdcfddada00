import Licensing.Client.Validate
import Licensing.Tokens.Payload

-- The claims of the payloads that are issued, and what the ports read of them.

namespace Licensing

open JsonText

structure ClaimValues where
  jti              : String
  iat              : Int
  nbf              : Int
  exp              : Int
  scope            : String
  licenseID        : String
  usageID          : String
  usageFingerprint : String
  status           : String
  maxUsages        : Int
  forceOnlineAfter : Option Data := none
  entitlements     : Option Data := none
  additional       : Option Data := none

namespace ClaimValues

def member (name : String) (d : Option Data) : List (List Char × Data) :=
  (d.map (name.toList, ·)).toList

-- The members in the canonical order.
def members (c : ClaimValues) : List (List Char × Data) :=
  member "entitlements" c.entitlements ++ ("exp".toList, .int c.exp) ::
    (member "force_online_after" c.forceOnlineAfter ++
      [("iat".toList, .int c.iat), ("jti".toList, text c.jti),
        ("license_id".toList, text c.licenseID), ("max_usages".toList, .int c.maxUsages)] ++
      member "meta" c.additional ++
      [("nbf".toList, .int c.nbf), ("scope".toList, text c.scope), ("status".toList, text c.status),
        ("usage_fingerprint".toList, text c.usageFingerprint), ("usage_id".toList, text c.usageID)])

def data (c : ClaimValues) : Data :=
  .obj c.members

def normal (c : ClaimValues) : ClaimValues :=
  { c with
    forceOnlineAfter := c.forceOnlineAfter.map Data.normal
    entitlements     := c.entitlements.map Data.normal
    additional       := c.additional.map Data.normal }

def names : List (List Char) :=
  ["entitlements".toList, "exp".toList, "force_online_after".toList, "iat".toList, "jti".toList,
    "license_id".toList, "max_usages".toList, "meta".toList, "nbf".toList, "scope".toList,
    "status".toList, "usage_fingerprint".toList, "usage_id".toList]

theorem nodup_names : names.Nodup := by
  decide

theorem sublist_names (c : ClaimValues) : (c.members.map Prod.fst).Sublist names := by
  have optional name d : ((member name d).map Prod.fst).Sublist [name.toList] := by
    cases d <;> simp [member]
  simp only [members, List.map_append, List.map_cons, List.map_nil]
  exact (optional _ _).append <| .cons_cons _ <|
    (((optional _ _).append (.refl _)).append (optional _ _)).append (.refl _)

theorem pairwise_names : names.Pairwise fun a b =>
    lexicographic ((utf16 a).map UInt16.toNat) ((utf16 b).map UInt16.toNat) ≠ .gt := by
  decide

theorem sortMembers_members (c : ClaimValues) : sortMembers c.members = c.members := by
  have h := pairwise_names.sublist c.sublist_names
  rw [List.pairwise_map] at h
  exact List.Pairwise.insertionSort_eq (h.imp fun hm => by simpa using hm)

theorem normalMembers_members (c : ClaimValues) :
    Data.normalMembers c.members = c.normal.members := by
  rw [Data.normalMembers_eq]
  cases c with | mk _ _ _ _ _ _ _ _ _ _ foa entitlements additional =>
  cases foa <;> cases entitlements <;> cases additional <;> rfl

theorem normal_data (c : ClaimValues) : c.data.normal = .obj c.normal.members := by
  rw [data, Data.normal, normalMembers_members, sortMembers_members]

-- What makes the claims a payload that can be written.
structure Valid (c : ClaimValues) : Prop where
  iat              : c.iat.natAbs < 2 ^ 53
  nbf              : c.nbf.natAbs < 2 ^ 53
  exp              : c.exp.natAbs < 2 ^ 53
  maxUsages        : c.maxUsages.natAbs < 2 ^ 53
  forceOnlineAfter : ∀ d ∈ c.forceOnlineAfter, d.Distinct ∧ d.Safe
  entitlements     : ∀ d ∈ c.entitlements, d.Distinct ∧ d.Safe
  additional       : ∀ d ∈ c.additional, d.Distinct ∧ d.Safe

theorem mem_member {name : String} {d : Option Data} {m : List Char × Data}
    (h : m ∈ member name d) : m.2 ∈ d := by
  cases d <;> simp_all [member]

theorem Valid.encodes {c : ClaimValues} (h : c.Valid) : Encodes c.data (bytesOf c.data.normal.text) := by
  have hm : ∀ m ∈ c.members, m.2.Distinct ∧ m.2.Safe := by
    intro m hm
    simp only [members, List.mem_append, List.mem_cons, List.not_mem_nil, or_false] at hm
    rcases hm with ho | rfl | ((ho | rfl | rfl | rfl | rfl) | ho) | rfl | rfl | rfl | rfl | rfl
    case inl => exact h.entitlements _ (mem_member ho)
    case inr.inr.inl.inl.inl => exact h.forceOnlineAfter _ (mem_member ho)
    case inr.inr.inl.inr => exact h.additional _ (mem_member ho)
    case inr.inl => exact ⟨trivial, h.exp⟩
    case inr.inr.inl.inl.inr.inl => exact ⟨trivial, h.iat⟩
    case inr.inr.inl.inl.inr.inr.inr.inr => exact ⟨trivial, h.maxUsages⟩
    case inr.inr.inr.inl => exact ⟨trivial, h.nbf⟩
    all_goals exact ⟨trivial, trivial⟩
  refine ⟨rfl, ⟨nodup_names.sublist c.sublist_names, ?_⟩, ?_, rfl⟩
  case refine_1 => exact (Data.distinctMembers_iff _).mpr fun m h => (hm m h).1
  case refine_2 => exact (Data.safeMembers_iff _).mpr fun m h => (hm m h).2

theorem avoids_data {c : ClaimValues} {name : List Char} (hn : name ∉ names)
    (ho : ∀ d, d ∈ c.entitlements ∨ d ∈ c.forceOnlineAfter ∨ d ∈ c.additional → d.Avoids name) :
    c.data.Avoids name := by
  refine (Data.avoidMembers_iff _ _).mpr fun m hm => ⟨?_, ?_⟩
  case refine_1 => exact fun he => hn (he ▸ c.sublist_names.subset (List.mem_map_of_mem hm))
  case refine_2 =>
    simp only [members, List.mem_append, List.mem_cons, List.not_mem_nil, or_false] at hm
    rcases hm with h | rfl | ((h | rfl | rfl | rfl | rfl) | h) | rfl | rfl | rfl | rfl | rfl
    case inl => exact ho _ (.inl (mem_member h))
    case inr.inr.inl.inl.inl => exact ho _ (.inr (.inl (mem_member h)))
    case inr.inr.inl.inr => exact ho _ (.inr (.inr (mem_member h)))
    all_goals trivial

theorem lookup_of_mem {c : ClaimValues} {name : String} {d : Data}
    (h : (name.toList, d) ∈ c.members) : c.members.lookup name.toList = some d :=
  lookup_eq_some_of_mem (nodup_names.sublist c.sublist_names) h

theorem lookup_eq_none {name : String} (c : ClaimValues) (h : name.toList ∉ names) :
    c.members.lookup name.toList = none := by
  refine List.lookup_eq_none_iff.mpr fun m hm => ?_
  rw [bne_iff_ne]
  exact fun he => h (he ▸ c.sublist_names.subset (List.mem_map_of_mem hm))

theorem lookup_forceOnlineAfter (c : ClaimValues) :
    c.members.lookup "force_online_after".toList = c.forceOnlineAfter := by
  cases c with | mk _ _ _ _ _ _ _ _ _ _ foa entitlements additional =>
  cases foa <;> cases entitlements <;> cases additional <;> rfl

theorem lookup_entitlements (c : ClaimValues) :
    c.members.lookup "entitlements".toList = c.entitlements := by
  cases c with | mk _ _ _ _ _ _ _ _ _ _ foa entitlements additional =>
  cases foa <;> cases entitlements <;> cases additional <;> rfl

end ClaimValues

-- Claims without the optional ones.
def plainClaims : ClaimValues where
  jti              := "j1"
  iat              := 0
  nbf              := 0
  exp              := 10
  scope            := ""
  licenseID        := "l1"
  usageID          := "u1"
  usageFingerprint := "f1"
  status           := "active"
  maxUsages        := 1

theorem valid_plainClaims : plainClaims.Valid := by
  constructor
  case forceOnlineAfter | entitlements | additional => rintro d ⟨⟩
  all_goals decide

namespace Go

def payload (c : ClaimValues) : Map :=
  ofMembers (Data.rawMembers c.members)

theorem lookup_payload (c : ClaimValues) (key : String) :
    (payload c).lookup (Bytes.ofString key) =
      (c.members.lookup key.toList).map fun d => ofRaw d.raw :=
  lookup_ofMembers _ _

theorem claimString_payload {c : ClaimValues} {key s : String} (h : (key.toList, text s) ∈ c.members) :
    claimString (payload c) key = some (Bytes.ofString s) := by
  rw [claimString, Map.as, lookup_payload, ClaimValues.lookup_of_mem h, Option.map_some, ofRaw_text]
  rfl

-- The integer of a claim, if it is one.
def ofInteger? (d : Data) : Option Int64 :=
  match d with
  | .int n => some (.ofInt n)
  | _      => none

theorem claimOptInt64_eq {p : Map} {key : String} {o : Option Data}
    (h : p.lookup (Bytes.ofString key) = o.map fun d => ofRaw d.raw) (hs : ∀ d ∈ o, d.Safe) :
    claimOptInt64 p key = o.bind ofInteger? := by
  rw [claimOptInt64, claimInt64, h]
  cases o
  case none => rfl
  case some d =>
    cases d
    case int n =>
      have hn : n.natAbs < 2 ^ 53 := hs _ rfl
      have hp : parseInt (.ofList (intText n)) = (.ofInt n, true) := by
        rw [parseInt, String.toList_ofList, integer?_intText]
        simp only
        rw [if_neg (by omega), if_neg (by omega)]
      simp [Data.raw, ofRaw, hp, ofInteger?]
    all_goals rfl

theorem claimOptInt64_payload {c : ClaimValues} {key : String} {n : Int}
    (h : (key.toList, .int n) ∈ c.members) (hn : n.natAbs < 2 ^ 53) :
    claimOptInt64 (payload c) key = some (.ofInt n) := by
  refine claimOptInt64_eq (o := some (.int n)) ?_ fun d hd => ?_
  case refine_1 => rw [lookup_payload, ClaimValues.lookup_of_mem h]
  case refine_2 => cases hd; exact hn

def ofObject? (d : Data) : Option Map :=
  match d with
  | .obj ms => some (ofMembers (Data.rawMembers ms))
  | _       => none

def claims (c : ClaimValues) : Claims where
  jti              := Bytes.ofString c.jti
  iat              := .ofInt c.iat
  nbf              := .ofInt c.nbf
  exp              := .ofInt c.exp
  scope            := Bytes.ofString c.scope
  licenseID        := Bytes.ofString c.licenseID
  usageID          := Bytes.ofString c.usageID
  usageFingerprint := Bytes.ofString c.usageFingerprint
  status           := Bytes.ofString c.status
  maxUsages        := .ofInt c.maxUsages
  forceOnlineAfter := c.forceOnlineAfter.bind ofInteger?
  entitlements     := c.entitlements.bind ofObject?
  aud              := none
  iss              := none

theorem claimed_payload {c : ClaimValues} (h : c.Valid) : Claimed (payload c) (claims c) where
  jti              := claimString_payload (by simp [ClaimValues.members])
  iat              := claimOptInt64_payload (by simp [ClaimValues.members]) h.iat
  nbf              := claimOptInt64_payload (by simp [ClaimValues.members]) h.nbf
  exp              := claimOptInt64_payload (by simp [ClaimValues.members]) h.exp
  scope            := claimString_payload (by simp [ClaimValues.members])
  licenseID        := claimString_payload (by simp [ClaimValues.members])
  usageID          := claimString_payload (by simp [ClaimValues.members])
  usageFingerprint := claimString_payload (by simp [ClaimValues.members])
  status           := claimString_payload (by simp [ClaimValues.members])
  maxUsages        := claimOptInt64_payload (by simp [ClaimValues.members]) h.maxUsages
  aud              := by
    rw [parseAud, lookup_payload, c.lookup_eq_none (by decide)]
    rfl
  iss              := by
    rw [parseIss, lookup_payload, c.lookup_eq_none (by decide)]
    rfl
  forceOnlineAfter := by
    refine claimOptInt64_eq ?_ fun d hd => (h.forceOnlineAfter d hd).2
    rw [lookup_payload, c.lookup_forceOnlineAfter]
  entitlements     := by
    rw [Map.as, lookup_payload, c.lookup_entitlements, claims]
    cases c.entitlements with
    | none   => rfl
    | some d => cases d <;> rfl

theorem decodeEnvelope_sampleClaims {c : ClaimValues} (h : c.Valid) (hn : c.normal = c) :
    ∃ parts, decodeEnvelope (Bytes.ofString (sampleToken c.data)) = .ok parts ∧
      parts.header = ⟨Bytes.ofString "ed25519", Bytes.ofString "k1"⟩ ∧
      Claimed parts.payload (claims c) := by
  obtain ⟨parts, hd, hh, hp⟩ := decodeEnvelope_sampleToken h.encodes c.normal_data
  refine ⟨parts, hd, hh, ?_⟩
  rw [hp, hn]
  exact claimed_payload h

end Go

namespace Ts

def payload (c : ClaimValues) : Value :=
  .object (c.members.map fun m => (utf16 m.1, ofRaw m.2.raw)) none

theorem get?_payload (c : ClaimValues) (key : String) :
    (payload c).get? key = (c.members.lookup key.toList).map fun d => ofRaw d.raw :=
  get?_object _ _

theorem requiredString_payload {c : ClaimValues} {key s : String}
    (h : (key.toList, text s) ∈ c.members) : requiredString (payload c) key = .ok (.ofString s) := by
  rw [requiredString, req, get?_payload, ClaimValues.lookup_of_mem h, Option.map_some, ofRaw_text]
  rfl

theorem isFinite_ofInt {n : Int} (h : n.natAbs < 2 ^ 53) : (Binary64.ofInt n).isFinite := by
  rw [ofInt_eq h, ofLiteral_intText h]
  rfl

theorem asNumber_ofInt {n : Int} (h : n.natAbs < 2 ^ 53) (key : String) :
    asNumber key (ofRaw (Data.int n).raw) = .ok (.ofInt n) := by
  rw [ofRaw_int h, asNumber, Value.asNumber, Option.filter_some, if_pos (isFinite_ofInt h)]

theorem requiredNumber_payload {c : ClaimValues} {key : String} {n : Int}
    (h : (key.toList, .int n) ∈ c.members) (hn : n.natAbs < 2 ^ 53) :
    requiredNumber (payload c) key = .ok (.ofInt n) := by
  rw [requiredNumber, req, get?_payload, ClaimValues.lookup_of_mem h, Option.map_some]
  exact asNumber_ofInt hn key

def claims (c : ClaimValues) (forceOnlineAfter : Option Binary64) (entitlements : Option Value) :
    Claims where
  jti              := .ofString c.jti
  iat              := .ofInt c.iat
  nbf              := .ofInt c.nbf
  exp              := .ofInt c.exp
  scope            := .ofString c.scope
  licenseID        := .ofString c.licenseID
  usageID          := .ofString c.usageID
  usageFingerprint := .ofString c.usageFingerprint
  status           := .ofString c.status
  maxUsages        := .ofInt c.maxUsages
  forceOnlineAfter := forceOnlineAfter
  entitlements     := entitlements
  aud              := none
  iss              := none

theorem assertClaimShape_payload {c : ClaimValues} (h : c.Valid) : assertClaimShape (payload c) = do
    let forceOnlineAfter ← parseForceOnlineAfter (payload c)
    let entitlements     ← parseEntitlements (payload c)
    return claims c forceOnlineAfter entitlements := by
  have ha : parseAud (payload c) = .ok none := by
    rw [parseAud, get?_payload, c.lookup_eq_none (by decide)]
    rfl
  have hi : parseIss (payload c) = .ok none := by
    rw [parseIss, get?_payload, c.lookup_eq_none (by decide)]
    rfl
  rw [assertClaimShape, requiredString_payload (s := c.jti) (by simp [ClaimValues.members]),
    requiredNumber_payload (n := c.iat) (by simp [ClaimValues.members]) h.iat,
    requiredNumber_payload (n := c.nbf) (by simp [ClaimValues.members]) h.nbf,
    requiredNumber_payload (n := c.exp) (by simp [ClaimValues.members]) h.exp,
    requiredString_payload (s := c.scope) (by simp [ClaimValues.members]),
    requiredString_payload (s := c.licenseID) (by simp [ClaimValues.members]),
    requiredString_payload (s := c.usageID) (by simp [ClaimValues.members]),
    requiredString_payload (s := c.usageFingerprint) (by simp [ClaimValues.members]),
    requiredString_payload (s := c.status) (by simp [ClaimValues.members]),
    requiredNumber_payload (n := c.maxUsages) (by simp [ClaimValues.members]) h.maxUsages, ha, hi]
  rfl

theorem parseForceOnlineAfter_payload (c : ClaimValues) : parseForceOnlineAfter (payload c) =
    match c.forceOnlineAfter with
    | none | some .null => .ok none
    | some d            => some <$> asNumber "force_online_after" (ofRaw d.raw) := by
  rw [parseForceOnlineAfter, get?_payload, c.lookup_forceOnlineAfter]
  cases c.forceOnlineAfter with
  | none   => rfl
  | some d => cases d <;> rfl

theorem parseEntitlements_payload (c : ClaimValues) : parseEntitlements (payload c) =
    match c.entitlements with
    | none | some .null => .ok none
    | some (.obj ms)    => .ok (some (ofRaw (Data.obj ms).raw))
    | some _            => .error (invalidTokenFormat "entitlements must be an object") := by
  rw [parseEntitlements, get?_payload, c.lookup_entitlements]
  cases c.entitlements with
  | none   => rfl
  | some d => cases d <;> rfl

theorem decodeUnverified_sampleClaims {c : ClaimValues} (h : c.Valid) (hn : c.normal = c)
    (ha : c.data.Avoids "__proto__".toList) :
    ∃ parts, decodeUnverified (.ofString (sampleToken c.data)) = .ok parts ∧
      parts.header = ⟨.ofString "ed25519", .ofString "k1"⟩ ∧ parts.payload = payload c := by
  obtain ⟨parts, hd, hh, hp⟩ := decodeUnverified_sampleToken h.encodes c.normal_data ha
  rw [hn] at hp
  exact ⟨parts, hd, hh, hp⟩

end Ts

end Licensing
