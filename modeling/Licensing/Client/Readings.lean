import Licensing.Client.Claims

-- What the ports read of the members of a payload.

namespace Licensing

open JsonText

-- The names of claims are read alike: they have no U+FFFD, and none of them is `__proto__`.
structure ClaimName (name : String) : Prop where
  plain : '\ufffd' ∉ name.toList
  own   : Ts.JsString.ofString name ≠ Ts.proto

-- A member of a payload.
def claim? (ms : List (List Piece × Raw)) (name : String) : Option Raw :=
  (ms.map fun m => (JsonText.text m.1, m.2)).lookup name.toList

-- A property in the TypeScript port, where an object inherits those of its member `__proto__`.
mutual

def member? (name : String) : Raw → Option Raw
  | .obj ms => (claim? ms name).or (inheritedMember? name ms)
  | _       => none

def inheritedMember? (name : String) : List (List Piece × Raw) → Option Raw
  | []           => none
  | (k, v) :: ms => if units k = Ts.proto then member? name v else inheritedMember? name ms

end

section Lookups

variable {ms : List (List Piece × Raw)} {name : String}

theorem Go.lookup_claim (ms : List (List Piece × Raw)) (name : String) :
    (Go.ofMembers ms).lookup (Bytes.ofString name) = (claim? ms name).map Go.ofRaw := by
  have hm : Go.ofMembers ms =
      (ms.map fun m => (JsonText.text m.1, m.2)).map fun m => (Bytes.ofString (.ofList m.1), Go.ofRaw m.2) := by
    induction ms
    case nil => rfl
    case cons m ms ih => rw [Go.ofMembers, ih]; rfl
  have hi : Function.Injective fun s : List Char => Bytes.ofString (.ofList s) := fun _ _ h =>
    String.ofList_injective (Bytes.ofString_injective h)
  rw [hm, claim?, ← lookup_map hi, String.ofList_toList]

-- Whether a member has a name that has no U+FFFD.
theorem units_eq_iff {ps : List Piece} (hn : '\ufffd' ∉ name.toList) :
    name.toList = JsonText.text ps ↔ utf16 name.toList = units ps := by
  refine ⟨fun h => ?_, fun h => ?_⟩
  case refine_1 =>
    rw [h] at hn ⊢
    rw [(utf16_text_iff ps).mpr (paired_of_text ?_)]
    rwa [textOfUnits_units]
  case refine_2 => rw [← textOfUnits_units, ← h, textOfUnits_utf16]

theorem mem_of_claim {raw : Raw} (h : claim? ms name = some raw) : ∃ key, (key, raw) ∈ ms := by
  obtain ⟨l, r, he, _⟩ := List.lookup_eq_some_iff.mp h
  have hm : (name.toList, raw) ∈ ms.map fun m => (JsonText.text m.1, m.2) := by simp [he]
  obtain ⟨⟨key, raw'⟩, hm, he⟩ := List.mem_map.mp hm
  rw [show raw' = raw from congrArg Prod.snd he] at hm
  exact ⟨key, hm⟩

theorem distinct_claim (hd : (Raw.obj ms).Distinct Go.stringOf) {raw : Raw}
    (h : claim? ms name = some raw) : raw.Distinct Go.stringOf := by
  obtain ⟨key, hm⟩ := mem_of_claim h
  exact (Raw.distinctMembers_iff _ ms).mp hd.2 _ hm

theorem member?_of_claim {raw : Raw} (h : claim? ms name = some raw) : member? name (.obj ms) = some raw := by
  rw [member?, h, Option.some_or]

-- The members other than `__proto__` are own properties.
theorem Ts.lookup_own (hn : ClaimName name) (o : Ts.Members) (ms : List (List Piece × Raw)) :
    (Ts.ofMembers o ms).own.lookup (.ofString name) =
      (o.own.lookup (.ofString name)).or ((claim? ms name).map Ts.ofRaw) := by
  induction ms generalizing o
  case nil => simp [Ts.ofMembers, claim?]
  case cons m ms ih =>
    have own : (o.assign (units m.1) (Ts.ofRaw m.2)).own.lookup (.ofString name) =
        (o.own.lookup (.ofString name)).or (if name.toList = JsonText.text m.1 then some (Ts.ofRaw m.2) else none) := by
      have named : name.toList = JsonText.text m.1 ↔ Ts.JsString.ofString name = units m.1 := units_eq_iff hn.plain
      unfold Ts.Members.assign
      split
      case isTrue h =>
        rw [if_neg (named.not.mpr (h.left ▸ hn.own)), Option.or_none]
        split <;> rfl
      case isFalse =>
        rw [List.lookup_append]
        by_cases he : Ts.JsString.ofString name = units m.1
        case pos => rw [if_pos (named.mpr he)]; simp [he]
        case neg => rw [if_neg (named.not.mpr he)]; simp [List.lookup_cons, beq_false_of_ne he]
    have cons : claim? (m :: ms) name = if name.toList = JsonText.text m.1 then some m.2 else claim? ms name := by
      rw [claim?, List.map_cons, List.lookup_cons]
      by_cases he : name.toList = JsonText.text m.1
      case pos => simp [he]
      case neg => rw [beq_false_of_ne he, if_neg he, claim?]
    rw [Ts.ofMembers, ih, own, Option.or_assoc, cons]
    split <;> simp

-- The one member `__proto__` is the prototype, if it can be one.
theorem Ts.prototype_ofMembers {o : Ts.Members} (ho : o.prototype = none)
    (nd : (ms.map fun m => units m.1).Nodup) : (Ts.ofMembers o ms).prototype =
      ((ms.map fun m => (units m.1, Ts.ofRaw m.2)).lookup Ts.proto).filter Ts.Value.isObjectOrNull := by
  induction ms generalizing o
  case nil => exact ho
  case cons m ms ih =>
    rw [List.map_cons, List.nodup_cons] at nd
    rw [Ts.ofMembers, List.map_cons, List.lookup_cons]
    by_cases hm : units m.1 = Ts.proto
    case pos =>
      have rest : ∀ m' ∈ ms, units m'.1 ≠ Ts.proto := fun m' hm' he =>
        nd.left (hm.trans he.symm ▸ List.mem_map_of_mem (f := fun m => units m.1) hm')
      have ha : o.hasAccessor := by rw [Ts.Members.hasAccessor, ho]
      rw [Ts.ofMembers_of_plain rest, Ts.Members.assign, if_pos ⟨hm, ha⟩, hm]
      by_cases hv : (Ts.ofRaw m.2).isObjectOrNull <;> simp [hv, ho, Option.filter_some]
    case neg =>
      rw [ih _ nd.right, beq_false_of_ne (Ne.symm hm)]
      rw [Ts.Members.assign, if_neg fun h => hm h.left]
      exact ho

theorem Ts.get?_prototype (own : List (Ts.JsString × Ts.Value)) (prototype : Option Ts.Value) (name : String) :
    (Ts.Value.object own prototype).get? name =
      (own.lookup (.ofString name)).or (prototype.bind (·.get? name)) := by
  cases prototype <;> rw [Ts.Value.get?] <;> cases own.lookup (.ofString name) <;> rfl

theorem Ts.get?_of_not_prototype {v : Ts.Value} (h : ¬v.isObjectOrNull) (name : String) : v.get? name = none := by
  cases v <;> first | rfl | exact absurd rfl h

mutual

theorem Ts.get?_ofRaw (hn : ClaimName name) : (raw : Raw) → raw.Distinct Go.stringOf →
    (Ts.ofRaw raw).get? name = (member? name raw).map Ts.ofRaw
  | .obj ms, hd => by
    have inherited : (((ms.map fun m => (units m.1, Ts.ofRaw m.2)).lookup Ts.proto).filter
        Ts.Value.isObjectOrNull).bind (·.get? name) = (inheritedMember? name ms).map Ts.ofRaw := by
      rw [← Ts.get?_inherited hn ms hd.2]
      cases (ms.map fun m => (units m.1, Ts.ofRaw m.2)).lookup Ts.proto
      case none => rfl
      case some v =>
        by_cases hv : v.isObjectOrNull
        case pos => rw [Option.filter_some, if_pos hv]
        case neg => rw [Option.filter_some, if_neg hv]; exact (Ts.get?_of_not_prototype hv name).symm
    rw [Ts.ofRaw, Ts.get?_prototype, Ts.lookup_own hn, Ts.prototype_ofMembers rfl (nodup_units hd.1), inherited,
      member?]
    cases claim? ms name <;> rfl
  | .null, _ | .bool _, _ | .num _, _ | .str _, _ | .arr _, _ => rfl

theorem Ts.get?_inherited (hn : ClaimName name) : (ms : List (List Piece × Raw)) →
    Raw.DistinctMembers Go.stringOf ms →
    ((ms.map fun m => (units m.1, Ts.ofRaw m.2)).lookup Ts.proto).bind (·.get? name) =
      (inheritedMember? name ms).map Ts.ofRaw
  | [], _           => rfl
  | (k, v) :: ms, hd => by
    rw [List.map_cons, List.lookup_cons, inheritedMember?]
    by_cases hk : units k = Ts.proto
    case pos =>
      rw [hk, if_pos rfl, beq_self_eq_true]
      exact Ts.get?_ofRaw hn v hd.1
    case neg =>
      rw [if_neg hk, beq_false_of_ne (Ne.symm hk)]
      exact Ts.get?_inherited hn ms hd.2

end

end Lookups

theorem pure_eq_ok_iff {ε α : Type} {a b : α} : (pure a : Except ε α) = .ok b ↔ a = b :=
  ⟨Except.ok.inj, congrArg _⟩

-- The values of members.

def stringOf? : Option Raw → Option String
  | some (.str ps) => some (.ofList (JsonText.text ps))
  | _              => none

def unitsOf? : Option Raw → Option Ts.JsString
  | some (.str ps) => some (units ps)
  | _              => none

def integer64? (lit : List Char) : Option Int64 :=
  (integer? lit).bind fun n => if -2 ^ 63 ≤ n ∧ n < 2 ^ 63 then some (.ofInt n) else none

def int64Of? : Option Raw → Option Int64
  | some (.num lit) => integer64? lit
  | _               => none

def doubleOf? : Option Raw → Option Binary64
  | some (.num lit) => some (Binary64.ofLiteral lit)
  | _               => none

def objectOf? {α : Type} (f : Raw → α) : Option Raw → Option α
  | some (.obj ms) => some (f (.obj ms))
  | _              => none

-- The strings of an audience.
def stringsOf {α : Type} (f : List Piece → α) : Option Raw → List α
  | some (.str ps) => [f ps]
  | some (.arr xs) => xs.filterMap fun
    | .str ps => some (f ps)
    | _       => none
  | _              => []

def requiredStrings : List String :=
  ["jti", "scope", "license_id", "usage_id", "usage_fingerprint", "status"]

def requiredNumbers : List String :=
  ["iat", "nbf", "exp", "max_usages"]

theorem claimName_of_mem : ∀ name ∈ requiredStrings ++ requiredNumbers ++
    ["force_online_after", "entitlements", "aud", "iss"], ClaimName name := by
  have h : ∀ name ∈ requiredStrings ++ requiredNumbers ++ ["force_online_after", "entitlements", "aud", "iss"],
      '\ufffd' ∉ name.toList ∧ Ts.JsString.ofString name ≠ Ts.proto := by decide +kernel
  exact fun name hn => ⟨(h name hn).left, (h name hn).right⟩

-- The required claims, the audience and the issuer have the types that they should have.
structure Formed (read : String → Option Raw) (isNumber : List Char → Prop) : Prop where
  strings : ∀ name ∈ requiredStrings, ∃ ps, read name = some (.str ps)
  numbers : ∀ name ∈ requiredNumbers, ∃ lit, read name = some (.num lit) ∧ isNumber lit
  aud     : ∀ raw, read "aud" = some raw → raw = .null ∨ (∃ ps, raw = .str ps) ∨
    ∃ xs, raw = .arr xs ∧ ∀ x ∈ xs, ∃ ps, x = .str ps
  iss     : ∀ raw, read "iss" = some raw → raw = .null ∨ ∃ ps, raw = .str ps

-- So have the optional ones.
structure OptionalFormed (read : String → Option Raw) : Prop where
  forceOnlineAfter : ∀ raw, read "force_online_after" = some raw →
    raw = .null ∨ ∃ lit, raw = .num lit ∧ (Binary64.ofLiteral lit).isFinite
  entitlements     : ∀ raw, read "entitlements" = some raw → raw = .null ∨ ∃ ms, raw = .obj ms

-- The payloads whose claims the ports take. Go asks for integers of 64 bits, and leaves out an optional claim
-- that is something else.

def Go.Takes (ms : List (List Piece × Raw)) : Prop :=
  Formed (claim? ms) fun lit => (integer64? lit).isSome

structure Ts.Takes (ms : List (List Piece × Raw)) : Prop where
  required : Formed (member? · (.obj ms)) fun lit => (Binary64.ofLiteral lit).isFinite
  optional : OptionalFormed (member? · (.obj ms))

namespace Go

variable {ms : List (List Piece × Raw)} {name : String}

theorem claimString_ofMembers :
    claimString (ofMembers ms) name = (stringOf? (claim? ms name)).map Bytes.ofString := by
  rw [claimString, Map.as, lookup_claim]
  cases claim? ms name with
  | none     => rfl
  | some raw => cases raw <;> rfl

theorem claimOptInt64_ofMembers : claimOptInt64 (ofMembers ms) name = int64Of? (claim? ms name) := by
  rw [claimOptInt64, claimInt64, lookup_claim]
  cases claim? ms name with
  | none     => rfl
  | some raw =>
    cases raw
    case num lit =>
      simp only [Option.map_some, ofRaw, parseInt, String.toList_ofList, int64Of?, integer64?]
      cases integer? lit
      case none => rfl
      case some n =>
        simp only [Option.bind_some]
        split <;> [skip; split]
        all_goals simp only [Bool.false_eq_true, if_false, if_true]
        · rw [if_neg (by omega)]
        · rw [if_neg (by omega)]
        · rw [if_pos (by omega)]
    all_goals rfl

-- The audience, which is none where it is absent or null.
def audienceOf : Option Raw → Option (List GoString)
  | none | some .null => none
  | raw?              => some (stringsOf stringOf raw?)

theorem audience_eq_ok_iff (xs : List Raw) {ss : List GoString} : audience (ofElements xs) = .ok ss ↔
    (∀ x ∈ xs, ∃ ps, x = .str ps) ∧ stringsOf stringOf (some (.arr xs)) = ss := by
  induction xs generalizing ss
  case nil => simp [ofElements, audience, stringsOf]
  case cons x xs ih =>
    rw [ofElements, audience, List.forall_mem_cons]
    cases x
    case str ps =>
      simp only [ofRaw, Value.asString, bind_eq_ok_iff, ih, stringsOf, List.filterMap_cons]
      simp [pure_eq_ok_iff]
    all_goals simp [ofRaw, Value.asString]

theorem parseAud_eq_ok_iff {aud : Option (List GoString)} : parseAud (ofMembers ms) = .ok aud ↔
    (∀ raw, claim? ms "aud" = some raw → raw = .null ∨ (∃ ps, raw = .str ps) ∨
      ∃ xs, raw = .arr xs ∧ ∀ x ∈ xs, ∃ ps, x = .str ps) ∧ audienceOf (claim? ms "aud") = aud := by
  rw [parseAud, lookup_claim]
  cases claim? ms "aud" with
  | none     => simp [audienceOf]
  | some raw =>
    cases raw
    case arr xs =>
      simp only [Option.map_some, ofRaw, bind_eq_ok_iff, audience_eq_ok_iff]
      simp [audienceOf, pure_eq_ok_iff]
    all_goals simp [ofRaw, audienceOf, stringsOf]

theorem parseIss_eq_ok_iff {iss : Option GoString} : parseIss (ofMembers ms) = .ok iss ↔
    (∀ raw, claim? ms "iss" = some raw → raw = .null ∨ ∃ ps, raw = .str ps) ∧
      (stringOf? (claim? ms "iss")).map Bytes.ofString = iss := by
  rw [parseIss, lookup_claim]
  cases claim? ms "iss" with
  | none     => simp [stringOf?]
  | some raw => cases raw <;> simp [ofRaw, stringOf?, stringOf]

theorem exists_stringOf?_iff {raw? : Option Raw} : (∃ s, (stringOf? raw?).map Bytes.ofString = some s) ↔
    ∃ ps, raw? = some (.str ps) := by
  cases raw? with
  | none     => simp [stringOf?]
  | some raw => cases raw <;> simp [stringOf?]

theorem exists_int64Of?_iff {raw? : Option Raw} : (∃ i, int64Of? raw? = some i) ↔
    ∃ lit, raw? = some (.num lit) ∧ (integer64? lit).isSome := by
  cases raw? with
  | none     => simp [int64Of?]
  | some raw => cases raw <;> simp [int64Of?, Option.isSome_iff_exists]

theorem takes_iff : Takes ms ↔ ∃ c, Claimed (ofMembers ms) c := by
  constructor
  case mp =>
    intro h
    have string {name} (hn : name ∈ requiredStrings) : ∃ s, claimString (ofMembers ms) name = some s := by
      simpa only [claimString_ofMembers] using exists_stringOf?_iff.mpr (h.strings name hn)
    have int64 {name} (hn : name ∈ requiredNumbers) : ∃ i, claimOptInt64 (ofMembers ms) name = some i := by
      simpa only [claimOptInt64_ofMembers] using exists_int64Of?_iff.mpr (h.numbers name hn)
    obtain ⟨_, jti⟩              := @string "jti" (by decide)
    obtain ⟨_, iat⟩              := @int64 "iat" (by decide)
    obtain ⟨_, nbf⟩              := @int64 "nbf" (by decide)
    obtain ⟨_, exp⟩              := @int64 "exp" (by decide)
    obtain ⟨_, scope⟩            := @string "scope" (by decide)
    obtain ⟨_, licenseID⟩        := @string "license_id" (by decide)
    obtain ⟨_, usageID⟩          := @string "usage_id" (by decide)
    obtain ⟨_, usageFingerprint⟩ := @string "usage_fingerprint" (by decide)
    obtain ⟨_, status⟩           := @string "status" (by decide)
    obtain ⟨_, maxUsages⟩        := @int64 "max_usages" (by decide)
    exact ⟨⟨_, _, _, _, _, _, _, _, _, _, _, _, _, _⟩, jti, iat, nbf, exp, scope, licenseID, usageID,
      usageFingerprint, status, maxUsages, parseAud_eq_ok_iff.mpr ⟨h.aud, rfl⟩, parseIss_eq_ok_iff.mpr ⟨h.iss, rfl⟩,
      rfl, rfl⟩
  case mpr =>
    rintro ⟨c, hc⟩
    have string {name s} (h : claimString (ofMembers ms) name = some s) : ∃ ps, claim? ms name = some (.str ps) :=
      exists_stringOf?_iff.mp ⟨s, claimString_ofMembers ▸ h⟩
    have int64 {name i} (h : claimOptInt64 (ofMembers ms) name = some i) :
        ∃ lit, claim? ms name = some (.num lit) ∧ (integer64? lit).isSome :=
      exists_int64Of?_iff.mp ⟨i, claimOptInt64_ofMembers ▸ h⟩
    constructor
    case strings =>
      simp only [requiredStrings, List.forall_mem_cons]
      exact ⟨string hc.jti, string hc.scope, string hc.licenseID, string hc.usageID, string hc.usageFingerprint,
        string hc.status, by simp⟩
    case numbers =>
      simp only [requiredNumbers, List.forall_mem_cons]
      exact ⟨int64 hc.iat, int64 hc.nbf, int64 hc.exp, int64 hc.maxUsages, by simp⟩
    case aud => exact (parseAud_eq_ok_iff.mp hc.aud).left
    case iss => exact (parseIss_eq_ok_iff.mp hc.iss).left

end Go

namespace Ts

variable {ms : List (List Piece × Raw)} {name : String}

def audienceOf : Option Raw → Option Audience
  | some (.str ps) => some (.string (units ps))
  | some (.arr xs) => some (.array (stringsOf units (some (.arr xs))))
  | _              => none

-- What the claims of a payload are.
structure Claimed (ms : List (List Piece × Raw)) (c : Claims) : Prop where
  jti              : unitsOf? (member? "jti" (.obj ms)) = some c.jti
  iat              : doubleOf? (member? "iat" (.obj ms)) = some c.iat
  nbf              : doubleOf? (member? "nbf" (.obj ms)) = some c.nbf
  exp              : doubleOf? (member? "exp" (.obj ms)) = some c.exp
  scope            : unitsOf? (member? "scope" (.obj ms)) = some c.scope
  licenseID        : unitsOf? (member? "license_id" (.obj ms)) = some c.licenseID
  usageID          : unitsOf? (member? "usage_id" (.obj ms)) = some c.usageID
  usageFingerprint : unitsOf? (member? "usage_fingerprint" (.obj ms)) = some c.usageFingerprint
  status           : unitsOf? (member? "status" (.obj ms)) = some c.status
  maxUsages        : doubleOf? (member? "max_usages" (.obj ms)) = some c.maxUsages
  forceOnlineAfter : doubleOf? (member? "force_online_after" (.obj ms)) = c.forceOnlineAfter
  entitlements     : objectOf? ofRaw (member? "entitlements" (.obj ms)) = c.entitlements
  aud              : audienceOf (member? "aud" (.obj ms)) = c.aud
  iss              : unitsOf? (member? "iss" (.obj ms)) = c.iss

variable (hd : (Raw.obj ms).Distinct Go.stringOf)
include hd

theorem requiredString_eq_ok_iff (hn : ClaimName name) {u : JsString} :
    requiredString (ofRaw (.obj ms)) name = .ok u ↔ unitsOf? (member? name (.obj ms)) = some u := by
  rw [requiredString, req, get?_ofRaw hn _ hd]
  cases member? name (.obj ms) with
  | none     => exact iff_of_false (by rintro ⟨⟩) (by simp [unitsOf?])
  | some raw => cases raw <;> simp [ofRaw, asString, Value.asString, unitsOf?]

theorem requiredNumber_eq_ok_iff (hn : ClaimName name) {x : Binary64} :
    requiredNumber (ofRaw (.obj ms)) name = .ok x ↔ doubleOf? (member? name (.obj ms)) = some x ∧ x.isFinite := by
  rw [requiredNumber, req, get?_ofRaw hn _ hd]
  cases member? name (.obj ms) with
  | none     => exact iff_of_false (by rintro ⟨⟩) (by simp [doubleOf?])
  | some raw =>
    cases raw
    case num lit =>
      simp only [Option.map_some, ofRaw, ok_bind, asNumber, Value.asNumber, Option.filter_some, doubleOf?,
        Option.some.injEq]
      by_cases hf : (Binary64.ofLiteral lit).isFinite
      case pos =>
        rw [if_pos hf]
        exact ⟨fun h => Except.ok.inj h ▸ ⟨rfl, hf⟩, fun h => congrArg _ h.left⟩
      case neg =>
        rw [if_neg hf]
        exact iff_of_false (by rintro ⟨⟩) fun h => hf (h.left ▸ h.right)
    all_goals simp [ofRaw, asNumber, Value.asNumber, doubleOf?]

theorem parseForceOnlineAfter_eq_ok_iff {x? : Option Binary64} :
    parseForceOnlineAfter (ofRaw (.obj ms)) = .ok x? ↔
      (∀ raw, member? "force_online_after" (.obj ms) = some raw →
        raw = .null ∨ ∃ lit, raw = .num lit ∧ (Binary64.ofLiteral lit).isFinite) ∧
      doubleOf? (member? "force_online_after" (.obj ms)) = x? := by
  rw [parseForceOnlineAfter, get?_ofRaw (claimName_of_mem _ (by decide)) _ hd]
  cases member? "force_online_after" (.obj ms) with
  | none     => simp [doubleOf?]
  | some raw =>
    cases raw
    case null    => simp [ofRaw, doubleOf?]
    case num lit =>
      simp only [Option.map_some, ofRaw, asNumber, Value.asNumber, Option.filter_some, doubleOf?]
      by_cases hf : (Binary64.ofLiteral lit).isFinite
      case pos =>
        rw [if_pos hf]
        exact ⟨fun h => ⟨by simp [hf], Except.ok.inj h⟩, fun h => congrArg _ h.right⟩
      case neg =>
        rw [if_neg hf]
        exact iff_of_false (by rintro ⟨⟩) fun h => by simpa [hf] using h.left _ rfl
    all_goals exact iff_of_false (by rintro ⟨⟩) fun h => by simpa using h.left _ rfl

theorem parseEntitlements_eq_ok_iff {v? : Option Value} : parseEntitlements (ofRaw (.obj ms)) = .ok v? ↔
    (∀ raw, member? "entitlements" (.obj ms) = some raw → raw = .null ∨ ∃ ms, raw = .obj ms) ∧
      objectOf? ofRaw (member? "entitlements" (.obj ms)) = v? := by
  rw [parseEntitlements, get?_ofRaw (claimName_of_mem _ (by decide)) _ hd]
  cases member? "entitlements" (.obj ms) with
  | none     => simp [objectOf?]
  | some raw => cases raw <;> simp [ofRaw, objectOf?]

omit hd in
theorem audience_eq_ok_iff (xs : List Raw) {ss : List JsString} : audience (ofElements xs) = .ok ss ↔
    (∀ x ∈ xs, ∃ ps, x = .str ps) ∧ stringsOf units (some (.arr xs)) = ss := by
  induction xs generalizing ss
  case nil => simp [ofElements, audience, stringsOf]
  case cons x xs ih =>
    rw [ofElements, audience, List.forall_mem_cons]
    cases x
    case str ps =>
      simp only [ofRaw, Value.asString, bind_eq_ok_iff, ih, stringsOf, List.filterMap_cons]
      simp [pure_eq_ok_iff]
    all_goals simp [ofRaw, Value.asString]

theorem parseAud_eq_ok_iff {aud : Option Audience} : parseAud (ofRaw (.obj ms)) = .ok aud ↔
    (∀ raw, member? "aud" (.obj ms) = some raw → raw = .null ∨ (∃ ps, raw = .str ps) ∨
      ∃ xs, raw = .arr xs ∧ ∀ x ∈ xs, ∃ ps, x = .str ps) ∧ audienceOf (member? "aud" (.obj ms)) = aud := by
  rw [parseAud, get?_ofRaw (claimName_of_mem _ (by decide)) _ hd]
  cases member? "aud" (.obj ms) with
  | none     => simp [audienceOf]
  | some raw =>
    cases raw
    case arr xs =>
      simp only [Option.map_some, ofRaw, bind_eq_ok_iff, audience_eq_ok_iff]
      simp [audienceOf, pure_eq_ok_iff]
    all_goals simp [ofRaw, audienceOf]

theorem parseIss_eq_ok_iff {iss : Option JsString} : parseIss (ofRaw (.obj ms)) = .ok iss ↔
    (∀ raw, member? "iss" (.obj ms) = some raw → raw = .null ∨ ∃ ps, raw = .str ps) ∧
      unitsOf? (member? "iss" (.obj ms)) = iss := by
  rw [parseIss, get?_ofRaw (claimName_of_mem _ (by decide)) _ hd]
  cases member? "iss" (.obj ms) with
  | none     => simp [unitsOf?]
  | some raw => cases raw <;> simp [ofRaw, unitsOf?]

omit hd in
theorem exists_unitsOf?_iff {raw? : Option Raw} : (∃ u, unitsOf? raw? = some u) ↔ ∃ ps, raw? = some (.str ps) := by
  cases raw? with
  | none     => simp [unitsOf?]
  | some raw => cases raw <;> simp [unitsOf?]

omit hd in
theorem exists_doubleOf?_iff {raw? : Option Raw} : (∃ x, doubleOf? raw? = some x ∧ x.isFinite) ↔
    ∃ lit, raw? = some (.num lit) ∧ (Binary64.ofLiteral lit).isFinite := by
  cases raw? with
  | none     => simp [doubleOf?]
  | some raw => cases raw <;> simp [doubleOf?]

theorem assertClaimShape_eq_ok_iff {c : Claims} :
    assertClaimShape (ofRaw (.obj ms)) = .ok c ↔ Takes ms ∧ Claimed ms c := by
  have string name (h : name ∈ requiredStrings) {u} : requiredString (ofRaw (.obj ms)) name = .ok u ↔
      unitsOf? (member? name (.obj ms)) = some u :=
    requiredString_eq_ok_iff hd (claimName_of_mem name (by simp [h]))
  have number name (h : name ∈ requiredNumbers) {x} : requiredNumber (ofRaw (.obj ms)) name = .ok x ↔
      doubleOf? (member? name (.obj ms)) = some x ∧ x.isFinite :=
    requiredNumber_eq_ok_iff hd (claimName_of_mem name (by simp [h]))
  simp (disch := decide) only [assertClaimShape, bind_eq_ok_iff, string, number, parseForceOnlineAfter_eq_ok_iff hd,
    parseEntitlements_eq_ok_iff hd, parseAud_eq_ok_iff hd, parseIss_eq_ok_iff hd]
  constructor
  case mp =>
    rintro ⟨_, h₁, _, ⟨h₂, f₂⟩, _, ⟨h₃, f₃⟩, _, ⟨h₄, f₄⟩, _, h₅, _, h₆, _, h₇, _, h₈, _, h₉, _, ⟨h₁₀, f₁₀⟩,
      _, ⟨o₁₁, h₁₁⟩, _, ⟨o₁₂, h₁₂⟩, _, ⟨o₁₃, h₁₃⟩, _, ⟨o₁₄, h₁₄⟩, hc⟩
    cases hc
    refine ⟨⟨⟨?_, ?_, o₁₃, o₁₄⟩, o₁₁, o₁₂⟩, h₁, h₂, h₃, h₄, h₅, h₆, h₇, h₈, h₉, h₁₀, h₁₁, h₁₂, h₁₃, h₁₄⟩
    case refine_1 =>
      simp only [requiredStrings, List.forall_mem_cons, ← exists_unitsOf?_iff]
      exact ⟨⟨_, h₁⟩, ⟨_, h₅⟩, ⟨_, h₆⟩, ⟨_, h₇⟩, ⟨_, h₈⟩, ⟨_, h₉⟩, by simp⟩
    case refine_2 =>
      simp only [requiredNumbers, List.forall_mem_cons, ← exists_doubleOf?_iff]
      exact ⟨⟨_, h₂, f₂⟩, ⟨_, h₃, f₃⟩, ⟨_, h₄, f₄⟩, ⟨_, h₁₀, f₁₀⟩, by simp⟩
  case mpr =>
    rintro ⟨takes, h⟩
    have finite {name x} (hn : name ∈ requiredNumbers) (hx : doubleOf? (member? name (.obj ms)) = some x) :
        x.isFinite := by
      obtain ⟨x', hx', hf⟩ := exists_doubleOf?_iff.mpr (takes.required.numbers name hn)
      cases hx.symm.trans hx'
      exact hf
    exact ⟨_, h.jti, _, ⟨h.iat, finite (by decide) h.iat⟩, _, ⟨h.nbf, finite (by decide) h.nbf⟩, _,
      ⟨h.exp, finite (by decide) h.exp⟩, _, h.scope, _, h.licenseID, _, h.usageID, _, h.usageFingerprint, _,
      h.status, _, ⟨h.maxUsages, finite (by decide) h.maxUsages⟩, _,
      ⟨takes.optional.forceOnlineAfter, h.forceOnlineAfter⟩, _, ⟨takes.optional.entitlements, h.entitlements⟩, _,
      ⟨takes.required.aud, h.aud⟩, _, ⟨takes.required.iss, h.iss⟩, rfl⟩

theorem takes_iff : Takes ms ↔ ∃ c, assertClaimShape (ofRaw (.obj ms)) = .ok c := by
  simp only [assertClaimShape_eq_ok_iff hd]
  refine ⟨fun h => ?_, fun ⟨_, h, _⟩ => h⟩
  have string {name} (hn : name ∈ requiredStrings) : ∃ u, unitsOf? (member? name (.obj ms)) = some u :=
    exists_unitsOf?_iff.mpr (h.required.strings name hn)
  have number {name} (hn : name ∈ requiredNumbers) : ∃ x, doubleOf? (member? name (.obj ms)) = some x :=
    (exists_doubleOf?_iff.mpr (h.required.numbers name hn)).imp fun _ => And.left
  obtain ⟨_, jti⟩              := @string "jti" (by decide)
  obtain ⟨_, iat⟩              := @number "iat" (by decide)
  obtain ⟨_, nbf⟩              := @number "nbf" (by decide)
  obtain ⟨_, exp⟩              := @number "exp" (by decide)
  obtain ⟨_, scope⟩            := @string "scope" (by decide)
  obtain ⟨_, licenseID⟩        := @string "license_id" (by decide)
  obtain ⟨_, usageID⟩          := @string "usage_id" (by decide)
  obtain ⟨_, usageFingerprint⟩ := @string "usage_fingerprint" (by decide)
  obtain ⟨_, status⟩           := @string "status" (by decide)
  obtain ⟨_, maxUsages⟩        := @number "max_usages" (by decide)
  exact ⟨⟨_, _, _, _, _, _, _, _, _, _, _, _, _, _⟩, h, jti, iat, nbf, exp, scope, licenseID, usageID,
    usageFingerprint, status, maxUsages, rfl, rfl, rfl, rfl⟩

end Ts

end Licensing
