import Mathlib.Logic.Basic

-- Routes whose patterns are lists of segments, each of them a text or a parameter. The text of a parameter is decoded,
-- which may fail.

namespace Routes

variable {τ μ α : Type} [DecidableEq τ]

inductive Segment (τ : Type)
  | static (value : τ)
  | param (name : τ)
  deriving DecidableEq

abbrev Params (τ : Type) := List (τ × τ)

variable (decode : τ → Option τ)

-- An error is a parameter that cannot be decoded: the segments before it match.
def matchParts : List (Segment τ) → List τ → Except Unit (Option (Params τ))
  | [],                        []         => .ok (some [])
  | .static value :: segments, p :: parts => if value = p then matchParts segments parts else .ok none
  | .param name :: segments,   p :: parts =>
    match decode p with
    | none   => .error ()
    | some v => (matchParts segments parts).map (·.map ((name, v) :: ·))
  | _, _ => .ok none

def matchSegments (segments : List (Segment τ)) (parts : List τ) : Except Unit (Option (Params τ)) :=
  if segments.length ≠ parts.length then .ok none else matchParts decode segments parts

-- No list of parts matches both.
def apart : List (Segment τ) → List (Segment τ) → Bool
  | .static a :: as, .static b :: bs => a ≠ b || apart as bs
  | _ :: as,         _ :: bs         => apart as bs
  | [],              []              => false
  | _,               _               => true

-- What the first cannot decode the second does not match.
def decodesFor : List (Segment τ) → List (Segment τ) → Bool
  | .static a :: as, .static b :: bs => a ≠ b || decodesFor as bs
  | .param _ :: as,  .param _ :: bs  => decodesFor as bs
  | .static _ :: as, .param _ :: bs  => decodesFor as bs
  | .param _ :: _,   .static _ :: _  => false
  | _,               _               => true

variable {decode} {a b ps : List (Segment τ)} {parts parts' : List τ} {params params' : Params τ}

-- The form of a match, in which the parts of the parameters are decoded.
inductive Matched (decode : τ → Option τ) : List (Segment τ) → List τ → Params τ → Prop
  | nil : Matched decode [] [] []
  | static {value segments parts params} (rest : Matched decode segments parts params) :
    Matched decode (.static value :: segments) (value :: parts) params
  | param {name p v segments parts params} (decoded : decode p = some v) (rest : Matched decode segments parts params) :
    Matched decode (.param name :: segments) (p :: parts) ((name, v) :: params)

omit [DecidableEq τ] in
theorem Matched.length_eq (h : Matched decode a parts params) : a.length = parts.length := by
  induction h
  case nil       => rfl
  case static ih => exact congrArg Nat.succ ih
  case param ih  => exact congrArg Nat.succ ih

theorem Matched.matchParts_eq (h : Matched decode a parts params) : matchParts decode a parts = .ok (some params) := by
  induction h
  case nil              => rfl
  case static rest ih   => simp [matchParts, ih]
  case param hd rest ih => simp [matchParts, hd, ih, Except.map]

theorem matched_of_matchParts : (a : List (Segment τ)) → {parts : List τ} → {params : Params τ} →
    matchParts decode a parts = .ok (some params) → Matched decode a parts params
  | [],                  [],         _, h => by
    cases h
    exact .nil
  | .static value :: as, p :: parts, _, h => by
    by_cases same : value = p
    case pos =>
      rw [matchParts, if_pos same] at h
      exact same ▸ .static (matched_of_matchParts as h)
    case neg =>
      rw [matchParts, if_neg same] at h
      cases h
  | .param name :: as,   p :: parts, _, h => by
    rw [matchParts] at h
    cases hd : decode p
    case none => rw [hd] at h; cases h
    case some v =>
      rw [hd] at h
      cases hm : matchParts decode as parts
      case error e => rw [hm] at h; cases h
      case ok m    =>
        rw [hm] at h
        cases m
        case none        => cases h
        case some params =>
          cases h
          exact .param hd (matched_of_matchParts as hm)

theorem matchSegments_iff : matchSegments decode a parts = .ok (some params) ↔ Matched decode a parts params := by
  rw [matchSegments]
  constructor
  case mp =>
    intro h
    split at h
    case isTrue  => cases h
    case isFalse => exact matched_of_matchParts a h
  case mpr =>
    intro h
    rw [if_neg (not_not_intro h.length_eq)]
    exact h.matchParts_eq

theorem Matched.not_apart (h : Matched decode a parts params) (h' : Matched decode b parts params') :
    apart a b = false := by
  induction h generalizing b params'
  case nil => cases h'; rfl
  case static rest ih =>
    cases h'
    case static rest' => simpa [apart] using ih rest'
    case param rest'  => exact ih rest'
  case param rest ih =>
    cases h'
    case static rest' => exact ih rest'
    case param rest'  => exact ih rest'

theorem Matched.decodes (h : Matched decode b parts params) (hd : decodesFor a b) :
    matchSegments decode a parts ≠ .error () := by
  rw [matchSegments]
  split
  case isTrue => simp
  case isFalse same =>
    clear same
    induction h generalizing a
    case nil => cases a <;> simp [matchParts]
    case static rest ih =>
      cases a
      case nil => simp [matchParts]
      case cons s as =>
        cases s
        case static value =>
          rw [matchParts]
          split
          case isTrue same => exact ih (by simpa [decodesFor, same] using hd)
          case isFalse     => simp
        case param => simp [decodesFor] at hd
    case param decoded rest ih =>
      cases a
      case nil => simp [matchParts]
      case cons s as =>
        cases s
        case static value =>
          rw [matchParts]
          split
          case isTrue  => exact ih hd
          case isFalse => simp
        case param =>
          rw [matchParts, decoded]
          have h := ih hd
          cases hm : matchParts decode as _
          case error e => exact absurd hm h
          case ok m    => simp [Except.map]

theorem apart_append : apart (ps ++ a) (ps ++ b) = apart a b := by
  induction ps
  case nil       => rfl
  case cons s ps ih => cases s <;> simp [apart, ih]

theorem decodesFor_append : decodesFor (ps ++ a) (ps ++ b) = decodesFor a b := by
  induction ps
  case nil       => rfl
  case cons s ps ih => cases s <;> simp [decodesFor, ih]

structure Route (τ μ α : Type) where
  method   : μ
  segments : List (Segment τ)
  handler  : α

inductive Search (τ α : Type)
  | found (handler : α) (params : Params τ)
  | methodMismatch
  | missing
  | failed

variable [DecidableEq μ] (decode)

-- The first route of the method that matches. `mismatch` tells that a route of another method does.
def find (method : μ) (parts : List τ) : List (Route τ μ α) → Bool → Search τ α
  | [],          mismatch => if mismatch then .methodMismatch else .missing
  | r :: routes, mismatch =>
    match matchSegments decode r.segments parts with
    | .error ()       => .failed
    | .ok none        => find method parts routes mismatch
    | .ok (some params) =>
      if r.method ≠ method then find method parts routes true else .found r.handler params

-- Routes that do not stand in each other's way.
structure Orderly (routes : List (Route τ μ α)) : Prop where
  apart   : routes.Pairwise fun r r' => r.method = r'.method → apart r.segments r'.segments
  decodes : routes.Pairwise fun r r' => decodesFor r.segments r'.segments

variable {decode} {method : μ} {routes : List (Route τ μ α)} {h : α} {mismatch : Bool}

theorem exists_of_find (hf : find decode method parts routes mismatch = .found h params) :
    ∃ r ∈ routes, r.method = method ∧ r.handler = h ∧ Matched decode r.segments parts params := by
  induction routes generalizing mismatch
  case nil =>
    rw [find] at hf
    split at hf <;> cases hf
  case cons r routes ih =>
    have later {mismatch : Bool} (hf : find decode method parts routes mismatch = .found h params) :
        ∃ r' ∈ r :: routes, r'.method = method ∧ r'.handler = h ∧ Matched decode r'.segments parts params := by
      obtain ⟨r', hr, rest⟩ := ih hf
      exact ⟨r', List.mem_cons_of_mem _ hr, rest⟩
    rw [find] at hf
    split at hf
    case h_1 => cases hf
    case h_2 => exact later hf
    case h_3 params' hm =>
      split at hf
      case isTrue => exact later hf
      case isFalse same =>
        cases hf
        exact ⟨r, List.mem_cons_self, not_not.mp same, rfl, matchSegments_iff.mp hm⟩

-- With such routes every match is the first one.
theorem find_of_matched (orderly : Orderly routes) {r : Route τ μ α} (hr : r ∈ routes) (same : r.method = method)
    (hm : Matched decode r.segments parts params) :
    find decode method parts routes mismatch = .found r.handler params := by
  induction routes generalizing mismatch
  case nil => cases hr
  case cons r' routes ih =>
    obtain ⟨first, rest⟩ := List.pairwise_cons.mp orderly.apart
    obtain ⟨first', rest'⟩ := List.pairwise_cons.mp orderly.decodes
    rw [find]
    cases List.mem_cons.mp hr
    case inl e =>
      rw [← e, matchSegments_iff.mpr hm]
      simp [same]
    case inr hr =>
      have later {mismatch : Bool} : find decode method parts routes mismatch = .found r.handler params :=
        ih ⟨rest, rest'⟩ hr
      cases hs : matchSegments decode r'.segments parts
      case error e => exact absurd hs (hm.decodes (first' r hr))
      case ok m =>
        cases m
        case none        => exact later
        case some params' =>
          have other : r'.method ≠ method := by
            intro e
            have both := (matchSegments_iff.mp hs).not_apart hm
            rw [first r hr (e.trans same.symm)] at both
            cases both
          simp only [ne_eq, other, not_false_eq_true, if_true]
          exact later

theorem find_eq_found_iff (orderly : Orderly routes) :
    find decode method parts routes mismatch = .found h params ↔
      ∃ r ∈ routes, r.method = method ∧ r.handler = h ∧ Matched decode r.segments parts params := by
  constructor
  case mp  => exact exists_of_find
  case mpr =>
    rintro ⟨r, hr, same, hh, hm⟩
    exact hh ▸ find_of_matched orderly hr same hm

theorem find_eq_missing (none : ∀ r ∈ routes, matchSegments decode r.segments parts = .ok none) :
    find decode method parts routes false = .missing := by
  induction routes
  case nil => rfl
  case cons r routes ih =>
    rw [find, none r List.mem_cons_self]
    exact ih fun r hr => none r (List.mem_cons_of_mem _ hr)

theorem matchParts_static :
    matchParts decode (parts'.map .static ++ a) (parts' ++ parts) = matchParts decode a parts := by
  induction parts'
  case nil            => rfl
  case cons p rest ih => simpa [matchParts] using ih

-- A prefix that the routes and the parts have in common.
theorem find_prefixed :
    find decode method (parts' ++ parts) (routes.map fun r => { r with segments := parts'.map .static ++ r.segments })
      mismatch = find decode method parts routes mismatch := by
  induction routes generalizing mismatch
  case nil => rfl
  case cons r routes ih =>
    have same : matchSegments decode (parts'.map .static ++ r.segments) (parts' ++ parts) =
        matchSegments decode r.segments parts := by
      rw [matchSegments, matchSegments, matchParts_static]
      simp
    simp only [List.map_cons, find, same, ih]

-- What is left of a route after a part.
def Route.after (p : τ) (r : Route τ μ α) : Option (Route τ μ α) :=
  match r.segments with
  | .static value :: segments => if value = p then some { r with segments := segments } else none
  | _                         => none

def Route.IsStatic (r : Route τ μ α) : Prop :=
  ∃ value segments, r.segments = .static value :: segments

theorem find_after {p : τ} (static : ∀ r ∈ routes, r.IsStatic) :
    find decode method (p :: parts) routes mismatch =
      find decode method parts (routes.filterMap (·.after p)) mismatch := by
  induction routes generalizing mismatch
  case nil => rfl
  case cons r routes ih =>
    have ih {mismatch : Bool} : find decode method (p :: parts) routes mismatch =
        find decode method parts (routes.filterMap (·.after p)) mismatch :=
      ih fun r hr => static r (List.mem_cons_of_mem _ hr)
    obtain ⟨value, segments, hs⟩ := static r List.mem_cons_self
    by_cases same : value = p
    case pos =>
      have after : r.after p = some { r with segments := segments } := by simp [Route.after, hs, same]
      have rest : matchSegments decode r.segments (p :: parts) = matchSegments decode segments parts := by
        simp [matchSegments, hs, matchParts, same]
      rw [List.filterMap_cons_some after]
      simp only [find, rest, ih]
    case neg =>
      have after : r.after p = none := by simp [Route.after, hs, same]
      have none : matchSegments decode r.segments (p :: parts) = .ok none := by
        simp [matchSegments, hs, matchParts, same]
      rw [List.filterMap_cons_none after, find, none]
      exact ih

end Routes
