import Licensing.Library.StringOrder
import Licensing.Model.Cursor
import Licensing.Model.Uuid

-- The fingerprint of a device: a hash of the sources in their order, one a line.

namespace Licensing.Fingerprint

section Sources

-- Sorting by the units by which a language compares strings; equal strings are alike, so that the sort
-- need not be stable.
def sorted (units : String → List Nat) (sources : List String) : List String :=
  sortBy (fun s t => lexicographic (units s) (units t)) sources

def joined (units : String → List Nat) (sources : List String) : String :=
  "\n".intercalate (sorted units sources)

-- The bytes that are hashed.
def message (units : String → List Nat) (sources : List String) : List UInt8 :=
  Bytes.ofString (joined units sources)

def hexText (bs : List UInt8) : String :=
  .ofList (bs.flatMap Uuid.hex)

end Sources

end Licensing.Fingerprint

namespace Licensing

open Fingerprint

variable (sha256 : List UInt8 → List UInt8)

namespace Go

def fault (s : String) : Option String :=
  if s = "" then some "fingerprint source must not be empty"
  else if '\n' ∈ s.toList then some "fingerprint source must not contain newlines"
  else none

def fingerprintFromSources (sources : List String) : Except String String :=
  if sources = [] then .error "fingerprint requires at least one source"
  else match sources.findSome? fault with
    | some e => .error e
    | none   => .ok (hexText (sha256 (message bytes sources)))

end Go

namespace Ts

def fault (s : String) : Option String :=
  if s = "" then some "fingerprint source strings must be non-empty"
  else if '\n' ∈ s.toList then some "fingerprint source strings must not contain newlines"
  else none

def fingerprintFromSources (sources : List String) : Except String String :=
  if sources = [] then .error "fingerprint requires at least one source string"
  else match sources.findSome? fault with
    | some e => .error e
    | none   => .ok (hexText (sha256 (message codeUnits sources)))

end Ts

namespace Fingerprint

open StringOrder (Crosses orders_ne_iff)

-- What both ports accept.
structure Accepted (sources : List String) : Prop where
  ne_nil : sources ≠ []
  whole  : ∀ s ∈ sources, s ≠ "" ∧ '\n' ∉ s.toList

section Accepted

variable {sources : List String}

theorem go_fault (s : String) : Go.fault s = none ↔ s ≠ "" ∧ '\n' ∉ s.toList := by
  simp only [Go.fault]
  split_ifs <;> simp_all

theorem ts_fault (s : String) : Ts.fault s = none ↔ s ≠ "" ∧ '\n' ∉ s.toList := by
  simp only [Ts.fault]
  split_ifs <;> simp_all

theorem Accepted.go (h : Accepted sources) :
    Go.fingerprintFromSources sha256 sources = .ok (hexText (sha256 (message Go.bytes sources))) := by
  have hf : sources.findSome? Go.fault = none :=
    List.findSome?_eq_none_iff.mpr fun s hs => (go_fault s).mpr (h.whole s hs)
  rw [Go.fingerprintFromSources, if_neg h.ne_nil, hf]

theorem Accepted.ts (h : Accepted sources) :
    Ts.fingerprintFromSources sha256 sources = .ok (hexText (sha256 (message Ts.codeUnits sources))) := by
  have hf : sources.findSome? Ts.fault = none :=
    List.findSome?_eq_none_iff.mpr fun s hs => (ts_fault s).mpr (h.whole s hs)
  rw [Ts.fingerprintFromSources, if_neg h.ne_nil, hf]

theorem Accepted.perm {sources' : List String} (h : Accepted sources) (hp : sources'.Perm sources) :
    Accepted sources' where
  ne_nil hn := h.ne_nil (by rw [hn] at hp; exact hp.nil_eq.symm)
  whole s hs := h.whole s (hp.mem_iff.mp hs)

end Accepted

section Message

variable {units : String → List Nat} {sources sources' : List String}

theorem message_perm (hu : Function.Injective units) (h : sources'.Perm sources) :
    message units sources' = message units sources := by
  rw [message, message, joined, joined, sorted, sorted,
    sortBy_eq_of_perm_of_inj h fun _ _ _ _ hk => hu hk]

-- Cutting the text at the line breaks gives back the sources.
theorem lines_joined (h : Accepted sources) :
    (joined units sources).toList.splitOn '\n' = (sorted units sources).map String.toList := by
  have hp : (sorted units sources).Perm sources := sortBy_perm _ _
  rw [joined, String.toList_intercalate]
  refine List.splitOn_intercalate '\n' ?_ ?_
  case refine_1 =>
    intro l hl
    have ⟨s, hs, hl⟩ := List.mem_map.mp hl
    exact hl ▸ (h.whole s (hp.mem_iff.mp hs)).2
  case refine_2 =>
    intro hn
    have := hp.length_eq
    rw [List.map_eq_nil_iff.mp hn] at this
    exact h.ne_nil (List.length_eq_zero_iff.mp this.symm)

theorem sorted_of_message {units' : String → List Nat} (h : Accepted sources) (h' : Accepted sources')
    (hm : message units sources' = message units' sources) : sorted units sources' = sorted units' sources := by
  have hj := congrArg (·.toList.splitOn '\n') (Bytes.ofString_injective hm)
  rw [lines_joined h, lines_joined h'] at hj
  exact List.map_injective_iff.mpr (fun _ _ h => String.toList_injective h) hj

theorem perm_of_message (h : Accepted sources) (h' : Accepted sources')
    (hm : message units sources' = message units sources) : sources'.Perm sources := by
  have hs := sorted_of_message h h' hm
  exact (sortBy_perm _ _).symm.trans ((List.Perm.of_eq hs).trans (sortBy_perm _ _))

end Message

-- The hash depends on the sources and on nothing else: not on their order, nor on the port.
structure Portable (sources : List String) : Prop where
  go_order  : ∀ sources', sources'.Perm sources →
    Go.fingerprintFromSources sha256 sources' = Go.fingerprintFromSources sha256 sources
  ts_order  : ∀ sources', sources'.Perm sources →
    Ts.fingerprintFromSources sha256 sources' = Ts.fingerprintFromSources sha256 sources
  go_inj    : ∀ sources', Accepted sources' → message Go.bytes sources' = message Go.bytes sources →
    sources'.Perm sources
  ts_inj    : ∀ sources', Accepted sources' → message Ts.codeUnits sources' = message Ts.codeUnits sources →
    sources'.Perm sources
  same      : message Go.bytes sources = message Ts.codeUnits sources

theorem bytes_eq (s : String) : Go.bytes s = s.toList.flatMap StringOrder.bytes := by
  rw [Go.bytes, Bytes.ofString_eq, List.map_flatMap]
  rfl

theorem codeUnits_eq (s : String) : Ts.codeUnits s = s.toList.flatMap StringOrder.units := by
  rw [Ts.codeUnits, JsonText.utf16, List.map_flatMap]
  rfl

theorem message_eq_iff {sources : List String} (h : Accepted sources) :
    message Go.bytes sources = message Ts.codeUnits sources ↔
      ¬∃ s ∈ sources, ∃ t ∈ sources, Crosses s.toList t.toList := by
  have ho (s t : String) : lexicographic (Go.bytes s) (Go.bytes t) =
      lexicographic (Ts.codeUnits s) (Ts.codeUnits t) ↔ ¬(Crosses s.toList t.toList ∨ Crosses t.toList s.toList) := by
    rw [← orders_ne_iff, not_not, bytes_eq, bytes_eq, codeUnits_eq, codeUnits_eq]
  have hs := sortBy_eq_sortBy_iff Go.bytes_injective Ts.codeUnits_injective sources
  constructor
  case mp =>
    intro hm ⟨s, hs', t, ht, hc⟩
    exact (ho s t).mp (hs.mp (sorted_of_message h h hm) s hs' t ht) (.inl hc)
  case mpr =>
    intro hn
    have := hs.mpr fun s hs' t ht => (ho s t).mpr fun hc => hn <|
      hc.elim (fun hc => ⟨s, hs', t, ht, hc⟩) fun hc => ⟨t, ht, s, hs', hc⟩
    rw [message, message, joined, joined, sorted, sorted, this]

theorem portable_iff {sources : List String} (h : Accepted sources) : Portable sha256 sources ↔
    ¬∃ s ∈ sources, ∃ t ∈ sources, Crosses s.toList t.toList := by
  rw [← message_eq_iff h]
  constructor
  case mp => exact Portable.same
  case mpr =>
    intro same
    refine ⟨?_, ?_, ?_, ?_, same⟩
    · intro sources' hp
      rw [h.go, (h.perm hp).go, message_perm Go.bytes_injective hp]
    · intro sources' hp
      rw [h.ts, (h.perm hp).ts, message_perm Ts.codeUnits_injective hp]
    · exact fun sources' h' hm => perm_of_message h h' hm
    · exact fun sources' h' hm => perm_of_message h h' hm

-- A hash that is right about one message.
def sampleHash (bs : List UInt8) : List UInt8 :=
  if bs = Bytes.ofString "os:linux:x64\nsalt:app" then [
    0x6b, 0x03, 0x0b, 0xa8, 0x07, 0x47, 0x1c, 0xfb, 0x98, 0xf4, 0xd3, 0x95, 0xb9, 0x2e, 0x62, 0xd2,
    0x4e, 0xf1, 0xbc, 0x19, 0x5a, 0x8f, 0xf3, 0x88, 0xe5, 0xc7, 0x49, 0xd0, 0xcf, 0x12, 0x5f, 0x37]
  else []

theorem portable_iff_sample : Portable sampleHash ["salt:app", "os:linux:x64"] ↔
    ¬∃ s ∈ ["salt:app", "os:linux:x64"], ∃ t ∈ ["salt:app", "os:linux:x64"], Crosses s.toList t.toList :=
  portable_iff sampleHash ⟨by decide, by decide⟩

theorem not_portable : ¬Portable sampleHash ["salt:😀", "salt:ｱ"] := by
  intro h
  have ha : Accepted ["salt:😀", "salt:ｱ"] := ⟨by decide, by decide⟩
  refine (message_eq_iff ha).mp h.same ⟨"salt:😀", by simp, "salt:ｱ", by simp, ?_⟩
  exact ⟨"salt:".toList, '😀', 'ｱ', [], [], by decide, by decide, by decide⟩

end Fingerprint

end Licensing
