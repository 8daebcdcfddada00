import Licensing.Library.Binary64Order
import Licensing.Library.Ranking
import Licensing.Library.StringOrder
import Licensing.Model.Stats
import Licensing.Model.Timestamps
import Mathlib.Algebra.Order.BigOperators.Group.List
import Mathlib.Data.Prod.Lex
import Mathlib.Data.String.Basic
import Mathlib.Order.Interval.Set.Basic

-- The rollup of the other port, and what both of them promise: it does not depend on the order of the
-- rows, and the ports agree.

namespace Licensing

namespace Ts

open StringOrder
open Go (seatRatio thirtyDaysMs)

-- The instants of a `Date`. `toISOString` throws a RangeError for any other.
def isDate (ms : Int) : Bool :=
  ms.natAbs ≤ 8640000000000000

-- `s < t` of strings compares their code units.
def before (s t : String) : Bool :=
  lexicographic (s.toList.flatMap units) (t.toList.flatMap units) = .lt

structure LicenseSeatUtilization where
  activeUsagesTotal : Nat
  maxUsagesTotal    : Binary64
  topN              : List LicenseSeatTopEntry

structure LicenseStats where
  counts            : LicenseStatusCounts
  expiringWithin30d : Nat
  activeDelta30d    : LicenseDelta30d
  seatUtilization   : LicenseSeatUtilization
  topTemplates      : List LicenseTemplateCount

-- The comparators say by a number above zero that `a` comes after `b`.
def seatAfter (a b : LicenseSeatTopEntry) : Bool :=
  if seatRatio a ≠ seatRatio b then (Binary64.finite false 0).lt ((seatRatio b).sub (seatRatio a))
  else if a.activeUsages ≠ b.activeUsages then 0 < (b.activeUsages - a.activeUsages : Int)
  else !before a.licenseId b.licenseId

def templateAfter (a b : LicenseTemplateCount) : Bool :=
  if a.licenseCount ≠ b.licenseCount then 0 < (b.licenseCount - a.licenseCount : Int)
  else !before a.templateId b.templateId

def expiring (nowMs : Int) (l : License) : Bool :=
  l.status = .active && l.expiresAt.any fun expiresAt =>
    ¬before expiresAt (isoFromMs nowMs) ∧ ¬before (isoFromMs (nowMs + thirtyDaysMs)) expiresAt

-- `Map.set` of one more: an id that is new goes to the end.
def tally (counts : List LicenseTemplateCount) (id : String) : List LicenseTemplateCount :=
  if counts.any (·.templateId = id) then
    counts.map fun c => if c.templateId = id then { c with licenseCount := c.licenseCount + 1 } else c
  else counts ++ [{ templateId := id, licenseCount := 1 }]

def rollUp (input : ComputeLicenseStatsInput) : LicenseStats :=
  let count (status : LicenseStatus) := input.licenses.countP (·.status = status)
  let entries := (input.licenses.filter (·.status = .active)).map fun l =>
    { licenseId    := l.id
      licenseKey   := l.licenseKey
      maxUsages    := l.maxUsages
      activeUsages := input.activeUsageLicenseIds.count l.id : LicenseSeatTopEntry }
  let templates := (input.licenses.filterMap License.templateId).foldl tally []
  { counts := {
      pending   := count .pending
      active    := count .active
      grace     := count .grace
      expired   := count .expired
      suspended := count .suspended
      revoked   := count .revoked }
    expiringWithin30d := input.licenses.countP (expiring input.nowMs)
    activeDelta30d := {
      added   := input.auditEvents.countP (["license.created", "license.activated"].contains ·)
      removed := input.auditEvents.countP
        (["license.revoked", "license.expired", "license.suspended"].contains ·) }
    seatUtilization := {
      activeUsagesTotal := (entries.map LicenseSeatTopEntry.activeUsages).sum
      maxUsagesTotal    := entries.foldl (fun (total : Binary64) e => total.add (.ofInt e.maxUsages)) (.ofInt 0)
      topN              := (entries.mergeSort fun a b => !seatAfter a b).take 10 }
    topTemplates := (templates.mergeSort fun a b => !templateAfter a b).take 10 }

-- `none` is a RangeError.
def computeLicenseStats (input : ComputeLicenseStatsInput) : Option LicenseStats :=
  if isDate (input.nowMs + thirtyDaysMs) ∧ isDate input.nowMs then some (rollUp input) else none

end Ts

namespace ComputeLicenseStatsInput

open StringOrder

-- The same rows in another order.
structure Reordered (input input' : ComputeLicenseStatsInput) : Prop where
  licenses : input'.licenses.Perm input.licenses
  usages   : input'.activeUsageLicenseIds.Perm input.activeUsageLicenseIds
  events   : input'.auditEvents.Perm input.auditEvents
  now      : input'.nowMs = input.nowMs

def activeLicenses (input : ComputeLicenseStatsInput) : List License :=
  input.licenses.filter (·.status = .active)

def entries (input : ComputeLicenseStatsInput) : List LicenseSeatTopEntry :=
  input.activeLicenses.map fun l =>
    { licenseId    := l.id
      licenseKey   := l.licenseKey
      maxUsages    := l.maxUsages
      activeUsages := input.activeUsageLicenseIds.count l.id : LicenseSeatTopEntry }

def templateIds (input : ComputeLicenseStatsInput) : List String :=
  input.licenses.filterMap License.templateId

def templates (input : ComputeLicenseStatsInput) : List LicenseTemplateCount :=
  input.templateIds.dedup.map fun id => { templateId := id, licenseCount := input.templateIds.count id }

-- The rows of a store: a license has an id of its own, and ids are UUIDs, of which only this is used that
-- they are ASCII. The active licenses have at most `seats` seats.
structure Rows (nowMs : Int) (seats : Nat) (input : ComputeLicenseStatsInput) : Prop where
  now         : input.nowMs = nowMs
  ids         : (input.licenses.map License.id).Nodup
  licenseIds  : ∀ l ∈ input.licenses, Ascii l.id.toList
  templateIds : ∀ id ∈ input.templateIds, Ascii id.toList
  seats       : (input.activeLicenses.map (·.maxUsages.natAbs)).sum ≤ seats

end ComputeLicenseStatsInput

open ComputeLicenseStatsInput StringOrder Ranking

-- The places of the two lists: falling ratio, then falling number of active usages, then rising id, and
-- falling number of licenses, then rising id.
def LicenseSeatTopEntry.place (e : LicenseSeatTopEntry) : (WithTop Nat)ᵒᵈ ×ₗ Natᵒᵈ ×ₗ String :=
  toLex (.toDual (Go.seatRatio e).rank, toLex (.toDual e.activeUsages, e.licenseId))

def LicenseTemplateCount.place (c : LicenseTemplateCount) : Natᵒᵈ ×ₗ String :=
  toLex (.toDual c.licenseCount, c.templateId)

section Places

theorem LicenseTemplateCount.place_lt {a b : LicenseTemplateCount} :
    a.place < b.place ↔
      b.licenseCount < a.licenseCount ∨ a.licenseCount = b.licenseCount ∧ a.templateId < b.templateId := by
  rw [place, place, Prod.Lex.toLex_lt_toLex]
  rfl

theorem LicenseSeatTopEntry.place_lt {a b : LicenseSeatTopEntry} :
    a.place < b.place ↔ (Go.seatRatio b).rank < (Go.seatRatio a).rank ∨
      (Go.seatRatio a).rank = (Go.seatRatio b).rank ∧ (b.activeUsages < a.activeUsages ∨
        a.activeUsages = b.activeUsages ∧ a.licenseId < b.licenseId) := by
  rw [place, place, Prod.Lex.toLex_lt_toLex, Prod.Lex.toLex_lt_toLex]
  rfl

theorem ts_before {s t : String} (h : Ascii s.toList ∨ Ascii t.toList) : Ts.before s t = decide (s < t) := by
  rw [Ts.before, decide_eq_decide, units_lt_iff h]
  rfl

theorem go_templateBefore (a b : LicenseTemplateCount) : Go.templateBefore b a = decide (b.place < a.place) := by
  rw [Bool.eq_iff_iff, decide_eq_true_iff, LicenseTemplateCount.place_lt, Go.templateBefore]
  by_cases h : b.licenseCount = a.licenseCount
  case pos => simp only [h, ne_eq, not_true_eq_false, if_false, decide_eq_true_eq, lt_irrefl, false_or, true_and]
  case neg => simp only [h, ne_eq, not_false_eq_true, if_true, decide_eq_true_eq, false_and, or_false]

theorem ts_templateAfter {a b : LicenseTemplateCount} (ha : Ascii a.templateId.toList)
    (hne : a.templateId ≠ b.templateId) :
    Ts.templateAfter a b = decide (b.place < a.place) := by
  rw [← go_templateBefore, Ts.templateAfter, Go.templateBefore, ts_before (.inl ha)]
  by_cases h : a.licenseCount = b.licenseCount
  case pos =>
    have hlt : ¬a.templateId < b.templateId ↔ b.templateId < a.templateId :=
      ⟨fun h => lt_of_le_of_ne (not_lt.mp h) hne.symm, fun h => not_lt.mpr h.le⟩
    simp only [h, ne_eq, not_true_eq_false, if_false, ← decide_not, hlt]
  case neg =>
    have hsub : (0 : Int) < b.licenseCount - a.licenseCount ↔ a.licenseCount < b.licenseCount := by omega
    simp only [h, Ne.symm h, ne_eq, not_false_eq_true, if_true, hsub]

theorem go_seatBefore {a b : LicenseSeatTopEntry} (ha : (Go.seatRatio a).Nonneg) (hb : (Go.seatRatio b).Nonneg) :
    Go.seatBefore b a = decide (b.place < a.place) := by
  rw [Bool.eq_iff_iff, decide_eq_true_iff, LicenseSeatTopEntry.place_lt, Go.seatBefore, ha.lt_eq hb]
  by_cases hr : Go.seatRatio b = Go.seatRatio a
  case neg =>
    have hrank : (Go.seatRatio b).rank ≠ (Go.seatRatio a).rank := fun h => hr (hb.rank_inj ha h)
    simp only [hr, hrank, ne_eq, not_false_eq_true, if_true, decide_eq_true_eq, false_and, or_false]
  case pos =>
    by_cases h : b.activeUsages = a.activeUsages
    case pos =>
      simp only [hr, h, ne_eq, not_true_eq_false, if_false, decide_eq_true_eq, lt_irrefl, false_or, true_and]
    case neg =>
      simp only [hr, h, ne_eq, not_true_eq_false, not_false_eq_true, if_false, if_true, decide_eq_true_eq,
        lt_irrefl, false_or, true_and, false_and, or_false]

theorem ts_seatAfter {a b : LicenseSeatTopEntry} (ha : (Go.seatRatio a).Nonneg) (hb : (Go.seatRatio b).Nonneg)
    (hid : Ascii a.licenseId.toList) (hne : a.licenseId ≠ b.licenseId) :
    Ts.seatAfter a b = decide (b.place < a.place) := by
  rw [← go_seatBefore ha hb, Ts.seatAfter, Go.seatBefore, ts_before (.inl hid), ha.zero_lt_sub hb]
  by_cases hr : Go.seatRatio a = Go.seatRatio b
  case neg => simp only [hr, Ne.symm hr, ne_eq, not_false_eq_true, if_true]
  case pos =>
    by_cases h : a.activeUsages = b.activeUsages
    case pos =>
      have hlt : ¬a.licenseId < b.licenseId ↔ b.licenseId < a.licenseId :=
        ⟨fun h => lt_of_le_of_ne (not_lt.mp h) hne.symm, fun h => not_lt.mpr h.le⟩
      simp only [hr, h, ne_eq, not_true_eq_false, if_false, ← decide_not, hlt]
    case neg =>
      have hsub : (0 : Int) < b.activeUsages - a.activeUsages ↔ a.activeUsages < b.activeUsages := by omega
      simp only [hr, h, Ne.symm h, ne_eq, not_true_eq_false, not_false_eq_true, if_false, if_true, hsub]

end Places

section Texts

open Rfc3339 Decimal

theorem isDigit_of_mem_digits {w n : Nat} {c : Char} (h : c ∈ digits w n) : c.isDigit := by
  induction w
  case zero => cases h
  case succ w ih =>
    cases h
    case head => exact isDigit_digit _
    case tail h => exact ih h

@[simp]
theorem ascii_digits (w n : Nat) : Ascii (digits w n) :=
  ascii_of_isDigit fun _ => isDigit_of_mem_digits

@[simp]
theorem ascii_padded (w n : Nat) : Ascii (padded w n) := by
  rw [padded]
  split_ifs
  case pos => exact ascii_digits w n
  case neg => exact ascii_of_isDigit fun _ h => Nat.isDigit_of_mem_toDigits (by decide) (by decide) h

theorem ascii_isoFromMs (ms : Int) : Ascii (Ts.isoFromMs ms).toList := by
  have hy (y : Int) : Ascii (expandedYear y) := by
    rw [expandedYear]
    split_ifs <;> simp
  simp [Ts.isoFromMs, dateTime, timeOfDay, fraction, hy]

end Texts

section Window

variable {nowMs : Int}

-- The ports write the ends of the window of thirty days alike, or as those of an empty window.
def SameWindow (nowMs : Int) : Prop :=
  Go.isoFromMs nowMs = Ts.isoFromMs nowMs ∧
      Go.isoFromMs (nowMs + Go.thirtyDaysMs) = Ts.isoFromMs (nowMs + Go.thirtyDaysMs) ∨
    Go.isoFromMs (nowMs + Go.thirtyDaysMs) < Go.isoFromMs nowMs ∧
      Ts.isoFromMs (nowMs + Go.thirtyDaysMs) < Ts.isoFromMs nowMs

theorem go_expiring (l : License) : Go.expiring nowMs l ↔ l.status = .active ∧
    ∃ e ∈ l.expiresAt, Go.isoFromMs nowMs ≤ e ∧ e ≤ Go.isoFromMs (nowMs + Go.thirtyDaysMs) := by
  simp only [Go.expiring, Bool.and_eq_true, decide_eq_true_eq, Option.any_eq_true, not_lt]
  rfl

theorem ts_expiring (l : License) : Ts.expiring nowMs l ↔ l.status = .active ∧
    ∃ e ∈ l.expiresAt, Ts.isoFromMs nowMs ≤ e ∧ e ≤ Ts.isoFromMs (nowMs + Go.thirtyDaysMs) := by
  have hn (e : String) := ts_before (s := e) (.inr (ascii_isoFromMs nowMs))
  have hh (e : String) := ts_before (t := e) (.inl (ascii_isoFromMs (nowMs + Go.thirtyDaysMs)))
  simp only [Ts.expiring, Bool.and_eq_true, decide_eq_true_eq, Option.any_eq_true, hn, hh, not_lt]
  rfl

theorem expiring_eq (h : SameWindow nowMs) : Ts.expiring nowMs = Go.expiring nowMs := by
  funext l
  rw [Bool.eq_iff_iff, ts_expiring, go_expiring]
  rcases h with ⟨hn, hh⟩ | ⟨hg, ht⟩
  case inl => rw [hn, hh]
  case inr =>
    constructor
    case mp => exact fun ⟨_, e, _, h, h'⟩ => absurd (h.trans h') (not_le.mpr ht)
    case mpr => exact fun ⟨_, e, _, h, h'⟩ => absurd (h.trans h') (not_le.mpr hg)

-- An active license of a store.
def activeLicense (id : String) (maxUsages : Int) (expiresAt : Option String) : License where
  id             := id
  scopeId        := none
  templateId     := none
  licensableType := "user"
  licensableId   := "7"
  licenseKey     := "LIC-" ++ id
  status         := .active
  maxUsages      := maxUsages
  activatedAt    := none
  expiresAt      := expiresAt
  graceUntil     := none
  meta_          := []
  createdAt      := ""
  updatedAt      := ""
  isTrial        := false

end Window

section Years

open Rfc3339 Decimal

variable {nowMs : Int}

theorem year_lt_iff (y z : Int) : (Date.ofDays z).year < y ↔ z < (⟨y, 1, 1⟩ : Date).toDays := by
  have hv := Date.valid_ofDays z
  have first : (⟨y, 1, 1⟩ : Date).Valid := ⟨by simp, by simp, by simp, by simp [Date.daysIn]⟩
  have hm := hv.month_pos
  have hd := hv.day_pos
  rw [← Date.toDays_ofDays z, hv.toDays_lt_iff first, Date.toDays_ofDays]
  simp only [Date.Before]
  omega

theorem iso_eq (h : FourDigits (nowMs / 1000)) : Go.isoFromMs nowMs = Ts.isoFromMs nowMs := by
  have hs : nowMs * 1000 / 1000000 = nowMs / 1000 := by omega
  have hf : (nowMs * 1000 % 1000000).toNat = (nowMs % 1000).toNat * 1000 := by omega
  have hy : year (Date.ofDays (nowMs / 1000 / 86400)).year =
      expandedYear (Date.ofDays (nowMs / 1000 / 86400)).year := by
    rw [Go.year_of_fourDigits h, expandedYear, if_pos ((fourDigits_iff _).mp h)]
  rw [Go.isoFromMs, Go.isoFromTime, Ts.isoFromMs, hs, hf, dateTime, dateTime, hy]

theorem toList_lt {c d : Char} {s t : List Char} (h : c < d) : String.ofList (c :: s) < String.ofList (d :: t) := by
  rw [String.lt_iff_toList_lt, String.toList_ofList, String.toList_ofList, List.cons_lt_cons_iff]
  exact .inl h

-- The window that begins in the last thirty days of the year 9999 is empty in both ports.
theorem sameWindow_of_fourDigits (h : FourDigits (nowMs / 1000)) : SameWindow nowMs := by
  by_cases hh : FourDigits ((nowMs + Go.thirtyDaysMs) / 1000)
  case pos => exact .inl ⟨iso_eq h, iso_eq hh⟩
  case neg =>
    have days : (⟨9999, 1, 1⟩ : Date).toDays = 2932532 ∧ (⟨10000, 1, 1⟩ : Date).toDays = 2932897 ∧
        (⟨10001, 1, 1⟩ : Date).toDays = 2933263 := by decide
    have year_9999 := year_lt_iff 9999
    have year_10000 := year_lt_iff 10000
    have year_10001 := year_lt_iff 10001
    simp only [days] at year_9999 year_10000 year_10001
    have thirtyDays : Go.thirtyDaysMs = 2592000000 := rfl
    simp only [FourDigits, thirtyDays] at h hh
    have now : (Date.ofDays (nowMs / 1000 / 86400)).year = 9999 := by
      have := year_9999 (nowMs / 1000 / 86400)
      have := year_10000 (nowMs / 1000 / 86400)
      omega
    have later : (Date.ofDays ((nowMs + Go.thirtyDaysMs) / 1000 / 86400)).year = 10000 := by
      have := year_10000 ((nowMs + Go.thirtyDaysMs) / 1000 / 86400)
      have := year_10001 ((nowMs + Go.thirtyDaysMs) / 1000 / 86400)
      omega
    have hs : (nowMs + Go.thirtyDaysMs) * 1000 / 1000000 = (nowMs + Go.thirtyDaysMs) / 1000 := by omega
    have h9 : expandedYear 9999 = ['9', '9', '9', '9'] := by decide
    have h1 : year 10000 = ['1', '0', '0', '0', '0'] := by decide
    have h0 : expandedYear 10000 = ['+', '0', '1', '0', '0', '0', '0'] := by decide
    refine .inr ?_
    rw [iso_eq h]
    rw [Go.isoFromMs, Go.isoFromTime, Ts.isoFromMs, Ts.isoFromMs, hs, dateTime, dateTime, dateTime, now, later,
      h9, h1, h0]
    exact ⟨toList_lt (by decide), toList_lt (by decide)⟩

end Years

namespace ComputeLicenseStatsInput

variable {nowMs : Int} {seats : Nat} {input input' : ComputeLicenseStatsInput}

section Rows

theorem Reordered.activeLicenses (h : Reordered input input') : input'.activeLicenses.Perm input.activeLicenses :=
  h.licenses.filter _

theorem Reordered.entries (h : Reordered input input') : input'.entries.Perm input.entries := by
  have he (id : String) := h.usages.count_eq id
  simp only [ComputeLicenseStatsInput.entries, he]
  exact h.activeLicenses.map _

theorem Reordered.templateIds (h : Reordered input input') : input'.templateIds.Perm input.templateIds :=
  h.licenses.filterMap _

theorem Reordered.templates (h : Reordered input input') : input'.templates.Perm input.templates := by
  have hc (id : String) := h.templateIds.count_eq id
  simp only [ComputeLicenseStatsInput.templates, hc]
  exact h.templateIds.dedup.map _

theorem Rows.reordered (hr : Rows nowMs seats input) (h : Reordered input input') : Rows nowMs seats input' where
  now := h.now.trans hr.now
  ids := (h.licenses.map _).nodup_iff.mpr hr.ids
  licenseIds l hl := hr.licenseIds l (h.licenses.mem_iff.mp hl)
  templateIds id hid := hr.templateIds id (h.templateIds.mem_iff.mp hid)
  seats := (h.activeLicenses.map _).sum_nat ▸ hr.seats

theorem Rows.entryIds (h : Rows nowMs seats input) : (input.entries.map LicenseSeatTopEntry.licenseId).Nodup := by
  have hm : input.entries.map LicenseSeatTopEntry.licenseId = input.activeLicenses.map License.id := by
    rw [ComputeLicenseStatsInput.entries, List.map_map]
    rfl
  rw [hm]
  exact h.ids.sublist (List.filter_sublist.map _)

theorem Rows.ascii_entry (h : Rows nowMs seats input) {e : LicenseSeatTopEntry} (he : e ∈ input.entries) :
    Ascii e.licenseId.toList := by
  have ⟨l, hl, hle⟩ := List.mem_map.mp he
  subst hle
  exact h.licenseIds l (List.mem_of_mem_filter hl)

theorem Rows.maxUsages_le (h : Rows nowMs seats input) {e : LicenseSeatTopEntry} (he : e ∈ input.entries) :
    e.maxUsages.natAbs ≤ seats := by
  have ⟨l, hl, hle⟩ := List.mem_map.mp he
  subst hle
  exact (List.single_le_sum (fun _ _ => Nat.zero_le _) _ (List.mem_map_of_mem hl)).trans h.seats

theorem Rows.nonneg (h : Rows nowMs seats input) (hs : seats ≤ 2 ^ 53) {e : LicenseSeatTopEntry}
    (he : e ∈ input.entries) : (Go.seatRatio e).Nonneg := by
  have hm := (h.maxUsages_le he).trans hs
  rw [Go.seatRatio]
  split_ifs
  case pos hpos =>
    have hf : Binary64.ofInt e.maxUsages = .finite false (e.maxUsages.natAbs * Binary64.one) := by
      rw [Binary64.ofInt, Binary64.rounded_of_le _ hm, decide_eq_false (Int.not_lt.mpr hpos.le)]
    rw [hf]
    exact (Binary64.Nonneg.ofInt (Int.natCast_nonneg _)).div
      (Nat.mul_ne_zero (Int.natAbs_ne_zero.mpr hpos.ne') Binary64.one_pos.ne')
  case neg =>
    have hz : (0 : Int) ≤ 0 := le_rfl
    exact Binary64.Nonneg.ofInt hz

theorem Rows.place_inj (h : Rows nowMs seats input) :
    ∀ a ∈ input.entries, ∀ b ∈ input.entries, a.place = b.place → a = b := by
  intro a ha b hb hab
  refine List.inj_on_of_nodup_map h.entryIds ha hb ?_
  exact congrArg (fun p => (ofLex (ofLex p).2).2) hab

theorem nodup_templates (input : ComputeLicenseStatsInput) : input.templates.Nodup :=
  (List.nodup_dedup _).map fun _ _ h => congrArg LicenseTemplateCount.templateId h

theorem template_inj {a b : LicenseTemplateCount} (ha : a ∈ input.templates) (hb : b ∈ input.templates)
    (h : a.templateId = b.templateId) : a = b := by
  have ⟨id, _, hida⟩ := List.mem_map.mp ha
  have ⟨id', _, hidb⟩ := List.mem_map.mp hb
  subst hida hidb
  have h : id = id' := h
  rw [h]

end Rows

section Lists

theorem go_topN (h : Rows nowMs seats input) (hs : seats ≤ 2 ^ 53) :
    (Go.computeLicenseStats input).seatUtilization.topN =
      (input.entries.mergeSort fun a b => a.place ≤ b.place).take 10 := by
  have hr : Ranks (fun a b => Go.seatBefore b a) LicenseSeatTopEntry.place input.entries :=
    fun a ha b hb _ => go_seatBefore (h.nonneg hs ha) (h.nonneg hs hb)
  rw [← hr.mergeSort h.entryIds.of_map]
  rfl

theorem ts_topN (h : Rows nowMs seats input) (hs : seats ≤ 2 ^ 53) : (Ts.rollUp input).seatUtilization.topN =
    (input.entries.mergeSort fun a b => a.place ≤ b.place).take 10 := by
  have hr : Ranks Ts.seatAfter LicenseSeatTopEntry.place input.entries := fun a ha b hb hne =>
    ts_seatAfter (h.nonneg hs ha) (h.nonneg hs hb) (h.ascii_entry ha) fun hid =>
      hne (List.inj_on_of_nodup_map h.entryIds ha hb hid)
  rw [← hr.mergeSort h.entryIds.of_map]
  rfl

theorem go_topTemplates (input : ComputeLicenseStatsInput) : (Go.computeLicenseStats input).topTemplates =
    (input.templates.mergeSort fun a b => a.place ≤ b.place).take 10 := by
  have hr : Ranks (fun a b => Go.templateBefore b a) LicenseTemplateCount.place input.templates :=
    fun a _ b _ _ => go_templateBefore a b
  rw [← hr.mergeSort (nodup_templates input)]
  rfl

theorem template_place_inj (input : ComputeLicenseStatsInput) :
    ∀ a ∈ input.templates, ∀ b ∈ input.templates, a.place = b.place → a = b :=
  fun _ ha _ hb hab => template_inj ha hb (congrArg (fun p => (ofLex p).2) hab)

end Lists

section Tally

-- What the counts of the ids that were read are.
structure Counts (ids : List String) (counts : List LicenseTemplateCount) : Prop where
  distinct : (counts.map LicenseTemplateCount.templateId).Nodup
  right    : ∀ c ∈ counts, c.licenseCount = ids.count c.templateId
  all      : ∀ id, id ∈ counts.map LicenseTemplateCount.templateId ↔ id ∈ ids

theorem map_templateId_bump (counts : List LicenseTemplateCount) (id : String) :
    (counts.map fun c => if c.templateId = id then { c with licenseCount := c.licenseCount + 1 } else c).map
      LicenseTemplateCount.templateId = counts.map LicenseTemplateCount.templateId := by
  rw [List.map_map]
  refine List.map_congr_left fun c _ => ?_
  rw [Function.comp_apply]
  split_ifs <;> rfl

theorem Counts.tally {ids : List String} {counts : List LicenseTemplateCount} (h : Counts ids counts) (id : String) :
    Counts (ids ++ [id]) (Ts.tally counts id) := by
  have hold : counts.any (·.templateId = id) ↔ id ∈ ids := by
    rw [← h.all id]
    simp
  rw [Ts.tally]
  split_ifs
  case pos hany =>
    have hid := hold.mp hany
    refine ⟨map_templateId_bump counts id ▸ h.distinct, ?_, fun id' => ?_⟩
    · intro c hc
      have ⟨d, hd, hdc⟩ := List.mem_map.mp hc
      rw [← hdc, List.count_append]
      split_ifs
      case pos he => simp [h.right d hd, he]
      case neg he => simp [h.right d hd, Ne.symm he]
    · rw [map_templateId_bump, h.all id', List.mem_append, List.mem_singleton]
      exact ⟨.inl, fun hor => hor.elim (fun h => h) fun he => he ▸ hid⟩
  case neg hany =>
    have hid : id ∉ ids := fun hid => hany (hold.mpr hid)
    refine ⟨?_, ?_, fun id' => ?_⟩
    · rw [List.map_append, List.map_singleton, List.nodup_append_comm, List.singleton_append, List.nodup_cons]
      exact ⟨fun hm => hid ((h.all id).mp hm), h.distinct⟩
    · intro c hc
      rw [List.count_append]
      rcases List.mem_append.mp hc with hc | hc
      case inl =>
        have hne : id ≠ c.templateId := fun he =>
          hid ((h.all id).mp (he ▸ List.mem_map_of_mem hc))
        simp [h.right c hc, hne]
      case inr =>
        cases List.mem_singleton.mp hc
        simp [List.count_eq_zero.mpr hid]
    · rw [List.map_append, List.map_singleton, List.mem_append, List.mem_append, h.all id']

theorem counts_foldl (ids ids' : List String) {counts : List LicenseTemplateCount} (h : Counts ids counts) :
    Counts (ids ++ ids') (ids'.foldl Ts.tally counts) := by
  induction ids' generalizing ids counts
  case nil => simpa using h
  case cons id ids' ih => simpa using ih (ids ++ [id]) (h.tally id)

theorem Counts.perm {counts : List LicenseTemplateCount} (h : Counts input.templateIds counts) :
    counts.Perm input.templates := by
  refine (List.perm_ext_iff_of_nodup h.distinct.of_map (nodup_templates input)).mpr fun c => ?_
  constructor
  case mp =>
    intro hc
    have hid := (h.all c.templateId).mp (List.mem_map_of_mem hc)
    refine List.mem_map.mpr ⟨c.templateId, List.mem_dedup.mpr hid, ?_⟩
    rw [← h.right c hc]
  case mpr =>
    intro hc
    have ⟨id, hid, he⟩ := List.mem_map.mp hc
    have ⟨d, hd, hdid⟩ := List.mem_map.mp ((h.all id).mpr (List.mem_dedup.mp hid))
    have hdc : d = c := by
      rw [← he, ← hdid, ← h.right d hd]
    exact hdc ▸ hd

theorem tally_perm (input : ComputeLicenseStatsInput) :
    (input.templateIds.foldl Ts.tally []).Perm input.templates := by
  have none : Counts [] [] := ⟨by simp, by simp, by simp⟩
  exact Counts.perm (counts_foldl [] input.templateIds none)

theorem ts_topTemplates (h : Rows nowMs seats input) : (Ts.rollUp input).topTemplates =
    (input.templates.mergeSort fun a b => a.place ≤ b.place).take 10 := by
  have perm := tally_perm input
  have hr : Ranks Ts.templateAfter LicenseTemplateCount.place (input.templateIds.foldl Ts.tally []) := by
    intro a ha b hb hne
    have ⟨id, hid, he⟩ := List.mem_map.mp (perm.mem_iff.mp ha)
    have hascii : Ascii a.templateId.toList := he ▸ h.templateIds id (List.mem_dedup.mp hid)
    exact ts_templateAfter hascii fun hid => hne (template_inj (perm.mem_iff.mp ha) (perm.mem_iff.mp hb) hid)
  have sorted := sorted_perm perm fun a ha b hb =>
    template_place_inj input a (perm.mem_iff.mp ha) b (perm.mem_iff.mp hb)
  rw [← sorted, ← hr.mergeSort (perm.nodup_iff.mpr (nodup_templates input))]
  rfl

end Tally

section Total

-- A sum of doubles is exact as long as the sizes add up to at most `2 ^ 53`.
theorem foldl_ofInt {n : Int} (hs : seats ≤ 2 ^ 53) (es : List LicenseSeatTopEntry)
    (h : n.natAbs + (es.map (·.maxUsages.natAbs)).sum ≤ seats) :
    es.foldl (fun (total : Binary64) e => total.add (.ofInt e.maxUsages)) (.ofInt n) =
      .ofInt (n + (es.map LicenseSeatTopEntry.maxUsages).sum) := by
  induction es generalizing n
  case nil => rw [List.map_nil, List.sum_nil, Int.add_zero, List.foldl_nil]
  case cons e es ih =>
    rw [List.map_cons, List.sum_cons] at h
    rw [List.map_cons, List.sum_cons, List.foldl_cons]
    have hn : n.natAbs ≤ seats := by omega
    have he : e.maxUsages.natAbs ≤ seats := by omega
    rw [Binary64.ofInt_add (hn.trans hs) (he.trans hs), ih (by omega), Int.add_assoc]

theorem natAbs_sum_le (es : List LicenseSeatTopEntry) :
    (es.map LicenseSeatTopEntry.maxUsages).sum.natAbs ≤ (es.map (·.maxUsages.natAbs)).sum := by
  induction es
  case nil => simp
  case cons e es ih =>
    simp only [List.map_cons, List.sum_cons]
    omega

theorem Rows.entrySeats (h : Rows nowMs seats input) : (input.entries.map (·.maxUsages.natAbs)).sum ≤ seats := by
  have he : input.entries.map (·.maxUsages.natAbs) = input.activeLicenses.map (·.maxUsages.natAbs) := by
    rw [ComputeLicenseStatsInput.entries, List.map_map]
    rfl
  exact he ▸ h.seats

theorem ts_maxUsagesTotal (h : Rows nowMs seats input) (hs : seats ≤ 2 ^ 53) :
    (Ts.rollUp input).seatUtilization.maxUsagesTotal =
      .ofInt (input.entries.map LicenseSeatTopEntry.maxUsages).sum := by
  have hle : (0 : Int).natAbs + (input.entries.map (·.maxUsages.natAbs)).sum ≤ seats := by
    rw [Int.natAbs_zero, Nat.zero_add]
    exact h.entrySeats
  have ht := foldl_ofInt hs input.entries hle
  rw [Int.zero_add] at ht
  exact ht

theorem Rows.represents (h : Rows nowMs seats input) (hs : seats ≤ 2 ^ 53) :
    (Binary64.ofInt (input.entries.map LicenseSeatTopEntry.maxUsages).sum).Represents
      (input.entries.map LicenseSeatTopEntry.maxUsages).sum :=
  .ofInt_of_le ((natAbs_sum_le _).trans (h.entrySeats.trans hs))

end Total

end ComputeLicenseStatsInput

attribute [ext] LicenseSeatUtilization LicenseStats Ts.LicenseSeatUtilization Ts.LicenseStats

def LicenseStatusCounts.total (c : LicenseStatusCounts) : Nat :=
  c.pending + c.active + c.grace + c.expired + c.suspended + c.revoked

-- The two ports return the same numbers and lists.
structure SameStats (g : LicenseStats) (t : Ts.LicenseStats) : Prop where
  counts       : t.counts = g.counts
  expiring     : t.expiringWithin30d = g.expiringWithin30d
  delta        : t.activeDelta30d = g.activeDelta30d
  activeUsages : t.seatUtilization.activeUsagesTotal = g.seatUtilization.activeUsagesTotal
  maxUsages    : t.seatUtilization.maxUsagesTotal.Represents g.seatUtilization.maxUsagesTotal
  topN         : t.seatUtilization.topN = g.seatUtilization.topN
  topTemplates : t.topTemplates = g.topTemplates

-- What the rollup of an input promises.
structure Rollup (input : ComputeLicenseStatsInput) : Prop where
  order        : ∀ input', Reordered input input' →
    Go.computeLicenseStats input' = Go.computeLicenseStats input ∧
      Ts.computeLicenseStats input' = Ts.computeLicenseStats input
  partition    : (Go.computeLicenseStats input).counts.total = input.licenses.length
  topN         : Top 10 LicenseSeatTopEntry.place input.entries (Go.computeLicenseStats input).seatUtilization.topN
  topTemplates : Top 10 LicenseTemplateCount.place input.templates (Go.computeLicenseStats input).topTemplates
  same         : ∃ t, Ts.computeLicenseStats input = some t ∧ SameStats (Go.computeLicenseStats input) t

namespace ComputeLicenseStatsInput

variable {nowMs : Int} {seats : Nat} {input input' : ComputeLicenseStatsInput}

theorem go_partition (input : ComputeLicenseStatsInput) :
    (Go.computeLicenseStats input).counts.total = input.licenses.length := by
  simp only [Go.computeLicenseStats, LicenseStatusCounts.total]
  induction input.licenses
  case nil => rfl
  case cons l ls ih =>
    simp only [List.countP_cons, List.length_cons]
    cases l.status <;> simp <;> omega

theorem go_order (hr : Rows nowMs seats input) (hs : seats ≤ 2 ^ 53) (h : Reordered input input') :
    Go.computeLicenseStats input' = Go.computeLicenseStats input := by
  have htop : (Go.computeLicenseStats input').seatUtilization.topN =
      (Go.computeLicenseStats input).seatUtilization.topN := by
    rw [go_topN hr hs, go_topN (hr.reordered h) hs, sorted_perm h.entries (hr.reordered h).place_inj]
  have htemplates : (Go.computeLicenseStats input').topTemplates = (Go.computeLicenseStats input).topTemplates := by
    rw [go_topTemplates, go_topTemplates, sorted_perm h.templates (template_place_inj input')]
  have hactive : (Go.computeLicenseStats input').seatUtilization.activeUsagesTotal =
      (Go.computeLicenseStats input).seatUtilization.activeUsagesTotal :=
    (h.entries.map _).sum_nat
  have hmax : (Go.computeLicenseStats input').seatUtilization.maxUsagesTotal =
      (Go.computeLicenseStats input).seatUtilization.maxUsagesTotal :=
    (h.entries.map _).sum_eq
  ext1
  · simp only [Go.computeLicenseStats, h.licenses.countP_eq]
  · simp only [Go.computeLicenseStats, h.now, h.licenses.countP_eq]
  · simp only [Go.computeLicenseStats, h.events.countP_eq]
  · exact LicenseSeatUtilization.ext hactive hmax htop
  · exact htemplates

theorem ts_order (hr : Rows nowMs seats input) (hs : seats ≤ 2 ^ 53) (h : Reordered input input') :
    Ts.rollUp input' = Ts.rollUp input := by
  have hr' := hr.reordered h
  have htop : (Ts.rollUp input').seatUtilization.topN = (Ts.rollUp input).seatUtilization.topN := by
    rw [ts_topN hr hs, ts_topN hr' hs, sorted_perm h.entries hr'.place_inj]
  have htemplates : (Ts.rollUp input').topTemplates = (Ts.rollUp input).topTemplates := by
    rw [ts_topTemplates hr, ts_topTemplates hr', sorted_perm h.templates (template_place_inj input')]
  have hactive : (Ts.rollUp input').seatUtilization.activeUsagesTotal =
      (Ts.rollUp input).seatUtilization.activeUsagesTotal :=
    (h.entries.map _).sum_nat
  have hmax : (Ts.rollUp input').seatUtilization.maxUsagesTotal =
      (Ts.rollUp input).seatUtilization.maxUsagesTotal := by
    rw [ts_maxUsagesTotal hr hs, ts_maxUsagesTotal hr' hs, (h.entries.map _).sum_eq]
  ext1
  · simp only [Ts.rollUp, h.licenses.countP_eq]
  · simp only [Ts.rollUp, h.now, h.licenses.countP_eq]
  · simp only [Ts.rollUp, h.events.countP_eq]
  · exact Ts.LicenseSeatUtilization.ext hactive hmax htop
  · exact htemplates

theorem sameStats (hr : Rows nowMs seats input) (hs : seats ≤ 2 ^ 53) (hw : SameWindow nowMs) :
    SameStats (Go.computeLicenseStats input) (Ts.rollUp input) where
  counts := rfl
  expiring := by
    have he := expiring_eq hw
    rw [← hr.now] at he
    simp only [Ts.rollUp, Go.computeLicenseStats, he]
  delta := rfl
  activeUsages := rfl
  maxUsages := by
    rw [ts_maxUsagesTotal hr hs]
    exact hr.represents hs
  topN := by rw [ts_topN hr hs, go_topN hr hs]
  topTemplates := by rw [ts_topTemplates hr, go_topTemplates]

theorem rollup (hr : Rows nowMs seats input) (hs : seats ≤ 2 ^ 53) (hn : Ts.isDate nowMs)
    (hh : Ts.isDate (nowMs + Go.thirtyDaysMs)) (hw : SameWindow nowMs) : Rollup input where
  order input' h := by
    refine ⟨go_order hr hs h, ?_⟩
    rw [Ts.computeLicenseStats, Ts.computeLicenseStats, h.now, ts_order hr hs h]
  partition := go_partition input
  topN := by
    rw [go_topN hr hs]
    exact top_take 10 hr.entryIds.of_map hr.place_inj
  topTemplates := by
    rw [go_topTemplates]
    exact top_take 10 (nodup_templates input) (template_place_inj input)
  same := by
    rw [Ts.computeLicenseStats, hr.now, if_pos ⟨hh, hn⟩]
    exact ⟨_, rfl, sameStats hr hs hw⟩

end ComputeLicenseStatsInput

section Failures

variable {nowMs : Int} {seats : Nat}

end Failures

theorem rollup_of_fourDigits {nowMs : Int} {input : ComputeLicenseStatsInput} (h : FourDigits (nowMs / 1000))
    (hr : Rows nowMs (2 ^ 53) input) : Rollup input := by
  have hn : Ts.isDate nowMs := by
    simp only [FourDigits] at h
    simp only [Ts.isDate, decide_eq_true_eq]
    omega
  have hh : Ts.isDate (nowMs + Go.thirtyDaysMs) := by
    have thirtyDays : Go.thirtyDaysMs = 2592000000 := rfl
    simp only [FourDigits] at h
    simp only [Ts.isDate, thirtyDays, decide_eq_true_eq]
    omega
  exact rollup hr le_rfl hn hh (sameWindow_of_fourDigits h)

end Licensing
