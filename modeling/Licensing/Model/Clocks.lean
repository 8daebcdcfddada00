import Licensing.Model.Timestamps

-- The texts of the system clock, and those that the adapter for Postgres reads back.

namespace Licensing

open Rfc3339 Decimal

namespace Go

-- The fraction of a second of `time.RFC3339Nano`, without the zeros at its end, and the zone.
def fractionNano (n : Nat) : List Char :=
  match significant 9 n with
  | [] => ['Z']
  | ds => '.' :: (ds ++ ['Z'])

-- `time.Now().UTC().Format(time.RFC3339Nano)` of a number of nanoseconds.
def systemClock (t : Int) : String :=
  .ofList <| dateTime year (t / 1000000000) ++ fractionNano (t % 1000000000).toNat

-- A text as it comes back from a column that is not null, and from one that may be.
def readBack (s : String) : String :=
  isoFromTime (tsVal s)

def readBackOrNull (s : Option String) : Option String :=
  isoFromTimePtr (tsOrNull s)

end Go

-- The texts with six digits of a fraction.
def IsMicros (s : String) : Prop :=
  ∃ t, FourDigits (t / 1000000) ∧ s = Go.isoFromTime t

section ReadBack

variable {s : String} {t : Int}

theorem tsVal_isoFromTime (h : FourDigits (t / 1000000)) : Go.tsVal (Go.isoFromTime t) = t := by
  simp [Go.tsVal, Go.tsVal?, Go.parseTime_isoFromTime h]

theorem tsOrNull_isoFromTime (h : FourDigits (t / 1000000)) : Go.tsOrNull (some (Go.isoFromTime t)) = some t := by
  simp [Go.tsOrNull, Go.tsVal?, Go.parseTime_isoFromTime h]

-- A text is read as an instant of which it is the text.
theorem isMicros_of_tsVal? (h : Go.tsVal? (Go.isoFromTime t) ≠ none) : IsMicros (Go.isoFromTime t) := by
  by_cases hf : FourDigits (t / 1000000)
  case pos => exact ⟨t, hf, rfl⟩
  case neg => exact absurd (by rw [Go.tsVal?, Go.parseTime_isoFromTime_none hf]; rfl) h

theorem go_readBack_iff : Go.readBack s = s ↔ IsMicros s := by
  apply Iff.intro
  case mp =>
    intro h
    cases hs : Go.tsVal? s
    case none   =>
      rw [Go.readBack, Go.tsVal, hs] at h
      exact ⟨-62135596800000000, by decide, h.symm⟩
    case some t =>
      rw [Go.readBack, Go.tsVal, hs, Option.getD_some] at h
      rw [← h]
      exact isMicros_of_tsVal? (by rw [h, hs]; simp)
  case mpr =>
    rintro ⟨t, ht, rfl⟩
    rw [Go.readBack, tsVal_isoFromTime ht]

theorem go_readBackOrNull_iff (s : Option String) :
    Go.readBackOrNull s = s ↔ ∀ text, s = some text → IsMicros text := by
  cases s
  case none => exact iff_of_true rfl (by simp)
  case some s =>
    rw [Go.readBackOrNull, Go.tsOrNull, Option.bind_some]
    apply Iff.intro
    case mp =>
      rintro h _ ⟨⟩
      cases hs : Go.tsVal? s
      case none   => simp [hs, Go.isoFromTimePtr] at h
      case some t =>
        rw [hs, Go.isoFromTimePtr, Option.map_some, Option.some.injEq] at h
        rw [← h]
        exact isMicros_of_tsVal? (by rw [h, hs]; simp)
    case mpr =>
      intro h
      obtain ⟨t, ht, rfl⟩ := h s rfl
      have hp := tsOrNull_isoFromTime ht
      rw [Go.tsOrNull, Option.bind_some] at hp
      rw [hp]
      rfl

end ReadBack

section SystemClock

variable {n t a b : Int}

theorem length_dateTime (h : FourDigits a) : (dateTime year a).length = 19 := by
  simp [dateTime, Go.year_of_fourDigits h, timeOfDay]

theorem dateTime_injective (ha : FourDigits a) (hb : FourDigits b) (h : dateTime year a = dateTime year b) :
    a = b := by
  have whole : ∀ {c : Int}, FourDigits c → Go.parseTime (Go.isoFromTime (c * 1000000)) = some (c * 1000000000) := by
    intro c hc
    rw [Go.parseTime_isoFromTime (by rwa [Int.mul_ediv_cancel _ (by decide)])]
    congr 1
    omega
  have he : Go.isoFromTime (a * 1000000) = Go.isoFromTime (b * 1000000) := by
    simp [Go.isoFromTime, h]
  have hp := whole ha
  rw [he, whole hb] at hp
  have := Option.some.inj hp
  omega

theorem fractionNano_eq_iff {m k : Nat} (hm : m < 10 ^ 9) (hk : k < 10 ^ 6) :
    Go.fractionNano m = fraction 6 k ↔ m = k * 1000 ∧ ¬10 ∣ k := by
  have hl₆ : (significant 9 m).length ≤ 6 ↔ 10 ^ 3 ∣ m := length_significant_le 6 3 m
  have hl₅ : (significant 9 m).length ≤ 5 ↔ 10 ^ 4 ∣ m := length_significant_le 5 4 m
  have cut : 10 ^ 3 ∣ m → significant 9 m = significant 6 (m / 10 ^ 3) := significant_of_dvd (v := 3) 6
  have frac : Go.fractionNano m = fraction 6 k ↔ significant 9 m = digits 6 k := by
    unfold Go.fractionNano fraction
    cases significant 9 m
    case nil       => simp [digits]
    case cons d ds =>
      simp only [List.cons.injEq, true_and]
      exact List.append_left_inj ['Z']
  rw [frac]
  apply Iff.intro
  case mp =>
    intro h
    rw [h, length_digits] at hl₆ hl₅
    have h₃ : 10 ^ 3 ∣ m := hl₆.mp le_rfl
    have h₄ : ¬10 ^ 4 ∣ m := fun hd => absurd (hl₅.mpr hd) (by decide)
    have hs := cut h₃
    have hd : significant 6 (m / 10 ^ 3) = digits 6 (m / 10 ^ 3) := by
      have hl := congrArg List.length (hs.symm.trans h)
      exact (isPrefix_significant 6 _).eq_of_length (by simpa using hl)
    have := digits_injective (by omega) hk (hd.symm.trans (hs.symm.trans h))
    omega
  case mpr =>
    rintro ⟨rfl, hk'⟩
    have hd : k * 1000 / 10 ^ 3 = k := Nat.mul_div_cancel k (by decide)
    rw [cut (Dvd.intro_left k rfl), hd, significant_succ, if_neg hk']

-- The clock writes six digits for the instants that are whole microseconds, but not whole tens of them.
theorem systemClock_eq_isoFromTime_iff (hn : FourDigits (n / 1000000000)) (ht : FourDigits (t / 1000000)) :
    Go.systemClock n = Go.isoFromTime t ↔ n = t * 1000 ∧ ¬10 ∣ t := by
  rw [Go.systemClock, Go.isoFromTime, String.ofList_inj]
  apply Iff.intro
  case mp =>
    intro h
    obtain ⟨hd, hf⟩ := List.append_inj h (by rw [length_dateTime hn, length_dateTime ht])
    have hs := dateTime_injective hn ht hd
    have hk := (fractionNano_eq_iff (by omega) (by omega)).mp hf
    omega
  case mpr =>
    rintro ⟨rfl, h⟩
    have hs : t * 1000 / 1000000000 = t / 1000000 := by omega
    rw [hs]
    congr 1
    exact (fractionNano_eq_iff (by omega) (by omega)).mpr (by omega)

theorem isMicros_systemClock_iff (hn : FourDigits (n / 1000000000)) :
    IsMicros (Go.systemClock n) ↔ 1000 ∣ n ∧ ¬10000 ∣ n := by
  apply Iff.intro
  case mp =>
    rintro ⟨t, ht, h⟩
    have := (systemClock_eq_isoFromTime_iff hn ht).mp h
    omega
  case mpr =>
    intro h
    have hs : n / 1000 / 1000000 = n / 1000000000 := by omega
    have ht : FourDigits (n / 1000 / 1000000) := hs ▸ hn
    exact ⟨n / 1000, ht, (systemClock_eq_isoFromTime_iff hn ht).mpr (by omega)⟩

theorem dateTime_colon (a : Int) : ∃ front k, dateTime year a = front ++ ':' :: digits 2 k := by
  let date := Date.ofDays (a / 86400)
  let sod := (a % 86400).toNat
  exact ⟨year date.year ++ '-' :: (digits 2 date.month ++ '-' :: (digits 2 date.day ++ 'T' ::
    (digits 2 (sod / 3600) ++ ':' :: digits 2 (sod / 60 % 60)))), sod % 60, by simp [dateTime, timeOfDay, date, sod]⟩

-- A text of milliseconds ends with three zeros, and no fraction of the clock does.
theorem isoFromMs_ne_systemClock : Ts.isoFromMs t ≠ Go.systemClock n := by
  rw [Ts.isoFromMs, Go.systemClock, Ne, String.ofList_inj]
  have zeros : ∀ k : Nat, digits 6 (k * 1000) = digits 3 k ++ ['0', '0', '0'] := by
    intro k
    have h₁ : k * 1000 / 10 = k * 100 := by omega
    have h₂ : k * 100 / 10 = k * 10 := by omega
    have h₃ : k * 10 / 10 = k := by omega
    have z : ∀ m, 10 ∣ m → digit m = '0' := fun m => (digit_eq_zero_iff m).mpr
    rw [digits_concat, digits_concat, digits_concat, h₁, h₂, h₃, z _ (by omega), z _ (by omega), z _ (by omega)]
    simp
  rw [fraction, zeros]
  intro h
  obtain ⟨head, hz⟩ : ∃ head, head ++ ['0', '0', '0', 'Z'] =
      dateTime year (n / 1000000000) ++ Go.fractionNano (n % 1000000000).toNat := by
    refine ⟨dateTime expandedYear (t / 1000) ++ '.' :: digits 3 (t % 1000).toNat, ?_⟩
    simpa using h
  generalize (n % 1000000000).toNat = m at hz
  rcases List.eq_nil_or_concat' (significant 9 m) with hs | ⟨front, c, hs⟩
  case inl =>
    have hm : Go.fractionNano m = ['Z'] := by rw [Go.fractionNano, hs]
    obtain ⟨front, k, hf⟩ := dateTime_colon (n / 1000000000)
    rw [hm, hf, List.append_cons, List.append_assoc, List.append_assoc] at hz
    have hl := (List.append_inj' hz (by simp)).right
    simp at hl
  case inr =>
    have hm : Go.fractionNano m = '.' :: (front ++ [c] ++ ['Z']) := by
      rw [Go.fractionNano, hs]
      cases front <;> rfl
    rw [hm] at hz
    have hc := congrArg List.reverse hz
    simp only [List.reverse_append, List.reverse_cons] at hc
    simp at hc
    exact significant_ne_concat 9 m front (hc.left ▸ hs)

end SystemClock

namespace Go

theorem parseFraction_bounds (cs : List Char) :
    0 ≤ (parseFraction cs).1 ∧ (parseFraction cs).1 < 1000000000 := by
  unfold parseFraction
  split
  case h_2 => simp
  case h_1 c d cs =>
    split
    case isFalse => simp
    case isTrue =>
      dsimp only
      generalize hds : ((d :: cs).takeWhile Char.isDigit).take 9 = ds
      have hd : ∀ d ∈ ds, d.isDigit := by
        intro e he
        rw [← hds] at he
        exact List.mem_takeWhile_imp (List.mem_of_mem_take he)
      have hlen : ds.length ≤ 9 := hds ▸ List.length_take_le 9 _
      have hu := Decimal.foldl_lt hd 0
      have h₉ : 10 ^ ds.length * 10 ^ (9 - ds.length) = 1000000000 := by
        rw [← pow_add, Nat.add_sub_cancel' hlen]
        norm_num
      have hlt := Nat.mul_lt_mul_of_pos_right hu (Nat.pow_pos (n := 9 - ds.length) (Nat.succ_pos 9))
      rw [Nat.zero_add, Nat.one_mul, h₉] at hlt
      refine ⟨by positivity, ?_⟩
      exact_mod_cast hlt

theorem parseZone_bounds {cs rest : List Char} {offset : Int} (h : parseZone cs = some (offset, rest)) :
    -90000 ≤ offset ∧ offset ≤ 90000 := by
  unfold parseZone at h
  split at h
  case h_1 =>
    cases h
    simp
  case h_2 =>
    simp only [Option.bind_eq_bind, Option.bind_eq_some_iff, Option.ite_none_left_eq_some] at h
    obtain ⟨⟨hr, _⟩, -, ⟨mm, _⟩, -, hle, h⟩ := h
    split at h
    case isTrue =>
      cases h
      dsimp only at hle ⊢
      omega
    case isFalse =>
      rw [Option.ite_none_right_eq_some] at h
      cases h.2
      dsimp only at hle ⊢
      omega
  case h_3 => simp at h

-- A time lies within the years of four digits, up to the offset of its zone.
theorem parseTime_bounds {s : String} {t : Int} (h : parseTime s = some t) :
    -1000000000000 < t / 1000000000 ∧ t / 1000000000 < 1000000000000 := by
  -- What each field has been read as, in the order of the fields.
  obtain ⟨⟨y, cs⟩, hy, h⟩ := Option.bind_eq_some_iff.mp h
  obtain ⟨cs₁, -, h⟩ := Option.bind_eq_some_iff.mp h
  obtain ⟨⟨month, cs₂⟩, -, h⟩ := Option.bind_eq_some_iff.mp h
  obtain ⟨hm, h⟩ := Option.ite_none_left_eq_some.mp h
  obtain ⟨cs₃, -, h⟩ := Option.bind_eq_some_iff.mp h
  obtain ⟨⟨day, cs₄⟩, -, h⟩ := Option.bind_eq_some_iff.mp h
  obtain ⟨cs₅, -, h⟩ := Option.bind_eq_some_iff.mp h
  obtain ⟨⟨hour, cs₆⟩, -, h⟩ := Option.bind_eq_some_iff.mp h
  obtain ⟨hh, h⟩ := Option.ite_none_left_eq_some.mp h
  obtain ⟨cs₇, -, h⟩ := Option.bind_eq_some_iff.mp h
  obtain ⟨⟨min, cs₈⟩, -, h⟩ := Option.bind_eq_some_iff.mp h
  obtain ⟨hmin, h⟩ := Option.ite_none_left_eq_some.mp h
  obtain ⟨cs₉, -, h⟩ := Option.bind_eq_some_iff.mp h
  obtain ⟨⟨sec, cs₁₀⟩, -, h⟩ := Option.bind_eq_some_iff.mp h
  obtain ⟨hsec, h⟩ := Option.ite_none_left_eq_some.mp h
  have hf := parseFraction_bounds cs₁₀
  generalize parseFraction cs₁₀ = fraction at h hf
  obtain ⟨⟨offset, cs₁₁⟩, hz, h⟩ := Option.bind_eq_some_iff.mp h
  obtain ⟨-, h⟩ := Option.ite_none_left_eq_some.mp h
  obtain ⟨hd, h⟩ := Option.ite_none_left_eq_some.mp h
  have hy' := Decimal.take_lt hy
  have hi := Date.daysIn_le y month
  obtain ⟨hl, hu⟩ := Date.toDays_bounds (d := { year := y, month := month, day := day }) (by dsimp; omega)
    (by dsimp; omega) (by dsimp; omega)
  have ho := parseZone_bounds hz
  cases h
  omega

end Go

end Licensing
