import Licensing.Library.Positional
import Licensing.Library.Utf16
import Licensing.Model.LicenseKey
import Mathlib.Data.List.TakeWhile
import Mathlib.Data.String.Basic
import Mathlib.Data.Vector.Basic

-- The identifiers of rows: a count of milliseconds, the version, the variant and random bits.

namespace Licensing

open JsonText (hex? hexDigit utf16 charOfUnit unitsOfChar)

namespace Uuid

def hex (b : UInt8) : List Char :=
  (Nat.toDigits 16 b.toNat).leftpad 2 '0'

-- Both generators draw ten random bytes, and set the version in the first one and the variant in the third.
def stamped (rand : Vector UInt8 10) : Vector UInt8 10 :=
  let rand := rand.set 0 (rand[0] &&& 0x0f ||| 0x70)
  rand.set 2 (rand[2] &&& 0x3f ||| 0x80)

end Uuid

open Uuid

namespace Ts

-- `ToInt32` and `ToUint32` keep the lower 32 bits of an integer; the fraction is dropped before.
def uint32 (n : Nat) : BitVec 32 :=
  .ofNat 32 n

-- A `Uint8Array` keeps the lowest byte of a number.
def uint8 (x : BitVec 32) : UInt8 :=
  .ofNat x.toNat

-- Every byte of the buffer that the calls share is written. A division by a power of two is exact.
def v7Bytes (ms : Nat) (rand : Vector UInt8 10) : Vector UInt8 16 :=
  #v[uint8 (uint32 (ms / 0x10000000000) &&& 0xff), uint8 (uint32 (ms / 0x100000000) &&& 0xff),
    uint8 (uint32 ms >>> 24 &&& 0xff), uint8 (uint32 ms >>> 16 &&& 0xff), uint8 (uint32 ms >>> 8 &&& 0xff),
    uint8 (uint32 ms &&& 0xff)] ++ stamped rand

def formatUuid (b : Vector UInt8 16) : String :=
  let parts := b.toList.map hex
  .ofList ((parts.extract 0 4).flatten ++ '-' :: (parts.extract 4 6).flatten ++ '-' ::
    (parts.extract 6 8).flatten ++ '-' :: (parts.extract 8 10).flatten ++ '-' :: (parts.drop 10).flatten)

def newUuidV7 (ms : Int) (rand : Vector UInt8 10) : Except String String :=
  if ms < 0 ∨ 0xffffffffffff < ms then .error ("ms out of range: " ++ toString ms)
  else .ok (formatUuid (v7Bytes ms.toNat rand))

def unsigned : List Char → List Char
  | '+' :: cs => cs
  | cs        => cs

def unprefixed : List Char → List Char
  | '0' :: 'x' :: cs | '0' :: 'X' :: cs => cs
  | cs                                  => cs

-- `Number.parseInt(s, 16)` of a text without a minus sign; `none` is NaN.
def parseInt16 (us : List UInt16) : Option Nat :=
  let cs := unprefixed (unsigned ((us.map charOfUnit).dropWhile isSpace))
  let ds := ((cs.map hex?).takeWhile Option.isSome).reduceOption
  if ds = [] then none else some (Positional.value 16 ds)

def extractUuidV7Ms (id : String) : Except String (Option Nat) :=
  let cleaned := (utf16 id.toList).filter (· ≠ 0x2d)
  let version := parseInt16 (cleaned.extract 12 13)
  if cleaned.length ≠ 32 then .error ("invalid uuid: " ++ id)
  else if version ≠ some 7 then
    .error ("not a v7 uuid (version=" ++ version.elim "NaN" toString ++ "): " ++ id)
  else .ok (parseInt16 (cleaned.extract 0 12))

end Ts

namespace Go

def putUint64 (v : UInt64) : Vector UInt8 8 :=
  #v[v >>> 56, v >>> 48, v >>> 40, v >>> 32, v >>> 24, v >>> 16, v >>> 8, v].map UInt64.toUInt8

-- The random bytes are written over the last two of the first eight.
def v7Bytes (unixMilli : Int) (rand : Vector UInt8 10) : Vector UInt8 16 :=
  (putUint64 (UInt64.ofInt unixMilli <<< 16)).take 6 ++ stamped rand

-- `%0wx` of a slice of bytes.
def sprintfX (w : Nat) (b : List UInt8) : List Char :=
  (b.flatMap hex).leftpad w '0'

def newUUIDv7 (unixMilli : Int) (rand : Vector UInt8 10) : String :=
  let b := (v7Bytes unixMilli rand).toList
  .ofList (sprintfX 8 (b.extract 0 4) ++ '-' :: sprintfX 4 (b.extract 4 6) ++ '-' :: sprintfX 4 (b.extract 6 8) ++
    '-' :: sprintfX 4 (b.extract 8 10) ++ '-' :: sprintfX 12 (b.drop 10))

end Go

namespace Uuid

open Positional (value)

-- An identifier with its version and its variant.
structure V7 where
  bytes   : Vector UInt8 16
  version : bytes[6] >>> 4 = 7
  variant : bytes[8] >>> 6 = 2

def V7.ms (u : V7) : Nat :=
  value 256 ((u.bytes.toList.take 6).map UInt8.toNat)

def V7.text (u : V7) : String :=
  Ts.formatUuid u.bytes

theorem hex_ofNat : ∀ n < 256, hex (.ofNat n) = (Positional.digits 16 2 n).map hexDigit := by
  decide +kernel

theorem hex_eq (b : UInt8) : hex b = (Positional.digits 16 2 b.toNat).map hexDigit := by
  have h := hex_ofNat b.toNat b.toNat_lt
  rwa [UInt8.ofNat_toNat] at h

-- Bytes that are written one behind the other are the digits of the number that they make up.
theorem flatMap_hex (bs : List UInt8) :
    bs.flatMap hex = (Positional.digits 16 (bs.length * 2) (value 256 (bs.map UInt8.toNat))).map hexDigit := by
  have hb : ∀ d ∈ bs.map UInt8.toNat, d < 256 := by
    intro d hd
    have ⟨b, _, hb⟩ := List.mem_map.mp hd
    exact hb ▸ b.toNat_lt
  have hd := Positional.digits_value hb
  rw [List.length_map] at hd
  rw [← Positional.flatMap_digits, show 16 ^ 2 = 256 from rfl, hd, List.map_flatMap, List.flatMap_map]
  exact List.flatMap_congr fun b _ => hex_eq b

theorem version_bits : ∀ n < 256, ((UInt8.ofNat n) &&& 0x0f ||| 0x70) >>> 4 = 7 := by
  decide +kernel

theorem variant_bits : ∀ n < 256, ((UInt8.ofNat n) &&& 0x3f ||| 0x80) >>> 6 = 2 := by
  decide +kernel

end Uuid

section Bytes

theorem Ts.toNat_uint8 (x : BitVec 32) : (uint8 (x &&& 255#32)).toNat = x.toNat % 256 := by
  have h : x.toNat &&& 255 = x.toNat % 256 := Nat.and_two_pow_sub_one_eq_mod x.toNat 8
  simp [uint8, h]

theorem Ts.toList_v7Bytes (ms : Nat) (rand : Vector UInt8 10) :
    (v7Bytes ms rand).toList =
      [uint8 (uint32 (ms / 0x10000000000) &&& 0xff), uint8 (uint32 (ms / 0x100000000) &&& 0xff),
        uint8 (uint32 ms >>> 24 &&& 0xff), uint8 (uint32 ms >>> 16 &&& 0xff), uint8 (uint32 ms >>> 8 &&& 0xff),
        uint8 (uint32 ms &&& 0xff)] ++ (stamped rand).toList :=
  Vector.toList_append

theorem Ts.ms_v7Bytes {ms : Nat} (h : ms < 2 ^ 48) (rand : Vector UInt8 10) :
    Positional.value 256 (((v7Bytes ms rand).toList.take 6).map UInt8.toNat) = ms := by
  have h24 := Nat.shiftRight_eq_div_pow (ms % 4294967296) 24
  have h16 := Nat.shiftRight_eq_div_pow (ms % 4294967296) 16
  have h8 := Nat.shiftRight_eq_div_pow (ms % 4294967296) 8
  rw [toList_v7Bytes]
  simp [Positional.value, Ts.toNat_uint8, uint32, h24, h16, h8]
  omega

def Uuid.V7.of (ms : Nat) (rand : Vector UInt8 10) : V7 where
  bytes   := Ts.v7Bytes ms rand
  version := by
    have := version_bits rand[0].toNat rand[0].toNat_lt
    rw [← Vector.getElem_toList (by simp)]
    simpa [Ts.toList_v7Bytes, stamped] using this
  variant := by
    have := variant_bits rand[2].toNat rand[2].toNat_lt
    rw [← Vector.getElem_toList (by simp)]
    simpa [Ts.toList_v7Bytes, stamped] using this

theorem Go.v7Bytes_eq {ms : Nat} (h : ms < 2 ^ 48) (rand : Vector UInt8 10) :
    v7Bytes ms rand = Ts.v7Bytes ms rand := by
  have hv : (UInt64.ofInt ms <<< 16).toNat = ms * 65536 := by
    simp [UInt64.ofInt, Nat.shiftLeft_eq]
    omega
  apply Vector.toList_inj.mp
  rw [Ts.toList_v7Bytes]
  have ht : (v7Bytes ms rand).toList =
      ((putUint64 (UInt64.ofInt ms <<< 16)).take 6).toList ++ (stamped rand).toList := Vector.toList_append
  rw [ht]
  congr 1
  generalize UInt64.ofInt ms <<< 16 = v at hv
  simp [putUint64, ← UInt8.toNat_inj, Ts.toNat_uint8, Ts.uint32, hv, Nat.shiftRight_eq_div_pow]
  omega

end Bytes

section Text

open Positional

variable (b : Vector UInt8 16)

-- The numbers of the groups that are written between hyphens.
def Uuid.group (i j : Nat) : Nat :=
  value 256 ((b.toList.extract i j).map UInt8.toNat)

theorem Uuid.flatMap_hex_extract {i j : Nat} (hj : j ≤ 16) :
    (b.toList.extract i j).flatMap hex = (digits 16 ((j - i) * 2) (group b i j)).map hexDigit := by
  have hl : (b.toList.extract i j).length = j - i := by
    simp
    omega
  rw [flatMap_hex, hl]
  rfl

-- The text of sixteen bytes.
def Uuid.layout : List Char :=
  (digits 16 8 (group b 0 4)).map hexDigit ++ '-' ::
    ((digits 16 4 (group b 4 6)).map hexDigit ++ '-' :: ((digits 16 4 (group b 6 8)).map hexDigit ++ '-' ::
      ((digits 16 4 (group b 8 10)).map hexDigit ++ '-' :: (digits 16 12 (group b 10 16)).map hexDigit)))

theorem Ts.formatUuid_eq : formatUuid b = .ofList (layout b) := by
  have hg {i j : Nat} (hj : j ≤ 16) : ((b.toList.map hex).extract i j).flatten =
      (digits 16 ((j - i) * 2) (group b i j)).map hexDigit := by
    rw [← flatMap_hex_extract b hj, List.flatMap_def]
    simp [List.map_take, List.map_drop]
  have hd : (b.toList.map hex).drop 10 = (b.toList.map hex).extract 10 16 := by
    simp
  rw [formatUuid, hd, hg (by decide), hg (by decide), hg (by decide), hg (by decide), hg (by decide)]
  simp [layout]

theorem Go.sprintfX_eq {i j w : Nat} (hj : j ≤ 16) (hw : w = (j - i) * 2) :
    sprintfX w (b.toList.extract i j) = (digits 16 w (group b i j)).map hexDigit := by
  have hl : w - ((digits 16 w (group b i j)).map hexDigit).length = 0 := by simp
  rw [sprintfX, flatMap_hex_extract b hj, ← hw, List.leftpad, hl]
  rfl

-- Both generators lay out the same bits.
theorem Go.newUUIDv7_eq {ms : Nat} (h : ms < 2 ^ 48) (rand : Vector UInt8 10) :
    newUUIDv7 ms rand = (V7.of ms rand).text := by
  have hd : (Ts.v7Bytes ms rand).toList.drop 10 = (Ts.v7Bytes ms rand).toList.extract 10 16 := by
    simp
  have hs {i j w : Nat} (hj : j ≤ 16) (hw : w = (j - i) * 2) := sprintfX_eq (Ts.v7Bytes ms rand) hj hw
  rw [newUUIDv7, v7Bytes_eq h, hd, hs (by decide) (by decide), hs (by decide) (by decide),
    hs (by decide) (by decide), hs (by decide) (by decide), hs (by decide) (by decide)]
  simp [V7.text, V7.of, Ts.formatUuid_eq, layout]

theorem Ts.newUuidV7_eq {ms : Nat} (h : ms < 2 ^ 48) (rand : Vector UInt8 10) :
    newUuidV7 ms rand = .ok (V7.of ms rand).text := by
  have hr : ¬((ms : Int) < 0 ∨ 0xffffffffffff < (ms : Int)) := by omega
  rw [newUuidV7, if_neg hr]
  rfl

example : Ts.newUuidV7 1700000000000 (.replicate 10 0xff) = .ok "018bcfe5-6800-7fff-bfff-ffffffffffff" := by
  decide

theorem Uuid.group_lt (i j : Nat) : group b i j < 256 ^ (b.toList.extract i j).length := by
  have hd : ∀ d ∈ (b.toList.extract i j).map UInt8.toNat, d < 256 := by
    intro d hd
    have ⟨c, _, hc⟩ := List.mem_map.mp hd
    exact hc ▸ c.toNat_lt
  simpa [group] using value_lt hd

end Text

namespace Uuid.V7

open Positional

variable (u : V7)

-- The milliseconds are the first two groups.
theorem ms_eq : u.ms = group u.bytes 0 4 * 65536 + group u.bytes 4 6 := by
  have hl : (u.bytes.toList.extract 4 6).length = 2 := by simp
  have ht : u.bytes.toList.take 6 = u.bytes.toList.extract 0 4 ++ u.bytes.toList.extract 4 6 := by
    simp [← List.take_add]
  rw [ms, ht, List.map_append, value_append, List.length_map, hl]
  rfl

theorem ms_lt : u.ms < 2 ^ 48 := by
  have := group_lt u.bytes 0 4
  have := group_lt u.bytes 4 6
  simp at *
  rw [ms_eq]
  omega

theorem ms_of {ms : Nat} (h : ms < 2 ^ 48) (rand : Vector UInt8 10) : (of ms rand).ms = ms :=
  Ts.ms_v7Bytes h rand

theorem toList_text : u.text.toList = layout u.bytes := by
  rw [text, Ts.formatUuid_eq, String.toList_ofList]

theorem hexDigit_lt : ∀ e < 16, ∀ d < e, hexDigit d < hexDigit e := by
  decide

theorem map_hexDigit_lt {w n m : Nat} (h : n < m) (hm : m < 16 ^ w) :
    (digits 16 w n).map hexDigit < (digits 16 w m).map hexDigit := by
  refine map_lt_map (b := 16) (fun d e hd he => hexDigit_lt e he d hd) ?_ ?_
  · exact fun e he => lt_of_mem_digits (by decide) he
  · apply digits_lt_digits (by decide)
    rwa [Nat.mod_eq_of_lt hm, Nat.mod_eq_of_lt (Nat.lt_trans h hm)]

-- Later identifiers are greater, whatever their random bits are.
theorem text_lt {u v : V7} (h : u.ms < v.ms) : u.text < v.text := by
  have h₀ := group_lt v.bytes 0 4
  have h₁ := group_lt u.bytes 4 6
  have h₂ := group_lt v.bytes 4 6
  simp at h₀ h₁ h₂
  rw [ms_eq, ms_eq] at h
  rw [String.lt_iff_toList_lt, toList_text, toList_text, layout, layout]
  rcases Nat.lt_trichotomy (group u.bytes 0 4) (group v.bytes 0 4) with hlt | heq | hgt
  case inl => exact append_lt_append (map_hexDigit_lt hlt h₀) (by simp) _ _
  case inr.inl =>
    have hlo := map_hexDigit_lt (w := 4) (by omega : group u.bytes 4 6 < group v.bytes 4 6) h₂
    rw [heq]
    refine List.append_left_lt (List.cons_lt_cons_iff.mpr (.inr ⟨rfl, ?_⟩))
    exact append_lt_append hlo (by simp) _ _
  case inr.inr => omega

section Extraction

theorem utf16_ascii {cs : List Char} (h : ∀ c ∈ cs, c.toNat < 0x80) :
    utf16 cs = cs.map fun c => .ofNat c.toNat := by
  induction cs
  case nil => rfl
  case cons c cs ih =>
    rw [List.forall_mem_cons] at h
    have hc : unitsOfChar c = [.ofNat c.toNat] := if_pos (Nat.lt_trans h.1 (by decide))
    rw [utf16, List.flatMap_cons, ← utf16, hc, ih h.2]
    rfl

def hexUnit (d : Nat) : UInt16 :=
  .ofNat (hexDigit d).toNat

theorem hexUnit_char : ∀ d < 16, charOfUnit (hexUnit d) = hexDigit d ∧ hexUnit d ≠ 0x2d ∧
    (hexDigit d).toNat < 0x80 := by
  decide

theorem hexDigit_plain : ∀ d < 16, Ts.isSpace (hexDigit d) = false ∧ hexDigit d ≠ '+' ∧ hexDigit d ≠ 'x' ∧
    hexDigit d ≠ 'X' ∧ hex? (hexDigit d) = some d := by
  decide

-- The digits of an identifier, without the hyphens.
def allDigits : List Nat :=
  digits 16 8 (group u.bytes 0 4) ++ digits 16 4 (group u.bytes 4 6) ++ digits 16 4 (group u.bytes 6 8) ++
    digits 16 4 (group u.bytes 8 10) ++ digits 16 12 (group u.bytes 10 16)

theorem utf16_digits {ds : List Nat} (h : ∀ d ∈ ds, d < 16) : utf16 (ds.map hexDigit) = ds.map hexUnit := by
  have ha : ∀ c ∈ ds.map hexDigit, c.toNat < 0x80 := by
    intro c hc
    have ⟨d, hd, hc⟩ := List.mem_map.mp hc
    exact hc ▸ (hexUnit_char d (h d hd)).2.2
  rw [utf16_ascii ha, List.map_map]
  rfl

theorem utf16_hyphen (cs : List Char) : utf16 ('-' :: cs) = 0x2d :: utf16 cs :=
  rfl

theorem utf16_layout : (utf16 u.text.toList).filter (· ≠ 0x2d) = u.allDigits.map hexUnit := by
  have hd (w n : Nat) : utf16 ((digits 16 w n).map hexDigit) = (digits 16 w n).map hexUnit :=
    utf16_digits fun d hd => lt_of_mem_digits (by decide) hd
  have hf (w n : Nat) : ((digits 16 w n).map hexUnit).filter (· ≠ 0x2d) = (digits 16 w n).map hexUnit := by
    refine List.filter_eq_self.mpr fun x hx => ?_
    have ⟨d, hd, hx⟩ := List.mem_map.mp hx
    have := (hexUnit_char d (lt_of_mem_digits (by decide) hd)).2.1
    simp [← hx, this]
  have ha (cs ds : List Char) : utf16 (cs ++ ds) = utf16 cs ++ utf16 ds := List.flatMap_append
  have hh (us : List UInt16) : (0x2d :: us).filter (· ≠ 0x2d) = us.filter (· ≠ 0x2d) := rfl
  rw [toList_text, layout, ha, utf16_hyphen, ha, utf16_hyphen, ha, utf16_hyphen, ha, utf16_hyphen]
  simp only [hd, List.filter_append, hf, hh, allDigits, List.map_append, List.append_assoc]

theorem unprefixed_eq {cs : List Char} (h : ∀ c ∈ cs, c ≠ 'x' ∧ c ≠ 'X') : Ts.unprefixed cs = cs := by
  unfold Ts.unprefixed
  split <;> simp at h ⊢

theorem parseInt16_digits {ds : List Nat} (hn : ds ≠ []) (h : ∀ d ∈ ds, d < 16) :
    Ts.parseInt16 (ds.map hexUnit) = some (value 16 ds) := by
  have hc : (ds.map hexUnit).map charOfUnit = ds.map hexDigit := by
    rw [List.map_map]
    exact List.map_congr_left fun d hd => (hexUnit_char d (h d hd)).1
  have hs : (ds.map hexDigit).dropWhile Ts.isSpace = ds.map hexDigit := by
    cases ds
    case nil => rfl
    case cons d ds => simp [(hexDigit_plain d (h d (by simp))).1]
  have hu : Ts.unsigned (ds.map hexDigit) = ds.map hexDigit := by
    cases ds
    case nil => rfl
    case cons d ds => simp [Ts.unsigned, (hexDigit_plain d (h d (by simp))).2.1]
  have hx : Ts.unprefixed (ds.map hexDigit) = ds.map hexDigit := by
    refine unprefixed_eq fun c hc => ?_
    have ⟨d, hd, hc⟩ := List.mem_map.mp hc
    exact hc ▸ ⟨(hexDigit_plain d (h d hd)).2.2.1, (hexDigit_plain d (h d hd)).2.2.2.1⟩
  have hv : (ds.map hexDigit).map hex? = ds.map some := by
    rw [List.map_map]
    exact List.map_congr_left fun d hd => (hexDigit_plain d (h d hd)).2.2.2.2
  have ht : (ds.map some).takeWhile Option.isSome = ds.map some :=
    List.takeWhile_eq_self_iff.mpr (by simp)
  have hr : (ds.map some).reduceOption = ds := by
    show (ds.map some).filterMap id = ds
    simp [List.filterMap_map]
  simp only [Ts.parseInt16, hc, hs, hu, hx, hv, ht, hr, if_neg hn]

theorem allDigits_eq : u.allDigits =
    (digits 16 8 (group u.bytes 0 4) ++ digits 16 4 (group u.bytes 4 6)) ++ (digits 16 4 (group u.bytes 6 8) ++
      (digits 16 4 (group u.bytes 8 10) ++ digits 16 12 (group u.bytes 10 16))) := by
  simp [allDigits]

theorem take_allDigits : u.allDigits.take 12 = digits 16 12 u.ms := by
  have h₁ := group_lt u.bytes 4 6
  simp at h₁
  have hq : u.ms / 16 ^ 4 = group u.bytes 0 4 := by
    rw [ms_eq]
    omega
  have hr : u.ms % 16 ^ 4 = group u.bytes 4 6 := by
    rw [ms_eq]
    omega
  rw [digits_append 4 8, hq, ← digits_mod 4 u.ms (Nat.le_refl 4), hr, allDigits_eq, List.take_left' (by simp)]

-- The thirteenth digit is the version.
theorem drop_allDigits : (u.allDigits.drop 12).take 1 = [7] := by
  have hx : u.bytes.toList.extract 6 8 = [u.bytes[6], u.bytes[7]] := by
    apply List.ext_getElem (by simp)
    intro i h h'
    match i with
    | 0 => simp
    | 1 => simp
  have hv : u.bytes[6].toNat / 16 = 7 := by
    have := congrArg UInt8.toNat u.version
    simpa [Nat.shiftRight_eq_div_pow] using this
  have hb := u.bytes[7].toNat_lt
  have hd : group u.bytes 6 8 / 16 ^ 3 % 16 = 7 := by
    rw [group, hx]
    simp [value]
    omega
  have hs : digits 16 4 (group u.bytes 6 8) = 7 :: digits 16 3 (group u.bytes 6 8) := by
    rw [digits, hd]
  rw [allDigits_eq, List.drop_left' (by simp), hs]
  rfl

theorem extract_text : Ts.extractUuidV7Ms u.text = .ok (some u.ms) := by
  have hl : (u.allDigits.map hexUnit).length = 32 := by simp [allDigits]
  have hv : Ts.parseInt16 ((u.allDigits.map hexUnit).extract 12 13) = some 7 := by
    rw [List.extract_eq_take_drop, ← List.map_drop, ← List.map_take, drop_allDigits]
    exact parseInt16_digits (by simp) (by simp)
  have hm : Ts.parseInt16 ((u.allDigits.map hexUnit).extract 0 12) = some u.ms := by
    rw [List.extract_eq_take_drop, List.drop_zero, ← List.map_take, take_allDigits,
      parseInt16_digits (List.ne_nil_of_length_pos (by simp)) fun d hd => lt_of_mem_digits (by decide) hd,
      value_digits]
    exact congrArg some (Nat.mod_eq_of_lt u.ms_lt)
  rw [Ts.extractUuidV7Ms, utf16_layout, if_neg (not_not.mpr hl), if_neg (not_not.mpr hv), hm]

end Extraction

end Uuid.V7

-- The identifiers of both generators, whatever bytes they draw.
theorem uuidV7_spec {ms : Nat} (h : ms < 2 ^ 48) (rand : Vector UInt8 10) :
    ∃ u : V7, Ts.newUuidV7 ms rand = .ok u.text ∧ Go.newUUIDv7 ms rand = u.text ∧
      Ts.extractUuidV7Ms u.text = .ok (some ms) ∧
      ∀ (ms' : Nat) (rand' : Vector UInt8 10) (s : String), ms < ms' →
        Ts.newUuidV7 ms' rand' = .ok s → u.text < s := by
  refine ⟨.of ms rand, Ts.newUuidV7_eq h rand, Go.newUUIDv7_eq h rand, ?_, ?_⟩
  · rw [V7.extract_text, V7.ms_of h]
  · intro ms' rand' s hms hs
    have h' : ms' < 2 ^ 48 := by
      by_contra hn
      have hr : (ms' : Int) < 0 ∨ 0xffffffffffff < (ms' : Int) := by omega
      rw [Ts.newUuidV7, if_pos hr] at hs
      cases hs
    rw [Ts.newUuidV7_eq h'] at hs
    cases hs
    apply V7.text_lt
    rwa [V7.ms_of h, V7.ms_of h']

theorem uuidV7_spec_sample :
    ∃ u : V7, Ts.newUuidV7 1700000000000 (.replicate 10 0xff) = .ok u.text ∧
      Go.newUUIDv7 1700000000000 (.replicate 10 0xff) = u.text ∧
      Ts.extractUuidV7Ms u.text = .ok (some 1700000000000) ∧
      ∀ (ms' : Nat) (rand' : Vector UInt8 10) (s : String), 1700000000000 < ms' →
        Ts.newUuidV7 ms' rand' = .ok s → u.text < s :=
  uuidV7_spec (by decide) (.replicate 10 0xff)

end Licensing
