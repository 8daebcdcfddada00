import Licensing.Tokens.Base64url
import Mathlib.Algebra.Order.Ring.Int
import Mathlib.Data.List.Induction

-- The DER writer and reader of the TypeScript port.

namespace Licensing

namespace Der

open Ts

def encodeLen (n : Nat) : List UInt8 :=
  if n < 0x80 then [.ofNat n]
  else if n < 0x100 then [0x81, .ofNat n]
  else if n < 0x10000 then [0x82, .ofNat (n / 2 ^ 8), .ofNat n]
  else if n < 0x1000000 then [0x83, .ofNat (n / 2 ^ 16), .ofNat (n / 2 ^ 8), .ofNat n]
  else [0x84, .ofNat (n / 2 ^ 24), .ofNat (n / 2 ^ 16), .ofNat (n / 2 ^ 8), .ofNat n]

def tlv (tag : UInt8) (content : List UInt8) : List UInt8 :=
  tag :: (encodeLen content.length ++ content)

-- An integer, or NaN.
abbrev Number :=
  Option Int

def Number.add (a b : Number) : Number :=
  a.bind fun a => b.map (a + ·)

-- `a >= n`, which is false of NaN.
def Number.reaches (a : Number) (n : Int) : Bool :=
  a.any (n ≤ ·)

-- What is behind the ends is undefined.
def byteAt (buf : List UInt8) : Number → Option UInt8
  | some (.ofNat i) => buf[i]?
  | _               => none

-- A negative index counts from the end.
def clamp (length : Nat) (i : Int) : Nat :=
  if i < 0 then (length + i).toNat else i.toNat

-- `buf.slice(start, stop)`, where NaN is 0.
def slice (buf : List UInt8) (start stop : Number) : List UInt8 :=
  (buf.take (clamp buf.length (stop.getD 0))).drop (clamp buf.length (start.getD 0))

-- A tag that was read behind the ends is undefined.
structure ParsedTlv where
  tag     : Option UInt8
  content : List UInt8
  total   : Number

-- `(len << 8) | byte`, in signed 32 bits.
def shiftIn (len : Int) (byte : UInt8) : Int :=
  (len * 256 + byte.toNat).bmod (2 ^ 32)

def parseLong (buf : List UInt8) : Nat → Int → Int → Except Error (Number × Number)
  | 0,     len, lp => .ok (some len, some lp)
  | n + 1, len, lp =>
    match byteAt buf (some lp) with
    | none   => .error (tokenMalformed "DER: truncated multi-byte length")
    | some b => parseLong buf n (shiftIn len b) (lp + 1)

-- The length, and where the content begins. An undefined byte has no high bit, and is no number.
def parseLength (buf : List UInt8) (lp : Number) : Except Error (Number × Number) :=
  match byteAt buf lp with
  | none       => .ok (none, lp.map (· + 1))
  | some first =>
    if first < 0x80 then .ok (some first.toNat, lp.map (· + 1))
    else if first.toNat - 0x80 = 0 ∨ 4 < first.toNat - 0x80 then
      .error (tokenMalformed "DER: bad length form")
    else parseLong buf (first.toNat - 0x80) 0 (lp.getD 0 + 1)

def parseTlv (buf : List UInt8) (offset : Number) : Except Error ParsedTlv :=
  if Number.reaches offset buf.length then .error (tokenMalformed "DER: truncated at tag")
  else if Number.reaches (offset.map (· + 1)) buf.length then .error (tokenMalformed "DER: truncated at length")
  else do
    let (len, lp) ← parseLength buf (offset.map (· + 1))
    let stop := Number.add lp len
    if Number.reaches stop (buf.length + 1) then .error (tokenMalformed "DER: content exceeds buffer")
    else return {
      tag     := byteAt buf offset
      content := slice buf lp stop
      total   := Number.add stop (offset.map (- ·)) }

-- The value of big-endian bytes.
def bigEndian (bs : List UInt8) : Nat :=
  bs.foldl (fun n b => n * 256 + b.toNat) 0

-- The length that a field declares.
inductive Declares : List UInt8 → Nat → Prop
  | short {b : UInt8} (low : b < 0x80) : Declares [b] b.toNat
  | long {b : UInt8} {bs : List UInt8} (high : 0x80 ≤ b) (length : bs.length = b.toNat - 0x80)
    (pos : 0 < bs.length) (le : bs.length ≤ 4) : Declares (b :: bs) (bigEndian bs)

-- The bytes begin with an element: a tag, the length of the content, and the content.
inductive Element : List UInt8 → ParsedTlv → Prop
  | intro {tag : UInt8} {field content rest : List UInt8} (declares : Declares field content.length) :
    Element (tag :: (field ++ (content ++ rest)))
      ⟨some tag, content, some ((1 + field.length + content.length : Nat) : Int)⟩

-- The element is one of the buffer's.
structure Inside (buf : List UInt8) (offset : Nat) (t : ParsedTlv) : Prop where
  element : Element (buf.drop offset) t
  bounds  : ∃ total : Nat, t.total = some (total : Int) ∧ 2 ≤ total ∧ offset + total ≤ buf.length

structure ReadsTlv (buf : List UInt8) (offset : Nat) : Prop where
  throws  : ∀ e, parseTlv buf (some offset) = .error e → e.HasCode .tokenMalformed
  returns : ∀ t, parseTlv buf (some offset) = .ok t → Inside buf offset t

-- A length of four bytes that is negative in 32 bits.
def NegativeLength : List UInt8 → Prop
  | _ :: l :: b :: _ :: _ :: _ :: _ => l = 0x84 ∧ 0x80 ≤ b
  | _                               => False

def RoundTrips (tag : UInt8) (content : List UInt8) : Prop :=
  ∃ t, parseTlv (tlv tag content) (some 0) = .ok t ∧ t.tag = some tag ∧ t.content = content

section Bytes

theorem bigEndian_append (bs : List UInt8) (b : UInt8) : bigEndian (bs ++ [b]) = bigEndian bs * 256 + b.toNat := by
  simp [bigEndian]

theorem bigEndian_lt (bs : List UInt8) : bigEndian bs < 256 ^ bs.length := by
  induction bs using List.reverseRecOn
  case nil => simp [bigEndian]
  case append_singleton bs b ih =>
    have := b.toNat_lt
    rw [bigEndian_append, List.length_append, List.length_singleton, Nat.pow_succ]
    omega

theorem bigEndian_lt_of_length {bs : List UInt8} (h : bs.length ≤ 4) : bigEndian bs < 2 ^ 32 :=
  calc bigEndian bs
    _ < 256 ^ bs.length := bigEndian_lt bs
    _ ≤ 256 ^ 4         := Nat.pow_le_pow_right (by decide) h
    _ = 2 ^ 32          := by simp

theorem foldl_bmod (m n : Nat) (bs : List UInt8) :
    bs.foldl (fun (len : Int) b => (len * 256 + b.toNat).bmod m) (Int.bmod n m) =
      Int.bmod ((bs.foldl (fun n b => n * 256 + b.toNat) n : Nat) : Int) m := by
  induction bs generalizing n
  case nil => rfl
  case cons b bs ih =>
    have hs : (Int.bmod n m * 256 + b.toNat).bmod m = Int.bmod ((n * 256 + b.toNat : Nat) : Int) m := by
      simp only [Int.natCast_add, Int.natCast_mul]
      rw [← Int.bmod_add_bmod, Int.bmod_mul_bmod, Int.bmod_add_bmod]
      rfl
    rw [List.foldl_cons, hs, ih, List.foldl_cons]

theorem foldl_shiftIn (bs : List UInt8) : bs.foldl shiftIn 0 = Int.bmod (bigEndian bs) (2 ^ 32) := by
  have h := foldl_bmod (2 ^ 32) 0 bs
  have hz : Int.bmod (0 : Nat) (2 ^ 32) = 0 := by decide
  rw [hz] at h
  exact h

theorem byteAt_ofNat (buf : List UInt8) (i : Nat) : byteAt buf (some (i : Int)) = buf[i]? := rfl

-- The length is read in 32 bits.
theorem parseLong_eq {buf bs : List UInt8} {i : Nat} (h : buf.drop i = bs) (n : Nat) (len : Int) :
    parseLong buf n len i = if n ≤ bs.length then .ok (some ((bs.take n).foldl shiftIn len), some ((i + n : Nat) : Int))
      else .error (tokenMalformed "DER: truncated multi-byte length") := by
  induction n generalizing i len bs
  case zero => simp [parseLong]
  case succ n ih =>
    have hi : buf[i]? = bs[0]? := by simp [← h]
    rw [parseLong, byteAt_ofNat, hi]
    cases bs
    case nil => simp
    case cons b bs =>
      have ht : buf.drop (i + 1) = bs := by rw [← List.drop_drop, h, List.drop_succ_cons, List.drop_zero]
      have hr := ih ht (shiftIn len b)
      simp only [List.getElem?_cons_zero, List.length_cons, Nat.add_le_add_iff_right, List.take_succ_cons,
        List.foldl_cons]
      rw [show i + (n + 1) = i + 1 + n by omega]
      exact hr

theorem bmod_of_lt {n : Nat} (h : n < 2 ^ 31) : Int.bmod n (2 ^ 32) = n := by
  rw [Int.bmod_def]
  omega

theorem bmod_of_le {n : Nat} (h : 2 ^ 31 ≤ n) (hn : n < 2 ^ 32) : Int.bmod n (2 ^ 32) = n - 2 ^ 32 := by
  rw [Int.bmod_def]
  omega

theorem bigEndian_four (b c d e : UInt8) :
    bigEndian [b, c, d, e] = b.toNat * 2 ^ 24 + c.toNat * 2 ^ 16 + d.toNat * 2 ^ 8 + e.toNat := by
  simp [bigEndian]
  omega

theorem slice_ofNat {buf rest : List UInt8} {i : Nat} (h : buf.drop i = rest) (n : Nat) :
    slice buf (some (i : Int)) (some ((i + n : Nat) : Int)) = rest.take n := by
  simp only [slice, clamp, Option.getD_some]
  rw [← h, if_neg (by omega), if_neg (by omega), Int.toNat_natCast, Int.toNat_natCast, List.take_drop]

theorem length_slice_le (buf : List UInt8) (start : Nat) (stop : Int) :
    (slice buf (some (start : Int)) (some stop)).length ≤ clamp buf.length stop - start := by
  have hc : clamp buf.length (start : Int) = start := by
    rw [clamp, if_neg (by omega), Int.toNat_natCast]
  simp only [slice, Option.getD_some, hc, List.length_drop, List.length_take]
  omega

end Bytes

section Reading

variable {buf rest : List UInt8} {o : Nat} {tag first : UInt8}

theorem parseTlv_of_length {len : Int} {i : Nat} (h : buf.drop o = tag :: first :: rest)
    (hl : parseLength buf (some ((o + 1 : Nat) : Int)) = .ok (some len, some (i : Int))) :
    parseTlv buf (some (o : Int)) =
      if (buf.length : Int) + 1 ≤ i + len then .error (tokenMalformed "DER: content exceeds buffer")
      else .ok ⟨some tag, slice buf (some (i : Int)) (some (i + len)), some (i + len - o)⟩ := by
  have hn : buf.length = o + (rest.length + 2) := by
    have := congrArg List.length h
    simp at this
    omega
  have ht : buf[o]? = some tag := by
    have := congrArg (·[0]?) h
    simpa using this
  have hr : ¬ Number.reaches (some (o : Int)) buf.length := by simp [Number.reaches]; omega
  have hs : ¬ Number.reaches (some ((o + 1 : Nat) : Int)) buf.length := by simp [Number.reaches]; omega
  simp only [parseTlv, Option.map_some]
  rw [if_neg hr, if_neg (by exact hs)]
  simp only [← Int.natCast_succ, hl, byteAt_ofNat, ht]
  simp only [bind, Except.bind, pure, Except.pure, Int.sub_eq_add_neg, Number.add, Number.reaches, Option.bind_some,
    Option.map_some, Option.any_some, decide_eq_true_eq]

theorem parseLength_short (h : buf.drop o = tag :: first :: rest) (low : first < 0x80) :
    parseLength buf (some ((o + 1 : Nat) : Int)) = .ok (some (first.toNat : Int), some ((o + 2 : Nat) : Int)) := by
  have hf : buf[o + 1]? = some first := by
    have := congrArg (·[1]?) h
    simpa using this
  simp only [parseLength, byteAt_ofNat, hf, if_pos low]
  rfl

theorem parseLength_bad (h : buf.drop o = tag :: first :: rest) (high : ¬first < 0x80)
    (bad : first.toNat - 0x80 = 0 ∨ 4 < first.toNat - 0x80) :
    parseLength buf (some ((o + 1 : Nat) : Int)) = .error (tokenMalformed "DER: bad length form") := by
  have hf : buf[o + 1]? = some first := by
    have := congrArg (·[1]?) h
    simpa using this
  simp only [parseLength, byteAt_ofNat, hf, if_neg high, if_pos bad]

theorem parseLength_long (h : buf.drop o = tag :: first :: rest) (high : ¬first < 0x80)
    (form : ¬(first.toNat - 0x80 = 0 ∨ 4 < first.toNat - 0x80)) :
    parseLength buf (some ((o + 1 : Nat) : Int)) =
      if first.toNat - 0x80 ≤ rest.length then
        .ok (some (Int.bmod (bigEndian (rest.take (first.toNat - 0x80))) (2 ^ 32)),
          some ((o + 2 + (first.toNat - 0x80) : Nat) : Int))
      else .error (tokenMalformed "DER: truncated multi-byte length") := by
  have hf : buf[o + 1]? = some first := by
    have := congrArg (·[1]?) h
    simpa using this
  have hr : buf.drop (o + 2) = rest := by
    rw [← List.drop_drop, h]
    rfl
  have hl := parseLong_eq hr (first.toNat - 0x80) 0
  rw [foldl_shiftIn] at hl
  simp only [parseLength, byteAt_ofNat, hf, if_neg high, if_neg form]
  exact hl

theorem parseLength_bytes {bs tail : List UInt8} (h : buf.drop o = tag :: first :: (bs ++ tail))
    (hf : first.toNat = 0x80 + bs.length) (pos : 0 < bs.length) (le : bs.length ≤ 4) :
    parseLength buf (some ((o + 1 : Nat) : Int)) =
      .ok (some (Int.bmod (bigEndian bs) (2 ^ 32)), some ((o + 2 + bs.length : Nat) : Int)) := by
  have high : ¬first < 0x80 := by
    intro h
    have := UInt8.lt_iff_toNat_lt.mp h
    simp at this
    omega
  have hn : first.toNat - 0x80 = bs.length := by omega
  have hl := parseLength_long h high (by omega)
  rw [hn, if_pos (by simp), List.take_left] at hl
  exact hl

theorem declares_pos {field : List UInt8} {n : Nat} (d : Declares field n) : 0 < field.length := by
  cases d <;> simp

-- What is read within the buffer is the element there.
theorem inside_of_declares {field : List UInt8} {n : Nat} (h : buf.drop o = tag :: (field ++ rest))
    (d : Declares field n) (le : n ≤ rest.length) :
    Inside buf o ⟨some tag, rest.take n, some ((1 + field.length + n : Nat) : Int)⟩ := by
  have hn : buf.length - o = 1 + field.length + rest.length := by
    have := congrArg List.length h
    simp at this
    omega
  have hc : (rest.take n).length = n := by
    rw [List.length_take, Nat.min_eq_left le]
  have pos := declares_pos d
  refine ⟨?_, _, rfl, by omega, by omega⟩
  rw [h]
  conv => lhs; rw [← List.take_append_drop n rest]
  have he : Element (tag :: (field ++ (rest.take n ++ rest.drop n)))
      ⟨some tag, rest.take n, some ((1 + field.length + (rest.take n).length : Nat) : Int)⟩ := .intro (hc.symm ▸ d)
  rw [hc] at he
  exact he

end Reading

section Totals

variable {buf rest : List UInt8} {o : Nat} {tag b c d e : UInt8} {t : ParsedTlv}

theorem declares_four {field tail : List UInt8} {n : Nat} (h : field ++ tail = 0x84 :: b :: c :: d :: e :: rest)
    (declares : Declares field n) : field.length = 5 ∧ n = bigEndian [b, c, d, e] := by
  cases declares
  case short low =>
    have h0 := (List.cons.inj h).1
    rw [h0] at low
    exact absurd low (by decide)
  case long l bs high length pos le =>
    have ⟨h0, h1⟩ := List.cons.inj h
    have hl : bs.length = 4 := by
      rw [length, h0]
      rfl
    have hb : bs = [b, c, d, e] := by
      have ht : (bs ++ tail).take 4 = bs := List.take_left' hl
      rw [show bs ++ tail = b :: c :: d :: e :: rest from h1] at ht
      exact ht.symm
    exact ⟨by rw [List.length_cons, hl], by rw [hb]⟩

theorem Element.total_four (h : Element (tag :: 0x84 :: b :: c :: d :: e :: rest) t) :
    t.total = some ((6 + bigEndian [b, c, d, e] : Nat) : Int) := by
  generalize hs : tag :: 0x84 :: b :: c :: d :: e :: rest = bs at h
  cases h
  case intro declares =>
    have ⟨hf, hn⟩ := declares_four (List.cons.inj hs).2.symm declares
    rw [hf, hn]

theorem parseTlv_four (h : buf.drop o = tag :: 0x84 :: b :: c :: d :: e :: rest) :
    parseTlv buf (some (o : Int)) =
      if (buf.length : Int) + 1 ≤ (o + 6 : Nat) + Int.bmod (bigEndian [b, c, d, e]) (2 ^ 32) then
        .error (tokenMalformed "DER: content exceeds buffer")
      else .ok ⟨some tag, slice buf (some ((o + 6 : Nat) : Int))
          (some ((o + 6 : Nat) + Int.bmod (bigEndian [b, c, d, e]) (2 ^ 32))),
        some ((o + 6 : Nat) + Int.bmod (bigEndian [b, c, d, e]) (2 ^ 32) - o)⟩ := by
  have hl := parseLength_long h (by decide) (by decide)
  rw [if_pos (by simp)] at hl
  exact parseTlv_of_length h hl

theorem negativeLength_iff {bs : List UInt8} : NegativeLength bs ↔
    ∃ tag b c d e rest, bs = tag :: 0x84 :: b :: c :: d :: e :: rest ∧ 0x80 ≤ b := by
  constructor
  · intro h
    match bs, h with
    | tag :: l :: b :: c :: d :: e :: rest, ⟨hl, high⟩ => exact ⟨tag, b, c, d, e, rest, hl ▸ rfl, high⟩
  · intro ⟨tag, b, c, d, e, rest, hb, high⟩
    exact hb ▸ ⟨rfl, high⟩

theorem bigEndian_four_ge (high : 0x80 ≤ b) : 2 ^ 31 ≤ bigEndian [b, c, d, e] := by
  have := UInt8.le_iff_toNat_le.mp high
  rw [bigEndian_four]
  simp at this
  omega

theorem bigEndian_four_lt (low : ¬0x80 ≤ b) : bigEndian [b, c, d, e] < 2 ^ 31 := by
  have hb : ¬ 128 ≤ b.toNat := fun h => low (UInt8.le_iff_toNat_le.mpr h)
  have := c.toNat_lt
  have := d.toNat_lt
  have := e.toNat_lt
  rw [bigEndian_four]
  omega

-- A negative length moves the end of the content before its begin.
theorem not_readsTlv_of_negative (h : NegativeLength (buf.drop o)) : ¬ReadsTlv buf o := by
  intro hr
  have ⟨tag, b, c, d, e, rest, hb, high⟩ := negativeLength_iff.mp h
  have hlt : bigEndian [b, c, d, e] < 2 ^ 32 := bigEndian_lt_of_length (Nat.le_refl 4)
  have hm := bmod_of_le (bigEndian_four_ge (c := c) (d := d) (e := e) high) hlt
  have hn : buf.length = o + (rest.length + 6) := by
    have := congrArg List.length hb
    simp at this
    omega
  have hp := parseTlv_four hb
  rw [hm, if_neg (by omega)] at hp
  have ht := (hr.returns _ hp).element
  rw [hb] at ht
  have := Option.some.inj ht.total_four
  omega

theorem readsTlv_of_malformed {m : String} (h : parseTlv buf (some (o : Int)) = .error (tokenMalformed m)) :
    ReadsTlv buf o where
  throws e he := by
    rw [h] at he
    exact Except.error.inj he ▸ hasCode_newError _ _
  returns t ht := by
    rw [h] at ht
    cases ht

theorem parseTlv_of_declares {first : UInt8} {bs tail : List UInt8} {n : Nat}
    (h : buf.drop o = tag :: first :: (bs ++ tail))
    (hl : parseLength buf (some ((o + 1 : Nat) : Int)) =
      .ok (some (n : Int), some ((o + 2 + bs.length : Nat) : Int))) :
    parseTlv buf (some (o : Int)) =
      if n ≤ tail.length then .ok ⟨some tag, tail.take n, some ((1 + (first :: bs).length + n : Nat) : Int)⟩
      else .error (tokenMalformed "DER: content exceeds buffer") := by
  have hn : buf.length = o + (2 + bs.length + tail.length) := by
    have := congrArg List.length h
    simp at this
    omega
  have hp := parseTlv_of_length h hl
  cases Nat.lt_or_ge tail.length n
  case inl lt => rw [hp, if_pos (by omega), if_neg (by omega)]
  case inr le =>
    have hd : buf.drop (o + 2 + bs.length) = tail := by
      rw [Nat.add_assoc, ← List.drop_drop, h, ← List.drop_drop]
      exact List.drop_left
    have ht : ((o + 2 + bs.length : Nat) : Int) + n - o = ((1 + (first :: bs).length + n : Nat) : Int) := by
      simp
      omega
    have hs := slice_ofNat hd n
    rw [Int.natCast_add _ n] at hs
    rw [hp, if_neg (by omega), if_pos le, hs, ht]

theorem readsTlv_of_declares {first : UInt8} {bs tail : List UInt8} {n : Nat}
    (h : buf.drop o = tag :: first :: (bs ++ tail)) (declares : Declares (first :: bs) n)
    (hl : parseLength buf (some ((o + 1 : Nat) : Int)) =
      .ok (some (n : Int), some ((o + 2 + bs.length : Nat) : Int))) : ReadsTlv buf o := by
  have hp := parseTlv_of_declares h hl
  by_cases le : n ≤ tail.length
  case pos =>
    rw [if_pos le] at hp
    exact {
      throws := fun e he => by
        rw [hp] at he
        cases he
      returns := fun t ht => by
        rw [hp] at ht
        exact Except.ok.inj ht ▸ inside_of_declares h declares le }
  case neg =>
    rw [if_neg le] at hp
    exact readsTlv_of_malformed hp

theorem parseTlv_truncated (buf : List UInt8) (o : Nat) (h : (buf.drop o).length ≤ 1) :
    ∃ m, parseTlv buf (some (o : Int)) = .error (tokenMalformed m) := by
  rw [List.length_drop] at h
  have hs : Number.reaches ((some (o : Int)).map (· + 1)) buf.length := by simp [Number.reaches]; omega
  cases Nat.lt_or_ge o buf.length
  case inl lt =>
    have hr : ¬Number.reaches (some (o : Int)) buf.length := by simp [Number.reaches]; omega
    exact ⟨_, by rw [parseTlv, if_neg hr, if_pos hs]⟩
  case inr le =>
    have hr : Number.reaches (some (o : Int)) buf.length := by simp [Number.reaches]; omega
    exact ⟨_, by rw [parseTlv, if_pos hr]⟩

theorem parseTlv_of_parseLength {first : UInt8} {e : Error} (h : buf.drop o = tag :: first :: rest)
    (hl : parseLength buf (some ((o + 1 : Nat) : Int)) = .error e) : parseTlv buf (some (o : Int)) = .error e := by
  have hn : buf.length = o + (rest.length + 2) := by
    have := congrArg List.length h
    simp at this
    omega
  have hr : ¬ Number.reaches (some (o : Int)) buf.length := by simp [Number.reaches]; omega
  have hs : ¬ Number.reaches (some ((o + 1 : Nat) : Int)) buf.length := by simp [Number.reaches]; omega
  simp only [parseTlv, Option.map_some]
  rw [if_neg hr, if_neg (by exact hs)]
  simp only [← Int.natCast_succ, hl]
  rfl

theorem exists_four {bs : List UInt8} (h : bs.length = 4) : ∃ b c d e, bs = [b, c, d, e] :=
  match bs, h with
  | [b, c, d, e], _ => ⟨b, c, d, e, rfl⟩

theorem bigEndian_lt_of_not_negative {first : UInt8} {bs tail : List UInt8}
    (h : ¬NegativeLength (tag :: first :: (bs ++ tail))) (hf : bs.length = first.toNat - 0x80) (le : bs.length ≤ 4) :
    bigEndian bs < 2 ^ 31 := by
  cases Nat.lt_or_ge bs.length 4
  case inl lt =>
    calc bigEndian bs
      _ < 256 ^ bs.length := bigEndian_lt bs
      _ ≤ 256 ^ 3         := Nat.pow_le_pow_right (by decide) (by omega)
      _ ≤ 2 ^ 31          := by simp
  case inr ge =>
    have ⟨b, c, d, e, hb⟩ := exists_four (Nat.le_antisymm le ge)
    have h0 : first = 0x84 := by
      apply UInt8.toNat_inj.mp
      simp
      omega
    rw [hb, h0] at h
    exact hb ▸ bigEndian_four_lt fun high => h ⟨rfl, high⟩

theorem readsTlv_of_not_negative (h : ¬NegativeLength (buf.drop o)) : ReadsTlv buf o := by
  cases hb : buf.drop o
  case nil =>
    have ⟨_, he⟩ := parseTlv_truncated buf o (by simp [hb])
    exact readsTlv_of_malformed he
  case cons tag bs =>
  cases bs
  case nil =>
    have ⟨_, he⟩ := parseTlv_truncated buf o (by simp [hb])
    exact readsTlv_of_malformed he
  case cons first rest =>
  by_cases low : first < 0x80
  case pos =>
    have hd : buf.drop o = tag :: first :: ([] ++ rest) := hb
    exact readsTlv_of_declares hd (.short low) (parseLength_short hb low)
  case neg =>
  by_cases bad : first.toNat - 0x80 = 0 ∨ 4 < first.toNat - 0x80
  case pos => exact readsTlv_of_malformed (parseTlv_of_parseLength hb (parseLength_bad hb low bad))
  case neg =>
  cases Nat.lt_or_ge rest.length (first.toNat - 0x80)
  case inl lt =>
    have hl := parseLength_long hb low bad
    rw [if_neg (by omega)] at hl
    exact readsTlv_of_malformed (parseTlv_of_parseLength hb hl)
  case inr le =>
    have hn : (rest.take (first.toNat - 0x80)).length = first.toNat - 0x80 := by
      rw [List.length_take, Nat.min_eq_left le]
    have hd : buf.drop o = tag :: first ::
        (rest.take (first.toNat - 0x80) ++ rest.drop (first.toNat - 0x80)) := by rw [hb, List.take_append_drop]
    have lt := bigEndian_lt_of_not_negative (hd ▸ h) hn (by omega)
    have hl := parseLength_bytes hd (by omega) (by omega) (by omega)
    rw [bmod_of_lt lt] at hl
    exact readsTlv_of_declares hd (.long (UInt8.not_lt.mp low) hn (by omega) (by omega)) hl

-- Reading goes wrong where a length of four bytes is negative in 32 bits.
theorem readsTlv_iff : ReadsTlv buf o ↔ ¬NegativeLength (buf.drop o) where
  mp hr hn := not_readsTlv_of_negative hn hr
  mpr      := readsTlv_of_not_negative

end Totals

section RoundTrip

variable {tag : UInt8} {content : List UInt8} {n : Nat}

theorem bigEndian_ofNat_four (n : Nat) :
    bigEndian [.ofNat (n / 2 ^ 24), .ofNat (n / 2 ^ 16), .ofNat (n / 2 ^ 8), .ofNat n] = n % 2 ^ 32 := by
  rw [bigEndian_four]
  simp only [UInt8.toNat_ofNat']
  omega

theorem bigEndian_ofNat_three (h : n < 2 ^ 24) : bigEndian [.ofNat (n / 2 ^ 16), .ofNat (n / 2 ^ 8), .ofNat n] = n := by
  simp only [bigEndian, List.foldl_cons, List.foldl_nil, UInt8.toNat_ofNat']
  omega

theorem bigEndian_ofNat_two (h : n < 2 ^ 16) : bigEndian [.ofNat (n / 2 ^ 8), .ofNat n] = n := by
  simp only [bigEndian, List.foldl_cons, List.foldl_nil, UInt8.toNat_ofNat']
  omega

theorem bigEndian_ofNat_one (h : n < 2 ^ 8) : bigEndian [.ofNat n] = n := by
  simp only [bigEndian, List.foldl_cons, List.foldl_nil, UInt8.toNat_ofNat']
  omega

-- A length is written in the short form, or in bytes whose value it is.
theorem encodeLen_cases (h : n < 2 ^ 32) :
    (n < 0x80 ∧ encodeLen n = [.ofNat n]) ∨ ∃ bs, encodeLen n = .ofNat (0x80 + bs.length) :: bs ∧
      0 < bs.length ∧ bs.length ≤ 4 ∧ bigEndian bs = n := by
  by_cases h1 : n < 0x80
  case pos => exact .inl ⟨h1, if_pos h1⟩
  case neg =>
  by_cases h2 : n < 0x100
  case pos => exact .inr ⟨[.ofNat n], by rw [encodeLen, if_neg h1, if_pos h2]; rfl, by simp, by simp,
    bigEndian_ofNat_one h2⟩
  case neg =>
  by_cases h3 : n < 0x10000
  case pos => exact .inr ⟨[.ofNat (n / 2 ^ 8), .ofNat n], by rw [encodeLen, if_neg h1, if_neg h2, if_pos h3]; rfl,
    by simp, by simp, bigEndian_ofNat_two h3⟩
  case neg =>
  by_cases h4 : n < 0x1000000
  case pos => exact .inr ⟨[.ofNat (n / 2 ^ 16), .ofNat (n / 2 ^ 8), .ofNat n],
    by rw [encodeLen, if_neg h1, if_neg h2, if_neg h3, if_pos h4]; rfl, by simp, by simp, bigEndian_ofNat_three h4⟩
  case neg => exact .inr ⟨[.ofNat (n / 2 ^ 24), .ofNat (n / 2 ^ 16), .ofNat (n / 2 ^ 8), .ofNat n],
    by rw [encodeLen, if_neg h1, if_neg h2, if_neg h3, if_neg h4]; rfl, by simp, by simp,
    by rw [bigEndian_ofNat_four, Nat.mod_eq_of_lt h]⟩

-- The field that is written is read back.
theorem parseLength_encodeLen {buf tail : List UInt8} {o : Nat} (h : n < 2 ^ 31)
    (hb : buf.drop o = tag :: (encodeLen n ++ tail)) :
    ∃ first bs, encodeLen n = first :: bs ∧ parseLength buf (some ((o + 1 : Nat) : Int)) =
      .ok (some (n : Int), some ((o + 2 + bs.length : Nat) : Int)) := by
  cases encodeLen_cases (Nat.lt_trans h (by simp))
  case inl he =>
    have ⟨lt, he⟩ := he
    have hn : (UInt8.ofNat n).toNat = n := by
      rw [UInt8.toNat_ofNat']
      omega
    rw [he] at hb
    have hl := parseLength_short hb (UInt8.lt_iff_toNat_lt.mpr (hn.symm ▸ lt))
    rw [hn] at hl
    exact ⟨_, [], he, hl⟩
  case inr he =>
    have ⟨bs, he, pos, le, hv⟩ := he
    have hn : (UInt8.ofNat (0x80 + bs.length)).toNat = 0x80 + bs.length := by
      rw [UInt8.toNat_ofNat']
      omega
    rw [he] at hb
    have hl := parseLength_bytes hb hn pos le
    rw [hv, bmod_of_lt h] at hl
    exact ⟨_, bs, he, hl⟩

-- What is written is read back, wherever it stands.
theorem parseTlv_tlv (h : content.length < 2 ^ 31) (before behind : List UInt8) :
    parseTlv (before ++ (tlv tag content ++ behind)) (some (before.length : Int)) =
      .ok ⟨some tag, content, some ((tlv tag content).length : Int)⟩ := by
  have hb : (before ++ (tlv tag content ++ behind)).drop before.length =
      tag :: (encodeLen content.length ++ (content ++ behind)) := by
    rw [List.drop_left, tlv, List.cons_append, List.append_assoc]
  have ⟨first, bs, he, hl⟩ := parseLength_encodeLen h hb
  rw [he] at hb
  have hp := parseTlv_of_declares hb hl
  have hn : 1 + (first :: bs).length + content.length = (tlv tag content).length := by
    rw [tlv, he]
    simp
    omega
  rw [if_pos (by simp), List.take_left, hn] at hp
  exact hp

theorem roundTrips_of_lt (h : content.length < 2 ^ 31) : RoundTrips tag content := by
  have hp := @parseTlv_tlv tag content h [] []
  rw [List.nil_append, List.append_nil] at hp
  exact ⟨_, hp, rfl, rfl⟩

-- The bytes of a longer content are not all read.
theorem not_roundTrips_of_le (h : 2 ^ 31 ≤ content.length) : ¬RoundTrips tag content := by
  intro ⟨t, ht, _, hc⟩
  have he : encodeLen content.length = [0x84, .ofNat (content.length / 2 ^ 24), .ofNat (content.length / 2 ^ 16),
      .ofNat (content.length / 2 ^ 8), .ofNat content.length] := by
    rw [encodeLen, if_neg (by omega), if_neg (by omega), if_neg (by omega), if_neg (by omega)]
  have hb : (tlv tag content).drop 0 = tag :: 0x84 :: .ofNat (content.length / 2 ^ 24) ::
      .ofNat (content.length / 2 ^ 16) :: .ofNat (content.length / 2 ^ 8) :: .ofNat content.length :: content := by
    rw [tlv, he]
    rfl
  have hp := parseTlv_four hb
  rw [bigEndian_ofNat_four] at hp
  have hn : (tlv tag content).length = 6 + content.length := by
    rw [tlv, he]
    simp
    omega
  -- Either the low 32 bits declare less, or the end counts from the buffer's end.
  have hm : (content.length % 2 ^ 32 : Nat) < 2 ^ 31 ∧
        Int.bmod (content.length % 2 ^ 32 : Nat) (2 ^ 32) = (content.length % 2 ^ 32 : Nat) ∨
      Int.bmod (content.length % 2 ^ 32 : Nat) (2 ^ 32) = (content.length % 2 ^ 32 : Nat) - 2 ^ 32 := by
    cases Nat.lt_or_ge (content.length % 2 ^ 32) (2 ^ 31)
    case inl lt => exact .inl ⟨lt, bmod_of_lt lt⟩
    case inr ge => exact .inr (bmod_of_le ge (Nat.mod_lt _ (by simp)))
  generalize Int.bmod (content.length % 2 ^ 32 : Nat) (2 ^ 32) = len at hp hm
  have hc' : clamp (tlv tag content).length (((0 + 6 : Nat) : Int) + len) < 6 + content.length := by
    rw [hn, clamp]
    split <;> omega
  have hs := length_slice_le (tlv tag content) (0 + 6) (((0 + 6 : Nat) : Int) + len)
  rw [if_neg (by omega)] at hp
  have hl : t.content = slice (tlv tag content) (some ((0 + 6 : Nat) : Int)) (some (((0 + 6 : Nat) : Int) + len)) :=
    congrArg ParsedTlv.content (Except.ok.inj (ht.symm.trans hp))
  rw [← hl, hc] at hs
  omega

theorem roundTrips_iff : RoundTrips tag content ↔ content.length < 2 ^ 31 where
  mp hr    := Nat.lt_of_not_le fun h => not_roundTrips_of_le h hr
  mpr      := roundTrips_of_lt

theorem length_tlv_le (tag : UInt8) (content : List UInt8) : (tlv tag content).length ≤ 6 + content.length := by
  have : (encodeLen content.length).length ≤ 5 := by
    rw [encodeLen]
    split
    case isTrue => simp
    case isFalse =>
    split
    case isTrue => simp
    case isFalse =>
    split
    case isTrue => simp
    case isFalse =>
    split <;> simp
  rw [tlv]
  simp
  omega

end RoundTrip

section Places

variable {buf : List UInt8} {t : ParsedTlv} {b : UInt8}

theorem parseTlv_tag {offset : Number} (h : parseTlv buf offset = .ok t) : t.tag = byteAt buf offset := by
  rw [parseTlv] at h
  split at h
  case isTrue => cases h
  case isFalse =>
  split at h
  case isTrue => cases h
  case isFalse =>
    obtain ⟨⟨len, lp⟩, -, h⟩ := bind_eq_ok_iff.mp h
    simp only at h
    split at h
    case isTrue  => cases h
    case isFalse =>
      cases h
      rfl

theorem slice_getElem {i : Nat} {stop : Number} (h : (slice buf (some (i : Int)) stop)[0]? = some b) :
    buf[i]? = some b := by
  have hi : clamp buf.length (i : Int) = i := by
    rw [clamp, if_neg (by omega), Int.toNat_natCast]
  simp only [slice, Option.getD_some, hi, List.getElem?_drop, List.getElem?_take, Nat.add_zero] at h
  split at h
  case isTrue  => exact h
  case isFalse => cases h

theorem content_of_length {tag first : UInt8} {rest : List UInt8} {len : Int} {i : Nat}
    (hl : parseLength (tag :: first :: rest) (some ((0 + 1 : Nat) : Int)) =
      .ok (some len, some ((0 + 2 + i : Nat) : Int)))
    (h : parseTlv (tag :: first :: rest) (some 0) = .ok t) (hb : t.content[0]? = some b) :
    t.tag = some tag ∧ rest[i]? = some b := by
  have hp := parseTlv_of_length (List.drop_zero ..) hl
  split at hp
  case isTrue => cases hp.symm.trans h
  case isFalse =>
    cases hp.symm.trans h
    have hs := slice_getElem hb
    rw [show 0 + 2 + i = i + 1 + 1 by omega] at hs
    exact ⟨rfl, hs⟩

-- A content is what is behind the length.
theorem content_head (h : parseTlv buf (some 0) = .ok t) (hb : t.content[0]? = some b) :
    ∃ tag first rest, buf = tag :: first :: rest ∧ t.tag = some tag ∧ rest[first.toNat - 0x80]? = some b := by
  match buf, h with
  | [],  h =>
    have ⟨_, he⟩ := parseTlv_truncated [] 0 (by simp)
    cases he.symm.trans h
  | [x], h =>
    have ⟨_, he⟩ := parseTlv_truncated [x] 0 (by simp)
    cases he.symm.trans h
  | tag :: first :: rest, h =>
    refine ⟨tag, first, rest, rfl, ?_⟩
    have hd : (tag :: first :: rest).drop 0 = tag :: first :: rest := List.drop_zero ..
    by_cases low : first < 0x80
    case pos =>
      have hn : first.toNat - 0x80 = 0 := Nat.sub_eq_zero_of_le (Nat.le_of_lt (UInt8.lt_iff_toNat_lt.mp low))
      rw [hn]
      exact content_of_length (parseLength_short hd low) h hb
    case neg =>
    by_cases bad : first.toNat - 0x80 = 0 ∨ 4 < first.toNat - 0x80
    case pos => cases (parseTlv_of_parseLength hd (parseLength_bad hd low bad)).symm.trans h
    case neg =>
    have hl := parseLength_long hd low bad
    split at hl
    case isTrue  => exact content_of_length hl h hb
    case isFalse => cases (parseTlv_of_parseLength hd hl).symm.trans h

end Places

end Der

end Licensing
