import Licensing.Library.Bytes

-- Decoders of UTF-8 that replace what is not well-formed by U+FFFD. They differ in how many bytes one
-- replacement stands for.

namespace Utf8

-- Go replaces one byte at a time.
def replaceBytes : Nat → List UInt8 → List Char
  | 0,     _  => []
  | _ + 1, [] => []
  | n + 1, bs =>
    match [1, 2, 3, 4].findSome? fun k => (Bytes.toString? (bs.take k)).map fun s => (s.toList, k) with
    | some ([c], k) => c :: replaceBytes n (bs.drop k)
    | _             => '\ufffd' :: replaceBytes n (bs.drop 1)

-- The state of the decoder of the Encoding Standard: the bits of the character so far, how many
-- bytes are missing, and the bounds of the next byte.
structure State where
  code    : Nat := 0
  missing : Nat := 0
  lower   : Nat := 0x80
  upper   : Nat := 0xbf

def State.lead (b : Nat) : Option State :=
  if 0xc2 ≤ b ∧ b ≤ 0xdf then some { code := b % 32, missing := 1 }
  else if 0xe0 ≤ b ∧ b ≤ 0xef then
    some { code := b % 16, missing := 2, lower := if b = 0xe0 then 0xa0 else 0x80
           upper := if b = 0xed then 0x9f else 0xbf }
  else if 0xf0 ≤ b ∧ b ≤ 0xf4 then
    some { code := b % 8, missing := 3, lower := if b = 0xf0 then 0x90 else 0x80
           upper := if b = 0xf4 then 0x8f else 0xbf }
  else none

def replaceSequences : State → List UInt8 → List Char
  | s, []      => if s.missing = 0 then [] else ['\ufffd']
  | s, b :: bs =>
    let b := b.toNat
    if s.missing = 0 ∨ b < s.lower ∨ s.upper < b then
      -- An incomplete sequence is replaced, and the byte starts the next one.
      let rest :=
        if b < 0x80 then .ofNat b :: replaceSequences {} bs
        else match State.lead b with
          | some s => replaceSequences s bs
          | none   => '\ufffd' :: replaceSequences {} bs
      if s.missing = 0 then rest else '\ufffd' :: rest
    else
      let code := s.code * 64 + b % 64
      if s.missing = 1 then .ofNat code :: replaceSequences {} bs
      else replaceSequences { code := code, missing := s.missing - 1 } bs

def decodeBytes (bs : List UInt8) : List Char :=
  match Bytes.toString? bs with
  | some s => s.toList
  | none   => replaceBytes bs.length bs

def decodeSequences (bs : List UInt8) : List Char :=
  match Bytes.toString? bs with
  | some s => s.toList
  | none   => replaceSequences {} bs

@[simp]
theorem decodeBytes_ofString (s : String) : decodeBytes (Bytes.ofString s) = s.toList := by
  simp [decodeBytes]

@[simp]
theorem decodeSequences_ofString (s : String) : decodeSequences (Bytes.ofString s) = s.toList := by
  simp [decodeSequences]

end Utf8
