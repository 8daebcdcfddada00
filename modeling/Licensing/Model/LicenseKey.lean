import Licensing.Model.Errors

-- The keys that users type.

namespace Licensing

namespace Go

def crockfordAlphabet : List Char :=
  "0123456789ABCDEFGHJKMNPQRSTVWXYZ".toList

-- `(?:-[0-9A-HJKMNP-TV-Z]{4})*`, as the number of groups.
def keyGroups : List Char → Option Nat
  | [] => some 0
  | '-' :: a :: b :: c :: d :: cs =>
    if [a, b, c, d].all (· ∈ crockfordAlphabet) then (keyGroups cs).map (· + 1) else none
  | _ => none

-- `licenseKeyRegex`.
def isLicenseKey : List Char → Bool
  | 'L' :: 'I' :: 'C' :: cs => (keyGroups cs).any (5 ≤ ·)
  | _                       => false

-- `unicode.IsSpace`.
def isSpace (c : Char) : Bool :=
  c.toNat ∈ [0x9, 0xa, 0xb, 0xc, 0xd, 0x20, 0x85, 0xa0, 0x1680, 0x2028, 0x2029, 0x202f, 0x205f, 0x3000] ∨
    0x2000 ≤ c.toNat ∧ c.toNat ≤ 0x200a

def trimSpace (cs : List Char) : List Char :=
  ((cs.dropWhile isSpace).reverse.dropWhile isSpace).reverse

-- `unicode.ToUpper`, as far as the result is a character of a key: besides the letters of ASCII these
-- are the upper cases of `ı` and `ſ`.
def toUpper (c : Char) : Char :=
  if c = 'ı' then 'I' else if c = 'ſ' then 'S' else c.toUpper

def normalizeLicenseKey (input : String) : Option String :=
  let trimmed := (trimSpace input.toList).map toUpper
  if isLicenseKey trimmed then some (.ofList trimmed) else none

def assertLicenseKey (input : String) : Except Error String :=
  match normalizeLicenseKey input with
  | none            => .error (newError .invalidLicenseKey "license key format is invalid or unrecognized")
  | some normalized => .ok normalized

end Go

namespace Ts

-- The white space and the line terminators that `trim` removes.
def isSpace (c : Char) : Bool :=
  c.toNat ∈ [0x9, 0xa, 0xb, 0xc, 0xd, 0x20, 0xa0, 0x1680, 0x2028, 0x2029, 0x202f, 0x205f, 0x3000, 0xfeff] ∨
    0x2000 ≤ c.toNat ∧ c.toNat ≤ 0x200a

def trim (cs : List Char) : List Char :=
  ((cs.dropWhile isSpace).reverse.dropWhile isSpace).reverse

-- `toUpperCase`, as far as the result is made of characters of a key. Some letters and ligatures become
-- two of them.
def toUpperCase (c : Char) : List Char :=
  if c = 'ß' then ['S', 'S']
  else if c = 'ﬀ' then ['F', 'F']
  else if c = 'ﬅ' ∨ c = 'ﬆ' then ['S', 'T']
  else if c = 'ı' then ['I']
  else if c = 'ſ' then ['S']
  else [c.toUpper]

def normalizeLicenseKey (input : String) : Option String :=
  let trimmed := (trim input.toList).flatMap toUpperCase
  if Go.isLicenseKey trimmed then some (.ofList trimmed) else none

def assertLicenseKey (input : String) : Except Error String :=
  match normalizeLicenseKey input with
  | none            => .error (newError .invalidLicenseKey "license key format is invalid or unrecognized")
  | some normalized => .ok normalized

end Ts

end Licensing
