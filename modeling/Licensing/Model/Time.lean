import Licensing.Library.Rfc3339

namespace Licensing

open Rfc3339

namespace Go

-- `t.UTC().Format("2006-01-02T15:04:05.000000Z")` of a number of microseconds.
def isoFromTime (t : Int) : String :=
  .ofList <| dateTime year (t / 1000000) ++ fraction 6 (t % 1000000).toNat

def isoFromTimePtr (t : Option Int) : Option String :=
  t.map isoFromTime

-- A number of one or two digits, `fixed` if two are required.
def getnum (fixed : Bool) : List Char → Option (Nat × List Char)
  | c :: d :: cs =>
    if c.isDigit then
      if d.isDigit then some (Decimal.value c * 10 + Decimal.value d, cs)
      else if fixed then none
      else some (Decimal.value c, d :: cs)
    else none
  | [c] => if c.isDigit ∧ ¬fixed then some (Decimal.value c, []) else none
  | []  => none

def skip (c : Char) : List Char → Option (List Char)
  | d :: cs => if c = d then some cs else none
  | []      => none

-- An optional fraction of a second, cut off after nanoseconds.
def parseFraction : List Char → Int × List Char
  | c :: d :: cs =>
    if (c = '.' ∨ c = ',') ∧ d.isDigit then
      let ds := (d :: cs).takeWhile Char.isDigit
      let ns := (ds.take 9).foldl (fun n d => n * 10 + Decimal.value d) 0
      (ns * 10 ^ (9 - (ds.take 9).length), (d :: cs).dropWhile Char.isDigit)
    else (0, c :: d :: cs)
  | cs => (0, cs)

-- The zone `Z07:00` in seconds east of UTC. An offset of 24 hours or 60 minutes is let through.
def parseZone : List Char → Option (Int × List Char)
  | 'Z' :: cs => some (0, cs)
  | sign :: h₁ :: h₂ :: ':' :: m₁ :: m₂ :: cs => do
    let (hr, _) ← getnum true [h₁, h₂]
    let (mm, _) ← getnum true [m₁, m₂]
    if hr > 24 ∨ mm > 60 then none
    else
      let offset : Int := (hr * 60 + mm) * 60
      if sign = '+' then some (offset, cs)
      else if sign = '-' then some (-offset, cs)
      else none
  | _ => none

-- `time.Parse(time.RFC3339Nano, s)`, as nanoseconds.
def parseTime (s : String) : Option Int := do
  let (y, cs) ← Decimal.take 4 0 s.toList
  let cs ← skip '-' cs
  let (month, cs) ← getnum true cs
  if month < 1 ∨ 12 < month then none
  let cs ← skip '-' cs
  let (day, cs) ← getnum true cs
  let cs ← skip 'T' cs
  let (hour, cs) ← getnum false cs
  if 24 ≤ hour then none
  let cs ← skip ':' cs
  let (min, cs) ← getnum true cs
  if 60 ≤ min then none
  let cs ← skip ':' cs
  let (sec, cs) ← getnum true cs
  if 60 ≤ sec then none
  let (nsec, cs) := parseFraction cs
  let (offset, cs) ← parseZone cs
  if cs ≠ [] then none
  if day < 1 ∨ Date.daysIn y month < day then none
  let days := Date.toDays { year := y, month := month, day := day }
  return (days * 86400 + hour * 3600 + min * 60 + sec - offset) * 1000000000 + nsec

-- What the driver sends for a timestamp: the microsecond it lies in.
def tsVal? (s : String) : Option Int :=
  (parseTime s).map (· / 1000)

-- An unreadable text is sent as null.
def tsOrNull (s : Option String) : Option Int :=
  s.bind tsVal?

-- The zero `time.Time`, 0001-01-01T00:00:00Z, is what an unreadable text becomes.
def tsVal (s : String) : Int :=
  (tsVal? s).getD (-62135596800000000)

end Go

namespace Ts

-- `new Date(ms).toISOString()`, extended to microseconds.
def isoFromMs (ms : Int) : String :=
  .ofList <| dateTime expandedYear (ms / 1000) ++ fraction 6 ((ms % 1000).toNat * 1000)

-- The driver hands a timestamp over as a `Date`, which counts milliseconds.
def toIso (t : Int) : String :=
  isoFromMs (t / 1000)

end Ts

end Licensing
