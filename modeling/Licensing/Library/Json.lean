-- JSON values. A number keeps the literal it was written with.

inductive Json
  | null
  | bool (b : Bool)
  | num (lit : String)
  | str (s : String)
  | arr (xs : List Json)
  | obj (ms : List (String × Json))
  deriving Repr, Inhabited

namespace Json

abbrev Object := List (String × Json)

def ofNat (n : Nat) : Json :=
  num (toString n)

def ofInt (n : Int) : Json :=
  num (toString n)

def ofOption : Option String → Json
  | none   => null
  | some s => str s

def Object.get? (o : Object) (key : String) : Option Json :=
  o.lookup key

end Json
