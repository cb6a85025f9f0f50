/-
# Decimal numbers as text

`ofDigits?` reads digits in a base; the other readers add a sign and the
bounds of a width.  A sign is one character; a minus is admitted only
where negative numbers are.
-/

namespace PhaseWire.Text

def digit? (base : Nat) (c : Char) : Option Nat :=
  let value :=
    if '0' ≤ c ∧ c ≤ '9' then c.toNat - 48
    else if 'a' ≤ c ∧ c ≤ 'f' then c.toNat - 87
    else if 'A' ≤ c ∧ c ≤ 'F' then c.toNat - 55
    else base
  if value < base then some value else none

def isDigit (c : Char) : Bool :=
  (digit? 10 c).isSome

def addDigits (base : Nat) (value : Nat) (digits : List Char) : Option Nat :=
  digits.foldlM (fun value c => (digit? base c).map (value * base + ·)) value

/-- The number that one or more digits write. -/
def ofDigits? (base : Nat) (digits : List Char) : Option Nat :=
  if digits.isEmpty then none else addDigits base 0 digits

/-- A number from zero up to `max`, perhaps behind a plus. -/
def unsigned? (max : Nat) (text : String) : Option Nat := do
  let digits := match text.toList with
    | '+' :: digits => digits
    | digits => digits
  let value ← ofDigits? 10 digits
  if value ≤ max then some value else none

def signed? (max : Nat) (text : String) : Option Int :=
  match text.toList with
  | '-' :: digits => do
    let value ← ofDigits? 10 digits
    if value ≤ max + 1 then some (-(value : Int)) else none
  | _ => (unsigned? max text).map Int.ofNat

end PhaseWire.Text
