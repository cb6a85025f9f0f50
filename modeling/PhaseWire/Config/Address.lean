import PhaseWire.Text.Number

/-
# `SocketAddress` — an internet address with a port

Version 4 is four decimal numbers without leading zeros.  Version 6 stands
in brackets, is eight hexadecimal groups of which one run of zeros may be
left out, may end in a version 4 address, and may name a numeric scope.
A port follows behind a colon.
-/

namespace PhaseWire

inductive SocketAddress
  | v4 (octets : List Nat) (port : Nat)
  | v6 (groups : List Nat) (scope port : Nat)
  deriving DecidableEq, Repr

namespace SocketAddress

open Text

def takeNumber (base : Nat) (maxDigits? : Option Nat) (leadingZeros : Bool) (max : Nat)
    (input : List Char) : Option (Nat × List Char) := do
  let digits := input.takeWhile fun c => (digit? base c).isSome
  let value ← ofDigits? base digits
  if maxDigits?.any (· < digits.length) || max < value then none
  else if !leadingZeros && digits.head? == some '0' && 1 < digits.length then none
  else return (value, input.drop digits.length)

/-- Takes a given character off the front. -/
def takeChar (expected : Char) : List Char → Option (List Char)
  | c :: rest => if c = expected then some rest else none
  | [] => none

/-- Takes a separator off the front, except before the first item. -/
def takeSeparator (separator : Char) (first : Bool) (input : List Char) : Option (List Char) :=
  if first then some input else takeChar separator input

def takeOctets : (count : Nat) → (first : Bool) → List Char → Option (List Nat × List Char)
  | 0, _, input => some ([], input)
  | count + 1, first, input => do
    let input ← takeSeparator '.' first input
    let (octet, input) ← takeNumber 10 (some 3) false 255 input
    let (others, input) ← takeOctets count false input
    return (octet :: others, input)

/-- A version 4 address as the last two groups of a version 6 address. -/
def takeEmbedded (first : Bool) (input : List Char) : Option (List Nat × List Char) := do
  let input ← takeSeparator ':' first input
  match ← takeOctets 4 true input with
  | ([a, b, c, d], input) => return ([256 * a + b, 256 * c + d], input)
  | _ => none

def takeGroup (first : Bool) (input : List Char) : Option (Nat × List Char) := do
  let input ← takeSeparator ':' first input
  takeNumber 16 (some 4) true 65535 input

/-- Takes as many groups as there are, at most `room`, and says whether the last two were an
embedded address, which needs room for two. -/
def takeGroups : (room : Nat) → (first : Bool) → List Char → List Nat × Bool × List Char
  | 0, _, input => ([], false, input)
  | room + 1, first, input =>
    match (if room = 0 then none else takeEmbedded first input) with
    | some (groups, input) => (groups, true, input)
    | none =>
      match takeGroup first input with
      | none => ([], false, input)
      | some (group, input) =>
        let (groups, embedded, input) := takeGroups room false input
        (group :: groups, embedded, input)

/-- Takes the eight groups of a version 6 address. -/
def takeV6 (input : List Char) : Option (List Nat × List Char) :=
  let (head, embedded, input) := takeGroups 8 true input
  if head.length = 8 then some (head, input)
  else if embedded then none
  else do
    let input ← takeChar ':' input
    let input ← takeChar ':' input
    let (tail, _, input) := takeGroups (7 - head.length) true input
    return (head ++ List.replicate (8 - head.length - tail.length) 0 ++ tail, input)

def takePort (input : List Char) : Option (Nat × List Char) := do
  let input ← takeChar ':' input
  takeNumber 10 none true 65535 input

/-- Takes a scope behind its percent sign. -/
def takeScope (input : List Char) : Option (Nat × List Char) := do
  let input ← takeChar '%' input
  takeNumber 10 none true (UInt32.size - 1) input

def parseV4? (input : List Char) : Option SocketAddress := do
  let (octets, input) ← takeOctets 4 true input
  let (port, input) ← takePort input
  if input.isEmpty then return .v4 octets port else none

/-- A version 6 address with its port. -/
def parseV6? (input : List Char) : Option SocketAddress := do
  let input ← takeChar '[' input
  let (groups, input) ← takeV6 input
  let (scope, input) := (takeScope input).getD (0, input)
  let input ← takeChar ']' input
  let (port, input) ← takePort input
  if input.isEmpty then return .v6 groups scope port else none

def parse? (text : String) : Option SocketAddress :=
  (parseV4? text.toList).or (parseV6? text.toList)

end SocketAddress
end PhaseWire
