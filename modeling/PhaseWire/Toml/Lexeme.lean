import PhaseWire.Text.Number

/-
# Blanks, texts and numbers of TOML

Every function takes its lexeme off the front of the input and gives what
follows, or `none` if the input does not start with one.  Only the parts
of a text that mean something are kept; numbers with a fraction and dates
are checked and kept as they are written.
-/

namespace PhaseWire.Toml

open Text

/-! ## Blanks and comments -/

def isBlank (c : Char) : Bool :=
  c == ' ' || c == '\t'

/-- Whether a character may stand in a comment: no control character but the tab. -/
def isPrintable (c : Char) : Bool :=
  c == '\t' || (' ' ≤ c && c ≠ '\x7f')

def dropBlanks (input : List Char) : List Char :=
  input.dropWhile isBlank

/-- Takes the end of a line. -/
def takeNewline : List Char → Option (List Char)
  | '\n' :: rest => some rest
  | '\r' :: '\n' :: rest => some rest
  | _ => none

def dropComment : List Char → List Char
  | '#' :: rest => rest.dropWhile isPrintable
  | input => input

/-- Takes what may follow on a line: blanks, a comment, and the end of the line or of the input. -/
def takeLineEnd (input : List Char) : Option (List Char) :=
  match dropComment (dropBlanks input) with
  | [] => some []
  | rest => takeNewline rest

/-- Drops blanks, ends of lines and whole comments, at most `fuel` of them. -/
def dropGaps : (fuel : Nat) → List Char → List Char
  | 0, input => input
  | fuel + 1, input =>
    let input := dropBlanks input
    match takeNewline (dropComment input) with
    | some rest => dropGaps fuel rest
    | none => input

/-! ## Texts -/

def ofCodePoint? (digits : List Char) : Option Char := do
  let code ← ofDigits? 16 digits
  if code < 0xD800 ∨ (0xDFFF < code ∧ code < 0x110000) then some (Char.ofNat code) else none

def takeEscape : List Char → Option (Char × List Char)
  | 'b' :: rest => some ('\x08', rest)
  | 't' :: rest => some ('\t', rest)
  | 'n' :: rest => some ('\n', rest)
  | 'f' :: rest => some ('\x0c', rest)
  | 'r' :: rest => some ('\r', rest)
  | '"' :: rest => some ('"', rest)
  | '\\' :: rest => some ('\\', rest)
  | 'u' :: rest => do
    let digits := rest.take 4
    if digits.length < 4 then none
    else return (← ofCodePoint? digits, rest.drop 4)
  | 'U' :: rest => do
    let digits := rest.take 8
    if digits.length < 8 then none
    else return (← ofCodePoint? digits, rest.drop 8)
  | _ => none

/-- Takes the rest of a text in double quotes, behind what is in `done`, which is in reverse. -/
def takeBasic : (fuel : Nat) → (done : List Char) → List Char → Option (String × List Char)
  | 0, _, _ => none
  | _, _, [] => none
  | fuel + 1, done, c :: rest =>
    if c = '"' then some (String.ofList done.reverse, rest)
    else if c = '\\' then
      match takeEscape rest with
      | none => none
      | some (escaped, rest) => takeBasic fuel (escaped :: done) rest
    else if isPrintable c then takeBasic fuel (c :: done) rest
    else none

/-- Takes the rest of a text in single quotes. -/
def takeLiteral (input : List Char) : Option (String × List Char) :=
  let body := input.takeWhile fun c => c ≠ '\'' && isPrintable c
  match input.drop body.length with
  | '\'' :: rest => some (String.ofList body, rest)
  | _ => none

/-- Whether only blanks stand before the end of the line, and what follows all blank lines. -/
def takeLineJoin (fuel : Nat) (input : List Char) : Option (List Char) :=
  (takeNewline (dropBlanks input)).map (go fuel)
where
  /-- Drops blanks and ends of lines. -/
  go : (fuel : Nat) → List Char → List Char
    | 0, input => input
    | fuel + 1, input =>
      let input := dropBlanks input
      match takeNewline input with
      | some rest => go fuel rest
      | none => input

/-- Splits the quotes at the front off, at most five. -/
def takeQuotes (quote : Char) (input : List Char) : Nat × List Char :=
  let count := ((input.take 5).takeWhile (· = quote)).length
  (count, input.drop count)

/-- Takes the rest of a text between triple quotes.  Three quotes end it; one or two before those
belong to the text. -/
def takeMultiline (quote : Char) (escapes : Bool) :
    (fuel : Nat) → (done : List Char) → List Char → Option (String × List Char)
  | 0, _, _ => none
  | _, _, [] => none
  | fuel + 1, done, c :: rest =>
    if c = quote then
      let (count, rest) := takeQuotes quote (c :: rest)
      if count < 3 then takeMultiline quote escapes fuel (List.replicate count quote ++ done) rest
      else some (String.ofList (List.replicate (count - 3) quote ++ done).reverse, rest)
    else if escapes && c = '\\' then
      match takeEscape rest with
      | some (escaped, rest) => takeMultiline quote escapes fuel (escaped :: done) rest
      | none =>
        match takeLineJoin fuel rest with
        | some rest => takeMultiline quote escapes fuel done rest
        | none => none
    else if isPrintable c then takeMultiline quote escapes fuel (c :: done) rest
    else match takeNewline (c :: rest) with
      | some rest => takeMultiline quote escapes fuel ('\n' :: done) rest
      | none => none

/-- Drops the end of a line that directly follows triple quotes. -/
def dropFirstNewline (input : List Char) : List Char :=
  (takeNewline input).getD input

def takeText (input : List Char) : Option (String × List Char) :=
  match input with
  | '"' :: '"' :: '"' :: rest => takeMultiline '"' true input.length [] (dropFirstNewline rest)
  | '\'' :: '\'' :: '\'' :: rest => takeMultiline '\'' false input.length [] (dropFirstNewline rest)
  | '"' :: rest => takeBasic input.length [] rest
  | '\'' :: rest => takeLiteral rest
  | _ => none

/-! ## Numbers -/

/-- Takes digits of a base, with single underscores between them. -/
def takeDigits (base : Nat) (input : List Char) : Option (List Char × List Char) :=
  match input with
  | [] => none
  | c :: rest => if (digit? base c).isSome then go rest.length [c] rest else none
where
  /-- Takes the digits behind those in `done`, which are in reverse. -/
  go : (fuel : Nat) → (done : List Char) → List Char → Option (List Char × List Char)
    | 0, done, input => some (done.reverse, input)
    | fuel + 1, done, input =>
      match input with
      | '_' :: c :: rest =>
        if (digit? base c).isSome then go fuel (c :: done) rest else none
      | ['_'] => none
      | c :: rest =>
        if (digit? base c).isSome then go fuel (c :: done) rest else some (done.reverse, input)
      | [] => some (done.reverse, [])

def takeSign : List Char → Bool × List Char
  | '+' :: rest => (false, rest)
  | '-' :: rest => (true, rest)
  | input => (false, input)

/-- Takes the digits of a decimal number: a zero alone, or digits that start with another. -/
def takeWhole (input : List Char) : Option (List Char × List Char) :=
  match input with
  | '0' :: rest => some (['0'], rest)
  | _ => takeDigits 10 input

def maxInteger : Nat := 1 <<< 63 - 1

/-- Takes an integer: a decimal one with a sign, or one in another base without. -/
def takeInteger (input : List Char) : Option (Int × List Char) := do
  let (base, input) := match input with
    | '0' :: 'x' :: rest => (16, rest)
    | '0' :: 'o' :: rest => (8, rest)
    | '0' :: 'b' :: rest => (2, rest)
    | _ => (10, input)
  if base = 10 then
    let (negative, input) := takeSign input
    let (digits, input) ← takeWhole input
    let value ← ofDigits? 10 digits
    if negative then (if value ≤ maxInteger + 1 then return (-(value : Int), input) else none)
    else (if value ≤ maxInteger then return ((value : Int), input) else none)
  else
    let (digits, input) ← takeDigits base input
    let value ← ofDigits? base digits
    if value ≤ maxInteger then return ((value : Int), input) else none

/-- Whether a positive decimal number, `digits` with the point moved right by `shift`, rounds to
infinity in 64-bit floating point. -/
def overflows (digits : List Char) (shift : Int) : Bool :=
  let mantissa := (addDigits 10 0 digits).getD 0
  let size : Int := (toString mantissa).length + shift
  let bound := 1 <<< 1024 - 1 <<< 970
  if mantissa = 0 ∨ size < 300 then false
  else if 320 < size then true
  else if 0 ≤ shift then bound ≤ mantissa * Nat.pow 10 shift.toNat
  else bound * Nat.pow 10 (-shift).toNat ≤ mantissa

def takeFraction : List Char → Option (List Char × List Char)
  | '.' :: rest => takeDigits 10 rest
  | input => some ([], input)

def takeExponent (input : List Char) : Option (Option Int × List Char) :=
  let read := fun rest => do
    let (negative, rest) := takeSign rest
    let (digits, rest) ← takeDigits 10 rest
    let value ← ofDigits? 10 digits
    return (some (if negative then -(value : Int) else (value : Int)), rest)
  match input with
  | 'e' :: rest => read rest
  | 'E' :: rest => read rest
  | _ => some (none, input)

/-- Takes a number with a fraction or an exponent, or a name of a special number. -/
def takeFloat (input : List Char) : Option (String × List Char) := do
  let (negative, body) := takeSign input
  match body with
  | 'i' :: 'n' :: 'f' :: rest => return ("inf", rest)
  | 'n' :: 'a' :: 'n' :: rest => return ("nan", rest)
  | _ =>
    let (whole, rest) ← takeWhole body
    let (fraction, rest) ← takeFraction rest
    let (exponent?, rest) ← takeExponent rest
    if fraction.isEmpty && exponent?.isNone then none
    else if !negative && overflows (whole ++ fraction) (exponent?.getD 0 - fraction.length) then none
    else return (String.ofList (input.take (input.length - rest.length)), rest)

/-! ## Dates -/

/-- Takes a number of exactly `width` digits between two bounds. -/
def takeFixed (width low high : Nat) (input : List Char) : Option (Nat × List Char) := do
  let digits := input.take width
  if digits.length < width then none
  else
    let value ← ofDigits? 10 digits
    if low ≤ value ∧ value ≤ high then return (value, input.drop width) else none

def takeExact (expected : Char) : List Char → Option (List Char)
  | c :: rest => if c = expected then some rest else none
  | [] => none

def daysIn (year month : Nat) : Nat :=
  if month = 2 then
    if year % 4 = 0 ∧ (year % 100 ≠ 0 ∨ year % 400 = 0) then 29 else 28
  else if month = 4 ∨ month = 6 ∨ month = 9 ∨ month = 11 then 30
  else 31

def takeDay (input : List Char) : Option (List Char) := do
  let (year, input) ← takeFixed 4 0 9999 input
  let input ← takeExact '-' input
  let (month, input) ← takeFixed 2 1 12 input
  let input ← takeExact '-' input
  let (_, input) ← takeFixed 2 1 (daysIn year month) input
  return input

def takeSplitSecond : List Char → Option (List Char)
  | '.' :: rest =>
    let after := rest.dropWhile isDigit
    if after.length < rest.length then some after else none
  | input => some input

/-- Takes a time of day; a leap second is admitted. -/
def takeTime (input : List Char) : Option (List Char) := do
  let (_, input) ← takeFixed 2 0 23 input
  let input ← takeExact ':' input
  let (_, input) ← takeFixed 2 0 59 input
  let input ← takeExact ':' input
  let (_, input) ← takeFixed 2 0 60 input
  takeSplitSecond input

def takeOffset (input : List Char) : Option (List Char) :=
  let signed := fun rest => do
    let (_, rest) ← takeFixed 2 0 23 rest
    let rest ← takeExact ':' rest
    let (_, rest) ← takeFixed 2 0 59 rest
    return rest
  match input with
  | 'Z' :: rest => some rest
  | 'z' :: rest => some rest
  | '+' :: rest => signed rest
  | '-' :: rest => signed rest
  | _ => none

/-- Takes the time behind a day, if there is one. -/
def dropTimePart (input : List Char) : List Char :=
  match input with
  | c :: rest =>
    if c = 'T' ∨ c = 't' ∨ c = ' ' then
      match takeTime rest with
      | some rest => (takeOffset rest).getD rest
      | none => input
    else input
  | [] => input

def takeDate (input : List Char) : Option (String × List Char) := do
  let rest ← ((takeDay input).map dropTimePart).or (takeTime input)
  return (String.ofList (input.take (input.length - rest.length)), rest)

end PhaseWire.Toml
