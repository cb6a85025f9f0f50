import PhaseWire.Compression.Deflate
import PhaseWire.Compression.Match
import PhaseWire.Compression.Prefix.Lengths
import PhaseWire.Compression.Prefix.Words

/-
# Writing deflate blocks

A small block uses the fixed codes and a larger one sends its own.  Where
that would take as much room as the data, the data is stored.
-/

namespace PhaseWire.Compression.Deflate

/-! ## Tokens as symbols -/

/-- The last entry of a table whose least value does not exceed `value`. -/
def entryOf (table : Array (Nat × Nat)) (value : Nat) : Nat :=
  table.foldl (fun count entry => if entry.1 ≤ value then count + 1 else count) 0 - 1

/-- A symbol of a table for a value: its number, and the extra bits and their value. -/
def symbolOf (table : Array (Nat × Nat)) (value : Nat) : Nat × Nat × Nat :=
  let i := entryOf table value
  let (least, bits) := table.getD i (0, 0)
  (i, bits, value - least)

/-- The number of symbols for literals and lengths. -/
def literalSymbols : Nat := 288

def distanceSymbols : Nat := 32

/-- The symbol behind the last token of a block. -/
def endSymbol : Nat := 256

/-- How often the symbols of tokens occur. -/
structure Frequencies where
  literals : Array Nat
  distances : Array Nat

namespace Frequencies

/-- Nothing but the end of a block. -/
def start : Frequencies :=
  ⟨(Array.replicate literalSymbols 0).setIfInBounds endSymbol 1, Array.replicate distanceSymbols 0⟩

def add (frequencies : Frequencies) : Token → Frequencies
  | .literal byte =>
    { frequencies with literals := frequencies.literals.modify byte.toNat (· + 1) }
  | .copy distance length =>
    { literals := frequencies.literals.modify (257 + (symbolOf lengthTable length).1) (· + 1)
      distances := frequencies.distances.modify (symbolOf distanceTable distance).1 (· + 1) }

end Frequencies

structure BlockWords where
  literals : Array Codeword
  distances : Array Codeword

def writeToken (words : BlockWords) (sink : BitSink) : Token → BitSink
  | .literal byte => sink.pushSymbol words.literals byte.toNat
  | .copy distance length =>
    let (i, lengthBits, lengthRest) := symbolOf lengthTable length
    let (j, distanceBits, distanceRest) := symbolOf distanceTable distance
    let sink := (sink.pushSymbol words.literals (257 + i)).pushBits lengthBits lengthRest
    (sink.pushSymbol words.distances j).pushBits distanceBits distanceRest

def writeTokens (words : BlockWords) (sink : BitSink) (tokens : Array Token) : BitSink :=
  (tokens.foldl (writeToken words) sink).pushSymbol words.literals endSymbol

/-! ## Fixed codes -/

def fixedWords : BlockWords :=
  ⟨Codeword.ofLengths fixedLengths, Codeword.ofLengths (List.replicate distanceSymbols 5)⟩

/-- Writes a block under the fixed codes. -/
def writeFixed (sink : BitSink) (tokens : Array Token) : BitSink :=
  writeTokens fixedWords (sink.pushBits 2 1) tokens

/-! ## Codes of their own -/

/-- A symbol of the code for code lengths, and the extra bits and their value. -/
abbrev LengthSymbol := Nat × Nat × Nat

/-- A run of at most 137 zeros. -/
def zeros (count : Nat) : List LengthSymbol :=
  if count < 3 then List.replicate count (0, 0, 0)
  else if count ≤ 10 then [(17, 3, count - 3)]
  else [(18, 7, count - 11)]

/-- A length at most five times behind itself. -/
def again (length count : Nat) : List LengthSymbol :=
  if count < 3 then List.replicate count (length, 0, 0) else [(16, 2, count - 3)]

def runSymbols (length count : Nat) : List LengthSymbol :=
  if length = 0 then List.replicate (count / 138) (18, 7, 127) ++ zeros (count % 138)
  else (length, 0, 0) :: (List.replicate ((count - 1) / 6) (16, 2, 3) ++ again length ((count - 1) % 6))

def runs : List Nat → List (Nat × Nat)
  | [] => []
  | length :: lengths =>
    match runs lengths with
    | (other, count) :: rest =>
      if other = length then (length, count + 1) :: rest else (length, 1) :: (other, count) :: rest
    | [] => [(length, 1)]

def lengthSymbols (lengths : List Nat) : List LengthSymbol :=
  (runs lengths).flatMap fun (length, count) => runSymbols length count

/-- Drops the zeros at the end, but keeps `least` lengths. -/
def trim (least : Nat) (lengths : List Nat) : List Nat :=
  let kept := (lengths.reverse.dropWhile (· = 0)).reverse
  lengths.take (max least kept.length)

def writeLengthSymbol (words : Array Codeword) (sink : BitSink) : LengthSymbol → BitSink
  | (symbol, bits, rest) => (sink.pushSymbol words symbol).pushBits bits rest

def writeCodes (sink : BitSink) (literals distances : List Nat) : BitSink :=
  let symbols := lengthSymbols (literals ++ distances)
  let frequencies := (List.range 19).map fun symbol => (symbols.map (·.1)).count symbol
  let lengths := CodeLengths.ofFrequencies 7 frequencies
  let sent := trim 4 (lengthOrder.map fun symbol => lengths.getD symbol 0)
  let sink := sink.pushBits 5 (literals.length - 257)
  let sink := sink.pushBits 5 (distances.length - 1)
  let sink := sink.pushBits 4 (sent.length - 4)
  let sink := sent.foldl (fun sink length => sink.pushBits 3 length) sink
  symbols.foldl (writeLengthSymbol (Codeword.ofLengths lengths)) sink

/-- Writes a block under codes of its own. -/
def writeDynamic (sink : BitSink) (tokens : Array Token) : BitSink :=
  let frequencies := tokens.foldl Frequencies.add .start
  let literals := trim 257 (CodeLengths.ofFrequencies maxCodeLength frequencies.literals.toList)
  let distances := trim 1 (CodeLengths.ofFrequencies maxCodeLength frequencies.distances.toList)
  writeTokens ⟨Codeword.ofLengths literals, Codeword.ofLengths distances⟩
    (writeCodes (sink.pushBits 2 2) literals distances) tokens

/-! ## Stored blocks -/

def writeStored (sink : BitSink) (data : Array UInt8) : BitSink :=
  let sink := (sink.pushBits 2 0).align
  let sink := sink.pushBits 16 data.size
  let sink := sink.pushBits 16 (65535 - data.size)
  data.foldl (fun sink byte => sink.pushBits 8 byte.toNat) sink

/-! ## The choice -/

/-- Data below this size uses the fixed codes. -/
def dynamicFrom : Nat := 48

/-- Data up to this size is not worth storing. -/
def storedAbove : Nat := 32

def writeCoded (sink : BitSink) (tokens : Array Token) (data : Array UInt8) : BitSink :=
  let coded := if data.size < dynamicFrom then writeFixed sink tokens else writeDynamic sink tokens
  if storedAbove < data.size ∧ data.size ≤ coded.bytes.size - sink.bytes.size + 1 then
    writeStored sink data
  else coded

end PhaseWire.Compression.Deflate
