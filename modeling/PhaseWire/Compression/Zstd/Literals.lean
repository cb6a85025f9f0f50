import PhaseWire.Compression.Zstd.Lanes

/-
# `Literals` — the literals of a compressed block

Literals are raw, one repeated byte, or coded by a prefix code that stands
in front of them or was sent with an earlier block.  Raw literals are used
where they stand, if enough of the block follows them.  All others go to a
shelf that keeps what longer literals have left behind their end.
-/

namespace PhaseWire.Compression.Zstd

/-- How far behind the end of literals a copy may reach. -/
def stride : Nat := 32

/-- Literals as they are read from a block. -/
inductive LiteralSource
  /-- Used where they stand. -/
  | inPlace
  /-- Put on the shelf. -/
  | shelved
  deriving DecidableEq, Repr

/-- The literals of a block, the code for later blocks and the rest of the block. -/
structure Literals where
  source : LiteralSource
  /-- The literals, and behind them what follows them in the block if they are used in place. -/
  bytes : Array UInt8
  count : Nat
  code? : Option WeightCode
  rest : Bytes

namespace Literals

/-! ## Sizes -/

/-- The size of raw or repeated literals, and how many bytes say so. -/
def plainSize? (format : Nat) (input : Bytes) : Option (Nat × Nat) :=
  let width := if format = 1 then 2 else if format = 3 then 3 else 1
  let shift := if width = 1 then 3 else 4
  if input.length < width then none
  else some (Bytes.ofLittleEndian (input.take width) >>> shift, width)

/-- The sizes of coded literals before and after coding, and how many bytes say so. -/
def codedSizes? (format : Nat) (input : Bytes) : Option (Nat × Nat × Nat) :=
  let width := if format = 2 then 4 else if format = 3 then 5 else 3
  let bits := if format = 2 then 14 else if format = 3 then 18 else 10
  if input.length < 5 then none
  else
    let header := Bytes.ofLittleEndian (input.take width) >>> 4
    some (header % 1 <<< bits, header >>> bits % 1 <<< bits, width)

/-! ## Coded literals -/

/-- How the time to read coded literals is estimated from how far they are squeezed: for symbols
looked up one at a time and two at a time, the time for the table and for 256 symbols. -/
def readingTimes : Array ((Nat × Nat) × (Nat × Nat)) :=
  #[((0, 0), (1, 1)), ((0, 0), (1, 1)), ((150, 216), (381, 119)), ((170, 205), (514, 112)),
    ((177, 199), (539, 110)), ((197, 194), (644, 107)), ((221, 192), (735, 107)),
    ((256, 189), (881, 106)), ((359, 188), (1167, 109)), ((582, 187), (1570, 114)),
    ((688, 187), (1712, 122)), ((825, 186), (1965, 136)), ((976, 185), (2131, 150)),
    ((1180, 186), (2070, 175)), ((1377, 185), (1731, 202)), ((1412, 185), (1695, 202))]

/-- Whether `count` symbols from `size` bytes are better read in pairs; a table of pairs takes more
memory, which weighs a 32nd. -/
def prefersPairs (count size : Nat) : Bool :=
  let squeezed := if count ≤ size then 15 else size * 16 / count
  let (single, double) := readingTimes.getD squeezed ((0, 0), (1, 1))
  let time := fun (cost : Nat × Nat) => cost.1 + cost.2 * (count / 256)
  time double + time double / 32 < time single

/-- The code of coded literals, and how many bytes describe it.  A code that stands in front of four
streams may be laid out in pairs. -/
def readCode? (known? : Option WeightCode) (repeats single : Bool) (count : Nat) (coded : Bytes) :
    Option (WeightCode × Bytes) :=
  if repeats then known?.map (·, coded)
  else do
    let (code, streams) ← WeightCode.take? coded
    if streams.isEmpty then none
    else return ({ code with paired := !single && prefersPairs count coded.length }, streams)

def decode? (code : WeightCode) (single : Bool) (count : Nat) (streams : Bytes) :
    Option (Array UInt8) :=
  let bytes := streams.toArray
  if single then code.stream? count #[] bytes 0 bytes.size else code.fourStreams? count bytes

/-! ## The literals section -/

/-- Raw literals, in place if they are followed by as much as a copy may reach. -/
def raw? (known? : Option WeightCode) (count : Nat) (rest : Bytes) : Option Literals :=
  let behind := rest.drop count
  let margin := behind.take stride
  if margin.length = stride then
    some ⟨.inPlace, (rest.take count ++ margin).toArray, count, known?, behind⟩
  else
    let bytes := (rest.take count).toArray
    if bytes.size < count then none else some ⟨.shelved, bytes, count, known?, behind⟩

def repeated? (known? : Option WeightCode) (count : Nat) (rest : Bytes) : Option Literals :=
  rest.head?.map fun byte =>
    ⟨.shelved, Array.replicate count byte, count, known?, rest.drop 1⟩

/-- Reads the literals section of a block, of at most `limit` bytes. -/
def take? (limit : Nat) (known? : Option WeightCode) (input : Bytes) : Option Literals := do
  let first ← input.head?
  let kind := first.toNat % 4
  let format := first.toNat / 4 % 4
  if input.length < 2 then none
  else if kind < 2 then
    let (count, width) ← plainSize? format input
    if limit < count then none
    else if kind = 0 then raw? known? count (input.drop width)
    else repeated? known? count (input.drop width)
  else
    let (count, size, width) ← codedSizes? format input
    let rest := input.drop width
    let coded := rest.take size
    if limit < count ∨ coded.length < size ∨ (format ≠ 0 ∧ count < 6) then none
    else
      let (code, streams) ← readCode? known? (kind = 3) (format = 0) count coded
      let bytes ← decode? code (format = 0) count streams
      return ⟨.shelved, bytes, count, some code, rest.drop size⟩

end Literals
end PhaseWire.Compression.Zstd
