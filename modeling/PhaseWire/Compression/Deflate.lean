import PhaseWire.Compression.Prefix

/-
# `Deflate` — the code of literals, lengths and distances

A deflate stream is a sequence of blocks: stored bytes, or symbols under a
fixed or a transmitted pair of prefix codes.  A symbol below 256 is a
literal, 256 ends the block, and a higher one starts a copy from up to
32768 bytes back.  The window is full of zeros before the first byte, so
a copy may reach back over the start of the data.
-/

namespace PhaseWire.Compression.Deflate

/-! ## Lengths and distances -/

/-- The least length of each length symbol from 257 on, and its number of extra bits. -/
def lengthTable : Array (Nat × Nat) :=
  #[(3, 0), (4, 0), (5, 0), (6, 0), (7, 0), (8, 0), (9, 0), (10, 0), (11, 1), (13, 1),
    (15, 1), (17, 1), (19, 2), (23, 2), (27, 2), (31, 2), (35, 3), (43, 3), (51, 3), (59, 3),
    (67, 4), (83, 4), (99, 4), (115, 4), (131, 5), (163, 5), (195, 5), (227, 5), (258, 0)]

/-- The least distance of each distance symbol, and its number of extra bits. -/
def distanceTable : Array (Nat × Nat) :=
  #[(1, 0), (2, 0), (3, 0), (4, 0), (5, 1), (7, 1), (9, 2), (13, 2), (17, 3), (25, 3),
    (33, 4), (49, 4), (65, 5), (97, 5), (129, 6), (193, 6), (257, 7), (385, 7), (513, 8),
    (769, 8), (1025, 9), (1537, 9), (2049, 10), (3073, 10), (4097, 11), (6145, 11), (8193, 12),
    (12289, 12), (16385, 13), (24577, 13)]

/-- The order in which the lengths of the code for code lengths are sent. -/
def lengthOrder : List Nat :=
  [16, 17, 18, 0, 8, 7, 9, 6, 10, 5, 11, 4, 12, 3, 13, 2, 14, 1, 15]

/-! ## The fixed codes -/

/-- The codeword lengths of literals and lengths in a fixed block. -/
def fixedLengths : List Nat :=
  List.replicate 144 8 ++ List.replicate 112 9 ++ List.replicate 24 7 ++ List.replicate 8 8

def fixedLiterals : PrefixCode :=
  .ofLengths fixedLengths

def fixedDistances : PrefixCode :=
  .ofLengths (List.replicate 32 5)

/-! ## Transmitted codes -/

structure Codes where
  literals : PrefixCode
  distances : PrefixCode

/-- The number in the next `count` bits. -/
def takeBits (count : Nat) (source : BitSource) : Except Stop (Nat × BitSource) :=
  need (source.take? count)

/-- The next `count` numbers of three bits. -/
def takeTriples : (count : Nat) → BitSource → Except Stop (List Nat × BitSource)
  | 0, source => .ok ([], source)
  | count + 1, source => do
    let (first, source) ← takeBits 3 source
    let (others, source) ← takeTriples count source
    return (first :: others, source)

/-- How often a symbol of the length code repeats which length. -/
def repetition (symbol : Nat) (previous : Option Nat) (source : BitSource) :
    Except Stop (Nat × Nat × BitSource) :=
  match symbol with
  | 16 => do
    let previous ← demand previous
    let (extra, source) ← takeBits 2 source
    return (previous, extra + 3, source)
  | 17 => do
    let (extra, source) ← takeBits 3 source
    return (0, extra + 3, source)
  | 18 => do
    let (extra, source) ← takeBits 7 source
    return (0, extra + 11, source)
  | length => .ok (length, 1, source)

/-- The next `missing` codeword lengths, behind those in `done`, which are in reverse.  Each symbol
gives at least one length, so `fuel` need not exceed `missing`. -/
def takeLengths (code : PrefixCode) :
    (fuel missing : Nat) → (done : List Nat) → BitSource → Except Stop (List Nat × BitSource)
  | _, 0, done, source => .ok (done.reverse, source)
  | 0, _ + 1, _, _ => .error .corrupt
  | fuel + 1, missing, done, source => do
    let (symbol, source) ← code.next source
    let (length, times, source) ← repetition symbol done.head? source
    if missing < times then .error .corrupt
    else takeLengths code fuel (missing - times) (List.replicate times length ++ done) source

/-- Whether a code may stand in a block: it is complete, or has no codeword, or one of a single
bit. -/
def admissible (code : PrefixCode) : Bool :=
  code.isComplete || code.symbols.isEmpty || (code.symbols.size = 1 && code.counts.head? = some 1)

/-- Goes on only if a condition holds. -/
def check (condition : Bool) : Except Stop Unit :=
  if condition then .ok () else .error .corrupt

/-- Reads the pair of codes at the start of a block. -/
def takeCodes (source : BitSource) : Except Stop (Codes × BitSource) := do
  let (literalCount, source) ← takeBits 5 source
  let (distanceCount, source) ← takeBits 5 source
  let (lengthCount, source) ← takeBits 4 source
  let literalCount := literalCount + 257
  let distanceCount := distanceCount + 1
  check (literalCount ≤ 286 && distanceCount ≤ 30)
  let (sent, source) ← takeTriples (lengthCount + 4) source
  let pairs := lengthOrder.zip sent
  let lengthCode := PrefixCode.ofLengths
    ((List.range 19).map fun symbol => (pairs.lookup symbol).getD 0)
  check lengthCode.isComplete
  let total := literalCount + distanceCount
  let (lengths, source) ← takeLengths lengthCode total total [] source
  let literals := PrefixCode.ofLengths (lengths.take literalCount)
  let distances := PrefixCode.ofLengths (lengths.drop literalCount)
  check (admissible literals && admissible distances)
  return (⟨literals, distances⟩, source)

/-! ## Decoding -/

/-- What the next step of the decoder reads. -/
inductive Mode
  | header
  /-- So many bytes of a stored block, which may be the last block. -/
  | stored (last : Bool) (left : Nat)
  /-- A symbol of a block, which may be the last block. -/
  | symbols (last : Bool) (codes : Codes)

/-- The decoder between two steps. -/
structure State where
  source : BitSource
  out : Array UInt8
  mode : Mode

/-- The decoder before a stream. -/
def State.start : State :=
  ⟨.ofBytes [], #[], .header⟩

/-- The decoder with more input. -/
def State.supply : State → Bytes → State
  | ⟨source, out, mode⟩, piece => ⟨source.append piece, out, mode⟩

/-- Reads the length of a stored block, and the complement of the length. -/
def takeStored (last : Bool) (source : BitSource) : Except Stop (Mode × BitSource) :=
  match source.align with
  | a :: b :: c :: d :: rest => do
    let length := a.toNat + 256 * b.toNat
    check (length + (c.toNat + 256 * d.toNat) = 65535)
    return (.stored last length, .ofBytes rest)
  | _ => .error .starved

/-- Reads the header of a block. -/
def takeHeader (source : BitSource) : Except Stop (Mode × BitSource) := do
  let (header, source) ← takeBits 3 source
  let last := header % 2 = 1
  match header / 2 with
  | 0 => takeStored last source
  | 1 => return (.symbols last ⟨fixedLiterals, fixedDistances⟩, source)
  | 2 =>
    let (codes, source) ← takeCodes source
    return (.symbols last codes, source)
  | _ => .error .corrupt

def takeCopy (distances : PrefixCode) (symbol : Nat) (source : BitSource) :
    Except Stop (Nat × Nat × BitSource) := do
  let (leastLength, lengthBits) ← demand lengthTable[symbol - 257]?
  let (extra, source) ← takeBits lengthBits source
  let (distanceSymbol, source) ← distances.next source
  let (leastDistance, distanceBits) ← demand distanceTable[distanceSymbol]?
  let (more, source) ← takeBits distanceBits source
  return (leastLength + extra, leastDistance + more, source)

/-- What a symbol stands for. -/
inductive Item
  | literal (byte : UInt8)
  | copy (length distance : Nat)
  | blockEnd

/-- Reads a symbol, and what belongs to it. -/
def takeItem (codes : Codes) (source : BitSource) : Except Stop (Item × BitSource) := do
  let (symbol, source) ← codes.literals.next source
  if symbol < 256 then return (.literal symbol.toUInt8, source)
  else if symbol = 256 then return (.blockEnd, source)
  else
    let (length, distance, source) ← takeCopy codes.distances symbol source
    return (.copy length distance, source)

def afterBlock (last : Bool) (source : BitSource) (out : Array UInt8) : Step State :=
  if last then .finished ⟨source, out, .header⟩ else .next ⟨source, out, .header⟩

def stop (state : State) : Stop → Step State
  | .starved => .starved state
  | .corrupt => .failed

/-- Appends what a symbol stands for. -/
def applyItem (last : Bool) (codes : Codes) (source : BitSource) (out : Array UInt8) :
    Item → Step State
  | .literal byte => .next ⟨source, out.push byte, .symbols last codes⟩
  | .blockEnd => afterBlock last source out
  | .copy length distance => .next ⟨source, copyBack out distance length, .symbols last codes⟩

/-- Appends bytes of a stored block, as many as there are. -/
def storedStep (last : Bool) (left : Nat) (source : BitSource) (out : Array UInt8) :
    Step State :=
  if left = 0 then afterBlock last source out
  else match source.bytes.take left with
    | [] => .starved ⟨source, out, .stored last left⟩
    | taken =>
      .next ⟨.ofBytes (source.bytes.drop left), appendBytes out taken,
        .stored last (left - taken.length)⟩

def step : State → Step State
  | ⟨source, out, .header⟩ =>
    match takeHeader source with
    | .error why => stop ⟨source, out, .header⟩ why
    | .ok (mode, source) => .next ⟨source, out, mode⟩
  | ⟨source, out, .stored last left⟩ => storedStep last left source out
  | ⟨source, out, .symbols last codes⟩ =>
    match takeItem codes source with
    | .error why => stop ⟨source, out, .symbols last codes⟩ why
    | .ok (item, source) => applyItem last codes source out item

/-- Decodes until the stream ends, the input ends, or the output exceeds `limit` bytes.  Every step
takes at least one bit, except the one that ends a stored block, whose header took more than two. -/
def resume (limit : Nat) (state : State) : Halt State :=
  run step (fun state => limit < state.out.size) (state.source.size + 2) state

end PhaseWire.Compression.Deflate
