import PhaseWire.Compression.Zstd.Store

/-
# `Sequences` — the copies of a compressed block

A sequence takes some literals and then copies from the output so far.
Its literal length, offset and copy length are each a code with extra
bits, and each kind of code has its own entropy table.  The three offsets
used last can be named again.
-/

namespace PhaseWire.Compression.Zstd

/-! ## Codes -/

/-- A code kind: its symbols' base values and extra bits, the default table and its limits. -/
structure CodeKind where
  values : Array (Nat × Nat)
  standard : Distribution
  maxAccuracy : Nat

namespace CodeKind

def literalLength : CodeKind where
  values := ((List.range 16).map (·, 0)).toArray ++
    #[(16, 1), (18, 1), (20, 1), (22, 1), (24, 2), (28, 2), (32, 3), (40, 3), (48, 4), (64, 6),
      (128, 7), (256, 8), (512, 9), (1024, 10), (2048, 11), (4096, 12), (8192, 13), (16384, 14),
      (32768, 15), (65536, 16)]
  standard := ⟨6, [4, 3, 2, 2, 2, 2, 2, 2, 2, 2, 2, 2, 2, 1, 1, 1, 2, 2, 2, 2, 2, 2, 2, 2, 2, 3, 2,
    1, 1, 1, 1, 1, -1, -1, -1, -1]⟩
  maxAccuracy := 9

def copyLength : CodeKind where
  values := ((List.range 32).map fun i => (i + 3, 0)).toArray ++
    #[(35, 1), (37, 1), (39, 1), (41, 1), (43, 2), (47, 2), (51, 3), (59, 3), (67, 4), (83, 4),
      (99, 5), (131, 7), (259, 8), (515, 9), (1027, 10), (2051, 11), (4099, 12), (8195, 13),
      (16387, 14), (32771, 15), (65539, 16)]
  standard := ⟨6, [1, 4, 3, 2, 2, 2, 2, 2, 2, 1, 1, 1, 1, 1, 1, 1, 1, 1, 1, 1, 1, 1, 1, 1, 1, 1, 1,
    1, 1, 1, 1, 1, 1, 1, 1, 1, 1, 1, 1, 1, 1, 1, 1, 1, 1, 1, -1, -1, -1, -1, -1, -1, -1]⟩
  maxAccuracy := 9

/-- Offsets: each symbol stands for that many bits behind a leading one. -/
def offset : CodeKind where
  values := ((List.range 32).map fun i => (1 <<< i, i)).toArray
  standard := ⟨5, [1, 1, 1, 1, 1, 1, 2, 2, 2, 1, 1, 1, 1, 1, 1, 1, 1, 1, 1, 1, 1, 1, 1, 1, -1, -1,
    -1, -1, -1]⟩
  maxAccuracy := 8

/-- The table that a block uses for a kind, and what follows its description. -/
def table? (kind : CodeKind) (mode : Nat) (known? : Option Table) (input : Bytes) :
    Option (Table × Bytes) :=
  match mode with
  | 0 => some (.ofDistribution kind.standard, input)
  | 1 =>
    match input with
    | [] => none
    | symbol :: rest =>
      if symbol.toNat < kind.values.size then some (.single symbol.toNat, rest) else none
  | 2 => do
    let (distribution, rest) ← Distribution.take? kind.maxAccuracy (kind.values.size - 1) input
    return (.ofDistribution distribution, rest)
  | _ => known?.map (·, input)

end CodeKind

structure Tables where
  literalLength : Table
  offset : Table
  copyLength : Table

/-! ## Offsets used before -/

/-- The offsets used last, latest first. -/
structure Recent where
  first : Nat
  second : Nat
  third : Nat
  deriving DecidableEq, Repr

namespace Recent

/-- The offsets before a frame's first copy. -/
def start : Recent :=
  ⟨1, 4, 8⟩

/-- The offset that a value names, and the offsets used last after it.  Values above three are
offsets; the others name one used before, one place later if the sequence has no literals. -/
def resolve (recent : Recent) (value : Nat) (noLiterals : Bool) : Nat × Recent :=
  if 3 < value then (value - 3, ⟨value - 3, recent.first, recent.second⟩)
  else
    match (if noLiterals then value + 1 else value) with
    | 1 => (recent.first, recent)
    | 2 => (recent.second, ⟨recent.second, recent.first, recent.third⟩)
    | 3 => (recent.third, ⟨recent.third, recent.first, recent.second⟩)
    | _ => (recent.first - 1, ⟨recent.first - 1, recent.first, recent.second⟩)

end Recent

/-! ## Decoding -/

/-- The states of the three tables. -/
structure States where
  literalLength : Nat
  offset : Nat
  copyLength : Nat

/-- What a block's sequences work with. -/
structure Supply where
  /-- The literals, and behind them what a copy of them may reach. -/
  literals : Array UInt8
  /-- How many literals there are. -/
  count : Nat
  /-- The place in the store that the block must not pass. -/
  bound : Nat

/-- How far a block's sequences have come. -/
structure Progress where
  store : Store
  taken : Nat
  recent : Recent

def Progress.apply? (supply : Supply) (literalLength offsetValue copyLength : Nat) :
    Progress → Option Progress
  | ⟨store, taken, recent⟩ =>
    let (offset, recent) := recent.resolve offsetValue (literalLength = 0)
    let finish := store.place + literalLength + copyLength
    if supply.bound < finish ∨ supply.count < taken + literalLength ∨ offset = 0 then none
    else
      let tight := supply.bound < finish + stride
      let store := store.takeLiterals supply.literals tight supply.bound taken literalLength
      (store.copy? tight supply.bound offset copyLength).map fun store =>
        ⟨store, taken + literalLength, recent⟩

/-- Appends the literals that no sequence has taken. -/
def Progress.finish? (supply : Supply) : Progress → Option (Store × Recent)
  | ⟨⟨cells, place, older⟩, taken, recent⟩ =>
    let left := supply.count - taken
    if supply.bound < place + left then none
    else
      some (⟨Store.putAll supply.literals left taken place cells, place + left, older⟩, recent)

def takeValue (kind : CodeKind) (symbol : Nat) (source : BackSource) :
    Option (Nat × BackSource) := do
  let (base, bits) ← kind.values[symbol]?
  let (extra, source) ← source.take? bits
  return (base + extra, source)

def States.next? (states : States) (tables : Tables) (source : BackSource) :
    Option (States × BackSource) := do
  let (literalLength, source) ← tables.literalLength.next? states.literalLength source
  let (copyLength, source) ← tables.copyLength.next? states.copyLength source
  let (offset, source) ← tables.offset.next? states.offset source
  return (⟨literalLength, offset, copyLength⟩, source)

/-- Carries out `count` sequences; the stream must end with the last one. -/
def sequences? (tables : Tables) (supply : Supply) : (count : Nat) → States → Progress →
    BackSource → Option Progress
  | 0, _, progress, source => if source.isEmpty then some progress else none
  | count + 1, states, progress, source => do
    let (offset, source) ←
      takeValue .offset (tables.offset.cell states.offset).symbol source
    let (copyLength, source) ←
      takeValue .copyLength (tables.copyLength.cell states.copyLength).symbol source
    let (literalLength, source) ←
      takeValue .literalLength (tables.literalLength.cell states.literalLength).symbol source
    let progress ← Progress.apply? supply literalLength offset copyLength progress
    if count = 0 then sequences? tables supply count states progress source
    else
      let (states, source) ← states.next? tables source
      sequences? tables supply count states progress source

/-- The number of sequences of a block, and what follows it. -/
def sequenceCount? (input : Bytes) : Option (Nat × Bytes) :=
  match input with
  | [] => none
  | first :: rest =>
    let first := first.toNat
    if first < 128 then some (first, rest)
    else if first < 255 then
      match rest with
      | second :: rest => some ((first - 128) * 256 + second.toNat, rest)
      | _ => none
    else
      match rest with
      | second :: third :: rest => some (second.toNat + 256 * third.toNat + 0x7f00, rest)
      | _ => none

/-- Reads the modes and descriptions of a block's tables. -/
def tables? (known? : Option Tables) (input : Bytes) : Option (Tables × Bytes) :=
  match input with
  | [] => none
  | modes :: rest =>
    let modes := modes.toNat
    if modes % 4 ≠ 0 then none
    else do
      let (literalLength, rest) ←
        CodeKind.literalLength.table? (modes / 64) (known?.map (·.literalLength)) rest
      let (offset, rest) ← CodeKind.offset.table? (modes / 16 % 4) (known?.map (·.offset)) rest
      let (copyLength, rest) ←
        CodeKind.copyLength.table? (modes / 4 % 4) (known?.map (·.copyLength)) rest
      return (⟨literalLength, offset, copyLength⟩, rest)

/-- Carries out the sequences section of a block, and gives the tables for later blocks. -/
def sequencesSection? (known? : Option Tables) (supply : Supply) (progress : Progress)
    (input : Bytes) : Option (Progress × Option Tables) := do
  let (count, rest) ← sequenceCount? input
  if count = 0 then
    if rest.isEmpty then return (progress, known?) else none
  else if supply.bound ≤ progress.store.place then none
  else
    let (tables, rest) ← tables? known? rest
    let source ← BackSource.ofBytes? rest
    let (literalLength, source) ← tables.literalLength.start? source
    let (offset, source) ← tables.offset.start? source
    let (copyLength, source) ← tables.copyLength.start? source
    let progress ←
      sequences? tables supply count ⟨literalLength, offset, copyLength⟩ progress source
    return (progress, some tables)

end PhaseWire.Compression.Zstd
