/-
# `Aes` — the block cipher AES-128

Only the forward direction is needed, because the feedback mode built on
it runs the cipher forward for both encryption and decryption.  A block is
four 32-bit columns.  One table combines the substitution of a byte with
its contribution to the mixed column; the other three rows use the same
table, rotated.
-/

namespace PhaseWire.Aes

/-! ## Bytes as polynomials over two elements -/

/-- Twice a field element. -/
def double (a : UInt8) : UInt8 :=
  if a < 0x80 then a <<< 1 else (a <<< 1) ^^^ 0x1b

/-- Three times a field element. -/
def triple (a : UInt8) : UInt8 :=
  double a ^^^ a

/-- The product of two field elements, by the low `bits` bits of the first. -/
def mul : (bits : Nat) → UInt8 → UInt8 → UInt8
  | 0, _, _ => 0
  | bits + 1, a, b => (if a &&& 1 = 1 then b else 0) ^^^ mul bits (a >>> 1) (double b)

/-- The product of `count` equal factors. -/
def power (a : UInt8) : (count : Nat) → UInt8
  | 0 => 1
  | count + 1 => mul 8 a (power a count)

/-- Rotates the bits of a byte to the left, by one to seven places. -/
def rotate (a : UInt8) (places : UInt8) : UInt8 :=
  (a <<< places) ||| (a >>> (8 - places))

/-- The substitute of a byte: its inverse in the field, then an affine map. -/
def substituteOf (a : UInt8) : UInt8 :=
  let b := power a 254
  b ^^^ rotate b 1 ^^^ rotate b 2 ^^^ rotate b 3 ^^^ rotate b 4 ^^^ 0x63

def substitutes : Array UInt8 :=
  Array.ofFn fun i : Fin 256 => substituteOf i.val.toUInt8

def substitute (a : UInt8) : UInt8 :=
  substitutes.getD a.toNat 0

/-! ## Columns -/

/-- Four bytes as a column, first byte highest. -/
def column (a b c d : UInt8) : UInt32 :=
  (a.toUInt32 <<< 24) ||| (b.toUInt32 <<< 16) ||| (c.toUInt32 <<< 8) ||| d.toUInt32

/-- Rotates a column to the right by eight times `bytes` bits, for one to three bytes. -/
def rotateColumn (w : UInt32) (bytes : UInt32) : UInt32 :=
  (w >>> (8 * bytes)) ||| (w <<< (32 - 8 * bytes))

/-- The byte of a column at a row, counted from the top. -/
def row (w : UInt32) (index : UInt32) : UInt8 :=
  (w >>> (24 - 8 * index)).toUInt8

/-- What each top byte contributes to its mixed column. -/
def mixes : Array UInt32 :=
  Array.ofFn fun i : Fin 256 =>
    let s := substituteOf i.val.toUInt8
    column (double s) s s (triple s)

/-- What a top byte contributes to its mixed column. -/
def mix (a : UInt8) : UInt32 :=
  mixes.getD a.toNat 0

/-- Substitutes the four bytes of a column. -/
def substituteColumn (w : UInt32) : UInt32 :=
  column (substitute (row w 0)) (substitute (row w 1)) (substitute (row w 2))
    (substitute (row w 3))

/-! ## Blocks and rounds -/

/-- Sixteen bytes as four columns. -/
structure Block where
  c0 : UInt32
  c1 : UInt32
  c2 : UInt32
  c3 : UInt32
  deriving DecidableEq, Repr, Inhabited

namespace Block

/-- The block of the first sixteen bytes; missing bytes are zero. -/
def ofBytes (bytes : List UInt8) : Block :=
  let at' := fun i => bytes.getD i 0
  ⟨column (at' 0) (at' 1) (at' 2) (at' 3), column (at' 4) (at' 5) (at' 6) (at' 7),
    column (at' 8) (at' 9) (at' 10) (at' 11), column (at' 12) (at' 13) (at' 14) (at' 15)⟩

def first (b : Block) : UInt8 :=
  row b.c0 0

/-- Drops the first byte and takes in a last one. -/
def shift (b : Block) (byte : UInt8) : Block :=
  ⟨(b.c0 <<< 8) ||| (b.c1 >>> 24), (b.c1 <<< 8) ||| (b.c2 >>> 24),
    (b.c2 <<< 8) ||| (b.c3 >>> 24), (b.c3 <<< 8) ||| byte.toUInt32⟩

/-- Adds a round key. -/
def add (b k : Block) : Block :=
  ⟨b.c0 ^^^ k.c0, b.c1 ^^^ k.c1, b.c2 ^^^ k.c2, b.c3 ^^^ k.c3⟩

end Block

/-- One column of a full round: row `r` comes from the `r`-th of four columns. -/
def roundColumn (a b c d : UInt32) : UInt32 :=
  mix (row a 0) ^^^ rotateColumn (mix (row b 1)) 1 ^^^ rotateColumn (mix (row c 2)) 2
    ^^^ rotateColumn (mix (row d 3)) 3

def fullRound (b key : Block) : Block :=
  Block.add ⟨roundColumn b.c0 b.c1 b.c2 b.c3, roundColumn b.c1 b.c2 b.c3 b.c0,
    roundColumn b.c2 b.c3 b.c0 b.c1, roundColumn b.c3 b.c0 b.c1 b.c2⟩ key

/-- One column of the last round, which does not mix. -/
def lastColumn (a b c d : UInt32) : UInt32 :=
  column (substitute (row a 0)) (substitute (row b 1)) (substitute (row c 2))
    (substitute (row d 3))

def lastRound (b key : Block) : Block :=
  Block.add ⟨lastColumn b.c0 b.c1 b.c2 b.c3, lastColumn b.c1 b.c2 b.c3 b.c0,
    lastColumn b.c2 b.c3 b.c0 b.c1, lastColumn b.c3 b.c0 b.c1 b.c2⟩ key

/-! ## Keys -/

/-- The keys of one encryption: the key itself, nine of full rounds and the last. -/
structure Schedule where
  start : Block
  middle : List Block
  last : Block
  deriving DecidableEq, Repr, Inhabited

/-- The round key after `key`, with the round's constant. -/
def nextKey (constant : UInt8) (key : Block) : Block :=
  let turned := (key.c3 <<< 8) ||| (key.c3 >>> 24)
  let c0 := key.c0 ^^^ substituteColumn turned ^^^ (constant.toUInt32 <<< 24)
  let c1 := key.c1 ^^^ c0
  let c2 := key.c2 ^^^ c1
  ⟨c0, c1, c2, key.c3 ^^^ c2⟩

def roundKeys : (count : Nat) → (constant : UInt8) → (key : Block) → List Block
  | 0, _, _ => []
  | count + 1, constant, key =>
    let next := nextKey constant key
    next :: roundKeys count (double constant) next

def Schedule.ofKey (key : Block) : Schedule :=
  let keys := roundKeys 10 1 key
  ⟨key, keys.take 9, keys.getD 9 default⟩

def encrypt (schedule : Schedule) (block : Block) : Block :=
  lastRound (schedule.middle.foldl fullRound (block.add schedule.start)) schedule.last

end PhaseWire.Aes
