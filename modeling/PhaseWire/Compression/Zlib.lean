import PhaseWire.Compression.Deflate

/-
# `Zlib` — deflate streams with a header and a checksum

Two header bytes name the method and the window and check each other;
after the stream come four bytes of the Adler-32 checksum of the data.

Of data that is longer than the limit only the front is given, up to the
byte behind the limit.  Decoding goes in rounds: it takes input piece by
piece, and gives output piece by piece, and goes on to the next piece of
either only while the byte behind the limit is not known.  A fault in the
round that finds this byte is still a fault, and so is a wrong checksum;
what lies beyond the round is not looked at.
-/

namespace PhaseWire.Compression.Zlib

def adlerModulus : Nat := 65521

def adler32 (bytes : Array UInt8) : Nat :=
  let (low, high) := bytes.foldl
    (fun (low, high) byte =>
      let low := (low + byte.toNat) % adlerModulus
      (low, (high + low) % adlerModulus))
    (1, 0)
  high * 65536 + low

/-- Whether two bytes are the header of a stream with a window of at most 32768 bytes and without a
preset dictionary. -/
def validHeader (method flags : UInt8) : Bool :=
  (method.toNat * 256 + flags.toNat) % 31 = 0 && method % 16 = 8 && method.toNat / 16 ≤ 7
    && flags.toNat / 32 % 2 = 0

def pieceSize : Nat := 32768

/-- The end of the piece of output that has the byte behind the limit. -/
def horizon (limit : Nat) : Nat :=
  (limit / pieceSize + 1) * pieceSize

/-- Cuts input into pieces, of which the first starts behind the header. -/
def piecesBehindHeader (input : Bytes) : List Bytes :=
  input.take (pieceSize - 2) :: Bytes.pieces pieceSize (input.drop (pieceSize - 2))

/-- Decodes piece after piece of input, until there is enough output. -/
def inflate (limit : Nat) : List Bytes → Deflate.State → Halt Deflate.State × List Bytes
  | [], state => (.starved state, [])
  | piece :: pieces, state =>
    match Deflate.resume (horizon limit) (state.supply piece) with
    | .starved state =>
      if limit < state.out.size then (.paused state, pieces) else inflate limit pieces state
    | halt => (halt, pieces)

/-- The data behind the header of a stream, of at most `limit + 1` bytes. -/
def body (limit : Nat) (input : Bytes) : Option Bytes :=
  match inflate limit (piecesBehindHeader input) .start with
  | (.paused state, _) => some (state.out.toList.take (limit + 1))
  | (.finished state, later) =>
    let now := state.source.align
    let trailer := (now ++ later.flatten).take 4
    if (now.length < 4 && limit < state.out.size)
        || (trailer.length = 4 && Bytes.ofBigEndian trailer = adler32 state.out) then
      some (state.out.toList.take (limit + 1))
    else none
  | _ => none

/-- The data of a stream: all of it if it has at most `limit` bytes, else `limit + 1` bytes. -/
def decompress (data : Bytes) (limit : Nat) : Option Bytes :=
  match data with
  | method :: flags :: input =>
    if validHeader method flags then body limit input else none
  | _ => none

end PhaseWire.Compression.Zlib
