import PhaseWire.Compression.Deflate.Writer
import PhaseWire.Compression.Lz4.Writer
import PhaseWire.Compression.Zstd.Writer
import PhaseWire.Fault

/-
# `Method` — the three compression methods

Each method turns bytes into compressed bytes and back.  How well bytes
are compressed is up to a `Library`, which may also fail to compress them;
the formats only say what compressed bytes mean.

Decompression takes a limit: the caller learns whether the data has more
bytes than that, and never more than it asked for and a little.
-/

namespace PhaseWire

inductive Method
  | zlib
  | lz4
  | zstd
  deriving DecidableEq, Repr, Inhabited

/-- What compresses.  Zlib and Zstandard take a level and may fail. -/
structure Library where
  zlib : (level : Int32) → Bytes → Option Bytes
  lz4 : Bytes → Bytes
  zstd : (level : Int32) → Bytes → Option Bytes

/-- The writers at hand.  The one for Zstandard has a single level. -/
def Library.standard : Library where
  zlib level data := some (Compression.Zlib.compress data level)
  lz4 := Compression.Lz4.compress
  zstd _ data := some (Compression.Zstd.compress data)

instance : Inhabited Library := ⟨.standard⟩

namespace Method

def all : List Method := [.zlib, .lz4, .zstd]

/-- The method in running text and in data formats. -/
def name : Method → String
  | zlib => "zlib"
  | lz4 => "lz4"
  | zstd => "zstd"

/-- The method that a data format names. -/
def ofName? (text : String) : Option Method :=
  all.find? (fun method => method.name == text)

/-- The levels that a method admits.  LZ4 has a single level and admits any number for it. -/
def levels : Method → Int32 × Int32
  | zlib => (0, 9)
  | lz4 => (Int32.minValue, Int32.maxValue)
  | zstd => (1, 22)

/-- The admitted level that is nearest to the given one. -/
def nearest (method : Method) (level : Int32) : Int32 :=
  max method.levels.1 (min level method.levels.2)

/-- Compresses bytes, at the nearest level that the method admits. -/
def compress (library : Library) (method : Method) (level : Int32) (data : Bytes) :
    Except Fault Bytes :=
  let result := match method with
    | zlib => library.zlib (zlib.nearest level) data
    | lz4 => some (library.lz4 data)
    | zstd => library.zstd (zstd.nearest level) data
  match result with
  | some bytes => .ok bytes
  | none => .error .compression

/-- Decompresses bytes.  Data of at most `limit` bytes is given whole.  Longer data is given up to
the byte behind the limit (zlib), up to the end of the piece that passes it (Zstandard), or not at
all (LZ4). -/
def decompress (method : Method) (limit : Nat) (data : Bytes) : Except Fault Bytes :=
  let result := match method with
    | zlib => Compression.Zlib.decompress data limit
    | lz4 => Compression.Lz4.decompress data limit
    | zstd => Compression.Zstd.decompress data limit
  match result with
  | some bytes => .ok bytes
  | none => .error .decompression

end Method
end PhaseWire
