import PhaseWire.Bytes
import PhaseWire.Phase
import PhaseWire.Fault
import PhaseWire.VarNum
import PhaseWire.Field.Reader
import PhaseWire.Field.Writer
import PhaseWire.Packet.Core
import PhaseWire.Packet.Named
import PhaseWire.Packet.Custom
import PhaseWire.Registry
import PhaseWire.Cipher.Block
import PhaseWire.Cipher.Stream
import PhaseWire.Frame
import PhaseWire.Metrics
import PhaseWire.Compression.Bits
import PhaseWire.Compression.Run
import PhaseWire.Compression.Prefix
import PhaseWire.Compression.Prefix.Lengths
import PhaseWire.Compression.Prefix.Words
import PhaseWire.Compression.Deflate
import PhaseWire.Compression.Zlib
import PhaseWire.Compression.Lz4
import PhaseWire.Compression.Zstd.Bits
import PhaseWire.Compression.Zstd.Window
import PhaseWire.Compression.Zstd.Fse
import PhaseWire.Compression.Zstd.WeightCode
import PhaseWire.Compression.Zstd.Lanes
import PhaseWire.Compression.Zstd.Literals
import PhaseWire.Compression.Zstd.Store
import PhaseWire.Compression.Zstd.Sequences
import PhaseWire.Compression.Zstd.Header
import PhaseWire.Compression.Zstd.Block
import PhaseWire.Compression.Zstd.Checksum
import PhaseWire.Compression.Zstd.Whole
import PhaseWire.Compression.Zstd.Early
import PhaseWire.Compression.Zstd.Stream
import PhaseWire.Compression.Zstd.Frame
import PhaseWire.Compression.Match
import PhaseWire.Compression.Deflate.Parse
import PhaseWire.Compression.Deflate.Block
import PhaseWire.Compression.Deflate.Writer
import PhaseWire.Compression.Lz4.Writer
import PhaseWire.Compression.Zstd.Writer
import PhaseWire.Compression.Method
import PhaseWire.Compression.Stage
import PhaseWire.Pipeline
import PhaseWire.Codec.Payload
import PhaseWire.Codec.Connection
import PhaseWire.Codec.Decoder
import PhaseWire.Text.Number
import PhaseWire.Text.Hex
import PhaseWire.Config.Address
import PhaseWire.Toml.Value
import PhaseWire.Toml.Lexeme
import PhaseWire.Toml.Document
import PhaseWire.Toml.Writer
import PhaseWire.Config.Basic
import PhaseWire.Config.Check
import PhaseWire.Config.File
import PhaseWire.Config.Environment
import PhaseWire.Deadline
import PhaseWire.Instant
import PhaseWire.Session.Options
import PhaseWire.Transport.Pipe
import PhaseWire.Session.Request
import PhaseWire.Session.Listener
import PhaseWire.Session.State
import PhaseWire.Session.Call
import PhaseWire.Session.Script
import PhaseWire.Session.Turn
import PhaseWire.Link.Basic
import PhaseWire.Link.Peer
import PhaseWire.Proofs.VarNum
import PhaseWire.Proofs.Bytes
import PhaseWire.Proofs.Field
import PhaseWire.Proofs.Packet
import PhaseWire.Proofs.Registry
import PhaseWire.Proofs.Registry.Tables
import PhaseWire.Proofs.Codec.Payload
import PhaseWire.Proofs.Cipher
import PhaseWire.Proofs.Frame
import PhaseWire.Proofs.Codec.Streaming
import PhaseWire.Proofs.Pipeline.Change
import PhaseWire.Proofs.Codec.Packets
import PhaseWire.Proofs.Codec.Blame
import PhaseWire.Proofs.Compression.Stage
import PhaseWire.Proofs.Pipeline.RoundTrip
import PhaseWire.Proofs.Pipeline.Chain
import PhaseWire.Proofs.Pipeline.Order
import PhaseWire.Proofs.Codec.Outlet
import PhaseWire.Proofs.Codec.Directions
import PhaseWire.Proofs.Field.Raw
import PhaseWire.Proofs.Codec.Guards
import PhaseWire.Proofs.Compression.Match
import PhaseWire.Proofs.Compression.Lz4
import PhaseWire.Proofs.Compression.Acceptance
import PhaseWire.Proofs.Session.Books
import PhaseWire.Proofs.Session.Ahead
import PhaseWire.Proofs.Session.Reading
import PhaseWire.Proofs.Session.Verdict
import PhaseWire.Proofs.Session.Controls
import PhaseWire.Proofs.Session.Serving
import PhaseWire.Proofs.Interleaving.Errand
import PhaseWire.Proofs.Interleaving.Job
import PhaseWire.Proofs.Interleaving.World
import PhaseWire.Proofs.Interleaving.Handing
import PhaseWire.Proofs.Interleaving.Uninterrupted
import PhaseWire.Proofs.Interleaving.Ledger
import PhaseWire.Proofs.Interleaving.Timer
import PhaseWire.Proofs.Interleaving.Commands
import PhaseWire.Proofs.Interleaving.Senders
import PhaseWire.Proofs.Interleaving.Completions
import PhaseWire.Proofs.Interleaving.Fate
import PhaseWire.Proofs.Interleaving.Closing
import PhaseWire.Proofs.Interleaving.Gauge
import PhaseWire.Proofs.Interleaving.Ending
import PhaseWire.Proofs.Interleaving.Writes
import PhaseWire.Proofs.Interleaving.Course
import PhaseWire.Proofs.Interleaving.Phases
import PhaseWire.Proofs.Interleaving.Lone
import PhaseWire.Proofs.Interleaving.Callbacks
import PhaseWire.Proofs.Interleaving.Pulse
import PhaseWire.Proofs.Interleaving.Keepalive
import PhaseWire.Proofs.Compression.Declared
import PhaseWire.Proofs.Compression.Growth
import PhaseWire.Proofs.Compression.Cap
import PhaseWire.Proofs.Codec.Residue
import PhaseWire.Proofs.Interleaving.Unsent
import PhaseWire.Proofs.VarNum.Spelling
import PhaseWire.Proofs.VarNum.Width
import PhaseWire.Proofs.Field.Limit
import PhaseWire.Proofs.Interleaving.Controls
import PhaseWire.Proofs.Cipher.Calls
import PhaseWire.Proofs.Announcement
import PhaseWire.Proofs.Text.Number
import PhaseWire.Proofs.Toml.Number
import PhaseWire.Proofs.Toml.Text
import PhaseWire.Proofs.Toml.Document
import PhaseWire.Proofs.Config.File
