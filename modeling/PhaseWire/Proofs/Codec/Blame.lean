import PhaseWire.Proofs.Codec.Packets
import PhaseWire.Proofs.Field
import PhaseWire.Proofs.Registry

/-
# Who is to blame when bytes cannot be decoded

Over the core packet types every fault of the decoder is the peer's, and
none is a mistake of the application.  Each stage that can fail has one
lemma: the framer, the compressor, the look-up of the id, the bounds of the
size and the readers of the fields.  A reader is put together from parts
that fail for the peer alone (`FailsByPeer`), so only the parts are looked
at.

The restriction to core types counts for two stages: an application's own
reader may fail for any reason, and it may read a frame as another type.
-/

namespace PhaseWire

/-- No fault has two culprits. -/
theorem Fault.not_bySetup_of_byPeer {fault : Fault} (h : fault.byPeer = true) :
    fault.bySetup = false := by
  cases fault with
  | _ => first | rfl | cases h

/-! ## Numbers and frames -/

theorem VarNum.byPeer_of_peekInt {buffer : Bytes} {fault : Fault}
    (h : peekInt buffer = .error fault) : fault.byPeer = true := by
  rw [peekInt] at h
  split at h
  · cases h
  · cases h
  · cases h
    rfl

theorem Frame.byPeer_of_decode {maxBody : Nat} {buffer : Bytes} {fault : Fault}
    (h : decode maxBody buffer = .error fault) : fault.byPeer = true := by
  rw [decode] at h
  split at h
  · rename_i found hpeek
    cases h
    exact VarNum.byPeer_of_peekInt hpeek
  · cases h
  · dsimp only at h
    split at h
    · cases h
      rfl
    · split at h
      · cases h
        rfl
      · split at h
        · cases h
        · cases h

/-! ## Compressed bodies -/

theorem Method.byPeer_of_decompress {method : Method} {limit : Nat} {data : Bytes} {fault : Fault}
    (h : method.decompress limit data = .error fault) : fault.byPeer = true := by
  rw [decompress.eq_def] at h
  dsimp only at h
  split at h
  · cases h
  · cases h
    rfl

namespace Compressor

variable {compressor : Compressor} {fault : Fault}

theorem byPeer_of_expand {declared : Nat} {data : Bytes}
    (h : compressor.expand declared data = .error fault) : fault.byPeer = true := by
  rw [expand] at h
  split at h
  · cases h
    rfl
  · split at h
    · cases h
      rfl
    · split at h
      · rename_i found hmethod
        cases h
        exact Method.byPeer_of_decompress hmethod
      · split at h
        · cases h
        · cases h
          rfl

theorem byPeer_of_decode {frame : Bytes} (h : compressor.decode frame = .error fault) :
    fault.byPeer = true := by
  rw [decode] at h
  split at h
  · rename_i found hpeek
    cases h
    exact VarNum.byPeer_of_peekInt hpeek
  · cases h
    rfl
  · dsimp only at h
    split at h
    · cases h
    · split at h
      · cases h
        rfl
      · exact byPeer_of_expand h

end Compressor

theorem Pipeline.byPeer_of_next {pipeline next : Pipeline} {fault : Fault}
    (h : pipeline.next = (.error fault, next)) : fault.byPeer = true := by
  rcases next_error_iff.1 h with ⟨hframe, -⟩ | ⟨body, staged, -, hbody, -⟩
  · exact Frame.byPeer_of_decode hframe
  · rw [unwrap] at hbody
    split at hbody
    · cases hbody
    · exact Compressor.byPeer_of_decode hbody

/-! ## Fields -/

namespace Reader

variable {α β : Type}

/-- A reader that fails only for what the peer sent. -/
def FailsByPeer (reader : Reader α) : Prop :=
  ∀ (buffer rest : Bytes) (fault : Fault), reader.onBuffer buffer = (.error fault, rest) →
    fault.byPeer = true

theorem pure_failsByPeer (value : α) : (pure value : Reader α).FailsByPeer := by
  intro buffer rest fault h
  cases h

theorem fail_failsByPeer {fault : Fault} (hfault : fault.byPeer = true) :
    (fail fault : Reader α).FailsByPeer := by
  intro buffer rest found h
  cases h
  exact hfault

theorem FailsByPeer.bind {reader : Reader α} {next : α → Reader β} (hreader : reader.FailsByPeer)
    (hnext : ∀ value, (next value).FailsByPeer) : (reader >>= next).FailsByPeer := by
  intro buffer rest fault h
  rw [onBuffer_bind] at h
  split at h
  · rename_i value middle _
    exact hnext value _ _ _ h
  · rename_i found middle hfound
    cases h
    exact hreader _ _ _ hfound

theorem FailsByPeer.map {reader : Reader α} (hreader : reader.FailsByPeer) (make : α → β) :
    (do return make (← reader) : Reader β).FailsByPeer :=
  hreader.bind fun _ => pure_failsByPeer _

theorem bytes_failsByPeer (count : Nat) : (bytes count).FailsByPeer := by
  intro buffer rest fault h
  rw [onBuffer_bytes] at h
  split at h
  · cases h
    rfl
  · cases h

theorem groups_failsByPeer {tooLong : Fault} (htooLong : tooLong.byPeer = true) (room : Nat) :
    (groups tooLong room).FailsByPeer := by
  intro buffer rest fault h
  rw [onBuffer_groups] at h
  split at h
  · cases h
  · cases h
    rfl
  · cases h
    exact htooLong

theorem varInt_failsByPeer : varInt.FailsByPeer :=
  (groups_failsByPeer rfl _).map _

theorem bigEndian_failsByPeer (width : Nat) : (bigEndian width).FailsByPeer :=
  (bytes_failsByPeer width).map _

theorem word16_failsByPeer : word16.FailsByPeer :=
  (bigEndian_failsByPeer 2).map _

theorem int64_failsByPeer : int64.FailsByPeer :=
  (bigEndian_failsByPeer 8).map _

theorem length_failsByPeer : length.FailsByPeer := by
  refine varInt_failsByPeer.bind fun prefixed => ?_
  split
  · exact fail_failsByPeer rfl
  · exact pure_failsByPeer _

theorem array_failsByPeer (max : Nat) : (array max).FailsByPeer := by
  refine length_failsByPeer.bind fun declared => ?_
  split
  · exact (fail_failsByPeer rfl).bind fun _ => bytes_failsByPeer declared
  · exact bytes_failsByPeer declared

theorem text_failsByPeer (max : Nat) : (text max).FailsByPeer := by
  refine length_failsByPeer.bind fun declared => ?_
  split
  on_goal 1 => refine (fail_failsByPeer rfl).bind fun _ => ?_
  -- behind the check of the length both cases read on alike
  all_goals
    refine (bytes_failsByPeer declared).bind fun raw => ?_
    split
    · exact fail_failsByPeer rfl
    · split
      · exact fail_failsByPeer rfl
      · exact pure_failsByPeer _

end Reader

open Reader in
theorem CorePacket.read_failsByPeer (kind : CoreKind) : (read kind).FailsByPeer := by
  cases kind with
  | handshake =>
      exact varInt_failsByPeer.bind fun _ => (text_failsByPeer _).bind fun _ =>
        word16_failsByPeer.bind fun _ => varInt_failsByPeer.map _
  | statusRequest => exact pure_failsByPeer _
  | statusResponse => exact (text_failsByPeer _).map _
  | statusPing => exact int64_failsByPeer.map _
  | statusPong => exact int64_failsByPeer.map _
  | loginStart => exact (text_failsByPeer _).map _
  | loginDisconnect => exact (text_failsByPeer _).map _
  | encryptionRequest =>
      exact (text_failsByPeer _).bind fun _ => (array_failsByPeer _).bind fun _ =>
        (array_failsByPeer _).map _
  | encryptionResponse => exact (array_failsByPeer _).bind fun _ => (array_failsByPeer _).map _
  | loginSuccess => exact (text_failsByPeer _).bind fun _ => (text_failsByPeer _).map _
  | setCompression => exact varInt_failsByPeer.map _
  | clientboundKeepAlive => exact varInt_failsByPeer.map _
  | serverboundKeepAlive => exact varInt_failsByPeer.map _
  | playDisconnect => exact (text_failsByPeer _).map _

/-! ## Packets -/

variable {E : Type} [CustomPackets E]

namespace PacketCodec

theorem byPeer_of_decodeFields {descriptor : Descriptor E} {kind : CoreKind}
    (hkind : descriptor.produces = .core kind) {fields : Bytes} {fault : Fault}
    (h : decodeFields descriptor fields = .error fault) : fault.byPeer = true := by
  rw [decodeFields, checkSize] at h
  split at h
  · rename_i found hsize
    cases h
    split at hsize
    · cases hsize
    · cases hsize
      rfl
  · split at h
    · rename_i found rest hread
      cases h
      rw [hkind] at hread
      exact ((CorePacket.read_failsByPeer kind).map _) _ _ _ hread
    · cases h
    · cases h
      rfl

theorem byPeer_of_decode {codec : PacketCodec E} {side : Side}
    (hregistry : codec.registry = .standard side) {payload : Bytes} {fault : Fault}
    (h : codec.decode payload = .error fault) : fault.byPeer = true := by
  rw [decode] at h
  split at h
  · cases h
    rfl
  · split at h
    · rename_i found rest hid
      cases h
      exact Reader.varInt_failsByPeer _ _ _ hid
    · rename_i id fields hid
      split at h
      · rename_i found hunknown
        cases h
        rw [Registry.ofId] at hunknown
        split at hunknown
        · cases hunknown
        · cases hunknown
          rfl
      · rename_i descriptor hdescriptor
        have hmem := (Registry.mem_of_ofId hdescriptor).1
        rw [hregistry] at hmem
        obtain ⟨kind, -, hkind, -⟩ := Registry.core_of_mem_standard hmem
        exact byPeer_of_decodeFields hkind h

end PacketCodec

/-- Whatever bytes the peer sends, what cannot be decoded of them is its own fault. -/
theorem ConnectionCodec.byPeer_of_decode {codec next : ConnectionCodec E} {side : Side}
    (hregistry : codec.registry = .standard side) {incoming : Bytes} {fault : Fault}
    (h : codec.decode incoming = (.error fault, next)) : fault.byPeer = true := by
  rw [decode_eq] at h
  rcases decode_error_iff.1 h with ⟨pipeline, hnext, -⟩ | ⟨payload, pipeline, -, hpacket, -⟩
  · exact Pipeline.byPeer_of_next hnext
  · exact PacketCodec.byPeer_of_decode hregistry hpacket

end PhaseWire
