import PhaseWire.Proofs.Codec.Directions
import PhaseWire.Proofs.Field.Raw
import PhaseWire.Proofs.Registry

/-
# No bytes can stop the decoder

The framer, the compressor and the fields of a packet use raw accesses and
sums of lengths which the peer has a say in.  Here they are written over
accesses and sums that stop the program where they should not have been
made, and each is shown to do what the decoder does that nothing can stop:
so every check stands in front of the access that needs it.

A length that was read is below 2³¹, and what stands in front of it takes
at most five bytes; that is all that the sums rest on, whatever the limits
of the stages are.  Nothing is known of the readers of an application, so
the packet types are the standard ones.
-/

namespace PhaseWire

/-! ## Numbers in front of a body -/

namespace VarNum

/-- The number at the front of a buffer, of at most `room` bytes, as a loop finds it that counts the
bytes from an index on. -/
def frontRaw : (room index : Nat) → Bytes → Except Panic Front
  | 0, _, _ => .ok .overlong
  | _ + 1, _, [] => .ok .incomplete
  | room + 1, index, byte :: rest => do
    let used ← Length.add index 1
    if byte < 128 then return .complete byte.toNat used
    else match ← frontRaw room used rest with
      | .complete value used => return .complete (byte.toNat - 128 + 128 * value) used
      | .incomplete => return .incomplete
      | .overlong => return .overlong

def peekIntRaw (buffer : Bytes) : Except Panic (Except Fault (Option (Int32 × Nat))) := do
  match ← frontRaw intBytes 0 buffer with
  | .complete value used => return .ok (some (Int32.ofNat value, used))
  | .incomplete => return .ok none
  | .overlong => return .error .varIntTooLong

/-- What a loop has found that began at an index. -/
def Front.behind (index : Nat) : Front → Front
  | .complete value used => .complete value (index + used)
  | .incomplete => .incomplete
  | .overlong => .overlong

theorem frontRaw_eq : ∀ (room index : Nat) (buffer : Bytes), index + room < UInt64.size →
    frontRaw room index buffer = .ok ((front room buffer).behind index) := by
  intro room
  induction room with
  | zero => intro index buffer _; rfl
  | succ room ih =>
      intro index buffer hfits
      cases buffer with
      | nil => rfl
      | cons byte rest =>
          have hadd : Length.add index 1 = .ok (index + 1) := Length.add_of_lt (by omega)
          rw [frontRaw, front, hadd]
          show (if byte < 128 then _ else _) = _
          split
          · rfl
          · rw [ih (index + 1) rest (by omega)]
            cases front room rest with
            | complete value used =>
                show Except.ok (Front.complete _ (index + 1 + used)) = .ok (.complete _ _)
                rw [Nat.add_assoc, Nat.add_comm 1 used]
            | incomplete => rfl
            | overlong => rfl

theorem peekIntRaw_eq (buffer : Bytes) : peekIntRaw buffer = .ok (peekInt buffer) := by
  have hfits : 0 + intBytes < UInt64.size := by decide
  rw [peekIntRaw, frontRaw_eq intBytes 0 buffer hfits, peekInt]
  cases front intBytes buffer with
  | complete value used =>
      show Except.ok (Except.ok (some (_, 0 + used))) = _
      rw [Nat.zero_add]
  | incomplete => rfl
  | overlong => rfl

/-- A length that was read, and the bytes that it took, fit with room to spare. -/
theorem toNat_lt_of_peekInt {buffer : Bytes} {value : Int32} {used : Nat}
    (h : peekInt buffer = .ok (some (value, used))) :
    used ≤ intBytes ∧ value.toInt.toNat < 2 ^ 31 := by
  obtain ⟨-, hused, -⟩ := peekInt_some_bounds h
  have hvalue := value.toInt_lt
  exact ⟨hused, by omega⟩

end VarNum

/-! ## Frames and bodies -/

/-- What a method does with compressed data, of which at most `limit` bytes are wanted.  The stream
of one method is cut off behind the byte that tells whether there are more. -/
def Method.decompressRaw (method : Method) (limit : Nat) (data : Bytes) :
    Except Panic (Except Fault Bytes) :=
  match method with
  | .zlib => do
    let _ ← Length.add limit 1
    return Method.zlib.decompress limit data
  | .lz4 => return Method.lz4.decompress limit data
  | .zstd => return Method.zstd.decompress limit data

def Compressor.expandRaw (compressor : Compressor) (declared : Nat) (data : Bytes) :
    Except Panic (Except Fault Bytes) :=
  if declared < compressor.threshold then
    return .error (.belowThreshold declared compressor.threshold)
  else if compressor.maxBody < declared then return .error (.tooLarge declared)
  else do
    match ← compressor.method.decompressRaw declared data with
    | .error fault => return .error fault
    | .ok body =>
      if body.length = declared then return .ok body
      else return .error (.lengthMismatch declared body.length)

namespace Raw

/-- The outcome of a call that leaves the buffer as it is. -/
def call {α : Type} (outcome : Except Panic (Except Fault α)) : Raw α :=
  ExceptT.mk (StateT.lift outcome)

/-- The next body, if a whole frame is there. -/
def frame (maxBody : Nat) : Raw (Option Bytes) := do
  match ← call (VarNum.peekIntRaw (← get)) with
  | none => return none
  | some (length, used) =>
    if length < 0 then fail (.negativeLength length)
    else
      let size := length.toInt.toNat
      if maxBody < size then fail (.tooLarge size)
      else
        let total ← lift (Length.add used size)
        let staged ← remaining
        if staged < total then
          reserve (← lift (Length.sub total staged))
          return none
        else
          advance used
          return some (← take size)

def body (compressor : Compressor) : Raw Bytes := do
  match ← call (VarNum.peekIntRaw (← get)) with
  | none =>
    let left ← remaining
    fail (.unexpectedEnd (← lift (Length.add left 1)) left)
  | some (declared, used) =>
    advance used
    let data ← get
    if declared = 0 then return data
    else if declared < 0 then fail (.negativeLength declared)
    else call (compressor.expandRaw declared.toInt.toNat data)

end Raw

theorem Method.decompressRaw_eq (method : Method) {limit : Nat} (data : Bytes)
    (hlimit : limit < 2 ^ 31) :
    method.decompressRaw limit data = .ok (method.decompress limit data) := by
  cases method with
  | zlib =>
      have hadd : Length.add limit 1 = .ok (limit + 1) :=
        Length.add_of_lt (Nat.lt_of_le_of_lt hlimit (by decide))
      rw [decompressRaw, hadd]
      rfl
  | lz4 => rfl
  | zstd => rfl

theorem Compressor.expandRaw_eq (compressor : Compressor) {declared : Nat} (data : Bytes)
    (hdeclared : declared < 2 ^ 31) :
    compressor.expandRaw declared data = .ok (compressor.expand declared data) := by
  rw [expandRaw, expand, Method.decompressRaw_eq compressor.method data hdeclared]
  split
  · rfl
  · split
    · rfl
    · cases compressor.method.decompress declared data with
      | error fault => rfl
      | ok body =>
          show (if body.length = declared then _ else _)
            = Except.ok (if body.length = declared then _ else _)
          by_cases hbody : body.length = declared
          · rw [if_pos hbody, if_pos hbody]
            rfl
          · rw [if_neg hbody, if_neg hbody]
            rfl

namespace Raw

variable {α : Type}

theorem onBuffer_get (buffer : Bytes) :
    (get : Raw Bytes).onBuffer buffer = .ok (.ok buffer, buffer) := rfl

theorem onBuffer_lift {outcome : Except Panic α} {value : α} (h : outcome = .ok value)
    (buffer : Bytes) : (lift outcome).onBuffer buffer = .ok (.ok value, buffer) := by
  rw [h]
  rfl

theorem onBuffer_call {outcome : Except Panic (Except Fault α)} {result : Except Fault α}
    (h : outcome = .ok result) (buffer : Bytes) :
    (call outcome).onBuffer buffer = .ok (result, buffer) := by
  rw [h]
  rfl

theorem onBuffer_remaining (buffer : Bytes) :
    remaining.onBuffer buffer = .ok (.ok buffer.length, buffer) := rfl

theorem onBuffer_advance {count : Nat} {buffer : Bytes} (h : count ≤ buffer.length) :
    (advance count).onBuffer buffer = .ok (.ok (), buffer.drop count) := by
  rw [advance, onBuffer_bind_of_ok (onBuffer_take h)]
  rfl

theorem onBuffer_reserve {additional : Nat} {buffer : Bytes}
    (h : buffer.length + additional < UInt64.size) :
    (reserve additional).onBuffer buffer = .ok (.ok (), buffer) := by
  rw [reserve, onBuffer_bind_of_ok (onBuffer_remaining buffer),
    onBuffer_bind_of_ok (onBuffer_lift (Length.add_of_lt h) buffer)]
  rfl

theorem onBuffer_frame (maxBody : Nat) (buffer : Bytes) :
    (frame maxBody).onBuffer buffer =
      match Frame.decode maxBody buffer with
      | .error fault => .ok (.error fault, buffer)
      | .ok none => .ok (.ok none, buffer)
      | .ok (some (body, rest)) => .ok (.ok (some body), rest) := by
  rw [frame, onBuffer_bind_of_ok (onBuffer_get buffer), onBuffer_bind,
    onBuffer_call (VarNum.peekIntRaw_eq buffer), Frame.decode]
  rcases hpeek : VarNum.peekInt buffer with fault | _ | ⟨length, used⟩
  · rfl
  · rfl
  · obtain ⟨hused, hlength⟩ := VarNum.toNat_lt_of_peekInt hpeek
    have hsum : used + length.toInt.toNat < UInt64.size := by
      have hroom : VarNum.intBytes + 2 ^ 31 < UInt64.size := by decide
      omega
    dsimp only
    split
    · rfl
    · split
      · rfl
      · rw [onBuffer_bind_of_ok (onBuffer_lift (Length.add_of_lt hsum) buffer),
          onBuffer_bind_of_ok (onBuffer_remaining buffer)]
        split
        · rename_i hshort
          have hlack := Length.sub_of_le (Nat.le_of_lt hshort)
          have hroom : buffer.length + (used + length.toInt.toNat - buffer.length)
              < UInt64.size := by omega
          rw [onBuffer_bind_of_ok (onBuffer_lift hlack buffer),
            onBuffer_bind_of_ok (onBuffer_reserve hroom)]
          rfl
        · rename_i hthere
          have hprefix : used ≤ buffer.length := by omega
          have hsize : length.toInt.toNat ≤ (buffer.drop used).length := by
            rw [List.length_drop]
            omega
          rw [onBuffer_bind_of_ok (onBuffer_advance hprefix),
            onBuffer_bind_of_ok (onBuffer_take hsize), List.splitAt_eq]
          rfl

theorem onBuffer_body (compressor : Compressor) (buffer : Bytes) :
    ∃ rest, (body compressor).onBuffer buffer = .ok (compressor.decode buffer, rest) := by
  rw [body, onBuffer_bind_of_ok (onBuffer_get buffer), onBuffer_bind,
    onBuffer_call (VarNum.peekIntRaw_eq buffer), Compressor.decode]
  rcases hpeek : VarNum.peekInt buffer with fault | _ | ⟨declared, used⟩
  · exact ⟨buffer, rfl⟩
  · have hshort := VarNum.peekInt_none_length hpeek
    have hfits : buffer.length + 1 < UInt64.size := by
      have hroom : VarNum.intBytes + 1 < UInt64.size := by decide
      omega
    dsimp only
    rw [onBuffer_bind_of_ok (onBuffer_remaining buffer),
      onBuffer_bind_of_ok (onBuffer_lift (Length.add_of_lt hfits) buffer)]
    exact ⟨buffer, rfl⟩
  · obtain ⟨-, -, hprefix⟩ := VarNum.peekInt_some_bounds hpeek
    obtain ⟨-, hdeclared⟩ := VarNum.toNat_lt_of_peekInt hpeek
    dsimp only
    rw [onBuffer_bind_of_ok (onBuffer_advance hprefix),
      onBuffer_bind_of_ok (onBuffer_get (buffer.drop used))]
    refine ⟨buffer.drop used, ?_⟩
    split
    · rfl
    · split
      · rfl
      · exact onBuffer_call (compressor.expandRaw_eq (buffer.drop used) hdeclared) _

end Raw

/-! ## Payloads -/

variable {E : Type} [CustomPackets E]

namespace PacketCodec

/-- The packet of a known type in the bytes of its fields, which it must use up. -/
def decodeFieldsRaw (descriptor : Descriptor E) (fields : Bytes) :
    Except Panic (Except Fault (Packet E)) :=
  match checkSize descriptor fields.length with
  | .error fault => return .error fault
  | .ok () => do
    match ← (Raw.packet descriptor.produces).onBuffer fields with
    | (.error fault, _) => return .error fault
    | (.ok packet, []) => return .ok packet
    | (.ok _, rest) => return .error (.trailingBytes descriptor.typeName rest.length)

def decodeRaw (codec : PacketCodec E) (payload : Bytes) : Except Panic (Except Fault (Packet E)) :=
  if payload.isEmpty then return .error .emptyFrame
  else do
    match ← Raw.varInt.onBuffer payload with
    | (.error fault, _) => return .error fault
    | (.ok id, fields) =>
      match codec.registry.ofId codec.phase .inbound id with
      | .error fault => return .error fault
      | .ok descriptor => decodeFieldsRaw descriptor fields

theorem decodeFieldsRaw_eq {descriptor : Descriptor E} {kind : CoreKind}
    (hkind : descriptor.produces = .core kind) (fields : Bytes) :
    decodeFieldsRaw descriptor fields = .ok (decodeFields descriptor fields) := by
  have htracks : (Raw.packet (E := E) (.core kind)).Tracks (Packet.read (.core kind)) :=
    (Raw.core_tracks kind).map _
  rw [decodeFieldsRaw, decodeFields]
  cases checkSize descriptor fields.length with
  | error fault => rfl
  | ok _ =>
      dsimp only
      rw [hkind, htracks fields]
      rcases (Packet.read (.core kind)).onBuffer fields with ⟨fault | packet, _ | ⟨byte, rest⟩⟩
      · rfl
      · rfl
      · rfl
      · rfl

theorem decodeRaw_eq {codec : PacketCodec E} {side : Side}
    (hregistry : codec.registry = .standard side) (payload : Bytes) :
    codec.decodeRaw payload = .ok (codec.decode payload) := by
  rw [decodeRaw, decode]
  split
  · rfl
  · rw [Raw.varInt_tracks payload]
    rcases Reader.varInt.onBuffer payload with ⟨fault | id, fields⟩
    · rfl
    · show (match codec.registry.ofId codec.phase .inbound id with
        | .error fault => _
        | .ok descriptor => _)
          = Except.ok (match codec.registry.ofId codec.phase .inbound id with
            | .error fault => _
            | .ok descriptor => _)
      cases hdescriptor : codec.registry.ofId codec.phase .inbound id with
      | error fault => rfl
      | ok descriptor =>
          have hmem := (Registry.mem_of_ofId hdescriptor).1
          rw [hregistry] at hmem
          obtain ⟨kind, -, hkind, -⟩ := Registry.core_of_mem_standard hmem
          exact decodeFieldsRaw_eq hkind fields

end PacketCodec

/-! ## Stages -/

namespace Chain

/-- What a list of stages makes of a frame, and what it leaves of the staged bytes. -/
def openRaw (staged : Bytes) (frame? : Option Bytes) :
    List Stage → Except Panic (Except Fault (Option Bytes) × Bytes)
  | [] => return (.ok frame?, staged)
  | stage :: inner =>
    match stage, frame? with
    | .framer maxBody, none => do
      match ← (Raw.frame maxBody).onBuffer staged with
      | (.error fault, staged) => return (.error fault, staged)
      | (.ok none, staged) => return (.ok none, staged)
      | (.ok (some body), staged) => openRaw staged (some body) inner
    | .compression compressor, some body => do
      match ← (Raw.body compressor).onBuffer body with
      | (.error fault, _) => return (.error fault, staged)
      | (.ok body, _) => openRaw staged (some body) inner
    | _, frame? => openRaw staged frame? inner

/-- Takes in bytes from the wire and gives the next payload, if a whole frame is there. -/
def decodeRaw (chain : Chain) (incoming : Bytes) :
    Except Panic (Except Fault (Option Bytes) × Chain) := do
  let chain := chain.feed incoming
  let (result, staged) ← openRaw chain.staged none chain.stages
  return (result, { chain with staged })

/-- Stages in whatever order and number. -/
theorem openRaw_eq : ∀ (stages : List Stage) (staged : Bytes) (frame? : Option Bytes),
    openRaw staged frame? stages = .ok (openThrough staged frame? stages) := by
  intro stages
  induction stages with
  | nil => intro staged frame?; rfl
  | cons stage inner ih =>
      intro staged frame?
      cases stage with
      | cipher cipher =>
          cases frame? <;> exact ih staged _
      | framer maxBody =>
          cases frame? with
          | some body => exact ih staged _
          | none =>
              rw [openRaw, openThrough, Raw.onBuffer_frame]
              rcases Frame.decode maxBody staged with fault | _ | ⟨body, rest⟩
              · rfl
              · rfl
              · exact ih rest (some body)
      | compression compressor =>
          cases frame? with
          | none => exact ih staged none
          | some body =>
              obtain ⟨rest, hbody⟩ := Raw.onBuffer_body compressor body
              rw [openRaw, openThrough, hbody]
              cases compressor.decode body with
              | error fault => rfl
              | ok opened => exact ih staged (some opened)

theorem decodeRaw_eq (chain : Chain) (incoming : Bytes) :
    chain.decodeRaw incoming = .ok (chain.decode incoming) := by
  rw [decodeRaw, openRaw_eq]
  rfl

end Chain

/-! ## Connections -/

namespace Outlet

variable {outlet : Outlet E} {side : Side}

/-- Takes in bytes from the wire and gives the next packet, if a whole frame is there. -/
def decodeRaw (outlet : Outlet E) (incoming : Bytes) :
    Except Panic (Except Fault (Option (Packet E)) × Outlet E) := do
  match ← outlet.chain.decodeRaw incoming with
  | (.error fault, chain) => return (.error fault, { outlet with chain })
  | (.ok none, chain) => return (.ok none, { outlet with chain })
  | (.ok (some payload), chain) =>
    match ← outlet.packets.decodeRaw payload with
    | .error fault => return (.error fault, { outlet with chain })
    | .ok packet =>
      let metrics := outlet.metrics.received (UInt64.ofNat payload.length)
      return (.ok (some packet), { outlet with chain, metrics })

/-- A deed in place, where bytes that come in are read by raw accesses. -/
def actRaw (spill : Packet E → Bytes) (outlet : Outlet E) :
    Deed E → Except Panic (Deed.Reply E × Outlet E)
  | .decode incoming => do
    let (result, next) ← outlet.decodeRaw incoming
    return (.received result, next)
  | deed => return outlet.act spill deed

theorem decodeRaw_eq (hregistry : outlet.packets.registry = .standard side) (incoming : Bytes) :
    outlet.decodeRaw incoming = .ok (outlet.decode incoming) := by
  rw [decodeRaw, Chain.decodeRaw_eq, decode]
  rcases outlet.chain.decode incoming with ⟨fault | _ | payload, chain⟩
  · rfl
  · rfl
  · show (outlet.packets.decodeRaw payload >>= _)
      = Except.ok (match outlet.packets.decode payload with
        | .error fault => _
        | .ok packet => _)
    rw [PacketCodec.decodeRaw_eq hregistry payload]
    cases outlet.packets.decode payload with
    | error fault => rfl
    | ok packet => rfl

theorem actRaw_eq (spill : Packet E → Bytes)
    (hregistry : outlet.packets.registry = .standard side) (deed : Deed E) :
    outlet.actRaw spill deed = .ok (outlet.act spill deed) := by
  cases deed with
  | operate operation => rfl
  | encode packet => rfl
  | decode incoming =>
      rw [actRaw, decodeRaw_eq hregistry]
      rfl

theorem registry_act (spill : Packet E → Bytes) (outlet : Outlet E) (deed : Deed E) :
    (outlet.act spill deed).2.packets.registry = outlet.packets.registry := by
  cases deed with
  | operate operation => cases operation <;> rfl
  | encode packet =>
      simp only [act, encode]
      split
      · rfl
      · split <;> rfl
  | decode incoming =>
      simp only [act, decode, Prod.map]
      split
      · rfl
      · rfl
      · split <;> rfl

end Outlet

/-- One deed after the other, until one stops the program. -/
def traceRaw {σ δ ρ : Type} (act : σ → δ → Except Panic (ρ × σ)) :
    σ → List δ → Except Panic (List (δ × ρ) × σ)
  | state, [] => return ([], state)
  | state, deed :: deeds => do
    let (reply, next) ← act state deed
    let (events, last) ← traceRaw act next deeds
    return ((deed, reply) :: events, last)

theorem traceRaw_eq (spill : Packet E → Bytes) {side : Side} : ∀ (deeds : List (Deed E))
    {outlet : Outlet E}, outlet.packets.registry = .standard side →
      traceRaw (Outlet.actRaw spill) outlet deeds
        = .ok (trace (Outlet.act spill) outlet deeds) := by
  intro deeds
  induction deeds with
  | nil => intro outlet _; rfl
  | cons deed deeds ih =>
      intro outlet hregistry
      have hnext := (Outlet.registry_act spill outlet deed).trans hregistry
      rw [traceRaw, Outlet.actRaw_eq spill hregistry]
      show (traceRaw (Outlet.actRaw spill) (outlet.act spill deed).2 deeds >>= _) = _
      rw [ih hnext]
      rfl

/-- Over the standard packet types nothing stops the decoder: with any stages, any limits, in any
phase and whatever came before, bytes come in piece by piece, and between the pieces packets are
sent and stages and phase are changed.  Every raw access finds the bytes it needs, and every sum
and difference of lengths is one; so each piece is answered with a packet, with a fault, or with
the wish for more, as it is by value. -/
theorem decoding_never_panics (spill : Packet E → Bytes) (side : Side) (phase : Phase)
    (pipeline : Pipeline) (metrics : Metrics) (output : Bytes) (deeds : List (Deed E)) :
    let codec : ConnectionCodec E := ⟨pipeline, ⟨.standard side, phase⟩, metrics⟩
    let whole := trace Line.act ⟨codec, output⟩ deeds
    traceRaw (Outlet.actRaw spill) (codec.outlet output) deeds = .ok (whole.1, whole.2.outlet) := by
  intro codec whole
  have hplace := trace_map (Line.outlet_act spill) deeds ⟨codec, output⟩
  rw [traceRaw_eq spill deeds (rfl : (codec.outlet output).packets.registry = .standard side)]
  exact congrArg Except.ok hplace

end PhaseWire
