import PhaseWire.Proofs.Pipeline.Change

/-
# Packets do not depend on how their bytes arrive

A codec is a decoder of streams, like the pipeline it is built on: it only
adds a verdict on each payload, by a registry and a phase that bytes do
not change.  So is a codec whose owner, after each packet, moves it to
another phase or changes its stages as the packets so far tell
(`guided`).  The bytes may come from anyone.
-/

namespace PhaseWire.ConnectionCodec

variable {E : Type} [CustomPackets E] {codec next : ConnectionCodec E}

/-- Takes in bytes from the wire. -/
def absorb (codec : ConnectionCodec E) (bytes : Bytes) : ConnectionCodec E :=
  { codec with pipeline := codec.pipeline.feed bytes }

/-! ## The next packet -/

theorem decode_some_iff {packet : Packet E} :
    codec.decode [] = (.ok (some packet), next) ↔
      ∃ payload pipeline, codec.pipeline.next = (.ok (some payload), pipeline)
        ∧ codec.packets.decode payload = .ok packet
        ∧ { codec with
            pipeline, metrics := codec.metrics.received (UInt64.ofNat payload.length) } = next := by
  rw [decode, Pipeline.decode_nil]
  rcases codec.pipeline.next with ⟨fault | _ | payload, pipeline⟩
  · simp
  · simp
  · cases hpacket : codec.packets.decode payload with
    | error fault => simp [receive, hpacket]
    | ok found => simp [receive, hpacket, and_assoc]

/-- What `decode` has found when it fails: a fault of the pipeline, or a payload that is no
packet. -/
theorem decode_error_iff {fault : Fault} :
    codec.decode [] = (.error fault, next) ↔
      (∃ pipeline, codec.pipeline.next = (.error fault, pipeline) ∧ { codec with pipeline } = next)
      ∨ ∃ payload pipeline, codec.pipeline.next = (.ok (some payload), pipeline)
        ∧ codec.packets.decode payload = .error fault ∧ { codec with pipeline } = next := by
  rw [decode, Pipeline.decode_nil]
  rcases codec.pipeline.next with ⟨found | _ | payload, pipeline⟩
  · simp [and_assoc]
  · simp
  · cases hpacket : codec.packets.decode payload with
    | error found => simp [receive, hpacket, and_assoc]
    | ok found => simp [receive, hpacket]

theorem decode_none_iff :
    codec.decode [] = (.ok none, next) ↔
      ∃ pipeline, codec.pipeline.next = (.ok none, pipeline) ∧ { codec with pipeline } = next := by
  rw [decode, Pipeline.decode_nil]
  rcases codec.pipeline.next with ⟨fault | _ | payload, pipeline⟩
  · simp
  · simp
  · cases hpacket : codec.packets.decode payload with
    | error fault => simp [receive, hpacket]
    | ok found => simp [receive, hpacket]

theorem packets_decode (codec : ConnectionCodec E) (incoming : Bytes) :
    (codec.decode incoming).2.packets = codec.packets := by
  rw [decode]
  split
  · rfl
  · rfl
  · rw [receive]
    split
    · rfl
    · rfl

theorem registry_decode (codec : ConnectionCodec E) (incoming : Bytes) :
    (codec.decode incoming).2.registry = codec.registry :=
  congrArg PacketCodec.registry (codec.packets_decode incoming)

/-- The answers of a codec do not depend on how the bytes arrive. -/
theorem streaming : (decoder (E := E)).IsStreaming absorb where
  absorb_nil := fun codec => by rw [absorb, Pipeline.feed_nil]
  absorb_append := fun codec front back => by rw [absorb, Pipeline.feed_append]; rfl
  pending_absorb := fun codec bytes => Pipeline.feed_pending codec.pipeline bytes
  decode_eq := by
    intro codec bytes
    simp only [decoder, decode, Pipeline.decode_nil]
    rfl
  decode_some := by
    intro codec packet next h more
    obtain ⟨payload, pipeline, hnext, hpacket, rfl⟩ := decode_some_iff.1 h
    exact decode_some_iff.2
      ⟨payload, pipeline.feed more, Pipeline.next_feed_some hnext more, hpacket, rfl⟩
  decode_error := by
    intro codec fault next h more
    rcases decode_error_iff.1 h with ⟨pipeline, hnext, -⟩ | ⟨payload, pipeline, hnext, hpacket, -⟩
    · obtain ⟨other, hother⟩ := Pipeline.next_feed_error hnext more
      exact ⟨_, decode_error_iff.2 (.inl ⟨other, hother, rfl⟩)⟩
    · exact ⟨_, decode_error_iff.2
        (.inr ⟨payload, pipeline.feed more, Pipeline.next_feed_some hnext more, hpacket, rfl⟩)⟩
  decode_none := by
    intro codec next h
    obtain ⟨pipeline, hnext, rfl⟩ := decode_none_iff.1 h
    obtain ⟨-, rfl⟩ := Pipeline.next_none_iff.1 hnext
    rfl
  pending_lt := by
    intro codec packet next h
    obtain ⟨payload, pipeline, hnext, -, rfl⟩ := decode_some_iff.1 h
    exact Pipeline.pending_lt_of_next_some hnext

/-- The bytes handed to a call could have been absorbed before it. -/
theorem decode_eq (codec : ConnectionCodec E) (bytes : Bytes) :
    codec.decode bytes = (codec.absorb bytes).decode [] :=
  streaming.decode_eq codec bytes

@[simp] theorem absorb_nil (codec : ConnectionCodec E) : codec.absorb [] = codec :=
  streaming.absorb_nil codec

/-! ## Sending -/

theorem encode_eq_ok {packet : Packet E} {sent : Pipeline.Sent}
    (h : codec.encode packet = .ok (sent, next)) :
    ∃ payload pipeline, codec.packets.encode packet = .ok payload
        ∧ codec.pipeline.encode payload = .ok (sent, pipeline)
        ∧ { codec with pipeline, metrics := count codec.metrics sent } = next := by
  rw [encode] at h
  split at h
  · cases h
  · rename_i payload hpayload
    split at h
    · cases h
    · rename_i pipeline hpipeline
      cases h
      exact ⟨payload, pipeline, hpayload, hpipeline, rfl⟩

theorem packets_encode {packet : Packet E} {sent : Pipeline.Sent}
    (h : codec.encode packet = .ok (sent, next)) : next.packets = codec.packets := by
  obtain ⟨payload, pipeline, -, -, rfl⟩ := encode_eq_ok h
  rfl

theorem registry_encode {packet : Packet E} {sent : Pipeline.Sent}
    (h : codec.encode packet = .ok (sent, next)) : next.registry = codec.registry :=
  congrArg PacketCodec.registry (packets_encode h)

/-- What arrives does nothing to what is sent. -/
theorem encode_absorb (codec : ConnectionCodec E) (packet : Packet E) (bytes : Bytes) :
    (codec.absorb bytes).encode packet
      = (codec.encode packet).map fun (sent, next) => (sent, next.absorb bytes) := by
  simp only [encode, absorb, Pipeline.encode_feed]
  cases codec.packets.encode packet with
  | error fault => rfl
  | ok payload =>
      dsimp only
      rcases codec.pipeline.encode payload with fault | ⟨sent, pipeline⟩
      · rfl
      · rfl

/-! ## A reader who acts on the packets it gets -/

/-- What the owner of a codec may do between two packets. -/
inductive Operation
  | enter (phase : Phase)
  | change (change : Pipeline.Change)

/-- The codec after an operation; one that is refused leaves it as it is. -/
def operate (codec : ConnectionCodec E) : Operation → ConnectionCodec E
  | .enter phase => codec.setPhase phase
  | .change change => { codec with pipeline := codec.pipeline.change change }

def operateAll (codec : ConnectionCodec E) (operations : List Operation) : ConnectionCodec E :=
  operations.foldl operate codec

/-- The codec as a decoder whose owner, after each packet, does what the packets so far tell. -/
def guided (policy : List (Packet E) → List Operation) :
    Decoder (ConnectionCodec E × List (Packet E)) (Packet E) :=
  decoder.steered fun sofar codec => codec.operateAll (policy sofar)

theorem operate_absorb (codec : ConnectionCodec E) (operation : Operation) (bytes : Bytes) :
    (codec.absorb bytes).operate operation = (codec.operate operation).absorb bytes := by
  cases operation with
  | enter phase => rfl
  | change change => simp only [operate, absorb, Pipeline.change_feed]

theorem operate_pending (codec : ConnectionCodec E) (operation : Operation) :
    (codec.operate operation).pipeline.pending = codec.pipeline.pending := by
  cases operation with
  | enter phase => rfl
  | change change => exact Pipeline.change_pending codec.pipeline change

theorem operate_maxBody (codec : ConnectionCodec E) (operation : Operation) :
    (codec.operate operation).pipeline.maxBody = codec.pipeline.maxBody := by
  cases operation with
  | enter phase => rfl
  | change change => exact Pipeline.change_maxBody codec.pipeline change

theorem operateAll_absorb (bytes : Bytes) :
    ∀ (operations : List Operation) (codec : ConnectionCodec E),
      (codec.absorb bytes).operateAll operations = (codec.operateAll operations).absorb bytes := by
  intro operations
  induction operations with
  | nil => intro codec; rfl
  | cons operation operations ih =>
      intro codec
      rw [operateAll, List.foldl_cons, operate_absorb]
      exact ih (codec.operate operation)

theorem operateAll_pending : ∀ (operations : List Operation) (codec : ConnectionCodec E),
    (codec.operateAll operations).pipeline.pending = codec.pipeline.pending := by
  intro operations
  induction operations with
  | nil => intro codec; rfl
  | cons operation operations ih =>
      intro codec
      rw [operateAll, List.foldl_cons, ← operate_pending codec operation]
      exact ih (codec.operate operation)

theorem operateAll_maxBody : ∀ (operations : List Operation) (codec : ConnectionCodec E),
    (codec.operateAll operations).pipeline.maxBody = codec.pipeline.maxBody := by
  intro operations
  induction operations with
  | nil => intro codec; rfl
  | cons operation operations ih =>
      intro codec
      rw [operateAll, List.foldl_cons, ← operate_maxBody codec operation]
      exact ih (codec.operate operation)

def absorbGuided (state : ConnectionCodec E × List (Packet E)) (bytes : Bytes) :
    ConnectionCodec E × List (Packet E) :=
  (state.1.absorb bytes, state.2)

theorem guided_streaming (policy : List (Packet E) → List Operation) :
    (guided policy).IsStreaming absorbGuided :=
  streaming.steered (fun sofar codec bytes => operateAll_absorb bytes (policy sofar) codec)
    (fun sofar codec => operateAll_pending (policy sofar) codec)

/-! ## Any two ways to cut a stream -/

theorem decode_maxBody (codec : ConnectionCodec E) (incoming : Bytes) :
    (codec.decode incoming).2.pipeline.maxBody = codec.pipeline.maxBody := by
  have hnext := Pipeline.next_maxBody (codec.pipeline.feed incoming)
  rw [Pipeline.feed_maxBody] at hnext
  rw [decode, Pipeline.decode]
  generalize (codec.pipeline.feed incoming).next = found at hnext ⊢
  rcases found with ⟨fault | _ | payload, pipeline⟩
  · exact hnext
  · exact hnext
  · simp only [receive]
    split
    · exact hnext
    · exact hnext

theorem guided_maxBody (policy : List (Packet E) → List Operation)
    (state : ConnectionCodec E × List (Packet E)) (incoming : Bytes) :
    ((guided policy).decode state incoming).2.1.pipeline.maxBody = state.1.pipeline.maxBody := by
  have hdecode := decode_maxBody state.1 incoming
  simp only [guided, Decoder.steered, decoder]
  generalize state.1.decode incoming = found at hdecode ⊢
  rcases found with ⟨fault | _ | packet, codec⟩
  · exact hdecode
  · exact hdecode
  · rw [← hdecode]
    exact operateAll_maxBody _ codec

theorem guided_pending_lt {policy : List (Packet E) → List Operation}
    {state next : ConnectionCodec E × List (Packet E)}
    (h : (guided policy).decode state [] = (.ok none, next)) :
    next.1.pipeline.pending < VarNum.intBytes + next.1.pipeline.maxBody := by
  simp only [guided, Decoder.steered, decoder] at h
  split at h
  · exact absurd h (by simp)
  · rename_i codec hdecode
    obtain rfl := (Prod.mk.inj h).2
    obtain ⟨pipeline, hnext, rfl⟩ := decode_none_iff.1 hdecode
    exact Pipeline.pending_lt_of_next_none hnext
  · exact absurd h (by simp)

theorem guided_idle (policy : List (Packet E) → List Operation)
    (hempty : codec.pipeline.staged = []) :
    (guided policy).decode (codec, []) [] = (.ok none, codec, []) := by
  have hframe : Frame.decode codec.pipeline.maxBody codec.pipeline.staged = .ok none := by
    rw [hempty, Frame.decode_nil]
  have hdecode : codec.decode [] = (.ok none, codec) :=
    decode_none_iff.2 ⟨codec.pipeline, Pipeline.next_none_iff.2 ⟨hframe, rfl⟩, rfl⟩
  simp only [guided, Decoder.steered, decoder]
  rw [hdecode]

/-- Two ways to cut the same bytes give the same packets and the same first fault, and if there is
none the same codec, with the same bytes staged.  Each packet takes a byte at least; so each piece
is decoded until more bytes are needed, and then fewer are staged than the longest frame has. -/
theorem guided_feed_eq (codec : ConnectionCodec E) (hempty : codec.pipeline.staged = [])
    (policy : List (Packet E) → List Operation) {pieces pieces' : List Bytes}
    (h : pieces.flatten = pieces'.flatten) :
    let one := (guided policy).feed (codec, []) pieces
    let other := (guided policy).feed (codec, []) pieces'
    one.items = other.items ∧ one.fault? = other.fault?
      ∧ (one.fault? = none → one.state = other.state)
      ∧ one.items.length ≤ pieces.flatten.length
      ∧ (one.fault? = none → (guided policy).decode one.state [] = (.ok none, one.state)
          ∧ one.state.1.pipeline.pending < VarNum.intBytes + codec.pipeline.maxBody) := by
  intro one other
  have hidle := guided_idle policy hempty
  have hstreaming := guided_streaming (E := E) policy
  obtain ⟨hitems, hfault, hstate⟩ := Decoder.feed_eq_of_flatten_eq hstreaming hidle h
  obtain ⟨last, hlast, hend⟩ := Decoder.feed_drained hstreaming hidle pieces
  refine ⟨hitems, hfault, hstate, ?_, fun hnone => ?_⟩
  · have hlength := hlast.length_le hstreaming
    rw [hstreaming.pending_absorb] at hlength
    have hpending : (guided policy).pending (codec, []) = 0 := congrArg List.length hempty
    rwa [hpending, Nat.zero_add] at hlength
  · have hdone := Decoder.feed_idle hstreaming hidle pieces hnone
    have hmax : last.1.pipeline.maxBody = codec.pipeline.maxBody := by
      refine hlast.preserves (P := fun state => state.1.pipeline.maxBody = codec.pipeline.maxBody)
        ?_ (Pipeline.feed_maxBody codec.pipeline pieces.flatten)
      intro state outcome next hdecode hstate
      have hsame := guided_maxBody policy state []
      rw [hdecode] at hsame
      exact hsame.trans hstate
    rw [hend hnone] at hmax
    exact ⟨hdone, hmax ▸ guided_pending_lt hdone⟩

/-- A handshake and a status request, in one piece and in three; the reader moves to the status
phase in between. -/
theorem guided_feed_eq_of_handshake :
    let codec : ConnectionCodec Empty := .new (.standard .server) (.new 100)
    let reader := guided (E := Empty) fun _ => [.enter .status]
    let one := reader.feed (codec, []) [[7, 0, 47, 1, 97, 99, 221, 1, 1, 0]]
    let other := reader.feed (codec, []) [[7, 0, 47], [1, 97, 99, 221, 1, 1], [0]]
    one.items.length = 2 ∧ one.items = other.items ∧ one.fault? = other.fault? := by
  intro codec reader one other
  have hflat : [[7, 0, 47, 1, 97, 99, 221, 1, 1, 0]].flatten
      = ([[7, 0, 47], [1, 97, 99, 221, 1, 1], [0]] : List Bytes).flatten := rfl
  obtain ⟨hitems, hfault, -⟩ := guided_feed_eq codec rfl (fun _ => [.enter .status]) hflat
  exact ⟨by decide +kernel, hitems, hfault⟩

end PhaseWire.ConnectionCodec
