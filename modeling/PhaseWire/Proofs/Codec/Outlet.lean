import PhaseWire.Proofs.Codec.Packets
import PhaseWire.Proofs.Codec.Payload
import PhaseWire.Proofs.Pipeline.Chain
import PhaseWire.Proofs.Pipeline.RoundTrip

/-
# Packets that cannot be sent leave no trace

An `Outlet` is what the encoder of a connection changes in place: the
stages with their ciphers and staged bytes, the phase and packet types, the
counters, and the buffer that the wire bytes are appended to.  A packet is
written into a buffer of its own first, then sent through the stages, and
can be refused at every step; even a packet that gives up halfway, after
writing who knows what, is told apart from one that is done only by its
answer.

Whether a packet goes out, and in which frame, depends on nothing that
sending changes (`ship_sendAll`).  So a run of any packets is the sealing
of the frames of those that go out, one after the other (`run_outlet`), and
the refused ones may as well be left out.
-/

namespace PhaseWire

variable {E : Type} [CustomPackets E]

/-! ## Encoding in place -/

/-- Writes the fields of a packet behind what is in a buffer.  A packet that cannot be written may
have left something there, `spill`, before it gave up. -/
def Packet.writeInto (spill : Packet E → Bytes) (packet : Packet E) (buffer : Bytes) :
    Except Fault Unit × Bytes :=
  match packet.write with
  | .error fault => (.error fault, buffer ++ spill packet)
  | .ok fields => (.ok (), buffer ++ fields)

/-- The payload buffer of a packet, whether or not the packet may go out. -/
def PacketCodec.draft (spill : Packet E → Bytes) (codec : PacketCodec E) (packet : Packet E) :
    Except Fault Unit × Bytes :=
  match codec.registry.ofPacket packet with
  | .error fault => (.error fault, [])
  | .ok descriptor =>
    if descriptor.direction ≠ .outbound then
      (.error (.setup s!"{descriptor.typeName} is registered as inbound and cannot be sent"), [])
    else
      let id := Field.varInt descriptor.id
      match packet.writeInto spill id with
      | (.error fault, payload) => (.error fault, payload)
      | (.ok (), payload) => (checkSize descriptor (payload.length - id.length), payload)

/-- All that the encoder of a connection can change. -/
structure Outlet (E : Type) [CustomPackets E] where
  chain : Chain
  packets : PacketCodec E
  metrics : Metrics
  output : Bytes

namespace Outlet

/-- Appends the wire bytes of a packet to the output and counts them. -/
def encode (spill : Packet E → Bytes) (outlet : Outlet E) (packet : Packet E) :
    Except Fault Unit × Outlet E :=
  match outlet.packets.draft spill packet with
  | (.error fault, _) => (.error fault, outlet)
  | (.ok (), payload) =>
    match outlet.chain.encode payload with
    | (.error fault, chain) => (.error fault, { outlet with chain })
    | (.ok sent, chain) =>
      let output := outlet.output ++ sent.wire
      let metrics := if sent.compressed then outlet.metrics.compressed else outlet.metrics
      let added := UInt64.ofNat (output.length - outlet.output.length)
      (.ok (), { outlet with chain, output, metrics := metrics.sent added })

def run (spill : Packet E → Bytes) (outlet : Outlet E) :
    List (Packet E) → List (Except Fault Unit) × Outlet E
  | [] => ([], outlet)
  | packet :: packets =>
    let (result, next) := outlet.encode spill packet
    let (results, last) := next.run spill packets
    (result :: results, last)

end Outlet

/-- A connection with the buffer that it sends to. -/
def ConnectionCodec.outlet (codec : ConnectionCodec E) (output : Bytes) : Outlet E :=
  ⟨codec.pipeline.chain, codec.packets, codec.metrics, output⟩

/-! ## One packet -/

namespace PacketCodec

variable {codec : PacketCodec E} {packet : Packet E}

theorem draft_of_ok {payload : Bytes} (spill : Packet E → Bytes)
    (h : codec.encode packet = .ok payload) : codec.draft spill packet = (.ok (), payload) := by
  obtain ⟨descriptor, fields, hdescriptor, houtbound, hwrite, hsize, rfl⟩ := encode_eq_ok_iff.1 h
  rw [draft, hdescriptor]
  simp only [houtbound, Packet.writeInto, hwrite, List.length_append, Nat.add_sub_cancel_left,
    hsize, ne_eq, not_true, if_false]

theorem draft_of_error {fault : Fault} (spill : Packet E → Bytes)
    (h : codec.encode packet = .error fault) : (codec.draft spill packet).1 = .error fault := by
  rw [encode] at h
  rw [draft]
  cases hdescriptor : codec.registry.ofPacket packet with
  | error found =>
      rw [hdescriptor] at h
      exact congrArg Except.error (Except.error.inj h)
  | ok descriptor =>
      rw [hdescriptor] at h
      by_cases hinbound : descriptor.direction ≠ .outbound
      · simp only [if_pos hinbound] at h ⊢
        exact congrArg Except.error (Except.error.inj h)
      · simp only [if_neg hinbound, Packet.writeInto] at h ⊢
        cases hwrite : packet.write with
        | error found =>
            rw [hwrite] at h
            exact congrArg Except.error (Except.error.inj h)
        | ok fields =>
            rw [hwrite] at h
            simp only [List.length_append, Nat.add_sub_cancel_left]
            cases hsize : checkSize descriptor fields.length with
            | error found =>
                simp only [hsize] at h
                exact congrArg Except.error (Except.error.inj h)
            | ok _ =>
                simp only [hsize] at h
                cases h

end PacketCodec

namespace ConnectionCodec

variable {codec next : ConnectionCodec E} {packet : Packet E}

/-- A packet that goes out changes the outlet as it changes the codec, and its wire bytes join the
output. -/
theorem outlet_encode_of_ok {sent : Pipeline.Sent} (spill : Packet E → Bytes) (output : Bytes)
    (h : codec.encode packet = .ok (sent, next)) :
    (codec.outlet output).encode spill packet = (.ok (), next.outlet (output ++ sent.wire)) := by
  obtain ⟨payload, pipeline, hpayload, hpipeline, rfl⟩ := encode_eq_ok h
  have hchain := codec.pipeline.encode_chain payload
  rw [hpipeline] at hchain
  simp only [Outlet.encode, outlet, PacketCodec.draft_of_ok spill hpayload, hchain,
    Pipeline.settle, Pipeline.asChain, List.length_append, Nat.add_sub_cancel_left, count]

theorem outlet_encode_of_error {fault : Fault} (spill : Packet E → Bytes) (output : Bytes)
    (h : codec.encode packet = .error fault) :
    (codec.outlet output).encode spill packet = (.error fault, codec.outlet output) := by
  rw [encode] at h
  split at h
  · rename_i hpayload
    cases h
    have hdraft := PacketCodec.draft_of_error spill hpayload
    simp only [Outlet.encode, outlet]
    generalize codec.packets.draft spill packet = drafted at hdraft
    obtain ⟨result, payload⟩ := drafted
    cases hdraft
    rfl
  · rename_i payload hpayload
    split at h
    · rename_i hpipeline
      cases h
      have hchain := codec.pipeline.encode_chain payload
      rw [hpipeline] at hchain
      simp only [Outlet.encode, outlet, PacketCodec.draft_of_ok spill hpayload, hchain,
        Pipeline.settle, Pipeline.asChain]
    · cases h

/-! ## What goes out for a packet -/

end ConnectionCodec

/-- What a packet goes out as, before it is encrypted. -/
structure Shipment where
  payload : Bytes
  /-- The body of its frame. -/
  body : Bytes
  compressed : Bool
  deriving DecidableEq

def Shipment.frame (shipment : Shipment) : Bytes :=
  VarNum.encodeInt (Int32.ofNat shipment.body.length) ++ shipment.body

/-- Whether a shipment was compressed, and its length is zero in its lowest 32 bits. -/
def Shipment.isHidden (shipment : Shipment) : Bool :=
  shipment.compressed && decide (2 ^ 32 ∣ shipment.payload.length)

/-- Between stages that compress, the length that stands in front of a body: zero, or that of the
payload which the rest of the body is to expand to. -/
def Pipeline.dataLength? (pipeline : Pipeline) (body : Bytes) : Option Int32 :=
  match pipeline.compressor?, VarNum.peekInt body with
  | some _, .ok (some (declared, _)) => some declared
  | _, _ => none

/-- The length in front of a body is that of the payload if it was compressed, and zero if not. -/
theorem Compressor.peekInt_encode {compressor : Compressor} {payload body : Bytes}
    {compressed : Bool} (h : compressor.encode payload = .ok (body, compressed)) :
    ∃ used, VarNum.peekInt body
      = .ok (some (if compressed then Int32.ofNat payload.length else 0, used)) := by
  rcases encode_cases h with ⟨-, rfl, data, -, rfl⟩ | ⟨-, rfl, rfl⟩
  · exact ⟨_, VarNum.peekInt_encodeInt _ _⟩
  · exact ⟨_, VarNum.peekInt_encodeInt _ _⟩

namespace Pipeline

variable {pipeline : Pipeline} {payload body : Bytes} {compressed : Bool}

theorem wrap_cases (h : pipeline.wrap payload = .ok (body, compressed)) :
    pipeline.compressor? = none ∧ body = payload ∧ compressed = false
      ∨ ∃ compressor, pipeline.compressor? = some compressor
        ∧ compressor.encode payload = .ok (body, compressed) := by
  rw [wrap] at h
  split at h
  · rename_i hnone
    cases h
    exact .inl ⟨hnone, rfl, rfl⟩
  · rename_i compressor hsome
    exact .inr ⟨compressor, hsome, h⟩

theorem dataLength?_wrap (h : pipeline.wrap payload = .ok (body, compressed)) :
    pipeline.dataLength? body =
      if pipeline.compressor?.isSome then
        some (if compressed then Int32.ofNat payload.length else 0)
      else none := by
  rw [dataLength?]
  rcases wrap_cases h with ⟨hnone, -, -⟩ | ⟨compressor, hsome, hencode⟩
  · rw [hnone]
    rfl
  · obtain ⟨used, hpeek⟩ := compressor.peekInt_encode hencode
    simp only [hsome, hpeek]
    rfl

theorem wrap_compressed (h : pipeline.wrap payload = .ok (body, true)) :
    pipeline.compressor?.isSome ∧ 0 < payload.length := by
  rcases wrap_cases h with ⟨-, -, hfalse⟩ | ⟨compressor, hsome, hencode⟩
  · cases hfalse
  · rcases Compressor.encode_cases hencode with ⟨happlies, -⟩ | ⟨-, hfalse, -⟩
    · exact ⟨Option.isSome_of_eq_some hsome,
        List.length_pos_iff.2 (Compressor.applies_iff.1 happlies).1⟩
    · cases hfalse

theorem ofNat_eq_zero_iff (n : Nat) : Int32.ofNat n = 0 ↔ 2 ^ 32 ∣ n := by
  rw [← Int32.toBitVec_inj, Nat.dvd_iff_mod_eq_zero]
  constructor
  · intro h
    exact congrArg BitVec.toNat h
  · intro h
    exact BitVec.eq_of_toNat_eq h

/-- A frame carries a length other than zero exactly if it was compressed, except that a payload of
4 GiB or a multiple of it has a length whose lowest 32 bits are zero. -/
theorem dataLength?_ne_zero_iff (h : pipeline.wrap payload = .ok (body, compressed)) :
    (pipeline.dataLength? body).any (· ≠ 0) ↔ compressed ∧ ¬ 2 ^ 32 ∣ payload.length := by
  rw [dataLength?_wrap h]
  cases compressed with
  | true =>
      rw [if_pos (wrap_compressed h).1]
      simp [ofNat_eq_zero_iff]
  | false => split <;> simp

/-! ### Sealing frame by frame -/

@[simp] theorem sealFrame_nil (pipeline : Pipeline) : pipeline.sealFrame [] = ([], pipeline) := by
  obtain ⟨cipher?, maxBody, compressor?, staged⟩ := pipeline
  cases cipher? <;> rfl

theorem sealFrame_append (pipeline : Pipeline) (front back : Bytes) :
    pipeline.sealFrame (front ++ back)
      = ((pipeline.sealFrame front).1 ++ ((pipeline.sealFrame front).2.sealFrame back).1,
          ((pipeline.sealFrame front).2.sealFrame back).2) := by
  obtain ⟨cipher?, maxBody, compressor?, staged⟩ := pipeline
  cases cipher? with
  | none => rfl
  | some cipher => simp only [sealFrame, Cipher.encrypt, Feedback.stream_append]

theorem length_sealFrame (pipeline : Pipeline) (frame : Bytes) :
    (pipeline.sealFrame frame).1.length = frame.length := by
  obtain ⟨cipher?, maxBody, compressor?, staged⟩ := pipeline
  cases cipher? with
  | none => rfl
  | some cipher => exact Feedback.length_stream Feedback.sealByte frame cipher.outgoing

theorem wrap_sealFrame (pipeline : Pipeline) (frame payload : Bytes) :
    (pipeline.sealFrame frame).2.wrap payload = pipeline.wrap payload := by
  rw [wrap, wrap, sealFrame_compressor?]

end Pipeline

namespace ConnectionCodec

variable {codec : ConnectionCodec E}

/-- The shipment of a packet, or why the packet cannot go out. -/
def ship (codec : ConnectionCodec E) (packet : Packet E) : Except Fault Shipment :=
  match codec.packets.encode packet with
  | .error fault => .error fault
  | .ok payload =>
    match codec.pipeline.wrap payload with
    | .error fault => .error fault
    | .ok (body, compressed) =>
      if codec.pipeline.maxBody < body.length then .error (.tooLarge body.length)
      else .ok ⟨payload, body, compressed⟩

def countAll (metrics : Metrics) (shipments : List Shipment) : Metrics :=
  { metrics with
    packetsSent := metrics.packetsSent + UInt64.ofNat shipments.length
    bytesSent := metrics.bytesSent + UInt64.ofNat (shipments.flatMap Shipment.frame).length
    framesCompressed :=
      metrics.framesCompressed + UInt64.ofNat (shipments.countP Shipment.compressed) }

def sendAll (codec : ConnectionCodec E) (shipments : List Shipment) : ConnectionCodec E :=
  { codec with
    pipeline := (codec.pipeline.sealFrame (shipments.flatMap Shipment.frame)).2
    metrics := countAll codec.metrics shipments }

theorem countAll_append (metrics : Metrics) (front back : List Shipment) :
    countAll metrics (front ++ back) = countAll (countAll metrics front) back := by
  simp only [countAll, List.length_append, List.flatMap_append, List.countP_append,
    UInt64.ofNat_add, UInt64.add_assoc]

@[simp] theorem sendAll_nil (codec : ConnectionCodec E) : codec.sendAll [] = codec := by
  simp [sendAll, countAll]

theorem sendAll_append (codec : ConnectionCodec E) (front back : List Shipment) :
    codec.sendAll (front ++ back) = (codec.sendAll front).sendAll back := by
  simp only [sendAll, countAll_append, List.flatMap_append, Pipeline.sealFrame_append]

/-- What goes out for a packet does not depend on what went out before. -/
theorem ship_sendAll (shipments : List Shipment) (packet : Packet E) :
    (codec.sendAll shipments).ship packet = codec.ship packet := by
  rw [ship, ship, sendAll]
  simp only [Pipeline.wrap_sealFrame, Pipeline.sealFrame_maxBody]

theorem countAll_singleton (metrics : Metrics) (pipeline : Pipeline) (shipment : Shipment) :
    count metrics ⟨(pipeline.sealFrame shipment.frame).1, shipment.compressed⟩
      = countAll metrics [shipment] := by
  simp only [count, countAll, Pipeline.length_sealFrame, List.flatMap_cons, List.flatMap_nil,
    List.append_nil, List.countP_cons, List.countP_nil, List.length_cons, List.length_nil]
  cases shipment.compressed
  · simp [Metrics.sent]
  · rfl

theorem encode_eq (codec : ConnectionCodec E) (packet : Packet E) :
    codec.encode packet = (codec.ship packet).map fun shipment =>
      (⟨(codec.pipeline.sealFrame shipment.frame).1, shipment.compressed⟩,
        codec.sendAll [shipment]) := by
  rw [encode, ship]
  cases codec.packets.encode packet with
  | error fault => rfl
  | ok payload =>
      simp only [Pipeline.encode, Frame.encode]
      rcases codec.pipeline.wrap payload with fault | ⟨body, compressed⟩
      · rfl
      · by_cases hlarge : codec.pipeline.maxBody < body.length
        · simp only [if_pos hlarge]
          rfl
        · simp only [if_neg hlarge, Except.map, sendAll, ← countAll_singleton _ codec.pipeline,
            List.flatMap_cons, List.flatMap_nil, List.append_nil]
          rfl

theorem ship_eq_ok {packet : Packet E} {shipment : Shipment}
    (h : codec.ship packet = .ok shipment) :
    codec.pipeline.wrap shipment.payload = .ok (shipment.body, shipment.compressed) := by
  rw [ship] at h
  split at h
  · cases h
  · split at h
    · cases h
    · rename_i hwrap
      split at h
      · cases h
      · cases h
        exact hwrap

/-! ## A run of packets -/

def shipments (codec : ConnectionCodec E) (packets : List (Packet E)) : List Shipment :=
  packets.filterMap fun packet => (codec.ship packet).toOption

theorem outlet_encode (codec : ConnectionCodec E) (output : Bytes) (spill : Packet E → Bytes)
    (packet : Packet E) :
    (codec.outlet output).encode spill packet =
      match codec.encode packet with
      | .error fault => (.error fault, codec.outlet output)
      | .ok (sent, next) => (.ok (), next.outlet (output ++ sent.wire)) := by
  cases h : codec.encode packet with
  | error fault => exact outlet_encode_of_error spill output h
  | ok outcome => exact outlet_encode_of_ok spill output h

/-- A run seals and counts the frames of the packets that go out. -/
theorem run_outlet (spill : Packet E → Bytes) : ∀ (packets : List (Packet E))
    (codec : ConnectionCodec E) (output : Bytes),
    (codec.outlet output).run spill packets =
      (packets.map fun packet => (codec.ship packet).map fun _ => (),
        (codec.sendAll (codec.shipments packets)).outlet (output
          ++ (codec.pipeline.sealFrame ((codec.shipments packets).flatMap Shipment.frame)).1)) := by
  intro packets
  induction packets with
  | nil => intro codec output; simp [Outlet.run, shipments]
  | cons packet packets ih =>
      intro codec output
      rw [Outlet.run, outlet_encode, encode_eq]
      cases hship : codec.ship packet with
      | error fault =>
          simp only [Except.map, ih, List.map_cons, hship, shipments, Except.toOption,
            List.filterMap_cons_none]
      | ok shipment =>
          have hrest : (codec.sendAll [shipment]).shipments packets = codec.shipments packets := by
            simp only [shipments, ship_sendAll]
          have hall : codec.shipments (packet :: packets)
              = [shipment] ++ codec.shipments packets := by
            simp [shipments, hship, Except.toOption]
          simp only [Except.map, ih, ship_sendAll, hrest, hall, sendAll_append, List.map_cons,
            hship, List.flatMap_append, Pipeline.sealFrame_append, List.append_assoc]
          simp [sendAll]

theorem map_fst_filter_zip (codec : ConnectionCodec E) : ∀ packets : List (Packet E),
    ((packets.zip (packets.map fun packet => (codec.ship packet).map fun _ => ())).filter
        fun call => call.2.isOk).map Prod.fst
      = packets.filter fun packet => (codec.ship packet).isOk := by
  intro packets
  induction packets with
  | nil => rfl
  | cons packet packets ih =>
      simp only [List.map_cons, List.zip_cons_cons, List.filter_cons]
      cases codec.ship packet with
      | error fault => exact ih
      | ok shipment => exact congrArg (packet :: ·) ih

theorem shipments_filter (codec : ConnectionCodec E) (packets : List (Packet E)) :
    codec.shipments (packets.filter fun packet => (codec.ship packet).isOk)
      = codec.shipments packets := by
  rw [shipments, List.filterMap_filter]
  refine List.filterMap_congr fun packet _ => ?_
  cases codec.ship packet <;> rfl

theorem length_shipments (codec : ConnectionCodec E) (packets : List (Packet E)) :
    (codec.shipments packets).length
      = (packets.filter fun packet => (codec.ship packet).isOk).length := by
  rw [shipments, List.length_filterMap_eq_countP, List.countP_eq_length_filter]
  refine congrArg List.length (List.filter_congr fun packet _ => ?_)
  cases codec.ship packet <;> rfl

theorem mem_shipments {packets : List (Packet E)} {shipment : Shipment}
    (h : shipment ∈ codec.shipments packets) :
    codec.pipeline.wrap shipment.payload = .ok (shipment.body, shipment.compressed) := by
  obtain ⟨packet, -, hship⟩ := List.mem_filterMap.1 h
  cases hresult : codec.ship packet with
  | error fault =>
      rw [hresult] at hship
      cases hship
  | ok found =>
      rw [hresult] at hship
      cases hship
      exact ship_eq_ok hresult

theorem answers_filter (codec : ConnectionCodec E) (packets : List (Packet E)) :
    (packets.filter fun packet => (codec.ship packet).isOk).map
        (fun packet => (codec.ship packet).map fun _ => ())
      = (packets.filter fun packet => (codec.ship packet).isOk).map fun _ => .ok () := by
  refine List.map_congr_left fun packet hpacket => ?_
  have hok : (codec.ship packet).isOk := (List.mem_filter.mp hpacket).2
  cases hship : codec.ship packet with
  | error fault =>
      rw [hship] at hok
      cases hok
  | ok shipment => rfl

theorem dataLength_of_shipment {packets : List (Packet E)} {shipment : Shipment}
    (h : shipment ∈ codec.shipments packets) :
    (codec.pipeline.dataLength? shipment.body).any (· ≠ 0)
      ↔ shipment.compressed ∧ ¬ 2 ^ 32 ∣ shipment.payload.length :=
  Pipeline.dataLength?_ne_zero_iff (mem_shipments h)

/-- A shipment that was compressed has a data length other than zero, or it is hidden. -/
theorem countP_compressed (codec : ConnectionCodec E) (packets : List (Packet E)) :
    (codec.shipments packets).countP Shipment.compressed
      = (codec.shipments packets).countP (fun shipment =>
          (codec.pipeline.dataLength? shipment.body).any (· ≠ 0))
        + (codec.shipments packets).countP Shipment.isHidden := by
  have hlengths := fun shipment (h : shipment ∈ codec.shipments packets) => dataLength_of_shipment h
  generalize codec.shipments packets = shipments at hlengths ⊢
  induction shipments with
  | nil => rfl
  | cons shipment shipments ih =>
      have hfirst := hlengths shipment (List.mem_cons_self ..)
      have hrest := ih fun other hother => hlengths other (List.mem_cons_of_mem _ hother)
      simp only [List.countP_cons, hrest, Shipment.isHidden, hfirst]
      by_cases hdvd : 2 ^ 32 ∣ shipment.payload.length
      · simp only [hdvd, decide_true, Bool.and_true, not_true, and_false, if_false, Nat.add_zero,
          Nat.add_assoc]
      · simp only [hdvd, decide_false, Bool.and_false, not_false_eq_true, and_true, if_false,
          Bool.false_eq_true, Nat.add_zero]
        omega

/-- The packets of a run whose calls succeeded. -/
def served (packets : List (Packet E)) (results : List (Except Fault Unit)) : List (Packet E) :=
  ((packets.zip results).filter fun call => call.2.isOk).map Prod.fst

/-- A packet that cannot be sent leaves no trace: in place as by value, a call that fails leaves
stages, ciphers, staged bytes, phase, counters and output as they were, wherever a run of calls has
got to, and whatever the packet wrote before it gave up.

So after any run everything is as after the run without the failed calls.  All those succeed; what
they appended is their frames, sealed one after the other; the counters count them, their bytes and
those that were compressed, modulo 2^64.

A frame carries a data length other than zero exactly if its payload was compressed and the length
of the payload is not zero in its lowest 32 bits; so the last counter counts the frames with such a
data length, and on top of them those whose payload has 4 GiB or a multiple of it. -/
theorem failed_encodes_leave_no_trace (codec : ConnectionCodec E) (output : Bytes)
    (spill : Packet E → Bytes) (packets : List (Packet E)) :
    let start := codec.outlet output
    let results := (start.run spill packets).1
    let last := (start.run spill packets).2
    let served := served packets results
    let shipments := codec.shipments served
    (∀ packet, start.encode spill packet =
      match codec.encode packet with
      | .error fault => (.error fault, start)
      | .ok (sent, next) => (.ok (), next.outlet (output ++ sent.wire)))
    ∧ (∀ packet fault, (last.encode spill packet).1 = .error fault →
      (last.encode spill packet).2 = last)
    ∧ start.run spill served = (served.map fun _ => .ok (), last)
    ∧ last.packets = codec.packets
    ∧ last.output = output ++ (codec.pipeline.sealFrame (shipments.flatMap Shipment.frame)).1
    ∧ last.metrics =
      { codec.metrics with
        packetsSent := codec.metrics.packetsSent + UInt64.ofNat served.length
        bytesSent := codec.metrics.bytesSent + UInt64.ofNat (last.output.length - output.length)
        framesCompressed :=
          codec.metrics.framesCompressed + UInt64.ofNat (shipments.countP Shipment.compressed) }
    ∧ (∀ shipment ∈ shipments, (codec.pipeline.dataLength? shipment.body).any (· ≠ 0)
      ↔ shipment.compressed ∧ ¬ 2 ^ 32 ∣ shipment.payload.length)
    ∧ last.metrics.framesCompressed = codec.metrics.framesCompressed
        + UInt64.ofNat (shipments.countP fun shipment =>
          (codec.pipeline.dataLength? shipment.body).any (· ≠ 0))
        + UInt64.ofNat (shipments.countP Shipment.isHidden) := by
  intro start results last served shipments
  have hserved : served = packets.filter fun packet => (codec.ship packet).isOk := by
    simp only [served, results, start, run_outlet]
    exact map_fst_filter_zip codec packets
  have hshipments : shipments = codec.shipments packets := by
    simp only [shipments, hserved]
    exact shipments_filter codec packets
  have hlast : last = (codec.sendAll shipments).outlet
      (output ++ (codec.pipeline.sealFrame (shipments.flatMap Shipment.frame)).1) := by
    simp only [last, start, run_outlet, hshipments]
  refine ⟨fun packet => ?_, fun packet fault => ?_, ?_, ?_, ?_, ?_, ?_, ?_⟩
  · exact outlet_encode codec output spill packet
  · rw [hlast, outlet_encode]
    cases (codec.sendAll shipments).encode packet with
    | error found => exact fun _ => rfl
    | ok outcome => exact fun h => absurd h (by simp)
  · rw [run_outlet, hlast, hserved, answers_filter, shipments_filter, ← hshipments]
  · rw [hlast]
    rfl
  · rw [hlast]
    rfl
  · have hcount : shipments.length = served.length := by
      rw [hshipments, length_shipments, hserved]
    rw [hlast, ← hcount]
    simp only [outlet, sendAll, countAll, List.length_append, Nat.add_sub_cancel_left,
      Pipeline.length_sealFrame]
  · rw [hshipments]
    exact fun shipment => dataLength_of_shipment
  · rw [hlast, hshipments, UInt64.add_assoc, ← UInt64.ofNat_add, ← countP_compressed]
    rfl

/-! ## A payload of 4 GiB -/

section

variable (secret : Bytes)

/-- The payload of an answer to a request for encryption, with a secret and no token. -/
def answer : Bytes :=
  Field.varInt 1 ++ (Field.array secret ++ Field.array [])

/-- A codec that compresses all that it sends and admits answers of up to 4 GiB, in frames that have
the room for the given one. -/
def bulky : ConnectionCodec Empty where
  pipeline :=
    ⟨none, (0 :: Compression.Lz4.compress (answer secret)).length, some (.new 0 .lz4 0), []⟩
  packets := ⟨⟨[((Registry.coreEntry .encryptionResponse .login .outbound 1).bounds 2
    (2 ^ 32)).descriptor]⟩, .login⟩
  metrics := {}

variable {secret}

theorem length_answer (h : secret.length = 2 ^ 32 - 7) : (answer secret).length = 2 ^ 32 := by
  have hprefix : (Field.length (2 ^ 32 - 7)).length = 5 := by decide
  have hid : (Field.varInt 1).length = 1 := by decide
  have hempty : (Field.array []).length = 1 := by decide
  have hsecret : (Field.array secret).length = 5 + (2 ^ 32 - 7) := by
    rw [Field.array, List.length_append, h, hprefix]
  rw [answer, List.length_append, List.length_append, hid, hempty, hsecret]
  rfl

theorem encode_answer (h : secret.length = 2 ^ 32 - 7) :
    (bulky secret).packets.encode (.core (.encryptionResponse secret [])) = .ok (answer secret) := by
  have hlength := length_answer h
  have hid : (Field.varInt 1).length = 1 := by decide
  have hsize : (Field.array secret ++ Field.array []).length = 2 ^ 32 - 1 := by
    rw [answer, List.length_append, hid] at hlength
    omega
  refine PacketCodec.encode_eq_ok_iff.2 ⟨_, _, rfl, rfl, rfl, ?_, rfl⟩
  rw [CorePacket.write, hsize]
  rfl

theorem wrap_answer (h : secret.length = 2 ^ 32 - 7) :
    (bulky secret).pipeline.wrap (answer secret)
      = .ok (0 :: Compression.Lz4.compress (answer secret), true) := by
  have hlength := length_answer h
  have happlies : (Compressor.new 0 .lz4 0).applies (answer secret) := by
    refine Compressor.applies_iff.2 ⟨fun hnil => ?_, Nat.zero_le _⟩
    rw [hnil] at hlength
    cases hlength
  have hcompress : (Compressor.new 0 .lz4 0).compress (answer secret)
      = .ok (Compression.Lz4.compress (answer secret)) := by
    simp only [Compressor.compress, Compressor.new, Method.compress, Library.standard]
  have hzero : Int32.ofNat (2 ^ 32) = 0 := (Pipeline.ofNat_eq_zero_iff _).2 (Nat.dvd_refl _)
  rw [Pipeline.wrap, bulky]
  simp only [Compressor.encode, if_pos happlies, hcompress, hlength, hzero]
  rfl

theorem ship_answer (h : secret.length = 2 ^ 32 - 7) :
    (bulky secret).ship (.core (.encryptionResponse secret []))
      = .ok ⟨answer secret, 0 :: Compression.Lz4.compress (answer secret), true⟩ := by
  simp only [ship, encode_answer h, wrap_answer h]
  exact if_neg (Nat.lt_irrefl _)

theorem counted_of_length (h : secret.length = 2 ^ 32 - 7) :
    let packet : Packet Empty := .core (.encryptionResponse secret [])
    let sent := ((bulky secret).outlet []).run (fun _ => []) [packet]
    sent.1 = [.ok ()] ∧ sent.2.metrics.framesCompressed = 1
      ∧ ((bulky secret).shipments [packet]).countP (fun shipment =>
        ((bulky secret).pipeline.dataLength? shipment.body).any (· ≠ 0)) = 0 := by
  intro packet sent
  have hships : (bulky secret).shipments [packet]
      = [⟨answer secret, 0 :: Compression.Lz4.compress (answer secret), true⟩] := by
    rw [shipments, List.filterMap_cons, ship_answer h]
    rfl
  refine ⟨?_, ?_, ?_⟩
  · simp only [sent, run_outlet, List.map_cons, List.map_nil, packet, ship_answer h]
    rfl
  · simp only [sent, run_outlet, hships]
    rfl
  · have hmem : ⟨answer secret, 0 :: Compression.Lz4.compress (answer secret), true⟩
        ∈ (bulky secret).shipments [packet] := by
      rw [hships]
      exact List.mem_singleton_self _
    rw [hships, List.countP_singleton, if_neg]
    rw [dataLength_of_shipment hmem, length_answer h]
    exact fun h => h.2 (Nat.dvd_refl _)

end

/-- A packet of 4 GiB is compressed and counted, and its frame carries a data length of zero. -/
theorem counted_behind_zero :
    let secret : Bytes := List.replicate (2 ^ 32 - 7) 0
    let packet : Packet Empty := .core (.encryptionResponse secret [])
    let sent := ((bulky secret).outlet []).run (fun _ => []) [packet]
    sent.1 = [.ok ()] ∧ sent.2.metrics.framesCompressed = 1
      ∧ ((bulky secret).shipments [packet]).countP (fun shipment =>
        ((bulky secret).pipeline.dataLength? shipment.body).any (· ≠ 0)) = 0 :=
  counted_of_length List.length_replicate

end ConnectionCodec
end PhaseWire
