import PhaseWire.Proofs.Codec.Directions

/-
# What a fault leaves of the stream

A fault of the framer consumes nothing: the prefix that is refused stays in
front of the staged bytes, and as more bytes only come behind it, the same
fault is the answer to every later call (`IsJammed`).  Only a cipher could
change that, as it decrypts what is staged.  A fault behind the framer has
taken a whole frame off, and nothing else tells that this frame ever was
there: neither the stages nor the counters (`decode_fault_cases`).
-/

namespace PhaseWire

/-! ## Faults of the framer -/

namespace Frame

variable {maxBody : Nat} {buffer body rest : Bytes} {fault : Fault}

/-- What the framer refuses: a length that does not end, or is negative, or too large. -/
theorem fault_of_decode (h : decode maxBody buffer = .error fault) :
    fault = .varIntTooLong ∨ (∃ length, fault = .negativeLength length)
      ∨ ∃ size, fault = .tooLarge size := by
  rw [decode] at h
  split at h
  · rename_i found hpeek
    cases h
    rw [VarNum.peekInt] at hpeek
    split at hpeek
    · cases hpeek
    · cases hpeek
    · cases hpeek
      exact .inl rfl
  · cases h
  · dsimp only at h
    split at h
    · cases h
      exact .inr (.inl ⟨_, rfl⟩)
    · split at h
      · cases h
        exact .inr (.inr ⟨_, rfl⟩)
      · split at h
        · cases h
        · cases h

theorem frame_of_decode (h : decode maxBody buffer = .ok (some (body, rest))) :
    ∃ frame, buffer = frame ++ rest ∧ decode maxBody frame = .ok (some (body, [])) := by
  obtain ⟨length, used, hpeek, hneg, hmax, hthere, hsplit⟩ := decode_some_iff.1 h
  obtain ⟨head, behind, rfl, rfl, hhead⟩ := VarNum.peekInt_some_iff.1 hpeek
  rw [List.drop_left, List.splitAt_eq] at hsplit
  obtain ⟨hbody, hrest⟩ := Prod.mk.inj hsplit
  have hframe : head ++ behind = head ++ body ++ rest := by
    rw [List.append_assoc, ← hbody, ← hrest, List.take_append_drop]
  have hsize : body.length = length.toInt.toNat := by
    rw [← hbody, List.length_take, Nat.min_eq_left]
    rw [List.length_append] at hthere
    omega
  refine ⟨head ++ body, hframe, decode_some_iff.2 ⟨length, head.length, ?_, hneg, hmax, ?_, ?_⟩⟩
  · exact VarNum.peekInt_some_iff.2 ⟨head, body, rfl, rfl, hhead⟩
  · rw [List.length_append, hsize]
    exact Nat.lt_irrefl _
  · rw [List.drop_left, List.splitAt_eq, ← hsize, List.take_length, List.drop_length]

end Frame

namespace Pipeline

variable {pipeline : Pipeline} {fault : Fault}

/-- The framer refuses what stands in front of the staged bytes. -/
def IsJammed (pipeline : Pipeline) (fault : Fault) : Prop :=
  Frame.decode pipeline.maxBody pipeline.staged = .error fault

namespace IsJammed

theorem feed (h : pipeline.IsJammed fault) (incoming : Bytes) :
    (pipeline.feed incoming).IsJammed fault := by
  obtain ⟨plain, hplain, -⟩ := feed_staged pipeline incoming
  rw [IsJammed, feed_maxBody, hplain]
  exact Frame.decode_append_error plain h

theorem next (h : pipeline.IsJammed fault) : pipeline.next = (.error fault, pipeline) :=
  next_error_iff.2 (.inl ⟨h, rfl⟩)

theorem decode (h : pipeline.IsJammed fault) (incoming : Bytes) :
    pipeline.decode incoming = (.error fault, pipeline.feed incoming) :=
  (h.feed incoming).next

/-- The stages may be changed in any way but by a first cipher. -/
theorem change (h : pipeline.IsJammed fault) (change : Change)
    (hcipher : (pipeline.change change).isEncrypted = pipeline.isEncrypted) :
    (pipeline.change change).IsJammed fault := by
  rcases change_cases rfl change with
    ⟨hsame, -⟩ | ⟨place, cipher, -, hfree, hinstall, -⟩ | ⟨update, hupdate, -⟩
  · rw [hsame]
    exact h
  · rw [contains_cipher] at hfree
    rw [hinstall, isEncrypted, isEncrypted, hfree] at hcipher
    cases hcipher
  · rw [hupdate]
    exact h

end IsJammed

theorem isEncrypted_change (h : pipeline.isEncrypted) (change : Change) :
    (pipeline.change change).isEncrypted := by
  rcases change_cases rfl change with
    ⟨hsame, -⟩ | ⟨place, cipher, -, -, hinstall, -⟩ | ⟨update, hupdate, -⟩
  · rw [hsame]
    exact h
  · rw [hinstall]
    rfl
  · rw [hupdate]
    exact h

end Pipeline

variable {E : Type} [CustomPackets E]

/-! ## Connections that are jammed -/

namespace ConnectionCodec

variable {codec after : ConnectionCodec E} {fault : Fault}

theorem decode_of_isJammed (h : codec.pipeline.IsJammed fault) (incoming : Bytes) :
    codec.decode incoming = (.error fault, codec.absorb incoming) := by
  rw [decode, h.decode incoming]
  rfl

end ConnectionCodec

namespace Line

variable {line : Line E} {fault : Fault}

def isEncrypted (line : Line E) : Bool :=
  line.codec.pipeline.isEncrypted

/-- The framer of the connection refuses what stands in front. -/
def IsJammed (line : Line E) (fault : Fault) : Prop :=
  line.codec.pipeline.IsJammed fault

theorem isEncrypted_inward (line : Line E) : line.inward.isEncrypted = line.isEncrypted :=
  Option.isSome_map

theorem isEncrypted_outward (line : Line E) : line.outward.isEncrypted = line.isEncrypted :=
  Option.isSome_map

theorem isEncrypted_act (h : line.isEncrypted) (deed : Deed E) : (line.act deed).2.isEncrypted := by
  cases deed with
  | operate operation =>
      rw [act_operate]
      cases operation with
      | enter phase => exact h
      | change change => exact Pipeline.isEncrypted_change h change
  | encode packet =>
      rw [← isEncrypted_inward, inward_isolates.unseen line (.encode packet) rfl, isEncrypted_inward]
      exact h
  | decode incoming =>
      rw [← isEncrypted_outward, outward_isolates.unseen line (.decode incoming) rfl,
        isEncrypted_outward]
      exact h

theorem isEncrypted_trace : ∀ (deeds : List (Deed E)) {line : Line E}, line.isEncrypted →
    (trace act line deeds).2.isEncrypted := by
  intro deeds
  induction deeds with
  | nil => intro line h; exact h
  | cons deed deeds ih => intro line h; exact ih (isEncrypted_act h deed)

theorem isEncrypted_act_of_trace {deed : Deed E} {deeds : List (Deed E)}
    (h : (trace act line (deed :: deeds)).2.isEncrypted = line.isEncrypted) :
    (line.act deed).2.isEncrypted = line.isEncrypted := by
  cases hline : line.isEncrypted with
  | true => exact isEncrypted_act hline deed
  | false =>
      rw [hline] at h
      by_contra hact
      rw [Bool.not_eq_false] at hact
      have hlast := isEncrypted_trace deeds hact
      exact absurd (hlast.symm.trans h) (by decide)

/-- Nothing that is done loosens a jam, unless it installs a cipher. -/
theorem isJammed_act (h : line.IsJammed fault) (deed : Deed E)
    (hcipher : (line.act deed).2.isEncrypted = line.isEncrypted) :
    (line.act deed).2.IsJammed fault := by
  cases deed with
  | operate operation =>
      rw [act_operate] at hcipher ⊢
      cases operation with
      | enter phase => exact h
      | change change => exact h.change change hcipher
  | encode packet =>
      have hjam : (line.act (.encode packet)).2.inward.IsJammed fault := by
        rw [inward_isolates.unseen line (.encode packet) rfl]
        exact h
      exact hjam
  | decode incoming =>
      simp only [act, ConnectionCodec.decode_of_isJammed h incoming]
      exact h.feed incoming

theorem reply_of_isJammed : ∀ (deeds : List (Deed E)) {line : Line E}, line.IsJammed fault →
    (trace act line deeds).2.isEncrypted = line.isEncrypted →
      ∀ event ∈ (trace act line deeds).1, event.1.isDecode →
        event.2 = .received (.error fault) := by
  intro deeds
  induction deeds with
  | nil => intro line h hcipher event hevent; cases hevent
  | cons deed deeds ih =>
      intro line h hcipher event hevent hdecode
      have hfirst := isEncrypted_act_of_trace hcipher
      rcases List.mem_cons.1 hevent with rfl | hlater
      · cases deed with
        | operate operation => cases hdecode
        | encode packet => cases hdecode
        | decode incoming => simp only [ConnectionCodec.decode_of_isJammed h incoming]
      · exact ih (isJammed_act h deed hfirst) (hcipher.trans hfirst.symm) event hlater hdecode

/-! ## What was counted does not matter -/

/-- The connection as if nothing had been counted. -/
def uncounted (line : Line E) : Line E :=
  { line with codec := { line.codec with metrics := {} } }

theorem uncounted_act (line : Line E) (deed : Deed E) :
    (line.uncounted.act deed).1 = (line.act deed).1
      ∧ (line.uncounted.act deed).2.uncounted = (line.act deed).2.uncounted := by
  cases deed with
  | operate operation =>
      cases operation with
      | enter phase => exact ⟨rfl, rfl⟩
      | change change => exact ⟨rfl, rfl⟩
  | encode packet =>
      simp only [act, uncounted, ConnectionCodec.encode]
      cases line.codec.packets.encode packet with
      | error fault => exact ⟨rfl, rfl⟩
      | ok payload =>
          dsimp only
          rcases line.codec.pipeline.encode payload with fault | ⟨sent, pipeline⟩
          · exact ⟨rfl, rfl⟩
          · exact ⟨rfl, rfl⟩
  | decode incoming =>
      simp only [act, uncounted, ConnectionCodec.decode]
      rcases line.codec.pipeline.decode incoming with ⟨fault | _ | payload, pipeline⟩
      · exact ⟨rfl, rfl⟩
      · exact ⟨rfl, rfl⟩
      · simp only [ConnectionCodec.receive]
        cases line.codec.packets.decode payload with
        | error fault => exact ⟨rfl, rfl⟩
        | ok packet => exact ⟨rfl, rfl⟩

/-- The counters decide no reply. -/
theorem uncounted_isolates : Isolates (act (E := E)) uncounted fun _ => true where
  unseen := fun _ _ hsight => by cases hsight
  reply := fun line deed _ => (uncounted_act line deed).1
  next := fun line deed _ => (uncounted_act line deed).2

theorem trace_of_uncounted {other : Line E} (h : line.uncounted = other.uncounted)
    (deeds : List (Deed E)) : (trace act other deeds).1 = (trace act line deeds).1 := by
  obtain ⟨hevents, -⟩ := uncounted_isolates.trace_filter deeds h
  simpa only [List.filter_true] using hevents

end Line

/-! ## What is left behind a fault -/

namespace ConnectionCodec

variable {codec after : ConnectionCodec E} {incoming : Bytes} {fault : Fault}

/-- A fault is the framer's, and then nothing is consumed, or it is about one frame, which is then
gone. -/
theorem decode_fault_cases (h : codec.decode incoming = (.error fault, after)) :
    ((codec.absorb incoming).pipeline.IsJammed fault ∧ after = codec.absorb incoming)
    ∨ ∃ body rest, Frame.decode codec.pipeline.maxBody (codec.absorb incoming).pipeline.staged
          = .ok (some (body, rest))
        ∧ (codec.pipeline.unwrap body = .error fault
          ∨ ∃ payload, codec.pipeline.unwrap body = .ok payload
            ∧ codec.packets.decode payload = .error fault)
        ∧ after = { codec with
            pipeline := { codec.pipeline.feed incoming with staged := rest } } := by
  rw [decode_eq] at h
  rcases decode_error_iff.1 h with ⟨pipeline, hnext, rfl⟩ | ⟨payload, pipeline, hnext, hpacket, rfl⟩
  · rcases Pipeline.next_error_iff.1 hnext with ⟨hframe, rfl⟩ | ⟨body, rest, hframe, hbody, rfl⟩
    · exact .inl ⟨hframe, rfl⟩
    · refine .inr ⟨body, rest, ?_, .inl ?_, rfl⟩
      · rw [← Pipeline.feed_maxBody codec.pipeline incoming]
        exact hframe
      · rw [← Pipeline.unwrap_feed codec.pipeline incoming]
        exact hbody
  · obtain ⟨body, rest, hframe, hbody, rfl⟩ := Pipeline.next_some_iff.1 hnext
    refine .inr ⟨body, rest, ?_, .inr ⟨payload, ?_, hpacket⟩, rfl⟩
    · rw [← Pipeline.feed_maxBody codec.pipeline incoming]
      exact hframe
    · rw [← Pipeline.unwrap_feed codec.pipeline incoming]
      exact hbody

/-- The framer refuses what stands in front: no staged byte is gone, and whatever is done with the
connection then, the fault is the answer to all that comes in, as long as no cipher is installed. -/
structure IsStuck (codec : ConnectionCodec E) (incoming : Bytes) (fault : Fault)
    (after : ConnectionCodec E) : Prop where
  refused : Frame.decode codec.pipeline.maxBody (codec.absorb incoming).pipeline.staged
    = .error fault
  overLength : fault = .varIntTooLong ∨ (∃ length, fault = .negativeLength length)
    ∨ ∃ size, fault = .tooLarge size
  absorbed : after = codec.absorb incoming
  kept : ∃ plain, after.pipeline.staged = codec.pipeline.staged ++ plain
  answer : ∀ (output : Bytes) (deeds : List (Deed E)),
    (trace Line.act ⟨after, output⟩ deeds).2.isEncrypted = after.pipeline.isEncrypted →
      ∀ event ∈ (trace Line.act ⟨after, output⟩ deeds).1, event.1.isDecode →
        event.2 = .received (.error fault)

/-- One whole frame is taken off, whose body is refused by the compressor or as a packet.  Nothing
else of the connection tells that it was there: with the same stages, registers, phase and packet
types, and with the rest of the staged bytes, all that is done later is answered alike, whatever was
counted. -/
structure IsRidOf (codec : ConnectionCodec E) (incoming : Bytes) (fault : Fault)
    (after : ConnectionCodec E) (frame body rest : Bytes) : Prop where
  staged : (codec.absorb incoming).pipeline.staged = frame ++ rest
  whole : Frame.decode codec.pipeline.maxBody frame = .ok (some (body, []))
  refused : codec.pipeline.unwrap body = .error fault
    ∨ ∃ payload, codec.pipeline.unwrap body = .ok payload
      ∧ codec.packets.decode payload = .error fault
  pipeline : after.pipeline = { codec.pipeline.feed incoming with staged := rest }
  packets : after.packets = codec.packets
  metrics : after.metrics = codec.metrics
  answer : ∀ other : ConnectionCodec E,
    other.pipeline = { codec.pipeline.feed incoming with staged := rest } →
    other.packets = codec.packets → ∀ (output : Bytes) (deeds : List (Deed E)),
      (trace Line.act ⟨after, output⟩ deeds).1 = (trace Line.act ⟨other, output⟩ deeds).1

/-- A fault of `decode`, for any connection and whatever came in, either sticks or is about one
frame, which is then gone. -/
theorem decode_fault_leaves (h : codec.decode incoming = (.error fault, after)) :
    codec.IsStuck incoming fault after
      ∨ ∃ frame body rest, codec.IsRidOf incoming fault after frame body rest := by
  rcases decode_fault_cases h with ⟨hjam, rfl⟩ | ⟨body, rest, hframe, hrefused, rfl⟩
  · obtain ⟨plain, hplain, -⟩ := Pipeline.feed_staged codec.pipeline incoming
    have hfault : Frame.decode codec.pipeline.maxBody (codec.absorb incoming).pipeline.staged
        = .error fault := by
      rw [← Pipeline.feed_maxBody codec.pipeline incoming]
      exact hjam
    exact .inl
      { refused := hfault
        overLength := Frame.fault_of_decode hfault
        absorbed := rfl
        kept := ⟨plain, hplain⟩
        answer := fun output deeds => Line.reply_of_isJammed deeds hjam }
  · obtain ⟨frame, hstaged, hwhole⟩ := Frame.frame_of_decode hframe
    refine .inr ⟨frame, body, rest, ?_⟩
    exact
      { staged := hstaged
        whole := hwhole
        refused := hrefused
        pipeline := rfl
        packets := rfl
        metrics := rfl
        answer := by
          intro other hpipeline hpackets output deeds
          refine Line.trace_of_uncounted ?_ deeds
          rw [Line.uncounted, Line.uncounted]
          simp only [hpipeline, hpackets] }

/-- A negative length sticks; a frame with an unknown packet is gone, and the byte behind it is the
first that is staged. -/
theorem decode_fault_leaves_both :
    let codec : ConnectionCodec Empty := .new (.standard .server) (.new 100)
    let negative : Bytes := [255, 255, 255, 255, 15, 7]
    let unknown : Bytes := [1, 127, 5]
    codec.IsStuck negative (.negativeLength (-1)) (codec.decode negative).2
      ∧ ∃ frame body rest,
        codec.IsRidOf unknown (.unknownId .handshake .inbound 127) (codec.decode unknown).2
          frame body rest := by
  intro codec negative unknown
  constructor
  · have hdecode : codec.decode negative
        = (.error (.negativeLength (-1)), (codec.decode negative).2) :=
      Prod.ext (by decide +kernel) rfl
    rcases decode_fault_leaves hdecode with hstuck | ⟨frame, body, rest, hrid⟩
    · exact hstuck
    · have hfirst := Frame.decode_append_some rest hrid.whole
      have hrefused : Frame.decode codec.pipeline.maxBody (codec.absorb negative).pipeline.staged
          = .error (.negativeLength (-1)) := by decide +kernel
      rw [← hrid.staged, hrefused] at hfirst
      cases hfirst
  · have hdecode : codec.decode unknown
        = (.error (.unknownId .handshake .inbound 127), (codec.decode unknown).2) :=
      Prod.ext (by decide +kernel) rfl
    rcases decode_fault_leaves hdecode with hstuck | hrid
    · exact absurd hstuck.refused (by decide +kernel)
    · exact hrid

end ConnectionCodec
end PhaseWire
