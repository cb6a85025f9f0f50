import PhaseWire.Codec.Payload
import PhaseWire.Proofs.Registry

/-
# Payloads between the two sides

What one side writes the other reads under the same descriptor with its
direction turned round, because both sides have the core types under the
same ids (`encode_opposite`, `decode_core_iff`).  The sizes that a type
admits are checked on both sides, the limits of its fields only where it is
read.  So a side can send what the other refuses (`decode_sent_iff`), while
whatever a side receives the other could send (`encode_received`).
-/

namespace PhaseWire.PacketCodec

variable {E : Type} [CustomPackets E]

/-! ## Reading and writing, as conditions -/

theorem checkSize_eq_ok_iff {descriptor : Descriptor E} {size : Nat} :
    checkSize descriptor size = .ok () ↔ descriptor.minSize ≤ size ∧ size ≤ descriptor.maxSize := by
  rw [checkSize, Descriptor.accepts, ← Bool.decide_and]
  constructor
  · intro h
    split at h
    · rename_i haccepts
      exact of_decide_eq_true haccepts
    · cases h
  · intro h
    rw [if_pos (decide_eq_true h)]

theorem decodeFields_eq_ok_iff {descriptor : Descriptor E} {fields : Bytes} {packet : Packet E} :
    decodeFields descriptor fields = .ok packet ↔
      checkSize descriptor fields.length = .ok ()
        ∧ (Packet.read descriptor.produces).onBuffer fields = (.ok packet, []) := by
  rw [decodeFields]
  constructor
  · intro h
    split at h
    · cases h
    · rename_i hsize
      split at h
      · cases h
      · rename_i hread
        cases h
        exact ⟨hsize, hread⟩
      · cases h
  · rintro ⟨hsize, hread⟩
    rw [hsize]
    dsimp only
    rw [hread]

theorem decode_eq_ok_iff {codec : PacketCodec E} {payload : Bytes} {packet : Packet E} :
    codec.decode payload = .ok packet ↔
      ∃ id fields descriptor, Reader.varInt.onBuffer payload = (.ok id, fields)
        ∧ codec.registry.ofId codec.phase .inbound id = .ok descriptor
        ∧ decodeFields descriptor fields = .ok packet := by
  rw [decode]
  constructor
  · intro h
    split at h
    · cases h
    · split at h
      · cases h
      · rename_i id fields hid
        split at h
        · cases h
        · rename_i descriptor hdescriptor
          exact ⟨id, fields, descriptor, hid, hdescriptor, h⟩
  · rintro ⟨id, fields, descriptor, hid, hdescriptor, hfields⟩
    cases payload with
    | nil => cases hid
    | cons first rest =>
        rw [if_neg (by simp), hid]
        dsimp only
        rw [hdescriptor]
        exact hfields

theorem encode_eq_ok_iff {codec : PacketCodec E} {packet : Packet E} {payload : Bytes} :
    codec.encode packet = .ok payload ↔
      ∃ descriptor fields, codec.registry.ofPacket packet = .ok descriptor
        ∧ descriptor.direction = .outbound ∧ packet.write = .ok fields
        ∧ checkSize descriptor fields.length = .ok ()
        ∧ Field.varInt descriptor.id ++ fields = payload := by
  rw [encode]
  constructor
  · intro h
    split at h
    · cases h
    · rename_i descriptor hdescriptor
      split at h
      · cases h
      · rename_i houtbound
        split at h
        · cases h
        · rename_i fields hwrite
          split at h
          · cases h
          · rename_i hsize
            cases h
            exact ⟨descriptor, fields, hdescriptor, Decidable.not_not.1 houtbound, hwrite, hsize,
              rfl⟩
  · rintro ⟨descriptor, fields, hdescriptor, houtbound, hwrite, hsize, rfl⟩
    rw [hdescriptor]
    dsimp only
    rw [if_neg (not_not_intro houtbound), hwrite]
    dsimp only
    rw [hsize]

/-! ## Core packets under a descriptor -/

theorem read_core_eq_ok_iff {type : CoreKind} {packet : Packet E} {fields rest : Bytes} :
    (Packet.read (.core type : PacketKind E)).onBuffer fields = (.ok packet, rest) ↔
      ∃ core, (CorePacket.read type).onBuffer fields = (.ok core, rest) ∧ .core core = packet :=
  Reader.map_eq_ok_iff

theorem decode_written (codec : PacketCodec E) {descriptor : Descriptor E}
    (hsound : codec.registry.IsSound) (hmem : descriptor ∈ codec.registry.descriptors)
    (hphase : descriptor.phase = codec.phase) (hinbound : descriptor.direction = .inbound)
    (fields : Bytes) (packet : Packet E) :
    codec.decode (Field.varInt descriptor.id ++ fields) = .ok packet ↔
      decodeFields descriptor fields = .ok packet := by
  have hid : Reader.varInt.onBuffer (Field.varInt descriptor.id ++ fields)
      = (.ok descriptor.id, fields) := Reader.varInt_undoes.read_write fields True.intro
  have hdescriptor := hsound.ofId_of_mem hmem
  rw [hphase, hinbound] at hdescriptor
  rw [decode_eq_ok_iff]
  constructor
  · rintro ⟨id, left, found, hfound, hofId, hfields⟩
    rw [hid] at hfound
    cases hfound
    rw [hdescriptor] at hofId
    cases hofId
    exact hfields
  · intro hfields
    exact ⟨_, _, descriptor, hid, hdescriptor, hfields⟩

/-! ## From one side to the other -/

open Registry

/-- The fields of a core packet are read back exactly if the limits of their readers let them
through. -/
theorem decodeFields_write_iff {descriptor : Descriptor E} {core : CorePacket}
    (hproduces : descriptor.produces = .core core.kind) (hmax : descriptor.maxSize < 2 ^ 31)
    (hsize : checkSize descriptor core.write.length = .ok ()) (found : Packet E) :
    decodeFields descriptor core.write = .ok found ↔ found = .core core ∧ core.IsReadable := by
  obtain ⟨-, hfits⟩ := checkSize_eq_ok_iff.1 hsize
  have hundone := CorePacket.undone core.kind
  rw [decodeFields_eq_ok_iff, hproduces, read_core_eq_ok_iff]
  by_cases hreadable : core.IsReadable
  · have hread := hundone.read_write [] rfl hreadable
    rw [List.append_nil] at hread
    constructor
    · rintro ⟨-, other, hother, rfl⟩
      rw [hread] at hother
      cases hother
      exact ⟨rfl, hreadable⟩
    · rintro ⟨rfl, -⟩
      exact ⟨hsize, core, hread, rfl⟩
  · obtain ⟨fault, left, hfault⟩ :=
      hundone.refuses [] rfl hreadable (Nat.lt_of_le_of_lt hfits hmax)
    rw [List.append_nil] at hfault
    constructor
    · rintro ⟨-, other, hother, -⟩
      rw [hfault] at hother
      cases hother
    · rintro ⟨-, hnot⟩
      exact absurd hnot hreadable

/-- A core packet that was written under an inbound type is read as what it is, or not at all. -/
theorem decode_core_iff {side : Side} {descriptor : Descriptor E} {core : CorePacket}
    (hmem : descriptor ∈ (standard side : Registry E).descriptors)
    (hinbound : descriptor.direction = .inbound) (hkind : descriptor.kind = .core core.kind)
    (hsize : checkSize descriptor core.write.length = .ok ()) (found : Packet E) :
    (⟨standard side, descriptor.phase⟩ : PacketCodec E).decode
        (Field.varInt descriptor.id ++ core.write) = .ok found ↔
      found = .core core ∧ core.IsReadable := by
  obtain ⟨type, htype, hproduces, -⟩ := core_of_mem_standard hmem
  rw [← htype, hkind] at hproduces
  have hdecode := decode_written ⟨standard side, descriptor.phase⟩ (standard_sound side) hmem rfl
    hinbound core.write found
  exact hdecode.trans
    (decodeFields_write_iff hproduces (maxSize_of_mem_standard hmem) hsize found)

theorem encode_opposite {side : Side} {descriptor : Descriptor E} {core : CorePacket}
    (hmem : descriptor ∈ (standard side : Registry E).descriptors)
    (hinbound : descriptor.direction = .inbound) (hkind : descriptor.kind = .core core.kind)
    (hsize : checkSize descriptor core.write.length = .ok ()) (phase : Phase) :
    (⟨standard side.opposite, phase⟩ : PacketCodec E).encode (.core core)
      = .ok (Field.varInt descriptor.id ++ core.write) := by
  have hflip := (standard_sound side.opposite).ofKind_of_mem (mem_standard_opposite hmem)
  have hflipKind : descriptor.flip.kind = .core core.kind := hkind
  rw [hflipKind] at hflip
  refine encode_eq_ok_iff.2 ⟨descriptor.flip, core.write, hflip, ?_, rfl, hsize, rfl⟩
  rw [Descriptor.flip, hinbound]
  rfl

/-- What one side sends of a core packet the other reads, in the packet's phase, as the packet that
it is; but if a field is over its reader's limit it reads nothing.  The sender's check of the size
does not exclude that. -/
theorem decode_sent_iff {side : Side} {phase : Phase} {core : CorePacket} {payload : Bytes}
    (hsent : (⟨standard side, phase⟩ : PacketCodec E).encode (.core core) = .ok payload) :
    ∃ descriptor, (standard side : Registry E).ofPacket (.core core) = .ok descriptor
      ∧ ∀ found, (⟨standard side.opposite, descriptor.phase⟩ : PacketCodec E).decode payload
          = .ok found ↔ found = .core core ∧ core.IsReadable := by
  obtain ⟨descriptor, fields, hdescriptor, houtbound, hwrite, hsize, rfl⟩ :=
    encode_eq_ok_iff.1 hsent
  cases hwrite
  obtain ⟨hmem, hkind⟩ := mem_of_ofKind hdescriptor
  have hinbound : descriptor.flip.direction = .inbound := by
    rw [Descriptor.flip, houtbound]
    rfl
  refine ⟨descriptor, hdescriptor, ?_⟩
  intro found
  have hflipKind : descriptor.flip.kind = .core core.kind := hkind
  have hflipSize : checkSize descriptor.flip core.write.length = .ok () := hsize
  exact decode_core_iff (mem_standard_opposite hmem) hinbound hflipKind hflipSize found

theorem decode_sent_iff_of_login :
    ∃ descriptor, (standard .client : Registry Empty).ofPacket (.core (.loginStart "ann"))
        = .ok descriptor
      ∧ ∀ found, (⟨standard .server, descriptor.phase⟩ : PacketCodec Empty).decode
          [0, 3, 97, 110, 110] = .ok found ↔
          found = .core (.loginStart "ann") ∧ (CorePacket.loginStart "ann").IsReadable := by
  have hsent : (⟨standard .client, .login⟩ : PacketCodec Empty).encode
      (.core (.loginStart "ann")) = .ok [0, 3, 97, 110, 110] := by decide +kernel
  exact decode_sent_iff hsent

/-- Seventeen characters take fewer bytes than sixteen may take, so they are sent and refused. -/
theorem decode_sent_long_username :
    ∃ payload, (⟨standard .client, .login⟩ : PacketCodec Empty).encode
        (.core (.loginStart "aaaaaaaaaaaaaaaaa")) = .ok payload
      ∧ (⟨standard .server, .login⟩ : PacketCodec Empty).decode payload
        = .error (.textTooLong 17 16) :=
  ⟨0 :: 17 :: List.replicate 17 97, by decide +kernel, by decide +kernel⟩

/-- What a side receives is a core packet of a type that is inbound there. -/
theorem core_of_decode {codec : PacketCodec E} {side : Side}
    (hregistry : codec.registry = .standard side) {payload : Bytes} {packet : Packet E}
    (h : codec.decode payload = .ok packet) :
    ∃ core, .core core = packet ∧ ∃ descriptor ∈ (standard side : Registry E).descriptors,
      descriptor.direction = .inbound ∧ descriptor.kind = .core core.kind := by
  obtain ⟨id, fields, descriptor, -, hofId, hfields⟩ := decode_eq_ok_iff.1 h
  obtain ⟨hmem, hslot⟩ := mem_of_ofId hofId
  simp only [Descriptor.slot, Prod.mk.injEq] at hslot
  rw [hregistry] at hmem
  obtain ⟨type, htype, hproduces, -⟩ := core_of_mem_standard hmem
  obtain ⟨-, hread⟩ := decodeFields_eq_ok_iff.1 hfields
  rw [hproduces] at hread
  obtain ⟨core, hcore, rfl⟩ := read_core_eq_ok_iff.1 hread
  obtain ⟨rfl, -, -⟩ := (CorePacket.undone type).of_read hcore
  exact ⟨core, rfl, descriptor, hmem, hslot.2.1, htype⟩

/-- What a side receives the other could have sent in a form of its own, which is no longer than
what was received, is read as the same packet and is written again as it is. -/
theorem encode_received {side : Side} {phase : Phase} {payload : Bytes} {packet : Packet E}
    (hreceived : (⟨standard side, phase⟩ : PacketCodec E).decode payload = .ok packet)
    (other : Phase) :
    ∃ again, (⟨standard side.opposite, other⟩ : PacketCodec E).encode packet = .ok again
      ∧ again.length ≤ payload.length
      ∧ (⟨standard side, phase⟩ : PacketCodec E).decode again = .ok packet
      ∧ ((⟨standard side, phase⟩ : PacketCodec E).decode again).bind
          (⟨standard side.opposite, other⟩ : PacketCodec E).encode = .ok again := by
  obtain ⟨id, fields, descriptor, hid, hofId, hfields⟩ := decode_eq_ok_iff.1 hreceived
  obtain ⟨hmem, hslot⟩ := mem_of_ofId hofId
  simp only [Descriptor.slot, Prod.mk.injEq] at hslot
  obtain ⟨rfl, hinbound, rfl⟩ := hslot
  obtain ⟨hsize, hread⟩ := decodeFields_eq_ok_iff.1 hfields
  obtain ⟨-, hmost⟩ := checkSize_eq_ok_iff.1 hsize
  obtain ⟨type, htype, hproduces, hleast⟩ := core_of_mem_standard hmem
  rw [hproduces] at hread
  obtain ⟨core, hcore, rfl⟩ := read_core_eq_ok_iff.1 hread
  -- the readers let the fields through, and they take no more bytes than were read
  obtain ⟨rfl, hreadable, hlength⟩ := (CorePacket.undone type).of_read hcore
  obtain ⟨-, hidLength⟩ := Reader.varInt_undoes.of_read hid
  rw [List.length_nil, Nat.add_zero] at hlength
  have hagain : checkSize descriptor core.write.length = .ok () :=
    checkSize_eq_ok_iff.2 ⟨hleast ▸ core.least_le_length, Nat.le_trans hlength hmost⟩
  have hencode := encode_opposite hmem hinbound htype hagain other
  have hdecode := (decode_core_iff hmem hinbound htype hagain _).2 ⟨rfl, hreadable⟩
  refine ⟨_, hencode, ?_, hdecode, ?_⟩
  · rw [List.length_append]
    omega
  · rw [hdecode]
    exact hencode

/-- An id and a length that are written in two bytes each. -/
theorem encode_received_of_overlong :
    ∃ again, (⟨standard .client, .play⟩ : PacketCodec Empty).encode (.core (.loginStart "ann"))
        = .ok again
      ∧ again.length ≤ 7
      ∧ (⟨standard .server, .login⟩ : PacketCodec Empty).decode again
        = .ok (.core (.loginStart "ann"))
      ∧ ((⟨standard .server, .login⟩ : PacketCodec Empty).decode again).bind
          (⟨standard .client, .play⟩ : PacketCodec Empty).encode = .ok again := by
  have hreceived : (⟨standard .server, .login⟩ : PacketCodec Empty).decode
      [0x80, 0, 0x83, 0, 97, 110, 110] = .ok (.core (.loginStart "ann")) := by decide +kernel
  exact encode_received hreceived .play

end PhaseWire.PacketCodec
