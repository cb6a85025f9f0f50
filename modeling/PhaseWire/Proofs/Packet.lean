import PhaseWire.Packet.Core
import PhaseWire.Proofs.Field

/-
# Packets are read as they were written

The limits of a packet's texts and arrays are checked where the packet is
read and nowhere else.  `CorePacket.IsReadable` collects them.  The reader
of a type is one reader of all the fields (`both`), and what that reader
does with the fields the type's does with the packet (`Undone.of_fields`),
so each type is a line of `undone`.
-/

namespace PhaseWire

/-- Fewest bytes that the fields of a packet of this type take. -/
def CoreKind.least : CoreKind → Nat
  | handshake => 5
  | statusRequest => 0
  | statusPing => 8
  | statusPong => 8
  | encryptionRequest => 3
  | encryptionResponse => 2
  | loginSuccess => 2
  | _ => 1

namespace CorePacket

/-! ## The limits of the fields -/

/-- Every field is within the limit that its reader has. -/
def IsReadable : CorePacket → Prop
  | handshake _ serverAddress _ _ => serverAddress.length ≤ Limit.host
  | statusRequest => True
  | statusResponse json => json.length ≤ Limit.text
  | statusPing _ => True
  | statusPong _ => True
  | loginStart username => username.length ≤ Limit.username
  | loginDisconnect reason => reason.length ≤ Limit.text
  | encryptionRequest serverId publicKey verifyToken =>
    serverId.length ≤ Limit.serverId ∧ publicKey.length ≤ Limit.key
      ∧ verifyToken.length ≤ Limit.token
  | encryptionResponse sharedSecret verifyToken =>
    sharedSecret.length ≤ Limit.token ∧ verifyToken.length ≤ Limit.token
  | loginSuccess uuid username =>
    uuid.length ≤ Limit.uuidText ∧ username.length ≤ Limit.username
  | setCompression _ => True
  | clientboundKeepAlive _ => True
  | serverboundKeepAlive _ => True
  | playDisconnect reason => reason.length ≤ Limit.text

/-! ## One type -/

/-- What a type's reader does with the packets of its type. -/
structure Undone (type : CoreKind) : Prop where
  read_write : ∀ {packet : CorePacket} (rest : Bytes), packet.kind = type → packet.IsReadable →
    (read type).onBuffer (packet.write ++ rest) = (.ok packet, rest)
  refuses : ∀ {packet : CorePacket} (rest : Bytes), packet.kind = type → ¬ packet.IsReadable →
    packet.write.length < 2 ^ 31 →
    ∃ fault left, (read type).onBuffer (packet.write ++ rest) = (.error fault, left)
  of_read : ∀ {packet : CorePacket} {buffer rest : Bytes},
    (read type).onBuffer buffer = (.ok packet, rest) →
    packet.kind = type ∧ packet.IsReadable ∧ packet.write.length + rest.length ≤ buffer.length

theorem Undone.of_fields {type : CoreKind} {α : Type} {reader : Reader α} {writeFields : α → Bytes}
    {admits : α → Prop} (hfields : reader.Undoes writeFields admits) (make : α → CorePacket)
    (hread : read type = do return make (← reader))
    (hmade : ∀ packet, packet.kind = type ↔ ∃ fields, make fields = packet)
    (hwrite : ∀ fields, (make fields).write = writeFields fields)
    (hadmits : ∀ fields, (make fields).IsReadable ↔ admits fields) : Undone type where
  read_write := by
    intro packet rest htype hreadable
    obtain ⟨fields, rfl⟩ := (hmade packet).1 htype
    rw [hread, hwrite]
    exact Reader.map_eq_ok_iff.2
      ⟨fields, hfields.read_write rest ((hadmits fields).1 hreadable), rfl⟩
  refuses := by
    intro packet rest htype hunreadable hfits
    obtain ⟨fields, rfl⟩ := (hmade packet).1 htype
    rw [hwrite] at hfits
    obtain ⟨fault, left, hfault⟩ := hfields.refuses rest
      (fun hadmitted => hunreadable ((hadmits fields).2 hadmitted)) hfits
    rw [hread, hwrite, Reader.onBuffer_bind, hfault]
    exact ⟨fault, left, rfl⟩
  of_read := by
    intro packet buffer rest h
    rw [hread] at h
    obtain ⟨fields, hfound, rfl⟩ := Reader.map_eq_ok_iff.1 h
    obtain ⟨hadmitted, hlength⟩ := hfields.of_read hfound
    rw [hwrite]
    exact ⟨(hmade _).2 ⟨fields, rfl⟩, (hadmits fields).2 hadmitted, hlength⟩

/-! ## All types -/

open Reader in
theorem undone : ∀ type, Undone type
  | .handshake =>
      .of_fields (varInt_undoes.both ((text_undoes Limit.host (by decide)).both
          (word16_undoes.both varInt_undoes)))
        (fun fields => handshake fields.1 fields.2.1 fields.2.2.1 fields.2.2.2)
        (by simp only [read, both, bind_assoc, pure_bind])
        (by rintro ⟨⟩ <;> simp [kind]) (by simp [write]) (by simp [IsReadable])
  | .statusRequest =>
      .of_fields none_undoes (fun _ => statusRequest) rfl
        (by rintro ⟨⟩ <;> simp [kind]) (fun _ => rfl) (fun _ => Iff.rfl)
  | .statusResponse =>
      .of_fields (text_undoes Limit.text (by decide)) statusResponse rfl
        (by rintro ⟨⟩ <;> simp [kind]) (fun _ => rfl) (fun _ => Iff.rfl)
  | .statusPing =>
      .of_fields int64_undoes statusPing rfl
        (by rintro ⟨⟩ <;> simp [kind]) (fun _ => rfl) (fun _ => Iff.rfl)
  | .statusPong =>
      .of_fields int64_undoes statusPong rfl
        (by rintro ⟨⟩ <;> simp [kind]) (fun _ => rfl) (fun _ => Iff.rfl)
  | .loginStart =>
      .of_fields (text_undoes Limit.username (by decide)) loginStart rfl
        (by rintro ⟨⟩ <;> simp [kind]) (fun _ => rfl) (fun _ => Iff.rfl)
  | .loginDisconnect =>
      .of_fields (text_undoes Limit.text (by decide)) loginDisconnect rfl
        (by rintro ⟨⟩ <;> simp [kind]) (fun _ => rfl) (fun _ => Iff.rfl)
  | .encryptionRequest =>
      .of_fields ((text_undoes Limit.serverId (by decide)).both
          ((array_undoes Limit.key (by decide)).both (array_undoes Limit.token (by decide))))
        (fun fields => encryptionRequest fields.1 fields.2.1 fields.2.2)
        (by simp only [read, both, bind_assoc, pure_bind])
        (by rintro ⟨⟩ <;> simp [kind]) (by simp [write]) (by simp [IsReadable])
  | .encryptionResponse =>
      .of_fields ((array_undoes Limit.token (by decide)).both
          (array_undoes Limit.token (by decide)))
        (fun fields => encryptionResponse fields.1 fields.2)
        (by simp only [read, both, bind_assoc, pure_bind])
        (by rintro ⟨⟩ <;> simp [kind]) (fun _ => rfl) (fun _ => Iff.rfl)
  | .loginSuccess =>
      .of_fields ((text_undoes Limit.uuidText (by decide)).both
          (text_undoes Limit.username (by decide)))
        (fun fields => loginSuccess fields.1 fields.2)
        (by simp only [read, both, bind_assoc, pure_bind])
        (by rintro ⟨⟩ <;> simp [kind]) (fun _ => rfl) (fun _ => Iff.rfl)
  | .setCompression =>
      .of_fields varInt_undoes setCompression rfl
        (by rintro ⟨⟩ <;> simp [kind]) (fun _ => rfl) (fun _ => Iff.rfl)
  | .clientboundKeepAlive =>
      .of_fields varInt_undoes clientboundKeepAlive rfl
        (by rintro ⟨⟩ <;> simp [kind]) (fun _ => rfl) (fun _ => Iff.rfl)
  | .serverboundKeepAlive =>
      .of_fields varInt_undoes serverboundKeepAlive rfl
        (by rintro ⟨⟩ <;> simp [kind]) (fun _ => rfl) (fun _ => Iff.rfl)
  | .playDisconnect =>
      .of_fields (text_undoes Limit.text (by decide)) playDisconnect rfl
        (by rintro ⟨⟩ <;> simp [kind]) (fun _ => rfl) (fun _ => Iff.rfl)

/-! ## Sizes -/

theorem least_le_length : ∀ packet : CorePacket, packet.kind.least ≤ packet.write.length
  | handshake protocolVersion serverAddress serverPort intent => by
      have hversion := Field.varInt_pos protocolVersion
      have haddress := Field.text_pos serverAddress
      have hport := Field.length_word16 serverPort
      have hintent := Field.varInt_pos intent
      simp only [kind, CoreKind.least, write, List.length_append]
      omega
  | statusRequest => Nat.le_refl 0
  | statusResponse json => Field.text_pos json
  | statusPing payload => Nat.le_of_eq (Field.length_int64 payload).symm
  | statusPong payload => Nat.le_of_eq (Field.length_int64 payload).symm
  | loginStart username => Field.text_pos username
  | loginDisconnect reason => Field.text_pos reason
  | encryptionRequest serverId publicKey verifyToken => by
      have hserver := Field.text_pos serverId
      have hkey := Field.array_pos publicKey
      have htoken := Field.array_pos verifyToken
      simp only [kind, CoreKind.least, write, List.length_append]
      omega
  | encryptionResponse sharedSecret verifyToken => by
      have hsecret := Field.array_pos sharedSecret
      have htoken := Field.array_pos verifyToken
      simp only [kind, CoreKind.least, write, List.length_append]
      omega
  | loginSuccess uuid username => by
      have huuid := Field.text_pos uuid
      have husername := Field.text_pos username
      simp only [kind, CoreKind.least, write, List.length_append]
      omega
  | setCompression threshold => Field.varInt_pos threshold
  | clientboundKeepAlive id => Field.varInt_pos id
  | serverboundKeepAlive id => Field.varInt_pos id
  | playDisconnect reason => Field.text_pos reason

end CorePacket
end PhaseWire
