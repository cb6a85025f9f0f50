import PhaseWire.Phase
import PhaseWire.Proofs.Cipher

/-
# A cipher in use is two byte streams

A cipher is called again and again, now to encrypt, now to decrypt, with
pieces of any size.  Its answers are written down as calls of the same
directions, so that asking and answering have the same shape.

Two facts carry the module.  The answers in a direction, put together, are
what one call would answer to all the bytes of that direction, whatever
was asked in the other one between them (`serve_streams`); this is
`Feedback.stream_append` on one register and the frame of the other.  And
two ciphers of one key start with the same four registers, so that
`Feedback.stream_open_seal` applies to the bytes as a whole: how either
side cuts them has dropped out by then.
-/

namespace PhaseWire

namespace Feedback

/-- What is opened of a part of the ciphertext is that part of the plaintext. -/
theorem stream_open_part {data received : Bytes} {state : Feedback}
    (h : received <+: (stream sealByte state data).1) :
    (stream openByte state received).1 = data.take received.length := by
  obtain ⟨rest, hrest⟩ := h
  have hopen := congrArg Prod.fst (stream_open_seal data state)
  rw [← hrest, stream_append] at hopen
  calc (stream openByte state received).1
      = ((stream openByte state received).1
          ++ (stream openByte (stream openByte state received).2 rest).1).take received.length := by
        rw [← length_stream openByte received state, List.take_left]
    _ = data.take received.length := congrArg _ hopen

end Feedback

namespace Cipher

/-- Bytes for a cipher: those that go out it encrypts, those that come in it decrypts. -/
structure Call where
  direction : Direction
  data : Bytes
  deriving DecidableEq, Repr

def perform (cipher : Cipher) (call : Call) : Bytes × Cipher :=
  match call.direction with
  | .outbound => cipher.encrypt call.data
  | .inbound => cipher.decrypt call.data

def serve (cipher : Cipher) : List Call → List Call × Cipher
  | [] => ([], cipher)
  | call :: calls =>
    let (data, next) := cipher.perform call
    let (answers, last) := next.serve calls
    (⟨call.direction, data⟩ :: answers, last)

def bytesIn (direction : Direction) : List Call → Bytes
  | [] => []
  | call :: calls =>
    if call.direction = direction then call.data ++ bytesIn direction calls
    else bytesIn direction calls

theorem bytesIn_pieces (direction : Direction) (pieces : List Bytes) :
    bytesIn direction (pieces.map (Call.mk direction)) = pieces.flatten := by
  induction pieces with
  | nil => rfl
  | cons piece pieces ih =>
      rw [List.map_cons, bytesIn, if_pos rfl, ih, List.flatten_cons]

theorem bytesIn_other {direction other : Direction} (hother : other ≠ direction)
    (pieces : List Bytes) : bytesIn direction (pieces.map (Call.mk other)) = [] := by
  induction pieces with
  | nil => rfl
  | cons piece pieces ih => rw [List.map_cons, bytesIn, if_neg hother, ih]

/-! ## One direction beside the other -/

@[simp] theorem encrypt_incoming (cipher : Cipher) (data : Bytes) :
    (cipher.encrypt data).2.incoming = cipher.incoming := rfl

@[simp] theorem decrypt_outgoing (cipher : Cipher) (data : Bytes) :
    (cipher.decrypt data).2.outgoing = cipher.outgoing := rfl

theorem encrypt_eq (cipher : Cipher) (data : Bytes) :
    cipher.encrypt data
      = ((Feedback.stream Feedback.sealByte cipher.outgoing data).1,
          ⟨(Feedback.stream Feedback.sealByte cipher.outgoing data).2, cipher.incoming⟩) := rfl

theorem decrypt_eq (cipher : Cipher) (data : Bytes) :
    cipher.decrypt data
      = ((Feedback.stream Feedback.openByte cipher.incoming data).1,
          ⟨cipher.outgoing, (Feedback.stream Feedback.openByte cipher.incoming data).2⟩) := rfl

/-- The answers in either direction, and the cipher in the end, are those of one call with all the
bytes of a direction. -/
theorem serve_streams : ∀ (calls : List Call) (cipher : Cipher),
    bytesIn .outbound (cipher.serve calls).1 = (cipher.encrypt (bytesIn .outbound calls)).1
      ∧ bytesIn .inbound (cipher.serve calls).1 = (cipher.decrypt (bytesIn .inbound calls)).1
      ∧ (cipher.serve calls).2
        = ((cipher.encrypt (bytesIn .outbound calls)).2.decrypt (bytesIn .inbound calls)).2 := by
  intro calls
  induction calls with
  | nil => intro cipher; exact ⟨rfl, rfl, rfl⟩
  | cons call calls ih =>
      intro cipher
      obtain ⟨direction, data⟩ := call
      cases direction with
      | outbound =>
        obtain ⟨hout, hin, hlast⟩ := ih (cipher.encrypt data).2
        refine ⟨?_, ?_, ?_⟩
        · calc bytesIn .outbound (cipher.serve (⟨.outbound, data⟩ :: calls)).1
              = (cipher.encrypt data).1
                  ++ bytesIn .outbound ((cipher.encrypt data).2.serve calls).1 := rfl
            _ = (cipher.encrypt (data ++ bytesIn .outbound calls)).1 := by
              rw [hout]
              simp only [encrypt_eq, Feedback.stream_append]
        · exact hin
        · refine hlast.trans ?_
          simp only [bytesIn, if_true, reduceCtorEq, if_false, encrypt_eq, Feedback.stream_append]
      | inbound =>
        obtain ⟨hout, hin, hlast⟩ := ih (cipher.decrypt data).2
        refine ⟨hout, ?_, ?_⟩
        · calc bytesIn .inbound (cipher.serve (⟨.inbound, data⟩ :: calls)).1
              = (cipher.decrypt data).1
                  ++ bytesIn .inbound ((cipher.decrypt data).2.serve calls).1 := rfl
            _ = (cipher.decrypt (data ++ bytesIn .inbound calls)).1 := by
              rw [hin]
              simp only [decrypt_eq, Feedback.stream_append]
        · refine hlast.trans ?_
          simp only [bytesIn, if_true, reduceCtorEq, if_false, encrypt_eq, decrypt_eq,
            Feedback.stream_append]

/-! ## Ciphers of one key -/

/-- A cipher to which it does not matter in which pieces it is given its bytes. -/
structure IsStream (cipher : Cipher) : Prop where
  /-- To encrypt the pieces is to encrypt the whole, and the cipher is then the same. -/
  encrypt_pieces : ∀ pieces : List Bytes,
    bytesIn .outbound (cipher.serve (pieces.map (Call.mk .outbound))).1
        = (cipher.encrypt pieces.flatten).1
      ∧ (cipher.serve (pieces.map (Call.mk .outbound))).2 = (cipher.encrypt pieces.flatten).2
  decrypt_pieces : ∀ pieces : List Bytes,
    bytesIn .inbound (cipher.serve (pieces.map (Call.mk .inbound))).1
        = (cipher.decrypt pieces.flatten).1
      ∧ (cipher.serve (pieces.map (Call.mk .inbound))).2 = (cipher.decrypt pieces.flatten).2
  /-- The same holds with calls of the other direction between the pieces. -/
  interleaved : ∀ calls,
    bytesIn .outbound (cipher.serve calls).1 = (cipher.encrypt (bytesIn .outbound calls)).1
      ∧ bytesIn .inbound (cipher.serve calls).1 = (cipher.decrypt (bytesIn .inbound calls)).1
      ∧ (cipher.serve calls).2
        = ((cipher.encrypt (bytesIn .outbound calls)).2.decrypt (bytesIn .inbound calls)).2

theorem isStream (cipher : Cipher) : cipher.IsStream where
  encrypt_pieces pieces := by
    obtain ⟨hout, -, hlast⟩ := serve_streams (pieces.map (Call.mk .outbound)) cipher
    rw [bytesIn_pieces] at hout hlast
    rw [bytesIn_other (by decide), decrypt_nil] at hlast
    exact ⟨hout, hlast⟩
  decrypt_pieces pieces := by
    obtain ⟨-, hin, hlast⟩ := serve_streams (pieces.map (Call.mk .inbound)) cipher
    rw [bytesIn_pieces] at hin hlast
    rw [bytesIn_other (by decide)] at hlast
    exact ⟨hin, hlast⟩
  interleaved calls := serve_streams calls cipher

/-- A part of what one cipher has encrypted is opened as that part of the plaintext by a cipher
whose register for decryption is where the other's for encryption was. -/
theorem serve_opens {writer reader : Cipher} (hregister : reader.incoming = writer.outgoing)
    {calls others : List Call}
    (hpart : bytesIn .inbound others <+: bytesIn .outbound (writer.serve calls).1) :
    bytesIn .inbound (reader.serve others).1
      = (bytesIn .outbound calls).take (bytesIn .inbound others).length := by
  obtain ⟨hsent, -, -⟩ := serve_streams calls writer
  obtain ⟨-, hopened, -⟩ := serve_streams others reader
  rw [hsent, encrypt_eq, ← hregister] at hpart
  rw [hopened, decrypt_eq]
  exact Feedback.stream_open_part hpart

/-- When all of it has been opened, the registers are equal again. -/
theorem serve_registers {writer reader : Cipher} (hregister : reader.incoming = writer.outgoing)
    {calls others : List Call}
    (hall : bytesIn .inbound others = bytesIn .outbound (writer.serve calls).1) :
    (reader.serve others).2.incoming = (writer.serve calls).2.outgoing := by
  obtain ⟨hsent, -, hwriter⟩ := serve_streams calls writer
  obtain ⟨-, -, hreader⟩ := serve_streams others reader
  rw [hsent, encrypt_eq, ← hregister] at hall
  rw [hreader, hwriter, decrypt_outgoing, decrypt_eq, encrypt_incoming, hall,
    Feedback.stream_open_seal, hregister]
  rfl

theorem length_sent (cipher : Cipher) (calls : List Call) :
    (bytesIn .outbound (cipher.serve calls).1).length = (bytesIn .outbound calls).length := by
  rw [(serve_streams calls cipher).1, encrypt_eq, Feedback.length_stream]

/-- A cipher of a key is a byte stream at any time of its use, and what it has encrypted since it
was made is what a cipher of the same key decrypts, however either of them was called. -/
theorem calls_make_streams (key : Bytes) (hkey : key.length = Limit.cipherKey) :
    ∃ cipher, ofKey key = .ok cipher
      ∧ (∀ before, (cipher.serve before).2.IsStream)
      ∧ ∀ calls others,
          bytesIn .inbound others <+: bytesIn .outbound (cipher.serve calls).1 →
            bytesIn .inbound (cipher.serve others).1
                = (bytesIn .outbound calls).take (bytesIn .inbound others).length
              ∧ (bytesIn .inbound others = bytesIn .outbound (cipher.serve calls).1 →
                bytesIn .inbound (cipher.serve others).1 = bytesIn .outbound calls
                  ∧ (cipher.serve others).2.incoming = (cipher.serve calls).2.outgoing) := by
  obtain ⟨cipher, hcipher, hregister⟩ :
      ∃ cipher, ofKey key = .ok cipher ∧ cipher.incoming = cipher.outgoing :=
    ⟨⟨.ofKey key, .ofKey key⟩, if_pos hkey, rfl⟩
  refine ⟨cipher, hcipher, fun before => isStream _, ?_⟩
  intro calls others hpart
  have hopened := serve_opens hregister hpart
  refine ⟨hopened, fun hall => ⟨?_, serve_registers hregister hall⟩⟩
  rw [hopened, hall, length_sent, List.take_length]

/-- Three bytes that are encrypted around a call of the other direction, and decrypted in another
cutting with an encryption between. -/
theorem calls_make_streams_of_three :
    (List.replicate 16 7 : Bytes).length = Limit.cipherKey
      ∧ ∃ cipher, ofKey (List.replicate 16 7) = .ok cipher
        ∧ ∃ first rest, first.length = 1
          ∧ first ++ rest = bytesIn .outbound (cipher.serve
            [⟨.outbound, [1, 2]⟩, ⟨.inbound, [9]⟩, ⟨.outbound, []⟩, ⟨.outbound, [3]⟩]).1
          ∧ bytesIn .inbound (cipher.serve
            [⟨.inbound, first⟩, ⟨.outbound, [5]⟩, ⟨.inbound, rest⟩]).1 = [1, 2, 3] := by
  refine ⟨rfl, ?_⟩
  obtain ⟨cipher, hcipher, -, hopens⟩ := calls_make_streams (List.replicate 16 7) rfl
  refine ⟨cipher, hcipher, ?_⟩
  have hplain : bytesIn .outbound
      [⟨.outbound, [1, 2]⟩, ⟨.inbound, [9]⟩, ⟨.outbound, []⟩, ⟨.outbound, [3]⟩] = [1, 2, 3] := rfl
  have hopen := hopens
    [⟨.outbound, [1, 2]⟩, ⟨.inbound, [9]⟩, ⟨.outbound, []⟩, ⟨.outbound, [3]⟩]
  have hlength := length_sent cipher
    [⟨.outbound, [1, 2]⟩, ⟨.inbound, [9]⟩, ⟨.outbound, []⟩, ⟨.outbound, [3]⟩]
  rw [hplain] at hopen hlength
  generalize bytesIn .outbound (cipher.serve _).1 = sent at hopen hlength ⊢
  have hcut : bytesIn .inbound [⟨.inbound, sent.take 1⟩, ⟨.outbound, [5]⟩, ⟨.inbound, sent.drop 1⟩]
      = sent := by
    simp only [bytesIn, if_true, reduceCtorEq, if_false, List.append_nil, List.take_append_drop]
  refine ⟨sent.take 1, sent.drop 1, ?_, List.take_append_drop 1 sent, ?_⟩
  · simp [hlength]
  · obtain ⟨-, hall⟩ := hopen _ ⟨[], (List.append_nil _).trans hcut⟩
    exact (hall hcut).1

end Cipher
end PhaseWire
