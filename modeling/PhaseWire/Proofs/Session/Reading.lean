import PhaseWire.Codec.Decoder
import PhaseWire.Proofs.Codec.Blame
import PhaseWire.Proofs.Codec.Payload
import PhaseWire.Proofs.Session.Ahead
import PhaseWire.Session.Turn

/-
# What a session reads

A session is a decoder of packets: it decodes one, receives it, and decodes
the next as it has become by then (`reader`).  To drain it with a whole
stream at hand says what the stream means to it.  `Reads` is that meaning
without fuel, for a session that heeds every packet: whatever the packet
makes it do, it only reconfigures itself.

Such a session may as well receive a packet with the rest of the stream at
hand (`receive_ahead`), so what it reads does not depend on when the bytes
come, nor on the moment (`Reads.congr`).
-/

namespace PhaseWire

variable {E N : Type}

/-- Whether a packet is a keepalive of the other side, which stays inside the session. -/
def Side.keeps : Side → Packet E → Bool
  | .server, .core (.serverboundKeepAlive _) => true
  | .client, .core (.clientboundKeepAlive _) => true
  | _, _ => false

theorem Side.keeps_cases (side : Side) (packet : Packet E) :
    (∃ id, side = .server ∧ packet = .core (.serverboundKeepAlive id))
      ∨ (∃ id, side = .client ∧ packet = .core (.clientboundKeepAlive id))
      ∨ side.keeps packet = false := by
  rw [keeps.eq_def]
  split
  · exact .inl ⟨_, rfl, rfl⟩
  · exact .inr (.inl ⟨_, rfl, rfl⟩)
  · exact .inr (.inr rfl)

def Packet.isKeepalive : Packet E → Bool
  | .core (.clientboundKeepAlive _) => true
  | .core (.serverboundKeepAlive _) => true
  | _ => false

variable [CustomPackets E]

/-- The only keepalives that come in on a side are those that stay inside the session. -/
theorem ConnectionCodec.keeps_of_decode {codec next : ConnectionCodec E} {side : Side}
    (hregistry : codec.registry = .standard side) {incoming : Bytes} {packet : Packet E}
    (h : codec.decode incoming = (.ok (some packet), next)) :
    side.keeps packet = packet.isKeepalive := by
  rw [decode_eq] at h
  obtain ⟨payload, pipeline, -, hpacket, -⟩ := decode_some_iff.1 h
  obtain ⟨core, rfl, descriptor, hmem, hinbound, hkind⟩ :=
    PacketCodec.core_of_decode hregistry hpacket
  obtain ⟨hclientbound, hserverbound⟩ := Registry.direction_of_keepalive hmem
  cases core with
  | clientboundKeepAlive id =>
      have hside := (hclientbound hkind).symm.trans hinbound
      cases side with
      | server => cases hside
      | client => rfl
  | serverboundKeepAlive id =>
      have hside := (hserverbound hkind).symm.trans hinbound
      cases side with
      | server => rfl
      | client => cases hside
  | _ =>
      cases side with
      | server => rfl
      | client => rfl

/-- The standing of a session that was given one more packet, if it does not keep it. -/
def Standing.receive (standing : Standing E N) (packet : Packet E) : Standing E N :=
  { standing with
    received := standing.received ++ [packet].filter fun packet =>
      !standing.options.side.keeps packet }

namespace Session

/-- Whether a session that receives a packet only reconfigures itself: its listener does, or the
packet is a keepalive, and the answer to it can be encoded. -/
def heeds (session : Session E N) (packet : Packet E) : Bool :=
  match session.options.side, packet with
  | .server, .core (.serverboundKeepAlive _) => true
  | .client, .core (.clientboundKeepAlive id) =>
    ((session.hear none).write (.core (.serverboundKeepAlive id)) none).1.isOk
  | _, packet => abides (session.listener.onPacket packet) (session.log (.packet packet))

/-- Packets from the wire, each received before the next is decoded. -/
def reader : Decoder (Session E N) (Packet E) where
  pending session := session.codec.pipeline.pending
  decode session incoming :=
    match session.codec.decode incoming with
    | (.error fault, codec) => (.error fault, { session with codec })
    | (.ok none, codec) => (.ok none, { session with codec })
    | (.ok (some packet), codec) => (.ok (some packet), { session with codec }.receive packet)

def heedsFrom : (fuel : Nat) → Session E N → Bytes → Bool
  | 0, _, _ => true
  | fuel + 1, session, incoming =>
    match session.codec.decode incoming with
    | (.ok (some packet), codec) =>
      { session with codec }.heeds packet
        && heedsFrom fuel ({ session with codec }.receive packet) []
    | _ => true

/-- Whether a session heeds all that it reads from some bytes. -/
def heedsAll (session : Session E N) (incoming : Bytes) : Bool :=
  session.heedsFrom (session.codec.pipeline.pending + incoming.length + 1) incoming

/-! ## Receiving a packet -/

theorem isOk_iff {result : Except Fault Unit} : result.isOk = true ↔ result = .ok () := by
  cases result with
  | error fault => exact ⟨nofun, nofun⟩
  | ok done => exact ⟨fun _ => rfl, fun _ => rfl⟩

/-- What it takes to read: the session is open and over the core packet types, and its listener
calls nobody between two packets. -/
structure IsAttentive (session : Session E N) : Prop where
  isOpen : session.lifecycle = .active
  standard : ∃ side, session.registry = .standard side
  quiet : session.listener.IsQuiet

theorem keepsAlive_of_standard {session : Session E N}
    (h : ∃ side, session.registry = .standard side) : session.keepsAlive = true := by
  obtain ⟨side, hregistry⟩ := h
  rw [keepsAlive, hregistry, Registry.ofKind?, Registry.ofKind?, Registry.descriptors_standard]
  cases side with
  | server => rfl
  | client => rfl

section

variable {session : Session E N} (h : session.IsAttentive) {packet : Packet E}

include h

theorem IsAttentive.isClosed_eq : session.isClosed = false := by
  rw [isClosed, h.isOpen]
  rfl

theorem IsAttentive.receive_eq : session.receive packet =
    match session.options.side, packet with
    | .server, .core (.serverboundKeepAlive id) => session.hear (some id)
    | .client, .core (.clientboundKeepAlive id) => session.answerProbe id
    | _, packet => session.dispatch packet := by
  rw [receive.eq_def, h.isClosed_eq, keepsAlive_of_standard h.standard]
  rfl

/-- A packet that is not kept is given to the listener, whose program ends well if the packet is
heeded. -/
theorem IsAttentive.dispatch_eq (hkeeps : session.options.side.keeps packet = false) :
    session.heeds packet
        = abides (session.listener.onPacket packet) (session.log (.packet packet))
      ∧ (session.heeds packet = true → session.receive packet
        = (runScript (session.listener.onPacket packet) (session.log (.packet packet))).2) := by
  obtain ⟨hheeds, hdispatch⟩ : session.heeds packet
        = abides (session.listener.onPacket packet) (session.log (.packet packet))
      ∧ session.receive packet = session.dispatch packet := by
    rw [heeds.eq_def, h.receive_eq]
    split
    · rename_i hside
      rw [hside] at hkeeps
      cases hkeeps
    · rename_i hside
      rw [hside] at hkeeps
      cases hkeeps
    · exact ⟨rfl, rfl⟩
  refine ⟨hheeds, fun habides => ?_⟩
  rw [hheeds] at habides
  have hresult := (runScript_abides _ (session.log (.packet packet)) h.quiet habides).1
  rw [hdispatch, dispatch]
  split
  · rename_i next hscript
    rw [hscript]
  · rename_i fault next hscript
    rw [hscript] at hresult
    cases hresult

theorem IsAttentive.standing_receive (hheeds : session.heeds packet = true) :
    (session.receive packet).standing = session.standing.receive packet := by
  have hkept : session.options.side.keeps packet = true →
      session.standing.receive packet = session.standing := by
    intro hkeeps
    simp [Standing.receive, standing, hkeeps]
  rcases Side.keeps_cases session.options.side packet with
    ⟨id, hside, rfl⟩ | ⟨id, hside, rfl⟩ | hkeeps
  · rw [hkept (by rw [hside]; rfl), h.receive_eq, hside]
    rfl
  · rw [hkept (by rw [hside]; rfl), h.receive_eq, hside]
    rw [heeds.eq_def, hside] at hheeds
    exact (session.hear none).standing_write h.quiet (isOk_iff.1 hheeds)
  · obtain ⟨habides, hreceive⟩ := h.dispatch_eq hkeeps
    have hpacket : (session.log (.packet packet)).standing = session.standing.receive packet := by
      simp [Standing.receive, standing, log, registry, metrics, Event.packet?, hkeeps]
    rw [hreceive hheeds, ← hpacket]
    exact (runScript_abides _ (session.log (.packet packet)) h.quiet (habides ▸ hheeds)).2

variable (packet) in
theorem IsAttentive.receive_ahead (rest : Bytes) :
    (session.ahead rest).heeds packet = session.heeds packet
      ∧ (session.heeds packet = true →
        ((session.ahead rest).receive packet).ahead [] = (session.receive packet).ahead rest) := by
  have hahead : (session.ahead rest).IsAttentive := ⟨h.isOpen, h.standard, h.quiet⟩
  have hoptions : (session.ahead rest).options = session.options := rfl
  rcases Side.keeps_cases session.options.side packet with
    ⟨id, hside, rfl⟩ | ⟨id, hside, rfl⟩ | hkeeps
  · rw [heeds.eq_def, heeds.eq_def, hoptions, h.receive_eq, hahead.receive_eq, hoptions, hside]
    exact ⟨rfl, fun _ => session.ahead_ahead_nil rest⟩
  · have hhear : (session.ahead rest).hear none = (session.hear none).ahead rest := rfl
    rw [heeds.eq_def, heeds.eq_def, hoptions, h.receive_eq, hahead.receive_eq, hoptions, hside]
    dsimp only
    rw [answerProbe, answerProbe, hhear]
    obtain ⟨hresult, hwrite⟩ :=
      (session.hear none).write_ahead rest h.quiet (.core (.serverboundKeepAlive id)) none
    exact ⟨congrArg Except.isOk hresult, fun hok => hwrite (isOk_iff.1 hok)⟩
  · obtain ⟨habides, hreceive⟩ := h.dispatch_eq hkeeps
    obtain ⟨habides', hreceive'⟩ := hahead.dispatch_eq hkeeps
    have hscript := abides_ahead rest (session.listener.onPacket packet)
      (session.log (.packet packet)) h.quiet
    have hheeds : (session.ahead rest).heeds packet = session.heeds packet := by
      rw [habides, habides']
      exact hscript
    refine ⟨hheeds, fun hok => ?_⟩
    rw [hreceive hok, hreceive' (hheeds.trans hok)]
    have hrun := runScript_ahead rest (session.listener.onPacket packet)
      (session.log (.packet packet)) h.quiet (habides ▸ hok)
    exact (congrArg (fun result => ahead result.2 []) hrun).trans (ahead_ahead_nil _ rest)

theorem IsAttentive.decoded {incoming : Bytes} {result : Except Fault (Option (Packet E))}
    {codec : ConnectionCodec E} (hdecode : session.codec.decode incoming = (result, codec)) :
    IsAttentive { session with codec } := by
  have hregistry := session.codec.registry_decode incoming
  rw [hdecode] at hregistry
  obtain ⟨side, hside⟩ := h.standard
  exact ⟨h.isOpen, ⟨side, hregistry.trans hside⟩, h.quiet⟩

theorem IsAttentive.received (hheeds : session.heeds packet = true) :
    (session.receive packet).IsAttentive := by
  have hstanding := h.standing_receive hheeds
  have hlifecycle : (session.receive packet).lifecycle = session.lifecycle :=
    congrArg Standing.lifecycle hstanding
  have hregistry : (session.receive packet).registry = session.registry :=
    congrArg Standing.registry hstanding
  have hlistener : (session.receive packet).listener = session.listener :=
    congrArg Standing.listener hstanding
  exact ⟨hlifecycle ▸ h.isOpen, hregistry ▸ h.standard, hlistener ▸ h.quiet⟩

end

/-! ## Reading on -/

/-- From the bytes in `incoming` the session reads `packets`, heeds each of them, and stops at
`fault?`. -/
inductive Reads : Session E N → Bytes → List (Packet E) → Option Fault → Prop
  | done {session : Session E N} {incoming : Bytes} {codec : ConnectionCodec E} :
      session.codec.decode incoming = (.ok none, codec) → Reads session incoming [] none
  | fault {session : Session E N} {incoming : Bytes} {codec : ConnectionCodec E} {fault : Fault} :
      session.codec.decode incoming = (.error fault, codec) →
      Reads session incoming [] (some fault)
  | packet {session : Session E N} {incoming : Bytes} {codec : ConnectionCodec E}
      {packet : Packet E} {packets : List (Packet E)} {fault? : Option Fault} :
      session.codec.decode incoming = (.ok (some packet), codec) →
      heeds { session with codec } packet = true →
      Reads (receive { session with codec } packet) [] packets fault? →
      Reads session incoming (packet :: packets) fault?

/-- A mild program heeds every packet that is given to the listener. -/
theorem heeds_of_isMild {session : Session E N} {packet : Packet E}
    (hmild : (session.listener.onPacket packet).IsMild)
    (hkeeps : session.options.side = .server ∨ session.options.side.keeps packet = false) :
    session.heeds packet = true := by
  rw [heeds.eq_def]
  split
  · rfl
  · rename_i hside
    rw [hside] at hkeeps
    rcases hkeeps with hserver | hkeeps
    · cases hserver
    · cases hkeeps
  · exact abides_of_isMild hmild _

theorem heedsFrom_of_isMild : ∀ (fuel : Nat) (session : Session E N) (incoming : Bytes),
    session.IsAttentive → session.options.side = .server →
    (∀ packet, (session.listener.onPacket packet).IsMild) →
    heedsFrom fuel session incoming = true := by
  intro fuel
  induction fuel with
  | zero =>
      intro session incoming _ _ _
      rfl
  | succ fuel ih =>
      intro session incoming h hserver hmild
      rw [heedsFrom]
      rcases hdecode : session.codec.decode incoming with ⟨fault | _ | packet, codec⟩
      · rfl
      · rfl
      · have hdecoded := h.decoded hdecode
        have hheeds : heeds { session with codec } packet = true :=
          heeds_of_isMild (hmild packet) (.inl hserver)
        have hstanding := hdecoded.standing_receive hheeds
        have hoptions : (receive { session with codec } packet).options = session.options :=
          congrArg Standing.options hstanding
        have hlistener : (receive { session with codec } packet).listener = session.listener :=
          congrArg Standing.listener hstanding
        refine Bool.and_eq_true_iff.2 ⟨hheeds, ih _ _ (hdecoded.received hheeds) ?_ ?_⟩
        · rw [hoptions]
          exact hserver
        · rw [hlistener]
          exact hmild

theorem heedsAll_of_isMild {session : Session E N} (h : session.IsAttentive)
    (hserver : session.options.side = .server)
    (hmild : ∀ packet, (session.listener.onPacket packet).IsMild) (incoming : Bytes) :
    session.heedsAll incoming = true :=
  heedsFrom_of_isMild _ session incoming h hserver hmild

/-- To drain a session that heeds all is to read. -/
theorem reads_drainFrom : ∀ (fuel : Nat) (done : List (Packet E)) (session : Session E N)
    (incoming : Bytes), session.IsAttentive →
    session.codec.pipeline.pending + incoming.length < fuel →
    heedsFrom fuel session incoming = true →
    ∃ packets, (reader.drainFrom fuel done session incoming).items = done.reverse ++ packets
      ∧ Reads session incoming packets (reader.drainFrom fuel done session incoming).fault? := by
  intro fuel
  induction fuel with
  | zero =>
      intro done session incoming _ hfuel
      exact absurd hfuel (Nat.not_lt_zero _)
  | succ fuel ih =>
      intro done session incoming h hfuel hheeds
      rw [heedsFrom] at hheeds
      rw [Decoder.drainFrom]
      simp only [reader]
      rcases hdecode : session.codec.decode incoming with ⟨fault | _ | packet, codec⟩
      · exact ⟨[], (List.append_nil _).symm, .fault hdecode⟩
      · exact ⟨[], (List.append_nil _).symm, .done hdecode⟩
      · rw [hdecode] at hheeds
        obtain ⟨hpacket, hheeds⟩ := Bool.and_eq_true_iff.1 hheeds
        have hnext := h.decoded hdecode
        have hpending : (receive { session with codec } packet).codec.pipeline.pending
            = codec.pipeline.pending :=
          congrArg Standing.pending (hnext.standing_receive hpacket)
        -- a packet takes a byte at least, so the fuel lasts
        have hless : codec.pipeline.pending
            < session.codec.pipeline.pending + incoming.length := by
          rw [ConnectionCodec.decode_eq] at hdecode
          have hless := ConnectionCodec.streaming.pending_lt hdecode
          rwa [ConnectionCodec.streaming.pending_absorb] at hless
        obtain ⟨packets, hitems, hreads⟩ := ih (packet :: done)
          (receive { session with codec } packet) [] (hnext.received hpacket)
          (by rw [hpending, List.length_nil]; omega) hheeds
        refine ⟨packet :: packets, ?_, .packet hdecode hpacket hreads⟩
        rw [List.reverse_cons, List.append_assoc, List.singleton_append] at hitems
        exact hitems

theorem reads_drain {session : Session E N} (h : session.IsAttentive) {incoming : Bytes}
    (hheeds : session.heedsAll incoming = true) :
    Reads session incoming (reader.drain session incoming).items
      (reader.drain session incoming).fault? := by
  obtain ⟨packets, hitems, hreads⟩ :=
    reads_drainFrom _ [] session incoming h (Nat.lt_succ_self _) hheeds
  rw [List.reverse_nil, List.nil_append] at hitems
  rw [Decoder.drain]
  rw [← hitems] at hreads
  exact hreads

/-- What the two sides agree on holds of all that is read: the only keepalives are those that the
session keeps, and a fault is the peer's. -/
theorem Reads.sound {session : Session E N} {incoming : Bytes} {packets : List (Packet E)}
    {fault? : Option Fault} (hreads : Reads session incoming packets fault?) :
    session.IsAttentive → ∀ {side : Side}, session.registry = .standard side →
    (∀ packet ∈ packets, side.keeps packet = packet.isKeepalive)
      ∧ ∀ fault, fault? = some fault → fault.byPeer = true := by
  induction hreads with
  | done _ =>
      intro _ side _
      exact ⟨List.forall_mem_nil _, nofun⟩
  | fault hdecode =>
      intro _ side hregistry
      refine ⟨List.forall_mem_nil _, ?_⟩
      rintro fault hfault
      cases hfault
      exact ConnectionCodec.byPeer_of_decode hregistry hdecode
  | packet hdecode hheeds _ ih =>
      rename_i session incoming codec packet _ _ _
      intro h side hregistry
      have hkeeps := ConnectionCodec.keeps_of_decode hregistry hdecode
      have hdecoded := h.decoded hdecode
      have hcodec := session.codec.registry_decode incoming
      rw [hdecode] at hcodec
      have hreceived := congrArg Standing.registry (hdecoded.standing_receive hheeds)
      obtain ⟨hpackets, hblame⟩ :=
        ih (hdecoded.received hheeds) (hreceived.trans (hcodec.trans hregistry))
      exact ⟨List.forall_mem_cons.2 ⟨hkeeps, hpackets⟩, hblame⟩

/-! ## Whenever the bytes come -/

section

variable {mirror session : Session E N} {now later : Bytes}

theorem IsAttentive.of_ahead (h : mirror.IsAttentive)
    (hahead : mirror.ahead now = session.ahead later) : session.IsAttentive := by
  have hmirror : (mirror.ahead now).IsAttentive := ⟨h.isOpen, h.standard, h.quiet⟩
  rw [hahead] at hmirror
  exact ⟨hmirror.isOpen, hmirror.standard, hmirror.quiet⟩

/-- Two sessions that are the same but for the moment, with all their bytes at hand, heed the same
packets, and stay the same. -/
theorem IsAttentive.receive_congr (h : mirror.IsAttentive)
    (hahead : mirror.ahead now = session.ahead later) {packet : Packet E}
    (hheeds : mirror.heeds packet = true) :
    session.heeds packet = true
      ∧ (mirror.receive packet).ahead now = (session.receive packet).ahead later := by
  obtain ⟨hmirror, hreceive⟩ := h.receive_ahead packet now
  obtain ⟨hsession, hreceive'⟩ := (h.of_ahead hahead).receive_ahead packet later
  have hsame : session.heeds packet = true := by
    rw [← hsession, ← hahead, hmirror, hheeds]
  refine ⟨hsame, ?_⟩
  rw [← hreceive hheeds, ← hreceive' hsame, hahead]

theorem Reads.congr {packets : List (Packet E)} {fault? : Option Fault}
    (hreads : Reads mirror now packets fault?) : mirror.IsAttentive →
    ∀ {session : Session E N} {later : Bytes}, mirror.ahead now = session.ahead later →
    Reads session later packets fault? := by
  have hsame : ∀ {mirror session : Session E N} {now later : Bytes},
      mirror.ahead now = session.ahead later →
      session.codec.decode later = mirror.codec.decode now := by
    intro mirror session now later hahead
    have hcodec : mirror.codec.absorb now = session.codec.absorb later :=
      congrArg Session.codec hahead
    rw [ConnectionCodec.decode_eq, ← hcodec, ← ConnectionCodec.decode_eq]
  induction hreads with
  | done hdecode =>
      intro _ session later hahead
      exact .done ((hsame hahead).trans hdecode)
  | fault hdecode =>
      intro _ session later hahead
      exact .fault ((hsame hahead).trans hdecode)
  | packet hdecode hheeds _ ih =>
      rename_i mirror now codec packet _ _ _
      intro h session later hahead
      have hnext := h.decoded hdecode
      have hahead' : ahead { mirror with codec } [] = ahead { session with codec } [] :=
        congrArg (fun session : Session E N => { session with codec := codec.absorb [] }) hahead
      obtain ⟨hheeds', hreceive⟩ := hnext.receive_congr hahead' hheeds
      exact .packet ((hsame hahead).trans hdecode) hheeds' (ih (hnext.received hheeds) hreceive)

end

/-! ## A piece at a time -/

section

variable {session : Session E N} {taken rest : Bytes} {codec : ConnectionCodec E}
  {packets : List (Packet E)} {fault? : Option Fault}
  (hreads : Reads session (taken ++ rest) packets fault?) (h : session.IsAttentive)

include hreads h

theorem Reads.of_none (hdecode : session.codec.decode taken = (.ok none, codec)) :
    Reads { session with codec } rest packets fault? := by
  rw [ConnectionCodec.decode_eq] at hdecode
  obtain rfl := ConnectionCodec.streaming.decode_none hdecode
  refine hreads.congr h ?_
  simp only [ahead, ConnectionCodec.streaming.absorb_append]

/-- A packet that a piece makes is the next one, and what comes behind the piece is read when it
was received. -/
theorem Reads.of_some {packet : Packet E}
    (hdecode : session.codec.decode taken = (.ok (some packet), codec)) :
    ∃ others, packets = packet :: others ∧ heeds { session with codec } packet = true
      ∧ Reads (receive { session with codec } packet) rest others fault? := by
  have hwhole : session.codec.decode (taken ++ rest) = (.ok (some packet), codec.absorb rest) := by
    rw [ConnectionCodec.decode_eq] at hdecode ⊢
    rw [ConnectionCodec.streaming.absorb_append]
    exact ConnectionCodec.streaming.decode_some hdecode rest
  have hahead : ahead { session with codec := codec.absorb rest } []
      = ahead { session with codec } rest := by
    simp only [ahead, ConnectionCodec.absorb_nil]
  have hnext := h.decoded hwhole
  cases hreads with
  | done hother =>
      rw [hwhole] at hother
      cases hother
  | fault hother =>
      rw [hwhole] at hother
      cases hother
  | packet hother hheeds hothers =>
      rw [hwhole] at hother
      cases hother
      obtain ⟨hheeds', hreceive⟩ := hnext.receive_congr hahead hheeds
      exact ⟨_, rfl, hheeds', hothers.congr (hnext.received hheeds) hreceive⟩

omit h in
/-- A fault is the last thing that is read. -/
theorem Reads.of_error {fault : Fault}
    (hdecode : session.codec.decode taken = (.error fault, codec)) :
    packets = [] ∧ fault? = some fault := by
  obtain ⟨other, hwhole⟩ :
      ∃ other, session.codec.decode (taken ++ rest) = (.error fault, other) := by
    rw [ConnectionCodec.decode_eq] at hdecode ⊢
    rw [ConnectionCodec.streaming.absorb_append]
    exact ConnectionCodec.streaming.decode_error hdecode rest
  cases hreads with
  | done hother =>
      rw [hwhole] at hother
      cases hother
  | fault hother =>
      rw [hwhole] at hother
      cases hother
      exact ⟨rfl, rfl⟩
  | packet hother _ _ =>
      rw [hwhole] at hother
      cases hother

omit hreads h in
theorem Reads.of_short (hreads : Reads session taken packets fault?)
    (hdecode : session.codec.decode taken = (.ok none, codec)) : packets = [] ∧ fault? = none := by
  cases hreads with
  | done _ => exact ⟨rfl, rfl⟩
  | fault hother =>
      rw [hdecode] at hother
      cases hother
  | packet hother _ _ =>
      rw [hdecode] at hother
      cases hother

end

end Session
end PhaseWire
