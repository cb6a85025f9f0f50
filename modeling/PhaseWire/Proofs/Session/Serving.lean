import PhaseWire.Proofs.Codec.Blame
import PhaseWire.Proofs.Session.Reading
import PhaseWire.Proofs.Session.Verdict

/-
# A bad peer costs its own connection

A session reads what a peer sends, in pieces and in its own time, until the
peer is done.  Nobody else asks anything of it, no probe falls due, and the
transport takes what it writes.  Then it reads what the stream means to it
(`Session.reader`), its listener is given that and nothing behind it, and
the session closes for the first fault of the peer or for the end of the
stream.

While it is open the session is `Underway`: what it has read and what is
still to be read make up the whole.  Each turn reads on or closes the
session on the verdict that was due from the start (`Underway.turn`), and
takes something off what is left to do (`toDo`).
-/

namespace PhaseWire

variable {E N : Type} [CustomPackets E]

/-! ## Visits -/

/-- Whether a transport takes some bytes at once and passes them on. -/
def Duplex.Takes (duplex : Duplex) (bytes : Bytes) : Prop :=
  duplex.outgoing.ending? = none ∧ bytes.length ≤ duplex.outgoing.room
    ∧ duplex.outgoing.passage = .clear

/-- What a session meets when its turn comes. -/
structure Visit where
  surroundings : Surroundings
  /-- What the peer has sent since the last visit. -/
  arrived : Bytes
  /-- What the peer has not taken yet of what the session wrote. -/
  untaken : Bytes
  /-- How much more room there is than the session needs. -/
  spare : Nat

namespace Visit

/-- The transport at a visit.  It takes all that the session has written. -/
def duplex (visit : Visit) (session : Session E N) (duplex : Duplex) : Duplex where
  incoming := { duplex.incoming with held := duplex.incoming.held ++ visit.arrived }
  outgoing :=
    ⟨visit.untaken.length + (session.outgoing.length + visit.spare), visit.untaken, none, .clear⟩

theorem duplex_takes (visit : Visit) (session : Session E N) (duplex : Duplex) :
    (visit.duplex session duplex).Takes session.outgoing := by
  refine ⟨rfl, ?_, rfl⟩
  simp only [Visit.duplex, Pipe.room]
  omega

/-- Lets a session take its turn, if it does not have to wait. -/
def serve (visit : Visit) (state : Session E N × Duplex) : Session E N × Duplex :=
  let session := state.1.within visit.surroundings
  let duplex := visit.duplex session state.2
  (session.turn duplex).getD (session, duplex)

/-- Lets a session take its turns, at one visit after another. -/
def serveAll (visits : List Visit) (state : Session E N × Duplex) : Session E N × Duplex :=
  visits.foldl (fun state visit => visit.serve state) state

end Visit

/-- The transport when the peer is done. -/
def Duplex.hangUp (duplex : Duplex) : Duplex :=
  { duplex with incoming := duplex.incoming.close }

namespace Verdict

def given (verdict : Verdict E) (side : Side) (packets : List (Packet E)) : Verdict E :=
  { verdict with
    received := verdict.received ++ packets.filter fun packet => !side.keeps packet }

/-- The verdict when a session has read some packets, up to a fault or to the end. -/
def after (verdict : Verdict E) (side : Side) (packets : List (Packet E)) :
    Option Fault → Verdict E
  | some fault =>
    { verdict.given side packets with
      reason? := some fault.message, protocolErrors := verdict.protocolErrors + 1 }
  | none => { verdict.given side packets with reason? := some Reason.endOfStream }

omit [CustomPackets E] in
theorem given_append (verdict : Verdict E) (side : Side) (packets more : List (Packet E)) :
    verdict.given side (packets ++ more) = (verdict.given side packets).given side more := by
  simp only [given, List.filter_append, List.append_assoc]

end Verdict

namespace Session

/-! ## While the session is open -/

def IsPlaced (session : Session E N) : Prop :=
  session.activity = .waiting ∧ session.reading = true
    ∨ ∃ flush, session.activity = .flushing flush ∧ flush.tags = [] ∧ flush.afterwards = .wait

/-- An open session that was once `start`, with `rest` to read.  All in all it reads `packets` and
stops at `fault?`. -/
structure Underway (start : Session E N) (packets : List (Packet E)) (fault? : Option Fault)
    (rest : Bytes) (session : Session E N) : Prop where
  attentive : session.IsAttentive
  reads : ∃ past others, packets = past ++ others ∧ Reads session rest others fault?
    ∧ session.verdict = start.verdict.given start.options.side past
  options : session.options = start.options
  nextTick : session.nextTick = start.nextTick
  channel : session.channel = []
  tags : session.tags = []
  ended : session.inputEnded = true → rest = []

/-- How much work waits in the session, in turns at most. -/
def backlog (session : Session E N) : Nat :=
  3 * session.codec.pipeline.pending + (if session.unseen then 1 else 0)
    + match session.activity with
      | .flushing _ => 1
      | _ => 0

theorem backlog_le (session : Session E N) :
    session.backlog ≤ 3 * session.codec.pipeline.pending + 2 := by
  rw [backlog]
  split <;> split <;> omega

/-- How many turns the session takes at most until all that came in is read. -/
def toDo (state : Session E N × Duplex) : Nat :=
  4 * state.2.incoming.held.length + state.1.backlog

section

variable {start session : Session E N} {packets : List (Packet E)} {fault? : Option Fault}
  {taken rest : Bytes}

/-- What belongs to the moment makes no difference, as long as the end of the stream is the end. -/
theorem Underway.of_ahead (h : Underway start packets fault? rest session) {next : Session E N}
    (hahead : session.ahead rest = next.ahead rest) (hnextTick : next.nextTick = session.nextTick)
    (hchannel : next.channel = session.channel) (htags : next.tags = session.tags)
    (hended : next.inputEnded = true → rest = []) : Underway start packets fault? rest next := by
  obtain ⟨past, others, hpackets, hreads, hverdict⟩ := h.reads
  have hsame : next.verdict = session.verdict := (congrArg verdict hahead).symm
  have hoptions : next.options = session.options := (congrArg Session.options hahead).symm
  exact
    { attentive := h.attentive.of_ahead hahead
      reads := ⟨past, others, hpackets, hreads.congr h.attentive hahead, hsame.trans hverdict⟩
      options := hoptions.trans h.options
      nextTick := hnextTick.trans h.nextTick
      channel := hchannel.trans h.channel
      tags := htags.trans h.tags
      ended := hended }

theorem Underway.amid (h : Underway start packets fault? rest session)
    (surroundings : Surroundings) (outgoing : Bytes) (reading unseen : Bool) (activity : Activity) :
    Underway start packets fault? rest
      { session with surroundings, outgoing, reading, unseen, activity } :=
  h.of_ahead rfl rfl rfl rfl h.ended

theorem Underway.meet (h : Underway start packets fault? rest session) (inputEnded : Bool)
    (readRoom : Nat) (hended : inputEnded = true → rest = []) :
    Underway start packets fault? rest { session with inputEnded, readRoom } :=
  h.of_ahead rfl rfl rfl rfl hended

theorem Underway.beginFlush (h : Underway start packets fault? rest session) (duplex : Duplex) :
    ∃ next, session.beginFlush duplex .wait = (next, duplex)
      ∧ Underway start packets fault? rest next ∧ next.IsPlaced
      ∧ next.backlog ≤ 3 * session.codec.pipeline.pending + 2 := by
  rw [Session.beginFlush]
  split
  · have hnext := h.amid session.surroundings session.outgoing true session.unseen .waiting
    exact ⟨_, rfl, hnext, .inl ⟨rfl, rfl⟩, backlog_le _⟩
  · have hnext := fun flush =>
      h.amid session.surroundings session.outgoing session.reading session.unseen (.flushing flush)
    refine ⟨_, rfl, ?_, .inr ⟨_, rfl, h.tags, rfl⟩, backlog_le _⟩
    rw [← h.tags]
    exact hnext _

theorem Underway.receive (h : Underway start packets fault? (taken ++ rest) session)
    {packet : Packet E} {codec : ConnectionCodec E}
    (hdecode : session.codec.decode taken = (.ok (some packet), codec)) :
    Underway start packets fault? rest (receive { session with codec } packet)
      ∧ (Session.receive { session with codec } packet).codec.pipeline.pending
        < session.codec.pipeline.pending + taken.length := by
  obtain ⟨past, others, rfl, hreads, hverdict⟩ := h.reads
  obtain ⟨others, rfl, hheeds, hothers⟩ := hreads.of_some h.attentive hdecode
  have hdecoded := h.attentive.decoded hdecode
  have hstanding := hdecoded.standing_receive hheeds
  have hgiven : (Session.receive { session with codec } packet).verdict
      = Verdict.given (verdict { session with codec }) session.options.side [packet] :=
    congrArg (fun standing : Standing E N =>
      (⟨standing.reason?, standing.protocolErrors, standing.connectionErrors, standing.received⟩
        : Verdict E)) hstanding
  rw [ConnectionCodec.decode_eq] at hdecode
  refine ⟨?_, ?_⟩
  · exact
      { attentive := hdecoded.received hheeds
        reads := by
          refine ⟨past ++ [packet], others, List.append_cons past packet others, hothers, ?_⟩
          have hmetrics : verdict { session with codec } = session.verdict := by
            obtain ⟨payload, pipeline, -, -, rfl⟩ := ConnectionCodec.decode_some_iff.1 hdecode
            rfl
          rw [hgiven, hmetrics, hverdict, h.options, Verdict.given_append]
        options := (congrArg Standing.options hstanding).trans h.options
        nextTick := (congrArg Standing.nextTick hstanding).trans h.nextTick
        channel := (congrArg Standing.channel hstanding).trans h.channel
        tags := (congrArg Standing.tags hstanding).trans h.tags
        ended := by
          intro hended
          have hbefore := (congrArg Standing.inputEnded hstanding).symm.trans hended
          exact (List.append_eq_nil_iff.1 (h.ended hbefore)).2 }
  · have hpending : (Session.receive { session with codec } packet).codec.pipeline.pending
        = codec.pipeline.pending := congrArg Standing.pending hstanding
    have hless := ConnectionCodec.streaming.pending_lt hdecode
    rw [ConnectionCodec.streaming.pending_absorb] at hless
    rw [hpending]
    exact hless

theorem Underway.fail (h : Underway start packets fault? (taken ++ rest) session)
    {fault : Fault} {codec : ConnectionCodec E}
    (hdecode : session.codec.decode taken = (.error fault, codec)) :
    (Session.fail { session with codec } fault).IsSpent
      ∧ (Session.fail { session with codec } fault).verdict
        = start.verdict.after start.options.side packets fault? := by
  obtain ⟨past, others, rfl, hreads, hverdict⟩ := h.reads
  obtain ⟨rfl, rfl⟩ := hreads.of_error hdecode
  have hdecoded := h.attentive.decoded hdecode
  obtain ⟨side, hside⟩ := h.attentive.standard
  have hblame : fault.byPeer = true := ConnectionCodec.byPeer_of_decode hside hdecode
  have hmetrics : codec.metrics = session.codec.metrics := by
    rw [ConnectionCodec.decode_eq] at hdecode
    rcases ConnectionCodec.decode_error_iff.1 hdecode with
      ⟨pipeline, -, rfl⟩ | ⟨payload, pipeline, -, -, rfl⟩
    · rfl
    · rfl
  have hcounted : verdict (count { session with codec } Metrics.protocolError)
      = { session.verdict with protocolErrors := session.verdict.protocolErrors + 1 } := by
    simp only [verdict, metrics, count, hmetrics, Metrics.protocolError]
  obtain ⟨hspent, hshut⟩ :=
    shut_spent (count { session with codec } Metrics.protocolError)
      hdecoded.isClosed_eq h.channel h.tags fault.message
  rw [Session.fail, if_pos hblame]
  refine ⟨hspent, ?_⟩
  rw [hshut, hcounted, hverdict, List.append_nil]
  rfl

theorem Underway.shut (h : Underway start packets fault? taken session)
    {codec : ConnectionCodec E} (hdecode : session.codec.decode taken = (.ok none, codec)) :
    (Session.shut { session with codec } Reason.endOfStream).IsSpent
      ∧ (Session.shut { session with codec } Reason.endOfStream).verdict
        = start.verdict.after start.options.side packets fault? := by
  obtain ⟨past, others, rfl, hreads, hverdict⟩ := h.reads
  obtain ⟨rfl, rfl⟩ := hreads.of_short hdecode
  have hdecoded := h.attentive.decoded hdecode
  obtain ⟨hspent, hshut⟩ := shut_spent { session with codec }
    hdecoded.isClosed_eq h.channel h.tags Reason.endOfStream
  refine ⟨hspent, ?_⟩
  rw [ConnectionCodec.decode_eq] at hdecode
  obtain rfl := ConnectionCodec.streaming.decode_none hdecode
  have hsame : verdict { session with codec := session.codec.absorb taken } = session.verdict := rfl
  rw [hshut, hsame, hverdict, List.append_nil]
  rfl

theorem Underway.takeIn (h : Underway start packets fault? (taken ++ rest) session)
    {codec : ConnectionCodec E} (hdecode : session.codec.decode taken = (.ok none, codec)) :
    Underway start packets fault? rest { session with codec }
      ∧ codec.pipeline.pending = session.codec.pipeline.pending + taken.length := by
  obtain ⟨past, others, rfl, hreads, hverdict⟩ := h.reads
  have hreads' := hreads.of_none h.attentive hdecode
  have hdecoded := h.attentive.decoded hdecode
  rw [ConnectionCodec.decode_eq] at hdecode
  obtain rfl := ConnectionCodec.streaming.decode_none hdecode
  refine ⟨?_, ConnectionCodec.streaming.pending_absorb session.codec taken⟩
  exact
    { attentive := hdecoded
      reads := ⟨past, others, rfl, hreads', hverdict⟩
      options := h.options
      nextTick := h.nextTick
      channel := h.channel
      tags := h.tags
      ended := fun hended => (List.append_eq_nil_iff.1 (h.ended hended)).2 }

theorem Underway.frameStep (h : Underway start packets fault? (taken ++ rest) session)
    (hplaced : session.IsPlaced) (hwaiting : session.activity = .waiting) (duplex : Duplex) :
    ∃ next, session.frameStep duplex taken = some (next, duplex)
      ∧ (next.SettledOn (start.verdict.after start.options.side packets fault?)
        ∨ Underway start packets fault? rest next ∧ next.IsPlaced
          ∧ next.backlog ≤ 3 * (session.codec.pipeline.pending + taken.length)
          ∧ (session.inputEnded = true →
            next.backlog < 3 * (session.codec.pipeline.pending + taken.length))) := by
  have hkept : ∀ closed : Session E N, (closed.beginFlush duplex .wait).2 = duplex := by
    intro closed
    rw [Session.beginFlush]
    split
    · rfl
    · rfl
  rcases hdecode : session.codec.decode taken with ⟨fault | _ | packet, codec⟩
  · have hamid := h.amid session.surroundings session.outgoing session.reading false
      session.activity
    obtain ⟨hspent, hverdict⟩ := hamid.fail hdecode
    have hsettled := hspent.beginFlush duplex .wait
    rw [hverdict] at hsettled
    refine ⟨_, ?_, .inl hsettled⟩
    rw [Session.frameStep, hdecode]
    exact congrArg some (Prod.ext rfl (hkept _))
  · rw [Session.frameStep, hdecode]
    dsimp only
    have hamid := h.amid session.surroundings session.outgoing session.reading false
      session.activity
    by_cases hended : session.inputEnded = true
    · -- nothing is taken in any more, and what is at hand is no frame
      rw [if_pos hended]
      obtain ⟨rfl, rfl⟩ := List.append_eq_nil_iff.1 (h.ended hended)
      obtain ⟨hspent, hverdict⟩ := hamid.shut hdecode
      have hsettled := hspent.beginFlush duplex .wait
      rw [hverdict] at hsettled
      exact ⟨_, congrArg some (Prod.ext rfl (hkept _)), .inl hsettled⟩
    · rw [if_neg hended]
      obtain ⟨hunderway, hpending⟩ := hamid.takeIn hdecode
      refine ⟨_, rfl, .inr ⟨hunderway, hplaced, ?_, fun hcontra => absurd hcontra hended⟩⟩
      simp only [backlog, hwaiting, hpending]
      exact Nat.le_refl _
  · have hamid := h.amid session.surroundings session.outgoing session.reading true
      session.activity
    obtain ⟨hunderway, hless⟩ := hamid.receive hdecode
    obtain ⟨next, hflush, hnext, hplaced, hbacklog⟩ := hunderway.beginFlush duplex
    have harith : ∀ {left whole : Nat}, left < whole → 3 * left + 2 < 3 * whole := by omega
    have hstrict : next.backlog < 3 * (session.codec.pipeline.pending + taken.length) :=
      Nat.lt_of_le_of_lt hbacklog (harith hless)
    refine ⟨next, ?_, .inr ⟨hnext, hplaced, Nat.le_of_lt hstrict, fun _ => hstrict⟩⟩
    rw [Session.frameStep, hdecode]
    exact congrArg some hflush

/-! ## Turns -/

/-- A transport that takes some bytes is rid of them all, and carries as much the other way as
before. -/
theorem push_of_takes {duplex : Duplex} {bytes : Bytes} (h : duplex.Takes bytes) :
    ∃ outgoing, duplex.push bytes = (.ok true, bytes.length, { duplex with outgoing }) := by
  obtain ⟨hopen, hroom, hclear⟩ := h
  cases bytes with
  | nil =>
      refine ⟨duplex.outgoing, ?_⟩
      simp [Duplex.push, Duplex.flush, Pipe.flush, hclear]
  | cons byte bytes =>
      have hwrite : duplex.outgoing.write (byte :: bytes) = .ok ((byte :: bytes).length,
          { duplex.outgoing with held := duplex.outgoing.held ++ byte :: bytes }) := by
        rw [Pipe.write, hopen]
        dsimp only
        rw [List.take_of_length_le hroom, hopen]
      refine ⟨{ duplex.outgoing with held := duplex.outgoing.held ++ byte :: bytes }, ?_⟩
      simp only [Duplex.push, Duplex.write, hwrite, Except.map, Nat.lt_irrefl, if_false,
        Duplex.flush, Pipe.flush, hclear]
      rfl

theorem Underway.flushStep (h : Underway start packets fault? rest session) {flush : Flush}
    (hactivity : session.activity = .flushing flush) (htags : flush.tags = [])
    (hwait : flush.afterwards = .wait) {duplex : Duplex} (htakes : duplex.Takes session.outgoing) :
    ∃ next outgoing, session.flushStep duplex flush = some (next, { duplex with outgoing })
      ∧ Underway start packets fault? rest next ∧ next.IsPlaced
      ∧ next.backlog < session.backlog := by
  obtain ⟨outgoing, hpush⟩ := push_of_takes htakes
  have hnext := h.amid session.surroundings [] true session.unseen .waiting
  refine ⟨_, outgoing, ?_, hnext, .inl ⟨rfl, rfl⟩, ?_⟩
  · rw [Session.flushStep, hpush]
    simp only [List.drop_length, htags, hwait]
    rfl
  · simp only [backlog, hactivity]
    omega

theorem Underway.readStep {later : Bytes} {duplex : Duplex}
    (h : Underway start packets fault? (duplex.incoming.held ++ later) session)
    (hplaced : session.IsPlaced) (hwaiting : session.activity = .waiting)
    (hunseen : session.unseen = false)
    (hending : duplex.incoming.ending? = none
      ∨ duplex.incoming.ending? = some .closed ∧ later = []) :
    session.readStep duplex = none ∧ duplex.incoming.ending? = none
      ∨ ∃ next incoming, session.readStep duplex = some (next, { duplex with incoming })
        ∧ (next.SettledOn (start.verdict.after start.options.side packets fault?)
          ∨ Underway start packets fault? (incoming.held ++ later) next ∧ next.IsPlaced
            ∧ incoming.ending? = duplex.incoming.ending?
            ∧ 4 * incoming.held.length + next.backlog
              < 4 * duplex.incoming.held.length + session.backlog) := by
  have hbacklog : session.backlog = 3 * session.codec.pipeline.pending := by
    simp only [backlog, hwaiting, hunseen]
    rfl
  by_cases hempty : duplex.incoming.held = []
  · rcases hending with hopen | ⟨hclosed, rfl⟩
    · -- the only turn that does nothing: the peer is not done, and has sent nothing more
      refine .inl ⟨?_, hopen⟩
      simp only [Session.readStep, Duplex.read, Pipe.read, hempty, hopen]
      rfl
    · have hread : session.readStep duplex
          = Session.frameStep { session with inputEnded := true } duplex [] := by
        simp only [Session.readStep, Duplex.read, Pipe.read, hempty, hclosed]
        rfl
      rw [hempty] at h
      have hmet : Underway start packets fault? ([] ++ []) { session with inputEnded := true } :=
        h.meet true session.readRoom fun _ => rfl
      obtain ⟨next, hstep, hnext⟩ := hmet.frameStep hplaced hwaiting duplex
      refine .inr ⟨next, duplex.incoming, hread.trans hstep, hnext.imp id ?_⟩
      rintro ⟨hunderway, hplaced, -, hless⟩
      have hless := hless rfl
      rw [hempty]
      refine ⟨hunderway, hplaced, rfl, ?_⟩
      rw [hbacklog]
      exact Nat.add_lt_add_left hless _
  · let limit := session.readLimit
    let taken := duplex.incoming.held.take limit
    let incoming : Pipe := { duplex.incoming with held := duplex.incoming.held.drop limit }
    have hread : session.readStep duplex
        = Session.frameStep
          { session with inputEnded := false, readRoom := limit - taken.length }
          { duplex with incoming } taken := by
      have hsome : duplex.incoming.held.isEmpty = false := by
        rwa [List.isEmpty_eq_false_iff]
      simp only [Session.readStep, Duplex.read, Pipe.read, hsome, List.splitAt_eq]
      rfl
    have hwhole : taken ++ incoming.held = duplex.incoming.held := List.take_append_drop limit _
    have hlength : taken.length + incoming.held.length = duplex.incoming.held.length := by
      rw [← hwhole, List.length_append]
    have htaken : 0 < taken.length := by
      have hlimit : 0 < limit := by
        simp only [limit, readLimit]
        split
        · exact Nat.zero_lt_succ _
        · omega
      rw [List.length_take]
      exact Nat.lt_min.2 ⟨hlimit, List.length_pos_iff.2 hempty⟩
    rw [← hwhole, List.append_assoc] at h
    have hmet : Underway start packets fault? (taken ++ (incoming.held ++ later))
        { session with inputEnded := false, readRoom := limit - taken.length } :=
      h.meet false (limit - taken.length) nofun
    obtain ⟨next, hstep, hnext⟩ := hmet.frameStep hplaced hwaiting { duplex with incoming }
    refine .inr ⟨next, incoming, hread.trans hstep, hnext.imp id ?_⟩
    rintro ⟨hunderway, hplaced, hmost, -⟩
    have hmost : next.backlog ≤ 3 * (session.codec.pipeline.pending + taken.length) := hmost
    exact ⟨hunderway, hplaced, rfl, by omega⟩

/-- A turn goes on or closes the session, if there is anything to go on with. -/
theorem Underway.turn {later : Bytes} {duplex : Duplex}
    (h : Underway start packets fault? (duplex.incoming.held ++ later) session)
    (hplaced : session.IsPlaced) (htakes : duplex.Takes session.outgoing)
    (htick : session.surroundings.timer < start.nextTick)
    (hending : duplex.incoming.ending? = none
      ∨ duplex.incoming.ending? = some .closed ∧ later = []) :
    session.turn duplex = none ∧ duplex.incoming.ending? = none
      ∨ ∃ next duplex', session.turn duplex = some (next, duplex')
        ∧ (next.SettledOn (start.verdict.after start.options.side packets fault?)
          ∨ Underway start packets fault? (duplex'.incoming.held ++ later) next ∧ next.IsPlaced
            ∧ duplex'.incoming.ending? = duplex.incoming.ending?
            ∧ toDo (next, duplex') < toDo (session, duplex)) := by
  rcases hplaced with ⟨hwaiting, hreading⟩ | ⟨flush, hflushing, htags, hwait⟩
  · -- no command waits and no probe falls due, so the turn is for what comes in
    have hturn : session.turn duplex
        = if session.unseen then session.frameStep duplex [] else session.readStep duplex := by
      have hnotick : decide (session.nextTick ≤ session.surroundings.timer) = false :=
        decide_eq_false (by rw [h.nextTick]; exact Nat.not_le_of_lt htick)
      rw [Session.turn, hwaiting]
      simp only [h.attentive.isClosed_eq, waitStep, h.channel, hnotick, hreading, Bool.and_false]
      rfl
    rw [hturn]
    have hplaced : session.IsPlaced := .inl ⟨hwaiting, hreading⟩
    cases hunseen : session.unseen with
    | true =>
        have hmet : Underway start packets fault? ([] ++ (duplex.incoming.held ++ later)) session :=
          h
        obtain ⟨next, hstep, hnext⟩ := hmet.frameStep hplaced hwaiting duplex
        refine .inr ⟨next, duplex, hstep, hnext.imp id ?_⟩
        rintro ⟨hunderway, hplaced, hmost, -⟩
        have hbacklog : session.backlog = 3 * session.codec.pipeline.pending + 1 := by
          simp only [backlog, hwaiting, hunseen]
          rfl
        have hless : next.backlog < session.backlog := by
          rw [hbacklog]
          exact Nat.lt_succ_of_le hmost
        exact ⟨hunderway, hplaced, rfl, Nat.add_lt_add_left hless _⟩
    | false =>
        refine (h.readStep hplaced hwaiting hunseen hending).imp id ?_
        rintro ⟨next, incoming, hstep, hnext⟩
        exact ⟨next, { duplex with incoming }, hstep, hnext⟩
  · obtain ⟨next, outgoing, hstep, hnext, hplaced, hless⟩ :=
      h.flushStep hflushing htags hwait htakes
    refine .inr ⟨next, { duplex with outgoing }, ?_, .inr ⟨hnext, hplaced, rfl, ?_⟩⟩
    · rw [Session.turn, hflushing]
      exact hstep
    · exact Nat.add_lt_add_left hless _

end

/-! ## From visit to visit -/

/-- A session that is settled on the verdict that was due, or goes on with less than `left` to
do. -/
def Served (start : Session E N) (packets : List (Packet E)) (fault? : Option Fault)
    (later : Bytes) (ending? : Option Ending) (left : Nat) (state : Session E N × Duplex) : Prop :=
  state.1.SettledOn (start.verdict.after start.options.side packets fault?)
    ∨ Underway start packets fault? (state.2.incoming.held ++ later) state.1 ∧ state.1.IsPlaced
      ∧ state.2.incoming.ending? = ending? ∧ toDo state < left

section

variable {start : Session E N} {packets : List (Packet E)} {fault? : Option Fault}
  {later : Bytes} {ending? : Option Ending} {left : Nat} {state : Session E N × Duplex}

/-- A settled session stays so at every visit. -/
theorem serve_settled {verdict : Verdict E} (visit : Visit) (h : state.1.SettledOn verdict) :
    (visit.serve state).1.SettledOn verdict := by
  obtain ⟨hsettled, rfl⟩ := h
  have hwithin : (state.1.within visit.surroundings).IsSettled :=
    ⟨⟨hsettled.closed, hsettled.channel, hsettled.tags⟩, hsettled.flush⟩
  rw [Visit.serve]
  cases hturn : (state.1.within visit.surroundings).turn
      (visit.duplex (state.1.within visit.surroundings) state.2) with
  | none => exact ⟨hwithin, rfl⟩
  | some result => exact hwithin.turn hturn

/-- At a visit more may have come in, and a turn is taken.  When the peer is done the turn is never
in vain. -/
theorem Underway.serve {visit : Visit}
    (h : Underway start packets fault? (state.2.incoming.held ++ (visit.arrived ++ later)) state.1)
    (hplaced : state.1.IsPlaced) (htick : visit.surroundings.timer < start.nextTick)
    (hending : state.2.incoming.ending? = none
      ∨ state.2.incoming.ending? = some .closed ∧ later = []) :
    (visit.serve state).1.SettledOn (start.verdict.after start.options.side packets fault?)
      ∨ Underway start packets fault? ((visit.serve state).2.incoming.held ++ later)
          (visit.serve state).1
        ∧ (visit.serve state).1.IsPlaced
        ∧ (visit.serve state).2.incoming.ending? = state.2.incoming.ending?
        ∧ toDo (visit.serve state) ≤ toDo state + 4 * visit.arrived.length
        ∧ (state.2.incoming.ending? ≠ none →
          toDo (visit.serve state) < toDo state + 4 * visit.arrived.length) := by
  let session := state.1.within visit.surroundings
  let duplex := visit.duplex session state.2
  have hmet : Underway start packets fault? (duplex.incoming.held ++ later) session := by
    rw [← List.append_assoc] at h
    exact h.amid visit.surroundings state.1.outgoing state.1.reading state.1.unseen state.1.activity
  have htoDo : toDo (session, duplex) = toDo state + 4 * visit.arrived.length := by
    have hlength : duplex.incoming.held.length
        = state.2.incoming.held.length + visit.arrived.length := List.length_append
    have hbacklog : session.backlog = state.1.backlog := rfl
    simp only [toDo, hlength, hbacklog]
    omega
  rw [← htoDo]
  rcases hmet.turn hplaced (visit.duplex_takes session state.2) htick hending with
    ⟨hturn, hopen⟩ | ⟨next, duplex', hturn, hnext⟩
  · have hserve : visit.serve state = (session, duplex) := by
      rw [Visit.serve]
      exact congrArg (Option.getD · _) hturn
    rw [hserve]
    exact .inr ⟨hmet, hplaced, rfl, Nat.le_refl _, fun hclosed => absurd hopen hclosed⟩
  · have hserve : visit.serve state = (next, duplex') := by
      rw [Visit.serve]
      exact congrArg (Option.getD · _) hturn
    rw [hserve]
    refine hnext.imp id ?_
    rintro ⟨hunderway, hplaced, hending, hless⟩
    exact ⟨hunderway, hplaced, hending, Nat.le_of_lt hless, fun _ => hless⟩

theorem Served.serve {visit : Visit}
    (h : Served start packets fault? (visit.arrived ++ later) none left state)
    (htick : visit.surroundings.timer < start.nextTick) :
    Served start packets fault? later none (left + 4 * visit.arrived.length)
      (visit.serve state) := by
  rcases h with hsettled | ⟨hunderway, hplaced, hending, hless⟩
  · exact .inl (serve_settled visit hsettled)
  · refine (hunderway.serve hplaced htick (.inl hending)).imp id ?_
    rintro ⟨hunderway, hplaced, hsame, hmost, -⟩
    exact ⟨hunderway, hplaced, hsame.trans hending, by omega⟩

theorem Served.serve_done {visit : Visit}
    (h : Served start packets fault? [] (some .closed) left state)
    (harrived : visit.arrived = []) (htick : visit.surroundings.timer < start.nextTick) :
    Served start packets fault? [] (some .closed) (left - 1) (visit.serve state) := by
  rcases h with hsettled | ⟨hunderway, hplaced, hending, hless⟩
  · exact .inl (serve_settled visit hsettled)
  · have hmet : Underway start packets fault? (state.2.incoming.held ++ (visit.arrived ++ []))
        state.1 := by
      rw [harrived]
      exact hunderway
    refine (hmet.serve hplaced htick (.inr ⟨hending, rfl⟩)).imp id ?_
    rintro ⟨hunderway, hplaced, hsame, -, hless'⟩
    have hless' := hless' (by rw [hending]; nofun)
    rw [harrived, List.length_nil] at hless'
    exact ⟨hunderway, hplaced, hsame.trans hending, by omega⟩

theorem Served.serveAll : ∀ {visits : List Visit} {left : Nat} {state : Session E N × Duplex},
    Served start packets fault? (visits.flatMap Visit.arrived) none left state →
    (∀ visit ∈ visits, visit.surroundings.timer < start.nextTick) →
    Served start packets fault? [] none (left + 4 * (visits.flatMap Visit.arrived).length)
      (Visit.serveAll visits state) := by
  intro visits
  induction visits with
  | nil =>
      intro left state h _
      exact h
  | cons visit visits ih =>
      intro left state h hticks
      rw [List.flatMap_cons] at h ⊢
      have hfirst := h.serve (hticks visit List.mem_cons_self)
      have hrest := ih hfirst fun other hother => hticks other (List.mem_cons_of_mem _ hother)
      rw [List.length_append, Nat.mul_add, ← Nat.add_assoc]
      exact hrest

theorem Served.serveAll_done : ∀ {visits : List Visit} {left : Nat}
    {state : Session E N × Duplex}, Served start packets fault? [] (some .closed) left state →
    (∀ visit ∈ visits, visit.arrived = [] ∧ visit.surroundings.timer < start.nextTick) →
    Served start packets fault? [] (some .closed) (left - visits.length)
      (Visit.serveAll visits state) := by
  intro visits
  induction visits with
  | nil =>
      intro left state h _
      exact h
  | cons visit visits ih =>
      intro left state h hvisits
      obtain ⟨harrived, htick⟩ := hvisits visit List.mem_cons_self
      have hfirst := h.serve_done harrived htick
      have hrest := ih hfirst fun other hother => hvisits other (List.mem_cons_of_mem _ hother)
      rw [List.length_cons, Nat.add_comm, ← Nat.sub_sub]
      exact hrest

theorem Served.hangUp (h : Served start packets fault? [] none left state) :
    Served start packets fault? [] (some .closed) left (state.1, state.2.hangUp) := by
  refine h.imp id ?_
  rintro ⟨hunderway, hplaced, hopen, hless⟩
  refine ⟨hunderway, hplaced, ?_, hless⟩
  simp only [Duplex.hangUp, Pipe.close, hopen, Option.getD_none]

theorem Served.verdict_of_closed (h : Served start packets fault? later ending? left state)
    (hclosed : state.1.isClosed = true) :
    state.1.verdict = start.verdict.after start.options.side packets fault? := by
  rcases h with ⟨-, hverdict⟩ | ⟨hunderway, -⟩
  · exact hverdict
  · rw [hunderway.attentive.isClosed_eq] at hclosed
    cases hclosed

theorem Served.verdict_of_open (h : Served start packets fault? later ending? left state)
    (hopen : state.1.isClosed = false) :
    ∃ past, past <+: packets ∧ state.1.verdict = start.verdict.given start.options.side past := by
  rcases h with ⟨hsettled, -⟩ | ⟨hunderway, -⟩
  · rw [hsettled.closed] at hopen
    cases hopen
  · obtain ⟨past, others, hpackets, -, hverdict⟩ := hunderway.reads
    exact ⟨past, ⟨others, hpackets.symm⟩, hverdict⟩

/-- A session with nothing left to do is closed. -/
theorem Served.isClosed (h : Served start packets fault? later ending? 0 state) :
    state.1.isClosed = true := by
  rcases h with ⟨hsettled, -⟩ | ⟨-, -, -, hless⟩
  · exact hsettled.closed
  · exact absurd hless (Nat.not_lt_zero _)

end

/-! ## A whole stream -/

/-- An open session that nobody but the peer asks anything of: it waits for a frame, or flushes
before it waits. -/
structure IsReady (session : Session E N) : Prop where
  isOpen : session.lifecycle = .active
  placed : session.IsPlaced
  channel : session.channel = []
  tags : session.tags = []
  inputEnded : session.inputEnded = false

theorem IsReady.underway {session : Session E N} (h : session.IsReady) {side : Side}
    (hregistry : session.registry = .standard side) (hquiet : session.listener.IsQuiet)
    {stream : Bytes} (hheeds : session.heedsAll stream = true) :
    Underway session (reader.drain session stream).items (reader.drain session stream).fault?
      stream session := by
  have hattentive : session.IsAttentive := ⟨h.isOpen, ⟨side, hregistry⟩, hquiet⟩
  exact
    { attentive := hattentive
      reads := by
        refine ⟨[], _, rfl, reads_drain hattentive hheeds, ?_⟩
        simp only [Verdict.given, List.filter_nil, List.append_nil]
      options := rfl
      nextTick := rfl
      channel := h.channel
      tags := h.tags
      ended := by
        rw [h.inputEnded]
        nofun }

section

variable {session : Session E N} (hready : session.IsReady) {side : Side}
  (hregistry : session.registry = .standard side) (hquiet : session.listener.IsQuiet)
  {duplex : Duplex} (hopen : duplex.incoming.ending? = none) {visits final : List Visit}
  (hheeds : session.heedsAll (duplex.incoming.held ++ visits.flatMap Visit.arrived) = true)
  (hticks : ∀ visit ∈ visits ++ final, visit.surroundings.timer < session.nextTick)
  (hdone : ∀ visit ∈ final, visit.arrived = [])

include hready hregistry hquiet hopen hheeds hticks hdone

/-- Visit after visit, and when the peer is done, a session is served what its stream means. -/
theorem served_of_stream :
    let stream := duplex.incoming.held ++ visits.flatMap Visit.arrived
    let read := reader.drain session stream
    let met := Visit.serveAll visits (session, duplex)
    Served session read.items read.fault? [] (some .closed)
      (4 * stream.length + 3 * session.codec.pipeline.pending + 3 - final.length)
      (Visit.serveAll final (met.1, met.2.hangUp)) := by
  intro stream read met
  have hunderway := hready.underway hregistry hquiet hheeds
  have hleft : toDo (session, duplex) + 4 * (visits.flatMap Visit.arrived).length
      < 4 * stream.length + 3 * session.codec.pipeline.pending + 3 := by
    have hbacklog := session.backlog_le
    have hlength : stream.length
        = duplex.incoming.held.length + (visits.flatMap Visit.arrived).length :=
      List.length_append
    simp only [toDo]
    omega
  have hstart : Served session read.items read.fault? (visits.flatMap Visit.arrived) none
      (4 * stream.length + 3 * session.codec.pipeline.pending + 3
        - 4 * (visits.flatMap Visit.arrived).length) (session, duplex) :=
    .inr ⟨hunderway, hready.placed, hopen, by omega⟩
  have hmet := hstart.serveAll fun visit hvisit => hticks visit (List.mem_append_left _ hvisit)
  have hbound : 4 * (visits.flatMap Visit.arrived).length
      ≤ 4 * stream.length + 3 * session.codec.pipeline.pending + 3 := by
    omega
  rw [Nat.sub_add_cancel hbound] at hmet
  exact hmet.hangUp.serveAll_done fun visit hvisit =>
    ⟨hdone visit hvisit, hticks visit (List.mem_append_right _ hvisit)⟩

/-- Whatever a peer sends costs its own session at most, with the right verdict.  The listener is
given what the session reads from the stream up to the first fault, without the keepalives that the
session keeps; on its own side of the connection these are all keepalives.  The fault is the
peer's, is counted as such, and is the reason of the close; without a fault all that is whole is
read, and the reason is the end of the stream. -/
theorem verdict_of_stream :
    let stream := duplex.incoming.held ++ visits.flatMap Visit.arrived
    let read := reader.drain session stream
    let given := fun packets : List (Packet E) =>
      session.verdict.received ++ packets.filter fun packet => !session.options.side.keeps packet
    let met := Visit.serveAll visits (session, duplex)
    let last := (Visit.serveAll final (met.1, met.2.hangUp)).1
    Reads session stream read.items read.fault?
      ∧ (session.options.side = side →
        ∀ packet ∈ read.items, session.options.side.keeps packet = packet.isKeepalive)
      ∧ (∀ fault, read.fault? = some fault → fault.byPeer = true ∧ fault.bySetup = false)
      ∧ (last.isClosed = false → ∃ past, past <+: read.items
        ∧ last.verdict = { session.verdict with received := given past })
      ∧ (last.isClosed = true → last.verdict =
        match read.fault? with
        | some fault =>
          { session.verdict with
            reason? := some fault.message
            protocolErrors := session.verdict.protocolErrors + 1
            received := given read.items }
        | none =>
          { session.verdict with
            reason? := some Reason.endOfStream
            received := given read.items })
      ∧ (4 * stream.length + 3 * session.codec.pipeline.pending + 3 ≤ final.length →
        last.isClosed = true) := by
  intro stream read given met last
  have hserved : Served session read.items read.fault? [] (some .closed)
      (4 * stream.length + 3 * session.codec.pipeline.pending + 3 - final.length)
      (Visit.serveAll final (met.1, met.2.hangUp)) :=
    served_of_stream hready hregistry hquiet hopen hheeds hticks hdone
  have hattentive : session.IsAttentive := ⟨hready.isOpen, ⟨side, hregistry⟩, hquiet⟩
  have hreads : Reads session stream read.items read.fault? := reads_drain hattentive hheeds
  obtain ⟨hkeeps, hblame⟩ := hreads.sound hattentive hregistry
  refine ⟨hreads, ?_, ?_, hserved.verdict_of_open, ?_, ?_⟩
  · rintro rfl
    exact hkeeps
  · intro fault hfault
    have hpeer := hblame fault hfault
    exact ⟨hpeer, Fault.not_bySetup_of_byPeer hpeer⟩
  · intro hclosed
    refine (hserved.verdict_of_closed hclosed).trans ?_
    cases read.fault? with
    | some fault => rfl
    | none => rfl
  · intro hlong
    rw [Nat.sub_eq_zero_of_le hlong] at hserved
    exact hserved.isClosed

end

/-- A listener that takes a client in: it compresses once it knows its name. -/
def welcoming : Listener Empty Unit where
  onPacket
    | .core (.handshake ..) => .act (.setPhase .login) fun _ => .done (.ok ())
    | .core (.loginStart _) =>
      .act (.setThreshold 256) fun _ => .act (.setPhase .play) fun _ => .done (.ok ())
    | _ => .done (.ok ())
  onPhase _ := .done
  onClosed _ := .done

theorem welcoming_isMild (packet : Packet Empty) : (welcoming.onPacket packet).IsMild := by
  simp only [welcoming]
  split
  · exact .act rfl fun _ => .done
  · exact .act rfl fun _ => .act rfl fun _ => .done
  · exact .done

def bringing (arrived : Bytes) : Visit :=
  ⟨default, arrived, [], 0⟩

/-- A server that has been attached, and waits for the first time. -/
def expectant : Session Empty Unit :=
  let attached := ((Session.new (.standard .server) welcoming).attach (.standard .server)).2
  ((bringing []).serve (attached, .new 64)).1

/-- A handshake, a login, an answer to a probe, and a frame that need not have been compressed, in
two pieces. -/
def badLogin : List Visit :=
  [bringing [7, 0, 47, 1, 97, 0, 1, 2, 5, 0, 3], bringing [97, 110, 110, 3, 0, 0, 7, 2, 5, 9]]

theorem verdict_of_stream_of_badLogin :
    let stream := badLogin.flatMap Visit.arrived
    let met := Visit.serveAll badLogin (expectant, .new 64)
    let last := (Visit.serveAll (List.replicate 90 (bringing [])) (met.1, met.2.hangUp)).1
    let greetings : List (Packet Empty) := [.core (.handshake 47 "a" 1 2), .core (.loginStart "ann")]
    expectant.IsReady ∧ expectant.registry = .standard .server ∧ expectant.listener.IsQuiet
      ∧ expectant.heedsAll stream = true
      ∧ (reader.drain expectant stream).items = greetings ++ [.core (.serverboundKeepAlive 7)]
      ∧ (reader.drain expectant stream).fault? = some (.belowThreshold 5 256)
      ∧ last.isClosed = true
      ∧ last.verdict = ⟨some (Fault.belowThreshold 5 256).message, 1, 0, greetings⟩ := by
  have hready : expectant.IsReady :=
    ⟨by decide +kernel, .inl ⟨by decide +kernel, by decide +kernel⟩, rfl, rfl, by decide +kernel⟩
  have hregistry : expectant.registry = .standard .server := rfl
  have hquiet : expectant.listener.IsQuiet := fun _ => .done
  have hopen : (Duplex.new 64).incoming.ending? = none := rfl
  have hheeds : expectant.heedsAll
      ((Duplex.new 64).incoming.held ++ badLogin.flatMap Visit.arrived) = true :=
    heedsAll_of_isMild ⟨hready.isOpen, ⟨.server, hregistry⟩, hquiet⟩ rfl welcoming_isMild _
  have hticks : ∀ visit ∈ badLogin ++ List.replicate 90 (bringing []),
      visit.surroundings.timer < expectant.nextTick := by
    decide +kernel
  have hdone : ∀ visit ∈ List.replicate 90 (bringing []), visit.arrived = [] := by
    decide +kernel
  have hitems : (reader.drain expectant
      ((Duplex.new 64).incoming.held ++ badLogin.flatMap Visit.arrived)).items
        = [.core (.handshake 47 "a" 1 2), .core (.loginStart "ann"),
          .core (.serverboundKeepAlive 7)] := by
    decide +kernel
  have hfault : (reader.drain expectant
      ((Duplex.new 64).incoming.held ++ badLogin.flatMap Visit.arrived)).fault?
        = some (.belowThreshold 5 256) := by
    decide +kernel
  obtain ⟨-, -, -, -, hverdict, hclosed⟩ :=
    verdict_of_stream hready hregistry hquiet hopen hheeds hticks hdone
  have hlast := hclosed (by decide +kernel)
  refine ⟨hready, hregistry, hquiet, hheeds, hitems, hfault, hlast, ?_⟩
  have hgiven := hverdict hlast
  rw [hfault, hitems] at hgiven
  exact hgiven

end Session
end PhaseWire
