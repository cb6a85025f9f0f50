import PhaseWire.Proofs.Interleaving.Pulse

/-
# Keepalives stay inside the session

Beside a run its `Traffic` is taken down: the packets that were decoded,
those that got past the look at the session, what the turns of probes have
encoded, and what became of the tokens that a server has sent.  Every move
keeps three things true of it.

* The listener was given what got past the look, without the keepalives of
  the other side (`IsSorted`).
* The turns of probes have encoded the answers to them, one for each and in
  their order.  Only the last may be missing, while its turn is under way,
  or if the session was closed before its frame (`Answered`).
* A token is forgotten at most once for every probe, since no older one is
  remembered beside the last (`Probed`).
-/

namespace PhaseWire

variable {E N : Type}

/-! ## What is to be answered -/

namespace Side

def reply? : Side → Packet E → Option (Packet E)
  | .client, .core (.clientboundKeepAlive id) => some (.core (.serverboundKeepAlive id))
  | _, _ => none

/-- The answers to the probes among some packets. -/
def replies (side : Side) (packets : List (Packet E)) : List (Packet E) :=
  packets.filterMap side.reply?

def leaves (side : Side) (packets : List (Packet E)) : List (Packet E) :=
  packets.filter fun packet => !side.keeps packet

theorem replies_append (side : Side) (packets more : List (Packet E)) :
    side.replies (packets ++ more) = side.replies packets ++ side.replies more :=
  List.filterMap_append

theorem leaves_append (side : Side) (packets more : List (Packet E)) :
    side.leaves (packets ++ more) = side.leaves packets ++ side.leaves more :=
  List.filter_append packets more

theorem reply?_iff {side : Side} {packet reply : Packet E} :
    side.reply? packet = some reply ↔ ∃ id, side = .client
      ∧ packet = .core (.clientboundKeepAlive id) ∧ reply = .core (.serverboundKeepAlive id) := by
  constructor
  · intro h
    rw [reply?.eq_def] at h
    split at h
    · cases h
      exact ⟨_, rfl, rfl, rfl⟩
    · cases h
  · rintro ⟨id, rfl, rfl, rfl⟩
    rfl

variable [CustomPackets E]

theorem ofPacket_reply {side : Side} {packet reply : Packet E}
    (h : side.reply? packet = some reply) :
    ∃ descriptor, (Registry.standard side).ofPacket reply = .ok descriptor := by
  obtain ⟨id, rfl, rfl, rfl⟩ := reply?_iff.mp h
  rw [Registry.ofPacket, Registry.ofKind, Registry.ofKind?, Registry.descriptors_standard]
  exact ⟨_, rfl⟩

end Side

namespace Job

def arrived? : Job E N → Option (Packet E)
  | receive packet | handle packet => some packet
  | _ => none

/-- A job that neither encodes a packet nor leads to one that does. -/
def IsMute : Job E N → Prop
  | errand _ | complete _ _ => True
  | _ => False

end Job

/-- The packets that jobs belong to, of those that came in. -/
def arriving (jobs : List (Job E N)) : List (Packet E) :=
  jobs.filterMap Job.arrived?

theorem arriving_outbound {jobs : List (Job E N)} (h : ∀ job ∈ jobs, ¬ job.IsInbound) :
    arriving jobs = [] := by
  refine List.filterMap_eq_nil_iff.mpr fun job hjob => ?_
  have hout := h job hjob
  cases job with
  | receive packet => exact (hout True.intro).elim
  | handle packet => exact (hout True.intro).elim
  | _ => rfl

theorem mute_errands (errands : List (Errand E N)) :
    ∀ job ∈ errands.map Job.errand, job.IsMute := by
  intro job hjob
  obtain ⟨errand, -, rfl⟩ := List.mem_map.mp hjob
  exact True.intro

theorem Job.handled?_iff {job : Job E N} {packet : Packet E} :
    job.handled? = some packet ↔ job = .handle packet := by
  constructor
  · intro h
    cases job with
    | handle handled =>
        cases h
        rfl
    | _ => cases h
  · rintro rfl
    rfl

variable [CustomPackets E]

/-- The packet of a job stays with it until it is handled, unless the session is closed before the
look at it. -/
theorem IsLone.arriving {session : Session E N} {job : Job E N} {rest : List (Job E N)}
    (h : IsLone False session (job :: rest)) :
    PhaseWire.arriving (job :: rest)
        = job.handled?.toList ++ PhaseWire.arriving ((session.runJob job).1 ++ rest)
      ∨ session.isClosed ∧ job.handled? = none
        ∧ handlingIn ((session.runJob job).1 ++ rest) = [] := by
  generalize hjobs : job :: rest = jobs at h
  cases h with
  | outbound hout =>
      rw [← hjobs] at hout ⊢
      obtain ⟨hjob, hrest⟩ := List.forall_mem_cons.mp hout
      have hnone : job.handled? = none := by
        cases job with
        | handle packet => exact (hjob True.intro).elim
        | _ => rfl
      rcases session.runJob_inbound job with ⟨packet, rfl, -⟩ | hleft
      · exact (hjob True.intro).elim
      · left
        rw [hnone, arriving_outbound hout,
          arriving_outbound (List.forall_mem_append.mpr ⟨hleft, hrest⟩)]
        rfl
  | receive packet =>
      obtain ⟨rfl, rfl⟩ := List.cons.inj hjobs
      by_cases hclosed : session.isClosed
      · rw [Session.runJob, if_pos hclosed]
        exact .inr ⟨hclosed, rfl, rfl⟩
      · rw [Session.runJob, if_neg hclosed]
        exact .inl rfl
  | handle packet hopen =>
      obtain ⟨rfl, rfl⟩ := List.cons.inj hjobs
      have hnone : PhaseWire.arriving (session.runJob (.handle packet)).1 = [] :=
        arriving_outbound (session.outbound_handle packet)
      rw [List.append_nil, hnone]
      exact .inl rfl

/-- Nothing is to be done after a packet but what it leads to. -/
theorem IsLone.rest_nil {session : Session E N} {packet : Packet E} {rest : List (Job E N)}
    (h : IsLone False session (.handle packet :: rest)) : rest = [] := by
  generalize hjobs : Job.handle packet :: rest = jobs at h
  cases h with
  | outbound hout =>
      rw [← hjobs] at hout
      exact (hout _ List.mem_cons_self True.intro).elim
  | receive packet => cases hjobs
  | handle packet hopen => exact (List.cons.inj hjobs).2

/-! ## The traffic of a run -/

/-- What is taken down beside a run. -/
structure Traffic (E : Type) where
  /-- The packets that were decoded. -/
  decoded : List (Packet E)
  /-- The packets that got past the look at the session. -/
  processed : List (Packet E)
  /-- Whether the present turn is that of a probe. -/
  answering : Bool
  /-- The packets that were encoded in the turns of probes. -/
  answers : List (Packet E)
  /-- The tokens that were remembered for the probes of a server. -/
  probes : List Int32
  /-- The tokens that were forgotten, with none in their place. -/
  settled : List Int32

/-- Nothing was taken down. -/
def Traffic.new : Traffic E :=
  ⟨[], [], false, [], [], []⟩

def forgotten? : Option Int32 → Option Int32 → Option Int32
  | some token, none => some token
  | _, _ => none

def Session.encodes? (session : Session E N) : Job E N → Option (Packet E)
  | .encode packet _ _ =>
    match session.codec.encode packet with
    | .ok _ => some packet
    | .error _ => none
  | _ => none

namespace World

variable (world : World E N)

def decodedBy (move : Move E N) : List (Packet E) :=
  if world.jobs.isEmpty then arriving (world.step move).jobs else []

/-- The packet that a move gives to the session or to its listener. -/
def handled? (move : Move E N) : Option (Packet E) :=
  (world.doing? move).bind Job.handled?

def encoded? (move : Move E N) : Option (Packet E) :=
  (world.doing? move).bind world.session.encodes?

def probed? (move : Move E N) : Option Int32 :=
  match world.doing? move with
  | some .probe => some world.session.surroundings.random
  | _ => none

/-- Whether the turn after a move is that of a probe. -/
def isAnswering (answering : Bool) (move : Move E N) : Bool :=
  match world.handled? move with
  | some packet => (world.session.options.side.reply? packet).isSome
  | none => answering && !world.jobs.isEmpty

end World

/-- Takes down a move, given the world before it. -/
def Traffic.note (traffic : Traffic E) (world : World E N) (move : Move E N) : Traffic E where
  decoded := traffic.decoded ++ world.decodedBy move
  processed := traffic.processed ++ (world.handled? move).toList
  answering := world.isAnswering traffic.answering move
  answers := traffic.answers ++ if traffic.answering then (world.encoded? move).toList else []
  probes := traffic.probes ++ (world.probed? move).toList
  settled := traffic.settled
    ++ (forgotten? world.session.probe? (world.step move).session.probe?).toList

/-- Takes down a run from some world. -/
def Traffic.follow (traffic : Traffic E) : World E N → List (Move E N) → Traffic E
  | _, [] => traffic
  | world, move :: moves => (traffic.note world move).follow (world.step move) moves

def World.traffic (world : World E N) (moves : List (Move E N)) : Traffic E :=
  Traffic.new.follow world moves

theorem Traffic.follow_preserves {P : World E N → Traffic E → Prop}
    (hP : ∀ move world traffic, P world traffic → P (world.step move) (traffic.note world move))
    (moves : List (Move E N)) : ∀ world traffic, P world traffic →
    P (world.run moves) (traffic.follow world moves) := by
  induction moves with
  | nil =>
      intro world traffic h
      exact h
  | cons move moves ih =>
      intro world traffic h
      exact ih _ _ (hP move world traffic h)

namespace World

variable {world : World E N}

theorem handled?_iff {move : Move E N} {packet : Packet E} :
    world.handled? move = some packet ↔ world.doing? move = some (.handle packet) := by
  rw [handled?, Option.bind_eq_some_iff]
  constructor
  · rintro ⟨job, hdoing, hjob⟩
    rw [hdoing, Job.handled?_iff.mp hjob]
  · intro h
    exact ⟨_, h, rfl⟩

theorem handled?_of_handling {move : Move E N} (h : world.handling = []) :
    world.handled? move = none := by
  refine Option.eq_none_iff_forall_ne_some.mpr fun packet hpacket => ?_
  rcases world.doing_first (handled?_iff.mp hpacket) with hjobs | ⟨-, command, hjob⟩
  · rw [handling, hjobs] at h
    cases h
  · cases hjob

theorem doing?_detached (hpaced : world.ledger.Paced)
    (hdetached : world.session.activity = .detached) (move : Move E N) :
    world.doing? move = none := by
  have hsequel : world.sequel? = none := hpaced.resting hdetached True.intro
  have hjobs : world.jobs = [] := hpaced.idle hsequel
  cases move with
  | drive pick => simp only [doing?, hjobs, hsequel, beginning?, hdetached]
  | _ => rfl

theorem step_busy {job : Job E N} {rest : List (Job E N)} (hjobs : world.jobs = job :: rest)
    (move : Move E N) :
    world.doing? move = some job ∧ (world.step move).session = (world.session.runJob job).2
        ∧ (world.step move).jobs = (world.session.runJob job).1 ++ rest
      ∨ world.doing? move = none ∧ (world.step move).jobs = job :: rest := by
  cases hdoing : world.doing? move with
  | none =>
      rcases world.step_undone hdoing with hsame | ⟨hidle, -⟩
      · exact .inr ⟨rfl, hsame.trans hjobs⟩
      · rw [hjobs] at hidle
        cases hidle
  | some first =>
      cases move with
      | drive pick =>
          rw [doing_job hjobs] at hdoing
          rw [step, drive_job hjobs]
          exact .inl ⟨hdoing.symm, rfl, rfl⟩
      | _ => cases hdoing

/-- No turn begins with a packet that is past the look, or with one to be encoded. -/
theorem step_begins (hjobs : world.jobs = []) (move : Move E N) :
    (world.step move).handling = [] ∧ world.encoded? move = none := by
  cases hdoing : world.doing? move with
  | none =>
      rw [encoded?, hdoing]
      refine ⟨?_, rfl⟩
      rcases world.step_undone hdoing with hsame | ⟨-, ⟨packet, hpacket⟩ | hout⟩
      · rw [handling, hsame, hjobs]
        rfl
      · rw [handling, hpacket]
        rfl
      · exact handlingIn_outbound hout
  | some job =>
      obtain ⟨channel, -, hleft⟩ := world.step_doing hdoing
      rcases world.doing_first hdoing with hfull | ⟨-, command, rfl⟩
      · rw [hjobs] at hfull
        cases hfull
      · rw [encoded?, hdoing, handling, hleft, hjobs, List.tail_nil, List.append_nil]
        exact ⟨handlingIn_outbound ({ world.session with channel }.outbound_command command), rfl⟩

theorem step_encoded {move : Move E N} {packet : Packet E} (h : world.encoded? move = some packet) :
    ∃ sent codec, world.session.codec.encode packet = .ok (sent, codec)
      ∧ (world.step move).session.outgoing = world.session.outgoing ++ sent.wire := by
  obtain ⟨job, hdoing, hjob⟩ := Option.bind_eq_some_iff.mp h
  obtain ⟨channel, hsession, -⟩ := world.step_doing hdoing
  cases job with
  | encode encoded tag? next? =>
      rw [Session.encodes?] at hjob
      split at hjob
      · rename_i result hencode
        cases hjob
        refine ⟨result.1, result.2, hencode, ?_⟩
        rw [hsession, Session.runJob, Session.runEncode]
        dsimp only
        rw [hencode]
        rfl
      · cases hjob
  | _ => cases hjob

theorem step_side (move : Move E N) :
    (world.step move).session.options.side = world.session.options.side
      ∨ world.session.activity = .detached := by
  rcases world.step_pulse move with hsame | ⟨_, -, hsame⟩ | ⟨_, _, -, hdetached, -⟩ | ⟨_, -, hfelt⟩
  · exact .inl (congrArg Pulse.side hsame)
  · exact .inl (congrArg Pulse.side hsame)
  · exact .inr hdetached
  · exact .inl hfelt.side

theorem step_isClosed (move : Move E N) (h : world.session.isClosed) :
    (world.step move).session.isClosed :=
  Session.isClosed_iff.mpr (run_closed [move] (Session.isClosed_iff.mp h))

/-- No packet gets past the look when the session is closed. -/
theorem step_handling (move : Move E N) (hclosed : world.session.isClosed)
    (hnone : world.handling = []) : (world.step move).handling = [] := by
  obtain ⟨packets, -, hlate⟩ := world.step_late_packets move hclosed
  rw [hnone] at hlate
  exact (List.append_eq_nil_iff.mp (List.sublist_nil.mp hlate)).2

end World

/-! ## The listener -/

theorem Session.received_runHandle (session : Session E N) (hkeeps : session.keepsAlive)
    (packet : Packet E) : (session.runHandle packet).2.course.received
      = session.course.received ++ session.options.side.leaves [packet] := by
  rcases Side.keeps_cases session.options.side packet with
    ⟨id, hside, rfl⟩ | ⟨id, hside, rfl⟩ | hother
  · rw [session.runHandle_answer hkeeps id hside, hside]
    exact (List.append_nil _).symm
  · rw [session.runHandle_probed hkeeps id hside, hside]
    exact (List.append_nil _).symm
  · rw [session.runHandle_other hother]
    simp [course, log, Side.leaves, hother, Event.packet?]

namespace World

variable {world : World E N}

theorem step_received (move : Move E N) (hkeeps : world.session.keepsAlive) :
    (world.step move).received
      = world.received ++ world.session.options.side.leaves (world.handled? move).toList := by
  cases hdoing : world.doing? move with
  | none =>
      rw [received, world.step_course hdoing, handled?, hdoing]
      exact (List.append_nil _).symm
  | some job =>
      obtain ⟨channel, hsession, -⟩ := world.step_doing hdoing
      have hsteered := { world.session with channel }.runJob_steered job
      rw [received, hsession]
      cases job with
      | handle packet =>
          rw [handled?, hdoing]
          exact { world.session with channel }.received_runHandle hkeeps packet
      | _ =>
          rw [handled?, hdoing]
          rcases hsteered.received with hsame | ⟨packet, hjob, -⟩
          · exact hsame.trans (List.append_nil _).symm
          · cases hjob

theorem step_arriving (move : Move E N) (hlone : IsLone False world.session world.jobs) :
    arriving world.jobs ++ world.decodedBy move
        = (world.handled? move).toList ++ arriving (world.step move).jobs
      ∨ world.session.isClosed ∧ world.handled? move = none ∧ (world.step move).handling = [] := by
  cases hjobs : world.jobs with
  | nil =>
      left
      rw [handled?_of_handling (congrArg handlingIn hjobs), decodedBy, hjobs]
      rfl
  | cons job rest =>
      rw [decodedBy, handled?, handling, hjobs, List.isEmpty_cons, if_neg Bool.false_ne_true,
        List.append_nil]
      rcases world.step_busy hjobs move with ⟨hdoing, -, hleft⟩ | ⟨hdoing, hleft⟩
      · rw [hdoing, hleft]
        rw [hjobs] at hlone
        exact hlone.arriving
      · rw [hdoing, hleft]
        exact .inl rfl

end World

/-- The listener was given what got past the look, without what the session keeps; and this is all
that was decoded, but for what is on its way or came too late. -/
structure Traffic.IsSorted (traffic : Traffic E) (world : World E N) : Prop where
  received : world.received = world.session.options.side.leaves traffic.processed
  decoded : traffic.decoded = traffic.processed ++ arriving world.jobs
    ∨ world.session.isClosed ∧ traffic.processed <+: traffic.decoded ∧ world.handling = []

namespace Traffic

variable {traffic : Traffic E} {world : World E N}

theorem IsSorted.step (h : traffic.IsSorted world) (move : Move E N)
    (hkeeps : world.session.keepsAlive) (hlone : IsLone False world.session world.jobs)
    (hfresh : world.session.activity = .detached → (traffic.note world move).processed = []) :
    (traffic.note world move).IsSorted (world.step move) := by
  refine ⟨?_, ?_⟩
  · rcases world.step_side move with hside | hdetached
    · rw [hside, world.step_received move hkeeps, h.received, ← Side.leaves_append]
      rfl
    · have hnone := hfresh hdetached
      have hbefore : traffic.processed = [] := (List.append_eq_nil_iff.mp hnone).1
      have hhandled : (world.handled? move).toList = [] := (List.append_eq_nil_iff.mp hnone).2
      rw [hnone, world.step_received move hkeeps, h.received, hbefore, hhandled]
      rfl
  · have hlater : ∀ packets, traffic.decoded <+: traffic.decoded ++ packets :=
      fun packets => List.prefix_append _ packets
    rcases h.decoded with hall | ⟨hclosed, hpart, hnone⟩
    · rcases world.step_arriving move hlone with hnext | ⟨hclosed, hhandled, hnone⟩
      · left
        show traffic.decoded ++ _ = traffic.processed ++ _ ++ _
        rw [hall, List.append_assoc, hnext, List.append_assoc]
      · refine .inr ⟨world.step_isClosed move hclosed, ?_, hnone⟩
        show traffic.processed ++ _ <+: traffic.decoded ++ _
        rw [hhandled, Option.toList_none, List.append_nil]
        refine .trans ?_ (hlater _)
        rw [hall]
        exact List.prefix_append _ _
    · refine .inr ⟨world.step_isClosed move hclosed, ?_, world.step_handling move hclosed hnone⟩
      show traffic.processed ++ _ <+: traffic.decoded ++ _
      rw [World.handled?_of_handling hnone, Option.toList_none, List.append_nil]
      exact hpart.trans (hlater _)

end Traffic

/-! ## The turn of a probe -/

/-- What is left to do before the answer to a probe is encoded or given up. -/
inductive IsReplying (reply : Packet E) : List (Job E N) → Prop
  | write : IsReplying reply [.write reply none none]
  | approach : IsReplying reply [.approach reply none none]
  /-- The session may have moved to play for it, which is shown and told first. -/
  | encode (steps : List (Job E N)) : (∀ job ∈ steps, job.IsStep) →
      IsReplying reply (steps ++ [.encode reply none none])
  /-- The answer cannot be encoded. -/
  | refused (message : String) :
      IsReplying reply [.complete none (.error .closed), .errand (.close message false)]
  | closing (message : String) : IsReplying reply [.errand (.close message false)]

namespace IsReplying

variable {session : Session E N} {reply : Packet E} {job : Job E N} {rest : List (Job E N)}

/-- The next job encodes the answer, or leads there, or the session is closed before the answer is
encoded. -/
theorem work (h : IsReplying reply (job :: rest))
    (hreply : ∃ descriptor, session.registry.ofPacket reply = .ok descriptor) :
    session.encodes? job = some reply ∧ (session.runJob job).1 ++ rest = []
      ∨ session.encodes? job = none ∧ IsReplying reply ((session.runJob job).1 ++ rest)
      ∨ session.encodes? job = none ∧ (session.runJob job).2.isClosed
        ∧ ∀ left ∈ (session.runJob job).1 ++ rest, left.IsMute := by
  generalize hjobs : job :: rest = jobs at h
  cases h with
  | write =>
      obtain ⟨rfl, rfl⟩ := List.cons.inj hjobs
      rw [Session.runJob, Session.beginWrite]
      by_cases hclosed : session.isClosed
      · rw [if_pos hclosed]
        exact .inr (.inr ⟨rfl, hclosed, List.forall_mem_singleton.mpr True.intro⟩)
      · rw [if_neg hclosed]
        exact .inr (.inl ⟨rfl, .approach⟩)
  | approach =>
      obtain ⟨rfl, rfl⟩ := List.cons.inj hjobs
      obtain ⟨descriptor, hdescriptor⟩ := hreply
      obtain ⟨hsteps, -⟩ := session.beginApproach_steps descriptor.phase
      rw [Session.runJob, Session.runApproach]
      simp only [hdescriptor, List.append_nil]
      exact .inr (.inl ⟨rfl, .encode _ fun job hjob => (hsteps job hjob).1⟩)
  | encode steps hsteps =>
      cases steps with
      | nil =>
          obtain ⟨rfl, rfl⟩ := List.cons.inj hjobs
          rw [Session.encodes?, Session.runJob, Session.runEncode]
          cases hencode : session.codec.encode reply with
          | ok result => exact .inl ⟨rfl, rfl⟩
          | error fault => exact .inr (.inl ⟨rfl, .refused fault.message⟩)
      | cons step steps =>
          obtain ⟨rfl, rfl⟩ := List.cons.inj hjobs
          obtain ⟨hfirst, hmore⟩ := List.forall_mem_cons.mp hsteps
          have hleft := (session.runStep_spares hfirst).1
          refine .inr (.inl ⟨?_, ?_⟩)
          · cases job with
            | encode packet tag? next? => exact hfirst.elim
            | _ => rfl
          · rw [List.append_eq, ← List.append_assoc]
            exact .encode _ (List.forall_mem_append.mpr ⟨hleft, hmore⟩)
  | refused message =>
      obtain ⟨rfl, rfl⟩ := List.cons.inj hjobs
      exact .inr (.inl ⟨rfl, .closing message⟩)
  | closing message =>
      obtain ⟨rfl, rfl⟩ := List.cons.inj hjobs
      refine .inr (.inr ⟨rfl, ?_, ?_⟩)
      · show (session.enterClose message false).2.2.isClosed
        rw [Session.enterClose]
        split
        · assumption
        · rfl
      · rw [List.append_nil]
        exact mute_errands _

end IsReplying

/-- How far a session is with its answers: between turns and in the turns of others there is one for
each probe, and in the turn of a probe that one may be to come.  A session that is closed before it
has encoded an answer handles no more packets. -/
inductive Answered (session : Session E N) (answers replies : List (Packet E)) :
    Bool → List (Job E N) → Prop
  | still {jobs : List (Job E N)} : replies = answers → Answered session answers replies false jobs
  | done : replies = answers → Answered session answers replies true []
  | due {reply : Packet E} {jobs : List (Job E N)} :
      (∃ descriptor, session.registry.ofPacket reply = .ok descriptor) →
      replies = answers ++ [reply] → IsReplying reply jobs →
      Answered session answers replies true jobs
  | lost {answering : Bool} {jobs : List (Job E N)} : session.isClosed → answers <+: replies →
      handlingIn jobs = [] → (answering → ∀ job ∈ jobs, job.IsMute) →
      Answered session answers replies answering jobs

namespace Answered

variable {session : Session E N} {answers replies : List (Packet E)} {answering : Bool}
  {jobs : List (Job E N)}

/-- No answer is ahead of its probe or out of its order. -/
theorem prefix_replies (h : Answered session answers replies answering jobs) :
    answers <+: replies := by
  cases h with
  | still hall => exact hall ▸ List.prefix_rfl
  | done hall => exact hall ▸ List.prefix_rfl
  | due hreply hnext hjobs => exact hnext ▸ List.prefix_append _ _
  | lost hclosed hpart hnone hmute => exact hpart

/-- While the session is open, only the answer of the present turn may be to come. -/
theorem of_open (h : Answered session answers replies answering jobs) (hopen : ¬ session.isClosed) :
    replies = answers
      ∨ answering ∧ jobs ≠ [] ∧ ∃ reply, replies = answers ++ [reply] := by
  cases h with
  | still hall => exact .inl hall
  | done hall => exact .inl hall
  | due hreply hnext hjobs =>
      refine .inr ⟨rfl, ?_, _, hnext⟩
      rintro rfl
      generalize hnil : [] = jobs at hjobs
      cases hjobs with
      | encode steps hsteps =>
          exact List.append_ne_nil_of_right_ne_nil _ (List.cons_ne_nil _ _) hnil.symm
      | _ => cases hnil
  | lost hclosed hpart hnone hmute => exact (hopen hclosed).elim

theorem elsewhere {next : Session E N} (h : Answered session answers replies answering jobs)
    (hregistry : next.registry = session.registry) (hclosed : session.isClosed → next.isClosed) :
    Answered next answers replies answering jobs := by
  cases h with
  | still hall => exact .still hall
  | done hall => exact .done hall
  | due hreply hnext hjobs => exact .due (hregistry ▸ hreply) hnext hjobs
  | lost hlost hpart hnone hmute => exact .lost (hclosed hlost) hpart hnone hmute

theorem begin {next : Session E N} {more : List (Job E N)}
    (h : Answered session answers replies answering []) (hclosed : session.isClosed → next.isClosed)
    (hmore : handlingIn more = []) : Answered next answers replies false more := by
  generalize hnil : [] = jobs at h
  cases h with
  | still hall => exact .still hall
  | done hall => exact .still hall
  | due hreply hnext hjobs =>
      cases hjobs with
      | encode steps hsteps =>
          exact (List.append_ne_nil_of_right_ne_nil _ (List.cons_ne_nil _ _) hnil.symm).elim
      | _ => cases hnil
  | lost hlost hpart hnone hmute => exact .lost (hclosed hlost) hpart hmore Bool.noConfusion

/-- A packet is handled.  If it is a probe, its answer is written next. -/
theorem handle {side : Side} {packets : List (Packet E)} {packet : Packet E}
    (h : Answered session answers (side.replies packets) answering [.handle packet])
    (hside : session.options.side = side) (hstandard : session.registry = .standard side)
    (hkeeps : session.keepsAlive) :
    Answered (session.runJob (.handle packet)).2 answers (side.replies (packets ++ [packet]))
      (side.reply? packet).isSome (session.runJob (.handle packet)).1 := by
  have hall : side.replies packets = answers := by
    generalize hjobs : [Job.handle packet] = jobs at h
    cases h with
    | still hall => exact hall
    | done hall => cases hjobs
    | due hreply hnext hreplying =>
        cases hreplying with
        | encode steps hsteps =>
            cases steps with
            | nil => cases hjobs
            | cons step steps =>
                obtain ⟨rfl, -⟩ := List.cons.inj hjobs
                exact ((List.forall_mem_cons.mp hsteps).1).elim
        | _ => cases hjobs
    | lost hlost hpart hnone hmute =>
        rw [← hjobs] at hnone
        cases hnone
  rw [Side.replies_append, hall]
  cases hreply : side.reply? packet with
  | none =>
      refine .still ?_
      show answers ++ (side.reply? packet).toList = answers
      rw [hreply]
      exact List.append_nil _
  | some reply =>
      have hmore : answers ++ side.replies [packet] = answers ++ [reply] := by
        rw [Side.replies, List.filterMap_cons, hreply]
        rfl
      obtain ⟨descriptor, hdescriptor⟩ := Side.ofPacket_reply hreply
      obtain ⟨id, rfl, rfl, rfl⟩ := Side.reply?_iff.mp hreply
      rw [Session.runJob, session.runHandle_probed hkeeps id hside]
      refine .due ⟨descriptor, ?_⟩ hmore .write
      show session.registry.ofPacket _ = _
      rw [hstandard]
      exact hdescriptor

theorem work {job : Job E N} {rest : List (Job E N)}
    (h : Answered session answers replies answering (job :: rest)) (hjob : job.handled? = none)
    (hregistry : (session.runJob job).2.registry = session.registry)
    (hclosed : session.isClosed → (session.runJob job).2.isClosed)
    (hnone : session.isClosed → handlingIn (job :: rest) = [] →
      handlingIn ((session.runJob job).1 ++ rest) = []) :
    Answered (session.runJob job).2
      (answers ++ if answering then (session.encodes? job).toList else []) replies answering
      ((session.runJob job).1 ++ rest) := by
  generalize hjobs : job :: rest = jobs at h
  cases h with
  | still hall =>
      rw [if_neg Bool.false_ne_true, List.append_nil]
      exact .still hall
  | done hall => cases hjobs
  | due hreply hnext hreplying =>
      rw [if_pos rfl]
      rw [← hjobs] at hreplying
      rcases hreplying.work hreply with
        ⟨hencoded, hleft⟩ | ⟨hencoded, hleft⟩ | ⟨hencoded, hlost, hmute⟩
      · rw [hencoded, hleft]
        exact .done hnext
      · rw [hencoded, Option.toList_none, List.append_nil]
        exact .due (hregistry ▸ hreply) hnext hleft
      · rw [hencoded, Option.toList_none, List.append_nil]
        refine .lost hlost (hnext ▸ List.prefix_append _ _) (handlingIn_outbound ?_) fun _ => hmute
        intro left hleft hinbound
        have hquiet := hmute left hleft
        cases left with
        | receive packet => exact hquiet
        | handle packet => exact hquiet
        | _ => exact hinbound
  | lost hlost hpart hnothing hmute =>
      rw [← hjobs] at hnothing hmute
      have hencoded : answering = true → session.encodes? job = none := by
        intro hanswering
        have hquiet := hmute hanswering job List.mem_cons_self
        cases job with
        | encode packet tag? next? => exact hquiet.elim
        | _ => rfl
      refine .lost (hclosed hlost) ?_ (hnone hlost hnothing) ?_
      · cases answering with
        | false =>
            rw [if_neg Bool.false_ne_true, List.append_nil]
            exact hpart
        | true =>
            rw [if_pos rfl, hencoded rfl, Option.toList_none, List.append_nil]
            exact hpart
      · intro hanswering
        obtain ⟨hquiet, hrest⟩ := List.forall_mem_cons.mp (hmute hanswering)
        refine List.forall_mem_append.mpr ⟨?_, hrest⟩
        cases job with
        | errand errand => exact mute_errands _
        | complete tag? result => exact List.forall_mem_nil _
        | _ => exact hquiet.elim

end Answered

namespace Traffic

variable {traffic : Traffic E} {world : World E N} {side : Side}

/-- The answers of a session that is on the side whose packet types it has. -/
def IsAnswered (traffic : Traffic E) (world : World E N) : Prop :=
  Answered world.session traffic.answers
    (world.session.options.side.replies traffic.processed) traffic.answering world.jobs

theorem IsAnswered.step (h : traffic.IsAnswered world) (move : Move E N)
    (hstandard : world.session.registry = .standard world.session.options.side)
    (hlone : IsLone False world.session world.jobs)
    (hside : (world.step move).session.options.side = world.session.options.side) :
    (traffic.note world move).IsAnswered (world.step move) := by
  have hkeeps := Session.keepsAlive_of_standard ⟨_, hstandard⟩
  have hclosed := world.step_isClosed move
  rw [IsAnswered, hside]
  rw [IsAnswered] at h
  cases hjobs : world.jobs with
  | nil =>
      have hhandled : world.handled? move = none :=
        World.handled?_of_handling (congrArg handlingIn hjobs)
      obtain ⟨hnone, hencoded⟩ := World.step_begins hjobs move
      rw [hjobs] at h
      simp only [note, World.isAnswering, hhandled, hencoded, hjobs, List.isEmpty_nil,
        Bool.not_true, Bool.and_false, Option.toList_none, ite_self, List.append_nil]
      exact h.begin hclosed hnone
  | cons job rest =>
      rcases World.step_busy hjobs move with ⟨hdoing, hsession, hleft⟩ | ⟨hdoing, hleft⟩
      · have hregistry := world.step_registry move
        have hnone := world.step_handling move
        rw [World.handling, World.handling, hjobs, hleft] at hnone
        rw [hsession] at hregistry hclosed ⊢
        rw [hleft]
        rw [hjobs] at h hlone
        cases hhandled : job.handled? with
        | none =>
            simp only [note, World.isAnswering, World.handled?, World.encoded?, hdoing, hjobs,
              Option.bind_some, hhandled, List.isEmpty_cons, Bool.not_false, Bool.and_true,
              Option.toList_none, List.append_nil]
            exact h.work hhandled hregistry hclosed hnone
        | some packet =>
            obtain rfl := Job.handled?_iff.mp hhandled
            obtain rfl := hlone.rest_nil
            simp only [note, World.isAnswering, World.handled?, World.encoded?, hdoing,
              Option.bind_some, hhandled, Session.encodes?, Option.toList_none, ite_self,
              List.append_nil, Option.toList_some]
            exact h.handle rfl hstandard hkeeps
      · simp only [note, World.isAnswering, World.handled?, World.encoded?, hdoing, hjobs,
          Option.bind_none, List.isEmpty_cons, Bool.not_false, Bool.and_true, Option.toList_none,
          ite_self, List.append_nil]
        rw [hleft, ← hjobs]
        exact h.elsewhere (world.step_registry move) hclosed

end Traffic

/-! ## The tokens of a server -/

/-- All that a move does to the token that a session remembers: a server forgets it for an answer
that is equal to it, or remembers the next one. -/
theorem World.step_probe (world : World E N) (move : Move E N) :
    (world.step move).session.probe? = world.session.probe? ∧ world.doing? move ≠ some .probe
      ∨ world.doing? move = some .probe
        ∧ (world.step move).session.probe? = some world.session.surroundings.random
      ∨ ∃ token, world.doing? move = some (.handle (.core (.serverboundKeepAlive token)))
        ∧ world.session.options.side = .server ∧ world.session.probe? = some token
        ∧ (world.step move).session.probe? = none := by
  by_cases hprobe : world.doing? move = some .probe
  · obtain ⟨channel, hsession, -⟩ := world.step_doing hprobe
    rw [hsession]
    exact .inr (.inl ⟨hprobe, rfl⟩)
  · rcases world.step_pulse move with
      hsame | ⟨_, -, hsame⟩ | ⟨_, _, -, -, hsame⟩ | ⟨job, hdoing, hfelt⟩
    · exact .inl ⟨congrArg Pulse.probe? hsame, hprobe⟩
    · exact .inl ⟨congrArg Pulse.probe? hsame, hprobe⟩
    · exact .inl ⟨congrArg Pulse.probe? hsame, hprobe⟩
    · generalize hnext : (world.step move).session.pulse = next at hfelt
      have hprobes : (world.step move).session.probe? = next.probe? := congrArg Pulse.probe? hnext
      rw [hprobes]
      cases hfelt with
      | same job => exact .inl ⟨rfl, hprobe⟩
      | enter phase => exact .inl ⟨rfl, hprobe⟩
      | answer id hside =>
          rw [Pulse.probe?_hear]
          by_cases hequal : world.session.pulse.probe? = some id
          · rw [if_pos hequal]
            exact .inr (.inr ⟨id, hdoing, hside, hequal, rfl⟩)
          · rw [if_neg hequal]
            exact .inl ⟨rfl, hprobe⟩
      | probed id hside => exact .inl ⟨rfl, hprobe⟩
      | probe => exact (hprobe hdoing).elim

/-- Every token that was forgotten is that of a probe of its own, and the one that is remembered is
that of the last probe. -/
structure Probed (probe? : Option Int32) (probes settled : List Int32) : Prop where
  once : settled.Sublist probes
  last : ∀ token, probe? = some token → ∃ earlier, probes = earlier ++ [token]
    ∧ settled.Sublist earlier

theorem Probed.step {traffic : Traffic E} {world : World E N}
    (h : Probed world.session.probe? traffic.probes traffic.settled) (move : Move E N) :
    Probed (world.step move).session.probe? (traffic.note world move).probes
      (traffic.note world move).settled := by
  simp only [Traffic.note]
  rcases world.step_probe move with
    ⟨hsame, hnone⟩ | ⟨hdoing, hnext⟩ | ⟨token, hdoing, -, hlast, hnext⟩
  · have hprobed : world.probed? move = none := by
      unfold World.probed?
      split
      · contradiction
      · rfl
    have hkept : forgotten? world.session.probe? world.session.probe? = none := by
      cases world.session.probe? with
      | none => rfl
      | some token => rfl
    rw [hsame, hprobed, hkept, Option.toList_none, List.append_nil, List.append_nil]
    exact h
  · have hprobed : world.probed? move = some world.session.surroundings.random := by
      rw [World.probed?, hdoing]
    have hkept : forgotten? world.session.probe? (some world.session.surroundings.random)
        = none := by
      cases world.session.probe? with
      | none => rfl
      | some token => rfl
    rw [hnext, hprobed, hkept, Option.toList_none, List.append_nil]
    refine ⟨h.once.trans (List.sublist_append_left _ _), ?_⟩
    rintro token hlast
    cases hlast
    exact ⟨traffic.probes, rfl, h.once⟩
  · have hprobed : world.probed? move = none := by
      rw [World.probed?, hdoing]
    obtain ⟨earlier, hprobes, honce⟩ := h.last token hlast
    rw [hnext, hprobed, hlast, hprobes, Option.toList_none, List.append_nil]
    exact ⟨honce.append (.refl [token]), fun _ hnone => nomatch hnone⟩

/-! ## All schedules -/

namespace Traffic

variable {traffic : Traffic E} {world : World E N} {side : Side}

/-- Nothing was taken down that matters to the listener or to the answers. -/
structure IsFresh (traffic : Traffic E) : Prop where
  processed : traffic.processed = []
  answers : traffic.answers = []
  answering : traffic.answering = false

/-- What every move keeps of a world and its traffic; of the answers, if the session is on the side
whose packet types it has. -/
structure Fits (side : Side) (traffic : Traffic E) (world : World E N) : Prop where
  standard : world.session.registry = .standard side
  paced : world.ledger.Paced
  lone : IsLone False world.session world.jobs
  fresh : world.session.activity = .detached → traffic.IsFresh
  sorted : traffic.IsSorted world
  answered : world.session.options.side = side → traffic.IsAnswered world
  probed : Probed world.session.probe? traffic.probes traffic.settled

theorem IsFresh.step (h : traffic.IsFresh) (hpaced : world.ledger.Paced)
    (hdetached : world.session.activity = .detached) (move : Move E N) :
    (traffic.note world move).IsFresh := by
  have hdoing := World.doing?_detached hpaced hdetached move
  refine ⟨?_, ?_, ?_⟩
  · simp only [note, World.handled?, hdoing, h.processed]
    rfl
  · simp only [note, World.encoded?, hdoing, h.answers, h.answering]
    rfl
  · simp only [note, World.isAnswering, World.handled?, hdoing, h.answering]
    rfl

theorem fits_new (side : Side) (listener : Listener E N) :
    Traffic.new.Fits side (World.new (.standard side) listener) where
  standard := rfl
  paced := World.paced_new _ listener
  lone := .outbound (List.forall_mem_nil _)
  fresh _ := ⟨rfl, rfl, rfl⟩
  sorted := ⟨rfl, .inl rfl⟩
  answered _ := .still rfl
  probed := ⟨.refl [], fun _ hnone => nomatch hnone⟩

theorem Fits.step (h : traffic.Fits side world) (move : Move E N) :
    (traffic.note world move).Fits side (world.step move) where
  standard := (world.step_registry move).trans h.standard
  paced := h.paced.entry (world.step_entry move)
  lone := world.step_lone move h.lone False.elim
  fresh hdetached :=
    have hbefore := world.step_detached move hdetached
    (h.fresh hbefore).step h.paced hbefore move
  sorted :=
    h.sorted.step move (Session.keepsAlive_of_standard ⟨side, h.standard⟩) h.lone fun hdetached =>
      ((h.fresh hdetached).step h.paced hdetached move).processed
  answered := by
    intro hside
    rcases world.step_side move with hsame | hdetached
    · have hbefore := hsame.symm.trans hside
      exact (h.answered hbefore).step move (hbefore ▸ h.standard) h.lone hsame
    · have hfresh := (h.fresh hdetached).step h.paced hdetached move
      rw [IsAnswered, hfresh.processed, hfresh.answers, hfresh.answering]
      exact .still rfl
  probed := h.probed.step move

theorem fits_run (side : Side) (listener : Listener E N) (moves : List (Move E N)) :
    ((World.new (.standard side) listener).traffic moves).Fits side
      ((World.new (.standard side) listener).run moves) :=
  follow_preserves (P := fun world traffic => traffic.Fits side world)
    (fun move _ _ h => h.step move) moves _ _ (fits_new side listener)

end Traffic

namespace World

/-- Under any schedule, the listener of a session is given what got past the look at the session,
without the keepalives of the other side; this is a part of what was decoded, and while the session
is open all of it but for what is on its way.  The turns of probes have encoded the answers to them,
one for each and in the same order; while the session is open only the answer of the present turn
may be to come, and each is a frame on its way to the transport when it is taken down.  A keepalive
that is handled is a sign of life, whatever it says.  The token of a probe is forgotten for an
answer that is equal to it, on a server, or for the next probe; and at most once for every probe. -/
theorem keepalives_stay_inside (side : Side) (listener : Listener E N) (moves : List (Move E N))
    (move : Move E N)
    (hside : ((World.new (.standard side) listener).run moves).session.options.side = side) :
    let start := World.new (.standard side) listener
    let world := start.run moves
    let next := world.step move
    let traffic := start.traffic moves
    world.received = side.leaves traffic.processed
      ∧ traffic.processed <+: traffic.decoded
      ∧ (¬ world.session.isClosed → traffic.decoded = traffic.processed ++ arriving world.jobs)
      ∧ traffic.answers <+: side.replies traffic.processed
      ∧ (¬ world.session.isClosed → side.replies traffic.processed = traffic.answers
        ∨ traffic.answering ∧ world.jobs ≠ []
          ∧ ∃ reply, side.replies traffic.processed = traffic.answers ++ [reply])
      ∧ (∀ packet, world.encoded? move = some packet → ∃ sent codec,
        world.session.codec.encode packet = .ok (sent, codec)
          ∧ next.session.outgoing = world.session.outgoing ++ sent.wire)
      ∧ (∀ packet, world.doing? move = some (.handle packet) → side.keeps packet →
        next.session.lastHeard = world.now)
      ∧ (∀ token, world.session.probe? = some token → next.session.probe? = some token
        ∨ side = .server ∧ world.doing? move = some (.handle (.core (.serverboundKeepAlive token)))
          ∧ next.session.probe? = none
        ∨ world.doing? move = some .probe
          ∧ next.session.probe? = some world.session.surroundings.random)
      ∧ traffic.settled.Sublist traffic.probes := by
  intro start world next traffic
  have hfits : traffic.Fits side world := Traffic.fits_run side listener moves
  have hanswered := hfits.answered hside
  rw [Traffic.IsAnswered, hside] at hanswered
  have hreceived := hfits.sorted.received
  rw [hside] at hreceived
  refine ⟨hreceived, ?_, ?_, hanswered.prefix_replies, hanswered.of_open,
    fun _ => step_encoded, ?_, ?_, hfits.probed.once⟩
  · rcases hfits.sorted.decoded with hall | ⟨-, hpart, -⟩
    · rw [hall]
      exact List.prefix_append _ _
    · exact hpart
  · intro hopen
    exact hfits.sorted.decoded.resolve_right fun h => hopen h.1
  · intro packet hdoing hkept
    obtain ⟨channel, hsession, -⟩ := world.step_doing hdoing
    have hkeeps := Session.keepsAlive_of_standard ⟨side, hfits.standard⟩
    show (world.step move).session.lastHeard = _
    rw [hsession]
    exact { world.session with channel }.runHandle_kept hkeeps (hside.symm ▸ hkept)
  · intro token hlast
    rcases world.step_probe move with
      ⟨hsame, -⟩ | ⟨hdoing, hnext⟩ | ⟨id, hdoing, hserver, hid, hnext⟩
    · exact .inl (hsame.trans hlast)
    · exact .inr (.inr ⟨hdoing, hnext⟩)
    · obtain rfl := Option.some.inj (hlast.symm.trans hid)
      exact .inr (.inl ⟨hside.symm.trans hserver, hdoing, hnext⟩)

def probing : List (Move Empty Unit) :=
  [.spawn raising, .thread 0, .thread 0,
      .attach (.standard .client) ⟨⟨64, [2, 0, 7, 2, 64, 0, 2, 0, 9], none, .clear⟩, .new 64⟩]
    ++ List.replicate 32 (.drive .input)

theorem keepalives_stay_inside_of_probing :
    let start := World.new (.standard .client) Listener.idle
    let world := start.run probing
    let traffic := start.traffic probing
    world.session.options.side = .client ∧ ¬ world.session.isClosed
      ∧ traffic.processed = [.core (.clientboundKeepAlive 7), .core (.playDisconnect ""),
        .core (.clientboundKeepAlive 9)]
      ∧ world.received = [.core (.playDisconnect "")]
      ∧ traffic.answers = [.core (.serverboundKeepAlive 7), .core (.serverboundKeepAlive 9)] := by
  have hside : ((World.new (.standard .client) Listener.idle).run probing).session.options.side
      = .client := by decide +kernel
  have hopen : ¬ ((World.new (.standard .client) Listener.idle).run
      probing).session.isClosed := by decide +kernel
  have hjobs : ((World.new (.standard .client) Listener.idle).run probing).jobs = [] :=
    List.isEmpty_iff.mp (by decide +kernel)
  have hprocessed : ((World.new (.standard .client) Listener.idle).traffic probing).processed
      = [.core (.clientboundKeepAlive 7), .core (.playDisconnect ""),
        .core (.clientboundKeepAlive 9)] := by decide +kernel
  obtain ⟨hreceived, -, -, -, hanswered, -⟩ :=
    keepalives_stay_inside .client Listener.idle probing (.drive .input) hside
  have hreplies := (hanswered hopen).resolve_right fun h => h.2.1 hjobs
  rw [hprocessed] at hreceived hreplies
  exact ⟨hside, hopen, hprocessed, hreceived, hreplies.symm⟩

/-- A server in play probes with five, and reads a wrong answer, the right one and that again. -/
def answering : List (Move Empty Unit) :=
  [.spawn raising, .thread 0, .thread 0,
      .attach (.standard .server) ⟨⟨64, [2, 0, 4, 2, 0, 5, 2, 0, 5], none, .clear⟩, .new 64⟩]
    ++ List.replicate 10 (.drive .stop) ++ [.surround ⟨.ofMillis 15000, .ofMillis 15000, 5⟩]
    ++ List.replicate 8 (.drive .tick) ++ List.replicate 22 (.drive .input)

example : ((World.new (.standard .server) Listener.idle).traffic answering).probes = [5]
    ∧ ((World.new (.standard .server) Listener.idle).traffic answering).settled = [5] := by
  decide +kernel

end World
end PhaseWire
