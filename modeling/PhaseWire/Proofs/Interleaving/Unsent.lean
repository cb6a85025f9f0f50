import PhaseWire.Proofs.Codec.Outlet
import PhaseWire.Proofs.Interleaving.Keepalive

/-
# A session never waits with something unsent

Whatever a session writes in a turn, it flushes before the turn is over, and
a flush ends in one of two ways: the transport has every byte, or the
session is closed.  While a flush is under way a thread may close the
session at any point, and then the listener is called; but nobody writes,
and nobody opens the session again.  Everything here rests on that.

`Ledger.Allows` says what may be unsent at each point of a turn.  Where a
turn begins, the list of entries settles it.  How a flush begins, and what
is left to do when it has failed, no ledger tells; there one has to look at
the session itself.
-/

namespace PhaseWire

variable {E N : Type}

/-! ## Frames that are not flushed -/

namespace Record

/-- The frames that no flush has got rid of. -/
def unsent (record : Record) : List (Option Tag × Bytes) :=
  record.frames.drop record.flushed

variable {record next : Record}

theorem unsent_flush (record : Record) : record.flush.unsent = [] :=
  List.drop_length

theorem unsent_of_same (hframes : next.frames = record.frames)
    (hflushed : next.flushed = record.flushed) : next.unsent = record.unsent := by
  rw [unsent, unsent, hframes, hflushed]

theorem unsent_of_more {frame : Option Tag × Bytes} (h : record.flushed ≤ record.frames.length)
    (hframes : next.frames = record.frames ++ [frame]) (hflushed : next.flushed = record.flushed) :
    next.unsent ≠ [] := by
  rw [unsent, hframes, hflushed, List.drop_append_of_le_length h]
  exact List.append_ne_nil_of_right_ne_nil _ (List.cons_ne_nil _ _)

theorem sure_of_unsent (h : record.unsent = []) : record.sure = record.frames := by
  rw [sure, List.take_of_length_le (List.drop_eq_nil_iff.mp h)]

end Record

theorem ConnectionCodec.wire_ne_nil [CustomPackets E] {codec next : ConnectionCodec E}
    {packet : Packet E} {sent : Pipeline.Sent} (h : codec.encode packet = .ok (sent, next)) :
    sent.wire ≠ [] := by
  rw [encode_eq] at h
  cases hship : codec.ship packet with
  | error fault =>
      rw [hship] at h
      cases h
  | ok shipment =>
      rw [hship] at h
      cases h
      have hprefix := List.length_pos_iff.mpr
        (VarNum.encodeInt_ne_nil (Int32.ofNat shipment.body.length))
      refine List.length_pos_iff.mp ?_
      rw [Pipeline.length_sealFrame, Shipment.frame, List.length_append]
      exact Nat.lt_of_lt_of_le hprefix (Nat.le_add_right _ _)

/-! ## The jobs of a flush that is over -/

namespace Job

/-- A job after which the session is closed, or that leaves one. -/
def IsClosing : Job E N → Prop
  | errand (.close _ _) | fail _ | failIfOpen _ => True
  | _ => False

/-- A job that a flush may leave: to tell somebody how it went, or to close the session. -/
def IsSettling : Job E N → Prop
  | errand _ | complete _ _ | fail _ | failIfOpen _ => True
  | _ => False

theorem IsSettling.outbound {job : Job E N} (h : job.IsSettling) : ¬ job.IsInbound := by
  cases job with
  | receive packet => exact h.elim
  | handle packet => exact h.elim
  | _ => exact id

end Job

theorem settling_errands (errands : List (Errand E N)) :
    ∀ job ∈ errands.map Job.errand, job.IsSettling := by
  intro job hjob
  obtain ⟨errand, -, rfl⟩ := List.mem_map.mp hjob
  exact True.intro

theorem settling_tell (tags : List Tag) (result : Except Fault Unit) :
    ∀ job ∈ World.tell (E := E) (N := N) tags result, job.IsSettling := by
  intro job hjob
  obtain ⟨tag, -, rfl⟩ := List.mem_map.mp hjob
  exact True.intro

theorem settling_bury (flush : Flush) (fault : Fault) :
    ∀ job ∈ World.bury (E := E) (N := N) flush fault, job.IsSettling :=
  List.forall_mem_append.mpr ⟨settling_tell _ _, List.forall_mem_singleton.mpr True.intro⟩

theorem arriving_of_handling {jobs : List (Job E N)} (h : handlingIn jobs ≠ []) :
    arriving jobs ≠ [] := by
  refine fun hnone => h (List.filterMap_eq_nil_iff.mpr fun job hjob => ?_)
  have harrived := List.filterMap_eq_nil_iff.mp hnone job hjob
  cases job with
  | handle packet => cases harrived
  | _ => rfl

variable [CustomPackets E]

namespace Session

variable (session : Session E N) {job : Job E N}

theorem runJob_settling (h : job.IsSettling) :
    ∀ left ∈ (session.runJob job).1, left.IsSettling := by
  cases job with
  | errand errand => exact settling_errands _
  | complete tag? result => exact List.forall_mem_nil _
  | fail fault => exact List.forall_mem_singleton.mpr True.intro
  | failIfOpen fault =>
      rw [runJob]
      split
      · exact List.forall_mem_nil _
      · exact List.forall_mem_singleton.mpr True.intro
  | _ => exact h.elim

theorem isClosed_enterClose (reason : String) (graceful : Bool) :
    (session.enterClose reason graceful).2.2.isClosed := by
  rw [enterClose]
  split
  · assumption
  · exact isClosed_iff.mpr rfl

/-- A failure is not forgotten before the session is closed. -/
theorem runJob_closing (h : job.IsClosing) :
    (session.runJob job).2.isClosed ∨ ∃ left ∈ (session.runJob job).1, left.IsClosing := by
  cases job with
  | errand errand =>
      cases errand with
      | close reason graceful => exact .inl (session.isClosed_enterClose reason graceful)
      | _ => exact h.elim
  | fail fault => exact .inr ⟨_, List.mem_singleton_self _, True.intro⟩
  | failIfOpen fault =>
      rw [runJob]
      split
      · rename_i hclosed
        exact .inl hclosed
      · exact .inr ⟨_, List.mem_singleton_self _, True.intro⟩
  | _ => exact h.elim

theorem note_settling (record : Record) (h : job.IsSettling) :
    record.note session job = record := by
  cases job with
  | errand errand => rfl
  | complete tag? result => rfl
  | fail fault => rfl
  | failIfOpen fault => rfl
  | _ => exact h.elim

theorem note_frames (record : Record) (job : Job E N) :
    (record.note session job).frames = record.frames ∨ (session.runJob job).2.outgoing ≠ [] := by
  cases job with
  | write packet tag? next? =>
      left
      rw [Record.note]
      split
      · rfl
      · rfl
  | encode packet tag? next? =>
      rw [Record.note, runJob, runEncode]
      cases hencode : session.codec.encode packet with
      | error fault => exact .inl rfl
      | ok result =>
          exact .inr (List.append_ne_nil_of_right_ne_nil _ (ConnectionCodec.wire_ne_nil hencode))
  | _ => exact .inl rfl

/-- A job writes nothing, or it leaves a frame and bytes to flush. -/
theorem runJob_unsent {record : Record} (h : record.flushed ≤ record.frames.length)
    (job : Job E N) :
    (record.note session job).unsent = record.unsent
        ∧ (session.runJob job).2.tags = session.tags
        ∧ (session.runJob job).2.outgoing = session.outgoing
      ∨ (record.note session job).frames ≠ record.frames
        ∧ (record.note session job).unsent ≠ [] ∧ (session.runJob job).2.outgoing ≠ [] := by
  obtain ⟨-, hflushed, ⟨htags, houtgoing, hframes⟩ | ⟨tag?, wire, -, -, hframes⟩⟩ :=
    (session.runJob_worked record job).frames
  · exact .inl ⟨Record.unsent_of_same hframes hflushed, htags, houtgoing⟩
  · have hmore : (record.note session job).frames ≠ record.frames := by
      rw [hframes]
      exact fun hsame => List.cons_ne_nil _ _ (List.append_right_eq_self.mp hsame)
    exact .inr ⟨hmore, Record.unsent_of_more h hframes hflushed,
      (session.note_frames record job).resolve_left hmore⟩

end Session

/-- Of the packets that came in, a job leaves the one that it has let past the look at an open
session. -/
theorem IsLone.arriving_left {session : Session E N} {job : Job E N} {rest : List (Job E N)}
    (h : IsLone False session (job :: rest))
    (hleft : PhaseWire.arriving ((session.runJob job).1 ++ rest) ≠ []) :
    ∃ packet, job = .receive packet ∧ ¬ session.isClosed := by
  generalize hjobs : job :: rest = jobs at h
  cases h with
  | outbound hout =>
      rw [← hjobs] at hout
      obtain ⟨hjob, hrest⟩ := List.forall_mem_cons.mp hout
      rcases session.runJob_inbound job with ⟨packet, rfl, -⟩ | hnone
      · exact (hjob True.intro).elim
      · exact (hleft (arriving_outbound (List.forall_mem_append.mpr ⟨hnone, hrest⟩))).elim
  | receive packet =>
      obtain ⟨rfl, rfl⟩ := List.cons.inj hjobs
      refine ⟨packet, rfl, fun hclosed => hleft ?_⟩
      rw [Session.runJob, if_pos hclosed]
      rfl
  | handle packet hopen =>
      obtain ⟨rfl, rfl⟩ := List.cons.inj hjobs
      rw [List.append_nil] at hleft
      exact (hleft (arriving_outbound (session.outbound_handle packet))).elim

/-! ## What may be unsent, and when -/

/-- The session is not in a flush, nor at its end. -/
def Activity.IsReady : Activity → Prop
  | detached | starting | waiting => True
  | _ => False

theorem Books.Keeps.closed {books next : Books E} (h : books.Keeps next)
    (hclosed : books.lifecycle = .closed) : next.lifecycle = .closed := by
  rcases h.lifecycle_cases with hsame | hnext
  · exact hsame.trans hclosed
  · exact hnext

namespace Ledger

/-- The session is closed, or everything that it wrote is flushed. -/
def IsClear (ledger : Ledger E N) : Prop :=
  ledger.books.lifecycle = .closed ∨ ledger.record.unsent = []

/-- A flush is over, with all bytes gone or with the session closed or about to be. -/
structure IsSettled (ledger : Ledger E N) : Prop where
  tags : ledger.books.tags = []
  jobs : ∀ job ∈ ledger.jobs, job.IsSettling
  clear : ledger.IsClear ∨ ∃ job ∈ ledger.jobs, job.IsClosing

/-- What may be unsent at a point of a turn, or between two turns. -/
def Allows (ledger : Ledger E N) : Option Sequel → Activity → Prop
  | none, .detached | none, .starting | none, .waiting => ledger.IsClear
  | none, .flushing _ => ledger.record.unsent ≠ [] ∧ ledger.books.tags = []
  | none, .shuttingDown _ | none, .finished | none, .crashed => True
  | some (.flush _), _ =>
    ledger.books.lifecycle = .closed ∨ (ledger.books.outgoing = [] → ledger.record.unsent = [])
  | some (.goOn _), _ => ledger.IsSettled
  | some .dropLeft, _ => True

/-- Nothing is unsent but what may be. -/
structure IsPunctual (ledger : Ledger E N) : Prop where
  awaited : ledger.record.unsent = [] → ledger.books.tags = []
  allowed : ledger.Allows ledger.sequel? ledger.books.activity
  /-- A packet comes in when everything is flushed, or too late. -/
  arrived : arriving ledger.jobs ≠ [] → ledger.IsClear

variable {ledger next : Ledger E N}

theorem IsClear.keeps (h : ledger.IsClear) (hbooks : ledger.books.Keeps next.books)
    (hunsent : next.record.unsent = ledger.record.unsent) : next.IsClear := by
  rcases h with hclosed | hsent
  · exact .inl (hbooks.closed hclosed)
  · exact .inr (hunsent.trans hsent)

theorem IsClear.sent (h : ledger.IsClear) (hopen : ledger.books.lifecycle ≠ .closed) :
    ledger.record.unsent = [] :=
  h.resolve_left hopen

theorem Allows.keeps {sequel? : Option Sequel} {activity : Activity}
    (h : ledger.Allows sequel? activity) (hbooks : ledger.books.Keeps next.books)
    (htags : next.books.tags = ledger.books.tags)
    (houtgoing : next.books.outgoing = ledger.books.outgoing)
    (hunsent : next.record.unsent = ledger.record.unsent) (hjobs : next.jobs = ledger.jobs) :
    next.Allows sequel? activity := by
  cases sequel? with
  | none =>
      cases activity with
      | detached => exact IsClear.keeps h hbooks hunsent
      | starting => exact IsClear.keeps h hbooks hunsent
      | waiting => exact IsClear.keeps h hbooks hunsent
      | flushing flush => exact ⟨hunsent ▸ h.1, htags.trans h.2⟩
      | _ => exact True.intro
  | some sequel =>
      cases sequel with
      | flush afterwards =>
          refine h.imp hbooks.closed fun hwritten hempty => ?_
          rw [hunsent]
          exact hwritten (houtgoing.symm.trans hempty)
      | goOn afterwards =>
          refine ⟨htags.trans h.tags, hjobs ▸ h.jobs, ?_⟩
          rw [hjobs]
          exact h.clear.imp_left fun hclear => hclear.keeps hbooks hunsent
      | dropLeft => exact True.intro

/-- What a flush leaves when it is over. -/
theorem IsSettled.punctual (h : ledger.IsSettled) {afterwards : Afterwards}
    (hsequel : ledger.sequel? = some (.goOn afterwards)) : ledger.IsPunctual where
  awaited _ := h.tags
  allowed := by
    rw [hsequel]
    exact h
  arrived hpacket :=
    (hpacket (arriving_outbound fun job hjob => (h.jobs job hjob).outbound)).elim

/-- When its jobs are done, a failed flush has closed the session. -/
theorem IsSettled.isClear (h : ledger.IsSettled) (hjobs : ledger.jobs = []) : ledger.IsClear := by
  refine h.clear.resolve_right ?_
  rintro ⟨job, hjob, -⟩
  rw [hjobs] at hjob
  cases hjob

theorem Paced.busy (h : ledger.Paced) {job : Job E N} {rest : List (Job E N)}
    (hjobs : ledger.jobs = job :: rest) : ∃ sequel, ledger.sequel? = some sequel := by
  refine Option.ne_none_iff_exists'.mp fun hnone => ?_
  rw [h.idle hnone] at hjobs
  cases hjobs

theorem IsDue.sequel_ne_none {afterwards : Afterwards} (h : ledger.IsDue afterwards) :
    ledger.sequel? ≠ none := by
  obtain ⟨-, hsequel | ⟨hsequel, -⟩⟩ := h
  · rw [hsequel]
    exact Option.some_ne_none _
  · rw [hsequel]
    exact Option.some_ne_none _

namespace IsPunctual

variable (h : ledger.IsPunctual)
include h

theorem keeps (hbooks : ledger.books.Keeps next.books)
    (htags : next.books.tags = ledger.books.tags)
    (houtgoing : next.books.outgoing = ledger.books.outgoing)
    (hunsent : next.record.unsent = ledger.record.unsent) (hjobs : next.jobs = ledger.jobs)
    (hsequel : next.sequel? = ledger.sequel?) : next.IsPunctual where
  awaited hsent := htags.trans (h.awaited (hunsent.symm.trans hsent))
  allowed := by
    rw [hsequel, hbooks.activity_eq]
    exact h.allowed.keeps hbooks htags houtgoing hunsent hjobs
  arrived hpacket := (h.arrived (hjobs ▸ hpacket)).keeps hbooks hunsent

/-- Between two turns everything is flushed. -/
theorem clear (hidle : ledger.IsIdle) {activity : Activity}
    (hactivity : ledger.books.activity = activity)
    (hready : activity.IsReady) : ledger.IsClear := by
  have hallowed := h.allowed
  rw [hidle.2, hactivity] at hallowed
  cases activity with
  | detached => exact hallowed
  | starting => exact hallowed
  | waiting => exact hallowed
  | _ => exact hready.elim

theorem untagged (hidle : ledger.IsIdle) {flush : Flush}
    (hflushing : ledger.books.activity = .flushing flush) : ledger.books.tags = [] := by
  have hallowed := h.allowed
  rw [hidle.2, hflushing] at hallowed
  exact hallowed.2

theorem begun (hclear : next.IsClear) (hunsent : next.record.unsent = ledger.record.unsent)
    (htags : next.books.tags = ledger.books.tags) {afterwards : Afterwards}
    (hsequel : next.sequel? = some (.flush afterwards)) : next.IsPunctual where
  awaited hsent := htags.trans (h.awaited (hunsent.symm.trans hsent))
  allowed := by
    rw [hsequel]
    exact hclear.imp_right fun hsent _ => hsent
  arrived _ := hclear

theorem ended (hjobs : next.jobs = []) (hunsent : next.record.unsent = ledger.record.unsent)
    (htags : next.books.tags = ledger.books.tags ∨ next.books.tags = [])
    (hallowed : next.Allows next.sequel? next.books.activity) : next.IsPunctual where
  awaited hsent := htags.elim (fun hsame => hsame.trans (h.awaited (hunsent.symm.trans hsent))) id
  allowed := hallowed
  arrived hpacket := by
    rw [hjobs] at hpacket
    exact (hpacket rfl).elim

theorem idle (hidle : ledger.IsIdle)
    (hentry : ledger.Entry next) : next.IsPunctual := by
  cases hentry with
  | stay => exact h
  | call hhandled hdropping =>
      obtain ⟨-, htags, houtgoing⟩ := hhandled.untouched
      exact h.keeps hhandled.keeps htags houtgoing rfl rfl rfl
  | abandon hdropping => exact h.keeps ⟨rfl, rfl, rfl, .inl rfl⟩ rfl rfl rfl rfl rfl
  | attach hdetached =>
      refine h.ended hidle.1 rfl (.inl rfl) ?_
      rw [hidle.2]
      exact h.clear hidle hdetached True.intro
  | job hjobs hworked =>
      rw [hidle.1] at hjobs
      cases hjobs
  | start hidle hstarting hpreparing =>
      have hsent := (h.clear hidle hstarting True.intro).sent fun hclosed => by
        rw [hpreparing] at hclosed
        cases hclosed
      exact h.begun (.inr hsent) rfl rfl rfl
  | execute hidle hwaiting hchannel hworked =>
      have hclear := h.clear hidle hwaiting True.intro
      obtain ⟨-, -, ⟨htags, -, -⟩ | ⟨tag?, wire, -, -, hframes⟩⟩ := hworked.frames
      · exact h.begun (hclear.keeps ⟨hworked.keeps.activity_eq, hworked.keeps.options_eq,
          hworked.keeps.registry_eq, hworked.keeps.lifecycle_cases⟩ rfl) rfl htags rfl
      · exact (List.cons_ne_nil _ _ (List.self_eq_append_right.mp hframes)).elim
  | assign hidle hwaiting hjobs =>
      exact h.begun (h.clear hidle hwaiting True.intro) rfl rfl rfl
  | stop reason hidle hwaiting hclosed =>
      exact ⟨h.awaited, True.intro, fun _ => .inl hclosed⟩
  | hand count =>
      refine h.ended hidle.1 rfl (.inl rfl) ?_
      have hallowed := h.allowed
      rw [hidle.2] at hallowed ⊢
      cases hactivity : ledger.books.activity with
      | _ =>
          rw [hactivity] at hallowed
          exact hallowed
  | settleDone hidle hflushing hempty =>
      have htags := h.untagged hidle hflushing
      exact IsSettled.punctual
        ⟨htags, settling_tell _ _, .inl (.inr (Record.unsent_flush _))⟩ rfl
  | @settleFailed flush errands fault hidle hflushing hdropped =>
      have htags := h.untagged hidle hflushing
      refine IsSettled.punctual ⟨htags, ?_, .inr ⟨.failIfOpen fault, ?_, True.intro⟩⟩ rfl
      · exact List.forall_mem_append.mpr ⟨settling_errands _, settling_bury flush fault⟩
      · exact List.mem_append_right _ (List.mem_append_right _ (List.mem_singleton_self _))
  | flush hdue htags hafterwards => exact (hdue.sequel_ne_none hidle.2).elim
  | proceed hthrough hleads htimer =>
      rcases hthrough with ⟨hdue, -⟩ | ⟨-, hsequel⟩ | ⟨-, hstarting, -, rfl⟩
      · exact (hdue.sequel_ne_none hidle.2).elim
      · rw [hidle.2] at hsequel
        cases hsequel
      · rcases hleads.cases with ⟨rfl, -⟩ | ⟨-, hlast⟩
        · exact h.ended hidle.1 rfl (.inl rfl) (h.clear hidle hstarting True.intro)
        · cases hlast
  | crash hsets => exact h.ended hidle.1 rfl (.inr rfl) True.intro
  | drop hjobs hsequel hchannel =>
      rw [hidle.2] at hsequel
      cases hsequel
  | finish hidle hshutting =>
      refine h.ended hidle.1 rfl (.inl rfl) ?_
      rw [hidle.2]
      exact True.intro

end IsPunctual
end Ledger

/-! ## How a flush begins and ends -/

namespace World

variable (world : World E N)

theorem proceed_punctual (h : world.ledger.IsPunctual) (hjobs : world.jobs = [])
    (hclear : world.ledger.IsClear) (session : Session E N)
    (hbooks : session.books = world.session.books) (afterwards : Afterwards) :
    ({ world with sequel? := none }.become
      (session.proceed world.duplex afterwards)).ledger.IsPunctual := by
  rcases session.proceed_books world.duplex afterwards with
    ⟨activity, hleads, -, hproceed⟩ | ⟨-, hproceed⟩
  · rw [hbooks] at hproceed
    simp only [ledger, become, hproceed]
    refine h.ended hjobs rfl (.inl rfl) ?_
    rcases hleads.cases with ⟨rfl, -⟩ | ⟨⟨deadline, rfl⟩, -⟩
    · exact hclear
    · exact True.intro
  · rw [hbooks] at hproceed
    simp only [ledger, become, hproceed]
    exact h.ended hjobs rfl (.inr rfl) True.intro

theorem outgoing_of_unsent (hbacked : world.ledger.IsBacked) (hsent : world.record.unsent = []) :
    world.session.outgoing = [] := by
  have hgone : bytesOf world.record.sure <+: world.record.handed := hbacked.gone
  have hbytes : world.record.handed ++ world.session.outgoing = bytesOf world.record.frames :=
    hbacked.bytes
  rw [Record.sure_of_unsent hsent, ← hbytes] at hgone
  have hlength := hgone.length_le
  rw [List.length_append] at hlength
  exact List.length_eq_zero_iff.mp (Nat.le_zero.mp (Nat.le_of_add_le_add_left hlength))

theorem flush_punctual (h : world.ledger.IsPunctual) (hbacked : world.ledger.IsBacked)
    (hjobs : world.jobs = [])
    (hwritten : world.session.lifecycle = .closed
      ∨ (world.session.outgoing = [] → world.record.unsent = [])) (afterwards : Afterwards) :
    ({ world with sequel? := none }.become
      (world.session.beginFlush world.duplex afterwards)).ledger.IsPunctual := by
  rw [Session.beginFlush]
  split
  · rename_i hempty
    rw [Bool.and_eq_true] at hempty
    refine world.proceed_punctual h hjobs ?_ { world.session with reading := true } rfl afterwards
    exact hwritten.imp_right fun hsent => hsent (List.isEmpty_iff.mp hempty.1)
  · rename_i hfull
    -- with every frame flushed there would be neither bytes nor anybody who waits
    have hunsent : world.record.unsent ≠ [] := by
      intro hsent
      have htags : world.session.tags = [] := h.awaited hsent
      refine hfull ?_
      rw [world.outgoing_of_unsent hbacked hsent, htags]
      rfl
    exact h.ended hjobs rfl (.inr rfl) ⟨hunsent, rfl⟩

theorem conclude_punctual (h : world.ledger.IsPunctual) (hbacked : world.ledger.IsBacked)
    (hpaced : world.ledger.Paced) (hjobs : world.jobs = []) {sequel : Sequel}
    (hsequel : world.sequel? = some sequel) : (world.conclude sequel).ledger.IsPunctual := by
  have hallowed := h.allowed
  rw [show world.ledger.sequel? = some sequel from hsequel] at hallowed
  cases sequel with
  | flush afterwards => exact world.flush_punctual h hbacked hjobs hallowed afterwards
  | goOn afterwards =>
      exact world.proceed_punctual h hjobs (hallowed.isClear hjobs)
        { world.session with reading := true } rfl afterwards
  | dropLeft =>
      rw [conclude]
      split
      · simp only [ledger, Session.books_abandon]
        exact h.keeps ⟨rfl, rfl, rfl, .inl rfl⟩ rfl rfl rfl rfl rfl
      · exact world.flush_punctual h hbacked hjobs
          (.inl (hpaced.ending (Ledger.isEnding_of_sequel hsequel True.intro))) .shutdown

/-! ## The jobs of a turn -/

/-- What a settled flush leaves is done without writing, and no failure gets lost in it. -/
theorem job_settled (h : world.ledger.IsSettled) (hbacked : world.ledger.IsBacked) {job : Job E N}
    {rest : List (Job E N)} (hjobs : world.jobs = job :: rest) (pick : Pick) :
    (world.drive pick).ledger.IsSettled := by
  have hkeeps := (world.session.runJob_worked world.record job).keeps
  have hall : ∀ left ∈ world.jobs, left.IsSettling := h.jobs
  rw [hjobs] at hall
  obtain ⟨hjob, hrest⟩ := List.forall_mem_cons.mp hall
  have hrecord := world.session.note_settling world.record hjob
  obtain ⟨-, htags, -⟩ := (world.session.runJob_unsent hbacked.flushed job).resolve_right
    fun hmore => hmore.1 (congrArg Record.frames hrecord)
  rw [drive_job hjobs]
  refine ⟨htags.trans h.tags,
    List.forall_mem_append.mpr ⟨world.session.runJob_settling hjob, hrest⟩, ?_⟩
  rcases h.clear with hclear | ⟨left, hleft, hclosing⟩
  · exact .inl (hclear.keeps hkeeps (congrArg Record.unsent hrecord))
  · -- the failure is with this job, or with one of the rest
    rw [show world.ledger.jobs = _ from hjobs] at hleft
    rcases List.mem_cons.mp hleft with rfl | hmem
    · rcases world.session.runJob_closing hclosing with hclosed | ⟨more, hmore, hagain⟩
      · exact .inl (.inl (Session.isClosed_iff.mp hclosed))
      · exact .inr ⟨more, List.mem_append_left _ hmore, hagain⟩
    · exact .inr ⟨left, List.mem_append_right _ hmem, hclosing⟩

theorem job_allowed (hbacked : world.ledger.IsBacked) {job : Job E N} {rest : List (Job E N)}
    (hjobs : world.jobs = job :: rest) {sequel : Sequel} {activity next : Activity}
    (h : world.ledger.Allows (some sequel) activity) (pick : Pick) :
    (world.drive pick).ledger.Allows (some sequel) next := by
  cases sequel with
  | flush afterwards =>
      rw [drive_job hjobs]
      refine h.imp (world.session.runJob_worked world.record job).keeps.closed ?_
      intro hwritten hempty
      rcases world.session.runJob_unsent hbacked.flushed job with
        ⟨hsame, -, houtgoing⟩ | ⟨-, -, hbytes⟩
      · exact hsame.trans (hwritten (houtgoing.symm.trans hempty))
      · exact (hbytes hempty).elim
  | goOn afterwards => exact world.job_settled h hbacked hjobs pick
  | dropLeft => exact True.intro

theorem job_punctual (h : world.ledger.IsPunctual) (hbacked : world.ledger.IsBacked)
    (hlone : IsLone False world.session world.jobs) {job : Job E N} {rest : List (Job E N)}
    (hjobs : world.jobs = job :: rest) {sequel : Sequel} (hsequel : world.sequel? = some sequel)
    (pick : Pick) : (world.drive pick).ledger.IsPunctual := by
  have hallowed := h.allowed
  rw [show world.ledger.sequel? = some sequel from hsequel] at hallowed
  have hplace : (world.drive pick).ledger.sequel? = some sequel := by
    rw [drive_job hjobs]
    exact hsequel
  refine ⟨?_, hplace ▸ world.job_allowed hbacked hjobs hallowed pick, ?_⟩
  · rw [drive_job hjobs]
    intro hsent
    rcases world.session.runJob_unsent hbacked.flushed job with ⟨hsame, htags, -⟩ | ⟨-, hnew, -⟩
    · exact htags.trans (h.awaited (hsame.symm.trans hsent))
    · exact (hnew hsent).elim
  · rw [drive_job hjobs]
    intro hpacket
    rw [hjobs] at hlone
    obtain ⟨packet, rfl, -⟩ := hlone.arriving_left hpacket
    have hkeeps := (world.session.runJob_worked world.record (.receive packet)).keeps
    refine (h.arrived ?_).keeps hkeeps rfl
    rw [show world.ledger.jobs = _ from hjobs]
    exact List.cons_ne_nil _ _

end World

/-! ## Frames are taken in again -/

namespace Session

variable (session : Session E N)

theorem reading_accept (command : Command E) :
    (session.accept command).2.reading = session.reading := by
  simp only [accept]
  split
  · rfl
  · split
    · rfl
    · rfl
  · rfl

theorem reading_enterClose (reason : String) (graceful : Bool) :
    (session.enterClose reason graceful).2.2.reading = session.reading := by
  rw [enterClose]
  split
  · rfl
  · rfl

theorem reading_enterCall (call : Call E) :
    (session.enterCall call).2.2.reading = session.reading := by
  cases call with
  | send packet tag? =>
      rw [enterCall]
      split
      · rfl
      · exact session.reading_accept _
  | setPhase phase => exact session.reading_accept _
  | setThreshold threshold => exact session.reading_accept _
  | encrypt key =>
      rw [enterCall]
      split
      · exact session.reading_accept _
      · rfl
  | close reason graceful => exact session.reading_enterClose reason graceful
  | checkAlive limit =>
      simp only [enterCall, enterCheck]
      split
      · rfl
      · split
        · rfl
        · rfl

theorem reading_runErrand (errand : Errand E N) :
    (session.runErrand errand).2.reading = session.reading := by
  cases errand with
  | abandon command =>
      simp only [runErrand, abandon, complete]
      split
      · rfl
      · rfl
  | announce reason => rfl
  | hook rest =>
      cases rest with
      | call call next => exact session.reading_enterCall call
      | _ => rfl
  | cancel => rfl
  | close reason graceful => exact session.reading_enterClose reason graceful

theorem activity_runErrand (errand : Errand E N) :
    (session.runErrand errand).2.activity = session.activity := by
  rcases session.runErrand_handled errand with ⟨command, -, hrun⟩ | ⟨-, hhandled⟩
  · rw [hrun]
    exact congrArg Books.activity (session.books_abandon command)
  · exact hhandled.keeps.activity_eq

theorem reading_proceed (duplex : Duplex) (afterwards : Afterwards) :
    (session.proceed duplex afterwards).1.reading = session.reading := by
  cases afterwards with
  | firstWait =>
      rw [proceed, firstWait]
      split
      · rfl
      · rfl
  | wait => rfl
  | shutdown => rfl

/-- Frames are held back until the flush that was to come first is over. -/
theorem reading_beginFlush (duplex : Duplex) (afterwards : Afterwards) :
    (session.beginFlush duplex afterwards).1.activity.IsReady →
      (session.beginFlush duplex afterwards).1.reading = true := by
  rw [beginFlush]
  split
  · exact fun _ => reading_proceed _ _ _
  · exact False.elim

end Session

namespace World

variable (world : World E N)

/-- Between two turns frames may be taken in. -/
def IsReading : Prop :=
  world.sequel? = none → world.session.activity.IsReady → world.session.reading = true

theorem assign_reading (jobs : List (Job E N)) (sequel : Sequel) :
    (world.assign jobs sequel).IsReading :=
  nofun

theorem busy_reading {next : World E N} {activity : Activity}
    (hactivity : next.session.activity = activity) (hbusy : ¬ activity.IsReady) :
    next.IsReading := by
  intro _ hready
  rw [hactivity] at hready
  exact (hbusy hready).elim

theorem conclude_reading {sequel : Sequel} (hsequel : world.sequel? = some sequel) :
    (world.conclude sequel).IsReading := by
  cases sequel with
  | flush afterwards => exact fun _ => world.session.reading_beginFlush _ afterwards
  | goOn afterwards => exact fun _ _ => Session.reading_proceed _ _ afterwards
  | dropLeft =>
      rw [conclude]
      split
      · intro hnone
        rw [show World.sequel? _ = _ from hsequel] at hnone
        cases hnone
      · exact fun _ => world.session.reading_beginFlush _ .shutdown

theorem waitTurn_reading (h : world.session.reading = true) (pick : Pick) :
    (world.waitTurn pick).IsReading := by
  have hstay : world.IsReading := fun _ _ => h
  have hframe : ∀ (session : Session E N) (duplex : Duplex) (incoming : Bytes),
      session.reading = true → ({ world with session, duplex }.takeFrame incoming).IsReading := by
    intro session duplex incoming hreading
    rw [takeFrame]
    dsimp only
    split
    · exact assign_reading _ _ _
    · exact assign_reading _ _ _
    · split
      · exact assign_reading _ _ _
      · exact fun _ _ => hreading
  cases pick with
  | stop =>
      rw [waitTurn]
      split
      · exact assign_reading _ _ _
      · exact hstay
  | command =>
      rw [waitTurn]
      split
      · exact assign_reading _ _ _
      · exact hstay
  | tick =>
      rw [waitTurn]
      split
      · split
        · exact assign_reading _ _ _
        · exact fun _ => False.elim
      · exact hstay
  | input =>
      rw [waitTurn]
      split
      · exact hstay
      · split
        · exact hframe world.session world.duplex [] h
        · rw [takeInput]
          split
          · exact hframe _ _ _ h
          · exact hstay
          · exact hframe _ _ _ h
          · exact assign_reading _ _ _

theorem flushTurn_reading {flush : Flush} (hflushing : world.session.activity = .flushing flush)
    (pick : Pick) : (world.flushTurn flush pick).IsReading := by
  have hstay : world.IsReading := busy_reading hflushing id
  have hwrite : (world.flushWrite flush).IsReading := by
    rw [flushWrite]
    split
    · split
      · exact assign_reading _ _ _
      · exact assign_reading _ _ _
      · exact hstay
    · split
      · exact assign_reading _ _ _
      · exact busy_reading hflushing id
  cases pick with
  | stop =>
      rw [flushTurn]
      split
      · exact assign_reading _ _ _
      · exact hstay
  | tick =>
      rw [flushTurn]
      split
      · rw [settleLate]
        split
        · exact assign_reading _ _ _
        · exact assign_reading _ _ _
      · exact hstay
  | command => exact hwrite
  | input => exact hwrite

theorem shutdownTurn_reading {deadline : Instant}
    (hshutting : world.session.activity = .shuttingDown deadline) (pick : Pick) :
    (world.shutdownTurn deadline pick).IsReading := by
  have hstay : world.IsReading := busy_reading hshutting id
  have hfinish : world.finish.IsReading := fun _ => False.elim
  unfold shutdownTurn
  split
  · split
    · exact hfinish
    · exact hstay
  · split
    · split
      · exact hstay
      · exact hfinish
    · split
      · exact hfinish
      · exact busy_reading hshutting id

theorem turn_reading (h : world.IsReading) (hsequel : world.sequel? = none) (pick : Pick) :
    (world.turn pick).IsReading := by
  rw [turn]
  split
  · exact h
  · exact h
  · exact h
  · rename_i hstarting
    rw [startTurn]
    split
    · exact assign_reading _ _ _
    · intro _ _
      refine (Session.reading_proceed _ _ .firstWait).trans (h hsequel ?_)
      rw [hstarting]
      exact True.intro
  · rename_i hwaiting
    refine world.waitTurn_reading (h hsequel ?_) pick
    rw [hwaiting]
    exact True.intro
  · rename_i flush hflushing
    exact world.flushTurn_reading hflushing pick
  · rename_i deadline hshutting
    exact world.shutdownTurn_reading hshutting pick

theorem step_reading (h : world.IsReading) (hpaced : world.ledger.Paced) (move : Move E N) :
    (world.step move).IsReading := by
  cases move with
  | spawn program => exact h
  | thread index =>
      rw [step, runThread]
      split
      · rename_i errand rest hthread
        intro hsequel hready
        rw [Session.activity_runErrand] at hready
        exact (world.session.reading_runErrand errand).trans (h hsequel hready)
      · exact h
  | attach options duplex =>
      rw [step, Session.attach]
      split
      · rename_i hattach
        split at hattach
        · rename_i hdetached
          cases hattach
          intro hsequel _
          refine h hsequel ?_
          rw [hdetached]
          exact True.intro
        · cases hattach
      · exact h
  | surround surroundings => exact h
  | transport duplex => exact h
  | drive pick =>
      rw [step, drive]
      split
      · rename_i job rest hjobs
        obtain ⟨sequel, hsequel⟩ := hpaced.busy hjobs
        intro hnone
        cases hsequel.symm.trans hnone
      · rename_i sequel hjobs hsequel
        exact world.conclude_reading hsequel
      · rename_i hjobs hsequel
        exact world.turn_reading h hsequel pick

/-! ## All schedules -/

variable {world}

/-- Everything that was written is with the transport, and nobody waits for a flush. -/
structure IsFlushed (world : World E N) : Prop where
  unsent : world.record.unsent = []
  outgoing : world.session.outgoing = []
  tags : world.session.tags = []
  handed : world.record.handed = bytesOf world.record.frames

/-- All that is known of what is unsent. -/
structure IsPrompt (world : World E N) : Prop where
  paced : world.ledger.Paced
  backed : world.ledger.IsBacked
  lone : IsLone False world.session world.jobs
  punctual : world.ledger.IsPunctual
  reading : world.IsReading
  /-- The packet that is past the look came in when everything was flushed. -/
  handled : world.handling ≠ [] → world.record.unsent = []

theorem IsPrompt.flushed (h : world.IsPrompt) (hsent : world.record.unsent = []) :
    world.IsFlushed := by
  have houtgoing := world.outgoing_of_unsent h.backed hsent
  have hbytes : world.record.handed ++ world.session.outgoing = bytesOf world.record.frames :=
    h.backed.bytes
  rw [houtgoing, List.append_nil] at hbytes
  exact ⟨hsent, houtgoing, h.punctual.awaited hsent, hbytes⟩

theorem IsPrompt.flushed_of_clear (h : world.IsPrompt) (hclear : world.ledger.IsClear) :
    world.session.isClosed ∨ world.IsFlushed :=
  hclear.imp Session.isClosed_iff.mpr h.flushed

theorem IsPrompt.step_punctual (h : world.IsPrompt) (move : Move E N) :
    (world.step move).ledger.IsPunctual := by
  cases move with
  | spawn program => exact h.punctual.keeps (.refl _) rfl rfl rfl rfl rfl
  | thread index =>
      rw [step, runThread]
      split
      · rename_i errand rest hthread
        rcases world.session.runErrand_handled errand with ⟨command, rfl, -⟩ | ⟨-, hhandled⟩
        · simp only [ledger, Session.runErrand, Session.books_abandon]
          exact h.punctual.keeps ⟨rfl, rfl, rfl, .inl rfl⟩ rfl rfl rfl rfl rfl
        · obtain ⟨-, htags, houtgoing⟩ := hhandled.untouched
          exact h.punctual.keeps hhandled.keeps htags houtgoing rfl rfl rfl
      · exact h.punctual
  | attach options duplex =>
      by_cases hdetached : world.session.activity = .detached
      · have hsequel := h.paced.resting hdetached True.intro
        exact h.punctual.idle ⟨h.paced.idle hsequel, hsequel⟩
          (world.step_entry (.attach options duplex))
      · rw [step, Session.attach, if_neg hdetached]
        exact h.punctual
  | surround surroundings => exact h.punctual.keeps (.refl _) rfl rfl rfl rfl rfl
  | transport duplex => exact h.punctual
  | drive pick =>
      cases hjobs : world.jobs with
      | cons job rest =>
          obtain ⟨sequel, hsequel⟩ := h.paced.busy hjobs
          exact world.job_punctual h.punctual h.backed h.lone hjobs hsequel pick
      | nil =>
          cases hsequel : world.sequel? with
          | none =>
              exact h.punctual.idle ⟨hjobs, hsequel⟩
                (world.step_entry (.drive pick))
          | some sequel =>
              simp only [step, drive, hjobs, hsequel]
              exact world.conclude_punctual h.punctual h.backed h.paced hjobs hsequel

theorem IsPrompt.step_handled (h : world.IsPrompt) (move : Move E N)
    (hhandling : (world.step move).handling ≠ []) : (world.step move).record.unsent = [] := by
  cases move with
  | thread index =>
      rw [step, runThread] at hhandling ⊢
      split at hhandling
      · exact h.handled hhandling
      · exact h.handled hhandling
  | attach options duplex =>
      rw [step] at hhandling ⊢
      split at hhandling
      · exact h.handled hhandling
      · exact h.handled hhandling
  | drive pick =>
      cases hjobs : world.jobs with
      | nil => exact (hhandling (world.step_begins hjobs _).1).elim
      | cons job rest =>
          rw [step, drive_job hjobs] at hhandling ⊢
          have hlone := h.lone
          rw [hjobs] at hlone
          -- it has just been let past the look, and came in when everything was flushed
          obtain ⟨packet, rfl, hopen⟩ := hlone.arriving_left (arriving_of_handling hhandling)
          have hclear : world.ledger.IsClear := by
            refine h.punctual.arrived ?_
            rw [show world.ledger.jobs = _ from hjobs]
            exact List.cons_ne_nil _ _
          exact hclear.sent fun hclosed => hopen (Session.isClosed_iff.mpr hclosed)
  | _ => exact h.handled hhandling

theorem IsPrompt.step (h : world.IsPrompt) (move : Move E N) : (world.step move).IsPrompt := by
  have hentry := world.step_entry move
  exact ⟨h.paced.entry hentry, h.backed.entry h.paced hentry,
    world.step_lone move h.lone False.elim, h.step_punctual move,
    world.step_reading h.reading h.paced move, h.step_handled move⟩

theorem prompt_new (registry : Registry E) (listener : Listener E N) :
    (World.new registry listener).IsPrompt where
  paced := paced_new registry listener
  backed := (ordered_new registry listener).backed
  lone := .outbound (List.forall_mem_nil _)
  punctual := ⟨fun _ => rfl, .inr rfl, fun _ => .inr rfl⟩
  reading _ _ := rfl
  handled _ := rfl

theorem run_prompt (registry : Registry E) (listener : Listener E N) (moves : List (Move E N)) :
    ((World.new registry listener).run moves).IsPrompt :=
  run_preserves (P := fun world : World E N => world.IsPrompt) moves
    (fun move _ _ h => h.step move) _ (prompt_new registry listener)

/-- Under any schedule, a session that waits may take frames in, and if it is open, everything that
it wrote is with the transport and nobody waits for a flush.  So it is whenever the session or its
listener is given a packet that came in: no frame is between its encoding and the end of its flush.
A flush that is under way has frames to get rid of; when it is over and the session goes on, it has
got rid of them, or the session is closed.  And what counts as handed over is what the transport has
taken. -/
theorem waits_with_nothing_unsent (registry : Registry E) (listener : Listener E N)
    (moves : List (Move E N)) :
    let world := (World.new registry listener).run moves
    (world.sequel? = none → world.session.activity = .waiting →
        world.session.reading = true ∧ (¬ world.session.isClosed → world.IsFlushed))
      ∧ (∀ move packet, world.doing? move = some (.handle packet) → world.IsFlushed)
      ∧ (∀ flush, world.sequel? = none → world.session.activity = .flushing flush →
        world.record.unsent ≠ [])
      ∧ (∀ afterwards, world.jobs = [] → world.sequel? = some (.goOn afterwards) →
        world.session.isClosed ∨ world.IsFlushed)
      ∧ world.record.handed = ((World.new registry listener).gather taken? moves).flatten := by
  intro world
  have h : world.IsPrompt := run_prompt registry listener moves
  have hallowed : world.ledger.Allows world.sequel? world.session.activity := h.punctual.allowed
  refine ⟨fun hsequel hwaiting => ?_, fun move packet hdoing => ?_,
    fun flush hsequel hflushing => ?_, fun afterwards hjobs hsequel => ?_,
    (World.new registry listener).run_handed moves⟩
  · rw [hsequel, hwaiting] at hallowed
    refine ⟨h.reading hsequel ?_, (h.flushed_of_clear hallowed).resolve_left⟩
    rw [hwaiting]
    exact True.intro
  · refine h.flushed (h.handled ?_)
    rcases world.doing_first hdoing with hjobs | ⟨-, command, hcommand⟩
    · rw [handling, hjobs]
      exact List.cons_ne_nil _ _
    · cases hcommand
  · rw [hsequel, hflushing] at hallowed
    exact hallowed.1
  · rw [hsequel] at hallowed
    exact h.flushed_of_clear (hallowed.isClear hjobs)

/-- A client sends the first packet of another phase, and the answer is in the transport before the
transport has taken that packet. -/
def inquiring : List (Move Empty Unit) :=
  [.spawn (sending "first"), .thread 0,
      .attach (.standard .client) ⟨⟨64, [2, 0, 0], none, .clear⟩, .new 64⟩]
    ++ List.replicate 15 (.drive .input)

/-- The session has given the answer to its listener, and waits. -/
def inquired : List (Move Empty Unit) :=
  inquiring ++ List.replicate 3 (.drive .input)

theorem waits_with_nothing_unsent_of_inquiring :
    let asked := (World.new (.standard .client) Listener.idle).run inquiring
    let answered := (World.new (.standard .client) Listener.idle).run inquired
    asked.doing? (.drive .input) = some (.handle (.core (.statusResponse "")))
      ∧ asked.record.frames = [(some "first", [1, 0])] ∧ asked.IsFlushed
      ∧ answered.session.activity = .waiting ∧ ¬ answered.session.isClosed
      ∧ answered.session.reading = true ∧ answered.IsFlushed := by
  intro asked answered
  have hdoing : asked.doing? (.drive .input) = some (.handle (.core (.statusResponse ""))) :=
    asked.handled?_iff.mp (by decide +kernel)
  have hframes : asked.record.frames = [(some "first", [1, 0])] := by decide +kernel
  have hsequel : answered.sequel? = none := by decide +kernel
  have hwaiting : answered.session.activity = .waiting := by decide +kernel
  have hopen : ¬ answered.session.isClosed := by decide +kernel
  obtain ⟨-, hgiven, -⟩ := waits_with_nothing_unsent (.standard .client) Listener.idle inquiring
  obtain ⟨hwaits, -⟩ := waits_with_nothing_unsent (.standard .client) Listener.idle inquired
  obtain ⟨hreading, hflushed⟩ := hwaits hsequel hwaiting
  exact ⟨hdoing, hframes, hgiven _ _ hdoing, hwaiting, hopen, hreading, hflushed hopen⟩

end World
end PhaseWire
