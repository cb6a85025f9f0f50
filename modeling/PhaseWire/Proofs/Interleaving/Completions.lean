import PhaseWire.Proofs.Interleaving.Handing
import PhaseWire.Proofs.Interleaving.Senders

/-
# Every accepted packet is settled once

Good news are only told of frames that a flush has got rid of
(`IsBacked`), and all other news are that the session is closed.  Once a
session has dropped its last command nothing more is written and nothing
more is sent to it (`IsSwept`), so when it has ended nobody is held by
anybody, except by calls that have not returned.  With the balance this
gives `senders_told_once`.
-/

namespace PhaseWire

variable {E N : Type}

/-- A job that leads to a frame and does not look any more whether the session is open. -/
def Job.IsEncode : Job E N → Prop
  | approach _ _ _ | encode _ _ _ => True
  | _ => False

/-- A job that looks whether the session is open, and then leaves a packet to be encoded. -/
def Job.IsWrite : Job E N → Prop
  | write _ _ _ => True
  | _ => False

theorem calm_idle {jobs : List (Job E N)} (h : ∀ job ∈ jobs, job.IsIdle) :
    ∀ job ∈ jobs, ¬ job.IsEncode := by
  intro job hjob
  have hidle := h job hjob
  cases job with
  | approach packet tag? next? => exact hidle.elim
  | encode packet tag? next? => exact hidle.elim
  | _ => exact id

theorem calm_errands (errands : List (Errand E N)) :
    ∀ job ∈ errands.map Job.errand, ¬ job.IsEncode := by
  intro job hjob
  obtain ⟨errand, -, rfl⟩ := List.mem_map.mp hjob
  exact id

theorem calm_tell (tags : List Tag) (result : Except Fault Unit) :
    ∀ job ∈ World.tell (E := E) (N := N) tags result, ¬ job.IsEncode := by
  intro job hjob
  obtain ⟨tag, -, rfl⟩ := List.mem_map.mp hjob
  exact id

theorem calm_bury (flush : Flush) (fault : Fault) :
    ∀ job ∈ World.bury (E := E) (N := N) flush fault, ¬ job.IsEncode :=
  List.forall_mem_append.mpr ⟨calm_tell _ _, List.forall_mem_singleton.mpr id⟩

variable [CustomPackets E]

/-! ## Good news -/

section

variable {books next : Books E} {dropped : List (Command E)} {record record' : Record}
  {job : Job E N} {jobs : List (Job E N)}

theorem Handled.untouched (h : Handled books dropped next) :
    next.completed = books.completed ∧ next.tags = books.tags ∧ next.outgoing = books.outgoing := by
  cases h with
  | same => exact ⟨rfl, rfl, rfl⟩
  | kept _ _ => exact ⟨rfl, rfl, rfl⟩
  | sent _ _ _ => exact ⟨rfl, rfl, rfl⟩
  | late _ _ => exact ⟨rfl, rfl, rfl⟩
  | shut _ => exact ⟨rfl, rfl, rfl⟩

/-- No job makes up good news. -/
theorem Worked.cheers (h : Worked books record job jobs next record') (tag : Tag) :
    (cheered next.completed ++ cheeredBy jobs).count tag
      = (cheered books.completed ++ job.cheered?.toList).count tag := by
  cases h with
  | abandon command =>
      simp only [Books.abandon, cheered_append, cheered_completions, goodNews, Option.toList_none,
        List.append_nil]
      rfl
  | @call job errands jobs next hidle hjobs hhandled =>
      obtain ⟨hcompleted, -, -⟩ := hhandled.untouched
      rw [hcompleted, cheeredBy_append, cheeredBy_errands, cheeredBy_idle hjobs,
        hidle.cheered_none]
      rfl
  | send packet tag? => rfl
  | change htag hjobs =>
      rw [cheeredBy_idle hjobs]
      rfl
  | late packet tag? next? hclosed =>
      rw [cheeredBy_cons, cheeredBy_idle (idle_resume next? _)]
      rfl
  | timely packet tag? next? hopen => rfl
  | strange packet tag? next? fault hpacket =>
      rw [cheeredBy_idle (idle_resume next? _)]
      rfl
  | approach packet tag? next? hjobs =>
      rw [cheeredBy_append, cheeredBy_idle hjobs]
      rfl
  | encoded packet tag? next? wire =>
      rw [cheeredBy_idle (idle_resume next? _)]
      rfl
  | broken packet tag? next? fault =>
      rw [cheeredBy_cons, cheeredBy_cons, cheeredBy_idle (idle_resume next? _)]
      rfl
  | complete tag? result =>
      rw [cheered_append, cheered_completions]
      exact congrArg (List.count tag) (List.append_nil _)

theorem Worked.frames (h : Worked books record job jobs next record') :
    record'.handed = record.handed ∧ record'.flushed = record.flushed
      ∧ (next.tags = books.tags ∧ next.outgoing = books.outgoing
          ∧ record'.frames = record.frames
        ∨ ∃ tag? wire, next.tags = books.tags ++ tag?.toList
          ∧ next.outgoing = books.outgoing ++ wire
          ∧ record'.frames = record.frames ++ [(tag?, wire)]) := by
  cases h with
  | abandon command => exact ⟨rfl, rfl, .inl ⟨rfl, rfl, rfl⟩⟩
  | call hidle hjobs hhandled =>
      obtain ⟨-, htags, houtgoing⟩ := hhandled.untouched
      exact ⟨rfl, rfl, .inl ⟨htags, houtgoing, rfl⟩⟩
  | send packet tag? => exact ⟨rfl, rfl, .inl ⟨rfl, rfl, rfl⟩⟩
  | change htag hjobs => exact ⟨rfl, rfl, .inl ⟨rfl, rfl, rfl⟩⟩
  | late packet tag? next? hclosed => exact ⟨rfl, rfl, .inl ⟨rfl, rfl, rfl⟩⟩
  | timely packet tag? next? hopen => exact ⟨rfl, rfl, .inl ⟨rfl, rfl, rfl⟩⟩
  | strange packet tag? next? fault hpacket => exact ⟨rfl, rfl, .inl ⟨rfl, rfl, rfl⟩⟩
  | approach packet tag? next? hjobs => exact ⟨rfl, rfl, .inl ⟨rfl, rfl, rfl⟩⟩
  | encoded packet tag? next? wire => exact ⟨rfl, rfl, .inr ⟨tag?, wire, rfl, rfl, rfl⟩⟩
  | broken packet tag? next? fault => exact ⟨rfl, rfl, .inl ⟨rfl, rfl, rfl⟩⟩
  | complete tag? result => exact ⟨rfl, rfl, .inl ⟨rfl, rfl, rfl⟩⟩

end

def bytesOf (frames : List (Option Tag × Bytes)) : Bytes :=
  (frames.map Prod.snd).flatten

/-- The frames that a flush has got rid of. -/
def Record.sure (record : Record) : List (Option Tag × Bytes) :=
  record.frames.take record.flushed

@[simp] theorem bytesOf_append (frames more : List (Option Tag × Bytes)) :
    bytesOf (frames ++ more) = bytesOf frames ++ bytesOf more := by
  rw [bytesOf, List.map_append, List.flatten_append]
  rfl

namespace Ledger

/-- There is a flushed frame behind all good news, and a frame behind everybody who waits for a
flush. -/
structure IsBacked (ledger : Ledger E N) : Prop where
  bytes : ledger.record.handed ++ ledger.books.outgoing = bytesOf ledger.record.frames
  flushed : ledger.record.flushed ≤ ledger.record.frames.length
  gone : bytesOf ledger.record.sure <+: ledger.record.handed
  told : ∀ tag, (cheered ledger.books.completed ++ cheeredBy ledger.jobs).count tag
    ≤ (tagsOn ledger.record.sure).count tag
  hoped : ∀ tag, (cheered ledger.books.completed ++ cheeredBy ledger.jobs ++ ledger.books.tags
      ++ waitingFor ledger.sequel? ledger.books.activity).count tag
    ≤ (tagsOn ledger.record.frames).count tag

variable {ledger next : Ledger E N}

/-- The bytes of all frames go to the transport in order. -/
theorem IsBacked.hand (h : ledger.IsBacked) (count : Nat) :
    IsBacked { ledger with
      books := { ledger.books with outgoing := ledger.books.outgoing.drop count }
      record := ledger.record.hand (ledger.books.outgoing.take count) } where
  bytes := by
    rw [Record.hand, List.append_assoc, List.take_append_drop]
    exact h.bytes
  flushed := h.flushed
  gone := h.gone.trans (List.prefix_append _ _)
  told := h.told
  hoped := h.hoped

theorem IsBacked.same (h : ledger.IsBacked) (hframes : next.record.frames = ledger.record.frames)
    (hhanded : next.record.handed = ledger.record.handed)
    (hflushed : next.record.flushed = ledger.record.flushed)
    (houtgoing : next.books.outgoing = ledger.books.outgoing)
    (htold : ∀ tag, (cheered next.books.completed ++ cheeredBy next.jobs).count tag
      = (cheered ledger.books.completed ++ cheeredBy ledger.jobs).count tag)
    (hwait : ∀ tag, (next.books.tags ++ waitingFor next.sequel? next.books.activity).count tag
      ≤ (ledger.books.tags ++ waitingFor ledger.sequel? ledger.books.activity).count tag) :
    next.IsBacked := by
  have hsure : next.record.sure = ledger.record.sure := by
    rw [Record.sure, Record.sure, hframes, hflushed]
  constructor
  · rw [hhanded, houtgoing, hframes]
    exact h.bytes
  · rw [hflushed, hframes]
    exact h.flushed
  · rw [hsure, hhanded]
    exact h.gone
  · intro tag
    rw [hsure, htold]
    exact h.told tag
  · intro tag
    have hhoped := h.hoped tag
    have htold := htold tag
    have hwait := hwait tag
    rw [hframes]
    simp only [List.count_append] at hhoped htold hwait ⊢
    omega

theorem tagsOn_singleton (tag? : Option Tag) (wire : Bytes) :
    tagsOn [(tag?, wire)] = tag?.toList := by
  cases tag? with
  | none => rfl
  | some tag => rfl

theorem IsBacked.framed (h : ledger.IsBacked) {tag? : Option Tag} {wire : Bytes}
    (hframes : next.record.frames = ledger.record.frames ++ [(tag?, wire)])
    (hhanded : next.record.handed = ledger.record.handed)
    (hflushed : next.record.flushed = ledger.record.flushed)
    (houtgoing : next.books.outgoing = ledger.books.outgoing ++ wire)
    (htags : next.books.tags = ledger.books.tags ++ tag?.toList)
    (hplace : waitingFor next.sequel? next.books.activity
      = waitingFor ledger.sequel? ledger.books.activity)
    (htold : ∀ tag, (cheered next.books.completed ++ cheeredBy next.jobs).count tag
      = (cheered ledger.books.completed ++ cheeredBy ledger.jobs).count tag) :
    next.IsBacked := by
  -- The new frame is behind those that were flushed.
  have hsure : next.record.sure = ledger.record.sure := by
    rw [Record.sure, hframes, hflushed, List.take_append_of_le_length h.flushed]
    rfl
  constructor
  · rw [hhanded, houtgoing, hframes, bytesOf_append, ← h.bytes, List.append_assoc]
    simp only [bytesOf, List.map_cons, List.map_nil, List.flatten_cons, List.flatten_nil,
      List.append_nil]
  · rw [hflushed, hframes, List.length_append]
    exact Nat.le_trans h.flushed (Nat.le_add_right _ _)
  · rw [hsure, hhanded]
    exact h.gone
  · intro tag
    rw [hsure, htold]
    exact h.told tag
  · intro tag
    have hhoped := h.hoped tag
    have htold := htold tag
    rw [htags, hframes, tagsOn_append, tagsOn_singleton, hplace]
    simp only [List.count_append] at hhoped htold ⊢
    omega

theorem IsBacked.worked (h : ledger.IsBacked) {job : Job E N} {jobs rest : List (Job E N)}
    {books : Books E} {record : Record} (hjobs : ledger.jobs = job :: rest)
    (hworked : Worked ledger.books ledger.record job jobs books record) :
    IsBacked { ledger with books, jobs := jobs ++ rest, record } := by
  have htold : ∀ tag, (cheered books.completed ++ cheeredBy (jobs ++ rest)).count tag
      = (cheered ledger.books.completed ++ cheeredBy ledger.jobs).count tag := by
    intro tag
    have hcheers := hworked.cheers tag
    rw [hjobs, cheeredBy_append, cheeredBy_cons]
    simp only [List.count_append] at hcheers ⊢
    omega
  have hplace : waitingFor ledger.sequel? books.activity
      = waitingFor ledger.sequel? ledger.books.activity := by
    rw [hworked.keeps.activity_eq]
  obtain ⟨hhanded, hflushed, hmore⟩ := hworked.frames
  rcases hmore with ⟨htags, houtgoing, hframes⟩ | ⟨tag?, wire, htags, houtgoing, hframes⟩
  · refine h.same hframes hhanded hflushed houtgoing htold fun tag => Nat.le_of_eq ?_
    dsimp only
    rw [htags, hplace]
  · exact h.framed hframes hhanded hflushed houtgoing htags hplace htold

theorem IsBacked.settleDone (h : ledger.IsBacked) {flush : Flush} (hidle : ledger.IsIdle)
    (hflushing : ledger.books.activity = .flushing flush) (hempty : ledger.books.outgoing = []) :
    IsBacked (N := N) { ledger with
      record := ledger.record.flush
      jobs := World.tell flush.tags (.ok ())
      sequel? := some (.goOn flush.afterwards) } := by
  have hsure : ledger.record.flush.sure = ledger.record.frames := List.take_length
  have hbytes : ledger.record.handed = bytesOf ledger.record.frames := by
    rw [← h.bytes, hempty, List.append_nil]
  have hhoped : ∀ tag, (cheered ledger.books.completed ++ flush.tags ++ ledger.books.tags).count tag
      ≤ (tagsOn ledger.record.frames).count tag := by
    intro tag
    have hhoped := h.hoped tag
    rw [hidle.1, hidle.2, hflushing] at hhoped
    simp only [waitingFor, List.count_append, cheeredBy, List.filterMap_nil, List.count_nil]
      at hhoped ⊢
    omega
  constructor
  · exact h.bytes
  · exact Nat.le_refl _
  · rw [hsure, ← hbytes]
    exact List.prefix_rfl
  · intro tag
    have hhoped := hhoped tag
    rw [hsure, cheeredBy_tell]
    simp only [List.count_append] at hhoped ⊢
    omega
  · intro tag
    have hhoped := hhoped tag
    dsimp only
    rw [cheeredBy_tell]
    simp only [waitingFor, List.append_nil]
    exact hhoped

theorem IsBacked.entry (h : ledger.IsBacked) (hpaced : ledger.Paced)
    (hentry : ledger.Entry next) : next.IsBacked := by
  cases hentry with
  | stay => exact h
  | call hhandled hdropping =>
      obtain ⟨hcompleted, htags, houtgoing⟩ := hhandled.untouched
      refine h.same rfl rfl rfl houtgoing (fun tag => ?_) fun tag => ?_
      · rw [hcompleted]
      · refine Nat.le_of_eq ?_
        rw [htags, hhandled.keeps.activity_eq]
  | abandon hdropping =>
      refine h.same rfl rfl rfl rfl (fun tag => ?_) fun tag => Nat.le_refl _
      simp only [Books.abandon, cheered_append, cheered_completions, goodNews, Option.toList_none,
        List.append_nil]
  | attach hdetached =>
      have hsequel := hpaced.resting hdetached True.intro
      refine h.same rfl rfl rfl rfl (fun tag => rfl) fun tag => ?_
      rw [hdetached, hsequel]
      exact Nat.le_refl _
  | job hjobs hworked => exact h.worked hjobs hworked
  | start hidle hstarting hpreparing =>
      refine h.same rfl rfl rfl rfl (fun tag => ?_) fun tag => ?_
      · rw [hidle.1, cheeredBy_executes]
        rfl
      · rw [hidle.2, hstarting]
        exact Nat.le_refl _
  | @execute command channel jobs next hidle hwaiting hchannel hworked =>
      have htaken : IsBacked { ledger with
          books := { ledger.books with channel }
          jobs := [Job.execute (N := N) command]
          sequel? := some (.flush .wait) } := by
        refine h.same rfl rfl rfl rfl (fun tag => ?_) fun tag => ?_
        · rw [hidle.1]
          rfl
        · rw [hidle.2, hwaiting]
          exact Nat.le_refl _
      have hnext := htaken.worked rfl hworked
      rw [List.append_nil] at hnext
      exact hnext
  | assign hidle hwaiting hjobs =>
      refine h.same rfl rfl rfl rfl (fun tag => ?_) fun tag => ?_
      · rw [hidle.1, cheeredBy_idle hjobs]
        rfl
      · rw [hidle.2, hwaiting]
        exact Nat.le_refl _
  | stop reason hidle hwaiting hclosed =>
      refine h.same rfl rfl rfl rfl (fun tag => ?_) fun tag => ?_
      · rw [hidle.1]
        rfl
      · rw [hidle.2, hwaiting]
        exact Nat.le_refl _
  | hand count => exact h.hand count
  | settleDone hidle hflushing hempty => exact h.settleDone hidle hflushing hempty
  | settleFailed fault hidle hflushing hdropped =>
      refine h.same rfl rfl rfl rfl (fun tag => ?_) fun tag => ?_
      · rw [hidle.1, cheeredBy_append, cheeredBy_errands, cheeredBy_bury]
        rfl
      · rw [hidle.2, hflushing, List.count_append, List.count_append]
        exact Nat.add_le_add_left (Nat.zero_le _) _
  | flush hdue htags hafterwards =>
      refine h.same rfl rfl rfl rfl (fun tag => rfl) fun tag => ?_
      rw [waiting_of_due hdue, List.append_nil]
      simp only [waitingFor, htags, List.nil_append]
      exact Nat.le_refl _
  | proceed hthrough hleads htimer =>
      refine h.same rfl rfl rfl rfl (fun tag => rfl) fun tag => Nat.le_of_eq ?_
      dsimp only
      rw [waiting_of_through hthrough, hleads.waiting_nil]
  | crash hsets =>
      exact h.same rfl rfl rfl rfl (fun tag => rfl) fun tag => Nat.zero_le _
  | drop hjobs hsequel hchannel =>
      refine h.same rfl rfl rfl rfl (fun tag => ?_) fun tag => Nat.le_refl _
      simp only [Books.abandon, cheered_append, cheered_completions, goodNews, Option.toList_none,
        List.append_nil]
  | finish hidle hshutting =>
      refine h.same rfl rfl rfl rfl (fun tag => rfl) fun tag => ?_
      rw [hidle.2, hshutting]
      exact Nat.le_refl _

end Ledger

/-! ## The end -/

section

variable {books next : Books E} {dropped : List (Command E)} {record record' : Record}
  {job : Job E N} {jobs : List (Job E N)}

theorem Handled.channel_eq (h : Handled books dropped next) (hpassive : books.lifecycle ≠ .active) :
    next.channel = books.channel := by
  cases h with
  | same => rfl
  | kept _ _ => rfl
  | sent _ hactive _ => exact (hpassive hactive).elim
  | late _ _ => rfl
  | shut _ => rfl

theorem Worked.calm_unless (h : Worked books record job jobs next record')
    (hwrite : job.IsWrite → books.lifecycle = .closed) (hjob : ¬ job.IsEncode) :
    ∀ left ∈ jobs, ¬ left.IsEncode := by
  cases h with
  | abandon command => exact List.forall_mem_nil _
  | call hidle hjobs hhandled =>
      exact List.forall_mem_append.mpr ⟨calm_errands _, calm_idle hjobs⟩
  | send packet tag? => exact List.forall_mem_singleton.mpr id
  | change htag hjobs => exact calm_idle hjobs
  | late packet tag? next? hlate =>
      exact List.forall_mem_cons.mpr ⟨id, calm_idle (idle_resume next? _)⟩
  | timely packet tag? next? hopen => exact (hopen (hwrite True.intro)).elim
  | strange packet tag? next? fault hpacket => exact (hjob True.intro).elim
  | approach packet tag? next? hjobs => exact (hjob True.intro).elim
  | encoded packet tag? next? wire => exact (hjob True.intro).elim
  | broken packet tag? next? fault => exact (hjob True.intro).elim
  | complete tag? result => exact List.forall_mem_nil _

/-- A closed session writes nothing more. -/
theorem Worked.calm (h : Worked books record job jobs next record')
    (hclosed : books.lifecycle = .closed) (hjob : ¬ job.IsEncode) :
    (∀ job ∈ jobs, ¬ job.IsEncode) ∧ next.channel = books.channel ∧ next.tags = books.tags := by
  refine ⟨h.calm_unless (fun _ => hclosed) hjob, ?_⟩
  cases h with
  | call hidle hjobs hhandled =>
      have hpassive : books.lifecycle ≠ .active := by
        rw [hclosed]
        exact Lifecycle.noConfusion
      obtain ⟨-, htags, -⟩ := hhandled.untouched
      exact ⟨hhandled.channel_eq hpassive, htags⟩
  | encoded packet tag? next? wire => exact (hjob True.intro).elim
  | _ => exact ⟨rfl, rfl⟩

end

namespace Ledger

variable {ledger next : Ledger E N}

/-- At the end nothing is written, and nothing is left.  A session without a transport has nothing
either. -/
structure IsSwept (ledger : Ledger E N) : Prop where
  calm : ledger.IsEnding → ∀ job ∈ ledger.jobs, ¬ job.IsEncode
  swept : ledger.IsEnding → ledger.sequel? ≠ some .dropLeft →
    ledger.books.channel = [] ∧ ledger.books.tags = []
  unused : ledger.books.activity = .detached → ledger.books.channel = [] ∧ ledger.books.tags = []

theorem ending_congr (hsequel : next.sequel? = ledger.sequel?)
    (hactivity : next.books.activity = ledger.books.activity) :
    next.IsEnding ↔ ledger.IsEnding := by
  rw [IsEnding, IsEnding, hsequel, hactivity]

theorem IsSwept.keeps (h : ledger.IsSwept) (hsequel : next.sequel? = ledger.sequel?)
    (hactivity : next.books.activity = ledger.books.activity)
    (hcalm : ledger.IsEnding → ∀ job ∈ next.jobs, ¬ job.IsEncode)
    (hkeep : ledger.IsEnding ∨ ledger.books.activity = .detached →
      next.books.channel = ledger.books.channel ∧ next.books.tags = ledger.books.tags) :
    next.IsSwept where
  calm hending := hcalm ((ending_congr hsequel hactivity).mp hending)
  swept hending hstays := by
    have hending := (ending_congr hsequel hactivity).mp hending
    obtain ⟨hchannel, htags⟩ := hkeep (.inl hending)
    rw [hchannel, htags]
    exact h.swept hending (hsequel ▸ hstays)
  unused hdetached := by
    rw [hactivity] at hdetached
    obtain ⟨hchannel, htags⟩ := hkeep (.inr hdetached)
    rw [hchannel, htags]
    exact h.unused hdetached

theorem IsSwept.begun (hgoing : ¬ next.IsEnding) {activity : Activity}
    (hactivity : next.books.activity = activity) (hattached : activity ≠ .detached) :
    next.IsSwept where
  calm hending := (hgoing hending).elim
  swept hending := (hgoing hending).elim
  unused hdetached := (hattached (hactivity.symm.trans hdetached)).elim

/-- A flush is settled, and the last one ends with nothing left. -/
theorem IsSwept.settled (h : ledger.IsSwept) {flush : Flush} (hidle : ledger.IsIdle)
    (hflushing : ledger.books.activity = .flushing flush)
    (hsequel : next.sequel? = some (.goOn flush.afterwards))
    (hactivity : next.books.activity = ledger.books.activity)
    (hchannel : next.books.channel = ledger.books.channel)
    (htags : next.books.tags = ledger.books.tags)
    (hcalm : ∀ job ∈ next.jobs, ¬ job.IsEncode) : next.IsSwept where
  calm _ := hcalm
  swept hending _ := by
    rw [IsEnding, hsequel] at hending
    rw [hchannel, htags]
    refine h.swept (isEnding_of_activity hidle.2 hflushing hending) ?_
    rw [hidle.2]
    rintro ⟨⟩
  unused hdetached := by
    rw [hactivity, hflushing] at hdetached
    cases hdetached

theorem IsSwept.of_sequel (h : ledger.IsSwept) {sequel : Sequel}
    (hsequel : ledger.sequel? = some sequel) (hlast : sequel.IsLast)
    (hstays : some sequel ≠ some .dropLeft) :
    ledger.books.channel = [] ∧ ledger.books.tags = [] := by
  rw [← hsequel] at hstays
  exact h.swept (isEnding_of_sequel hsequel hlast) hstays

theorem IsSwept.channel_of_last (h : ledger.IsSwept) (hdue : ledger.IsDue .shutdown) :
    ledger.books.channel = [] := by
  obtain ⟨-, hsequel | ⟨-, hchannel, -⟩⟩ := hdue
  · exact (h.of_sequel hsequel rfl (by rintro ⟨⟩)).1
  · exact hchannel

theorem IsSwept.of_through (h : ledger.IsSwept) (hthrough : ledger.IsThrough .shutdown) :
    ledger.books.channel = [] ∧ ledger.books.tags = [] := by
  rcases hthrough with ⟨hdue, htags⟩ | ⟨-, hsequel⟩ | ⟨-, -, -, hfirst⟩
  · exact ⟨h.channel_of_last hdue, htags⟩
  · exact h.of_sequel hsequel rfl (by rintro ⟨⟩)
  · cases hfirst

theorem IsSwept.paused (hjobs : next.jobs = [])
    (hlast : next.books.activity.IsLast → next.books.channel = [] ∧ next.books.tags = [])
    (hsequel : next.sequel? = none) (hattached : next.books.activity ≠ .detached) :
    next.IsSwept where
  calm _ := by
    rw [hjobs]
    exact List.forall_mem_nil _
  swept hending _ := by
    rw [IsEnding, hsequel] at hending
    exact hlast hending
  unused hdetached := (hattached hdetached).elim

theorem IsSwept.entry (h : ledger.IsSwept) (hpaced : ledger.Paced)
    (hentry : ledger.Entry next) : next.IsSwept := by
  cases hentry with
  | stay => exact h
  | call hhandled hdropping =>
      refine h.keeps rfl hhandled.keeps.activity_eq h.calm fun hwhere => ?_
      obtain ⟨-, htags, -⟩ := hhandled.untouched
      refine ⟨hhandled.channel_eq ?_, htags⟩
      rcases hwhere with hending | hdetached
      · rw [hpaced.ending hending]
        exact Lifecycle.noConfusion
      · exact hpaced.detached hdetached
  | abandon hdropping => exact h.keeps rfl rfl h.calm fun _ => ⟨rfl, rfl⟩
  | attach hdetached =>
      have hsequel := hpaced.resting hdetached True.intro
      refine .begun ?_ rfl Activity.noConfusion
      rw [IsEnding]
      dsimp only
      rw [hsequel]
      exact id
  | job hjobs hworked =>
      have hcalm := fun hending => hworked.calm (hpaced.ending hending)
        (h.calm hending _ (hjobs ▸ List.mem_cons_self))
      refine h.keeps rfl hworked.keeps.activity_eq (fun hending => ?_) fun hwhere => ?_
      · have hrest := h.calm hending
        rw [hjobs] at hrest
        exact List.forall_mem_append.mpr
          ⟨(hcalm hending).1, (List.forall_mem_cons.mp hrest).2⟩
      · rcases hwhere with hending | hdetached
        · exact (hcalm hending).2
        · have hnone := hpaced.idle (hpaced.resting hdetached True.intro)
          rw [hjobs] at hnone
          cases hnone
  | start hidle hstarting hpreparing =>
      exact .begun Afterwards.noConfusion hstarting Activity.noConfusion
  | execute hidle hwaiting hchannel hworked =>
      have hstays := hworked.keeps.activity_eq.trans hwaiting
      exact .begun Afterwards.noConfusion hstays Activity.noConfusion
  | assign hidle hwaiting hjobs =>
      exact .begun Afterwards.noConfusion hwaiting Activity.noConfusion
  | stop reason hidle hwaiting hclosed =>
      refine ⟨fun _ => List.forall_mem_singleton.mpr id, fun _ hstays => (hstays rfl).elim, ?_⟩
      intro hdetached
      rw [hwaiting] at hdetached
      cases hdetached
  | hand count => exact h.keeps rfl rfl h.calm fun _ => ⟨rfl, rfl⟩
  | settleDone hidle hflushing hempty =>
      exact h.settled hidle hflushing rfl rfl rfl rfl (calm_tell _ _)
  | settleFailed fault hidle hflushing hdropped =>
      refine h.settled hidle hflushing rfl rfl rfl rfl ?_
      exact List.forall_mem_append.mpr ⟨calm_errands _, calm_bury _ _⟩
  | flush hdue htags hafterwards =>
      refine .paused hdue.1 (fun hlast => ?_) rfl Activity.noConfusion
      have hshutdown : _ = Afterwards.shutdown := hafterwards.symm.trans hlast
      subst hshutdown
      exact ⟨h.channel_of_last hdue, rfl⟩
  | proceed hthrough hleads htimer =>
      have hjobs := Paced.jobs_of_through hthrough
      rcases hleads.cases with ⟨rfl, -⟩ | ⟨⟨deadline, rfl⟩, rfl⟩
      · exact .paused hjobs False.elim rfl Activity.noConfusion
      · exact .paused hjobs (fun _ => h.of_through hthrough) rfl Activity.noConfusion
  | crash hsets => exact .begun id rfl Activity.noConfusion
  | drop hjobs hsequel hchannel =>
      have hattached := Activity.ne_of_awake (hpaced.awake hsequel) .detached True.intro
      refine ⟨h.calm, fun _ hstays => (hstays hsequel).elim, fun hdetached => ?_⟩
      exact (hattached hdetached).elim
  | finish hidle hshutting =>
      refine .paused hidle.1 (fun _ => ?_) hidle.2 Activity.noConfusion
      refine h.swept (isEnding_of_activity hidle.2 hshutting True.intro) ?_
      rw [hidle.2]
      rintro ⟨⟩

/-- All that is known of a ledger.  After a crash the balance may be lost. -/
structure IsOrdered (ledger : Ledger E N) : Prop where
  paced : ledger.Paced
  accounted : ledger.IsAccounted
  sound : ledger.IsSound
  balanced : ledger.books.activity ≠ .crashed → ledger.IsBalanced
  backed : ledger.IsBacked
  swept : ledger.IsSwept

theorem IsOrdered.entry (h : ledger.IsOrdered) (hentry : ledger.Entry next)
    (hstays : ledger.books.activity = .crashed → next.books.activity = .crashed) :
    next.IsOrdered where
  paced := h.paced.entry hentry
  accounted := h.accounted.entry h.paced hentry
  sound := h.sound.entry hentry
  balanced hgoing := (h.balanced (mt hstays hgoing)).entry h.paced h.sound hentry hgoing
  backed := h.backed.entry h.paced hentry
  swept := h.swept.entry h.paced hentry

/-- A session that has ended, or was closed before it got a transport, has nobody to tell. -/
theorem IsOrdered.settled (h : ledger.IsOrdered)
    (hend : ledger.books.activity = .finished
      ∨ ledger.books.activity = .detached ∧ ledger.books.lifecycle = .closed) (tag : Tag) :
    (ledger.books.completed.map Prod.fst).count tag + (tagsOf ledger.dropping).count tag
      = (ledger.books.due ledger.record).count tag := by
  have hsequel : ledger.sequel? = none := by
    rcases hend with hfinished | ⟨hdetached, -⟩
    · exact h.paced.resting hfinished True.intro
    · exact h.paced.resting hdetached True.intro
  have hleft : (ledger.books.channel = [] ∧ ledger.books.tags = [])
      ∧ ledger.books.lifecycle = .closed := by
    rcases hend with hfinished | ⟨hdetached, hclosed⟩
    · have hending := isEnding_of_activity hsequel hfinished True.intro
      refine ⟨h.swept.swept hending ?_, h.paced.ending hending⟩
      rw [hsequel]
      rintro ⟨⟩
    · exact ⟨h.swept.unused hdetached, hclosed⟩
  have hwaiting : waitingFor ledger.sequel? ledger.books.activity = [] := by
    rcases hend with hfinished | ⟨hdetached, -⟩
    · rw [hsequel, hfinished]
      rfl
    · rw [hsequel, hdetached]
      rfl
  obtain ⟨⟨hchannel, htags⟩, hclosed⟩ := hleft
  obtain ⟨dropped, lost, late, haccounted⟩ := h.accounted
  have hqueue : ledger.books.queue = [] := by
    refine haccounted.kept ?_
    rw [hclosed]
    exact Lifecycle.noConfusion
  have hgoing : ledger.books.activity ≠ .crashed := by
    rcases hend with hfinished | ⟨hdetached, -⟩
    · rw [hfinished]
      exact Activity.noConfusion
    · rw [hdetached]
      exact Activity.noConfusion
  have hbalance := h.balanced hgoing tag
  rw [hwaiting, h.paced.idle hsequel] at hbalance
  simp only [Books.owed, hchannel, htags, hqueue, tagsOf_nil, owedBy_nil, List.append_nil,
    List.count_append] at hbalance ⊢
  exact hbalance

end Ledger

/-! ## All schedules -/

namespace World

/-- What the senders of packets were told. -/
def outcomes (world : World E N) : List (Tag × Except Fault Unit) :=
  world.session.events.filterMap Event.completed?

/-- Who was accepted, from a thread or in a program of the listener. -/
def accepted (world : World E N) : List Tag :=
  tagsOf world.submitted ++ world.record.answered

/-- Who will be told by calls that have not returned. -/
def underWay (world : World E N) : List Tag :=
  tagsOf (droppedBy world.threads.flatten)

theorem ordered_new (registry : Registry E) (listener : Listener E N) :
    (World.new registry listener).ledger.IsOrdered where
  paced := paced_new registry listener
  accounted := accounted_new registry listener
  sound := ⟨⟨List.forall_mem_nil _, List.forall_mem_nil _, List.forall_mem_nil _⟩,
    List.forall_mem_nil _⟩
  balanced _ _ := rfl
  backed := ⟨rfl, Nat.le_refl 0, List.nil_prefix, fun _ => Nat.le_refl 0, fun _ => Nat.le_refl 0⟩
  swept := ⟨fun _ => List.forall_mem_nil _, fun _ _ => ⟨rfl, rfl⟩, fun _ => ⟨rfl, rfl⟩⟩

theorem run_ordered (registry : Registry E) (listener : Listener E N) (moves : List (Move E N)) :
    ((World.new registry listener).run moves).ledger.IsOrdered :=
  run_preserves (P := fun world : World E N => world.ledger.IsOrdered) moves
    (fun move _ world h => h.entry (world.step_entry move) (world.stays_crashed h.paced move))
    _ (ordered_new registry listener)

/-- Who has a right to be told: those who were accepted, and those whose packets could not be
encoded. -/
theorem count_due (world : World E N) (tag : Tag) :
    (world.ledger.books.due world.ledger.record).count tag
      = world.accepted.count tag + world.record.refused.count tag :=
  List.count_append

theorem finished_of_over {world : World E N} (hgoing : world.session.activity ≠ .crashed)
    (hover : world.session.activity.isOver) : world.session.activity = .finished := by
  cases hactivity : world.session.activity with
  | finished => rfl
  | crashed => exact (hgoing hactivity).elim
  | _ =>
      rw [hactivity] at hover
      cases hover

/-- When a session has ended, or was closed and never got a transport, everybody was told or is
about to be told by a call that has not returned. -/
theorem run_settled (registry : Registry E) (listener : Listener E N) (moves : List (Move E N)) :
    let world := (World.new registry listener).run moves
    world.session.activity ≠ .crashed →
    world.session.activity.isOver ∨ world.session.activity = .detached ∧ world.session.isClosed →
    ∀ tag, (world.outcomes.map Prod.fst).count tag + world.underWay.count tag
      = world.accepted.count tag + world.record.refused.count tag := by
  intro world hgoing hend tag
  have h : world.ledger.IsOrdered := run_ordered registry listener moves
  rw [← world.count_due]
  refine h.settled (hend.imp (fun hover => ?_) fun ⟨hdetached, hclosed⟩ => ?_) tag
  · exact finished_of_over hgoing hover
  · exact ⟨hdetached, Session.isClosed_iff.mp hclosed⟩

/-- What a flush has got rid of are the frames of a moment when all was flushed, and all of their
bytes had been handed over by then. -/
theorem run_sure (registry : Registry E) (listener : Listener E N) (moves : List (Move E N)) :
    let start := World.new registry listener
    let world := start.run moves
    world.record.sure = [] ∨ ∃ before after, moves = before ++ after ∧ (start.run before).IsPassedOn
      ∧ (start.run before).record.frames = world.record.sure
      ∧ (start.run before).record.handed = bytesOf world.record.sure := by
  intro start world
  rcases run_flushed moves start with hnone | ⟨before, after, rfl, hflushed, hcount⟩
  · left
    rw [Record.sure, hnone]
    rfl
  · right
    -- Frames that come later stand behind those of that moment.
    have hlater : (start.run before).record.frames <+: world.record.frames := by
      have hframes := (start.run before).run_frames after
      rw [← run_append] at hframes
      exact hframes
    have hsure : world.record.sure = (start.run before).record.frames := by
      rw [Record.sure, hcount]
      exact (List.prefix_iff_eq_take.mp hlater).symm
    have hbytes := (run_ordered registry listener before).backed.bytes
    have hempty : (start.run before).ledger.books.outgoing = [] := hflushed.1
    rw [hempty, List.append_nil] at hbytes
    refine ⟨before, after, rfl, hflushed, hsure.symm, ?_⟩
    rw [hsure]
    exact hbytes

/-- Under any schedule in which the session can set its timers, everybody whose packet was accepted
is told once what became of it: when the session has ended, or was closed and never got a transport,
nobody is left but those whom a call that has not returned is about to tell.  Before, nobody is told
twice.  Those in `refused` were told too, though their packets were not accepted.  What they are
told is that all is well or that the session is closed, and that all is well only of frames whose
bytes were all handed to the transport when a flush succeeded; and what is said to be handed is
what the transport has taken of the session. -/
theorem senders_told_once (registry : Registry E) (listener : Listener E N)
    (moves : List (Move E N)) (htimers : (World.new registry listener).SetsTimers moves) :
    let start := World.new registry listener
    let world := start.run moves
    (world.session.activity.isOver ∨ world.session.activity = .detached ∧ world.session.isClosed →
        ∀ tag, (world.outcomes.map Prod.fst).count tag + world.underWay.count tag
          = world.accepted.count tag + world.record.refused.count tag)
      ∧ (∀ tag, (world.outcomes.map Prod.fst).count tag
          ≤ world.accepted.count tag + world.record.refused.count tag)
      ∧ (∀ outcome ∈ world.outcomes, outcome.2 = .ok () ∨ outcome.2 = .error .closed)
      ∧ (∀ tag, (cheered world.outcomes).count tag ≤ (tagsOn world.record.sure).count tag)
      ∧ (world.record.sure = [] ∨ ∃ before after, moves = before ++ after
          ∧ (start.run before).IsPassedOn ∧ (start.run before).record.frames = world.record.sure
          ∧ (start.run before).record.handed = bytesOf world.record.sure)
      ∧ bytesOf world.record.sure <+: world.record.handed
      ∧ world.record.handed = (start.gather taken? moves).flatten := by
  intro start world
  have hgoing : world.session.activity ≠ .crashed := (setsTimers_iff registry listener moves).mp htimers
  have h : world.ledger.IsOrdered := run_ordered registry listener moves
  refine ⟨run_settled registry listener moves hgoing, ?_, h.sound.books.told, ?_,
    run_sure registry listener moves, h.backed.gone, run_handed start moves⟩
  · intro tag
    have htold : (world.ledger.books.completed.map Prod.fst).count tag
        ≤ (world.ledger.books.due world.ledger.record).count tag := by
      have hbalance := h.balanced hgoing tag
      simp only [Books.owed, List.count_append] at hbalance
      omega
    rw [← world.count_due]
    exact htold
  · intro tag
    have htold := h.backed.told tag
    rw [List.count_append] at htold
    exact Nat.le_trans (Nat.le_add_right _ _) htold

/-- A thread that sends one packet. -/
def sending (tag : Tag) : Hook Empty Unit :=
  .call (.send (.core .statusRequest) (some tag)) fun _ => .done

/-- A thread that closes the session. -/
def closing : Hook Empty Unit :=
  .call (.close "done" false) fun _ => .done

/-- A packet sent before the transport comes, and one whose sender loses the race against a close:
the session dies while the packet is in the channel. -/
def racing : List (Move Empty Unit) :=
  [.spawn (sending "first"), .thread 0, .attach (.standard .client) (.new 64)]
    ++ List.replicate 15 (.drive .input)
    ++ [.spawn (sending "second"), .thread 1, .spawn closing, .thread 2, .drive .command]
    ++ List.replicate 9 (.drive .stop)

theorem setsTimers_racing : (World.new (.standard .client) Listener.idle).SetsTimers racing :=
  (setsTimers_iff _ _ _).mpr (by decide +kernel)

theorem senders_told_once_of_racing :
    let world := (World.new (.standard .client) Listener.idle).run racing
    (World.new (.standard .client) Listener.idle).SetsTimers racing
      ∧ world.session.activity.isOver
      ∧ world.outcomes.map Prod.fst = ["first", "second"]
      ∧ tagsOn world.record.sure = ["first"]
      ∧ (∀ tag, ["first", "second"].count tag + world.underWay.count tag
          = world.accepted.count tag + world.record.refused.count tag)
      ∧ (∀ outcome ∈ world.outcomes, outcome.2 = .ok () ∨ outcome.2 = .error .closed)
      ∧ (∀ tag, (cheered world.outcomes).count tag ≤ ["first"].count tag)
      ∧ bytesOf world.record.sure <+: world.record.handed
      ∧ world.record.handed
        = ((World.new (.standard .client) Listener.idle).gather taken? racing).flatten := by
  intro world
  have hover : world.session.activity.isOver = true := by decide +kernel
  have htold : world.outcomes.map Prod.fst = ["first", "second"] := by decide +kernel
  have hsure : tagsOn world.record.sure = ["first"] := by decide +kernel
  obtain ⟨hsettled, -, hkinds, hcheered, -, hgone, hhanded⟩ :=
    senders_told_once (.standard .client) Listener.idle racing setsTimers_racing
  refine ⟨setsTimers_racing, hover, htold, hsure, ?_, hkinds, ?_, hgone, hhanded⟩
  · intro tag
    have hcount := hsettled (.inl hover) tag
    rw [htold] at hcount
    exact hcount
  · intro tag
    have hcount := hcheered tag
    rw [hsure] at hcount
    exact hcount

/-- A packet is sent, a thread closes the session and does not go on, and a transport comes. -/
def outrunning : List (Move Empty Unit) :=
  [.spawn (sending "first"), .thread 0, .spawn closing, .thread 1,
      .attach (.standard .client) (.new 64)]
    ++ List.replicate 5 (.drive .stop)

/-- A packet is sent to a session that is about to crash, since a timer of this interval cannot be
set, and the session is closed. -/
def crashing (keepaliveInterval : Span) : List (Move Empty Unit) :=
  [.spawn (sending "first"), .thread 0,
      .attach { SessionOptions.standard .client with keepaliveInterval } (.new 64),
      .drive .input, .spawn (sending "lost"), .thread 1]
    ++ List.replicate 12 (.drive .input)
    ++ [.spawn closing] ++ List.replicate 5 (.thread 2)

/-- A session ends before the thread that closed it has told the sender of a packet.  And a session
that cannot set its timer, though the interval is not empty, loses a sender for good. -/
theorem untold_at_the_end :
    (let start := World.new (.standard .client) Listener.idle
      let world := start.run outrunning
      world.session.isClosed ∧ world.session.activity = .finished
        ∧ world.session.options.keepaliveInterval.nanos ≠ 0
        ∧ world.accepted = ["first"] ∧ world.outcomes.map Prod.fst = [])
      ∧ (let endless := crashing (.ofMillis (2 ^ 64 * 999))
        let world := (World.new (.standard .client) Listener.idle).run endless
        world.session.isClosed ∧ world.session.activity.isOver
          ∧ world.session.options.keepaliveInterval.nanos ≠ 0
          ∧ world.accepted = ["first", "lost"] ∧ world.underWay = []
          ∧ world.outcomes.map Prod.fst = ["first"]) := by
  decide +kernel

end World
end PhaseWire
