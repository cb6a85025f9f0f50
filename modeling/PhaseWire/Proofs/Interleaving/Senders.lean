import PhaseWire.Proofs.Interleaving.Commands

/-
# Who waits for a packet

Who waits for a packet is in one of a few hands: the queue, the channel, a
job, the next flush, a flush under way, or a call that is about to drop
the packet.  A hand only gives a tag to another one, or settles it.  So the
number of those that are settled or held is always the number of those
that were accepted (`IsBalanced`).

A packet could get lost where it turns out to be of no registered type
only when it is written.  `IsSound` is that this cannot happen, because
nobody can ask for such a packet.
-/

namespace PhaseWire

variable {E N : Type}

/-! ## Who waits -/

def tagsOf (commands : List (Command E)) : List Tag :=
  commands.filterMap Command.tag?

/-- Who will hear from jobs. -/
def owedBy (jobs : List (Job E N)) : List Tag :=
  jobs.filterMap Job.owed?

/-- Who will hear good news from jobs. -/
def cheeredBy (jobs : List (Job E N)) : List Tag :=
  jobs.filterMap Job.cheered?

def cheered (outcomes : List (Tag × Except Fault Unit)) : List Tag :=
  outcomes.filterMap fun outcome => goodNews (some outcome.1) outcome.2

def tagsOn (frames : List (Option Tag × Bytes)) : List Tag :=
  frames.filterMap Prod.fst

@[simp] theorem tagsOf_append (commands more : List (Command E)) :
    tagsOf (commands ++ more) = tagsOf commands ++ tagsOf more :=
  List.filterMap_append

@[simp] theorem owedBy_append (jobs more : List (Job E N)) :
    owedBy (jobs ++ more) = owedBy jobs ++ owedBy more :=
  List.filterMap_append

@[simp] theorem cheeredBy_append (jobs more : List (Job E N)) :
    cheeredBy (jobs ++ more) = cheeredBy jobs ++ cheeredBy more :=
  List.filterMap_append

@[simp] theorem cheered_append (outcomes more : List (Tag × Except Fault Unit)) :
    cheered (outcomes ++ more) = cheered outcomes ++ cheered more :=
  List.filterMap_append

@[simp] theorem tagsOn_append (frames more : List (Option Tag × Bytes)) :
    tagsOn (frames ++ more) = tagsOn frames ++ tagsOn more :=
  List.filterMap_append

@[simp] theorem tagsOf_nil : tagsOf ([] : List (Command E)) = [] := rfl

@[simp] theorem owedBy_nil : owedBy ([] : List (Job E N)) = [] := rfl

theorem count_tagsOf_perm {commands more : List (Command E)} (h : commands.Perm more) (tag : Tag) :
    (tagsOf commands).count tag = (tagsOf more).count tag :=
  (h.filterMap Command.tag?).count_eq tag

theorem tagsOf_cons (command : Command E) (rest : List (Command E)) :
    tagsOf (command :: rest) = command.tag?.toList ++ tagsOf rest := by
  rw [tagsOf, List.filterMap_cons]
  cases command.tag? with
  | none => rfl
  | some tag => rfl

theorem owedBy_cons (job : Job E N) (rest : List (Job E N)) :
    owedBy (job :: rest) = job.owed?.toList ++ owedBy rest := by
  rw [owedBy, List.filterMap_cons]
  cases job.owed? with
  | none => rfl
  | some tag => rfl

theorem cheeredBy_cons (job : Job E N) (rest : List (Job E N)) :
    cheeredBy (job :: rest) = job.cheered?.toList ++ cheeredBy rest := by
  rw [cheeredBy, List.filterMap_cons]
  cases job.cheered? with
  | none => rfl
  | some tag => rfl

@[simp] theorem tags_completions (tag? : Option Tag) (result : Except Fault Unit) :
    (completions tag? result).map Prod.fst = tag?.toList := by
  cases tag? with
  | none => rfl
  | some tag => rfl

@[simp] theorem cheered_completions (tag? : Option Tag) (result : Except Fault Unit) :
    cheered (completions tag? result) = (goodNews tag? result).toList := by
  cases result with
  | ok _ =>
      cases tag? with
      | none => rfl
      | some tag => rfl
  | error fault =>
      cases tag? with
      | none => rfl
      | some tag => rfl

theorem Job.IsIdle.owed_none {job : Job E N} (h : job.IsIdle) : job.owed? = none := by
  cases job with
  | errand task =>
      have hdropped : task.dropped? = none := h
      rw [owed?, hdropped]
      rfl
  | execute command => exact h.elim
  | write packet tag? next? =>
      cases next? with
      | none => exact h rfl
      | some next => rfl
  | approach packet tag? next? => exact h.elim
  | encode packet tag? next? => exact h.elim
  | complete tag? result => exact h.elim
  | _ => rfl

theorem owedBy_idle {jobs : List (Job E N)} (h : ∀ job ∈ jobs, job.IsIdle) : owedBy jobs = [] :=
  List.filterMap_eq_nil_iff.mpr fun job hjob => (h job hjob).owed_none

theorem Job.IsIdle.cheered_none {job : Job E N} (h : job.IsIdle) : job.cheered? = none := by
  cases job with
  | complete tag? result => exact h.elim
  | _ => rfl

theorem cheeredBy_idle {jobs : List (Job E N)} (h : ∀ job ∈ jobs, job.IsIdle) :
    cheeredBy jobs = [] :=
  List.filterMap_eq_nil_iff.mpr fun job hjob => (h job hjob).cheered_none

theorem owedBy_errands (errands : List (Errand E N)) :
    owedBy (errands.map Job.errand) = tagsOf (droppedBy errands) := by
  rw [owedBy, tagsOf, droppedBy, List.filterMap_map, List.filterMap_filterMap]
  rfl

theorem cheeredBy_errands (errands : List (Errand E N)) :
    cheeredBy (errands.map Job.errand) = [] := by
  rw [cheeredBy, List.filterMap_map]
  exact List.filterMap_eq_nil_iff.mpr fun _ _ => rfl

theorem owedBy_executes (commands : List (Command E)) :
    owedBy (commands.map (Job.execute (N := N))) = tagsOf commands := by
  rw [owedBy, List.filterMap_map]
  rfl

theorem cheeredBy_executes (commands : List (Command E)) :
    cheeredBy (commands.map (Job.execute (N := N))) = [] := by
  rw [cheeredBy, List.filterMap_map]
  exact List.filterMap_eq_nil_iff.mpr fun _ _ => rfl

theorem owedBy_tell (tags : List Tag) (result : Except Fault Unit) :
    owedBy (World.tell (E := E) (N := N) tags result) = tags := by
  rw [owedBy, World.tell, List.filterMap_map]
  exact List.filterMap_some

theorem owedBy_bury (flush : Flush) (fault : Fault) :
    owedBy (World.bury (E := E) (N := N) flush fault) = flush.tags := by
  rw [World.bury, owedBy_append, owedBy_tell]
  exact List.append_nil flush.tags

theorem cheeredBy_tell (tags : List Tag) :
    cheeredBy (World.tell (E := E) (N := N) tags (.ok ())) = tags := by
  rw [cheeredBy, World.tell, List.filterMap_map]
  exact List.filterMap_some

theorem cheeredBy_bury (flush : Flush) (fault : Fault) :
    cheeredBy (World.bury (E := E) (N := N) flush fault) = [] := by
  rw [World.bury, World.tell, cheeredBy, List.filterMap_append, List.filterMap_map]
  exact List.append_eq_nil_iff.mpr ⟨List.filterMap_eq_nil_iff.mpr fun _ _ => rfl, rfl⟩

/-! ## Nothing strange is on its way -/

variable [CustomPackets E]

/-- A job can be done without losing anybody. -/
def Job.IsSound (registry : Registry E) : Job E N → Prop
  | execute command => command.IsSendable registry
  | write packet tag? none | approach packet tag? none =>
    tag? = none ∨ ∃ descriptor, registry.ofPacket packet = .ok descriptor
  | complete _ result => result = .ok () ∨ result = .error .closed
  | _ => True

/-- What waits can be sent, and nobody was told anything strange. -/
structure Books.IsSound (books : Books E) : Prop where
  queue : ∀ command ∈ books.queue, command.IsSendable books.registry
  channel : ∀ command ∈ books.channel, command.IsSendable books.registry
  told : ∀ outcome ∈ books.completed, outcome.2 = .ok () ∨ outcome.2 = .error .closed

theorem sound_idle (registry : Registry E) {jobs : List (Job E N)} (h : ∀ job ∈ jobs, job.IsIdle) :
    ∀ job ∈ jobs, job.IsSound registry := by
  intro job hjob
  have hidle := h job hjob
  cases job with
  | execute command => exact hidle.elim
  | write packet tag? next? =>
      cases next? with
      | none => exact .inl (hidle rfl)
      | some next => exact True.intro
  | approach packet tag? next? => exact hidle.elim
  | complete tag? result => exact hidle.elim
  | _ => exact True.intro

theorem sound_errands (registry : Registry E) (errands : List (Errand E N)) :
    ∀ job ∈ errands.map Job.errand, job.IsSound registry := by
  intro job hjob
  obtain ⟨errand, -, rfl⟩ := List.mem_map.mp hjob
  exact True.intro

theorem sound_tell (registry : Registry E) (tags : List Tag) {result : Except Fault Unit}
    (h : result = .ok () ∨ result = .error .closed) :
    ∀ job ∈ World.tell (E := E) (N := N) tags result, job.IsSound registry := by
  intro job hjob
  obtain ⟨tag, -, rfl⟩ := List.mem_map.mp hjob
  exact h

section

variable {books next : Books E} {dropped : List (Command E)} {record record' : Record}
  {job : Job E N} {jobs : List (Job E N)}

theorem Books.IsSound.complete (h : books.IsSound) (tag? : Option Tag) {result : Except Fault Unit}
    (hresult : result = .ok () ∨ result = .error .closed) :
    ∀ outcome ∈ books.completed ++ completions tag? result,
      outcome.2 = .ok () ∨ outcome.2 = .error .closed := by
  intro outcome houtcome
  rcases List.mem_append.mp houtcome with hold | hnew
  · exact h.told outcome hold
  · obtain ⟨tag, -, rfl⟩ := List.mem_map.mp hnew
    exact hresult

theorem Books.IsSound.abandon (h : books.IsSound) (command : Command E) :
    (books.abandon command).IsSound :=
  { h with told := h.complete command.tag? (.inr rfl) }

theorem Books.IsSound.take (h : books.IsSound) {command : Command E} {channel : List (Command E)}
    (hchannel : books.channel = command :: channel) :
    command.IsSendable books.registry ∧ Books.IsSound { books with channel } := by
  have hsendable := h.channel
  rw [hchannel] at hsendable
  obtain ⟨hcommand, hrest⟩ := List.forall_mem_cons.mp hsendable
  exact ⟨hcommand, { h with channel := hrest }⟩

theorem Handled.sound (h : books.IsSound) (hhandled : Handled books dropped next) :
    next.IsSound := by
  cases hhandled with
  | same => exact h
  | @kept command hsendable _ =>
      refine { h with queue := ?_ }
      exact List.forall_mem_append.mpr ⟨h.queue, List.forall_mem_singleton.mpr hsendable⟩
  | @sent command hsendable _ _ =>
      refine { h with channel := ?_ }
      exact List.forall_mem_append.mpr ⟨h.channel, List.forall_mem_singleton.mpr hsendable⟩
  | late _ _ => exact { h with }
  | shut _ => exact { h with queue := List.forall_mem_nil _ }

theorem Worked.sound (h : books.IsSound) (hjob : job.IsSound books.registry)
    (hworked : Worked books record job jobs next record') :
    next.IsSound ∧ ∀ job ∈ jobs, job.IsSound books.registry := by
  cases hworked with
  | abandon command => exact ⟨h.abandon command, List.forall_mem_nil _⟩
  | call hidle hjobs hhandled =>
      exact ⟨hhandled.sound h,
        List.forall_mem_append.mpr ⟨sound_errands _ _, sound_idle _ hjobs⟩⟩
  | send packet tag? => exact ⟨{ h with }, List.forall_mem_singleton.mpr (.inr hjob)⟩
  | change htag hjobs => exact ⟨{ h with }, sound_idle _ hjobs⟩
  | late packet tag? next? hclosed =>
      exact ⟨h, List.forall_mem_cons.mpr ⟨.inr rfl, sound_idle _ (idle_resume next? _)⟩⟩
  | timely packet tag? next? hopen =>
      cases next? with
      | none => exact ⟨h, List.forall_mem_singleton.mpr hjob⟩
      | some next => exact ⟨h, List.forall_mem_singleton.mpr True.intro⟩
  | strange packet tag? next? fault hpacket => exact ⟨h, sound_idle _ (idle_resume next? _)⟩
  | approach packet tag? next? hjobs =>
      exact ⟨h, List.forall_mem_append.mpr
        ⟨sound_idle _ hjobs, List.forall_mem_singleton.mpr True.intro⟩⟩
  | encoded packet tag? next? wire => exact ⟨{ h with }, sound_idle _ (idle_resume next? _)⟩
  | broken packet tag? next? fault =>
      exact ⟨h, List.forall_mem_cons.mpr
        ⟨.inr rfl, List.forall_mem_cons.mpr ⟨True.intro, sound_idle _ (idle_resume next? _)⟩⟩⟩
  | complete tag? result => exact ⟨{ h with told := h.complete tag? hjob }, List.forall_mem_nil _⟩

end

namespace Ledger

/-- Nothing strange is on its way. -/
structure IsSound (ledger : Ledger E N) : Prop where
  books : ledger.books.IsSound
  jobs : ∀ job ∈ ledger.jobs, job.IsSound ledger.books.registry

theorem IsSound.entry {ledger next : Ledger E N} (h : ledger.IsSound)
    (hentry : ledger.Entry next) : next.IsSound := by
  obtain ⟨hbooks, hjobs⟩ := h
  cases hentry with
  | stay => exact ⟨hbooks, hjobs⟩
  | call hhandled hdropping =>
      refine ⟨hhandled.sound hbooks, ?_⟩
      rw [hhandled.keeps.registry_eq]
      exact hjobs
  | abandon hdropping => exact ⟨hbooks.abandon _, hjobs⟩
  | attach hdetached => exact ⟨{ hbooks with }, hjobs⟩
  | job hjob hworked =>
      rw [hjob] at hjobs
      obtain ⟨hfirst, hrest⟩ := List.forall_mem_cons.mp hjobs
      obtain ⟨hnext, hmore⟩ := hworked.sound hbooks hfirst
      refine ⟨hnext, ?_⟩
      rw [hworked.keeps.registry_eq]
      exact List.forall_mem_append.mpr ⟨hmore, hrest⟩
  | start hidle hstarting hpreparing =>
      refine ⟨{ hbooks with queue := List.forall_mem_nil _ }, ?_⟩
      intro job hjob
      obtain ⟨command, hcommand, rfl⟩ := List.mem_map.mp hjob
      exact hbooks.queue command hcommand
  | execute hidle hwaiting hchannel hworked =>
      obtain ⟨hcommand, hrest⟩ := hbooks.take hchannel
      have hjob : Job.IsSound ledger.books.registry (Job.execute (N := N) _) := hcommand
      obtain ⟨hnext, hmore⟩ := hworked.sound hrest hjob
      refine ⟨hnext, ?_⟩
      rw [hworked.keeps.registry_eq]
      exact hmore
  | assign hidle hwaiting hassigned => exact ⟨hbooks, sound_idle _ hassigned⟩
  | stop reason hidle hwaiting hclosed => exact ⟨hbooks, List.forall_mem_singleton.mpr True.intro⟩
  | hand count => exact ⟨{ hbooks with }, hjobs⟩
  | settleDone hidle hflushing hempty => exact ⟨{ hbooks with }, sound_tell _ _ (.inl rfl)⟩
  | settleFailed fault hidle hflushing hdropped =>
      refine ⟨hbooks, List.forall_mem_append.mpr ⟨sound_errands _ _, ?_⟩⟩
      exact List.forall_mem_append.mpr
        ⟨sound_tell _ _ (.inr rfl), List.forall_mem_singleton.mpr True.intro⟩
  | flush hdue htags hafterwards => exact ⟨{ hbooks with }, hjobs⟩
  | proceed hthrough hleads htimer => exact ⟨{ hbooks with }, hjobs⟩
  | crash hsets => exact ⟨{ hbooks with channel := List.forall_mem_nil _ }, hjobs⟩
  | drop hdone hsequel hchannel =>
      obtain ⟨-, hrest⟩ := hbooks.take hchannel
      exact ⟨hrest.abandon _, hjobs⟩
  | finish hidle hshutting => exact ⟨{ hbooks with }, hjobs⟩

end Ledger

/-! ## The balance -/

/-- Who was told, and who waits for what is written down. -/
def Books.owed (books : Books E) : List Tag :=
  books.completed.map Prod.fst ++ books.tags ++ tagsOf books.channel ++ tagsOf books.queue

/-- Who has a right to be told. -/
def Books.due (books : Books E) (record : Record) : List Tag :=
  tagsOf books.submitted ++ record.answered ++ record.refused

section

variable {books next : Books E} {dropped : List (Command E)} {record record' : Record}
  {job : Job E N} {jobs : List (Job E N)}

/-- A call gives what it takes to the channel, to the queue or to itself. -/
theorem Handled.balanced (h : Handled books dropped next) (record : Record) (tag : Tag) :
    (next.owed ++ tagsOf dropped).count tag + (books.due record).count tag
      = books.owed.count tag + (next.due record).count tag := by
  cases h with
  | same =>
      simp only [tagsOf_nil, List.append_nil]
  | kept _ _ =>
      simp only [Books.owed, Books.due, tagsOf_append, tagsOf_nil, List.count_append,
        List.count_nil]
      omega
  | sent _ _ _ =>
      simp only [Books.owed, Books.due, tagsOf_append, tagsOf_nil, List.count_append,
        List.count_nil]
      omega
  | late _ _ =>
      simp only [Books.owed, Books.due, tagsOf_append, List.count_append]
      omega
  | shut _ =>
      simp only [Books.owed, Books.due, tagsOf_nil, List.count_append, List.count_nil]
      omega

/-- A job settles what it takes, or gives it to the next flush or to other jobs. -/
theorem Worked.balanced (h : Worked books record job jobs next record')
    (hjob : job.IsSound books.registry) (tag : Tag) :
    (next.owed ++ owedBy jobs).count tag + (books.due record).count tag
      = (books.owed ++ job.owed?.toList).count tag + (next.due record').count tag := by
  cases h with
  | abandon command =>
      simp only [Books.owed, Books.due, Books.abandon, List.map_append, tags_completions, Job.owed?,
        Errand.dropped?, Option.bind_some, owedBy_nil, List.count_append, List.count_nil]
      omega
  | @call job errands jobs next hidle hjobs hhandled =>
      have hcall := hhandled.balanced record tag
      rw [owedBy_append, owedBy_errands, owedBy_idle hjobs, hidle.owed_none]
      simp only [Option.toList_none, List.append_nil]
      exact hcall
  | send packet tag? =>
      simp only [Books.owed, Books.due, owedBy_cons, Job.owed?, Command.tag?, owedBy_nil,
        List.append_nil, List.count_append]
  | @change command jobs htag hjobs =>
      rw [owedBy_idle hjobs]
      simp only [Books.owed, Books.due, Job.owed?, htag, Option.toList_none]
  | late packet tag? next? hclosed =>
      have hidle := owedBy_idle (idle_resume next? (.ok ()))
      cases next? with
      | none =>
          simp only [Books.owed, Books.due, owedBy_cons, hidle, Job.owed?, asking,
            List.count_append, List.count_nil]
          omega
      | some next =>
          simp only [Books.owed, Books.due, owedBy_cons, hidle, Job.owed?, asking,
            List.count_append, List.count_nil, Option.toList_none]
          omega
  | timely packet tag? next? hopen =>
      cases next? with
      | none => simp only [owedBy_cons, Job.owed?, owedBy_nil, List.append_nil]
      | some next => rfl
  | strange packet tag? next? fault hpacket =>
      rw [owedBy_idle (idle_resume next? (.error fault))]
      -- Only a program of the listener learns of the fault from an answer.  In a command the packet
      -- was looked up when it was accepted, so that nobody is lost.
      cases next? with
      | none =>
          rcases hjob with hnobody | ⟨descriptor, hdescriptor⟩
          · simp only [Books.owed, Books.due, Job.owed?, hnobody, Option.toList_none]
          · rw [hpacket] at hdescriptor
            cases hdescriptor
      | some next => rfl
  | @approach packet tag? next? jobs hidle =>
      rw [owedBy_append, owedBy_idle hidle, owedBy_cons]
      cases next? with
      | none => simp only [Job.owed?, owedBy_nil, List.nil_append, List.append_nil]
      | some next => simp only [Job.owed?, owedBy_nil, List.nil_append, List.append_nil]
  | encoded packet tag? next? wire =>
      rw [owedBy_idle (idle_resume next? (.ok ()))]
      cases next? with
      | none =>
          simp only [Books.owed, Books.due, Job.owed?, asking, List.count_append, List.count_nil]
          omega
      | some next =>
          simp only [Books.owed, Books.due, Job.owed?, asking, List.count_append, List.count_nil,
            Option.toList_none]
          omega
  | broken packet tag? next? fault =>
      have hidle := owedBy_idle (idle_resume next? (.error fault))
      cases next? with
      | none =>
          simp only [Books.owed, Books.due, owedBy_cons, hidle, Job.owed?, Errand.dropped?, asking,
            Option.bind_none, Option.toList_none, List.count_append, List.count_nil]
          omega
      | some next =>
          simp only [Books.owed, Books.due, owedBy_cons, hidle, Job.owed?, Errand.dropped?, asking,
            Option.bind_none, Option.toList_none, List.count_append, List.count_nil]
          omega
  | complete tag? result =>
      simp only [Books.owed, Books.due, List.map_append, tags_completions, Job.owed?, owedBy_nil,
        List.count_append, List.count_nil]
      omega

end

/-- Who waits for the flush that is under way. -/
def waitingFor : Option Sequel → Activity → List Tag
  | none, .flushing flush => flush.tags
  | _, _ => []

theorem Afterwards.LeadsTo.waiting_nil {afterwards : Afterwards} {activity : Activity}
    (h : afterwards.LeadsTo activity) : waitingFor none activity = [] := by
  rcases h.cases with ⟨rfl, -⟩ | ⟨⟨deadline, rfl⟩, -⟩
  · rfl
  · rfl

namespace Ledger

variable {ledger next : Ledger E N}

/-- Everybody who has a right to be told was told, or is held by somebody. -/
def IsBalanced (ledger : Ledger E N) : Prop :=
  ∀ tag, (ledger.books.owed ++ owedBy ledger.jobs
      ++ waitingFor ledger.sequel? ledger.books.activity ++ tagsOf ledger.dropping).count tag
    = (ledger.books.due ledger.record).count tag

theorem waiting_of_due {afterwards : Afterwards} (h : ledger.IsDue afterwards) :
    waitingFor ledger.sequel? ledger.books.activity = [] := by
  obtain ⟨-, hsequel | ⟨hsequel, -, -⟩⟩ := h
  · rw [hsequel]
    rfl
  · rw [hsequel]
    rfl

theorem waiting_of_through {afterwards : Afterwards} (h : ledger.IsThrough afterwards) :
    waitingFor ledger.sequel? ledger.books.activity = [] := by
  rcases h with ⟨hdue, -⟩ | ⟨-, hsequel⟩ | ⟨hidle, hstarting, -, -⟩
  · exact waiting_of_due hdue
  · rw [hsequel]
    rfl
  · rw [hidle.2, hstarting]
    rfl

/-- A crash loses whoever waits for the channel, and nothing else loses anybody. -/
theorem IsBalanced.entry (h : ledger.IsBalanced) (hpaced : ledger.Paced)
    (hsound : ledger.IsSound) (hentry : ledger.Entry next)
    (hgoing : next.books.activity ≠ .crashed) : next.IsBalanced := by
  intro tag
  have hbalance := h tag
  cases hentry with
  | stay => exact hbalance
  | call hhandled hdropping =>
      have hcall := hhandled.balanced ledger.record tag
      have hdropped := count_tagsOf_perm hdropping tag
      dsimp only
      rw [hhandled.keeps.activity_eq]
      simp only [tagsOf_append, List.count_append] at hbalance hcall hdropped ⊢
      omega
  | abandon hdropping =>
      have hdropped := count_tagsOf_perm hdropping tag
      simp only [Books.owed, Books.due, Books.abandon, List.map_append, tags_completions,
        tagsOf_cons, List.count_append] at hbalance hdropped ⊢
      omega
  | attach hdetached =>
      have hsequel := hpaced.resting hdetached True.intro
      rw [hdetached, hsequel] at hbalance
      dsimp only
      rw [hsequel]
      exact hbalance
  | job hjobs hworked =>
      have hjob := hsound.jobs
      rw [hjobs] at hjob
      have hstep := hworked.balanced (List.forall_mem_cons.mp hjob).1 tag
      rw [hjobs, owedBy_cons] at hbalance
      dsimp only
      rw [hworked.keeps.activity_eq]
      simp only [owedBy_append, List.count_append] at hbalance hstep ⊢
      omega
  | start hidle hstarting hpreparing =>
      rw [hidle.1, hidle.2, hstarting] at hbalance
      simp only [Books.owed, Books.due, waitingFor, owedBy_executes, tagsOf_nil, owedBy_nil,
        List.count_append, List.count_nil] at hbalance ⊢
      omega
  | @execute command channel jobs next hidle hwaiting hchannel hworked =>
      obtain ⟨hcommand, -⟩ := hsound.books.take hchannel
      have hjob : Job.IsSound ledger.books.registry (Job.execute (N := N) command) := hcommand
      have hstep := hworked.balanced hjob tag
      rw [hidle.1, hidle.2, hwaiting] at hbalance
      simp only [Books.owed, Books.due, waitingFor, owedBy_nil, hchannel, tagsOf_cons, Job.owed?,
        List.count_append, List.count_nil] at hbalance hstep ⊢
      omega
  | assign hidle hwaiting hjobs =>
      rw [hidle.1, hidle.2, hwaiting] at hbalance
      dsimp only
      rw [owedBy_idle hjobs]
      exact hbalance
  | stop reason hidle hwaiting hclosed =>
      rw [hidle.1, hidle.2, hwaiting] at hbalance
      exact hbalance
  | hand count => exact hbalance
  | settleDone hidle hflushing hempty =>
      rw [hidle.1, hidle.2, hflushing] at hbalance
      dsimp only
      rw [owedBy_tell]
      simp only [waitingFor, owedBy_nil, List.append_nil] at hbalance ⊢
      exact hbalance
  | settleFailed fault hidle hflushing hdropped =>
      rw [hidle.1, hidle.2, hflushing] at hbalance
      dsimp only
      rw [owedBy_append, owedBy_errands, hdropped, owedBy_bury]
      simp only [waitingFor, owedBy_nil, tagsOf_nil, List.append_nil, List.nil_append]
        at hbalance ⊢
      exact hbalance
  | flush hdue htags hafterwards =>
      rw [hdue.1, waiting_of_due hdue] at hbalance
      simp only [Books.owed, Books.due, waitingFor, htags, hdue.1, owedBy_nil, List.count_append,
        List.count_nil] at hbalance ⊢
      omega
  | proceed hthrough hleads htimer =>
      rw [waiting_of_through hthrough] at hbalance
      dsimp only
      rw [hleads.waiting_nil]
      exact hbalance
  | crash hsets => exact (hgoing rfl).elim
  | drop hjobs hsequel hchannel =>
      simp only [Books.owed, Books.due, Books.abandon, List.map_append, tags_completions, hchannel,
        tagsOf_cons, List.count_append] at hbalance ⊢
      omega
  | finish hidle hshutting =>
      rw [hidle.2, hshutting] at hbalance
      dsimp only
      rw [hidle.2]
      exact hbalance

end Ledger
end PhaseWire
