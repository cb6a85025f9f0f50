import Mathlib.Logic.Relation
import PhaseWire.Compression.Method
import PhaseWire.Proofs.Compression.Lz4

/-
# Machines that only append

A machine that is stopped early is compared with the same machine when
nobody stops it (`last`).  The run that was paused stands somewhere on the
way of the other (`last_of_paused`), one that ended stands at its end
(`last_of_finished`, `last_of_starved`), and whatever every step keeps
holds along the way (`Reaches.lift`).  For the machines of the three
formats that is: the output so far stays the front of what comes.
-/

namespace PhaseWire.Compression

section Machines

variable {σ : Type} {step : σ → Step σ} {enough : σ → Bool} {fuel : Nat} {first state : σ}

def Step.state? : Step σ → Option σ
  | .next state => some state
  | .finished state => some state
  | .starved state => some state
  | .failed => none

/-- The state that a run leads to. -/
def Halt.state? : Halt σ → Option σ
  | .paused state => some state
  | .finished state => some state
  | .starved state => some state
  | .failed => none

/-- One state comes after another. -/
def Reaches (step : σ → Step σ) : σ → σ → Prop :=
  Relation.ReflTransGen fun before after => (step before).state? = some after

/-- What is reflexive, transitive and kept by every step holds of states on the way. -/
theorem Reaches.lift (hreach : Reaches step first state) (related : σ → σ → Prop)
    (hrefl : ∀ s, related s s) (htrans : ∀ {s t u}, related s t → related t u → related s u)
    (hstep : ∀ {s t}, (step s).state? = some t → related s t) : related first state := by
  induction hreach with
  | refl => exact hrefl _
  | tail _ hlast ih => exact htrans ih (hstep hlast)

/-- The last state of a machine that nobody stops: its end, or where it cannot go on. -/
def last (step : σ → Step σ) : (fuel : Nat) → σ → σ
  | 0, state => state
  | fuel + 1, state =>
    match step state with
    | .next state => last step fuel state
    | .finished state => state
    | .starved state => state
    | .failed => state

theorem reaches_last (step : σ → Step σ) (fuel : Nat) (first : σ) :
    Reaches step first (last step fuel first) := by
  fun_induction last step fuel first with
  | case1 => exact .refl
  | case2 fuel before after hstep ih => exact .head (by rw [hstep]; rfl) ih
  | case3 fuel before after hstep => exact .single (by rw [hstep]; rfl)
  | case4 fuel before after hstep => exact .single (by rw [hstep]; rfl)
  | case5 => exact .refl

theorem reaches_of_run (h : (run step enough fuel first).state? = some state) :
    Reaches step first state := by
  fun_induction run step enough fuel first with
  | case1 => cases h
  | case2 => cases h; exact .refl
  | case3 fuel before _ after hstep ih => exact .head (by rw [hstep]; rfl) (ih h)
  | case4 fuel before _ after hstep => cases h; exact .single (by rw [hstep]; rfl)
  | case5 fuel before _ after hstep => cases h; exact .single (by rw [hstep]; rfl)
  | case6 => cases h

theorem cases_of_paused (h : run step enough fuel first = .paused state) :
    enough state = true
      ∧ (state = first ∨ ∃ before, enough before = false ∧ step before = .next state) := by
  fun_induction run step enough fuel first with
  | case2 fuel before henough => cases h; exact ⟨henough, .inl rfl⟩
  | case3 fuel before hgoes after hstep ih =>
      obtain ⟨henough, hfrom⟩ := ih h
      refine ⟨henough, .inr ?_⟩
      rcases hfrom with rfl | hfrom
      · exact ⟨before, Bool.eq_false_iff.2 hgoes, hstep⟩
      · exact hfrom
  | _ => cases h

theorem cases_of_finished (h : run step enough fuel first = .finished state) :
    ∃ before, enough before = false ∧ step before = .finished state := by
  fun_induction run step enough fuel first with
  | case3 fuel before hgoes after hstep ih => exact ih h
  | case4 fuel before hgoes after hstep =>
      cases h
      exact ⟨before, Bool.eq_false_iff.2 hgoes, hstep⟩
  | _ => cases h

/-- A run that was paused stands on the way of the machine that nobody stops. -/
theorem last_of_paused (h : run step enough fuel first = .paused state) :
    ∃ left, last step fuel first = last step left state := by
  fun_induction run step enough fuel first with
  | case2 fuel before henough => cases h; exact ⟨fuel + 1, rfl⟩
  | case3 fuel before hgoes after hstep ih => simpa only [last, hstep] using ih h
  | _ => cases h

/-- A run that was not paused is the run that nobody stops. -/
theorem run_of_not_paused (h : ∀ state, run step enough fuel first ≠ .paused state) :
    run step (fun _ => false) fuel first = run step enough fuel first := by
  fun_induction run step enough fuel first with
  | case1 => rfl
  | case2 fuel before henough => exact absurd rfl (h before)
  | case3 fuel before _ after hstep ih =>
      simp only [run, hstep, ih h, Bool.false_eq_true, if_false]
  | case4 fuel before _ after hstep => simp only [run, hstep, Bool.false_eq_true, if_false]
  | case5 fuel before _ after hstep => simp only [run, hstep, Bool.false_eq_true, if_false]
  | case6 fuel before _ hstep => simp only [run, hstep, Bool.false_eq_true, if_false]

theorem last_of_ended (h : run step enough fuel first = .finished state
    ∨ run step enough fuel first = .starved state) : last step fuel first = state := by
  fun_induction run step enough fuel first with
  | case3 fuel before _ after hstep ih => simpa only [last, hstep] using ih h
  | case4 fuel before _ after hstep =>
      rcases h with h | h
      · cases h
        simp only [last, hstep]
      · cases h
  | case5 fuel before _ after hstep =>
      rcases h with h | h
      · cases h
      · cases h
        simp only [last, hstep]
  | _ => rcases h with h | h <;> cases h

end Machines

/-! ## Outputs -/

theorem isFront_copyBack (distance : Nat) : ∀ (count : Nat) (out : Array UInt8),
    out.toList <+: (copyBack out distance count).toList := by
  intro count
  induction count with
  | zero => intro out; exact List.prefix_rfl
  | succ count ih =>
      intro out
      rw [copyBack]
      refine List.IsPrefix.trans ?_ (ih _)
      rw [Array.toList_push]
      exact List.prefix_append _ _

theorem isFront_appendBytes (out : Array UInt8) (bytes : Bytes) :
    out.toList <+: (appendBytes out bytes).toList := by
  rw [Lz4.toList_appendBytes]
  exact List.prefix_append _ _

namespace Deflate

theorem isFront_step {before after : State} (h : (step before).state? = some after) :
    before.out.toList <+: after.out.toList := by
  obtain ⟨source, out, mode⟩ := before
  cases mode with
  | header =>
      simp only [step] at h
      split at h
      · rename_i why _
        cases why with
        | starved => cases h; exact List.prefix_rfl
        | corrupt => cases h
      · cases h
        exact List.prefix_rfl
  | stored isLast left =>
      simp only [step, storedStep, afterBlock] at h
      split at h
      · split at h
        · cases h
          exact List.prefix_rfl
        · cases h
          exact List.prefix_rfl
      · split at h
        · cases h
          exact List.prefix_rfl
        · cases h
          exact isFront_appendBytes out _
  | symbols isLast codes =>
      simp only [step] at h
      split at h
      · rename_i why _
        cases why with
        | starved => cases h; exact List.prefix_rfl
        | corrupt => cases h
      · rename_i item _ _
        cases item with
        | literal byte =>
            cases h
            rw [Array.toList_push]
            exact List.prefix_append _ _
        | copy length distance =>
            cases h
            exact isFront_copyBack distance length out
        | blockEnd =>
            simp only [applyItem, afterBlock] at h
            split at h
            · cases h
              exact List.prefix_rfl
            · cases h
              exact List.prefix_rfl

theorem isFront_of_reaches {before after : State} (h : Reaches step before after) :
    before.out.toList <+: after.out.toList :=
  h.lift (fun before after => before.out.toList <+: after.out.toList)
    (fun _ => List.prefix_rfl) List.IsPrefix.trans isFront_step

end Deflate

namespace Zstd

/-- What some work does to the output: it leaves what is there in front, and appends no more than it
takes of the room. -/
structure Grows (out : Array UInt8) (room : Nat) (out' : Array UInt8) (room' : Nat) : Prop where
  isFront : out.toList <+: out'.toList
  size_le : out'.size + room' ≤ out.size + room

namespace Grows

variable {out : Array UInt8} {room : Nat}

theorem refl (out : Array UInt8) (room : Nat) : Grows out room out room :=
  ⟨List.prefix_rfl, Nat.le_refl _⟩

theorem trans {out' out'' : Array UInt8} {room' room'' : Nat} (h : Grows out room out' room')
    (h' : Grows out' room' out'' room'') : Grows out room out'' room'' :=
  ⟨h.isFront.trans h'.isFront, Nat.le_trans h'.size_le h.size_le⟩

theorem append {bytes : Array UInt8} {left : Nat} (h : bytes.size + left ≤ room) :
    Grows out room (out ++ bytes) left := by
  refine ⟨?_, ?_⟩
  · rw [Array.toList_append]
    exact List.prefix_append _ _
  · rw [Array.size_append]
    omega

theorem appendBytes {bytes : Bytes} {left : Nat} (h : bytes.length + left ≤ room) :
    Grows out room (Compression.appendBytes out bytes) left := by
  refine ⟨isFront_appendBytes out bytes, ?_⟩
  rw [Lz4.size_appendBytes]
  omega

end Grows

/-- A frame that is decoded at once has a content of the size that its header gives. -/
theorem size_of_wholeFrame {header : FrameHeader} {room size : Nat}
    {shelf shelf' content : Array UInt8} {input rest : Bytes}
    (hsize : header.contentSize? = some size)
    (h : wholeFrame? header room shelf input = some (content, shelf', rest)) :
    content.size = size := by
  obtain ⟨⟨decoded, behind⟩, -, hchecks⟩ := Option.bind_eq_some_iff.1 h
  dsimp only at hchecks
  split at hchecks
  · cases hchecks
  · rename_i hfits
    have hgiven : content = decoded.store.cells.extract 0 decoded.store.place := by
      split at hchecks
      · split at hchecks
        · cases hchecks
          rfl
        · cases hchecks
      · cases hchecks
        rfl
    rw [hsize, ← hgiven, not_or] at hfits
    simp only [Option.any_some, decide_eq_true_eq, Decidable.not_not] at hfits
    exact hfits.2.symm

namespace EarlyFrame

variable {work work' : EarlyWork} {outcome : EarlyOutcome}

theorem openStep_grows {format : EarlyFormat} {front : Bytes}
    (h : openStep format front work = some (outcome, work')) :
    Grows work.out work.room work'.out work'.room := by
  simp only [openStep] at h
  split at h
  · cases h
  · cases h
    exact Grows.refl _ _
  · cases h
    exact Grows.refl _ _

theorem readStep_grows {awaited : EarlyAwaited} {loaded : Bytes} {body : EarlyBody}
    (h : readStep awaited loaded body work = some (outcome, work')) :
    Grows work.out work.room work'.out work'.room := by
  simp only [readStep] at h
  split at h
  · cases h
    exact Grows.refl _ _
  · split at h
    · split at h
      · cases h
      · cases h
        exact Grows.refl _ _
    · obtain ⟨frame, -, hframe⟩ := Option.map_eq_some_iff.1 h
      cases hframe
      exact Grows.refl _ _

theorem handStep_grows {pending : Bytes} {body : EarlyBody}
    (h : handStep pending body work = some (outcome, work')) :
    Grows work.out work.room work'.out work'.room := by
  have hgiven : (pending.take work.room).length ≤ work.room := List.length_take_le _ _
  simp only [handStep, List.splitAt_eq] at h
  split at h
  · cases h
    exact Grows.appendBytes hgiven
  · cases h
    exact Grows.appendBytes (Nat.le_of_eq (Nat.add_sub_of_le hgiven))

theorem step_grows {frame : EarlyFrame} (h : frame.step work = some (outcome, work')) :
    Grows work.out work.room work'.out work'.room := by
  cases frame with
  | opening format front => exact openStep_grows h
  | reading awaited loaded body => exact readStep_grows h
  | handing pending body => exact handStep_grows h

end EarlyFrame

namespace Work

variable {work work' : Work}

theorem beginFrame_grows {fresh : Bool} {header : FrameHeader} {input : Bytes}
    (h : (beginFrame fresh header input work).state? = some work') :
    Grows work.out work.room work'.out work'.room := by
  simp only [beginFrame] at h
  split at h
  · rename_i hwhole
    split at h
    · cases h
    · rename_i content shelf rest hcontent
      cases h
      simp only [Bool.and_eq_true, Option.any_eq_true] at hwhole
      obtain ⟨⟨-, size, hheader, hroom⟩, -⟩ := hwhole
      have hsize : content.size ≤ work.room := by
        rw [size_of_wholeFrame hheader hcontent]
        exact of_decide_eq_true hroom
      exact Grows.append (Nat.le_of_eq (Nat.add_sub_of_le hsize))
  · split at h
    · cases h
    · cases h
      exact Grows.refl _ _

theorem openStep_grows {front : Bytes} (h : (openStep front work).state? = some work') :
    Grows work.out work.room work'.out work'.room := by
  simp only [openStep] at h
  split at h
  · exact beginFrame_grows h
  · cases h
    exact Grows.refl _ _
  · cases h
    exact Grows.refl _ _
  · split at h
    · simp only [beginEarly] at h
      split at h
      · cases h
      · cases h
        exact Grows.refl _ _
    · cases h

theorem skipStep_grows {left : Nat} (h : (skipStep left work).state? = some work') :
    Grows work.out work.room work'.out work'.room := by
  simp only [skipStep] at h
  split at h
  · cases h
    exact Grows.refl _ _
  · cases h
    exact Grows.refl _ _

theorem readStep_grows {awaited : Awaited} {loaded : Bytes} {frame : OpenFrame}
    (h : (readStep awaited loaded frame work).state? = some work') :
    Grows work.out work.room work'.out work'.room := by
  simp only [readStep] at h
  repeat' split at h
  all_goals
    cases h
    try exact Grows.refl _ _

theorem handStep_grows {awaited : Awaited} {frame : OpenFrame}
    (h : (handStep awaited frame work).state? = some work') :
    Grows work.out work.room work'.out work'.room := by
  have hgiven : (frame.store.cells.extract frame.handed
      (frame.handed + min work.room frame.pending)).size ≤ min work.room frame.pending := by
    rw [Array.size_extract]
    omega
  simp only [handStep, OpenFrame.handOver] at h
  split at h
  · cases h
    exact Grows.append (Nat.le_trans hgiven (Nat.min_le_left _ _))
  · cases h
    have hleft : (frame.store.cells.extract frame.handed
        (frame.handed + min work.room frame.pending)).size + (work.room - frame.pending)
          ≤ work.room := by omega
    exact Grows.append hleft

theorem earlyStep_grows {frame : EarlyFrame} (h : (earlyStep frame work).state? = some work') :
    Grows work.out work.room work'.out work'.room := by
  rw [earlyStep.eq_def] at h
  dsimp only at h
  split at h
  · cases h
  all_goals
    rename_i hframe
    cases h
    exact EarlyFrame.step_grows hframe

theorem step_grows (h : (step work).state? = some work') :
    Grows work.out work.room work'.out work'.room := by
  obtain ⟨stage, buffers, earlyBuffers, shelf, input, out, room⟩ := work
  cases stage with
  | opening front => exact openStep_grows h
  | skipping left => exact skipStep_grows h
  | reading awaited loaded frame => exact readStep_grows h
  | handing awaited frame => exact handStep_grows h
  | early frame => exact earlyStep_grows h

theorem grows_of_reaches (h : Reaches step work work') :
    Grows work.out work.room work'.out work'.room :=
  h.lift (fun work work' => Grows work.out work.room work'.out work'.room)
    (fun _ => Grows.refl _ _) Grows.trans step_grows

end Work

namespace State

variable {fuel : Nat} {state after : State}

theorem call_grows {input : Bytes} {complete : Bool}
    (h : (call fuel input complete state).state? = some after) :
    Grows state.out pieceSize after.out 0 := by
  simp only [call] at h
  split at h
  · rename_i work hrun
    cases h
    have hgrows := Work.grows_of_reaches (reaches_of_run (by rw [hrun]; rfl))
    exact ⟨hgrows.isFront, Nat.le_trans (Nat.le_add_right _ _) hgrows.size_le⟩
  · rename_i work hrun
    cases h
    have hgrows := Work.grows_of_reaches (reaches_of_run (by rw [hrun]; rfl))
    exact ⟨hgrows.isFront, Nat.le_trans (Nat.le_add_right _ _) hgrows.size_le⟩
  · cases h

theorem call_ne_finished (input : Bytes) (complete : Bool) (state : State) :
    call fuel input complete state ≠ .finished after := by
  intro h
  simp only [call] at h
  split at h
  · cases h
  · cases h
  · cases h

/-- A step appends no more than one piece. -/
theorem step_grows (h : (step fuel state).state? = some after) :
    Grows state.out pieceSize after.out 0 := by
  rw [step] at h
  split at h
  · exact call_grows h
  · split at h
    · split at h
      · cases h
        exact ⟨List.prefix_rfl, Nat.le_add_right _ _⟩
      · cases h
    · cases h
      exact ⟨List.prefix_rfl, Nat.le_add_right _ _⟩
    · exact call_grows h

theorem isFront_of_reaches (h : Reaches (step fuel) state after) :
    state.out.toList <+: after.out.toList :=
  h.lift (fun before after => before.out.toList <+: after.out.toList)
    (fun _ => List.prefix_rfl) List.IsPrefix.trans fun hstep => (step_grows hstep).isFront

theorem eq_of_finished (h : step fuel state = .finished after) : after = state := by
  rw [step] at h
  split at h
  · exact absurd h (call_ne_finished _ _ _)
  · split at h
    · split at h
      · cases h
        rfl
      · cases h
    · cases h
    · exact absurd h (call_ne_finished _ _ _)

end State
end Zstd
end PhaseWire.Compression
