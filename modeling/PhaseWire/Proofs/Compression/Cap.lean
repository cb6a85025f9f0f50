import PhaseWire.Proofs.Compression.Growth

/-
# What is given of data under a limit

The three methods stop at a limit in three ways: one cuts, one refuses and
one looks only between two pieces.  They keep one contract, `IsCapped`: what
they give is the front of all data, passes the limit by a slack at most,
and is all data unless it passes the limit.  For the cut this follows from
`decompress_eq_take`, for the refusal from `decompress_mono`, and for the
pieces from what a step appends.

All data is what the same machine writes when nobody stops it, up to where
it ends or finds its input malformed (`Holds`).  So the contract speaks of
any bytes, not only of what a compressor has written.
-/

namespace PhaseWire

/-- What a reader may give of some data under a limit: the front of it, no more than the slack
beyond the limit, and all of it unless that passes the limit. -/
structure IsCapped (limit slack : Nat) (full out : Bytes) : Prop where
  isFront : out <+: full
  length_le : out.length ≤ limit + slack
  whole : out.length ≤ limit → out = full

namespace IsCapped

variable {limit slack : Nat} {full out : Bytes}

theorem eq_of_fits (h : IsCapped limit slack full out) (hfits : full.length ≤ limit) : out = full :=
  h.whole (Nat.le_trans h.isFront.length_le hfits)

/-- The caller can tell from what it gets whether the data fits the limit. -/
theorem length_le_iff (h : IsCapped limit slack full out) :
    out.length ≤ limit ↔ full.length ≤ limit := by
  constructor
  · intro hout
    rw [← h.whole hout]
    exact hout
  · exact Nat.le_trans h.isFront.length_le

theorem of_take (limit : Nat) (full : Bytes) : IsCapped limit 1 full (full.take (limit + 1)) where
  isFront := List.take_prefix _ _
  length_le := List.length_take_le _ _
  whole := by
    intro hfits
    rw [List.length_take] at hfits
    exact List.take_of_length_le (by omega)

theorem of_all (hfits : full.length ≤ limit) : IsCapped limit slack full full where
  isFront := List.prefix_rfl
  length_le := Nat.le_add_right_of_le hfits
  whole := fun _ => rfl

theorem of_front (hfront : out <+: full) (hpast : limit < out.length)
    (hslack : out.length ≤ limit + slack) : IsCapped limit slack full out where
  isFront := hfront
  length_le := hslack
  whole := fun hfits => absurd hfits (Nat.not_le.2 hpast)

end IsCapped

namespace Compression

/-! ## Zlib -/

namespace Deflate

/-- Decodes until the stream or the input ends. -/
def exhaust (state : State) : Halt State :=
  run step (fun _ => false) (state.source.size + 2) state

/-- The state where the stream or the input ends, or the stream is malformed. -/
def lastState (state : State) : State :=
  last step (state.source.size + 2) state

variable {limit : Nat} {first state : State}

theorem isFront_lastState (first : State) : first.out.toList <+: (lastState first).out.toList :=
  isFront_of_reaches (reaches_last _ _ _)

theorem lastState_of_exhaust (h : exhaust first = .starved state) : lastState first = state :=
  last_of_ended (.inr h)

/-- What was decoded up to the limit is the front of what is there. -/
theorem resume_paused (h : resume limit first = .paused state) :
    limit < state.out.size ∧ state.out.toList <+: (lastState first).out.toList := by
  obtain ⟨hsize, -⟩ := cases_of_paused h
  obtain ⟨left, hlast⟩ := last_of_paused h
  refine ⟨of_decide_eq_true hsize, ?_⟩
  rw [lastState, hlast]
  exact isFront_of_reaches (reaches_last _ _ _)

theorem exhaust_of_resume (h : ∀ state, resume limit first ≠ .paused state) :
    exhaust first = resume limit first :=
  run_of_not_paused h

end Deflate

namespace Zlib

/-- The decoder behind all pieces of input, or where the stream ends or is malformed. -/
def drain : List Bytes → Deflate.State → Deflate.State
  | [], state => state
  | piece :: pieces, state =>
    match Deflate.exhaust (state.supply piece) with
    | .starved state => drain pieces state
    | _ => Deflate.lastState (state.supply piece)

/-- All data of a stream, however long, up to where it ends or is malformed. -/
def full (data : Bytes) : Bytes :=
  match data with
  | _ :: _ :: input => (drain (piecesBehindHeader input) .start).out.toList
  | _ => []

variable {limit : Nat} {later : List Bytes} {state : Deflate.State}

theorem lt_horizon (limit : Nat) : limit < horizon limit := by
  have hsplit := Nat.div_add_mod limit pieceSize
  have hless := Nat.mod_lt limit (show 0 < pieceSize by decide)
  rw [horizon, Nat.add_mul, Nat.mul_comm]
  omega

theorem isFront_drain : ∀ (pieces : List Bytes) (first : Deflate.State),
    first.out.toList <+: (drain pieces first).out.toList := by
  intro pieces
  induction pieces with
  | nil => intro first; exact List.prefix_rfl
  | cons piece pieces ih =>
      intro first
      have hpiece := Deflate.isFront_lastState (first.supply piece)
      rw [drain]
      split
      · rename_i state hend
        rw [Deflate.lastState_of_exhaust hend] at hpiece
        exact hpiece.trans (ih state)
      · exact hpiece

theorem isFront_drain_cons (piece : Bytes) (pieces : List Bytes) (first : Deflate.State) :
    (Deflate.lastState (first.supply piece)).out.toList
      <+: (drain (piece :: pieces) first).out.toList := by
  rw [drain]
  split
  · rename_i state hend
    rw [Deflate.lastState_of_exhaust hend]
    exact isFront_drain pieces state
  · exact List.prefix_rfl

theorem drain_of_starved {room : Nat} {piece : Bytes} {first : Deflate.State}
    (h : Deflate.resume room (first.supply piece) = .starved state) (pieces : List Bytes) :
    drain (piece :: pieces) first = drain pieces state := by
  rw [drain, Deflate.exhaust_of_resume (fun t ht => by rw [h] at ht; cases ht), h]

theorem drain_of_ended {room : Nat} {piece : Bytes} {first : Deflate.State}
    (h : Deflate.resume room (first.supply piece) = .finished state) (pieces : List Bytes) :
    drain (piece :: pieces) first = state := by
  have hend := Deflate.exhaust_of_resume (fun t ht => by rw [h] at ht; cases ht)
  rw [drain, hend, h]
  exact last_of_ended (.inl h)

/-- Reading that pauses has passed the limit, and has the front of the data. -/
theorem isFront_of_paused : ∀ {pieces : List Bytes} {first : Deflate.State},
    inflate limit pieces first = (.paused state, later) →
      limit < state.out.size ∧ state.out.toList <+: (drain pieces first).out.toList := by
  intro pieces
  induction pieces with
  | nil => intro first h; cases h
  | cons piece pieces ih =>
      intro first h
      rw [inflate] at h
      split at h
      · rename_i after hresume
        rw [drain_of_starved hresume]
        split at h
        · rename_i hpast
          cases h
          exact ⟨hpast, isFront_drain later state⟩
        · exact ih h
      · obtain ⟨hresume, -⟩ := Prod.mk.inj h
        obtain ⟨hpast, hfront⟩ := Deflate.resume_paused hresume
        exact ⟨Nat.lt_trans (lt_horizon limit) hpast,
          hfront.trans (isFront_drain_cons piece pieces first)⟩

theorem drain_of_finished : ∀ {pieces : List Bytes} {first : Deflate.State},
    inflate limit pieces first = (.finished state, later) → drain pieces first = state := by
  intro pieces
  induction pieces with
  | nil => intro first h; cases h
  | cons piece pieces ih =>
      intro first h
      rw [inflate] at h
      split at h
      · rename_i after hresume
        rw [drain_of_starved hresume]
        split at h
        · cases h
        · exact ih h
      · obtain ⟨hresume, -⟩ := Prod.mk.inj h
        exact drain_of_ended hresume pieces

/-- A stream is given up to the byte behind the limit. -/
theorem decompress_eq_take {data out : Bytes} (h : decompress data limit = some out) :
    out = (full data).take (limit + 1) := by
  rw [decompress.eq_def] at h
  split at h
  · rename_i method flags input
    split at h
    · rw [body] at h
      split at h
      · rename_i state later hinflate
        obtain ⟨hpast, behind, hfull⟩ := isFront_of_paused hinflate
        cases h
        rw [full, ← hfull, List.take_append_of_le_length hpast]
      · rename_i state later hinflate
        have hend := drain_of_finished hinflate
        dsimp only at h
        split at h
        · cases h
          rw [full, hend]
        · cases h
      · cases h
    · cases h
  · cases h

end Zlib

/-! ## Zstandard -/

namespace Zstd

/-- All data of a sequence of frames, however long, up to where it ends or is malformed. -/
def full (data : Bytes) : Bytes :=
  let fuel := 64 * (data.length + 2)
  (last (State.step fuel) fuel (.start data)).out.toList

variable {limit : Nat} {data out : Bytes}

theorem isCapped_decompress (h : decompress data limit = some out) :
    IsCapped limit pieceSize (full data) out := by
  rw [decompress] at h
  split at h
  · rename_i state hrun
    obtain ⟨before, hgoes, hstep⟩ := cases_of_finished hrun
    have hlast := last_of_ended (.inl hrun)
    cases h
    rw [full, hlast]
    obtain rfl := State.eq_of_finished hstep
    exact .of_all (by simpa using hgoes)
  · rename_i state hrun
    obtain ⟨hpast, hfrom⟩ := cases_of_paused hrun
    obtain ⟨left, hlast⟩ := last_of_paused hrun
    cases h
    have hfront : state.out.toList <+: full data := by
      rw [full, hlast]
      exact State.isFront_of_reaches (reaches_last _ _ _)
    refine .of_front hfront (by simpa using hpast) ?_
    rw [Array.length_toList]
    rcases hfrom with rfl | ⟨before, hgoes, hstep⟩
    · exact Nat.zero_le _
    · have hgrows := State.step_grows (by rw [hstep]; rfl)
      have hsize := hgrows.size_le
      have hless : before.out.size ≤ limit := by simpa using hgoes
      omega
  · cases h

end Zstd

/-! ## LZ4 -/

namespace Lz4

variable {limit limit' : Nat}

/-- A copy that a limit admits is read alike under every larger one. -/
theorem copyStep_mono (hle : limit ≤ limit') {half : Nat} {input : Bytes} {out : Array UInt8}
    (h : copyStep limit half input out ≠ .failed) :
    copyStep limit' half input out = copyStep limit half input out := by
  match input with
  | [] => exact absurd rfl h
  | [_] => exact absurd rfl h
  | low :: high :: rest =>
      simp only [copyStep] at h ⊢
      cases hlength : takeLength half rest with
      | none => rfl
      | some found =>
          simp only [hlength] at h ⊢
          split at h
          · exact absurd rfl h
          · rename_i hadmitted
            rw [if_neg hadmitted, if_neg (by omega)]

theorem step_mono (hle : limit ≤ limit') {state : State} (h : step limit state ≠ .failed) :
    step limit' state = step limit state := by
  match state with
  | ⟨[], _⟩ => exact absurd rfl h
  | ⟨token :: input, out⟩ =>
      simp only [step] at h ⊢
      cases hlength : takeLength (token.toNat / 16) input with
      | none => rfl
      | some found =>
          simp only [hlength] at h ⊢
          split at h
          · exact absurd rfl h
          · rename_i hadmitted
            rw [if_neg hadmitted, if_neg (by omega)]
            split
            · rfl
            · rename_i hrest
              refine copyStep_mono hle ?_
              split at h
              · rename_i hnil
                exact absurd hnil hrest
              · exact h

theorem run_mono (hle : limit ≤ limit') {fuel : Nat} {first state : State}
    (h : run (step limit) (fun _ => false) fuel first = .finished state) :
    run (step limit') (fun _ => false) fuel first = .finished state := by
  fun_induction run (step limit) (fun _ => false) fuel first with
  | case3 fuel before _ after hstep ih =>
      have hlarger := step_mono hle (by rw [hstep]; exact fun h => by cases h)
      simpa only [run, hlarger, hstep, Bool.false_eq_true, if_false] using ih h
  | case4 fuel before _ after hstep =>
      have hlarger := step_mono hle (by rw [hstep]; exact fun h => by cases h)
      simpa only [run, hlarger, hstep, Bool.false_eq_true, if_false] using h
  | _ => cases h

theorem decompress_mono (hle : limit ≤ limit') {data out : Bytes}
    (h : decompress data limit = some out) : decompress data limit' = some out := by
  rw [decompress] at h ⊢
  split at h
  · rename_i state hrun
    rw [run_mono hle hrun]
    exact h
  · cases h

theorem size_of_finished {before state : State} (h : step limit before = .finished state) :
    state.out.size ≤ limit := by
  match before with
  | ⟨[], _⟩ => cases h
  | ⟨token :: input, out⟩ =>
      simp only [step] at h
      split at h
      · cases h
      · split at h
        · cases h
        · rename_i hadmitted
          split at h
          · cases h
            rw [size_appendBytes, List.length_take]
            omega
          · simp only [copyStep] at h
            repeat' split at h
            all_goals cases h

theorem length_of_decompress {data out : Bytes} (h : decompress data limit = some out) :
    out.length ≤ limit := by
  rw [decompress] at h
  split at h
  · rename_i state hrun
    obtain ⟨before, -, hstep⟩ := cases_of_finished hrun
    cases h
    exact size_of_finished hstep
  · cases h

end Lz4
end Compression

namespace Method

/-- How far what a method gives may pass the limit: not at all, by a byte, or by a piece. -/
def slack : Method → Nat
  | zlib => 1
  | lz4 => 0
  | zstd => Compression.Zstd.pieceSize

/-- Some compressed bytes hold some data: it is what the method makes of them when no limit stops
it, up to where they end or are malformed.  A block of LZ4 is read whole or not at all. -/
def Holds (method : Method) (data full : Bytes) : Prop :=
  match method with
  | zlib => Compression.Zlib.full data = full
  | lz4 => ∃ room, Compression.Lz4.decompress data room = some full
  | zstd => Compression.Zstd.full data = full

variable {method : Method} {limit : Nat} {data out full full' : Bytes}

theorem Holds.unique (h : method.Holds data full) (h' : method.Holds data full') : full = full' := by
  cases method with
  | zlib => exact h.symm.trans h'
  | zstd => exact h.symm.trans h'
  | lz4 =>
      obtain ⟨room, hread⟩ := h
      obtain ⟨room', hread'⟩ := h'
      have hmost := Compression.Lz4.decompress_mono (Nat.le_max_left room room') hread
      rw [Compression.Lz4.decompress_mono (Nat.le_max_right room room') hread'] at hmost
      exact (Option.some.inj hmost).symm

/-- What a method gives is capped, whatever it is asked to decompress. -/
theorem isCapped_of_decompress (h : method.decompress limit data = .ok out) :
    ∃ full, method.Holds data full ∧ IsCapped limit method.slack full out := by
  rw [decompress.eq_def] at h
  dsimp only at h
  split at h
  · rename_i bytes hbytes
    cases h
    cases method with
    | zlib =>
        refine ⟨_, rfl, ?_⟩
        rw [Compression.Zlib.decompress_eq_take hbytes]
        exact .of_take limit _
    | lz4 => exact ⟨out, ⟨limit, hbytes⟩, .of_all (Compression.Lz4.length_of_decompress hbytes)⟩
    | zstd => exact ⟨_, rfl, Compression.Zstd.isCapped_decompress hbytes⟩
  · cases h

/-- What `decompress` gives under any limit, of any bytes: no more than the slack of the method
beyond the limit, always the front of what the bytes hold, and all of that whenever it fits the
limit.  So the caller can tell from the length alone whether it does. -/
theorem decompress_within (h : method.decompress limit data = .ok out) :
    out.length ≤ limit + method.slack
    ∧ ∃ full, method.Holds data full ∧ (∀ other, method.Holds data other → other = full)
      ∧ out <+: full
      ∧ (full.length ≤ limit → out = full)
      ∧ (out.length ≤ limit ↔ full.length ≤ limit) := by
  obtain ⟨full, hholds, hcapped⟩ := isCapped_of_decompress h
  exact ⟨hcapped.length_le, full, hholds, fun other hother => hother.unique hholds,
    hcapped.isFront, hcapped.eq_of_fits, hcapped.length_le_iff⟩

def threeBytes : Bytes :=
  Compression.Zstd.Opening.magic ++ [0x20, 3, 0x19, 0, 0, 97, 98, 99]

theorem decompress_threeBytes : zstd.decompress 1 threeBytes = .ok [97, 98, 99] := by
  have hread : Compression.Zstd.decompress threeBytes 1 = some [97, 98, 99] := by decide +kernel
  rw [decompress.eq_def]
  simp only [hread]

/-- A frame is given whole though it has two bytes more than the limit. -/
theorem decompress_within_three :
    zstd.decompress 1 threeBytes = .ok [97, 98, 99]
    ∧ 3 ≤ 1 + zstd.slack
    ∧ ∃ full, zstd.Holds threeBytes full ∧ [97, 98, 99] <+: full ∧ ¬ full.length ≤ 1 := by
  have hread := decompress_threeBytes
  obtain ⟨hlength, full, hholds, -, hfront, -, hfits⟩ := decompress_within hread
  exact ⟨hread, hlength, full, hholds, hfront, fun h => absurd (hfits.2 h) (by decide)⟩

/-- The slack is not always one byte: Zstandard gives the whole piece that passes the limit. -/
theorem not_length_le_succ :
    ¬ ∀ (method : Method) (limit : Nat) (data out : Bytes), method.decompress limit data = .ok out →
      out.length ≤ limit + 1 := by
  intro h
  exact absurd (h .zstd 1 threeBytes _ decompress_threeBytes) (by decide)

end Method
end PhaseWire
