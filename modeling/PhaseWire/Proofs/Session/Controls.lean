import PhaseWire.Proofs.Pipeline.Order
import PhaseWire.Session.Script

/-
# Controls — what is asked of the stages of a connection

Three controls change the stages of a connection in use: a threshold is
set, the configured one is applied, or a key is given to encrypt with.
They find the pipeline in any of its shapes, and each of them changes one
stage and looks at no other (`setThreshold_eq`, `encrypt_first`).  Between two
controls there is only traffic, which moves a cipher on and does nothing
to a compressor (`Carries`).

So the stages are a function of the history.  `Rig.IsSet` says which: the
last threshold that was applied makes the compressor, and the first key of
the right length makes the cipher.
-/

namespace PhaseWire

/-! ## Stages that come and go -/

namespace Pipeline

variable (pipeline : Pipeline)

theorem remove_compressor : ∃ kind?,
    pipeline.remove StageKind.compression.name
      = .ok (kind?, { pipeline with compressor? := none }) := by
  obtain ⟨cipher?, maxBody, compressor?, staged⟩ := pipeline
  cases cipher? with
  | none =>
      cases compressor? with
      | none => exact ⟨none, rfl⟩
      | some compressor => exact ⟨some .compression, rfl⟩
  | some cipher =>
      cases compressor? with
      | none => exact ⟨none, rfl⟩
      | some compressor => exact ⟨some .compression, rfl⟩

variable {pipeline}

/-- Behind the framer there is room for a compressor, whether there is a cipher or not. -/
theorem insert_compressor (h : pipeline.compressor? = none) (compressor : Compressor) :
    pipeline.insert (.after StageKind.framer.name) (.compression compressor)
      = .ok { pipeline with compressor? := some compressor } := by
  obtain ⟨cipher?, maxBody, compressor?, staged⟩ := pipeline
  obtain rfl : compressor? = none := h
  cases cipher? with
  | none => rfl
  | some cipher => rfl

theorem insert_cipher (h : pipeline.cipher? = none) (cipher : Cipher) :
    pipeline.insert (.before StageKind.framer.name) (.cipher cipher)
      = .ok (pipeline.install (.cipher cipher)) := by
  obtain ⟨cipher?, maxBody, compressor?, staged⟩ := pipeline
  obtain rfl : cipher? = none := h
  cases compressor? with
  | none => rfl
  | some compressor => rfl

/-! ## Traffic -/

/-- Nothing but traffic lies between two states of a pipeline. -/
structure Carries (pipeline next : Pipeline) : Prop where
  compressor?_eq : next.compressor? = pipeline.compressor?
  cipher?_eq : ∃ sent received,
    next.cipher? = pipeline.cipher?.map fun cipher => cipher.moved sent received

theorem Carries.refl (pipeline : Pipeline) : pipeline.Carries pipeline :=
  ⟨rfl, [], [], Option.map_id'.symm⟩

theorem Carries.isEncrypted_eq {next : Pipeline} (h : pipeline.Carries next) :
    next.isEncrypted = pipeline.isEncrypted := by
  obtain ⟨sent, received, hcipher⟩ := h.cipher?_eq
  rw [isEncrypted, hcipher, Option.isSome_map]
  rfl

theorem carries_encode {payload : Bytes} {sent : Sent} {next : Pipeline}
    (h : pipeline.encode payload = .ok (sent, next)) : pipeline.Carries next := by
  obtain ⟨body, frame, -, -, hseal⟩ := encode_eq_ok h
  obtain rfl : next = (pipeline.sealFrame frame).2 := congrArg Prod.snd hseal
  rw [sealFrame]
  split
  · exact .refl _
  · rename_i cipher hcipher
    refine ⟨rfl, frame, [], ?_⟩
    rw [hcipher]
    rfl

theorem carries_decode (pipeline : Pipeline) (incoming : Bytes) :
    pipeline.Carries (pipeline.decode incoming).2 := by
  refine ⟨(next_compressor? _).trans (feed_compressor? pipeline incoming), [], incoming, ?_⟩
  refine (next_cipher? (pipeline.feed incoming)).trans ?_
  rw [feed]
  split
  · rename_i hnone
    rw [hnone]
    rfl
  · rename_i cipher hcipher
    rw [hcipher]
    rfl

end Pipeline

/-! ## Controls -/

/-- What can be asked of compression and encryption. -/
inductive Control
  /-- To compress from this size on; a negative size means no compression. -/
  | threshold (size : Int32)
  /-- To compress from the size on that the options give. -/
  | enable
  | encrypt (key : Bytes)
  deriving DecidableEq, Repr

namespace Control

def action {E : Type} : Control → Action E
  | threshold size => .setThreshold size
  | enable => .enableCompression
  | encrypt key => .encrypt key

def applied? (options : SessionOptions) : Control → Option Int32
  | threshold size => some size
  | enable => options.threshold?
  | encrypt _ => none

def key? : Control → Option Bytes
  | encrypt key => if key.length = Limit.cipherKey then some key else none
  | _ => none

def lastApplied? (options : SessionOptions) (controls : List Control) : Option Int32 :=
  (controls.filterMap (applied? options)).getLast?

def firstKey? (controls : List Control) : Option Bytes :=
  controls.findSome? key?

def isEncrypt : Control → Bool
  | encrypt _ => true
  | _ => false

/-- The answer to a control that comes after others. -/
def reply (options : SessionOptions) (before : List Control) : Control → Reply
  | threshold _ => .outcome (.ok ())
  | enable => .threshold (.ok options.threshold?)
  | encrypt key =>
    .outcome (if (firstKey? before).isSome then .error .alreadyEncrypted
      else if key.length = Limit.cipherKey then .ok () else .error (.keyLength key.length))

/-- The compressor that the options give for the threshold that was applied last. -/
def tuned (options : SessionOptions) : Option Int32 → Option Compressor
  | none => none
  | some size => if size < 0 then none else some (Session.compressorOf options size.toInt.toNat)

/-- Without a threshold there is no compressor, nor with a negative one. -/
theorem tuned_eq_none_iff {options : SessionOptions} {last? : Option Int32} :
    tuned options last? = none ↔ last? = none ∨ ∃ size, last? = some size ∧ size < 0 := by
  cases last? with
  | none => simp [tuned]
  | some size => simp [tuned]

end Control

/-- What the controls see and change of a session. -/
structure Rig where
  options : SessionOptions
  pipeline : Pipeline
  /-- How many connections were counted as encrypted. -/
  encryptions : UInt64

namespace Cipher

inductive Keyed : Option Bytes → Option Cipher → Prop
  | plain : Keyed none none
  | encrypted {key : Bytes} {cipher : Cipher} (sent received : Bytes) :
      ofKey key = .ok cipher → Keyed (some key) (some (cipher.moved sent received))

variable {key? : Option Bytes} {cipher? : Option Cipher}

theorem Keyed.moved (h : Keyed key? cipher?) (sent received : Bytes) :
    Keyed key? (cipher?.map fun cipher => cipher.moved sent received) := by
  cases h with
  | plain => exact .plain
  | encrypted before earlier hkey =>
      rw [Option.map_some, Cipher.moved_moved]
      exact .encrypted _ _ hkey

theorem Keyed.isSome_eq (h : Keyed key? cipher?) : cipher?.isSome = key?.isSome := by
  cases h with
  | plain => rfl
  | encrypted sent received hkey => rfl

end Cipher

namespace Session

variable {E N : Type} [CustomPackets E] (session : Session E N)

def rig : Rig :=
  ⟨session.options, session.codec.pipeline, session.metrics.encryptionEnabled⟩

/-! ## What a control does -/

theorem setThreshold_eq (size : Int32) : session.setThreshold size =
    (.ok (), session.withPipeline { session.codec.pipeline with
      compressor? := if size < 0 then none
        else match session.codec.pipeline.compressor? with
          | some compressor => some { compressor with threshold := size.toInt.toNat }
          | none => some (compressorOf session.options size.toInt.toNat) }) := by
  rw [setThreshold]
  split
  · obtain ⟨kind?, hremove⟩ := session.codec.pipeline.remove_compressor
    rw [hremove]
  · rw [compressFrom]
    cases hcompressor : session.codec.pipeline.compressor? with
    | none => simp only [Pipeline.insert_compressor hcompressor, Option.isSome_none]; rfl
    | some compressor => simp only [Option.isSome_some, Pipeline.retune, hcompressor]; rfl

variable {session}

/-- A second key is refused before anybody looks at it. -/
theorem encrypt_again (h : session.codec.pipeline.isEncrypted) (key : Bytes) :
    session.encrypt key = (.error .alreadyEncrypted, session) := by
  rw [encrypt, if_pos h]

theorem encrypt_first (h : session.codec.pipeline.isEncrypted = false) (key : Bytes) :
    session.encrypt key = match Cipher.ofKey key with
      | .error fault => (.error fault, session)
      | .ok cipher =>
        (.ok (), (session.withPipeline (session.codec.pipeline.install (.cipher cipher))).count
          Metrics.encrypted) := by
  have hnone : session.codec.pipeline.cipher? = none :=
    Option.not_isSome_iff_eq_none.mp (Bool.eq_false_iff.mp h)
  rw [encrypt, if_neg (Bool.eq_false_iff.mp h)]
  cases hkey : Cipher.ofKey key with
  | error fault => rfl
  | ok cipher => simp only [Pipeline.insert_cipher hnone]

end Session

/-! ## Histories -/

namespace Control

variable (options : SessionOptions) (controls : List Control) (control : Control)

theorem lastApplied?_concat : lastApplied? options (controls ++ [control])
    = (control.applied? options).or (lastApplied? options controls) := by
  rw [lastApplied?, List.filterMap_append, List.getLast?_append]
  cases h : control.applied? options with
  | none => simp [h, lastApplied?]
  | some size => simp [h]

theorem firstKey?_concat :
    firstKey? (controls ++ [control]) = (firstKey? controls).or control.key? := by
  rw [firstKey?, List.findSome?_append, firstKey?]
  cases h : control.key? with
  | none => simp [h]
  | some key => simp [h]

theorem lastApplied?_filter :
    lastApplied? options (controls.filter (!isEncrypt ·)) = lastApplied? options controls := by
  rw [lastApplied?, List.filterMap_filter]
  refine congrArg (fun applied : Control → Option Int32 => (controls.filterMap applied).getLast?) ?_
  funext control
  cases control with
  | threshold size => rfl
  | enable => rfl
  | encrypt key => rfl

theorem firstKey?_isSome_iff : (firstKey? controls).isSome
    ↔ ∃ key, encrypt key ∈ controls ∧ key.length = Limit.cipherKey := by
  rw [firstKey?, List.findSome?_isSome_iff]
  constructor
  · rintro ⟨control, hmem, hkey⟩
    cases control with
    | encrypt key =>
        refine ⟨key, hmem, ?_⟩
        by_contra hother
        rw [key?, if_neg hother] at hkey
        cases hkey
    | _ => cases hkey
  · rintro ⟨key, hmem, hlength⟩
    refine ⟨_, hmem, ?_⟩
    rw [key?, if_pos hlength]
    rfl

theorem firstKey?_eq {before after : List Control} {key : Bytes}
    (hlength : key.length = Limit.cipherKey)
    (hfirst : ∀ other, encrypt other ∈ before → other.length ≠ Limit.cipherKey) :
    firstKey? (before ++ encrypt key :: after) = some key := by
  have hnone : firstKey? before = none := by
    rw [← Option.not_isSome_iff_eq_none, firstKey?_isSome_iff]
    rintro ⟨other, hmem, hother⟩
    exact hfirst other hmem hother
  rw [firstKey?] at hnone ⊢
  rw [List.findSome?_append, hnone, Option.none_or, List.findSome?_cons, key?, if_pos hlength]

theorem tuned_again {last? : Option Int32} {compressor? : Option Compressor}
    (h : compressor? = tuned options last?) (size : Int32) :
    (if size < 0 then none
      else match compressor? with
        | some compressor => some { compressor with threshold := size.toInt.toNat }
        | none => some (Session.compressorOf options size.toInt.toNat))
      = tuned options (some size) := by
  rw [h, tuned]
  split
  · rfl
  · -- a compressor that is there was made from the same options
    cases last? with
    | none => rfl
    | some last =>
        rw [tuned]
        split
        · rename_i compressor hsome
          split at hsome
          · cases hsome
          · cases hsome
            rfl
        · rfl

end Control

namespace Rig

/-- The rig is what a history of controls has made of it, where `found` connections had been counted
as encrypted before; and each control was answered as its history says. -/
structure IsSet (found : UInt64) (made : List (Control × Reply)) (rig : Rig) : Prop where
  compressor?_eq : rig.pipeline.compressor?
    = Control.tuned rig.options (Control.lastApplied? rig.options (made.map Prod.fst))
  keyed : Cipher.Keyed (Control.firstKey? (made.map Prod.fst)) rig.pipeline.cipher?
  counted : rig.encryptions = found + if rig.pipeline.isEncrypted then 1 else 0
  answered : ∀ before control reply after, made = before ++ (control, reply) :: after →
    reply = control.reply rig.options (before.map Prod.fst)

def compress (rig : Rig) (compressor? : Option Compressor) : Rig :=
  { rig with pipeline := { rig.pipeline with compressor? } }

def encrypt (rig : Rig) (cipher : Cipher) : Rig :=
  { rig with
    pipeline := rig.pipeline.install (.cipher cipher)
    encryptions := rig.encryptions + 1 }

variable {found : UInt64} {made : List (Control × Reply)} {rig next : Rig}

theorem IsSet.isEncrypted_eq (h : rig.IsSet found made) :
    rig.pipeline.isEncrypted = (Control.firstKey? (made.map Prod.fst)).isSome :=
  h.keyed.isSome_eq

/-- The first key of the right length is that of the cipher. -/
theorem IsSet.cipher?_eq (h : rig.IsSet found made) {key : Bytes}
    (hfirst : Control.firstKey? (made.map Prod.fst) = some key) :
    ∃ cipher sent received, Cipher.ofKey key = .ok cipher
      ∧ rig.pipeline.cipher? = some (cipher.moved sent received) := by
  have hkeyed := h.keyed
  rw [hfirst] at hkeyed
  generalize rig.pipeline.cipher? = cipher? at hkeyed ⊢
  cases hkeyed with
  | encrypted sent received hkey => exact ⟨_, sent, received, hkey, rfl⟩

theorem isSet_new (options : SessionOptions) (maxBody : Nat) (found : UInt64) :
    IsSet found [] ⟨options, .new maxBody, found⟩ where
  compressor?_eq := rfl
  keyed := .plain
  counted := (UInt64.add_zero found).symm
  answered before control reply after hmade := by
    cases before with
    | nil => cases hmade
    | cons first rest => cases hmade

theorem IsSet.renew (h : rig.IsSet found []) (options : SessionOptions) (maxBody : Nat) :
    IsSet found [] ⟨options, .new maxBody, rig.encryptions⟩ := by
  have hcounted := h.counted
  rw [h.isEncrypted_eq] at hcounted
  rw [hcounted.trans (UInt64.add_zero found)]
  exact isSet_new options maxBody found

/-- Only traffic, which is nothing to the history. -/
structure Carries (rig next : Rig) : Prop where
  options_eq : next.options = rig.options
  pipeline : rig.pipeline.Carries next.pipeline
  encryptions_eq : next.encryptions = rig.encryptions

theorem Carries.of_eq (h : next = rig) : rig.Carries next := by
  rw [h]
  exact ⟨rfl, .refl _, rfl⟩

theorem IsSet.carries (h : rig.IsSet found made) (hcarries : rig.Carries next) :
    next.IsSet found made where
  compressor?_eq := by
    rw [hcarries.pipeline.compressor?_eq, hcarries.options_eq]
    exact h.compressor?_eq
  keyed := by
    obtain ⟨sent, received, hcipher⟩ := hcarries.pipeline.cipher?_eq
    rw [hcipher]
    exact h.keyed.moved sent received
  counted := by
    rw [hcarries.encryptions_eq, hcarries.pipeline.isEncrypted_eq]
    exact h.counted
  answered := by
    rw [hcarries.options_eq]
    exact h.answered

theorem IsSet.concat (h : rig.IsSet found made) {control : Control} {reply : Reply}
    (hoptions : next.options = rig.options)
    (hcompressor : next.pipeline.compressor? = Control.tuned rig.options
      (Control.lastApplied? rig.options (made.map Prod.fst ++ [control])))
    (hkeyed : Cipher.Keyed (Control.firstKey? (made.map Prod.fst ++ [control]))
      next.pipeline.cipher?)
    (hcounted : next.encryptions = found + if next.pipeline.isEncrypted then 1 else 0)
    (hreply : reply = control.reply rig.options (made.map Prod.fst)) :
    next.IsSet found (made ++ [(control, reply)]) where
  compressor?_eq := by
    rw [hoptions, List.map_append]
    exact hcompressor
  keyed := by
    rw [List.map_append]
    exact hkeyed
  counted := hcounted
  answered before other answer after hmade := by
    rw [hoptions]
    -- it is the new control, or one that the history knows
    rcases List.eq_nil_or_concat after with rfl | ⟨after, last, rfl⟩
    · obtain ⟨rfl, hlast⟩ := List.append_inj' hmade rfl
      cases hlast
      exact hreply
    · rw [List.concat_eq_append, ← List.cons_append, ← List.append_assoc] at hmade
      exact h.answered before other answer after (List.append_inj' hmade rfl).1

theorem IsSet.applied (h : rig.IsSet found made) {control : Control} {size : Int32} {reply : Reply}
    (happlied : control.applied? rig.options = some size) (hkey : control.key? = none)
    (hreply : reply = control.reply rig.options (made.map Prod.fst)) :
    IsSet found (made ++ [(control, reply)])
      (rig.compress (Control.tuned rig.options (some size))) := by
  refine h.concat rfl ?_ ?_ h.counted hreply
  · rw [Control.lastApplied?_concat, happlied, Option.some_or]
    rfl
  · rw [Control.firstKey?_concat, hkey, Option.or_none]
    exact h.keyed

theorem IsSet.unchanged (h : rig.IsSet found made) {control : Control} {reply : Reply}
    (happlied : control.applied? rig.options = none)
    (hkey : (Control.firstKey? (made.map Prod.fst)).isSome ∨ control.key? = none)
    (hreply : reply = control.reply rig.options (made.map Prod.fst)) :
    rig.IsSet found (made ++ [(control, reply)]) := by
  refine h.concat rfl ?_ ?_ h.counted hreply
  · rw [Control.lastApplied?_concat, happlied, Option.none_or]
    exact h.compressor?_eq
  · rw [Control.firstKey?_concat]
    rcases hkey with hfirst | hnone
    · rw [Option.or_of_isSome hfirst]
      exact h.keyed
    · rw [hnone, Option.or_none]
      exact h.keyed

theorem IsSet.encrypted (h : rig.IsSet found made) {key : Bytes} {cipher : Cipher}
    (hplain : Control.firstKey? (made.map Prod.fst) = none) (hkey : Cipher.ofKey key = .ok cipher) :
    IsSet found (made ++ [(.encrypt key, .outcome (.ok ()))]) (rig.encrypt cipher) := by
  have hlength : key.length = Limit.cipherKey := by
    by_contra hother
    rw [Cipher.ofKey, if_neg hother] at hkey
    cases hkey
  refine h.concat rfl ?_ ?_ ?_ ?_
  · rw [Control.lastApplied?_concat]
    exact h.compressor?_eq
  · rw [Control.firstKey?_concat, hplain, Option.none_or, Control.key?, if_pos hlength]
    -- the first bytes that the cipher decrypts are those that were staged when it came
    exact .encrypted [] rig.pipeline.staged hkey
  · have hcounted := h.counted
    rw [h.isEncrypted_eq, hplain, Option.isSome_none, if_neg Bool.false_ne_true,
      UInt64.add_zero] at hcounted
    exact congrArg (· + 1) hcounted
  · rw [Control.reply, hplain, if_pos hlength]
    rfl

end Rig

namespace Session

variable {E N : Type} [CustomPackets E] {session : Session E N} {found : UInt64}
  {made : List (Control × Reply)}

theorem setThreshold_rig (h : session.rig.IsSet found made) (size : Int32) :
    (session.setThreshold size).2.rig
      = session.rig.compress (Control.tuned session.options (some size)) := by
  rw [setThreshold_eq]
  exact congrArg session.rig.compress (Control.tuned_again _ h.compressor?_eq size)

theorem act_congr {other : Session E N} (h : session.rig = other.rig) (control : Control) :
    (session.act control.action).1 = (other.act control.action).1
      ∧ (session.act control.action).2.rig = (other.act control.action).2.rig := by
  have hoptions : session.options = other.options := congrArg Rig.options h
  have hpipeline : session.codec.pipeline = other.codec.pipeline := congrArg Rig.pipeline h
  have hthreshold : ∀ size : Int32, (session.setThreshold size).1 = (other.setThreshold size).1
      ∧ (session.setThreshold size).2.rig = (other.setThreshold size).2.rig := by
    intro size
    rw [setThreshold_eq, setThreshold_eq]
    refine ⟨rfl, ?_⟩
    show session.rig.compress _ = other.rig.compress _
    rw [h, hpipeline, hoptions]
  cases control with
  | threshold size => exact ⟨congrArg Reply.outcome (hthreshold size).1, (hthreshold size).2⟩
  | enable =>
      rw [Control.action, act, act, enableCompression, enableCompression, hoptions]
      cases other.options.threshold? with
      | none => exact ⟨rfl, h⟩
      | some size =>
          obtain ⟨hresult, hrig⟩ := hthreshold size
          exact ⟨congrArg (fun result => Reply.threshold (result.map fun _ => some size)) hresult,
            hrig⟩
  | encrypt key =>
      rw [Control.action, act, act]
      cases hencrypted : other.codec.pipeline.isEncrypted with
      | true =>
          rw [encrypt_again hencrypted, encrypt_again (hpipeline ▸ hencrypted)]
          exact ⟨rfl, h⟩
      | false =>
          rw [encrypt_first hencrypted, encrypt_first (hpipeline ▸ hencrypted)]
          cases Cipher.ofKey key with
          | error fault => exact ⟨rfl, h⟩
          | ok cipher => exact ⟨rfl, congrArg (fun rig => rig.encrypt cipher) h⟩

/-- A control does what its history says. -/
theorem act_isSet (h : session.rig.IsSet found made) (control : Control) :
    (session.act control.action).2.rig.IsSet found
      (made ++ [(control, (session.act control.action).1)]) := by
  cases control with
  | threshold size =>
      rw [Control.action, act]
      dsimp only
      rw [setThreshold_rig h, setThreshold_eq]
      exact h.applied rfl rfl rfl
  | enable =>
      rw [Control.action, act, enableCompression]
      cases hconfigured : session.options.threshold? with
      | none =>
          refine h.unchanged hconfigured (.inr rfl) ?_
          rw [Control.reply]
          exact congrArg (fun configured => Reply.threshold (.ok configured)) hconfigured.symm
      | some size =>
          dsimp only
          rw [setThreshold_rig h, setThreshold_eq]
          refine h.applied hconfigured rfl ?_
          rw [Control.reply]
          exact congrArg (fun configured => Reply.threshold (.ok configured)) hconfigured.symm
  | encrypt key =>
      have hencrypted : session.codec.pipeline.isEncrypted
          = (Control.firstKey? (made.map Prod.fst)).isSome := h.isEncrypted_eq
      rw [Control.action, act]
      cases hfirst : Control.firstKey? (made.map Prod.fst) with
      | some first =>
          rw [hfirst] at hencrypted
          rw [encrypt_again hencrypted]
          refine h.unchanged rfl (.inl (Option.isSome_iff_exists.mpr ⟨first, hfirst⟩)) ?_
          rw [Control.reply, hfirst]
          rfl
      | none =>
          rw [hfirst] at hencrypted
          rw [encrypt_first hencrypted]
          by_cases hlength : key.length = Limit.cipherKey
          · rw [Cipher.ofKey, if_pos hlength]
            exact h.encrypted hfirst (if_pos hlength)
          · rw [Cipher.ofKey, if_neg hlength]
            refine h.unchanged rfl (.inr (if_neg hlength)) ?_
            rw [Control.reply, hfirst, if_neg hlength]
            rfl

end Session
end PhaseWire
