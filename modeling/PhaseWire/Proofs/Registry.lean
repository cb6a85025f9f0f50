import Mathlib.Data.List.Nodup
import PhaseWire.Registry
import PhaseWire.Proofs.Packet

/-
# What is registered is found, on both sides

A registration is refused if its type or its slot is taken, so a list of
registrations goes through if nothing in it is in the way of anything else
(`registerAll_of_sound`), and in what it makes every descriptor is found
under its type and under its slot.  The core packet types go through, and
each side has those of the other with the directions turned round
(`mem_standard_opposite`).
-/

namespace PhaseWire

variable {E : Type} [CustomPackets E]

/-! ## Slots -/

namespace Descriptor

/-- What a received packet is looked up by. -/
def slot (descriptor : Descriptor E) : Phase × Direction × Int32 :=
  (descriptor.phase, descriptor.direction, descriptor.id)

/-- The same type as the other end registers it. -/
def flip (descriptor : Descriptor E) : Descriptor E :=
  { descriptor with direction := descriptor.direction.flip }

end Descriptor

namespace Registry

/-- Sizes are in order, and neither types nor slots are taken twice. -/
structure IsSound (registry : Registry E) : Prop where
  inOrder : ∀ descriptor ∈ registry.descriptors, descriptor.minSize ≤ descriptor.maxSize
  kinds : (registry.descriptors.map Descriptor.kind).Nodup
  slots : (registry.descriptors.map Descriptor.slot).Nodup

/-! ## Looking up -/

theorem mem_of_ofKind {registry : Registry E} {kind : PacketKind E} {descriptor : Descriptor E}
    (h : registry.ofKind kind = .ok descriptor) :
    descriptor ∈ registry.descriptors ∧ descriptor.kind = kind := by
  rw [ofKind, ofKind?] at h
  split at h
  · rename_i found hfound
    cases h
    have hkind := List.find?_some hfound
    exact ⟨List.mem_of_find?_eq_some hfound, of_decide_eq_true hkind⟩
  · cases h

theorem mem_of_ofId {registry : Registry E} {phase : Phase} {direction : Direction} {id : Int32}
    {descriptor : Descriptor E} (h : registry.ofId phase direction id = .ok descriptor) :
    descriptor ∈ registry.descriptors ∧ descriptor.slot = (phase, direction, id) := by
  rw [ofId, ofId?] at h
  split at h
  · rename_i found hfound
    cases h
    have hslot := List.find?_some hfound
    obtain ⟨rfl, rfl, rfl⟩ := of_decide_eq_true hslot
    exact ⟨List.mem_of_find?_eq_some hfound, rfl⟩
  · cases h

theorem find?_of_nodup {α β : Type} [DecidableEq β] {key : α → β} :
    ∀ {entries : List α} {entry : α}, (entries.map key).Nodup → entry ∈ entries →
    entries.find? (fun other => decide (key other = key entry)) = some entry := by
  intro entries
  induction entries with
  | nil =>
      intro entry _ hmem
      cases hmem
  | cons first rest ih =>
      intro entry hdistinct hmem
      rw [List.map_cons, List.nodup_cons] at hdistinct
      obtain ⟨hnew, hdistinct⟩ := hdistinct
      rcases List.mem_cons.1 hmem with rfl | hrest
      · exact List.find?_cons_of_pos (decide_eq_true rfl)
      · have hother : ¬ key first = key entry := fun heq =>
          hnew (heq ▸ List.mem_map_of_mem hrest)
        rw [List.find?_cons_of_neg (by simpa using hother), ih hdistinct hrest]

theorem IsSound.ofKind_of_mem {registry : Registry E} (hsound : registry.IsSound)
    {descriptor : Descriptor E} (hmem : descriptor ∈ registry.descriptors) :
    registry.ofKind descriptor.kind = .ok descriptor := by
  rw [ofKind, ofKind?, find?_of_nodup hsound.kinds hmem]

theorem IsSound.ofId_of_mem {registry : Registry E} (hsound : registry.IsSound)
    {descriptor : Descriptor E} (hmem : descriptor ∈ registry.descriptors) :
    registry.ofId descriptor.phase descriptor.direction descriptor.id = .ok descriptor := by
  have hfound := find?_of_nodup hsound.slots hmem
  simp only [Descriptor.slot, Prod.mk.injEq] at hfound
  rw [ofId, ofId?, hfound]

/-! ## Registering -/

theorem register_of_sound {registry : Registry E} {entry : Registration E}
    (hsound : IsSound ⟨registry.descriptors ++ [entry.descriptor]⟩) :
    registry.register entry = .ok ⟨registry.descriptors ++ [entry.descriptor]⟩ := by
  obtain ⟨hinOrder, hkinds, hslots⟩ := hsound
  rw [List.map_append, List.nodup_append] at hkinds hslots
  have hsizes : entry.minSize ≤ entry.maxSize :=
    hinOrder entry.descriptor (List.mem_append_right _ (List.mem_singleton_self _))
  have hkind : registry.ofKind? entry.kind = none := by
    refine List.find?_eq_none.2 fun other hother hsame => ?_
    exact hkinds.2.2 _ (List.mem_map_of_mem hother) _ (List.mem_singleton_self _)
      (of_decide_eq_true hsame)
  have hslot : registry.ofId? entry.phase entry.direction entry.id = none := by
    refine List.find?_eq_none.2 fun other hother hsame => ?_
    obtain ⟨hphase, hdirection, hid⟩ := of_decide_eq_true hsame
    refine hslots.2.2 _ (List.mem_map_of_mem hother) _ (List.mem_singleton_self _) ?_
    rw [Descriptor.slot, hphase, hdirection, hid]
    rfl
  simp only [register, hkind, hslot]
  rw [if_neg (Nat.not_lt.2 hsizes)]
  rfl

theorem IsSound.of_append {registry : Registry E} {more : List (Descriptor E)}
    (hsound : IsSound ⟨registry.descriptors ++ more⟩) : registry.IsSound where
  inOrder := fun descriptor hmem => hsound.inOrder descriptor (List.mem_append_left _ hmem)
  kinds := by
    have hkinds := hsound.kinds
    rw [List.map_append, List.nodup_append] at hkinds
    exact hkinds.1
  slots := by
    have hslots := hsound.slots
    rw [List.map_append, List.nodup_append] at hslots
    exact hslots.1

theorem registerAll_of_sound : ∀ {entries : List (Registration E)} {registry : Registry E},
    IsSound ⟨registry.descriptors ++ entries.map Registration.descriptor⟩ →
    registry.registerAll entries
      = (.ok (), ⟨registry.descriptors ++ entries.map Registration.descriptor⟩) := by
  intro entries
  induction entries with
  | nil =>
      intro registry _
      rw [registerAll, List.map_nil, List.append_nil]
  | cons entry entries ih =>
      intro registry hsound
      rw [List.map_cons, List.append_cons] at hsound ⊢
      have hfirst : IsSound ⟨registry.descriptors ++ [entry.descriptor]⟩ :=
        IsSound.of_append hsound
      rw [registerAll, register_of_sound hfirst]
      exact ih hsound

/-! ## The core packet types -/

def coreOrder : List CoreKind :=
  [.handshake, .statusRequest, .statusPing, .statusResponse, .statusPong, .loginStart,
    .encryptionResponse, .loginDisconnect, .encryptionRequest, .loginSuccess, .setCompression,
    .serverboundKeepAlive, .clientboundKeepAlive, .playDisconnect]

theorem coreEntries_kinds (side : Side) :
    ((coreEntries side : List (Registration E)).map Registration.descriptor).map
        (fun descriptor => (descriptor.kind, descriptor.produces, descriptor.minSize))
      = coreOrder.map fun kind => (.core kind, .core kind, kind.least) := by
  cases side
  · rfl
  · rfl

theorem coreEntries_sound (side : Side) :
    IsSound (⟨(coreEntries side).map Registration.descriptor⟩ : Registry E) where
  inOrder := by
    have hall : ((coreEntries side : List (Registration E)).map Registration.descriptor).all
        (fun descriptor => decide (descriptor.minSize ≤ descriptor.maxSize)) = true := by
      cases side
      · rfl
      · rfl
    intro descriptor hmem
    exact of_decide_eq_true (List.all_eq_true.1 hall descriptor hmem)
  kinds := by
    have hkinds : ((coreEntries side : List (Registration E)).map Registration.descriptor).map
        Descriptor.kind = coreOrder.map .core := by
      cases side
      · rfl
      · rfl
    show (List.map Descriptor.kind _).Nodup
    rw [hkinds]
    have hcore : Function.Injective (PacketKind.core : CoreKind → PacketKind E) :=
      fun _ _ => PacketKind.core.inj
    exact List.Nodup.map hcore (by decide)
  slots := by
    -- no slot depends on the application's packets
    have hslots : ((coreEntries side : List (Registration E)).map Registration.descriptor).map
          Descriptor.slot
        = ((coreEntries side : List (Registration Empty)).map Registration.descriptor).map
          Descriptor.slot := by
      cases side
      · rfl
      · rfl
    show (List.map Descriptor.slot _).Nodup
    rw [hslots]
    cases side
    · decide
    · decide

theorem descriptors_standard (side : Side) :
    (standard side : Registry E).descriptors
      = (coreEntries side).map Registration.descriptor := by
  have hsound : IsSound ⟨(empty : Registry E).descriptors
      ++ (coreEntries side).map Registration.descriptor⟩ := coreEntries_sound side
  rw [standard, registerCore, registerAll_of_sound hsound]
  rfl

theorem standard_sound (side : Side) : (standard side : Registry E).IsSound := by
  have hsound := coreEntries_sound (E := E) side
  rw [← descriptors_standard] at hsound
  exact hsound

/-- A core type is registered as what its frames are read as, from its least size on. -/
theorem core_of_mem_standard {side : Side} {descriptor : Descriptor E}
    (h : descriptor ∈ (standard side : Registry E).descriptors) :
    ∃ kind, descriptor.kind = .core kind ∧ descriptor.produces = .core kind
      ∧ descriptor.minSize = kind.least := by
  have hlisted := List.mem_map_of_mem
    (f := fun descriptor => (descriptor.kind, descriptor.produces, descriptor.minSize)) h
  rw [descriptors_standard, coreEntries_kinds] at hlisted
  obtain ⟨kind, -, hkind⟩ := List.mem_map.1 hlisted
  simp only [Prod.mk.injEq] at hkind
  obtain ⟨hkind, hproduces, hleast⟩ := hkind
  exact ⟨kind, hkind.symm, hproduces.symm, hleast.symm⟩

/-- A probe goes to the client, the answer to the server. -/
theorem direction_of_keepalive {side : Side} {descriptor : Descriptor E}
    (h : descriptor ∈ (standard side : Registry E).descriptors) :
    (descriptor.kind = .core .clientboundKeepAlive → descriptor.direction = side.clientbound)
      ∧ (descriptor.kind = .core .serverboundKeepAlive →
        descriptor.direction = side.serverbound) := by
  have hall : ((coreEntries side : List (Registration E)).map Registration.descriptor).all
      (fun descriptor => decide
        ((descriptor.kind = .core .clientboundKeepAlive → descriptor.direction = side.clientbound)
          ∧ (descriptor.kind = .core .serverboundKeepAlive →
            descriptor.direction = side.serverbound))) = true := by
    cases side
    · rfl
    · rfl
  rw [descriptors_standard] at h
  exact of_decide_eq_true (List.all_eq_true.1 hall descriptor h)

theorem maxSize_of_mem_standard {side : Side} {descriptor : Descriptor E}
    (h : descriptor ∈ (standard side : Registry E).descriptors) : descriptor.maxSize < 2 ^ 31 := by
  have hall : ((coreEntries side : List (Registration E)).map Registration.descriptor).all
      (fun descriptor => decide (descriptor.maxSize < 2 ^ 31)) = true := by
    cases side
    · rfl
    · rfl
  rw [descriptors_standard] at h
  exact of_decide_eq_true (List.all_eq_true.1 hall descriptor h)

/-- Each side has the types of the other with the directions turned round. -/
theorem mem_standard_opposite {side : Side} {descriptor : Descriptor E}
    (h : descriptor ∈ (standard side : Registry E).descriptors) :
    descriptor.flip ∈ (standard side.opposite : Registry E).descriptors := by
  have hflip : (standard side.opposite : Registry E).descriptors
      = (standard side : Registry E).descriptors.map Descriptor.flip := by
    rw [descriptors_standard, descriptors_standard]
    cases side
    · rfl
    · rfl
  rw [hflip]
  exact List.mem_map_of_mem h

end Registry
end PhaseWire
