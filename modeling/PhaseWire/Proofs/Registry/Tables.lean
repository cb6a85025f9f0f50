import Mathlib.Data.List.AList
import PhaseWire.Proofs.Registry

/-
# The registry is the list of what was accepted

Packet types are registered in calls, each for one type or for all core
types of a side, and any of them may be refused; one for the core types
stops at the first that is refused and keeps those before it.  What is
accepted in the course of such calls is a list (`Roster`), and there is
nothing else to a registry: look-ups, sizes and answers are read off that
list.

The same holds of an index by type and an index by id for each phase and
direction, which are filled one after the other in place (`Tables`): a
registration takes its id first and its type second, and in between it can
only be refused where the first of the two has not happened.  So the
indices stay in step with the list, and with each other (`Mirrors`).
-/

namespace PhaseWire

variable {E : Type} [CustomPackets E]

/-! ## Calls and what they accept -/

/-- What a registration is looked up by when a packet is received. -/
def Registration.slot (entry : Registration E) : Phase × Direction × Int32 :=
  (entry.phase, entry.direction, entry.id)

/-- A registration that may join those that were accepted. -/
structure Registration.Fits (accepted : List (Registration E)) (entry : Registration E) : Prop where
  sizes : entry.minSize ≤ entry.maxSize
  kind : ∀ other ∈ accepted, other.kind ≠ entry.kind
  slot : ∀ other ∈ accepted, other.slot ≠ entry.slot

instance (accepted : List (Registration E)) (entry : Registration E) :
    Decidable (entry.Fits accepted) :=
  decidable_of_iff (entry.minSize ≤ entry.maxSize ∧ (∀ other ∈ accepted, other.kind ≠ entry.kind)
      ∧ ∀ other ∈ accepted, other.slot ≠ entry.slot)
    ⟨fun ⟨sizes, kind, slot⟩ => ⟨sizes, kind, slot⟩, fun h => ⟨h.sizes, h.kind, h.slot⟩⟩

inductive Enrolment (E : Type) [CustomPackets E]
  | one (entry : Registration E)
  | core (side : Side)

def Enrolment.entries : Enrolment E → List (Registration E)
  | one entry => [entry]
  | core side => Registry.coreEntries side

/-- The registrations that were accepted, oldest first. -/
structure Roster (E : Type) [CustomPackets E] where
  accepted : List (Registration E)

namespace Roster

/-- Accepts registrations in turn until one does not fit. -/
def acceptAll (roster : Roster E) : List (Registration E) → Bool × Roster E
  | [] => (true, roster)
  | entry :: entries =>
    if entry.Fits roster.accepted then acceptAll ⟨roster.accepted ++ [entry]⟩ entries
    else (false, roster)

/-- One call after the other; which of them were accepted as a whole, and the roster after them. -/
def enrol (roster : Roster E) : List (Enrolment E) → List Bool × Roster E
  | [] => ([], roster)
  | call :: calls =>
    let (accepted, next) := roster.acceptAll call.entries
    let (others, last) := next.enrol calls
    (accepted :: others, last)

end Roster

namespace Registry

def enrol (registry : Registry E) : List (Enrolment E) → List (Except Fault Unit) × Registry E
  | [] => ([], registry)
  | call :: calls =>
    let (answer, next) := registry.registerAll call.entries
    let (answers, last) := next.enrol calls
    (answer :: answers, last)

end Registry

/-! ## Tables -/

/-- An index by type, and one by id for each phase and direction. -/
structure Tables (E : Type) [CustomPackets E] where
  byKind : AList fun _ : PacketKind E => Descriptor E
  byId : Phase → Direction → AList fun _ : Int32 => Descriptor E

namespace Tables

def empty : Tables E :=
  ⟨∅, fun _ _ => ∅⟩

def enterId (tables : Tables E) (descriptor : Descriptor E) : Tables E :=
  { tables with
    byId := fun phase direction =>
      if descriptor.phase = phase ∧ descriptor.direction = direction then
        (tables.byId phase direction).insert descriptor.id descriptor
      else tables.byId phase direction }

def insertId (tables : Tables E) (descriptor : Descriptor E) : Except Fault Unit × Tables E :=
  match (tables.byId descriptor.phase descriptor.direction).lookup descriptor.id with
  | some holder =>
    (.error (.idTaken descriptor.phase descriptor.direction descriptor.id holder.typeName), tables)
  | none => (.ok (), tables.enterId descriptor)

/-- Enters a packet type under its id, then under its type. -/
def register (tables : Tables E) (entry : Registration E) : Except Fault Unit × Tables E :=
  let descriptor := entry.descriptor
  if entry.maxSize < entry.minSize then
    (.error (.setup
      s!"{descriptor.typeName}: minimum size {entry.minSize} exceeds maximum size {entry.maxSize}"),
      tables)
  else if entry.kind ∈ tables.byKind then (.error (.typeTaken descriptor.typeName), tables)
  else
    match tables.insertId descriptor with
    | (.error fault, tables) => (.error fault, tables)
    | (.ok (), tables) =>
      (.ok (), { tables with byKind := tables.byKind.insert entry.kind descriptor })

def registerAll (tables : Tables E) : List (Registration E) → Except Fault Unit × Tables E
  | [] => (.ok (), tables)
  | entry :: entries =>
    match tables.register entry with
    | (.error fault, tables) => (.error fault, tables)
    | (.ok (), tables) => tables.registerAll entries

def enrol (tables : Tables E) : List (Enrolment E) → List (Except Fault Unit) × Tables E
  | [] => ([], tables)
  | call :: calls =>
    let (answer, next) := tables.registerAll call.entries
    let (answers, last) := next.enrol calls
    (answer :: answers, last)

/-- The number of types. -/
def size (tables : Tables E) : Nat :=
  tables.byKind.entries.length

def idCount (tables : Tables E) (phase : Phase) (direction : Direction) : Nat :=
  (tables.byId phase direction).entries.length

end Tables

/-! ## The registry and its roster -/

namespace Registry

/-- A registry that has exactly the descriptors of what was accepted. -/
structure Follows (registry : Registry E) (roster : Roster E) : Prop where
  descriptors : registry.descriptors = roster.accepted.map Registration.descriptor
  sound : registry.IsSound

variable {registry : Registry E} {roster : Roster E}

theorem Follows.empty : Follows (Registry.empty : Registry E) ⟨[]⟩ where
  descriptors := rfl
  sound := ⟨fun _ h => absurd h List.not_mem_nil, List.nodup_nil, List.nodup_nil⟩

theorem ofKind?_eq_none_iff {kind : PacketKind E} :
    registry.ofKind? kind = none ↔ ∀ descriptor ∈ registry.descriptors, descriptor.kind ≠ kind := by
  rw [ofKind?, List.find?_eq_none]
  simp

theorem ofId?_eq_none_iff {phase : Phase} {direction : Direction} {id : Int32} :
    registry.ofId? phase direction id = none
      ↔ ∀ descriptor ∈ registry.descriptors, descriptor.slot ≠ (phase, direction, id) := by
  rw [ofId?, List.find?_eq_none]
  simp [Descriptor.slot]

theorem Follows.ofKind?_eq_none_iff (h : registry.Follows roster) {kind : PacketKind E} :
    registry.ofKind? kind = none ↔ ∀ entry ∈ roster.accepted, entry.kind ≠ kind := by
  rw [Registry.ofKind?_eq_none_iff, h.descriptors, List.forall_mem_map]
  rfl

theorem Follows.ofId?_eq_none_iff (h : registry.Follows roster) {phase : Phase}
    {direction : Direction} {id : Int32} :
    registry.ofId? phase direction id = none
      ↔ ∀ entry ∈ roster.accepted, entry.slot ≠ (phase, direction, id) := by
  rw [Registry.ofId?_eq_none_iff, h.descriptors, List.forall_mem_map]
  rfl

theorem Follows.nodup_append {β : Type} {key : Descriptor E → β} (h : registry.Follows roster)
    {entry : Registration E} (hold : (registry.descriptors.map key).Nodup)
    (hnew : ∀ other ∈ roster.accepted, key other.descriptor ≠ key entry.descriptor) :
    ((registry.descriptors ++ [entry.descriptor]).map key).Nodup := by
  rw [List.map_append, List.map_singleton, ← List.concat_eq_append]
  refine hold.concat fun hmem => ?_
  rw [h.descriptors, List.map_map] at hmem
  obtain ⟨other, hother, hkey⟩ := List.mem_map.1 hmem
  exact hnew other hother hkey

theorem Follows.append (h : registry.Follows roster) {entry : Registration E}
    (hfits : entry.Fits roster.accepted) :
    Follows ⟨registry.descriptors ++ [entry.descriptor]⟩ ⟨roster.accepted ++ [entry]⟩ where
  descriptors := by
    rw [List.map_append, ← h.descriptors]
    rfl
  sound := by
    refine ⟨fun descriptor hmem => ?_, ?_, ?_⟩
    · rcases List.mem_append.1 hmem with hold | hnew
      · exact h.sound.inOrder descriptor hold
      · rw [List.mem_singleton.1 hnew]
        exact hfits.sizes
    · exact h.nodup_append h.sound.kinds hfits.kind
    · exact h.nodup_append h.sound.slots hfits.slot

theorem Follows.fits_of_register (h : registry.Follows roster) {entry : Registration E}
    {next : Registry E} (hok : registry.register entry = .ok next) :
    entry.Fits roster.accepted := by
  simp only [register] at hok
  split at hok
  · cases hok
  · rename_i hsizes
    split at hok
    · cases hok
    · rename_i hkind
      split at hok
      · cases hok
      · rename_i hslot
        exact ⟨Nat.not_lt.1 hsizes,
          h.ofKind?_eq_none_iff.1 (Option.not_isSome_iff_eq_none.1 hkind),
          h.ofId?_eq_none_iff.1 hslot⟩

/-- A registration that fits joins the roster, and one that does not is refused. -/
theorem Follows.register_cases (h : registry.Follows roster) (entry : Registration E) :
    (entry.Fits roster.accepted
        ∧ registry.register entry = .ok ⟨registry.descriptors ++ [entry.descriptor]⟩)
      ∨ (¬ entry.Fits roster.accepted ∧ ∃ fault, registry.register entry = .error fault) := by
  by_cases hfits : entry.Fits roster.accepted
  · exact .inl ⟨hfits, register_of_sound (h.append hfits).sound⟩
  · cases hregister : registry.register entry with
    | ok next => exact absurd (h.fits_of_register hregister) hfits
    | error fault => exact .inr ⟨hfits, fault, rfl⟩

theorem Follows.registerAll : ∀ (entries : List (Registration E)) {registry : Registry E}
    {roster : Roster E}, registry.Follows roster →
      (registry.registerAll entries).1.isOk = (roster.acceptAll entries).1
        ∧ (registry.registerAll entries).2.Follows (roster.acceptAll entries).2 := by
  intro entries
  induction entries with
  | nil => intro registry roster h; exact ⟨rfl, h⟩
  | cons entry entries ih =>
      intro registry roster h
      rw [Registry.registerAll, Roster.acceptAll]
      rcases h.register_cases entry with ⟨hfits, hok⟩ | ⟨hmisfit, fault, herror⟩
      · rw [if_pos hfits, hok]
        exact ih (h.append hfits)
      · rw [if_neg hmisfit, herror]
        exact ⟨rfl, h⟩

theorem Follows.enrol : ∀ (calls : List (Enrolment E)) {registry : Registry E}
    {roster : Roster E}, registry.Follows roster →
      (registry.enrol calls).1.map Except.isOk = (roster.enrol calls).1
        ∧ (registry.enrol calls).2.Follows (roster.enrol calls).2 := by
  intro calls
  induction calls with
  | nil => intro registry roster h; exact ⟨rfl, h⟩
  | cons call calls ih =>
      intro registry roster h
      obtain ⟨hanswer, hnext⟩ := Follows.registerAll call.entries h
      obtain ⟨hanswers, hlast⟩ := ih hnext
      exact ⟨congr (congrArg List.cons hanswer) hanswers, hlast⟩

/-! ### Look-ups -/

theorem Follows.ofKind_eq_ok_iff (h : registry.Follows roster) {kind : PacketKind E}
    {descriptor : Descriptor E} :
    registry.ofKind kind = .ok descriptor
      ↔ ∃ entry ∈ roster.accepted, entry.kind = kind ∧ entry.descriptor = descriptor := by
  constructor
  · intro hfound
    obtain ⟨hmem, hkind⟩ := mem_of_ofKind hfound
    rw [h.descriptors] at hmem
    obtain ⟨entry, hentry, rfl⟩ := List.mem_map.1 hmem
    exact ⟨entry, hentry, hkind, rfl⟩
  · rintro ⟨entry, hentry, rfl, rfl⟩
    exact h.sound.ofKind_of_mem (h.descriptors ▸ List.mem_map_of_mem hentry)

theorem Follows.ofId_eq_ok_iff (h : registry.Follows roster) {phase : Phase}
    {direction : Direction} {id : Int32} {descriptor : Descriptor E} :
    registry.ofId phase direction id = .ok descriptor
      ↔ ∃ entry ∈ roster.accepted,
        entry.slot = (phase, direction, id) ∧ entry.descriptor = descriptor := by
  constructor
  · intro hfound
    obtain ⟨hmem, hslot⟩ := mem_of_ofId hfound
    rw [h.descriptors] at hmem
    obtain ⟨entry, hentry, rfl⟩ := List.mem_map.1 hmem
    exact ⟨entry, hentry, hslot, rfl⟩
  · rintro ⟨entry, hentry, hslot, rfl⟩
    obtain ⟨rfl, rfl, rfl⟩ : entry.phase = phase ∧ entry.direction = direction ∧ entry.id = id := by
      simpa [Registration.slot] using hslot
    exact h.sound.ofId_of_mem (h.descriptors ▸ List.mem_map_of_mem hentry)

theorem Follows.ofKind_eq_error_iff (h : registry.Follows roster) {kind : PacketKind E}
    {fault : Fault} :
    registry.ofKind kind = .error fault
      ↔ fault = .unknownType kind.typeName ∧ ∀ entry ∈ roster.accepted, entry.kind ≠ kind := by
  rw [← h.ofKind?_eq_none_iff, ofKind]
  cases registry.ofKind? kind with
  | none => simp [eq_comm]
  | some descriptor => simp

theorem Follows.ofId_eq_error_iff (h : registry.Follows roster) {phase : Phase}
    {direction : Direction} {id : Int32} {fault : Fault} :
    registry.ofId phase direction id = .error fault
      ↔ fault = .unknownId phase direction id
        ∧ ∀ entry ∈ roster.accepted, entry.slot ≠ (phase, direction, id) := by
  rw [← h.ofId?_eq_none_iff, ofId]
  cases registry.ofId? phase direction id with
  | none => simp [eq_comm]
  | some descriptor => simp

theorem Follows.ofKind_iff_ofId (h : registry.Follows roster) (descriptor : Descriptor E) :
    registry.ofKind descriptor.kind = .ok descriptor
      ↔ registry.ofId descriptor.phase descriptor.direction descriptor.id = .ok descriptor := by
  constructor
  · intro hfound
    exact h.sound.ofId_of_mem (mem_of_ofKind hfound).1
  · intro hfound
    exact h.sound.ofKind_of_mem (mem_of_ofId hfound).1

/-! ### Sizes -/

/-- How many ids all tables have between them. -/
def idCount (registry : Registry E) : Nat :=
  Phase.all.foldr (fun phase others => (registry.table phase .inbound).length
    + (registry.table phase .outbound).length + others) 0

/-- Every descriptor is in the table of its phase and direction, and in no other. -/
theorem idCount_eq_size (registry : Registry E) : registry.idCount = registry.size := by
  obtain ⟨descriptors⟩ := registry
  simp only [idCount, table, size, ← List.countP_eq_length_filter]
  induction descriptors with
  | nil => rfl
  | cons descriptor descriptors ih =>
      -- The first descriptor counts in the one table of its phase and direction.
      obtain ⟨id, phase, direction, least, most, preferred, kind, produces⟩ := descriptor
      simp only [Phase.all, List.foldr_cons, List.foldr_nil, List.countP_cons, List.length_cons,
        decide_eq_true_eq] at ih ⊢
      cases phase <;> cases direction <;>
        simp only [reduceCtorEq, and_true, and_false, if_true, if_false] <;> omega

theorem Follows.preferred (h : registry.Follows roster) {entry : Registration E}
    (hentry : entry ∈ roster.accepted) (hpreferred : entry.preferredSize? = none) :
    entry.minSize ≤ entry.descriptor.preferredSize
      ∧ entry.descriptor.preferredSize ≤ entry.maxSize := by
  have hsizes : entry.minSize ≤ entry.maxSize :=
    h.sound.inOrder entry.descriptor (h.descriptors ▸ List.mem_map_of_mem hentry)
  simp only [Registration.descriptor, hpreferred, Option.getD_none]
  omega

/-! ## Tables and registry -/

theorem ofKind?_append (registry : Registry E) (descriptor : Descriptor E) (kind : PacketKind E) :
    ofKind? ⟨registry.descriptors ++ [descriptor]⟩ kind
      = (registry.ofKind? kind).or (if descriptor.kind = kind then some descriptor else none) := by
  rw [ofKind?, ofKind?, List.find?_append, List.find?_singleton]
  simp only [decide_eq_true_eq]

theorem ofId?_append (registry : Registry E) (descriptor : Descriptor E) (phase : Phase)
    (direction : Direction) (id : Int32) :
    ofId? ⟨registry.descriptors ++ [descriptor]⟩ phase direction id
      = (registry.ofId? phase direction id).or
        (if descriptor.phase = phase ∧ descriptor.direction = direction ∧ descriptor.id = id then
          some descriptor
        else none) := by
  rw [ofId?, ofId?, List.find?_append, List.find?_singleton]
  simp only [decide_eq_true_eq]

theorem length_table_append (registry : Registry E) (descriptor : Descriptor E) (phase : Phase)
    (direction : Direction) :
    (table ⟨registry.descriptors ++ [descriptor]⟩ phase direction).length
      = (registry.table phase direction).length
        + if descriptor.phase = phase ∧ descriptor.direction = direction then 1 else 0 := by
  simp only [table, ← List.countP_eq_length_filter, List.countP_append, List.countP_singleton,
    decide_eq_true_eq]

end Registry

namespace Tables

/-- Tables that answer as a registry does. -/
structure Mirrors (tables : Tables E) (registry : Registry E) : Prop where
  byKind : ∀ kind, tables.byKind.lookup kind = registry.ofKind? kind
  byId : ∀ phase direction id,
    (tables.byId phase direction).lookup id = registry.ofId? phase direction id
  size : tables.size = registry.size
  idCount : ∀ phase direction,
    tables.idCount phase direction = (registry.table phase direction).length

variable {tables : Tables E} {registry : Registry E}

theorem Mirrors.empty : (empty : Tables E).Mirrors Registry.empty where
  byKind := fun _ => rfl
  byId := fun _ _ _ => rfl
  size := rfl
  idCount := fun _ _ => rfl

theorem length_insert {α β : Type} [DecidableEq α] {entries : AList fun _ : α => β} {key : α}
    (h : entries.lookup key = none) (value : β) :
    (entries.insert key value).entries.length = entries.entries.length + 1 := by
  rw [AList.entries_insert_of_notMem (AList.lookup_eq_none.1 h), List.length_cons]

theorem lookup_insert_eq {α β : Type} [DecidableEq α] (entries : AList fun _ : α => β)
    (key other : α) (value : β) :
    (entries.insert key value).lookup other
      = if key = other then some value else entries.lookup other := by
  split
  · rename_i heq
    rw [heq, AList.lookup_insert]
  · rename_i hne
    exact AList.lookup_insert_ne (Ne.symm hne)

theorem lookup_enterId (tables : Tables E) (descriptor : Descriptor E) (phase : Phase)
    (direction : Direction) (id : Int32) :
    ((tables.enterId descriptor).byId phase direction).lookup id
      = if descriptor.phase = phase ∧ descriptor.direction = direction ∧ descriptor.id = id then
          some descriptor
        else (tables.byId phase direction).lookup id := by
  rw [enterId]
  by_cases htable : descriptor.phase = phase ∧ descriptor.direction = direction
  · simp only [htable, and_self, if_true, true_and, lookup_insert_eq]
  · have hother : ¬ (descriptor.phase = phase ∧ descriptor.direction = direction
        ∧ descriptor.id = id) := fun h => htable ⟨h.1, h.2.1⟩
    simp only [if_neg htable, if_neg hother]

theorem idCount_enterId {descriptor : Descriptor E}
    (hfree : (tables.byId descriptor.phase descriptor.direction).lookup descriptor.id = none)
    (phase : Phase) (direction : Direction) :
    (tables.enterId descriptor).idCount phase direction
      = tables.idCount phase direction
        + if descriptor.phase = phase ∧ descriptor.direction = direction then 1 else 0 := by
  rw [idCount, idCount, enterId]
  by_cases htable : descriptor.phase = phase ∧ descriptor.direction = direction
  · obtain ⟨rfl, rfl⟩ := htable
    simp only [and_self, if_true]
    exact length_insert hfree descriptor
  · simp only [if_neg htable]
    rfl

theorem Mirrors.append (h : tables.Mirrors registry) (descriptor : Descriptor E)
    (hkind : registry.ofKind? descriptor.kind = none)
    (hid : registry.ofId? descriptor.phase descriptor.direction descriptor.id = none) :
    Mirrors
      { tables.enterId descriptor with
        byKind := tables.byKind.insert descriptor.kind descriptor }
      ⟨registry.descriptors ++ [descriptor]⟩ where
  byKind := by
    intro kind
    rw [lookup_insert_eq, Registry.ofKind?_append, h.byKind]
    by_cases hsame : descriptor.kind = kind
    · rw [if_pos hsame, if_pos hsame, ← hsame, hkind]
      rfl
    · rw [if_neg hsame, if_neg hsame, Option.or_none]
  byId := by
    intro phase direction id
    rw [Registry.ofId?_append]
    refine (lookup_enterId tables descriptor phase direction id).trans ?_
    rw [h.byId]
    by_cases hsame : descriptor.phase = phase ∧ descriptor.direction = direction
        ∧ descriptor.id = id
    · rw [if_pos hsame, if_pos hsame]
      obtain ⟨rfl, rfl, rfl⟩ := hsame
      rw [hid]
      rfl
    · rw [if_neg hsame, if_neg hsame, Option.or_none]
  size := by
    rw [Tables.size, length_insert ((h.byKind descriptor.kind).trans hkind), Registry.size,
      List.length_append]
    exact congrArg (· + 1) h.size
  idCount := by
    intro phase direction
    rw [Registry.length_table_append, ← h.idCount]
    exact idCount_enterId ((h.byId _ _ _).trans hid) phase direction

/-- A registration does to the tables what it does to the registry, and if it is refused nothing. -/
theorem Mirrors.register (h : tables.Mirrors registry) (entry : Registration E) :
    match registry.register entry with
    | .ok next => ∃ grown, tables.register entry = (.ok (), grown) ∧ grown.Mirrors next
    | .error fault => tables.register entry = (.error fault, tables) := by
  have hkinds : entry.kind ∈ tables.byKind ↔ (registry.ofKind? entry.kind).isSome := by
    rw [← h.byKind, AList.lookup_isSome]
  have hid := h.byId entry.phase entry.direction entry.id
  rw [Registry.register, Tables.register]
  by_cases hsizes : entry.maxSize < entry.minSize
  · simp only [if_pos hsizes]
  · simp only [if_neg hsizes, hkinds]
    by_cases hkind : (registry.ofKind? entry.kind).isSome
    · simp only [if_pos hkind]
    · simp only [if_neg hkind, insertId]
      have hlookup : (tables.byId entry.descriptor.phase entry.descriptor.direction).lookup
          entry.descriptor.id = registry.ofId? entry.phase entry.direction entry.id := hid
      rw [hlookup]
      cases hholder : registry.ofId? entry.phase entry.direction entry.id with
      | some holder => rfl
      | none =>
          exact ⟨_, rfl, h.append entry.descriptor (Option.not_isSome_iff_eq_none.1 hkind) hholder⟩

theorem Mirrors.registerAll : ∀ (entries : List (Registration E)) {tables : Tables E}
    {registry : Registry E}, tables.Mirrors registry →
      (tables.registerAll entries).1 = (registry.registerAll entries).1
        ∧ (tables.registerAll entries).2.Mirrors (registry.registerAll entries).2 := by
  intro entries
  induction entries with
  | nil => intro tables registry h; exact ⟨rfl, h⟩
  | cons entry entries ih =>
      intro tables registry h
      have hstep := h.register entry
      rw [Tables.registerAll, Registry.registerAll]
      cases hregister : registry.register entry with
      | error fault =>
          rw [hregister] at hstep
          rw [hstep]
          exact ⟨rfl, h⟩
      | ok next =>
          rw [hregister] at hstep
          obtain ⟨grown, hgrown, hmirrors⟩ := hstep
          rw [hgrown]
          exact ih hmirrors

theorem Mirrors.enrol : ∀ (calls : List (Enrolment E)) {tables : Tables E}
    {registry : Registry E}, tables.Mirrors registry →
      (tables.enrol calls).1 = (registry.enrol calls).1
        ∧ (tables.enrol calls).2.Mirrors (registry.enrol calls).2 := by
  intro calls
  induction calls with
  | nil => intro tables registry h; exact ⟨rfl, h⟩
  | cons call calls ih =>
      intro tables registry h
      obtain ⟨hanswer, hnext⟩ := Mirrors.registerAll call.entries h
      obtain ⟨hanswers, hlast⟩ := ih hnext
      exact ⟨congr (congrArg List.cons hanswer) hanswers, hlast⟩

end Tables

namespace Registry

/-- After any calls the registry is the list of what was accepted:

its descriptors are those of the accepted registrations, and the calls have answered by them, also
in tables that are filled in place;

one more registration is accepted exactly if its sizes are in order, and its type and its slot are
those of no accepted one; if not, the tables stay as they are;

under a slot, as under a type, there is the descriptor of the accepted registration that has it, or
the fault that names it; what is found by type is what is found under its own slot;

there are as many types as accepted registrations, and as all tables of ids have between them; and
without a hint of its own a type is expected to take a size within its bounds. -/
theorem registry_follows_roster (calls : List (Enrolment E)) :
    let answers := ((empty : Registry E).enrol calls).1
    let registry := ((empty : Registry E).enrol calls).2
    let tables := ((Tables.empty : Tables E).enrol calls).2
    let roster := (Roster.enrol (⟨[]⟩ : Roster E) calls).2
    (registry.descriptors = roster.accepted.map Registration.descriptor
      ∧ answers.map Except.isOk = (Roster.enrol (⟨[]⟩ : Roster E) calls).1
      ∧ ((Tables.empty : Tables E).enrol calls).1 = answers
      ∧ tables.Mirrors registry)
    ∧ (∀ entry : Registration E,
      ((∃ next, registry.register entry = .ok next) ↔
        entry.minSize ≤ entry.maxSize
          ∧ (∀ other ∈ roster.accepted, other.kind ≠ entry.kind)
          ∧ ∀ other ∈ roster.accepted, other.slot ≠ entry.slot)
      ∧ (∀ fault, registry.register entry = .error fault →
        tables.register entry = (.error fault, tables)))
    ∧ (∀ phase direction id descriptor, registry.ofId phase direction id = .ok descriptor ↔
      ∃ entry ∈ roster.accepted,
        entry.slot = (phase, direction, id) ∧ entry.descriptor = descriptor)
    ∧ (∀ phase direction id fault, registry.ofId phase direction id = .error fault ↔
      fault = .unknownId phase direction id
        ∧ ∀ entry ∈ roster.accepted, entry.slot ≠ (phase, direction, id))
    ∧ (∀ kind descriptor, registry.ofKind kind = .ok descriptor ↔
      ∃ entry ∈ roster.accepted, entry.kind = kind ∧ entry.descriptor = descriptor)
    ∧ (∀ kind fault, registry.ofKind kind = .error fault ↔
      fault = .unknownType kind.typeName ∧ ∀ entry ∈ roster.accepted, entry.kind ≠ kind)
    ∧ (∀ packet : Packet E, registry.ofPacket packet = registry.ofKind packet.kind)
    ∧ (∀ descriptor, registry.ofKind descriptor.kind = .ok descriptor ↔
      registry.ofId descriptor.phase descriptor.direction descriptor.id = .ok descriptor)
    ∧ (registry.size = roster.accepted.length ∧ registry.idCount = registry.size)
    ∧ ∀ entry ∈ roster.accepted, entry.preferredSize? = none →
      entry.minSize ≤ entry.descriptor.preferredSize
        ∧ entry.descriptor.preferredSize ≤ entry.maxSize := by
  intro answers registry tables roster
  obtain ⟨hanswers, hfollows⟩ := Follows.enrol calls (Follows.empty (E := E))
  obtain ⟨hsame, hmirrors⟩ := Tables.Mirrors.enrol calls (Tables.Mirrors.empty (E := E))
  refine ⟨⟨hfollows.descriptors, hanswers, hsame, hmirrors⟩,
    fun entry => ⟨?_, fun fault hfault => ?_⟩,
    fun _ _ _ _ => hfollows.ofId_eq_ok_iff, fun _ _ _ _ => hfollows.ofId_eq_error_iff,
    fun _ _ => hfollows.ofKind_eq_ok_iff, fun _ _ => hfollows.ofKind_eq_error_iff, fun _ => rfl,
    hfollows.ofKind_iff_ofId, ⟨?_, idCount_eq_size registry⟩, fun _ => hfollows.preferred⟩
  · constructor
    · rintro ⟨next, hnext⟩
      have hfits := hfollows.fits_of_register hnext
      exact ⟨hfits.sizes, hfits.kind, hfits.slot⟩
    · rintro ⟨hsizes, hkind, hslot⟩
      exact ⟨_, register_of_sound (hfollows.append ⟨hsizes, hkind, hslot⟩).sound⟩
  · have hstep := hmirrors.register entry
    rw [hfault] at hstep
    exact hstep
  · exact (congrArg List.length hfollows.descriptors).trans (List.length_map _)

end Registry
end PhaseWire
