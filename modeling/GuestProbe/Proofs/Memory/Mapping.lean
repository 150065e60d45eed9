import GuestProbe.Machine

/-! # Mapping calls

A memory is changed by calls that map a range of addresses or an image. A call fails if it asks for
no address or for one that is mapped already, and then changes nothing (`Memory.perform_cases`).

So the mappings of a memory are not empty and pairwise disjoint after every sequence of calls, in
the order of the calls that succeeded, and no address lies in two of them
(`mappings_stay_separated`).
-/

namespace GuestProbe

/-- A call that maps a range of addresses, or an image from a base address on. -/
inductive MappingCall where
  | range (first last : UInt32) (data : Array UInt8) (name : String)
  | image (base : UInt32) (bytes : Array UInt8) (name : String)

namespace MappingCall

/-- What the call does to a memory. -/
def update : MappingCall → Memory.Update Unit
  | .range first last data name => Memory.mapRange first last data name
  | .image base bytes name => Machine.mapImage base bytes name

/-- The call asks for no address. -/
def IsEmpty : MappingCall → Prop
  | .range first last _ _ => last < first
  | .image _ bytes _ => bytes.size = 0

/-- The call asks for the address. An image asks for one address a byte, up to the last address of
all. -/
def Covers (call : MappingCall) (address : UInt32) : Prop :=
  match call with
  | .range first last _ _ => first ≤ address ∧ address ≤ last
  | .image base bytes _ =>
      base.toNat ≤ address.toNat ∧ address.toNat < base.toNat + bytes.size

/-- The mapping that the call adds if it succeeds. -/
def mapping : MappingCall → Mapping
  | .range first last _ name => ⟨first, last, name⟩
  | .image base bytes name => ⟨base, Machine.imageLast base bytes.size, name⟩

/-- The bytes that the call copies into the memory. -/
def data : MappingCall → Array UInt8
  | .range _ _ data _ => data
  | .image _ bytes _ => bytes

end MappingCall

theorem toNat_imageLast (base : UInt32) (size : Nat) :
    (Machine.imageLast base size).toNat = min (base.toNat + size - 1) (addressSpace - 1) := by
  have bound : min (base.toNat + size - 1) (addressSpace - 1) < UInt32.size :=
    Nat.lt_of_le_of_lt (Nat.min_le_right ..) (by decide)
  exact UInt32.toNat_ofNat_of_lt' bound

/-! ## Ranges that share an address -/

namespace Mapping

variable {mapping : Mapping} {first last address : UInt32}

theorem contains_iff (mapping : Mapping) (address : UInt32) :
    mapping.contains address = true ↔ mapping.first ≤ address ∧ address ≤ mapping.last := by
  simp [contains]

/-- Some address lies in both mappings. -/
def Meets (mapping other : Mapping) : Prop :=
  ∃ address, mapping.contains address = true ∧ other.contains address = true

/-- Two ranges that are not empty share an address exactly when neither ends before the other
starts. -/
theorem overlaps_iff_meets {other : Mapping} (nonempty : mapping.first ≤ mapping.last)
    (otherNonempty : other.first ≤ other.last) :
    mapping.overlaps other.first other.last = true ↔ mapping.Meets other := by
  simp only [overlaps, Bool.and_eq_true, decide_eq_true_eq, Meets, contains_iff]
  constructor
  · rintro ⟨before, after⟩
    -- the later one of the two starts lies in both
    rcases UInt32.le_total mapping.first other.first with le | le
    · exact ⟨other.first, ⟨le, after⟩, UInt32.le_refl _, otherNonempty⟩
    · exact ⟨mapping.first, ⟨UInt32.le_refl _, nonempty⟩, le, before⟩
  · rintro ⟨address, ⟨fromFirst, toLast⟩, fromOther, toOther⟩
    exact ⟨UInt32.le_trans fromFirst toOther, UInt32.le_trans fromOther toLast⟩

end Mapping

namespace MappingCall

variable {call : MappingCall}

theorem first_le_last (asks : ¬call.IsEmpty) : call.mapping.first ≤ call.mapping.last := by
  cases call with
  | range first last data name => exact UInt32.not_lt.mp asks
  | image base bytes name =>
    have bound := base.toNat_lt
    simp only [IsEmpty] at asks
    simp only [mapping, UInt32.le_iff_toNat_le, toNat_imageLast, addressSpace, UInt32.size]
    omega

/-- The mapping of a call holds the addresses that the call asks for. -/
theorem mapping_contains_iff (asks : ¬call.IsEmpty) (address : UInt32) :
    call.mapping.contains address = true ↔ call.Covers address := by
  rw [Mapping.contains_iff]
  cases call with
  | range first last data name => exact Iff.rfl
  | image base bytes name =>
    have bound := address.toNat_lt
    simp only [IsEmpty] at asks
    simp only [mapping, Covers, UInt32.le_iff_toNat_le, toNat_imageLast, addressSpace, UInt32.size]
    omega

/-- A call that asks for an address maps the range of its mapping. -/
theorem update_eq_mapRange (asks : ¬call.IsEmpty) :
    call.update = Memory.mapRange call.mapping.first call.mapping.last call.data
      call.mapping.name := by
  cases call with
  | range first last data name => rfl
  | image base bytes name =>
    have some : bytes.isEmpty = false := by simpa [IsEmpty] using asks
    simp only [update, Machine.mapImage, some, Bool.false_eq_true, if_false, mapping, data]

end MappingCall

/-! ## One call -/

namespace Memory

variable {memory : Memory} {call : MappingCall}

/-- The result of a call and the memory after it. -/
def perform (memory : Memory) (call : MappingCall) : Except MappingError Unit × Memory :=
  call.update.run.run memory

/-- The memory after a call that succeeds. -/
def extended (memory : Memory) (call : MappingCall) : Memory :=
  { memory with
    store := (memory.store.growTo (call.mapping.last.toNat + 1)).fill call.mapping.first.toNat
      (call.mapping.last.toNat + 1 - call.mapping.first.toNat) call.data
    mappings := memory.mappings ++ [call.mapping] }

/-- Mapping a range changes nothing before the range is accepted. -/
theorem run_mapRange (memory : Memory) (first last : UInt32) (data : Array UInt8) (name : String) :
    (mapRange first last data name).run.run memory =
      match mappingError? memory.mappings first last with
      | some error => (.error error, memory)
      | none => (.ok (), memory.extended (.range first last data name)) := by
  change (match mappingError? memory.mappings first last with
    | some error => (throw error : Update Unit)
    | none => _).run.run memory = _
  cases mappingError? memory.mappings first last <;> rfl

theorem perform_of_isEmpty (memory : Memory) (nothing : call.IsEmpty) :
    memory.perform call = (.error .empty, memory) := by
  cases call with
  | range first last data name =>
    have refused : mappingError? memory.mappings first last = some .empty := if_pos nothing
    rw [perform, MappingCall.update, run_mapRange, refused]
  | image base bytes name =>
    have none : bytes.isEmpty = true := by simpa [MappingCall.IsEmpty] using nothing
    rw [perform, MappingCall.update, Machine.mapImage, if_pos none]
    rfl

theorem perform_of_not_isEmpty (memory : Memory) (asks : ¬call.IsEmpty) :
    memory.perform call =
      match memory.mappings.find? (·.overlaps call.mapping.first call.mapping.last) with
      | some mapping => (.error (.overlap mapping.name), memory)
      | none => (.ok (), memory.extended call) := by
  have nonempty := UInt32.not_lt.mpr (MappingCall.first_le_last asks)
  rw [perform, MappingCall.update_eq_mapRange asks, run_mapRange, mappingError?, if_neg nonempty]
  cases memory.mappings.find? (·.overlaps call.mapping.first call.mapping.last) <;> rfl

theorem perform_of_free (asks : ¬call.IsEmpty)
    (free : memory.mappings.find? (·.overlaps call.mapping.first call.mapping.last) = none) :
    memory.perform call = (.ok (), memory.extended call) := by
  rw [perform_of_not_isEmpty memory asks, free]

/-- The mappings are not empty and no two of them share an address. -/
structure Separated (memory : Memory) : Prop where
  nonempty : ∀ mapping ∈ memory.mappings, mapping.first ≤ mapping.last
  disjoint : memory.mappings.Pairwise fun mapping later => ¬mapping.Meets later

theorem separated_of_bare (bare : memory.mappings = []) : memory.Separated :=
  ⟨by simp [bare], by simp [bare]⟩

/-- The three things that can happen in a call: it asks for no address, or some address that it
asks for is mapped already, or it succeeds. Only then is the memory changed. -/
theorem Separated.perform_cases (separated : memory.Separated) (call : MappingCall) :
    (call.IsEmpty ∧ memory.perform call = (.error .empty, memory)) ∨
      (¬call.IsEmpty ∧ ∃ earlier mapping later, memory.mappings = earlier ++ mapping :: later ∧
        mapping.Meets call.mapping ∧ (∀ other ∈ earlier, ¬other.Meets call.mapping) ∧
        memory.perform call = (.error (.overlap mapping.name), memory)) ∨
      (¬call.IsEmpty ∧ (∀ other ∈ memory.mappings, ¬other.Meets call.mapping) ∧
        memory.perform call = (.ok (), memory.extended call)) := by
  by_cases asks : call.IsEmpty
  · exact .inl ⟨asks, perform_of_isEmpty memory asks⟩
  have meets : ∀ other ∈ memory.mappings,
      (other.overlaps call.mapping.first call.mapping.last = true ↔ other.Meets call.mapping) :=
    fun other member =>
      Mapping.overlaps_iff_meets (separated.nonempty other member) (MappingCall.first_le_last asks)
  cases found : memory.mappings.find? (·.overlaps call.mapping.first call.mapping.last) with
  | some mapping =>
    have performed := memory.perform_of_not_isEmpty asks
    rw [found] at performed
    obtain ⟨overlaps, earlier, later, split, before⟩ := List.find?_eq_some_iff_append.mp found
    refine .inr (.inl ⟨asks, earlier, mapping, later, split, ?_, ?_, performed⟩)
    · exact (meets mapping (List.mem_of_find?_eq_some found)).mp overlaps
    · intro other among
      have member : other ∈ memory.mappings := split ▸ List.mem_append_left _ among
      rw [← meets other member]
      simpa using before other among
  | none =>
    refine .inr (.inr ⟨asks, fun other member => ?_, perform_of_free asks found⟩)
    rw [← meets other member]
    exact List.find?_eq_none.mp found other member

/-- A call keeps the mappings separated. -/
theorem Separated.perform (separated : memory.Separated) (call : MappingCall) :
    (memory.perform call).2.Separated := by
  rcases separated.perform_cases call with
    ⟨-, performed⟩ | ⟨-, _, _, _, -, -, -, performed⟩ | ⟨asks, apart, performed⟩
  · rw [performed]
    exact separated
  · rw [performed]
    exact separated
  · rw [performed]
    constructor
    · intro mapping member
      rcases List.mem_append.mp member with old | new
      · exact separated.nonempty mapping old
      · rw [List.mem_singleton.mp new]
        exact MappingCall.first_le_last asks
    · refine List.pairwise_append.mpr ⟨separated.disjoint, List.pairwise_singleton .., ?_⟩
      intro mapping old other new
      rw [List.mem_singleton.mp new]
      exact apart mapping old

/-! ## Runs -/

/-- The results of some calls, one after another, and the memory after them. -/
def performAll : Memory → List MappingCall → List (Except MappingError Unit) × Memory
  | memory, [] => ([], memory)
  | memory, call :: rest =>
      let (result, changed) := memory.perform call
      let (results, final) := changed.performAll rest
      (result :: results, final)

/-- The mappings of the calls that succeeded. -/
def accepted (calls : List MappingCall) (results : List (Except MappingError Unit)) :
    List Mapping :=
  (calls.zip results).filterMap fun (call, result) =>
    match result with
    | .ok () => some call.mapping
    | .error _ => none

theorem Separated.performAll (separated : memory.Separated) (calls : List MappingCall) :
    (memory.performAll calls).2.Separated ∧
      (memory.performAll calls).2.mappings =
        memory.mappings ++ accepted calls (memory.performAll calls).1 := by
  induction calls generalizing memory with
  | nil => exact ⟨separated, (List.append_nil _).symm⟩
  | cons call rest ih =>
    obtain ⟨after, mappings⟩ := ih (separated.perform call)
    refine ⟨after, mappings.trans ?_⟩
    simp only [Memory.performAll, accepted, List.zip_cons_cons, List.filterMap_cons]
    rcases separated.perform_cases call with
      ⟨-, performed⟩ | ⟨-, _, _, _, -, -, -, performed⟩ | ⟨-, -, performed⟩
    · rw [performed]
    · rw [performed]
    · rw [performed]
      exact List.append_assoc ..

/-! ## What a memory answers -/

/-- When a call fails, by the addresses that it asks for and those that are mapped. -/
structure Answers (memory : Memory) (call : MappingCall) : Prop where
  empty_iff : (memory.perform call).1 = .error .empty ↔ call.IsEmpty
  overlap_iff : (∃ name, (memory.perform call).1 = .error (.overlap name)) ↔
    ¬call.IsEmpty ∧ ∃ address, call.Covers address ∧
      ∃ mapping ∈ memory.mappings, mapping.contains address = true
  /-- The name is that of the earliest mapping with an address that the call asks for. -/
  overlap_name : ∀ name, (memory.perform call).1 = .error (.overlap name) →
    ∃ earlier mapping later, memory.mappings = earlier ++ mapping :: later ∧
      mapping.name = name ∧ (∃ address, call.Covers address ∧ mapping.contains address = true) ∧
      ∀ other ∈ earlier, ∀ address, call.Covers address → other.contains address = false
  /-- A call that fails leaves the whole memory as it was. -/
  unchanged : ∀ error, (memory.perform call).1 = .error error → (memory.perform call).2 = memory

theorem Separated.answers (separated : memory.Separated) (call : MappingCall) :
    memory.Answers call := by
  have meets (asks : ¬call.IsEmpty) (mapping : Mapping) : mapping.Meets call.mapping ↔
      ∃ address, call.Covers address ∧ mapping.contains address = true := by
    simp only [Mapping.Meets, MappingCall.mapping_contains_iff asks, and_comm]
  rcases separated.perform_cases call with
    ⟨nothing, performed⟩ | ⟨asks, earlier, mapping, later, split, meeting, apart, performed⟩ |
      ⟨asks, apart, performed⟩
  · exact
      { empty_iff := by simp [performed, nothing]
        overlap_iff := by simp [performed, nothing]
        overlap_name := by simp [performed]
        unchanged := by simp [performed] }
  · obtain ⟨address, covered, contained⟩ := (meets asks mapping).mp meeting
    refine
      { empty_iff := by simp [performed, asks]
        overlap_iff := ?_
        overlap_name := ?_
        unchanged := by simp [performed] }
    · refine iff_of_true ⟨mapping.name, by rw [performed]⟩ ⟨asks, address, covered, mapping, ?_,
        contained⟩
      simp [split]
    · rw [performed]
      rintro _ ⟨⟩
      refine ⟨earlier, mapping, later, split, rfl, ⟨address, covered, contained⟩, ?_⟩
      intro other among address covered
      rw [← Bool.not_eq_true]
      exact fun held => apart other among ((meets asks other).mpr ⟨address, covered, held⟩)
  · refine
      { empty_iff := by simp [performed, asks]
        overlap_iff := ?_
        overlap_name := by simp [performed]
        unchanged := by simp [performed] }
    refine iff_of_false (by simp [performed]) ?_
    rintro ⟨-, address, covered, mapping, member, contained⟩
    exact apart mapping member ((meets asks mapping).mpr ⟨address, covered, contained⟩)

theorem mappingAt?_isSome_iff (memory : Memory) (address : UInt32) :
    (memory.mappingAt? address).isSome = true ↔
      ∃ mapping ∈ memory.mappings, mapping.contains address = true := by
  rw [mappingAt?, List.find?_isSome]

/-- The mapping that is found for an address is the only one that holds it. -/
theorem Separated.filter_contains (separated : memory.Separated) {address : UInt32}
    {mapping : Mapping} (found : memory.mappingAt? address = some mapping) :
    memory.mappings.filter (·.contains address) = [mapping] := by
  obtain ⟨contained, earlier, later, split, before⟩ := List.find?_eq_some_iff_append.mp found
  have disjoint := separated.disjoint
  rw [split, List.pairwise_append, List.pairwise_cons] at disjoint
  obtain ⟨-, ⟨apart, -⟩, -⟩ := disjoint
  have noneBefore : earlier.filter (·.contains address) = [] :=
    List.filter_eq_nil_iff.mpr fun other among => by simpa using before other among
  have noneAfter : later.filter (·.contains address) = [] :=
    List.filter_eq_nil_iff.mpr fun other among held => apart other among ⟨address, contained, held⟩
  rw [split, List.filter_append, noneBefore, List.filter_cons, if_pos contained, noneAfter,
    List.nil_append]

end Memory

/-- From a memory without mappings, calls lead to the mappings of those that succeeded, in their
order; they are not empty and pairwise disjoint. Every further call fails only if it asks for no
address or for one that is mapped, and an address is found in the one mapping that holds it. -/
theorem mappings_stay_separated (initial : Memory) (bare : initial.mappings = [])
    (calls : List MappingCall) :
    let results := (initial.performAll calls).1
    let memory := (initial.performAll calls).2
    memory.mappings = Memory.accepted calls results ∧ memory.Separated ∧
      (∀ call, memory.Answers call) ∧
      ∀ address, ((memory.mappingAt? address).isSome = true ↔
          ∃ mapping ∈ memory.mappings, mapping.contains address = true) ∧
        ∀ mapping, memory.mappingAt? address = some mapping →
          memory.mappings.filter (·.contains address) = [mapping] := by
  intro results memory
  have start : initial.Separated := ⟨by simp [bare], by simp [bare]⟩
  obtain ⟨separated, mappings⟩ := start.performAll calls
  rw [bare, List.nil_append] at mappings
  refine ⟨mappings, separated, separated.answers, fun address => ?_⟩
  exact ⟨memory.mappingAt?_isSome_iff address, fun mapping => separated.filter_contains⟩

/-- Four calls on an array of three bytes, of which the first and the last succeed: the second asks
for an address of the first, the third for none, and the last is cut off at the end of the address
space. -/
theorem mappings_stay_separated_of_four :
    let initial := Memory.array #[1, 2, 3]
    let calls : List MappingCall :=
      [.range 0x10 0x1F #[4] "first", .range 0x18 0x30 #[] "second", .range 5 4 #[] "third",
        .image 0xFFFFFFFE #[5, 6, 7] "last"]
    let memory := (initial.performAll calls).2
    initial.mappings = [] ∧
      (initial.performAll calls).1 =
        [.ok (), .error (.overlap "first"), .error .empty, .ok ()] ∧
      memory.mappings = [⟨0x10, 0x1F, "first"⟩, ⟨0xFFFFFFFE, 0xFFFFFFFF, "last"⟩] ∧
      memory.Separated ∧
      memory.mappings.filter (·.contains 0x15) = [⟨0x10, 0x1F, "first"⟩] := by
  intro initial calls memory
  obtain ⟨-, separated, -, found⟩ := mappings_stay_separated initial rfl calls
  exact ⟨rfl, rfl, rfl, separated, (found 0x15).2 _ rfl⟩

end GuestProbe
