import GuestProbe.Proofs.Memory.Reachability

/-! # Images in memory

An image is mapped from its base address on, one address a byte, and what would lie behind the last
address of all is left out (`Memory.imageMapped_extended`). Nothing wraps to the first address:
every address outside the range keeps its byte, and one that had none gets a zero if the block of an
array has grown over it. A machine refuses an image that is empty or would meet a mapping, and then
stays as it was (`images_stay_below_end`).
-/

namespace GuestProbe

/-- The address lies between the base and the last address of an image. -/
def InImage (base : UInt32) (last : Nat) (address : UInt32) : Prop :=
  base.toNat ≤ address.toNat ∧ address.toNat ≤ last

instance (base : UInt32) (last : Nat) (address : UInt32) : Decidable (InImage base last address) :=
  inferInstanceAs (Decidable (_ ∧ _))

/-- The last address of an image: that of its last byte, or the last address of all. -/
def lastOfImage (base : UInt32) (size : Nat) : Nat :=
  min (base.toNat + size - 1) (2 ^ 32 - 1)

/-- An image asks for the addresses between its base and its last address. -/
theorem covers_image_iff {base : UInt32} {image : Array UInt8} (name : String)
    (more : image.size ≠ 0) (address : UInt32) :
    (MappingCall.image base image name).Covers address ↔
      InImage base (lastOfImage base image.size) address := by
  have bound := address.toNat_lt
  simp only [MappingCall.Covers, InImage, lastOfImage]
  omega

namespace Memory

variable {memory : Memory}

/-- What an image leaves behind in a memory: its mapping, its bytes in the range of the mapping, and
all bytes outside the range that were there before. Where an array has no byte outside the range, it
gets a zero as far as its block has grown. -/
structure ImageMapped (before after : Memory) (base : UInt32) (image : Array UInt8)
    (name : String) : Prop where
  mappings : ∃ last : UInt32, last.toNat = lastOfImage base image.size ∧
    after.mappings = before.mappings ++ [⟨base, last, name⟩]
  length : after.length? = before.length?.map (max · (lastOfImage base image.size + 1))
  load_image : ∀ index (inside : index < image.size), base.toNat + index < 2 ^ 32 →
    after.load (UInt32.ofNat (base.toNat + index)) = .ok image[index]
  load_outside : ∀ address, ¬InImage base (lastOfImage base image.size) address →
    ∀ byte, before.load address = .ok byte → after.load address = .ok byte
  load_grown : ∀ address, ¬InImage base (lastOfImage base image.size) address →
    ∀ error, before.load address = .error error → ∀ length, after.length? = some length →
      after.load address = if address.toNat < length then .ok 0 else .error error

theorem imageMapped_extended (memory : Memory) (base : UInt32) {image : Array UInt8}
    (name : String) (more : image.size ≠ 0) :
    memory.ImageMapped (memory.extended (.image base image name)) base image name := by
  have last : (MappingCall.image base image name).mapping.last.toNat =
      lastOfImage base image.size := toNat_imageLast base image.size
  have asks : ¬(MappingCall.image base image name).IsEmpty := more
  have contains (address : UInt32) :=
    (MappingCall.mapping_contains_iff asks address).trans (covers_image_iff name more address)
  constructor
  case mappings => exact ⟨_, last, rfl⟩
  case length => rw [length?_extended, last]
  case load_image =>
    intro index inside straight
    have address : (UInt32.ofNat (base.toNat + index)).toNat = base.toNat + index :=
      UInt32.toNat_ofNat_of_lt' straight
    have contained := (contains (UInt32.ofNat (base.toNat + index))).mpr (by
      rw [InImage, address, lastOfImage]
      omega)
    rw [load_extended_of_contains memory contained, address]
    change Except.ok (image.getD (base.toNat + index - base.toNat) 0) = _
    rw [Nat.add_sub_cancel_left, Array.getD_eq_getD_getElem?, Array.getElem?_eq_getElem inside]
    rfl
  case load_outside =>
    intro address outside byte loaded
    exact load_extended_of_ok (Bool.eq_false_iff.mpr (mt (contains address).mp outside)) loaded
  case load_grown =>
    intro address outside error missing length grown
    have apart := Bool.eq_false_iff.mpr (mt (contains address).mp outside)
    -- An address without a byte lies behind the old block, of which the padding is zeros.
    have beyond : memory.store.size ≤ address.toNat := by
      by_contra within
      rw [load_of_lt (Nat.not_le.mp within)] at missing
      cases missing
    have isLength : (memory.extended (.image base image name)).store.size = length := by
      unfold length? at grown
      split at grown
      · exact Option.some.inj grown
      · cases grown
    rw [load_of_le beyond] at missing
    cases missing
    rw [load_extended_of_not_contains memory apart, isLength, ByteStore.padded_of_le beyond]

end Memory

namespace Machine

/-- Loading an image performs the call for it on the memory of the machine. -/
theorem loadImage_eq (machine : Machine) (base : UInt32) (image : Array UInt8) (name : String) :
    machine.loadImage base image name =
      match machine.memory.perform (.image base image name) with
      | (.ok (), memory) => .ok { machine with memory }
      | (.error error, _) => .error error := by
  change (match machine.memory.perform (.image base image name) with
    | (.ok (), memory) => Except.ok memory
    | (.error error, _) => Except.error error) >>= _ = _
  rcases machine.memory.perform (.image base image name) with ⟨_ | ⟨⟩, memory⟩ <;> rfl

theorem loadImage_eq_error_iff (machine : Machine) (base : UInt32) (image : Array UInt8)
    (name : String) (error : MappingError) :
    machine.loadImage base image name = .error error ↔
      (machine.memory.perform (.image base image name)).1 = .error error := by
  rw [loadImage_eq]
  rcases machine.memory.perform (.image base image name) with ⟨_ | ⟨⟩, memory⟩ <;> simp

theorem reachable_loadImage {machine loaded : Machine} (reachable : machine.memory.Reachable)
    {base : UInt32} {image : Array UInt8} {name : String}
    (done : machine.loadImage base image name = .ok loaded) : loaded.memory.Reachable := by
  have after := reachable.perform (.image base image name)
  rw [loadImage_eq] at done
  rcases performed : machine.memory.perform (.image base image name) with ⟨_ | ⟨⟩, memory⟩
  · rw [performed] at done
    cases done
  · rw [performed] at done after
    cases done
    exact after

end Machine

/-- A machine refuses an image without bytes as empty and one that meets a mapping as an overlap,
and its memory stays as it was. Any other image is mapped from its base up to its last byte, or to
the last address of all; nothing else of the machine changes. -/
theorem images_stay_below_end {machine : Machine} (reachable : machine.memory.Reachable)
    (base : UInt32) (image : Array UInt8) (name : String) :
    let result := machine.loadImage base image name
    let isTaken := ∃ mapping ∈ machine.memory.mappings, ∃ address,
      mapping.contains address = true ∧ InImage base (lastOfImage base image.size) address
    (result = .error .empty ↔ image.size = 0) ∧
    ((∃ other, result = .error (.overlap other)) ↔ image.size ≠ 0 ∧ isTaken) ∧
    (image.size ≠ 0 → ¬isTaken → ∃ memory, result = .ok { machine with memory } ∧
      machine.memory.ImageMapped memory base image name ∧
      (machine.memory.backing = .reserved →
        ∀ address, ¬InImage base (lastOfImage base image.size) address →
          memory.load address = machine.memory.load address)) ∧
    ∀ error, result = .error error →
      machine.memory.perform (.image base image name) = (.error error, machine.memory) := by
  intro result isTaken
  have separated := reachable.separated
  have answers := separated.answers (.image base image name)
  have fails := machine.loadImage_eq_error_iff base image name
  have meets (more : image.size ≠ 0) : isTaken ↔ ∃ address,
      (MappingCall.image base image name).Covers address ∧
        ∃ mapping ∈ machine.memory.mappings, mapping.contains address = true := by
    simp only [covers_image_iff name more]
    constructor
    · rintro ⟨mapping, member, address, contained, inside⟩
      exact ⟨address, inside, mapping, member, contained⟩
    · rintro ⟨address, inside, mapping, member, contained⟩
      exact ⟨mapping, member, address, contained, inside⟩
  refine ⟨?empty, ?overlap, ?mapped, ?unchanged⟩
  case empty => exact (fails _).trans answers.empty_iff
  case overlap =>
    simp only [result, fails]
    exact answers.overlap_iff.trans (and_congr_right fun more => (meets more).symm)
  case mapped =>
    intro more free
    rcases separated.perform_cases (.image base image name) with
      ⟨none, -⟩ | ⟨-, earlier, mapping, later, split, ⟨address, contained, covered⟩, -, -⟩ |
        ⟨-, -, performed⟩
    · exact absurd none more
    · have asks : ¬(MappingCall.image base image name).IsEmpty := more
      refine absurd ((meets more).mpr ⟨address, ?_, mapping, ?_, contained⟩) free
      · exact (MappingCall.mapping_contains_iff asks address).mp covered
      · simp [split]
    · have mapped := machine.memory.imageMapped_extended base name more
      refine ⟨_, (machine.loadImage_eq base image name).trans (by rw [performed]), mapped, ?_⟩
      intro isReserved address outside
      obtain ⟨byte, loaded⟩ := reachable.load_of_isReserved isReserved address
      rw [loaded, mapped.load_outside address outside byte loaded]
  case unchanged =>
    intro error failed
    exact Prod.ext ((fails error).mp failed) (answers.unchanged error ((fails error).mp failed))

/-- Two of four bytes fit in front of the end of the address space. The byte at the start stays, and
the block of the array grows over the addresses between. A byte at the last address is refused from
then on, and so is an image without bytes. -/
theorem images_stay_below_end_of_four :
    let machine := Machine.initial (.initial 0 0) (.array #[7])
    machine.memory.Reachable ∧ ∃ memory : Memory, memory.Reachable ∧
      machine.loadImage 0xFFFFFFFE #[1, 2, 3, 4] "image" = .ok { machine with memory } ∧
      memory.load 0xFFFFFFFF = .ok 2 ∧ memory.load 0 = .ok 7 ∧ memory.load 1 = .ok 0 ∧
      (∃ other, Machine.loadImage { machine with memory } 0xFFFFFFFF #[9] "next" =
        .error (.overlap other)) ∧
      Machine.loadImage { machine with memory } 5 #[] "nothing" = .error .empty := by
  intro machine
  have reachable : machine.memory.Reachable := .array #[7]
  obtain ⟨-, -, loads, -⟩ :=
    images_stay_below_end reachable 0xFFFFFFFE #[1, 2, 3, 4] "image"
  have free : ¬∃ mapping ∈ machine.memory.mappings, ∃ address,
      mapping.contains address = true ∧
        InImage 0xFFFFFFFE (lastOfImage 0xFFFFFFFE 4) address := by
    rintro ⟨_, none, -⟩
    cases none
  obtain ⟨memory, loaded, mapped, -⟩ := loads (by decide) free
  have reachableAfter : (Machine.memory { machine with memory }).Reachable :=
    Machine.reachable_loadImage reachable loaded
  obtain ⟨last, isLast, mappings⟩ := mapped.mappings
  refine ⟨reachable, memory, reachableAfter, loaded, ?_, ?_, ?_, ?_, ?_⟩
  · exact mapped.load_image 1 (by decide) (by decide)
  · exact mapped.load_outside 0 (by decide) 7 rfl
  · exact mapped.load_grown 1 (by decide) _ rfl (2 ^ 32) (mapped.length.trans (by decide))
  · obtain ⟨-, refused, -⟩ := images_stay_below_end reachableAfter 0xFFFFFFFF #[9] "next"
    refine refused.mpr ⟨by decide, ⟨0xFFFFFFFE, last, "image"⟩, ?_, 0xFFFFFFFF, ?_, by decide⟩
    · rw [mappings]
      exact List.mem_append_right _ List.mem_cons_self
    · have same : last = 0xFFFFFFFF := UInt32.toNat_inj.mp isLast
      rw [same]
      rfl
  · obtain ⟨empty, -⟩ := images_stay_below_end reachableAfter 5 #[] "nothing"
    exact empty.mpr rfl

end GuestProbe
