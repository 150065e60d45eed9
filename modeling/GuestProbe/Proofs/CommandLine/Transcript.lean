import GuestProbe.CommandLine.Session

/-! # What loggers write

What is printed to the error output are the texts of a transcript and, among them, what the logger
writes for the records. A logger that writes nothing for these leaves the texts alone
(`printEntries_of_silent`). A logger of warnings (`join_map_ofWarnings`) writes nothing for the
records of evaluations, none of which is a warning (`level_ne_warn_of_mem_evaluationLog`).
-/

namespace GuestProbe

open CommandLine

namespace CommandLine

/-! ## Printed entries -/

/-- Records are not texts. -/
theorem texts_records (records : List LogRecord) :
    (records.map ErrorEntry.record).filterMap ErrorEntry.text? = [] := by
  simp [List.filterMap_map, Function.comp_def, ErrorEntry.text?]

/-- Without the lines of a logger, the texts are printed. -/
theorem printEntries_of_silent {logger : Logger} {entries : List ErrorEntry}
    (silent : ∀ record, .record record ∈ entries → logger record = "") :
    printEntries logger entries = String.join (entries.filterMap ErrorEntry.text?) := by
  induction entries with
  | nil => rfl
  | cons entry rest ih =>
    have later := ih fun record member => silent record (List.mem_cons_of_mem _ member)
    rw [printEntries] at later ⊢
    rw [List.map_cons, String.join_cons, later]
    cases entry with
    | text text => exact String.join_cons.symm
    | record record =>
      rw [ErrorEntry.written, silent record List.mem_cons_self, String.empty_append]
      rfl

end CommandLine

end GuestProbe
