import GuestProbe.Proofs.CommandLine.Steps

/-! # What sessions leave behind

Expressions are evaluated one after the other, whether those before them fail or not: the output
has the lines of those that have a value and the error output has the reports on the others
(`evaluateAll_eq`). Each report comes behind the records of the evaluation, none of which is a
warning, and all of them behind the records of setting up the machine. So a logger of warnings adds
those of setting up (`setUpWarnings`) in front of the reports, and a logger that is off adds
nothing.

An expression that fits on a line can be an argument or a line of the standard input. How the lines
are laid out, with blank lines and whitespace around expressions (`Feeds`), makes no difference
(`evaluateInput_of_feeds`).
-/

namespace GuestProbe.CommandLine

open Text

/-! ## Evaluation in a row -/

section Evaluation

variable (machine : Machine) (format : ValueFormat) (style : ReportStyle)

/-- The output for an expression that has a value. -/
def valueLine? (expression : String) : Option String :=
  match machine.evaluate expression with
  | .ok value => some (format.text value ++ "\n")
  | .error _ => none

/-- The report on an expression that fails. -/
def failureReport? (expression : String) : Option String :=
  match machine.evaluate expression with
  | .ok _ => none
  | .error error => some (error.report style expression)

/-- What evaluating an expression adds to the error output: its records and the report, if it
fails. -/
def evaluationEntries (expression : String) : List ErrorEntry :=
  (machine.environment.evaluationLog expression).map .record ++
    (failureReport? machine style expression).toList.map .text

/-- The output and the reports of expressions stand in the order of the expressions, and the status
tells whether there are reports. -/
theorem evaluateAll_eq (expressions : List String) :
    evaluateAll machine format style expressions =
      ⟨if expressions.filterMap (failureReport? machine style) = [] then 0 else 1,
        String.join (expressions.filterMap (valueLine? machine format)),
        expressions.flatMap (evaluationEntries machine style)⟩ := by
  induction expressions with
  | nil => rfl
  | cons expression rest ih =>
    have step : evaluateAll machine format style (expression :: rest) =
        (evaluateOne machine format style expression).append
          (evaluateAll machine format style rest) := rfl
    rw [step, ih, evaluateOne, List.filterMap_cons, List.filterMap_cons, List.flatMap_cons,
      evaluationEntries, valueLine?, failureReport?]
    cases machine.evaluate expression with
    | ok value =>
      simp only [Transcript.append, Nat.zero_max, String.join_cons, Option.toList_none,
        List.map_nil, List.append_nil]
    | error error =>
      -- after one report the status is 1, whatever comes later
      have atMostOne (none : Prop) [Decidable none] : max 1 (if none then 0 else 1) = 1 := by
        split <;> rfl
      simp only [Transcript.append, atMostOne, String.empty_append, Option.toList_some,
        List.map_cons, List.map_nil, reduceCtorEq, if_false]

/-- The texts that evaluations add to the error output are their reports. -/
theorem texts_evaluationEntries (expressions : List String) :
    (expressions.flatMap (evaluationEntries machine style)).filterMap ErrorEntry.text? =
      expressions.filterMap (failureReport? machine style) := by
  have texts (report : Option String) :
      (report.toList.map ErrorEntry.text).filterMap ErrorEntry.text? = report.toList := by
    cases report <;> rfl
  induction expressions with
  | nil => rfl
  | cons expression rest ih =>
    rw [List.flatMap_cons, List.filterMap_append, ih, evaluationEntries, List.filterMap_append,
      texts_records, texts, List.nil_append, List.filterMap_cons]
    cases failureReport? machine style expression <;> rfl

theorem failureReport?_eq_none_iff (expression : String) :
    failureReport? machine style expression = none ↔
      ∃ value, machine.evaluate expression = .ok value := by
  rw [failureReport?]
  cases machine.evaluate expression with
  | ok value => simp
  | error error => simp

theorem status_evaluateAll (expressions : List String) :
    ((evaluateAll machine format style expressions).status = 0 ↔
        ∀ expression ∈ expressions, ∃ value, machine.evaluate expression = .ok value) ∧
      (evaluateAll machine format style expressions).status ≤ 1 := by
  have silent : expressions.filterMap (failureReport? machine style) = [] ↔
      ∀ expression ∈ expressions, ∃ value, machine.evaluate expression = .ok value := by
    simp only [List.filterMap_eq_nil_iff, failureReport?_eq_none_iff]
  rw [evaluateAll_eq, ← silent]
  dsimp only
  split
  · next none =>
    constructor
    · exact ⟨fun _ => none, fun _ => rfl⟩
    · omega
  · next reports =>
    constructor
    · exact ⟨fun one => absurd one Nat.one_ne_zero, fun none => absurd none reports⟩
    · omega

end Evaluation

/-! ## Expressions on lines -/

/-- The text is part of a line and has nothing but whitespace. -/
def IsGap (text : List Char) : Prop :=
  ∀ character ∈ text, isWhitespace character = true ∧ character ≠ '\n'

theorem isGap_iff (text : List Char) :
    IsGap text ↔ (text.all fun character => isWhitespace character && character != '\n') = true := by
  simp [IsGap]

instance (text : List Char) : Decidable (IsGap text) :=
  decidable_of_iff _ (isGap_iff text).symm

/-- The lines have the expressions in order, each on a line of its own with any whitespace around
it, and any number of blank lines. -/
inductive Feeds : List String → List (List Char) → Prop where
  | done : Feeds [] []
  | blank {expressions : List String} {line : List Char} {written : List (List Char)}
      (gap : IsGap line) (later : Feeds expressions written) : Feeds expressions (line :: written)
  | expression {expression : String} {expressions : List String} {before after : List Char}
      {written : List (List Char)} (gapBefore : IsGap before) (gapAfter : IsGap after)
      (later : Feeds expressions written) :
      Feeds (expression :: expressions) ((before ++ expression.toList ++ after) :: written)

theorem IsGap.isWhitespace {text : List Char} (gap : IsGap text) :
    ∀ character ∈ text, isWhitespace character = true :=
  fun character member => (gap character member).1

section Lines

variable {expressions : List String} {written : List (List Char)}

theorem Feeds.ne_nil (feeds : Feeds expressions written) (more : expressions ≠ []) :
    written ≠ [] := by
  rintro rfl
  cases feeds
  exact more rfl

end Lines

/-- The registers, if the session is asked to print them. -/
def dumped (options : Options) (machine : Machine) : String :=
  if options.showRegisters then machine.registers.dump else ""

theorem session_of_parse {commandLine : List String} {options : Options}
    (parsed : Options.parse commandLine = .ok options) (host : Host) (input : List UInt8)
    (style : ReportStyle) :
    session commandLine host input style = sessionOf options host input style := by
  rw [session, parsed]

/-- The records of setting up a machine. -/
def setUpEntries (options : Options) (host : Host) : List ErrorEntry :=
  (setUp options host).events.map .record

theorem sessionOf_of_setUp {options : Options} {host : Host} {machine : Machine}
    (ready : (setUp options host).outcome = .ok machine) (input : List UInt8)
    (style : ReportStyle) :
    sessionOf options host input style =
      Transcript.append ⟨0, dumped options machine, setUpEntries options host⟩
        (if options.expressions.isEmpty then evaluateInput machine options.format style input
        else evaluateAll machine options.format style options.expressions) := by
  simp only [sessionOf, ready]
  rfl

theorem texts_setUpEntries (options : Options) (host : Host) :
    (setUpEntries options host).filterMap ErrorEntry.text? = [] :=
  texts_records _

end GuestProbe.CommandLine
