import GuestProbe.Expression.Error

/-! # Error reports

A report is the text that shows an error to a person: its message and, if the error refers to a
place in the expression, the expression with a caret below that place. Terminals that understand
colour codes get the word `error` in red and the caret in green.
-/

namespace GuestProbe

open Text

/-- Whether a report contains colour codes. -/
inductive ReportStyle where
  | plain
  | colored
deriving DecidableEq, Repr

namespace ReportStyle

/-- Plain text, or the terminal codes that reset all attributes, make the text bold and set the
colour with the given code. -/
def highlight (style : ReportStyle) (color : String) : String :=
  match style with
  | .plain => ""
  | .colored => "\x1b[0m\x1b[1m\x1b[" ++ color ++ "m"

/-- The code for red text. -/
def red : String := "31"

/-- The code for green text. -/
def green : String := "32"

/-- The end of a highlighted text. -/
def reset : ReportStyle → String
  | .plain => ""
  | .colored => "\x1b[0m"

end ReportStyle

/-- The number of characters before a byte offset, or 0 if the offset is not a boundary between
characters of the expression. -/
def caretColumn (expression : String) (offset : Nat) : Nat :=
  match splitBytes? offset expression.toList with
  | some (before, _) => before.length
  | none => 0

/-- The expression and, in the line below it, a caret at the given byte offset. -/
def caretLines (style : ReportStyle) (expression : String) (offset : Nat) : String :=
  "  " ++ expression ++ "\n" ++
    "  " ++ String.ofList (List.replicate (caretColumn expression offset) ' ') ++
    style.highlight ReportStyle.green ++ "^\n" ++ style.reset

/-- Shows an error of an expression. -/
def ExpressionError.report (error : ExpressionError) (style : ReportStyle) (expression : String) :
    String :=
  style.highlight ReportStyle.red ++ "error" ++ style.reset ++ ": " ++ error.message ++ "\n" ++
    match error.offset? with
    | some offset => caretLines style expression offset
    | none => ""

end GuestProbe
