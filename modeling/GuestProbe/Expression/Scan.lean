import GuestProbe.Expression.Error
import GuestProbe.Log
import GuestProbe.Token.Rule
import GuestProbe.Traced

/-! # Scanning expressions

`tokenize` cuts an expression into pieces from left to right and keeps a token for each piece that
is not whitespace. It stops at the first text that no rule matches and at the first token for which
the stream has no room. `scan` is the same computation with the events that a log shows.
-/

namespace GuestProbe

open Text

/-- The text of the token for a piece: a register's piece starts with a dollar sign, which is not
part of the register's name. -/
def RuleMatch.tokenText (found : RuleMatch) : List Char :=
  if found.rule.kind = .register then found.lexeme.drop 1 else found.lexeme

/-- The token for a piece that starts at the given offset; whitespace has none. -/
def RuleMatch.token? (found : RuleMatch) (offset : Nat) : Option Token :=
  if found.rule.kind = .whitespace then none
  else some (Token.ofText found.rule.kind found.rule.kind.precedence found.tokenText offset)

/-- What a scan does, as a log shows it. -/
inductive ScanEvent where
  /-- A rule matched at the offset. -/
  | matched (offset : Nat) (found : RuleMatch)
  /-- A token got less than its text. -/
  | truncated (text : List Char)
  /-- No rule matched at the offset. -/
  | unmatched (offset : Nat)

/-- Scans the text that starts at an offset and adds its tokens to a stream. -/
def scanFrom (stream : TokenStream) (offset : Nat) (text : List Char) :
    Traced ScanEvent ExpressionError TokenStream :=
  if text = [] then pure stream
  else
    match _success : findRule? text with
    | none => do
        .record (.unmatched offset)
        .fail (.noMatch offset (String.ofList text))
    | some found => do
        .record (.matched offset found)
        match found.token? offset with
        | none => scanFrom stream (offset + byteLength found.lexeme) found.rest
        | some token => do
            if byteLength found.tokenText > Token.textLimit then
              .record (.truncated found.tokenText)
            match stream.push? token with
            | none => .fail (.tooManyTokens offset)
            | some longer => scanFrom longer (offset + byteLength found.lexeme) found.rest
termination_by text.length
decreasing_by all_goals exact findRule?_rest_lt (by assumption)

/-- Scans an expression and records what happens. -/
def scan (expression : String) : Traced ScanEvent ExpressionError TokenStream :=
  scanFrom .empty 0 expression.toList

/-- Cuts an expression into tokens. -/
def tokenize (expression : String) : Except ExpressionError TokenStream :=
  (scan expression).outcome

/-- The log record of an event in the scan of an expression. -/
def ScanEvent.logRecord (expression : String) : ScanEvent → LogRecord
  | .matched offset found =>
      ⟨.trace, "match rules[" ++ decimalText found.index ++ "] = \"" ++
        Pattern.source found.rule.pattern ++ "\" at position " ++ decimalText offset ++
        " with len " ++ decimalText (byteLength found.lexeme) ++ ": " ++
        String.ofList found.lexeme⟩
  | .truncated text =>
      ⟨.debug, "truncating token '" ++ String.ofList text ++ "' to " ++
        decimalText (byteLength (takeBytes Token.textLimit text)) ++ " bytes"⟩
  | .unmatched offset =>
      ⟨.debug, "no match at position " ++ decimalText offset ++ "\n" ++ expression ++ "\n" ++
        String.ofList (List.replicate offset ' ') ++ "^"⟩

end GuestProbe
