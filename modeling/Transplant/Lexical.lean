import Transplant.Text.Basic

/-!
# Code, strings and comments

A scan over characters that tells live code from string literals and comments.  A string in plain
quotation marks ends at the latest with its line; one in backquotes goes on.  A backslash inside a
string takes the next character with it.
-/

namespace Transplant

inductive LexState where
  | code
  /-- Inside a string literal. -/
  | literal (quote : Char)
  /-- Behind a backslash of a string literal. -/
  | escape (quote : Char)
  | lineComment
  /-- On the second character of the mark that opens a block comment. -/
  | blockOpening
  | blockComment
  /-- On the second character of the mark that closes a block comment. -/
  | blockClosing
  deriving DecidableEq, Repr

namespace LexState

/-- Whether a character is live code, and the state behind it; `next` is the character that
follows.  The line feed that ends a comment or an unclosed string is live. -/
def step (state : LexState) (c : Char) (next : Option Char) : Bool × LexState :=
  match state with
  | code =>
    if c = '\x27' ∨ c = '"' ∨ c = '\x60' then (false, literal c)
    else if c = '/' ∧ next = some '/' then (false, lineComment)
    else if c = '/' ∧ next = some '*' then (false, blockOpening)
    else (true, code)
  | literal quote =>
    if c = '\\' then (false, escape quote)
    else if c = quote then (false, code)
    else if c = '\n' ∧ quote ≠ '\x60' then (true, code)
    else (false, literal quote)
  | escape quote => (false, literal quote)
  | lineComment => if c = '\n' then (true, code) else (false, lineComment)
  | blockOpening => (false, blockComment)
  | blockComment =>
    if c = '*' ∧ next = some '/' then (false, blockClosing) else (false, blockComment)
  | blockClosing => (false, code)

end LexState

end Transplant
