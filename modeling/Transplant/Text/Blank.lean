/-!
# White space

The property `White_Space` of the Unicode character database: the 25 characters that trimming
removes and that may stand between the words of a statement.  The zero-width space `U+200B` and
the byte-order mark `U+FEFF` are not among them.
-/

namespace Transplant.Text

/-- The characters with the property `White_Space`. -/
def isBlank (c : Char) : Bool :=
  c == ' ' || ('\t' ≤ c && c ≤ '\r') || c == '\u0085' || c == '\u00a0' || c == '\u1680' ||
    ('\u2000' ≤ c && c ≤ '\u200a') || c == '\u2028' || c == '\u2029' || c == '\u202f' ||
    c == '\u205f' || c == '\u3000'

end Transplant.Text
