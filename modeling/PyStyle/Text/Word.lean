import PyStyle.Text.Decimal
import PyStyle.Text.Letter
import PyStyle.Text.Mark

/-!
# Word characters

A word character is a letter, a mark, a decimal digit, a connector such as the
underscore, a joiner, or one of the enclosed Latin letters that count as
alphabetic although they are symbols.

- `isWord` — the class;
- `isWordStart` — word characters that are no digit: a name may start with them;
- `isAsciiWord` — the ASCII part, tested first because nearly all text is ASCII.
-/

namespace PyStyle.Text

/-- Connector punctuation: the underscore and its relatives. -/
def connectorRanges : Ranges :=
  [(0x5f, 0x5f), (0x203f, 0x2040), (0x2054, 0x2054), (0xfe33, 0xfe34), (0xfe4d, 0xfe4f),
   (0xff3f, 0xff3f)]

/-- The two joiners and the enclosed letters, which are alphabetic symbols. -/
def alphabeticSymbolRanges : Ranges :=
  [(0x200c, 0x200d), (0x24b6, 0x24e9), (0x1f130, 0x1f149), (0x1f150, 0x1f169),
   (0x1f170, 0x1f189)]

/-- Is `c` an ASCII letter? -/
def isAsciiLetter (c : Char) : Bool :=
  ('a' ≤ c && c ≤ 'z') || ('A' ≤ c && c ≤ 'Z')

/-- Is `c` an ASCII letter, digit or underscore? -/
def isAsciiWord (c : Char) : Bool :=
  isAsciiLetter c || isAsciiDigit c || c == '_'

/-- Is `c` a word character? -/
def isWord (c : Char) : Bool :=
  if c.toNat < 0x80 then isAsciiWord c
  else isLetter c || isMark c || isDecimal c || connectorRanges.contains c
    || alphabeticSymbolRanges.contains c

/-- Is `c` a word character other than a digit? -/
def isWordStart (c : Char) : Bool :=
  isWord c && !isDecimal c

end PyStyle.Text
