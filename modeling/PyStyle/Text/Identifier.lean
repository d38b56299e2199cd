import PyStyle.Text.Word

/-!
# Identifier characters

The characters that may start and continue an identifier. Both classes are the
letters and the word characters up to short lists of exceptions, those that keep
the classes closed under compatibility normalisation.

- `isIdentifierStart`, `isIdentifierPart` — the two classes.
-/

namespace PyStyle.Text

/-- Letters that decompose into something that is no identifier start. -/
def nonStartLetterRanges : Ranges :=
  [(0x37a, 0x37a), (0xe33, 0xe33), (0xeb3, 0xeb3), (0x2e2f, 0x2e2f), (0xfc5e, 0xfc63),
   (0xfdfa, 0xfdfb), (0xfe70, 0xfe70), (0xfe72, 0xfe72), (0xfe74, 0xfe74), (0xfe76, 0xfe76),
   (0xfe78, 0xfe78), (0xfe7a, 0xfe7a), (0xfe7c, 0xfe7c), (0xfe7e, 0xfe7e), (0xff9e, 0xff9f)]

/-- Identifier starts that are no letters. -/
def extraStartRanges : Ranges :=
  [(0x5f, 0x5f), (0x1885, 0x1886), (0x2118, 0x2118), (0x212e, 0x212e)]

/-- Word characters that no identifier contains. -/
def nonPartWordRanges : Ranges :=
  [(0x37a, 0x37a), (0x488, 0x489), (0x1abe, 0x1abe), (0x200c, 0x200d), (0x20dd, 0x20e0),
   (0x20e2, 0x20e4), (0x24b6, 0x24e9), (0x2e2f, 0x2e2f), (0xa670, 0xa672), (0xfc5e, 0xfc63),
   (0xfdfa, 0xfdfb), (0xfe70, 0xfe70), (0xfe72, 0xfe72), (0xfe74, 0xfe74), (0xfe76, 0xfe76),
   (0xfe78, 0xfe78), (0xfe7a, 0xfe7a), (0xfe7c, 0xfe7c), (0xfe7e, 0xfe7e), (0x1f130, 0x1f149),
   (0x1f150, 0x1f169), (0x1f170, 0x1f189)]

/-- Identifier parts that are no word characters. -/
def extraPartRanges : Ranges :=
  [(0xb7, 0xb7), (0x387, 0x387), (0x1369, 0x1371), (0x19da, 0x19da), (0x2118, 0x2118),
   (0x212e, 0x212e)]

/-- May `c` start an identifier? -/
def isIdentifierStart (c : Char) : Bool :=
  if c.toNat < 0x80 then isAsciiLetter c || c == '_'
  else (isLetter c && !nonStartLetterRanges.contains c) || extraStartRanges.contains c

/-- May `c` continue an identifier? -/
def isIdentifierPart (c : Char) : Bool :=
  if c.toNat < 0x80 then isAsciiWord c
  else (isWord c && !nonPartWordRanges.contains c) || extraPartRanges.contains c

end PyStyle.Text
