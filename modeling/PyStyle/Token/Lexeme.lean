import PyStyle.Text.Word

/-!
# Lexemes

How far the names, numbers, string literals and operators at the front of a text
reach. Every rule answers with a number of characters, so that the lexeme is that
many characters taken from the text and the rest is what is left after dropping
them.

- `Lexeme.name` — a name: a word character that is no digit, then word characters;
- `Lexeme.number` — a numeric literal;
- `Lexeme.operator` — the longest operator or delimiter;
- `Lexeme.Opener`, `Lexeme.opener?` — the prefix and the quotes that open a string;
- `Lexeme.stringBody` — from behind the opener up to and including the closing quotes.
-/

namespace PyStyle.Lexeme

open PyStyle.Text

/-- The number of characters at the front that satisfy `p`. -/
def run (p : Char → Bool) (cs : List Char) : Nat :=
  (cs.takeWhile p).length

/-- The length of the name at the front, zero if there is none. -/
def name : List Char → Nat
  | c :: rest => if isWordStart c then run isWord rest + 1 else 0
  | [] => 0

/-! ### Numbers -/

/-- A decimal digit or the underscore that may separate digits. -/
def isDigitOrGap (c : Char) : Bool :=
  isDecimal c || c == '_'

/-- An ASCII hexadecimal digit or an underscore. -/
def isHexOrGap (c : Char) : Bool :=
  isAsciiDigit c || ('a' ≤ c && c ≤ 'f') || ('A' ≤ c && c ≤ 'F') || c == '_'

/-- An octal digit or an underscore. -/
def isOctalOrGap (c : Char) : Bool :=
  ('0' ≤ c && c ≤ '7') || c == '_'

/-- A binary digit or an underscore. -/
def isBinaryOrGap (c : Char) : Bool :=
  c == '0' || c == '1' || c == '_'

/-- Which characters follow a radix mark such as the `x` of `0x1f`. -/
def radixDigit? (mark : Char) : Option (Char → Bool) :=
  if mark == 'x' || mark == 'X' then some isHexOrGap
  else if mark == 'o' || mark == 'O' then some isOctalOrGap
  else if mark == 'b' || mark == 'B' then some isBinaryOrGap
  else none

/-- The length of a literal with a radix mark, zero if there is none or no digit
follows the mark. -/
def radixNumber : List Char → Nat
  | '0' :: mark :: rest =>
    match radixDigit? mark with
    | some isDigit => if run isDigit rest = 0 then 0 else run isDigit rest + 2
    | none => 0
  | _ => 0

/-- The length of the digits before an exponent: digits, perhaps with a fraction,
or a fraction alone. -/
def mantissa (cs : List Char) : Nat :=
  match cs with
  | '.' :: d :: rest => if isDecimal d then run isDigitOrGap rest + 2 else 0
  | d :: rest =>
    if isDecimal d then
      let whole := run isDigitOrGap rest + 1
      match cs.drop whole with
      | '.' :: fraction => whole + 1 + run isDigitOrGap fraction
      | _ => whole
    else 0
  | [] => 0

/-- The length of an exponent, zero if there is none. -/
def exponent : List Char → Nat
  | e :: rest =>
    if e == 'e' || e == 'E' then
      let sign := match rest with
        | c :: _ => if c == '+' || c == '-' then 1 else 0
        | [] => 0
      match rest.drop sign with
      | d :: digits => if isDecimal d then run isDigitOrGap digits + sign + 2 else 0
      | [] => 0
    else 0
  | [] => 0

/-- The length of an imaginary mark, zero if there is none. -/
def imaginary : List Char → Nat
  | c :: _ => if c == 'j' || c == 'J' then 1 else 0
  | [] => 0

/-- The length of a decimal literal: mantissa, exponent and imaginary mark. -/
def decimalNumber (cs : List Char) : Nat :=
  let digits := mantissa cs
  let scaled := digits + exponent (cs.drop digits)
  scaled + imaginary (cs.drop scaled)

/-- Does a number start here: an ASCII digit, or a point with one behind it? -/
def startsNumber : List Char → Bool
  | '.' :: d :: _ => isAsciiDigit d
  | c :: _ => isAsciiDigit c
  | [] => false

/-- The length of the number at the front, zero if there is none. A radix literal
wins over the decimal zero it starts with. -/
def number (cs : List Char) : Nat :=
  if startsNumber cs then
    if radixNumber cs = 0 then decimalNumber cs else radixNumber cs
  else 0

/-! ### Operators -/

/-- The operators and delimiters of more than one character, longer ones first. -/
def longOperators : List (List Char) :=
  ["**=", "//=", ">>=", "<<=", "...", "->", ":=", "**", "//", "<<", ">>", "<=", ">=", "==", "!=",
   "-=", "+=", "*=", "/=", "%=", "@=", "&=", "|=", "^="].map String.toList

/-- The operators and delimiters of one character. -/
def shortOperators : List Char :=
  "-+*/%@&|^~<>()[]\x7b\x7d,:.;=!".toList

/-- The length of the operator at the front, zero if there is none. -/
def operator (cs : List Char) : Nat :=
  match longOperators.find? (·.isPrefixOf cs) with
  | some op => op.length
  | none =>
    match cs with
    | c :: _ => if shortOperators.contains c then 1 else 0
    | [] => 0

/-! ### Strings -/

/-- How a string literal opens: the length of its prefix, the quote, and whether
the quote stands three times. -/
structure Opener where
  letters : Nat
  quote : Char
  triple : Bool
deriving DecidableEq, Repr

namespace Opener

/-- How often the quote stands at either end. -/
def quotes (o : Opener) : Nat :=
  if o.triple then 3 else 1

/-- The length of prefix and quotes. -/
def length (o : Opener) : Nat :=
  o.letters + o.quotes

end Opener

/-- The quotes at the front, with `letters` characters of prefix before them. -/
def quotesAt? (letters : Nat) : List Char → Option Opener
  | q :: rest =>
    if q == '\'' || q == '"' then
      some { letters, quote := q, triple := [q, q].isPrefixOf rest }
    else none
  | [] => none

/-- Is `c` the letter `x` in either case? -/
def isLetterOf (x c : Char) : Bool :=
  c == x || c == x.toUpper

/-- May `c` alone be the prefix of a string? -/
def isStringLetter (c : Char) : Bool :=
  isLetterOf 'r' c || isLetterOf 'b' c || isLetterOf 'u' c || isLetterOf 'f' c

/-- May `c` and `d` together be the prefix of a string? One of them is the raw
mark, the other is `b` or `f`. -/
def isStringLetterPair (c d : Char) : Bool :=
  (isLetterOf 'r' c && (isLetterOf 'b' d || isLetterOf 'f' d))
    || (isLetterOf 'r' d && (isLetterOf 'b' c || isLetterOf 'f' c))

/-- The opener of a string at the front of the text. -/
def opener? : List Char → Option Opener
  | c :: d :: rest =>
    if isStringLetterPair c d then quotesAt? 2 rest
    else if isStringLetter c then quotesAt? 1 (d :: rest)
    else quotesAt? 0 (c :: d :: rest)
  | cs => quotesAt? 0 cs

/-- Do the closing quotes stand at the front? -/
def closes (o : Opener) (cs : List Char) : Bool :=
  (List.replicate o.quotes o.quote).isPrefixOf cs

/-- The length of the rest of a string literal behind its opener, up to and
including the closing quotes. A backslash takes the next character with it, or a
whole line break; a bare line break ends the search unless the quotes are triple. -/
def stringBody (o : Opener) : List Char → Option Nat
  | [] => none
  | '\\' :: '\r' :: '\n' :: rest => (stringBody o rest).map (· + 3)
  | '\\' :: _ :: rest => (stringBody o rest).map (· + 2)
  | ['\\'] => none
  | c :: rest =>
    if (c == '\n' || c == '\r') && !o.triple then none
    else if closes o (c :: rest) then some o.quotes
    else (stringBody o rest).map (· + 1)

/-- The length of the string literal at the front that `o` opens. -/
def stringLiteral (o : Opener) (cs : List Char) : Option Nat :=
  (stringBody o (cs.drop o.length)).map (· + o.length)

/-- The length of the line break at the front, zero if there is none: a carriage
return and a line feed together count as one break. -/
def lineBreak : List Char → Nat
  | '\r' :: '\n' :: _ => 2
  | '\r' :: _ => 1
  | '\n' :: _ => 1
  | _ => 0

/-- Is `c` a line feed or a carriage return? -/
def isLineBreak (c : Char) : Bool :=
  c == '\r' || c == '\n'

/-- The length of a comment at the front: everything before the next line break. -/
def comment (cs : List Char) : Nat :=
  run (fun c => !isLineBreak c) cs

end PyStyle.Lexeme
