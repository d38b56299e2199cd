import Mathlib.Data.List.Basic
import Mathlib.Tactic.SplitIfs
import PyStyle.JsonValue
import PyStyle.JsonValue.Printed

/-!
# Printed JSON reads back

A value that is written is read again as the same value, whatever texts and numbers it holds.

- `Printed.value` — the value that a printed one stands for;
- `decimalValue_decimalDigits` — digits spell the number they were made from;
- `JsonValue.stringFrom_escape` — an escaped character is read as that character;
- `JsonValue.Reads` — a written value is found at the front of a text;
- `JsonValue.parse_render` — reading what was written.
-/

namespace PyStyle

/-! ### Blanks -/

namespace JsonValue

theorem skipSpace_cons {c : Char} (hc : isSpace c = false) (cs : List Char) :
    skipSpace (c :: cs) = c :: cs := by
  simp [skipSpace, hc]

/-- A value is the same behind other blanks. -/
theorem valueFrom_of_skipSpace {cs cs' : List Char} (h : skipSpace cs = skipSpace cs')
    (fuel : Nat) : valueFrom fuel cs = valueFrom fuel cs' := by
  rw [valueFrom.eq_def, valueFrom.eq_def, h]

/-- So are the items of a list, as each of them is a value first. -/
theorem itemsFrom_of_skipSpace {cs cs' : List Char} (h : skipSpace cs = skipSpace cs')
    (fuel : Nat) (before : List JsonValue) :
    itemsFrom fuel before cs = itemsFrom fuel before cs' := by
  cases fuel with
  | zero => rw [itemsFrom, itemsFrom]
  | succ fuel => rw [itemsFrom, itemsFrom, valueFrom_of_skipSpace h]

/-- So are the members of a record, each of which starts with its key. -/
theorem membersFrom_of_skipSpace {cs cs' : List Char} (h : skipSpace cs = skipSpace cs')
    (fuel : Nat) (before : List (Option String × JsonValue)) :
    membersFrom fuel before cs = membersFrom fuel before cs' := by
  rw [membersFrom.eq_def, membersFrom.eq_def, h]

end JsonValue

/-! ### Numbers -/

/-- The character of a digit. -/
theorem digitChar_facts : ∀ d < 10, Text.isAsciiDigit (Char.ofNat ('0'.toNat + d)) = true
    ∧ (Char.ofNat ('0'.toNat + d)).toNat - '0'.toNat = d
    ∧ (d ≠ 0 → Char.ofNat ('0'.toNat + d) ≠ '0') := by
  decide

/-- A digit behind a number makes it ten times as large, and adds its own value. -/
theorem decimalValue_concat (digits : List Char) (c : Char) :
    decimalValue (digits ++ [c]) = decimalValue digits * 10 + (c.toNat - '0'.toNat) := by
  simp [decimalValue]

/-- **Digits spell the number they were made from.** -/
theorem decimalValue_decimalDigits (n : Nat) : decimalValue (decimalDigits n) = n := by
  fun_induction decimalDigits n with
  | case1 n hn =>
    show 0 * 10 + (_ - _) = n
    rw [(digitChar_facts n hn).2.1]
    omega
  | case2 n hn ih =>
    rw [decimalValue_concat, ih, (digitChar_facts (n % 10) (Nat.mod_lt n (by decide))).2.1]
    omega

/-- A number is written with digits only. -/
theorem isAsciiDigit_of_mem_decimalDigits {n : Nat} {c : Char} (h : c ∈ decimalDigits n) :
    Text.isAsciiDigit c = true := by
  fun_induction decimalDigits n with
  | case1 n hn =>
    rw [List.mem_singleton.mp h]
    exact (digitChar_facts n hn).1
  | case2 n hn ih =>
    rcases List.mem_append.mp h with h | h
    · exact ih h
    · rw [List.mem_singleton.mp h]
      exact (digitChar_facts (n % 10) (Nat.mod_lt n (by decide))).1

/-- No number but zero starts with a zero. -/
theorem decimalDigits_cases (n : Nat) :
    decimalDigits n = ['0'] ∨ ∃ d ds, decimalDigits n = d :: ds ∧ d ≠ '0' := by
  fun_induction decimalDigits n with
  | case1 n hn =>
    by_cases hzero : n = 0
    · subst hzero
      exact .inl rfl
    · exact .inr ⟨_, [], rfl, (digitChar_facts n hn).2.2 hzero⟩
  | case2 n hn ih =>
    rcases ih with hzero | ⟨d, ds, hdigits, hd⟩
    · -- A number with a last digit to spare is not zero.
      have hvalue := decimalValue_decimalDigits (n / 10)
      rw [hzero] at hvalue
      have : n / 10 = 0 := hvalue.symm
      omega
    · exact .inr ⟨d, ds ++ [_], by rw [hdigits, List.cons_append], hd⟩

/-- Every number has a first digit, by which the reader knows that a number comes. -/
theorem decimalDigits_eq_cons (n : Nat) :
    ∃ d ds, decimalDigits n = d :: ds ∧ Text.isAsciiDigit d = true := by
  obtain ⟨d, ds, hdigits⟩ : ∃ d ds, decimalDigits n = d :: ds := by
    rcases decimalDigits_cases n with h | ⟨d, ds, h, -⟩
    · exact ⟨_, _, h⟩
    · exact ⟨_, _, h⟩
  refine ⟨d, ds, hdigits, isAsciiDigit_of_mem_decimalDigits (n := n) ?_⟩
  rw [hdigits]
  exact List.mem_cons_self ..

theorem ne_of_isAsciiDigit {c x : Char} (hc : Text.isAsciiDigit c = true)
    (hx : Text.isAsciiDigit x = false) : c ≠ x := by
  rintro rfl
  rw [hc] at hx
  cases hx

namespace JsonValue

theorem isSpace_digit {d : Char} (hd : Text.isAsciiDigit d = true) : isSpace d = false := by
  by_contra hspace
  simp only [isSpace, Bool.not_eq_false, Bool.or_eq_true, beq_iff_eq] at hspace
  rcases hspace with ((rfl | rfl) | rfl) | rfl
  all_goals exact absurd hd (by decide)

/-- A number that stands before the text ends there. -/
def EndsNumber (rest : List Char) : Prop :=
  ∀ c ∈ rest.head?, Text.isAsciiDigit c = false ∧ c ≠ '.' ∧ c ≠ 'e' ∧ c ≠ 'E'

/-- Digits are read up to the text behind them. -/
theorem takeWhile_digits {digits rest : List Char}
    (hdigits : ∀ c ∈ digits, Text.isAsciiDigit c = true) (hrest : EndsNumber rest) :
    (digits ++ rest).takeWhile Text.isAsciiDigit = digits
      ∧ (digits ++ rest).dropWhile Text.isAsciiDigit = rest := by
  rw [List.takeWhile_append_of_pos hdigits, List.dropWhile_append_of_pos hdigits]
  cases rest with
  | nil => simp
  | cons c tail =>
    have hc := (hrest c rfl).1
    simp [hc]

/-- The whole part of a number is what was written. A zero is a number of its own here: the reader
takes no digits behind it. -/
theorem skipWhole_decimalDigits (n : Nat) {rest : List Char} (hrest : EndsNumber rest) :
    skipWhole (decimalDigits n ++ rest) = .ok rest := by
  have hdigits : ∀ c ∈ decimalDigits n, Text.isAsciiDigit c = true :=
    fun c hc => isAsciiDigit_of_mem_decimalDigits hc
  rcases decimalDigits_cases n with hzero | ⟨d, ds, hcons, hd⟩
  · rw [hzero]
    cases rest with
    | nil => rfl
    | cons c tail =>
      have hc := (hrest c rfl).1
      simp [skipWhole, hc]
  · rw [hcons] at hdigits ⊢
    obtain ⟨hfirst, hds⟩ := List.forall_mem_cons.mp hdigits
    have hbehind : skipDigits (ds ++ rest) = rest := (takeWhile_digits hds hrest).2
    rw [List.cons_append, skipWhole, requireDigits, if_pos hfirst, hbehind]
    exact fun _ _ h => hd (List.cons.inj h).1

/-- A written number is read again: the text behind it starts no fraction and no exponent. -/
theorem unsignedNumber_decimalDigits (n : Nat) {rest : List Char} (hrest : EndsNumber rest) :
    unsignedNumber (decimalDigits n ++ rest) = .ok (.number (some n), rest) := by
  have hdigits : (decimalDigits n ++ rest).takeWhile Text.isAsciiDigit = decimalDigits n :=
    (takeWhile_digits (fun c hc => isAsciiDigit_of_mem_decimalDigits hc) hrest).1
  have hfraction : skipFraction rest = .ok rest := by
    cases rest with
    | nil => rfl
    | cons c tail =>
      rw [skipFraction]
      exact fun _ h => absurd (List.cons.inj h).1 (hrest c rfl).2.1
  have hexponent : skipExponent rest = .ok rest := by
    cases rest with
    | nil => rfl
    | cons c tail =>
      obtain ⟨-, -, he, hE⟩ := hrest c rfl
      simp [skipExponent, he, hE]
  have hnatural : (rest.head?.any fun c => c == '.' || c == 'e' || c == 'E') = false := by
    cases rest with
    | nil => rfl
    | cons c tail =>
      obtain ⟨-, hpoint, he, hE⟩ := hrest c rfl
      simp [hpoint, he, hE]
  simp only [unsignedNumber, skipWhole_decimalDigits n hrest, hfraction, hexponent, hnatural,
    hdigits, decimalValue_decimalDigits, bind, Except.bind]
  rfl

end JsonValue

/-! ### Written texts -/

namespace Printed

mutual

/-- The value that a printed one stands for. -/
def value : Printed → JsonValue
  | .natural n => .number (some n)
  | .bool b => .bool b
  | .text t => .string (some t)
  | .list items => .array (values items)
  | .record members => .object (memberValues members)

/-- The values of items. -/
def values : List Printed → List JsonValue
  | [] => []
  | item :: rest => item.value :: values rest

/-- The members with their values. -/
def memberValues : List (String × Printed) → List (Option String × JsonValue)
  | [] => []
  | (key, item) :: rest => (some key, item.value) :: memberValues rest

end

/-- What stands behind the first of some items: the others, each behind a comma and on a line of its
own, and the closing bracket. -/
def closed (closing : Char) (level : Nat) : List String → List Char
  | [] => (lineBreak level).toList ++ [closing]
  | item :: rest =>
    ',' :: ((lineBreak (level + 1)).toList ++ (item.toList ++ closed closing level rest))

/-- The characters of a joined text: each item but the first one has the separator before it. -/
theorem toList_intercalate_cons (separator first : String) (rest : List String) :
    (separator.intercalate (first :: rest)).toList
      = first.toList ++ rest.flatMap fun item => separator.toList ++ item.toList := by
  rw [String.toList_intercalate, List.map_cons]
  induction rest generalizing first with
  | nil => simp
  | cons item rest ih => simp_all [List.intercalate]

/-- The recursion spelled out, as the printer joins its items. -/
theorem closed_eq (closing : Char) (level : Nat) (rest : List String) :
    closed closing level rest
      = rest.flatMap (fun item => ("," ++ lineBreak (level + 1)).toList ++ item.toList)
        ++ ((lineBreak level).toList ++ [closing]) := by
  induction rest with
  | nil => rfl
  | cons item rest ih => simp [closed, ih]

/-- A bracket with an item in it, character by character: what follows the first item is `closed`.
-/
theorem toList_bracket (opening closing : Char) (level : Nat) (first : String)
    (rest : List String) :
    (bracket (String.singleton opening) (String.singleton closing) level (first :: rest)).toList
      = opening :: ((lineBreak (level + 1)).toList
          ++ (first.toList ++ closed closing level rest)) := by
  rw [bracket, if_neg (by simp), closed_eq]
  simp only [String.toList_append, toList_intercalate_cons, String.toList_singleton,
    List.append_assoc, List.cons_append, List.nil_append]

theorem toList_lineBreak (level : Nat) :
    (lineBreak level).toList = '\n' :: List.replicate (2 * level) ' ' :=
  String.toList_ofList

theorem length_closed_nil (closing : Char) (level : Nat) :
    (closed closing level []).length = (lineBreak level).toList.length + 1 := by
  simp [closed]

/-- How much fuel an item takes: it has its own characters, and those of the line break and the
comma before it. -/
theorem length_closed_cons (closing : Char) (level : Nat) (item : String) (rest : List String) :
    (closed closing level (item :: rest)).length
      = (lineBreak (level + 1)).toList.length + item.toList.length
        + (closed closing level rest).length + 1 := by
  simp only [closed, List.length_cons, List.length_append]
  omega

/-- A member is at least as long as its value, so fuel for the member will do for the value. -/
theorem length_renderAt_le (level : Nat) (key : String) (item : Printed) :
    (renderAt level item).toList.length
      ≤ (quote key ++ ": " ++ renderAt level item).toList.length := by
  simp only [String.toList_append, List.length_append]
  omega

theorem toList_quote (text : String) :
    (quote text).toList = '"' :: (text.toList.flatMap escape ++ ['"']) :=
  String.toList_ofList

/-- A written value starts with a character that is no blank and closes no bracket. -/
theorem head_renderAt (level : Nat) (p : Printed) :
    ∃ c cs, (renderAt level p).toList = c :: cs ∧ JsonValue.isSpace c = false ∧ c ≠ ']' := by
  cases p with
  | natural n =>
    obtain ⟨d, ds, hdigits, hd⟩ := decimalDigits_eq_cons n
    refine ⟨d, ds, by rw [renderAt, String.toList_ofList, hdigits], ?_, ne_of_isAsciiDigit hd rfl⟩
    exact JsonValue.isSpace_digit hd
  | bool b =>
    cases b
    · exact ⟨'f', ['a', 'l', 's', 'e'], by simp [renderAt], rfl, by decide⟩
    · exact ⟨'t', ['r', 'u', 'e'], by simp [renderAt], rfl, by decide⟩
  | text t => exact ⟨_, _, toList_quote t, rfl, by decide⟩
  | list items =>
    cases items with
    | nil => exact ⟨'[', [']'], by simp [renderAt, renderItems, bracket], rfl, by decide⟩
    | cons item rest => exact ⟨_, _, toList_bracket '[' ']' level _ _, rfl, by decide⟩
  | record members =>
    cases members with
    | nil => exact ⟨'\x7b', ['\x7d'], by simp [renderAt, renderMembers, bracket], rfl, by decide⟩
    | cons member rest =>
      obtain ⟨key, item⟩ := member
      exact ⟨_, _, toList_bracket '\x7b' '\x7d' level _ _, rfl, by decide⟩

end Printed

namespace JsonValue

open Printed

/-! ### Strings -/

/-- Four characters that are no hexadecimal digits end the text with an error, whatever follows
them. -/
theorem stringFrom_malformed {a b c d : Char} (hunit : hexUnit? a b c d = none) (s : Scanned)
    (tail : List Char) :
    stringFrom s ('\\' :: 'u' :: a :: b :: c :: d :: tail) = .error .malformed := by
  by_cases hpair : ∃ e f g h rest, tail = '\\' :: 'u' :: e :: f :: g :: h :: rest
  · obtain ⟨e, f, g, h, rest, rfl⟩ := hpair
    rw [stringFrom, hunit]
  · rw [stringFrom, hunit]
    intro e f g h rest htail
    exact hpair ⟨e, f, g, h, rest, htail⟩

/-- A unit that is no first half of a pair is read by itself, whatever comes behind it. -/
theorem stringFrom_unit {a b c d : Char} {unit : Nat} (hunit : hexUnit? a b c d = some unit)
    (hplain : isLeading unit = false) (s : Scanned) (tail : List Char) :
    stringFrom s ('\\' :: 'u' :: a :: b :: c :: d :: tail) = stringFrom (s.pushUnit unit) tail := by
  -- The reader looks at two units at once, so the induction goes over those that follow.
  induction hn : tail.length using Nat.strongRecOn generalizing a b c d unit s tail with
  | _ n ih =>
    by_cases hpair : ∃ e f g h rest, tail = '\\' :: 'u' :: e :: f :: g :: h :: rest
    · obtain ⟨e, f, g, h, rest, rfl⟩ := hpair
      cases hsecond : hexUnit? e f g h with
      | none =>
        rw [stringFrom_malformed hsecond, stringFrom, hunit, hsecond]
      | some second =>
        by_cases hlead : isLeading second = true
        · rw [stringFrom, hunit, hsecond]
          simp [hplain, hlead]
        · have hshorter : rest.length < n := by
            rw [← hn]
            simp only [List.length_cons]
            omega
          rw [ih rest.length hshorter hsecond (by simpa using hlead) (s.pushUnit unit) rest rfl,
            stringFrom, hunit, hsecond]
          simp [hplain, hlead]
    · rw [stringFrom, hunit]
      intro e f g h rest htail
      exact hpair ⟨e, f, g, h, rest, htail⟩

/-- A control character is written as a unit of its own. -/
theorem hexUnit?_control : ∀ n < 0x20,
    hexUnit? '0' '0' (Text.hexDigit (n / 16)) (Text.hexDigit (n % 16)) = some n
      ∧ isLeading n = false ∧ isTrailing n = false := by
  decide

/-- A letter behind a backslash is read as the character that it is written for. -/
theorem stringFrom_simpleEscape {c escaped : Char} (hc : c ≠ 'u')
    (h : simpleEscape? c = some escaped) (s : Scanned) (tail : List Char) :
    stringFrom s ('\\' :: c :: tail) = stringFrom (s.push escaped) tail := by
  rw [stringFrom, h]
  all_goals simp [hc]

/-- A character that has no special meaning is read as it is. -/
theorem stringFrom_plain {c : Char} (hquote : c ≠ '"') (hbackslash : c ≠ '\\')
    (hcontrol : ¬ c.toNat < 0x20) (s : Scanned) (tail : List Char) :
    stringFrom s (c :: tail) = stringFrom (s.push c) tail := by
  rw [stringFrom]
  · simp [hbackslash, hcontrol]
  all_goals simp [hquote, hbackslash]

/-- The three ways a character is written: by a letter behind a backslash, by its number, or as it
is. -/
theorem escape_cases (c : Char) :
    (∃ e, Printed.escape c = ['\\', e] ∧ e ≠ 'u' ∧ simpleEscape? e = some c)
      ∨ (c.toNat < 0x20 ∧ Printed.escape c
          = ['\\', 'u', '0', '0', Text.hexDigit (c.toNat / 16), Text.hexDigit (c.toNat % 16)])
      ∨ (¬ c.toNat < 0x20 ∧ c ≠ '"' ∧ c ≠ '\\' ∧ Printed.escape c = [c]) := by
  unfold Printed.escape
  split_ifs with h1 h2 h3 h4 h5 h6 h7 hcontrol
  · exact .inl ⟨'"', rfl, by decide, by rw [beq_iff_eq.mp h1]; rfl⟩
  · exact .inl ⟨'\\', rfl, by decide, by rw [beq_iff_eq.mp h2]; rfl⟩
  · exact .inl ⟨'b', rfl, by decide, by rw [beq_iff_eq.mp h3]; rfl⟩
  · exact .inl ⟨'t', rfl, by decide, by rw [beq_iff_eq.mp h4]; rfl⟩
  · exact .inl ⟨'n', rfl, by decide, by rw [beq_iff_eq.mp h5]; rfl⟩
  · exact .inl ⟨'f', rfl, by decide, by rw [beq_iff_eq.mp h6]; rfl⟩
  · exact .inl ⟨'r', rfl, by decide, by rw [beq_iff_eq.mp h7]; rfl⟩
  · exact .inr (.inl ⟨hcontrol, rfl⟩)
  · exact .inr (.inr ⟨hcontrol, by simpa using h1, by simpa using h2, rfl⟩)

/-- **A character that is written is read again.** -/
theorem stringFrom_escape (c : Char) (s : Scanned) (tail : List Char) :
    stringFrom s (Printed.escape c ++ tail) = stringFrom (s.push c) tail := by
  rcases escape_cases c with ⟨e, hescape, he, hc⟩ | ⟨hcontrol, hescape⟩
    | ⟨hcontrol, hquote, hbackslash, hescape⟩
  · rw [hescape]
    exact stringFrom_simpleEscape he hc s tail
  · obtain ⟨hunit, hleading, htrailing⟩ := hexUnit?_control c.toNat hcontrol
    have hpush : s.pushUnit c.toNat = s.push c := by
      simp [Scanned.pushUnit, hleading, htrailing]
    rw [hescape, ← hpush]
    exact stringFrom_unit hunit hleading s tail
  · rw [hescape]
    exact stringFrom_plain hquote hbackslash hcontrol s tail

/-- A text that is written between quotes is read up to the closing one. -/
theorem stringFrom_quote (cs : List Char) (s : Scanned) (hs : s.isBroken = false)
    (rest : List Char) :
    stringFrom s (cs.flatMap Printed.escape ++ '"' :: rest)
      = .ok (some (String.ofList (s.chars.reverse ++ cs)), rest) := by
  induction cs generalizing s with
  | nil =>
    rw [List.flatMap_nil, List.nil_append, stringFrom, Scanned.text?, hs]
    simp
  | cons c cs ih =>
    rw [List.flatMap_cons, List.append_assoc, stringFrom_escape, ih (s.push c) hs]
    simp [Scanned.push]

/-! ### Values -/

/-- A line break and the blanks at the start of the line are skipped. -/
theorem skipSpace_lineBreak (level : Nat) (cs : List Char) :
    skipSpace ((lineBreak level).toList ++ cs) = skipSpace cs := by
  have hblank : ∀ c ∈ '\n' :: List.replicate (2 * level) ' ', isSpace c = true := by
    intro c hc
    rcases List.mem_cons.mp hc with rfl | hc
    · rfl
    · rw [List.eq_of_mem_replicate hc]
      rfl
  rw [skipSpace, toList_lineBreak, List.dropWhile_append_of_pos hblank, skipSpace]

/-- A comma, a line break or a bracket ends a number, so an item that is a number ends where it
should. -/
theorem endsNumber_closed (closing : Char) (level : Nat) (rest : List String)
    (behind : List Char) : EndsNumber (closed closing level rest ++ behind) := by
  cases rest with
  | nil =>
    rintro c hc
    rw [closed, toList_lineBreak] at hc
    obtain rfl : '\n' = c := by simpa using hc
    decide
  | cons item rest =>
    rintro c hc
    obtain rfl : ',' = c := by simpa [closed] using hc
    decide

/-- Behind the last item the reader finds the closing bracket. -/
theorem skipSpace_closed_nil {closing : Char} (hclosing : isSpace closing = false) (level : Nat)
    (behind : List Char) : skipSpace (closed closing level [] ++ behind) = closing :: behind := by
  rw [closed, List.append_assoc, skipSpace_lineBreak, List.singleton_append,
    skipSpace_cons hclosing]

/-- Behind any other item it finds a comma. -/
theorem skipSpace_closed_cons (closing : Char) (level : Nat) (item : String) (rest : List String)
    (behind : List Char) :
    skipSpace (closed closing level (item :: rest) ++ behind)
      = ',' :: ((lineBreak (level + 1)).toList
          ++ (item.toList ++ (closed closing level rest ++ behind))) := by
  rw [closed, List.cons_append, skipSpace_cons rfl]
  simp only [List.append_assoc]

/-- The reader finds the written value at the front of a text, whatever stands behind it. -/
def Reads (level : Nat) (p : Printed) : Prop :=
  ∀ fuel rest, (renderAt level p).toList.length ≤ fuel → EndsNumber rest →
    valueFrom fuel ((renderAt level p).toList ++ rest) = .ok (p.value, rest)

theorem valueFrom_digit {d : Char} (hd : Text.isAsciiDigit d = true) (fuel : Nat)
    (cs : List Char) : valueFrom (fuel + 1) (d :: cs) = unsignedNumber (d :: cs) := by
  rw [valueFrom.eq_def, skipSpace_cons (isSpace_digit hd)]
  dsimp only
  split
  all_goals first | exact absurd hd (by decide) | exact if_pos hd

theorem valueFrom_true (fuel : Nat) (rest : List Char) :
    valueFrom (fuel + 1) ('t' :: 'r' :: 'u' :: 'e' :: rest) = .ok (.bool true, rest) := by
  rw [valueFrom.eq_def, skipSpace_cons rfl]
  simp [word]

theorem valueFrom_false (fuel : Nat) (rest : List Char) :
    valueFrom (fuel + 1) ('f' :: 'a' :: 'l' :: 's' :: 'e' :: rest) = .ok (.bool false, rest) := by
  rw [valueFrom.eq_def, skipSpace_cons rfl]
  simp [word]

/-- A quote at the front starts a text. -/
theorem valueFrom_quote (fuel : Nat) (text : String) (rest : List Char) :
    valueFrom (fuel + 1) ((quote text).toList ++ rest) = .ok (.string (some text), rest) := by
  rw [toList_quote, List.cons_append, valueFrom.eq_def, skipSpace_cons rfl]
  have htext : stringFrom {} (text.toList.flatMap escape ++ '"' :: rest)
      = .ok (some text, rest) := by
    rw [stringFrom_quote _ _ rfl]
    simp
  rw [List.append_assoc, List.cons_append, List.nil_append]
  simp only [htext, bind, Except.bind]

theorem valueFrom_emptyList (fuel : Nat) (rest : List Char) :
    valueFrom (fuel + 1) ('[' :: ']' :: rest) = .ok (.array [], rest) := by
  rw [valueFrom.eq_def, skipSpace_cons rfl]
  simp only [skipSpace_cons (c := ']') rfl]

/-- An opening bracket starts a list, and its items if the bracket is not closed at once. -/
theorem valueFrom_items (fuel : Nat) {c : Char} (hclosing : c ≠ ']') {cs inner : List Char}
    (hcs : skipSpace cs = c :: inner) :
    valueFrom (fuel + 1) ('[' :: cs) = itemsFrom fuel [] (c :: inner) := by
  rw [valueFrom.eq_def, skipSpace_cons rfl]
  simp only [hcs]
  split
  · next h => exact absurd (List.cons.inj h).1 hclosing
  · next h => cases h
  · rfl

theorem valueFrom_emptyRecord (fuel : Nat) (rest : List Char) :
    valueFrom (fuel + 1) ('\x7b' :: '\x7d' :: rest) = .ok (.object [], rest) := by
  rw [valueFrom.eq_def, skipSpace_cons rfl]
  simp only [skipSpace_cons (c := '\x7d') rfl]

/-- A brace starts a record, and its members if a key comes next. -/
theorem valueFrom_members (fuel : Nat) {cs inner : List Char} (hcs : skipSpace cs = '"' :: inner) :
    valueFrom (fuel + 1) ('\x7b' :: cs) = membersFrom fuel [] ('"' :: inner) := by
  rw [valueFrom.eq_def, skipSpace_cons rfl]
  simp only [hcs]
  split
  · next h => exact absurd (List.cons.inj h).1 (by decide)
  · rfl

/-! ### Lists -/

/-- One item with a comma behind it: the reader puts it before those it has, and goes on. -/
theorem itemsFrom_comma {level : Nat} {item : Printed} (hreads : Reads level item)
    (before : List JsonValue) (fuel : Nat) {cs rest : List Char}
    (hfuel : (renderAt level item).toList.length ≤ fuel) (hends : EndsNumber cs)
    (hcs : skipSpace cs = ',' :: rest) :
    itemsFrom (fuel + 1) before ((renderAt level item).toList ++ cs)
      = itemsFrom fuel (item.value :: before) rest := by
  rw [itemsFrom, hreads fuel cs hfuel hends]
  simp only [bind, Except.bind, hcs]

/-- The last item, with the closing bracket behind it: the items come out in their order. -/
theorem itemsFrom_closing {level : Nat} {item : Printed} (hreads : Reads level item)
    (before : List JsonValue) (fuel : Nat) {cs rest : List Char}
    (hfuel : (renderAt level item).toList.length ≤ fuel) (hends : EndsNumber cs)
    (hcs : skipSpace cs = ']' :: rest) :
    itemsFrom (fuel + 1) before ((renderAt level item).toList ++ cs)
      = .ok (.array (item.value :: before).reverse, rest) := by
  rw [itemsFrom, hreads fuel cs hfuel hends]
  simp only [bind, Except.bind, hcs]

/-- The items of a list, by induction on those that are left; each one takes some of the fuel. -/
theorem itemsFrom_closed {level : Nat} {rest : List Printed} (item : Printed)
    (hreads : ∀ p ∈ item :: rest, Reads (level + 1) p) (before : List JsonValue) (fuel : Nat)
    (behind : List Char)
    (hfuel : (renderAt (level + 1) item).toList.length
      + (closed ']' level (renderItems (level + 1) rest)).length ≤ fuel) :
    itemsFrom fuel before ((renderAt (level + 1) item).toList
        ++ (closed ']' level (renderItems (level + 1) rest) ++ behind))
      = .ok (.array (before.reverse ++ values (item :: rest)), behind) := by
  induction rest generalizing item before fuel with
  | nil =>
    have hitem := hreads item (List.mem_cons_self ..)
    rw [renderItems] at hfuel ⊢
    rw [length_closed_nil] at hfuel
    obtain ⟨fuel, rfl⟩ : ∃ k, fuel = k + 1 := ⟨fuel - 1, by omega⟩
    rw [itemsFrom_closing hitem before fuel (by omega) (endsNumber_closed _ _ _ _)
      (skipSpace_closed_nil rfl level behind)]
    simp [values]
  | cons next rest ih =>
    obtain ⟨hitem, hrest⟩ := List.forall_mem_cons.mp hreads
    rw [renderItems] at hfuel ⊢
    rw [length_closed_cons] at hfuel
    obtain ⟨fuel, rfl⟩ : ∃ k, fuel = k + 1 := ⟨fuel - 1, by omega⟩
    have hnext := ih next hrest (item.value :: before) fuel (by omega)
    rw [itemsFrom_comma hitem before fuel (by omega) (endsNumber_closed _ _ _ _)
      (skipSpace_closed_cons _ _ _ _ _), itemsFrom_of_skipSpace (skipSpace_lineBreak _ _), hnext]
    simp [values]

/-- The key of a member is read up to the colon. -/
theorem stringFrom_key (level : Nat) (key : String) (item : Printed) (cs : List Char) :
    ∃ text, (quote key ++ ": " ++ renderAt level item).toList ++ cs = '"' :: text
      ∧ stringFrom {} text
        = .ok (some key, ':' :: ' ' :: ((renderAt level item).toList ++ cs)) := by
  refine ⟨key.toList.flatMap escape ++ '"' :: ':' :: ' ' :: ((renderAt level item).toList ++ cs),
    by simp [toList_quote], ?_⟩
  rw [stringFrom_quote _ _ rfl]
  simp

/-- The value of a member stands behind a blank. -/
theorem Reads.behindBlank {level : Nat} {item : Printed} (h : Reads level item) (fuel : Nat)
    (cs : List Char) (hfuel : (renderAt level item).toList.length ≤ fuel) (hends : EndsNumber cs) :
    valueFrom fuel (' ' :: ((renderAt level item).toList ++ cs)) = .ok (item.value, cs) := by
  rw [← h fuel cs hfuel hends]
  refine valueFrom_of_skipSpace ?_ fuel
  rfl

theorem membersFrom_comma {level : Nat} {item : Printed} (hreads : Reads level item) (key : String)
    (before : List (Option String × JsonValue)) (fuel : Nat) {cs rest : List Char}
    (hfuel : (renderAt level item).toList.length ≤ fuel) (hends : EndsNumber cs)
    (hcs : skipSpace cs = ',' :: rest) :
    membersFrom (fuel + 1) before ((quote key ++ ": " ++ renderAt level item).toList ++ cs)
      = membersFrom fuel ((some key, item.value) :: before) rest := by
  obtain ⟨text, htext, hkey⟩ := stringFrom_key level key item cs
  have hvalue := hreads.behindBlank fuel cs hfuel hends
  rw [htext, membersFrom.eq_def, skipSpace_cons rfl]
  simp only [hkey, bind, Except.bind, skipSpace_cons (c := ':') rfl, hvalue, hcs]

theorem membersFrom_closing {level : Nat} {item : Printed} (hreads : Reads level item)
    (key : String) (before : List (Option String × JsonValue)) (fuel : Nat) {cs rest : List Char}
    (hfuel : (renderAt level item).toList.length ≤ fuel) (hends : EndsNumber cs)
    (hcs : skipSpace cs = '\x7d' :: rest) :
    membersFrom (fuel + 1) before ((quote key ++ ": " ++ renderAt level item).toList ++ cs)
      = .ok (.object ((some key, item.value) :: before).reverse, rest) := by
  obtain ⟨text, htext, hkey⟩ := stringFrom_key level key item cs
  have hvalue := hreads.behindBlank fuel cs hfuel hends
  rw [htext, membersFrom.eq_def, skipSpace_cons rfl]
  simp only [hkey, bind, Except.bind, skipSpace_cons (c := ':') rfl, hvalue, hcs]

/-- The members of a record, by the same induction as `itemsFrom_closed`. -/
theorem membersFrom_closed {level : Nat} {rest : List (String × Printed)} (key : String)
    (item : Printed) (hreads : ∀ member ∈ (key, item) :: rest, Reads (level + 1) member.2)
    (before : List (Option String × JsonValue)) (fuel : Nat) (behind : List Char)
    (hfuel : (quote key ++ ": " ++ renderAt (level + 1) item).toList.length
      + (closed '\x7d' level (renderMembers (level + 1) rest)).length ≤ fuel) :
    membersFrom fuel before ((quote key ++ ": " ++ renderAt (level + 1) item).toList
        ++ (closed '\x7d' level (renderMembers (level + 1) rest) ++ behind))
      = .ok (.object (before.reverse ++ memberValues ((key, item) :: rest)), behind) := by
  induction rest generalizing key item before fuel with
  | nil =>
    have hitem : Reads (level + 1) item := hreads (key, item) (List.mem_cons_self ..)
    have hlength := length_renderAt_le (level + 1) key item
    rw [renderMembers] at hfuel ⊢
    rw [length_closed_nil] at hfuel
    obtain ⟨fuel, rfl⟩ : ∃ k, fuel = k + 1 := ⟨fuel - 1, by omega⟩
    rw [membersFrom_closing hitem key before fuel (by omega) (endsNumber_closed _ _ _ _)
      (skipSpace_closed_nil rfl level behind)]
    simp [memberValues]
  | cons next rest ih =>
    obtain ⟨nextKey, next⟩ := next
    have hitem : Reads (level + 1) item := hreads (key, item) (List.mem_cons_self ..)
    have hrest := (List.forall_mem_cons.mp hreads).2
    have hlength := length_renderAt_le (level + 1) key item
    rw [renderMembers] at hfuel ⊢
    rw [length_closed_cons] at hfuel
    obtain ⟨fuel, rfl⟩ : ∃ k, fuel = k + 1 := ⟨fuel - 1, by omega⟩
    have hnext := ih nextKey next hrest ((some key, item.value) :: before) fuel (by omega)
    rw [membersFrom_comma hitem key before fuel (by omega) (endsNumber_closed _ _ _ _)
      (skipSpace_closed_cons _ _ _ _ _), membersFrom_of_skipSpace (skipSpace_lineBreak _ _), hnext]
    simp [memberValues]

/-! ### Whole texts -/

/-- No written text is empty, so a reader with enough fuel has some to spend. -/
theorem reads_of_succ {level : Nat} {p : Printed}
    (h : ∀ fuel behind, (renderAt level p).toList.length ≤ fuel + 1 → EndsNumber behind →
      valueFrom (fuel + 1) ((renderAt level p).toList ++ behind) = .ok (p.value, behind)) :
    Reads level p := by
  intro fuel behind hfuel hbehind
  cases fuel with
  | zero =>
    obtain ⟨c, cs, htext, -⟩ := head_renderAt level p
    rw [htext, List.length_cons] at hfuel
    omega
  | succ fuel => exact h fuel behind hfuel hbehind

theorem reads_natural (level n : Nat) : Reads level (.natural n) := by
  refine reads_of_succ fun fuel behind _ hbehind => ?_
  obtain ⟨d, ds, hdigits, hd⟩ := decimalDigits_eq_cons n
  have hnumber := unsignedNumber_decimalDigits n hbehind
  rw [hdigits, List.cons_append] at hnumber
  rw [renderAt, String.toList_ofList, hdigits, List.cons_append, valueFrom_digit hd, hnumber, value]

theorem reads_bool (level : Nat) (b : Bool) : Reads level (.bool b) := by
  refine reads_of_succ fun fuel behind _ _ => ?_
  cases b with
  | false =>
    have htext : (renderAt level (.bool false)).toList = ['f', 'a', 'l', 's', 'e'] := by
      simp [renderAt]
    rw [htext]
    exact valueFrom_false fuel behind
  | true =>
    have htext : (renderAt level (.bool true)).toList = ['t', 'r', 'u', 'e'] := by
      simp [renderAt]
    rw [htext]
    exact valueFrom_true fuel behind

theorem reads_text (level : Nat) (t : String) : Reads level (.text t) := by
  refine reads_of_succ fun fuel behind _ _ => ?_
  rw [renderAt, value]
  exact valueFrom_quote fuel t behind

/-- A list is read if its items are: they stand one level deeper. -/
theorem reads_list {level : Nat} {items : List Printed} (h : ∀ q ∈ items, Reads (level + 1) q) :
    Reads level (.list items) := by
  refine reads_of_succ fun fuel behind hfuel hbehind => ?_
  cases items with
  | nil =>
    have htext : (renderAt level (.list [])).toList = ['[', ']'] := by
      simp [renderAt, renderItems, bracket]
    rw [htext]
    exact valueFrom_emptyList fuel behind
  | cons item rest =>
    have htext : (renderAt level (.list (item :: rest))).toList = _ :=
      toList_bracket '[' ']' level (renderAt (level + 1) item) (renderItems (level + 1) rest)
    have hitems := itemsFrom_closed item h [] fuel behind (by
      rw [htext] at hfuel
      simp only [List.length_cons, List.length_append] at hfuel
      omega)
    -- The reader looks for a closing bracket first, and no item starts with one.
    obtain ⟨c, cs, hhead, hspace, hclosing⟩ := head_renderAt (level + 1) item
    rw [hhead, List.cons_append] at hitems
    rw [htext, List.cons_append, List.append_assoc, List.append_assoc, hhead, List.cons_append]
    refine (valueFrom_items fuel hclosing ?_).trans hitems
    rw [skipSpace_lineBreak, skipSpace_cons hspace]

/-- A record is read if the values of its members are. -/
theorem reads_record {level : Nat} {members : List (String × Printed)}
    (h : ∀ member ∈ members, Reads (level + 1) member.2) : Reads level (.record members) := by
  refine reads_of_succ fun fuel behind hfuel hbehind => ?_
  cases members with
  | nil =>
    have htext : (renderAt level (.record [])).toList = ['\x7b', '\x7d'] := by
      simp [renderAt, renderMembers, bracket]
    rw [htext]
    exact valueFrom_emptyRecord fuel behind
  | cons member rest =>
    obtain ⟨key, item⟩ := member
    have htext : (renderAt level (.record ((key, item) :: rest))).toList = _ :=
      toList_bracket '\x7b' '\x7d' level (quote key ++ ": " ++ renderAt (level + 1) item)
        (renderMembers (level + 1) rest)
    have hmembers := membersFrom_closed key item h [] fuel behind (by
      rw [htext] at hfuel
      simp only [List.length_cons, List.length_append] at hfuel
      omega)
    obtain ⟨text, hhead, -⟩ := stringFrom_key (level + 1) key item
      (closed '\x7d' level (renderMembers (level + 1) rest) ++ behind)
    rw [hhead] at hmembers
    rw [htext, List.cons_append, List.append_assoc, List.append_assoc, hhead]
    refine (valueFrom_members fuel ?_).trans hmembers
    rw [skipSpace_lineBreak, skipSpace_cons rfl]

/-- **A written value is found at the front of a text.** -/
theorem reads_printed (level : Nat) : ∀ p, Reads level p
  | .natural n => reads_natural level n
  | .bool b => reads_bool level b
  | .text t => reads_text level t
  | .list items => reads_list fun q _ => reads_printed (level + 1) q
  | .record members => reads_record fun member _ => reads_printed (level + 1) member.2
termination_by p => sizeOf p
decreasing_by
  · have hsize := List.sizeOf_lt_of_mem ‹q ∈ items›
    simp only [list.sizeOf_spec]
    omega
  · have hsize := List.sizeOf_lt_of_mem ‹member ∈ members›
    cases member
    simp only [Prod.mk.sizeOf_spec] at hsize
    simp only [record.sizeOf_spec]
    omega

/-- **What is written is read again as the same value.** -/
theorem parse_render (p : Printed) : parse p.render = .ok p.value := by
  have hread := reads_printed 0 p (2 * p.render.toList.length + 2) [] (by rw [render]; omega)
    (by intro c hc; cases hc)
  rw [List.append_nil] at hread
  rw [parse]
  simp only [render] at hread ⊢
  rw [hread]
  rfl

end JsonValue

end PyStyle
