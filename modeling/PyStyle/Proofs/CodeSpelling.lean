import Mathlib.Data.Nat.Digits.Defs
import PyStyle.Proofs.FaultFreeChecks
import PyStyle.Proofs.JsonText
import PyStyle.Proofs.StringBytes

/-!
# How codes are spelled

Users write codes in comments and in settings. What counts as one is said here as a grammar, apart
from the reader: digits of a number that is small enough, perhaps behind a mark of two letters, with
blanks around it. The reader cuts the mark off by its length in bytes, where a character may be cut
in two, and reads the digits with a number that may overflow; so it is said once more with bytes and
with a cut that may break down.

- `SpellsNumber`, `SpellsCode` — the grammar;
- `spellsCode_iff` — the grammar against the text without its mark;
- `Text.exists_trim`, `Text.trim_append` — a text without the blanks at its ends;
- `parseCode_eq_some_iff` — the reader reads the grammar;
- `bytesFrom`, `parseCodeBytes` — the reader over bytes, made of steps that may break down;
- `foldlM_addDigit` — a number that must not overflow on the way;
- `parseCodeBytes_eq` — no cut falls into a character, and both readers agree;
- `parseCode_grammar` — all of it, and that codes as they are shown are read back.
-/

namespace PyStyle

/-! ### The grammar -/

/-- The digit that a character shows. -/
def digitOf (c : Char) : Nat :=
  c.toNat - '0'.toNat

/-- The characters are the decimal digits of a number, perhaps with zeros in front. -/
structure SpellsNumber (digits : List Char) (n : Nat) : Prop where
  ne_nil : digits ≠ []
  digit : ∀ c ∈ digits, Text.isAsciiDigit c = true
  value : Nat.ofDigits 10 (digits.reverse.map digitOf) = n

/-- The word spells a code, with or without the mark. -/
inductive SpellsCode : List Char → Nat → Prop
  | bare {digits : List Char} {code : Nat} (h : SpellsNumber digits code) (hmax : code ≤ 65535) :
      SpellsCode digits code
  | marked {s p : Char} (hs : s = 's' ∨ s = 'S') (hp : p = 'p' ∨ p = 'P') {digits : List Char}
      {code : Nat} (h : SpellsNumber digits code) (hmax : code ≤ 65535) :
      SpellsCode (s :: p :: digits) code

/-- Digits read one after the other have the value of their positions. -/
theorem decimalValue_eq_ofDigits (digits : List Char) :
    decimalValue digits = Nat.ofDigits 10 (digits.reverse.map digitOf) := by
  induction digits using List.reverseRecOn with
  | nil => rfl
  | append_singleton digits c ih =>
    rw [decimalValue_concat, ih, List.reverse_append, List.reverse_singleton,
      List.singleton_append, List.map_cons, Nat.ofDigits_cons]
    simp only [digitOf]
    omega

theorem spellsNumber_iff {digits : List Char} {n : Nat} :
    SpellsNumber digits n
      ↔ digits ≠ [] ∧ (∀ c ∈ digits, Text.isAsciiDigit c = true) ∧ decimalValue digits = n := by
  rw [decimalValue_eq_ofDigits]
  exact ⟨fun h => ⟨h.ne_nil, h.digit, h.value⟩, fun ⟨hne, hdigit, hvalue⟩ => ⟨hne, hdigit, hvalue⟩⟩

/-- The digits of a number as it is printed, behind any zeros, spell the number. -/
theorem spellsNumber_decimalDigits (zeros n : Nat) :
    SpellsNumber (List.replicate zeros '0' ++ decimalDigits n) n := by
  refine spellsNumber_iff.mpr ⟨?_, ?_, ?_⟩
  · obtain ⟨d, ds, hdigits, -⟩ := decimalDigits_eq_cons n
    simp [hdigits]
  · intro c hc
    rcases List.mem_append.mp hc with hzero | hdigit
    · rw [List.eq_of_mem_replicate hzero]
      rfl
    · exact isAsciiDigit_of_mem_decimalDigits hdigit
  · have hzeros : (List.replicate zeros '0').foldl
        (fun n d => n * 10 + (d.toNat - '0'.toNat)) 0 = 0 := by
      induction zeros with
      | zero => rfl
      | succ zeros ih => exact ih
    rw [decimalValue, List.foldl_append, hzeros]
    exact decimalValue_decimalDigits n

theorem dropCodeMark_marked {s p : Char} (hs : s = 's' ∨ s = 'S') (hp : p = 'p' ∨ p = 'P')
    (rest : List Char) : dropCodeMark (s :: p :: rest) = rest := by
  have hmark : ((s == 's' || s == 'S') && (p == 'p' || p == 'P')) = true := by
    simpa using And.intro hs hp
  rw [dropCodeMark, if_pos hmark]

/-- A text has the mark in front, or nothing is dropped. -/
theorem dropCodeMark_cases (cs : List Char) :
    (∃ s p, (s = 's' ∨ s = 'S') ∧ (p = 'p' ∨ p = 'P') ∧ cs = s :: p :: dropCodeMark cs)
      ∨ ((∀ s p rest, cs = s :: p :: rest → ¬ ((s = 's' ∨ s = 'S') ∧ (p = 'p' ∨ p = 'P')))
        ∧ dropCodeMark cs = cs) := by
  match cs with
  | [] => exact Or.inr ⟨by simp, rfl⟩
  | [_] => exact Or.inr ⟨by simp, rfl⟩
  | s :: p :: rest =>
    by_cases hmark : (s = 's' ∨ s = 'S') ∧ (p = 'p' ∨ p = 'P')
    · exact Or.inl ⟨s, p, hmark.1, hmark.2, by rw [dropCodeMark_marked hmark.1 hmark.2]⟩
    · refine Or.inr ⟨?_, ?_⟩
      · rintro s' p' rest' h
        cases h
        exact hmark
      · rw [dropCodeMark, if_neg]
        simpa using hmark

/-- A digit is no letter of the mark. -/
theorem dropCodeMark_digits {digits : List Char}
    (h : ∀ c ∈ digits, Text.isAsciiDigit c = true) : dropCodeMark digits = digits := by
  rcases dropCodeMark_cases digits with ⟨s, p, hs, -, hdigits⟩ | ⟨-, hsame⟩
  · have hdigit := h s (by rw [hdigits]; exact List.mem_cons_self)
    rcases hs with rfl | rfl
    · cases hdigit
    · cases hdigit
  · exact hsame

/-- A word spells the number that it is without its mark. -/
theorem spellsCode_iff {word : List Char} {code : Nat} :
    SpellsCode word code ↔ SpellsNumber (dropCodeMark word) code ∧ code ≤ maxCode := by
  constructor
  · intro h
    cases h with
    | bare h hmax => exact ⟨by rwa [dropCodeMark_digits h.digit], hmax⟩
    | marked hs hp h hmax => exact ⟨by rwa [dropCodeMark_marked hs hp], hmax⟩
  · rintro ⟨h, hmax⟩
    rcases dropCodeMark_cases word with ⟨s, p, hs, hp, hword⟩ | ⟨-, hsame⟩
    · rw [hword]
      exact .marked hs hp h hmax
    · exact .bare (hsame ▸ h) hmax

/-! ### Blanks around a word -/

namespace Text

theorem isAsciiDigit_iff {c : Char} : isAsciiDigit c = true ↔ 48 ≤ c.toNat ∧ c.toNat ≤ 57 := by
  simp [isAsciiDigit, Char.le_def, UInt32.le_iff_toNat_le]

theorem isBlank_of_isAsciiDigit {c : Char} (h : isAsciiDigit c = true) : isBlank c = false := by
  obtain ⟨hlow, hhigh⟩ := isAsciiDigit_iff.mp h
  simp [isBlank, Ranges.contains, blankRanges, Ranges.containsCode]
  omega

theorem isBlank_of_spellsCode {word : List Char} {code : Nat} (h : SpellsCode word code) :
    ∀ c ∈ word, isBlank c = false := by
  cases h with
  | bare h hmax => exact fun c hc => isBlank_of_isAsciiDigit (h.digit c hc)
  | marked hs hp h hmax =>
    rintro c hc
    rcases List.mem_cons.mp hc with rfl | hc
    · rcases hs with rfl | rfl <;> rfl
    rcases List.mem_cons.mp hc with rfl | hc
    · rcases hp with rfl | rfl <;> rfl
    · exact isBlank_of_isAsciiDigit (h.digit c hc)

theorem trimStart_append {front : List Char} (h : ∀ c ∈ front, isBlank c = true)
    (rest : List Char) : trimStart (front ++ rest) = trimStart rest :=
  List.dropWhile_append_of_pos h

/-- What trimming takes from a text is blank. -/
theorem exists_trim (cs : List Char) :
    ∃ front back, cs = front ++ trim cs ++ back
      ∧ (∀ c ∈ front, isBlank c = true) ∧ ∀ c ∈ back, isBlank c = true := by
  have hstart := cs.takeWhile_append_dropWhile (p := isBlank)
  have hend := (trimStart cs).reverse.takeWhile_append_dropWhile (p := isBlank)
  refine ⟨cs.takeWhile isBlank, ((trimStart cs).reverse.takeWhile isBlank).reverse, ?_,
    fun c hc => List.mem_takeWhile_imp hc, fun c hc => ?_⟩
  · have hsplit : trimStart cs
        = trim cs ++ ((trimStart cs).reverse.takeWhile isBlank).reverse := by
      rw [trim, trimEnd, ← List.reverse_append, hend, List.reverse_reverse]
    rw [List.append_assoc, ← hsplit]
    exact hstart.symm
  · exact List.mem_takeWhile_imp (List.mem_reverse.mp hc)

/-- Of blanks around a text without any, trimming leaves the text. -/
theorem trim_append {front word back : List Char} (hfront : ∀ c ∈ front, isBlank c = true)
    (hword : ∀ c ∈ word, isBlank c = false) (hback : ∀ c ∈ back, isBlank c = true) :
    trim (front ++ word ++ back) = word := by
  rw [trim, List.append_assoc, trimStart_append hfront]
  cases word with
  | nil =>
    have hnone : trimStart back = [] := List.dropWhile_eq_nil_iff.mpr hback
    rw [List.nil_append, hnone]
    rfl
  | cons c word =>
    have hstart : trimStart (c :: word ++ back) = c :: word ++ back :=
      List.dropWhile_cons_of_neg (by simp [hword c])
    have hend : (c :: word).reverse.dropWhile isBlank = (c :: word).reverse := by
      obtain ⟨d, rest, hreverse⟩ := List.exists_cons_of_ne_nil
        (List.reverse_ne_nil_iff.mpr (List.cons_ne_nil c word))
      have hd : d ∈ c :: word := List.mem_reverse.mp (hreverse ▸ List.mem_cons_self)
      rw [hreverse, List.dropWhile_cons_of_neg (by simp [hword d hd])]
    rw [hstart, trimEnd, List.reverse_append,
      List.dropWhile_append_of_pos fun c hc => hback c (List.mem_reverse.mp hc), hend,
      List.reverse_reverse]

end Text

/-! ### Reading codes -/

theorem parseCode_eq_some_trim {text : String} {code : Nat} :
    parseCode text = some code ↔ SpellsCode (Text.trim text.toList) code := by
  rw [spellsCode_iff, spellsNumber_iff, parseCode]
  simp only [List.all_eq_true]
  constructor
  · intro h
    split at h
    · next hdigits =>
      obtain rfl := Option.some.inj h
      exact ⟨⟨hdigits.1, hdigits.2.1, rfl⟩, hdigits.2.2⟩
    · cases h
  · rintro ⟨⟨hne, hdigit, rfl⟩, hmax⟩
    rw [if_pos ⟨hne, hdigit, hmax⟩]

/-- **The reader reads the grammar**, with blanks around the word, and nothing else. -/
theorem parseCode_eq_some_iff {text : String} {code : Nat} :
    parseCode text = some code
      ↔ ∃ front word back, text.toList = front ++ word ++ back
        ∧ (∀ c ∈ front, Text.isBlank c = true) ∧ (∀ c ∈ back, Text.isBlank c = true)
        ∧ SpellsCode word code := by
  rw [parseCode_eq_some_trim]
  constructor
  · intro h
    obtain ⟨front, back, htext, hfront, hback⟩ := Text.exists_trim text.toList
    exact ⟨front, _, back, htext, hfront, hback, h⟩
  · rintro ⟨front, word, back, htext, hfront, hback, h⟩
    rwa [htext, Text.trim_append hfront (Text.isBlank_of_spellsCode h) hback]

/-- A code as it is shown is one of its spellings. -/
theorem spellsCode_formatCode {code : Nat} (hmax : code ≤ maxCode) :
    SpellsCode (formatCode code).toList code := by
  rw [formatCode, String.toList_ofList]
  exact .marked (Or.inr rfl) (Or.inr rfl) (spellsNumber_decimalDigits _ code) hmax

/-! ### Reading codes byte by byte -/

open Text

/-- Can a character start with the byte? Those that continue one lie between `0x80` and `0xbf`. -/
def startsChar (b : UInt8) : Bool :=
  b < 0x80 || 0xc0 ≤ b

/-- Does a character start at the index, or does the text end there? -/
def isCharBoundary (bytes : List UInt8) (index : Nat) : Bool :=
  index == 0 ||
    match bytes[index]? with
    | none => index == bytes.length
    | some b => startsChar b

/-- The bytes up to an index, if no character is cut there. -/
def bytesUpTo? (bytes : List UInt8) (stop : Nat) : Option (List UInt8) :=
  if isCharBoundary bytes stop then some (bytes.take stop) else none

/-- The bytes from an index on, where no character may be cut. -/
def bytesFrom (bytes : List UInt8) (start : Nat) : Except Failure (List UInt8) :=
  if isCharBoundary bytes start then .ok (bytes.drop start)
  else breakdown ("byte index " ++ toString start ++ " is not a char boundary")

/-- The byte of a capital letter becomes that of the small letter. -/
def lowerByte (b : UInt8) : UInt8 :=
  if 0x41 ≤ b && b ≤ 0x5a then b + 0x20 else b

/-- Is it the byte of a digit? -/
def isDigitByte (b : UInt8) : Bool :=
  0x30 ≤ b && b ≤ 0x39

/-- One more digit behind a number, unless the product or the sum is too large. -/
def addDigit (n : Nat) (b : UInt8) : Option Nat :=
  if n * 10 ≤ maxCode then
    if n * 10 + (b.toNat - 0x30) ≤ maxCode then some (n * 10 + (b.toNat - 0x30)) else none
  else none

/-- The bytes behind the mark, which is as long as two bytes, or all bytes without one. -/
def dropMarkBytes (bytes : List UInt8) : Except Failure (List UInt8) :=
  match bytesUpTo? bytes 2 with
  | some front => if front.map lowerByte = [0x73, 0x70] then bytesFrom bytes 2 else .ok bytes
  | none => .ok bytes

/-- `parseCode` over bytes. -/
def parseCodeBytes (text : String) : Except Failure (Option Nat) := do
  let digits ← dropMarkBytes (utf8 (trim text.toList))
  if digits.isEmpty || !digits.all isDigitByte then return none
  else return digits.foldlM addDigit 0

/-- An ASCII byte is a character of its own. -/
theorem exists_of_utf8_eq_cons {cs : List Char} {b : UInt8} {rest : List UInt8}
    (hb : b.toNat ≤ 127) (h : utf8 cs = b :: rest) :
    ∃ c tail, cs = c :: tail ∧ Ascii c ∧ b = UInt8.ofNat c.toNat ∧ rest = utf8 tail := by
  cases cs with
  | nil => cases h
  | cons c tail =>
    by_cases hc : Ascii c
    · rw [utf8_cons_of_ascii hc] at h
      obtain ⟨rfl, rfl⟩ := List.cons.inj h
      exact ⟨c, tail, rfl, hc, rfl, rfl⟩
    · obtain ⟨high, bytes, hbytes⟩ := List.exists_cons_of_ne_nil (utf8EncodeChar_ne_nil c)
      have hhigh : 128 ≤ high.toNat := le_of_mem_utf8EncodeChar hc (by simp [hbytes])
      rw [utf8_cons, hbytes] at h
      obtain ⟨rfl, -⟩ := List.cons.inj h
      omega

/-- Of the bytes of a character only the first one can start a character. -/
theorem exists_first_byte (c : Char) :
    ∃ b bytes, String.utf8EncodeChar c = b :: bytes ∧ startsChar b = true
      ∧ ∀ x ∈ bytes, startsChar x = false := by
  have hfirst : ∀ n : Nat, n % 256 < 128 ∨ 192 ≤ n % 256 → startsChar (UInt8.ofNat n) = true := by
    intro n hn
    simpa [startsChar, UInt8.lt_iff_toNat_lt, UInt8.le_iff_toNat_le] using hn
  have hlater : ∀ n : Nat, 128 ≤ n % 256 → n % 256 < 192 → startsChar (UInt8.ofNat n) = false := by
    intro n hlow hhigh
    simp [startsChar, UInt8.lt_iff_toNat_lt, UInt8.le_iff_toNat_le]
    omega
  unfold String.utf8EncodeChar
  dsimp only
  split
  · exact ⟨_, _, rfl, hfirst _ (by omega), by simp⟩
  split
  · refine ⟨_, _, rfl, hfirst _ (by omega), ?_⟩
    simp only [List.forall_mem_cons]
    exact ⟨hlater _ (by omega) (by omega), by simp⟩
  split
  · refine ⟨_, _, rfl, hfirst _ (by omega), ?_⟩
    simp only [List.forall_mem_cons]
    exact ⟨hlater _ (by omega) (by omega), hlater _ (by omega) (by omega), by simp⟩
  · refine ⟨_, _, rfl, hfirst _ (by omega), ?_⟩
    simp only [List.forall_mem_cons]
    exact ⟨hlater _ (by omega) (by omega), hlater _ (by omega) (by omega),
      hlater _ (by omega) (by omega), by simp⟩

/-- Behind a character, boundaries are those of the text that follows. -/
theorem isCharBoundary_cons (c : Char) (cs : List Char) (index : Nat) :
    isCharBoundary (utf8 (c :: cs)) ((String.utf8EncodeChar c).length + index)
      = isCharBoundary (utf8 cs) index := by
  obtain ⟨_, bytes, hc, -⟩ := exists_first_byte c
  rw [isCharBoundary, isCharBoundary, utf8_cons, List.getElem?_append_right (Nat.le_add_right _ _),
    Nat.add_sub_cancel_left, List.length_append, hc]
  cases index with
  | zero =>
    cases cs with
    | nil => simp
    | cons d cs =>
      obtain ⟨b, more, hd, hfirst, -⟩ := exists_first_byte d
      simp [utf8_cons, hd, hfirst]
  | succ index =>
    have hnonzero : (bytes.length + 1 + (index + 1) == 0) = false := by simp
    rw [List.length_cons, hnonzero]
    cases (utf8 cs)[index + 1]? with
    | none => simp
    | some b => rfl

/-- **A boundary is a place between characters**, or an end of the text. -/
theorem isCharBoundary_iff {cs : List Char} {index : Nat} :
    isCharBoundary (utf8 cs) index = true
      ↔ ∃ front back, cs = front ++ back ∧ (utf8 front).length = index := by
  constructor
  · intro h
    induction cs generalizing index with
    | nil =>
      have hzero : index = 0 := by simpa [isCharBoundary] using h
      exact ⟨[], [], rfl, hzero.symm⟩
    | cons c cs ih =>
      by_cases hinside : index < (String.utf8EncodeChar c).length
      · -- Inside of the character there is a boundary only at its front.
        cases index with
        | zero => exact ⟨[], c :: cs, rfl, rfl⟩
        | succ index =>
          obtain ⟨b, bytes, hbytes, -, hlater⟩ := exists_first_byte c
          have hlt : index < bytes.length := by simpa [hbytes] using hinside
          rw [isCharBoundary, utf8_cons, List.getElem?_append_left hinside, hbytes,
            List.getElem?_cons_succ, List.getElem?_eq_getElem hlt] at h
          simp [hlater _ (List.getElem_mem hlt)] at h
      · obtain ⟨rest, rfl⟩ := Nat.exists_eq_add_of_le (Nat.le_of_not_lt hinside)
        rw [isCharBoundary_cons] at h
        obtain ⟨front, back, rfl, rfl⟩ := ih h
        exact ⟨c :: front, back, rfl, by simp⟩
  · rintro ⟨front, back, rfl, rfl⟩
    induction front with
    | nil => rfl
    | cons c front ih =>
      rw [utf8_cons, List.length_append]
      exact (isCharBoundary_cons c (front ++ back) _).trans ih

/-- A byte that is some small letter is the byte of that letter or of the capital one. -/
theorem lowerByte_eq_iff {b letter : UInt8} (hlow : 0x61 ≤ letter.toNat)
    (hhigh : letter.toNat ≤ 0x7a) :
    lowerByte b = letter ↔ b = letter ∨ b = letter - 0x20 := by
  have hcapital : (letter - 0x20).toNat = letter.toNat - 0x20 := by
    refine UInt8.toNat_sub_of_le _ _ ?_
    rw [UInt8.le_iff_toNat_le]
    exact Nat.le_trans (by decide) hlow
  unfold lowerByte
  rw [← UInt8.toNat_inj, ← UInt8.toNat_inj (b := letter), ← UInt8.toNat_inj (b := letter - 0x20),
    hcapital]
  split
  · next h =>
    have hb : 0x41 ≤ b.toNat ∧ b.toNat ≤ 0x5a := by
      simpa [UInt8.le_iff_toNat_le] using h
    rw [UInt8.toNat_add]
    show (b.toNat + 32) % 256 = _ ↔ _
    omega
  · next h =>
    have hb : ¬ (0x41 ≤ b.toNat ∧ b.toNat ≤ 0x5a) := by
      simpa [UInt8.le_iff_toNat_le] using h
    omega

/-- The two bytes of the mark, in any letter case. -/
theorem lowerBytes_eq_mark_iff {front : List UInt8} :
    front.map lowerByte = [0x73, 0x70]
      ↔ ∃ s p, front = [s, p] ∧ (s = 0x73 ∨ s = 0x53) ∧ (p = 0x70 ∨ p = 0x50) := by
  constructor
  · intro h
    obtain ⟨s, rest, rfl, hs, hrest⟩ := List.map_eq_cons_iff.mp h
    obtain ⟨p, rest, rfl, hp, hnone⟩ := List.map_eq_cons_iff.mp hrest
    obtain rfl := List.map_eq_nil_iff.mp hnone
    exact ⟨s, p, rfl, (lowerByte_eq_iff (by decide) (by decide)).mp hs,
      (lowerByte_eq_iff (by decide) (by decide)).mp hp⟩
  · rintro ⟨s, p, rfl, rfl | rfl, rfl | rfl⟩ <;> rfl

/-- **No cut falls into a character**: behind the mark the next character starts, and without the
mark nothing is cut. -/
theorem dropMarkBytes_utf8 (cs : List Char) :
    dropMarkBytes (utf8 cs) = .ok (utf8 (dropCodeMark cs)) := by
  unfold dropMarkBytes bytesUpTo?
  rcases dropCodeMark_cases cs with ⟨s, p, hs, hp, hcs⟩ | ⟨hnone, hsame⟩
  · have hmark : utf8 [s, p] = [UInt8.ofNat s.toNat, UInt8.ofNat p.toNat] := by
      rcases hs with rfl | rfl <;> rcases hp with rfl | rfl <;> rfl
    have hbytes : utf8 cs = utf8 [s, p] ++ utf8 (dropCodeMark cs) := by
      rw [← utf8_append]
      exact congrArg utf8 hcs
    have hboundary : isCharBoundary (utf8 cs) 2 = true :=
      isCharBoundary_iff.mpr ⟨[s, p], _, hcs, by rw [hmark]; rfl⟩
    have hfront : ((utf8 cs).take 2).map lowerByte = [0x73, 0x70] := by
      rw [hbytes, hmark]
      rcases hs with rfl | rfl <;> rcases hp with rfl | rfl <;> rfl
    have hbehind : (utf8 cs).drop 2 = utf8 (dropCodeMark cs) := by
      rw [hbytes, hmark]
      rfl
    rw [if_pos hboundary]
    dsimp only
    rw [if_pos hfront, bytesFrom, if_pos hboundary, hbehind]
  · rw [hsame]
    split
    · next front hfront =>
      rw [if_neg]
      -- Bytes like those of the mark could only come from its letters.
      intro hmark
      obtain ⟨s, p, rfl, hs, hp⟩ := lowerBytes_eq_mark_iff.mp hmark
      have htake : (utf8 cs).take 2 = [s, p] := by
        split at hfront
        · exact Option.some.inj hfront
        · cases hfront
      have hbytes : utf8 cs = s :: p :: (utf8 cs).drop 2 := by
        conv_lhs => rw [← List.take_append_drop 2 (utf8 cs), htake]
        rfl
      have hs' : s.toNat ≤ 127 := by rcases hs with rfl | rfl <;> decide
      have hp' : p.toNat ≤ 127 := by rcases hp with rfl | rfl <;> decide
      obtain ⟨c, tail, hcs, hc, hsc, htail⟩ := exists_of_utf8_eq_cons hs' hbytes
      obtain ⟨d, rest, rfl, hd, hpd, -⟩ := exists_of_utf8_eq_cons hp' htail.symm
      refine hnone c d rest hcs ⟨?_, ?_⟩
      · have hascii : ∀ letter : Char, Ascii letter → s = UInt8.ofNat letter.toNat → c = letter :=
          fun letter hletter h => (ofNat_ascii_inj hc hletter).mp (hsc.symm.trans h)
        exact hs.imp (hascii 's' (by decide)) (hascii 'S' (by decide))
      · have hascii : ∀ letter : Char, Ascii letter → p = UInt8.ofNat letter.toNat → d = letter :=
          fun letter hletter h => (ofNat_ascii_inj hd hletter).mp (hpd.symm.trans h)
        exact hp.imp (hascii 'p' (by decide)) (hascii 'P' (by decide))
    · rfl

/-! ### Digits as bytes -/

theorem isDigitByte_iff {b : UInt8} : isDigitByte b = true ↔ 48 ≤ b.toNat ∧ b.toNat ≤ 57 := by
  simp [isDigitByte, UInt8.le_iff_toNat_le]

/-- A character that is not ASCII has no byte of a digit. -/
theorem all_isDigitByte (cs : List Char) :
    (utf8 cs).all isDigitByte = cs.all isAsciiDigit := by
  induction cs with
  | nil => rfl
  | cons c cs ih =>
    rw [utf8_cons, List.all_append, ih, List.all_cons]
    congr 1
    by_cases hc : Ascii c
    · rw [utf8EncodeChar_of_ascii hc, List.all_cons, List.all_nil, Bool.and_true, Bool.eq_iff_iff,
        isDigitByte_iff, isAsciiDigit_iff, toNat_ofNat_ascii hc]
    · obtain ⟨b, bytes, hbytes⟩ := List.exists_cons_of_ne_nil (utf8EncodeChar_ne_nil c)
      have hb : 128 ≤ b.toNat := le_of_mem_utf8EncodeChar hc (by simp [hbytes])
      have hbyte : isDigitByte b = false := by
        rw [Bool.eq_false_iff, ne_eq, isDigitByte_iff]
        omega
      have hdigit : isAsciiDigit c = false := by
        rw [Bool.eq_false_iff, ne_eq, isAsciiDigit_iff]
        have hc' : ¬ c.toNat ≤ 127 := hc
        omega
      rw [hbytes, List.all_cons, hbyte, hdigit, Bool.false_and]

theorem isEmpty_utf8 (cs : List Char) : (utf8 cs).isEmpty = cs.isEmpty := by
  cases cs with
  | nil => rfl
  | cons c cs =>
    obtain ⟨b, bytes, hbytes⟩ := List.exists_cons_of_ne_nil (utf8EncodeChar_ne_nil c)
    rw [utf8_cons, hbytes]
    rfl

/-- Digits only make a number larger. -/
theorem le_foldl_digits (digits : List Char) (n : Nat) :
    n ≤ digits.foldl (fun n d => n * 10 + (d.toNat - '0'.toNat)) n := by
  induction digits generalizing n with
  | nil => exact Nat.le_refl n
  | cons c digits ih =>
    rw [List.foldl_cons]
    exact Nat.le_trans (by omega) (ih _)

/-- **A number that overflows on the way is too large at the end**, and only such a number does. -/
theorem foldlM_addDigit {digits : List Char} (h : ∀ c ∈ digits, isAsciiDigit c = true) {n : Nat}
    (hn : n ≤ maxCode) :
    (utf8 digits).foldlM addDigit n
      = if digits.foldl (fun n d => n * 10 + (d.toNat - '0'.toNat)) n ≤ maxCode then
          some (digits.foldl (fun n d => n * 10 + (d.toNat - '0'.toNat)) n)
        else none := by
  induction digits generalizing n with
  | nil => rw [utf8_nil, List.foldl_nil, if_pos hn]; rfl
  | cons c digits ih =>
    obtain ⟨hc, hdigits⟩ := List.forall_mem_cons.mp h
    have hascii : Ascii c := by
      have := (isAsciiDigit_iff.mp hc).2
      show c.toNat ≤ 127
      omega
    have hzero : '0'.toNat = 0x30 := rfl
    rw [utf8_cons_of_ascii hascii, List.foldlM_cons, List.foldl_cons, addDigit,
      toNat_ofNat_ascii hascii, ← hzero]
    by_cases hsum : n * 10 + (c.toNat - '0'.toNat) ≤ maxCode
    · have hproduct : n * 10 ≤ maxCode := Nat.le_trans (Nat.le_add_right _ _) hsum
      rw [if_pos hproduct, if_pos hsum]
      exact ih hdigits hsum
    · have hlarge := le_foldl_digits digits (n * 10 + (c.toNat - '0'.toNat))
      rw [if_neg hsum, ite_self, if_neg (by omega)]
      rfl

/-- **Both readers agree**, and the one over bytes gets to its end whatever the text is. -/
theorem parseCodeBytes_eq (text : String) : parseCodeBytes text = .ok (parseCode text) := by
  rw [parseCodeBytes, dropMarkBytes_utf8, ok_bind, isEmpty_utf8, all_isDigitByte, parseCode]
  generalize dropCodeMark (trim text.toList) = digits
  by_cases hdigits : digits ≠ [] ∧ digits.all isAsciiDigit = true
  · obtain ⟨hne, hall⟩ := hdigits
    have hvalue := foldlM_addDigit (List.all_eq_true.mp hall) (Nat.zero_le maxCode)
    rw [hvalue, if_neg (by simp [hne, hall])]
    simp only [hne, hall, decimalValue, ne_eq, not_false_eq_true, true_and]
    rfl
  · rw [if_pos, if_neg]
    · rfl
    · rintro ⟨hne, hall, -⟩
      exact hdigits ⟨hne, hall⟩
    · simpa [Decidable.imp_iff_not_or] using hdigits

/-- **A text spells a code exactly if it follows the grammar**: with the blanks around it taken off
it is digits, at least one, perhaps behind the mark in some letter case, and their value is at most
65535. Whatever the characters are, cutting the mark off by its length in bytes never cuts one of
them, and no digits overflow unnoticed. Every code is read back as it is shown. -/
theorem parseCode_grammar (text : String) :
    (∀ code, parseCode text = some code
        ↔ ∃ front word back, text.toList = front ++ word ++ back
          ∧ (∀ c ∈ front, isBlank c = true) ∧ (∀ c ∈ back, isBlank c = true)
          ∧ SpellsCode word code)
      ∧ parseCodeBytes text = .ok (parseCode text)
      ∧ ∀ code : UInt16, parseCode (formatCode code.toNat) = some code.toNat := by
  refine ⟨fun code => parseCode_eq_some_iff, parseCodeBytes_eq text, ?_⟩
  intro code
  have hmax : code.toNat ≤ maxCode := Nat.le_of_lt_succ code.toNat_lt
  exact parseCode_eq_some_iff.mpr ⟨[], _, [], by simp, by simp, by simp, spellsCode_formatCode hmax⟩

end PyStyle
