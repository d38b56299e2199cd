import PyStyle.Proofs.CodeSpelling
import PyStyle.Proofs.ReportBuckets

/-!
# Directives say what they list

A directive that fails to be read as a list of codes silences everything, so that a list must never
fail to be read. Users write the codes as they are shown or as bare digits, in any letter case, and
put any commas and blanks between them.

- `mem_codeSet`, `codeSet_congr` — a set of codes holds what it was made of, and nothing else
  counts;
- `WrittenCode`, `Separator`, `CodeList` — lists of codes as users write them;
- `Suppression.codeWordsBehind_written` — the scan for code words takes a list apart;
- `Suppression.listedText?`, `Suppression.codesIn` — the text of a list carved out first and split
  later;
- `Suppression.ofCommentBySplit?_eq` — both ways to read a list agree, whatever the comment is;
- `Suppression.ofComment?_hash` — the mark of a directive, in any letter case and behind any text;
- `ofComment?_listed` — a directive silences the codes it lists, or all codes if it lists none.
-/

namespace PyStyle

/-! ### Sets of codes -/

theorem eraseRepsBy_loop (a : Nat) (codes taken : List Nat) :
    List.eraseRepsBy.loop (· == ·) a codes taken
      = taken.reverse ++ List.eraseReps (a :: codes) := by
  induction codes generalizing a taken with
  | nil => simp [List.eraseReps, List.eraseRepsBy, List.eraseRepsBy.loop]
  | cons b codes ih =>
    simp only [List.eraseReps, List.eraseRepsBy] at ih ⊢
    simp only [List.eraseRepsBy.loop]
    cases h : a == b with
    | true => exact ih a taken
    | false =>
      dsimp only
      rw [ih b (a :: taken), ih b [a]]
      simp

/-- Of two equal neighbours one is left. -/
theorem eraseReps_cons_cons (a b : Nat) (codes : List Nat) :
    (a :: b :: codes).eraseReps
      = if a = b then (b :: codes).eraseReps else a :: (b :: codes).eraseReps := by
  have hloop : (a :: b :: codes).eraseReps
      = List.eraseRepsBy.loop (· == ·) a (b :: codes) [] := rfl
  rw [hloop, List.eraseRepsBy.loop]
  by_cases h : a = b
  · subst h
    simp only [beq_self_eq_true, if_true]
    exact eraseRepsBy_loop a codes []
  · have hne : (a == b) = false := by simpa using h
    simp only [hne, if_neg h]
    exact eraseRepsBy_loop b codes [a]

theorem mem_eraseReps {code : Nat} {codes : List Nat} : code ∈ codes.eraseReps ↔ code ∈ codes := by
  induction codes with
  | nil => rfl
  | cons a codes ih =>
    cases codes with
    | nil => rfl
    | cons b codes =>
      rw [eraseReps_cons_cons]
      split
      · next h =>
        rw [ih, h]
        simp
      · rw [List.mem_cons, ih, ← List.mem_cons]

theorem pairwise_eraseReps {codes : List Nat} (h : codes.Pairwise (· ≤ ·)) :
    codes.eraseReps.Pairwise (· < ·) := by
  induction codes with
  | nil => exact List.Pairwise.nil
  | cons a codes ih =>
    obtain ⟨hle, hcodes⟩ := List.pairwise_cons.mp h
    cases codes with
    | nil => exact List.pairwise_singleton _ _
    | cons b codes =>
      rw [eraseReps_cons_cons]
      split
      · exact ih hcodes
      · next hne =>
        refine List.pairwise_cons.mpr ⟨?_, ih hcodes⟩
        intro c hc
        -- All others are at least the second one, which is more than the first one.
        have hb : b ≤ c := by
          rcases List.mem_cons.mp (mem_eraseReps.mp hc) with rfl | hc
          · exact Nat.le_refl _
          · exact (List.pairwise_cons.mp hcodes).1 c hc
        have hab := hle b List.mem_cons_self
        omega

/-- A set of codes holds the codes it was made of. -/
theorem mem_codeSet {code : Nat} {codes : List Nat} : code ∈ codeSet codes ↔ code ∈ codes := by
  rw [codeSet, mem_eraseReps, List.mem_mergeSort]

theorem pairwise_codeSet (codes : List Nat) : (codeSet codes).Pairwise (· < ·) := by
  refine pairwise_eraseReps ?_
  have h : (codes.mergeSort fun a b => decide (a ≤ b)).Pairwise fun a b => decide (a ≤ b) = true :=
    List.pairwise_mergeSort (fun a b c => by simpa using Nat.le_trans)
      (fun a b => by simpa using Nat.le_total a b) codes
  simpa using h

/-- **Neither order nor repetition counts** in a set of codes. -/
theorem codeSet_congr {codes codes' : List Nat} (h : ∀ code, code ∈ codes ↔ code ∈ codes') :
    codeSet codes = codeSet codes' := by
  have hnodup : ∀ codes, (codeSet codes).Nodup := fun codes =>
    (pairwise_codeSet codes).imp Nat.ne_of_lt
  have hperm : (codeSet codes).Perm (codeSet codes') := by
    refine (List.perm_ext_iff_of_nodup (hnodup _) (hnodup _)).mpr fun code => ?_
    rw [mem_codeSet, mem_codeSet, h]
  exact hperm.eq_of_pairwise (fun a b _ _ hab hba => absurd hab (Nat.lt_asymm hba))
    (pairwise_codeSet codes) (pairwise_codeSet codes')

/-! ### Lists of codes as users write them -/

/-- The word is a code as it is shown, its mark in any letter case, or the bare digits of the code
with any zeros in front. -/
inductive WritesCode (code : Nat) : List Char → Prop
  | shown {s p : Char} (hs : s = 's' ∨ s = 'S') (hp : p = 'p' ∨ p = 'P') {digits : List Char}
      (hformat : (formatCode code).toList = 'S' :: 'P' :: digits) :
      WritesCode code (s :: p :: digits)
  | bare (zeros : Nat) : WritesCode code (List.replicate zeros '0' ++ decimalDigits code)

/-- A code and a word that is written for it. -/
structure WrittenCode where
  code : UInt16
  word : List Char
  writes : WritesCode code.toNat word

/-- What stands between two codes: commas and blanks, at least one of them. -/
structure Separator where
  text : List Char
  ne_nil : text ≠ []
  separates : ∀ c ∈ text, c = ',' ∨ Text.isBlank c = true

/-- Codes with something between them, at least one code. -/
structure CodeList where
  first : WrittenCode
  more : List (Separator × WrittenCode)

namespace CodeList

/-- The text behind the first code. -/
def textBehind (more : List (Separator × WrittenCode)) : List Char :=
  more.flatMap fun (separator, code) => separator.text ++ code.word

/-- The text of the list. -/
def text (list : CodeList) : List Char :=
  list.first.word ++ textBehind list.more

/-- The codes in the order of the list. -/
def writtenCodes (list : CodeList) : List WrittenCode :=
  list.first :: list.more.map (·.2)

/-- The numbers of the codes. -/
def codes (list : CodeList) : List Nat :=
  list.writtenCodes.map (·.code.toNat)

end CodeList

/-- Letters and then digits, at least one digit. -/
structure IsCodeWord (letters digits : List Char) : Prop where
  letter : ∀ c ∈ letters, Text.isAsciiLetter c = true
  ne_nil : digits ≠ []
  digit : ∀ c ∈ digits, Text.isAsciiDigit c = true

/-- Every way to write a code is a spelling of it. -/
theorem WritesCode.spells {code : Nat} {word : List Char} (h : WritesCode code word)
    (hmax : code ≤ maxCode) : SpellsCode word code := by
  cases h with
  | shown hs hp hformat =>
    have hshown := spellsCode_formatCode hmax
    rw [hformat, spellsCode_iff, dropCodeMark_marked (Or.inr rfl) (Or.inr rfl)] at hshown
    exact .marked hs hp hshown.1 hmax
  | bare zeros => exact .bare (spellsNumber_decimalDigits zeros code) hmax

theorem WrittenCode.spells (written : WrittenCode) : SpellsCode written.word written.code.toNat :=
  written.writes.spells (Nat.le_of_lt_succ written.code.toNat_lt)

theorem WrittenCode.parseCode_word (written : WrittenCode) :
    parseCode (String.ofList written.word) = some written.code.toNat :=
  parseCode_eq_some_iff.mpr ⟨[], _, [], by simp, by simp, by simp, written.spells⟩

/-- A spelling of a code is a code word. -/
theorem SpellsCode.exists_isCodeWord {word : List Char} {code : Nat} (h : SpellsCode word code) :
    ∃ letters digits, word = letters ++ digits ∧ IsCodeWord letters digits := by
  cases h with
  | bare h => exact ⟨[], _, rfl, by simp, h.ne_nil, h.digit⟩
  | @marked s p hs hp digits _ h =>
    refine ⟨[s, p], digits, rfl, ?_, h.ne_nil, h.digit⟩
    simp only [List.forall_mem_cons]
    refine ⟨?_, ?_, by simp⟩
    · rcases hs with rfl | rfl <;> rfl
    · rcases hp with rfl | rfl <;> rfl

/-! ### Code words one by one -/

namespace Suppression

open Text

theorem isAsciiLetter_iff {c : Char} :
    isAsciiLetter c = true ↔ (97 ≤ c.toNat ∧ c.toNat ≤ 122) ∨ (65 ≤ c.toNat ∧ c.toNat ≤ 90) := by
  simp [isAsciiLetter, Char.le_def, UInt32.le_iff_toNat_le]

theorem isSeparator_iff {c : Char} : isSeparator c = true ↔ c = ',' ∨ isBlank c = true := by
  simp [isSeparator]

theorem isSeparator_of_isAsciiDigit {c : Char} (h : isAsciiDigit c = true) :
    isSeparator c = false := by
  have hcomma : c ≠ ',' := by
    rintro rfl
    cases h
  simp [isSeparator, hcomma, isBlank_of_isAsciiDigit h]

theorem isSeparator_of_isAsciiLetter {c : Char} (h : isAsciiLetter c = true) :
    isSeparator c = false := by
  have hcomma : c ≠ ',' := by
    rintro rfl
    cases h
  have hcode := isAsciiLetter_iff.mp h
  simp [isSeparator, hcomma, isBlank, Ranges.contains, blankRanges, Ranges.containsCode]
  omega

/-- Letters and digits separate nothing. -/
theorem isSeparator_of_isCodeWord {letters digits : List Char} (h : IsCodeWord letters digits) :
    ∀ c ∈ letters ++ digits, isSeparator c = false := by
  intro c hc
  rcases List.mem_append.mp hc with hletter | hdigit
  · exact isSeparator_of_isAsciiLetter (h.letter c hletter)
  · exact isSeparator_of_isAsciiDigit (h.digit c hdigit)

/-- The scan for a code word takes the whole word if no digit follows. -/
theorem codeWord?_append {letters digits rest : List Char} (h : IsCodeWord letters digits)
    (hrest : ∀ c ∈ rest.head?, isAsciiDigit c = false) :
    codeWord? (letters ++ digits ++ rest) = some (letters ++ digits, rest) := by
  obtain ⟨d, ds, rfl⟩ := List.exists_cons_of_ne_nil h.ne_nil
  have hd : isAsciiLetter d = false := by
    have hdigit := isAsciiDigit_iff.mp (h.digit d List.mem_cons_self)
    rw [Bool.eq_false_iff, ne_eq, isAsciiLetter_iff]
    omega
  have hletters : (letters ++ (d :: ds ++ rest)).takeWhile isAsciiLetter = letters
      ∧ (letters ++ (d :: ds ++ rest)).dropWhile isAsciiLetter = d :: ds ++ rest := by
    rw [List.takeWhile_append_of_pos h.letter, List.dropWhile_append_of_pos h.letter]
    simp [hd]
  have hdigits : (d :: ds ++ rest).takeWhile isAsciiDigit = d :: ds
      ∧ (d :: ds ++ rest).dropWhile isAsciiDigit = rest := by
    rw [List.takeWhile_append_of_pos h.digit, List.dropWhile_append_of_pos h.digit]
    cases rest with
    | nil => simp
    | cons c rest =>
      have hc := hrest c rfl
      simp [hc]
  rw [codeWord?, List.append_assoc, hletters.1, hletters.2, hdigits.1, hdigits.2]
  rfl

/-- No list goes on with a digit: what stands behind a code starts with a separator. -/
theorem head?_textBehind (more : List (Separator × WrittenCode)) :
    ∀ c ∈ (CodeList.textBehind more).head?, isSeparator c = true := by
  cases more with
  | nil => simp [CodeList.textBehind]
  | cons entry more =>
    obtain ⟨c, cs, htext⟩ := List.exists_cons_of_ne_nil entry.1.ne_nil
    have hc : isSeparator c = true :=
      isSeparator_iff.mpr (entry.1.separates c (htext ▸ List.mem_cons_self))
    simp [CodeList.textBehind, htext, hc]

theorem codeWord?_written (written : WrittenCode) (more : List (Separator × WrittenCode)) :
    codeWord? (written.word ++ CodeList.textBehind more)
      = some (written.word, CodeList.textBehind more) := by
  obtain ⟨letters, digits, hword, hcode⟩ := written.spells.exists_isCodeWord
  rw [hword]
  refine codeWord?_append hcode fun c hc => ?_
  have hseparator := head?_textBehind more c hc
  rw [Bool.eq_false_iff]
  intro hdigit
  rw [isSeparator_of_isAsciiDigit hdigit] at hseparator
  cases hseparator

/-- The separators in front of a code end where its word starts. -/
theorem span_separator (separator : Separator) (written : WrittenCode) (rest : List Char) :
    (separator.text ++ (written.word ++ rest)).takeWhile isSeparator = separator.text
      ∧ (separator.text ++ (written.word ++ rest)).dropWhile isSeparator
        = written.word ++ rest := by
  have hseparates : ∀ c ∈ separator.text, isSeparator c = true :=
    fun c hc => isSeparator_iff.mpr (separator.separates c hc)
  obtain ⟨letters, digits, hword, hcode⟩ := written.spells.exists_isCodeWord
  obtain ⟨c, cs, hcons⟩ : ∃ c cs, written.word = c :: cs := by
    rw [hword]
    exact List.exists_cons_of_ne_nil (by simp [hcode.ne_nil])
  have hc : isSeparator c = false :=
    isSeparator_of_isCodeWord hcode c (hword ▸ hcons ▸ List.mem_cons_self)
  rw [List.takeWhile_append_of_pos hseparates, List.dropWhile_append_of_pos hseparates, hcons]
  simp [hc]

/-- **The scan takes a list apart** into the words it was put together from. -/
theorem codeWordsBehind_written (more : List (Separator × WrittenCode)) :
    codeWordsBehind (CodeList.textBehind more) = more.map (·.2.word) := by
  induction more with
  | nil =>
    rw [codeWordsBehind]
    rfl
  | cons entry more ih =>
    obtain ⟨separator, written⟩ := entry
    have htext : CodeList.textBehind ((separator, written) :: more)
        = separator.text ++ (written.word ++ CodeList.textBehind more) := by
      simp [CodeList.textBehind]
    obtain ⟨htake, hdrop⟩ := span_separator separator written (CodeList.textBehind more)
    rw [codeWordsBehind, htext, htake, if_neg (by simp [separator.ne_nil])]
    split
    · next hnone =>
      rw [hdrop, codeWord?_written] at hnone
      cases hnone
    · next word rest hsome =>
      rw [hdrop, codeWord?_written] at hsome
      obtain ⟨rfl, rfl⟩ := Prod.mk.inj (Option.some.inj hsome)
      rw [ih, List.map_cons]

/-! ### The whole text first -/

/-- The text of a list that goes on behind a code word, with its separators. -/
def listBehind (cs : List Char) : List Char :=
  if (cs.takeWhile isSeparator).isEmpty then []
  else
    match _h : codeWord? (cs.dropWhile isSeparator) with
    | none => []
    | some (word, rest) => cs.takeWhile isSeparator ++ (word ++ listBehind rest)
termination_by cs.length
decreasing_by
  have := length_lt_of_codeWord? _h
  have := length_dropWhile_le isSeparator cs
  omega

/-- The text of the list behind a colon, if there is one and at least one code word follows. -/
def listedText? : List Char → Option (List Char)
  | ':' :: cs => (codeWord? (trimStart cs)).map fun (word, rest) => word ++ listBehind rest
  | _ => none

/-- The codes that stand between the separators of a text. -/
def codesIn (text : List Char) : List Nat :=
  codeSet ((text.splitOnP isSeparator).filterMap fun word => parseCode (String.ofList word))

/-- The directive in a comment, with the text of its list carved out first and split later. -/
def ofCommentBySplit? (line : Nat) : List Char → Option Suppression
  | [] => none
  | c :: cs =>
    match if c == '#' then afterMark? cs else none with
    | none => ofCommentBySplit? line cs
    | some rest => some { line, codes := (listedText? rest).map codesIn }

theorem isCodeWord_of_codeWord? {cs word rest : List Char} (h : codeWord? cs = some (word, rest)) :
    ∃ letters digits, word = letters ++ digits ∧ IsCodeWord letters digits := by
  simp only [codeWord?] at h
  split at h
  · cases h
  · next hdigits =>
    obtain ⟨rfl, -⟩ := Prod.mk.inj (Option.some.inj h)
    exact ⟨_, _, rfl, fun c hc => List.mem_takeWhile_imp hc, by simpa using hdigits,
      fun c hc => List.mem_takeWhile_imp hc⟩

/-- A word in front of a separator, or at the end, is a piece of its own. -/
theorem filterMap_splitOnP_append {α : Type} {f : List Char → Option α} (hf : f [] = none)
    {word behind : List Char} (hword : ∀ c ∈ word, isSeparator c = false)
    (hbehind : ∀ c ∈ behind.head?, isSeparator c = true) :
    ((word ++ behind).splitOnP isSeparator).filterMap f
      = (f word).toList ++ (behind.splitOnP isSeparator).filterMap f := by
  have hone : (word.splitOnP isSeparator).filterMap f = (f word).toList := by
    rw [List.splitOnP_eq_singleton hword]
    cases h : f word <;> simp [h]
  cases behind with
  | nil => simp [hone, hf]
  | cons c behind =>
    have hc := hbehind c rfl
    have hfront := List.splitOnP_append_cons [] behind hc
    rw [List.nil_append, List.splitOnP_nil] at hfront
    rw [List.splitOnP_append_cons word behind hc, hfront, List.filterMap_append,
      List.filterMap_append, hone]
    simp [hf]

/-- Separators in front are no pieces. -/
theorem filterMap_splitOnP_separators {α : Type} {f : List Char → Option α} (hf : f [] = none)
    {separators : List Char} (h : ∀ c ∈ separators, isSeparator c = true) (text : List Char) :
    ((separators ++ text).splitOnP isSeparator).filterMap f
      = (text.splitOnP isSeparator).filterMap f := by
  induction separators with
  | nil => rfl
  | cons c separators ih =>
    obtain ⟨hc, hseparators⟩ := List.forall_mem_cons.mp h
    have hfront := List.splitOnP_append_cons [] (separators ++ text) hc
    rw [List.nil_append, List.splitOnP_nil] at hfront
    rw [List.cons_append, hfront, List.filterMap_append, ih hseparators]
    simp [hf]

theorem head?_listBehind (cs : List Char) :
    ∀ c ∈ (listBehind cs).head?, isSeparator c = true := by
  rw [listBehind]
  split
  · simp
  · next hsome =>
    split
    · simp
    · have hne : cs.takeWhile isSeparator ≠ [] := fun hnil => hsome (by rw [hnil]; rfl)
      obtain ⟨c, separators, hcons⟩ := List.exists_cons_of_ne_nil hne
      have hc : c ∈ cs.takeWhile isSeparator := hcons ▸ List.mem_cons_self
      rw [hcons]
      simpa using List.mem_takeWhile_imp hc

/-- **Carving and splitting find the words** that the scan finds one by one. -/
theorem filterMap_splitOnP_listBehind {α : Type} {f : List Char → Option α} (hf : f [] = none)
    (cs : List Char) :
    ((listBehind cs).splitOnP isSeparator).filterMap f = (codeWordsBehind cs).filterMap f := by
  fun_induction codeWordsBehind cs with
  | case1 cs hnone =>
    rw [listBehind, if_pos hnone]
    simp [hf]
  | case2 cs hsome hnone =>
    rw [listBehind, if_neg hsome]
    split
    · simp [hf]
    · next hword => simp [hnone] at hword
  | case3 cs hsome word rest hword ih =>
    obtain ⟨letters, digits, hparts, hcode⟩ := isCodeWord_of_codeWord? hword
    rw [listBehind, if_neg hsome]
    split
    · next hnone => simp [hword] at hnone
    · next word' rest' hword' =>
      obtain ⟨rfl, rfl⟩ := Prod.mk.inj (Option.some.inj (hword.symm.trans hword'))
      rw [filterMap_splitOnP_separators hf fun c hc => List.mem_takeWhile_imp hc,
        filterMap_splitOnP_append hf (hparts ▸ isSeparator_of_isCodeWord hcode)
          (head?_listBehind rest), ih, List.filterMap_cons]
      cases f word <;> rfl

/-- The empty piece between two separators is no code. -/
theorem parseCode_empty : parseCode (String.ofList []) = none := by
  decide

theorem listedText?_map_codesIn (rest : List Char) :
    (listedText? rest).map codesIn
      = (codeWords? rest).map fun words =>
          codeSet (words.filterMap fun word => parseCode (String.ofList word)) := by
  cases rest with
  | nil => rfl
  | cons colon cs =>
    by_cases hcolon : colon = ':'
    · subst hcolon
      rw [listedText?, codeWords?]
      cases hword : codeWord? (trimStart cs) with
      | none => rfl
      | some found =>
        obtain ⟨word, behind⟩ := found
        obtain ⟨letters, digits, hparts, hcode⟩ := isCodeWord_of_codeWord? hword
        simp only [Option.map_some, codesIn]
        rw [filterMap_splitOnP_append parseCode_empty (hparts ▸ isSeparator_of_isCodeWord hcode)
          (head?_listBehind behind), filterMap_splitOnP_listBehind parseCode_empty,
          List.filterMap_cons]
        cases parseCode (String.ofList word) <;> rfl
    · simp [listedText?, codeWords?, hcolon]

/-- **Both ways to read a directive agree**, whatever the comment is. -/
theorem ofCommentBySplit?_eq (line : Nat) (comment : List Char) :
    ofCommentBySplit? line comment = ofComment? line comment := by
  induction comment with
  | nil => rfl
  | cons c cs ih =>
    rw [ofCommentBySplit?, ofComment?, ih]
    cases if c == '#' then afterMark? cs else none with
    | none => rfl
    | some rest =>
      exact congrArg (fun codes => some (Suppression.mk line codes)) (listedText?_map_codesIn rest)

/-! ### The mark of a directive -/

/-- A text without a hash sign holds no directive. -/
theorem ofComment?_append {front : List Char} (h : '#' ∉ front) (line : Nat) (rest : List Char) :
    ofComment? line (front ++ rest) = ofComment? line rest := by
  induction front with
  | nil => rfl
  | cons c front ih =>
    obtain ⟨hc, hfront⟩ := List.ne_and_not_mem_of_not_mem_cons h
    have hhash : (c == '#') = false := by simpa using Ne.symm hc
    rw [List.cons_append, ofComment?, hhash]
    exact ih hfront

theorem afterWord?_append {letters word : List Char} (h : word.map Char.toLower = letters)
    (rest : List Char) : afterWord? letters (word ++ rest) = some rest := by
  induction word generalizing letters with
  | nil =>
    subst h
    cases rest <;> rfl
  | cons c word ih =>
    subst h
    rw [List.map_cons, List.cons_append, afterWord?, if_pos (by simp)]
    exact ih rfl

theorem eq_of_toLower_eq_n {c : Char} (h : c.toLower = 'n') : c = 'n' ∨ c = 'N' := by
  unfold Char.toLower at h
  split at h
  · have hcapital : 'n'.val = 'N'.val + ('a'.val - 'A'.val) := by decide
    have hval := (congrArg Char.val h).trans hcapital
    exact Or.inr (Char.ext ((UInt32.add_left_inj _).mp hval))
  · exact Or.inl h

/-- The mark is found behind any blanks, unless its word goes on. -/
theorem afterMark?_append {gap word rest : List Char} (hgap : ∀ c ∈ gap, isBlank c = true)
    (hword : word.map Char.toLower = ['n', 'o', 'q', 'a'])
    (hrest : ∀ c ∈ rest.head?, isWord c = false) :
    afterMark? (gap ++ (word ++ rest)) = some rest := by
  obtain ⟨n, tail, rfl, hn, htail⟩ := List.map_eq_cons_iff.mp hword
  have hblank : isBlank n = false := by
    rcases eq_of_toLower_eq_n hn with rfl | rfl <;> rfl
  have hstart : trimStart (gap ++ (n :: tail ++ rest)) = n :: tail ++ rest := by
    rw [trimStart_append hgap]
    exact List.dropWhile_cons_of_neg (by simp [hblank])
  rw [afterMark?, hstart, afterWord?_append hword, Option.filter_some]
  cases rest with
  | nil => rfl
  | cons c rest => simp [hrest c rfl]

/-- What is read behind the mark is the directive. -/
theorem ofComment?_hash {front gap word rest : List Char} (hfront : '#' ∉ front)
    (hgap : ∀ c ∈ gap, isBlank c = true) (hword : word.map Char.toLower = ['n', 'o', 'q', 'a'])
    (hrest : ∀ c ∈ rest.head?, isWord c = false) (line : Nat) :
    ofComment? line (front ++ '#' :: (gap ++ (word ++ rest)))
      = some { line
               codes := (codeWords? rest).map fun words =>
                 codeSet (words.filterMap fun word => parseCode (String.ofList word)) } := by
  rw [ofComment?_append hfront, ofComment?, if_pos (by rfl), afterMark?_append hgap hword hrest]

/-- Behind the colon, the words of a list are read. -/
theorem codeWords?_written {gap : List Char} (hgap : ∀ c ∈ gap, isBlank c = true)
    (list : CodeList) :
    codeWords? (':' :: (gap ++ list.text)) = some (list.writtenCodes.map (·.word)) := by
  have hstart : trimStart (gap ++ list.text) = list.text := by
    obtain ⟨letters, digits, hword, hcode⟩ := list.first.spells.exists_isCodeWord
    obtain ⟨c, cs, hcons⟩ : ∃ c cs, list.first.word = c :: cs := by
      rw [hword]
      exact List.exists_cons_of_ne_nil (by simp [hcode.ne_nil])
    have hc : isBlank c = false :=
      isBlank_of_spellsCode list.first.spells c (hcons ▸ List.mem_cons_self)
    rw [trimStart_append hgap, CodeList.text, hcons]
    exact List.dropWhile_cons_of_neg (by simp [hc])
  rw [codeWords?, hstart, CodeList.text, codeWord?_written, Option.map_some]
  simp only [codeWordsBehind_written, CodeList.writtenCodes, List.map_cons, List.map_map]
  rfl

theorem filterMap_parseCode (list : CodeList) :
    (list.writtenCodes.map (·.word)).filterMap (fun word => parseCode (String.ofList word))
      = list.codes := by
  rw [List.filterMap_map, CodeList.codes, ← List.filterMap_eq_map]
  exact List.filterMap_congr fun written _ => written.parseCode_word

end Suppression

/-- **A directive silences what it lists**: behind any text without a hash sign, with any blanks
around the mark and the mark in any letter case, a list of codes, each written in any way and with
any separators between them, is read as the set of these codes; and the mark alone is read as a
directive for all codes. A directive speaks about the violations of its line with these codes, and
about no others. Comments are read alike if the whole list is carved out first and split later. -/
theorem ofComment?_listed (line : Nat) (list : CodeList) {front gap word gap' : List Char}
    (hfront : '#' ∉ front) (hgap : ∀ c ∈ gap, Text.isBlank c = true)
    (hword : word.map Char.toLower = ['n', 'o', 'q', 'a'])
    (hgap' : ∀ c ∈ gap', Text.isBlank c = true) :
    (∃ codes, Suppression.ofComment? line
            (front ++ '#' :: (gap ++ (word ++ ':' :: (gap' ++ list.text))))
          = some { line, codes := some codes }
        ∧ (∀ code, code ∈ codes ↔ code ∈ list.codes)
        ∧ ∀ v : Violation, Suppression.silences { line, codes := some codes } v = true
            ↔ v.position.line = line ∧ v.code ∈ list.codes)
      ∧ Suppression.ofComment? line (front ++ '#' :: (gap ++ word)) = some { line, codes := none }
      ∧ (∀ v : Violation, Suppression.silences { line, codes := none } v = true
            ↔ v.position.line = line)
      ∧ ∀ comment, Suppression.ofCommentBySplit? line comment
          = Suppression.ofComment? line comment := by
  refine ⟨⟨codeSet list.codes, ?_, fun code => mem_codeSet, fun v => ?_⟩, ?_, fun v => ?_,
    Suppression.ofCommentBySplit?_eq line⟩
  · have hcolon : ∀ c ∈ (':' :: (gap' ++ list.text)).head?, Text.isWord c = false := by
      simp only [List.head?_cons, Option.mem_some_iff, forall_eq']
      decide
    rw [Suppression.ofComment?_hash hfront hgap hword hcolon,
      Suppression.codeWords?_written hgap' list, Option.map_some, Suppression.filterMap_parseCode]
  · rw [Suppression.silences_iff]
    simp [mem_codeSet, eq_comm]
  · have hnothing : ∀ c ∈ ([] : List Char).head?, Text.isWord c = false := by simp
    have hbare := Suppression.ofComment?_hash hfront hgap hword hnothing line
    rwa [List.append_nil] at hbare
  · rw [Suppression.silences_iff]
    simp [eq_comm]

/-- Two codes, one with the mark in small letters and one in digits with zeros in front. -/
def mixedList : CodeList where
  first :=
    { code := 513
      word := ['s', 'p', '5', '1', '3']
      writes := .shown (Or.inl rfl) (Or.inl rfl) (by simp [formatCode, decimalDigits]) }
  more :=
    [({ text := [',', '\t', ',']
        ne_nil := by simp
        separates := fun c hc =>
          Suppression.isSeparator_iff.mp (List.all_eq_true.mp (by decide) c hc) },
      { code := 231
        word := ['0', '0', '2', '3', '1']
        writes := by
          have hbare : WritesCode 231 _ := .bare 2
          simpa [decimalDigits] using hbare })]

theorem mixedList_listed :
    mixedList.text = "sp513,\t,00231".toList ∧ mixedList.codes = [513, 231]
      ∧ (∃ codes, Suppression.ofComment? 4 "x = 1  # NoQA: sp513,\t,00231".toList
            = some { line := 4, codes := some codes }
          ∧ (∀ code, code ∈ codes ↔ code ∈ mixedList.codes)
          ∧ ∀ v : Violation, Suppression.silences { line := 4, codes := some codes } v = true
              ↔ v.position.line = 4 ∧ v.code ∈ mixedList.codes)
      ∧ Suppression.ofComment? 4 "x = 1  # NoQA".toList = some { line := 4, codes := none } := by
  have hfront : '#' ∉ "x = 1  ".toList := by decide
  have hgap : ∀ c ∈ [' '], Text.isBlank c = true := List.all_eq_true.mp (by decide)
  have hword : "NoQA".toList.map Char.toLower = ['n', 'o', 'q', 'a'] := by decide
  have hlisted := ofComment?_listed 4 mixedList hfront hgap hword hgap
  exact ⟨rfl, rfl, hlisted.1, hlisted.2.1⟩

end PyStyle
