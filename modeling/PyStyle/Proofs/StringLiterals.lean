import PyStyle.Proofs.StringBytes
import PyStyle.Proofs.TokenPositions

/-!
# String literals are scanned exactly

What a string literal is, said without the scanner: an opener, a body that is read item by item, and
the first delimiter that stands where an item may start. Where the scanner comes to an opener it
takes this literal as one token, and it fails there exactly if there is none.

- `Lexeme.Opens` — a text starts with the prefix and the quotes of a literal;
- `Lexeme.items` — a text cut into escapes and single characters;
- `Lexeme.IsBody` — the items between the opener and the delimiter that closes the literal;
- `Lexeme.opener?_of_opens`, `Lexeme.stringBody_iff` — the rules of the scanner find these;
- `Scanner.Reaches` — the states of a run, with the tokens emitted on the way;
- `tokenize_stringLiteral` — the token of a literal or the error, and the byte at which it ends.
-/

namespace PyStyle

open Text

namespace Lexeme

/-! ### What a literal is -/

/-- What may stand before the quotes, up to case. -/
def stringPrefixes : List (List Char) :=
  [[], ['r'], ['b'], ['u'], ['f'], ['r', 'b'], ['b', 'r'], ['f', 'r'], ['r', 'f']]

/-- The text starts with the prefix and the quotes of a string literal: three quotes if three equal
quotes stand there, else one. -/
structure Opens (text letters delimiter tail : List Char) : Prop where
  split : text = letters ++ delimiter ++ tail
  letters : letters.map Char.toLower ∈ stringPrefixes
  delimiter : ∃ q, (q = '\'' ∨ q = '"')
    ∧ (delimiter = [q, q, q] ∨ delimiter = [q] ∧ ¬ [q, q] <+: tail)

/-- The items of a text: a backslash with the line break `\r\n` or with one character behind it, or
else a single character. -/
def items : List Char → List (List Char)
  | '\\' :: '\r' :: '\n' :: rest => ['\\', '\r', '\n'] :: items rest
  | '\\' :: c :: rest => ['\\', c] :: items rest
  | c :: rest => [c] :: items rest
  | [] => []

/-- Of a text behind an opener, `body` is what the literal holds and `rest` is what comes behind the
delimiter that closes it. -/
structure IsBody (delimiter text : List Char) (body : List (List Char)) (rest : List Char) :
    Prop where
  split : items text = body ++ items (delimiter ++ rest)
  /-- The delimiter starts with no item of the body. -/
  inside : ∀ front back, body = front ++ back → back ≠ [] →
    ¬ delimiter <+: back.flatten ++ delimiter ++ rest
  /-- In one quote there is no line break but in escapes. -/
  line : delimiter.length = 1 → ['\r'] ∉ body ∧ ['\n'] ∉ body

/-! ### Items -/

theorem items_plain {c : Char} (hc : c ≠ '\\') (rest : List Char) :
    items (c :: rest) = [c] :: items rest := by
  rw [items]
  · exact fun _ h => absurd h hc
  · exact fun _ _ h => absurd h hc

/-- The items of a text are the text. -/
@[simp] theorem flatten_items (cs : List Char) : (items cs).flatten = cs := by
  fun_induction items cs with
  | case1 rest ih => simp [ih]
  | case2 c rest _ ih => simp [ih]
  | case3 c rest _ _ ih => simp [ih]
  | case4 => rfl

theorem items_ne_nil {cs : List Char} (h : cs ≠ []) : items cs ≠ [] := by
  intro hnil
  have hflat := flatten_items cs
  rw [hnil] at hflat
  exact h hflat.symm

namespace IsBody

variable {delimiter text : List Char} {body : List (List Char)} {rest : List Char}

theorem text_eq (h : IsBody delimiter text body rest) :
    text = body.flatten ++ delimiter ++ rest := by
  have hflat := congrArg List.flatten h.split
  rwa [List.flatten_append, flatten_items, flatten_items, ← List.append_assoc] at hflat

/-- The delimiter closes the empty body before it. -/
theorem nil (delimiter rest : List Char) : IsBody delimiter (delimiter ++ rest) [] rest where
  split := rfl
  inside := by
    intro front back hnil hback
    exact absurd (List.append_eq_nil_iff.mp hnil.symm).2 hback
  line := fun _ => ⟨List.not_mem_nil, List.not_mem_nil⟩

/-- One more item in front: it must not start with the delimiter, or be a line break behind one
quote. -/
theorem cons (item : List Char) (h : IsBody delimiter text body rest)
    (hitem : items (item ++ text) = item :: items text) (hinside : ¬ delimiter <+: item ++ text)
    (hline : delimiter.length = 1 → item ≠ ['\r'] ∧ item ≠ ['\n']) :
    IsBody delimiter (item ++ text) (item :: body) rest where
  split := by rw [hitem, h.split, List.cons_append]
  inside := by
    intro front back hbody hback
    cases front with
    | nil =>
      rw [List.nil_append] at hbody
      rw [← hbody, List.flatten_cons, List.append_assoc, List.append_assoc,
        ← List.append_assoc _ _ rest, ← h.text_eq]
      exact hinside
    | cons first front => exact h.inside front back (List.cons.inj hbody).2 hback
  line := by
    intro hone
    obtain ⟨hr, hn⟩ := h.line hone
    obtain ⟨hr', hn'⟩ := hline hone
    exact ⟨List.not_mem_cons_of_ne_of_not_mem hr'.symm hr,
      List.not_mem_cons_of_ne_of_not_mem hn'.symm hn⟩

/-- In the other direction: without its first item a body is one of the text behind it. -/
theorem tail {cs item : List Char} (h : IsBody delimiter cs (item :: body) rest)
    (hitem : items cs = item :: items text) : IsBody delimiter text body rest where
  split := (List.cons.inj (hitem.symm.trans h.split)).2
  inside := by
    rintro front back rfl hback
    exact h.inside (item :: front) back rfl hback
  line := by
    intro hone
    obtain ⟨hr, hn⟩ := h.line hone
    exact ⟨List.not_mem_of_not_mem_cons hr, List.not_mem_of_not_mem_cons hn⟩

/-- A text that does not start with the delimiter has a first item in its body. -/
theorem exists_cons {cs item : List Char} (h : IsBody delimiter cs body rest)
    (hitem : items cs = item :: items text) (hinside : ¬ delimiter <+: cs) :
    ∃ back, body = item :: back := by
  cases body with
  | nil =>
    have htext : cs = delimiter ++ rest := h.text_eq
    exact absurd ⟨rest, htext.symm⟩ hinside
  | cons first back =>
    have hsplit := hitem.symm.trans h.split
    rw [List.cons_append] at hsplit
    exact ⟨back, by rw [(List.cons.inj hsplit).1]⟩

end IsBody

/-! ### Openers -/

theorem toNat_toLower (c : Char) :
    c.toLower.toNat = if 65 ≤ c.toNat ∧ c.toNat ≤ 90 then c.toNat + 32 else c.toNat := by
  have hupper : (c.val ≥ 'A'.val ∧ c.val ≤ 'Z'.val) ↔ (65 ≤ c.toNat ∧ c.toNat ≤ 90) := Iff.rfl
  unfold Char.toLower
  by_cases h : 65 ≤ c.toNat ∧ c.toNat ≤ 90
  · have hc : c.val.toNat ≤ 90 := h.2
    rw [dif_pos (hupper.mpr h), if_pos h]
    show (c.val.toNat + 32) % 2 ^ 32 = c.val.toNat + 32
    omega
  · rw [dif_neg (mt hupper.mp h), if_neg h]

/-- A letter that may stand in a prefix is recognised in either case. -/
theorem isLetterOf_of_toLower {x c : Char} (hc : c.toLower = x) (hx : x ∈ ['r', 'b', 'u', 'f']) :
    isLetterOf x c = true := by
  have hlower := toNat_toLower c
  have hupper : x.toUpper.toNat = x.toNat - 32 := by
    simp only [List.mem_cons, List.not_mem_nil, or_false] at hx
    rcases hx with rfl | rfl | rfl | rfl <;> rfl
  rw [hc] at hlower
  have hcase : c.toNat = x.toNat ∨ c.toNat = x.toUpper.toNat := by
    rw [hupper]
    split at hlower <;> omega
  rw [isLetterOf, Bool.or_eq_true, beq_iff_eq, beq_iff_eq]
  exact hcase.imp Char.toNat_inj.mp Char.toNat_inj.mp

/-- A quote is no letter of a prefix. -/
theorem isStringLetter_quote {q : Char} (hq : q = '\'' ∨ q = '"') :
    isStringLetter q = false := by
  rcases hq with rfl | rfl <;> rfl

theorem isStringLetterPair_quote {c d : Char} (h : (c = '\'' ∨ c = '"') ∨ (d = '\'' ∨ d = '"')) :
    isStringLetterPair c d = false := by
  rcases h with (rfl | rfl) | (rfl | rfl) <;> simp [isStringLetterPair, isLetterOf]

/-- Behind the prefix the quotes are counted. -/
theorem quotesAt?_of_opens {text letters delimiter tail : List Char}
    (h : Opens text letters delimiter tail) (n : Nat) :
    ∃ o, quotesAt? n (delimiter ++ tail) = some o ∧ o.letters = n ∧ o.delimiter = delimiter := by
  obtain ⟨q, hq, hquotes⟩ := h.delimiter
  have hguard : (q == '\'' || q == '"') = true := by simpa using hq
  rcases hquotes with rfl | ⟨rfl, hone⟩
  · refine ⟨⟨n, q, true⟩, ?_, rfl, rfl⟩
    simp [quotesAt?, hguard]
  · refine ⟨⟨n, q, false⟩, ?_, rfl, rfl⟩
    have hprefix : [q, q].isPrefixOf tail = false := by
      rw [Bool.eq_false_iff]
      exact mt List.isPrefixOf_iff_prefix.mp hone
    rw [List.singleton_append, quotesAt?, if_pos hguard, hprefix]

/-- The prefix is found first, at its whole length. -/
theorem opener?_eq_quotesAt? {text letters delimiter tail : List Char}
    (h : Opens text letters delimiter tail) :
    opener? text = quotesAt? letters.length (delimiter ++ tail) := by
  obtain ⟨q, rest, hq, hrest⟩ : ∃ q rest, (q = '\'' ∨ q = '"') ∧ delimiter ++ tail = q :: rest := by
    obtain ⟨q, hq, rfl | ⟨rfl, -⟩⟩ := h.delimiter
    · exact ⟨q, _, hq, rfl⟩
    · exact ⟨q, _, hq, rfl⟩
  have hletters := h.letters
  rw [h.split, List.append_assoc, hrest]
  simp only [stringPrefixes, List.mem_cons, List.not_mem_nil, or_false] at hletters
  match letters with
  | [] =>
    cases rest with
    | nil => rfl
    | cons d rest =>
      rw [List.nil_append, opener?, isStringLetterPair_quote (.inl hq), isStringLetter_quote hq]
      rfl
  | [c] =>
    have hc : isStringLetter c = true := by
      simp only [List.map_cons, List.map_nil, List.cons.injEq, and_true, reduceCtorEq,
        false_or, or_false, and_false] at hletters
      rcases hletters with hc | hc | hc | hc <;>
        simp [isStringLetter, isLetterOf_of_toLower hc (by decide)]
    rw [List.singleton_append, opener?, isStringLetterPair_quote (.inr hq), hc]
    rfl
  | [c, d] =>
    have hcd : isStringLetterPair c d = true := by
      simp only [List.map_cons, List.map_nil, List.cons.injEq, and_true, reduceCtorEq,
        false_or, and_false] at hletters
      rcases hletters with ⟨hc, hd⟩ | ⟨hc, hd⟩ | ⟨hc, hd⟩ | ⟨hc, hd⟩ <;>
        simp [isStringLetterPair, isLetterOf_of_toLower hc (by decide),
          isLetterOf_of_toLower hd (by decide)]
    rw [List.cons_append, List.singleton_append, opener?, hcd]
    rfl
  | c :: d :: e :: more => simp at hletters

theorem opener?_of_opens {text letters delimiter tail : List Char}
    (h : Opens text letters delimiter tail) :
    ∃ o, opener? text = some o ∧ o.letters = letters.length ∧ o.delimiter = delimiter := by
  rw [opener?_eq_quotesAt? h]
  exact quotesAt?_of_opens h letters.length

/-! ### Bodies -/

section Body

variable {o : Opener}

theorem closes_iff {cs : List Char} : closes o cs = true ↔ o.delimiter <+: cs :=
  List.isPrefixOf_iff_prefix

theorem length_delimiter : o.delimiter.length = 1 ↔ o.triple = false := by
  rw [Opener.delimiter, List.length_replicate, Opener.quotes]
  cases o.triple <;> decide

theorem delimiter_ne_nil : o.delimiter ≠ [] :=
  List.ne_nil_of_length_pos (by rw [Opener.delimiter, List.length_replicate]; exact quotes_pos o)

/-- The character at the front starts the delimiter or not, so it is a quote or no item of a
literal that ends there. -/
theorem not_closes_of_ne {c : Char} (hc : o.quote ≠ c) (rest : List Char) :
    ¬ o.delimiter <+: c :: rest :=
  fun h => hc (quote_of_closes (closes_iff.mpr h))

/-- **What the rule takes is a body.** -/
theorem isBody_of_stringBody (hquote : o.quote ≠ '\\') {cs : List Char} {n : Nat}
    (h : stringBody o cs = some n) :
    ∃ body rest, IsBody o.delimiter cs body rest ∧ n = body.flatten.length + o.quotes := by
  -- Each case puts one item before the body of the rest, but for the one that closes.
  fun_induction stringBody o cs generalizing n with
  | case1 => cases h
  | case2 rest ih =>
    obtain ⟨m, hm, rfl⟩ := Option.map_eq_some_iff.mp h
    obtain ⟨body, behind, hbody, rfl⟩ := ih hm
    refine ⟨_, behind, hbody.cons ['\\', '\r', '\n'] rfl (not_closes_of_ne hquote _)
      (fun _ => by decide), ?_⟩
    simp
    omega
  | case3 c rest hbreak ih =>
    obtain ⟨m, hm, rfl⟩ := Option.map_eq_some_iff.mp h
    obtain ⟨body, behind, hbody, rfl⟩ := ih hm
    have hitem : items ('\\' :: c :: rest) = ['\\', c] :: items rest := by
      rw [items]
      exact hbreak
    refine ⟨_, behind, hbody.cons ['\\', c] hitem (not_closes_of_ne hquote _)
      (fun _ => by simp), ?_⟩
    simp
    omega
  | case4 => cases h
  | case5 c rest _ hmore hlast hends => cases h
  | case6 c rest _ hmore hlast hends hcloses =>
    cases h
    obtain ⟨behind, hbehind⟩ := closes_iff.mp hcloses
    refine ⟨[], behind, ?_, by simp⟩
    rw [← hbehind]
    exact .nil _ behind
  | case7 c rest _ hmore hlast hends hcloses ih =>
    obtain ⟨m, hm, rfl⟩ := Option.map_eq_some_iff.mp h
    obtain ⟨body, behind, hbody, rfl⟩ := ih hm
    have hline : o.delimiter.length = 1 → [c] ≠ ['\r'] ∧ [c] ≠ ['\n'] := by
      intro hone
      rw [length_delimiter.mp hone] at hends
      simpa [and_comm] using hends
    refine ⟨_, behind, hbody.cons [c] (items_plain (ne_backslash hmore hlast) rest)
      (mt closes_iff.mpr hcloses) hline, ?_⟩
    simp
    omega

/-- **A body is what the rule takes.** -/
theorem stringBody_of_isBody (hquote : o.quote ≠ '\\') (hbreak : isLineBreak o.quote = false)
    {cs : List Char} {body : List (List Char)} {behind : List Char}
    (h : IsBody o.delimiter cs body behind) :
    stringBody o cs = some (body.flatten.length + o.quotes) := by
  have hend : items (o.delimiter ++ behind) ≠ [] :=
    items_ne_nil (List.append_ne_nil_of_left_ne_nil delimiter_ne_nil behind)
  fun_induction stringBody o cs generalizing body with
  | case1 => exact absurd (List.append_eq_nil_iff.mp h.split.symm).2 hend
  | case2 rest ih =>
    have hitem : items ('\\' :: '\r' :: '\n' :: rest) = ['\\', '\r', '\n'] :: items rest := rfl
    obtain ⟨back, rfl⟩ := h.exists_cons hitem (not_closes_of_ne hquote _)
    rw [ih (h.tail hitem)]
    simp
    omega
  | case3 c rest hcrlf ih =>
    have hitem : items ('\\' :: c :: rest) = ['\\', c] :: items rest := by
      rw [items]
      exact hcrlf
    obtain ⟨back, rfl⟩ := h.exists_cons hitem (not_closes_of_ne hquote _)
    rw [ih (h.tail hitem)]
    simp
    omega
  | case4 =>
    have hitem : items ['\\'] = ['\\'] :: items [] := rfl
    obtain ⟨back, rfl⟩ := h.exists_cons hitem (not_closes_of_ne hquote _)
    exact absurd (List.append_eq_nil_iff.mp (h.tail hitem).split.symm).2 hend
  | case5 c rest _ hmore hlast hends =>
    -- The line break would be an item of the body.
    obtain ⟨hc, htriple⟩ : (c = '\n' ∨ c = '\r') ∧ o.triple = false := by simpa using hends
    have hne : o.quote ≠ c := by
      rintro rfl
      rcases hc with hc | hc <;> rw [hc] at hbreak <;> cases hbreak
    obtain ⟨back, rfl⟩ :=
      h.exists_cons (items_plain (ne_backslash hmore hlast) rest) (not_closes_of_ne hne _)
    obtain ⟨hr, hn⟩ := h.line (length_delimiter.mpr htriple)
    rcases hc with rfl | rfl
    · exact absurd List.mem_cons_self hn
    · exact absurd List.mem_cons_self hr
  | case6 c rest _ hmore hlast hends hcloses =>
    -- The delimiter stands in front already, so it closes an empty body.
    have hnil : body = [] := by
      by_contra hne
      refine h.inside [] body rfl hne ?_
      rw [← h.text_eq]
      exact closes_iff.mp hcloses
    rw [hnil, List.flatten_nil, List.length_nil, Nat.zero_add]
  | case7 c rest _ hmore hlast hends hcloses ih =>
    have hitem := items_plain (ne_backslash hmore hlast) rest
    obtain ⟨back, rfl⟩ := h.exists_cons hitem (mt closes_iff.mpr hcloses)
    rw [ih (h.tail hitem)]
    simp
    omega

theorem stringBody_iff (hquote : o.quote = '\'' ∨ o.quote = '"') {cs : List Char} {n : Nat} :
    stringBody o cs = some n ↔
      ∃ body rest, IsBody o.delimiter cs body rest ∧ n = body.flatten.length + o.quotes := by
  have hbackslash : o.quote ≠ '\\' := by
    rcases hquote with h | h <;> rw [h] <;> decide
  have hbreak : isLineBreak o.quote = false := by
    rcases hquote with h | h <;> rw [h] <;> decide
  constructor
  · exact isBody_of_stringBody hbackslash
  · rintro ⟨body, rest, hbody, rfl⟩
    exact stringBody_of_isBody hbackslash hbreak hbody

end Body

/-! ### Whole literals -/

/-- The text of a literal. -/
def literal (letters delimiter : List Char) (body : List (List Char)) : List Char :=
  letters ++ delimiter ++ body.flatten ++ delimiter

section Literals

variable {text letters delimiter tail rest : List Char} {body : List (List Char)}

theorem Opens.text_eq (h : Opens text letters delimiter tail)
    (hbody : IsBody delimiter tail body rest) :
    text = literal letters delimiter body ++ rest := by
  rw [h.split, hbody.text_eq, literal]
  simp

/-- The literal at an opener is as long as its text. -/
theorem Opens.stringLiteral_iff (h : Opens text letters delimiter tail) {o : Opener}
    (hopener : opener? text = some o) (hletters : o.letters = letters.length)
    (hdelimiter : o.delimiter = delimiter) {n : Nat} :
    stringLiteral o text = some n ↔
      ∃ body rest, IsBody delimiter tail body rest
        ∧ n = (literal letters delimiter body).length := by
  subst hdelimiter
  have hquotes : o.delimiter.length = o.quotes := List.length_replicate
  have hdrop : text.drop o.length = tail := by
    rw [h.split, Opener.length, hletters, ← hquotes, ← List.length_append, List.drop_left]
  rw [stringLiteral, hdrop, Option.map_eq_some_iff]
  constructor
  · rintro ⟨m, hm, rfl⟩
    obtain ⟨body, rest, hbody, rfl⟩ := (stringBody_iff (opener?_eq_some hopener).1).mp hm
    refine ⟨body, rest, hbody, ?_⟩
    simp [literal, Opener.length, hletters, hquotes]
    omega
  · rintro ⟨body, rest, hbody, rfl⟩
    refine ⟨_, (stringBody_iff (opener?_eq_some hopener).1).mpr
      ⟨body, rest, hbody, rfl⟩, ?_⟩
    simp [literal, Opener.length, hletters, hquotes]
    omega

/-- The search over the bytes of a source ends behind the bytes of the literal. -/
theorem Opens.closingByte_iff {before : List Char} (h : Opens text letters delimiter tail)
    (j : Nat) :
    closingByte (utf8 (before ++ text)) (utf8 delimiter)
        (utf8 (before ++ letters ++ delimiter)).length = some j
      ↔ ∃ body rest, IsBody delimiter tail body rest
        ∧ j = (utf8 (before ++ literal letters delimiter body)).length := by
  obtain ⟨o, hopener, -, rfl⟩ := opener?_of_opens h
  have hquote := (opener?_eq_some hopener).1
  have hascii : Ascii o.quote := by
    rcases hquote with hq | hq <;> rw [hq] <;> decide
  have hdrop : (utf8 (before ++ text)).drop (utf8 (before ++ letters ++ o.delimiter)).length
      = utf8 tail := by
    rw [h.split, ← List.append_assoc, ← List.append_assoc, utf8_append _ tail, List.drop_left]
  -- Both sides count the bytes up to the end of the same characters.
  have hlength : ∀ {body rest}, IsBody o.delimiter tail body rest →
      (utf8 (before ++ letters ++ o.delimiter)).length
          + (utf8 (tail.take (body.flatten.length + o.quotes))).length
        = (utf8 (before ++ literal letters o.delimiter body)).length := by
    intro body rest hbody
    have htake : tail.take (body.flatten.length + o.quotes) = body.flatten ++ o.delimiter := by
      have hquotes : o.quotes = o.delimiter.length := List.length_replicate.symm
      rw [hbody.text_eq, hquotes, ← List.length_append, List.take_left]
    rw [htake, ← List.length_append, ← utf8_append, literal]
    simp only [List.append_assoc]
  rw [closingByte_eq hascii hdrop, Option.map_eq_some_iff]
  constructor
  · rintro ⟨n, hn, rfl⟩
    obtain ⟨body, rest, hbody, rfl⟩ := (stringBody_iff hquote).mp hn
    exact ⟨body, rest, hbody, hlength hbody⟩
  · rintro ⟨body, rest, hbody, rfl⟩
    exact ⟨_, (stringBody_iff hquote).mpr ⟨body, rest, hbody, rfl⟩, hlength hbody⟩

end Literals

/-! ### First characters -/

theorem startsLexeme_of_isStringLetter {c : Char} (h : isStringLetter c = true) :
    Scanner.StartsLexeme c := by
  simp only [isStringLetter, isLetterOf, Bool.or_eq_true, beq_iff_eq] at h
  rcases h with (((rfl | rfl) | (rfl | rfl)) | (rfl | rfl)) | (rfl | rfl) <;>
    exact ⟨by decide, by decide, by decide, by decide⟩

theorem startsLexeme_of_quotesAt? {c : Char} {tail : List Char} {n : Nat} {o : Opener}
    (h : quotesAt? n (c :: tail) = some o) : Scanner.StartsLexeme c := by
  rw [quotesAt?] at h
  split at h
  · next hq =>
    rcases (by simpa using hq : c = '\'' ∨ c = '"') with rfl | rfl <;>
      exact ⟨by decide, by decide, by decide, by decide⟩
  · cases h

/-- A string opens with a letter of its prefix or with a quote. -/
theorem startsLexeme_of_opener? {c : Char} {tail : List Char} {o : Opener}
    (h : opener? (c :: tail) = some o) : Scanner.StartsLexeme c := by
  cases tail with
  | nil => exact startsLexeme_of_quotesAt? h
  | cons d rest =>
    rw [opener?] at h
    split at h
    · next hpair =>
      refine startsLexeme_of_isStringLetter ?_
      simp only [isStringLetterPair, Bool.or_eq_true, Bool.and_eq_true] at hpair
      rcases hpair with ⟨hr, -⟩ | ⟨-, hb | hf⟩
      · simp [isStringLetter, hr]
      · simp [isStringLetter, hb]
      · simp [isStringLetter, hf]
    · split at h
      · next hletter => exact startsLexeme_of_isStringLetter hletter
      · exact startsLexeme_of_quotesAt? h

end Lexeme

namespace Position

/-! ### Later places -/

/-- The place `q` is not before `p`. -/
def UpTo (p q : Position) : Prop :=
  p.line < q.line ∨ p.line = q.line ∧ p.column ≤ q.column

theorem UpTo.refl (p : Position) : UpTo p p :=
  .inr ⟨rfl, Nat.le_refl _⟩

theorem UpTo.trans {p q r : Position} (h : UpTo p q) (h' : UpTo q r) : UpTo p r := by
  unfold UpTo at *
  omega

theorem upTo_pastChar (p : Position) (c : Char) : UpTo p (p.pastChar c) := by
  unfold UpTo pastChar
  split
  · exact .inl (Nat.lt_succ_self _)
  · exact .inr ⟨rfl, Nat.le_succ _⟩

theorem upTo_past (p : Position) (text : List Char) : UpTo p (p.past text) := by
  induction text generalizing p with
  | nil => exact .refl p
  | cons c text ih => exact (p.upTo_pastChar c).trans (ih _)

theorem upTo_nextLine (p : Position) : UpTo p p.nextLine :=
  .inl (Nat.lt_succ_self _)

/-- Behind a text that is not empty the place is another one. -/
theorem not_upTo_of_past (p : Position) {text : List Char} (h : text ≠ []) :
    ¬ UpTo (p.past text) p := by
  cases text with
  | nil => exact absurd rfl h
  | cons c text =>
    have hrest := (p.pastChar c).upTo_past text
    intro hback
    have hchar : UpTo (p.pastChar c) p := hrest.trans hback
    unfold UpTo pastChar at hchar
    split at hchar
    · exact absurd hchar (by simp)
    · exact absurd hchar (by simp)

end Position

namespace Scanner

open Lexeme

/-! ### States of a run -/

/-- The machine gets from one state to another and emits the tokens on its way. -/
inductive Reaches : Scanner → List Token → Scanner → Prop
  | refl (s : Scanner) : Reaches s [] s
  | step {s t u : Scanner} {tokens more : List Token} (hstep : s.step = .ok (.emit tokens t))
      (hreaches : Reaches t more u) : Reaches s (tokens ++ more) u

theorem run_of_reaches {s t : Scanner} {tokens : List Token} (h : Reaches s tokens t)
    (emitted : List Token) : s.run emitted = t.run (tokens.reverse ++ emitted) := by
  induction h generalizing emitted with
  | refl s => rfl
  | step hstep _ ih => rw [run_of_emit hstep, ih, List.reverse_append, List.append_assoc]

/-- What is left is the back of the text. -/
theorem Reaches.rest {s t : Scanner} {tokens : List Token} (h : Reaches s tokens t) :
    ∃ before, s.rest = before ++ t.rest := by
  induction h with
  | refl s => exact ⟨[], rfl⟩
  | step hstep _ ih =>
    obtain ⟨text, hrest, -⟩ := spells_of_move (move_of_step hstep)
    obtain ⟨before, hbefore⟩ := ih
    exact ⟨text ++ before, by rw [hrest, hbefore, List.append_assoc]⟩

/-- What is emitted stays. -/
theorem emitted_of_run {s : Scanner} {emitted all : List Token} (h : s.run emitted = .ok all) :
    emitted.reverse <+: all := by
  obtain ⟨tokens, t, last, -, -, hall⟩ := scans_of_run h
  rw [hall, List.append_assoc]
  exact List.prefix_append _ _

/-- **A step does not go back.** -/
theorem upTo_of_move {s t : Scanner} {tokens : List Token} (h : Move s tokens t) :
    s.position.UpTo t.position := by
  have hblanks : s.position.UpTo s.pastBlanks.position := s.position.upTo_past s.blanks
  have hbreak : ∀ (u : Scanner) (kind : TokenKind),
      u.position.UpTo (u.takeBreak kind).2.position := by
    intro u kind
    show u.position.UpTo (if Lexeme.lineBreak u.rest = 0 then u.position else u.position.nextLine)
    split
    · exact .refl _
    · exact u.position.upTo_nextLine
  cases h with
  | blankLine => exact hblanks.trans (hbreak s.pastBlanks .blankLine)
  | commentLine =>
    have hcomment : s.pastBlanks.position.UpTo s.pastBlanks.takeComment.2.position :=
      s.pastBlanks.position.upTo_past _
    exact (hblanks.trans hcomment).trans (hbreak s.pastBlanks.takeComment.2 .blankLine)
  | openBlock => exact hblanks
  | closeBlocks => exact hblanks
  | skip => exact s.position.upTo_pastChar _
  | join => exact s.position.upTo_nextLine
  | lineBreak => exact hbreak s _
  | comment => exact s.position.upTo_past _
  | word => exact s.position.upTo_past _
  | operator => exact s.position.upTo_past _

theorem upTo_of_failsAt {s t : Scanner} {e : LexError} (h : FailsAt s t e) :
    s.position.UpTo t.position ∧ t.step = .error e := by
  induction h with
  | here hstep => exact ⟨.refl _, hstep⟩
  | later hstep _ ih => exact ⟨(upTo_of_move (move_of_step hstep)).trans ih.1, ih.2⟩

theorem inLine_of_startsLexeme {s : Scanner} {c : Char} {tail : List Char}
    (hrest : s.rest = c :: tail) (hc : StartsLexeme c) : s.inLine = s.lexeme c := by
  have hjoin : ¬ 0 < continuation s.rest := by
    rw [hrest, continuation_of_ne hc.not_backslash]
    exact Nat.lt_irrefl 0
  rw [inLine_of_not_break hrest hc.not_break, hc.not_blank, if_neg Bool.false_ne_true,
    if_neg hjoin, if_neg (by simpa using hc.not_comment)]

/-- Where a string opens, the machine takes the literal or fails. -/
theorem step_of_opener? {s : Scanner} {o : Lexeme.Opener} (hfresh : s.fresh = false)
    (h : Lexeme.opener? s.rest = some o) :
    s.step = match Lexeme.stringLiteral o s.rest with
      | some n => .ok (.emit [(s.take .string n).1] (s.take .string n).2)
      | none => .error (.unterminatedString s.position) := by
  cases hrest : s.rest with
  | nil => rw [hrest] at h; cases h
  | cons c tail =>
    have hc := Lexeme.startsLexeme_of_opener? (hrest ▸ h)
    have hstep : s.step = s.lexeme c := by
      rw [step, hfresh, if_neg Bool.false_ne_true, inLine_of_startsLexeme hrest hc]
    rw [hstep, ← hrest]
    cases hn : Lexeme.stringLiteral o s.rest with
    | none => simp only [lexeme, h, hn]
    | some n => simp only [lexeme, h, hn]

/-! ### The step at an opener -/

variable {s : Scanner} {letters delimiter tail rest : List Char} {body : List (List Char)}

/-- The token of a literal that starts here. -/
def literalToken (s : Scanner) (text : List Char) : Token :=
  ⟨.string, String.ofList text, s.position⟩

/-- The machine behind a literal, with `rest` before it. -/
def pastLiteral (s : Scanner) (text rest : List Char) : Scanner :=
  { s with rest := rest, position := s.position.past text }

theorem step_of_isBody (hfresh : s.fresh = false) (hopens : Opens s.rest letters delimiter tail)
    (hbody : IsBody delimiter tail body rest) :
    s.step = .ok (.emit [s.literalToken (literal letters delimiter body)]
      (s.pastLiteral (literal letters delimiter body) rest)) := by
  obtain ⟨o, hopener, hletters, hdelimiter⟩ := Lexeme.opener?_of_opens hopens
  have hliteral :=
    (hopens.stringLiteral_iff hopener hletters hdelimiter).mpr ⟨body, rest, hbody, rfl⟩
  rw [step_of_opener? hfresh hopener, hliteral]
  dsimp only
  rw [take, hopens.text_eq hbody, List.take_left, List.drop_left]
  rfl

theorem step_of_not_isBody (hfresh : s.fresh = false)
    (hopens : Opens s.rest letters delimiter tail)
    (hbody : ¬ ∃ body rest, IsBody delimiter tail body rest) :
    s.step = .error (.unterminatedString s.position) := by
  obtain ⟨o, hopener, hletters, hdelimiter⟩ := Lexeme.opener?_of_opens hopens
  have hliteral : Lexeme.stringLiteral o s.rest = none := by
    rw [Option.eq_none_iff_forall_not_mem]
    intro n hn
    obtain ⟨body, rest, h, -⟩ := (hopens.stringLiteral_iff hopener hletters hdelimiter).mp hn
    exact hbody ⟨body, rest, h⟩
  rw [step_of_opener? hfresh hopener, hliteral]

theorem literal_ne_nil (hopens : Opens s.rest letters delimiter tail) :
    literal letters delimiter body ≠ [] := by
  obtain ⟨q, -, rfl | ⟨rfl, -⟩⟩ := hopens.delimiter <;> simp [literal]

/-- What fails behind a literal fails at another place. -/
theorem run_pastLiteral_ne {text : List Char} (htext : text ≠ []) (emitted : List Token) :
    (s.pastLiteral text rest).run emitted ≠ .error (.unterminatedString s.position) := by
  intro hrun
  obtain ⟨t, hfails⟩ := failsAt_of_run hrun
  obtain ⟨hupTo, hstep⟩ := upTo_of_failsAt hfails
  have hposition : t.position = s.position := by
    generalize he : LexError.unterminatedString s.position = e at hstep
    cases stuck_of_step hstep with
    | string => exact (LexError.unterminatedString.inj he).symm
    | line => cases he
    | character => cases he
  rw [hposition] at hupTo
  exact s.position.not_upTo_of_past htext hupTo

end Scanner

open Lexeme in
/-- **String literals are scanned exactly.** Where a run comes to an opener, the literal that starts
there is its next token; the text has no tokens, because of a string that does not end, exactly if
there is no such literal. Looking for its end in the bytes of the source gives the same end. -/
theorem tokenize_stringLiteral (source : String) {emitted : List Token} {s : Scanner}
    (hreaches : Scanner.Reaches (.start source.toList) emitted s) (hfresh : s.fresh = false)
    {letters delimiter tail : List Char} (hopens : Opens s.rest letters delimiter tail) :
    (∀ body rest, IsBody delimiter tail body rest →
      s.step = .ok (.emit [s.literalToken (literal letters delimiter body)]
          (s.pastLiteral (literal letters delimiter body) rest))
        ∧ ∀ tokens, tokenize source = .ok tokens →
          emitted ++ [s.literalToken (literal letters delimiter body)] <+: tokens)
    ∧ (tokenize source = .error (.unterminatedString s.position) ↔
        ¬ ∃ body rest, IsBody delimiter tail body rest)
    ∧ ∃ before, source.toList = before ++ s.rest
      ∧ ∀ j, Lexeme.closingByte source.toUTF8.data.toList (utf8 delimiter)
            (utf8 (before ++ letters ++ delimiter)).length = some j
          ↔ ∃ body rest, IsBody delimiter tail body rest
            ∧ j = (utf8 (before ++ literal letters delimiter body)).length := by
  have hrun : tokenize source = s.run emitted.reverse := by
    rw [tokenize, Scanner.run_of_reaches hreaches, List.append_nil]
  refine ⟨?_, ?_, ?_⟩
  · intro body rest hbody
    have hstep := Scanner.step_of_isBody hfresh hopens hbody
    refine ⟨hstep, fun tokens htokens => ?_⟩
    rw [hrun, Scanner.run_of_emit hstep] at htokens
    simpa using Scanner.emitted_of_run htokens
  · constructor
    · rintro herror ⟨body, rest, hbody⟩
      rw [hrun, Scanner.run_of_emit (Scanner.step_of_isBody hfresh hopens hbody)] at herror
      exact Scanner.run_pastLiteral_ne (Scanner.literal_ne_nil hopens) _ herror
    · intro hbody
      rw [hrun]
      exact Scanner.run_of_error (Scanner.step_of_not_isBody hfresh hopens hbody) _
  · obtain ⟨before, hbefore⟩ := hreaches.rest
    have hsource : source.toList = before ++ s.rest := hbefore
    refine ⟨before, hsource, fun j => ?_⟩
    rw [utf8_toList, hsource]
    exact hopens.closingByte_iff j

open Lexeme in
/-- Two literals: one with an escaped `é` and an escaped line break, which ends behind byte 11, and
one that ends with the text, by a backslash. -/
theorem stringLiteral_escapes :
    (∃ emitted s next,
      Scanner.Reaches (.start "rB'\\é\\\r\n\"'+'''\\".toList) emitted s
      ∧ s.step = .ok (.emit [⟨.string, "rB'\\é\\\r\n\"'", ⟨1, 0⟩⟩] next)
      ∧ Lexeme.closingByte "rB'\\é\\\r\n\"'+'''\\".toUTF8.data.toList [0x27] 3 = some 11)
    ∧ tokenize "rB'\\é\\\r\n\"'+'''\\" = .error (.unterminatedString ⟨2, 3⟩) := by
  have hbody : IsBody ['\''] "\\é\\\r\n\"'+'''\\".toList
      [['\\', 'é'], ['\\', '\r', '\n'], ['"']] "+'''\\".toList :=
    (((IsBody.nil _ _).cons ['"'] (by decide) (by decide) (by decide)).cons ['\\', '\r', '\n']
      (by decide) (by decide) (by decide)).cons ['\\', 'é'] (by decide) (by decide) (by decide)
  constructor
  · have hreaches : ∃ emitted s,
        Scanner.Reaches (.start "rB'\\é\\\r\n\"'+'''\\".toList) emitted s
          ∧ s.fresh = false ∧ s.position = ⟨1, 0⟩ ∧ s.rest = "rB'\\é\\\r\n\"'+'''\\".toList :=
      ⟨_, _, .step rfl (.refl _), rfl, rfl, rfl⟩
    obtain ⟨emitted, s, hreaches, hfresh, hposition, hrest⟩ := hreaches
    have hopens : Opens s.rest ['r', 'B'] ['\''] "\\é\\\r\n\"'+'''\\".toList :=
      ⟨hrest, by decide, '\'', .inl rfl, .inr ⟨rfl, by decide⟩⟩
    obtain ⟨hstep, -, before, hsource, hbyte⟩ :=
      tokenize_stringLiteral _ hreaches hfresh hopens
    have hbefore : before = [] := by
      rw [hrest] at hsource
      exact List.append_left_eq_self.mp hsource.symm
    have hliteral := (hstep _ _ hbody).1
    rw [Scanner.literalToken, hposition] at hliteral
    subst hbefore
    exact ⟨emitted, s, _, hreaches, hliteral, (hbyte 11).mpr ⟨_, _, hbody, by decide⟩⟩
  · have hreaches : ∃ emitted s,
        Scanner.Reaches (.start "rB'\\é\\\r\n\"'+'''\\".toList) emitted s
          ∧ s.fresh = false ∧ s.position = ⟨2, 3⟩ ∧ s.rest = "'''\\".toList :=
      ⟨_, _, .step rfl (.step rfl (.step rfl (.refl _))), rfl, rfl, rfl⟩
    obtain ⟨emitted, s, hreaches, hfresh, hposition, hrest⟩ := hreaches
    have hopens : Opens s.rest [] ['\'', '\'', '\''] ['\\'] :=
      ⟨hrest, by decide, '\'', .inl rfl, .inl rfl⟩
    rw [← hposition]
    refine (tokenize_stringLiteral _ hreaches hfresh hopens).2.1.mpr ?_
    rintro ⟨body, rest, hnone⟩
    have hlength := congrArg List.length hnone.text_eq
    simp at hlength
    omega

end PyStyle
