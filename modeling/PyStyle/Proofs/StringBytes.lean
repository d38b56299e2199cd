import PyStyle.Proofs.LineEndings

/-!
# String literals read byte by byte

The end of a string literal can be found in the UTF-8 bytes of the text without decoding them. The
search jumps over a backslash and the one byte behind it, which may leave it in the middle of a
character or behind the end of the text, and it still ends where reading characters ends.

- `Text.utf8` — the bytes of a text;
- `Text.isPrefixOf_utf8` — ASCII text stands in front of the bytes iff it stands in front of the
  text;
- `Lexeme.closingByte` — the search over bytes;
- `Lexeme.closingByte_high` — the bytes of a character that is not ASCII are walked over one by one;
- `Lexeme.closingByte_eq` — the search over bytes ends where `Lexeme.stringBody` ends.
-/

namespace PyStyle

namespace Text

/-! ### Bytes of a text -/

/-- The text in UTF-8. -/
def utf8 (cs : List Char) : List UInt8 :=
  cs.flatMap String.utf8EncodeChar

@[simp] theorem utf8_nil : utf8 [] = [] := rfl

@[simp] theorem utf8_cons (c : Char) (rest : List Char) :
    utf8 (c :: rest) = String.utf8EncodeChar c ++ utf8 rest := rfl

theorem utf8_append (front back : List Char) : utf8 (front ++ back) = utf8 front ++ utf8 back :=
  List.flatMap_append

/-- The bytes of a string are those of its characters one after the other. -/
theorem utf8_toList (source : String) : source.toUTF8.data.toList = utf8 source.toList := by
  have h : source.toByteArray = source.toList.utf8Encode := by
    rw [← String.toByteArray_ofList, String.ofList_toList]
  rw [String.toUTF8_eq_toByteArray, h, List.utf8Encode, List.toList_data_toByteArray]
  rfl

/-- An ASCII character: the characters that the search looks for are of this kind. -/
def Ascii (c : Char) : Prop :=
  c.toNat ≤ 127

instance (c : Char) : Decidable (Ascii c) :=
  inferInstanceAs (Decidable (c.toNat ≤ 127))

/-- An ASCII character is one byte, its own number. -/
theorem utf8EncodeChar_of_ascii {c : Char} (h : Ascii c) :
    String.utf8EncodeChar c = [UInt8.ofNat c.toNat] :=
  if_pos h

theorem utf8_cons_of_ascii {c : Char} (h : Ascii c) (rest : List Char) :
    utf8 (c :: rest) = UInt8.ofNat c.toNat :: utf8 rest := by
  rw [utf8_cons, utf8EncodeChar_of_ascii h, List.singleton_append]

/-- Neither the first byte of a character that is not ASCII nor one of those that continue it is an
ASCII byte. -/
theorem le_of_mem_utf8EncodeChar {c : Char} (h : ¬ Ascii c) {b : UInt8}
    (hb : b ∈ String.utf8EncodeChar c) : 128 ≤ b.toNat := by
  have hv : ¬ c.val.toNat ≤ 127 := h
  unfold String.utf8EncodeChar at hb
  simp only [if_neg hv] at hb
  split at hb
  · simp only [List.mem_cons, List.not_mem_nil, or_false] at hb
    rcases hb with rfl | rfl <;> (rw [UInt8.toNat_ofNat']; omega)
  · split at hb
    · simp only [List.mem_cons, List.not_mem_nil, or_false] at hb
      rcases hb with rfl | rfl | rfl <;> (rw [UInt8.toNat_ofNat']; omega)
    · simp only [List.mem_cons, List.not_mem_nil, or_false] at hb
      rcases hb with rfl | rfl | rfl | rfl <;> (rw [UInt8.toNat_ofNat']; omega)

theorem utf8EncodeChar_ne_nil (c : Char) : String.utf8EncodeChar c ≠ [] := by
  unfold String.utf8EncodeChar
  dsimp only
  split
  · exact List.cons_ne_nil _ _
  · split
    · exact List.cons_ne_nil _ _
    · split <;> exact List.cons_ne_nil _ _

/-- The number of an ASCII character fits in a byte. -/
theorem toNat_ofNat_ascii {c : Char} (h : Ascii c) : (UInt8.ofNat c.toNat).toNat = c.toNat := by
  have hc : c.toNat ≤ 127 := h
  rw [UInt8.toNat_ofNat']
  omega

theorem ofNat_ascii_inj {c d : Char} (hc : Ascii c) (hd : Ascii d) :
    UInt8.ofNat c.toNat = UInt8.ofNat d.toNat ↔ c = d := by
  constructor
  · intro h
    have hnat := congrArg UInt8.toNat h
    rw [toNat_ofNat_ascii hc, toNat_ofNat_ascii hd] at hnat
    exact Char.toNat_inj.mp hnat
  · rintro rfl
    rfl

/-- **ASCII text is found in the bytes where it is found in the text.** -/
theorem isPrefixOf_utf8 {front : List Char} (h : ∀ c ∈ front, Ascii c) (cs : List Char) :
    (utf8 front).isPrefixOf (utf8 cs) = front.isPrefixOf cs := by
  induction front generalizing cs with
  | nil => rfl
  | cons a front ih =>
    obtain ⟨ha, hfront⟩ := List.forall_mem_cons.mp h
    rw [utf8_cons_of_ascii ha]
    cases cs with
    | nil => rfl
    | cons c cs =>
      by_cases hc : Ascii c
      · have hbeq : (UInt8.ofNat a.toNat == UInt8.ofNat c.toNat) = (a == c) := by
          rw [Bool.eq_iff_iff, beq_iff_eq, beq_iff_eq, ofNat_ascii_inj ha hc]
        rw [utf8_cons_of_ascii hc, List.isPrefixOf_cons_cons, List.isPrefixOf_cons_cons, hbeq,
          ih hfront cs]
      · obtain ⟨b, bs, hbytes⟩ := List.exists_cons_of_ne_nil (utf8EncodeChar_ne_nil c)
        have hb : 128 ≤ b.toNat := le_of_mem_utf8EncodeChar hc (by simp [hbytes])
        have hne : UInt8.ofNat a.toNat ≠ b := by
          rintro rfl
          rw [toNat_ofNat_ascii ha] at hb
          have ha' : a.toNat ≤ 127 := ha
          omega
        have hne' : a ≠ c := by
          rintro rfl
          exact hc ha
        rw [utf8_cons, hbytes, List.cons_append, List.isPrefixOf_cons_cons,
          List.isPrefixOf_cons_cons, beq_false_of_ne hne, beq_false_of_ne hne', Bool.false_and,
          Bool.false_and]

end Text

namespace Lexeme

open Text

/-! ### The search -/

/-- Behind which byte the string literal ends whose body starts with byte `i`. The search goes on
behind a backslash and one more byte, or two where these are a line break; a bare line break ends it
unless the delimiter has three quotes. -/
def closingByte (bytes delimiter : List UInt8) (i : Nat) : Option Nat :=
  match _h : bytes[i]? with
  | none => none
  | some b =>
    if b = 0x5c then
      if [0x0d, 0x0a].isPrefixOf (bytes.drop (i + 1)) then closingByte bytes delimiter (i + 3)
      else closingByte bytes delimiter (i + 2)
    else if (b = 0x0a ∨ b = 0x0d) ∧ delimiter.length ≠ 3 then none
    else if delimiter.head? = some b ∧ delimiter.isPrefixOf (bytes.drop i) then
      some (i + delimiter.length)
    else closingByte bytes delimiter (i + 1)
termination_by bytes.length - i
decreasing_by
  all_goals
    have hlt := (List.getElem?_eq_some_iff.mp _h).1
    omega

section Search

variable {bytes delimiter : List UInt8} {i : Nat}

/-- Behind the end of the text nothing is found. The search may jump there over a last backslash. -/
theorem closingByte_nil (h : bytes.drop i = []) : closingByte bytes delimiter i = none := by
  have hget : bytes[i]? = none := by rw [← List.head?_drop, h, List.head?_nil]
  rw [closingByte]
  split
  · rfl
  · next hsome => simp [hget] at hsome

/-- One step of the search, with the bytes from `i` on as a list. -/
theorem closingByte_cons {b : UInt8} {rest : List UInt8} (h : bytes.drop i = b :: rest) :
    closingByte bytes delimiter i
      = if b = 0x5c then
          if [0x0d, 0x0a].isPrefixOf rest then closingByte bytes delimiter (i + 3)
          else closingByte bytes delimiter (i + 2)
        else if (b = 0x0a ∨ b = 0x0d) ∧ delimiter.length ≠ 3 then none
        else if delimiter.head? = some b ∧ delimiter.isPrefixOf (b :: rest) then
          some (i + delimiter.length)
        else closingByte bytes delimiter (i + 1) := by
  have hget : bytes[i]? = some b := by rw [← List.head?_drop, h, List.head?_cons]
  have hdrop : bytes.drop (i + 1) = rest := by rw [← List.tail_drop, h, List.tail_cons]
  rw [closingByte]
  split
  · next hnone => simp [hget] at hnone
  · next b' hsome =>
    obtain rfl : b = b' := by simpa [hget] using hsome
    rw [h, hdrop]

/-- Bytes that are not ASCII are walked over. -/
theorem closingByte_high (hdelimiter : ∀ b ∈ delimiter, b.toNat ≤ 127) {high rest : List UInt8}
    (hhigh : ∀ b ∈ high, 128 ≤ b.toNat) (h : bytes.drop i = high ++ rest) :
    closingByte bytes delimiter i = closingByte bytes delimiter (i + high.length) := by
  induction high generalizing i with
  | nil => rfl
  | cons b high ih =>
    obtain ⟨hb, hhigh⟩ := List.forall_mem_cons.mp hhigh
    have hne : ∀ a : UInt8, a.toNat ≤ 127 → b ≠ a := by
      rintro a ha rfl
      omega
    have hhead : delimiter.head? ≠ some b := by
      intro hhead
      exact hne b (hdelimiter b (List.mem_of_head? hhead)) rfl
    have hnext : bytes.drop (i + 1) = high ++ rest := by
      rw [← List.tail_drop, h]
      rfl
    rw [List.cons_append] at h
    rw [closingByte_cons h, if_neg (hne _ (by decide)), if_neg,
      if_neg (fun hclose => hhead hclose.1), ih hhigh hnext, List.length_cons]
    · congr 1
      omega
    · rintro ⟨hbreak | hbreak, -⟩
      · exact hne _ (by decide) hbreak
      · exact hne _ (by decide) hbreak

end Search

/-! ### Bytes and characters -/

/-- The quotes that close the literal. -/
def Opener.delimiter (o : Opener) : List Char :=
  List.replicate o.quotes o.quote

section Characters

variable {o : Opener} {bytes : List UInt8} {i : Nat}

/-- The delimiter has as many bytes as quotes. -/
theorem utf8_delimiter (hquote : Ascii o.quote) :
    utf8 o.delimiter = List.replicate o.quotes (UInt8.ofNat o.quote.toNat) := by
  rw [Opener.delimiter, utf8, List.flatMap_replicate, utf8EncodeChar_of_ascii hquote]
  simp

theorem quotes_pos (o : Opener) : 0 < o.quotes := by
  unfold Opener.quotes
  split <;> decide

/-- The closing quotes start with the quote. -/
theorem quote_of_closes {c : Char} {rest : List Char} (h : closes o (c :: rest) = true) :
    o.quote = c := by
  obtain ⟨n, hn⟩ := Nat.exists_eq_add_one.mpr (quotes_pos o)
  rw [closes, hn, List.replicate_succ, List.isPrefixOf_cons_cons, Bool.and_eq_true] at h
  exact beq_iff_eq.mp h.1

/-- Where a literal is closed, the delimiter stands. -/
theorem take_of_closes {cs : List Char} (h : closes o cs = true) :
    cs.take o.quotes = o.delimiter := by
  have hpre := List.prefix_iff_eq_take.mp (List.isPrefixOf_iff_prefix.mp h)
  rw [List.length_replicate] at hpre
  exact hpre.symm

theorem head?_delimiter (hquote : Ascii o.quote) :
    (utf8 o.delimiter).head? = some (UInt8.ofNat o.quote.toNat) := by
  rw [utf8_delimiter hquote, List.head?_replicate, if_neg (quotes_pos o).ne']

theorem le_of_mem_delimiter (hquote : Ascii o.quote) :
    ∀ b ∈ utf8 o.delimiter, b.toNat ≤ 127 := by
  intro b hb
  rw [utf8_delimiter hquote] at hb
  rw [List.eq_of_mem_replicate hb, toNat_ofNat_ascii hquote]
  exact hquote

/-- The delimiter is found in the bytes where quotes close the literal. -/
theorem isPrefixOf_delimiter (hquote : Ascii o.quote) (cs : List Char) :
    (utf8 o.delimiter).isPrefixOf (utf8 cs) = closes o cs := by
  refine isPrefixOf_utf8 (fun c hc => ?_) cs
  rwa [List.eq_of_mem_replicate hc]

theorem drop_add_length {front rest : List UInt8} (h : bytes.drop i = front ++ rest) :
    bytes.drop (i + front.length) = rest := by
  rw [← List.drop_drop, h, List.drop_left]

/-- A backslash: what is jumped over with it is said in characters here. -/
theorem closingByte_backslash {delimiter : List UInt8} {rest : List Char}
    (h : bytes.drop i = utf8 ('\\' :: rest)) :
    closingByte bytes delimiter i
      = if ['\r', '\n'].isPrefixOf rest then closingByte bytes delimiter (i + 3)
        else closingByte bytes delimiter (i + 2) := by
  have hbreak : (utf8 ['\r', '\n']).isPrefixOf (utf8 rest) = ['\r', '\n'].isPrefixOf rest := by
    refine isPrefixOf_utf8 (fun c hc => ?_) rest
    simp only [List.mem_cons, List.not_mem_nil, or_false] at hc
    rcases hc with rfl | rfl <;> decide
  rw [utf8_cons_of_ascii (by decide)] at h
  rw [closingByte_cons h, if_pos (by decide), ← hbreak]
  rfl

/-- Any other ASCII character: the search does what reading characters does. -/
theorem closingByte_ascii (hquote : Ascii o.quote) {c : Char} {rest : List Char} (hc : Ascii c)
    (hplain : c ≠ '\\') (h : bytes.drop i = utf8 (c :: rest)) :
    closingByte bytes (utf8 o.delimiter) i
      = if (c == '\n' || c == '\r') && !o.triple then none
        else if closes o (c :: rest) then some (i + o.quotes)
        else closingByte bytes (utf8 o.delimiter) (i + 1) := by
  have hlength : (utf8 o.delimiter).length = o.quotes := by
    rw [utf8_delimiter hquote, List.length_replicate]
  have hbyte : ∀ d : Char, Ascii d → (UInt8.ofNat c.toNat = UInt8.ofNat d.toNat ↔ c = d) :=
    fun d hd => ofNat_ascii_inj hc hd
  have hstop : (UInt8.ofNat c.toNat = 0x0a ∨ UInt8.ofNat c.toNat = 0x0d) ∧ o.quotes ≠ 3
      ↔ ((c == '\n' || c == '\r') && !o.triple) = true := by
    have hn := hbyte '\n' (by decide)
    have hr := hbyte '\r' (by decide)
    have hquotes : o.quotes ≠ 3 ↔ o.triple = false := by
      unfold Opener.quotes
      cases o.triple <;> decide
    simp only [Bool.and_eq_true, Bool.or_eq_true, beq_iff_eq, Bool.not_eq_true', hquotes, ← hn,
      ← hr]
    rfl
  have hcloses : (utf8 o.delimiter).head? = some (UInt8.ofNat c.toNat)
        ∧ (utf8 o.delimiter).isPrefixOf (utf8 (c :: rest)) = true
      ↔ closes o (c :: rest) = true := by
    rw [isPrefixOf_delimiter hquote]
    refine ⟨And.right, fun hcloses => ⟨?_, hcloses⟩⟩
    rw [head?_delimiter hquote, quote_of_closes hcloses]
  have hbackslash : UInt8.ofNat c.toNat ≠ 0x5c := fun hc' =>
    hplain ((hbyte '\\' (by decide)).mp hc')
  have hcons := utf8_cons_of_ascii hc rest
  rw [closingByte_cons (h.trans hcons), if_neg hbackslash, ← hcons, hlength]
  simp only [hstop, hcloses]

/-- A character that is not ASCII is walked over, byte by byte. -/
theorem closingByte_wide (hquote : Ascii o.quote) {c : Char} {rest : List Char} (hc : ¬ Ascii c)
    (h : bytes.drop i = utf8 (c :: rest)) :
    closingByte bytes (utf8 o.delimiter) i
      = closingByte bytes (utf8 o.delimiter) (i + (String.utf8EncodeChar c).length) :=
  closingByte_high (le_of_mem_delimiter hquote) (fun _ hb => le_of_mem_utf8EncodeChar hc hb) h

/-- An item of the body that the search gets behind, as reading characters does, moves the end of
the literal by its own length. -/
theorem closingByte_past {delimiter : List UInt8} (item : List Char) {rest : List Char}
    {body : Option Nat} (h : bytes.drop i = utf8 (item ++ rest))
    (hitem : closingByte bytes delimiter i
      = closingByte bytes delimiter (i + (utf8 item).length))
    (hrest : ∀ {j}, bytes.drop j = utf8 rest →
      closingByte bytes delimiter j = body.map fun n => j + (utf8 (rest.take n)).length) :
    closingByte bytes delimiter i
      = (body.map (· + item.length)).map fun n => i + (utf8 ((item ++ rest).take n)).length := by
  rw [utf8_append] at h
  rw [hitem, hrest (drop_add_length h), Option.map_map]
  congr 1
  funext n
  simp only [Function.comp_apply, Nat.add_comm n, List.take_length_add_append, utf8_append,
    List.length_append, Nat.add_assoc]

/-- **The search over bytes ends where reading characters ends**: behind the bytes of as many
characters as the rest of the literal has, or nowhere. -/
theorem closingByte_eq (hquote : Ascii o.quote) {cs : List Char} (h : bytes.drop i = utf8 cs) :
    closingByte bytes (utf8 o.delimiter) i
      = (stringBody o cs).map fun n => i + (utf8 (cs.take n)).length := by
  fun_induction stringBody o cs generalizing i with
  | case1 => exact closingByte_nil h
  | case2 rest ih =>
    refine closingByte_past ['\\', '\r', '\n'] h ?_ ih
    rw [closingByte_backslash h]
    rfl
  | case3 c rest hbreak ih =>
    refine closingByte_past ['\\', c] h ?_ ih
    have hnone : ¬ ['\r', '\n'].isPrefixOf (c :: rest) = true := by
      intro hpre
      obtain ⟨tail, htail⟩ := List.isPrefixOf_iff_prefix.mp hpre
      obtain ⟨hc, hrest⟩ := List.cons.inj htail
      exact hbreak tail hc.symm hrest.symm
    rw [closingByte_backslash h, if_neg hnone]
    by_cases hc : Ascii c
    · rw [utf8_cons_of_ascii (by decide), utf8_cons_of_ascii hc]
      rfl
    · -- The search stands behind the first byte of `c` and walks over the others.
      obtain ⟨b, bs, hbytes⟩ := List.exists_cons_of_ne_nil (utf8EncodeChar_ne_nil c)
      have hhigh : ∀ b' ∈ bs, 128 ≤ b'.toNat := fun b' hb' =>
        le_of_mem_utf8EncodeChar hc (by rw [hbytes]; exact List.mem_cons_of_mem b hb')
      have hnext : bytes.drop (i + 2) = bs ++ utf8 rest := by
        rw [utf8_cons_of_ascii (by decide), utf8_cons, hbytes] at h
        have hfront : bytes.drop i = [UInt8.ofNat '\\'.toNat, b] ++ (bs ++ utf8 rest) := h
        exact drop_add_length hfront
      rw [closingByte_high (le_of_mem_delimiter hquote) hhigh hnext,
        utf8_cons_of_ascii (by decide), utf8_cons, hbytes]
      congr 1
      simp
      omega
  | case4 =>
    -- The search jumps over the end of the text.
    have hlength : bytes.length - i = 1 := by
      rw [← List.length_drop, h]
      rfl
    have hend : bytes.drop (i + 2) = [] := List.drop_eq_nil_of_le (by omega)
    rw [closingByte_backslash h, if_neg (by decide), closingByte_nil hend]
    rfl
  | case5 c rest _ hmore hlast hends =>
    have hc : Ascii c := by
      rw [Bool.and_eq_true, Bool.or_eq_true, beq_iff_eq, beq_iff_eq] at hends
      rcases hends.1 with rfl | rfl <;> decide
    rw [closingByte_ascii hquote hc (ne_backslash hmore hlast) h, if_pos hends]
    rfl
  | case6 c rest _ hmore hlast hends hcloses =>
    have hc : Ascii c := quote_of_closes hcloses ▸ hquote
    rw [closingByte_ascii hquote hc (ne_backslash hmore hlast) h, if_neg hends, if_pos hcloses,
      Option.map_some, take_of_closes hcloses, utf8_delimiter hquote, List.length_replicate]
  | case7 c rest _ hmore hlast hends hcloses ih =>
    refine closingByte_past [c] h ?_ ih
    by_cases hc : Ascii c
    · rw [closingByte_ascii hquote hc (ne_backslash hmore hlast) h, if_neg hends, if_neg hcloses,
        utf8_cons_of_ascii hc]
      rfl
    · rw [closingByte_wide hquote hc h]
      simp

end Characters

end Lexeme

end PyStyle
