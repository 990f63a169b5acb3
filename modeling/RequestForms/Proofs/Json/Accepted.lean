import RequestForms.Proofs.Json.Cases
import RequestForms.Proofs.Json.Grammar

/-!
# What is read as JSON

Each reader takes what its rule of the grammar writes off the front of a text. So a document is a
text of the grammar in which the words for numbers are values, and stripping it of blanks leaves the
value.
-/

namespace RequestForms.Json

def acceptedWords : List (List Char) := standardWords ++ numberWords

/-! ## Numbers -/

/-- What is checked for the first characters holds of each of them. -/
theorem forall_of_toNat_lt {bound : Nat} {P : Char → Prop} (h : ∀ n < bound, P (Char.ofNat n))
    {c : Char} (hc : c.toNat < bound) : P c := by
  have hP := h c.toNat hc
  rwa [Char.ofNat_toNat] at hP

theorem mem_decimalDigits_of_isDigit {c : Char} (h : c.isDigit = true) : c ∈ decimalDigits := by
  have hall : ∀ n < 58, (Char.ofNat n).isDigit = true → Char.ofNat n ∈ decimalDigits := by decide
  have hhigh : c.toNat ≤ 57 := by
    simp only [Char.isDigit, Bool.and_eq_true, decide_eq_true_eq] at h
    exact h.2
  exact forall_of_toNat_lt (P := fun c => c.isDigit = true → c ∈ decimalDigits) hall (by omega) h

theorem isBlank_of_isDigit {c : Char} (h : c.isDigit = true) : Text.isBlank c = false := by
  have hdigits : ∀ c ∈ decimalDigits, Text.isBlank c = false := by decide
  exact hdigits c (mem_decimalDigits_of_isDigit h)

theorem isDigits_cons {c : Char} (h : c.isDigit = true) (rest : List Char) :
    IsDigits (c :: rest.takeWhile Char.isDigit) := by
  refine ⟨List.cons_ne_nil _ _, List.forall_mem_cons.2 ⟨mem_decimalDigits_of_isDigit h, ?_⟩⟩
  exact fun d hd =>
    mem_decimalDigits_of_isDigit ((List.all_eq_true.1 List.all_takeWhile) d hd)

theorem cons_takeWhile_append_dropWhile (c : Char) (rest : List Char) :
    c :: rest = c :: rest.takeWhile Char.isDigit ++ rest.dropWhile Char.isDigit := by
  rw [List.cons_append, List.takeWhile_append_dropWhile]

theorem isWhole_of_wholePart? {text digits rest : List Char}
    (h : wholePart? text = some (digits, rest)) : text = digits ++ rest ∧ IsWhole digits := by
  have hfirst : ∀ c ∈ decimalDigits, c ≠ '0' → c ∈ "123456789".toList := by decide
  unfold wholePart? at h
  split at h
  · obtain ⟨rfl, rfl⟩ := Prod.mk.inj (Option.some.inj h)
    exact ⟨rfl, .zero⟩
  · next c tail hzero =>
      split at h
      · next hc =>
          obtain ⟨rfl, rfl⟩ := Prod.mk.inj (Option.some.inj h)
          have hdigits := (isDigits_cons hc tail).2
          have hne : c ≠ '0' := fun he => hzero he
          exact ⟨cons_takeWhile_append_dropWhile c tail,
            .digits (hfirst c (hdigits c (by simp)) hne) fun d hd =>
              hdigits d (List.mem_cons_of_mem c hd)⟩
      · cases h
  · cases h

theorem exists_isFraction (text : List Char) :
    ∃ front, text = front ++ (fractionPart text).2 ∧ IsFraction front := by
  unfold fractionPart
  split
  · next c rest =>
      split
      · next hc =>
          exact ⟨'.' :: (c :: rest.takeWhile Char.isDigit),
            congrArg ('.' :: ·) (cons_takeWhile_append_dropWhile c rest),
            .digits (isDigits_cons hc rest)⟩
      · exact ⟨[], rfl, .none⟩
  · exact ⟨[], rfl, .none⟩

theorem exists_isDigits_of_exponentDigits? {negative : Bool} {text rest : List Char} {n : Int}
    (h : exponentDigits? negative text = some (n, rest)) :
    ∃ front, text = front ++ rest ∧ IsDigits front := by
  unfold exponentDigits? at h
  split at h
  · next c tail =>
      split at h
      · next hc =>
          obtain ⟨-, rfl⟩ := Prod.mk.inj (Option.some.inj h)
          exact ⟨_, cons_takeWhile_append_dropWhile c tail, isDigits_cons hc tail⟩
      · cases h
  · cases h

theorem exists_isExponent_of_exponentPart? {text rest : List Char} {n : Int}
    (h : exponentPart? text = some (n, rest)) :
    ∃ front, text = front ++ rest ∧ IsExponent front := by
  unfold exponentPart? at h
  split at h
  · next e tail =>
      split at h
      · next he =>
          have hletter : e ∈ ['e', 'E'] := by simpa using he
          split at h
          · obtain ⟨digits, rfl, hdigits⟩ := exists_isDigits_of_exponentDigits? h
            exact ⟨e :: ['-'] ++ digits, rfl, .digits hletter (by simp) hdigits⟩
          · obtain ⟨digits, rfl, hdigits⟩ := exists_isDigits_of_exponentDigits? h
            exact ⟨e :: ['+'] ++ digits, rfl, .digits hletter (by simp) hdigits⟩
          · obtain ⟨digits, rfl, hdigits⟩ := exists_isDigits_of_exponentDigits? h
            exact ⟨e :: [] ++ digits, rfl, .digits hletter (by simp) hdigits⟩
      · cases h
  · cases h

theorem exists_isNumber_of_unsignedNumeral? {sign : List Char} (hsign : sign ∈ [[], ['-']])
    {negative : Bool} {text rest : List Char} {n : Numeral}
    (h : unsignedNumeral? negative text = some (n, rest)) :
    ∃ front, sign ++ text = front ++ rest ∧ IsNumber front := by
  unfold unsignedNumeral? at h
  split at h
  · cases h
  · next whole behind hwhole =>
      obtain ⟨rfl, hw⟩ := isWhole_of_wholePart? hwhole
      obtain ⟨fraction, hfraction, hf⟩ := exists_isFraction behind
      simp only at h
      split at h
      · obtain ⟨-, rfl⟩ := Prod.mk.inj (Option.some.inj h)
        refine ⟨sign ++ whole ++ fraction ++ [], ?_, .mk hsign hw hf .none⟩
        simp only [List.append_nil, List.append_assoc, ← hfraction]
      · next value tail hexponent =>
          obtain ⟨-, rfl⟩ := Prod.mk.inj (Option.some.inj h)
          obtain ⟨exponent, htail, he⟩ := exists_isExponent_of_exponentPart? hexponent
          refine ⟨sign ++ whole ++ fraction ++ exponent, ?_, .mk hsign hw hf he⟩
          simp only [List.append_assoc, ← htail, ← hfraction]

theorem exists_isNumber_of_numeral? {text rest : List Char} {n : Numeral}
    (h : numeral? text = some (n, rest)) : ∃ front, text = front ++ rest ∧ IsNumber front := by
  unfold numeral? at h
  split at h
  · exact exists_isNumber_of_unsignedNumeral? (show ['-'] ∈ _ by simp) h
  · exact exists_isNumber_of_unsignedNumeral? (show [] ∈ _ by simp) h

/-! ## Strings -/

theorem mem_hexDigits_of_hexValue? {c : Char} {n : Nat} (h : hexValue? c = some n) :
    c ∈ hexDigits := by
  have hall : ∀ n < 103, hexValue? (Char.ofNat n) ≠ none → Char.ofNat n ∈ hexDigits := by decide
  have hlt : c.toNat < 103 := by
    unfold hexValue? at h
    split at h
    · next hc => exact Nat.lt_of_le_of_lt hc.2 (by decide)
    split at h
    · next hc => exact Nat.lt_of_le_of_lt hc.2 (by decide)
    split at h
    · next hc => exact Nat.lt_of_le_of_lt hc.2 (by decide)
    · cases h
  exact forall_of_toNat_lt (P := fun c => hexValue? c ≠ none → c ∈ hexDigits) hall hlt (by simp [h])

theorem exists_digits_of_hexUnit? {text rest : List Char} {unit : Nat}
    (h : hexUnit? text = some (unit, rest)) :
    ∃ digits, text = digits ++ rest ∧ digits.length = 4 ∧ ∀ c ∈ digits, c ∈ hexDigits := by
  unfold hexUnit? at h
  split at h
  · next a b c d e tail =>
      split at h
      · next ha hb hc hd =>
          obtain ⟨-, rfl⟩ := Prod.mk.inj (Option.some.inj h)
          refine ⟨[a, b, c, d], rfl, rfl, ?_⟩
          simp only [List.forall_mem_cons]
          exact ⟨mem_hexDigits_of_hexValue? ha, mem_hexDigits_of_hexValue? hb,
            mem_hexDigits_of_hexValue? hc, mem_hexDigits_of_hexValue? hd, by simp⟩
      · cases h
  · cases h

def StartsInside (front : List Char) : Prop := ∀ s, IsInside s → IsInside (front ++ s)

theorem startsInside_unicode {digits : List Char} (hlength : digits.length = 4)
    (hdigits : ∀ c ∈ digits, c ∈ hexDigits) : StartsInside ('\\' :: 'u' :: digits) :=
  fun _ hs => .unicode hlength hdigits hs

theorem exists_startsInside_characterOf (unit : Nat) (rest : List Char) :
    ∃ front, rest = front ++ (characterOf unit rest).2 ∧ StartsInside front := by
  have hself : ∃ front, rest = front ++ rest ∧ StartsInside front := ⟨[], rfl, fun _ hs => hs⟩
  unfold characterOf
  split
  · split
    · next low behind hlow =>
        unfold lowUnit? at hlow
        split at hlow
        · next tail =>
            obtain ⟨digits, rfl, hlength, hdigits⟩ :=
              exists_digits_of_hexUnit? (Option.filter_eq_some_iff.1 hlow).1
            exact ⟨'\\' :: 'u' :: digits, rfl, startsInside_unicode hlength hdigits⟩
        · cases hlow
    · exact hself
  · split <;> exact hself

theorem exists_startsInside_of_character {opening text rest : List Char} {c : Char}
    (h : Takes (character opening) text c rest) (hquote : text.head? ≠ some '"') :
    ∃ front, text = front ++ rest ∧ StartsInside front := by
  rcases takes_character_cases h with ⟨tail, unit, behind, rfl, hunit, hfound⟩ |
    ⟨letter, rfl, hletter⟩ | ⟨rfl, hescape, hcontrol⟩
  · obtain ⟨digits, rfl, hlength, hdigits⟩ := exists_digits_of_hexUnit? hunit
    obtain ⟨more, hmore, hstarts⟩ := exists_startsInside_characterOf unit behind
    rw [hfound] at hmore
    refine ⟨'\\' :: 'u' :: digits ++ more, ?_, fun s hs => ?_⟩
    · rw [List.append_assoc, ← hmore]
      rfl
    · rw [List.append_assoc]
      exact .unicode hlength hdigits (hstarts s hs)
  · exact ⟨['\\', letter], rfl, fun s hs => .escape (mem_of_unescaped? hletter) hs⟩
  · refine ⟨[c], rfl, fun s hs => .plain (by omega) (fun he => ?_) hescape hs⟩
    rw [he] at hquote
    exact hquote rfl

theorem exists_isInside_of_stringTail {opening text rest found : List Char}
    (h : Takes (stringTail opening) text found rest) :
    ∃ inside, text = inside ++ '"' :: rest ∧ IsInside inside := by
  refine takes_stringTail_induction (P := fun text _ =>
    ∃ inside, text = inside ++ '"' :: rest ∧ IsInside inside) ⟨[], rfl, .nil⟩ ?_ h
  rintro text c tail found hhead hcharacter - ⟨inside, rfl, hinside⟩
  obtain ⟨front, htext, hstarts⟩ := exists_startsInside_of_character hcharacter hhead
  exact ⟨front ++ inside, by rw [htext, List.append_assoc], hstarts inside hinside⟩

/-! ## Values -/

/-- A reader that takes a text of a rule off the front. -/
def Accepts {α : Type} (rule : Rule) (reader : Reader α) : Prop :=
  ∀ {text : List Char} {taken : Taken α text}, reader text = .ok taken →
    ∃ front, text = front ++ taken.rest ∧ Derives acceptedWords rule front

theorem exists_isSpacing_append_skipSpace (text : List Char) :
    ∃ gap, text = gap ++ skipSpace text ∧ IsSpacing gap := by
  refine ⟨text.takeWhile isSpace, List.takeWhile_append_dropWhile.symm, fun c hc => ?_⟩
  have hspace := (List.all_eq_true.1 List.all_takeWhile) c hc
  simpa [isSpace, or_assoc] using hspace

theorem exists_isSpacing_of_skipSpace_eq {text rest : List Char} {c : Char}
    (h : skipSpace text = c :: rest) : ∃ gap, text = gap ++ c :: rest ∧ IsSpacing gap := by
  rw [← h]
  exact exists_isSpacing_append_skipSpace text

theorem accepts_scalar : Accepts .value scalar := by
  have hliterals : ∀ word ∈ literals, word.1 ∈ acceptedWords := by
    simp [literals, acceptedWords, standardWords, numberWords]
  intro text taken h
  rcases takes_scalar_cases ⟨taken.shorter, h⟩ with ⟨tail, _, rfl, htail, -⟩ |
    ⟨-, hliteral | ⟨-, n, hnumeral, -⟩⟩
  · obtain ⟨inside, hrest, hinside⟩ := exists_isInside_of_stringTail htail
    refine ⟨'"' :: inside ++ ['"'], ?_, .string (.mk hinside)⟩
    rw [List.append_assoc]
    exact congrArg ('"' :: ·) hrest
  · obtain ⟨word, hmem, htext, -⟩ := exists_mem_of_literal? hliteral
    exact ⟨word.1, htext, .word (hliterals word hmem)⟩
  · obtain ⟨front, htext, hnumber⟩ := exists_isNumber_of_numeral? hnumeral
    exact ⟨front, htext, .number hnumber⟩

section Lists

variable {reader : Reader Json} {text rest : List Char}

theorem Accepts.exists_of_takes {rule : Rule} (hreader : Accepts rule reader) {found : Json}
    (h : Takes reader text found rest) :
    ∃ front, text = front ++ rest ∧ Derives acceptedWords rule front := by
  obtain ⟨_, h⟩ := h
  exact hreader h

theorem exists_list_of_elements (hreader : Accepts .value reader) {values : List Json}
    (h : Takes (elements reader) text values rest) :
    ∃ inside, text = inside ++ ']' :: rest ∧ Derives acceptedWords (.list .value) inside := by
  refine takes_elements_induction (P := fun text _ =>
    ∃ inside, text = inside ++ ']' :: rest ∧ Derives acceptedWords (.list .value) inside) ?_ ?_ h
  · intro text found behind hfound hclose
    obtain ⟨front, rfl, hfront⟩ := hreader.exists_of_takes hfound
    obtain ⟨gap, rfl, hgap⟩ := exists_isSpacing_of_skipSpace_eq hclose
    exact ⟨front ++ gap, by rw [List.append_assoc], .last hfront hgap⟩
  · rintro text found behind left values hfound hcomma - ⟨inside, hskip, hinside⟩
    obtain ⟨front, rfl, hfront⟩ := hreader.exists_of_takes hfound
    obtain ⟨gap, rfl, hgap⟩ := exists_isSpacing_of_skipSpace_eq hcomma
    obtain ⟨start, hleft, hstart⟩ := exists_isSpacing_append_skipSpace left
    refine ⟨_, ?_, .cons hfront hgap hstart hinside⟩
    simp only [List.append_assoc, List.cons_append, ← hskip, ← hleft]

theorem exists_isString_of_memberName {name : String} (h : Takes memberName text name rest) :
    ∃ spelled gap, text = spelled ++ gap ++ ':' :: rest ∧ IsString spelled ∧ IsSpacing gap := by
  obtain ⟨tail, _, behind, rfl, htail, hcolon, -⟩ := takes_memberName_cases h
  obtain ⟨inside, rfl, hinside⟩ := exists_isInside_of_stringTail htail
  obtain ⟨gap, rfl, hgap⟩ := exists_isSpacing_of_skipSpace_eq hcolon
  refine ⟨'"' :: inside ++ ['"'], gap, ?_, .mk hinside, hgap⟩
  simp only [List.append_assoc, List.cons_append, List.nil_append]

/-- A member: its name with the colon, the blanks behind it, and its value. -/
theorem exists_member_of_memberName (hreader : Accepts .value reader) {name : String}
    {tail : List Char} {found : Json} (hname : Takes memberName text name tail)
    (hfound : Takes reader (skipSpace tail) found rest) :
    ∃ front, text = front ++ rest ∧ Derives acceptedWords .member front := by
  obtain ⟨spelled, before, rfl, hspelled, hbefore⟩ := exists_isString_of_memberName hname
  obtain ⟨behind, htail, hbehind⟩ := exists_isSpacing_append_skipSpace tail
  obtain ⟨front, hskip, hfront⟩ := hreader.exists_of_takes hfound
  refine ⟨_, ?_, .member hspelled hbefore hbehind hfront⟩
  simp only [List.append_assoc, List.cons_append, ← hskip, ← htail]

theorem exists_list_of_members (hreader : Accepts .value reader) {entries : List (String × Json)}
    (h : Takes (members reader) text entries rest) :
    ∃ inside, text = inside ++ '\x7d' :: rest ∧ Derives acceptedWords (.list .member) inside := by
  refine takes_members_induction (P := fun text _ => ∃ inside, text = inside ++ '\x7d' :: rest ∧
    Derives acceptedWords (.list .member) inside) ?_ ?_ h
  · intro text name tail found behind hname hfound hclose
    obtain ⟨front, rfl, hfront⟩ := exists_member_of_memberName hreader hname hfound
    obtain ⟨gap, rfl, hgap⟩ := exists_isSpacing_of_skipSpace_eq hclose
    exact ⟨front ++ gap, by rw [List.append_assoc], .last hfront hgap⟩
  · rintro text name tail found behind left entries hname hfound hcomma - ⟨inside, hskip, hinside⟩
    obtain ⟨front, rfl, hfront⟩ := exists_member_of_memberName hreader hname hfound
    obtain ⟨gap, rfl, hgap⟩ := exists_isSpacing_of_skipSpace_eq hcomma
    obtain ⟨start, hleft, hstart⟩ := exists_isSpacing_append_skipSpace left
    refine ⟨_, ?_, .cons hfront hgap hstart hinside⟩
    simp only [List.append_assoc, List.cons_append, ← hskip, ← hleft]

theorem exists_value_of_arrayTail (hreader : Accepts .value reader) {found : Json}
    (h : Takes (arrayTail reader) text found rest) :
    ∃ front, '[' :: text = front ++ rest ∧ Derives acceptedWords .value front := by
  rcases takes_arrayTail_cases h with ⟨hclose, -⟩ | ⟨values, hvalues, -⟩
  · obtain ⟨gap, rfl, hgap⟩ := exists_isSpacing_of_skipSpace_eq hclose
    refine ⟨_, ?_, .emptyArray hgap⟩
    simp only [List.append_assoc, List.cons_append, List.nil_append]
  · obtain ⟨inside, hskip, hinside⟩ := exists_list_of_elements hreader hvalues
    obtain ⟨gap, htext, hgap⟩ := exists_isSpacing_append_skipSpace text
    refine ⟨_, ?_, .array hgap hinside⟩
    simp only [List.append_assoc, List.cons_append, List.nil_append, ← hskip, ← htext]

theorem exists_value_of_objectTail (hreader : Accepts .value reader) {found : Json}
    (h : Takes (objectTail reader) text found rest) :
    ∃ front, '\x7b' :: text = front ++ rest ∧ Derives acceptedWords .value front := by
  rcases takes_objectTail_cases h with ⟨hclose, -⟩ | ⟨entries, hentries, -⟩
  · obtain ⟨gap, rfl, hgap⟩ := exists_isSpacing_of_skipSpace_eq hclose
    refine ⟨_, ?_, .emptyObject hgap⟩
    simp only [List.append_assoc, List.cons_append, List.nil_append]
  · obtain ⟨inside, hskip, hinside⟩ := exists_list_of_members hreader hentries
    obtain ⟨gap, htext, hgap⟩ := exists_isSpacing_append_skipSpace text
    refine ⟨_, ?_, .object hgap hinside⟩
    simp only [List.append_assoc, List.cons_append, List.nil_append, ← hskip, ← htext]

end Lists

theorem accepts_value (depth : Nat) : Accepts .value (value depth) := by
  induction depth using Nat.strong_induction_on with
  | _ depth ih =>
      intro text taken h
      rcases takes_value_cases ⟨taken.shorter, h⟩ with ⟨-, -, hscalar⟩ |
        ⟨inner, tail, rfl, ⟨rfl, htail⟩ | ⟨rfl, htail⟩⟩
      · exact accepts_scalar.exists_of_takes hscalar
      · exact exists_value_of_arrayTail (ih inner (Nat.lt_succ_self inner)) htail
      · exact exists_value_of_objectTail (ih inner (Nat.lt_succ_self inner)) htail

/-! ## Documents -/

/-- A value has no blanks at its ends. -/
theorem strip_of_value {s : List Char} (h : Derives acceptedWords .value s) :
    s ≠ [] ∧ Text.strip s = s := by
  have hwords : ∀ w ∈ acceptedWords, w ≠ [] ∧ Text.strip w = w := by decide
  have hmarks : ∀ c ∈ numberMarks, Text.isBlank c = false := by decide
  have hends : ∀ {opening closing : Char} (inside : List Char), Text.isBlank opening = false →
      Text.isBlank closing = false →
        Text.strip (opening :: inside ++ [closing]) = opening :: inside ++ [closing] :=
    fun inside hopening hclosing =>
      Text.strip_eq_self_of_ends ⟨_, _, rfl, hopening⟩ ⟨_, _, rfl, hclosing⟩
  cases h with
  | word h => exact hwords s h
  | number h =>
      refine ⟨?_, Text.strip_eq_self_of_not_blank fun c hc => hmarks c (h.mem_numberMarks c hc)⟩
      obtain ⟨-, hwhole, -, -⟩ := h
      cases hwhole <;> simp
  | string h =>
      obtain ⟨_⟩ := h
      exact ⟨by simp, hends _ (by decide) (by decide)⟩
  | emptyArray _ => exact ⟨by simp, hends _ (by decide) (by decide)⟩
  | array _ _ => exact ⟨by simp, hends _ (by decide) (by decide)⟩
  | emptyObject _ => exact ⟨by simp, hends _ (by decide) (by decide)⟩
  | object _ _ => exact ⟨by simp, hends _ (by decide) (by decide)⟩

theorem IsSpacing.isBlank {gap : List Char} (h : IsSpacing gap) :
    ∀ c ∈ gap, Text.isBlank c = true := by
  have hspaces : ∀ c ∈ [' ', '\t', '\n', '\r'], Text.isBlank c = true := by decide
  exact fun c hc => hspaces c (h c hc)

/-- What strips from a document are the blanks around its value. -/
theorem exists_strip_append_of_document {text : List Char} {found : Json}
    (h : document text = .ok found) :
    Derives acceptedWords .value (Text.strip text) ∧
      ∃ after, IsSpacing after ∧ skipSpace text = Text.strip text ++ after ∧
        ∃ shorter, value maxDepth (skipSpace text) = .ok ⟨found, after, shorter⟩ := by
  obtain ⟨⟨_, rest, shorter⟩, hvalue, rfl, hend⟩ := exists_of_document_eq_ok h
  obtain ⟨before, htext, hbefore⟩ := exists_isSpacing_append_skipSpace text
  obtain ⟨inside, hskip, hinside⟩ := accepts_value maxDepth hvalue
  obtain ⟨after, hrest, hafter⟩ := exists_isSpacing_append_skipSpace rest
  rw [hend, List.append_nil] at hrest
  subst hrest
  obtain ⟨hne, hself⟩ := strip_of_value hinside
  have hstrip : Text.strip text = inside := by
    rw [htext, hskip, ← List.append_assoc,
      Text.strip_of_surrounded hbefore.isBlank hafter.isBlank hne hself]
  rw [hstrip]
  exact ⟨hinside, rest, hafter, hskip, shorter, hvalue⟩

/-- What is read is a value of the grammar with blanks around it. -/
theorem exists_value_of_read {text : String} {found : Json} (h : read text = .ok found) :
    Derives acceptedWords .value (Text.strip text.toList) ∧
      ∃ before after, IsSpacing before ∧ IsSpacing after ∧
        text.toList = before ++ Text.strip text.toList ++ after := by
  obtain ⟨hvalue, after, hafter, hskip, -⟩ :=
    exists_strip_append_of_document (document_eq_ok_of_read h)
  obtain ⟨before, htext, hbefore⟩ := exists_isSpacing_append_skipSpace text.toList
  rw [hskip, ← List.append_assoc] at htext
  exact ⟨hvalue, before, after, hbefore, hafter, htext⟩

end RequestForms.Json
