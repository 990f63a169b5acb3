import RequestForms.Proofs.Json.Accepted

/-!
# What stands behind a scalar

A value that is read at the front of a text stays the same if a blank, and anything behind it, is
put behind the text. A string has ended by then, and neither a number nor a word goes on with a
blank.
-/

namespace RequestForms.Json

variable {α : Type} {text rest more : List Char}

/-- A text that no value goes on with: it is empty or starts with a blank. -/
def EndsValue (more : List Char) : Prop := ∀ c, more.head? = some c → Text.isBlank c = true

/-- A reader that takes the same if a text that no value goes on with is put behind. -/
def IsStable (reader : Reader α) : Prop :=
  ∀ {text rest more : List Char} {found : α}, EndsValue more → Takes reader text found rest →
    Takes reader (text ++ more) found (rest ++ more)

def withBehind (more : List Char) (found : α × List Char) : α × List Char :=
  (found.1, found.2 ++ more)

theorem EndsValue.head_ne {c d : Char} {tail : List Char} (h : EndsValue (c :: tail))
    (hd : Text.isBlank d = false) : c ≠ d := by
  rintro rfl
  rw [h c rfl] at hd
  cases hd

theorem EndsValue.not_isDigit {c : Char} {tail : List Char} (h : EndsValue (c :: tail)) :
    c.isDigit = false := by
  cases hdigit : c.isDigit with
  | false => rfl
  | true => exact absurd rfl (h.head_ne (isBlank_of_isDigit hdigit))

/-! ## Numbers -/

def signedExponent? : List Char → Option (Int × List Char)
  | '-' :: rest => exponentDigits? true rest
  | '+' :: rest => exponentDigits? false rest
  | rest => exponentDigits? false rest

theorem exponentPart?_cons (e : Char) (rest : List Char) :
    exponentPart? (e :: rest) = if e = 'e' ∨ e = 'E' then signedExponent? rest else none := rfl

section Numbers

variable (hmore : EndsValue more)

include hmore

theorem takeWhile_isDigit_append (s : List Char) :
    (s ++ more).takeWhile Char.isDigit = s.takeWhile Char.isDigit := by
  induction s with
  | nil =>
      cases more with
      | nil => rfl
      | cons c tail => rw [List.nil_append, List.takeWhile_cons, hmore.not_isDigit]; rfl
  | cons d s ih => rw [List.cons_append, List.takeWhile_cons, List.takeWhile_cons, ih]

theorem dropWhile_isDigit_append (s : List Char) :
    (s ++ more).dropWhile Char.isDigit = s.dropWhile Char.isDigit ++ more := by
  induction s with
  | nil =>
      cases more with
      | nil => rfl
      | cons c tail => rw [List.nil_append, List.dropWhile_cons, hmore.not_isDigit]; rfl
  | cons d s ih =>
      rw [List.cons_append, List.dropWhile_cons, List.dropWhile_cons, ih]
      split <;> rfl

theorem wholePart?_append (s : List Char) :
    wholePart? (s ++ more) = (wholePart? s).map (withBehind more) := by
  cases s with
  | nil =>
      cases more with
      | nil => rfl
      | cons c tail =>
          rw [List.nil_append, wholePart?, hmore.not_isDigit]
          · rfl
          · exact fun h => absurd h (hmore.head_ne (by decide))
  | cons d s =>
      by_cases hzero : d = '0'
      · subst hzero
        rfl
      · rw [List.cons_append, wholePart?, wholePart?, takeWhile_isDigit_append hmore,
          dropWhile_isDigit_append hmore]
        · split <;> rfl
        · exact fun h => absurd h hzero
        · exact fun h => absurd h hzero

theorem fractionPart_append (s : List Char) :
    fractionPart (s ++ more) = withBehind more (fractionPart s) := by
  by_cases hpoint : ∃ c tail, s = '.' :: c :: tail
  · obtain ⟨c, tail, rfl⟩ := hpoint
    simp only [List.cons_append, fractionPart, takeWhile_isDigit_append hmore,
      dropWhile_isDigit_append hmore]
    split <;> rfl
  · have hself : fractionPart s = ([], s) := by
      rw [fractionPart]
      exact fun c tail h => hpoint ⟨c, tail, h⟩
    -- a digit behind the point can only stand in the text itself
    have hnone : ∀ c tail, s ++ more = '.' :: c :: tail → c.isDigit = false := by
      intro c tail hs
      cases s with
      | nil =>
          rw [List.nil_append] at hs
          subst hs
          exact absurd rfl (hmore.head_ne (by decide))
      | cons d s =>
          obtain ⟨rfl, hbehind⟩ := List.cons.inj hs
          cases s with
          | cons e s => exact absurd ⟨e, s, rfl⟩ hpoint
          | nil =>
              obtain rfl : more = c :: tail := hbehind
              exact hmore.not_isDigit
    rw [hself, withBehind, fractionPart.eq_def]
    split
    · next c tail hs =>
        rw [hnone c tail hs, if_neg Bool.false_ne_true, hs]
    · rfl

theorem exponentDigits?_append (negative : Bool) (s : List Char) :
    exponentDigits? negative (s ++ more) =
      (exponentDigits? negative s).map (withBehind more) := by
  cases s with
  | nil =>
      cases more with
      | nil => rfl
      | cons c tail =>
          rw [List.nil_append, exponentDigits?, hmore.not_isDigit]
          rfl
  | cons d s =>
      rw [List.cons_append, exponentDigits?, exponentDigits?, takeWhile_isDigit_append hmore,
        dropWhile_isDigit_append hmore]
      split <;> rfl

theorem signedExponent?_append (s : List Char) :
    signedExponent? (s ++ more) = (signedExponent? s).map (withBehind more) := by
  cases s with
  | nil =>
      have hdigits := exponentDigits?_append hmore false []
      cases more with
      | nil => rfl
      | cons c tail =>
          rw [List.nil_append, signedExponent?]
          · exact hdigits
          · exact fun rest h => absurd (List.cons.inj h).1 (hmore.head_ne (by decide))
          · exact fun rest h => absurd (List.cons.inj h).1 (hmore.head_ne (by decide))
  | cons d s =>
      by_cases hminus : d = '-'
      · subst hminus
        exact exponentDigits?_append hmore true s
      by_cases hplus : d = '+'
      · subst hplus
        exact exponentDigits?_append hmore false s
      · have hdigits := exponentDigits?_append hmore false (d :: s)
        rw [List.cons_append, signedExponent?, signedExponent?]
        · exact hdigits
        · exact fun rest h => absurd (List.cons.inj h).1 hminus
        · exact fun rest h => absurd (List.cons.inj h).1 hplus
        · exact fun rest h => absurd (List.cons.inj h).1 hminus
        · exact fun rest h => absurd (List.cons.inj h).1 hplus

theorem exponentPart?_append (s : List Char) :
    exponentPart? (s ++ more) = (exponentPart? s).map (withBehind more) := by
  cases s with
  | nil =>
      cases more with
      | nil => rfl
      | cons c tail =>
          have hletter : ¬(c = 'e' ∨ c = 'E') := by
            rintro (h | h)
            · exact hmore.head_ne (by decide) h
            · exact hmore.head_ne (by decide) h
          rw [List.nil_append, exponentPart?_cons, if_neg hletter]
          rfl
  | cons e s =>
      rw [List.cons_append, exponentPart?_cons, exponentPart?_cons, signedExponent?_append hmore]
      split <;> rfl

theorem unsignedNumeral?_append (negative : Bool) (s : List Char) :
    unsignedNumeral? negative (s ++ more) =
      (unsignedNumeral? negative s).map (withBehind more) := by
  unfold unsignedNumeral?
  rw [wholePart?_append hmore]
  cases wholePart? s with
  | none => rfl
  | some found =>
      simp only [Option.map_some, withBehind, fractionPart_append hmore, exponentPart?_append hmore]
      cases exponentPart? (fractionPart found.2).2 with
      | none => rfl
      | some exponent => rfl

theorem numeral?_append (s : List Char) :
    numeral? (s ++ more) = (numeral? s).map (withBehind more) := by
  cases s with
  | nil =>
      have hunsigned := unsignedNumeral?_append hmore false []
      cases more with
      | nil => exact hunsigned
      | cons c tail =>
          rw [List.nil_append, numeral?]
          · exact hunsigned
          · exact fun rest h => absurd (List.cons.inj h).1 (hmore.head_ne (by decide))
  | cons d s =>
      by_cases hsign : d = '-'
      · subst hsign
        exact unsignedNumeral?_append hmore true s
      · have hunsigned := unsignedNumeral?_append hmore false (d :: s)
        rw [List.cons_append, numeral?, numeral?]
        · exact hunsigned
        · exact fun rest h => absurd (List.cons.inj h).1 hsign
        · exact fun rest h => absurd (List.cons.inj h).1 hsign

end Numbers

/-! ## Words -/

theorem dropExact?_append {word : List Char} (hword : ∀ c ∈ word, Text.isBlank c = false)
    (hmore : EndsValue more) (s : List Char) :
    Text.dropExact? word (s ++ more) = (Text.dropExact? word s).map (· ++ more) := by
  cases hdrop : Text.dropExact? word s with
  | some rest =>
      rw [Text.dropExact?_eq_some_iff.1 hdrop, Option.map_some, Text.dropExact?_eq_some_iff,
        List.append_assoc]
  | none =>
      rw [Option.map_none, Option.eq_none_iff_forall_ne_some]
      intro rest hrest
      rcases List.append_eq_append_iff.1 (Text.dropExact?_eq_some_iff.1 hrest) with
        ⟨middle, hfront, hbehind⟩ | ⟨middle, hfront, -⟩
      · cases middle with
        | nil =>
            have hself : s = word ++ [] := by rw [hfront, List.append_nil, List.append_nil]
            rw [Text.dropExact?_eq_some_iff.2 hself] at hdrop
            cases hdrop
        | cons c middle =>
            have hblank := hmore c (by rw [hbehind]; rfl)
            rw [hword c (by simp [hfront])] at hblank
            cases hblank
      · rw [Text.dropExact?_eq_some_iff.2 hfront] at hdrop
        cases hdrop

theorem literal?_append {words : List (List Char × Json)}
    (hwords : ∀ word ∈ words, ∀ c ∈ word.1, Text.isBlank c = false) (hmore : EndsValue more)
    (s : List Char) : literal? (s ++ more) words = (literal? s words).map (withBehind more) := by
  induction words with
  | nil => rfl
  | cons word words ih =>
      rw [List.forall_mem_cons] at hwords
      rw [literal?, literal?, dropExact?_append hwords.1 hmore]
      cases Text.dropExact? word.1 s with
      | some rest => rfl
      | none => exact ih hwords.2

theorem literals_not_blank : ∀ word ∈ literals, ∀ c ∈ word.1, Text.isBlank c = false := by
  simp only [literals, List.forall_mem_cons]
  exact ⟨by decide, by decide, by decide, by decide, by decide, by decide, by simp⟩

/-! ## Strings -/

theorem hexUnit?_append {s : List Char} {unit : Nat} (h : hexUnit? s = some (unit, rest))
    (more : List Char) : hexUnit? (s ++ more) = some (unit, rest ++ more) := by
  unfold hexUnit? at h
  split at h
  · split at h
    · next ha hb hc hd =>
        obtain ⟨rfl, rfl⟩ := Prod.mk.inj (Option.some.inj h)
        simp only [List.cons_append, hexUnit?, ha, hb, hc, hd]
    · cases h
  · cases h

theorem hexUnit?_ne_none_iff {s : List Char} :
    hexUnit? s ≠ none ↔ 4 < s.length ∧ ∀ c ∈ s.take 4, hexValue? c ≠ none := by
  unfold hexUnit?
  split
  · next a b c d e tail =>
      have hlength : 4 < (a :: b :: c :: d :: e :: tail).length := by
        simp only [List.length_cons]
        omega
      have htake : (a :: b :: c :: d :: e :: tail).take 4 = [a, b, c, d] := rfl
      simp only [hlength, htake, List.forall_mem_cons, true_and]
      split
      · next ha hb hc hd => simp [ha, hb, hc, hd]
      · next hnone =>
          refine iff_of_false (not_not_intro rfl) ?_
          rintro ⟨ha, hb, hc, hd, -⟩
          obtain ⟨a, ha⟩ := Option.ne_none_iff_exists'.1 ha
          obtain ⟨b, hb⟩ := Option.ne_none_iff_exists'.1 hb
          obtain ⟨c, hc⟩ := Option.ne_none_iff_exists'.1 hc
          obtain ⟨d, hd⟩ := Option.ne_none_iff_exists'.1 hd
          exact hnone a b c d ha hb hc hd
  · next hshort =>
      refine iff_of_false (not_not_intro rfl) ?_
      rintro ⟨hlength, -⟩
      match s, hlength with
      | a :: b :: c :: d :: e :: tail, _ => exact hshort a b c d e tail rfl

/-- The quotation mark that ends a string is no digit. -/
theorem hexUnit?_append_eq_none {s : List Char} (h : hexUnit? s = none) (hquote : '"' ∈ s)
    (more : List Char) : hexUnit? (s ++ more) = none := by
  by_contra hsome
  obtain ⟨-, hdigits⟩ := hexUnit?_ne_none_iff.1 hsome
  rw [List.take_append] at hdigits
  rcases Nat.lt_or_ge 4 s.length with hlong | hshort
  · exact hexUnit?_ne_none_iff.2 ⟨hlong, fun c hc => hdigits c (List.mem_append_left _ hc)⟩ h
  · rw [List.take_of_length_le hshort] at hdigits
    exact hdigits '"' (List.mem_append_left _ hquote) rfl

theorem lowUnit?_append {s : List Char} (hquote : '"' ∈ s) (more : List Char) :
    lowUnit? (s ++ more) = (lowUnit? s).map (withBehind more) := by
  by_cases hescape : ∃ tail, s = '\\' :: 'u' :: tail
  · obtain ⟨tail, rfl⟩ := hescape
    have htail : '"' ∈ tail := by simpa using hquote
    simp only [List.cons_append, lowUnit?]
    cases hunit : hexUnit? tail with
    | none => rw [hexUnit?_append_eq_none hunit htail]; rfl
    | some found =>
        rw [hexUnit?_append hunit more]
        simp only [Option.filter_some]
        split <;> rfl
  · have hnone : ∀ behind, s ++ more ≠ '\\' :: 'u' :: behind := by
      intro behind hs
      match s, hquote with
      | [c], hquote =>
          obtain rfl := List.mem_singleton.1 hquote
          cases hs
      | c :: d :: tail, _ =>
          obtain ⟨hc, hbehind⟩ := List.cons.inj hs
          exact hescape ⟨tail, by rw [hc, (List.cons.inj hbehind).1]⟩
    rw [lowUnit?, lowUnit?]
    · rfl
    · exact fun tail h => hescape ⟨tail, h⟩
    · exact hnone

theorem characterOf_append (unit : Nat) {s : List Char} (hquote : '"' ∈ s) (more : List Char) :
    characterOf unit (s ++ more) = withBehind more (characterOf unit s) := by
  unfold characterOf
  rw [lowUnit?_append hquote]
  split
  · cases lowUnit? s with
    | none => simp only [Option.map_none, withBehind]
    | some found => simp only [Option.map_some, withBehind]
  · split <;> simp only [withBehind]

theorem Takes.head?_append {reader : Reader α} {found : α} (h : Takes reader text found rest)
    (more : List Char) : (text ++ more).head? = text.head? := by
  have hne : text ≠ [] := List.ne_nil_of_length_pos (Nat.zero_lt_of_lt h.length_lt)
  rw [List.head?_append_of_ne_nil text hne]

theorem takes_character_append {opening : List Char} {c : Char}
    (h : Takes (character opening) text c rest) (hquote : '"' ∈ rest) (other more : List Char) :
    Takes (character other) (text ++ more) c (rest ++ more) := by
  rcases takes_character_cases h with ⟨tail, unit, behind, rfl, hunit, hcharacter⟩ |
    ⟨letter, rfl, hletter⟩ | ⟨rfl, hescape, hcontrol⟩
  · obtain ⟨front, hfront, -⟩ := exists_startsInside_characterOf unit behind
    have hbehind : '"' ∈ behind := by
      rw [hfront, hcharacter]
      exact List.mem_append_right front hquote
    have htakes := takes_character_of_hexUnit? other (hexUnit?_append hunit more)
    rwa [characterOf_append unit hbehind, hcharacter] at htakes
  · exact takes_character_escape other (rest ++ more) hletter
  · exact takes_character_raw other (rest ++ more) hescape hcontrol

/-- A string ends in its quotation mark, so nothing behind it can belong to it. -/
theorem takes_stringTail_append {opening : List Char} {found : List Char}
    (h : Takes (stringTail opening) text found rest) (other more : List Char) :
    '"' ∈ text ∧ Takes (stringTail other) (text ++ more) found (rest ++ more) := by
  refine takes_stringTail_induction (P := fun text found =>
    '"' ∈ text ∧ Takes (stringTail other) (text ++ more) found (rest ++ more)) ?_ ?_ h
  · exact ⟨by simp, takes_stringTail_nil other (rest ++ more)⟩
  · rintro text c tail found hhead hcharacter - ⟨hmark, htakes⟩
    obtain ⟨front, hfront, -⟩ := exists_startsInside_of_character hcharacter hhead
    refine ⟨?_, takes_stringTail_cons ?_ (takes_character_append hcharacter hmark other more)
      htakes⟩
    · rw [hfront]
      exact List.mem_append_right front hmark
    · rwa [hcharacter.head?_append more]

/-! ## Scalars -/

theorem takes_scalar_of_numeral? {n : Numeral} {found : Json} (hquote : text.head? ≠ some '"')
    (hliteral : literal? text literals = none) (hnumeral : numeral? text = some (n, rest))
    (hvalue : n.value = .ok found) : Takes scalar text found rest := by
  refine ⟨length_of_numeral? hnumeral, ?_⟩
  rw [scalar]
  · split
    · next hsome =>
        rw [hliteral] at hsome
        cases hsome
    · split
      · next hnone =>
          rw [hnumeral] at hnone
          cases hnone
      · next hsome =>
          obtain ⟨rfl, rfl⟩ := Prod.mk.inj (Option.some.inj (hsome.symm.trans hnumeral))
          simp only [hvalue]
  · rintro tail rfl
    exact hquote rfl

theorem isStable_scalar : IsStable scalar := by
  intro text rest more found hmore htakes
  have hhead := htakes.head?_append more
  have hliterals := literal?_append literals_not_blank hmore text
  rcases takes_scalar_cases htakes with ⟨tail, inside, rfl, htail, rfl⟩ |
    ⟨hquote, hliteral | ⟨hliteral, n, hnumeral, hvalue⟩⟩
  · exact takes_scalar_string (takes_stringTail_append htail _ more).2
  · rw [hliteral] at hliterals
    exact takes_scalar_of_literal? (hhead ▸ hquote) hliterals
  · have hnumerals := numeral?_append hmore text
    rw [hnumeral] at hnumerals
    rw [hliteral] at hliterals
    exact takes_scalar_of_numeral? (hhead ▸ hquote) hliterals hnumerals hvalue

end RequestForms.Json
