import RequestForms.Proofs.Json.Stable

/-!
# Reading without what is left

The converse of stability: where nothing is taken of a text that stands behind, a value is read in
the same way without that text. What a reader leaves it has not looked at, but for the one character
that ends a number or a word, and the end of the text ends these as well.
-/

namespace RequestForms.Json

variable {α : Type} {text more rest : List Char}

/-- A reader that takes the same if a text is missing behind, as long as it takes nothing of that
text and no value goes on with it. -/
def IsLocal (reader : Reader α) : Prop :=
  ∀ {text more rest : List Char} {found : α}, EndsValue more → more.length ≤ rest.length →
    Takes reader (text ++ more) found rest →
      ∃ left, rest = left ++ more ∧ Takes reader text found left

/-! ## Strings -/

theorem hexUnit?_of_append {unit : Nat} (hrest : rest ≠ [])
    (h : hexUnit? (text ++ more) = some (unit, rest ++ more)) :
    hexUnit? text = some (unit, rest) := by
  obtain ⟨digits, htext, hlength, -⟩ := exists_digits_of_hexUnit? h
  obtain rfl : text = digits ++ rest :=
    List.append_cancel_right (htext.trans (List.append_assoc digits rest more).symm)
  have hlong : digits.length < (digits ++ rest).length := by
    rw [List.length_append]
    have := List.length_pos_iff.2 hrest
    omega
  rw [hlength] at hlong
  have hsome : hexUnit? (digits ++ rest) ≠ none := by
    obtain ⟨-, hdigits⟩ := hexUnit?_ne_none_iff.1 (h ▸ Option.some_ne_none _)
    rw [List.take_append_of_le_length (Nat.le_of_lt hlong)] at hdigits
    exact hexUnit?_ne_none_iff.2 ⟨hlong, hdigits⟩
  obtain ⟨found, hfound⟩ := Option.ne_none_iff_exists'.1 hsome
  obtain ⟨rfl, hleft⟩ := Prod.mk.inj (Option.some.inj ((hexUnit?_append hfound more).symm.trans h))
  rw [hfound, ← List.append_cancel_right hleft]

/-- The quotation mark that ends the string is left, so no second half of a pair is cut off. -/
theorem takes_character_of_append {opening : List Char} {c : Char} (hquote : '"' ∈ rest)
    (h : Takes (character opening) (text ++ more) c (rest ++ more)) (other : List Char) :
    Takes (character other) text c rest := by
  rcases takes_character_cases h with ⟨tail, unit, behind, htext, hunit, hcharacter⟩ |
    ⟨letter, htext, hletter⟩ | ⟨htext, hescape, hcontrol⟩
  · obtain ⟨digits, rfl, -, -⟩ := exists_digits_of_hexUnit? hunit
    obtain ⟨front, hfront, -⟩ := exists_startsInside_characterOf unit behind
    rw [hcharacter, ← List.append_assoc] at hfront
    subst hfront
    have hleft : '"' ∈ front ++ rest := List.mem_append_right front hquote
    obtain rfl : text = '\\' :: 'u' :: (digits ++ (front ++ rest)) := by
      apply List.append_cancel_right (htext.trans _)
      simp only [List.append_assoc, List.cons_append]
    rw [← List.append_assoc] at hunit
    have htakes := takes_character_of_hexUnit? other
      (hexUnit?_of_append (List.ne_nil_of_mem hleft) hunit)
    rw [characterOf_append unit hleft] at hcharacter
    obtain ⟨hc, hrest⟩ := Prod.mk.inj hcharacter
    rwa [hc, List.append_cancel_right hrest] at htakes
  · obtain rfl : text = '\\' :: letter :: rest := List.append_cancel_right htext
    exact takes_character_escape other rest hletter
  · obtain rfl : text = c :: rest := List.append_cancel_right htext
    exact takes_character_raw other rest hescape hcontrol

theorem takes_stringTail_of_append {opening found : List Char}
    (h : Takes (stringTail opening) (text ++ more) found (rest ++ more)) (other : List Char) :
    Takes (stringTail other) text found rest := by
  refine takes_stringTail_induction (P := fun s found =>
    ∀ text, text ++ more = s → Takes (stringTail other) text found rest) ?_ ?_ h text rfl
  · intro text htext
    obtain rfl : text = '"' :: rest := List.append_cancel_right htext
    exact takes_stringTail_nil other rest
  · rintro s c tail found hhead hcharacter htail ih text rfl
    -- up to its quotation mark, the rest of the string stands in front of what is missing
    obtain ⟨inside, hinside, -⟩ := exists_isInside_of_stringTail htail
    rw [← List.cons_append, ← List.append_assoc] at hinside
    subst hinside
    have hstart : text.head? ≠ some '"' := by
      intro hstart
      obtain ⟨front, rfl⟩ := List.head?_eq_some_iff.1 hstart
      exact hhead rfl
    exact takes_stringTail_cons hstart (takes_character_of_append (by simp) hcharacter other)
      (ih _ rfl)

/-- What is left of a string goes on to the end of the text. -/
theorem exists_takes_stringTail_of_append {opening found : List Char}
    (hmore : more.length ≤ rest.length)
    (h : Takes (stringTail opening) (text ++ more) found rest) (other : List Char) :
    ∃ left, rest = left ++ more ∧ Takes (stringTail other) text found left := by
  obtain ⟨inside, htext, -⟩ := exists_isInside_of_stringTail h
  have hsuffix : rest <:+ text ++ more := ⟨inside ++ ['"'], by rw [htext]; simp⟩
  obtain ⟨left, rfl⟩ := List.suffix_of_suffix_length_le (List.suffix_append text more) hsuffix hmore
  exact ⟨left, rfl, takes_stringTail_of_append h other⟩

/-! ## Scalars -/

/-- What is taken comes before what is missing. -/
theorem Takes.exists_cons_of_append {reader : Reader α} {found : α}
    (hmore : more.length ≤ rest.length) (h : Takes reader (text ++ more) found rest) :
    ∃ c tail, text = c :: tail := by
  have hshorter := h.length_lt
  rw [List.length_append] at hshorter
  exact List.exists_cons_of_length_pos (by omega)

theorem isLocal_scalar : IsLocal scalar := by
  intro text more rest found hends hmore h
  obtain ⟨c, front, rfl⟩ := h.exists_cons_of_append hmore
  rcases takes_scalar_cases h with ⟨tail, inside, htext, htail, rfl⟩ |
    ⟨hquote, hliteral | ⟨hliteral, n, hnumeral, hvalue⟩⟩
  · obtain ⟨rfl, rfl⟩ := List.cons.inj htext
    obtain ⟨left, rfl, hleft⟩ := exists_takes_stringTail_of_append hmore htail ('"' :: front)
    exact ⟨left, rfl, takes_scalar_string hleft⟩
  · rw [literal?_append literals_not_blank hends, Option.map_eq_some_iff] at hliteral
    obtain ⟨⟨value, left⟩, htaken, hbehind⟩ := hliteral
    obtain ⟨rfl, rfl⟩ := Prod.mk.inj hbehind
    exact ⟨left, rfl, takes_scalar_of_literal? hquote htaken⟩
  · rw [literal?_append literals_not_blank hends, Option.map_eq_none_iff] at hliteral
    rw [numeral?_append hends, Option.map_eq_some_iff] at hnumeral
    obtain ⟨⟨numeral, left⟩, htaken, hbehind⟩ := hnumeral
    obtain ⟨rfl, rfl⟩ := Prod.mk.inj hbehind
    exact ⟨left, rfl, takes_scalar_of_numeral? hquote hliteral htaken hvalue⟩

/-! ## Arrays and objects -/

/-- Blanks are skipped in the same way if more is left than is missing. -/
theorem skipSpace_append_of_lt (h : more.length < (skipSpace (text ++ more)).length) :
    skipSpace (text ++ more) = skipSpace text ++ more := by
  cases hskip : skipSpace text with
  | cons c tail => exact skipSpace_append_of_eq_cons hskip more
  | nil =>
      have hspace : ∀ c ∈ text, isSpace c = true := List.dropWhile_eq_nil_iff.1 hskip
      rw [skipSpace_append_of_space hspace] at h
      exact absurd (length_skipSpace_le more) (by omega)

theorem exists_skipSpace_eq_cons {c : Char} (hmore : more.length ≤ rest.length)
    (h : skipSpace (text ++ more) = c :: rest) :
    ∃ left, rest = left ++ more ∧ skipSpace text = c :: left := by
  have hskip : skipSpace (text ++ more) = skipSpace text ++ more := by
    apply skipSpace_append_of_lt
    rw [h, List.length_cons]
    omega
  rw [h] at hskip
  cases hfront : skipSpace text with
  | nil =>
      rw [hfront, List.nil_append] at hskip
      rw [← hskip, List.length_cons] at hmore
      omega
  | cons d left =>
      rw [hfront] at hskip
      obtain ⟨rfl, rfl⟩ := List.cons.inj hskip
      exact ⟨left, rfl, rfl⟩

/-- Before a value, blanks are skipped in the same way. -/
theorem Takes.skipSpace_of_append {reader : Reader α} {found : α}
    (hmore : more.length ≤ rest.length)
    (h : Takes reader (skipSpace (text ++ more)) found rest) :
    skipSpace (text ++ more) = skipSpace text ++ more :=
  skipSpace_append_of_lt (Nat.lt_of_le_of_lt hmore h.length_lt)

theorem exists_takes_memberName_of_append {name : String} (hmore : more.length ≤ rest.length)
    (h : Takes memberName (text ++ more) name rest) :
    ∃ left, rest = left ++ more ∧ Takes memberName text name left := by
  obtain ⟨c, front, rfl⟩ := h.exists_cons_of_append hmore
  obtain ⟨tail, inside, behind, htext, htail, hcolon, rfl⟩ := takes_memberName_cases h
  obtain ⟨rfl, rfl⟩ := List.cons.inj htext
  have hbehind := length_lt_of_skipSpace_eq hcolon
  obtain ⟨last, rfl, hlast⟩ := exists_takes_stringTail_of_append (by omega) htail ('"' :: front)
  obtain ⟨left, rfl, hleft⟩ := exists_skipSpace_eq_cons hmore hcolon
  exact ⟨left, rfl, takes_memberName_of_stringTail hlast hleft⟩

theorem isLocal_elements {element : Reader Json} (helement : IsLocal element) :
    IsLocal (elements element) := by
  intro text more rest values hends hmore h
  refine takes_elements_induction (P := fun s values => ∀ text, text ++ more = s →
    ∃ left, rest = left ++ more ∧ Takes (elements element) text values left) ?_ ?_ h text rfl
  · rintro s found behind hfound hclose text rfl
    have hbehind := length_lt_of_skipSpace_eq hclose
    obtain ⟨last, rfl, hlast⟩ := helement hends (by omega) hfound
    obtain ⟨left, rfl, hleft⟩ := exists_skipSpace_eq_cons hmore hclose
    exact ⟨left, rfl, takes_elements_last hlast hleft⟩
  · rintro s found behind next values hfound hcomma hvalues ih text rfl
    have hbehind := length_lt_of_skipSpace_eq hcomma
    have hskip := length_skipSpace_le next
    have hnext := hvalues.length_lt
    obtain ⟨last, rfl, hlast⟩ := helement hends (by omega) hfound
    obtain ⟨start, rfl, hstart⟩ := exists_skipSpace_eq_cons (by omega) hcomma
    obtain ⟨left, rfl, hleft⟩ := ih _ (hvalues.skipSpace_of_append hmore).symm
    exact ⟨left, rfl, takes_elements_cons hlast hstart hleft⟩

/-- A value behind blanks is read in the same way without what is left. -/
theorem IsLocal.exists_takes_skipSpace {reader : Reader α} (hreader : IsLocal reader)
    {found : α} (hends : EndsValue more) (hmore : more.length ≤ rest.length)
    (h : Takes reader (skipSpace (text ++ more)) found rest) :
    ∃ left, rest = left ++ more ∧ Takes reader (skipSpace text) found left := by
  rw [h.skipSpace_of_append hmore] at h
  exact hreader hends hmore h

theorem isLocal_members {reader : Reader Json} (hreader : IsLocal reader) :
    IsLocal (members reader) := by
  intro text more rest entries hends hmore h
  refine takes_members_induction (P := fun s entries => ∀ text, text ++ more = s →
    ∃ left, rest = left ++ more ∧ Takes (members reader) text entries left) ?_ ?_ h text rfl
  · rintro s name tail found behind hname hfound hclose text rfl
    have hbehind := length_lt_of_skipSpace_eq hclose
    have hskip := length_skipSpace_le tail
    have hlength := hfound.length_lt
    obtain ⟨start, rfl, hstart⟩ := exists_takes_memberName_of_append (by omega) hname
    obtain ⟨last, rfl, hlast⟩ := hreader.exists_takes_skipSpace hends (by omega) hfound
    obtain ⟨left, rfl, hleft⟩ := exists_skipSpace_eq_cons hmore hclose
    exact ⟨left, rfl, takes_members_last hstart hlast hleft⟩
  · rintro s name tail found behind next entries hname hfound hcomma hentries ih text rfl
    have hbehind := length_lt_of_skipSpace_eq hcomma
    have hskip := length_skipSpace_le tail
    have hskip' := length_skipSpace_le next
    have hlength := hfound.length_lt
    have hlength' := hentries.length_lt
    obtain ⟨start, rfl, hstart⟩ := exists_takes_memberName_of_append (by omega) hname
    obtain ⟨last, rfl, hlast⟩ := hreader.exists_takes_skipSpace hends (by omega) hfound
    obtain ⟨others, rfl, hothers⟩ := exists_skipSpace_eq_cons (by omega) hcomma
    obtain ⟨left, rfl, hleft⟩ := ih _ (hentries.skipSpace_of_append hmore).symm
    exact ⟨left, rfl, takes_members_cons hstart hlast hothers hleft⟩

theorem isLocal_arrayTail {depth : Nat} (h : IsLocal (value depth)) :
    IsLocal (arrayTail (value depth)) := by
  intro text more rest found hends hmore htakes
  rcases takes_arrayTail_cases htakes with ⟨hclose, rfl⟩ | ⟨values, hvalues, rfl⟩
  · obtain ⟨left, rfl, hleft⟩ := exists_skipSpace_eq_cons hmore hclose
    exact ⟨left, rfl, takes_arrayTail_nil hleft⟩
  · obtain ⟨left, rfl, hleft⟩ :=
      IsLocal.exists_takes_skipSpace (isLocal_elements h) hends hmore hvalues
    exact ⟨left, rfl, takes_arrayTail hleft⟩

theorem isLocal_objectTail {reader : Reader Json} (h : IsLocal reader) :
    IsLocal (objectTail reader) := by
  intro text more rest found hends hmore htakes
  rcases takes_objectTail_cases htakes with ⟨hclose, rfl⟩ | ⟨entries, hentries, rfl⟩
  · obtain ⟨left, rfl, hleft⟩ := exists_skipSpace_eq_cons hmore hclose
    exact ⟨left, rfl, takes_objectTail_nil hleft⟩
  · obtain ⟨left, rfl, hleft⟩ :=
      IsLocal.exists_takes_skipSpace (isLocal_members h) hends hmore hentries
    exact ⟨left, rfl, takes_objectTail hleft⟩

theorem isLocal_value (depth : Nat) : IsLocal (value depth) := by
  induction depth using Nat.strong_induction_on with
  | _ depth ih =>
      intro text more rest found hends hmore h
      obtain ⟨c, front, rfl⟩ := h.exists_cons_of_append hmore
      rcases takes_value_cases h with ⟨harray, hobject, hscalar⟩ |
        ⟨inner, tail, rfl, ⟨htext, htail⟩ | ⟨htext, htail⟩⟩
      · obtain ⟨left, rfl, hleft⟩ := isLocal_scalar hends hmore hscalar
        refine ⟨left, rfl, takes_value_of_scalar ?_ ?_ hleft depth⟩
        · exact harray
        · exact hobject
      · obtain ⟨rfl, rfl⟩ := List.cons.inj htext
        obtain ⟨left, rfl, hleft⟩ :=
          isLocal_arrayTail (ih inner (Nat.lt_succ_self inner)) hends hmore htail
        exact ⟨left, rfl, takes_value_array hleft⟩
      · obtain ⟨rfl, rfl⟩ := List.cons.inj htext
        obtain ⟨left, rfl, hleft⟩ :=
          isLocal_objectTail (ih inner (Nat.lt_succ_self inner)) hends hmore htail
        exact ⟨left, rfl, takes_value_object hleft⟩

end RequestForms.Json
