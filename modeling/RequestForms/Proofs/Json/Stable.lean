import RequestForms.Proofs.Json.Stable.Scalar

/-!
# What stands behind a value

What stands between brackets is read up to the closing one, so a value of any depth stays the same
if a blank, and anything behind it, is put behind the text.
-/

namespace RequestForms.Json

variable {α : Type} {text rest : List Char}

/-! ## Arrays and objects -/

theorem skipSpace_append_of_eq_cons {c : Char} (h : skipSpace text = c :: rest)
    (more : List Char) : skipSpace (text ++ more) = c :: (rest ++ more) := by
  have hspace : ∀ d ∈ text.takeWhile isSpace, isSpace d = true := fun d hd =>
    (List.all_eq_true.1 List.all_takeWhile) d hd
  have htext : text = text.takeWhile isSpace ++ (c :: rest) := by
    rw [← h]
    exact List.takeWhile_append_dropWhile.symm
  have hc : isSpace c = false := by
    have hhead := List.head?_dropWhile_not isSpace text
    rw [show text.dropWhile isSpace = c :: rest from h] at hhead
    simpa using hhead
  rw [htext, List.append_assoc, skipSpace_append_of_space hspace]
  exact skipSpace_cons hc _

/-- Before a value that is read, blanks are skipped in the same way. -/
theorem Takes.skipSpace_append {reader : Reader α} {found : α}
    (h : Takes reader (skipSpace text) found rest) (more : List Char) :
    skipSpace (text ++ more) = skipSpace text ++ more := by
  have hne : skipSpace text ≠ [] := List.ne_nil_of_length_pos (Nat.zero_lt_of_lt h.length_lt)
  obtain ⟨c, tail, hskip⟩ := List.exists_cons_of_ne_nil hne
  rw [skipSpace_append_of_eq_cons hskip, hskip, List.cons_append]

theorem takes_memberName_append {name : String} (h : Takes memberName text name rest)
    (more : List Char) : Takes memberName (text ++ more) name (rest ++ more) := by
  obtain ⟨tail, inside, behind, rfl, htail, hcolon, rfl⟩ := takes_memberName_cases h
  exact takes_memberName_of_stringTail (takes_stringTail_append htail _ more).2
    (skipSpace_append_of_eq_cons hcolon more)

section Rules

variable {element : Reader Json} {behind left : List Char} {found : Json} {values : List Json}

theorem takes_elements_last (hfound : Takes element text found rest)
    (hclose : skipSpace rest = ']' :: left) : Takes (elements element) text [found] left := by
  obtain ⟨hrest, hfound⟩ := hfound
  have hleft := length_lt_of_skipSpace_eq hclose
  refine ⟨by omega, ?_⟩
  rw [elements]
  simp only [hfound]
  split
  · next heq =>
      obtain rfl := (List.cons.inj (heq.symm.trans hclose)).2
      rfl
  · next heq => cases (List.cons.inj (heq.symm.trans hclose)).1
  · next hbracket _ => exact absurd hclose (hbracket left)

theorem takes_elements_cons (hfound : Takes element text found rest)
    (hcomma : skipSpace rest = ',' :: left)
    (hmore : Takes (elements element) (skipSpace left) values behind) :
    Takes (elements element) text (found :: values) behind := by
  obtain ⟨hrest, hfound⟩ := hfound
  obtain ⟨hbehind, hmore⟩ := hmore
  have hskip := length_skipSpace_le left
  have hleft := length_lt_of_skipSpace_eq hcomma
  refine ⟨by omega, ?_⟩
  rw [elements]
  simp only [hfound]
  split
  · next heq => cases (List.cons.inj (heq.symm.trans hcomma)).1
  · next heq =>
      obtain rfl := (List.cons.inj (heq.symm.trans hcomma)).2
      simp only [hmore]
  · next hother => exact absurd hcomma (hother left)

theorem not_takes_elements_bracket (depth : Nat) :
    ¬Takes (elements (value depth)) (']' :: text) values rest := by
  rintro ⟨hshorter, h⟩
  rw [elements] at h
  split at h
  · cases h
  · next hvalue =>
      rw [value_eq_scalar (by simp) (by simp)] at hvalue
      exact scalar_ne_ok (by simp) rfl rfl _ hvalue

theorem takes_arrayTail {depth : Nat}
    (hvalues : Takes (elements (value depth)) (skipSpace text) values rest) :
    Takes (arrayTail (value depth)) text (.array values) rest := by
  have hskip := length_skipSpace_le text
  refine ⟨Nat.lt_of_lt_of_le hvalues.length_lt hskip, ?_⟩
  unfold arrayTail
  split
  · -- what starts with the closing bracket has no elements
    next hbracket => exact absurd (hbracket ▸ hvalues) (not_takes_elements_bracket depth)
  · obtain ⟨_, hvalues⟩ := hvalues
    simp only [hvalues]

theorem takes_arrayTail_nil (hclose : skipSpace text = ']' :: rest) :
    Takes (arrayTail element) text (.array []) rest := by
  refine ⟨length_lt_of_skipSpace_eq hclose, ?_⟩
  unfold arrayTail
  split
  · next hbracket =>
      obtain rfl := (List.cons.inj (hbracket.symm.trans hclose)).2
      rfl
  · next hother => exact absurd hclose (hother rest)

theorem takes_value_array {depth : Nat} (h : Takes (arrayTail (value depth)) text found rest) :
    Takes (value (depth + 1)) ('[' :: text) found rest := by
  obtain ⟨hrest, h⟩ := h
  refine ⟨by simp only [List.length_cons]; omega, ?_⟩
  simp only [value, h]

theorem takes_value_of_scalar (harray : text.head? ≠ some '[') (hobject : text.head? ≠ some '\x7b')
    (h : Takes scalar text found rest) (depth : Nat) : Takes (value depth) text found rest := by
  rw [Takes, value_eq_scalar harray hobject]
  exact h

end Rules

theorem isStable_elements {element : Reader Json} (helement : IsStable element) :
    IsStable (elements element) := by
  intro text rest more values hmore htakes
  refine takes_elements_induction (P := fun text values =>
    Takes (elements element) (text ++ more) values (rest ++ more)) ?_ ?_ htakes
  · intro text found behind hfound hclose
    exact takes_elements_last (helement hmore hfound) (skipSpace_append_of_eq_cons hclose more)
  · intro text found behind left values hfound hcomma hvalues ih
    rw [← hvalues.skipSpace_append more] at ih
    exact takes_elements_cons (helement hmore hfound) (skipSpace_append_of_eq_cons hcomma more) ih

theorem isStable_members {reader : Reader Json} (hreader : IsStable reader) :
    IsStable (members reader) := by
  intro text rest more entries hmore htakes
  -- the blanks before a value are skipped in the same way with more text behind it
  have hvalue : ∀ {tail behind : List Char} {found : Json},
      Takes reader (skipSpace tail) found behind →
        Takes reader (skipSpace (tail ++ more)) found (behind ++ more) := by
    intro tail behind found hfound
    rw [hfound.skipSpace_append more]
    exact hreader hmore hfound
  refine takes_members_induction (P := fun text entries =>
    Takes (members reader) (text ++ more) entries (rest ++ more)) ?_ ?_ htakes
  · intro text name tail found behind hname hfound hclose
    exact takes_members_last (takes_memberName_append hname more) (hvalue hfound)
      (skipSpace_append_of_eq_cons hclose more)
  · intro text name tail found behind left entries hname hfound hcomma hentries ih
    rw [← hentries.skipSpace_append more] at ih
    exact takes_members_cons (takes_memberName_append hname more) (hvalue hfound)
      (skipSpace_append_of_eq_cons hcomma more) ih

theorem isStable_arrayTail {depth : Nat} (h : IsStable (value depth)) :
    IsStable (arrayTail (value depth)) := by
  intro text rest more found hmore htakes
  rcases takes_arrayTail_cases htakes with ⟨hclose, rfl⟩ | ⟨values, hvalues, rfl⟩
  · exact takes_arrayTail_nil (skipSpace_append_of_eq_cons hclose more)
  · have hstable := isStable_elements h hmore hvalues
    rw [← hvalues.skipSpace_append more] at hstable
    exact takes_arrayTail hstable

theorem isStable_objectTail {reader : Reader Json} (h : IsStable reader) :
    IsStable (objectTail reader) := by
  intro text rest more found hmore htakes
  rcases takes_objectTail_cases htakes with ⟨hclose, rfl⟩ | ⟨entries, hentries, rfl⟩
  · exact takes_objectTail_nil (skipSpace_append_of_eq_cons hclose more)
  · have hstable := isStable_members h hmore hentries
    rw [← hentries.skipSpace_append more] at hstable
    exact takes_objectTail hstable

theorem isStable_value (depth : Nat) : IsStable (value depth) := by
  induction depth using Nat.strong_induction_on with
  | _ depth ih =>
      intro text rest more found hmore h
      rcases takes_value_cases h with ⟨harray, hobject, hscalar⟩ |
        ⟨inner, tail, rfl, ⟨rfl, htail⟩ | ⟨rfl, htail⟩⟩
      · have hhead := h.head?_append more
        exact takes_value_of_scalar (hhead ▸ harray) (hhead ▸ hobject)
          (isStable_scalar hmore hscalar) depth
      · exact takes_value_array (isStable_arrayTail (ih inner (Nat.lt_succ_self inner)) hmore htail)
      · exact takes_value_object
          (isStable_objectTail (ih inner (Nat.lt_succ_self inner)) hmore htail)

end RequestForms.Json
