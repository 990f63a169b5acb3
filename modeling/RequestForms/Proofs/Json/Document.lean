import RequestForms.Proofs.Json.Accepted
import RequestForms.Proofs.Text.Lines

/-!
# The text of a document

What the grammar says of a text that is read as JSON. No backslash stands before a line break in it,
and without the blanks around it, it starts like a value and goes from brace to brace if it is an
object.
-/

namespace RequestForms.Json

open Text (isUnbroken isUnbroken_append_of_not_mem isUnbroken_cons startsLine_eq_false KeepsLine)

/-! ## Lines -/

/-- A backslash only stands inside of strings, and a string has no line breaks. -/
theorem isUnbroken_append_of_isInside {inside rest : List Char} (h : IsInside inside)
    (hrest : isUnbroken rest = true) :
    KeepsLine (inside ++ '"' :: rest) ∧ isUnbroken (inside ++ '"' :: rest) = true := by
  have hkeeps : ∀ {c : Char} {s : List Char}, c ≠ '\n' → c ≠ '\r' → KeepsLine (c :: s) :=
    fun hn hr => ⟨by simpa using hn, by simpa using hr⟩
  induction h with
  | nil => exact ⟨hkeeps (by decide) (by decide), isUnbroken_cons.2 ⟨by simp, hrest⟩⟩
  | @plain c s hcontrol _ hescape _ ih =>
      have hbreaks : ∀ d ∈ ['\n', '\r'], ¬0x20 ≤ d.toNat := by decide
      refine ⟨hkeeps ?_ ?_, isUnbroken_cons.2 ⟨fun hc => hescape hc.1, ih.2⟩⟩
      · rintro rfl
        exact hbreaks _ (by simp) hcontrol
      · rintro rfl
        exact hbreaks _ (by simp) hcontrol
  | @escape c s hc _ ih =>
      have hletters : ∀ d ∈ "\"\\/bfnrt".toList, d ≠ '\n' ∧ d ≠ '\r' := by decide
      obtain ⟨hn, hr⟩ := hletters c hc
      -- the character may be a backslash itself, so what follows must not start a line either
      refine ⟨hkeeps (by decide) (by decide), isUnbroken_cons.2 ⟨?_, isUnbroken_cons.2 ⟨?_, ih.2⟩⟩⟩
      · simp [startsLine_eq_false (hkeeps hn hr)]
      · simp [startsLine_eq_false ih.1]
  | @unicode digits s _ hdigits _ ih =>
      have hplain : '\\' ∉ hexDigits := by decide
      have hmem : '\\' ∉ 'u' :: digits := by
        simpa using fun hmem => hplain (hdigits _ hmem)
      have hunit := isUnbroken_append_of_not_mem hmem ih.2
      rw [List.append_assoc]
      refine ⟨hkeeps (by decide) (by decide), isUnbroken_cons.2 ⟨?_, hunit⟩⟩
      simp [startsLine_eq_false (hkeeps (c := 'u') (by decide) (by decide))]

theorem isUnbroken_append_of_isString {s rest : List Char} (h : IsString s)
    (hrest : isUnbroken rest = true) : isUnbroken (s ++ rest) = true := by
  obtain ⟨hinside⟩ := h
  rw [List.append_assoc]
  exact isUnbroken_cons.2 ⟨by simp, (isUnbroken_append_of_isInside hinside hrest).2⟩

theorem Derives.isUnbroken_append {words : List (List Char)} {rule : Rule} {s rest : List Char}
    (hwords : ∀ w ∈ words, '\\' ∉ w) (h : Derives words rule s) (hrest : isUnbroken rest = true) :
    isUnbroken (s ++ rest) = true := by
  have hmarks : '\\' ∉ marks := by decide
  revert rest
  refine h.of_parts (P := fun s => ∀ {rest}, isUnbroken rest = true → isUnbroken (s ++ rest) = true)
    ?_ ?_ ?_ fun hs => isUnbroken_append_of_isString hs
  · intro a b ha hb rest hrest
    rw [List.append_assoc]
    exact ha (hb hrest)
  · exact fun hs => isUnbroken_append_of_not_mem fun hmem => hmarks (hs _ hmem)
  · exact fun w hw => isUnbroken_append_of_not_mem (hwords w hw)

theorem IsSpacing.isUnbroken_append {gap rest : List Char} (h : IsSpacing gap)
    (hrest : isUnbroken rest = true) : isUnbroken (gap ++ rest) = true := by
  have hmarks : '\\' ∉ marks := by decide
  exact isUnbroken_append_of_not_mem (fun hmem => hmarks (h.mem_marks _ hmem)) hrest

/-- JSON has no backslash before a line break. -/
theorem isUnbroken_of_read {text : String} {found : Json} (h : read text = .ok found) :
    isUnbroken text.toList = true := by
  obtain ⟨hvalue, before, after, hbefore, hafter, htext⟩ := exists_value_of_read h
  have hend : isUnbroken (after ++ []) = true := hafter.isUnbroken_append rfl
  rw [List.append_nil] at hend
  rw [htext, List.append_assoc]
  exact hbefore.isUnbroken_append (hvalue.isUnbroken_append (by decide) hend)

/-! ## Ends -/

/-- What starts with an opening brace ends with the closing one, and no value starts with any other
character but those of numbers, strings, arrays and words. -/
theorem head?_cases_of_value {s : List Char} (h : Derives acceptedWords .value s) {c : Char}
    (hc : s.head? = some c) :
    c ∈ numberMarks ++ "\"[ntfNI".toList ∨
      c = '\x7b' ∧ ∃ inside, s = '\x7b' :: (inside ++ ['\x7d']) := by
  have hwords : ∀ w ∈ acceptedWords, w.head? ∈ (numberMarks ++ "\"[ntfNI".toList).map some := by
    decide
  cases h with
  | word h =>
      obtain ⟨d, hd, hhead⟩ := List.mem_map.1 (hwords s h)
      obtain rfl : d = c := Option.some.inj (hhead.trans hc)
      exact Or.inl hd
  | number h =>
      exact Or.inl (List.mem_append_left _ (h.mem_numberMarks c (List.mem_of_head? hc)))
  | string h =>
      obtain ⟨_⟩ := h
      obtain rfl := Option.some.inj hc
      exact Or.inl (by decide)
  | emptyArray _ =>
      obtain rfl := Option.some.inj hc
      exact Or.inl (by decide)
  | array _ _ =>
      obtain rfl := Option.some.inj hc
      exact Or.inl (by decide)
  | emptyObject _ =>
      obtain rfl := Option.some.inj hc
      exact Or.inr ⟨rfl, _, rfl⟩
  | object _ _ =>
      obtain rfl := Option.some.inj hc
      exact Or.inr ⟨rfl, _, rfl⟩

/-- The characters that a value starts with: those of numbers, strings, arrays, words and objects. -/
def valueStarts : List Char := numberMarks ++ "\"[ntfNI".toList ++ ['\x7b']

theorem mem_valueStarts {s : List Char} (h : Derives acceptedWords .value s) {c : Char}
    (hc : s.head? = some c) : c ∈ valueStarts := by
  rcases head?_cases_of_value h hc with hmem | ⟨rfl, -⟩
  · exact List.mem_append_left _ hmem
  · exact List.mem_append_right _ (List.mem_singleton_self _)

section Read

variable {text : String} {found : Json} (h : read text = .ok found)

include h

/-- A document has more than blanks. -/
theorem strip_ne_nil_of_read : Text.strip text.toList ≠ [] :=
  (strip_of_value (exists_value_of_read h).1).1

theorem head?_strip_of_read : (Text.strip text.toList).head? = (skipSpace text.toList).head? := by
  obtain ⟨-, after, -, hskip, -⟩ := exists_strip_append_of_document (document_eq_ok_of_read h)
  obtain ⟨c, more, hstrip⟩ := List.exists_cons_of_ne_nil (strip_ne_nil_of_read h)
  rw [hskip, hstrip]
  rfl

theorem head?_strip_ne {c : Char} (hc : c ∉ valueStarts) :
    (Text.strip text.toList).head? ≠ some c :=
  fun hhead => hc (mem_valueStarts (exists_value_of_read h).1 hhead)

end Read

/-- Without the blanks around it, the text of an object goes from brace to brace. -/
theorem exists_strip_of_read_eq_object {text : String} {found : List (String × Json)}
    (h : read text = .ok (.object found)) :
    ∃ inside, Text.strip text.toList = '\x7b' :: (inside ++ ['\x7d']) := by
  obtain ⟨⟨_, rest, shorter⟩, hvalue, rfl, -⟩ :=
    exists_of_document_eq_ok (document_eq_ok_of_read h)
  obtain ⟨tail, hopen⟩ := exists_cons_of_takes_object ⟨shorter, hvalue⟩
  have hhead : (Text.strip text.toList).head? = some '\x7b' := by
    rw [head?_strip_of_read h, hopen]
    rfl
  rcases head?_cases_of_value (exists_value_of_read h).1 hhead with hmem | ⟨-, hinside⟩
  · exact absurd hmem (by decide)
  · exact hinside

/-- A document is an object if it starts with an opening brace. -/
theorem exists_object_of_head?_strip {text : String} {found : Json} (h : read text = .ok found)
    (hhead : (Text.strip text.toList).head? = some '\x7b') : ∃ members, found = .object members := by
  obtain ⟨⟨_, rest, shorter⟩, hvalue, rfl, -⟩ :=
    exists_of_document_eq_ok (document_eq_ok_of_read h)
  have htakes : Takes (value maxDepth) (skipSpace text.toList) _ rest := ⟨shorter, hvalue⟩
  rw [head?_strip_of_read h] at hhead
  obtain ⟨tail, hskip⟩ := List.head?_eq_some_iff.1 hhead
  rw [hskip] at htakes
  exact exists_object_of_takes_cons htakes

end RequestForms.Json
