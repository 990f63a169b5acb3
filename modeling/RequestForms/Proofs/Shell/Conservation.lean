import RequestForms.Proofs.Shell.Bare

/-!
# What becomes of the characters of a text

A scan drops nothing but spaces, quotes and backslashes, and puts the rest into the words in its
order. So the words of a text hold all its other characters, however its quotes are closed, and a
space behind a text parts words exactly if the scan of the text ends outside quotes and escapes.
-/

namespace RequestForms.Shell

/-! ## What is kept -/

/-- A text without the characters that can part words or steer the scan. -/
def inert (text : List Char) : List Char := text.filter fun c => !isActive c

theorem inert_cons (c : Char) (text : List Char) :
    inert (c :: text) = if isActive c then inert text else c :: inert text := by
  rw [inert, List.filter_cons]
  cases isActive c <;> rfl

/-- A character that is not kept is a space, a quote or a backslash. -/
theorem isActive_of_step_ne_kept {mode : Mode} {c : Char} (h : (step mode c).2 ≠ .kept) :
    isActive c = true := by
  cases hactive : isActive c with
  | true => rfl
  | false =>
      exfalso
      apply h
      have hbare := step_bare_of_not_isActive hactive
      simp only [isActive, Bool.or_eq_false_iff, decide_eq_false_iff_not] at hactive
      obtain ⟨⟨⟨-, hsingle⟩, hdouble⟩, hescape⟩ := hactive
      cases mode with
      | bare => rw [hbare]
      | single => rw [step, if_neg hsingle]
      | double => rw [step, if_neg hescape, if_neg hdouble]
      | bareEscape => rfl
      | doubleEscape => rfl

theorem kept_cons_of_ne_kept {mode : Mode} {c : Char} (h : (step mode c).2 ≠ .kept)
    (rest : List Char) : kept mode (c :: rest) = kept (step mode c).1 rest := by
  rw [kept]
  cases hrole : (step mode c).2 with
  | kept => exact absurd hrole h
  | dropped => rfl
  | separator => rfl

theorem inert_kept (mode : Mode) (text : List Char) : inert (kept mode text) = inert text := by
  induction text generalizing mode with
  | nil => rfl
  | cons c rest ih =>
      by_cases hkept : (step mode c).2 = .kept
      · simp only [kept, hkept, inert_cons, ih]
      · rw [kept_cons_of_ne_kept hkept, ih, inert_cons, if_pos (isActive_of_step_ne_kept hkept)]

theorem toList_join_words (text : String) :
    (String.join (words text)).toList = kept .bare text.toList := by
  rw [String.toList_join, words, List.flatMap_map, ← flatten_words_scan, split, List.flatMap_def]
  simp

/-- No word is empty, and the words in a row are the text without some of its spaces, quotes and
backslashes, also where a quote is left open or nothing is behind a backslash. -/
theorem words_conserve (text : String) :
    (∀ word ∈ words text, word ≠ "") ∧
      (String.join (words text)).toList.Sublist text.toList ∧
      inert (String.join (words text)).toList = inert text.toList := by
  rw [toList_join_words]
  exact ⟨fun word hword => ne_empty_of_mem_words hword, kept_sublist .bare text.toList,
    inert_kept .bare text.toList⟩

example : words "a\\ b \"c\\" = ["a b", "c"] := by decide

/-! ## Where a text can be cut -/

/-- Inside quotes and behind a backslash a space is kept. -/
theorem step_space_of_ne_bare {mode : Mode} (h : mode ≠ .bare) : (step mode ' ').2 = .kept := by
  cases mode with
  | bare => exact absurd rfl h
  | single => rfl
  | double => rfl
  | bareEscape => rfl
  | doubleEscape => rfl

theorem kept_append_space_ne {mode : Mode} {a : List Char} (h : modeAfter mode a ≠ .bare) :
    kept mode (a ++ [' ']) ≠ kept mode a := by
  have hspace : kept (modeAfter mode a) [' '] = [' '] := by
    simp only [kept, step_space_of_ne_bare h]
  rw [kept_append, hspace]
  simp

/-- The words of two texts with a space between them follow each other, whatever the second text
is, exactly if no quote is open and no escape is pending behind the first. -/
theorem modeAfter_eq_bare_iff (a : String) :
    modeAfter .bare a.toList = .bare ↔
      ∀ b : String, words (a ++ " " ++ b) = words a ++ words b := by
  constructor
  · intro h b
    have htext : (a ++ " " ++ b).toList = a.toList ++ ' ' :: b.toList := by simp
    rw [words, htext, split_append_space h, List.map_append]
    rfl
  · intro h
    refine Decidable.byContradiction fun hmode => ?_
    -- with nothing behind it the space is already one character too many in the words
    have hjoin := congrArg (fun found => (String.join found).toList) (h "")
    have hempty : words "" = [] := rfl
    have htext : (a ++ " " ++ "").toList = a.toList ++ [' '] := by simp
    rw [hempty, List.append_nil] at hjoin
    simp only [toList_join_words, htext] at hjoin
    exact kept_append_space_ne hmode hjoin

end RequestForms.Shell
