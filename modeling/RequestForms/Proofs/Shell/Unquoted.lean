import RequestForms.Proofs.Shell.Bare
import RequestForms.Proofs.Text.Lines

/-!
# Texts in a row without quotes

Texts that are only joined with spaces are read back as one word each exactly if none of them has a
character that parts words or steers the scan. The reason is one of lengths: each word but the first
costs a separator, so nothing is left over that the scan could drop.
-/

namespace RequestForms.Shell

theorem isActive_eq_false {c : Char} (hspace : c ≠ ' ') (hmark : isMark c = false) :
    isActive c = false := by
  rw [isActive_eq, hmark, decide_eq_false hspace]
  rfl

theorem Scan.length_words_le (scan : Scan) : scan.words.length ≤ scan.later.length + 1 := by
  unfold words
  split
  · exact Nat.le_succ _
  · exact Nat.le_refl _

/-- Each word behind the first one costs a character that is not kept. -/
theorem length_kept_add_le (mode : Mode) (text : List Char) :
    (kept mode text).length + (scan mode text).later.length ≤ text.length := by
  induction text generalizing mode with
  | nil => exact Nat.le_refl 0
  | cons c rest ih =>
      have hrest := ih (step mode c).1
      rw [kept, scan, List.length_cons]
      cases (step mode c).2 with
      | kept => dsimp only; rw [List.length_cons]; omega
      | dropped => dsimp only; omega
      | separator =>
          have hwords := (scan (step mode c).1 rest).length_words_le
          dsimp only
          omega

/-- If a scan loses no more than that, it never drops a mark, so that it never leaves the bare
mode. -/
theorem not_isMark_of_le_length_kept {text : List Char}
    (h : text.length ≤ (kept .bare text).length + (scan .bare text).later.length) :
    ∀ c ∈ text, isMark c = false := by
  induction text with
  | nil => exact List.forall_mem_nil _
  | cons c rest ih =>
      have hrest := length_kept_add_le .bare rest
      rw [kept, scan, List.length_cons] at h
      cases hc : isMark c with
      | true =>
          rw [step_bare_of_isMark hc] at h
          have hbehind := length_kept_add_le (step .bare c).1 rest
          dsimp only at h
          omega
      | false =>
          refine List.forall_mem_cons.2 ⟨hc, ih ?_⟩
          by_cases hspace : c = ' '
          · subst hspace
            have hwords := (scan .bare rest).length_words_le
            change rest.length + 1 ≤
              (kept .bare rest).length + (scan .bare rest).words.length at h
            omega
          · rw [step_bare_of_not_isActive (isActive_eq_false hspace hc)] at h
            dsimp only at h
            rw [List.length_cons] at h
            omega

theorem space_not_mem_kept {text : List Char} (h : ∀ c ∈ text, isMark c = false) :
    ' ' ∉ kept .bare text := by
  induction text with
  | nil => exact List.not_mem_nil
  | cons c rest ih =>
      have hrest := ih fun d hd => h d (List.mem_cons_of_mem c hd)
      by_cases hspace : c = ' '
      · subst hspace
        exact hrest
      · rw [kept, step_bare_of_not_isActive (isActive_eq_false hspace (h c (by simp)))]
        simpa using ⟨fun hc : ' ' = c => hspace hc.symm, hrest⟩

theorem length_intercalate_space (words : List (List Char)) :
    ([' '].intercalate words).length = words.flatten.length + (words.length - 1) := by
  cases words with
  | nil => rfl
  | cons word words =>
      rw [Text.intercalate_cons]
      induction words generalizing word with
      | nil => simp
      | cons next words ih =>
          have hnext := ih next
          simp only [List.flatMap_cons, List.flatten_cons, List.length_append, List.length_cons,
            List.length_nil] at hnext ⊢
          omega

theorem length_intercalate_split_le (text : List Char) :
    ([' '].intercalate (split text)).length ≤ text.length := by
  have hlength := length_kept_add_le .bare text
  have hwords := (scan .bare text).length_words_le
  rw [length_intercalate_space, split, flatten_words_scan]
  omega

/-- The words of a text that is as long as they are with spaces between them have no active
character. -/
theorem not_isActive_of_le_length {text : List Char}
    (h : text.length ≤ ([' '].intercalate (split text)).length) :
    ∀ word ∈ split text, ∀ c ∈ word, isActive c = false := by
  have hmark : ∀ c ∈ text, isMark c = false := by
    apply not_isMark_of_le_length_kept
    have hwords := (scan .bare text).length_words_le
    rw [length_intercalate_space, split, flatten_words_scan] at h
    omega
  intro word hword c hc
  have hkept : c ∈ kept .bare text := by
    rw [← flatten_words_scan]
    exact List.mem_flatten.2 ⟨word, hword, hc⟩
  have hspace : c ≠ ' ' := by
    rintro rfl
    exact space_not_mem_kept hmark hkept
  exact isActive_eq_false hspace (hmark c ((kept_sublist .bare text).subset hkept))

theorem split_intercalate_of_not_isActive {words : List (List Char)}
    (hne : ∀ word ∈ words, word ≠ []) (h : ∀ word ∈ words, ∀ c ∈ word, isActive c = false) :
    split ([' '].intercalate words) = words := by
  induction words with
  | nil => rfl
  | cons word words ih =>
      have hword := split_of_not_isActive (hne word (by simp)) (h word (by simp))
      have hwords := ih (fun w hw => hne w (List.mem_cons_of_mem word hw)) fun w hw =>
        h w (List.mem_cons_of_mem word hw)
      cases words with
      | nil => rwa [List.intercalate_singleton]
      | cons next words =>
          rw [List.intercalate_cons_cons, List.append_assoc, List.singleton_append,
            split_append_space (modeAfter_of_not_isActive (h word (by simp))), hword, hwords]
          rfl

end RequestForms.Shell
