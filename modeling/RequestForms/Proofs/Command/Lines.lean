import RequestForms.Command.Arguments
import RequestForms.Proofs.Shell.Words
import RequestForms.Proofs.Text.Blank
import RequestForms.Proofs.Text.Lines

/-!
# Joining the lines of a command

Lines are joined only where a backslash stands directly before a line break. A text without such a
place stays as it is, also between quotes.
-/

namespace RequestForms.Command

open Text (isUnbroken isUnbroken_cons startsLine startsLine_append KeepsLine)

theorem joinLines_cons {c : Char} {rest : List Char}
    (h : ¬(c = '\\' ∧ startsLine rest = true)) :
    joinLines (c :: rest) = c :: joinLines rest := by
  rw [joinLines.eq_def]
  split
  · next hs =>
      obtain ⟨rfl, rfl⟩ := List.cons.inj hs
      exact absurd ⟨rfl, rfl⟩ h
  · next hs =>
      obtain ⟨rfl, rfl⟩ := List.cons.inj hs
      exact absurd ⟨rfl, rfl⟩ h
  · next hs =>
      obtain ⟨rfl, rfl⟩ := List.cons.inj hs
      rfl
  · next hs => exact absurd hs (by simp)

theorem joinLines_append {s : List Char} (hs : isUnbroken s = true) {rest : List Char}
    (h : KeepsLine rest) : joinLines (s ++ rest) = s ++ joinLines rest := by
  induction s with
  | nil => rfl
  | cons c s ih =>
      obtain ⟨hc, hs⟩ := isUnbroken_cons.1 hs
      rw [List.cons_append, joinLines_cons (by rwa [startsLine_append h]), ih hs]
      rfl

theorem joinLines_of_isUnbroken {text : List Char} (h : isUnbroken text = true) :
    joinLines text = text := by
  have hkeeps : KeepsLine [] := ⟨by simp, by simp⟩
  have happend := joinLines_append h hkeeps
  rwa [joinLines, List.append_nil] at happend

theorem startsLine_quotedTail (s : List Char) :
    startsLine (Shell.quotedTail s) = startsLine s := by
  cases s with
  | nil => rfl
  | cons c s =>
      rw [Shell.quotedTail]
      split
      · next hc => rw [hc]; rfl
      · cases s with
        | nil => unfold Shell.quotedTail startsLine; split <;> split <;> simp_all
        | cons d s =>
            rw [Shell.quotedTail]
            split
            · next hd =>
                unfold startsLine
                split <;> split <;> simp_all
            · unfold startsLine
              split <;> split <;> simp_all

/-- Quoting brings no backslash before a line break. -/
theorem isUnbroken_quoteChars {s : List Char} (h : isUnbroken s = true) :
    isUnbroken (Shell.quoteChars s) = true := by
  rw [Shell.quoteChars, isUnbroken_cons]
  refine ⟨by simp, ?_⟩
  induction s with
  | nil => rfl
  | cons c s ih =>
      obtain ⟨hc, hs⟩ := isUnbroken_cons.1 h
      rw [Shell.quotedTail]
      split
      · simpa [isUnbroken_cons, startsLine] using ih hs
      · exact isUnbroken_cons.2 ⟨by rwa [startsLine_quotedTail], ih hs⟩

/-! ## The name of the program -/

/-- The name of the program and the blanks behind it do not count in front of a text that is not
blank at its own ends. -/
theorem normalizeChars_of_joinLines {text blanks field : List Char}
    (hjoin : joinLines text = "curl".toList ++ (blanks ++ field))
    (hblanks : ∀ c ∈ blanks, Text.isBlank c = true) (hne : blanks ≠ [])
    (hstrip : Text.strip field = field) (hfield : field ≠ []) :
    normalizeChars text = field := by
  obtain ⟨b, more, rfl⟩ := List.exists_cons_of_ne_nil hne
  have hend : Text.stripEnd field = field := Text.stripEnd_eq_self_of_strip hstrip
  have hline : Text.stripEnd (b :: more ++ field) = b :: more ++ field := by
    rw [Text.stripEnd_append_of_ne_nil (by rwa [hend]), hend]
  have hmore : ∀ c ∈ more, Text.isBlank c = true := fun c hc =>
    hblanks c (List.mem_cons_of_mem b hc)
  rw [normalizeChars, hjoin, Text.strip_append (by decide) (by decide), hline]
  change dropProgramName ('c' :: 'u' :: 'r' :: 'l' :: b :: (more ++ field)) = field
  rw [dropProgramName, if_pos (hblanks b (by simp)), Text.stripStart_append_of_blank hmore,
    Text.stripStart_eq_self_of_strip hstrip]

/-! ## Parts on lines of their own -/

structure IsPart (part : List Char) : Prop where
  unbroken : isUnbroken part = true
  head : ∃ c rest, part = c :: rest ∧ Text.isBlank c = false

def onLines (parts : List (List Char)) : List Char :=
  parts.flatMap fun part => ' ' :: '\\' :: '\n' :: ' ' :: ' ' :: part

def onOneLine (parts : List (List Char)) : List Char :=
  parts.flatMap fun part => ' ' :: ' ' :: part

theorem keepsLine_onLines (parts : List (List Char)) : KeepsLine (onLines parts) := by
  cases parts with
  | nil => exact ⟨by simp [onLines], by simp [onLines]⟩
  | cons part parts => exact ⟨by simp [onLines], by simp [onLines]⟩

/-- Each line break between parts becomes two spaces. -/
theorem joinLines_onLines {parts : List (List Char)} (h : ∀ part ∈ parts, IsPart part) :
    joinLines (onLines parts) = onOneLine parts := by
  induction parts with
  | nil => simp [onLines, onOneLine, joinLines]
  | cons part parts ih =>
      obtain ⟨hunbroken, c, rest, rfl, hc⟩ := h part (by simp)
      have hspace : Text.isBlank ' ' = true := by decide
      have hstrip : Text.stripStart (' ' :: ' ' :: ((c :: rest) ++ onLines parts)) =
          (c :: rest) ++ onLines parts := by
        rw [Text.stripStart_cons_of_blank hspace, Text.stripStart_cons_of_blank hspace]
        exact Text.stripStart_cons_of_not_blank hc _
      change joinLines (' ' :: '\\' :: '\n' :: ' ' :: ' ' :: ((c :: rest) ++ onLines parts)) =
        ' ' :: ' ' :: ((c :: rest) ++ onOneLine parts)
      rw [joinLines_cons (by simp), joinLines, hstrip,
        joinLines_append hunbroken (keepsLine_onLines parts),
        ih fun p hp => h p (List.mem_cons_of_mem _ hp)]

end RequestForms.Command
