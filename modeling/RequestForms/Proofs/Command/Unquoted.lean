import Mathlib.Tactic.MkIffOfInductiveProp
import RequestForms.Proofs.Command.Lines
import RequestForms.Proofs.Shell.Unquoted

/-!
# Commands of unquoted arguments

Arguments that are only joined with spaces behind the name of the program come back as they are
exactly if none of them has a space, a quote or a backslash and the text that they make up has no
blanks around it.
-/

namespace RequestForms.Command

open Text (isUnbroken isUnbroken_of_not_mem KeepsLine)

def unquoted (args : List String) : String := " ".intercalate ("curl" :: args)

/-! ## Joining lines -/

theorem length_joinLines_le (text : List Char) : (joinLines text).length ≤ text.length := by
  induction text using joinLines.induct with
  | case1 rest ih =>
      have hstrip := Text.length_stripStart_le rest
      rw [joinLines]
      simp only [List.length_cons]
      omega
  | case2 rest ih =>
      have hstrip := Text.length_stripStart_le rest
      rw [joinLines]
      simp only [List.length_cons]
      omega
  | case3 c rest hline hreturn ih =>
      rw [joinLines]
      · simpa using ih
      · exact hline
      · exact hreturn
  | case4 => simp [joinLines]

/-- Lines that lose nothing are not joined. -/
theorem joinLines_eq_self_of_le {text : List Char} (h : text.length ≤ (joinLines text).length) :
    joinLines text = text := by
  induction text using joinLines.induct with
  | case1 rest ih =>
      have hstrip := Text.length_stripStart_le rest
      have hrest := length_joinLines_le (Text.stripStart rest)
      rw [joinLines] at h
      simp only [List.length_cons] at h
      omega
  | case2 rest ih =>
      have hstrip := Text.length_stripStart_le rest
      have hrest := length_joinLines_le (Text.stripStart rest)
      rw [joinLines] at h
      simp only [List.length_cons] at h
      omega
  | case3 c rest hline hreturn ih =>
      rw [joinLines.eq_3 c rest hline hreturn] at h ⊢
      rw [ih (by simpa using h)]
  | case4 => rw [joinLines]

/-! ## The words of the command -/

theorem toList_unquoted {args : List String} (h : args ≠ []) :
    (unquoted args).toList = "curl".toList ++ ' ' :: (" ".intercalate args).toList := by
  obtain ⟨arg, args, rfl⟩ := List.exists_cons_of_ne_nil h
  rw [unquoted, String.toList_intercalate, String.toList_intercalate, List.map_cons, List.map_cons,
    List.intercalate_cons_cons, List.append_assoc]
  rfl

/-- The name of the program does not count unless there is nothing else. -/
theorem normalizeChars_curl (text : List Char) :
    normalizeChars ("curl".toList ++ ' ' :: text) =
      if Text.stripEnd (joinLines text) = [] then "curl".toList
      else Text.stripStart (Text.stripEnd (joinLines text)) := by
  have hkeeps : KeepsLine (' ' :: text) := ⟨by simp, by simp⟩
  have hjoin : joinLines ("curl".toList ++ ' ' :: text) =
      "curl".toList ++ ' ' :: joinLines text := by
    rw [joinLines_append (by decide) hkeeps, joinLines_cons (by simp)]
  rw [normalizeChars, hjoin, Text.strip_append (by decide) (by decide), ← List.singleton_append]
  split
  · next hblank =>
      obtain ⟨b, hb, htext⟩ := Text.exists_stripEnd_append_blank (joinLines text)
      rw [hblank, List.nil_append] at htext
      rw [htext, Text.stripEnd_append_of_blank hb]
      decide
  · next hblank =>
      rw [Text.stripEnd_append_of_ne_nil hblank]
      change dropProgramName ('c' :: 'u' :: 'r' :: 'l' :: ' ' :: _) = _
      rw [dropProgramName, if_pos (by decide)]
      rfl

/-- Arguments that need no quotes, and make up a text without blanks around it. -/
@[mk_iff] structure NeedNoQuotes (args : List String) : Prop where
  ne_nil : args ≠ []
  not_active : ∀ arg ∈ args, ∀ c ∈ arg.toList, Shell.isActive c = false
  trim_eq : Text.trim (" ".intercalate args) = " ".intercalate args

instance (args : List String) : Decidable (NeedNoQuotes args) :=
  decidable_of_iff _ (needNoQuotes_iff args).symm

theorem NeedNoQuotes.strip_eq {args : List String} (h : NeedNoQuotes args) :
    Text.strip (" ".intercalate args).toList = (" ".intercalate args).toList :=
  Text.trim_eq_self_iff.1 h.trim_eq

/-- Words are not lost from a text that needs no quotes. -/
theorem NeedNoQuotes.split_eq {args : List String} (h : NeedNoQuotes args)
    (hne : ∀ arg ∈ args, arg ≠ "") :
    Shell.split (" ".intercalate args).toList = args.map String.toList := by
  rw [String.toList_intercalate]
  apply Shell.split_intercalate_of_not_isActive
  · simpa using hne
  · simpa using h.not_active

theorem NeedNoQuotes.stripEnd_ne_nil {args : List String} (h : NeedNoQuotes args)
    (hne : ∀ arg ∈ args, arg ≠ "") : Text.stripEnd (" ".intercalate args).toList ≠ [] := by
  intro hnil
  rw [Text.stripEnd_eq_self_of_strip h.strip_eq] at hnil
  have hsplit := h.split_eq hne
  rw [hnil] at hsplit
  exact h.ne_nil (List.map_eq_nil_iff.1 hsplit.symm)

theorem arguments_eq_iff_split_eq {text : String} {args : List String} :
    arguments text = args ↔
      Shell.split (normalizeChars text.toList) = args.map String.toList := by
  rw [arguments, Shell.words, normalize, String.toList_ofList]
  constructor
  · rintro rfl
    simp [Function.comp_def]
  · intro h
    rw [h]
    simp [Function.comp_def]

/-- A text that loses nothing on its way to the words is left as it is at every stage. -/
theorem stages_eq_self_of_le {text : List Char}
    (h : text.length ≤ (Text.stripStart (Text.stripEnd (joinLines text))).length) :
    joinLines text = text ∧ Text.strip text = text := by
  have hjoin := length_joinLines_le text
  have hend := Text.length_stripEnd_le (joinLines text)
  have hstart := Text.length_stripStart_le (Text.stripEnd (joinLines text))
  have hline : joinLines text = text := joinLines_eq_self_of_le (by omega)
  rw [hline] at h hend hstart
  have hselfEnd : Text.stripEnd text = text := Text.stripEnd_eq_self_of_le (by omega)
  rw [hselfEnd] at h
  have hselfStart : Text.stripStart text = text := (Text.stripStart_suffix text).eq_of_length_le h
  exact ⟨hline, by rw [Text.strip, hselfStart, hselfEnd]⟩

/-- The name of the program is the only word of a blank text, and is not blank. -/
theorem not_blank_of_split_eq_name {args : List String}
    (h : Shell.split "curl".toList = args.map String.toList) :
    Text.stripEnd (joinLines (" ".intercalate args).toList) ≠ [] := by
  have hname : Shell.split "curl".toList = ["curl".toList] := by decide
  rw [String.toList_intercalate, ← h, hname, List.intercalate_singleton,
    joinLines_of_isUnbroken (by decide)]
  decide

/-- The text behind the name of the program loses as much as the words lose that it is read as, so
it loses nothing if they are what it was made of. -/
theorem needNoQuotes_of_arguments_eq {args : List String} (h : arguments (unquoted args) = args) :
    NeedNoQuotes args := by
  have hne : args ≠ [] := by
    rintro rfl
    exact absurd h (by decide +kernel)
  obtain ⟨text, htext⟩ : ∃ text, text = (" ".intercalate args).toList := ⟨_, rfl⟩
  have hwords : text = [' '].intercalate (args.map String.toList) :=
    htext.trans String.toList_intercalate
  rw [arguments_eq_iff_split_eq, toList_unquoted hne, normalizeChars_curl] at h
  split at h
  · next hblank => exact absurd hblank (not_blank_of_split_eq_name h)
  · rw [← htext] at h
    have hlength := Shell.length_intercalate_split_le
      (Text.stripStart (Text.stripEnd (joinLines text)))
    rw [h, ← hwords] at hlength
    obtain ⟨hline, hstrip⟩ := stages_eq_self_of_le hlength
    rw [hline, Text.stripEnd_eq_self_of_strip hstrip, Text.stripStart_eq_self_of_strip hstrip] at h
    have hkept : text.length ≤ ([' '].intercalate (Shell.split text)).length := by
      rw [h]
      exact Nat.le_of_eq (congrArg List.length hwords)
    refine ⟨hne, fun arg harg => Shell.not_isActive_of_le_length hkept arg.toList ?_, ?_⟩
    · rw [h]
      exact List.mem_map_of_mem harg
    · rwa [Text.trim_eq_self_iff, ← htext]

theorem arguments_eq_of_needNoQuotes {args : List String} (hne : ∀ arg ∈ args, arg ≠ "")
    (h : NeedNoQuotes args) : arguments (unquoted args) = args := by
  rw [arguments_eq_iff_split_eq, toList_unquoted h.ne_nil, normalizeChars_curl]
  have hescape : '\\' ∉ (" ".intercalate args).toList := by
    obtain ⟨arg, rest, hargs⟩ := List.exists_cons_of_ne_nil h.ne_nil
    have hnone : ∀ arg ∈ args, '\\' ∉ arg.toList := fun arg harg hmem =>
      absurd (h.not_active arg harg '\\' hmem) (by decide)
    rw [hargs] at hnone ⊢
    rw [String.toList_intercalate, List.map_cons, Text.intercalate_cons]
    simpa using hnone
  rw [joinLines_of_isUnbroken (isUnbroken_of_not_mem hescape),
    if_neg (h.stripEnd_ne_nil hne), Text.stripEnd_eq_self_of_strip h.strip_eq,
    Text.stripStart_eq_self_of_strip h.strip_eq, h.split_eq hne]

/-- The words of the command are its arguments exactly if these need no quotes. -/
theorem arguments_unquoted_eq_iff {args : List String} (hne : ∀ arg ∈ args, arg ≠ "") :
    arguments (unquoted args) = args ↔ NeedNoQuotes args :=
  ⟨needNoQuotes_of_arguments_eq, arguments_eq_of_needNoQuotes hne⟩

end RequestForms.Command
