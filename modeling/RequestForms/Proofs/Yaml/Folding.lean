import Mathlib.Data.List.TakeWhile
import RequestForms.Yaml.Scalar

/-!
# Folded lines

Outside double quotes a line is folded at a space, and the line breaks of a text get one more behind
them. So a single line break on the lines stands for a space, and of several all but one are those
of the text. Where the lines are folded does not matter to what they stand for.
-/

namespace RequestForms.Yaml

/-- The lines that a text may be folded to, the later ones with an indentation. -/
inductive Folds (indent : Nat) : List Char → List Char → Prop
  | nil : Folds indent [] []
  | char {c : Char} {s lines : List Char} (hc : c ≠ '\n') (h : Folds indent s lines) :
      Folds indent (c :: s) (c :: lines)
  | space {s lines : List Char} (h : Folds indent s lines) :
      Folds indent (' ' :: s) (newLine indent ++ lines)
  | breaks {run s lines : List Char} (hrun : ∀ c ∈ run, c = '\n') (h : Folds indent s lines) :
      Folds indent ('\n' :: run ++ s) ('\n' :: run ++ (newLine indent ++ lines))

def unfolded (indent : Nat) : List Char → List Char
  | [] => []
  | c :: rest =>
      if c = '\n' then
        let run := rest.takeWhile (· = '\n')
        (if run = [] then [' '] else run) ++
          unfolded indent ((rest.dropWhile (· = '\n')).drop indent)
      else c :: unfolded indent rest
termination_by lines => lines.length
decreasing_by
  · have := (List.dropWhile_sublist (· = '\n') (l := rest)).length_le
    simp only [List.length_drop, List.length_cons]
    omega
  · simp

theorem unfolded_cons {c : Char} (hc : c ≠ '\n') (indent : Nat) (rest : List Char) :
    unfolded indent (c :: rest) = c :: unfolded indent rest := by
  rw [unfolded, if_neg hc]

theorem unfolded_newLine {indent : Nat} (hindent : 0 < indent) (n : Nat) (lines : List Char) :
    unfolded indent (List.replicate n '\n' ++ (newLine indent ++ lines)) =
      (if n = 0 then [' '] else List.replicate n '\n') ++ unfolded indent lines := by
  obtain ⟨i, rfl⟩ := Nat.exists_eq_add_of_lt hindent
  have hrun : ∀ c ∈ List.replicate n '\n', decide (c = '\n') = true := by
    intro c hc
    exact decide_eq_true (List.eq_of_mem_replicate hc)
  have hlines : List.replicate n '\n' ++ (newLine (0 + i + 1) ++ lines) =
      '\n' :: (List.replicate n '\n' ++ (List.replicate (i + 1) ' ' ++ lines)) := by
    rw [newLine, Nat.zero_add, List.cons_append, ← List.singleton_append, ← List.append_assoc,
      ← List.replicate_succ', List.replicate_succ, List.cons_append]
  have htake : (List.replicate n '\n' ++ (List.replicate (i + 1) ' ' ++ lines)).takeWhile
      (· = '\n') = List.replicate n '\n' := by
    rw [List.takeWhile_append_of_pos hrun]
    simp [List.replicate_succ]
  have hdrop : (List.replicate n '\n' ++ (List.replicate (i + 1) ' ' ++ lines)).dropWhile
      (· = '\n') = List.replicate (i + 1) ' ' ++ lines := by
    rw [List.dropWhile_append_of_pos hrun]
    simp [List.replicate_succ]
  rw [hlines, unfolded, if_pos rfl]
  simp only [htake, hdrop, Nat.zero_add, List.replicate_eq_nil_iff]
  rw [List.drop_left' List.length_replicate]

/-- Folding can be undone. -/
theorem Folds.unfolded_eq {indent : Nat} (hindent : 0 < indent) {s lines : List Char}
    (h : Folds indent s lines) : unfolded indent lines = s := by
  induction h with
  | nil => rw [unfolded]
  | char hc _ ih => rw [unfolded_cons hc, ih]
  | space _ ih =>
      rename_i s lines _
      have hspace := unfolded_newLine hindent 0 lines
      rw [List.replicate_zero, List.nil_append] at hspace
      rw [hspace, if_pos rfl, ih]
      rfl
  | breaks hrun _ ih =>
      rename_i run s lines _
      obtain ⟨n, rfl⟩ : ∃ n, run = List.replicate n '\n' := ⟨_, List.eq_replicate_of_mem hrun⟩
      rw [← List.replicate_succ, unfolded_newLine hindent, if_neg (Nat.succ_ne_zero n), ih]

theorem Folds.append {indent : Nat} {front s lines : List Char} (hfront : '\n' ∉ front)
    (h : Folds indent s lines) : Folds indent (front ++ s) (front ++ lines) := by
  induction front with
  | nil => exact h
  | cons c front ih =>
      simp only [List.mem_cons, not_or] at hfront
      exact .char (Ne.symm hfront.1) (ih hfront.2)

theorem forall_mem_takeWhile_eq (c : Char) (rest : List Char) :
    ∀ d ∈ rest.takeWhile (· = c), d = c := by
  intro d hd
  simpa using List.mem_takeWhile_imp hd

/-- A run of spaces may stay where it is. -/
theorem Folds.spaces {indent : Nat} {rest lines : List Char}
    (h : Folds indent (rest.dropWhile (· = ' ')) lines) :
    Folds indent (' ' :: rest) (' ' :: rest.takeWhile (· = ' ') ++ lines) := by
  have hfront : '\n' ∉ rest.takeWhile (· = ' ') := fun hmem =>
    absurd (forall_mem_takeWhile_eq ' ' rest '\n' hmem) (by decide)
  have happend := h.append hfront
  rw [List.takeWhile_append_dropWhile] at happend
  exact .char (by decide) happend

/-- A run of line breaks gets one more behind it. -/
theorem Folds.lineBreaks {indent : Nat} {rest lines : List Char}
    (h : Folds indent (rest.dropWhile (· = '\n')) lines) :
    Folds indent ('\n' :: rest)
      ('\n' :: rest.takeWhile (· = '\n') ++ (newLine indent ++ lines)) := by
  have hbreaks := Folds.breaks (forall_mem_takeWhile_eq '\n' rest) h
  rwa [List.cons_append, List.takeWhile_append_dropWhile] at hbreaks

/-- A character that is neither a space nor a line break stays where it is. -/
theorem Folds.exists_cons {indent : Nat} {c : Char} {s lines : List Char} (hspace : c ≠ ' ')
    (hbreak : c ≠ '\n') (h : Folds indent (c :: s) lines) :
    ∃ more, lines = c :: more ∧ Folds indent s more := by
  generalize htext : c :: s = text at h
  cases h with
  | nil => cases htext
  | char hc h =>
      obtain ⟨rfl, rfl⟩ := List.cons.inj htext
      exact ⟨_, rfl, h⟩
  | space h => exact absurd (List.cons.inj htext).1 hspace
  | breaks hrun h => exact absurd (List.cons.inj htext).1 hbreak

/-- A text whose later lines have an indentation, or one that stays on one line. -/
def FoldsAt (indent : Nat) (folding : Folding) (s : List Char) : Prop :=
  folding = some indent ∨ folding = none ∧ '\n' ∉ s

theorem FoldsAt.some (indent : Nat) (s : List Char) : FoldsAt indent (some indent) s := Or.inl rfl

theorem FoldsAt.none {s : List Char} (h : '\n' ∉ s) (indent : Nat) : FoldsAt indent none s :=
  Or.inr ⟨rfl, h⟩

theorem FoldsAt.eq_indent {indent : Nat} {folding : Folding} {s : List Char}
    (h : FoldsAt indent folding s) : ∀ i ∈ folding, i = indent := by
  rcases h with rfl | ⟨rfl, -⟩
  · exact fun i hi => (Option.some.inj hi).symm
  · exact fun i hi => absurd hi (by simp)

section Folded

variable {folding : Folding} {indent : Nat} {mark : Char → List Char}

theorem flatMap_of_forall_eq {mark : Char → List Char} {run : List Char} {c : Char}
    (hmark : mark c = [c]) (hrun : ∀ d ∈ run, d = c) : run.flatMap mark = run := by
  obtain ⟨n, rfl⟩ : ∃ n, run = List.replicate n c := ⟨_, List.eq_replicate_of_mem hrun⟩
  induction n with
  | zero => rfl
  | succ n ih =>
      rw [List.replicate_succ, List.flatMap_cons, hmark,
        ih fun d hd => List.eq_of_mem_replicate hd]
      rfl

theorem flatMap_newLine (hspace : mark ' ' = [' ']) (hbreak : mark '\n' = ['\n']) (indent : Nat) :
    (newLine indent).flatMap mark = newLine indent := by
  rw [newLine, List.flatMap_cons, hbreak,
    flatMap_of_forall_eq hspace fun d hd => List.eq_of_mem_replicate hd]
  rfl

theorem flatMap_run {c : Char} (hmark : mark c = [c]) (rest lines : List Char) :
    (c :: rest.takeWhile (· = c) ++ lines).flatMap mark =
      c :: rest.takeWhile (· = c) ++ lines.flatMap mark := by
  rw [List.cons_append, List.flatMap_cons, hmark, List.flatMap_append,
    flatMap_of_forall_eq hmark (forall_mem_takeWhile_eq c rest)]
  rfl

variable (mark) in
/-- What is written folds the text, with each character marked. -/
theorem exists_folds_folded (hspace : mark ' ' = [' ']) (hbreak : mark '\n' = ['\n'])
    (atStart : Bool) (column : Nat) (s : List Char)
    (hfolding : FoldsAt indent folding s) :
    ∃ lines, Folds indent s lines ∧
      folded folding mark atStart column s = lines.flatMap mark := by
  induction atStart, column, s using folded.induct folding mark with
  | case1 atStart column => exact ⟨[], .nil, by rw [folded]; rfl⟩
  | case2 atStart column rest run behind i hi hfold ih =>
      subst hi
      obtain rfl := hfolding.eq_indent i rfl
      obtain ⟨lines, hlines, heq⟩ := ih (.some _ _)
      have hbehind : rest = behind := by
        rw [← List.takeWhile_append_dropWhile (p := (· = ' ')) (l := rest)]
        exact congrArg (· ++ behind) hfold.1
      refine ⟨newLine i ++ lines, ?_, ?_⟩
      · rw [hbehind]
        exact .space hlines
      · rw [folded, List.flatMap_append, flatMap_newLine hspace hbreak, ← heq]
        exact if_pos hfold
  | case3 atStart column rest run behind i hi hkeep ih =>
      subst hi
      obtain ⟨lines, hlines, heq⟩ := ih (.inl (congrArg Option.some (hfolding.eq_indent i rfl)))
      refine ⟨_, hlines.spaces, ?_⟩
      rw [folded, flatMap_run hspace, ← heq]
      exact if_neg hkeep
  | case4 atStart column rest run behind hnone ih =>
      subst hnone
      have hbehind : '\n' ∉ behind := by
        intro hmem
        have := (List.dropWhile_sublist (· = ' ') (l := rest)).subset hmem
        simp [FoldsAt, this] at hfolding
      obtain ⟨lines, hlines, heq⟩ := ih (.none hbehind indent)
      refine ⟨_, hlines.spaces, ?_⟩
      rw [folded, flatMap_run hspace, ← heq]
  | case5 atStart column rest i ih =>
      obtain rfl : folding = some indent := by simpa [FoldsAt] using hfolding
      obtain ⟨lines, hlines, heq⟩ := ih (.some _ _)
      refine ⟨_, hlines.lineBreaks, ?_⟩
      rw [folded, flatMap_run hbreak, List.flatMap_append, flatMap_newLine hspace hbreak, ← heq,
        ← List.append_assoc]
      rfl
  | case6 atStart column c rest hcspace hcbreak ih =>
      have hrest : FoldsAt indent folding rest :=
        hfolding.imp_right fun h => ⟨h.1, fun hmem => h.2 (List.mem_cons_of_mem c hmem)⟩
      obtain ⟨lines, hlines, heq⟩ := ih hrest
      refine ⟨c :: lines, .char hcbreak hlines, ?_⟩
      rw [folded, List.flatMap_cons, ← heq]
      · exact hcspace
      · exact hcbreak

end Folded

end RequestForms.Yaml
