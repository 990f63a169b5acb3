/-!
# Line breaks

Lines joined by line breaks, and texts without the places at which the shell joins two lines: there
a backslash stands directly before a line break.
-/

namespace RequestForms.Text

theorem intercalate_cons (sep first : List Char) (parts : List (List Char)) :
    sep.intercalate (first :: parts) = first ++ parts.flatMap (sep ++ ·) := by
  induction parts generalizing first with
  | nil => simp
  | cons next parts ih =>
      rw [List.intercalate_cons_cons, ih, List.flatMap_cons]
      simp

theorem intercalate_concat {sep : String} {parts : List String} (h : parts ≠ []) (last : String) :
    sep.intercalate (parts ++ [last]) = sep.intercalate parts ++ sep ++ last := by
  obtain ⟨first, parts, rfl⟩ := List.exists_cons_of_ne_nil h
  rw [← String.toList_inj]
  calc
    (sep.intercalate (first :: parts ++ [last])).toList =
        first.toList ++ ((parts.map String.toList).flatMap (sep.toList ++ ·) ++
          (sep.toList ++ last.toList)) := by
      rw [String.toList_intercalate, List.cons_append, List.map_cons, List.map_append,
        intercalate_cons, List.flatMap_append, List.map_singleton, List.flatMap_singleton]
    _ = (sep.intercalate (first :: parts) ++ sep ++ last).toList := by
      rw [String.toList_append, String.toList_append, String.toList_intercalate, List.map_cons,
        intercalate_cons]
      simp only [List.append_assoc]

/-- What stands before and behind one of the parts. -/
theorem toList_intercalate_append_cons (sep : String) (front : List String) (part : String)
    (behind : List String) :
    (sep.intercalate (front ++ part :: behind)).toList =
      front.flatMap (fun other => other.toList ++ sep.toList) ++
        (part.toList ++ behind.flatMap fun other => sep.toList ++ other.toList) := by
  rw [String.toList_intercalate]
  induction front with
  | nil =>
      rw [List.nil_append, List.map_cons, intercalate_cons, List.flatMap_map]
      rfl
  | cons first front ih =>
      obtain ⟨next, more, hmore⟩ : ∃ next more,
          (front ++ part :: behind).map String.toList = next :: more :=
        List.exists_cons_of_ne_nil (by simp)
      rw [List.cons_append, List.map_cons, hmore, List.intercalate_cons_cons, ← hmore, ih,
        List.flatMap_cons]
      simp only [List.append_assoc]

theorem isInfix_intercalate {sep part : String} {parts : List String} (h : part ∈ parts) :
    part.toList <:+: (sep.intercalate parts).toList := by
  obtain ⟨first, parts, rfl⟩ := List.exists_cons_of_ne_nil (List.ne_nil_of_mem h)
  rw [String.toList_intercalate, List.map_cons, intercalate_cons, List.flatMap_def]
  rcases List.mem_cons.1 h with rfl | h
  · exact List.infix_append [] _ _
  · have hmem : sep.toList ++ part.toList ∈
        (parts.map String.toList).map (sep.toList ++ ·) :=
      List.mem_map_of_mem (List.mem_map_of_mem h)
    have hpart := (List.suffix_append sep.toList part.toList).isInfix
    exact (hpart.trans (List.infix_of_mem_flatten hmem)).trans (List.suffix_append _ _).isInfix

/-- Each line but the last has a line break behind it. -/
theorem toList_intercalate_lines (lines : List String) (last : String) :
    ("\n".intercalate (lines ++ [last])).toList =
      lines.flatMap (fun line => line.toList ++ ['\n']) ++ last.toList := by
  rw [String.toList_intercalate]
  induction lines with
  | nil => simp
  | cons line lines ih =>
      have hne : (lines ++ [last]).map String.toList ≠ [] := by simp
      obtain ⟨next, more, hmore⟩ := List.exists_cons_of_ne_nil hne
      rw [List.cons_append, List.map_cons, hmore, List.intercalate_cons_cons, ← hmore, ih]
      simp

def startsLine : List Char → Bool
  | '\n' :: _ => true
  | '\r' :: '\n' :: _ => true
  | _ => false

theorem exists_of_startsLine {text : List Char} (h : startsLine text = true) :
    ∃ rest, text = '\n' :: rest ∨ text = '\r' :: '\n' :: rest := by
  unfold startsLine at h
  split at h
  · exact ⟨_, Or.inl rfl⟩
  · exact ⟨_, Or.inr rfl⟩
  · cases h

/-- Whether no backslash stands directly before a line break. -/
def isUnbroken : List Char → Bool
  | [] => true
  | c :: rest => !(c = '\\' && startsLine rest) && isUnbroken rest

theorem isUnbroken_cons {c : Char} {rest : List Char} :
    isUnbroken (c :: rest) = true ↔
      ¬(c = '\\' ∧ startsLine rest = true) ∧ isUnbroken rest = true := by
  simp only [isUnbroken, Bool.and_eq_true, Bool.not_eq_true', Bool.and_eq_false_iff,
    decide_eq_false_iff_not, not_and, Bool.not_eq_true]
  constructor
  · rintro ⟨h, hrest⟩
    exact ⟨fun hc => h.resolve_left fun hn => hn hc, hrest⟩
  · rintro ⟨h, hrest⟩
    refine ⟨?_, hrest⟩
    by_cases hc : c = '\\'
    · exact Or.inr (h hc)
    · exact Or.inl hc

/-- A text that does not break the line of the text before it. -/
def KeepsLine (rest : List Char) : Prop := rest.head? ≠ some '\n' ∧ rest.head? ≠ some '\r'

theorem startsLine_append {s rest : List Char} (h : KeepsLine rest) :
    startsLine (s ++ rest) = startsLine s := by
  obtain ⟨hn, hr⟩ := h
  cases s with
  | nil =>
      cases rest with
      | nil => rfl
      | cons c rest =>
          simp only [List.head?_cons, ne_eq, Option.some.injEq] at hn hr
          rw [List.nil_append]
          unfold startsLine
          split <;> simp_all
  | cons c s =>
      cases s with
      | nil =>
          cases rest with
          | nil => rfl
          | cons d rest =>
              simp only [List.head?_cons, ne_eq, Option.some.injEq] at hn
              simp only [List.cons_append, List.nil_append]
              unfold startsLine
              split <;> split <;> simp_all
      | cons d s =>
          unfold startsLine
          simp only [List.cons_append]
          split <;> split <;> simp_all

theorem isUnbroken_append {s rest : List Char} (hs : isUnbroken s = true)
    (hrest : isUnbroken rest = true) (h : KeepsLine rest) : isUnbroken (s ++ rest) = true := by
  induction s with
  | nil => exact hrest
  | cons c s ih =>
      obtain ⟨hc, hs⟩ := isUnbroken_cons.1 hs
      rw [List.cons_append, isUnbroken_cons, startsLine_append h]
      exact ⟨hc, ih hs⟩

theorem startsLine_eq_false {rest : List Char} (h : KeepsLine rest) : startsLine rest = false :=
  startsLine_append (s := []) h

theorem isUnbroken_append_of_not_mem {s rest : List Char} (h : '\\' ∉ s)
    (hrest : isUnbroken rest = true) : isUnbroken (s ++ rest) = true := by
  induction s with
  | nil => exact hrest
  | cons c s ih =>
      simp only [List.mem_cons, not_or] at h
      exact isUnbroken_cons.2 ⟨fun hc => h.1 hc.1.symm, ih h.2⟩

theorem isUnbroken_of_not_mem {s : List Char} (h : '\\' ∉ s) : isUnbroken s = true := by
  have happend : isUnbroken (s ++ []) = true := isUnbroken_append_of_not_mem h rfl
  rwa [List.append_nil] at happend

end RequestForms.Text
