import RequestForms.Proofs.Json.Document
import RequestForms.Proofs.Json.Local

/-!
# Blanks around a document

A document is the same one with the four blanks of JSON around it, and none with any other. It is
also the same one without any blanks around it.
-/

namespace RequestForms.Json

variable {text rest : List Char}

/-! ## Documents from values -/

/-- No value starts with a blank. -/
theorem value_eq_error_of_blank {c : Char} (hc : Text.isBlank c = true) (depth : Nat)
    (tail : List Char) : value depth (c :: tail) = .error (.malformed .value (c :: tail)) := by
  have hends : EndsValue (c :: tail) := by
    rintro d ⟨⟩
    exact hc
  have hliteral : literal? (c :: tail) literals = none :=
    literal?_append literals_not_blank hends []
  have hnumeral : numeral? (c :: tail) = none := numeral?_append hends []
  have hne : ∀ d, Text.isBlank d = false → (c :: tail).head? ≠ some d := by
    intro d hd hhead
    exact hends.head_ne hd (Option.some.inj hhead)
  rw [value_eq_scalar (hne '[' (by decide)) (hne '\x7b' (by decide)), scalar]
  · split
    · next hsome =>
        rw [hliteral] at hsome
        cases hsome
    · split
      · rfl
      · next hsome =>
          rw [hnumeral] at hsome
          cases hsome
  · intro behind hquote
    exact hne '"' (by decide) (by rw [hquote]; rfl)

theorem document_of_takes {found : Json} (hmark : text.head? ≠ some '\ufeff')
    (h : Takes (value maxDepth) (skipSpace text) found rest) :
    document text =
      match skipSpace rest with
      | [] => .ok found
      | other => .error (.malformed .endOfText other) := by
  obtain ⟨_, h⟩ := h
  rw [document]
  · cases hend : skipSpace rest with
    | nil => simp only [h, hend]
    | cons c tail => simp only [h, hend]
  · rintro tail rfl
    exact hmark rfl

theorem document_of_value_eq_error {stop : Stop} (hmark : text.head? ≠ some '\ufeff')
    (h : value maxDepth (skipSpace text) = .error stop) : document text = .error stop := by
  rw [document]
  · simp only [h]
  · rintro tail rfl
    exact hmark rfl

/-! ## Documents with blanks around -/

section Surrounded

variable {before inside after : List Char} {found : Json} (h : document inside = .ok found)
  (hbefore : ∀ c ∈ before, Text.isBlank c = true) (hafter : ∀ c ∈ after, Text.isBlank c = true)

include h

theorem head?_ne_mark : inside.head? ≠ some '\ufeff' := by
  intro hhead
  obtain ⟨tail, rfl⟩ := List.head?_eq_some_iff.1 hhead
  cases h

theorem exists_takes_of_document : ∃ rest, (∀ c ∈ rest, isSpace c = true) ∧
    Takes (value maxDepth) (skipSpace inside) found rest := by
  obtain ⟨taken, hvalue, rfl, hend⟩ := exists_of_document_eq_ok h
  exact ⟨taken.rest, List.dropWhile_eq_nil_iff.1 hend, taken.shorter, hvalue⟩

/-- Behind blanks of JSON, a document is read in the same way, whatever blank stands behind it. -/
theorem exists_takes_surrounded (hspace : ∀ c ∈ before, isSpace c = true)
    (hafter : ∀ c ∈ after, Text.isBlank c = true) :
    ∃ rest, (∀ c ∈ rest, isSpace c = true) ∧
      Takes (value maxDepth) (skipSpace (before ++ inside ++ after)) found (rest ++ after) := by
  obtain ⟨rest, hrest, htakes⟩ := exists_takes_of_document h
  have hends : EndsValue after := fun c hc => hafter c (List.mem_of_head? hc)
  refine ⟨rest, hrest, ?_⟩
  rw [List.append_assoc, skipSpace_append_of_space hspace, htakes.skipSpace_append]
  exact isStable_value maxDepth hends htakes

include hbefore

theorem head?_surrounded_ne_mark : (before ++ inside ++ after).head? ≠ some '\ufeff' := by
  cases before with
  | cons c before =>
      rintro ⟨⟩
      exact absurd (hbefore '\ufeff' (by simp)) (by decide)
  | nil =>
      cases inside with
      | nil => cases h
      | cons c inside =>
          change (c :: inside).head? ≠ some '\ufeff'
          exact head?_ne_mark h

include hafter

/-- Around a document, the blanks of JSON do not matter. -/
theorem document_surrounded_eq_ok (hspace : ∀ c ∈ before ++ after, isSpace c = true) :
    document (before ++ inside ++ after) = .ok found := by
  obtain ⟨rest, hrest, htakes⟩ := exists_takes_surrounded h
    (fun c hc => hspace c (List.mem_append_left after hc)) hafter
  have hend : skipSpace (rest ++ after) = [] := by
    rw [skipSpace, List.dropWhile_eq_nil_iff]
    intro c hc
    rcases List.mem_append.1 hc with hc | hc
    · exact hrest c hc
    · exact hspace c (List.mem_append_right before hc)
  rw [document_of_takes (head?_surrounded_ne_mark h hbefore) htakes, hend]

/-- Around a document, any other blank is a fault. -/
theorem exists_document_surrounded_eq_error (hspace : ¬∀ c ∈ before ++ after, isSpace c = true) :
    ∃ fault rest, document (before ++ inside ++ after) = .error (.malformed fault rest) := by
  have hmark : (before ++ inside ++ after).head? ≠ some '\ufeff' :=
    head?_surrounded_ne_mark h hbefore
  by_cases hfront : ∀ c ∈ before, isSpace c = true
  · obtain ⟨rest, hrest, htakes⟩ := exists_takes_surrounded h hfront hafter
    have hend : skipSpace (rest ++ after) ≠ [] := by
      rw [skipSpace, ne_eq, List.dropWhile_eq_nil_iff]
      intro hall
      refine hspace fun c hc => ?_
      rcases List.mem_append.1 hc with hc | hc
      · exact hfront c hc
      · exact hall c (List.mem_append_right rest hc)
    obtain ⟨c, tail, hend⟩ := List.exists_cons_of_ne_nil hend
    exact ⟨.endOfText, c :: tail, by rw [document_of_takes hmark htakes, hend]⟩
  · -- the first of the other blanks stands where the value should start
    have hstart : skipSpace before ≠ [] := by
      rwa [skipSpace, ne_eq, List.dropWhile_eq_nil_iff]
    obtain ⟨c, tail, hstart⟩ := List.exists_cons_of_ne_nil hstart
    have hc : c ∈ before := by
      refine (List.dropWhile_sublist isSpace).subset ?_
      rw [show before.dropWhile isSpace = c :: tail from hstart]
      simp
    have hskip : skipSpace (before ++ inside ++ after) = c :: (tail ++ (inside ++ after)) := by
      rw [List.append_assoc]
      exact skipSpace_append_of_eq_cons hstart _
    have hvalue := value_eq_error_of_blank (hbefore c hc) maxDepth (tail ++ (inside ++ after))
    rw [← hskip] at hvalue
    exact ⟨_, _, document_of_value_eq_error hmark hvalue⟩

end Surrounded

/-! ## Documents without blanks around -/

/-- Without the blanks around it, a document is the same one. -/
theorem document_strip_eq_ok {found : Json} (h : document text = .ok found) :
    document (Text.strip text) = .ok found := by
  obtain ⟨hvalue, after, hafter, hskip, htakes⟩ := exists_strip_append_of_document h
  have hends : EndsValue after := fun c hc => hafter.isBlank c (List.mem_of_head? hc)
  -- what is left of the text are the blanks behind the value, so the value is all that is taken
  have htakes : Takes (value maxDepth) (skipSpace text) found after := htakes
  rw [hskip] at htakes
  obtain ⟨left, hleft, htakes⟩ := isLocal_value maxDepth hends (Nat.le_refl _) htakes
  obtain rfl : left = [] := List.self_eq_append_left.1 hleft
  have hstart : ∀ c ∈ valueStarts, isSpace c = false ∧ c ≠ '\ufeff' := by decide
  have hself : skipSpace (Text.strip text) = Text.strip text :=
    skipSpace_eq_self fun c hc => (hstart c (mem_valueStarts hvalue hc)).1
  have hmark : (Text.strip text).head? ≠ some '\ufeff' := fun hc =>
    (hstart _ (mem_valueStarts hvalue hc)).2 rfl
  rw [← hself] at htakes
  exact document_of_takes hmark htakes

theorem read_trim {text : String} {found : Json} (h : read text = .ok found) :
    read (Text.trim text) = .ok found := by
  rw [read, Text.toList_trim, document_strip_eq_ok (document_eq_ok_of_read h)]
  rfl

end RequestForms.Json
