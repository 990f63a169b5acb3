import RequestForms.Text.Blank

/-!
# Stripping blanks

A text is its own stripped form if neither end is blank.
-/

namespace RequestForms.Text

/-- What holds of all characters of a text is decided along the text. -/
instance (priority := high) decidableForallMem {p : Char → Prop} [DecidablePred p]
    (s : List Char) : Decidable (∀ c ∈ s, p c) :=
  List.decidableBAll p s

theorem stripStart_cons_of_not_blank {c : Char} (h : isBlank c = false) (s : List Char) :
    stripStart (c :: s) = c :: s := by
  rw [stripStart, List.dropWhile_cons, h]
  rfl

theorem stripStart_cons_of_blank {c : Char} (h : isBlank c = true) (s : List Char) :
    stripStart (c :: s) = stripStart s := by
  rw [stripStart, List.dropWhile_cons, h]
  rfl

theorem stripStart_append_of_blank {b : List Char} (h : ∀ c ∈ b, isBlank c = true)
    (s : List Char) : stripStart (b ++ s) = stripStart s := by
  induction b with
  | nil => rfl
  | cons c b ih =>
      rw [List.cons_append, stripStart_cons_of_blank (h c (by simp))]
      exact ih fun d hd => h d (List.mem_cons_of_mem c hd)

theorem stripStart_append_of_ne_nil {s : List Char} (h : stripStart s ≠ []) (rest : List Char) :
    stripStart (s ++ rest) = stripStart s ++ rest := by
  induction s with
  | nil => exact absurd rfl h
  | cons c s ih =>
      cases hc : isBlank c with
      | true =>
          rw [stripStart_cons_of_blank hc] at h
          rw [List.cons_append, stripStart_cons_of_blank hc, stripStart_cons_of_blank hc, ih h]
      | false =>
          rw [List.cons_append, stripStart_cons_of_not_blank hc, stripStart_cons_of_not_blank hc]
          rfl

/-- What is stripped from the front is blank. -/
theorem exists_blank_append_stripStart (s : List Char) :
    ∃ b, (∀ c ∈ b, isBlank c = true) ∧ s = b ++ stripStart s :=
  ⟨s.takeWhile isBlank, fun c hc => (List.all_eq_true.1 List.all_takeWhile) c hc,
    List.takeWhile_append_dropWhile.symm⟩

theorem stripStart_suffix (s : List Char) : stripStart s <:+ s := List.dropWhile_suffix _

theorem isBlank_head_stripStart {s : List Char} {c : Char}
    (h : (stripStart s).head? = some c) : isBlank c = false := by
  induction s with
  | nil => simp [stripStart] at h
  | cons d s ih =>
      cases hd : isBlank d with
      | true => exact ih (by rwa [stripStart_cons_of_blank hd] at h)
      | false =>
          rw [stripStart_cons_of_not_blank hd, List.head?_cons, Option.some.injEq] at h
          rw [← h, hd]

theorem stripStart_eq_self_iff {s : List Char} :
    stripStart s = s ↔ ∀ c, s.head? = some c → isBlank c = false := by
  constructor
  · intro h c hc
    exact isBlank_head_stripStart (by rwa [h])
  · intro h
    cases s with
    | nil => rfl
    | cons c s => exact stripStart_cons_of_not_blank (h c rfl) s

theorem stripEnd_eq_reverse (s : List Char) : stripEnd s = (stripStart s.reverse).reverse := rfl

theorem stripEnd_eq_self_iff {s : List Char} :
    stripEnd s = s ↔ ∀ c, s.getLast? = some c → isBlank c = false := by
  rw [stripEnd_eq_reverse, ← List.head?_reverse, ← stripStart_eq_self_iff]
  constructor
  · intro h
    rw [← List.reverse_reverse (stripStart s.reverse), h]
  · intro h
    rw [h, List.reverse_reverse]

theorem stripEnd_append_of_blank {b : List Char} (h : ∀ c ∈ b, isBlank c = true) (s : List Char) :
    stripEnd (s ++ b) = stripEnd s := by
  rw [stripEnd_eq_reverse, stripEnd_eq_reverse, List.reverse_append,
    stripStart_append_of_blank fun c hc => h c (List.mem_reverse.1 hc)]

theorem stripEnd_of_blank {b : List Char} (h : ∀ c ∈ b, isBlank c = true) : stripEnd b = [] :=
  stripEnd_append_of_blank h []

theorem stripEnd_append_of_ne_nil {s : List Char} (h : stripEnd s ≠ []) (front : List Char) :
    stripEnd (front ++ s) = front ++ stripEnd s := by
  have hstart : stripStart s.reverse ≠ [] := by
    intro hnil
    rw [stripEnd_eq_reverse, hnil] at h
    exact h rfl
  rw [stripEnd_eq_reverse, stripEnd_eq_reverse, List.reverse_append,
    stripStart_append_of_ne_nil hstart, List.reverse_append, List.reverse_reverse]

/-- What is stripped from the end is blank. -/
theorem exists_stripEnd_append_blank (s : List Char) :
    ∃ b, (∀ c ∈ b, isBlank c = true) ∧ s = stripEnd s ++ b := by
  obtain ⟨b, hb, hs⟩ := exists_blank_append_stripStart s.reverse
  refine ⟨b.reverse, fun c hc => hb c (List.mem_reverse.1 hc), ?_⟩
  rw [stripEnd_eq_reverse, ← List.reverse_append, ← hs, List.reverse_reverse]

theorem stripEnd_append_of_stripEnd {front : List Char} (h : stripEnd front = front)
    (s : List Char) : stripEnd (front ++ s) = front ++ stripEnd s := by
  by_cases hs : stripEnd s = []
  · obtain ⟨b, hb, heq⟩ := exists_stripEnd_append_blank s
    rw [hs, List.nil_append] at heq
    rw [hs, heq, stripEnd_append_of_blank hb, h, List.append_nil]
  · exact stripEnd_append_of_ne_nil hs front

theorem length_stripEnd_le (s : List Char) : (stripEnd s).length ≤ s.length := by
  rw [stripEnd_eq_reverse, List.length_reverse]
  exact Nat.le_trans (length_stripStart_le _) (Nat.le_of_eq List.length_reverse)

theorem stripEnd_eq_self_of_le {s : List Char} (h : s.length ≤ (stripEnd s).length) :
    stripEnd s = s := by
  obtain ⟨b, -, hs⟩ := exists_stripEnd_append_blank s
  have hprefix : stripEnd s <+: s := ⟨b, hs.symm⟩
  exact hprefix.eq_of_length_le h

theorem strip_eq_self_iff {s : List Char} :
    strip s = s ↔ (∀ c, s.head? = some c → isBlank c = false) ∧
      ∀ c, s.getLast? = some c → isBlank c = false := by
  rw [← stripStart_eq_self_iff, ← stripEnd_eq_self_iff]
  constructor
  · intro h
    have hstart : stripStart s = s := by
      have hlast := length_stripEnd_le (stripStart s)
      rw [show stripEnd (stripStart s) = s from h] at hlast
      exact (List.dropWhile_sublist isBlank).eq_of_length_le hlast
    exact ⟨hstart, by rw [strip, hstart] at h; exact h⟩
  · intro h
    rw [strip, h.1, h.2]

theorem stripStart_eq_self_of_strip {s : List Char} (h : strip s = s) : stripStart s = s :=
  stripStart_eq_self_iff.2 (strip_eq_self_iff.1 h).1

theorem stripEnd_eq_self_of_strip {s : List Char} (h : strip s = s) : stripEnd s = s :=
  stripEnd_eq_self_iff.2 (strip_eq_self_iff.1 h).2

/-- A text that is not blank at its ends. -/
theorem strip_eq_self_of_ends {s : List Char}
    (hhead : ∃ c rest, s = c :: rest ∧ isBlank c = false)
    (hlast : ∃ front c, s = front ++ [c] ∧ isBlank c = false) : strip s = s := by
  obtain ⟨c, rest, hcons, hc⟩ := hhead
  obtain ⟨front, d, hconcat, hd⟩ := hlast
  rw [strip_eq_self_iff]
  constructor
  · intro e he
    rw [hcons] at he
    rwa [← Option.some.inj he]
  · intro e he
    rw [hconcat, List.getLast?_concat] at he
    rwa [← Option.some.inj he]

theorem strip_eq_self_of_not_blank {s : List Char} (h : ∀ c ∈ s, isBlank c = false) :
    strip s = s :=
  strip_eq_self_iff.2 ⟨fun c hc => h c (List.mem_of_head? hc), fun c hc =>
    h c (List.mem_of_getLast? hc)⟩

theorem isBlank_getLast_stripEnd {s : List Char} {c : Char}
    (h : (stripEnd s).getLast? = some c) : isBlank c = false := by
  rw [stripEnd_eq_reverse, List.getLast?_reverse] at h
  exact isBlank_head_stripStart h

@[simp] theorem strip_strip (s : List Char) : strip (strip s) = strip s := by
  rw [strip_eq_self_iff]
  refine ⟨?_, fun c hc => isBlank_getLast_stripEnd hc⟩
  intro c hc
  obtain ⟨b, -, hb⟩ := exists_stripEnd_append_blank (stripStart s)
  apply isBlank_head_stripStart (s := s)
  rw [hb, List.head?_append]
  change (stripEnd (stripStart s)).head? = some c at hc
  rw [hc]
  rfl

/-- The blanks at the two ends of a text do not depend on each other. -/
theorem stripStart_stripEnd (s : List Char) : stripStart (stripEnd s) = strip s := by
  obtain ⟨before, hbefore, hs⟩ := exists_blank_append_stripStart s
  by_cases hend : stripEnd (stripStart s) = []
  · -- nothing but blanks
    obtain ⟨after, hafter, hstart⟩ := exists_stripEnd_append_blank (stripStart s)
    rw [hend, List.nil_append] at hstart
    have hnil : stripEnd s = [] := by
      rw [hs, hstart, stripEnd_append_of_blank hafter, stripEnd_of_blank hbefore]
    rw [strip, hend, hnil]
    rfl
  · calc stripStart (stripEnd s)
        = stripStart (stripEnd (before ++ stripStart s)) := by rw [← hs]
      _ = stripStart (before ++ strip s) := by rw [stripEnd_append_of_ne_nil hend, strip]
      _ = stripStart (strip s) := stripStart_append_of_blank hbefore _
      _ = strip s := stripStart_eq_self_of_strip (strip_strip s)

/-- Between blanks, a text that is not blank at its own ends is all that is left. -/
theorem strip_of_surrounded {before inside after : List Char}
    (hbefore : ∀ c ∈ before, isBlank c = true) (hafter : ∀ c ∈ after, isBlank c = true)
    (hne : inside ≠ []) (h : strip inside = inside) :
    strip (before ++ inside ++ after) = inside := by
  have hstart := stripStart_eq_self_of_strip h
  rw [strip, List.append_assoc, stripStart_append_of_blank hbefore,
    stripStart_append_of_ne_nil (by rwa [hstart]), hstart, stripEnd_append_of_blank hafter,
    stripEnd_eq_self_of_strip h]

/-- What is stripped from a text is blank. -/
theorem exists_blanks_around_strip (s : List Char) :
    ∃ before after, (∀ c ∈ before, isBlank c = true) ∧ (∀ c ∈ after, isBlank c = true) ∧
      s = before ++ strip s ++ after := by
  obtain ⟨before, hbefore, hs⟩ := exists_blank_append_stripStart s
  obtain ⟨after, hafter, hs'⟩ := exists_stripEnd_append_blank (stripStart s)
  refine ⟨before, after, hbefore, hafter, ?_⟩
  rw [strip, List.append_assoc, ← hs', ← hs]

theorem strip_isInfix (s : List Char) : strip s <:+: s := by
  obtain ⟨before, after, -, -, hs⟩ := exists_blanks_around_strip s
  exact ⟨before, after, hs.symm⟩

/-- What is not blank is not stripped. -/
theorem mem_strip {c : Char} (hc : isBlank c = false) {s : List Char} (h : c ∈ s) :
    c ∈ strip s := by
  obtain ⟨before, after, hbefore, hafter, hs⟩ := exists_blanks_around_strip s
  rw [hs, List.mem_append, List.mem_append] at h
  rcases h with (h | h) | h
  · rw [hbefore c h] at hc
    cases hc
  · exact h
  · rw [hafter c h] at hc
    cases hc

theorem strip_cons_of_blank {c : Char} (h : isBlank c = true) (s : List Char) :
    strip (c :: s) = strip s := by
  rw [strip, stripStart_cons_of_blank h]
  rfl

/-- Nothing is stripped from a front that is not blank at its own ends. -/
theorem strip_append {front : List Char} (hne : front ≠ []) (h : strip front = front)
    (s : List Char) : strip (front ++ s) = front ++ stripEnd s := by
  have hstart : stripStart (front ++ s) = front ++ s := by
    rw [stripStart_eq_self_iff]
    intro c hc
    rw [List.head?_append, List.head?_eq_some_head hne] at hc
    exact (strip_eq_self_iff.1 h).1 c (by rw [List.head?_eq_some_head hne]; exact hc)
  rw [strip, hstart, stripEnd_append_of_stripEnd (stripEnd_eq_self_of_strip h)]

theorem trim_eq_self_iff {s : String} : trim s = s ↔ strip s.toList = s.toList := by
  rw [← String.toList_inj, toList_trim]

end RequestForms.Text
