import RequestForms.Proofs.Shell.Words

/-!
# Words that need no quotes

A text that is written bare in front of other words is read back as one word exactly if none of its
characters parts words or steers the scan. With such a character the scan falls behind the text that
it should read: whatever it keeps later comes from further to the right, and the distance never
closes inside the text.
-/

namespace RequestForms.Shell

def isMark (c : Char) : Bool := c = '\'' || c = '"' || c = '\\'

theorem isActive_eq (c : Char) : isActive c = (decide (c = ' ') || isMark c) := by
  simp only [isActive, isMark, Bool.or_assoc]

theorem isMark_of_step_eq_dropped {mode : Mode} {c : Char} (h : (step mode c).2 = .dropped) :
    isMark c = true := by
  simp only [isMark, Bool.or_eq_true, decide_eq_true_eq]
  cases mode <;> simp only [step] at h <;> (repeat' split at h) <;> simp_all

/-- The word that a scan is in does not catch up with the marks that it has dropped. -/
theorem pending_scan_ne {mode : Mode} {dropped u : List Char} (hne : dropped ≠ [])
    (hmark : ∀ c ∈ dropped, isMark c = true) (rest : List Char) :
    (scan mode (u ++ ' ' :: rest)).pending ≠ dropped ++ u := by
  induction u generalizing mode dropped with
  | nil =>
      obtain ⟨c, more, rfl⟩ := List.exists_cons_of_ne_nil hne
      have hc : ' ' ≠ c := by
        rintro rfl
        exact absurd (hmark ' ' (by simp)) (by decide)
      intro h
      cases mode <;> simp_all [scan, step]
  | cons d u ih =>
      intro h
      rw [List.cons_append, scan] at h
      cases hr : (step mode d).2 with
      | kept =>
          obtain ⟨c, more, rfl⟩ := List.exists_cons_of_ne_nil hne
          rw [hr] at h
          obtain ⟨rfl, htail⟩ := List.cons.inj h
          refine ih (by simp : more ++ [d] ≠ []) ?_ (by simpa using htail)
          intro e he
          rcases List.mem_append.1 he with he | he
          · exact hmark e (List.mem_cons_of_mem d he)
          · exact hmark e (by simp_all)
      | dropped =>
          rw [hr] at h
          refine ih (by simp : dropped ++ [d] ≠ []) ?_ (by simpa using h)
          intro e he
          rcases List.mem_append.1 he with he | he
          · exact hmark e he
          · rw [List.mem_singleton.1 he]
            exact isMark_of_step_eq_dropped hr
      | separator =>
          rw [hr] at h
          simp at h

/-! ## Counting quotes

If all words come out although a text in front of them began with an empty quotation, then no double
quote was dropped anywhere, and the single quotes do not add up.
-/

theorem count_kept_le (mode : Mode) (text : List Char) (c : Char) :
    (kept mode text).count c ≤ text.count c :=
  (kept_sublist mode text).count_le c

def Mode.isSimple : Mode → Bool
  | .bare | .single | .bareEscape => true
  | .double | .doubleEscape => false

theorem count_kept_cons (mode : Mode) (c : Char) (rest : List Char) (q : Char) :
    (kept mode (c :: rest)).count q =
      (kept (step mode c).1 rest).count q + if c = q ∧ (step mode c).2 = .kept then 1 else 0 := by
  rw [kept]
  cases hr : (step mode c).2 with
  | kept => simp [List.count_cons]
  | dropped => simp
  | separator => simp

/-- What a scan that keeps all double quotes does with a first character. -/
theorem keepsDouble_cons {mode : Mode} {c : Char} {rest : List Char}
    (h : (kept mode (c :: rest)).count '"' = (c :: rest).count '"') :
    (kept (step mode c).1 rest).count '"' = rest.count '"' ∧
      (c = '"' → (step mode c).2 = .kept) := by
  have hle := count_kept_le (step mode c).1 rest '"'
  rw [count_kept_cons, List.count_cons] at h
  by_cases hc : c = '"'
  · subst hc
    simp only [true_and, beq_self_eq_true, reduceIte] at h
    split at h
    · next hkept => exact ⟨by omega, fun _ => hkept⟩
    · omega
  · simp only [hc, false_and, beq_iff_eq, reduceIte] at h
    exact ⟨h, fun h => absurd h hc⟩

theorem isSimple_step {mode : Mode} {c : Char} (hmode : mode.isSimple)
    (hc : c = '"' → (step mode c).2 = .kept) : (step mode c).1.isSimple := by
  cases mode with
  | bare =>
      by_cases hq : c = '"'
      · subst hq
        exact absurd (hc rfl) (by decide)
      · simp only [step, if_neg hq]
        split
        · rfl
        · split
          · rfl
          · split <;> rfl
  | single =>
      simp only [step]
      split <;> rfl
  | bareEscape => rfl
  | double => exact absurd hmode (by decide)
  | doubleEscape => exact absurd hmode (by decide)

theorem isSimple_modeAfter {mode : Mode} {text : List Char} (hmode : mode.isSimple)
    (h : (kept mode text).count '"' = text.count '"') : (modeAfter mode text).isSimple := by
  induction text generalizing mode with
  | nil => exact hmode
  | cons c rest ih =>
      obtain ⟨hrest, hc⟩ := keepsDouble_cons h
      rw [modeAfter_cons]
      exact ih (isSimple_step hmode hc) hrest

/-- Two modes that differ in whether a single quote is open. -/
inductive Opposite : Mode → Mode → Prop
  | bareSingle : Opposite .bare .single
  | singleBare : Opposite .single .bare
  | escapeSingle : Opposite .bareEscape .single
  | singleEscape : Opposite .single .bareEscape

/-- Behind a character the modes are still opposite, with a single quote dropped from both, or an
escaped single quote has brought them together. -/
theorem Opposite.step_cases {m n : Mode} {c : Char} (h : Opposite m n)
    (hm : c = '"' → (step m c).2 = .kept) (hn : c = '"' → (step n c).2 = .kept) :
    Opposite (step m c).1 (step n c).1 ∧
        (c = '\'' → (step m c).2 = .dropped ∧ (step n c).2 = .dropped) ∨
      (step m c).1 = (step n c).1 := by
  by_cases hq : c = '\''
  · subst hq
    cases h with
    | bareSingle => exact Or.inl ⟨.singleBare, fun _ => ⟨rfl, rfl⟩⟩
    | singleBare => exact Or.inl ⟨.bareSingle, fun _ => ⟨rfl, rfl⟩⟩
    | escapeSingle => exact Or.inr rfl
    | singleEscape => exact Or.inr rfl
  · refine Or.inl ⟨?_, fun h => absurd h hq⟩
    have hsingle : (step .single c).1 = .single := by simp [step, hq]
    have hbare (hd : c = '"' → (step .bare c).2 = .kept) :
        (step .bare c).1 = .bareEscape ∨ (step .bare c).1 = .bare := by
      have hdouble : c ≠ '"' := by
        rintro rfl
        exact absurd (hd rfl) (by decide)
      simp only [step, hq, hdouble, reduceIte]
      split
      · exact Or.inl rfl
      · split <;> exact Or.inr rfl
    cases h with
    | bareSingle => rcases hbare hm with hb | hb <;> rw [hb, hsingle] <;> constructor
    | singleBare => rcases hbare hn with hb | hb <;> rw [hb, hsingle] <;> constructor
    | escapeSingle => rw [hsingle]; exact .bareSingle
    | singleEscape => rw [hsingle]; exact .singleBare

/-- Scans from opposite modes stay opposite until an escaped single quote brings them together, so
that their numbers of single quotes differ by one at most. -/
theorem count_kept_le_of_opposite {m n : Mode} (hmn : Opposite m n) {text : List Char}
    (hm : (kept m text).count '"' = text.count '"')
    (hn : (kept n text).count '"' = text.count '"') :
    (kept m text).count '\'' ≤ (kept n text).count '\'' + 1 := by
  induction text generalizing m n with
  | nil => simp [kept]
  | cons c rest ih =>
      obtain ⟨hm', hmc⟩ := keepsDouble_cons hm
      obtain ⟨hn', hnc⟩ := keepsDouble_cons hn
      rw [count_kept_cons, count_kept_cons]
      rcases hmn.step_cases hmc hnc with ⟨hstep, hquote⟩ | hmerged
      · have hrest := ih hstep hm' hn'
        rw [if_neg fun h => by simpa [(hquote h.1).1] using h.2,
          if_neg fun h => by simpa [(hquote h.1).2] using h.2]
        exact hrest
      · rw [hmerged]
        split <;> split <;> omega

theorem count_kept_spaces (mode : Mode) {c : Char} (hc : c ≠ ' ') :
    (kept mode [' ', ' ']).count c = 0 := by
  have hle := count_kept_le mode [' ', ' '] c
  have hzero : [' ', ' '].count c = 0 := List.count_eq_zero.2 (by simpa using hc)
  omega

theorem modeAfter_spaces {mode : Mode} (h : mode.isSimple) :
    modeAfter mode [' ', ' '] = .bare ∨ modeAfter mode [' ', ' '] = .single := by
  cases mode with
  | bare => exact Or.inl rfl
  | single => exact Or.inr rfl
  | bareEscape => exact Or.inl rfl
  | double => exact absurd h (by decide)
  | doubleEscape => exact absurd h (by decide)

/-- An empty quotation in front costs two single quotes, and the text behind the spaces gives back
one at most. -/
theorem kept_ne_of_empty_quotation {q rest : List Char}
    (hrest : (kept .bare rest).count '"' = rest.count '"') :
    kept .bare ('\'' :: '\'' :: q ++ ' ' :: ' ' :: rest) ≠ '\'' :: '\'' :: q ++ kept .bare rest := by
  intro h
  have hkept : kept .bare ('\'' :: '\'' :: q ++ ' ' :: ' ' :: rest) =
      kept .bare q ++ (kept (modeAfter .bare q) [' ', ' '] ++
        kept (modeAfter (modeAfter .bare q) [' ', ' ']) rest) := by
    rw [← kept_append, ← kept_append]
    rfl
  rw [hkept] at h
  have hdouble := congrArg (List.count '"') h
  have hsingle := congrArg (List.count '\'') h
  simp only [List.count_append, List.count_cons, count_kept_spaces _ (by decide : '"' ≠ ' '),
    count_kept_spaces _ (by decide : '\'' ≠ ' '), Char.reduceBEq, Bool.false_eq_true,
    reduceIte] at hdouble hsingle
  have hq := count_kept_le .bare q '"'
  have hr := count_kept_le (modeAfter (modeAfter .bare q) [' ', ' ']) rest '"'
  have hqs := count_kept_le .bare q '\''
  have hsimple : (modeAfter .bare q).isSimple := isSimple_modeAfter rfl (by omega)
  have hall : (kept (modeAfter (modeAfter .bare q) [' ', ' ']) rest).count '"' =
      rest.count '"' := by
    omega
  rcases modeAfter_spaces hsimple with hmode | hmode
  · rw [hmode] at hsingle
    omega
  · rw [hmode] at hall hsingle
    have hle := count_kept_le_of_opposite .singleBare hall hrest
    omega

theorem step_bare_of_isMark {c : Char} (hc : isMark c = true) :
    (step .bare c).2 = .dropped := by
  simp only [isMark, Bool.or_eq_true, decide_eq_true_eq] at hc
  rcases hc with (rfl | rfl) | rfl <;> rfl

/-- A mark at the front that is followed by no kept character opens an empty quotation. -/
theorem eq_empty_quotation {c : Char} {q rest : List Char} (hc : isMark c = true)
    (hdouble : (kept .bare (c :: q)).count '"' = (c :: q).count '"')
    (hpending : (scan .bare (c :: q ++ ' ' :: rest)).pending = []) :
    ∃ more, c :: q = '\'' :: '\'' :: more := by
  simp only [isMark, Bool.or_eq_true, decide_eq_true_eq] at hc
  rcases hc with (rfl | rfl) | rfl
  · cases q with
    | nil => simp [scan, step] at hpending
    | cons d more =>
        by_cases hd : d = '\''
        · exact ⟨more, by rw [hd]⟩
        · simp [scan, step, hd] at hpending
  · exact absurd ((keepsDouble_cons hdouble).2 rfl) (by decide)
  · cases q <;> simp [scan, step] at hpending

/-- A text that starts with an empty quotation is not read back, whatever word comes first. -/
theorem split_ne_cons_of_pending_eq_nil {c : Char} {q rest : List Char} (hc : isActive c = true)
    (hspace : c ≠ ' ') (hrest : (kept .bare rest).count '"' = rest.count '"')
    (hpending : (scan .bare (c :: q ++ ' ' :: ' ' :: rest)).pending = []) :
    split (c :: q ++ ' ' :: ' ' :: rest) ≠ (c :: q) :: split rest := by
  intro hwords
  have hkept := congrArg List.flatten hwords
  rw [split, flatten_words_scan, List.flatten_cons, split, flatten_words_scan] at hkept
  have hmark : isMark c = true := by simpa [isActive_eq, hspace] using hc
  have hdouble : (kept .bare (c :: q)).count '"' = (c :: q).count '"' := by
    have hcount := congrArg (List.count '"') hkept
    rw [kept_append, List.count_append, List.count_append] at hcount
    have hq := count_kept_le .bare (c :: q) '"'
    have hr := count_kept_le (modeAfter .bare (c :: q)) (' ' :: ' ' :: rest) '"'
    have hspaces : (' ' :: ' ' :: rest).count '"' = rest.count '"' := by simp
    omega
  obtain ⟨more, hmore⟩ := eq_empty_quotation hmark hdouble hpending
  rw [hmore] at hkept
  exact kept_ne_of_empty_quotation hrest hkept

/-- A bare text in front of other words is read back as one word exactly if it has no active
character. The text behind it may be any whose own words keep all its double quotes. -/
theorem split_bare_eq_cons_iff {s rest : List Char} (hne : s ≠ []) (hhead : s.head? ≠ some ' ')
    (hrest : (kept .bare rest).count '"' = rest.count '"') :
    split (s ++ ' ' :: ' ' :: rest) = s :: split rest ↔ ∀ c ∈ s, isActive c = false := by
  constructor
  · intro hwords
    cases hfind : s.find? isActive with
    | none => simpa using hfind
    | some c =>
        exfalso
        obtain ⟨hc, p, q, rfl, hp⟩ := List.find?_eq_some_iff_append.1 hfind
        have hscan := scan_append_of_kept
          (fun e he => step_bare_of_not_isActive (by simpa using hp e he))
          (c :: q ++ ' ' :: ' ' :: rest)
        have h := hwords
        rw [split, List.append_assoc, hscan] at h
        -- from `c` on the scan is behind, so that its first word is not the whole text
        have hpending : (scan .bare (c :: q ++ ' ' :: ' ' :: rest)).pending ≠ c :: q := by
          rw [isActive_eq, Bool.or_eq_true, decide_eq_true_eq] at hc
          rcases hc with rfl | hc
          · simp [scan, step]
          · rw [List.cons_append, scan, step_bare_of_isMark hc]
            exact pending_scan_ne (by simp : [c] ≠ []) (by simpa using hc) (' ' :: rest)
        unfold Scan.words at h
        split at h
        · next hempty =>
            obtain ⟨rfl, hnil⟩ := List.append_eq_nil_iff.1 hempty
            exact split_ne_cons_of_pending_eq_nil hc (by simpa using hhead) hrest hnil hwords
        · exact hpending (List.append_cancel_left (List.cons.inj h).1)
  · intro h
    rw [split_append_space (modeAfter_of_not_isActive h), split_of_not_isActive hne h,
      split_cons_space]
    rfl

end RequestForms.Shell
