import RequestForms.Shell.Words

/-!
# Composing scans

A scan is cut at any place into a scan of the text before it and one of the text behind it, which
starts in the mode that the first one ends in. Where that mode is the bare one, a space makes the
words of the two texts follow each other.
-/

namespace RequestForms.Shell

def modeAfter (mode : Mode) (text : List Char) : Mode :=
  text.foldl (fun m c => (step m c).1) mode

/-- The characters that a scan keeps, across all words. -/
def kept : Mode → List Char → List Char
  | _, [] => []
  | mode, c :: rest =>
      match (step mode c).2 with
      | .kept => c :: kept (step mode c).1 rest
      | .dropped | .separator => kept (step mode c).1 rest

namespace Scan

/-- A scan whose first word starts with more characters. -/
def behind (front : List Char) (scan : Scan) : Scan := ⟨front ++ scan.pending, scan.later⟩

theorem flatten_words (scan : Scan) : scan.words.flatten = scan.pending ++ scan.later.flatten := by
  unfold words
  split
  · next h => rw [h, List.nil_append]
  · rfl

/-- The words of two scans in a row follow each other. -/
theorem words_append (pending : List Char) (later more : List (List Char)) :
    (⟨pending, later ++ more⟩ : Scan).words = (⟨pending, later⟩ : Scan).words ++ more := by
  unfold words
  split <;> rfl

theorem ne_nil_of_mem_words {scan : Scan} (hlater : ∀ word ∈ scan.later, word ≠ []) :
    ∀ word ∈ scan.words, word ≠ [] := by
  unfold words
  split
  · exact hlater
  · next hpending => exact List.forall_mem_cons.2 ⟨hpending, hlater⟩

end Scan

@[simp] theorem modeAfter_cons (mode : Mode) (c : Char) (rest : List Char) :
    modeAfter mode (c :: rest) = modeAfter (step mode c).1 rest := rfl

theorem modeAfter_append (mode : Mode) (a b : List Char) :
    modeAfter mode (a ++ b) = modeAfter (modeAfter mode a) b :=
  List.foldl_append

theorem kept_append (mode : Mode) (a b : List Char) :
    kept mode (a ++ b) = kept mode a ++ kept (modeAfter mode a) b := by
  induction a generalizing mode with
  | nil => rfl
  | cons c a ih =>
      simp only [List.cons_append, kept, modeAfter_cons, ih]
      cases (step mode c).2 <;> rfl

theorem kept_sublist (mode : Mode) (text : List Char) : (kept mode text).Sublist text := by
  induction text generalizing mode with
  | nil => exact List.Sublist.refl []
  | cons c rest ih =>
      rw [kept]
      cases (step mode c).2 with
      | kept => exact (ih _).cons_cons c
      | dropped => exact (ih _).cons c
      | separator => exact (ih _).cons c

/-- The words hold the kept characters in their order. -/
theorem flatten_words_scan (mode : Mode) (text : List Char) :
    (scan mode text).words.flatten = kept mode text := by
  rw [Scan.flatten_words]
  induction text generalizing mode with
  | nil => rfl
  | cons c rest ih =>
      simp only [scan, kept]
      cases (step mode c).2 with
      | kept => rw [List.cons_append, ih]
      | dropped => exact ih _
      | separator => rw [List.nil_append, Scan.flatten_words, ih]

theorem ne_nil_of_mem_later (mode : Mode) (text : List Char) :
    ∀ word ∈ (scan mode text).later, word ≠ [] := by
  induction text generalizing mode with
  | nil => exact List.forall_mem_nil _
  | cons c rest ih =>
      rw [scan]
      cases (step mode c).2 with
      | kept => exact ih _
      | dropped => exact ih _
      | separator => exact Scan.ne_nil_of_mem_words (ih _)

/-- No word is empty. -/
theorem ne_empty_of_mem_words {text word : String} (h : word ∈ words text) : word ≠ "" := by
  obtain ⟨chars, hmem, rfl⟩ := List.mem_map.1 h
  have hne := Scan.ne_nil_of_mem_words (ne_nil_of_mem_later .bare text.toList) chars hmem
  simpa using hne

/-- Outside quotes a space parts the words of a text from those of the text behind it. -/
theorem scan_append_space {mode : Mode} {a : List Char} (h : modeAfter mode a = .bare)
    (b : List Char) :
    scan mode (a ++ ' ' :: b) = ⟨(scan mode a).pending, (scan mode a).later ++ split b⟩ := by
  induction a generalizing mode with
  | nil =>
      obtain rfl : mode = .bare := h
      rfl
  | cons c a ih =>
      simp only [List.cons_append, scan, ih h]
      cases (step mode c).2 with
      | kept => rfl
      | dropped => rfl
      | separator => rw [Scan.words_append]

theorem split_append_space {a : List Char} (h : modeAfter .bare a = .bare) (b : List Char) :
    split (a ++ ' ' :: b) = split a ++ split b := by
  rw [split, scan_append_space h, Scan.words_append]
  rfl

/-- A leading space parts nothing. -/
@[simp] theorem split_cons_space (text : List Char) : split (' ' :: text) = split text := rfl

/-! ## Texts that are kept as they are -/

theorem scan_append_of_kept {mode : Mode} {s : List Char}
    (h : ∀ c ∈ s, step mode c = (mode, .kept)) (rest : List Char) :
    scan mode (s ++ rest) = (scan mode rest).behind s := by
  induction s with
  | nil => rfl
  | cons c s ih =>
      rw [List.cons_append, scan, h c (by simp)]
      simp only [ih fun d hd => h d (List.mem_cons_of_mem c hd)]
      rfl

theorem modeAfter_of_kept {mode : Mode} {s : List Char}
    (h : ∀ c ∈ s, step mode c = (mode, .kept)) : modeAfter mode s = mode := by
  induction s with
  | nil => rfl
  | cons c s ih =>
      rw [modeAfter_cons, h c (by simp)]
      exact ih fun d hd => h d (List.mem_cons_of_mem c hd)

/-- A character that parts words or steers the scan outside quotes. -/
def isActive (c : Char) : Bool := c = ' ' || c = '\'' || c = '"' || c = '\\'

theorem step_bare_of_not_isActive {c : Char} (h : isActive c = false) :
    step .bare c = (.bare, .kept) := by
  simp only [isActive, Bool.or_eq_false_iff, decide_eq_false_iff_not] at h
  obtain ⟨⟨⟨hspace, hsingle⟩, hdouble⟩, hescape⟩ := h
  simp only [step, if_neg hescape, if_neg hsingle, if_neg hdouble, if_neg hspace]

theorem split_of_not_isActive {s : List Char} (hne : s ≠ [])
    (h : ∀ c ∈ s, isActive c = false) : split s = [s] := by
  have hs := scan_append_of_kept (fun c hc => step_bare_of_not_isActive (h c hc)) []
  rw [List.append_nil] at hs
  rw [split, hs]
  simp [Scan.behind, Scan.words, scan, hne]

theorem modeAfter_of_not_isActive {s : List Char} (h : ∀ c ∈ s, isActive c = false) :
    modeAfter .bare s = .bare :=
  modeAfter_of_kept fun c hc => step_bare_of_not_isActive (h c hc)

/-! ## Quoted texts -/

@[simp] theorem toList_quote (text : String) :
    (quote text).toList = quoteChars text.toList :=
  String.toList_ofList

/-- Behind its opening quote a quoted text is read back up to its closing one. -/
theorem scan_quotedTail (s rest : List Char) :
    scan .single (quotedTail s ++ rest) = (scan .bare rest).behind s := by
  induction s with
  | nil => rfl
  | cons c s ih =>
      rw [quotedTail]
      split
      · next hc =>
          simp only [List.cons_append, scan, step, hc, reduceIte, Char.reduceEq, ih]
          rfl
      · next hc =>
          simp only [List.cons_append, scan, step, hc, reduceIte, ih]
          rfl

theorem scan_quoteChars (s rest : List Char) :
    scan .bare (quoteChars s ++ rest) = (scan .bare rest).behind s :=
  scan_quotedTail s rest

theorem modeAfter_quotedTail (s : List Char) : modeAfter .single (quotedTail s) = .bare := by
  induction s with
  | nil => rfl
  | cons c s ih =>
      rw [quotedTail]
      split
      · exact ih
      · next hc => simp only [modeAfter_cons, step, if_neg hc, ih]

theorem modeAfter_quoteChars (s : List Char) : modeAfter .bare (quoteChars s) = .bare :=
  modeAfter_quotedTail s

/-- A quoted text is one word, unless it is empty and so is none. -/
theorem split_quoteChars (s : List Char) : split (quoteChars s) = if s = [] then [] else [s] := by
  have hs := scan_quoteChars s []
  rw [List.append_nil] at hs
  rw [split, hs]
  simp [Scan.behind, Scan.words, scan]

theorem kept_quoteChars (s : List Char) : kept .bare (quoteChars s) = s := by
  rw [← flatten_words_scan]
  change (split (quoteChars s)).flatten = s
  rw [split_quoteChars]
  split
  · next h => rw [h]; rfl
  · simp

end RequestForms.Shell
