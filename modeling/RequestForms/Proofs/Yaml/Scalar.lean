import RequestForms.Proofs.Yaml.Folding
import RequestForms.Proofs.Yaml.Quoted

/-!
# Reading scalars

The first character of a scalar tells its style, and each style has its own end: the closing quote,
or for a plain text the colon of a key or a line that is not indented. So a text can be told from
its scalar and from what follows, wherever the writer folded the lines.
-/

namespace RequestForms.Yaml

/-! ## Plain texts -/

/-- Whether a plain text ends before what follows: the colon of a key, or a line that is not
indented. -/
def endsPlain (indent : Nat) : List Char → Bool
  | [] => true
  | c :: rest =>
      (c = ':' && isSeparated rest) ||
        (c = '\n' && !(List.replicate indent ' ').isPrefixOf rest)

def plainLines (indent : Nat) : List Char → List Char × List Char
  | [] => ([], [])
  | c :: rest =>
      if endsPlain indent (c :: rest) then ([], c :: rest)
      else (c :: (plainLines indent rest).1, (plainLines indent rest).2)

section Plain

variable {indent : Nat}

theorem plainLines_of_endsPlain {rest : List Char} (h : endsPlain indent rest = true) :
    plainLines indent rest = ([], rest) := by
  cases rest with
  | nil => rfl
  | cons c rest => rw [plainLines, if_pos h]

theorem head?_ne_of_endsPlain {rest : List Char} (h : endsPlain indent rest = true) :
    rest.head? ≠ some '\'' := by
  cases rest with
  | nil => rintro ⟨⟩
  | cons c rest =>
      rintro ⟨⟩
      cases h

theorem plainLines_cons {c : Char} {rest : List Char}
    (h : endsPlain indent (c :: rest) = false) :
    plainLines indent (c :: rest) =
      (c :: (plainLines indent rest).1, (plainLines indent rest).2) := by
  rw [plainLines, h, if_neg Bool.false_ne_true]

theorem plainLines_spaces (n : Nat) (rest : List Char) :
    plainLines indent (List.replicate n ' ' ++ rest) =
      (List.replicate n ' ' ++ (plainLines indent rest).1, (plainLines indent rest).2) := by
  induction n with
  | zero => rfl
  | succ n ih => rw [List.replicate_succ, List.cons_append, plainLines_cons rfl, ih]; rfl

theorem plainLines_newLine (rest : List Char) :
    plainLines indent (newLine indent ++ rest) =
      (newLine indent ++ (plainLines indent rest).1, (plainLines indent rest).2) := by
  have hcontinues : endsPlain indent (newLine indent ++ rest) = false := by
    have hprefix : (List.replicate indent ' ').isPrefixOf (List.replicate indent ' ' ++ rest) =
        true :=
      List.isPrefixOf_iff_prefix.2 (List.prefix_append _ _)
    rw [newLine, List.cons_append, endsPlain, hprefix]
    rfl
  rw [newLine, List.cons_append] at hcontinues ⊢
  rw [plainLines_cons hcontinues, plainLines_spaces]
  rfl

theorem holdsIndicator_cons {separated : Bool} {c : Char} {s : List Char}
    (h : holdsIndicator separated (c :: s) = false) :
    (c = ':' → isSeparated s = false) ∧ holdsIndicator (isSeparator c) s = false := by
  simp only [holdsIndicator, Bool.or_eq_false_iff, Bool.and_eq_false_iff,
    decide_eq_false_iff_not] at h
  exact ⟨fun hc => h.1.1.resolve_left (not_not_intro hc), h.2⟩

/-- A colon of a text has something behind it that stays there. -/
theorem isSeparated_append {s lines : List Char} (h : Folds indent s lines)
    (hs : isSeparated s = false) (rest : List Char) : isSeparated (lines ++ rest) = false := by
  cases s with
  | nil => cases hs
  | cons c s =>
      have hspace : c ≠ ' ' := by
        rintro rfl
        cases hs
      have hbreak : c ≠ '\n' := by
        rintro rfl
        cases hs
      obtain ⟨more, rfl, -⟩ := h.exists_cons hspace hbreak
      exact hs

/-- The lines of a plain text end where it does. -/
theorem plainLines_append {s lines : List Char} (h : Folds indent s lines) {separated : Bool}
    (hs : holdsIndicator separated s = false) (hbreak : '\n' ∉ s) {rest : List Char}
    (hrest : endsPlain indent rest = true) :
    plainLines indent (lines ++ rest) = (lines, rest) := by
  induction h generalizing separated with
  | nil => exact plainLines_of_endsPlain hrest
  | char hc h ih =>
      rename_i c s lines
      obtain ⟨hcolon, hs⟩ := holdsIndicator_cons hs
      have hinside : endsPlain indent (c :: (lines ++ rest)) = false := by
        rw [endsPlain, Bool.or_eq_false_iff, Bool.and_eq_false_iff, Bool.and_eq_false_iff,
          decide_eq_false_iff_not, decide_eq_false_iff_not]
        refine ⟨?_, Or.inl hc⟩
        by_cases he : c = ':'
        · exact Or.inr (isSeparated_append h (hcolon he) rest)
        · exact Or.inl he
      rw [List.cons_append, plainLines_cons hinside,
        ih hs fun hmem => hbreak (List.mem_cons_of_mem c hmem)]
  | space _ ih =>
      rename_i s lines _
      rw [List.append_assoc, plainLines_newLine,
        ih (holdsIndicator_cons hs).2 fun hmem => hbreak (List.mem_cons_of_mem _ hmem)]
  | breaks _ _ _ => exact absurd List.mem_cons_self hbreak

end Plain

/-! ## Texts in single quotes -/

def singleLines : List Char → Option (List Char × List Char)
  | [] => none
  | '\'' :: '\'' :: rest => (singleLines rest).map fun found => ('\'' :: found.1, found.2)
  | c :: rest =>
      if c = '\'' then some ([], rest)
      else (singleLines rest).map fun found => (c :: found.1, found.2)

theorem singleLines_append (lines : List Char) {rest : List Char} (hrest : rest.head? ≠ some '\'') :
    singleLines (lines.flatMap singleQuoted ++ '\'' :: rest) = some (lines, rest) := by
  induction lines with
  | nil =>
      rw [List.flatMap_nil, List.nil_append, singleLines, if_pos rfl]
      rintro more - rfl
      exact hrest rfl
  | cons c lines ih =>
      rw [List.flatMap_cons, singleQuoted]
      split
      · next hc =>
          rw [hc, List.append_assoc, List.cons_append, List.cons_append, List.nil_append,
            singleLines, ih]
          rfl
      · next hc =>
          rw [List.append_assoc, List.singleton_append, singleLines, if_neg hc, ih]
          · rfl
          · exact fun _ h _ => hc h

/-! ## Scalars -/

def readScalar (indent : Nat) : List Char → Option (List Char × List Char)
  | '\'' :: rest => (singleLines rest).map fun found => (unfolded indent found.1, found.2)
  | '"' :: rest => unescaped indent rest
  | text => some (unfolded indent (plainLines indent text).1, (plainLines indent text).2)

/-- Lines without quotes before them are read as the text that was folded. -/
theorem readScalar_append_of_folds {indent : Nat} (hindent : 0 < indent) {s lines rest : List Char}
    (h : Folds indent s lines) (hs : holdsIndicator false s = false) (hbreak : '\n' ∉ s)
    (hquote : ∀ d ∈ ['\'', '"'], (lines ++ rest).head? ≠ some d)
    (hrest : endsPlain indent rest = true) :
    readScalar indent (lines ++ rest) = some (s, rest) := by
  have hsplit := plainLines_append h hs hbreak hrest
  unfold readScalar
  split
  · next heq => exact absurd (by rw [heq]; rfl) (hquote '\'' (by simp))
  · next heq => exact absurd (by rw [heq]; rfl) (hquote '"' (by simp))
  · rw [hsplit, h.unfolded_eq hindent]

/-- What a plain text is made of. -/
theorem isPlain_iff {s : List Char} :
    isPlain s = true ↔ (s.all isVisible = true ∧ s.head? ≠ some ' ' ∧ s.getLast? ≠ some ' ') ∧
      startsWithIndicator s = false ∧ holdsIndicator false s = false ∧ isImplicit s = false := by
  simp only [isPlain, Bool.and_eq_true, bne_iff_ne, Bool.not_eq_true', and_assoc]

theorem styleOf_eq_plain_iff {s : List Char} : styleOf s = .plain ↔ isPlain s = true := by
  unfold styleOf
  split
  · next h => exact iff_of_true rfl h
  · next h =>
      refine iff_of_false ?_ h
      split <;> exact Style.noConfusion

section Plain

variable {s : List Char} (h : isPlain s = true)

include h

theorem lineFeed_not_mem_of_isPlain : '\n' ∉ s := by
  intro hmem
  have hvisible := List.all_eq_true.1 (isPlain_iff.1 h).1.1 '\n' hmem
  exact absurd hvisible (by decide)

/-- A plain text starts with a character that means nothing there. -/
theorem exists_cons_of_isPlain : ∃ c rest, s = c :: rest ∧ c ≠ ' ' ∧ c ≠ '\n' ∧ c ∉ indicators ∧
    (c = '?' → isSeparated rest = false) := by
  have hbreak := lineFeed_not_mem_of_isPlain h
  obtain ⟨⟨-, hhead, -⟩, hstart, -, himplicit⟩ := isPlain_iff.1 h
  cases s with
  | nil => exact absurd himplicit (by decide)
  | cons c rest =>
      simp only [startsWithIndicator, Bool.or_eq_false_iff, Bool.and_eq_false_iff,
        decide_eq_false_iff_not] at hstart
      obtain ⟨-, hindicator, hmark⟩ := hstart
      simp only [List.mem_cons, not_or] at hbreak
      refine ⟨c, rest, rfl, by simpa using hhead, Ne.symm hbreak.1, by simpa using hindicator, ?_⟩
      intro hc
      exact hmark.resolve_left fun hnot => hnot.1.1 hc

end Plain

section Scalar

variable {folding : Folding} {indent : Nat} {s : List Char}
  (hfolding : FoldsAt indent folding s)

include hfolding

/-- The three forms of a scalar. -/
theorem scalar_cases (hwidth : indent < width) (column : Nat) :
    (isPlain s = true ∧ ∃ lines, Folds indent s lines ∧ scalar folding column s = lines) ∨
      (∃ lines, Folds indent s lines ∧
        scalar folding column s = '\'' :: (lines.flatMap singleQuoted ++ ['\''])) ∨
      ∃ code, Escapes indent s code ∧ scalar folding column s = '"' :: (code ++ ['"']) := by
  unfold scalar
  split
  · next hstyle =>
      obtain ⟨lines, hlines, heq⟩ :=
        exists_folds_folded (fun c => [c]) rfl rfl true column s hfolding
      refine Or.inl ⟨styleOf_eq_plain_iff.1 hstyle, lines, hlines, ?_⟩
      rw [heq, List.flatMap_singleton']
  · obtain ⟨lines, hlines, heq⟩ :=
      exists_folds_folded singleQuoted rfl rfl true (column + 1) s hfolding
    exact Or.inr (Or.inl ⟨lines, hlines, by rw [heq]; rfl⟩)
  · exact Or.inr (Or.inr ⟨_, escapes_escaped hwidth hfolding.eq_indent _ _ _ _, rfl⟩)

/-- A text comes back from its scalar. -/
theorem readScalar_scalar_append (hindent : 0 < indent) (hwidth : indent < width) (column : Nat)
    {rest : List Char} (hrest : endsPlain indent rest = true) :
    readScalar indent (scalar folding column s ++ rest) = some (s, rest) := by
  rcases scalar_cases hfolding hwidth column with
    ⟨hplain, lines, hlines, heq⟩ | ⟨lines, hlines, heq⟩ | ⟨code, hcode, heq⟩
  · obtain ⟨c, s, rfl, hspace, hbreak, hindicator, -⟩ := exists_cons_of_isPlain hplain
    obtain ⟨more, rfl, -⟩ := hlines.exists_cons hspace hbreak
    have hquote : ∀ d ∈ ['\'', '"'], (c :: more ++ rest).head? ≠ some d := by
      have hquotes : ∀ d ∈ ['\'', '"'], d ∈ indicators := by decide
      rintro d hd ⟨⟩
      exact hindicator (hquotes _ hd)
    rw [heq]
    exact readScalar_append_of_folds hindent hlines (isPlain_iff.1 hplain).2.2.1
      (lineFeed_not_mem_of_isPlain hplain) hquote hrest
  · have hquote := head?_ne_of_endsPlain hrest
    rw [heq, List.cons_append, List.append_assoc, List.singleton_append, readScalar,
      singleLines_append lines hquote, Option.map_some, hlines.unfolded_eq hindent]
  · rw [heq, List.cons_append, List.append_assoc, List.singleton_append, readScalar,
      hcode.unescaped_append]

/-- Texts can be told from their scalars and from what follows, from whatever column on. -/
theorem scalar_append_inj {folding' : Folding} {s' : List Char}
    (hfolding' : FoldsAt indent folding' s') (hindent : 0 < indent) (hwidth : indent < width)
    {column column' : Nat} {rest rest' : List Char} (hrest : endsPlain indent rest = true)
    (hrest' : endsPlain indent rest' = true)
    (h : scalar folding column s ++ rest = scalar folding' column' s' ++ rest') :
    s = s' ∧ rest = rest' := by
  have hread := congrArg (readScalar indent) h
  rw [readScalar_scalar_append hfolding hindent hwidth column hrest,
    readScalar_scalar_append hfolding' hindent hwidth column' hrest'] at hread
  exact Prod.mk.inj (Option.some.inj hread)

/-- A scalar starts with a character that is no brace and no blank, nor with the question mark of a
key on a line of its own. -/
theorem exists_cons_scalar (hwidth : indent < width) (column : Nat) :
    ∃ c code, scalar folding column s = c :: code ∧ c ≠ ' ' ∧ c ≠ '\x7b' ∧
      (c = '?' → isSeparated code = false) := by
  rcases scalar_cases hfolding hwidth column with
    ⟨hplain, lines, hlines, heq⟩ | ⟨lines, -, heq⟩ | ⟨code, -, heq⟩
  · obtain ⟨c, s, rfl, hspace, hbreak, hindicator, hmark⟩ := exists_cons_of_isPlain hplain
    obtain ⟨more, rfl, hmore⟩ := hlines.exists_cons hspace hbreak
    refine ⟨c, more, heq, hspace, ?_, ?_⟩
    · rintro rfl
      exact hindicator (by decide)
    · intro hc
      rw [← List.append_nil more]
      exact isSeparated_append hmore (hmark hc) []
  · exact ⟨'\'', _, heq, by decide, by decide, fun h => absurd h (by decide)⟩
  · exact ⟨'"', _, heq, by decide, by decide, fun h => absurd h (by decide)⟩

end Scalar

end RequestForms.Yaml
