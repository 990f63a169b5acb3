import RequestForms.Proofs.Shell.Words
import RequestForms.Proofs.Text.Lines

/-!
# The styles of quoting

A word can be written in segments, each of them between single quotes, between double quotes or with
a backslash before every character. Words with spaces between them are read back whatever the
segments are and however many spaces there are.
-/

namespace RequestForms.Shell

def doubleQuoted (c : Char) : List Char := if c = '\\' ∨ c = '"' then ['\\', c] else [c]

/-- What is written for a part of a word, and the part. -/
inductive Segment : List Char → List Char → Prop
  | single {text : List Char} (h : '\'' ∉ text) : Segment ('\'' :: (text ++ ['\''])) text
  | double (text : List Char) : Segment ('"' :: (text.flatMap doubleQuoted ++ ['"'])) text
  | escaped (text : List Char) : Segment (text.flatMap fun c => ['\\', c]) text

/-- Segments without anything between them, and the word that they make up. -/
inductive Spelling : List Char → List Char → Prop
  | nil : Spelling [] []
  | cons {written text more rest : List Char} (hsegment : Segment written text)
      (hmore : Spelling more rest) : Spelling (written ++ more) (text ++ rest)

def EndsWord (rest : List Char) : Prop := ∀ c ∈ rest.head?, c = ' '

/-- Words with at least one space between each two of them, and any number before and behind. -/
inductive Line : List Char → List (List Char) → Prop
  | nil : Line [] []
  | space {line : List Char} {words : List (List Char)} (hline : Line line words) :
      Line (' ' :: line) words
  | word {written word line : List Char} {words : List (List Char)}
      (hword : Spelling written word) (hne : word ≠ []) (hend : EndsWord line)
      (hline : Line line words) : Line (written ++ line) (word :: words)

/-! ## Segments -/

theorem Scan.behind_append (front more : List Char) (scan : Scan) :
    scan.behind (front ++ more) = (scan.behind more).behind front := by
  rw [behind, List.append_assoc]
  rfl

theorem scan_append_single {text : List Char} (h : '\'' ∉ text) (rest : List Char) :
    scan .single (text ++ '\'' :: rest) = (scan .bare rest).behind text := by
  have hkept : ∀ c ∈ text, step .single c = (.single, .kept) := by
    intro c hc
    have hne : c ≠ '\'' := fun he => h (he ▸ hc)
    rw [step, if_neg hne]
  rw [scan_append_of_kept hkept]
  rfl

theorem scan_append_double (text rest : List Char) :
    scan .double (text.flatMap doubleQuoted ++ '"' :: rest) = (scan .bare rest).behind text := by
  induction text with
  | nil => rfl
  | cons c text ih =>
      rw [List.flatMap_cons, List.append_assoc, doubleQuoted]
      split
      · -- the backslash is dropped, and the character behind it kept whatever it is
        change (scan .double (text.flatMap doubleQuoted ++ '"' :: rest)).behind [c] = _
        rw [ih, ← Scan.behind_append]
        rfl
      · next hc =>
          obtain ⟨hescape, hquote⟩ := not_or.1 hc
          have hkept : ∀ d ∈ [c], step .double d = (.double, .kept) := by
            simp [step, hescape, hquote]
          rw [scan_append_of_kept hkept, ih, ← Scan.behind_append]
          rfl

theorem scan_append_escaped (text rest : List Char) :
    scan .bare ((text.flatMap fun c => ['\\', c]) ++ rest) = (scan .bare rest).behind text := by
  induction text with
  | nil => rfl
  | cons c text ih =>
      rw [List.flatMap_cons, List.append_assoc]
      change (scan .bare ((text.flatMap fun c => ['\\', c]) ++ rest)).behind [c] = _
      rw [ih, ← Scan.behind_append]
      rfl

theorem Segment.scan_append {written text : List Char} (h : Segment written text)
    (rest : List Char) : scan .bare (written ++ rest) = (scan .bare rest).behind text := by
  cases h with
  | single hquote =>
      rw [List.cons_append, List.append_assoc]
      exact scan_append_single hquote rest
  | double =>
      rw [List.cons_append, List.append_assoc]
      exact scan_append_double text rest
  | escaped => exact scan_append_escaped text rest

/-! ## Words and lines -/

/-- Outside quotes a spelled word is read back in front of whatever follows it. -/
theorem Spelling.scan_append {written word : List Char} (h : Spelling written word)
    (rest : List Char) : scan .bare (written ++ rest) = (scan .bare rest).behind word := by
  induction h with
  | nil => rfl
  | cons hsegment _ ih =>
      rw [List.append_assoc, hsegment.scan_append, ih, Scan.behind_append]

theorem pending_eq_nil_of_endsWord {rest : List Char} (h : EndsWord rest) :
    (scan .bare rest).pending = [] := by
  cases rest with
  | nil => rfl
  | cons c rest =>
      obtain rfl : c = ' ' := h c rfl
      rfl

theorem split_append_of_endsWord {written word rest : List Char} (hword : Spelling written word)
    (hne : word ≠ []) (hend : EndsWord rest) :
    split (written ++ rest) = word :: split rest := by
  have hpending := pending_eq_nil_of_endsWord hend
  calc
    split (written ++ rest) = ((scan .bare rest).behind word).words := by
      rw [split, hword.scan_append]
    _ = word :: (scan .bare rest).later := by
      rw [Scan.words, Scan.behind, hpending, List.append_nil, if_neg hne]
    _ = word :: split rest := by
      rw [split, Scan.words, hpending, if_pos rfl]

theorem Line.split_eq {line : List Char} {words : List (List Char)} (h : Line line words) :
    split line = words := by
  induction h with
  | nil => rfl
  | space _ ih => rw [split_cons_space, ih]
  | word hword hne hend _ ih => rw [split_append_of_endsWord hword hne hend, ih]

/-! ## Quoted texts in a row -/

theorem split_append_flatMap {front : List Char} (hfront : modeAfter .bare front = .bare)
    {parts : List (List Char)} (hparts : ∀ part ∈ parts, modeAfter .bare part = .bare) :
    split (front ++ parts.flatMap (' ' :: ·)) = split front ++ parts.flatMap split := by
  induction parts generalizing front with
  | nil => simp
  | cons part parts ih =>
      rw [List.flatMap_cons, List.cons_append, split_append_space hfront,
        ih (hparts part (by simp)) fun p hp => hparts p (List.mem_cons_of_mem part hp),
        List.flatMap_cons]

theorem split_intercalate_quote (texts : List String) :
    split (" ".intercalate (texts.map quote)).toList =
      texts.flatMap fun text => split (quoteChars text.toList) := by
  rw [String.toList_intercalate, List.map_map]
  cases texts with
  | nil => rfl
  | cons text texts =>
      have hparts : ∀ part ∈ texts.map (String.toList ∘ quote), modeAfter .bare part = .bare := by
        intro part hpart
        obtain ⟨t, -, rfl⟩ := List.mem_map.1 hpart
        rw [Function.comp_apply, toList_quote, modeAfter_quoteChars]
      have hfront : modeAfter .bare (quote text).toList = .bare := by
        rw [toList_quote, modeAfter_quoteChars]
      rw [List.map_cons, Text.intercalate_cons, Function.comp_apply]
      refine (split_append_flatMap hfront hparts).trans ?_
      simp [List.flatMap_map]

/-- Quoted texts with a space between each two of them are read back, but for the empty ones. -/
theorem words_intercalate_quote (texts : List String) :
    words (" ".intercalate (texts.map quote)) = texts.filter fun text => text ≠ "" := by
  have hword : ∀ text : String, (split (quoteChars text.toList)).map String.ofList =
      [text].filter fun text => text ≠ "" := by
    intro text
    rw [split_quoteChars]
    by_cases hempty : text = "" <;> simp [hempty]
  rw [words, split_intercalate_quote, List.map_flatMap]
  simp only [hword]
  rw [← List.filter_flatMap, List.flatMap_singleton']

/-- Words in any styles of quoting are read back, and so are texts that are quoted one by one. -/
theorem words_eq_of_line :
    (∀ (line : String) (texts : List String),
      Line line.toList (texts.map String.toList) → words line = texts) ∧
    ∀ texts : List String, (∀ text ∈ texts, text ≠ "") →
      words (" ".intercalate (texts.map quote)) = texts := by
  constructor
  · intro line texts hline
    rw [words, hline.split_eq, List.map_map]
    simp [Function.comp_def]
  · intro texts hne
    rw [words_intercalate_quote, List.filter_eq_self]
    simpa using hne

/-- One word in all three styles, then one of an escaped space, with spaces all around. -/
theorem words_eq_of_mixed_styles :
    Line "  'a \"'\"b'\\\\\"\\\n\\c   \\  ".toList ["a \"b'\\\nc".toList, " ".toList] ∧
      words "  'a \"'\"b'\\\\\"\\\n\\c   \\  " = ["a \"b'\\\nc", " "] ∧
      words (" ".intercalate (["it's", "\\", " "].map quote)) = ["it's", "\\", " "] := by
  have hquote : '\'' ∉ "a \"".toList := by decide
  have hsegments : Spelling "'a \"'\"b'\\\\\"\\\n\\c".toList "a \"b'\\\nc".toList :=
    .cons (.single hquote) (.cons (.double "b'\\".toList) (.cons (.escaped "\nc".toList) .nil))
  have hspace : Spelling "\\ ".toList " ".toList := .cons (.escaped [' ']) .nil
  have hline : Line "  'a \"'\"b'\\\\\"\\\n\\c   \\  ".toList
      (["a \"b'\\\nc", " "].map String.toList) :=
    .space (.space (.word hsegments (by decide) (by rintro c ⟨⟩; rfl)
      (.space (.space (.space (.word hspace (by decide) (by rintro c ⟨⟩; rfl)
        (.space .nil)))))))
  exact ⟨hline, words_eq_of_line.1 _ _ hline, words_eq_of_line.2 _ (by decide)⟩

end RequestForms.Shell
