import Mathlib.Data.List.Infix
import RequestForms.Proofs.Text.Blank

/-!
# The grammar of JSON

The texts that the standard allows, rule by rule, with the words that are values by themselves as a
parameter. A text with `NaN` or `Infinity` among its words is still told from standard JSON by what
stands outside of its strings.
-/

namespace RequestForms.Json

/-! ## Rules without recursion -/

def IsSpacing (s : List Char) : Prop := ∀ c ∈ s, c ∈ [' ', '\t', '\n', '\r']

def decimalDigits : List Char := "0123456789".toList

def hexDigits : List Char := "0123456789abcdefABCDEF".toList

def IsDigits (s : List Char) : Prop := s ≠ [] ∧ ∀ c ∈ s, c ∈ decimalDigits

/-- The digits before the point. A zero stands in front of no others. -/
inductive IsWhole : List Char → Prop
  | zero : IsWhole ['0']
  | digits {c : Char} {more : List Char} (hc : c ∈ "123456789".toList)
      (hmore : ∀ d ∈ more, d ∈ decimalDigits) : IsWhole (c :: more)

/-- A point with the digits behind it, or nothing. -/
inductive IsFraction : List Char → Prop
  | none : IsFraction []
  | digits {s : List Char} (h : IsDigits s) : IsFraction ('.' :: s)

/-- The letter of an exponent with its sign and digits, or nothing. -/
inductive IsExponent : List Char → Prop
  | none : IsExponent []
  | digits {e : Char} {sign s : List Char} (he : e ∈ ['e', 'E'])
      (hsign : sign ∈ [[], ['+'], ['-']]) (h : IsDigits s) : IsExponent (e :: sign ++ s)

inductive IsNumber : List Char → Prop
  | mk {sign whole fraction exponent : List Char} (hsign : sign ∈ [[], ['-']])
      (hwhole : IsWhole whole) (hfraction : IsFraction fraction)
      (hexponent : IsExponent exponent) : IsNumber (sign ++ whole ++ fraction ++ exponent)

/-- The inside of a string: characters but for quotation marks, backslashes and control characters,
and escapes. -/
inductive IsInside : List Char → Prop
  | nil : IsInside []
  | plain {c : Char} {s : List Char} (hcontrol : 0x20 ≤ c.toNat) (hquote : c ≠ '"')
      (hescape : c ≠ '\\') (h : IsInside s) : IsInside (c :: s)
  | escape {c : Char} {s : List Char} (hc : c ∈ "\"\\/bfnrt".toList) (h : IsInside s) :
      IsInside ('\\' :: c :: s)
  | unicode {digits s : List Char} (hlength : digits.length = 4)
      (hdigits : ∀ c ∈ digits, c ∈ hexDigits) (h : IsInside s) :
      IsInside ('\\' :: 'u' :: digits ++ s)

inductive IsString : List Char → Prop
  | mk {inside : List Char} (h : IsInside inside) : IsString ('"' :: inside ++ ['"'])

/-! ## Values -/

/-- The rules that refer to each other: values, members of objects, and lists of either with commas
between them. -/
inductive Rule where
  | value
  | member
  | list (item : Rule)

/-- The texts of a rule, where some words are values by themselves. Items of a list may have blanks
around them, but for the first one in front. -/
inductive Derives (words : List (List Char)) : Rule → List Char → Prop
  | word {w : List Char} (h : w ∈ words) : Derives words .value w
  | number {s : List Char} (h : IsNumber s) : Derives words .value s
  | string {s : List Char} (h : IsString s) : Derives words .value s
  | emptyArray {gap : List Char} (hgap : IsSpacing gap) : Derives words .value ('[' :: gap ++ [']'])
  | array {gap inside : List Char} (hgap : IsSpacing gap)
      (h : Derives words (.list .value) inside) :
      Derives words .value ('[' :: gap ++ inside ++ [']'])
  | emptyObject {gap : List Char} (hgap : IsSpacing gap) :
      Derives words .value ('\x7b' :: gap ++ ['\x7d'])
  | object {gap inside : List Char} (hgap : IsSpacing gap)
      (h : Derives words (.list .member) inside) :
      Derives words .value ('\x7b' :: gap ++ inside ++ ['\x7d'])
  | member {name before behind s : List Char} (hname : IsString name) (hbefore : IsSpacing before)
      (hbehind : IsSpacing behind) (h : Derives words .value s) :
      Derives words .member (name ++ before ++ ':' :: behind ++ s)
  | last {item : Rule} {s gap : List Char} (h : Derives words item s) (hgap : IsSpacing gap) :
      Derives words (.list item) (s ++ gap)
  | cons {item : Rule} {s before behind more : List Char} (h : Derives words item s)
      (hbefore : IsSpacing before) (hbehind : IsSpacing behind)
      (hmore : Derives words (.list item) more) :
      Derives words (.list item) (s ++ before ++ ',' :: behind ++ more)

inductive IsText (words : List (List Char)) : List Char → Prop
  | mk {before inside after : List Char} (hbefore : IsSpacing before)
      (h : Derives words .value inside) (hafter : IsSpacing after) :
      IsText words (before ++ inside ++ after)

theorem Derives.isText {words : List (List Char)} {s : List Char}
    (h : Derives words .value s) : IsText words s := by
  have hnone : IsSpacing [] := by simp [IsSpacing]
  have htext : IsText words ([] ++ s ++ []) := .mk hnone h hnone
  rwa [List.nil_append, List.append_nil] at htext

def standardWords : List (List Char) := ["null".toList, "true".toList, "false".toList]

/-- Words for numbers that the standard cannot write. -/
def numberWords : List (List Char) := ["NaN".toList, "Infinity".toList, "-Infinity".toList]

/-! ## Outside of strings -/

inductive Zone where
  | outside
  | inside
  | escape

def outside : Zone → List Char → List Char
  | _, [] => []
  | .outside, c :: rest => if c = '"' then outside .inside rest else c :: outside .outside rest
  | .inside, c :: rest =>
      if c = '\\' then outside .escape rest
      else if c = '"' then outside .outside rest
      else outside .inside rest
  | .escape, _ :: rest => outside .inside rest

def withoutStrings (s : List Char) : List Char := outside .outside s

@[simp] theorem withoutStrings_nil : withoutStrings [] = [] := rfl

/-- Whether a number stands in a text that the standard cannot write. A string with its name does
not count. -/
def HasNumberWord (s : List Char) : Prop :=
  "NaN".toList <:+: withoutStrings s ∨ "Infinity".toList <:+: withoutStrings s

instance (s : List Char) : Decidable (HasNumberWord s) := inferInstanceAs (Decidable (_ ∨ _))

/-! ## Pieces of a text -/

theorem outside_inside_append_of_plain {s : List Char} (h : ∀ c ∈ s, c ≠ '\\' ∧ c ≠ '"')
    (rest : List Char) : outside .inside (s ++ rest) = outside .inside rest := by
  induction s with
  | nil => rfl
  | cons c s ih =>
      rw [List.forall_mem_cons] at h
      rw [List.cons_append, outside, if_neg h.1.1, if_neg h.1.2, ih h.2]

/-- A scan leaves a string at its end. -/
theorem outside_inside_append {inside : List Char} (h : IsInside inside) (rest : List Char) :
    outside .inside (inside ++ '"' :: rest) = withoutStrings rest := by
  induction h with
  | nil => rfl
  | plain _ hquote hescape _ ih =>
      rw [List.cons_append, outside, if_neg hescape, if_neg hquote, ih]
  | escape _ _ ih => exact ih
  | @unicode digits s _ hdigits _ ih =>
      have hplain : ∀ c ∈ hexDigits, c ≠ '\\' ∧ c ≠ '"' := by decide
      change outside .inside (digits ++ s ++ '"' :: rest) = _
      rw [List.append_assoc, outside_inside_append_of_plain fun c hc => hplain c (hdigits c hc), ih]

/-- A part of a text with all strings in it closed. Outside of them it has characters of one kind
only. -/
structure IsPiece (allowed : Char → Prop) (s : List Char) : Prop where
  withoutStrings_append : ∀ rest,
    withoutStrings (s ++ rest) = withoutStrings s ++ withoutStrings rest
  mem : ∀ c ∈ withoutStrings s, allowed c

section Pieces

variable {allowed : Char → Prop} {a b c s : List Char}

theorem IsPiece.append (ha : IsPiece allowed a) (hb : IsPiece allowed b) :
    IsPiece allowed (a ++ b) where
  withoutStrings_append rest := by
    rw [List.append_assoc, ha.withoutStrings_append, hb.withoutStrings_append,
      ha.withoutStrings_append, List.append_assoc]
  mem c hc := by
    rw [ha.withoutStrings_append] at hc
    rcases List.mem_append.1 hc with hc | hc
    · exact ha.mem c hc
    · exact hb.mem c hc

theorem withoutStrings_append_of_plain (h : '"' ∉ s) (rest : List Char) :
    withoutStrings (s ++ rest) = s ++ withoutStrings rest := by
  induction s with
  | nil => rfl
  | cons c s ih =>
      simp only [List.mem_cons, not_or] at h
      rw [List.cons_append, withoutStrings, outside, if_neg (Ne.symm h.1)]
      exact congrArg (c :: ·) (ih h.2)

theorem withoutStrings_of_plain (h : '"' ∉ s) : withoutStrings s = s := by
  have happend := withoutStrings_append_of_plain h []
  rwa [List.append_nil, withoutStrings_nil, List.append_nil] at happend

theorem isPiece_of_plain (h : '"' ∉ s) (hs : ∀ c ∈ s, allowed c) : IsPiece allowed s where
  withoutStrings_append rest := by
    rw [withoutStrings_append_of_plain h, withoutStrings_of_plain h]
  mem := by rwa [withoutStrings_of_plain h]

theorem withoutStrings_append_of_isString (h : IsString s) (rest : List Char) :
    withoutStrings (s ++ rest) = withoutStrings rest := by
  obtain ⟨hinside⟩ := h
  rw [List.append_assoc]
  exact outside_inside_append hinside rest

theorem isPiece_of_isString (h : IsString s) : IsPiece allowed s := by
  have hnil : withoutStrings s = [] := by
    have hrest := withoutStrings_append_of_isString h []
    rwa [List.append_nil] at hrest
  refine ⟨fun rest => ?_, by simp [hnil]⟩
  rw [withoutStrings_append_of_isString h, hnil, List.nil_append]

theorem HasNumberWord.of_isInfix (h : HasNumberWord a)
    (hab : withoutStrings a <:+: withoutStrings b) : HasNumberWord b := by
  rcases h with h | h
  · exact Or.inl (h.trans hab)
  · exact Or.inr (h.trans hab)

theorem not_hasNumberWord_of_append (ha : IsPiece allowed a) (h : ¬HasNumberWord (a ++ b)) :
    ¬HasNumberWord a ∧ ¬HasNumberWord b := by
  have happend := ha.withoutStrings_append b
  refine ⟨fun hword => h (hword.of_isInfix ?_), fun hword => h (hword.of_isInfix ?_)⟩
  · rw [happend]
    exact (List.prefix_append _ _).isInfix
  · rw [happend]
    exact (List.suffix_append _ _).isInfix

theorem not_hasNumberWord_of_middle (ha : IsPiece allowed a) (hb : IsPiece allowed b)
    (h : ¬HasNumberWord (a ++ b ++ c)) : ¬HasNumberWord b :=
  (not_hasNumberWord_of_append ha (not_hasNumberWord_of_append (ha.append hb) h).1).2

end Pieces

/-! ## What the rules write -/

def numberMarks : List Char := "0123456789+-.eE".toList

/-- The characters that the rules write outside of strings and words. -/
def marks : List Char := numberMarks ++ "[]\x7b\x7d:, \t\n\r".toList

theorem IsDigits.mem_numberMarks {s : List Char} (h : IsDigits s) : ∀ c ∈ s, c ∈ numberMarks := by
  have hdigits : ∀ c ∈ decimalDigits, c ∈ numberMarks := by decide
  exact fun c hc => hdigits c (h.2 c hc)

theorem IsNumber.mem_numberMarks {s : List Char} (h : IsNumber s) : ∀ c ∈ s, c ∈ numberMarks := by
  have hdigits : ∀ c ∈ decimalDigits, c ∈ numberMarks := by decide
  have hfirst : ∀ c ∈ "123456789".toList, c ∈ numberMarks := by decide
  have hletter : ∀ c ∈ ['e', 'E'], c ∈ numberMarks := by decide
  have hminus : ∀ sign ∈ [[], ['-']], ∀ c ∈ sign, c ∈ numberMarks := by decide
  have hsigns : ∀ sign ∈ [[], ['+'], ['-']], ∀ c ∈ sign, c ∈ numberMarks := by decide
  obtain ⟨hsign, hwhole, hfraction, hexponent⟩ := h
  simp only [List.forall_mem_append]
  refine ⟨⟨⟨?_, ?_⟩, ?_⟩, ?_⟩
  · exact hminus _ hsign
  · cases hwhole with
    | zero => decide
    | digits hc hmore =>
        exact List.forall_mem_cons.2 ⟨hfirst _ hc, fun d hd => hdigits d (hmore d hd)⟩
  · cases hfraction with
    | none => simp
    | digits hs => exact List.forall_mem_cons.2 ⟨by decide, hs.mem_numberMarks⟩
  · cases hexponent with
    | none => simp
    | digits he hsign hs =>
        rw [List.forall_mem_append, List.forall_mem_cons]
        exact ⟨⟨hletter _ he, hsigns _ hsign⟩, hs.mem_numberMarks⟩

theorem IsSpacing.mem_marks {gap : List Char} (h : IsSpacing gap) : ∀ c ∈ gap, c ∈ marks := by
  have hspaces : ∀ c ∈ [' ', '\t', '\n', '\r'], c ∈ marks := by decide
  exact fun c hc => hspaces c (h c hc)

/-- A text of a rule is put together from marks, words and strings. -/
theorem Derives.of_parts {words : List (List Char)} {P : List Char → Prop}
    (happend : ∀ {a b}, P a → P b → P (a ++ b)) (hmarks : ∀ {s}, (∀ c ∈ s, c ∈ marks) → P s)
    (hwords : ∀ w ∈ words, P w) (hstring : ∀ {s}, IsString s → P s) {rule : Rule} {s : List Char}
    (h : Derives words rule s) : P s := by
  have hspacing : ∀ {gap}, IsSpacing gap → P gap := fun hgap => hmarks hgap.mem_marks
  have hopening : ∀ {mark gap}, mark ∈ marks → IsSpacing gap → P (mark :: gap) :=
    fun hmark hgap => hmarks (List.forall_mem_cons.2 ⟨hmark, hgap.mem_marks⟩)
  have hclosing : ∀ {mark}, mark ∈ marks → P [mark] := fun hmark =>
    hopening hmark (show IsSpacing [] by simp [IsSpacing])
  induction h with
  | word h => exact hwords _ h
  | number h => exact hmarks fun c hc => List.mem_append_left _ (h.mem_numberMarks c hc)
  | string h => exact hstring h
  | emptyArray hgap => exact happend (hopening (by decide) hgap) (hclosing (by decide))
  | array hgap _ ih =>
      exact happend (happend (hopening (by decide) hgap) ih) (hclosing (by decide))
  | emptyObject hgap => exact happend (hopening (by decide) hgap) (hclosing (by decide))
  | object hgap _ ih =>
      exact happend (happend (hopening (by decide) hgap) ih) (hclosing (by decide))
  | member hname hbefore hbehind _ ih =>
      exact happend (happend (happend (hstring hname) (hspacing hbefore))
        (hopening (by decide) hbehind)) ih
  | last _ hgap ih => exact happend ih (hspacing hgap)
  | cons _ hbefore hbehind _ ih ihmore =>
      exact happend (happend (happend ih (hspacing hbefore)) (hopening (by decide) hbehind)) ihmore

section Written

variable {words : List (List Char)} {allowed : Char → Prop} (hmarks : ∀ c ∈ marks, allowed c)

include hmarks

theorem isPiece_of_marks {s : List Char} (h : ∀ c ∈ s, c ∈ marks) : IsPiece allowed s := by
  have hquote : '"' ∉ marks := by decide
  exact isPiece_of_plain (fun hmem => hquote (h _ hmem)) fun c hc => hmarks c (h c hc)

/-- A mark with blanks behind it. -/
theorem isPiece_cons (mark : Char) (hmark : mark ∈ marks) {gap : List Char} (h : IsSpacing gap) :
    IsPiece allowed (mark :: gap) :=
  isPiece_of_marks hmarks (List.forall_mem_cons.2 ⟨hmark, h.mem_marks⟩)

/-- Outside of strings a text has marks of the grammar and its words. -/
theorem Derives.isPiece {rule : Rule} {s : List Char}
    (hwords : ∀ w ∈ words, '"' ∉ w ∧ ∀ c ∈ w, allowed c) (h : Derives words rule s) :
    IsPiece allowed s :=
  h.of_parts IsPiece.append (isPiece_of_marks hmarks)
    (fun w hw => isPiece_of_plain (hwords w hw).1 (hwords w hw).2) isPiece_of_isString

end Written

/-! ## Standard texts -/

theorem not_hasNumberWord_of_isText {s : List Char} (h : IsText standardWords s) :
    ¬HasNumberWord s := by
  have hmarks : ∀ c ∈ marks, c ≠ 'N' ∧ c ≠ 'I' := by decide
  have hwords : ∀ w ∈ standardWords, '"' ∉ w ∧ ∀ c ∈ w, c ≠ 'N' ∧ c ≠ 'I' := by decide
  obtain ⟨hbefore, hinside, hafter⟩ := h
  have hfront :=
    (isPiece_of_marks hmarks hbefore.mem_marks).append (hinside.isPiece hmarks hwords)
  have hpiece := hfront.append (isPiece_of_marks hmarks hafter.mem_marks)
  rintro (hword | hword)
  · exact (hpiece.mem 'N' (hword.subset (by decide))).1 rfl
  · exact (hpiece.mem 'I' (hword.subset (by decide))).2 rfl

theorem mem_standardWords {w : List Char} (h : w ∈ standardWords ++ numberWords)
    (hw : ¬HasNumberWord w) : w ∈ standardWords := by
  have hnumbers : ∀ w ∈ numberWords, HasNumberWord w := by decide
  rcases List.mem_append.1 h with h | h
  · exact h
  · exact absurd (hnumbers w h) hw

/-- A text that has a number word among its rules shows it outside of its strings. -/
theorem Derives.standard {rule : Rule} {s : List Char}
    (h : Derives (standardWords ++ numberWords) rule s) (hs : ¬HasNumberWord s) :
    Derives standardWords rule s := by
  have hmarks : ∀ c ∈ marks, True := fun _ _ => trivial
  have hwords : ∀ w ∈ standardWords ++ numberWords, '"' ∉ w ∧ ∀ c ∈ w, True := by decide
  induction h with
  | word h => exact .word (mem_standardWords h hs)
  | number h => exact .number h
  | string h => exact .string h
  | emptyArray hgap => exact .emptyArray hgap
  | array hgap h ih =>
      have hopening := isPiece_cons hmarks '[' (by decide) hgap
      exact .array hgap (ih (not_hasNumberWord_of_middle hopening (h.isPiece hmarks hwords) hs))
  | emptyObject hgap => exact .emptyObject hgap
  | object hgap h ih =>
      have hopening := isPiece_cons hmarks '\x7b' (by decide) hgap
      exact .object hgap (ih (not_hasNumberWord_of_middle hopening (h.isPiece hmarks hwords) hs))
  | member hname hbefore hbehind h ih =>
      have hgap := (isPiece_of_isString hname).append (isPiece_of_marks hmarks hbefore.mem_marks)
      have hfront := hgap.append (isPiece_cons hmarks ':' (by decide) hbehind)
      exact .member hname hbefore hbehind (ih (not_hasNumberWord_of_append hfront hs).2)
  | last h hgap ih =>
      exact .last (ih (not_hasNumberWord_of_append (h.isPiece hmarks hwords) hs).1) hgap
  | cons h hbefore hbehind hmore ih ihmore =>
      have hitem := h.isPiece hmarks hwords
      have hgap := hitem.append (isPiece_of_marks hmarks hbefore.mem_marks)
      have hfront := hgap.append (isPiece_cons hmarks ',' (by decide) hbehind)
      obtain ⟨hleft, hright⟩ := not_hasNumberWord_of_append hfront hs
      have hs' := not_hasNumberWord_of_append hitem (not_hasNumberWord_of_append hgap hleft).1
      exact .cons (ih hs'.1) hbefore hbehind (ihmore hright)

end RequestForms.Json
