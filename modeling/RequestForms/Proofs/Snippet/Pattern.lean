import Mathlib.Tactic.MkIffOfInductiveProp
import RequestForms.Proofs.Text.Search
import RequestForms.Snippet.Literal
import RequestForms.Snippet.Pattern

/-!
# What the patterns of a call need

A part of a call is found by a word with a mark behind it. From inside of a plain text no pattern
fits, because it would have to get past the closing quote.
-/

namespace RequestForms.Snippet

/-- A character that opens or closes something in a call, or escapes. -/
def isMarkup (c : Char) : Bool :=
  isQuote c || c = '\\' || c = '(' || c = ')' || c = '\x7b' || c = '\x7d'

/-- A text without markup that does not end like a name in front of its value. -/
@[mk_iff] structure IsPlain (text : String) : Prop where
  ne_empty : text ≠ ""
  not_markup : ∀ c ∈ text.toList, isMarkup c = false
  last_ne_colon : (Text.stripEnd text.toList).getLast? ≠ some ':'

instance (text : String) : Decidable (IsPlain text) := decidable_of_iff _ (isPlain_iff text).symm

theorem IsPlain.toList_ne_nil {text : String} (h : IsPlain text) : text.toList ≠ [] := by
  simpa using h.ne_empty

theorem isMarkup_of_isQuote {c : Char} (h : isQuote c = true) : isMarkup c = true := by
  rw [isMarkup, h]
  rfl

theorem isQuote_of_isMarkup_eq_false {c : Char} (h : isMarkup c = false) : isQuote c = false := by
  cases hquote : isQuote c with
  | false => rfl
  | true => exact absurd h (by rw [isMarkup_of_isQuote hquote]; decide)

def markupPoints : List Nat := [0x22, 0x27, 0x28, 0x29, 0x5c, 0x60, 0x7b, 0x7d]

theorem toNat_of_isMarkup {c : Char} (h : isMarkup c = true) : c.toNat ∈ markupPoints := by
  simp only [isMarkup, isQuote, Bool.or_eq_true, decide_eq_true_eq] at h
  rcases h with ((((((rfl | rfl) | hn) | rfl) | rfl) | rfl) | rfl) | rfl
  case inl.inl.inl.inl.inl.inr => simp [markupPoints, hn]
  all_goals decide

theorem isBlank_of_isMarkup {c : Char} (h : isMarkup c = true) : Text.isBlank c = false := by
  have hpoints : ∀ n ∈ markupPoints, Text.inRanges n Text.blankRanges = false := by decide
  exact hpoints c.toNat (toNat_of_isMarkup h)

theorem isWordChar_of_isMarkup {c : Char} (h : isMarkup c = true) :
    Text.isWordChar c = false := by
  have hpoints : ∀ n ∈ markupPoints, Text.inRanges n Text.wordRanges = false := by decide +kernel
  exact hpoints c.toNat (toNat_of_isMarkup h)

theorem isMarkup_of_isBlank {c : Char} (h : Text.isBlank c = true) : isMarkup c = false := by
  cases hc : isMarkup c with
  | false => rfl
  | true => exact absurd h (by rw [isBlank_of_isMarkup hc]; decide)

theorem isMarkup_of_isWordChar {c : Char} (h : Text.isWordChar c = true) :
    isMarkup c = false := by
  cases hc : isMarkup c with
  | false => rfl
  | true => exact absurd h (by rw [isWordChar_of_isMarkup hc]; decide)

def IsPlainOrEmpty (text : String) : Prop := text = "" ∨ IsPlain text

instance (text : String) : Decidable (IsPlainOrEmpty text) := inferInstanceAs (Decidable (_ ∨ _))

namespace IsPlainOrEmpty

variable {text : String}

theorem not_markup (h : IsPlainOrEmpty text) : ∀ c ∈ text.toList, isMarkup c = false := by
  rcases h with rfl | h
  · simp
  · exact h.not_markup

theorem last_ne_colon (h : IsPlainOrEmpty text) :
    (Text.stripEnd text.toList).getLast? ≠ some ':' := by
  rcases h with rfl | h
  · decide
  · exact h.last_ne_colon

end IsPlainOrEmpty

/-- A word is plain. -/
theorem IsPlain.of_isWordChar {text : String} (hne : text ≠ "")
    (h : ∀ c ∈ text.toList, Text.isWordChar c = true) : IsPlain text := by
  refine ⟨hne, fun c hc => isMarkup_of_isWordChar (h c hc), ?_⟩
  intro hlast
  obtain ⟨b, -, htext⟩ := Text.exists_stripEnd_append_blank text.toList
  have hmem : ':' ∈ text.toList := by
    rw [htext]
    exact List.mem_append_left b (List.mem_of_getLast? hlast)
  exact absurd (h ':' hmem) (by decide)

/-! ## Values -/

theorem enclosed?_append {opens closes : Char → Bool} {a b : Char} (ha : opens a = true)
    (hb : closes b = true) {inside : List Char} (hne : inside ≠ [])
    (hinside : ∀ c ∈ inside, closes c = false) (behind : List Char) :
    enclosed? opens closes (a :: (inside ++ b :: behind)) = some (inside, behind) := by
  have hkeep : ∀ c ∈ inside, (!closes c) = true := by
    intro c hc
    rw [hinside c hc]
    rfl
  have htake : (inside ++ b :: behind).takeWhile (! closes ·) = inside := by
    rw [List.takeWhile_append_of_pos hkeep, List.takeWhile_cons, hb]
    simp
  have hdrop : (inside ++ b :: behind).dropWhile (! closes ·) = b :: behind := by
    rw [List.dropWhile_append_of_pos hkeep, List.dropWhile_cons, hb]
    rfl
  rw [enclosed?, htake, hdrop, if_pos ⟨ha, hne⟩]

/-- What was taken is what stands up to the first closing character. -/
theorem exists_of_enclosed?_eq_some {opens closes : Char → Bool} {s inside behind : List Char}
    (h : enclosed? opens closes s = some (inside, behind)) :
    ∃ a b, s = a :: (inside ++ b :: behind) ∧ opens a = true ∧ inside ≠ [] ∧
      ∀ c ∈ inside, closes c = false := by
  unfold enclosed? at h
  split at h
  · cases h
  · next a rest =>
      split at h
      · next hopens =>
          split at h
          · cases h
          · next b tail hdrop =>
              obtain ⟨rfl, rfl⟩ := Prod.mk.inj (Option.some.inj h)
              refine ⟨a, b, ?_, hopens.1, hopens.2, ?_⟩
              · rw [← hdrop, List.takeWhile_append_dropWhile]
              · intro c hc
                simpa using List.all_eq_true.1 List.all_takeWhile c hc
      · cases h

theorem exists_of_enclosed? {opens closes : Char → Bool} {s : List Char}
    (h : enclosed? opens closes s ≠ none) : ∃ c rest, s = c :: rest ∧ opens c = true := by
  obtain ⟨⟨inside, behind⟩, hfound⟩ := Option.ne_none_iff_exists'.1 h
  obtain ⟨a, b, hs, hopens, -, -⟩ := exists_of_enclosed?_eq_some hfound
  exact ⟨a, inside ++ b :: behind, hs, hopens⟩

theorem suffix_of_enclosed? {opens closes : Char → Bool} {s inside behind : List Char}
    (h : enclosed? opens closes s = some (inside, behind)) : behind <:+ s := by
  obtain ⟨a, b, rfl, -, -, -⟩ := exists_of_enclosed?_eq_some h
  exact ⟨a :: (inside ++ [b]), by simp⟩

theorem quoteChars_eq {s : List Char} (h : ∀ c ∈ s, isMarkup c = false) :
    quoteChars s = '\'' :: s ++ ['\''] := by
  have hself : s.flatMap escaped = s := by
    induction s with
    | nil => rfl
    | cons c s ih =>
        have hc := h c (by simp)
        have hescaped : escaped c = [c] := by
          rw [escaped, if_neg]
          rintro (rfl | rfl) <;> exact absurd hc (by decide)
        rw [List.flatMap_cons, hescaped, ih fun d hd => h d (List.mem_cons_of_mem c hd)]
        rfl
  rw [quoteChars, hself]

theorem quoted?_quoteChars {s : List Char} (hne : s ≠ []) (h : ∀ c ∈ s, isMarkup c = false)
    (behind : List Char) : quoted? (quoteChars s ++ behind) = some (s, behind) := by
  have hinside : ∀ c ∈ s, isQuote c = false := fun c hc => isQuote_of_isMarkup_eq_false (h c hc)
  rw [quoteChars_eq h, List.append_assoc]
  exact enclosed?_append (by decide) (by decide) hne hinside behind

theorem bracketed_append (mark : Char) {close : Char} {inside : List Char} (hne : inside ≠ [])
    (h : close ∉ inside) (behind : List Char) :
    enclosed? (· = mark) (· = close) (mark :: (inside ++ close :: behind)) =
      some (inside, behind) :=
  enclosed?_append (decide_eq_true rfl) (decide_eq_true rfl) hne
    (fun _ hc => decide_eq_false (ne_of_mem_of_not_mem hc h)) behind

theorem quotedWord?_append {word : List Char} (hne : word ≠ [])
    (h : ∀ c ∈ word, Text.isWordChar c = true) (behind : List Char) :
    quotedWord? ('\'' :: (word ++ '\'' :: behind)) = some (word, behind) := by
  have hquote : Text.isWordChar '\'' = false := by decide
  have htake : (word ++ '\'' :: behind).takeWhile Text.isWordChar = word := by
    rw [List.takeWhile_append_of_pos h, List.takeWhile_cons, hquote]
    simp
  have hdrop : (word ++ '\'' :: behind).dropWhile Text.isWordChar = '\'' :: behind := by
    rw [List.dropWhile_append_of_pos h, List.dropWhile_cons, hquote]
    rfl
  rw [quotedWord?, htake, hdrop, if_pos ⟨by decide, hne⟩]
  rfl

/-! ## Names -/

theorem exists_of_behindMark? {mark : Char} {s rest : List Char}
    (h : behindMark? mark s = some rest) :
    ∃ behind, Text.stripStart s = mark :: behind ∧ rest = Text.stripStart behind := by
  unfold behindMark? at h
  split at h
  · cases h
  · next c tail hs =>
      split at h
      · next hc => exact ⟨tail, by rw [hs, hc], (Option.some.inj h).symm⟩
      · cases h

theorem behindMark?_cons {mark : Char} (hmark : Text.isBlank mark = false) (s : List Char) :
    behindMark? mark (mark :: s) = some (Text.stripStart s) := by
  rw [behindMark?, Text.stripStart_cons_of_not_blank hmark]
  exact if_pos rfl

theorem dropExact?_bind_behindMark?_append {mark : Char} (hmark : Text.isBlank mark = false)
    (word s : List Char) :
    (Text.dropExact? word (word ++ mark :: s)).bind (behindMark? mark) =
      some (Text.stripStart s) := by
  rw [Text.dropExact?_eq_some_iff.2 rfl]
  exact behindMark?_cons hmark s

theorem key?_append {name : String} (s : List Char) :
    key? name (name.toList ++ ':' :: s) = some (Text.stripStart s) :=
  dropExact?_bind_behindMark?_append (by decide) name.toList s

theorem call?_append {name : String} (s : List Char) :
    call? name (name.toList ++ '(' :: s) = some (Text.stripStart s) :=
  dropExact?_bind_behindMark?_append (by decide) name.toList s

/-- The text behind a name and its mark, with all that stands before it. -/
theorem exists_of_dropExact?_bind_behindMark? {word s rest : List Char} {mark : Char}
    (h : (Text.dropExact? word s).bind (behindMark? mark) = some rest) :
    ∃ t b b', s = word ++ t ∧ (Text.stripStart t).head? = some mark ∧
      (∀ c ∈ b, Text.isBlank c = true) ∧ (∀ c ∈ b', Text.isBlank c = true) ∧
      s = word ++ b ++ mark :: b' ++ rest := by
  obtain ⟨t, ht, hmark⟩ := Option.bind_eq_some_iff.1 h
  obtain ⟨behind, hbehind, rfl⟩ := exists_of_behindMark? hmark
  obtain ⟨b, hb, hs⟩ := Text.exists_blank_append_stripStart t
  obtain ⟨b', hb', hs'⟩ := Text.exists_blank_append_stripStart behind
  obtain rfl := Text.dropExact?_eq_some_iff.1 ht
  refine ⟨t, b, b', rfl, by rw [hbehind]; rfl, hb, hb', ?_⟩
  rw [hs, hbehind]
  simp only [List.append_assoc, List.cons_append]
  rw [← hs']

theorem suffix_of_behindMark? {mark : Char} {s rest : List Char}
    (h : behindMark? mark s = some rest) : rest <:+ s := by
  obtain ⟨behind, hbehind, rfl⟩ := exists_of_behindMark? h
  have hs := Text.stripStart_suffix s
  rw [hbehind] at hs
  exact (Text.stripStart_suffix behind).trans ((List.suffix_cons mark behind).trans hs)

theorem suffix_of_dropExact?_bind_behindMark? {word s rest : List Char} {mark : Char}
    (h : (Text.dropExact? word s).bind (behindMark? mark) = some rest) : rest <:+ s := by
  obtain ⟨t, b, b', -, -, -, -, rfl⟩ := exists_of_dropExact?_bind_behindMark? h
  exact List.suffix_append _ rest

/-! ## Reaching for markup -/

variable {α : Type}

/-- A pattern that takes no text without its first markup, which is a quote only in front of a
value. -/
def ReachesMarkup (pattern : List Char → Option α) : Prop :=
  ∀ s, pattern s ≠ none → ∃ front c rest, s = front ++ c :: rest ∧
    (∀ d ∈ front, isMarkup d = false) ∧ isMarkup c = true ∧
    (isQuote c = true → (Text.stripEnd front).getLast? = some ':')

/-- The shape of a value that is a quote, a brace, or a word in front of a parenthesis. -/
def ShowsMarkup (shape : List Char → Option α) : Prop :=
  ∀ s, shape s ≠ none → ∃ front c rest, s = front ++ c :: rest ∧
    (∀ d ∈ front, isMarkup d = false) ∧ isMarkup c = true ∧ (isQuote c = true → front = [])

theorem needsWord_behindMark (word : List Char) (mark : Char) :
    Text.NeedsWord word mark fun s => (Text.dropExact? word s).bind (behindMark? mark) := by
  intro s hs
  obtain ⟨rest, hrest⟩ := Option.ne_none_iff_exists'.1 hs
  obtain ⟨t, b, b', ht, hmark, -⟩ := exists_of_dropExact?_bind_behindMark? hrest
  exact ⟨t, ht, hmark⟩

theorem needsWord_key (name : String) (shape : List Char → Option α) :
    Text.NeedsWord name.toList ':' fun s => (key? name s).bind shape :=
  (needsWord_behindMark name.toList ':').bind shape

theorem needsWord_call (name : String) : Text.NeedsWord name.toList '(' (call? name) :=
  needsWord_behindMark name.toList '('

theorem reachesMarkup_call {name : String} (hname : ∀ c ∈ name.toList, isMarkup c = false) :
    ReachesMarkup (call? name) := by
  intro s hs
  obtain ⟨rest, hcall⟩ := Option.ne_none_iff_exists'.1 hs
  obtain ⟨t, b, b', -, -, hb, -, hs⟩ := exists_of_dropExact?_bind_behindMark? hcall
  refine ⟨name.toList ++ b, '(', b' ++ rest, by rw [hs]; simp, ?_, by decide, ?_⟩
  · intro d hd
    rcases List.mem_append.1 hd with hd | hd
    · exact hname d hd
    · exact isMarkup_of_isBlank (hb d hd)
  · intro hquote
    exact absurd hquote (by decide)

/-- A text without an opening parenthesis has no call, up to a comma. -/
theorem misses_call_of_no_paren {name : String} (hname : ',' ∉ name.toList) {text : List Char}
    (htext : '(' ∉ text) : Text.Misses (call? name) (text ++ [',']) := by
  apply Text.misses_of_reaches
  intro s hs
  obtain ⟨rest, hcall⟩ := Option.ne_none_iff_exists'.1 hs
  obtain ⟨t, b, b', -, -, hb, -, htail⟩ := exists_of_dropExact?_bind_behindMark? hcall
  refine ⟨name.toList ++ b, '(', b' ++ rest, by rw [htail]; simp, ?_, htext, ?_⟩
  · intro hcomma
    rcases List.mem_append.1 hcomma with hcomma | hcomma
    · exact hname hcomma
    · exact absurd (hb ',' hcomma) (by decide)
  · intro hparen
    exact absurd hparen (by decide)

/-- Before the value of a member stands no markup, and a colon is the last of it but for blanks. -/
theorem exists_of_key?_bind {name : String} (hname : ∀ c ∈ name.toList, isMarkup c = false)
    {shape : List Char → Option α} {s : List Char} (hs : (key? name s).bind shape ≠ none) :
    ∃ front rest, s = front ++ rest ∧ shape rest ≠ none ∧ (∀ d ∈ front, isMarkup d = false) ∧
      (Text.stripEnd front).getLast? = some ':' := by
  cases hkey : key? name s with
  | none => simp [hkey] at hs
  | some rest =>
      rw [hkey, Option.bind_some] at hs
      obtain ⟨t, b, b', -, -, hb, hb', htext⟩ := exists_of_dropExact?_bind_behindMark? hkey
      refine ⟨name.toList ++ b ++ ':' :: b', rest, htext, hs, ?_, ?_⟩
      · intro d hd
        simp only [List.mem_append, List.mem_cons] at hd
        rcases hd with (hd | hd) | rfl | hd
        · exact hname d hd
        · exact isMarkup_of_isBlank (hb d hd)
        · decide
        · exact isMarkup_of_isBlank (hb' d hd)
      · have hcolon : Text.stripEnd [':'] = [':'] := by decide
        rw [← List.singleton_append, ← List.append_assoc, Text.stripEnd_append_of_blank hb',
          Text.stripEnd_append_of_ne_nil (by simp [hcolon]), hcolon, List.getLast?_concat]

theorem reachesMarkup_key (name : String) (hname : ∀ c ∈ name.toList, isMarkup c = false)
    {shape : List Char → Option α} (hshape : ShowsMarkup shape) :
    ReachesMarkup fun s => (key? name s).bind shape := by
  intro s hs
  obtain ⟨key, rest, rfl, hrest, hkey, hcolon⟩ := exists_of_key?_bind hname hs
  obtain ⟨front, c, behind, rfl, hfront, hc, hempty⟩ := hshape rest hrest
  refine ⟨key ++ front, c, behind, by rw [List.append_assoc], ?_, hc, ?_⟩
  · intro d hd
    rcases List.mem_append.1 hd with hd | hd
    · exact hkey d hd
    · exact hfront d hd
  · intro hquote
    rw [hempty hquote, List.append_nil]
    exact hcolon

/-- A pattern that reaches for markup passes over a plain text in quotes. -/
theorem ReachesMarkup.misses_quoteChars {pattern : List Char → Option α}
    (h : ReachesMarkup pattern) {text : String} (htext : IsPlainOrEmpty text) :
    Text.Misses pattern (quoteChars text.toList) := by
  have hopen : Text.Misses pattern ([] ++ ['\'']) := by
    apply Text.misses_of_reaches
    intro s hs
    obtain ⟨front, c, rest, heq, hfront, hc, hcolon⟩ := h s hs
    refine ⟨front, c, rest, heq, fun hmem => absurd (hfront _ hmem) (by decide), by simp, ?_⟩
    rintro rfl hsuffix
    rw [List.suffix_nil.1 hsuffix] at hcolon
    exact absurd (hcolon rfl) (by decide)
  have hinside : Text.Misses pattern (text.toList ++ ['\'']) := by
    apply Text.misses_of_reaches
    intro s hs
    obtain ⟨front, c, rest, heq, hfront, hc, hcolon⟩ := h s hs
    refine ⟨front, c, rest, heq, fun hmem => absurd (hfront _ hmem) (by decide), ?_, ?_⟩
    · intro hmem
      rw [htext.not_markup c hmem] at hc
      cases hc
    · rintro rfl ⟨t, ht⟩
      -- the text would end like a name in front of its value
      have hlast := hcolon rfl
      have hne : Text.stripEnd front ≠ [] := by
        intro hnil
        rw [hnil] at hlast
        cases hlast
      apply htext.last_ne_colon
      rw [← ht, Text.stripEnd_append_of_ne_nil hne, List.getLast?_append, hlast]
      rfl
  rw [quoteChars_eq htext.not_markup]
  exact hopen.append hinside

def MissesQuoted (pattern : List Char → Option α) (texts : List String) : Prop :=
  ∀ text ∈ texts, Text.Misses pattern (quoteChars text.toList)

theorem ReachesMarkup.missesQuoted {pattern : List Char → Option α} (h : ReachesMarkup pattern)
    {texts : List String} (htexts : ∀ text ∈ texts, IsPlainOrEmpty text) :
    MissesQuoted pattern texts :=
  fun text hmem => h.misses_quoteChars (htexts text hmem)

/-! ## Texts without a word -/

theorem prefix_of_prefix_escaped {word s : List Char} (hword : ∀ c ∈ word, isMarkup c = false)
    (h : word <+: s.flatMap escaped) : word <+: s := by
  induction s generalizing word with
  | nil => exact h
  | cons c s ih =>
      rw [List.flatMap_cons, escaped] at h
      split at h
      · rcases List.prefix_cons_iff.1 h with rfl | ⟨rest, rfl, -⟩
        · exact List.nil_prefix
        · -- a backslash would start the word
          exact absurd (hword '\\' (by simp)) (by decide)
      · rcases List.prefix_cons_iff.1 h with rfl | ⟨rest, rfl, hrest⟩
        · exact List.nil_prefix
        · have hstarts := ih (fun d hd => hword d (List.mem_cons_of_mem c hd)) hrest
          exact List.prefix_cons_iff.2 (Or.inr ⟨rest, rfl, hstarts⟩)

/-- Escaping makes no word without markup. -/
theorem infix_of_infix_escaped {word s : List Char} (hword : ∀ c ∈ word, isMarkup c = false)
    (h : word <:+: s.flatMap escaped) : word <:+: s := by
  induction s with
  | nil => exact h
  | cons c s ih =>
      have hmarked : ∀ {d rest}, isMarkup d = true → word <+: d :: rest → word <:+: c :: s := by
        intro d rest hd hstarts
        rcases List.prefix_cons_iff.1 hstarts with rfl | ⟨more, rfl, -⟩
        · exact List.nil_infix
        · rw [hword d (by simp)] at hd
          cases hd
      rw [List.flatMap_cons, escaped] at h
      split at h
      · next hc =>
          have hmarkup : isMarkup c = true := by rcases hc with rfl | rfl <;> decide
          rw [List.cons_append, List.singleton_append, List.infix_cons_iff,
            List.infix_cons_iff] at h
          rcases h with hstarts | hstarts | hinside
          · exact hmarked (by decide) hstarts
          · exact hmarked hmarkup hstarts
          · exact List.infix_cons (ih hinside)
      · next hc =>
          rw [List.singleton_append, List.infix_cons_iff] at h
          rcases h with hstarts | hinside
          · apply List.IsPrefix.isInfix
            apply prefix_of_prefix_escaped hword
            rwa [List.flatMap_cons, escaped, if_neg hc]
          · exact List.infix_cons (ih hinside)

/-- A pattern that needs a word passes over a text in quotes that does not have it. -/
theorem misses_quoteChars_of_not_infix {pattern : List Char → Option α}
    {word s : List Char} {mark : Char} (hneeds : Text.NeedsWord word mark pattern)
    (hword : ∀ c ∈ word, isMarkup c = false) (h : ¬word <:+: s) :
    Text.Misses pattern (quoteChars s) := by
  have hquote : '\'' ∉ word := fun hmem => absurd (hword '\'' hmem) (by decide)
  apply hneeds.misses_concat hquote
  intro hmem
  rcases List.infix_cons_iff.1 hmem with hstarts | hinside
  · rcases List.prefix_cons_iff.1 hstarts with rfl | ⟨rest, rfl, -⟩
    · exact h List.nil_infix
    · exact hquote (by simp)
  · exact h (infix_of_infix_escaped hword hinside)

/-! ## Shapes -/

theorem showsMarkup_of_enclosed {opens closes : Char → Bool}
    (h : ∀ c, opens c = true → isMarkup c = true) : ShowsMarkup (enclosed? opens closes) := by
  intro s hs
  obtain ⟨c, rest, rfl, hc⟩ := exists_of_enclosed? hs
  exact ⟨[], c, rest, rfl, by simp, h c hc, fun _ => rfl⟩

theorem showsMarkup_quoted : ShowsMarkup quoted? :=
  showsMarkup_of_enclosed fun _ => isMarkup_of_isQuote

theorem showsMarkup_braced : ShowsMarkup braced? := by
  apply showsMarkup_of_enclosed
  intro c hc
  obtain rfl := of_decide_eq_true hc
  decide

theorem showsMarkup_quotedWord : ShowsMarkup quotedWord? := by
  intro s hs
  unfold quotedWord? at hs
  split at hs
  · exact absurd rfl hs
  · next c rest =>
      split at hs
      · next hc => exact ⟨[], c, rest, rfl, by simp, isMarkup_of_isQuote hc.1, fun _ => rfl⟩
      · exact absurd rfl hs

end RequestForms.Snippet
