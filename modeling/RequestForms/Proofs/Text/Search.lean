import RequestForms.Proofs.Text.Blank
import RequestForms.Text.Search

/-!
# Where a pattern is not found

A search passes over a text if the pattern fits from none of its characters on, whatever stands
behind it. Such texts can be put together from shorter ones.
-/

namespace RequestForms.Text

variable {α : Type}

/-- A pattern that fits from no character of a text on. -/
def Misses (pattern : List Char → Option α) (text : List Char) : Prop :=
  ∀ s behind, s ≠ [] → s <:+ text → pattern (s ++ behind) = none

theorem occurs_iff_infix {word s : List Char} : occurs word s = true ↔ word <:+: s := by
  induction s with
  | nil => simp [occurs]
  | cons c s ih =>
      rw [occurs, Bool.or_eq_true, List.isPrefixOf_iff_prefix, ih, List.infix_cons_iff]

theorem search?_eq_of_eq_some {pattern : List Char → Option α} {s : List Char} {found : α}
    (h : pattern s = some found) : search? pattern s = some found := by
  cases s with
  | nil => exact h
  | cons c s => rw [search?, h]

theorem search?_eq_none_of_suffix {pattern : List Char → Option α} {text : List Char}
    (h : ∀ s, s <:+ text → pattern s = none) : search? pattern text = none := by
  induction text with
  | nil => exact h [] (List.suffix_refl [])
  | cons c text ih =>
      rw [search?, h _ (List.suffix_refl _)]
      exact ih fun s hs => h s (hs.trans (List.suffix_cons c text))

/-- What a search finds stands at the front of a rest of the text. -/
theorem exists_suffix_of_search? {pattern : List Char → Option α} {text : List Char} {found : α}
    (h : search? pattern text = some found) : ∃ s, s <:+ text ∧ pattern s = some found := by
  induction text with
  | nil => exact ⟨[], List.suffix_refl [], h⟩
  | cons c text ih =>
      rw [search?] at h
      split at h
      · next value hvalue =>
          obtain rfl := Option.some.inj h
          exact ⟨c :: text, List.suffix_refl _, hvalue⟩
      · obtain ⟨s, hs, hfound⟩ := ih h
        exact ⟨s, hs.trans (List.suffix_cons c text), hfound⟩

theorem search?_ne_none {pattern : List Char → Option α} {s text : List Char} (hs : s <:+ text)
    (h : pattern s ≠ none) : search? pattern text ≠ none := by
  induction text with
  | nil =>
      obtain rfl := List.suffix_nil.1 hs
      exact h
  | cons c text ih =>
      rw [search?]
      split
      · exact Option.some_ne_none _
      · next hnone =>
          rcases List.suffix_cons_iff.1 hs with rfl | hs
          · exact absurd hnone h
          · exact ih hs

namespace Misses

variable {pattern : List Char → Option α} {a b : List Char}

theorem nil : Misses pattern [] := by
  intro s behind hs hsuffix
  exact absurd (List.suffix_nil.1 hsuffix) hs

theorem of_cons {c : Char} (h : Misses pattern (c :: a)) : Misses pattern a :=
  fun s behind hs hsuffix => h s behind hs (hsuffix.trans (List.suffix_cons c a))

theorem cons {c : Char} (hc : ∀ behind, pattern (c :: (a ++ behind)) = none)
    (ha : Misses pattern a) : Misses pattern (c :: a) := by
  intro s behind hs hsuffix
  rcases List.suffix_cons_iff.1 hsuffix with rfl | hsuffix
  · exact hc behind
  · exact ha s behind hs hsuffix

theorem append (ha : Misses pattern a) (hb : Misses pattern b) : Misses pattern (a ++ b) := by
  intro s behind hs hsuffix
  rcases Nat.le_total s.length b.length with hle | hle
  · exact hb s behind hs (List.suffix_of_suffix_length_le hsuffix (List.suffix_append a b) hle)
  · obtain ⟨front, rfl⟩ :=
      List.suffix_of_suffix_length_le (List.suffix_append a b) hsuffix hle
    cases front with
    | nil =>
        rw [List.nil_append] at hs ⊢
        exact hb b behind hs (List.suffix_refl b)
    | cons c front =>
        obtain ⟨t, ht⟩ := hsuffix
        rw [← List.append_assoc] at ht
        have hfront : c :: front <:+ a := ⟨t, List.append_cancel_right ht⟩
        rw [List.append_assoc]
        exact ha (c :: front) (b ++ behind) (by simp) hfront

theorem flatMap {β : Type} {f : β → List Char} {xs : List β}
    (h : ∀ x ∈ xs, Misses pattern (f x)) : Misses pattern (xs.flatMap f) := by
  induction xs with
  | nil => exact nil
  | cons x xs ih =>
      rw [List.flatMap_cons]
      exact (h x (by simp)).append (ih fun y hy => h y (List.mem_cons_of_mem x hy))

theorem map {β : Type} (h : Misses pattern a) (f : α → β) :
    Misses (fun s => (pattern s).map f) a := by
  intro s behind hs hsuffix
  exact Option.map_eq_none_iff.2 (h s behind hs hsuffix)

/-- A search goes on behind a text that the pattern misses. -/
theorem search?_append (h : Misses pattern a) (b : List Char) :
    search? pattern (a ++ b) = search? pattern b := by
  induction a with
  | nil => rfl
  | cons c a ih =>
      have hnone := h (c :: a) b (by simp) (List.suffix_refl _)
      rw [List.cons_append] at hnone
      rw [List.cons_append, search?, hnone]
      exact ih h.of_cons

theorem search?_eq_none (h : Misses pattern a) (hnil : pattern [] = none) :
    search? pattern a = none := by
  rw [← List.append_nil a, h.search?_append]
  exact hnil

/-- The find stands behind a text that the pattern misses. -/
theorem search?_eq_some (h : Misses pattern a) {found : α} (hb : pattern b = some found) :
    search? pattern (a ++ b) = some found := by
  rw [h.search?_append]
  exact search?_eq_of_eq_some hb

/-- A word from which on the pattern always fits is nowhere in the text. -/
theorem occurs_eq_false (h : Misses pattern a) {word : List Char} (hne : word ≠ [])
    (hword : ∀ behind, pattern (word ++ behind) ≠ none) : occurs word a = false := by
  rw [← Bool.not_eq_true, occurs_iff_infix]
  rintro ⟨front, behind, rfl⟩
  have hsuffix : word ++ behind <:+ front ++ word ++ behind :=
    ⟨front, by rw [List.append_assoc]⟩
  have hnone := h (word ++ behind) [] (by simp [hne]) hsuffix
  rw [List.append_nil] at hnone
  exact hword behind hnone

end Misses

/-! ## Patterns that start with a word -/

/-- A pattern that needs a word with a mark behind it, maybe after blanks. -/
def NeedsWord (word : List Char) (mark : Char) (pattern : List Char → Option α) : Prop :=
  ∀ s, pattern s ≠ none → ∃ t, s = word ++ t ∧ (stripStart t).head? = some mark

theorem NeedsWord.bind {β : Type} {word : List Char} {mark : Char}
    {pattern : List Char → Option α} (h : NeedsWord word mark pattern) (f : α → Option β) :
    NeedsWord word mark fun s => (pattern s).bind f := by
  intro s hs
  apply h s
  intro hnone
  apply hs
  change (pattern s).bind f = none
  rw [hnone]
  rfl

/-- Whether a text with anything behind it does not start with the word and the mark. -/
def lacksWord (word : List Char) (mark : Char) (s : List Char) : Bool :=
  if word.isPrefixOf s then
    match stripStart (s.drop word.length) with
    | [] => false
    | c :: _ => c != mark
  else !s.isPrefixOf word

/-- Whether the word with the mark starts at no character of a text, whatever stands behind it. -/
def lacksWordEverywhere (word : List Char) (mark : Char) : List Char → Bool
  | [] => true
  | c :: s => lacksWord word mark (c :: s) && lacksWordEverywhere word mark s

theorem NeedsWord.eq_none_of_lacksWord {word : List Char} {mark : Char}
    {pattern : List Char → Option α} (hneeds : NeedsWord word mark pattern) {s : List Char}
    (h : lacksWord word mark s = true) (behind : List Char) : pattern (s ++ behind) = none := by
  cases hpattern : pattern (s ++ behind) with
  | none => rfl
  | some found =>
      exfalso
      obtain ⟨t, ht, hmark⟩ := hneeds (s ++ behind) (by simp [hpattern])
      have hword : word <+: s ++ behind := ⟨t, ht.symm⟩
      unfold lacksWord at h
      split at h
      · next hstarts =>
          obtain ⟨u, rfl⟩ := List.isPrefixOf_iff_prefix.1 hstarts
          rw [List.drop_left] at h
          rw [List.append_assoc] at ht
          obtain rfl := List.append_cancel_left ht
          split at h
          · cases h
          · next c u' hu =>
              rw [stripStart_append_of_ne_nil (by simp [hu]), hu] at hmark
              simp_all
      · next hstarts =>
          have hle : word.length ≤ s.length ∨ s.length ≤ word.length := Nat.le_total _ _
          rcases hle with hle | hle
          · have := List.prefix_of_prefix_length_le hword (List.prefix_append s behind) hle
            exact hstarts (List.isPrefixOf_iff_prefix.2 this)
          · have := List.prefix_of_prefix_length_le (List.prefix_append s behind) hword hle
            simp [List.isPrefixOf_iff_prefix.2 this] at h

theorem NeedsWord.misses {word : List Char} {mark : Char} {pattern : List Char → Option α}
    (hneeds : NeedsWord word mark pattern) {text : List Char}
    (h : lacksWordEverywhere word mark text = true) : Misses pattern text := by
  induction text with
  | nil => exact Misses.nil
  | cons c text ih =>
      rw [lacksWordEverywhere, Bool.and_eq_true] at h
      exact Misses.cons (hneeds.eq_none_of_lacksWord h.1) (ih h.2)

theorem NeedsWord.misses_of_mem {word : List Char} {mark : Char}
    {pattern : List Char → Option α} (hneeds : NeedsWord word mark pattern) {texts : List String}
    (h : ∀ text ∈ texts, lacksWordEverywhere word mark text.toList = true) :
    ∀ text ∈ texts, Misses pattern text.toList :=
  fun text hmem => hneeds.misses (h text hmem)

theorem prefix_of_prefix_append_cons {word s rest : List Char} {stop : Char} (hstop : stop ∉ word)
    (h : word <+: s ++ stop :: rest) : word <+: s := by
  obtain ⟨t, ht⟩ := h
  rcases List.append_eq_append_iff.1 ht with ⟨more, hs, -⟩ | ⟨more, hword, hmore⟩
  · exact ⟨more, hs.symm⟩
  · cases more with
    | nil =>
        rw [List.append_nil] at hword
        exact ⟨[], by rw [hword, List.append_nil]⟩
    | cons c more =>
        obtain rfl := (List.cons.inj hmore).1
        exact absurd (by rw [hword]; simp) hstop

/-- A text without the word is passed over, up to a character that the word does not have. -/
theorem NeedsWord.misses_concat {word : List Char} {mark stop : Char}
    {pattern : List Char → Option α} (hneeds : NeedsWord word mark pattern) (hstop : stop ∉ word)
    {text : List Char} (h : ¬word <:+: text) :
    Misses pattern (text ++ [stop]) := by
  intro s behind hs hsuffix
  cases hpattern : pattern (s ++ behind) with
  | none => rfl
  | some found =>
      exfalso
      obtain ⟨s', rfl, hinside⟩ := (List.suffix_concat_iff.1 hsuffix).resolve_left hs
      obtain ⟨t, ht, -⟩ := hneeds (s' ++ [stop] ++ behind) (by rw [hpattern]; simp)
      have hword : word <+: s' ++ stop :: behind := ⟨t, by rw [← ht]; simp⟩
      exact h ((prefix_of_prefix_append_cons hstop hword).isInfix.trans hinside.isInfix)

/-! ## Patterns that reach for a character -/

/-- A text is passed over, up to a character that stops the pattern, if the pattern reaches for a
character that the text does not have. -/
theorem misses_of_reaches {pattern : List Char → Option α} {text : List Char} {stop : Char}
    (h : ∀ s, pattern s ≠ none → ∃ front c rest, s = front ++ c :: rest ∧ stop ∉ front ∧
      c ∉ text ∧ (c = stop → ¬front <:+ text)) : Misses pattern (text ++ [stop]) := by
  intro s behind hs hsuffix
  cases hpattern : pattern (s ++ behind) with
  | none => rfl
  | some found =>
      exfalso
      obtain ⟨s', rfl, hinside⟩ := (List.suffix_concat_iff.1 hsuffix).resolve_left hs
      have hsome : pattern (s' ++ [stop] ++ behind) ≠ none := by
        rw [hpattern]
        exact Option.some_ne_none found
      obtain ⟨front, c, rest, hfront, hstop, hc, hend⟩ := h _ hsome
      rw [List.append_assoc, List.append_eq_append_iff] at hfront
      rcases hfront with ⟨more, rfl, hmore⟩ | ⟨more, rfl, hmore⟩
      · cases more with
        | nil =>
            rw [List.append_nil] at hend
            exact hend (List.cons.inj hmore).1.symm hinside
        | cons d more =>
            obtain rfl := (List.cons.inj hmore).1
            simp at hstop
      · cases more with
        | nil =>
            rw [List.append_nil] at hinside
            exact hend (List.cons.inj hmore).1 hinside
        | cons d more =>
            obtain rfl := (List.cons.inj hmore).1
            exact hc (hinside.subset (by simp))

end RequestForms.Text
