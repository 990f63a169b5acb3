import RequestForms.Proofs.Snippet.StringLiterals

/-!
# Line breaks in string literals

A string literal has to end on its line. The literals of a call spell its texts with a backslash in
front of some characters, and this takes no line break away: all literals of a call end on their
lines exactly if no text in it has a line break.
-/

namespace RequestForms.Snippet

/-! ## Literals as they are written -/

/-- What stands between the quotes of the string literals behind a place, backslashes included,
unless the last one is left open. -/
def sourcesFrom : Place → List Char → Option (List String)
  | .code, [] => some []
  | .literal _, [] => none
  | .escape _, [] => none
  | .code, c :: rest =>
      if c = '\'' then sourcesFrom (.literal []) rest else sourcesFrom .code rest
  | .literal source, c :: rest =>
      if c = '\\' then sourcesFrom (.escape (source ++ [c])) rest
      else if c = '\'' then (sourcesFrom .code rest).map (String.ofList source :: ·)
      else sourcesFrom (.literal (source ++ [c])) rest
  | .escape source, c :: rest => sourcesFrom (.literal (source ++ [c])) rest

/-- The string literals in code as they are written, without their quotes. -/
def sources (code : String) : Option (List String) := sourcesFrom .code code.toList

/-- A text as it can be written in a literal: some characters stand behind a backslash, and a
backslash never stands for itself. -/
inductive Spells : List Char → List Char → Prop
  | nil : Spells [] []
  | plain {source text : List Char} {c : Char} (h : Spells source text) (hc : c ≠ '\\') :
      Spells (source ++ [c]) (text ++ [c])
  | escape {source text : List Char} (h : Spells source text) (c : Char) :
      Spells (source ++ ['\\'] ++ [c]) (text ++ [c])

/-- Spelling adds nothing but backslashes, and takes nothing away. -/
theorem Spells.mem_iff {source text : List Char} (h : Spells source text) {c : Char}
    (hc : c ≠ '\\') : c ∈ source ↔ c ∈ text := by
  induction h with
  | nil => rfl
  | plain _ _ ih => rw [List.mem_append, List.mem_append, ih]
  | escape _ _ ih =>
      rw [List.mem_append, List.mem_append, List.mem_append, ih, List.mem_singleton, or_iff_left hc]

inductive SamePlace : Place → Place → Prop
  | code : SamePlace .code .code
  | literal {source text : List Char} (h : Spells source text) :
      SamePlace (.literal source) (.literal text)
  | escape {source text : List Char} (h : Spells source text) :
      SamePlace (.escape (source ++ ['\\'])) (.escape text)

def SpellAll (written texts : List String) : Prop :=
  List.Forall₂ (fun source text => Spells source.toList text.toList) written texts

/-- The two scans go through the same places, and so find the same literals. -/
theorem exists_sourcesFrom {place other : Place} (hplace : SamePlace place other)
    {code : List Char} {texts : List String} (h : literalsFrom other code = some texts) :
    ∃ written, sourcesFrom place code = some written ∧ SpellAll written texts := by
  induction code generalizing place other texts with
  | nil =>
      cases hplace with
      | code =>
          obtain rfl : [] = texts := Option.some.inj h
          exact ⟨[], rfl, .nil⟩
      | literal _ => cases h
      | escape _ => cases h
  | cons c rest ih =>
      cases hplace with
      | code =>
          rw [literalsFrom] at h
          rw [sourcesFrom]
          split at h
          · next hquote => rw [if_pos hquote]; exact ih (.literal .nil) h
          · next hquote => rw [if_neg hquote]; exact ih .code h
      | @literal source text hspells =>
          rw [literalsFrom] at h
          rw [sourcesFrom]
          split at h
          · next hescape =>
              rw [if_pos hescape, hescape]
              exact ih (.escape hspells) h
          · next hescape =>
              rw [if_neg hescape]
              split at h
              · next hquote =>
                  obtain ⟨more, hmore, rfl⟩ := Option.map_eq_some_iff.1 h
                  obtain ⟨written, hwritten, hall⟩ := ih .code hmore
                  rw [if_pos hquote, hwritten]
                  exact ⟨_, rfl, .cons (by simpa using hspells) hall⟩
              · next hquote =>
                  rw [if_neg hquote]
                  exact ih (.literal (hspells.plain hescape)) h
      | @escape source text hspells =>
          rw [literalsFrom] at h
          rw [sourcesFrom]
          exact ih (.literal (hspells.escape c)) h

/-! ## Literals that end on their lines -/

def IsOneLine (text : String) : Prop := '\n' ∉ text.toList ∧ '\r' ∉ text.toList

instance (text : String) : Decidable (IsOneLine text) := inferInstanceAs (Decidable (_ ∧ _))

theorem Spells.isOneLine_iff {source text : String} (h : Spells source.toList text.toList) :
    IsOneLine source ↔ IsOneLine text := by
  rw [IsOneLine, IsOneLine, h.mem_iff (by decide), h.mem_iff (by decide)]

theorem SpellAll.isOneLine_iff {written texts : List String} (h : SpellAll written texts) :
    (∀ source ∈ written, IsOneLine source) ↔ ∀ text ∈ texts, IsOneLine text := by
  induction h with
  | nil => simp
  | cons hspells _ ih =>
      rw [List.forall_mem_cons, List.forall_mem_cons, hspells.isOneLine_iff, ih]

/-- All string literals of code end, each on the line it begins on. -/
def LiteralsEndOnLines (code : String) : Prop :=
  ∃ written, sources code = some written ∧ ∀ source ∈ written, IsOneLine source

theorem literalsEndOnLines_iff {code : String} {texts : List String}
    (h : literals code = some texts) :
    LiteralsEndOnLines code ↔ ∀ text ∈ texts, IsOneLine text := by
  obtain ⟨written, hwritten, hspelled⟩ := exists_sourcesFrom .code h
  have hsources : sources code = some written := hwritten
  constructor
  · rintro ⟨others, hothers, hlines⟩
    obtain rfl : written = others := Option.some.inj (hsources.symm.trans hothers)
    exact hspelled.isOneLine_iff.1 hlines
  · intro hlines
    exact ⟨written, hsources, hspelled.isOneLine_iff.2 hlines⟩

/-! ## Whole calls -/

/-- Where the body is no JSON, the string literals of a call end on their lines exactly if all texts
in the call are lines: quotes and backslashes are taken care of, line breaks are not. -/
theorem literalsEndOnLines_render_iff {request : Request}
    (hbody : ∀ body ∈ request.content, jsonLiteral? body = none) :
    (LiteralsEndOnLines (Fetch.render request) ↔
      ∀ text ∈ Fetch.literalTexts request, IsOneLine text) ∧
    (LiteralsEndOnLines (Axios.render request) ↔
      ∀ text ∈ Axios.literalTexts request, IsOneLine text) :=
  ⟨literalsEndOnLines_iff (Fetch.linesHold_lines hbody).holds_intercalate.literals_eq,
    literalsEndOnLines_iff (Axios.linesHold_lines hbody).holds_intercalate.literals_eq⟩

/-- Texts on one line, whatever quotes and backslashes they hold. -/
theorem literalsEndOnLines_render_of_quotes :
    let request : Request := {
      method := .ofString "p'"
      url := "/\\'');"
      headers := .ofPairs [("Authorization", "a"), ("\\", "''\\n'")]
      body := some "',\\"
      credentials := some ⟨"it's", "\\'"⟩ }
    jsonLiteral? "',\\" = none ∧ LiteralsEndOnLines (Fetch.render request) ∧
      LiteralsEndOnLines (Axios.render request) := by
  intro request
  have hnone : jsonLiteral? "',\\" = none := by decide +kernel
  have hbody : ∀ body ∈ request.content, jsonLiteral? body = none := by decide +kernel
  obtain ⟨hfetch, haxios⟩ := literalsEndOnLines_render_iff hbody
  refine ⟨hnone, hfetch.2 ?_, haxios.2 ?_⟩
  · decide +kernel
  · decide +kernel

/-- A body of two lines, which is no JSON, stands on two lines in both calls. -/
theorem not_literalsEndOnLines_render_of_two_lines :
    let request : Request := { method := .ofString "POST", url := "/x", body := some "a\nb" }
    (∀ body ∈ request.content, jsonLiteral? body = none) ∧
      ¬ LiteralsEndOnLines (Fetch.render request) ∧
      ¬ LiteralsEndOnLines (Axios.render request) := by
  intro request
  have hbody : ∀ body ∈ request.content, jsonLiteral? body = none := by decide +kernel
  have hfetch : sources (Fetch.render request) = some ["/x", "POST", "a\nb"] := by decide +kernel
  have haxios : sources (Axios.render request) = some ["axios", "post", "/x", "a\nb"] := by
    decide +kernel
  have hbreak : ¬ IsOneLine "a\nb" := by decide
  refine ⟨hbody, ?_, ?_⟩
  · rintro ⟨written, hwritten, hlines⟩
    obtain rfl := Option.some.inj (hfetch.symm.trans hwritten)
    exact hbreak (hlines "a\nb" (by simp))
  · rintro ⟨written, hwritten, hlines⟩
    obtain rfl := Option.some.inj (haxios.symm.trans hwritten)
    exact hbreak (hlines "a\nb" (by simp))

end RequestForms.Snippet
