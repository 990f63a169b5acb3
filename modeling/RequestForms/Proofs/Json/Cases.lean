import RequestForms.Proofs.Json.Literal

/-!
# What a reader has taken

Each reader is taken apart once here: from the value that it has taken and the text that it has left
to the parts of the text in front. For lists this is an induction over their elements or members.
-/

namespace RequestForms.Json

variable {element reader : Reader Json} {text rest : List Char} {found : Json}

/-! ## Scalars and names -/

/-- A scalar is a string, a word or, where no word starts, a number. -/
theorem takes_scalar_cases (h : Takes scalar text found rest) :
    (∃ tail inside, text = '"' :: tail ∧ Takes (stringTail ('"' :: tail)) tail inside rest ∧
        found = .string (String.ofList inside)) ∨
      text.head? ≠ some '"' ∧
        (literal? text literals = some (found, rest) ∨
          literal? text literals = none ∧
            ∃ n, numeral? text = some (n, rest) ∧ n.value = .ok found) := by
  obtain ⟨hshorter, h⟩ := h
  unfold scalar at h
  split at h
  · split at h
    · cases h
    · next htail =>
        obtain ⟨rfl, rfl⟩ := Taken.mk.inj (Except.ok.inj h)
        exact Or.inl ⟨_, _, rfl, ⟨_, htail⟩, rfl⟩
  · next hother =>
      have hquote : text.head? ≠ some '"' := by
        intro hhead
        obtain ⟨tail, rfl⟩ := List.head?_eq_some_iff.1 hhead
        exact hother tail rfl
      refine Or.inr ⟨hquote, ?_⟩
      split at h
      · next hliteral =>
          obtain ⟨rfl, rfl⟩ := Taken.mk.inj (Except.ok.inj h)
          exact Or.inl hliteral
      · next hliteral =>
          split at h
          · cases h
          · next hnumeral =>
              split at h
              · cases h
              · next hvalue =>
                  obtain ⟨rfl, rfl⟩ := Taken.mk.inj (Except.ok.inj h)
                  exact Or.inr ⟨hliteral, _, hnumeral, hvalue⟩

/-- The name of a member is a string, and its colon may stand behind blanks. -/
theorem takes_memberName_cases {name : String} (h : Takes memberName text name rest) :
    ∃ tail inside behind, text = '"' :: tail ∧
      Takes (stringTail ('"' :: tail)) tail inside behind ∧ skipSpace behind = ':' :: rest ∧
        name = String.ofList inside := by
  obtain ⟨hshorter, h⟩ := h
  unfold memberName at h
  split at h
  · split at h
    · cases h
    · next htail =>
        split at h
        · next hcolon =>
            obtain ⟨rfl, rfl⟩ := Taken.mk.inj (Except.ok.inj h)
            exact ⟨_, _, _, rfl, ⟨_, htail⟩, hcolon, rfl⟩
        · cases h
  · cases h

/-! ## Elements and members -/

/-- What holds of the last element with the bracket behind it, and of each element with what holds
of those behind its comma, holds of all that are read. -/
theorem takes_elements_induction {P : List Char → List Json → Prop}
    (last : ∀ text found behind, Takes element text found behind →
      skipSpace behind = ']' :: rest → P text [found])
    (cons : ∀ text found behind left values, Takes element text found behind →
      skipSpace behind = ',' :: left → Takes (elements element) (skipSpace left) values rest →
        P (skipSpace left) values → P text (found :: values))
    {values : List Json} (h : Takes (elements element) text values rest) : P text values := by
  obtain ⟨hshorter, h⟩ := h
  fun_induction elements element text generalizing values with
  | case1 => cases h
  | case2 text found behind _ hfound left hclose =>
      obtain ⟨rfl, rfl⟩ := Taken.mk.inj (Except.ok.inj h)
      exact last text found behind ⟨_, hfound⟩ hclose
  | case3 => cases h
  | case4 text found behind _ hfound left hcomma _ _ values' rest' hrest hvalues ih =>
      obtain ⟨rfl, rfl⟩ := Taken.mk.inj (Except.ok.inj h)
      exact cons text found behind left values' ⟨_, hfound⟩ hcomma ⟨_, hvalues⟩ (ih hrest hvalues)
  | case5 => cases h

/-- What holds of the last member with the brace behind it, and of each member with what holds of
those behind its comma, holds of all that are read. -/
theorem takes_members_induction {P : List Char → List (String × Json) → Prop}
    (last : ∀ text name tail found behind, Takes memberName text name tail →
      Takes reader (skipSpace tail) found behind → skipSpace behind = '\x7d' :: rest →
        P text [(name, found)])
    (cons : ∀ text name tail found behind left entries, Takes memberName text name tail →
      Takes reader (skipSpace tail) found behind → skipSpace behind = ',' :: left →
        Takes (members reader) (skipSpace left) entries rest → P (skipSpace left) entries →
          P text ((name, found) :: entries))
    {entries : List (String × Json)} (h : Takes (members reader) text entries rest) :
    P text entries := by
  obtain ⟨hshorter, h⟩ := h
  fun_induction members reader text generalizing entries with
  | case1 => cases h
  | case2 => cases h
  | case3 text name tail _ hname _ found behind _ hfound left hclose =>
      obtain ⟨rfl, rfl⟩ := Taken.mk.inj (Except.ok.inj h)
      exact last text name tail found behind ⟨_, hname⟩ ⟨_, hfound⟩ hclose
  | case4 => cases h
  | case5 text name tail _ hname _ found behind _ hfound left hcomma _ _ entries' rest' hrest
      hentries ih =>
      obtain ⟨rfl, rfl⟩ := Taken.mk.inj (Except.ok.inj h)
      exact cons text name tail found behind left entries' ⟨_, hname⟩ ⟨_, hfound⟩ hcomma
        ⟨_, hentries⟩ (ih hrest hentries)
  | case6 => cases h

/-! ## Arrays, objects and values -/

theorem takes_arrayTail_cases (h : Takes (arrayTail element) text found rest) :
    (skipSpace text = ']' :: rest ∧ found = .array []) ∨
      ∃ values, Takes (elements element) (skipSpace text) values rest ∧ found = .array values := by
  obtain ⟨hshorter, h⟩ := h
  unfold arrayTail at h
  split at h
  · next hclose =>
      obtain ⟨rfl, rfl⟩ := Taken.mk.inj (Except.ok.inj h)
      exact Or.inl ⟨hclose, rfl⟩
  · split at h
    · cases h
    · next hvalues =>
        obtain ⟨rfl, rfl⟩ := Taken.mk.inj (Except.ok.inj h)
        exact Or.inr ⟨_, ⟨_, hvalues⟩, rfl⟩

theorem takes_objectTail_cases (h : Takes (objectTail reader) text found rest) :
    (skipSpace text = '\x7d' :: rest ∧ found = .object []) ∨
      ∃ entries, Takes (members reader) (skipSpace text) entries rest ∧
        found = .object (Assoc.ofPairs entries) := by
  obtain ⟨hshorter, h⟩ := h
  unfold objectTail at h
  split at h
  · next hclose =>
      obtain ⟨rfl, rfl⟩ := Taken.mk.inj (Except.ok.inj h)
      exact Or.inl ⟨hclose, rfl⟩
  · split at h
    · cases h
    · next hentries =>
        obtain ⟨rfl, rfl⟩ := Taken.mk.inj (Except.ok.inj h)
        exact Or.inr ⟨_, ⟨_, hentries⟩, rfl⟩

/-- A value is an array, an object or a scalar, as its first character says. -/
theorem takes_value_cases {depth : Nat} (h : Takes (value depth) text found rest) :
    (text.head? ≠ some '[' ∧ text.head? ≠ some '\x7b' ∧ Takes scalar text found rest) ∨
      ∃ inner tail, depth = inner + 1 ∧
        (text = '[' :: tail ∧ Takes (arrayTail (value inner)) tail found rest ∨
          text = '\x7b' :: tail ∧ Takes (objectTail (value inner)) tail found rest) := by
  by_cases harray : text.head? = some '['
  · obtain ⟨tail, rfl⟩ := List.head?_eq_some_iff.1 harray
    obtain ⟨_, h⟩ := h
    cases depth with
    | zero => cases h
    | succ inner =>
        simp only [value] at h
        split at h
        · cases h
        · next htail =>
            obtain ⟨rfl, rfl⟩ := Taken.mk.inj (Except.ok.inj h)
            exact Or.inr ⟨inner, tail, rfl, Or.inl ⟨rfl, _, htail⟩⟩
  by_cases hobject : text.head? = some '\x7b'
  · obtain ⟨tail, rfl⟩ := List.head?_eq_some_iff.1 hobject
    obtain ⟨_, h⟩ := h
    cases depth with
    | zero => cases h
    | succ inner =>
        simp only [value] at h
        split at h
        · cases h
        · next htail =>
            obtain ⟨rfl, rfl⟩ := Taken.mk.inj (Except.ok.inj h)
            exact Or.inr ⟨inner, tail, rfl, Or.inr ⟨rfl, _, htail⟩⟩
  · rw [Takes, value_eq_scalar harray hobject] at h
    exact Or.inl ⟨harray, hobject, h⟩

/-- No scalar is an object. -/
theorem not_takes_scalar_object {entries : List (String × Json)} :
    ¬Takes scalar text (.object entries) rest := by
  have hliterals : ∀ word ∈ literals, word.2 ≠ .object entries := by simp [literals]
  intro h
  rcases takes_scalar_cases h with ⟨_, _, -, -, hfound⟩ | ⟨-, hliteral | ⟨-, n, -, hvalue⟩⟩
  · cases hfound
  · obtain ⟨word, hmem, -, hvalue⟩ := exists_mem_of_literal? hliteral
    exact hliterals word hmem hvalue
  · unfold Numeral.value at hvalue
    split at hvalue
    · split at hvalue <;> cases hvalue
    · cases hvalue

/-- An object starts with its opening brace. -/
theorem exists_cons_of_takes_object {depth : Nat} {entries : List (String × Json)}
    (h : Takes (value depth) text (.object entries) rest) : ∃ tail, text = '\x7b' :: tail := by
  rcases takes_value_cases h with ⟨-, -, hscalar⟩ |
    ⟨inner, tail, -, ⟨-, harray⟩ | ⟨rfl, -⟩⟩
  · exact absurd hscalar not_takes_scalar_object
  · rcases takes_arrayTail_cases harray with ⟨-, hfound⟩ | ⟨values, -, hfound⟩ <;> cases hfound
  · exact ⟨tail, rfl⟩

/-- What starts with an opening brace is an object. -/
theorem exists_object_of_takes_cons {depth : Nat} {tail : List Char}
    (h : Takes (value depth) ('\x7b' :: tail) found rest) : ∃ entries, found = .object entries := by
  rcases takes_value_cases h with ⟨-, hhead, -⟩ | ⟨inner, tail', -, ⟨htext, -⟩ | ⟨-, hobject⟩⟩
  · exact absurd rfl hhead
  · cases htext
  · rcases takes_objectTail_cases hobject with ⟨-, hfound⟩ | ⟨entries, -, hfound⟩
    · exact ⟨[], hfound⟩
    · exact ⟨_, hfound⟩

end RequestForms.Json
