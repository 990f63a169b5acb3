import RequestForms.Proofs.Assoc
import RequestForms.Proofs.Snippet.Headers
import RequestForms.Proofs.Text.Lines

/-!
# Expressions among headers

A value that is not in quotes makes no pair. The search goes on inside of such an entry, where the
quote that closes the name may open a string up to the next name. No colon follows there, so the
pairs of the entries behind are found as if the entry was not there.
-/

namespace RequestForms.Snippet

/-! ## Entries -/

/-- An entry of a block of headers: a name in quotes, with a value in quotes or an expression. -/
inductive Entry where
  | quoted (name value : String)
  | bare (name expression : String)

/-- A text that ends neither a string nor a block. -/
@[mk_iff] structure IsInside (text : String) : Prop where
  ne_empty : text ≠ ""
  not_quote : ∀ c ∈ text.toList, isQuote c = false
  no_brace : '\x7d' ∉ text.toList

instance (text : String) : Decidable (IsInside text) := decidable_of_iff _ (isInside_iff text).symm

namespace Entry

def name : Entry → String
  | quoted name _ => name
  | bare name _ => name

def value : Entry → String
  | quoted _ value => value
  | bare _ expression => expression

def valueCode : Entry → String
  | quoted _ value => "'" ++ value ++ "'"
  | bare _ expression => expression

def code (entry : Entry) : String := "'" ++ entry.name ++ "': " ++ entry.valueCode

def header? : Entry → Option (String × String)
  | quoted name value => some (name, value)
  | bare _ _ => none

/-- Whether the value starts where it stands: an expression has no blanks in front. -/
def StartsValue : Entry → Prop
  | quoted _ _ => True
  | bare _ expression => ∀ c ∈ expression.toList.head?, Text.isBlank c = false

instance : (entry : Entry) → Decidable entry.StartsValue
  | quoted _ _ => inferInstanceAs (Decidable True)
  | bare _ expression => Option.decidableForallMem expression.toList.head?

/-- An entry whose texts hold no quotes and no closing brace. -/
@[mk_iff] structure IsWhole (entry : Entry) : Prop where
  name : IsInside entry.name
  value : IsInside entry.value
  value_head : entry.StartsValue

/-- Such an entry with a name that does not start with a colon. -/
@[mk_iff] structure IsLegible (entry : Entry) : Prop extends entry.IsWhole where
  name_head : (Text.stripStart entry.name.toList).head? ≠ some ':'

instance (entry : Entry) : Decidable entry.IsWhole :=
  decidable_of_iff _ (isWhole_iff entry).symm

instance (entry : Entry) : Decidable entry.IsLegible :=
  decidable_of_iff _ (isLegible_iff entry).symm

end Entry

/-! ## Pairs -/

theorem pairs_cons_of_pair?_eq_none {c : Char} {s : List Char} (h : pair? (c :: s) = none) :
    pairs (c :: s) = pairs s := by
  rw [pairs]
  split
  · next hsome => cases h.symm.trans hsome
  · rfl

theorem behindMark?_eq_none {mark : Char} {s : List Char}
    (h : (Text.stripStart s).head? ≠ some mark) : behindMark? mark s = none := by
  unfold behindMark?
  split
  · rfl
  · next c rest hs =>
      rw [hs] at h
      exact if_neg fun hc => h (congrArg some hc)

/-- Code in which no string that is open before it is the name of a pair. -/
def EndsNoName (rest : List Char) : Prop :=
  ∀ inside, (∀ c ∈ inside, isQuote c = false) → pair? ('\'' :: (inside ++ rest)) = none

theorem endsNoName_of_not_quote {rest : List Char} (h : ∀ c ∈ rest, isQuote c = false) :
    EndsNoName rest := by
  intro inside hinside
  have hkeep : ∀ c ∈ inside ++ rest, (!isQuote c) = true := by
    intro c hc
    rw [(List.mem_append.1 hc).elim (hinside c) (h c)]
    rfl
  have hquoted : quoted? ('\'' :: (inside ++ rest)) = none := by
    rw [quoted?, enclosed?, List.dropWhile_eq_nil_iff.2 hkeep]
    exact ite_self none
  simp only [pair?, hquoted]

theorem head?_stripStart_append_quote {s : List Char}
    (h : (Text.stripStart s).head? ≠ some ':') (rest : List Char) :
    (Text.stripStart (s ++ '\'' :: rest)).head? ≠ some ':' := by
  by_cases hnil : Text.stripStart s = []
  · have hblank : ∀ c ∈ s, Text.isBlank c = true := List.dropWhile_eq_nil_iff.1 hnil
    rw [Text.stripStart_append_of_blank hblank, Text.stripStart_cons_of_not_blank (by decide)]
    exact fun hquote => absurd (Option.some.inj hquote) (by decide)
  · rw [Text.stripStart_append_of_ne_nil hnil, List.head?_append_of_ne_nil _ hnil]
    exact h

/-- A string that ends where the name of the next entry starts has no colon behind it. -/
theorem endsNoName_append {gap name : List Char} (hgap : gap ≠ [])
    (hquote : ∀ c ∈ gap, isQuote c = false) (hname : (Text.stripStart name).head? ≠ some ':')
    (rest : List Char) : EndsNoName (gap ++ '\'' :: (name ++ '\'' :: rest)) := by
  intro inside hinside
  have hne : inside ++ gap ≠ [] := List.append_ne_nil_of_right_ne_nil inside hgap
  have hquoted : quoted? ('\'' :: (inside ++ (gap ++ '\'' :: (name ++ '\'' :: rest)))) =
      some (inside ++ gap, name ++ '\'' :: rest) := by
    rw [← List.append_assoc]
    refine enclosed?_append (by decide) (by decide) hne ?_ _
    exact fun c hc => (List.mem_append.1 hc).elim (hinside c) (hquote c)
  simp only [pair?, hquoted, behindMark?_eq_none (head?_stripStart_append_quote hname rest)]

theorem IsPlain.isInside {text : String} (h : IsPlain text) : IsInside text where
  ne_empty := h.ne_empty
  not_quote := fun c hc => isQuote_of_isMarkup_eq_false (h.not_markup c hc)
  no_brace := fun hmem => absurd (h.not_markup _ hmem) (by decide)

theorem IsInside.toList_ne_nil {text : String} (h : IsInside text) : text.toList ≠ [] := by
  simpa using h.ne_empty

theorem IsInside.quoted?_append {text : String} (h : IsInside text) (rest : List Char) :
    quoted? ('\'' :: (text.toList ++ '\'' :: rest)) = some (text.toList, rest) :=
  enclosed?_append (by decide) (by decide) h.toList_ne_nil h.not_quote rest

namespace Entry

theorem toList_code (entry : Entry) (rest : List Char) :
    entry.code.toList ++ rest = '\'' :: (entry.name.toList ++ '\'' :: ':' :: ' ' ::
      (entry.valueCode.toList ++ rest)) := by
  have hcolon : "': ".toList = ['\'', ':', ' '] := by decide
  simp only [code, String.toList_append, List.append_assoc, hcolon]
  rfl

theorem toList_bare_code (name expression : String) (rest : List Char) :
    (bare name expression).code.toList ++ rest =
      '\'' :: (name.toList ++ '\'' :: ':' :: ' ' :: (expression.toList ++ rest)) :=
  toList_code _ rest

theorem toList_quoted_code (name value : String) (rest : List Char) :
    (quoted name value).code.toList ++ rest =
      '\'' :: (name.toList ++ '\'' :: ':' :: ' ' :: '\'' :: (value.toList ++ '\'' :: rest)) := by
  have hvalue : (quoted name value).valueCode.toList ++ rest =
      '\'' :: (value.toList ++ '\'' :: rest) := by
    rw [valueCode, String.toList_append, String.toList_append, List.append_assoc]
    rfl
  rw [toList_code, hvalue, Entry.name]

theorem IsWhole.brace_not_mem_code {entry : Entry} (h : entry.IsWhole) :
    '\x7d' ∉ entry.code.toList := by
  have hvalue : '\x7d' ∉ entry.valueCode.toList := by
    cases entry with
    | quoted name value =>
        simp only [valueCode, String.toList_append, List.mem_append, not_or]
        exact ⟨⟨by decide, h.value.no_brace⟩, by decide⟩
    | bare name expression => exact h.value.no_brace
  simp only [code, String.toList_append, List.mem_append, not_or]
  exact ⟨⟨⟨by decide, h.name.no_brace⟩, by decide⟩, hvalue⟩

theorem pairs_quoted_append {name value : String} (hname : IsInside name) (hvalue : IsInside value)
    (rest : List Char) :
    pairs ((quoted name value).code.toList ++ rest) =
      (name.toList, value.toList) :: pairs rest := by
  have hcolon : behindMark? ':' (':' :: ' ' :: '\'' :: (value.toList ++ '\'' :: rest)) =
      some ('\'' :: (value.toList ++ '\'' :: rest)) := by
    rw [behindMark?_cons (by decide), Text.stripStart_cons_of_blank (by decide),
      Text.stripStart_cons_of_not_blank (by decide)]
  rw [toList_quoted_code]
  exact pairs_of_pair? (pair?_eq_some (hname.quoted?_append _) hcolon (hvalue.quoted?_append rest))

/-- Neither of the two quotes of the name starts a pair, if what follows ends no name. -/
theorem pairs_bare_append {name expression : String} (hname : IsInside name)
    (hexpression : IsInside expression) (hhead : (bare name expression).StartsValue)
    {rest : List Char} (hrest : EndsNoName rest) :
    pairs ((bare name expression).code.toList ++ rest) = pairs rest := by
  have hquote : ∀ d ∈ ':' :: ' ' :: expression.toList, isQuote d = false := by
    simp only [List.forall_mem_cons]
    exact ⟨by decide, by decide, hexpression.not_quote⟩
  have hopening : pair? ('\'' :: (name.toList ++ '\'' :: ':' :: ' ' ::
      (expression.toList ++ rest))) = none := by
    obtain ⟨c, inside, hcons⟩ := List.exists_cons_of_ne_nil hexpression.toList_ne_nil
    have hblank : Text.isBlank c = false := hhead c (by rw [hcons]; rfl)
    have hc : isQuote c = false := hexpression.not_quote c (by rw [hcons]; exact List.mem_cons_self)
    have hcolon : behindMark? ':' (':' :: ' ' :: (expression.toList ++ rest)) =
        some (expression.toList ++ rest) := by
      rw [behindMark?_cons (by decide), Text.stripStart_cons_of_blank (by decide), hcons,
        List.cons_append, Text.stripStart_cons_of_not_blank hblank]
    have hvalue : quoted? (expression.toList ++ rest) = none := by
      rw [hcons, List.cons_append, quoted?, enclosed?, if_neg (by simp [hc])]
    simp only [pair?, hname.quoted?_append, hcolon, hvalue]
  have hclosing := hrest (':' :: ' ' :: expression.toList) hquote
  rw [toList_bare_code, pairs_cons_of_pair?_eq_none hopening,
    pairs_append_of_not_quote hname.not_quote]
  exact (pairs_cons_of_pair?_eq_none hclosing).trans (pairs_append_of_not_quote hquote rest)

end Entry

/-! ## Blocks -/

/-- What stands behind an entry of a block: the other entries, and a blank. -/
def behindEntry (entries : List Entry) : List Char :=
  entries.flatMap (fun entry => ',' :: ' ' :: entry.code.toList) ++ [' ']

theorem behindEntry_cons (entry : Entry) (entries : List Entry) :
    behindEntry (entry :: entries) = ',' :: ' ' :: (entry.code.toList ++ behindEntry entries) := by
  rw [behindEntry, List.flatMap_cons, List.append_assoc]
  rfl

theorem endsNoName_behindEntry {entries : List Entry}
    (h : ∀ entry ∈ entries, (Text.stripStart entry.name.toList).head? ≠ some ':') :
    EndsNoName (behindEntry entries) := by
  cases entries with
  | nil => exact endsNoName_of_not_quote (by decide)
  | cons entry entries =>
      rw [behindEntry_cons, Entry.toList_code]
      have hne : [',', ' '] ≠ [] := List.cons_ne_nil _ _
      exact endsNoName_append hne (by decide) (h entry (by simp)) _

section Whole

variable {entries : List Entry} (h : ∀ entry ∈ entries, entry.IsWhole)

include h

/-- An entry with a value in quotes gives its pair, and one with an expression gives none. -/
theorem pairs_behindEntry
    (hbare : ∀ entry ∈ entries, entry.header? = none → ∀ other ∈ entries, other.IsLegible) :
    pairs (behindEntry entries) =
      (entries.filterMap Entry.header?).map fun header => (header.1.toList, header.2.toList) := by
  induction entries with
  | nil => exact pairs_of_not_quote (by decide)
  | cons entry entries ih =>
      rw [List.forall_mem_cons] at h
      obtain ⟨hname, hvalue, hhead⟩ := h.1
      have hrest := ih h.2 fun other hother hnone next hnext =>
        hbare other (List.mem_cons_of_mem _ hother) hnone next (List.mem_cons_of_mem _ hnext)
      rw [behindEntry_cons, pairs_cons_of_not_quote (by decide), pairs_cons_of_not_quote (by decide)]
      cases entry with
      | quoted name value =>
          exact (Entry.pairs_quoted_append hname hvalue _).trans
            (congrArg ((name.toList, value.toList) :: ·) hrest)
      | bare name expression =>
          have hends := endsNoName_behindEntry fun other hother =>
            (hbare _ List.mem_cons_self rfl other (List.mem_cons_of_mem _ hother)).name_head
          exact (Entry.pairs_bare_append hname hvalue hhead hends).trans hrest

theorem brace_not_mem_behindEntry : '\x7d' ∉ behindEntry entries := by
  induction entries with
  | nil => decide
  | cons entry entries ih =>
      rw [List.forall_mem_cons] at h
      simp only [behindEntry_cons, List.mem_cons, List.mem_append, not_or]
      exact ⟨by decide, by decide, h.1.brace_not_mem_code, ih h.2⟩

end Whole

/-- The entries of a block, with blanks before and behind them. -/
def entriesCode (entries : List Entry) : String :=
  " " ++ ", ".intercalate (entries.map Entry.code) ++ " "

theorem toList_entriesCode_cons (entry : Entry) (entries : List Entry) :
    (entriesCode (entry :: entries)).toList =
      ' ' :: (entry.code.toList ++ behindEntry entries) := by
  have hcomma : ", ".toList = [',', ' '] := by decide
  rw [entriesCode, String.toList_append, String.toList_append, String.toList_intercalate,
    List.map_cons, List.map_cons, Text.intercalate_cons, List.map_map, List.flatMap_map, hcomma,
    List.append_assoc, List.append_assoc]
  rfl

section Whole

variable {entries : List Entry} (h : ∀ entry ∈ entries, entry.IsWhole)

include h

theorem pairs_entriesCode
    (hbare : ∀ entry ∈ entries, entry.header? = none → ∀ other ∈ entries, other.IsLegible) :
    pairs (entriesCode entries).toList =
      (entries.filterMap Entry.header?).map fun header => (header.1.toList, header.2.toList) := by
  rw [← pairs_behindEntry h hbare]
  cases entries with
  | nil => rw [pairs_of_not_quote (by decide), behindEntry, pairs_of_not_quote (by decide)]
  | cons entry entries =>
      rw [toList_entriesCode_cons, behindEntry_cons, pairs_cons_of_not_quote (by decide),
        pairs_cons_of_not_quote (by decide), pairs_cons_of_not_quote (by decide)]

/-- The entries are what stands between the braces, whatever follows. -/
theorem braced?_entriesCode (rest : List Char) :
    braced? ('\x7b' :: ((entriesCode entries).toList ++ '\x7d' :: rest)) =
      some ((entriesCode entries).toList, rest) := by
  cases entries with
  | nil => exact bracketed_append '\x7b' (by decide) (by decide) rest
  | cons entry entries =>
      rw [List.forall_mem_cons] at h
      rw [toList_entriesCode_cons]
      refine bracketed_append '\x7b' (List.cons_ne_nil _ _) ?_ rest
      simp only [List.mem_cons, List.mem_append, not_or]
      exact ⟨by decide, h.1.brace_not_mem_code, brace_not_mem_behindEntry h.2⟩

theorem member?_headers_entriesCode (rest : String) :
    member? "headers" braced? ("headers: \x7b" ++ entriesCode entries ++ "\x7d" ++ rest).toList =
      some (entriesCode entries).toList := by
  have hcode : ("headers: \x7b" ++ entriesCode entries ++ "\x7d" ++ rest).toList =
      [] ++ ("headers".toList ++ ':' :: ' ' :: '\x7b' ::
        ((entriesCode entries).toList ++ '\x7d' :: rest.toList)) := by
    simp only [String.toList_append, List.append_assoc]
    rfl
  rw [hcode]
  apply member?_eq_some Text.Misses.nil
  rw [Text.stripStart_cons_of_blank (by decide), Text.stripStart_cons_of_not_blank (by decide)]
  exact braced?_entriesCode h _

end Whole

theorem readHeaders_eq_ofPairs {entries : List Entry} (h : ∀ entry ∈ entries, entry.IsLegible)
    (rest : String) :
    readHeaders ("headers: \x7b" ++ entriesCode entries ++ "\x7d" ++ rest) =
      Headers.ofPairs (entries.filterMap Entry.header?) := by
  have hwhole : ∀ entry ∈ entries, entry.IsWhole := fun entry hentry => (h entry hentry).toIsWhole
  rw [readHeaders, headersOf, member?_headers_entriesCode hwhole]
  change Headers.ofPairs ((pairs (entriesCode entries).toList).map _) = _
  rw [pairs_entriesCode hwhole fun _ _ _ => h, List.map_map]
  simp [Function.comp_def]

/-- The headers that a block gives are those of its entries with a value in quotes, each name at
the place of its first such entry and with the value of its last one. -/
theorem readHeaders_entries {entries : List Entry} (h : ∀ entry ∈ entries, entry.IsLegible)
    (rest : String) :
    let given := entries.filterMap Entry.header?
    let found := (readHeaders ("headers: \x7b" ++ entriesCode entries ++ "\x7d" ++ rest)).entries
    found.map Prod.fst = (given.map Prod.fst).eraseDups ∧
      ∀ name, found.lookup name = given.reverse.lookup name := by
  intro given found
  have hfound : found = Assoc.ofPairs given :=
    congrArg Headers.entries (readHeaders_eq_ofPairs h rest)
  rw [hfound]
  exact ⟨Assoc.keys_ofPairs given, Assoc.lookup_ofPairs given⟩

/-- Entries with expressions beside each other, colons at every place, and a name given again. -/
theorem readHeaders_entries_of_expressions :
    let entries : List Entry := [.bare "A" "token", .quoted "B" ": ", .bare " B" ": ,",
      .bare "D" "x", .quoted "C:" "headers: ", .quoted "B" "y", .bare "C:" "z "]
    let found := (readHeaders ("headers: \x7b" ++ entriesCode entries ++ "\x7d" ++ "'")).entries
    (∀ entry ∈ entries, entry.IsLegible) ∧ found.map Prod.fst = ["B", "C:"] ∧
      found.lookup "B" = some "y" ∧ found.lookup "C:" = some "headers: " ∧
      found.lookup "A" = none := by
  intro entries found
  have hlegible : ∀ entry ∈ entries, entry.IsLegible := by decide +kernel
  obtain ⟨hnames, hvalues⟩ := readHeaders_entries hlegible "'"
  refine ⟨hlegible, hnames.trans ?_, (hvalues "B").trans ?_, (hvalues "C:").trans ?_,
    (hvalues "A").trans ?_⟩
  · decide +kernel
  · decide +kernel
  · decide +kernel
  · decide +kernel

end RequestForms.Snippet
