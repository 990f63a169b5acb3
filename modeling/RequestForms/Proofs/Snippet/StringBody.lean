import RequestForms.Proofs.Snippet.Axios
import RequestForms.Proofs.Snippet.Fetch

/-!
# Strings as bodies

A string that is given as a body is read up to the quote that closes it. What is found before it
goes first: an address that ends like the name of the body, since its closing quote then seems to
open a value, and, in a call of `fetch`, an argument of `JSON.stringify` inside of the string.
-/

namespace RequestForms.Snippet

/-! ## Names in front of a quote -/

/-- A name and a colon, with blanks around the colon. -/
def IsKey (name : String) (text : List Char) : Prop :=
  ∃ b b', (∀ c ∈ b, Text.isBlank c = true) ∧ (∀ c ∈ b', Text.isBlank c = true) ∧
    text = name.toList ++ b ++ ':' :: b'

/-- A text that ends like a name in front of its value. -/
def EndsInKey (name : String) (text : List Char) : Prop := ∃ key, IsKey name key ∧ key <:+ text

section Key

variable {name : String} {key text : List Char}

theorem key?_append_of_isKey (h : IsKey name key) (rest : List Char) :
    key? name (key ++ rest) = some (Text.stripStart rest) := by
  obtain ⟨b, b', hb, hb', rfl⟩ := h
  have hcolon : Text.isBlank ':' = false := by decide
  calc
    key? name (name.toList ++ b ++ ':' :: b' ++ rest) =
        behindMark? ':' (b ++ ':' :: (b' ++ rest)) := by
      rw [key?, List.append_assoc, List.append_assoc, Text.dropExact?_eq_some_iff.2 rfl,
        Option.bind_some, List.cons_append]
    _ = some (Text.stripStart (b' ++ rest)) := by
      rw [behindMark?, Text.stripStart_append_of_blank hb, Text.stripStart_cons_of_not_blank hcolon]
      exact if_pos rfl
    _ = some (Text.stripStart rest) := by
      rw [Text.stripStart_append_of_blank hb']

theorem exists_isKey_of_key? {rest : List Char} (h : key? name text = some rest) :
    ∃ key, IsKey name key ∧ text = key ++ rest := by
  obtain ⟨-, b, b', -, -, hb, hb', htext⟩ := exists_of_dropExact?_bind_behindMark? h
  exact ⟨_, ⟨b, b', hb, hb', rfl⟩, htext⟩

theorem isKey_iff : IsKey name text ↔ key? name text = some [] := by
  constructor
  · intro h
    have hkey := key?_append_of_isKey h []
    rwa [List.append_nil] at hkey
  · intro h
    obtain ⟨key, hkey, rfl⟩ := exists_isKey_of_key? h
    rwa [List.append_nil]

instance (name : String) (text : List Char) : Decidable (IsKey name text) :=
  decidable_of_iff _ isKey_iff.symm

theorem endsInKey_iff : EndsInKey name text ↔ ∃ key ∈ text.tails, IsKey name key := by
  simp only [EndsInKey, List.mem_tails, and_comm]

instance (name : String) (text : List Char) : Decidable (EndsInKey name text) :=
  decidable_of_iff _ endsInKey_iff.symm

theorem IsKey.ne_nil (h : IsKey name key) : key ≠ [] := by
  obtain ⟨b, b', -, -, rfl⟩ := h
  simp

theorem IsKey.not_markup (h : IsKey name key) (hname : ∀ c ∈ name.toList, isMarkup c = false) :
    ∀ c ∈ key, isMarkup c = false := by
  obtain ⟨b, b', hb, hb', rfl⟩ := h
  intro c hc
  simp only [List.mem_append, List.mem_cons] at hc
  rcases hc with (hc | hc) | rfl | hc
  · exact hname c hc
  · exact isMarkup_of_isBlank (hb c hc)
  · decide
  · exact isMarkup_of_isBlank (hb' c hc)

theorem endsInKey_cons {c : Char} :
    EndsInKey name (c :: text) ↔ IsKey name (c :: text) ∨ EndsInKey name text := by
  constructor
  · rintro ⟨key, hkey, hsuffix⟩
    rcases List.suffix_cons_iff.1 hsuffix with rfl | hsuffix
    · exact Or.inl hkey
    · exact Or.inr ⟨key, hkey, hsuffix⟩
  · rintro (hkey | ⟨key, hkey, hsuffix⟩)
    · exact ⟨_, hkey, List.suffix_refl _⟩
    · exact ⟨key, hkey, hsuffix.trans (List.suffix_cons c text)⟩

theorem not_endsInKey_nil : ¬EndsInKey name [] := by
  rintro ⟨key, hkey, hsuffix⟩
  exact hkey.ne_nil (List.suffix_nil.1 hsuffix)

end Key

/-- There is only one way to cut a text at its first markup. -/
theorem append_markup_inj {s t rest rest' : List Char} {c d : Char}
    (hs : ∀ c ∈ s, isMarkup c = false) (ht : ∀ c ∈ t, isMarkup c = false)
    (hc : isMarkup c = true) (hd : isMarkup d = true) (h : s ++ c :: rest = t ++ d :: rest') :
    s = t ∧ c = d ∧ rest = rest' := by
  have hfront : ∀ {s rest : List Char} {c : Char}, (∀ c ∈ s, isMarkup c = false) →
      isMarkup c = true → (s ++ c :: rest).takeWhile (! isMarkup ·) = s := by
    intro s rest c hs hc
    rw [List.takeWhile_append_of_pos (by simpa using hs), List.takeWhile_cons, hc]
    simp
  have heq : s = t := by
    rw [← hfront hs hc, h, hfront ht hd]
  subst heq
  exact ⟨rfl, List.cons.inj (List.append_cancel_left h)⟩

theorem member?_cons (name : String) (shape : List Char → Option (List Char × List Char))
    (c : Char) (code : List Char) :
    member? name shape (c :: code) =
      (((key? name (c :: code)).bind shape).map Prod.fst).or (member? name shape code) := by
  rw [member?, Text.search?]
  cases ((key? name (c :: code)).bind shape).map Prod.fst <;> rfl

section Quote

variable {name : String} (hname : ∀ c ∈ name.toList, isMarkup c = false)
  {shape : List Char → Option (List Char × List Char)} (hshape : ShowsMarkup shape)
  {q : Char} (hq : isQuote q = true)

include hname hshape hq

/-- From a text without markup up to a quote, a value is found only if the text is its name. -/
theorem key?_bind_append_quote {text : List Char} (htext : ∀ c ∈ text, isMarkup c = false)
    (behind : List Char) :
    (key? name (text ++ q :: behind)).bind shape =
      if IsKey name text then shape (q :: behind) else none := by
  have hmarkup := isMarkup_of_isQuote hq
  split
  · next hkey =>
      rw [key?_append_of_isKey hkey, Option.bind_some,
        Text.stripStart_cons_of_not_blank (isBlank_of_isMarkup hmarkup)]
  · next hkey =>
      rw [Option.bind_eq_none_iff]
      intro rest hrest
      by_contra hsome
      obtain ⟨key, hiskey, heq⟩ := exists_isKey_of_key? hrest
      obtain ⟨front, c, rest', rfl, hfront, hc, hnil⟩ := hshape rest hsome
      rw [← List.append_assoc] at heq
      obtain ⟨rfl, rfl, -⟩ := append_markup_inj htext
        (List.forall_mem_append.2 ⟨hiskey.not_markup hname, hfront⟩) hmarkup hc heq
      rw [hnil hq, List.append_nil] at hkey
      exact hkey hiskey

/-- A text without markup hides what is behind it only if it ends like the name: then the quote
behind it seems to open the value. -/
theorem member?_append_quote {text : List Char} (htext : ∀ c ∈ text, isMarkup c = false)
    (behind : List Char) :
    member? name shape (text ++ q :: behind) =
      ((if EndsInKey name text then shape (q :: behind) else none).map Prod.fst).or
        (member? name shape behind) := by
  induction text with
  | nil =>
      have hnone := key?_bind_append_quote hname hshape hq htext behind
      rw [if_neg fun h => IsKey.ne_nil h rfl, List.nil_append] at hnone
      rw [if_neg not_endsInKey_nil, List.nil_append, member?_cons, hnone]
  | cons c text ih =>
      have hvalue := key?_bind_append_quote hname hshape hq htext behind
      rw [List.cons_append] at hvalue
      rw [List.cons_append, member?_cons, hvalue,
        ih fun d hd => htext d (List.mem_cons_of_mem c hd)]
      by_cases hkey : IsKey name (c :: text)
      · rw [if_pos hkey, if_pos (endsInKey_cons.2 (Or.inl hkey))]
        by_cases hends : EndsInKey name text
        · rw [if_pos hends]
          cases shape (q :: behind) <;> rfl
        · rw [if_neg hends]
          rfl
      · have hiff : EndsInKey name (c :: text) ↔ EndsInKey name text :=
          endsInKey_cons.trans (or_iff_right hkey)
        rw [if_neg hkey]
        simp only [hiff]
        rfl

end Quote

/-! ## Strings in a call -/

/-- A shape that takes a string, with quotes of any kind around it. -/
def TakesStrings (shape : List Char → Option (List Char × List Char)) : Prop :=
  ∀ q q' inside behind, isQuote q = true → isQuote q' = true → inside ≠ [] →
    (∀ c ∈ inside, isQuote c = false) →
    shape (q :: (inside ++ q' :: behind)) = some (inside, behind)

theorem takesStrings_quoted : TakesStrings quoted? :=
  fun _ _ _ behind hq hq' hne hinside => enclosed?_append hq hq' hne hinside behind

theorem takesStrings_literal : TakesStrings Axios.literal? := by
  intro q q' inside behind hq hq' hne hinside
  rw [Axios.literal?, takesStrings_quoted q q' inside behind hq hq' hne hinside]

def closing : List Char := " \x7d)".toList

def stringMember (name : String) (q : Char) (text behind : List Char) : List Char :=
  name.toList ++ ':' :: ' ' :: q :: (text ++ q :: behind)

theorem toList_callWithString (opening : String) {name middle : String} {between : List Char}
    (h : middle.toList = '\'' :: (between ++ (name.toList ++ [':', ' ']))) (url : String) (q : Char)
    (body : String) :
    (opening ++ url ++ middle ++ String.singleton q ++ body ++ String.singleton q ++
      " \x7d)").toList = opening.toList ++ (url.toList ++
        '\'' :: (between ++ stringMember name q body.toList closing)) := by
  unfold stringMember closing
  simp only [String.toList_append, String.toList_singleton, h, List.append_assoc,
    List.cons_append, List.nil_append]

theorem endsInKey_name (name : String) : EndsInKey name (name.toList ++ [':', ' ']) := by
  refine ⟨_, ⟨[], [' '], by simp, by decide, ?_⟩, List.suffix_refl _⟩
  rw [List.append_nil]

section Member

variable {name : String} (hname : ∀ c ∈ name.toList, isMarkup c = false)
  {shape : List Char → Option (List Char × List Char)} (hshape : ShowsMarkup shape)
  {q : Char} (hq : isQuote q = true)

include hname hshape hq

theorem member?_stringMember (text behind : List Char) :
    member? name shape (stringMember name q text behind) =
      ((shape (q :: (text ++ q :: behind))).map Prod.fst).or
        (member? name shape (text ++ q :: behind)) := by
  have hfront : ∀ c ∈ name.toList ++ [':', ' '], isMarkup c = false :=
    List.forall_mem_append.2 ⟨hname, by decide⟩
  have hmember := member?_append_quote hname hshape hq hfront (text ++ q :: behind)
  rw [if_pos (endsInKey_name name), List.append_assoc] at hmember
  exact hmember

/-- A string is found as it is, unless a text in quotes before it ends like its name. -/
theorem member?_append_stringMember (hstrings : TakesStrings shape) {before between : List Char}
    (hbefore : ∀ c ∈ before, isMarkup c = false)
    (hbetween : Text.lacksWordEverywhere name.toList ':' between = true)
    (hquotes : ∀ c ∈ between, isQuote c = false) {text : List Char} (hne : text ≠ [])
    (htext : ∀ c ∈ text, isQuote c = false) (behind : List Char) :
    member? name shape
        (before ++ '\'' :: (between ++ stringMember name q text behind)) =
      some (if EndsInKey name before then between ++ (name.toList ++ [':', ' ']) else text) := by
  have hvalue := hstrings q q text behind hq hq hne htext
  rw [member?_append_quote hname hshape (by decide) hbefore]
  split
  · have hinside : ∀ c ∈ between ++ (name.toList ++ [':', ' ']), isQuote c = false :=
      List.forall_mem_append.2 ⟨hquotes, List.forall_mem_append.2
        ⟨fun c hc => isQuote_of_isMarkup_eq_false (hname c hc), by decide⟩⟩
    have hopens := hstrings '\'' q (between ++ (name.toList ++ [':', ' ']))
      (text ++ q :: behind) (by decide) hq (by simp) hinside
    have hcode : between ++ stringMember name q text behind =
        between ++ (name.toList ++ [':', ' ']) ++ q :: (text ++ q :: behind) := by
      simp [stringMember]
    rw [hcode, hopens]
    rfl
  · rw [member?_append ((needsWord_key name shape).misses hbetween),
      member?_stringMember hname hshape hq, hvalue]
    rfl

end Member

/-! ## Arguments in a string -/

namespace Fetch

/-- What stands before an argument of `JSON.stringify` that is a body. -/
def IsOpening (text : List Char) : Prop :=
  ∃ key b, IsKey "body" key ∧ (∀ c ∈ b, Text.isBlank c = true) ∧
    text = key ++ "JSON.stringify".toList ++ b ++ ['(']

/-- A text in which a body starts that is an argument of `JSON.stringify`. -/
def StartsArgument (text : List Char) : Prop :=
  ∃ opening rest, IsOpening opening ∧ opening ++ rest <:+ text ∧ rest.head? ≠ some ')'

theorem IsOpening.isQuote_eq_false {opening : List Char} (h : IsOpening opening) :
    ∀ c ∈ opening, isQuote c = false := by
  obtain ⟨key, b, hkey, hb, rfl⟩ := h
  intro c hc
  have hword : ∀ c ∈ "JSON.stringify".toList ++ ['('], isQuote c = false := by decide
  simp only [List.mem_append] at hc hword
  rcases hc with ((hc | hc) | hc) | hc
  · exact isQuote_of_isMarkup_eq_false (hkey.not_markup (by decide) c hc)
  · exact hword c (Or.inl hc)
  · exact isQuote_of_isMarkup_eq_false (isMarkup_of_isBlank (hb c hc))
  · exact hword c (Or.inr hc)

theorem IsOpening.mem {opening : List Char} (h : IsOpening opening) : 'b' ∈ opening := by
  obtain ⟨key, b, ⟨b', b'', -, -, rfl⟩, -, rfl⟩ := h
  simp

/-- What is found for the argument stands between parentheses. -/
theorem exists_isOpening_of_stringified? {s arg behind : List Char}
    (h : (key? "body" s).bind stringified? = some (arg, behind)) :
    ∃ opening c, IsOpening opening ∧ s = opening ++ (arg ++ c :: behind) ∧ arg ≠ [] ∧
      ')' ∉ arg := by
  obtain ⟨rest, hrest, hstringified⟩ := Option.bind_eq_some_iff.1 h
  obtain ⟨key, hkey, rfl⟩ := exists_isKey_of_key? hrest
  obtain ⟨rest', hdrop, hparen⟩ := Option.bind_eq_some_iff.1 hstringified
  obtain rfl := Text.dropExact?_eq_some_iff.1 hdrop
  obtain ⟨b, hb, hblank⟩ := Text.exists_blank_append_stripStart rest'
  obtain ⟨a, c, hinside, ha, hne, hcloses⟩ := exists_of_enclosed?_eq_some hparen
  obtain rfl := of_decide_eq_true ha
  refine ⟨_, c, ⟨key, b, hkey, hb, rfl⟩, ?_, hne, fun hmem => ?_⟩
  · rw [hblank, hinside]
    simp
  · exact absurd (hcloses ')' hmem) (by decide)

theorem stringified?_ne_none {opening rest : List Char} (h : IsOpening opening)
    (hhead : rest.head? ≠ some ')') (hmem : ')' ∈ rest) :
    (key? "body" (opening ++ rest)).bind stringified? ≠ none := by
  obtain ⟨key, b, hkey, hb, rfl⟩ := h
  obtain ⟨inside, behind, rfl, hinside⟩ := List.eq_append_cons_of_mem hmem
  have hne : inside ≠ [] := by
    rintro rfl
    exact hhead rfl
  have hword : ∀ rest, Text.stripStart ("JSON.stringify".toList ++ rest) =
      "JSON.stringify".toList ++ rest :=
    fun _ => Text.stripStart_cons_of_not_blank (by decide) _
  have hcode : key ++ "JSON.stringify".toList ++ b ++ ['('] ++ (inside ++ ')' :: behind) =
      key ++ ("JSON.stringify".toList ++ (b ++ '(' :: (inside ++ ')' :: behind))) := by
    simp
  rw [hcode, key?_append_of_isKey hkey, Option.bind_some, hword, stringified?,
    Text.dropExact?_eq_some_iff.2 rfl, Option.bind_some, Text.stripStart_append_of_blank hb,
    Text.stripStart_cons_of_not_blank (by decide), parenthesized?,
    bracketed_append '(' hne hinside]
  exact Option.some_ne_none _

section String

variable {q : Char} (hq : isQuote q = true) {text : List Char}

include hq

/-- An argument that is found behind the start of a string starts inside of it. -/
theorem exists_isOpening_append {s arg behind : List Char}
    (hs : s <:+ text ++ q :: closing)
    (h : (key? "body" s).bind stringified? = some (arg, behind)) :
    ∃ opening rest c, IsOpening opening ∧ opening ++ rest <:+ text ∧
      arg ++ c :: behind = rest ++ q :: closing ∧ arg ≠ [] ∧ ')' ∉ arg := by
  obtain ⟨opening, c, hopening, rfl, hne, hparen⟩ := exists_isOpening_of_stringified? h
  have hnot : q ∉ opening := fun hmem => by
    exact absurd hq (by rw [hopening.isQuote_eq_false q hmem]; decide)
  rcases List.suffix_or_suffix_of_suffix hs (List.suffix_append text (q :: closing)) with
    hbehind | ⟨front, hfront⟩
  · -- the code behind the string is too short for a name
    exfalso
    have hmem : 'b' ∈ q :: closing := hbehind.subset (by simp [hopening.mem])
    rcases List.mem_cons.1 hmem with rfl | hmem
    · exact absurd hq (by decide)
    · exact absurd hmem (by decide)
  · obtain ⟨before, hbefore⟩ := hs
    have hprefix : opening <+: front ++ q :: closing := ⟨_, hfront.symm⟩
    obtain ⟨rest, rfl⟩ := Text.prefix_of_prefix_append_cons hnot hprefix
    rw [List.append_assoc] at hfront
    refine ⟨opening, rest, c, hopening, ⟨before, ?_⟩, (List.append_cancel_left hfront).symm, hne,
      hparen⟩
    rw [← hfront, ← List.append_assoc, ← List.append_assoc] at hbefore
    rw [← List.append_assoc]
    exact List.append_cancel_right hbefore

theorem search_stringified_ne_none_iff :
    member? "body" stringified? (text ++ q :: closing) ≠ none ↔ StartsArgument text := by
  constructor
  · intro h
    obtain ⟨found, hfound⟩ := Option.ne_none_iff_exists'.1 h
    obtain ⟨s, hs, hvalue⟩ := Text.exists_suffix_of_search? hfound
    obtain ⟨⟨arg, behind⟩, hvalue, -⟩ := Option.map_eq_some_iff.1 hvalue
    obtain ⟨opening, rest, c, hopening, hrest, heq, hne, hparen⟩ :=
      exists_isOpening_append hq hs hvalue
    refine ⟨opening, rest, hopening, hrest, fun hhead => hparen ?_⟩
    obtain ⟨d, arg, rfl⟩ := List.exists_cons_of_ne_nil hne
    obtain ⟨rest, rfl⟩ := List.head?_eq_some_iff.1 hhead
    obtain rfl := (List.cons.inj heq).1
    simp
  · rintro ⟨opening, rest, hopening, ⟨before, rfl⟩, hhead⟩
    have hsuffix : opening ++ (rest ++ q :: closing) <:+
        before ++ (opening ++ rest) ++ q :: closing :=
      ⟨before, by simp⟩
    have hparen : (rest ++ q :: closing).head? ≠ some ')' := by
      cases rest with
      | nil =>
          intro h
          obtain rfl := Option.some.inj h
          exact absurd hq (by decide)
      | cons c rest => exact hhead
    have hmem : ')' ∈ rest ++ q :: closing := by simp [closing]
    apply Text.search?_ne_none hsuffix
    rw [ne_eq, Option.map_eq_none_iff]
    exact stringified?_ne_none hopening hparen hmem

/-- An argument is never the string that it starts in. -/
theorem strip_ne_of_search_stringified {arg : List Char}
    (htext : ∀ c ∈ text, isQuote c = false)
    (h : member? "body" stringified? (text ++ q :: closing) = some arg) :
    Text.strip arg ≠ text := by
  obtain ⟨s, hs, hvalue⟩ := Text.exists_suffix_of_search? h
  obtain ⟨⟨arg, behind⟩, hfound, rfl⟩ := Option.map_eq_some_iff.1 hvalue
  obtain ⟨opening, rest, c, hopening, hrest, heq, -, -⟩ := exists_isOpening_append hq hs hfound
  intro hstrip
  by_cases hmem : q ∈ arg
  · -- then it goes on behind the string
    have hkept : q ∈ Text.strip arg :=
      Text.mem_strip (isBlank_of_isMarkup (isMarkup_of_isQuote hq)) hmem
    rw [hstrip] at hkept
    exact absurd hq (by rw [htext q hkept]; decide)
  · have hprefix : arg <+: rest := Text.prefix_of_prefix_append_cons hmem ⟨_, heq⟩
    have hlength := hrest.length_le
    have hopen := List.length_pos_of_mem hopening.mem
    have hinside := (Text.strip_isInfix arg).length_le
    have harg := hprefix.length_le
    rw [hstrip] at hinside
    rw [List.length_append] at hlength
    omega

end String

instance (text : List Char) : Decidable (StartsArgument text) :=
  decidable_of_iff _ (search_stringified_ne_none_iff (by decide : isQuote '\'' = true))

def stringCall (url : String) (q : Char) (body : String) : String :=
  "fetch('" ++ url ++ "', \x7b body: " ++ String.singleton q ++ body ++ String.singleton q ++
    " \x7d)"

def between : List Char := ", \x7b ".toList

theorem toList_stringCall (url : String) (q : Char) (body : String) :
    (stringCall url q body).toList = "fetch('".toList ++ (url.toList ++
      '\'' :: (between ++ stringMember "body" q body.toList closing)) := by
  have hname : "', \x7b body: ".toList = '\'' :: (between ++ ("body".toList ++ [':', ' '])) := by
    decide
  exact toList_callWithString "fetch('" hname url q body

theorem stringified?_quote {q : Char} (hq : isQuote q = true) (rest : List Char) :
    stringified? (q :: rest) = none := by
  by_contra hsome
  obtain ⟨front, behind, heq, hfront⟩ := exists_of_stringified? hsome
  cases front with
  | nil =>
      obtain rfl := (List.cons.inj heq).1
      exact absurd hq (by decide)
  | cons c front =>
      obtain rfl := (List.cons.inj heq).1
      exact absurd (isMarkup_of_isQuote hq) (by rw [hfront q (by simp)]; decide)

section Call

variable {url body : String} {q : Char} (hurl : ∀ c ∈ url.toList, isMarkup c = false)
  (hq : isQuote q = true)

include hurl hq

/-- No argument is found before the string. -/
theorem member?_stringified_stringCall :
    member? "body" stringified? (stringCall url q body).toList =
      member? "body" stringified? (body.toList ++ q :: closing) := by
  have hneeds := needsWord_key "body" stringified?
  have hapostrophe : isQuote '\'' = true := by decide
  rw [toList_stringCall, member?_append (hneeds.misses (by decide)),
    member?_append_quote (by decide) showsMarkup_stringified hapostrophe hurl,
    stringified?_quote hapostrophe, ite_self, member?_append (hneeds.misses (by decide)),
    member?_stringMember (by decide) showsMarkup_stringified hq, stringified?_quote hq]
  rfl

theorem member?_quoted_stringCall (hne : body ≠ "") (hbody : ∀ c ∈ body.toList, isQuote c = false) :
    member? "body" quoted? (stringCall url q body).toList =
      some (if EndsInKey "body" url.toList then ", \x7b body: ".toList else body.toList) := by
  rw [toList_stringCall, member?_append ((needsWord_key "body" quoted?).misses (by decide)),
    member?_append_stringMember (by decide) showsMarkup_quoted hq takesStrings_quoted hurl
      (by decide) (by decide) (by simpa using hne) hbody]
  rfl

end Call

end Fetch

namespace Axios

def stringCall (url : String) (q : Char) (body : String) : String :=
  "axios(\x7b url: '" ++ url ++ "', data: " ++ String.singleton q ++ body ++ String.singleton q ++
    " \x7d)"

theorem toList_stringCall (url : String) (q : Char) (body : String) :
    (stringCall url q body).toList = "axios(\x7b url: '".toList ++ (url.toList ++
      '\'' :: (", ".toList ++ stringMember "data" q body.toList closing)) := by
  have hname : "', data: ".toList = '\'' :: (", ".toList ++ ("data".toList ++ [':', ' '])) := by
    decide
  exact toList_callWithString "axios(\x7b url: '" hname url q body

theorem member?_literal_stringCall {url body : String} {q : Char}
    (hurl : ∀ c ∈ url.toList, isMarkup c = false) (hq : isQuote q = true) (hne : body ≠ "")
    (hbody : ∀ c ∈ body.toList, isQuote c = false) :
    member? "data" literal? (stringCall url q body).toList =
      some (if EndsInKey "data" url.toList then ", data: ".toList else body.toList) := by
  rw [toList_stringCall, member?_append ((needsWord_key "data" literal?).misses (by decide)),
    member?_append_stringMember (by decide) showsMarkup_literal hq takesStrings_literal hurl
      (by decide) (by decide) (by simpa using hne) hbody]
  rfl

end Axios

theorem map_ofList_ite_eq_iff {p : Prop} [Decidable p] {found body : String} :
    (some (if p then found.toList else body.toList)).map String.ofList = some body ↔
      (p → body = found) := by
  split
  · next h => simp [h, eq_comm]
  · next h => simp [h]

/-- A string without quotes is the body, whatever kind of quotes is around it, if and only if
nothing is found before it: the address does not end like the name of the body, and no argument of
`JSON.stringify` starts in the string. -/
theorem body_read_stringCall {url body : String} {q : Char}
    (hurl : ∀ c ∈ url.toList, isMarkup c = false) (hq : isQuote q = true) (hne : body ≠ "")
    (hbody : ∀ c ∈ body.toList, isQuote c = false) :
    ((Fetch.read (Fetch.stringCall url q body)).body = some body ↔
      ¬Fetch.StartsArgument body.toList ∧
        (EndsInKey "body" url.toList → body = ", \x7b body: ")) ∧
    ((Axios.read (Axios.stringCall url q body)).body = some body ↔
      (EndsInKey "data" url.toList → body = ", data: ")) := by
  constructor
  · rw [Fetch.body_read, Fetch.body?, Fetch.member?_stringified_stringCall hurl hq,
      Fetch.member?_quoted_stringCall hurl hq hne hbody]
    by_cases hstarts : Fetch.StartsArgument body.toList
    · obtain ⟨arg, harg⟩ :=
        Option.ne_none_iff_exists'.1 ((Fetch.search_stringified_ne_none_iff hq).2 hstarts)
      have hstrip := Fetch.strip_ne_of_search_stringified hq hbody harg
      rw [harg]
      refine iff_of_false (fun h => hstrip ?_) fun h => h.1 hstarts
      rw [← Option.some.inj h, String.toList_ofList]
    · have hnone : member? "body" Fetch.stringified? (body.toList ++ q :: closing) = none := by
        by_contra hsome
        exact hstarts ((Fetch.search_stringified_ne_none_iff hq).1 hsome)
      rw [hnone]
      exact map_ofList_ite_eq_iff.trans (and_iff_right hstarts).symm
  · rw [Axios.body_read, Axios.body?, Axios.member?_literal_stringCall hurl hq hne hbody]
    exact map_ofList_ite_eq_iff

/-- Names, colons, braces and parentheses in the address and in the string are passed over. -/
theorem body_read_stringCall_of_names :
    let url := "/body: x?data:1"
    let body := "\x7bdata: \x7d body: (JSON.stringify(), ) url: data:"
    (Fetch.read (Fetch.stringCall url (Char.ofNat 0x60) body)).body = some body ∧
      (Axios.read (Axios.stringCall url '"' body)).body = some body := by
  intro url body
  have hurl : ∀ c ∈ url.toList, isMarkup c = false := by decide
  have hbody : ∀ c ∈ body.toList, isQuote c = false := by decide
  have hne : body ≠ "" := by decide
  have hstarts : ¬Fetch.StartsArgument body.toList := by decide +kernel
  have hfetch : ¬EndsInKey "body" url.toList := by decide
  have haxios : ¬EndsInKey "data" url.toList := by decide
  exact ⟨(body_read_stringCall hurl (by decide) hne hbody).1.2 ⟨hstarts, fun h => absurd h hfetch⟩,
    (body_read_stringCall hurl (by decide) hne hbody).2.2 fun h => absurd h haxios⟩

/-- The first find counts, be it behind the end of the address or inside of the string, and a quote
of any kind closes a string. -/
theorem body_read_stringCall_ne :
    (∀ url ∈ ["/x?body:", "/x?data:", "/x"], ∀ c ∈ url.toList, isMarkup c = false) ∧
      (Fetch.read (Fetch.stringCall "/x?body:" '\'' "abc")).body = some ", \x7b body: " ∧
      (Fetch.read (Fetch.stringCall "/x" '\'' "body: JSON.stringify(x)")).body = some "x" ∧
      (Axios.read (Axios.stringCall "/x?data:" '\'' "abc")).body = some ", data: " ∧
      (Fetch.read (Fetch.stringCall "/x" '"' "it's")).body = some "it" := by
  decide +kernel

end RequestForms.Snippet
