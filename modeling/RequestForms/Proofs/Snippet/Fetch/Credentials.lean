import RequestForms.Proofs.Assoc
import RequestForms.Proofs.Snippet.Headers
import RequestForms.Proofs.Text.Lines
import RequestForms.Snippet.Fetch

/-!
# The header of the credentials

The credentials of a request stand in a header of their own, which takes the place of a header of
the same name. The names are compared letter by letter, so a header whose name has other cases stays
beside it.
-/

namespace RequestForms.Snippet.Fetch

/-! ## Reading a block of headers -/

inductive EntryValue where
  | literal (text : String)
  | template (text : String)
deriving DecidableEq

/-- The text of a string literal behind its opening quote, with the code that follows it. A backslash
stands for the character behind it. -/
def literal? : List Char → Option (List Char × List Char)
  | [] => none
  | '\\' :: c :: rest => (literal? rest).map fun found => (c :: found.1, found.2)
  | c :: rest =>
      if c = '\'' then some ([], rest)
      else (literal? rest).map fun found => (c :: found.1, found.2)

def isBacktick (c : Char) : Bool := c.toNat = 0x60

def value? : List Char → Option (EntryValue × List Char)
  | '\'' :: rest => (literal? rest).map fun found => (.literal (String.ofList found.1), found.2)
  | code =>
      (enclosed? isBacktick isBacktick code).map fun found =>
        (.template (String.ofList found.1), found.2)

def readEntry (code : List Char) : Option ((String × EntryValue) × List Char) :=
  match Text.stripStart code with
  | '\'' :: rest =>
      (literal? rest).bind fun name =>
        (behindMark? ':' name.2).bind fun rest =>
          (value? rest).bind fun value =>
            (Text.dropExact? [','] value.2).map fun rest => ((String.ofList name.1, value.1), rest)
  | _ => none

theorem suffix_of_literal? {code text rest : List Char} (h : literal? code = some (text, rest)) :
    rest <:+ code := by
  induction code using literal?.induct generalizing text with
  | case1 => cases h
  | case2 c code ih =>
      obtain ⟨found, hfound, heq⟩ := Option.map_eq_some_iff.1 h
      obtain ⟨-, rfl⟩ := Prod.mk.inj heq
      exact (ih hfound).trans ⟨['\\', c], rfl⟩
  | case3 code hnot =>
      rw [literal?, if_pos rfl] at h
      · obtain ⟨-, rfl⟩ := Prod.mk.inj (Option.some.inj h)
        exact List.suffix_cons _ _
      · exact hnot
  | case4 c code hnot hc ih =>
      rw [literal?, if_neg hc] at h
      · obtain ⟨found, hfound, heq⟩ := Option.map_eq_some_iff.1 h
        obtain ⟨-, rfl⟩ := Prod.mk.inj heq
        exact (ih hfound).trans (List.suffix_cons _ _)
      · exact hnot

theorem suffix_of_value? {code rest : List Char} {value : EntryValue}
    (h : value? code = some (value, rest)) : rest <:+ code := by
  unfold value? at h
  split at h
  · obtain ⟨found, hfound, heq⟩ := Option.map_eq_some_iff.1 h
    obtain ⟨-, rfl⟩ := Prod.mk.inj heq
    exact (suffix_of_literal? hfound).trans (List.suffix_cons _ _)
  · obtain ⟨found, hfound, heq⟩ := Option.map_eq_some_iff.1 h
    obtain ⟨-, rfl⟩ := Prod.mk.inj heq
    exact suffix_of_enclosed? hfound

theorem length_of_readEntry {code rest : List Char} {entry : String × EntryValue}
    (h : readEntry code = some (entry, rest)) : rest.length < code.length := by
  unfold readEntry at h
  split at h
  · next behind hcode =>
      obtain ⟨name, hname, h⟩ := Option.bind_eq_some_iff.1 h
      obtain ⟨colon, hcolon, h⟩ := Option.bind_eq_some_iff.1 h
      obtain ⟨value, hvalue, h⟩ := Option.bind_eq_some_iff.1 h
      obtain ⟨comma, hcomma, heq⟩ := Option.map_eq_some_iff.1 h
      obtain ⟨-, rfl⟩ := Prod.mk.inj heq
      have hlast : comma <:+ value.2 := ⟨[','], (Text.dropExact?_eq_some_iff.1 hcomma).symm⟩
      have hall := ((hlast.trans (suffix_of_value? hvalue)).trans
        (suffix_of_behindMark? hcolon)).trans (suffix_of_literal? hname)
      have hstart := Text.length_stripStart_le code
      rw [hcode, List.length_cons] at hstart
      exact Nat.lt_of_le_of_lt hall.length_le hstart
  · cases h

def entries? (code : List Char) : Option (List (String × EntryValue)) :=
  match h : readEntry code with
  | some (entry, rest) =>
      have := length_of_readEntry h
      (entries? rest).map (entry :: ·)
  | none => (behindMark? '\x7d' code).map fun _ => []
termination_by code.length

/-- What stands behind the brace that opens the first block of headers outside of all string
literals. -/
def block? (code : List Char) : Option (List Char) :=
  match (key? "headers" code).bind (Text.dropExact? ['\x7b']) with
  | some inside => some inside
  | none =>
      match code with
      | [] => none
      | c :: rest =>
          if c = '\'' then
            match h : literal? rest with
            | some (_, behind) =>
                have := (suffix_of_literal? h).length_le
                block? behind
            | none => none
          else block? rest
termination_by code.length
decreasing_by all_goals simp only [List.length_cons]; omega

def sentEntries? (code : String) : Option (List (String × EntryValue)) :=
  (block? code.toList).bind entries?

/-! ## Reading what was written -/

theorem literal?_flatMap_escaped (s rest : List Char) :
    literal? (s.flatMap escaped ++ '\'' :: rest) = some (s, rest) := by
  induction s with
  | nil =>
      rw [List.flatMap_nil, List.nil_append, literal?, if_pos rfl]
      exact fun _ _ h => absurd h (by decide)
  | cons c s ih =>
      rw [List.flatMap_cons, List.append_assoc, escaped]
      split
      · rw [List.cons_append, List.singleton_append, literal?, ih]
        rfl
      · next hc =>
          rw [not_or] at hc
          rw [List.singleton_append, literal?, if_neg hc.2, ih]
          · rfl
          · exact fun _ _ h _ => hc.1 h

theorem quoteChars_append (s rest : List Char) :
    quoteChars s ++ rest = '\'' :: (s.flatMap escaped ++ '\'' :: rest) := by
  rw [quoteChars, List.append_assoc, List.cons_append, List.singleton_append]

def entryValue : Option String → EntryValue
  | some value => .literal value
  | none => .template "Basic $\x7bcredentials\x7d"

def valueCode : Option String → String
  | some value => quote value
  | none => "`Basic $\x7bcredentials\x7d`"

theorem headerLine_eq (entry : String × Option String) :
    headerLine entry = "    " ++ quote entry.1 ++ ": " ++ valueCode entry.2 ++ "," := by
  obtain ⟨name, value⟩ := entry
  cases value with
  | some value => rfl
  | none =>
      have htemplate : ": `Basic $\x7bcredentials\x7d`," =
          ": " ++ "`Basic $\x7bcredentials\x7d`" ++ "," := by
        decide
      rw [headerLine, valueCode, htemplate]
      simp only [String.append_assoc]

theorem value?_valueCode (value : Option String) (rest : List Char) :
    value? ((valueCode value).toList ++ rest) = some (entryValue value, rest) := by
  cases value with
  | some value =>
      rw [valueCode, toList_quote, quoteChars_append, value?, literal?_flatMap_escaped,
        Option.map_some, String.ofList_toList]
      rfl
  | none =>
      have hcode : (valueCode none).toList =
          Char.ofNat 0x60 :: ("Basic $\x7bcredentials\x7d".toList ++ [Char.ofNat 0x60]) := by
        decide
      have hinside : ∀ c ∈ "Basic $\x7bcredentials\x7d".toList, isBacktick c = false := by
        decide
      rw [hcode, List.cons_append, List.append_assoc, List.singleton_append, value?,
        enclosed?_append (by decide) (by decide) (by decide) hinside]
      · rfl
      · exact fun _ h => absurd (List.cons.inj h).1 (by decide)

theorem stripStart_valueCode (value : Option String) (rest : List Char) :
    Text.stripStart ((valueCode value).toList ++ rest) = (valueCode value).toList ++ rest := by
  cases value with
  | some value => rw [valueCode, toList_quote, stripStart_quoteChars]
  | none => exact Text.stripStart_cons_of_not_blank (by decide) _

theorem readEntry_headerLine (entry : String × Option String) (rest : List Char) :
    readEntry ('\n' :: ((headerLine entry).toList ++ rest)) =
      some ((entry.1, entryValue entry.2), rest) := by
  have hcolon : behindMark? ':' (": ".toList ++ ((valueCode entry.2).toList ++
      (",".toList ++ rest))) = some ((valueCode entry.2).toList ++ (",".toList ++ rest)) := by
    have hmark := behindMark?_cons (by decide : Text.isBlank ':' = false)
      (' ' :: ((valueCode entry.2).toList ++ (",".toList ++ rest)))
    rw [Text.stripStart_cons_of_blank (by decide), stripStart_valueCode] at hmark
    exact hmark
  have hcomma : Text.dropExact? [','] (",".toList ++ rest) = some rest :=
    Text.dropExact?_eq_some_iff.2 rfl
  have hindent : Text.stripStart ('\n' :: ((headerLine entry).toList ++ rest)) =
      '\'' :: (entry.1.toList.flatMap escaped ++ '\'' :: (": ".toList ++
        ((valueCode entry.2).toList ++ (",".toList ++ rest)))) := by
    rw [headerLine_eq, Text.stripStart_cons_of_blank (by decide)]
    simp only [String.toList_append, toList_quote, List.append_assoc]
    rw [Text.stripStart_append_of_blank (by decide), stripStart_quoteChars, quoteChars_append]
  rw [readEntry, hindent]
  simp only [literal?_flatMap_escaped, Option.bind_some, hcolon, value?_valueCode, hcomma,
    Option.map_some, String.ofList_toList]

theorem entries?_of_readEntry {code rest : List Char} {entry : String × EntryValue}
    (h : readEntry code = some (entry, rest)) : entries? code = (entries? rest).map (entry :: ·) := by
  rw [entries?]
  split
  · next hentry =>
      obtain ⟨rfl, rfl⟩ := Prod.mk.inj (Option.some.inj (hentry.symm.trans h))
      rfl
  · next hnone => cases hnone.symm.trans h

/-- The lines of some entries, with what follows the block. -/
theorem entries?_append (entries : List (String × Option String)) (rest : List Char) :
    entries? (entries.flatMap (fun entry => '\n' :: (headerLine entry).toList) ++
      ("\n  \x7d".toList ++ rest)) =
        some (entries.map fun entry => (entry.1, entryValue entry.2)) := by
  induction entries with
  | nil =>
      have hclosing : Text.stripStart ("\n  \x7d".toList ++ rest) = '\x7d' :: rest := by
        rfl
      have hentry : readEntry ("\n  \x7d".toList ++ rest) = none := by
        rw [readEntry, hclosing]
        rfl
      rw [List.flatMap_nil, List.nil_append, entries?]
      split
      · next hsome => cases hentry.symm.trans hsome
      · rw [behindMark?, hclosing]
        rfl
  | cons entry entries ih =>
      rw [List.flatMap_cons, List.append_assoc, List.cons_append,
        entries?_of_readEntry (readEntry_headerLine entry _), ih]
      rfl

/-! ## Finding the block -/

/-- Code that has no block of headers, and in which all string literals end. -/
def HasNoBlock (code : List Char) : Prop := ∀ rest, block? (code ++ rest) = block? rest

theorem HasNoBlock.append {a b : List Char} (ha : HasNoBlock a) (hb : HasNoBlock b) :
    HasNoBlock (a ++ b) := by
  intro rest
  rw [List.append_assoc, ha, hb]

theorem block?_cons_of_key?_eq_none {c : Char} {rest : List Char}
    (h : (key? "headers" (c :: rest)).bind (Text.dropExact? ['\x7b']) = none) (hc : c ≠ '\'') :
    block? (c :: rest) = block? rest := by
  rw [block?]
  simp only [h, if_neg hc]

theorem hasNoBlock_of_not_mem {code : List Char} (hquote : '\'' ∉ code)
    (hword : Text.lacksWordEverywhere "headers".toList ':' code = true) : HasNoBlock code := by
  intro rest
  have hmisses := (needsWord_key "headers" (Text.dropExact? ['\x7b'])).misses hword
  clear hword
  induction code with
  | nil => rfl
  | cons c code ih =>
      simp only [List.mem_cons, not_or] at hquote
      have hnone := hmisses (c :: code) rest (by simp) (List.suffix_refl _)
      exact (block?_cons_of_key?_eq_none hnone (Ne.symm hquote.1)).trans
        (ih hquote.2 hmisses.of_cons)

theorem hasNoBlock_quoteChars (s : List Char) : HasNoBlock (quoteChars s) := by
  intro rest
  have hkey : key? "headers" ('\'' :: (s.flatMap escaped ++ '\'' :: rest)) = none := rfl
  rw [quoteChars_append, block?]
  simp only [hkey, Option.bind_none, if_pos]
  split
  · next hliteral =>
      rw [literal?_flatMap_escaped] at hliteral
      rw [(Prod.mk.inj (Option.some.inj hliteral)).2]
  · next hnone => cases (literal?_flatMap_escaped s rest).symm.trans hnone

/-- A line with one text in quotes. -/
theorem hasNoBlock_line {front behind : String}
    (hfront : HasNoBlock front.toList) (hbehind : HasNoBlock behind.toList) (s : String) :
    HasNoBlock (front ++ quote s ++ behind).toList := by
  rw [String.toList_append, String.toList_append, toList_quote]
  exact (hfront.append (hasNoBlock_quoteChars s.toList)).append hbehind

theorem HasNoBlock.flatMap {lines : List String} (h : ∀ line ∈ lines, HasNoBlock line.toList) :
    HasNoBlock (lines.flatMap fun line => '\n' :: line.toList) := by
  induction lines with
  | nil => exact fun _ => rfl
  | cons line lines ih =>
      have hbreak : HasNoBlock ['\n'] := hasNoBlock_of_not_mem (by decide) (by decide)
      rw [List.flatMap_cons]
      exact (hbreak.append (h line (by simp))).append
        (ih fun other hmem => h other (List.mem_cons_of_mem line hmem))

/-- Lines without a block of headers are passed over. -/
theorem block?_intercalate {line : String} {lines : List String}
    (h : ∀ other ∈ line :: lines, HasNoBlock other.toList) (more : List String) :
    block? ("\n".intercalate (line :: lines ++ more)).toList =
      block? (more.flatMap fun line => '\n' :: line.toList) := by
  rw [List.forall_mem_cons] at h
  rw [String.toList_intercalate, List.cons_append, List.map_cons, Text.intercalate_cons, h.1,
    List.flatMap_map, List.flatMap_append]
  exact HasNoBlock.flatMap h.2 _

theorem block?_headers (rest : List Char) :
    block? ('\n' :: ("  headers: \x7b".toList ++ rest)) = some rest := by
  have hspaces : HasNoBlock "\n  ".toList :=
    hasNoBlock_of_not_mem (by decide) (by decide)
  have hkey : key? "headers" ("headers".toList ++ ':' :: ' ' :: '\x7b' :: rest) =
      some ('\x7b' :: rest) := by
    rw [key?_append, Text.stripStart_cons_of_blank (by decide),
      Text.stripStart_cons_of_not_blank (by decide)]
  have hbrace : Text.dropExact? ['\x7b'] ('\x7b' :: rest) = some rest :=
    Text.dropExact?_eq_some_iff.2 rfl
  have hfound : block? ("headers".toList ++ ':' :: ' ' :: '\x7b' :: rest) = some rest := by
    rw [block?.eq_def]
    simp only [hkey, Option.bind_some, hbrace]
  exact (hspaces _).trans hfound

/-! ## The block in a call -/

theorem headerLines_of_credentials {request : Request} (h : request.credentials.isSome) :
    headerLines request =
      ["  headers: \x7b"] ++ (headerEntries request).map headerLine ++ ["  \x7d,"] := by
  have hne : headerEntries request ≠ [] := by
    rw [headerEntries, if_pos h]
    exact List.ne_nil_of_mem (Assoc.mem_set _ _ _)
  unfold headerLines
  split
  · next hnil => exact absurd hnil hne
  · rfl

def openingLines (request : Request) (credentials : Credentials) : List String :=
  ["const credentials = btoa(" ++ quote credentials.joined ++ ");", "",
    "const response = await fetch(" ++ quote request.url ++ ", \x7b",
    "  method: " ++ quote request.method.name ++ ","]

def openingTexts : List String :=
  ["const credentials = btoa(", ");", "", "const response = await fetch(", ", \x7b",
    "  method: ", ","]

theorem hasNoBlock_of_mem_openingTexts : ∀ text ∈ openingTexts, HasNoBlock text.toList := by
  have hlacks : ∀ text ∈ openingTexts, '\'' ∉ text.toList ∧
      Text.lacksWordEverywhere "headers".toList ':' text.toList = true := by
    decide +kernel
  exact fun text hmem => hasNoBlock_of_not_mem (hlacks text hmem).1 (hlacks text hmem).2

theorem hasNoBlock_of_mem_openingLines (request : Request) (credentials : Credentials) :
    ∀ line ∈ openingLines request credentials, HasNoBlock line.toList := by
  have hline : ∀ front ∈ openingTexts, ∀ behind ∈ openingTexts, ∀ s : String,
      HasNoBlock (front ++ quote s ++ behind).toList := fun front hfront behind hbehind =>
    hasNoBlock_line (hasNoBlock_of_mem_openingTexts front hfront)
      (hasNoBlock_of_mem_openingTexts behind hbehind)
  simp only [openingLines, List.forall_mem_cons]
  exact ⟨hline _ (by simp [openingTexts]) _ (by simp [openingTexts]) _,
    hasNoBlock_of_mem_openingTexts "" (by simp [openingTexts]),
    hline _ (by simp [openingTexts]) _ (by simp [openingTexts]) _,
    hline _ (by simp [openingTexts]) _ (by simp [openingTexts]) _, by simp⟩

theorem exists_lines {request : Request} {credentials : Credentials}
    (h : request.credentials = some credentials) :
    ∃ behind, lines request = openingLines request credentials ++
      "  headers: \x7b" :: ((headerEntries request).map headerLine ++ "  \x7d," :: behind) := by
  have hoptions : request.hasOptions = true := by
    rw [Request.hasOptions, h, Option.isSome_some, Bool.or_true]
  refine ⟨(request.content.toList.map fun body => "  body: " ++ bodyExpression body ++ ",") ++
    ["\x7d);", "", "const data = await response.json();", "console.log(data);"], ?_⟩
  rw [lines, if_pos hoptions, headerLines_of_credentials (by rw [h]; rfl), h, openingLines]
  simp only [Option.toList_some, List.flatMap_singleton, List.append_assoc, List.cons_append,
    List.nil_append]

/-- The entries of the block are the headers of the request, with the one of the credentials. -/
theorem sentEntries?_render {request : Request} (h : request.credentials.isSome) :
    sentEntries? (render request) =
      some ((headerEntries request).map fun entry => (entry.1, entryValue entry.2)) := by
  obtain ⟨credentials, hcredentials⟩ := Option.isSome_iff_exists.1 h
  obtain ⟨behind, hlines⟩ := exists_lines hcredentials
  have hclosing : "\n  \x7d,".toList = "\n  \x7d".toList ++ [','] := by decide
  have hblock : block? (render request).toList =
      some ((headerEntries request).flatMap (fun entry => '\n' :: (headerLine entry).toList) ++
        ("\n  \x7d".toList ++ ',' :: behind.flatMap fun line => '\n' :: line.toList)) := by
    rw [render, hlines, openingLines,
      block?_intercalate (hasNoBlock_of_mem_openingLines request credentials), List.flatMap_cons,
      List.cons_append, block?_headers, List.flatMap_append, List.flatMap_map, List.flatMap_cons]
    rfl
  rw [sentEntries?, hblock, Option.bind_some, entries?_append]

/-! ## The header of the credentials -/

/-- Whether a header is the one that credentials are sent in, whatever the cases of its name. -/
def isAuthorization (name : String) : Bool := Text.sameIgnoringCase name "authorization"

def credentialsEntry (name : String) : String × EntryValue := (name, entryValue none)

section Entries

variable {request : Request} (h : request.credentials.isSome)

include h

theorem headerEntries_of_credentials :
    headerEntries request = Assoc.set "Authorization" none
      (request.headers.entries.map fun header => (header.1, some header.2)) :=
  if_pos h

theorem mem_keys_headerEntries {name : String} :
    name ∈ (headerEntries request).map Prod.fst ↔
      name ∈ request.headers.entries.map Prod.fst ∨ name = "Authorization" := by
  rw [headerEntries_of_credentials h, Assoc.keys_set, List.map_map]
  change name ∈ (if "Authorization" ∈ request.headers.entries.map Prod.fst then _ else _) ↔ _
  split
  · next hmem => exact ⟨Or.inl, fun hor => hor.elim id fun heq => heq ▸ hmem⟩
  · exact List.mem_append.trans (or_congr_right List.mem_singleton)

theorem nodup_keys_headerEntries : ((headerEntries request).map Prod.fst).Nodup := by
  rw [headerEntries_of_credentials h]
  apply Assoc.nodup_keys_set
  rw [List.map_map]
  exact request.headers.nodup_names

theorem filter_headerEntries {p : String → Bool} (hp : p "Authorization" = false) :
    (headerEntries request).filter (fun entry => p entry.1) =
      (request.headers.entries.filter fun header => p header.1).map
        fun header => (header.1, some header.2) := by
  rw [headerEntries_of_credentials h, Assoc.filter_set_of_eq_false hp, List.filter_map]
  rfl

theorem filter_headerEntries_eq_singleton :
    ((headerEntries request).filter fun entry => entry.1 = "Authorization") =
      [("Authorization", none)] := by
  apply Assoc.filter_eq_singleton (nodup_keys_headerEntries h)
  rw [headerEntries_of_credentials h]
  exact Assoc.mem_set _ _ _

/-- The credentials are the only entry of a name that ignores cases exactly if no header spells the
name in another way. -/
theorem filter_headerEntries_eq_singleton_iff {p : String → Bool} (hp : p "Authorization" = true) :
    (∃ name, ((headerEntries request).filter fun entry => p entry.1) = [(name, none)]) ↔
      ∀ header ∈ request.headers.entries, p header.1 → header.1 = "Authorization" := by
  constructor
  · rintro ⟨name, hfilter⟩ header hheader hpheader
    have hname : ∀ key ∈ (headerEntries request).map Prod.fst, p key = true → key = name := by
      intro key hkey hpkey
      obtain ⟨entry, hentry, rfl⟩ := List.mem_map.1 hkey
      have hfound : entry ∈ (headerEntries request).filter fun entry => p entry.1 :=
        List.mem_filter.2 ⟨hentry, hpkey⟩
      rw [hfilter, List.mem_singleton] at hfound
      rw [hfound]
    have hkey := (mem_keys_headerEntries h).2 (Or.inl (List.mem_map_of_mem hheader))
    rw [hname _ hkey hpheader, hname _ ((mem_keys_headerEntries h).2 (Or.inr rfl)) hp]
  · intro hnames
    have hall : ∀ key ∈ (headerEntries request).map Prod.fst,
        p key = true → key = "Authorization" := by
      intro key hkey hpkey
      rcases (mem_keys_headerEntries h).1 hkey with hgiven | heq
      · obtain ⟨header, hheader, rfl⟩ := List.mem_map.1 hgiven
        exact hnames header hheader hpkey
      · exact heq
    refine ⟨"Authorization", ?_⟩
    rw [← filter_headerEntries_eq_singleton h]
    apply List.filter_congr
    intro entry hentry
    rw [Bool.eq_iff_iff, decide_eq_true_iff]
    exact ⟨hall _ (List.mem_map_of_mem hentry), fun heq => heq ▸ hp⟩

end Entries

/-- The value of an entry tells whether it is the one of the credentials. -/
theorem map_entryValue_eq_singleton_iff {entries : List (String × Option String)} {name : String} :
    entries.map (fun entry => (entry.1, entryValue entry.2)) = [credentialsEntry name] ↔
      entries = [(name, none)] := by
  constructor
  · intro heq
    obtain ⟨⟨key, value⟩, rfl, hentry⟩ := List.map_eq_singleton_iff.1 heq
    obtain ⟨rfl, hvalue⟩ := Prod.mk.inj hentry
    cases value with
    | none => rfl
    | some value => cases hvalue
  · rintro rfl
    rfl

/-- A call with credentials sends them in one header, and the other headers as they were given and
in their order. It is the only header that has this name, whatever the cases, exactly if no header
of the request spells the name in another way. -/
theorem authorization_render_iff {request : Request} (h : request.credentials.isSome) :
    ∃ entries, sentEntries? (render request) = some entries ∧
      (entries.filter fun entry => !isAuthorization entry.1) =
        (request.headers.entries.filter fun header => !isAuthorization header.1).map
          (fun header => (header.1, .literal header.2)) ∧
      (entries.filter fun entry => entry.1 = "Authorization") =
        [credentialsEntry "Authorization"] ∧
      ((∃ name, (entries.filter fun entry => isAuthorization entry.1) = [credentialsEntry name]) ↔
        ∀ header ∈ request.headers.entries, isAuthorization header.1 →
          header.1 = "Authorization") := by
  have hname : isAuthorization "Authorization" = true := by decide +kernel
  have hother : (!isAuthorization "Authorization") = false := by rw [hname]; rfl
  refine ⟨_, sentEntries?_render h, ?_, ?_, ?_⟩
  · rw [List.filter_map]
    have hfilter := filter_headerEntries h (p := fun name => !isAuthorization name) hother
    exact (congrArg _ hfilter).trans (List.map_map ..)
  · rw [List.filter_map]
    exact congrArg _ (filter_headerEntries_eq_singleton h)
  · rw [← filter_headerEntries_eq_singleton_iff h hname, List.filter_map]
    exact exists_congr fun name => map_entryValue_eq_singleton_iff

/-- Texts with quotes, backslashes and line breaks, and a header that the credentials replace. -/
theorem authorization_render_of_quotes :
    let request : Request := {
      url := "/\\'',\n  headers: \x7b"
      headers := .ofPairs [("A'", "\\"), ("Authorization", "a"), ("authorisation", "\n")]
      credentials := some ⟨"u", "p"⟩ }
    request.credentials.isSome ∧ ∃ entries, sentEntries? (render request) = some entries ∧
      (entries.filter fun entry => !isAuthorization entry.1) =
        [("A'", .literal "\\"), ("authorisation", .literal "\n")] ∧
      ∃ name, (entries.filter fun entry => isAuthorization entry.1) = [credentialsEntry name] := by
  intro request
  have hcredentials : request.credentials.isSome := rfl
  have hnames : ∀ header ∈ request.headers.entries, isAuthorization header.1 →
      header.1 = "Authorization" := by
    decide +kernel
  obtain ⟨entries, hentries, hothers, -, hone⟩ := authorization_render_iff hcredentials
  refine ⟨hcredentials, entries, hentries, hothers.trans ?_, hone.2 hnames⟩
  decide +kernel

/-- The same name in other cases is sent beside the one of the credentials. -/
theorem authorization_render_of_other_cases :
    let request : Request := {
      url := "/x"
      headers := .ofPairs [("authorization", "a")]
      credentials := some ⟨"u", "p"⟩ }
    sentEntries? (render request) =
        some [("authorization", .literal "a"), credentialsEntry "Authorization"] ∧
      ¬∃ entries, sentEntries? (render request) = some entries ∧
        ∃ name, (entries.filter fun entry => isAuthorization entry.1) = [credentialsEntry name] := by
  intro request
  have hsent : sentEntries? (render request) =
      some [("authorization", .literal "a"), credentialsEntry "Authorization"] :=
    (sentEntries?_render (by decide)).trans (by decide +kernel)
  refine ⟨hsent, ?_⟩
  rintro ⟨entries, hentries, name, hone⟩
  obtain rfl := Option.some.inj (hsent.symm.trans hentries)
  have htwo : ([("authorization", .literal "a"), credentialsEntry "Authorization"].filter
      fun entry => isAuthorization entry.1).length = 2 := by
    decide +kernel
  rw [hone] at htwo
  cases htwo

end RequestForms.Snippet.Fetch
