import RequestForms.Proofs.Headers
import RequestForms.Proofs.Method
import RequestForms.Proofs.Snippet.Literal
import RequestForms.Snippet.Literal
import RequestForms.Snippet.Pattern

/-!
# The block of headers

Both kinds of calls write their headers in the same block, one header a line. The pairs in the block
are the headers that it was written from.
-/

namespace RequestForms.Snippet

open Text (Misses)

/-! ## Members -/

section Member

variable {name : String} {shape : List Char → Option (List Char × List Char)}

theorem member?_append {front : List Char}
    (h : Misses (fun s => (key? name s).bind shape) front) (rest : List Char) :
    member? name shape (front ++ rest) = member? name shape rest :=
  (h.map Prod.fst).search?_append rest

theorem member?_eq_none {code : List Char} (hname : name ≠ "")
    (h : Misses (fun s => (key? name s).bind shape) code) : member? name shape code = none := by
  apply (h.map Prod.fst).search?_eq_none
  have hkey : key? name [] = none := by
    rw [key?, Text.dropExact?, if_neg]
    · rfl
    · rw [List.isPrefixOf_iff_prefix, List.prefix_nil]
      simpa using hname
  simp only [hkey]
  rfl

/-- A member is what its shape takes behind the name and a colon. -/
theorem member?_eq_some {front value rest behind : List Char}
    (h : Misses (fun s => (key? name s).bind shape) front)
    (hshape : shape (Text.stripStart rest) = some (value, behind)) :
    member? name shape (front ++ (name.toList ++ ':' :: rest)) = some value := by
  apply (h.map Prod.fst).search?_eq_some
  rw [key?_append, Option.bind_some, hshape]
  rfl

/-- What stands in braces is not found in a text without braces. -/
theorem member?_braced_eq_none {name : String} {code : List Char} (h : '\x7b' ∉ code) :
    member? name braced? code = none := by
  apply Text.search?_eq_none_of_suffix
  intro s hs
  cases hkey : key? name s with
  | none => rfl
  | some rest =>
      cases hbraced : braced? rest with
      | none => rw [Option.bind_some, hbraced]; rfl
      | some found =>
          exfalso
          obtain ⟨t, b, b', -, -, -, -, htext⟩ := exists_of_dropExact?_bind_behindMark? hkey
          obtain ⟨c, behind, rfl, hc⟩ := exists_of_enclosed? (by rw [← braced?, hbraced]; simp)
          obtain rfl := of_decide_eq_true hc
          exact h (hs.subset (by rw [htext]; simp))

end Member

/-! ## Lines -/

def headerLineChars (header : String × String) : List Char :=
  "    ".toList ++ quoteChars header.1.toList ++ ": ".toList ++ quoteChars header.2.toList ++
    ",\n".toList

def headerBlock (entries : List (String × String)) : List Char :=
  if entries = [] then []
  else "  headers: \x7b\n".toList ++ entries.flatMap headerLineChars ++ "  \x7d,\n".toList

/-- The lines of the block, each with a line break behind it. -/
theorem flatMap_headerLines {entries : List (String × String)} (h : entries ≠ []) :
    (["  headers: \x7b"] ++ entries.map (fun header =>
      "    " ++ quote header.1 ++ ": " ++ quote header.2 ++ ",") ++ ["  \x7d,"]).flatMap
        (fun line => line.toList ++ ['\n']) = headerBlock entries := by
  have hline : ∀ header : String × String,
      ("    " ++ quote header.1 ++ ": " ++ quote header.2 ++ ",").toList ++ ['\n'] =
        headerLineChars header := by
    intro header
    have hcomma : ",\n".toList = ",".toList ++ ['\n'] := by decide
    unfold headerLineChars
    simp only [String.toList_append, toList_quote, List.append_assoc, hcomma]
  have hopening : "  headers: \x7b\n".toList = "  headers: \x7b".toList ++ ['\n'] := by decide
  have hclosing : "  \x7d,\n".toList = "  \x7d,".toList ++ ['\n'] := by decide
  rw [headerBlock, if_neg h, hopening, hclosing]
  simp only [List.flatMap_append, List.flatMap_cons, List.flatMap_map, hline, List.append_assoc,
    List.flatMap_nil, List.append_nil]

def memberLine (name : String) (shown : String → String) (text : Option String) : List Char :=
  text.toList.flatMap fun text => name.toList ++ ((shown text).toList ++ ",\n".toList)

theorem memberLine_some (name : String) (shown : String → String) (text : String) :
    memberLine name shown (some text) = name.toList ++ ((shown text).toList ++ ",\n".toList) := by
  rw [memberLine, Option.toList_some, List.flatMap_singleton]

theorem flatMap_memberLine (name : String) (shown : String → String) (text : Option String) :
    (text.toList.map fun text => name ++ shown text ++ ",").flatMap
      (fun line => line.toList ++ ['\n']) = memberLine name shown text := by
  have hcomma : ",\n".toList = ",".toList ++ ['\n'] := by decide
  simp only [memberLine, List.flatMap_map, String.toList_append, List.append_assoc, hcomma]

def headerTexts : List String := ["    ", ": ", ",\n", "  headers: \x7b\n", "  \x7d,\n"]

def ArePlain (entries : List (String × String)) : Prop :=
  ∀ header ∈ entries, IsPlain header.1 ∧ IsPlain header.2

instance (entries : List (String × String)) : Decidable (ArePlain entries) :=
  inferInstanceAs (Decidable (∀ header ∈ entries, IsPlain header.1 ∧ IsPlain header.2))

def headerFields (entries : List (String × String)) : List String :=
  entries.flatMap fun header => [header.1, header.2]

theorem ArePlain.isPlain_of_mem {entries : List (String × String)} (h : ArePlain entries) :
    ∀ text ∈ headerFields entries, IsPlain text := by
  intro text hmem
  simp only [headerFields, List.mem_flatMap, List.mem_cons, List.not_mem_nil, or_false] at hmem
  obtain ⟨header, hheader, rfl | rfl⟩ := hmem
  · exact (h header hheader).1
  · exact (h header hheader).2

theorem misses_headerBlock {α : Type} {pattern : List Char → Option α}
    (htexts : ∀ text ∈ headerTexts, Misses pattern text.toList)
    {entries : List (String × String)} (h : MissesQuoted pattern (headerFields entries)) :
    Misses pattern (headerBlock entries) := by
  rw [headerBlock]
  split
  · exact Misses.nil
  · have hline : ∀ header ∈ entries, Misses pattern (headerLineChars header) := by
      intro header hmem
      have hname := h header.1 (List.mem_flatMap.2 ⟨header, hmem, by simp⟩)
      have hvalue := h header.2 (List.mem_flatMap.2 ⟨header, hmem, by simp⟩)
      exact ((((htexts "    " (by decide)).append hname).append (htexts ": " (by decide))).append
        hvalue).append (htexts ",\n" (by decide))
    have hlines := Misses.flatMap hline
    exact ((htexts "  headers: \x7b\n" (by decide)).append hlines).append
      (htexts "  \x7d,\n" (by decide))

/-- A request whose method, address and headers survive in every call. -/
@[mk_iff] structure HasPlainTexts (request : Request) : Prop where
  method : request.method.IsPlainName
  url : IsPlain request.url
  headers : ArePlain request.headers.entries

instance (request : Request) : Decidable (HasPlainTexts request) :=
  decidable_of_iff _ (hasPlainTexts_iff request).symm

/-! ## Pairs -/

theorem pairs_cons_of_not_quote {c : Char} (h : isQuote c = false) (s : List Char) :
    pairs (c :: s) = pairs s := by
  have hpair : pair? (c :: s) = none := by
    rw [pair?, quoted?, enclosed?, if_neg (by simp [h])]
  rw [pairs]
  split
  · next hsome =>
      rw [hpair] at hsome
      cases hsome
  · rfl

theorem pairs_append_of_not_quote {front : List Char} (h : ∀ c ∈ front, isQuote c = false)
    (s : List Char) : pairs (front ++ s) = pairs s := by
  induction front with
  | nil => rfl
  | cons c front ih =>
      rw [List.cons_append, pairs_cons_of_not_quote (h c (by simp))]
      exact ih fun d hd => h d (List.mem_cons_of_mem c hd)

theorem pairs_nil : pairs [] = [] := by
  rw [pairs]
  rfl

theorem pairs_of_not_quote {s : List Char} (h : ∀ c ∈ s, isQuote c = false) : pairs s = [] := by
  rw [← List.append_nil s, pairs_append_of_not_quote h, pairs_nil]

theorem pairs_of_pair? {s rest : List Char} {pair : List Char × List Char}
    (h : pair? s = some (pair, rest)) : pairs s = pair :: pairs rest := by
  rw [pairs]
  split
  · next hsome =>
      rw [h] at hsome
      cases hsome
      rfl
  · next hnone =>
      rw [h] at hnone
      cases hnone

theorem stripStart_quoteChars (s rest : List Char) :
    Text.stripStart (quoteChars s ++ rest) = quoteChars s ++ rest :=
  Text.stripStart_cons_of_not_blank (by decide) _

theorem pair?_eq_some {s name value colon rest behind : List Char}
    (hname : quoted? s = some (name, colon)) (hcolon : behindMark? ':' colon = some rest)
    (hvalue : quoted? rest = some (value, behind)) :
    pair? s = some ((name, value), behind) := by
  simp only [pair?, hname, hcolon, hvalue]

theorem pair?_quoteChars {name value : String} (hname : IsPlain name) (hvalue : IsPlain value)
    (rest : List Char) :
    pair? (quoteChars name.toList ++ (": ".toList ++ (quoteChars value.toList ++ rest))) =
      some ((name.toList, value.toList), rest) := by
  have hmark : behindMark? ':' (": ".toList ++ (quoteChars value.toList ++ rest)) =
      some (quoteChars value.toList ++ rest) := by
    change behindMark? ':' (':' :: ' ' :: (quoteChars value.toList ++ rest)) = _
    rw [behindMark?_cons (by decide), Text.stripStart_cons_of_blank (by decide),
      stripStart_quoteChars]
  exact pair?_eq_some (quoted?_quoteChars hname.toList_ne_nil hname.not_markup _) hmark
    (quoted?_quoteChars hvalue.toList_ne_nil hvalue.not_markup rest)

theorem pairs_headerLine {header : String × String} (hname : IsPlain header.1)
    (hvalue : IsPlain header.2) (rest : List Char) :
    pairs (headerLineChars header ++ rest) = (header.1.toList, header.2.toList) :: pairs rest := by
  have hline : headerLineChars header ++ rest = "    ".toList ++ (quoteChars header.1.toList ++
      (": ".toList ++ (quoteChars header.2.toList ++ (",\n".toList ++ rest)))) := by
    unfold headerLineChars
    simp only [List.append_assoc]
  have hend : ∀ c ∈ ",\n".toList, isQuote c = false := by decide
  rw [hline, pairs_append_of_not_quote (by decide),
    pairs_of_pair? (pair?_quoteChars hname hvalue _), pairs_append_of_not_quote hend]

/-- The pairs in the lines are the headers that they were written from. -/
theorem pairs_flatMap_headerLine {entries : List (String × String)} (h : ArePlain entries)
    (rest : List Char) :
    pairs (entries.flatMap headerLineChars ++ rest) =
      (entries.map fun header => (header.1.toList, header.2.toList)) ++ pairs rest := by
  induction entries with
  | nil => rfl
  | cons header entries ih =>
      obtain ⟨hname, hvalue⟩ := h header (by simp)
      rw [List.flatMap_cons, List.append_assoc, pairs_headerLine hname hvalue,
        ih fun e he => h e (List.mem_cons_of_mem header he)]
      rfl

/-! ## The block -/

theorem brace_not_mem_quoteChars {text : String} (h : IsPlainOrEmpty text) {c : Char}
    (hc : c = '\x7b' ∨ c = '\x7d') : c ∉ quoteChars text.toList := by
  rw [quoteChars_eq h.not_markup]
  intro hmem
  have hmarkup : isMarkup c = true := by
    rcases hc with rfl | rfl <;> decide
  have hquote : c ≠ '\'' := by
    rcases hc with rfl | rfl <;> decide
  simp only [List.mem_append, List.mem_cons, List.not_mem_nil, or_false, hquote,
    false_or] at hmem
  rw [h.not_markup c hmem] at hmarkup
  cases hmarkup

theorem brace_not_mem_headerLines {entries : List (String × String)} (h : ArePlain entries)
    {c : Char} (hc : c = '\x7b' ∨ c = '\x7d') : c ∉ entries.flatMap headerLineChars := by
  intro hmem
  obtain ⟨header, hheader, hmem⟩ := List.mem_flatMap.1 hmem
  obtain ⟨hname, hvalue⟩ := h header hheader
  have hcode : ∀ text ∈ ["    ", ": ", ",\n"], c ∉ text.toList := by
    rcases hc with rfl | rfl <;> decide
  unfold headerLineChars at hmem
  simp only [List.mem_append] at hmem
  rcases hmem with (((hmem | hmem) | hmem) | hmem) | hmem
  · exact hcode "    " (by simp) hmem
  · exact brace_not_mem_quoteChars (Or.inr hname) hc hmem
  · exact hcode ": " (by simp) hmem
  · exact brace_not_mem_quoteChars (Or.inr hvalue) hc hmem
  · exact hcode ",\n" (by simp) hmem

def headersPattern (s : List Char) : Option (List Char × List Char) :=
  (key? "headers" s).bind braced?

/-- The headers of a call are those that its block was written from. -/
theorem headersOf_headerBlock {headers : Headers} (hplain : ArePlain headers.entries)
    {front rest : List Char} (hfront : Misses headersPattern front)
    (hrest : headers.entries = [] → member? "headers" braced? rest = none) :
    headersOf (front ++ (headerBlock headers.entries ++ rest)) = headers := by
  rw [headersOf, member?_append hfront, headerBlock]
  by_cases hempty : headers.entries = []
  · rw [if_pos hempty, List.nil_append, hrest hempty]
    exact Headers.eq_of_entries_eq hempty.symm
  · have hblock : member? "headers" braced?
        ("  ".toList ++ ("headers".toList ++ ':' :: ' ' :: '\x7b' ::
          (('\n' :: (headers.entries.flatMap headerLineChars ++ "  ".toList)) ++
            '\x7d' :: (",\n".toList ++ rest)))) =
          some ('\n' :: (headers.entries.flatMap headerLineChars ++ "  ".toList)) := by
      have hclose : '\x7d' ∉ '\n' :: (headers.entries.flatMap headerLineChars ++ "  ".toList) := by
        have hlines := brace_not_mem_headerLines hplain (c := '\x7d') (Or.inr rfl)
        simp [hlines]
      apply member?_eq_some
      · exact (needsWord_key "headers" braced?).misses (by decide)
      · rw [Text.stripStart_cons_of_blank (by decide),
          Text.stripStart_cons_of_not_blank (by decide)]
        exact bracketed_append '\x7b' (by simp) hclose _
    have htext : "  headers: \x7b\n".toList ++ headers.entries.flatMap headerLineChars ++
        "  \x7d,\n".toList ++ rest = "  ".toList ++ ("headers".toList ++ ':' :: ' ' :: '\x7b' ::
          (('\n' :: (headers.entries.flatMap headerLineChars ++ "  ".toList)) ++
            '\x7d' :: (",\n".toList ++ rest))) := by
      simp only [List.append_assoc, List.cons_append]
      rfl
    rw [if_neg hempty, htext, hblock]
    have hpairs : (pairs ('\n' :: (headers.entries.flatMap headerLineChars ++ "  ".toList))).map
        (fun pair => (String.ofList pair.1, String.ofList pair.2)) = headers.entries := by
      rw [pairs_cons_of_not_quote (by decide), pairs_flatMap_headerLine hplain,
        pairs_of_not_quote (by decide)]
      simp [Function.comp_def]
    change Headers.ofPairs ((pairs _).map _) = headers
    rw [hpairs, Headers.ofPairs_entries]

end RequestForms.Snippet
