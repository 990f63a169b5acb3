import RequestForms.Proofs.Snippet.Fetch
import RequestForms.Proofs.Snippet.Headers.Expressions

/-!
# The members of a call in any order

Each part of a call is looked for by its name, and in a call with plain texts no pattern fits
anywhere but at its own member. So it does not matter in which order the members stand.
-/

namespace RequestForms.Snippet.Fetch

open Text (Misses)

/-! ## Calls -/

/-- What the members of a call give. No headers at all are no member. -/
structure Given where
  method : Option String := none
  headers : Headers := Headers.empty
  body : Option String := none

def methodChars : List Char :=
  "ABCDEFGHIJKLMNOPQRSTUVWXYZabcdefghijklmnopqrstuvwxyz0123456789_".toList

@[mk_iff] structure Given.IsPlain (given : Given) : Prop where
  method : ∀ method ∈ given.method, ∀ c ∈ method.toList, c ∈ methodChars
  headers : ArePlain given.headers.entries
  body : ∀ body ∈ given.body, Snippet.IsPlain body

instance (given : Given) : Decidable given.IsPlain := decidable_of_iff _ (given.isPlain_iff).symm

def quotedMember (name text : String) : String := name ++ ": '" ++ text ++ "'"

def quotedEntries (headers : List (String × String)) : List Entry :=
  headers.map fun header => .quoted header.1 header.2

def headersMember (headers : List (String × String)) : String :=
  "headers: \x7b" ++ entriesCode (quotedEntries headers) ++ "\x7d"

def memberNames : List String := ["method", "headers", "body"]

def Given.member? (given : Given) (name : String) : Option String :=
  if name = "method" then given.method.map (quotedMember "method")
  else if name = "headers" then
    if given.headers.entries = [] then none else some (headersMember given.headers.entries)
  else given.body.map (quotedMember "body")

def Given.members (given : Given) : List String := memberNames.filterMap given.member?

def callOf (url : String) (members : List String) : String :=
  "fetch('" ++ url ++ "', \x7b " ++ ", ".intercalate members ++ " \x7d)"

theorem toList_quotedMember {text : String} (h : ∀ c ∈ text.toList, isMarkup c = false)
    (name : String) :
    (quotedMember name text).toList =
      name.toList ++ ':' :: ' ' :: quoteChars text.toList := by
  have hcolon : ": '".toList = [':', ' ', '\''] := by decide
  rw [quotedMember, quoteChars_eq h]
  simp only [String.toList_append, hcolon, List.append_assoc]
  rfl

theorem toList_callOf {url : String} (h : IsPlain url) (members : List String) :
    (callOf url members).toList = "fetch(".toList ++ (quoteChars url.toList ++
      (", \x7b ".toList ++ ((", ".intercalate members).toList ++ " \x7d)".toList))) := by
  have hopening : "fetch('".toList = "fetch(".toList ++ ['\''] := by decide
  have hcomma : "', \x7b ".toList = '\'' :: ", \x7b ".toList := by decide
  rw [callOf, quoteChars_eq h.not_markup]
  simp only [String.toList_append, hopening, hcomma, List.append_assoc]
  rfl

/-! ## Headers in quotes -/

section Quoted

variable {headers : List (String × String)}

theorem exists_of_mem_quotedEntries {entry : Entry} (h : entry ∈ quotedEntries headers) :
    ∃ header ∈ headers, entry = .quoted header.1 header.2 := by
  obtain ⟨header, hheader, rfl⟩ := List.mem_map.1 h
  exact ⟨header, hheader, rfl⟩

theorem filterMap_header?_quotedEntries (headers : List (String × String)) :
    (quotedEntries headers).filterMap Entry.header? = headers := by
  rw [quotedEntries, List.filterMap_map]
  exact List.filterMap_some

theorem isWhole_of_mem_quotedEntries (h : ArePlain headers) :
    ∀ entry ∈ quotedEntries headers, entry.IsWhole := by
  intro entry hentry
  obtain ⟨header, hheader, rfl⟩ := exists_of_mem_quotedEntries hentry
  obtain ⟨hname, hvalue⟩ := h header hheader
  exact ⟨hname.isInside, hvalue.isInside, trivial⟩

/-- Where all values are in quotes, the pairs are the headers. -/
theorem pairs_quotedEntries (h : ArePlain headers) :
    pairs (entriesCode (quotedEntries headers)).toList =
      headers.map fun header => (header.1.toList, header.2.toList) := by
  rw [pairs_entriesCode (isWhole_of_mem_quotedEntries h), filterMap_header?_quotedEntries]
  intro entry hentry hnone
  obtain ⟨header, -, rfl⟩ := exists_of_mem_quotedEntries hentry
  cases hnone

theorem toList_headersMember (headers : List (String × String)) :
    (headersMember headers).toList = "headers".toList ++ ':' :: ' ' :: '\x7b' ::
      ((entriesCode (quotedEntries headers)).toList ++ ['\x7d']) := by
  rw [headersMember, String.toList_append, String.toList_append, List.append_assoc]
  rfl

theorem toList_code_of_plain {name value : String} (hname : IsPlain name) (hvalue : IsPlain value) :
    (Entry.quoted name value).code.toList =
      quoteChars name.toList ++ (": ".toList ++ quoteChars value.toList) := by
  have hcode := Entry.toList_quoted_code name value []
  rw [List.append_nil] at hcode
  rw [hcode, quoteChars_eq hname.not_markup, quoteChars_eq hvalue.not_markup, List.append_assoc]
  rfl

end Quoted

/-! ## What the patterns miss -/

def memberTexts : List (String × String) :=
  [("method", "method: "), ("headers", "headers: \x7b"), ("body", "body: ")]

def callTexts : List String := ["fetch(", ", \x7b ", ", ", ": ", " ", "\x7d", " \x7d)"]

def memberPattern (name : String) (shape : List Char → Option (List Char × List Char)) :
    List Char → Option (List Char × List Char) := fun s => (key? name s).bind shape

section Misses

variable {name : String} (hname : name ∈ memberNames)
  {shape : List Char → Option (List Char × List Char)}

include hname

variable (shape) in
theorem misses_of_mem_callTexts :
    ∀ text ∈ callTexts, Misses (memberPattern name shape) text.toList := by
  have hlacks : ∀ name ∈ memberNames, ∀ text ∈ callTexts,
      Text.lacksWordEverywhere name.toList ':' text.toList = true := by
    decide +kernel
  exact (needsWord_key name shape).misses_of_mem (hlacks name hname)

variable (shape) in
theorem misses_of_mem_memberTexts :
    ∀ text ∈ memberTexts, text.1 ≠ name → Misses (memberPattern name shape) text.2.toList := by
  have hlacks : ∀ name ∈ memberNames, ∀ text ∈ memberTexts, text.1 ≠ name →
      Text.lacksWordEverywhere name.toList ':' text.2.toList = true := by
    decide +kernel
  exact fun text hmem hne => (needsWord_key name shape).misses (hlacks name hname text hmem hne)

theorem reachesMarkup_memberPattern (hshape : ShowsMarkup shape) :
    ReachesMarkup (memberPattern name shape) := by
  have hmarkup : ∀ name ∈ memberNames, ∀ c ∈ name.toList, isMarkup c = false := by
    decide
  exact reachesMarkup_key name (hmarkup name hname) hshape

variable (hshape : ShowsMarkup shape)

include hshape

theorem misses_quotedMember {other text : String} (hother : (other, other ++ ": ") ∈ memberTexts)
    (hne : other ≠ name) (htext : IsPlainOrEmpty text) :
    Misses (memberPattern name shape) (quotedMember other text).toList := by
  have hfront := misses_of_mem_memberTexts hname shape _ hother hne
  have hquoted := (reachesMarkup_memberPattern hname hshape).misses_quoteChars htext
  have htext : (quotedMember other text).toList =
      (other ++ ": ").toList ++ quoteChars text.toList := by
    rw [toList_quotedMember htext.not_markup, String.toList_append, List.append_assoc]
    rfl
  rw [htext]
  exact hfront.append hquoted

theorem misses_quotedEntries {headers : List (String × String)} (hheaders : ArePlain headers) :
    Misses (memberPattern name shape) (entriesCode (quotedEntries headers)).toList := by
  have htexts := misses_of_mem_callTexts hname shape
  have hblank : Misses (memberPattern name shape) [' '] := htexts " " (by decide)
  have hmarkup := reachesMarkup_memberPattern hname hshape
  have hentry : ∀ entry ∈ quotedEntries headers,
      Misses (memberPattern name shape) entry.code.toList := by
    intro entry hentry
    obtain ⟨header, hheader, rfl⟩ := exists_of_mem_quotedEntries hentry
    obtain ⟨hkey, hvalue⟩ := hheaders header hheader
    rw [toList_code_of_plain hkey hvalue]
    exact (hmarkup.misses_quoteChars (Or.inr hkey)).append
      ((htexts ": " (by decide)).append (hmarkup.misses_quoteChars (Or.inr hvalue)))
  generalize quotedEntries headers = entries at hentry
  cases entries with
  | nil => exact hblank.append hblank
  | cons entry entries =>
      rw [List.forall_mem_cons] at hentry
      have hothers : Misses (memberPattern name shape)
          (entries.flatMap fun other => ',' :: ' ' :: other.code.toList) :=
        Misses.flatMap fun other hother => (htexts ", " (by decide)).append (hentry.2 other hother)
      rw [toList_entriesCode_cons]
      exact hblank.append (hentry.1.append (hothers.append hblank))

theorem misses_headersMember (hne : "headers" ≠ name) {headers : List (String × String)}
    (hheaders : ArePlain headers) :
    Misses (memberPattern name shape) (headersMember headers).toList := by
  have hfront := misses_of_mem_memberTexts hname shape ("headers", "headers: \x7b")
    (by decide) hne
  have hclosing := misses_of_mem_callTexts hname shape "\x7d" (by decide)
  rw [headersMember, String.toList_append, String.toList_append]
  exact (hfront.append (misses_quotedEntries hname hshape hheaders)).append hclosing

omit hshape in
/-- A member with a text that does not have the shape is no find. -/
theorem misses_quotedMember_of_shape {text : String} (hshape : ShowsMarkup shape)
    (htext : IsPlainOrEmpty text)
    (hnone : ∀ behind, shape (quoteChars text.toList ++ behind) = none) :
    Misses (memberPattern name shape) (quotedMember name text).toList := by
  have hquoted := (reachesMarkup_memberPattern hname hshape).misses_quoteChars htext
  have hlacks : ∀ name ∈ memberNames, name.toList ≠ [] ∧
      Text.lacksWordEverywhere name.toList ':' (name.toList.tail ++ [':', ' ']) = true := by
    decide +kernel
  obtain ⟨hne, htail⟩ := hlacks name hname
  have hbehind := (needsWord_key name shape).misses htail
  have hkey : ∀ behind, memberPattern name shape
      (name.toList ++ ':' :: ' ' :: (quoteChars text.toList ++ behind)) = none := by
    intro behind
    rw [memberPattern, key?_append, Option.bind_some, Text.stripStart_cons_of_blank (by decide),
      stripStart_quoteChars, hnone]
  obtain ⟨c, more, hcons⟩ := List.exists_cons_of_ne_nil hne
  rw [hcons, List.tail_cons] at hbehind
  have hcode : (quotedMember name text).toList =
      c :: (more ++ [':', ' '] ++ quoteChars text.toList) := by
    rw [toList_quotedMember htext.not_markup, hcons, List.append_assoc]
    rfl
  rw [hcode]
  refine Misses.cons (fun behind => ?_) (hbehind.append hquoted)
  rw [← hkey behind, hcons]
  simp only [List.append_assoc, List.cons_append, List.nil_append]

end Misses

/-! ## Finding a member -/

theorem cases_of_mem_memberNames {name : String} (h : name ∈ memberNames) :
    name = "method" ∨ name = "headers" ∨ name = "body" := by
  simpa [memberNames] using h

section Find

variable {name url : String} (hname : name ∈ memberNames) (hurl : IsPlain url)
  {shape : List Char → Option (List Char × List Char)} (hshape : ShowsMarkup shape)
  {members : List String}

include hname hurl hshape

theorem misses_callFront :
    Misses (memberPattern name shape)
      ("fetch(".toList ++ (quoteChars url.toList ++ ", \x7b ".toList)) := by
  have htexts := misses_of_mem_callTexts hname shape
  have hmarkup := reachesMarkup_memberPattern hname hshape
  exact (htexts "fetch(" (by decide)).append
    ((hmarkup.misses_quoteChars (Or.inr hurl)).append (htexts ", \x7b " (by decide)))

/-- Where all members are missed, nothing is found. -/
theorem member?_callOf_eq_none
    (h : ∀ member ∈ members, Misses (memberPattern name shape) member.toList) :
    member? name shape (callOf url members).toList = none := by
  have htexts := misses_of_mem_callTexts hname shape
  have hnonempty : name ≠ "" := by
    rintro rfl
    exact absurd hname (by decide)
  have hmembers : Misses (memberPattern name shape) (", ".intercalate members).toList := by
    rw [String.toList_intercalate]
    cases members with
    | nil => exact Misses.nil
    | cons member members =>
        rw [List.forall_mem_cons] at h
        rw [List.map_cons, Text.intercalate_cons, List.flatMap_map]
        exact h.1.append (Misses.flatMap fun other hother =>
          (htexts ", " (by decide)).append (h.2 other hother))
  apply member?_eq_none hnonempty
  rw [toList_callOf hurl]
  have hall := (misses_callFront hname hurl hshape).append
    (hmembers.append (htexts " \x7d)" (by decide)))
  simp only [List.append_assoc] at hall
  exact hall

/-- A member is found where all others are missed. -/
theorem member?_callOf_eq_some {member : String} (hmem : member ∈ members)
    (h : ∀ other ∈ members, other ≠ member → Misses (memberPattern name shape) other.toList)
    {code value : List Char} (hmember : member.toList = name.toList ++ ':' :: ' ' :: code)
    (hvalue : ∀ rest, ∃ behind, shape (Text.stripStart (code ++ rest)) = some (value, behind)) :
    member? name shape (callOf url members).toList = some value := by
  have htexts := misses_of_mem_callTexts hname shape
  obtain ⟨front, others, rfl, hnot⟩ := List.eq_append_cons_of_mem hmem
  have hfront : Misses (memberPattern name shape)
      (front.flatMap fun other => other.toList ++ ", ".toList) := by
    refine Misses.flatMap fun other hother => ?_
    have hne : other ≠ member := fun heq => hnot (heq ▸ hother)
    exact (h other (List.mem_append_left _ hother) hne).append (htexts ", " (by decide))
  let rest := others.flatMap (fun other => ", ".toList ++ other.toList) ++ " \x7d)".toList
  have hcode : (callOf url (front ++ member :: others)).toList =
      ("fetch(".toList ++ (quoteChars url.toList ++ ", \x7b ".toList) ++
        front.flatMap fun other => other.toList ++ ", ".toList) ++
          (name.toList ++ ':' :: ' ' :: (code ++ rest)) := by
    rw [toList_callOf hurl, Text.toList_intercalate_append_cons, hmember]
    simp only [rest, List.append_assoc, List.cons_append]
  obtain ⟨behind, hfound⟩ := hvalue rest
  rw [hcode]
  apply member?_eq_some ((misses_callFront hname hurl hshape).append hfront)
  rw [Text.stripStart_cons_of_blank (by decide)]
  exact hfound

end Find

/-! ## Members in any order -/

theorem exists_of_mem_members {given : Given} {members : List String}
    (hperm : members.Perm given.members) {member : String} (h : member ∈ members) :
    ∃ key ∈ memberNames, given.member? key = some member :=
  List.mem_filterMap.1 (hperm.mem_iff.1 h)

section Given

variable {given : Given} (hgiven : given.IsPlain)

include hgiven

theorem Given.IsPlain.isWordChar {method : String} (h : method ∈ given.method) :
    ∀ c ∈ method.toList, Text.isWordChar c = true := by
  have hword : ∀ c ∈ methodChars, Text.isWordChar c = true := by decide +kernel
  exact fun c hc => hword c (hgiven.method method h c hc)

theorem Given.IsPlain.isPlainOrEmpty_method {method : String} (h : method ∈ given.method) :
    IsPlainOrEmpty method := by
  by_cases hempty : method = ""
  · exact Or.inl hempty
  · exact Or.inr (.of_isWordChar hempty (hgiven.isWordChar h))

variable {name url : String} (hname : name ∈ memberNames) (hurl : Snippet.IsPlain url)
  {shape : List Char → Option (List Char × List Char)} (hshape : ShowsMarkup shape)

include hname hshape

/-- A member of another name is missed. -/
theorem misses_of_member? {key member : String} (hkey : key ∈ memberNames) (hne : key ≠ name)
    (hmember : given.member? key = some member) :
    Misses (memberPattern name shape) member.toList := by
  rcases cases_of_mem_memberNames hkey with rfl | rfl | rfl
  · obtain ⟨method, hmethod, rfl⟩ := Option.map_eq_some_iff.1 hmember
    exact misses_quotedMember hname hshape (by decide) hne (hgiven.isPlainOrEmpty_method hmethod)
  · obtain ⟨-, rfl⟩ : given.headers.entries ≠ [] ∧ headersMember given.headers.entries = member := by
      simpa [Given.member?] using hmember
    exact misses_headersMember hname hshape hne hgiven.headers
  · obtain ⟨body, hbody, rfl⟩ := Option.map_eq_some_iff.1 hmember
    exact misses_quotedMember hname hshape (by decide) hne (Or.inr (hgiven.body body hbody))

variable {members : List String} (hperm : members.Perm given.members)

include hurl hperm

/-- Nothing is found for a name that is not given, or given without the shape. -/
theorem member?_callOf_eq_none_of_given
    (hown : ∀ member ∈ given.member? name, Misses (memberPattern name shape) member.toList) :
    member? name shape (callOf url members).toList = none := by
  apply member?_callOf_eq_none hname hurl hshape
  intro member hmem
  obtain ⟨key, hkey, hmember⟩ := exists_of_mem_members hperm hmem
  by_cases hne : key = name
  · exact hown member (hne ▸ hmember)
  · exact misses_of_member? hgiven hname hshape hkey hne hmember

/-- What is found for a name that is given is its value, wherever the member stands. -/
theorem member?_callOf_eq_some_of_given {member : String} (hown : given.member? name = some member)
    {code value : List Char} (hmember : member.toList = name.toList ++ ':' :: ' ' :: code)
    (hvalue : ∀ rest, ∃ behind, shape (Text.stripStart (code ++ rest)) = some (value, behind)) :
    member? name shape (callOf url members).toList = some value := by
  have hmem : member ∈ members :=
    hperm.mem_iff.2 (List.mem_filterMap.2 ⟨name, hname, hown⟩)
  apply member?_callOf_eq_some hname hurl hshape hmem _ hmember hvalue
  intro other hother hne
  obtain ⟨key, hkey, hkeyed⟩ := exists_of_mem_members hperm hother
  refine misses_of_member? hgiven hname hshape hkey ?_ hkeyed
  rintro rfl
  exact hne (Option.some.inj (hkeyed.symm.trans hown))

end Given

theorem url?_callOf {url : String} (hurl : IsPlain url) (members : List String) :
    url? (callOf url members).toList = some url.toList := by
  have hcall : "fetch(".toList = "fetch".toList ++ ['('] := by decide
  apply Text.search?_eq_of_eq_some
  rw [toList_callOf hurl, hcall, List.append_assoc, List.singleton_append, call?_append,
    stripStart_quoteChars, Option.bind_some, quoted?_quoteChars hurl.toList_ne_nil hurl.not_markup]
  rfl

section Read

variable {given : Given} (hgiven : given.IsPlain) {url : String} (hurl : IsPlain url)
  {members : List String} (hperm : members.Perm given.members)

include hgiven hurl hperm

theorem member?_method_callOf :
    member? "method" quotedWord? (callOf url members).toList =
      (given.method.filter (· ≠ "")).map String.toList := by
  cases hmethod : given.method with
  | none =>
      refine member?_callOf_eq_none_of_given hgiven (by decide) hurl showsMarkup_quotedWord hperm ?_
      intro member hmember
      rw [Given.member?, if_pos rfl, hmethod] at hmember
      cases hmember
  | some method =>
      have hown : given.member? "method" = some (quotedMember "method" method) := by
        rw [Given.member?, if_pos rfl, hmethod, Option.map_some]
      by_cases hempty : method = ""
      · subst hempty
        refine member?_callOf_eq_none_of_given hgiven (by decide) hurl showsMarkup_quotedWord hperm
          fun member hmember => ?_
        rw [← Option.some.inj (hown.symm.trans hmember)]
        exact misses_quotedMember_of_shape (by decide) showsMarkup_quotedWord (Or.inl rfl)
          fun _ => rfl
      · have hplain := hgiven.isPlainOrEmpty_method hmethod
        have hfilter : (some method).filter (· ≠ "") = some method := by simp [hempty]
        rw [hfilter]
        refine member?_callOf_eq_some_of_given hgiven (by decide) hurl showsMarkup_quotedWord hperm
          hown (toList_quotedMember hplain.not_markup "method") fun rest => ⟨rest, ?_⟩
        rw [stripStart_quoteChars, quoteChars_eq hplain.not_markup, List.append_assoc]
        exact quotedWord?_append (by simpa using hempty) (hgiven.isWordChar hmethod) rest

theorem headersOf_callOf : headersOf (callOf url members).toList = given.headers := by
  have hown : given.member? "headers" = if given.headers.entries = [] then none
      else some (headersMember given.headers.entries) := rfl
  by_cases hempty : given.headers.entries = []
  · have hfound : member? "headers" braced? (callOf url members).toList = none := by
      refine member?_callOf_eq_none_of_given hgiven (by decide) hurl showsMarkup_braced hperm ?_
      intro member hmember
      rw [hown, if_pos hempty] at hmember
      cases hmember
    rw [headersOf, hfound]
    exact Headers.eq_of_entries_eq hempty.symm
  · have hfound : member? "headers" braced? (callOf url members).toList =
        some (entriesCode (quotedEntries given.headers.entries)).toList := by
      refine member?_callOf_eq_some_of_given hgiven (by decide) hurl showsMarkup_braced hperm
        (hown.trans (if_neg hempty)) (toList_headersMember _) fun rest => ⟨rest, ?_⟩
      rw [List.cons_append, List.append_assoc, Text.stripStart_cons_of_not_blank (by decide)]
      exact braced?_entriesCode (isWhole_of_mem_quotedEntries hgiven.headers) rest
    have hpairs : (pairs (entriesCode (quotedEntries given.headers.entries)).toList).map
        (fun pair => (String.ofList pair.1, String.ofList pair.2)) = given.headers.entries := by
      rw [pairs_quotedEntries hgiven.headers, List.map_map]
      simp [Function.comp_def]
    rw [headersOf, hfound]
    exact (congrArg Headers.ofPairs hpairs).trans given.headers.ofPairs_entries

theorem body?_callOf : body? (callOf url members).toList = given.body := by
  have hown : given.member? "body" = given.body.map (quotedMember "body") := rfl
  have hstringified : member? "body" stringified? (callOf url members).toList = none := by
    refine member?_callOf_eq_none_of_given hgiven (by decide) hurl showsMarkup_stringified hperm ?_
    intro member hmember
    obtain ⟨body, hbody, rfl⟩ := Option.map_eq_some_iff.1 (hown.symm.trans hmember)
    exact misses_quotedMember_of_shape (by decide) showsMarkup_stringified
      (Or.inr (hgiven.body body hbody)) fun _ => rfl
  have hquoted : member? "body" quoted? (callOf url members).toList =
      given.body.map String.toList := by
    cases hbody : given.body with
    | none =>
        refine member?_callOf_eq_none_of_given hgiven (by decide) hurl showsMarkup_quoted hperm ?_
        intro member hmember
        rw [hown, hbody] at hmember
        cases hmember
    | some body =>
        have hplain := hgiven.body body hbody
        rw [hbody, Option.map_some] at hown
        refine member?_callOf_eq_some_of_given hgiven (by decide) hurl showsMarkup_quoted hperm
          hown (toList_quotedMember hplain.not_markup "body") fun rest => ⟨rest, ?_⟩
        rw [stripStart_quoteChars, quoted?_quoteChars hplain.toList_ne_nil hplain.not_markup]
  rw [body?, hstringified, hquoted]
  simp [Function.comp_def]

end Read

/-- The name of a method that is written in such characters. -/
theorem name_ofString_of_methodChars {method : String} (h : ∀ c ∈ method.toList, c ∈ methodChars)
    (hne : method ≠ "") : (Method.ofString method).name = Text.toUpper method := by
  have hchars : ∀ c ∈ methodChars, Text.isBlank c = false ∧ Text.upperChar c ≠ [] := by
    decide +kernel
  have htrim : Text.trim method = method := by
    rw [Text.trim_eq_self_iff]
    exact Text.strip_eq_self_of_not_blank fun c hc => (hchars c (h c hc)).1
  have hupper : Text.toUpper method ≠ "" := by
    obtain ⟨c, more, hcons⟩ := List.exists_cons_of_ne_nil (show method.toList ≠ [] by simpa)
    intro hempty
    rw [← String.toList_inj, Text.toUpper, String.toList_ofList, Text.upper, hcons,
      List.flatMap_cons] at hempty
    exact (hchars c (h c (by rw [hcons]; exact List.mem_cons_self))).2
      (List.append_eq_nil_iff.1 hempty).1
  rw [Method.name_ofString, normalMethodName, htrim]
  exact if_neg hupper

/-- A call is read as what its members give, whatever their order: the method in upper case, and
`GET` if there is none. -/
theorem read_callOf {given : Given} (hgiven : given.IsPlain) {url : String} (hurl : IsPlain url)
    {members : List String} (hperm : members.Perm given.members) :
    ∃ method : Method,
      read (callOf url members) =
        { method := method, url := url, headers := given.headers, body := given.body } ∧
      method.name = ((given.method.filter (· ≠ "")).map Text.toUpper).getD "GET" := by
  refine ⟨((given.method.filter (· ≠ "")).map Method.ofString).getD Method.get, ?_, ?_⟩
  · rw [read, readChars, member?_method_callOf hgiven hurl hperm, url?_callOf hurl,
      headersOf_callOf hgiven hurl hperm, body?_callOf hgiven hurl hperm]
    simp [Function.comp_def]
  · cases hmethod : given.method.filter (· ≠ "") with
    | none => exact Method.name_get
    | some method =>
        obtain ⟨hsome, hne⟩ := Option.filter_eq_some_iff.1 hmethod
        exact name_ofString_of_methodChars (hgiven.method method hsome) (by simpa using hne)

/-- Texts that name the members, with the members from the last to the first. -/
theorem read_callOf_of_names :
    let given : Given := {
      method := some "pAt_1"
      headers := .ofPairs [("headers: method", ": body:: x"), (", body: b", "fetch")]
      body := some "method: GET, headers: none, body: JSON.stringify" }
    let members := [
      "body: 'method: GET, headers: none, body: JSON.stringify'",
      "headers: \x7b 'headers: method': ': body:: x', ', body: b': 'fetch' \x7d",
      "method: 'pAt_1'"]
    given.IsPlain ∧ IsPlain "body: /x, method" ∧ members.Perm given.members ∧
      ∃ method : Method,
        read (callOf "body: /x, method" members) =
          { method := method, url := "body: /x, method", headers := given.headers,
            body := given.body } ∧
        method.name = "PAT_1" := by
  intro given members
  have hgiven : given.IsPlain := by decide +kernel
  have hurl : IsPlain "body: /x, method" := by decide +kernel
  have hperm : members.Perm given.members := by decide +kernel
  obtain ⟨method, hread, hname⟩ := read_callOf hgiven hurl hperm
  refine ⟨hgiven, hurl, hperm, method, hread, hname.trans ?_⟩
  decide +kernel

end RequestForms.Snippet.Fetch
