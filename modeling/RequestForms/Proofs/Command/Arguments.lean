import Mathlib.Tactic.MkIffOfInductiveProp
import RequestForms.Command.Arguments
import RequestForms.Proofs.Command.Lines
import RequestForms.Proofs.Method
import RequestForms.Proofs.Request
import RequestForms.Proofs.Shell.Bare

/-!
# The arguments of a written command

A request stands for a list of arguments. The words of its command are these arguments, as far as
the quoted parts go for any texts; the method stands bare, and is an argument exactly if it has
neither a space nor a quote nor a backslash.
-/

namespace RequestForms.Command

open Text (isUnbroken isUnbroken_append isUnbroken_cons isUnbroken_of_not_mem)

def fieldArguments (request : Request) : List String :=
  (if request.url = "" then [] else [request.url]) ++
    (request.headers.entries.flatMap fun header => ["-H", header.1 ++ ": " ++ header.2]) ++
    (request.credentials.toList.flatMap fun credentials => ["-u", credentials.joined]) ++
    (request.content.toList.flatMap fun body => ["-d", body]) ++
    (if request.insecure then ["-k"] else [])

def argumentsOf (request : Request) : List String :=
  (if request.method.name = "GET" then [] else ["-X", request.method.name]) ++
    fieldArguments request

/-- No text of a request but its method has a backslash directly before a line break. -/
@[mk_iff] structure IsUnbroken (request : Request) : Prop where
  url : isUnbroken request.url.toList
  headers : ∀ header ∈ request.headers.entries,
    isUnbroken header.1.toList ∧ isUnbroken header.2.toList
  credentials : ∀ credentials ∈ request.credentials,
    isUnbroken credentials.user.toList ∧ isUnbroken credentials.password.toList
  body : ∀ body ∈ request.body, isUnbroken body.toList

instance (request : Request) : Decidable (IsUnbroken request) :=
  decidable_of_iff _ (isUnbroken_iff request).symm

/-! ## Parts that close what they open -/

/-- A part that leaves the scan outside quotes and ends in a character that is not blank. -/
structure IsField (part : List Char) : Prop extends IsPart part where
  closed : Shell.modeAfter .bare part = .bare
  keepsDouble : (Shell.kept .bare part).count '"' = part.count '"'
  last : ∃ front c, part = front ++ [c] ∧ Text.isBlank c = false

theorem exists_quotedTail_eq (s : List Char) :
    ∃ front, Shell.quotedTail s = front ++ ['\''] := by
  induction s with
  | nil => exact ⟨[], rfl⟩
  | cons c s ih =>
      obtain ⟨front, h⟩ := ih
      rw [Shell.quotedTail, h]
      split
      · exact ⟨'\'' :: '\\' :: '\'' :: '\'' :: front, rfl⟩
      · exact ⟨c :: front, rfl⟩

/-- The quotes of a quoted text are not blank. -/
theorem strip_quoteChars (s : List Char) :
    Text.strip (Shell.quoteChars s) = Shell.quoteChars s := by
  obtain ⟨front, hfront⟩ := exists_quotedTail_eq s
  have hquote : Text.isBlank '\'' = false := by decide
  have hlast : Shell.quoteChars s = '\'' :: front ++ ['\''] := by
    rw [Shell.quoteChars, hfront]
    rfl
  exact Text.strip_eq_self_of_ends ⟨'\'', Shell.quotedTail s, rfl, hquote⟩ ⟨_, _, hlast, hquote⟩

theorem count_quoteChars (s : List Char) : (Shell.quoteChars s).count '"' = s.count '"' := by
  have htail : ∀ s, (Shell.quotedTail s).count '"' = s.count '"' := by
    intro s
    induction s with
    | nil => rfl
    | cons c s ih =>
        rw [Shell.quotedTail]
        split
        · next hc => simp [hc, ih]
        · rw [List.count_cons, List.count_cons, ih]
  rw [Shell.quoteChars, List.count_cons, htail]
  rfl

theorem isField_quoteChars {s : List Char} (h : isUnbroken s = true) :
    IsField (Shell.quoteChars s) := by
  obtain ⟨front, hfront⟩ := exists_quotedTail_eq s
  exact {
    unbroken := isUnbroken_quoteChars h
    head := ⟨'\'', Shell.quotedTail s, rfl, by decide⟩
    closed := Shell.modeAfter_quoteChars s
    keepsDouble := by rw [Shell.kept_quoteChars, count_quoteChars]
    last := ⟨'\'' :: front, '\'', by rw [Shell.quoteChars, hfront]; rfl, by decide⟩ }

theorem isField_switch {letter : Char} (hletter : Shell.isActive letter = false)
    (hblank : Text.isBlank letter = false) : IsField ['-', letter] := by
  have hinactive : ∀ c ∈ ['-', letter], Shell.isActive c = false := by
    simpa using ⟨by decide, hletter⟩
  have hkept : Shell.kept .bare ['-', letter] = ['-', letter] := by
    rw [← Shell.flatten_words_scan]
    change (Shell.split ['-', letter]).flatten = _
    rw [Shell.split_of_not_isActive (by simp) hinactive]
    rfl
  have hescape : '\\' ∉ ['-', letter] := fun h =>
    absurd (hinactive '\\' h) (by decide)
  exact {
    unbroken := isUnbroken_of_not_mem hescape
    head := ⟨'-', [letter], rfl, by decide⟩
    closed := Shell.modeAfter_of_not_isActive hinactive
    keepsDouble := by rw [hkept]
    last := ⟨['-'], letter, rfl, hblank⟩ }

/-- A flag in front of a quoted value. -/
theorem IsField.space_append {flag value : List Char} (hflag : IsField flag)
    (hvalue : IsField value) : IsField (flag ++ ' ' :: value) := by
  obtain ⟨c, rest, hhead, hc⟩ := hflag.head
  obtain ⟨front, d, hlast, hd⟩ := hvalue.last
  have hspace : isUnbroken (' ' :: value) = true :=
    isUnbroken_cons.2 ⟨by simp, hvalue.unbroken⟩
  have hkept : Shell.kept .bare (' ' :: value) = Shell.kept .bare value := rfl
  exact {
    unbroken := isUnbroken_append hflag.unbroken hspace ⟨by simp, by simp⟩
    head := ⟨c, rest ++ ' ' :: value, by rw [hhead]; rfl, hc⟩
    closed := by
      rw [Shell.modeAfter_append, hflag.closed]
      exact hvalue.closed
    keepsDouble := by
      calc
        (Shell.kept .bare (flag ++ ' ' :: value)).count '"' =
            (Shell.kept .bare flag).count '"' + (Shell.kept .bare value).count '"' := by
          rw [Shell.kept_append, hflag.closed, hkept, List.count_append]
        _ = (flag ++ ' ' :: value).count '"' := by
          rw [hflag.keepsDouble, hvalue.keepsDouble, List.count_append,
            List.count_cons_of_ne (by decide)]
    last := ⟨flag ++ ' ' :: front, d, by rw [hlast]; simp, hd⟩ }

/-- The words of fields on one line are those of the single fields. -/
theorem split_append_onOneLine {part : List Char} {parts : List (List Char)}
    (hpart : Shell.modeAfter .bare part = .bare) (hparts : ∀ p ∈ parts, IsField p) :
    Shell.split (part ++ onOneLine parts) = Shell.split part ++ parts.flatMap Shell.split := by
  induction parts generalizing part with
  | nil => simp [onOneLine]
  | cons next parts ih =>
      have hnext := (hparts next (by simp)).closed
      change Shell.split (part ++ ' ' :: ' ' :: (next ++ onOneLine parts)) = _
      rw [Shell.split_append_space hpart, Shell.split_cons_space,
        ih hnext fun p hp => hparts p (List.mem_cons_of_mem next hp), List.flatMap_cons]

theorem keepsDouble_append_onOneLine {part : List Char} {parts : List (List Char)}
    (hpart : IsField part) (hparts : ∀ p ∈ parts, IsField p) :
    (Shell.kept .bare (part ++ onOneLine parts)).count '"' =
      (part ++ onOneLine parts).count '"' := by
  induction parts generalizing part with
  | nil => simpa [onOneLine] using hpart.keepsDouble
  | cons next parts ih =>
      have hnext := ih (hparts next (by simp)) fun p hp => hparts p (List.mem_cons_of_mem next hp)
      have hkept : Shell.kept .bare (' ' :: ' ' :: (next ++ onOneLine parts)) =
          Shell.kept .bare (next ++ onOneLine parts) := rfl
      calc
        (Shell.kept .bare (part ++ ' ' :: ' ' :: (next ++ onOneLine parts))).count '"' =
            (Shell.kept .bare part).count '"' +
              (Shell.kept .bare (next ++ onOneLine parts)).count '"' := by
          rw [Shell.kept_append, hpart.closed, hkept, List.count_append]
        _ = part.count '"' + (next ++ onOneLine parts).count '"' := by
          rw [hpart.keepsDouble, hnext]
        _ = (part ++ ' ' :: ' ' :: (next ++ onOneLine parts)).count '"' := by
          simp [List.count_append]

/-! ## The written command -/

def flagParts (request : Request) : List (List Char) :=
  (request.headers.entries.map fun header =>
      ['-', 'H'] ++ ' ' :: Shell.quoteChars (header.1 ++ ": " ++ header.2).toList) ++
    (request.credentials.toList.map fun credentials =>
      ['-', 'u'] ++ ' ' :: Shell.quoteChars credentials.joined.toList) ++
    (request.content.toList.map fun body =>
      ['-', 'd'] ++ ' ' :: Shell.quoteChars body.toList) ++
    (if request.insecure then [['-', 'k']] else [])

def fieldParts (request : Request) : List (List Char) :=
  Shell.quoteChars request.url.toList :: flagParts request

def fieldText (request : Request) : List Char :=
  Shell.quoteChars request.url.toList ++ onOneLine (flagParts request)

def methodParts (request : Request) : List (List Char) :=
  if request.method.name = "GET" then []
  else [['-', 'X'] ++ ' ' :: request.method.name.toList]

theorem toList_render (request : Request) :
    (render request).toList =
      "curl".toList ++ onLines (methodParts request ++ fieldParts request) := by
  have hparts : (parts request).map String.toList =
      "curl".toList :: (methodParts request ++ fieldParts request) := by
    unfold parts methodParts fieldParts flagParts
    split <;> split <;> simp [Function.comp_def]
  rw [render, String.toList_intercalate, hparts, Text.intercalate_cons]
  rfl

theorem isField_of_mem_fieldParts {request : Request} (h : IsUnbroken request) :
    ∀ part ∈ fieldParts request, IsField part := by
  have hflag : ∀ letter ∈ ['H', 'u', 'd'], ∀ {s}, isUnbroken s = true →
      IsField (['-', letter] ++ ' ' :: Shell.quoteChars s) := by
    intro letter hletter s hs
    refine (isField_switch ?_ ?_).space_append (isField_quoteChars hs) <;>
      revert letter <;> decide
  intro part hpart
  simp only [fieldParts, flagParts, List.mem_cons, List.mem_append, List.mem_map,
    Option.mem_toList] at hpart
  rcases hpart with rfl | ((⟨header, hmem, rfl⟩ | ⟨credentials, hmem, rfl⟩) |
    ⟨body, hmem, rfl⟩) | hinsecure
  · exact isField_quoteChars h.url
  · obtain ⟨hname, hvalue⟩ := h.headers header hmem
    apply hflag 'H' (by simp)
    rw [String.toList_append, String.toList_append, List.append_assoc,
      show ": ".toList = [':', ' '] from rfl]
    exact isUnbroken_append hname
      (isUnbroken_cons.2 ⟨by simp, isUnbroken_cons.2 ⟨by simp, hvalue⟩⟩) ⟨by simp, by simp⟩
  · obtain ⟨huser, hpassword⟩ := h.credentials credentials hmem
    apply hflag 'u' (by simp)
    rw [Credentials.joined, String.toList_append, String.toList_append, List.append_assoc,
      show ":".toList = [':'] from rfl]
    exact isUnbroken_append huser (isUnbroken_cons.2 ⟨by simp, hpassword⟩) ⟨by simp, by simp⟩
  · exact hflag 'd' (by simp) (h.body body (Request.content_eq_some_iff.1 hmem).1)
  · split at hinsecure
    · rw [List.mem_singleton.1 hinsecure]
      exact isField_switch (by decide) (by decide)
    · simp at hinsecure

theorem map_ofList_split_flag (letter : Char) {s : String}
    (hletter : Shell.isActive letter = false) (hs : s ≠ "") :
    (Shell.split (['-', letter] ++ ' ' :: Shell.quoteChars s.toList)).map String.ofList =
      [String.ofList ['-', letter], s] := by
  have hinactive : ∀ c ∈ ['-', letter], Shell.isActive c = false := by
    simpa using ⟨by decide, hletter⟩
  rw [Shell.split_append_space (Shell.modeAfter_of_not_isActive hinactive),
    Shell.split_of_not_isActive (by simp) hinactive, Shell.split_quoteChars]
  simp [hs]

/-- The words of the fields are the arguments that they are written for. -/
theorem map_ofList_split_fieldParts (request : Request) :
    ((fieldParts request).flatMap Shell.split).map String.ofList = fieldArguments request := by
  have hurl : (Shell.split (Shell.quoteChars request.url.toList)).map String.ofList =
      if request.url = "" then [] else [request.url] := by
    rw [Shell.split_quoteChars]
    simp only [String.toList_eq_nil_iff]
    split <;> simp
  have hheader : ∀ header : String × String,
      (Shell.split (['-', 'H'] ++ ' ' :: Shell.quoteChars
        (header.1 ++ ": " ++ header.2).toList)).map String.ofList =
          ["-H", header.1 ++ ": " ++ header.2] := fun header =>
    map_ofList_split_flag 'H' (by decide) (by simp)
  have hcredentials : ∀ credentials : Credentials,
      (Shell.split (['-', 'u'] ++ ' ' :: Shell.quoteChars
        credentials.joined.toList)).map String.ofList = ["-u", credentials.joined] :=
    fun credentials => map_ofList_split_flag 'u' (by decide) (by simp [Credentials.joined])
  have hcontent : (request.content.toList.flatMap fun body =>
      (Shell.split (['-', 'd'] ++ ' ' :: Shell.quoteChars body.toList)).map String.ofList) =
        request.content.toList.flatMap fun body => ["-d", body] := by
    cases hbody : request.content with
    | none => rfl
    | some body =>
        have hne := (Request.content_eq_some_iff.1 hbody).2
        simpa using map_ofList_split_flag 'd' (by decide) hne
  have hinsecure : ((if request.insecure then [['-', 'k']] else []).flatMap fun part =>
      (Shell.split part).map String.ofList) = if request.insecure then ["-k"] else [] := by
    split <;> rfl
  rw [List.map_flatMap]
  simp only [fieldParts, flagParts, fieldArguments, List.flatMap_cons, List.flatMap_append,
    List.flatMap_map, hurl, hheader, hcredentials, hcontent, hinsecure, List.append_assoc]

/-! ## Normalization -/

theorem exists_last_onOneLine {part : List Char} {parts : List (List Char)}
    (hpart : IsField part) (hparts : ∀ p ∈ parts, IsField p) :
    ∃ front c, part ++ onOneLine parts = front ++ [c] ∧ Text.isBlank c = false := by
  induction parts generalizing part with
  | nil => simpa [onOneLine] using hpart.last
  | cons next parts ih =>
      obtain ⟨front, c, hlast, hc⟩ :=
        ih (hparts next (by simp)) fun p hp => hparts p (List.mem_cons_of_mem next hp)
      refine ⟨part ++ ' ' :: ' ' :: front, c, ?_, hc⟩
      change part ++ ' ' :: ' ' :: (next ++ onOneLine parts) = _
      rw [hlast]
      simp

/-- The lines of a command become one line behind the name of the program. -/
theorem normalizeChars_onLines {part : List Char} {parts : List (List Char)}
    (hparts : ∀ p ∈ part :: parts, IsPart p)
    (hlast : ∃ front c, part ++ onOneLine parts = front ++ [c] ∧ Text.isBlank c = false) :
    normalizeChars ("curl".toList ++ onLines (part :: parts)) = part ++ onOneLine parts := by
  have hjoin : joinLines ("curl".toList ++ onLines (part :: parts)) =
      "curl".toList ++ ([' ', ' '] ++ (part ++ onOneLine parts)) := by
    rw [joinLines_append (by decide) (keepsLine_onLines _), joinLines_onLines hparts]
    rfl
  obtain ⟨c, rest, rfl, hc⟩ := (hparts part (by simp)).head
  have hstrip := Text.strip_eq_self_of_ends ⟨c, rest ++ onOneLine parts, rfl, hc⟩ hlast
  exact normalizeChars_of_joinLines hjoin (by decide) (by simp) hstrip (List.cons_ne_nil _ _)

/-- What the command of a request is before it is cut into words. -/
theorem normalizeChars_render {request : Request}
    (hmethod : isUnbroken request.method.name.toList = true) (h : IsUnbroken request) :
    normalizeChars (render request).toList =
      if request.method.name = "GET" then fieldText request
      else ['-', 'X'] ++ ' ' :: (request.method.name.toList ++ ' ' :: ' ' :: fieldText request) := by
  have hfields := isField_of_mem_fieldParts h
  have hflags : ∀ p ∈ flagParts request, IsField p := fun p hp =>
    hfields p (List.mem_cons_of_mem _ hp)
  have hlast := exists_last_onOneLine (hfields _ List.mem_cons_self) hflags
  rw [toList_render, methodParts]
  split
  · exact normalizeChars_onLines (fun p hp => (hfields p hp).toIsPart) hlast
  · have hpart : IsPart (['-', 'X'] ++ ' ' :: request.method.name.toList) :=
      { unbroken := by
          exact isUnbroken_cons.2 ⟨by simp, isUnbroken_cons.2 ⟨by simp,
            isUnbroken_cons.2 ⟨by simp, hmethod⟩⟩⟩
        head := ⟨'-', 'X' :: ' ' :: request.method.name.toList, rfl, by decide⟩ }
    obtain ⟨front, c, hend, hc⟩ := hlast
    rw [List.singleton_append, normalizeChars_onLines]
    · simp [onOneLine, fieldParts, fieldText]
    · intro p hp
      rcases List.mem_cons.1 hp with rfl | hp
      · exact hpart
      · exact (hfields p hp).toIsPart
    · refine ⟨['-', 'X'] ++ ' ' :: request.method.name.toList ++ ' ' :: ' ' :: front, c, ?_, hc⟩
      change ['-', 'X'] ++ ' ' :: request.method.name.toList ++
        ' ' :: ' ' :: (_ ++ onOneLine (flagParts request)) = _
      rw [hend]
      simp

theorem split_fieldText {request : Request} (h : IsUnbroken request) :
    Shell.split (fieldText request) = (fieldParts request).flatMap Shell.split := by
  have hfields := isField_of_mem_fieldParts h
  exact split_append_onOneLine (hfields _ List.mem_cons_self).closed
    fun p hp => hfields p (List.mem_cons_of_mem _ hp)

theorem keepsDouble_fieldText {request : Request} (h : IsUnbroken request) :
    (Shell.kept .bare (fieldText request)).count '"' = (fieldText request).count '"' := by
  have hfields := isField_of_mem_fieldParts h
  exact keepsDouble_append_onOneLine (hfields _ List.mem_cons_self)
    fun p hp => hfields p (List.mem_cons_of_mem _ hp)

theorem arguments_eq (text : String) :
    arguments text = (Shell.split (normalizeChars text.toList)).map String.ofList := by
  rw [arguments, Shell.words, normalize, String.toList_ofList]

theorem map_ofList_split_fieldText {request : Request} (h : IsUnbroken request) :
    (Shell.split (fieldText request)).map String.ofList = fieldArguments request := by
  rw [split_fieldText h, map_ofList_split_fieldParts]

/-- Behind the flag for the method, the words are those of the bare method and the fields. -/
theorem arguments_render_eq {request : Request}
    (hmethod : isUnbroken request.method.name.toList = true) (h : IsUnbroken request) :
    arguments (render request) =
      if request.method.name = "GET" then fieldArguments request
      else "-X" ::
        (Shell.split (request.method.name.toList ++ ' ' :: ' ' :: fieldText request)).map
          String.ofList := by
  have hflag : ∀ c ∈ ['-', 'X'], Shell.isActive c = false := by decide
  rw [arguments_eq, normalizeChars_render hmethod h]
  split
  · exact map_ofList_split_fieldText h
  · rw [Shell.split_append_space (Shell.modeAfter_of_not_isActive hflag),
      Shell.split_of_not_isActive (by simp) hflag]
    rfl

/-- A method without spaces, quotes and backslashes is an argument as it stands. -/
theorem arguments_render {request : Request} (h : IsUnbroken request)
    (hmethod : ∀ c ∈ request.method.name.toList, Shell.isActive c = false) :
    arguments (render request) = argumentsOf request := by
  have hescape : '\\' ∉ request.method.name.toList := fun hmem =>
    absurd (hmethod '\\' hmem) (by decide)
  rw [arguments_render_eq (isUnbroken_of_not_mem hescape) h, argumentsOf]
  split
  · rfl
  · rw [Shell.split_append_space (Shell.modeAfter_of_not_isActive hmethod), Shell.split_cons_space,
      Shell.split_of_not_isActive (by simpa using request.method.name_ne_empty) hmethod]
    simp [map_ofList_split_fieldText h]

/-- The words of the command of a request are its arguments exactly if the method is the one that
is left out, or has no character that parts words or steers the scan. -/
theorem arguments_render_eq_iff {request : Request}
    (hmethod : isUnbroken request.method.name.toList = true) (h : IsUnbroken request) :
    arguments (render request) = argumentsOf request ↔
      request.method.name = "GET" ∨
        ∀ c ∈ request.method.name.toList, Shell.isActive c = false := by
  rw [arguments_render_eq hmethod h, argumentsOf]
  by_cases hget : request.method.name = "GET"
  · simp [hget]
  · have hwords : ["-X", request.method.name] ++ fieldArguments request =
        "-X" :: (request.method.name.toList ::
          Shell.split (fieldText request)).map String.ofList := by
      rw [List.map_cons, map_ofList_split_fieldText h, String.ofList_toList]
      rfl
    have hhead : request.method.name.toList.head? ≠ some ' ' := by
      intro hspace
      have hstrip := Text.trim_eq_self_iff.1 request.method.trim_name
      exact absurd ((Text.strip_eq_self_iff.1 hstrip).1 ' ' hspace) (by decide)
    rw [if_neg hget, if_neg hget, hwords, List.cons.injEq, eq_self, true_and,
      List.map_inj_right fun _ _ => String.ofList_injective,
      Shell.split_bare_eq_cons_iff (by simpa using request.method.name_ne_empty) hhead
        (keepsDouble_fieldText h)]
    simp [hget]

/-- Quotes, spaces and line breaks in the other texts change no argument. -/
theorem arguments_render_of_quoted_texts :
    let request : Request := {
      method := .ofString "patch"
      url := "/it's \\ here"
      headers := .ofPairs [("X 'a'", "\"b\"\n-k")]
      body := some "'\\"
      credentials := some ⟨"-u", "' -X 'GET"⟩ }
    isUnbroken request.method.name.toList = true ∧ IsUnbroken request ∧
      arguments (render request) = argumentsOf request := by
  intro request
  have hbare : ∀ c ∈ request.method.name.toList, Shell.isActive c = false := by decide +kernel
  have hmethod : isUnbroken request.method.name.toList = true := by decide +kernel
  have hunbroken : IsUnbroken request := by decide +kernel
  exact ⟨hmethod, hunbroken, (arguments_render_eq_iff hmethod hunbroken).2 (Or.inr hbare)⟩

/-- A method with spaces brings arguments of its own, here a header. -/
theorem arguments_render_ne_of_spaces_in_method :
    let request : Request := { method := .ofString "PUT -H A:B", url := "/x" }
    isUnbroken request.method.name.toList = true ∧ IsUnbroken request ∧
      arguments (render request) = ["-X", "PUT", "-H", "A:B", "/x"] ∧
      arguments (render request) ≠ argumentsOf request := by
  decide +kernel

end RequestForms.Command
