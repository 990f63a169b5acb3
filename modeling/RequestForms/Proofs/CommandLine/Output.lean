import RequestForms.Proofs.Collection.Folders
import RequestForms.Proofs.CommandLine.Unquoted
import RequestForms.Proofs.Json.Equality
import RequestForms.Proofs.Json.Surroundings
import RequestForms.Proofs.Request.Json

/-!
# Standard output

Unless all requests are wanted, a run that succeeds prints the first of them. The notes that are
asked for go to standard error, but the remark on further requests goes to standard output, where it
stands before the request. Off a terminal, escape sequences are taken out of everything.
-/

namespace RequestForms.CommandLine

/-! ## What is printed -/

def remarkText (count : Nat) : String :=
  s!"Found {count} requests. Use --all to convert all, " ++ "or showing first only."

def remark (count : Nat) : String :=
  if 1 < count then line (styled .yellow (line (remarkText count))) else ""

def firstOutput (rendering : Rendering) : List Request → String
  | [] => ""
  | request :: _ => line (rendering.apply request)

/-- The first request as it is printed, unless half a pair keeps it from being printed. -/
def firstPrinted (rendering : Rendering) : List (Twofold Request) → Except RunError String
  | [] => .ok ""
  | request :: _ => do
      let text ← rendering.applyTwofold request
      (Text.plain (text.map line)).mapError .unwritable

def notes (options : Options) (format : InputFormat) (count : Nat) : String :=
  if options.verbose then
    line s!"Input format: {format.name}" ++ line s!"Parsed {count} request(s)."
  else ""

theorem firstPrinted_same (rendering : Rendering) (requests : List Request) :
    firstPrinted rendering (requests.map Twofold.same) = .ok (firstOutput rendering requests) := by
  cases requests with
  | nil => rfl
  | cons request others =>
      simp only [List.map_cons, firstPrinted, Rendering.applyTwofold_same]
      change (Text.plain (.same (line (rendering.apply request)))).mapError _ = _
      rw [Text.plain_same]
      rfl

theorem firstPrinted_cons_eq_ok {rendering : Rendering} {request : Twofold Request}
    {others : List (Twofold Request)} {first : String}
    (h : firstPrinted rendering (request :: others) = .ok first) :
    ∃ text, rendering.applyTwofold request = .ok text ∧ Text.plain (text.map line) = .ok first := by
  obtain ⟨text, happly, hplain⟩ := Collection.bind_eq_ok_iff.1 h
  refine ⟨text, happly, ?_⟩
  cases htext : Text.plain (text.map line) with
  | error fault =>
      rw [htext] at hplain
      cases hplain
  | ok found =>
      rw [htext] at hplain
      cases hplain
      rfl

/-- Only a collection can hold several requests, or none. -/
theorem length_of_read {format : InputFormat} {text : String} {requests : List Request}
    (h : format.read text = .ok requests) (hformat : format ≠ .postman) : requests.length = 1 := by
  cases format with
  | postman => exact absurd rfl hformat
  | curl => cases h; rfl
  | fetch => cases h; rfl
  | axios => cases h; rfl

theorem conversionOutput_eq {rendering : Rendering} {format : InputFormat} {text : String}
    {requests : List (Twofold Request)} (h : format.readTwofold text = .ok requests) :
    conversionOutput rendering format false requests =
      (if 1 < requests.length then [.ok (.same (remark requests.length))] else []) ++
        listing rendering false 1 (requests.take 1) := by
  unfold conversionOutput remark
  by_cases hmany : 1 < requests.length
  · have hformat : format = .postman := by
      by_contra hformat
      have hlength := length_of_read (InputFormat.read_of_readTwofold h) hformat
      rw [List.length_map] at hlength
      omega
    rw [if_pos ⟨hformat, rfl, hmany⟩, if_pos hmany, if_pos hmany]
    rfl
  · rw [if_neg fun hall => hmany hall.2.2, if_neg hmany, decide_eq_false hmany,
      List.take_of_length_le (Nat.not_lt.1 hmany), List.nil_append]

theorem printPiece_eq_ok {onTerminal : Bool} {piece : Piece} {output : String}
    (h : printPiece onTerminal piece = .ok output) :
    ∃ text plain, piece = .ok text ∧ Text.plain text = .ok plain ∧
      output = shown onTerminal plain := by
  unfold printPiece at h
  split at h
  · cases h
  · next text =>
      split at h
      · next plain hplain =>
          cases h
          exact ⟨text, plain, rfl, hplain, rfl⟩
      · cases h

theorem exists_firstPrinted {onTerminal : Bool} {rendering : Rendering}
    {requests : List (Twofold Request)} {output : String}
    (h : print onTerminal (listing rendering false 1 (requests.take 1)) = (output, none)) :
    ∃ first, firstPrinted rendering requests = .ok first ∧ output = shown onTerminal first := by
  cases requests with
  | nil =>
      obtain ⟨rfl, -⟩ := Prod.mk.inj h
      exact ⟨"", rfl, (shown_eq_self (by decide) _).symm⟩
  | cons request others =>
      have hpieces : listing rendering false 1 ((request :: others).take 1) =
          [(rendering.applyTwofold request).map (·.map line)] := by simp [listing]
      rw [hpieces, print] at h
      split at h
      · cases h
      · next printed hprinted =>
          obtain ⟨rfl, -⟩ := Prod.mk.inj h
          obtain ⟨text, first, hpiece, hfirst, rfl⟩ := printPiece_eq_ok hprinted
          refine ⟨first, ?_, String.append_empty⟩
          cases happly : rendering.applyTwofold request with
          | error error =>
              rw [happly] at hpiece
              cases hpiece
          | ok found =>
              rw [happly] at hpiece
              cases hpiece
              simp only [firstPrinted, happly]
              change (Text.plain (found.map line)).mapError _ = _
              rw [hfirst]
              rfl

/-! ## What shows of notes and of the remark -/

theorem escape_not_mem_toString (n : Nat) : '\x1b' ∉ (toString n).toList := by
  intro hmem
  rw [Nat.toString_eq_repr, Nat.repr, String.toList_ofList] at hmem
  exact absurd (Nat.isDigit_of_mem_toDigits (by decide) (by decide) hmem) (by decide)

theorem escape_not_mem_notes (options : Options) (format : InputFormat) (count : Nat) :
    '\x1b' ∉ (notes options format count).toList := by
  have hname : '\x1b' ∉ (line s!"Input format: {format.name}").toList := by
    cases format <;> decide
  have hcount : '\x1b' ∉ (line s!"Parsed {count} request(s).").toList := by
    simp only [line, String.toList_append, List.mem_append, not_or]
    exact ⟨⟨⟨by decide, escape_not_mem_toString _⟩, by decide⟩, by decide⟩
  unfold notes
  split
  · rw [String.toList_append, List.mem_append, not_or]
    exact ⟨hname, hcount⟩
  · exact List.not_mem_nil

theorem escape_not_mem_remarkText (count : Nat) : '\x1b' ∉ (remarkText count).toList := by
  simp only [remarkText, String.toList_append, List.mem_append, not_or]
  exact ⟨⟨⟨by decide, escape_not_mem_toString _⟩, by decide⟩, by decide⟩

/-- Off a terminal, the remark is shown without its colour. -/
theorem shown_remark_append {count : Nat} (hmany : 1 < count) (text : String) :
    shown false (remark count ++ text) = line (line (remarkText count)) ++ shown false text := by
  have hclosing : ∀ rest, withoutSequences ("\x1b[0m".toList ++ rest) = withoutSequences rest :=
    fun rest => withoutSequences_of_behindSequence? (s := '0' :: 'm' :: rest) rfl
  rw [← String.toList_inj, remark, if_pos hmany]
  simp only [shown, Bool.false_eq_true, if_false, String.toList_ofList, String.toList_append,
    line, styled, List.append_assoc]
  rw [withoutSequences_codes_append, withoutSequences_append (escape_not_mem_remarkText count),
    withoutSequences_append (by decide), hclosing, withoutSequences_append (by decide)]

/-- No escape sequence starts in the remark and ends behind it. -/
theorem shown_remark_append_eq (onTerminal : Bool) {count : Nat} (hmany : 1 < count)
    (text : String) :
    shown onTerminal (remark count ++ text) =
      shown onTerminal (remark count) ++ shown onTerminal text := by
  cases onTerminal with
  | true => rfl
  | false =>
      have hremark := shown_remark_append hmany ""
      have hempty : shown false "" = "" := shown_eq_self (by decide) false
      rw [hempty, String.append_empty, String.append_empty] at hremark
      rw [shown_remark_append hmany, hremark]

/-! ## How texts start -/

theorem exists_toYaml (request : Request) :
    ∃ rest, request.toYaml.toList = "method: ".toList ++ rest := by
  have hkey : Yaml.keyPart 0 "method".toList = "method:".toList := by decide +kernel
  have hmethod : Request.memberLines ("method", .text request.method.name) =
      ["method: ".toList ++ Yaml.scalar (some 2) (Yaml.columnBehind 0 "method".toList + 1)
        request.method.name.toList] := by
    rw [Request.memberLines, Yaml.textEntry, hkey]
    rfl
  rw [Request.toYaml, String.toList_ofList, Request.members]
  simp only [List.cons_append, List.flatMap_cons, hmethod, List.nil_append, Text.intercalate_cons,
    List.append_assoc]
  exact ⟨_, rfl⟩

def Rendering.initial : Rendering → Char
  | json => '\x7b'
  | yaml => 'm'
  | code .curl => 'c'
  | code .fetch => 'c'
  | code .axios => 'i'

theorem Rendering.initial_ne (rendering : Rendering) :
    rendering.initial ≠ '\x1b' ∧ rendering.initial ≠ 'F' := by
  cases rendering with
  | json => decide
  | yaml => decide
  | code format => cases format <;> decide

theorem Rendering.head?_apply (request : Request) (rendering : Rendering) :
    (rendering.apply request).toList.head? = some rendering.initial := by
  cases rendering with
  | json => exact Json.head?_block "" _
  | yaml =>
      obtain ⟨rest, hrender⟩ := exists_toYaml request
      rw [apply, hrender]
      rfl
  | code format =>
      cases format with
      | curl =>
          obtain ⟨rest, hrender⟩ := Command.exists_render request
          rw [apply, OutputFormat.render, hrender]
          rfl
      | fetch =>
          obtain ⟨rest, hrender⟩ := Snippet.Fetch.exists_render request
          rw [apply, OutputFormat.render, hrender]
          rfl
      | axios =>
          obtain ⟨rest, hrender⟩ := Snippet.Axios.exists_render request
          rw [apply, OutputFormat.render, hrender]
          rfl

theorem head?_plain {text : Twofold String} {plain : String} {c : Char}
    (hfirst : text.first.toList.head? = some c) (hsecond : text.second.toList.head? = some c)
    (h : Text.plain text = .ok plain) : plain.toList.head? = some c := by
  obtain ⟨rest, hrest⟩ := List.head?_eq_some_iff.1 hfirst
  obtain ⟨other, hother⟩ := List.head?_eq_some_iff.1 hsecond
  have hsymbols : ∃ more, Text.symbols text = .char c :: more := by
    rw [Text.symbols, hrest, hother]
    exact ⟨_, congrArg (· :: _) (if_pos rfl)⟩
  obtain ⟨more, hmore⟩ := hsymbols
  unfold Text.plain at h
  cases hencode : Text.encode (Text.symbols text) with
  | error fault =>
      rw [hencode] at h
      cases h
  | ok cs =>
      rw [hencode] at h
      obtain rfl := Except.ok.inj h
      have hcs := (Text.eq_map_char_of_encode hencode).symm.trans hmore
      obtain ⟨d, ds, rfl, hd, -⟩ := List.map_eq_cons_iff.1 hcs
      rw [String.toList_ofList, List.head?_cons, Text.Symbol.char.inj hd]

/-- As JSON, what is printed is that of a request without halves. -/
theorem exists_toJson_of_firstPrinted {request : Twofold Request}
    {others : List (Twofold Request)} {first : String}
    (h : firstPrinted .json (request :: others) = .ok first) :
    ∃ plain : Request, first = line plain.toJson := by
  obtain ⟨text, happly, hfirst⟩ := firstPrinted_cons_eq_ok h
  rw [Rendering.applyTwofold] at happly
  cases hplain : Request.plain request with
  | error fault =>
      rw [hplain] at happly
      cases happly
  | ok plain =>
      rw [hplain] at happly
      obtain rfl := Except.ok.inj happly
      rw [Twofold.map_same, Text.plain_same] at hfirst
      exact ⟨plain, (Except.ok.inj hfirst).symm⟩

theorem head?_firstPrinted {rendering : Rendering} {request : Twofold Request}
    {others : List (Twofold Request)} {first : String}
    (h : firstPrinted rendering (request :: others) = .ok first) :
    first.toList.head? = some rendering.initial := by
  have hline (request : Request) :
      (line (rendering.apply request)).toList.head? = some rendering.initial := by
    rw [line, String.toList_append, List.head?_append, rendering.head?_apply, Option.some_or]
  cases rendering with
  | json =>
      obtain ⟨plain, rfl⟩ := exists_toJson_of_firstPrinted h
      exact hline plain
  | yaml =>
      obtain ⟨text, happly, hfirst⟩ := firstPrinted_cons_eq_ok h
      obtain rfl := Except.ok.inj happly
      refine head?_plain ?_ ?_ hfirst
      · exact hline request.first
      · exact hline request.second
  | code format =>
      obtain ⟨text, happly, hfirst⟩ := firstPrinted_cons_eq_ok h
      obtain rfl := Except.ok.inj happly
      refine head?_plain ?_ ?_ hfirst
      · exact hline request.first
      · exact hline request.second

/-- The remark starts with its colour, or with its own first letter where that is taken out. -/
theorem head?_shown_remark {count : Nat} (hmany : 1 < count) (onTerminal : Bool) (text : String) :
    (shown onTerminal (remark count ++ text)).toList.head? =
      some (if onTerminal then '\x1b' else 'F') := by
  cases onTerminal with
  | true =>
      rw [shown, if_pos rfl, remark, if_pos hmany]
      simp only [line, styled, String.toList_append, List.append_assoc]
      rfl
  | false =>
      rw [shown_remark_append hmany]
      simp only [line, remarkText, String.toList_append, List.append_assoc]
      rfl

/-- What is read as JSON starts neither with the remark nor with its colour. -/
theorem read_shown_remark_ne_ok {count : Nat} (hmany : 1 < count) (onTerminal : Bool)
    (text : String) (found : Json) :
    Json.read (shown onTerminal (remark count ++ text)) ≠ .ok found := by
  obtain ⟨rest, htext⟩ := List.head?_eq_some_iff.1 (head?_shown_remark hmany onTerminal text)
  cases onTerminal with
  | true => exact Json.read_ne_ok_of_head htext (by decide) (by decide) rfl rfl found
  | false => exact Json.read_ne_ok_of_head htext (by decide) (by decide) rfl rfl found

/-! ## Documents -/

theorem read_line_toJson (request : Request) :
    Json.read (line request.toJson) = .ok (.object request.fields) := by
  have hdocument : Json.document ([] ++ request.toJson.toList ++ ['\n']) =
      .ok (.object request.fields) :=
    Json.document_surrounded_eq_ok (Json.document_eq_ok_of_read request.read_toJson) (by simp)
      (by decide) (by decide)
  have hbreak : "\n".toList = ['\n'] := by decide
  have htext : (line request.toJson).toList = [] ++ request.toJson.toList ++ ['\n'] := by
    rw [line, String.toList_append, hbreak, List.nil_append]
  rw [Json.read, htext, hdocument]
  rfl

theorem shown_line_toJson (request : Request) (onTerminal : Bool) :
    shown onTerminal (line request.toJson) = line request.toJson := by
  apply shown_eq_self
  rw [line, String.toList_append, List.mem_append, not_or]
  exact ⟨fun hmem => absurd (request.isWritten_of_mem_toJson _ hmem) (by decide), by decide⟩

/-! ## The run -/

theorem convert_eq_succeed {invocation : Invocation} {options : Options} {text output : String}
    {format : InputFormat} {rendering : Rendering} {requests : List (Twofold Request)}
    (hplan : plan invocation options = .ok (text, format, rendering))
    (hread : format.readTwofold text = .ok requests)
    (hprint : print invocation.outputIsTerminal
      (conversionOutput rendering format options.all requests) = (output, none)) :
    convert invocation options =
      succeed invocation output (notes options format requests.length) := by
  rw [convert, hplan]
  simp only [hread, hprint, notes]
  split <;> rfl

/-- A run that succeeds had a text to read, could read it, and could print what is in it. -/
theorem exists_plan_of_exit_eq_zero {invocation : Invocation} {options : Options}
    (hoptions : Options.ofArguments invocation.args = .ok options)
    (hnotice : options.notice = none) (hexit : (run invocation).exit = 0) :
    ∃ text format rendering requests output,
      plan invocation options = .ok (text, format, rendering) ∧
      format.readTwofold text = .ok requests ∧
      print invocation.outputIsTerminal
        (conversionOutput rendering format options.all requests) = (output, none) := by
  have hcourse := course_run invocation
  generalize run invocation = outcome at hcourse hexit
  cases hcourse with
  | misused => cases hexit
  | unplanned => cases hexit
  | unread => cases hexit
  | stopped => cases hexit
  | noticed output hoptions' hnotice' =>
      obtain rfl := Except.ok.inj (hoptions.symm.trans hoptions')
      rw [hnotice] at hnotice'
      cases hnotice'
  | converted _ hoptions' _ hplan hread hprint =>
      obtain rfl := Except.ok.inj (hoptions.symm.trans hoptions')
      exact ⟨_, _, _, _, _, hplan, hread, hprint⟩

/-- Without `--all` the first request is printed, behind the remark if there are others. -/
theorem exists_firstPrinted_of_print {onTerminal : Bool} {rendering : Rendering}
    {format : InputFormat} {text output : String} {requests : List (Twofold Request)}
    (hread : format.readTwofold text = .ok requests)
    (hprint : print onTerminal (conversionOutput rendering format false requests) =
      (output, none)) :
    ∃ first, firstPrinted rendering requests = .ok first ∧
      output = shown onTerminal (remark requests.length ++ first) := by
  rw [conversionOutput_eq hread] at hprint
  by_cases hmany : 1 < requests.length
  · rw [if_pos hmany, List.singleton_append, print_cons_same] at hprint
    obtain ⟨rfl, hnone⟩ := Prod.mk.inj hprint
    obtain ⟨first, hfirst, hshown⟩ := exists_firstPrinted (Prod.ext rfl hnone)
    refine ⟨first, hfirst, ?_⟩
    rw [shown_remark_append_eq onTerminal hmany, ← hshown]
  · rw [if_neg hmany, List.nil_append] at hprint
    obtain ⟨first, hfirst, rfl⟩ := exists_firstPrinted hprint
    refine ⟨first, hfirst, ?_⟩
    rw [remark, if_neg hmany, String.empty_append]

section First

variable {requests : List (Twofold Request)} {first : String} (onTerminal : Bool)

/-- What is printed is the first request, unless there are others or an escape sequence is taken out
of it. -/
theorem shown_remark_append_eq_iff {rendering : Rendering}
    (hfirst : firstPrinted rendering requests = .ok first) :
    shown onTerminal (remark requests.length ++ first) = first ↔
      requests.length ≤ 1 ∧ (onTerminal = true ∨ ¬HoldsSequence first.toList) := by
  by_cases hmany : 1 < requests.length
  · refine iff_of_false (fun hsame => ?_) fun h => absurd hmany (Nat.not_lt.2 h.1)
    obtain ⟨request, others, rfl⟩ := List.exists_cons_of_length_pos (Nat.lt_of_succ_lt hmany)
    have hremark := head?_shown_remark hmany onTerminal first
    rw [hsame, head?_firstPrinted hfirst] at hremark
    cases onTerminal with
    | true => exact rendering.initial_ne.1 (Option.some.inj hremark)
    | false => exact rendering.initial_ne.2 (Option.some.inj hremark)
  · have hnone : remark requests.length = "" := if_neg hmany
    rw [hnone, String.empty_append, shown_eq_self_iff, and_iff_right (Nat.not_lt.1 hmany)]

/-- What is printed as JSON is a document exactly if it is the only request. -/
theorem exists_read_shown_remark_iff (hfirst : firstPrinted .json requests = .ok first) :
    (∃ found, Json.read (shown onTerminal (remark requests.length ++ first)) = .ok found) ↔
      requests.length = 1 := by
  match requests with
  | [] =>
      refine iff_of_false (fun h => ?_) (by decide)
      obtain ⟨found, hfound⟩ := h
      obtain rfl := Except.ok.inj hfirst
      have hempty : shown onTerminal (remark 0 ++ "") = "" := shown_eq_self (by decide) onTerminal
      rw [List.length_nil, hempty] at hfound
      obtain ⟨taken, -⟩ := Json.exists_of_document_eq_ok (Json.document_eq_ok_of_read hfound)
      exact absurd taken.shorter (Nat.not_lt_zero _)
  | [request] =>
      obtain ⟨plain, rfl⟩ := exists_toJson_of_firstPrinted hfirst
      refine iff_of_true ⟨.object plain.fields, ?_⟩ rfl
      rw [show remark [request].length = "" from rfl, String.empty_append]
      exact (congrArg Json.read (shown_line_toJson plain onTerminal)).trans
        (read_line_toJson plain)
  | request :: next :: others =>
      refine iff_of_false (fun h => ?_) (by simp)
      obtain ⟨found, hfound⟩ := h
      exact read_shown_remark_ne_ok (by simp) onTerminal _ found hfound

end First

/-- A run without `--all` that succeeds prints the first request of the text, with a remark before
it if there are others, and has nothing but the notes on standard error. So standard output is what
is written for the first request exactly if there is no other one and no escape sequence was taken
out, and with `--json` it is a document exactly if there is one request. If no half of a pair is
read, what is written for a request is its rendering. -/
theorem output_of_first_request {invocation : Invocation} {options : Options}
    (hoptions : Options.ofArguments invocation.args = .ok options)
    (hnotice : options.notice = none) (hall : options.all = false)
    (hexit : (run invocation).exit = 0) :
    ∃ text format rendering requests first,
      plan invocation options = .ok (text, format, rendering) ∧
      format.readTwofold text = .ok requests ∧
      firstPrinted rendering requests = .ok first ∧
      (run invocation).output = shown invocation.outputIsTerminal
        (remark requests.length ++ first) ∧
      (run invocation).error = notes options format requests.length ∧
      ((run invocation).output = first ↔
        requests.length ≤ 1 ∧ (invocation.outputIsTerminal = true ∨
          ¬HoldsSequence first.toList)) ∧
      (rendering = .json →
        ((∃ found, Json.read (run invocation).output = .ok found) ↔ requests.length = 1)) ∧
      (format.respelled text = text → ∃ plain, format.read text = .ok plain ∧
        requests = plain.map .same ∧ first = firstOutput rendering plain) := by
  obtain ⟨text, format, rendering, requests, output, hplan, hread, hprint⟩ :=
    exists_plan_of_exit_eq_zero hoptions hnotice hexit
  have hrun : run invocation = succeed invocation output (notes options format requests.length) := by
    rw [run_eq_convert hoptions hnotice, convert_eq_succeed hplan hread hprint]
  rw [hall] at hprint
  obtain ⟨first, hfirst, rfl⟩ := exists_firstPrinted_of_print hread hprint
  have houtput : (run invocation).output = shown invocation.outputIsTerminal
      (remark requests.length ++ first) := by rw [hrun]; rfl
  have herror : (run invocation).error = notes options format requests.length := by
    rw [hrun]
    exact shown_eq_self (escape_not_mem_notes options format requests.length) _
  refine ⟨text, format, rendering, requests, first, hplan, hread, hfirst, houtput, herror, ?_, ?_,
    ?_⟩
  · rw [houtput]
    exact shown_remark_append_eq_iff _ hfirst
  · rintro rfl
    rw [houtput]
    exact exists_read_shown_remark_iff _ hfirst
  · intro hsame
    have hplain := InputFormat.read_of_readTwofold hread
    have hrequests := InputFormat.readTwofold_of_respelled hsame hplain
    have hsame := Except.ok.inj (hread.symm.trans hrequests)
    rw [hsame, firstPrinted_same] at hfirst
    exact ⟨_, hplain, hsame, (Except.ok.inj hfirst).symm⟩

def addresses (urls : List String) : Json :=
  .object [("info", .object []), ("item", .array (urls.map Collection.requestAt))]

theorem requests_addresses (urls : List String) :
    Collection.requests (addresses urls) = .ok (urls.map fun url => { url }) := by
  have hitem : ∀ url, Collection.itemLeaves (Collection.requestAt url) = [.address url] :=
    fun url => Collection.itemLeaves_eq_of_children?_eq_none rfl
  have hfolder : Collection.IsFolder (addresses urls) (urls.map Collection.requestAt) := rfl
  rw [Collection.requests, Collection.leaves_eq_of_isFolder hfolder]
  clear hfolder
  induction urls with
  | nil => rfl
  | cons url urls ih =>
      rw [List.map_cons, List.flatMap_cons, hitem, List.singleton_append, List.mapM_cons, ih]
      rfl

/-- A command line that asks for the JSON of what is in a text, where there are no files. -/
def jsonLine (text : String) : Invocation where
  args := ["--json", text]
  directory := "/"
  bytesOf := fun _ => .error .missing

theorem ofArguments_jsonLine (text : String) (hword : text.toList.head? ≠ some '-') :
    Options.ofArguments (jsonLine text).args = .ok { json := true, words := [text] } := by
  have hjson : Argument.ofString "--json" = .switch .json := by decide
  rw [Options.ofArguments, jsonLine, Options.extend, hjson]
  dsimp only
  rw [Options.extend, ofString_eq_word hword]
  rfl

theorem plan_jsonLine (text : String) (hne : text ≠ "")
    (hdetect : InputFormat.detect? text = some .postman) :
    plan (jsonLine text) { json := true, words := [text] } = .ok (text, .postman, .json) := by
  have htext : sourceText (jsonLine text) { json := true, words := [text] } = .ok text :=
    sourceText_of_givenText rfl hne
  refine plan_eq_ok_iff.2 ⟨htext, ?_, rfl⟩
  change sourceFormat none text = _
  rw [sourceFormat, hdetect]
  rfl

theorem run_jsonLine {text : String} {request : Request} {others : List Request} (hne : text ≠ "")
    (hword : text.toList.head? ≠ some '-') (hdetect : InputFormat.detect? text = some .postman)
    (hhalves : InputFormat.respelled text .postman = text)
    (hread : InputFormat.read text .postman = .ok (request :: others)) :
    run (jsonLine text) =
      ⟨0, shown false (remark (request :: others).length ++ line request.toJson), ""⟩ := by
  have hplan := plan_jsonLine text hne hdetect
  have htwofold := InputFormat.readTwofold_of_respelled hhalves hread
  have hprint := print_conversionOutput_same false .json .postman false (request :: others)
  obtain ⟨first, hfirst, houtput⟩ := exists_firstPrinted_of_print htwofold hprint
  obtain rfl : firstOutput .json (request :: others) = first :=
    Except.ok.inj ((firstPrinted_same .json (request :: others)).symm.trans hfirst)
  rw [List.length_map] at houtput
  have herror : shown (jsonLine text).errorIsTerminal "" = "" := shown_eq_self (by decide) _
  rw [run_eq_convert (ofArguments_jsonLine text hword) rfl,
    convert_eq_succeed hplan htwofold hprint, houtput, succeed]
  exact congrArg (Outcome.mk 0 _) herror

/-- The JSON of a collection of one request. -/
theorem output_of_only_request :
    let text := "\x7b\"info\":\x7b\x7d,\"item\":[\x7b\"request\":\"/a\"\x7d]\x7d"
    Json.read text = .ok (addresses ["/a"]) ∧ (run (jsonLine text)).exit = 0 ∧
      (run (jsonLine text)).output = line (Request.toJson { url := "/a" }) ∧
      ∃ found, Json.read (run (jsonLine text)).output = .ok found := by
  intro text
  have hjson : Json.read text = .ok (addresses ["/a"]) := by decide +kernel
  have hread : InputFormat.read text .postman = .ok [{ url := "/a" }] := by
    simp only [InputFormat.read, hjson, requests_addresses]
    rfl
  have hhalves : InputFormat.respelled text .postman = text := by decide +kernel
  have hrun := run_jsonLine (by decide) (by decide) (by decide +kernel) hhalves hread
  have hexit : (run (jsonLine text)).exit = 0 := by rw [hrun]
  obtain ⟨_, _, _, requests, first, hplan, -, -, houtput, -, -, hdocument, hwhole⟩ :=
    output_of_first_request (ofArguments_jsonLine text (by decide)) rfl rfl hexit
  obtain ⟨rfl, rfl, rfl⟩ := by
    simpa using (plan_jsonLine text (by decide) (by decide +kernel)).symm.trans hplan
  obtain ⟨plain, hplain, rfl, rfl⟩ := hwhole hhalves
  obtain rfl := Except.ok.inj (hread.symm.trans hplain)
  refine ⟨hjson, hexit, houtput.trans ?_, (hdocument rfl).2 rfl⟩
  exact shown_line_toJson { url := "/a" } false

/-- Of two requests the first one is printed, but behind a remark. -/
theorem output_of_two_requests :
    let text := "\x7b\"info\":\x7b\x7d,\"item\":[\x7b\"request\":\"/a\"\x7d," ++
      "\x7b\"request\":\"/b\"\x7d]\x7d"
    Json.read text = .ok (addresses ["/a", "/b"]) ∧
      run (jsonLine text) = ⟨0, "Found 2 requests. Use --all to convert all, " ++
        "or showing first only.\n\n" ++ line (Request.toJson { url := "/a" }), ""⟩ ∧
      ∀ found, Json.read (run (jsonLine text)).output ≠ .ok found := by
  intro text
  have hjson : Json.read text = .ok (addresses ["/a", "/b"]) := by decide +kernel
  have hread : InputFormat.read text .postman = .ok [{ url := "/a" }, { url := "/b" }] := by
    simp only [InputFormat.read, hjson, requests_addresses]
    rfl
  have hrun := run_jsonLine (by decide) (by decide) (by decide +kernel) (by decide +kernel) hread
  have hmany : 1 < [({ url := "/a" } : Request), { url := "/b" }].length := by decide
  have hremark : line (line (remarkText 2)) =
      "Found 2 requests. Use --all to convert all, " ++ "or showing first only.\n\n" := by decide
  have houtput := shown_remark_append hmany (line (Request.toJson { url := "/a" }))
  rw [shown_line_toJson, List.length_cons, List.length_singleton, hremark] at houtput
  refine ⟨hjson, ?_, fun found => ?_⟩
  · rw [hrun]
    exact congrArg (Outcome.mk 0 · "") houtput
  · rw [hrun]
    exact read_shown_remark_ne_ok hmany false _ found

end RequestForms.CommandLine
