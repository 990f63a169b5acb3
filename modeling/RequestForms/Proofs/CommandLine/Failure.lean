import RequestForms.Proofs.Collection.Leaves
import RequestForms.Proofs.CommandLine.Printing

/-!
# Failing runs

A run can fail at any stage, from its options to the last leaf of a collection. Until all requests
are made up nothing is printed but notes on standard error. But a request that holds half a pair
only fails when it is printed, and if it is one of several, something was printed before it.
-/

namespace RequestForms.CommandLine

/-! ## The stages -/

/-- A run that makes up some requests and comes to a piece that it cannot print. -/
inductive Stops (invocation : Invocation) (requests : List (Twofold Request)) : Prop
  | intro {options : Options} {text : String} {format : InputFormat} {rendering : Rendering}
      {piece : Piece} {error : RunError}
      (hoptions : Options.ofArguments invocation.args = .ok options)
      (hnotice : options.notice = none)
      (hplan : plan invocation options = .ok (text, format, rendering))
      (hread : format.readTwofold text = .ok requests)
      (hpiece : piece ∈ conversionOutput rendering format options.all requests)
      (h : printPiece invocation.outputIsTerminal piece = .error error)

/-- The stages at which a run fails. -/
inductive Fails (invocation : Invocation) : Prop
  /-- An option lacks its value or has one that it does not take. -/
  | options {error : UsageError} (h : Options.ofArguments invocation.args = .error error)
  /-- There is no text, or it cannot be read or decoded. -/
  | source {options : Options} {error : RunError}
      (hoptions : Options.ofArguments invocation.args = .ok options)
      (hnotice : options.notice = none) (h : sourceText invocation options = .error error)
  /-- The form of the text is not known. -/
  | format {options : Options} {text : String} {error : RunError}
      (hoptions : Options.ofArguments invocation.args = .ok options)
      (hnotice : options.notice = none) (htext : sourceText invocation options = .ok text)
      (h : sourceFormat (orEnvironment options.source invocation.defaultSource) text =
        .error error)
  /-- The form to write is not known. -/
  | target {options : Options} {error : RunError}
      (hoptions : Options.ofArguments invocation.args = .ok options)
      (hnotice : options.notice = none)
      (h : options.rendering invocation.defaultTarget = .error error)
  /-- A collection is no JSON. -/
  | document {options : Options} {text : String} {rendering : Rendering} {failure : Json.Failure}
      (hoptions : Options.ofArguments invocation.args = .ok options)
      (hnotice : options.notice = none)
      (hplan : plan invocation options = .ok (text, .postman, rendering))
      (h : Json.read text = .error failure)
  /-- A leaf of a collection, wherever it stands, is no request. -/
  | leaf {options : Options} {text : String} {rendering : Rendering} {collection : Json}
      {leaf : Collection.Leaf} {fault : Collection.Fault}
      (hoptions : Options.ofArguments invocation.args = .ok options)
      (hnotice : options.notice = none)
      (hplan : plan invocation options = .ok (text, .postman, rendering))
      (hread : Json.read text = .ok collection) (hleaf : leaf ∈ Collection.leaves collection)
      (h : leaf.request = .error fault)
  /-- A piece of what is printed cannot be printed. -/
  | piece {requests : List (Twofold Request)} (h : Stops invocation requests)

/-! ## The courses of a run -/

def AreNotes (notes : String) : Prop := notes = "" ∨ notes.toList.head? = some 'I'

theorem areNotes_append {verbose : Bool} (format : InputFormat) {more : String}
    (h : verbose = false → more = "") :
    AreNotes ((if verbose then line s!"Input format: {format.name}" else "") ++ more) := by
  cases verbose with
  | false =>
      rw [h rfl]
      exact Or.inl rfl
  | true =>
      refine Or.inr ?_
      rw [if_pos rfl]
      simp only [line, String.toList_append, List.append_assoc]
      rfl

/-- How a run can go, with what it leaves behind. -/
inductive Course (invocation : Invocation) : Outcome → Prop
  | misused {error : UsageError} (h : Options.ofArguments invocation.args = .error error) :
      Course invocation
        ⟨2, "", shown invocation.errorIsTerminal (line ("Error: " ++ error.message))⟩
  | noticed {options : Options} {notice : Notice} (output : String)
      (hoptions : Options.ofArguments invocation.args = .ok options)
      (hnotice : options.notice = some notice) : Course invocation (succeed invocation output "")
  | unplanned {options : Options} {error : RunError}
      (hoptions : Options.ofArguments invocation.args = .ok options)
      (hnotice : options.notice = none) (hplan : plan invocation options = .error error) :
      Course invocation (fail invocation "" "" error)
  | unread {options : Options} {text : String} {format : InputFormat} {rendering : Rendering}
      {notes : String} {error : Twofold ConversionError}
      (hoptions : Options.ofArguments invocation.args = .ok options)
      (hnotice : options.notice = none)
      (hplan : plan invocation options = .ok (text, format, rendering))
      (hnotes : AreNotes notes)
      (hread : format.readTwofold text = .error error) :
      Course invocation (fail invocation "" notes (.conversion error))
  | stopped {options : Options} {text : String} {format : InputFormat} {rendering : Rendering}
      {requests : List (Twofold Request)} {output notes : String} {error : RunError}
      (hoptions : Options.ofArguments invocation.args = .ok options)
      (hnotice : options.notice = none)
      (hplan : plan invocation options = .ok (text, format, rendering))
      (hnotes : AreNotes notes)
      (hread : format.readTwofold text = .ok requests)
      (hprint : print invocation.outputIsTerminal
        (conversionOutput rendering format options.all requests) = (output, some error)) :
      Course invocation (fail invocation output notes error)
  | converted {options : Options} {text : String} {format : InputFormat} {rendering : Rendering}
      {requests : List (Twofold Request)} {output : String} (notes : String)
      (hoptions : Options.ofArguments invocation.args = .ok options)
      (hnotice : options.notice = none)
      (hplan : plan invocation options = .ok (text, format, rendering))
      (hread : format.readTwofold text = .ok requests)
      (hprint : print invocation.outputIsTerminal
        (conversionOutput rendering format options.all requests) = (output, none)) :
      Course invocation (succeed invocation output notes)

theorem course_run (invocation : Invocation) : Course invocation (run invocation) := by
  unfold run
  split
  · next error herror => exact .misused herror
  · next options hoptions =>
      split
      · next hnotice => exact .noticed _ hoptions hnotice
      · next hnotice => exact .noticed _ hoptions hnotice
      · next hnotice =>
          unfold convert
          split
          · next error hplan => exact .unplanned hoptions hnotice hplan
          · next text format rendering hplan =>
              dsimp only
              split
              · next error hread =>
                  have hnotes := @areNotes_append options.verbose format "" fun _ => rfl
                  rw [String.append_empty] at hnotes
                  exact .unread hoptions hnotice hplan hnotes hread
              · next requests hread =>
                  split
                  · next output hprint => exact .converted _ hoptions hnotice hplan hread hprint
                  · next output error hprint =>
                      refine .stopped hoptions hnotice hplan (areNotes_append format ?_) hread hprint
                      exact fun hquiet => if_neg (Bool.eq_false_iff.1 hquiet)

/-- Where no notice is asked for, a run is a conversion. -/
theorem run_eq_convert {invocation : Invocation} {options : Options}
    (hoptions : Options.ofArguments invocation.args = .ok options)
    (hnotice : options.notice = none) : run invocation = convert invocation options := by
  unfold run
  simp only [hoptions, hnotice]

theorem plan_eq_ok_iff {invocation : Invocation} {options : Options} {text : String}
    {format : InputFormat} {rendering : Rendering} :
    plan invocation options = .ok (text, format, rendering) ↔
      sourceText invocation options = .ok text ∧
      sourceFormat (orEnvironment options.source invocation.defaultSource) text = .ok format ∧
      options.rendering invocation.defaultTarget = .ok rendering := by
  simp only [plan, Collection.bind_eq_ok_iff, pure, Except.pure, Except.ok.injEq, Prod.mk.injEq]
  constructor
  · rintro ⟨_, htext, _, hformat, _, hrendering, rfl, rfl, rfl⟩
    exact ⟨htext, hformat, hrendering⟩
  · rintro ⟨htext, hformat, hrendering⟩
    exact ⟨text, htext, format, hformat, rendering, hrendering, rfl, rfl, rfl⟩

/-- There is no plan exactly if one of its three parts is missing. -/
theorem exists_plan_eq_error_iff {invocation : Invocation} {options : Options} :
    (∃ error, plan invocation options = .error error) ↔
      (∃ error, sourceText invocation options = .error error) ∨
      (∃ text error, sourceText invocation options = .ok text ∧
        sourceFormat (orEnvironment options.source invocation.defaultSource) text =
          .error error) ∨
      ∃ error, options.rendering invocation.defaultTarget = .error error := by
  cases htext : sourceText invocation options with
  | error error => simp [plan, htext, bind, Except.bind]
  | ok text =>
      cases hformat : sourceFormat (orEnvironment options.source invocation.defaultSource)
        text with
      | error error => simp [plan, htext, hformat, bind, Except.bind]
      | ok format =>
          cases hrendering : options.rendering invocation.defaultTarget with
          | error error => simp [plan, htext, hformat, hrendering, bind, Except.bind]
          | ok rendering =>
              simp [plan_eq_ok_iff.2 ⟨htext, hformat, hrendering⟩, hformat]

theorem exists_mapError_eq_error_iff {α ε ε' : Type} {x : Except ε α} {f : ε → ε'} :
    (∃ error, x.mapError f = .error error) ↔ ∃ fault, x = .error fault := by
  cases x <;> simp [Except.mapError]

/-- Only a collection can fail to be read, as a whole or at one of its leaves. -/
theorem exists_read_eq_error_iff {text : String} {format : InputFormat} :
    (∃ error, format.read text = .error error) ↔
      format = .postman ∧ ((∃ failure, Json.read text = .error failure) ∨
        ∃ collection leaf fault, Json.read text = .ok collection ∧
          leaf ∈ Collection.leaves collection ∧ leaf.request = .error fault) := by
  cases format with
  | curl => simp [InputFormat.read]
  | fetch => simp [InputFormat.read]
  | axios => simp [InputFormat.read]
  | postman =>
      simp only [true_and]
      cases hread : Json.read text with
      | error failure => simp [InputFormat.read, hread]
      | ok collection =>
          simp only [InputFormat.read, hread]
          rw [exists_mapError_eq_error_iff, Collection.requests,
            Collection.exists_mapM_eq_error_iff]
          constructor
          · rintro ⟨leaf, hleaf, fault, hfault⟩
            exact Or.inr ⟨collection, leaf, fault, rfl, hleaf, hfault⟩
          · rintro (⟨failure, h⟩ | ⟨collection', leaf, fault, h, hleaf, hfault⟩)
            · cases h
            · obtain rfl := Except.ok.inj h
              exact ⟨leaf, hleaf, fault, hfault⟩

/-- Behind its options a run fails at its plan, at the text that it reads or at what it prints. -/
theorem fails_iff {invocation : Invocation} {options : Options}
    (hoptions : Options.ofArguments invocation.args = .ok options) :
    Fails invocation ↔ options.notice = none ∧
      ((∃ error, plan invocation options = .error error) ∨
        (∃ text format rendering, plan invocation options = .ok (text, format, rendering) ∧
          ∃ error, format.readTwofold text = .error error) ∨
        ∃ requests, Stops invocation requests) := by
  simp only [exists_plan_eq_error_iff, InputFormat.exists_readTwofold_eq_error_iff,
    exists_read_eq_error_iff]
  constructor
  · intro h
    cases h with
    | options h => rw [hoptions] at h; cases h
    | source hoptions' hnotice h =>
        obtain rfl := Except.ok.inj (hoptions.symm.trans hoptions')
        exact ⟨hnotice, .inl (.inl ⟨_, h⟩)⟩
    | format hoptions' hnotice htext h =>
        obtain rfl := Except.ok.inj (hoptions.symm.trans hoptions')
        exact ⟨hnotice, .inl (.inr (.inl ⟨_, _, htext, h⟩))⟩
    | target hoptions' hnotice h =>
        obtain rfl := Except.ok.inj (hoptions.symm.trans hoptions')
        exact ⟨hnotice, .inl (.inr (.inr ⟨_, h⟩))⟩
    | document hoptions' hnotice hplan h =>
        obtain rfl := Except.ok.inj (hoptions.symm.trans hoptions')
        exact ⟨hnotice, .inr (.inl ⟨_, _, _, hplan, rfl, .inl ⟨_, h⟩⟩)⟩
    | leaf hoptions' hnotice hplan hread hleaf h =>
        obtain rfl := Except.ok.inj (hoptions.symm.trans hoptions')
        exact ⟨hnotice, .inr (.inl ⟨_, _, _, hplan, rfl, .inr ⟨_, _, _, hread, hleaf, h⟩⟩)⟩
    | piece h =>
        have hstops := h
        obtain ⟨hoptions', hnotice⟩ := h
        obtain rfl := Except.ok.inj (hoptions.symm.trans hoptions')
        exact ⟨hnotice, .inr (.inr ⟨_, hstops⟩)⟩
  · rintro ⟨hnotice, ((⟨_, h⟩ | ⟨_, _, htext, h⟩ | ⟨_, h⟩) |
      ⟨_, _, _, hplan, rfl, ⟨_, h⟩ | ⟨_, _, _, hread, hleaf, h⟩⟩ | ⟨_, h⟩)⟩
    · exact .source hoptions hnotice h
    · exact .format hoptions hnotice htext h
    · exact .target hoptions hnotice h
    · exact .document hoptions hnotice hplan h
    · exact .leaf hoptions hnotice hplan hread hleaf h
    · exact .piece h

/-- The pieces of some requests are printed in full exactly if the run does not stop at one. -/
theorem stops_iff {invocation : Invocation} {options : Options} {text : String}
    {format : InputFormat} {rendering : Rendering} {requests : List (Twofold Request)}
    (hoptions : Options.ofArguments invocation.args = .ok options)
    (hnotice : options.notice = none)
    (hplan : plan invocation options = .ok (text, format, rendering))
    (hread : format.readTwofold text = .ok requests) (found : List (Twofold Request)) :
    Stops invocation found ↔ found = requests ∧ ∃ error,
      (print invocation.outputIsTerminal
        (conversionOutput rendering format options.all requests)).2 = some error := by
  rw [exists_print_eq_some_iff]
  constructor
  · rintro ⟨hoptions', -, hplan', hread', hpiece, h⟩
    obtain rfl := Except.ok.inj (hoptions.symm.trans hoptions')
    obtain ⟨rfl, rfl, rfl⟩ := by simpa using hplan.symm.trans hplan'
    obtain rfl := Except.ok.inj (hread.symm.trans hread')
    exact ⟨rfl, _, hpiece, _, h⟩
  · rintro ⟨rfl, piece, hpiece, error, h⟩
    exact ⟨hoptions, hnotice, hplan, hread, hpiece, h⟩

theorem fails_of_exit_ne_zero {invocation : Invocation} {outcome : Outcome}
    (hcourse : Course invocation outcome) (hexit : outcome.exit ≠ 0) : Fails invocation := by
  cases hcourse with
  | misused h => exact .options h
  | noticed output hoptions hnotice => exact absurd rfl hexit
  | unplanned hoptions hnotice hplan => exact (fails_iff hoptions).2 ⟨hnotice, .inl ⟨_, hplan⟩⟩
  | unread hoptions hnotice hplan hnotes hread =>
      exact (fails_iff hoptions).2 ⟨hnotice, .inr (.inl ⟨_, _, _, hplan, _, hread⟩)⟩
  | stopped hoptions hnotice hplan hnotes hread hprint =>
      exact .piece ((stops_iff hoptions hnotice hplan hread _).2 ⟨rfl, _, congrArg Prod.snd hprint⟩)
  | converted notes hoptions hnotice hplan hread hprint => exact absurd rfl hexit

theorem exit_ne_zero_of_fails {invocation : Invocation} {outcome : Outcome}
    (hcourse : Course invocation outcome) (h : Fails invocation) : outcome.exit ≠ 0 := by
  cases hcourse with
  | misused => exact Nat.succ_ne_zero 1
  | unplanned => exact Nat.succ_ne_zero 0
  | unread => exact Nat.succ_ne_zero 0
  | stopped => exact Nat.succ_ne_zero 0
  | noticed output hoptions hnotice =>
      have hnone := ((fails_iff hoptions).1 h).1
      rw [hnotice] at hnone
      cases hnone
  | converted notes hoptions hnotice hplan hread hprint =>
      obtain ⟨-, ⟨error, herror⟩ | ⟨text, format, rendering, hplan', error, herror⟩ |
        ⟨requests, hstops⟩⟩ := (fails_iff hoptions).1 h
      · rw [hplan] at herror
        cases herror
      · obtain ⟨rfl, rfl, rfl⟩ := by simpa using hplan.symm.trans hplan'
        rw [hread] at herror
        cases herror
      · obtain ⟨-, error, herror⟩ := (stops_iff hoptions hnotice hplan hread _).1 hstops
        rw [hprint] at herror
        cases herror

/-! ## What a failing run leaves behind -/

theorem fail_error_ne_empty (invocation : Invocation) (output : String) {notes : String}
    (error : RunError) (h : AreNotes notes) : (fail invocation output notes error).error ≠ "" := by
  rcases h with rfl | hhead
  · have htext : ("" ++ line (styled .red "Error:" ++ " " ++ error.message)).toList =
        Styling.red.codes.toList ++
          'E' :: ("rror:\x1b[0m ".toList ++ error.message.toList ++ ['\n']) := by
      simp only [line, styled, String.toList_append, List.append_assoc]
      rfl
    exact shown_ne_empty htext (Or.inr ⟨.red, rfl⟩) (by decide) _
  · obtain ⟨rest, hnotes⟩ := List.head?_eq_some_iff.1 hhead
    have htext : (notes ++ line (styled .red "Error:" ++ " " ++ error.message)).toList =
        [] ++ 'I' :: (rest ++ (line (styled .red "Error:" ++ " " ++ error.message)).toList) := by
      rw [String.toList_append, hnotes]
      rfl
    exact shown_ne_empty htext (Or.inl rfl) (by decide) _

theorem shown_usage_ne_empty (error : UsageError) (onTerminal : Bool) :
    shown onTerminal (line ("Error: " ++ error.message)) ≠ "" := by
  have htext : (line ("Error: " ++ error.message)).toList =
      [] ++ 'E' :: ("rror: ".toList ++ (error.message.toList ++ ['\n'])) := by
    simp only [line, String.toList_append, List.append_assoc]
    rfl
  exact shown_ne_empty htext (Or.inl rfl) (by decide) onTerminal

theorem Course.exit_mem {invocation : Invocation} {outcome : Outcome}
    (h : Course invocation outcome) : outcome.exit ∈ [0, 1, 2] := by
  cases h <;> simp [succeed, fail]

theorem Course.error_ne_empty {invocation : Invocation} {outcome : Outcome}
    (h : Course invocation outcome) (hexit : outcome.exit ≠ 0) : outcome.error ≠ "" := by
  cases h with
  | @misused error _ => exact shown_usage_ne_empty error _
  | noticed => exact absurd rfl hexit
  | @unplanned _ error _ _ _ => exact fail_error_ne_empty invocation "" error (Or.inl rfl)
  | unread _ _ _ hnotes _ => exact fail_error_ne_empty invocation "" _ hnotes
  | stopped _ _ _ hnotes _ _ => exact fail_error_ne_empty invocation _ _ hnotes
  | converted => exact absurd rfl hexit

/-- What is printed of pieces of which one cannot be printed: something if there are several
requests, and nothing of a single one. -/
theorem print_conversionOutput_eq_empty_iff {onTerminal : Bool} {rendering : Rendering}
    {format : InputFormat} {all : Bool} {requests : List (Twofold Request)} {output : String}
    {error : RunError}
    (h : print onTerminal (conversionOutput rendering format all requests) =
      (output, some error)) : output = "" ↔ ¬1 < requests.length := by
  by_cases hmany : 1 < requests.length
  · obtain ⟨front, pieces, hpieces, hfront⟩ :=
      exists_conversionOutput_eq_cons rendering format all hmany
    rw [hpieces, print_cons_same] at h
    obtain ⟨rfl, -⟩ := Prod.mk.inj h
    exact iff_of_false (fun hempty => hfront onTerminal (String.append_eq_empty_iff.1 hempty).1)
      (not_not_intro hmany)
  · refine iff_of_true ?_ hmany
    rcases requests with _ | ⟨request, _ | ⟨next, others⟩⟩
    · rw [conversionOutput_nil] at h
      cases h
    · rw [conversionOutput_singleton, print] at h
      split at h
      · exact (Prod.mk.inj h).1.symm
      · cases h
    · exact absurd (Nat.succ_lt_succ (Nat.zero_lt_succ _)) hmany

/-- A run that fails has printed something exactly if it comes to a piece that it cannot print and
there are several requests. -/
theorem Course.output_eq_empty_iff {invocation : Invocation} {outcome : Outcome}
    (h : Course invocation outcome) (hexit : outcome.exit ≠ 0) :
    outcome.output = "" ↔ ¬∃ requests, Stops invocation requests ∧ 1 < requests.length := by
  -- before it prints, a run does not stop at a piece, and leaves nothing behind
  have hbefore (hnone : ∀ requests, ¬Stops invocation requests) :
      "" = "" ↔ ¬∃ requests, Stops invocation requests ∧ 1 < requests.length :=
    iff_of_true rfl fun ⟨requests, hstops, _⟩ => hnone requests hstops
  cases h with
  | noticed => exact absurd rfl hexit
  | converted => exact absurd rfl hexit
  | misused h =>
      refine hbefore fun requests ⟨hoptions, _, _, _, _, _⟩ => ?_
      rw [h] at hoptions
      cases hoptions
  | unplanned hoptions hnotice hplan =>
      refine hbefore fun requests ⟨hoptions', _, hplan', _, _, _⟩ => ?_
      obtain rfl := Except.ok.inj (hoptions.symm.trans hoptions')
      rw [hplan] at hplan'
      cases hplan'
  | unread hoptions hnotice hplan hnotes hread =>
      refine hbefore fun requests ⟨hoptions', _, hplan', hread', _, _⟩ => ?_
      obtain rfl := Except.ok.inj (hoptions.symm.trans hoptions')
      obtain ⟨rfl, rfl, rfl⟩ := by simpa using hplan.symm.trans hplan'
      rw [hread] at hread'
      cases hread'
  | @stopped _ _ _ _ requests _ _ _ hoptions hnotice hplan hnotes hread hprint =>
      have hstops := stops_iff hoptions hnotice hplan hread
      refine (print_conversionOutput_eq_empty_iff hprint).trans (not_congr ?_)
      constructor
      · exact fun hmany => ⟨requests, (hstops requests).2 ⟨rfl, _, congrArg Prod.snd hprint⟩, hmany⟩
      · rintro ⟨found, hfound, hmany⟩
        obtain ⟨rfl, -⟩ := (hstops found).1 hfound
        exact hmany

/-- Only half a pair in a collection keeps something from being printed. -/
theorem Stops.respelled_ne {invocation : Invocation} {requests : List (Twofold Request)}
    (h : Stops invocation requests) :
    ∃ options text rendering, Options.ofArguments invocation.args = .ok options ∧
      plan invocation options = .ok (text, .postman, rendering) ∧
      Json.respelled text.toList ≠ text.toList := by
  obtain @⟨options, text, format, rendering, piece, error, hoptions, -, hplan, hread, hpiece, h⟩ := h
  have hrespelled : format.respelled text ≠ text := by
    intro hsame
    have hfirst := InputFormat.read_of_readTwofold hread
    rw [InputFormat.readTwofold_of_respelled hsame hfirst] at hread
    rw [← Except.ok.inj hread] at hpiece
    obtain ⟨printed, rfl⟩ := exists_same_of_mem_conversionOutput hpiece
    rw [printPiece_same] at h
    cases h
  cases format with
  | postman =>
      refine ⟨options, text, rendering, hoptions, hplan, fun hsame => hrespelled ?_⟩
      rw [InputFormat.respelled, hsame, String.ofList_toList]
  | curl => exact absurd rfl hrespelled
  | fetch => exact absurd rfl hrespelled
  | axios => exact absurd rfl hrespelled

/-- A run that fails says what is wrong on standard error. It leaves standard output empty, but for
one stage: if it has read several requests and comes to half a pair when it prints them, the remark
or the first heading at least has been printed before. -/
theorem output_eq_empty_iff_of_exit_ne_zero (invocation : Invocation) :
    (run invocation).exit ∈ [0, 1, 2] ∧
      ((run invocation).exit ≠ 0 ↔ Fails invocation) ∧
      ((run invocation).exit ≠ 0 → (run invocation).error ≠ "" ∧
        ((run invocation).output = "" ↔
          ¬∃ requests, Stops invocation requests ∧ 1 < requests.length)) ∧
      ∀ requests, Stops invocation requests →
        ∃ options text rendering, Options.ofArguments invocation.args = .ok options ∧
          plan invocation options = .ok (text, .postman, rendering) ∧
          Json.respelled text.toList ≠ text.toList :=
  have hcourse := course_run invocation
  ⟨hcourse.exit_mem, ⟨fails_of_exit_ne_zero hcourse, exit_ne_zero_of_fails hcourse⟩,
    fun hexit => ⟨hcourse.error_ne_empty hexit, hcourse.output_eq_empty_iff hexit⟩,
    fun _ hstops => hstops.respelled_ne⟩

/-- All requests of a collection of two addresses, of which the second holds half a pair. -/
def halfLine : Invocation where
  args := ["--all", "\x7b\"info\":\x7b\x7d,\"item\":[\x7b\"request\":\"/a\"\x7d," ++
    "\x7b\"request\":\"/\\ud800\"\x7d]\x7d"]
  directory := "/"
  bytesOf := fun _ => .error .missing

/-- The first request is printed in full, and the heading of the second one. -/
theorem run_halfLine :
    run halfLine = ⟨1, "--- Request 1 ---\nGET /a\n\nconst response = await fetch('/a');\n\n" ++
      "const data = await response.json();\nconsole.log(data);\n\n--- Request 2 ---\n",
      "Error: 'utf-8' codec can't encode character '\\ud800' in position 5: " ++
        "surrogates not allowed\n"⟩ := by
  decide +kernel

theorem exists_stops_halfLine :
    (run halfLine).exit = 1 ∧ (run halfLine).error ≠ "" ∧
      ∃ requests, Stops halfLine requests ∧ 1 < requests.length ∧
        ∃ options text rendering, Options.ofArguments halfLine.args = .ok options ∧
          plan halfLine options = .ok (text, .postman, rendering) ∧
          Json.respelled text.toList ≠ text.toList := by
  have hexit : (run halfLine).exit = 1 := by rw [run_halfLine]
  have hfails : (run halfLine).exit ≠ 0 := by rw [hexit]; decide
  have houtput : (run halfLine).output ≠ "" := by rw [run_halfLine]; decide
  obtain ⟨-, -, hleft, hhalf⟩ := output_eq_empty_iff_of_exit_ne_zero halfLine
  obtain ⟨herror, hempty⟩ := hleft hfails
  obtain ⟨requests, hstops, hmany⟩ := not_not.1 fun hnone => houtput (hempty.2 hnone)
  exact ⟨hexit, herror, requests, hstops, hmany, hhalf requests hstops⟩

theorem output_ne_empty_of_second_request :
    ¬((run halfLine).exit ≠ 0 → (run halfLine).output = "") := by
  rw [run_halfLine]
  decide

end RequestForms.CommandLine
