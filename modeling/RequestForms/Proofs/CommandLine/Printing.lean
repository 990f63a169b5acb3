import RequestForms.CommandLine.Run
import RequestForms.Proofs.Headers
import RequestForms.Proofs.Method

/-!
# Printing piece by piece

A text without halves of pairs is printed as it is, less its escape sequences off a terminal. So if
no halves are read, nothing keeps the pieces from being printed. Of several requests a piece is
printed before any of their texts, and of a single one there is but one piece.
-/

namespace RequestForms

/-! ## Requests without halves -/

theorem Twofold.mapM_same {ε α β : Type} {check : Twofold α → Except ε β} {f : α → β}
    (h : ∀ x, check (.same x) = .ok (f x)) (xs : List α) :
    (xs.map Twofold.same).mapM check = .ok (xs.map f) := by
  induction xs with
  | nil => rfl
  | cons x xs ih =>
      rw [List.map_cons, List.mapM_cons, h, ih]
      rfl

theorem Headers.plain_same (headers : Headers) :
    Headers.plain (.same headers) = .ok headers := by
  have hentries : Twofold.ofLists headers.entries headers.entries =
      headers.entries.map Twofold.same := Twofold.ofLists_self _
  rw [Headers.plain]
  simp only [Twofold.same, hentries]
  rw [Twofold.mapM_same (f := id)]
  · exact congrArg Except.ok (by rw [List.map_id, ofPairs_entries])
  · intro entry
    simp only [Twofold.map_same, Text.plain_same]
    rfl

theorem Credentials.plain_same (credentials : Credentials) :
    Credentials.plain (.same credentials) = .ok credentials := by
  simp only [Credentials.plain, Twofold.map_same, Text.plain_same]
  rfl

theorem Twofold.optionMapM_same {ε α : Type} {check : Twofold α → Except ε α}
    (h : ∀ x, check (.same x) = .ok x) (x : Option α) :
    (Twofold.ofOptions x x).mapM check = .ok x := by
  cases x with
  | none => rfl
  | some x =>
      change some <$> check (.same x) = _
      rw [h]
      rfl

theorem Request.plain_same (request : Request) : Request.plain (.same request) = .ok request := by
  have hmethod := Text.plain_same request.method.name
  have hurl := Text.plain_same request.url
  have hheaders := request.headers.plain_same
  have hbody := Twofold.optionMapM_same Text.plain_same request.body
  have htype := Twofold.optionMapM_same Text.plain_same request.contentType
  have hcredentials := Twofold.optionMapM_same Credentials.plain_same request.credentials
  simp only [Twofold.same] at hmethod hurl hheaders
  simp only [Request.plain, Twofold.same, hmethod, hurl, hheaders, hbody, htype, hcredentials]
  exact congrArg (fun method => Except.ok { request with method }) request.method.ofString_name

namespace InputFormat

/-- The requests that are read are those of the first reading. -/
theorem read_of_readTwofold {text : String} {format : InputFormat}
    {requests : List (Twofold Request)} (h : format.readTwofold text = .ok requests) :
    format.read text = .ok (requests.map Twofold.first) := by
  unfold readTwofold at h
  cases hresults : Twofold.ofResults (format.read text) (format.read (format.respelled text)) with
  | error fault =>
      rw [hresults] at h
      cases h
  | ok found =>
      rw [hresults] at h
      obtain rfl := Except.ok.inj h
      rw [Twofold.eq_ok_of_ofResults hresults, Twofold.map_first_ofLists]

theorem exists_readTwofold_eq_error_iff {text : String} {format : InputFormat} :
    (∃ fault, format.readTwofold text = .error fault) ↔
      ∃ error, format.read text = .error error := by
  rw [← Twofold.exists_ofResults_eq_error_iff (y := format.read (format.respelled text)),
    readTwofold]
  cases Twofold.ofResults (format.read text) (format.read (format.respelled text)) <;>
    simp [Except.map]

/-- Where no half is read, both readings are the same. -/
theorem readTwofold_of_respelled {text : String} {format : InputFormat}
    (h : format.respelled text = text) {requests : List Request}
    (hread : format.read text = .ok requests) :
    format.readTwofold text = .ok (requests.map Twofold.same) := by
  rw [readTwofold, h, hread, Twofold.ofResults_self]
  exact congrArg Except.ok (Twofold.ofLists_self requests)

end InputFormat

namespace CommandLine

/-! ## What shows of a text -/

/-- A character at which no escape sequence starts stays. -/
theorem withoutSequences_cons_of_none {c : Char} {rest : List Char}
    (h : ∀ inside, c :: rest = '\x1b' :: '[' :: inside → behindSequence? inside = none) :
    withoutSequences (c :: rest) = c :: withoutSequences rest := by
  rw [withoutSequences.eq_def]
  split
  · next hs => cases hs
  · next inside hs =>
      split
      · next behind hbehind =>
          rw [h inside hs] at hbehind
          cases hbehind
      · obtain ⟨rfl, rfl⟩ := List.cons.inj hs
        rfl
  · next hs =>
      obtain ⟨rfl, rfl⟩ := List.cons.inj hs
      rfl

theorem withoutSequences_cons {c : Char} (h : c ≠ '\x1b') (rest : List Char) :
    withoutSequences (c :: rest) = c :: withoutSequences rest :=
  withoutSequences_cons_of_none fun _ hs => absurd (List.cons.inj hs).1 h

/-- What stands before the first escape stays. -/
theorem withoutSequences_append {front : List Char} (h : '\x1b' ∉ front) (rest : List Char) :
    withoutSequences (front ++ rest) = front ++ withoutSequences rest := by
  induction front with
  | nil => rfl
  | cons c front ih =>
      rw [List.cons_append, withoutSequences_cons (List.ne_of_not_mem_cons h).symm,
        ih (List.not_mem_of_not_mem_cons h), List.cons_append]

/-- A text without escape sequences shows as it is. -/
theorem shown_eq_self {text : String} (h : '\x1b' ∉ text.toList) (onTerminal : Bool) :
    shown onTerminal text = text := by
  have hwithout : withoutSequences text.toList = text.toList := by
    have happend := withoutSequences_append h []
    rwa [List.append_nil, withoutSequences, List.append_nil] at happend
  rw [shown, hwithout, String.ofList_toList, ite_self]

theorem withoutSequences_of_behindSequence? {s rest : List Char}
    (h : behindSequence? s = some rest) :
    withoutSequences ('\x1b' :: '[' :: s) = withoutSequences rest := by
  rw [withoutSequences]
  split
  · next behind hbehind =>
      obtain rfl : rest = behind := Option.some.inj (h.symm.trans hbehind)
      rfl
  · next hbehind => rw [h] at hbehind; cases hbehind

theorem withoutSequences_codes_append (styling : Styling) (rest : List Char) :
    withoutSequences (styling.codes.toList ++ rest) = withoutSequences rest := by
  cases styling with
  | red => exact withoutSequences_of_behindSequence? (s := '3' :: '1' :: 'm' :: rest) rfl
  | yellow => exact withoutSequences_of_behindSequence? (s := '3' :: '3' :: 'm' :: rest) rfl
  | dim => exact withoutSequences_of_behindSequence? (s := '2' :: 'm' :: rest) rfl
  | heading =>
      calc withoutSequences ("\x1b[36m".toList ++ ("\x1b[1m".toList ++ rest))
        _ = withoutSequences ("\x1b[1m".toList ++ rest) :=
          withoutSequences_of_behindSequence? (s := '3' :: '6' :: 'm' :: _) rfl
        _ = withoutSequences rest :=
          withoutSequences_of_behindSequence? (s := '1' :: 'm' :: rest) rfl

/-- A text vanishes off a terminal neither behind a style nor if it starts with no escape at all. -/
theorem shown_ne_empty {text : String} {front rest : List Char} {c : Char}
    (htext : text.toList = front ++ c :: rest)
    (hfront : front = [] ∨ ∃ styling : Styling, front = styling.codes.toList) (hc : c ≠ '\x1b')
    (onTerminal : Bool) : shown onTerminal text ≠ "" := by
  intro hempty
  unfold shown at hempty
  split at hempty
  · rw [hempty] at htext
    simp at htext
  · have hwithout : withoutSequences text.toList = c :: withoutSequences rest := by
      rw [htext, ← withoutSequences_cons hc]
      rcases hfront with rfl | ⟨styling, rfl⟩
      · rfl
      · exact withoutSequences_codes_append styling (c :: rest)
    rw [hwithout] at hempty
    simp at hempty

/-! ## Escape sequences -/

def HoldsSequence (s : List Char) : Prop :=
  ∃ before inside, s = before ++ '\x1b' :: '[' :: inside ∧ (behindSequence? inside).isSome

theorem HoldsSequence.cons {s : List Char} (h : HoldsSequence s) (c : Char) :
    HoldsSequence (c :: s) := by
  obtain ⟨before, inside, rfl, hinside⟩ := h
  exact ⟨c :: before, inside, rfl, hinside⟩

/-- A text holds the escape sequences behind its first character if none starts there. -/
theorem holdsSequence_cons_iff {c : Char} {rest : List Char}
    (hnone : ∀ inside, c :: rest = '\x1b' :: '[' :: inside → behindSequence? inside = none) :
    HoldsSequence (c :: rest) ↔ HoldsSequence rest := by
  refine ⟨?_, fun h => h.cons c⟩
  rintro ⟨before, inside, hs, hinside⟩
  cases before with
  | nil =>
      rw [hnone inside hs] at hinside
      cases hinside
  | cons d before => exact ⟨before, inside, (List.cons.inj hs).2, hinside⟩

/-- The text behind an escape sequence, or behind a character at which none starts, comes first. -/
@[elab_as_elim]
theorem withoutSequences_induction {motive : List Char → Prop} (nil : motive [])
    (sequence : ∀ inside behind, behindSequence? inside = some behind → motive behind →
      motive ('\x1b' :: '[' :: inside))
    (character : ∀ c rest,
      (∀ inside, c :: rest = '\x1b' :: '[' :: inside → behindSequence? inside = none) →
      motive rest → motive (c :: rest))
    (s : List Char) : motive s := by
  induction s using withoutSequences.induct with
  | case1 => exact nil
  | case2 inside behind hbehind _ ih => exact sequence inside behind hbehind ih
  | case3 inside hnone ih =>
      refine character _ _ ?_ ih
      rintro _ ⟨⟩
      exact hnone
  | case4 c rest hne ih =>
      refine character c rest ?_ ih
      rintro inside ⟨⟩
      exact absurd rfl (hne inside rfl)

theorem length_withoutSequences_le (s : List Char) : (withoutSequences s).length ≤ s.length := by
  induction s using withoutSequences_induction with
  | nil => exact Nat.le_of_eq (congrArg List.length (by rw [withoutSequences]))
  | sequence inside behind hbehind ih =>
      have hlength := length_of_behindSequence? hbehind
      rw [withoutSequences_of_behindSequence? hbehind, List.length_cons, List.length_cons]
      omega
  | character c rest hnone ih =>
      rw [withoutSequences_cons_of_none hnone]
      exact Nat.succ_le_succ ih

theorem withoutSequences_eq_self_iff (s : List Char) :
    withoutSequences s = s ↔ ¬HoldsSequence s := by
  induction s using withoutSequences_induction with
  | nil =>
      rw [withoutSequences]
      refine iff_of_true rfl ?_
      rintro ⟨before, inside, hs, -⟩
      simp at hs
  | sequence inside behind hbehind ih =>
      -- what is taken out is not empty, and nothing is put in its place
      have hlength := length_of_behindSequence? hbehind
      have hle := length_withoutSequences_le behind
      rw [withoutSequences_of_behindSequence? hbehind]
      refine iff_of_false (fun h => ?_) (not_not_intro ⟨[], inside, rfl, by rw [hbehind]; rfl⟩)
      rw [h, List.length_cons, List.length_cons] at hle
      omega
  | character c rest hnone ih =>
      rw [withoutSequences_cons_of_none hnone, List.cons_inj_right, ih,
        holdsSequence_cons_iff hnone]

/-- A text shows as it is on a terminal, and elsewhere if there is no escape sequence in it. -/
theorem shown_eq_self_iff {onTerminal : Bool} {text : String} :
    shown onTerminal text = text ↔ onTerminal = true ∨ ¬HoldsSequence text.toList := by
  cases onTerminal with
  | true => exact iff_of_true rfl (Or.inl rfl)
  | false =>
      rw [← withoutSequences_eq_self_iff, ← String.toList_inj]
      simp [shown]

/-! ## Pieces -/

theorem printPiece_same (onTerminal : Bool) (text : String) :
    printPiece onTerminal (.ok (.same text)) = .ok (shown onTerminal text) := by
  simp only [printPiece, Text.plain_same]

theorem print_cons_same (onTerminal : Bool) (text : String) (rest : List Piece) :
    print onTerminal (.ok (.same text) :: rest) =
      (shown onTerminal text ++ (print onTerminal rest).1, (print onTerminal rest).2) := by
  simp only [print, printPiece_same]

theorem print_singleton_same (onTerminal : Bool) (text : String) :
    print onTerminal [.ok (.same text)] = (shown onTerminal text, none) := by
  rw [print_cons_same, print, String.append_empty]

/-- Printing stops exactly if there is a piece that cannot be printed. -/
theorem exists_print_eq_some_iff {onTerminal : Bool} {pieces : List Piece} :
    (∃ error, (print onTerminal pieces).2 = some error) ↔
      ∃ piece ∈ pieces, ∃ error, printPiece onTerminal piece = .error error := by
  induction pieces with
  | nil => simp [print]
  | cons piece rest ih =>
      rw [List.exists_mem_cons_iff, ← ih, print]
      cases hpiece : printPiece onTerminal piece with
      | error error => simp
      | ok text => simp

theorem Rendering.applyTwofold_same (request : Request) (rendering : Rendering) :
    rendering.applyTwofold (.same request) = .ok (.same (rendering.apply request)) := by
  cases rendering with
  | json =>
      rw [applyTwofold, Request.plain_same]
      rfl
  | yaml => rfl
  | code format => rfl

/-- A request without halves is printed in pieces without halves. -/
theorem exists_same_of_mem_listing {rendering : Rendering} {many : Bool} {requests : List Request}
    {number : Nat} {piece : Piece}
    (h : piece ∈ listing rendering many number (requests.map Twofold.same)) :
    ∃ text, piece = .ok (.same text) := by
  induction requests generalizing number with
  | nil => cases h
  | cons request requests ih =>
      rw [List.map_cons, listing, Rendering.applyTwofold_same] at h
      simp only [List.mem_append] at h
      rcases h with ((h | h) | h) | h
      · split at h
        · rcases List.mem_pair.1 h with rfl | rfl
          · exact ⟨_, rfl⟩
          · exact ⟨_, rfl⟩
        · cases h
      · exact ⟨_, List.mem_singleton.1 h⟩
      · split at h
        · cases h
        · exact ⟨_, List.mem_singleton.1 h⟩
      · exact ih h

theorem exists_same_of_mem_conversionOutput {rendering : Rendering} {format : InputFormat}
    {all : Bool} {requests : List Request} {piece : Piece}
    (h : piece ∈ conversionOutput rendering format all (requests.map Twofold.same)) :
    ∃ text, piece = .ok (.same text) := by
  unfold conversionOutput at h
  split at h
  · rcases List.mem_cons.1 h with rfl | h
    · exact ⟨_, rfl⟩
    · rw [← List.map_take] at h
      exact exists_same_of_mem_listing h
  · exact exists_same_of_mem_listing h

theorem shown_styled_ne_empty (styling : Styling) {text : String} {c : Char}
    (hhead : text.toList.head? = some c) (hc : c ≠ '\x1b') (onTerminal : Bool) :
    shown onTerminal (line (styled styling text)) ≠ "" := by
  obtain ⟨rest, htext⟩ := List.head?_eq_some_iff.1 hhead
  have hline : (line (styled styling text)).toList =
      styling.codes.toList ++ c :: (rest ++ "\x1b[0m\n".toList) := by
    simp only [line, styled, String.toList_append, htext, List.cons_append, List.append_assoc]
    rfl
  exact shown_ne_empty hline (Or.inr ⟨styling, rfl⟩) hc onTerminal

/-- Nothing keeps requests without halves from being printed. -/
theorem print_conversionOutput_same (onTerminal : Bool) (rendering : Rendering)
    (format : InputFormat) (all : Bool) (requests : List Request) :
    print onTerminal (conversionOutput rendering format all (requests.map Twofold.same)) =
      ((print onTerminal (conversionOutput rendering format all
        (requests.map Twofold.same))).1, none) := by
  refine Prod.ext rfl (Option.eq_none_iff_forall_ne_some.2 fun error herror => ?_)
  obtain ⟨piece, hpiece, fault, hfault⟩ := exists_print_eq_some_iff.1 ⟨error, herror⟩
  obtain ⟨text, rfl⟩ := exists_same_of_mem_conversionOutput hpiece
  rw [printPiece_same] at hfault
  cases hfault

/-- Before the texts of several requests stands a remark or a heading. -/
theorem exists_conversionOutput_eq_cons (rendering : Rendering) (format : InputFormat) (all : Bool)
    {requests : List (Twofold Request)} (h : 1 < requests.length) :
    ∃ front pieces,
      conversionOutput rendering format all requests = .ok (.same front) :: pieces ∧
        ∀ onTerminal, shown onTerminal front ≠ "" := by
  unfold conversionOutput
  split
  · refine ⟨_, _, rfl, shown_styled_ne_empty .yellow ?_ (by decide : 'F' ≠ '\x1b')⟩
    simp only [line, String.toList_append, List.append_assoc]
    rfl
  · match requests, h with
    | request :: others, h =>
        rw [listing, decide_eq_true h]
        refine ⟨_, _, rfl, shown_styled_ne_empty .heading ?_ (by decide : '-' ≠ '\x1b')⟩
        simp only [String.toList_append, List.append_assoc]
        rfl

theorem conversionOutput_nil (rendering : Rendering) (format : InputFormat) (all : Bool) :
    conversionOutput rendering format all [] = [] := by
  simp [conversionOutput, listing]

/-- A single request is one piece, whatever the options say on several ones. -/
theorem conversionOutput_singleton (rendering : Rendering) (format : InputFormat) (all : Bool)
    (request : Twofold Request) :
    conversionOutput rendering format all [request] =
      [(rendering.applyTwofold request).map (·.map line)] := by
  simp [conversionOutput, listing]

end CommandLine

end RequestForms
