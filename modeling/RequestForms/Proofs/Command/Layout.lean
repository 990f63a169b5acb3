import RequestForms.Command.Session
import RequestForms.Proofs.Command.Arguments
import RequestForms.Proofs.Command.Unquoted

/-!
# Line breaks between words and inside of them

Between quoted words any mix of spaces and continued lines is as good as one space, so that all
layouts of a command have the same arguments. The lines are joined before any quotes are seen,
though: a quoted word in which a backslash stands before a line break is read with a space there.
-/

namespace RequestForms.Command

open Text (isBlank isUnbroken isUnbroken_cons startsLine stripStart KeepsLine)

/-! ## Between words -/

/-- A step from one word towards the next: a space, or a backslash and a line break with any blanks
behind them. -/
inductive Gap : List Char → Prop
  | space : Gap [' ']
  | line {blanks : List Char} (hblanks : ∀ c ∈ blanks, isBlank c = true) :
      Gap ('\\' :: '\n' :: blanks)
  | returnLine {blanks : List Char} (hblanks : ∀ c ∈ blanks, isBlank c = true) :
      Gap ('\\' :: '\r' :: '\n' :: blanks)

inductive Separator : List Char → Prop
  | single {gap : List Char} (hgap : Gap gap) : Separator gap
  | cons {gap separator : List Char} (hgap : Gap gap) (hseparator : Separator separator) :
      Separator (gap ++ separator)

/-- Quoted words, each behind a separator. -/
inductive Layout : List Char → List String → Prop
  | nil : Layout [] []
  | cons {separator layout : List Char} {args : List String} (hseparator : Separator separator)
      (arg : String) (hlayout : Layout layout args) :
      Layout (separator ++ (Shell.quoteChars arg.toList ++ layout)) (arg :: args)

/-- Quoted words, each behind at least one space. -/
inductive Spaced : List Char → List String → Prop
  | nil : Spaced [] []
  | cons (n : Nat) (arg : String) {line : List Char} {args : List String} (hline : Spaced line args) :
      Spaced (List.replicate (n + 1) ' ' ++ (Shell.quoteChars arg.toList ++ line)) (arg :: args)

/-- A text whose lines are joined into some spaces and then another text. -/
def JoinsBehindSpaces (text joined : List Char) : Prop :=
  ∃ n, joinLines text = List.replicate n ' ' ++ joined

theorem JoinsBehindSpaces.cons {text joined before : List Char}
    (h : JoinsBehindSpaces text joined) (hbefore : joinLines before = ' ' :: joinLines text) :
    ∃ n, joinLines before = List.replicate (n + 1) ' ' ++ joined := by
  obtain ⟨n, hn⟩ := h
  exact ⟨n, by rw [hbefore, hn, List.replicate_succ, List.cons_append]⟩

/-- A gap that continues a line becomes one space, together with the blanks behind it. -/
theorem Gap.eq_space_or_joinLines_append {gap : List Char} (h : Gap gap) (text : List Char) :
    gap = [' '] ∨ (∃ line, gap = '\\' :: line) ∧
      joinLines (gap ++ text) = ' ' :: joinLines (stripStart text) := by
  cases h with
  | space => exact Or.inl rfl
  | line hblanks =>
      refine Or.inr ⟨⟨_, rfl⟩, ?_⟩
      rw [List.cons_append, List.cons_append, joinLines, Text.stripStart_append_of_blank hblanks]
  | returnLine hblanks =>
      refine Or.inr ⟨⟨_, rfl⟩, ?_⟩
      rw [List.cons_append, List.cons_append, List.cons_append, joinLines,
        Text.stripStart_append_of_blank hblanks]

/-- A gap becomes one space. Where it continues a line it takes the blanks behind it along, also
those of later gaps, so that both cases are needed of what follows. -/
theorem Gap.joinLines_append {gap text joined : List Char} (hgap : Gap gap)
    (htext : JoinsBehindSpaces text joined)
    (hstrip : JoinsBehindSpaces (stripStart text) joined) :
    (∃ n, joinLines (gap ++ text) = List.replicate (n + 1) ' ' ++ joined) ∧
      JoinsBehindSpaces (stripStart (gap ++ text)) joined := by
  rcases hgap.eq_space_or_joinLines_append text with rfl | ⟨⟨line, rfl⟩, hjoin⟩
  · rw [List.singleton_append, Text.stripStart_cons_of_blank (by decide)]
    exact ⟨htext.cons (joinLines_cons (by simp)), hstrip⟩
  · have hself : stripStart ('\\' :: line ++ text) = '\\' :: line ++ text :=
      Text.stripStart_cons_of_not_blank (by decide) _
    obtain ⟨n, hn⟩ := hstrip.cons hjoin
    rw [hself]
    exact ⟨⟨n, hn⟩, n + 1, hn⟩

/-- A separator becomes spaces, at least one. -/
theorem Separator.joinLines_append {separator text : List Char} (h : Separator separator)
    (htext : stripStart text = text) :
    ∃ n, joinLines (separator ++ text) = List.replicate (n + 1) ' ' ++ joinLines text := by
  have hself : JoinsBehindSpaces text (joinLines text) := ⟨0, rfl⟩
  have hboth : (∃ n, joinLines (separator ++ text) =
      List.replicate (n + 1) ' ' ++ joinLines text) ∧
        JoinsBehindSpaces (stripStart (separator ++ text)) (joinLines text) := by
    induction h with
    | single hgap => exact hgap.joinLines_append hself (by rwa [htext])
    | cons hgap _ ih =>
        obtain ⟨⟨n, hn⟩, hstrip⟩ := ih
        rw [List.append_assoc]
        exact hgap.joinLines_append ⟨n + 1, hn⟩ hstrip
  exact hboth.1

theorem Gap.keepsLine_append {gap : List Char} (h : Gap gap) (rest : List Char) :
    KeepsLine (gap ++ rest) := by
  cases h <;> exact ⟨by simp, by simp⟩

theorem Layout.keepsLine {layout : List Char} {args : List String} (h : Layout layout args) :
    KeepsLine layout := by
  cases h with
  | nil => exact ⟨by simp, by simp⟩
  | cons hseparator arg _ =>
      cases hseparator with
      | single hgap => exact hgap.keepsLine_append _
      | cons hgap _ =>
          rw [List.append_assoc]
          exact hgap.keepsLine_append _

/-- Every layout is joined into one line of the same words. -/
theorem Layout.spaced_joinLines {layout : List Char} {args : List String} (h : Layout layout args)
    (hargs : ∀ arg ∈ args, isUnbroken arg.toList = true) : Spaced (joinLines layout) args := by
  induction h with
  | nil =>
      rw [joinLines]
      exact .nil
  | @cons _ layout args hseparator arg hlayout ih =>
      have hstart : stripStart (Shell.quoteChars arg.toList ++ layout) =
          Shell.quoteChars arg.toList ++ layout :=
        Text.stripStart_cons_of_not_blank (by decide) _
      obtain ⟨n, hn⟩ := hseparator.joinLines_append hstart
      rw [hn, joinLines_append (isUnbroken_quoteChars (hargs arg (by simp)))
        hlayout.keepsLine]
      exact .cons n arg (ih fun a ha => hargs a (List.mem_cons_of_mem arg ha))

/-! ## The words of one line -/

theorem split_replicate_space_append (n : Nat) (rest : List Char) :
    Shell.split (List.replicate n ' ' ++ rest) = Shell.split rest := by
  induction n with
  | zero => rfl
  | succ n ih => rw [List.replicate_succ, List.cons_append, Shell.split_cons_space, ih]

theorem Spaced.split_append {line : List Char} {args : List String} (h : Spaced line args)
    {front : List Char} (hfront : Shell.modeAfter .bare front = .bare) :
    Shell.split (front ++ line) =
      Shell.split front ++ args.flatMap fun arg => Shell.split (Shell.quoteChars arg.toList) := by
  induction h generalizing front with
  | nil => simp
  | cons n arg _ ih =>
      rw [List.replicate_succ, List.cons_append, Shell.split_append_space hfront,
        split_replicate_space_append, ih (Shell.modeAfter_quoteChars _), List.flatMap_cons]

theorem Spaced.stripEnd_eq {line : List Char} {args : List String} (h : Spaced line args) :
    Text.stripEnd line = line := by
  induction h with
  | nil => rfl
  | cons n arg _ ih =>
      have hword := Text.stripEnd_append_of_stripEnd
        (Text.stripEnd_eq_self_of_strip (strip_quoteChars arg.toList))
      rw [Text.stripEnd_append_of_ne_nil, hword, ih]
      rw [hword]
      exact List.append_ne_nil_of_left_ne_nil (List.cons_ne_nil _ _) _

/-- However a command is laid out, it is read as its words. -/
theorem split_normalizeChars_layout {layout : List Char} {args : List String}
    (h : Layout layout args) (hne : args ≠ [])
    (hargs : ∀ arg ∈ args, isUnbroken arg.toList = true) :
    Shell.split (normalizeChars ("curl".toList ++ layout)) =
      args.flatMap fun arg => Shell.split (Shell.quoteChars arg.toList) := by
  have hjoin : joinLines ("curl".toList ++ layout) = "curl".toList ++ joinLines layout :=
    joinLines_append (by decide) h.keepsLine
  have hspaced := h.spaced_joinLines hargs
  generalize joinLines layout = joined at hjoin hspaced
  cases hspaced with
  | nil => exact absurd rfl hne
  | @cons n arg line args hline =>
      have hword : Shell.quoteChars arg.toList ≠ [] := List.cons_ne_nil _ _
      have hstrip : Text.strip (Shell.quoteChars arg.toList ++ line) =
          Shell.quoteChars arg.toList ++ line := by
        rw [Text.strip_append hword (strip_quoteChars _), hline.stripEnd_eq]
      have hspaces : ∀ c ∈ List.replicate (n + 1) ' ', isBlank c = true := by
        intro c hc
        rw [List.eq_of_mem_replicate hc]
        decide
      rw [normalizeChars_of_joinLines hjoin hspaces (by simp) hstrip
          (List.append_ne_nil_of_left_ne_nil hword _),
        hline.split_append (Shell.modeAfter_quoteChars _), List.flatMap_cons]

/-- All layouts of a command have its words as arguments, and so describe the same request. -/
theorem arguments_layout {layout : List Char} {args : List String} (h : Layout layout args)
    (hne : args ≠ [])
    (hargs : ∀ arg ∈ args, arg ≠ "" ∧ isUnbroken arg.toList = true) :
    arguments ("curl" ++ String.ofList layout) = args ∧
      read ("curl" ++ String.ofList layout) = ofArguments args := by
  have hwords : args.flatMap (fun arg => Shell.split (Shell.quoteChars arg.toList)) =
      args.map String.toList := by
    rw [List.map_eq_flatMap]
    apply List.flatMap_congr
    intro arg harg
    rw [Shell.split_quoteChars, if_neg (by simpa using (hargs arg harg).1)]
  have harguments : arguments ("curl" ++ String.ofList layout) = args := by
    have htext : ("curl" ++ String.ofList layout).toList = "curl".toList ++ layout := by
      simp only [String.toList_append, String.toList_ofList]
    rw [arguments_eq_iff_split_eq, htext,
      split_normalizeChars_layout h hne fun arg harg => (hargs arg harg).2, hwords]
  exact ⟨harguments, congrArg ofArguments harguments⟩

/-- Spaces, both kinds of continued lines, tabs and empty lines between words with a quote, a
backslash and a line break in them. -/
theorem arguments_layout_of_all_gaps :
    let layout := " \\\n\t\n  'it'\\''s \\'\\\r\n\\\n 'a\nb'".toList
    let args := ["it's \\", "a\nb"]
    Layout layout args ∧ args ≠ [] ∧
      (∀ arg ∈ args, arg ≠ "" ∧ isUnbroken arg.toList = true) ∧
      arguments ("curl" ++ String.ofList layout) = args ∧
      read ("curl" ++ String.ofList layout) = ofArguments args := by
  intro layout args
  have hfirst : Separator " \\\n\t\n  ".toList :=
    .cons .space (.single (@Gap.line "\t\n  ".toList (by decide)))
  have hsecond : Separator "\\\r\n\\\n ".toList :=
    .cons (@Gap.returnLine [] (by decide)) (.single (@Gap.line [' '] (by decide)))
  have hlayout : Layout layout args := .cons hfirst "it's \\" (.cons hsecond "a\nb" .nil)
  have hargs : ∀ arg ∈ args, arg ≠ "" ∧ isUnbroken arg.toList = true := by decide
  exact ⟨hlayout, by decide, hargs, arguments_layout hlayout (by decide) hargs⟩

/-! ## Inside of words -/

/-- A character that starts no continued line. -/
theorem not_continued {c : Char} {rest : List Char}
    (hline : ∀ more, c = '\\' → rest = '\n' :: more → False)
    (hreturn : ∀ more, c = '\\' → rest = '\r' :: '\n' :: more → False) :
    ¬(c = '\\' ∧ startsLine rest = true) := by
  rintro ⟨hc, hrest⟩
  obtain ⟨more, hmore | hmore⟩ := Text.exists_of_startsLine hrest
  · exact hline more hc hmore
  · exact hreturn more hc hmore

theorem joinLines_eq_self_iff {text : List Char} :
    joinLines text = text ↔ isUnbroken text = true := by
  refine ⟨fun h => ?_, joinLines_of_isUnbroken⟩
  induction text using joinLines.induct with
  | case1 rest _ =>
      rw [joinLines] at h
      cases h
  | case2 rest _ =>
      rw [joinLines] at h
      cases h
  | case3 c rest hline hreturn ih =>
      rw [joinLines.eq_3 c rest hline hreturn] at h
      exact isUnbroken_cons.2 ⟨not_continued hline hreturn, ih (List.cons.inj h).2⟩
  | case4 => rfl

theorem joinLines_ne_nil {text : List Char} (h : text ≠ []) : joinLines text ≠ [] := by
  unfold joinLines
  split
  · exact List.cons_ne_nil _ _
  · exact List.cons_ne_nil _ _
  · exact List.cons_ne_nil _ _
  · exact absurd rfl h

theorem stripStart_quotedTail (s : List Char) :
    stripStart (Shell.quotedTail s) = Shell.quotedTail (stripStart s) := by
  induction s with
  | nil => rfl
  | cons c s ih =>
      cases hc : isBlank c with
      | true =>
          have hquote : c ≠ '\'' := by
            rintro rfl
            cases hc
          rw [Shell.quotedTail, if_neg hquote, Text.stripStart_cons_of_blank hc,
            Text.stripStart_cons_of_blank hc, ih]
      | false =>
          rw [Text.stripStart_cons_of_not_blank hc, Shell.quotedTail]
          split
          · rfl
          · exact Text.stripStart_cons_of_not_blank hc _

/-- Quotes do not keep the lines of a text apart. -/
theorem joinLines_quotedTail (s : List Char) :
    joinLines (Shell.quotedTail s) = Shell.quotedTail (joinLines s) := by
  induction s using joinLines.induct with
  | case1 rest ih =>
      change joinLines ('\\' :: '\n' :: Shell.quotedTail rest) = _
      rw [joinLines, stripStart_quotedTail, ih, joinLines]
      rfl
  | case2 rest ih =>
      change joinLines ('\\' :: '\r' :: '\n' :: Shell.quotedTail rest) = _
      rw [joinLines, stripStart_quotedTail, ih, joinLines]
      rfl
  | case3 c rest hline hreturn ih =>
      have hc := not_continued hline hreturn
      rw [joinLines_cons hc, Shell.quotedTail, Shell.quotedTail]
      split
      · rw [joinLines_cons (by simp), joinLines_cons (by simp [startsLine]),
          joinLines_cons (by simp), joinLines_cons (by simp), ih]
      · rw [joinLines_cons (by rwa [startsLine_quotedTail]), ih]
  | case4 =>
      have hnil : joinLines [] = [] := by rw [joinLines]
      rw [hnil]
      exact joinLines_of_isUnbroken (by decide)

theorem joinLines_quoteChars (s : List Char) :
    joinLines (Shell.quoteChars s) = Shell.quoteChars (joinLines s) := by
  rw [Shell.quoteChars, joinLines_cons (by simp), joinLines_quotedTail]
  rfl

/-- A quoted word is read with its own lines joined, and so is read back exactly if no backslash
stands before a line break in it. -/
theorem arguments_quote_eq_iff {word : String} (hne : word ≠ "") :
    arguments ("curl " ++ Shell.quote word) = [String.ofList (joinLines word.toList)] ∧
      (arguments ("curl " ++ Shell.quote word) = [word] ↔ isUnbroken word.toList = true) := by
  have htext : ("curl " ++ Shell.quote word).toList =
      "curl".toList ++ ([' '] ++ Shell.quoteChars word.toList) := by
    rw [String.toList_append, Shell.toList_quote]
    rfl
  have hjoin : joinLines ("curl " ++ Shell.quote word).toList =
      "curl".toList ++ ([' '] ++ Shell.quoteChars (joinLines word.toList)) := by
    rw [htext, joinLines_append (by decide) ⟨by simp, by simp⟩, List.singleton_append,
      joinLines_cons (by simp), joinLines_quoteChars]
    rfl
  have hwords : arguments ("curl " ++ Shell.quote word) =
      [String.ofList (joinLines word.toList)] := by
    rw [arguments_eq_iff_split_eq, normalizeChars_of_joinLines hjoin (by decide) (by simp)
        (strip_quoteChars _) (List.cons_ne_nil _ _),
      Shell.split_quoteChars, if_neg (joinLines_ne_nil (by simpa using hne))]
    simp
  refine ⟨hwords, ?_⟩
  rw [hwords, List.singleton_inj, ← String.toList_inj, String.toList_ofList, joinLines_eq_self_iff]

/-- All that a shell treats in a way of its own, but for a line break behind a backslash. -/
theorem arguments_quote_of_marks :
    let word := " curl -d\t'\\' \"\n\\\r$"
    word ≠ "" ∧ isUnbroken word.toList = true ∧
      arguments ("curl " ++ Shell.quote word) = [word] := by
  intro word
  have hunbroken : isUnbroken word.toList = true := by decide
  exact ⟨by decide, hunbroken, (arguments_quote_eq_iff (by decide)).2.2 hunbroken⟩

/-- A backslash before a line break is lost from a quoted word together with the break. -/
theorem arguments_quote_ne_of_continued_line :
    let word := "/a\\\n b"
    word ≠ "" ∧ arguments ("curl " ++ Shell.quote word) = ["/a b"] ∧
      arguments ("curl " ++ Shell.quote word) ≠ [word] := by
  decide +kernel

end RequestForms.Command
