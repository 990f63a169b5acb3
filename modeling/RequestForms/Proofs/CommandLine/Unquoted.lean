import RequestForms.Proofs.Command.Unquoted
import RequestForms.Proofs.CommandLine.Failure
import RequestForms.Proofs.Format

/-!
# Unquoted commands on the command line

A command can follow the options as it is. Its arguments pass the reading of the options and are
joined with spaces, and what is printed is the request of the command that they make up so. That is
the request of the arguments themselves if these need no quotes.
-/

namespace RequestForms.CommandLine

/-- The one-letter flags of a command that are no options here. -/
def foreignFlags : List String := ["-X", "-H", "-d", "-u", "-A", "-b", "-e", "-L", "-k"]

/-- An argument of a command that is not taken for an option. -/
def PassesThrough (arg : String) : Prop :=
  arg ∈ foreignFlags ∨ arg ≠ "" ∧ arg.toList.head? ≠ some '-'

instance (arg : String) : Decidable (PassesThrough arg) := inferInstanceAs (Decidable (_ ∨ _))

theorem PassesThrough.ne_empty {arg : String} (h : PassesThrough arg) : arg ≠ "" := by
  rintro rfl
  exact absurd h (by decide)

/-! ## The options -/

theorem Options.addWords_addWords (options : Options) (words more : List String) :
    (options.addWords words).addWords more = options.addWords (words ++ more) := by
  simp only [addWords, List.append_assoc]

theorem ofString_eq_word {arg : String} (h : arg.toList.head? ≠ some '-') :
    Argument.ofString arg = .word arg := by
  unfold Argument.ofString
  split
  · next hs => rw [hs] at h; exact absurd rfl h
  · next hs => rw [hs] at h; exact absurd rfl h
  · rfl

theorem Options.extend_cons {arg : String} (h : PassesThrough arg) (options : Options)
    (rest : List String) :
    options.extend (arg :: rest) = (options.addWords [arg]).extend rest := by
  rcases h with hflag | ⟨-, hword⟩
  · have hcluster : ∀ flag ∈ foreignFlags, ∃ letter, Argument.ofString flag =
        .cluster ⟨[], [letter], none⟩ ∧ String.ofList ['-', letter] = flag := by
      simp only [foreignFlags, List.forall_mem_cons]
      exact ⟨⟨'X', by decide⟩, ⟨'H', by decide⟩, ⟨'d', by decide⟩, ⟨'u', by decide⟩,
        ⟨'A', by decide⟩, ⟨'b', by decide⟩, ⟨'e', by decide⟩, ⟨'L', by decide⟩,
        ⟨'k', by decide⟩, by simp⟩
    obtain ⟨letter, hcluster, hletter⟩ := hcluster arg hflag
    rw [Options.extend, hcluster]
    change (options.addWords [String.ofList ['-', letter]]).extend rest = _
    rw [hletter]
  · rw [Options.extend, ofString_eq_word hword]

theorem Options.extend_eq {args : List String} (h : ∀ arg ∈ args, PassesThrough arg)
    (options : Options) : options.extend args = .ok (options.addWords args) := by
  induction args generalizing options with
  | nil => rw [extend, addWords, List.append_nil]
  | cons arg args ih =>
      rw [extend_cons (h arg (by simp)), ih fun a ha => h a (List.mem_cons_of_mem arg ha),
        addWords_addWords]
      rfl

def commandOptions (target : String) (args : List String) : Options :=
  { target := some target, words := "curl" :: args }

theorem ofArguments_command {args : List String} (h : ∀ arg ∈ args, PassesThrough arg)
    (target : String) :
    Options.ofArguments ("--to" :: target :: "curl" :: args) =
      .ok (commandOptions target args) := by
  have hto : Argument.ofString "--to" = .setting "--to" .target none := by decide
  have hall : ∀ arg ∈ "curl" :: args, PassesThrough arg :=
    List.forall_mem_cons.2 ⟨by decide, h⟩
  rw [Options.ofArguments, Options.extend, hto]
  exact Options.extend_eq hall _

/-! ## The form of the text -/

open Command (unquoted)

theorem unquoted_ne_empty (args : List String) : unquoted args ≠ "" := by
  intro hempty
  cases args with
  | nil => exact absurd hempty (by decide)
  | cons arg args =>
      have htext := Command.toList_unquoted (List.cons_ne_nil arg args)
      rw [hempty] at htext
      cases htext

theorem toList_trim_unquoted {args : List String} (h : args ≠ []) :
    (Text.trim (unquoted args)).toList =
      "curl".toList ++ Text.stripEnd ([' '] ++ (" ".intercalate args).toList) := by
  rw [Text.toList_trim, Command.toList_unquoted h, Text.strip_append (by decide) (by decide),
    List.singleton_append]

theorem detect?_unquoted {args : List String}
    (h : Text.stripEnd (" ".intercalate args).toList ≠ []) :
    InputFormat.detect? (unquoted args) = some .curl := by
  have hne : args ≠ [] := by
    rintro rfl
    exact h rfl
  have hstarts : ("curl ".toList.isPrefixOf (Text.trim (unquoted args)).toList) = true := by
    rw [toList_trim_unquoted hne, Text.stripEnd_append_of_ne_nil h]
    rfl
  unfold InputFormat.detect?
  simp only [hstarts, Bool.true_or, if_true]

/-- The name of the program with nothing but blanks behind it is not taken for a command. -/
theorem detect?_unquoted_eq_none {args : List String}
    (h : Text.stripEnd (" ".intercalate args).toList = []) :
    InputFormat.detect? (unquoted args) = none := by
  have htrim : Text.trim (unquoted args) = "curl" := by
    cases args with
    | nil => decide
    | cons arg args =>
        obtain ⟨b, hb, htext⟩ :=
          Text.exists_stripEnd_append_blank (" ".intercalate (arg :: args)).toList
        rw [h, List.nil_append] at htext
        rw [← String.toList_inj, toList_trim_unquoted (List.cons_ne_nil arg args), htext,
          Text.stripEnd_append_of_blank hb]
        decide
  have hcollection : InputFormat.isCollection "curl" = false :=
    InputFormat.isCollection_eq_false (by decide : "curl".toList = 'c' :: ['u', 'r', 'l'])
      (Or.inl rfl)
  unfold InputFormat.detect?
  rw [htrim]
  simp only [hcollection]
  decide

/-! ## The run -/

section Run

variable {invocation : Invocation} {args : List String} {target : OutputFormat}

theorem sourceFormat_unquoted (args : List String)
    (hsource : ∀ name ∈ invocation.defaultSource, name = "" ∨ name = "curl") :
    sourceFormat (orEnvironment none invocation.defaultSource) (unquoted args) = .ok .curl ∨
      sourceFormat (orEnvironment none invocation.defaultSource) (unquoted args) =
          .error .undetected ∧
        Text.stripEnd (" ".intercalate args).toList = [] := by
  have hdetected : sourceFormat none (unquoted args) = .ok .curl ∨
      sourceFormat none (unquoted args) = .error .undetected ∧
        Text.stripEnd (" ".intercalate args).toList = [] := by
    by_cases hblank : Text.stripEnd (" ".intercalate args).toList = []
    · exact Or.inr ⟨by rw [sourceFormat, detect?_unquoted_eq_none hblank]; rfl, hblank⟩
    · exact Or.inl (by rw [sourceFormat, detect?_unquoted hblank]; rfl)
  cases hname : invocation.defaultSource with
  | none => exact hdetected
  | some name =>
      rcases hsource name hname with rfl | rfl
      · exact hdetected
      · exact Or.inl rfl

theorem rendering_commandOptions (target : OutputFormat) (args : List String)
    (defaultTarget : Option String) :
    (commandOptions target.name args).rendering defaultTarget = .ok (.code target) := by
  cases target <;> rfl

/-- Standard input does not matter if the command line gives a text. -/
theorem sourceText_of_givenText {invocation : Invocation} {options : Options} {text : String}
    (hgiven : givenText invocation options = .ok text) (hne : text ≠ "") :
    sourceText invocation options = .ok text := by
  unfold sourceText
  rw [hgiven]
  split
  · next hempty => exact absurd (Except.ok.inj hempty) hne
  · rfl

theorem sourceText_commandOptions (invocation : Invocation) (target : String)
    (args : List String) :
    sourceText invocation (commandOptions target args) = .ok (unquoted args) :=
  sourceText_of_givenText rfl (unquoted_ne_empty args)

theorem convert_eq_of_plan {options : Options} {text : String} (hverbose : options.verbose = false)
    (hplan : plan invocation options = .ok (text, .curl, .code target)) :
    convert invocation options = succeed invocation
      (shown invocation.outputIsTerminal (line (target.render (Command.read text)))) "" := by
  have hfirst : InputFormat.read text .curl = .ok [Command.read text] := rfl
  have hread := InputFormat.readTwofold_of_respelled rfl hfirst
  have happly : (Rendering.code target).applyTwofold (.same (Command.read text)) =
      .ok (.same (target.render (Command.read text))) := Rendering.applyTwofold_same _ _
  have hprint (all : Bool) : print invocation.outputIsTerminal
      (conversionOutput (.code target) .curl all [.same (Command.read text)]) =
        (shown invocation.outputIsTerminal (line (target.render (Command.read text))), none) := by
    rw [conversionOutput_singleton, happly]
    exact print_singleton_same _ _
  rw [convert, hplan]
  simp only [hread, List.map_cons, List.map_nil, hprint, hverbose]
  rfl

/-- Only a command without anything behind its name can fail. -/
theorem run_unquoted (hargs : invocation.args = "--to" :: target.name :: "curl" :: args)
    (hpass : ∀ arg ∈ args, PassesThrough arg)
    (hsource : ∀ name ∈ invocation.defaultSource, name = "" ∨ name = "curl") :
    run invocation = succeed invocation (shown invocation.outputIsTerminal
        (line (target.render (Command.read (unquoted args))))) "" ∨
      (run invocation).exit ≠ 0 ∧ Text.stripEnd (" ".intercalate args).toList = [] := by
  have hoptions : Options.ofArguments invocation.args = .ok (commandOptions target.name args) := by
    rw [hargs, ofArguments_command hpass]
  have hrun : run invocation = convert invocation (commandOptions target.name args) :=
    run_eq_convert hoptions rfl
  have htext := sourceText_commandOptions invocation target.name args
  have hrendering := rendering_commandOptions target args invocation.defaultTarget
  rcases sourceFormat_unquoted args hsource with hformat | ⟨hformat, hblank⟩
  · left
    rw [hrun]
    exact convert_eq_of_plan rfl (plan_eq_ok_iff.2 ⟨htext, hformat, hrendering⟩)
  · right
    have hplan : plan invocation (commandOptions target.name args) = .error .undetected := by
      rw [plan, htext]
      change (sourceFormat (orEnvironment none invocation.defaultSource) _ >>= _) = _
      rw [hformat]
      rfl
    refine ⟨?_, hblank⟩
    rw [hrun, convert, hplan]
    exact Nat.succ_ne_zero 0

/-- A command that follows unquoted is read as the text that its arguments make up, joined with
spaces. The words of that text are the arguments exactly if these need no quotes, and then their
own request is printed. -/
theorem output_of_unquoted_command
    (hargs : invocation.args = "--to" :: target.name :: "curl" :: args)
    (hpass : ∀ arg ∈ args, PassesThrough arg)
    (hsource : ∀ name ∈ invocation.defaultSource, name = "" ∨ name = "curl") :
    ((run invocation).exit = 0 → (run invocation).output = shown invocation.outputIsTerminal
      (line (target.render (Command.read (unquoted args))))) ∧
    (Command.arguments (unquoted args) = args ↔ Command.NeedNoQuotes args) ∧
    (Command.NeedNoQuotes args → (run invocation).exit = 0 ∧
      (run invocation).output = shown invocation.outputIsTerminal
        (line (target.render (Command.ofArguments args)))) := by
  have hne : ∀ arg ∈ args, arg ≠ "" := fun arg harg => (hpass arg harg).ne_empty
  have hwords := Command.arguments_unquoted_eq_iff hne
  have hrun := run_unquoted hargs hpass hsource
  refine ⟨?_, hwords, ?_⟩
  · intro hexit
    rcases hrun with hrun | ⟨hfails, -⟩
    · rw [hrun]
      rfl
    · exact absurd hexit hfails
  · intro hquotes
    rcases hrun with hrun | ⟨-, hblank⟩
    · rw [hrun, Command.read, hwords.2 hquotes]
      exact ⟨rfl, rfl⟩
    · exact absurd hblank (hquotes.stripEnd_ne_nil hne)

end Run

def commandLine (target : OutputFormat) (args : List String) : Invocation where
  args := "--to" :: target.name :: "curl" :: args
  directory := "/"
  bytesOf := fun _ => .error .missing

theorem output_of_unquoted_put :
    let args := ["-X", "PUT", "-L", "/x?a=1", "-H", "A:b", "-d", "c=d&e"]
    (run (commandLine .curl args)).exit = 0 ∧ (run (commandLine .curl args)).output =
      "curl \\\n  -X PUT \\\n  '/x?a=1' \\\n  -H 'A: b' \\\n  -d 'c=d&e'\n" := by
  intro args
  have hargs : (commandLine .curl args).args = "--to" :: OutputFormat.curl.name :: "curl" :: args :=
    rfl
  obtain ⟨hexit, houtput⟩ :=
    (output_of_unquoted_command hargs (by decide) (by simp [commandLine])).2.2 (by decide)
  have hline : line (OutputFormat.curl.render (Command.ofArguments args)) =
      "curl \\\n  -X PUT \\\n  '/x?a=1' \\\n  -H 'A: b' \\\n  -d 'c=d&e'\n" := by
    decide +kernel
  rw [hline, shown_eq_self (by decide)] at houtput
  exact ⟨hexit, houtput⟩

/-- The space in a header cuts it in two, and what is behind it is lost. -/
theorem output_ne_of_unquoted_header :
    let args := ["-H", "A: B", "/x"]
    (∀ arg ∈ args, PassesThrough arg) ∧ (run (commandLine .curl args)).exit = 0 ∧
      (run (commandLine .curl args)).output = "curl \\\n  '/x' \\\n  -H 'A: '\n" ∧
      line (OutputFormat.curl.render (Command.ofArguments args)) =
        "curl \\\n  '/x' \\\n  -H 'A: B'\n" := by
  intro args
  have hpass : ∀ arg ∈ args, PassesThrough arg := by decide
  have hline : line (OutputFormat.curl.render (Command.read (unquoted args))) =
      "curl \\\n  '/x' \\\n  -H 'A: '\n" := by decide +kernel
  have hrun : run (commandLine .curl args) = succeed (commandLine .curl args) (shown false
      (line (OutputFormat.curl.render (Command.read (unquoted args))))) "" :=
    (run_unquoted rfl hpass (by simp [commandLine])).resolve_right fun h =>
      absurd h.2 (by decide +kernel)
  rw [hline] at hrun
  refine ⟨hpass, by rw [hrun]; rfl, ?_, by decide +kernel⟩
  have hshown : shown false "curl \\\n  '/x' \\\n  -H 'A: '\n" = "curl \\\n  '/x' \\\n  -H 'A: '\n" :=
    shown_eq_self (by decide) false
  rw [hrun]
  exact hshown

end RequestForms.CommandLine
