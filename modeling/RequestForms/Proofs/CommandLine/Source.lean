import RequestForms.Proofs.CommandLine.Unquoted
import RequestForms.Proofs.Text.Utf8

/-!
# Sources of a text

A text is converted in the same way whether it stands on the command line, on standard input or in a
file, but its line ends are its own only on the command line. From bytes they are all read as line
feeds.
-/

namespace RequestForms.CommandLine

/-! ## Options by name -/

def Switch.name : Switch → String
  | json => "--json"
  | yaml => "--yaml"
  | all => "--all"
  | verbose => "--verbose"
  | version => "--version"
  | help => "--help"

def Setting.name : Setting → String
  | target => "--to"
  | source => "--from"
  | file => "--file"

theorem ofString_switch (flag : Switch) : Argument.ofString flag.name = .switch flag := by
  cases flag <;> decide

theorem ofString_setting (option : Setting) :
    Argument.ofString option.name = .setting option.name option none := by
  cases option <;> decide

theorem ofString_joined (option : Setting) (value : String) :
    Argument.ofString (option.name ++ "=" ++ value) = .setting option.name option (some value) := by
  have htext : (option.name ++ "=" ++ value).toList =
      option.name.toList ++ '=' :: value.toList := by
    rw [String.toList_append, String.toList_append, List.append_assoc]
    rfl
  have hsplit : splitOption (option.name ++ "=" ++ value) = (option.name, some value) := by
    have hmark : '=' ∉ option.name.toList := by cases option <;> decide
    simp only [splitOption, htext, Text.splitFirst?_append hmark, String.ofList_toList]
  have hname : settingOf? option.name = some option := by cases option <;> rfl
  obtain ⟨c, letters, hletters⟩ : ∃ c letters, option.name.toList = '-' :: '-' :: c :: letters := by
    cases option <;> exact ⟨_, _, rfl⟩
  rw [hletters] at htext
  simp only [Argument.ofString, htext, hsplit, hname, List.cons_append]

/-! ## Options beside the text -/

/-- An option of a conversion that says nothing on where the text is. One with a value is written as
two arguments or as one. -/
inductive Choice where
  | switch (flag : Switch) (converts : flag ≠ .version ∧ flag ≠ .help)
  | setting (option : Setting) (elsewhere : option ≠ .file) (value : String) (joined : Bool)

namespace Choice

def args : Choice → List String
  | switch flag _ => [flag.name]
  | setting option _ value false => [option.name, value]
  | setting option _ value true => [option.name ++ "=" ++ value]

def apply (options : Options) : Choice → Options
  | switch flag _ => options.turnOn flag
  | setting option _ value _ => options.assign value option

theorem extend_args_append (choice : Choice) (options : Options) (rest : List String) :
    options.extend (choice.args ++ rest) = (choice.apply options).extend rest := by
  cases choice with
  | switch flag _ =>
      rw [args, List.singleton_append, Options.extend, ofString_switch]
      rfl
  | setting option _ value joined =>
      cases joined with
      | false =>
          rw [args, List.cons_append, Options.extend, ofString_setting]
          rfl
      | true =>
          rw [args, List.singleton_append, Options.extend, ofString_joined]
          rfl

theorem apply_addWords (choice : Choice) (options : Options) (words : List String) :
    choice.apply (options.addWords words) = (choice.apply options).addWords words := by
  cases choice with
  | switch flag _ => cases flag <;> rfl
  | setting option _ value => cases option <;> rfl

theorem apply_assign_file (choice : Choice) (options : Options) (name : String) :
    choice.apply (options.assign name .file) = (choice.apply options).assign name .file := by
  cases choice with
  | switch flag _ => cases flag <;> rfl
  | setting option elsewhere value =>
      cases option with
      | file => exact absurd rfl elsewhere
      | _ => rfl

/-- Where the text is, and whether one is wanted, is left as it was. -/
theorem apply_frame (choice : Choice) (options : Options) :
    (choice.apply options).words = options.words ∧ (choice.apply options).file = options.file ∧
      (choice.apply options).notice = options.notice := by
  cases choice with
  | switch flag converts =>
      cases flag with
      | version => exact absurd rfl converts.1
      | help => exact absurd rfl converts.2
      | _ => exact ⟨rfl, rfl, rfl⟩
  | setting option elsewhere value =>
      cases option with
      | file => exact absurd rfl elsewhere
      | _ => exact ⟨rfl, rfl, rfl⟩

end Choice

def written (choices : List Choice) : List String := choices.flatMap Choice.args

def settled (options : Options) (choices : List Choice) : Options :=
  choices.foldl Choice.apply options

theorem extend_written_append (choices : List Choice) (options : Options) (rest : List String) :
    options.extend (written choices ++ rest) = (settled options choices).extend rest := by
  induction choices generalizing options with
  | nil => rfl
  | cons choice choices ih =>
      rw [written, List.flatMap_cons, List.append_assoc, choice.extend_args_append]
      exact ih _

theorem extend_written (choices : List Choice) (options : Options) :
    options.extend (written choices) = .ok (settled options choices) := by
  rw [← List.append_nil (written choices), extend_written_append, Options.extend]

/-- What no choice depends on may as well be changed behind all of them. -/
theorem settled_comm {f : Options → Options}
    (h : ∀ (choice : Choice) (options : Options),
      choice.apply (f options) = f (choice.apply options))
    (choices : List Choice) (options : Options) :
    settled (f options) choices = f (settled options choices) := by
  induction choices generalizing options with
  | nil => rfl
  | cons choice choices ih =>
      rw [settled, List.foldl_cons, h]
      exact ih _

theorem settled_frame (choices : List Choice) (options : Options) :
    (settled options choices).words = options.words ∧
      (settled options choices).file = options.file ∧
      (settled options choices).notice = options.notice := by
  induction choices generalizing options with
  | nil => exact ⟨rfl, rfl, rfl⟩
  | cons choice choices ih =>
      obtain ⟨hwords, hfile, hnotice⟩ := ih (choice.apply options)
      obtain ⟨hwords', hfile', hnotice'⟩ := choice.apply_frame options
      exact ⟨hwords.trans hwords', hfile.trans hfile', hnotice.trans hnotice'⟩

/-! ## Three command lines -/

section CommandLines

variable (invocation : Invocation) (before after : List Choice)

/-- A run with a text among its options. -/
def Invocation.given (text : String) : Invocation :=
  { invocation with args := written before ++ text :: written after }

/-- A run with the bytes of a text on standard input. -/
def Invocation.piped (text : String) : Invocation :=
  { invocation with args := written before ++ written after, input := text.toUTF8.data.toList }

/-- A run with the name of a file among its options. -/
def Invocation.stored (name : String) : Invocation :=
  { invocation with args := written before ++ "--file" :: name :: written after }

def commonOptions : Options := settled (settled {} before) after

theorem ofArguments_given {text : String} (hword : text ≠ "" ∧ text.toList.head? ≠ some '-') :
    Options.ofArguments (invocation.given before after text).args =
      .ok ((commonOptions before after).addWords [text]) := by
  rw [Options.ofArguments, Invocation.given, extend_written_append,
    Options.extend_cons (Or.inr hword), extend_written,
    settled_comm fun choice options => choice.apply_addWords options [text]]
  rfl

theorem ofArguments_piped (text : String) :
    Options.ofArguments (invocation.piped before after text).args =
      .ok (commonOptions before after) := by
  rw [Options.ofArguments, Invocation.piped, extend_written_append, extend_written]
  rfl

theorem ofArguments_stored (name : String) :
    Options.ofArguments (invocation.stored before after name).args =
      .ok ((commonOptions before after).assign name .file) := by
  have hfile : Argument.ofString "--file" = .setting "--file" .file none := ofString_setting .file
  rw [Options.ofArguments, Invocation.stored, extend_written_append, Options.extend, hfile]
  change ((settled {} before).assign name .file).extend (written after) = _
  rw [extend_written, settled_comm fun choice options => choice.apply_assign_file options name]
  rfl

theorem commonOptions_frame :
    (commonOptions before after).words = [] ∧ (commonOptions before after).file = none ∧
      (commonOptions before after).notice = none := by
  obtain ⟨hwords, hfile, hnotice⟩ := settled_frame after (settled {} before)
  obtain ⟨hwords', hfile', hnotice'⟩ := settled_frame before {}
  exact ⟨hwords.trans hwords', hfile.trans hfile', hnotice.trans hnotice'⟩

end CommandLines

/-! ## The text that is read -/

/-- A text with line feeds for its line ends. -/
def unified (text : String) : String := String.ofList (Text.unifyLineEnds text.toList)

theorem unified_eq_self_iff {text : String} : unified text = text ↔ '\r' ∉ text.toList := by
  rw [← Text.unifyLineEnds_eq_self_iff, ← String.toList_inj, unified, String.toList_ofList]

theorem inputText_toUTF8 {text : String} (htrim : Text.trim text = text) :
    inputText text.toUTF8.data.toList = .ok (unified text) := by
  rw [inputText, Text.decode_toUTF8, Except.map,
    Text.strip_unifyLineEnds (Text.trim_eq_self_iff.1 htrim)]
  rfl

theorem head?_unified {text : String} (htrim : Text.trim text = text) :
    (unified text).toList.head? = text.toList.head? := by
  rw [unified, String.toList_ofList, Text.head?_unifyLineEnds (Text.trim_eq_self_iff.1 htrim)]

theorem unified_ne_empty {text : String} (hne : text ≠ "") (htrim : Text.trim text = text) :
    unified text ≠ "" := by
  intro hempty
  have hhead := head?_unified htrim
  rw [hempty] at hhead
  refine hne (String.toList_eq_nil_iff.1 (List.head?_eq_none_iff.1 hhead.symm))

/-- What a conversion answers depends on its text, and not on where the text is. -/
theorem convert_congr {invocation invocation' : Invocation} {options options' : Options}
    (hinvocation : invocation' =
      { invocation with args := invocation'.args, input := invocation'.input })
    (hoptions : options' = { options with words := options'.words, file := options'.file })
    (htext : sourceText invocation' options' = sourceText invocation options) :
    convert invocation' options' = convert invocation options := by
  have hplan : plan invocation' options' = plan invocation options := by
    rw [plan, htext, hinvocation, hoptions]
    rfl
  rw [convert, hplan, hinvocation, hoptions]
  rfl

section Sources

variable (invocation : Invocation) (before after : List Choice) {text : String}

theorem sourceText_given (hne : text ≠ "") :
    sourceText (invocation.given before after text)
      ((commonOptions before after).addWords [text]) = .ok text := by
  obtain ⟨hwords, hfile, -⟩ := commonOptions_frame before after
  apply sourceText_of_givenText _ hne
  simp only [givenText, Options.addWords, hwords, hfile]
  rfl

theorem sourceText_piped (hne : text ≠ "") (htrim : Text.trim text = text) :
    sourceText (invocation.piped before after text) (commonOptions before after) =
      .ok (unified text) := by
  obtain ⟨hwords, hfile, -⟩ := commonOptions_frame before after
  have hgiven : givenText (invocation.piped before after text) (commonOptions before after) =
      .ok "" := by
    simp only [givenText, hwords, hfile]
    rfl
  rw [sourceText, hgiven]
  simp only [pipedText, Invocation.piped, inputText_toUTF8 htrim]
  split
  · next hempty => cases hempty
  · next hempty => exact absurd (Except.ok.inj hempty) (unified_ne_empty hne htrim)
  · next hsome =>
      obtain rfl := Except.ok.inj hsome
      rfl

theorem sourceText_stored {name : String} (hname : name ≠ "")
    (hbytes : invocation.bytesOf (Path.resolve invocation.directory name) =
      .ok text.toUTF8.data.toList)
    (hne : text ≠ "") (htrim : Text.trim text = text) :
    sourceText (invocation.stored before after name)
      ((commonOptions before after).assign name .file) = .ok (unified text) := by
  apply sourceText_of_givenText _ (unified_ne_empty hne htrim)
  have hbytes' : (invocation.stored before after name).bytesOf
      (Path.resolve (invocation.stored before after name).directory name) =
        .ok text.toUTF8.data.toList := hbytes
  simp only [givenText, Options.assign, fileText, hbytes', inputText_toUTF8 htrim]
  rfl

end Sources

/-! ## Stored files -/

namespace Files

variable {files : Files} {bytes : List UInt8}

/-- Whatever leads to a file is a directory. -/
theorem isDirectory_of_lookup {path : Path} {rest : List (List Char)}
    (h : files.contents.lookup ⟨path.root, path.below ++ rest⟩ = some bytes) :
    files.isDirectory path = true := by
  obtain ⟨before, behind, hcontents, -⟩ := List.lookup_eq_some_iff.1 h
  have hany : (files.contents.any fun file => path.leadsTo file.1) = true := by
    rw [hcontents, List.any_append, List.any_cons, Path.leadsTo]
    simp
  rw [isDirectory, hany, Bool.or_true]

/-- No part of a name before its last one is a file. -/
def IsOpen (files : Files) (path : Path) (rest : List (List Char)) : Prop :=
  ∀ front behind, front ++ behind = rest → front ≠ [] → behind ≠ [] →
    files.contents.lookup ⟨path.root, path.below ++ front⟩ = none

theorem isOpen_singleton (path : Path) (part : List Char) : files.IsOpen path [part] := by
  intro front behind h hfront hbehind
  rcases List.append_eq_cons_iff.1 h with ⟨hnil, -⟩ | ⟨front', -, hnil⟩
  · exact absurd hnil hfront
  · exact absurd (List.append_eq_nil_iff.1 hnil.symm).2 hbehind

theorem isOpen_cons_iff {path : Path} {part : List Char} {rest : List (List Char)}
    (hrest : rest ≠ []) :
    files.IsOpen path (part :: rest) ↔
      files.contents.lookup ⟨path.root, path.below ++ [part]⟩ = none ∧
        files.IsOpen ⟨path.root, path.below ++ [part]⟩ rest := by
  refine ⟨fun h => ⟨h [part] rest rfl (List.cons_ne_nil _ _) hrest, ?_⟩, fun h => ?_⟩
  · intro front behind hfront _ hbehind
    have hpart := h (part :: front) behind (by rw [List.cons_append, hfront])
      (List.cons_ne_nil _ _) hbehind
    rwa [← List.append_cons]
  · intro front behind hfront hne hbehind
    obtain ⟨front', rfl, rfl⟩ : ∃ front', front = part :: front' ∧ front' ++ behind = rest := by
      rcases List.append_eq_cons_iff.1 hfront with ⟨hnil, -⟩ | h
      · exact absurd hnil hne
      · obtain ⟨front', hfront, hrest⟩ := h
        exact ⟨front', hfront, hrest.symm⟩
    cases front' with
    | nil => exact h.1
    | cons next front' =>
        rw [List.append_cons]
        exact h.2 _ behind rfl (List.cons_ne_nil _ _) hbehind

/-- From a directory on, the bytes of a file are found if no part of its name is too long and none
before the last one is a file. -/
theorem walk_eq_ok_iff {path : Path} {rest : List (List Char)} (hrest : rest ≠ []) :
    files.walk path rest = .ok bytes ↔
      (∀ part ∈ rest, Text.byteCount part ≤ maxPartSize) ∧ files.IsOpen path rest ∧
        files.contents.lookup ⟨path.root, path.below ++ rest⟩ = some bytes := by
  induction rest generalizing path with
  | nil => exact absurd rfl hrest
  | cons part rest ih =>
      have hbelow : path.below ++ part :: rest = path.below ++ [part] ++ rest :=
        List.append_cons _ _ _
      rw [walk, List.forall_mem_cons, hbelow]
      split
      · next hlong =>
          refine iff_of_false (by rintro ⟨⟩) fun h => ?_
          exact absurd h.1.1 (Nat.not_le.2 hlong)
      · next hshort =>
          have hpart := Nat.le_of_not_lt hshort
          cases rest with
          | nil =>
              have hopen := files.isOpen_singleton path part
              rw [List.append_nil]
              split
              · next found hfound =>
                  rw [hfound]
                  simp [hpart, hopen]
              · next hnone =>
                  refine iff_of_false ?_ fun h => by simp [hnone] at h
                  split
                  all_goals rintro ⟨⟩
          | cons next rest =>
              rw [isOpen_cons_iff (List.cons_ne_nil _ _)]
              split
              · next found hfound =>
                  refine iff_of_false (by rintro ⟨⟩) fun h => ?_
                  rw [h.2.1.1] at hfound
                  cases hfound
              · next hnone =>
                  split
                  · rw [ih (List.cons_ne_nil _ _)]
                    exact ⟨fun h => ⟨⟨hpart, h.1⟩, ⟨hnone, h.2.1⟩, h.2.2⟩,
                      fun h => ⟨h.1.2, h.2.1.2, h.2.2⟩⟩
                  · next hdirectory =>
                      refine iff_of_false (by rintro ⟨⟩) fun h => hdirectory ?_
                      exact isDirectory_of_lookup h.2.2

/-- A file is read if and only if a walk from the root gets to it. -/
theorem read_eq_ok_iff {path : Path} :
    files.read path = .ok bytes ↔
      path.below ≠ [] ∧ path.name.utf8ByteSize ≤ maxNameSize ∧
        (∀ part ∈ path.below, Text.byteCount part ≤ maxPartSize) ∧
          files.IsOpen ⟨path.root, []⟩ path.below ∧ files.contents.lookup path = some bytes := by
  rw [read]
  split
  · next hlong => exact iff_of_false (by rintro ⟨⟩) fun h => absurd h.2.1 (Nat.not_le.2 hlong)
  · next hshort =>
      by_cases hroot : path.below = []
      · rw [hroot, walk]
        exact iff_of_false (by rintro ⟨⟩) fun h => h.1 rfl
      · rw [walk_eq_ok_iff hroot, List.nil_append]
        exact ⟨fun h => ⟨hroot, Nat.le_of_not_lt hshort, h⟩, fun h => h.2.2⟩

end Files

/-! ## The runs -/

section Runs

variable {invocation : Invocation} {text : String} (before after : List Choice)

theorem run_given (hword : text ≠ "" ∧ text.toList.head? ≠ some '-') :
    run (invocation.given before after text) =
      convert (invocation.given before after text)
        ((commonOptions before after).addWords [text]) :=
  run_eq_convert (ofArguments_given invocation before after hword)
    (commonOptions_frame before after).2.2

theorem run_piped (text : String) :
    run (invocation.piped before after text) =
      convert (invocation.piped before after text) (commonOptions before after) :=
  run_eq_convert (ofArguments_piped invocation before after text)
    (commonOptions_frame before after).2.2

theorem run_stored (name : String) :
    run (invocation.stored before after name) =
      convert (invocation.stored before after name)
        ((commonOptions before after).assign name .file) :=
  run_eq_convert (ofArguments_stored invocation before after name)
    (commonOptions_frame before after).2.2

variable (hne : text ≠ "") (htrim : Text.trim text = text)

include hne htrim

/-- From standard input, a text is converted with line feeds for its line ends. -/
theorem run_piped_eq_given (hword : text.toList.head? ≠ some '-') :
    run (invocation.piped before after text) =
      run (invocation.given before after (unified text)) := by
  have hunified := unified_ne_empty hne htrim
  have hhead : (unified text).toList.head? ≠ some '-' := by rwa [head?_unified htrim]
  rw [run_given before after ⟨hunified, hhead⟩, run_piped]
  apply convert_congr rfl rfl
  rw [sourceText_piped invocation before after hne htrim,
    sourceText_given invocation before after hunified]

theorem run_stored_eq_piped {name : String} (hname : name ≠ "")
    (hbytes : invocation.bytesOf (Path.resolve invocation.directory name) =
      .ok text.toUTF8.data.toList) :
    run (invocation.stored before after name) = run (invocation.piped before after text) := by
  rw [run_stored, run_piped]
  apply convert_congr rfl rfl
  rw [sourceText_stored invocation before after hname hbytes hne htrim,
    sourceText_piped invocation before after hne htrim]

end Runs

/-- A text that is not blank at its ends is converted in the same way from standard input and from a
file: as if it stood on the command line with line feeds for its line ends. So all three agree if
there is no carriage return in it, and otherwise the command line gives another text. -/
theorem run_eq_of_sources {invocation : Invocation} {text name : String} (hne : text ≠ "")
    (htrim : Text.trim text = text) (hword : text.toList.head? ≠ some '-') (hname : name ≠ "")
    (hbytes : invocation.bytesOf (Path.resolve invocation.directory name) =
      .ok text.toUTF8.data.toList)
    (before after : List Choice) :
    run (invocation.stored before after name) = run (invocation.piped before after text) ∧
      run (invocation.piped before after text) =
        run (invocation.given before after (unified text)) ∧
      (unified text = text ↔ '\r' ∉ text.toList) ∧
      ('\r' ∉ text.toList → run (invocation.given before after text) =
        run (invocation.piped before after text)) := by
  have hpiped : run (invocation.piped before after text) =
      run (invocation.given before after (unified text)) :=
    run_piped_eq_given before after hne htrim hword
  refine ⟨run_stored_eq_piped before after hne htrim hname hbytes, hpiped, unified_eq_self_iff, ?_⟩
  intro hreturn
  rw [hpiped, unified_eq_self_iff.2 hreturn]

/-- Options of two kinds around the text, which has a line break of its own and a character of two
bytes. -/
theorem run_eq_of_sources_of_line_feed :
    let text := "curl /x -d 'a\né'"
    let files : Files := ⟨⟨[], [['w']]⟩, [(⟨[], [['w'], ['f']]⟩, text.toUTF8.data.toList)]⟩
    let invocation : Invocation := {
      args := []
      directory := files.directory.name
      bytesOf := files.read }
    let before := [Choice.setting .target (by decide) "curl" true]
    let after := [Choice.switch .verbose (by decide)]
    (invocation.given before after text).args = ["--to=curl", text, "--verbose"] ∧
      (invocation.stored before after "f").args = ["--to=curl", "--file", "f", "--verbose"] ∧
      run (invocation.given before after text) = run (invocation.piped before after text) ∧
      run (invocation.stored before after "f") = run (invocation.piped before after text) := by
  intro text files invocation before after
  have hpath : Path.resolve invocation.directory "f" = ⟨[], [['w'], ['f']]⟩ := by decide +kernel
  have habove : files.IsOpen ⟨[], []⟩ [['w'], ['f']] :=
    (Files.isOpen_cons_iff (by decide)).2 ⟨by decide, files.isOpen_singleton _ _⟩
  have hread : files.read ⟨[], [['w'], ['f']]⟩ = .ok text.toUTF8.data.toList :=
    Files.read_eq_ok_iff.2 ⟨by decide, by decide, by decide, habove, List.lookup_cons_self⟩
  have hbytes : invocation.bytesOf (Path.resolve invocation.directory "f") =
      .ok text.toUTF8.data.toList := by rw [hpath, ← hread]
  have h := run_eq_of_sources (by decide) (by decide) (by decide) (by decide) hbytes before after
  exact ⟨by decide, by decide, h.2.2.2 (by decide), h.1⟩

def withoutFiles : Invocation where
  args := []
  directory := "/"
  bytesOf := fun _ => .error .missing

def asCommand : Choice := .setting .target (by decide) "curl" false

theorem run_given_command {text output : String} (hword : text ≠ "" ∧ text.toList.head? ≠ some '-')
    (hdetect : InputFormat.detect? text = some .curl)
    (houtput : line (OutputFormat.curl.render (Command.read text)) = output)
    (hescape : '\x1b' ∉ output.toList) :
    run (withoutFiles.given [asCommand] [] text) = ⟨0, output, ""⟩ := by
  have hformat : sourceFormat none text = .ok .curl := by
    rw [sourceFormat, hdetect]
    rfl
  have hplan := plan_eq_ok_iff.2
    ⟨sourceText_given withoutFiles [asCommand] [] hword.1, hformat, rfl⟩
  rw [run_given _ _ hword, convert_eq_of_plan rfl hplan, houtput, succeed, shown_eq_self hescape,
    shown_eq_self (by decide)]

/-- The line end in a body is a line feed if it comes from bytes. -/
theorem run_given_ne_of_carriage_return :
    let text := "curl /x -d 'a\r\nb'"
    Text.trim text = text ∧
      run (withoutFiles.given [asCommand] [] text) =
        ⟨0, "curl \\\n  -X POST \\\n  '/x' \\\n  -d 'a\r\nb'\n", ""⟩ ∧
      run (withoutFiles.piped [asCommand] [] text) =
        ⟨0, "curl \\\n  -X POST \\\n  '/x' \\\n  -d 'a\nb'\n", ""⟩ := by
  intro text
  have htrim : Text.trim text = text := by decide
  have hunified : unified text = "curl /x -d 'a\nb'" := by decide
  refine ⟨htrim, ?_, ?_⟩
  · exact run_given_command (by decide) (by decide +kernel) (by decide +kernel) (by decide)
  · rw [run_piped_eq_given [asCommand] [] (by decide) htrim (by decide), hunified]
    exact run_given_command (by decide) (by decide +kernel) (by decide +kernel) (by decide)

end RequestForms.CommandLine
