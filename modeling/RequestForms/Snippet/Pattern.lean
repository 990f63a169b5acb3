import RequestForms.Headers
import RequestForms.Text.Blank
import RequestForms.Text.Search
import RequestForms.Text.WordChar

/-!
# What is looked for in a call

A call is not parsed: its parts are looked for one by one, each by its name and the shape of its
value. A string is whatever stands between two quotation marks of any kind.
-/

namespace RequestForms.Snippet

def isQuote (c : Char) : Bool := c = '\'' || c = '"' || c.toNat = 0x60

/-- The characters between an opening character and the next closing one, at least one, with the
text behind them. -/
def enclosed? (opens closes : Char → Bool) : List Char → Option (List Char × List Char)
  | [] => none
  | c :: rest =>
      if opens c ∧ rest.takeWhile (! closes ·) ≠ [] then
        match rest.dropWhile (! closes ·) with
        | [] => none
        | _ :: behind => some (rest.takeWhile (! closes ·), behind)
      else none

def quoted? : List Char → Option (List Char × List Char) := enclosed? isQuote isQuote

def braced? : List Char → Option (List Char × List Char) := enclosed? (· = '\x7b') (· = '\x7d')

def parenthesized? : List Char → Option (List Char × List Char) := enclosed? (· = '(') (· = ')')

def quotedWord? : List Char → Option (List Char × List Char)
  | [] => none
  | c :: rest =>
      if isQuote c ∧ rest.takeWhile Text.isWordChar ≠ [] then
        match rest.dropWhile Text.isWordChar with
        | [] => none
        | close :: behind =>
            if isQuote close then some (rest.takeWhile Text.isWordChar, behind) else none
      else none

def behindMark? (mark : Char) (s : List Char) : Option (List Char) :=
  match Text.stripStart s with
  | [] => none
  | c :: rest => if c = mark then some (Text.stripStart rest) else none

def call? (name : String) (s : List Char) : Option (List Char) :=
  (Text.dropExact? name.toList s).bind (behindMark? '(')

def key? (name : String) (s : List Char) : Option (List Char) :=
  (Text.dropExact? name.toList s).bind (behindMark? ':')

def member? (name : String) (shape : List Char → Option (List Char × List Char))
    (code : List Char) : Option (List Char) :=
  Text.search? (fun s => ((key? name s).bind shape).map Prod.fst) code

theorem length_of_enclosed? {opens closes : Char → Bool} {s inside behind : List Char}
    (h : enclosed? opens closes s = some (inside, behind)) : behind.length < s.length := by
  unfold enclosed? at h
  split at h
  · simp at h
  · next c rest =>
      split at h
      · split at h
        · simp at h
        · next mark tail hd =>
            simp only [Option.some.injEq, Prod.mk.injEq] at h
            obtain ⟨-, rfl⟩ := h
            have := (List.dropWhile_sublist (! closes ·) (l := rest)).length_le
            rw [hd, List.length_cons] at this
            simp only [List.length_cons]
            omega
      · simp at h

theorem length_of_behindMark? {mark : Char} {s rest : List Char}
    (h : behindMark? mark s = some rest) : rest.length < s.length := by
  unfold behindMark? at h
  split at h
  · simp at h
  · next c tail hs =>
      split at h
      · obtain rfl := Option.some.inj h
        have h₁ := Text.length_stripStart_le s
        have h₂ := Text.length_stripStart_le tail
        rw [hs, List.length_cons] at h₁
        omega
      · simp at h

/-! ## Header entries -/

def pair? (s : List Char) : Option ((List Char × List Char) × List Char) :=
  match quoted? s with
  | none => none
  | some (name, rest) =>
      match behindMark? ':' rest with
      | none => none
      | some rest =>
          match quoted? rest with
          | none => none
          | some (value, rest) => some ((name, value), rest)

theorem length_of_pair? {s rest : List Char} {pair : List Char × List Char}
    (h : pair? s = some (pair, rest)) : rest.length < s.length := by
  unfold pair? at h
  split at h
  · simp at h
  · next hn =>
      split at h
      · simp at h
      · next hm =>
          split at h
          · simp at h
          · next hv =>
              simp only [Option.some.injEq, Prod.mk.injEq] at h
              obtain ⟨-, rfl⟩ := h
              have h₁ := length_of_enclosed? hn
              have h₂ := length_of_behindMark? hm
              have h₃ := length_of_enclosed? hv
              omega

/-- All pairs in a text, each looked for behind the one before. -/
def pairs (s : List Char) : List (List Char × List Char) :=
  match h : pair? s with
  | some (pair, rest) =>
      have := length_of_pair? h
      pair :: pairs rest
  | none =>
      match s with
      | [] => []
      | _ :: rest => pairs rest
termination_by s.length
decreasing_by
  · assumption
  · simp

def headersOf (code : List Char) : Headers :=
  match member? "headers" braced? code with
  | none => Headers.empty
  | some block =>
      Headers.ofPairs ((pairs block).map fun pair => (String.ofList pair.1, String.ofList pair.2))

def readHeaders (code : String) : Headers := headersOf code.toList

end RequestForms.Snippet
