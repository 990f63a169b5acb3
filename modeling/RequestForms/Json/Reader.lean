import RequestForms.Assoc
import RequestForms.Json.Reader.Numeral
import RequestForms.Json.Reader.Quoted
import RequestForms.Text.Search

/-!
# Reading JSON

A document is one value with blanks around it. Besides the standard forms, `NaN`, `Infinity` and
`-Infinity` are numbers.
-/

namespace RequestForms.Json

def literals : List (List Char × Json) :=
  [("null".toList, .null), ("true".toList, .bool true), ("false".toList, .bool false),
    ("NaN".toList, .double .nan), ("Infinity".toList, .double (.infinite false)),
    ("-Infinity".toList, .double (.infinite true))]

def literal? (text : List Char) : List (List Char × Json) → Option (Json × List Char)
  | [] => none
  | (word, value) :: more =>
      match Text.dropExact? word text with
      | some rest => some (value, rest)
      | none => literal? text more

theorem length_of_literal? {text rest : List Char} {value : Json}
    {words : List (List Char × Json)} (hw : ∀ word ∈ words, word.1 ≠ [])
    (h : literal? text words = some (value, rest)) : rest.length < text.length := by
  induction words with
  | nil => simp [literal?] at h
  | cons word more ih =>
      obtain ⟨front, v⟩ := word
      unfold literal? at h
      split at h
      · next r hr =>
          simp only [Option.some.injEq, Prod.mk.injEq] at h
          obtain ⟨-, rfl⟩ := h
          obtain rfl := Text.dropExact?_eq_some_iff.1 hr
          have : 0 < front.length := List.length_pos_iff.2 (hw (front, v) (by simp))
          rw [List.length_append]
          omega
      · exact ih (fun w hm => hw w (List.mem_cons_of_mem _ hm)) h

def scalar : Reader Json := fun text =>
  match text with
  | '"' :: rest =>
      match stringTail ('"' :: rest) rest with
      | .error stop => .error stop
      | .ok ⟨cs, behind, _⟩ =>
          .ok ⟨.string (String.ofList cs), behind, by simp only [List.length_cons]; omega⟩
  | text =>
      match hl : literal? text literals with
      | some (value, rest) => .ok ⟨value, rest, length_of_literal? (by decide) hl⟩
      | none =>
          match hn : numeral? text with
          | none => .error (.malformed .value text)
          | some (n, rest) =>
              match n.value with
              | .error stop => .error stop
              | .ok value => .ok ⟨value, rest, length_of_numeral? hn⟩

def elements (element : Reader Json) (text : List Char) :
    Except Stop (Taken (List Json) text) :=
  match element text with
  | .error stop => .error stop
  | .ok ⟨value, rest, shorter⟩ =>
      match h : skipSpace rest with
      | ']' :: behind =>
          .ok ⟨[value], behind, Nat.lt_trans (length_lt_of_skipSpace_eq h) shorter⟩
      | ',' :: behind =>
          have := length_lt_of_skipSpace_eq h
          have := length_skipSpace_le behind
          match elements element (skipSpace behind) with
          | .error stop => .error stop
          | .ok ⟨values, behind, _⟩ => .ok ⟨value :: values, behind, by omega⟩
      | other => .error (.malformed .comma other)
termination_by text.length

def memberName : Reader String := fun text =>
  match text with
  | '"' :: rest =>
      match stringTail ('"' :: rest) rest with
      | .error stop => .error stop
      | .ok ⟨name, rest, _⟩ =>
          match h : skipSpace rest with
          | ':' :: behind =>
              have := length_lt_of_skipSpace_eq h
              .ok ⟨String.ofList name, behind, by simp only [List.length_cons]; omega⟩
          | other => .error (.malformed .colon other)
  | text => .error (.malformed .memberName text)

def members (value : Reader Json) (text : List Char) :
    Except Stop (Taken (List (String × Json)) text) :=
  match memberName text with
  | .error stop => .error stop
  | .ok ⟨name, rest, _⟩ =>
      have := length_skipSpace_le rest
      match value (skipSpace rest) with
      | .error stop => .error stop
      | .ok ⟨found, rest, _⟩ =>
          match h : skipSpace rest with
          | '}' :: behind =>
              have := length_lt_of_skipSpace_eq h
              .ok ⟨[(name, found)], behind, by omega⟩
          | ',' :: behind =>
              have := length_lt_of_skipSpace_eq h
              have := length_skipSpace_le behind
              match members value (skipSpace behind) with
              | .error stop => .error stop
              | .ok ⟨more, behind, _⟩ => .ok ⟨(name, found) :: more, behind, by omega⟩
          | other => .error (.malformed .comma other)
termination_by text.length

def arrayTail (element : Reader Json) : Reader Json := fun text =>
  match h : skipSpace text with
  | ']' :: rest => .ok ⟨.array [], rest, length_lt_of_skipSpace_eq h⟩
  | start =>
      match elements element start with
      | .error stop => .error stop
      | .ok ⟨values, rest, _⟩ =>
          have := length_skipSpace_le text
          .ok ⟨.array values, rest, by rw [h] at this; omega⟩

/-- An object behind its opening brace. Of several members of a name the last counts. -/
def objectTail (value : Reader Json) : Reader Json := fun text =>
  match h : skipSpace text with
  | '}' :: rest => .ok ⟨.object [], rest, length_lt_of_skipSpace_eq h⟩
  | start =>
      match members value start with
      | .error stop => .error stop
      | .ok ⟨found, rest, _⟩ =>
          have := length_skipSpace_le text
          .ok ⟨.object (Assoc.ofPairs found), rest, by rw [h] at this; omega⟩

/-- A value with at most so many levels of arrays and objects. -/
def value : (depth : Nat) → Reader Json
  | 0 => fun text =>
      match text with
      | '[' :: _ => .error (.tooDeep .array)
      | '{' :: _ => .error (.tooDeep .object)
      | text => scalar text
  | depth + 1 => fun text =>
      match text with
      | '[' :: rest =>
          match arrayTail (value depth) rest with
          | .error stop => .error stop
          | .ok ⟨found, rest, _⟩ => .ok ⟨found, rest, by simp only [List.length_cons]; omega⟩
      | '{' :: rest =>
          match objectTail (value depth) rest with
          | .error stop => .error stop
          | .ok ⟨found, rest, _⟩ => .ok ⟨found, rest, by simp only [List.length_cons]; omega⟩
      | text => scalar text

def maxDepth : Nat := 1000

def document (text : List Char) : Except Stop Json :=
  match text with
  | '\ufeff' :: _ => .error (.malformed .byteOrderMark text)
  | text =>
      match value maxDepth (skipSpace text) with
      | .error stop => .error stop
      | .ok ⟨found, rest, _⟩ =>
          match skipSpace rest with
          | [] => .ok found
          | other => .error (.malformed .endOfText other)

def Stop.failure (text : List Char) : Stop → Failure
  | malformed fault rest => .malformed fault (.behind (text.take (text.length - rest.length)))
  | integerTooLong digits => .integerTooLong digits
  | tooDeep container => .tooDeep container

def read (text : String) : Except Failure Json :=
  (document text.toList).mapError (Stop.failure text.toList)

end RequestForms.Json
