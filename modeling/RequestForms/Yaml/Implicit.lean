import RequestForms.Text.Search

/-!
# Texts that mean something else

A YAML reader takes some plain texts for numbers, flags, dates and the like. They are recognised by
their form.
-/

namespace RequestForms.Yaml

/-- The words for truth values, nothing, a default value and a merge. -/
def reservedWords : List String :=
  ["yes", "Yes", "YES", "no", "No", "NO", "true", "True", "TRUE", "false", "False", "FALSE",
    "on", "On", "ON", "off", "Off", "OFF", "~", "null", "Null", "NULL", "", "=", "<<"]

def isDigitOrMark (c : Char) : Bool := c.isDigit || c = '_'

def dropSign : List Char → List Char
  | '+' :: rest => rest
  | '-' :: rest => rest
  | s => s

def isRunOf (p : Char → Bool) (s : List Char) : Bool := !s.isEmpty && s.all p

def behindDigits? : List Char → Option (List Char)
  | c :: rest => if c.isDigit then some (rest.dropWhile isDigitOrMark) else none
  | [] => none

/-- What follows the parts of a number in base sixty at the front of a text: each is a colon and
one digit or two, the first of two below six. -/
def dropSixtieths : List Char → List Char
  | ':' :: a :: b :: rest =>
      if '0' ≤ a && a ≤ '5' && b.isDigit then dropSixtieths rest
      else if a.isDigit then dropSixtieths (b :: rest)
      else ':' :: a :: b :: rest
  | [':', a] => if a.isDigit then [] else [':', a]
  | s => s

def behindSixtieths? (s : List Char) : Option (List Char) :=
  match behindDigits? s with
  | some (':' :: rest) =>
      let behind := dropSixtieths (':' :: rest)
      if behind.length < rest.length then some behind else none
  | _ => none

/-- A whole number in base two, eight, ten, sixteen or sixty. -/
def isInteger (s : List Char) : Bool :=
  match dropSign s with
  | '0' :: 'b' :: rest => isRunOf (fun c => c = '0' || c = '1' || c = '_') rest
  | '0' :: 'x' :: rest =>
      isRunOf (fun c => isDigitOrMark c || ('a' ≤ c && c ≤ 'f') || ('A' ≤ c && c ≤ 'F')) rest
  | '0' :: rest => rest.all fun c => ('0' ≤ c && c ≤ '7') || c = '_'
  | s => behindDigits? s == some [] || behindSixtieths? s == some []

def isExponent : List Char → Bool
  | [] => true
  | e :: sign :: rest =>
      (e = 'e' || e = 'E') && (sign = '+' || sign = '-') && isRunOf Char.isDigit rest
  | _ => false

/-- A number with a point, in base ten or sixty, an infinity or no number. -/
def isReal (s : List Char) : Bool :=
  let unsigned := dropSign s
  let decimal :=
    match behindDigits? unsigned with
    | some ('.' :: rest) => isExponent (rest.dropWhile isDigitOrMark)
    | _ => false
  let fraction :=
    match s with
    | '.' :: rest =>
        match behindDigits? rest with
        | some behind => isExponent behind
        | none => false
    | _ => false
  let sixtieths :=
    match behindSixtieths? unsigned with
    | some ('.' :: rest) => rest.all isDigitOrMark
    | _ => false
  decimal || fraction || sixtieths ||
    [".inf", ".Inf", ".INF"].contains (String.ofList unsigned) ||
    [".nan", ".NaN", ".NAN"].contains (String.ofList s)

def behindCount? : (count : Nat) → List Char → Option (List Char)
  | 0, s => some s
  | count + 1, c :: rest => if c.isDigit then behindCount? count rest else none
  | _ + 1, [] => none

def behindOneOrTwo? (s : List Char) : Option (List Char) :=
  (behindCount? 2 s).or (behindCount? 1 s)

def behindMark? (mark : Char) : List Char → Option (List Char)
  | c :: rest => if c = mark then some rest else none
  | [] => none

def isGap (c : Char) : Bool := c = ' ' || c = '\t'

def behindDateMark? : List Char → Option (List Char)
  | c :: rest =>
      if c = 'T' || c = 't' then some rest
      else if isGap c then some (rest.dropWhile isGap)
      else none
  | [] => none

def isZoneOffset (s : List Char) : Bool :=
  match behindOneOrTwo? s with
  | none => false
  | some [] => true
  | some rest => ((behindMark? ':' rest).bind (behindCount? 2)) == some []

def isZone (s : List Char) : Bool :=
  s.isEmpty ||
    match s.dropWhile isGap with
    | ['Z'] => true
    | '+' :: rest => isZoneOffset rest
    | '-' :: rest => isZoneOffset rest
    | _ => false

def dropFraction : List Char → List Char
  | '.' :: rest => rest.dropWhile Char.isDigit
  | s => s

def behindTime? (s : List Char) : Option (List Char) :=
  (((behindOneOrTwo? s).bind (behindMark? ':')).bind (behindCount? 2)).bind fun s =>
    ((behindMark? ':' s).bind (behindCount? 2)).map dropFraction

def behindYear? (s : List Char) : Option (List Char) :=
  (behindCount? 4 s).bind (behindMark? '-')

/-- What follows a date whose month and day may have one digit. -/
def behindDate? (s : List Char) : Option (List Char) :=
  (((behindYear? s).bind behindOneOrTwo?).bind (behindMark? '-')).bind behindOneOrTwo?

def isTimestamp (s : List Char) : Bool :=
  let date :=
    (((behindYear? s).bind (behindCount? 2)).bind (behindMark? '-')).bind (behindCount? 2)
  let moment := ((behindDate? s).bind behindDateMark?).bind behindTime?
  date == some [] || moment.any isZone

/-- Whether a plain text would be read as something other than a text. -/
def isImplicit (s : List Char) : Bool :=
  reservedWords.contains (String.ofList s) || isInteger s || isReal s || isTimestamp s

end RequestForms.Yaml
