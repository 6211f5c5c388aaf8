import GrammarCoverage.Yaml.Node
import GrammarCoverage.Yaml.Scalar
import GrammarCoverage.Yaml.Timestamp

/-!
# Implied tags

The tag that the text of a plain scalar implies. Integers may be binary, octal, decimal,
hexadecimal or in base 60; a decimal fraction needs its point and an exponent needs its sign;
underscores may stand among the digits. A line break at the end of the text makes no difference.
-/

namespace GrammarCoverage.Yaml

/-- The texts of booleans, in lower case. -/
def booleanWords : List (String × Bool) :=
  [("yes", true), ("no", false), ("true", true), ("false", false), ("on", true), ("off", false)]

/-- A word with its first letter in upper case. -/
def capitalized (s : String) : String :=
  match s.toList with
  | [] => ""
  | c :: rest => String.ofList (c.toUpper :: rest)

/-- The three ways to write a word: in lower case, capitalised, in upper case. -/
def spellings (s : String) : List String := [s, capitalized s, s.toUpper]

def isBoolean (s : String) : Bool := booleanWords.any fun w => (spellings w.1).contains s

def isNull (s : String) : Bool := s.isEmpty || s = "~" || (spellings "null").contains s

/-- Is a character a digit or an underscore? -/
def isSpacedDigit (c : Char) : Bool := c.isDigit || c = '_'

/-- Do these characters begin with a digit, followed by digits and underscores only? -/
def isSpacedNumeral : List Char → Bool
  | c :: rest => c.isDigit && rest.all isSpacedDigit
  | [] => false

/-- Is this a digit of base 60: one decimal digit, or two of which the first is at most 5? -/
def isSexagesimalDigit : List Char → Bool
  | [c] => c.isDigit
  | [c, d] => '0' ≤ c && c ≤ '5' && d.isDigit
  | _ => false

/-- The characters between colons. -/
def splitColons : List Char → List (List Char)
  | [] => [[]]
  | ':' :: rest => [] :: splitColons rest
  | c :: rest =>
    match splitColons rest with
    | [] => [[c]]
    | part :: parts => (c :: part) :: parts

/-- Is this a numeral of base 60 with at least two digits, the first of a given form? -/
def isSexagesimal (leads : List Char → Bool) (cs : List Char) : Bool :=
  match splitColons cs with
  | first :: second :: rest => leads first && (second :: rest).all isSexagesimalDigit
  | _ => false

/-- The characters after a sign, if there is one. -/
def unsigned : List Char → List Char
  | '-' :: rest | '+' :: rest => rest
  | cs => cs

/-- Do the characters have the form of a numeral that does not begin with a zero? -/
def leadsNonzero (cs : List Char) : Bool := isSpacedNumeral cs && cs.head? ≠ some '0'

def isInteger (s : String) : Bool :=
  let cs := unsigned s.toList
  let allOf (p : Char → Bool) (digits : List Char) := !digits.isEmpty && digits.all p
  (match cs with
    | '0' :: 'b' :: digits => allOf (fun c => c = '0' || c = '1' || c = '_') digits
    | '0' :: 'x' :: digits => allOf (fun c => (hexDigit? c).isSome || c = '_') digits
    | '0' :: digits => digits.all fun c => '0' ≤ c && c ≤ '7' || c = '_'
    | cs => leadsNonzero cs)
    || isSexagesimal leadsNonzero cs

/-- Is this nothing, or an exponent with its sign? -/
def isSignedExponent : List Char → Bool
  | [] => true
  | e :: sign :: digits =>
    (e = 'e' || e = 'E') && (sign = '-' || sign = '+') && !digits.isEmpty && digits.all Char.isDigit
  | _ => false

/-- Are these the digits after a point, with an optional exponent? -/
def isFraction (cs : List Char) : Bool := isSignedExponent (cs.dropWhile isSpacedDigit)

/-- Has a text the form of a decimal fraction, an infinity, or the undefined number? -/
def isFloat (s : String) : Bool :=
  let cs := s.toList
  let bare := unsigned cs
  let whole := bare.takeWhile (· ≠ '.')
  (match bare.dropWhile (· ≠ '.') with
    | '.' :: fraction =>
      isSpacedNumeral whole && isFraction fraction
        || isSexagesimal isSpacedNumeral whole && fraction.all isSpacedDigit
    | _ => false)
    || (match cs with
      | '.' :: c :: rest => c.isDigit && isFraction rest
      | _ => false)
    || [".inf", ".Inf", ".INF"].contains (String.ofList bare)
    || [".nan", ".NaN", ".NAN"].contains s

/-- A text without a line break at its end; a line break alone is kept. -/
def dropFinalBreak (cs : List Char) : List Char :=
  if 1 < cs.length ∧ cs.getLast? = some '\n' then cs.dropLast else cs

/-- Is a text a date with two digits for month and day, or a date with a time? -/
def isTimestamp (s : String) : Bool :=
  (Timestamp.read? s.toList).any fun t => t.isPadded || t.time?.isSome

/-- The tag that the text of a plain scalar implies. -/
def impliedTag (content : Text.Content) : String :=
  let s := String.ofList (dropFinalBreak content.chars)
  standardTag <|
    if isBoolean s then "bool"
    else if isFloat s then "float"
    else if isInteger s then "int"
    else if s = "<<" then "merge"
    else if isNull s then "null"
    else if isTimestamp s then "timestamp"
    else if s = "=" then "value"
    else if ["!", "&", "*"].contains s then "yaml"
    else "str"

end GrammarCoverage.Yaml
