import GrammarCoverage.Text.Quoted

/-!
# Content of texts

What a text says. As a rule that is a string; by escapes, though, a text may come to hold
surrogates, which no string does, and then it is known by its code points.
-/

namespace GrammarCoverage.Text

/-- The content of a text. -/
inductive Content where
  | string (s : String)
  /-- Code points with surrogates among them. -/
  | illFormed (codes : List Nat)
deriving DecidableEq, Inhabited

namespace Content

def ofCodePoints (codes : List Nat) : Content :=
  if codes.all fun n => n.isValidChar then .string (String.ofList (codes.map Char.ofNat))
  else .illFormed codes

def codePoints : Content → List Nat
  | .string s => Text.codePoints s
  | .illFormed codes => codes

/-- The characters of a content, with another sign for each surrogate. -/
def chars : Content → List Char
  | .string s => s.toList
  | .illFormed codes => codes.map fun n => if n.isValidChar then Char.ofNat n else '\uFFFD'

def isEmpty : Content → Bool
  | .string s => s.isEmpty
  | .illFormed codes => codes.isEmpty

/-- A content in quotes. -/
def quoted (c : Content) : String := quotedCodes c.codePoints

end Content

end GrammarCoverage.Text
