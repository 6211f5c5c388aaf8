import GrammarCoverage.Text.Printable

/-!
# Quoted text

The form in which messages show a text exactly. Single quotes stand around it unless it holds a
single quote and no double quote; the quote that stands around it, the backslash and every
unprintable character are escaped. Surrogates, which no string holds, have a quoted form as well:
quoting works on code points.
-/

namespace GrammarCoverage.Text

/-- The lower-case hexadecimal digits of a number, with zeros in front up to a given width. -/
def hexPadded (width n : Nat) : String :=
  let digits := Nat.toDigits 16 n
  String.ofList (List.replicate (width - digits.length) '0' ++ digits)

/-- The escape of an unprintable code point: the shortest of the three widths that fits. -/
def numericEscape (n : Nat) : String :=
  if n < 0x100 then "\\x" ++ hexPadded 2 n
  else if n < 0x10000 then "\\u" ++ hexPadded 4 n
  else "\\U" ++ hexPadded 8 n

/-- A code point as it is written between the quotes `quote`. -/
def escaped (quote : Char) (n : Nat) : String :=
  let c := Char.ofNat n
  if n = quote.toNat ∨ n = '\\'.toNat then String.ofList ['\\', c]
  else if n = '\n'.toNat then "\\n"
  else if n = '\r'.toNat then "\\r"
  else if n = '\t'.toNat then "\\t"
  else if isPrintable n then c.toString
  else numericEscape n

/-- The quote that stands around code points. -/
def quoteFor (codes : List Nat) : Char :=
  if codes.contains '\''.toNat && !codes.contains '"'.toNat then '"' else '\''

/-- Code points in quotes, with what would be misread between them escaped. -/
def quotedCodes (codes : List Nat) : String :=
  let quote := quoteFor codes
  quote.toString ++ String.join (codes.map (escaped quote)) ++ quote.toString

def codePoints (s : String) : List Nat := s.toList.map Char.toNat

def quoted (s : String) : String := quotedCodes (codePoints s)

end GrammarCoverage.Text
