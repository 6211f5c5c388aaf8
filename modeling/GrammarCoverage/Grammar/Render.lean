import GrammarCoverage.Grammar.Rule

/-!
# Rendering

The notation in which messages show elements and rules. Literals stand between single quotes, groups
and choices between parentheses, a group followed by its mark. References are not followed, and what
stands deeper than a given depth is shown as an ellipsis.
-/

namespace GrammarCoverage

namespace Element

/-- What stands between the parentheses of a group or choice. -/
def parenthesized (inner : String) : String :=
  if inner.isEmpty then "( )" else "( " ++ inner ++ " )"

/-- An element in one line, with at most `depth` levels. -/
def render : Nat → Element → String
  | 0, _ => "..."
  | _ + 1, .literal _ name => "'" ++ name ++ "'"
  | _ + 1, .ruleRef _ name => name
  | _ + 1, .separator _ name => if name.isEmpty then "<sep>" else name
  | depth + 1, .group _ _ r es =>
    parenthesized (" ".intercalate (es.map (render depth))) ++ r.suffix
  | depth + 1, .choice _ _ es => parenthesized (" | ".intercalate (es.map (render depth)))
  | _ + 1, .foreign _ kind _ => "<" ++ kind ++ ">"

/-- The depth to which messages render an element. -/
def defaultDepth : Nat := 8

/-- The depth to which a path renders its elements. -/
def labelDepth : Nat := 2

/-- An element as messages show it. -/
def text (e : Element) : String := e.render defaultDepth

/-- An element as a step of a path. -/
def label (e : Element) : String := e.render labelDepth

end Element

/-- A rule with its alternatives in one line. -/
def Rule.render (r : Rule) : String :=
  let alternative (es : List Element) : String :=
    let text := " ".intercalate (es.map Element.text)
    if text.isEmpty then "<empty>" else text
  r.name ++ " ::= " ++ " | ".intercalate (r.alternatives.map alternative)

end GrammarCoverage
