import GrammarCoverage.Grammar.Render

/-!
# Log records

What the library reports while it works, as data: each record says what happened, and its level, its
origin and its text are functions of that.
-/

namespace GrammarCoverage

/-- How serious a record is. -/
inductive Level where
  | debug | warning | error
deriving DecidableEq

/-- The part of the library that a record comes from. -/
inductive Origin where
  | reachability | coverage | registry | settings
deriving DecidableEq

/-- Something worth a record. -/
inductive Event where
  /-- A discovery found that many literals. -/
  | discovered (count : Nat) (root : Element)
  /-- A discovered literal has no usage entry. -/
  | untracked (name : String)
  /-- An element is expanded because of an unused literal. -/
  | unused (element : Element) (name : String)
  /-- No literal is unused, and a draw has decided. -/
  | fallback (count : Nat) (element : Element) (decision : Bool)
  /-- A class has been registered. -/
  | registered (name className : String)
  /-- A name has been freed. -/
  | deregistered (name : String)
  /-- An entry point bears a name that is taken. -/
  | entryPointTaken (name : String)
  /-- An entry point did not load. -/
  | entryPointFailed (name group : String)
  /-- An entry point loaded to something that cannot be registered. -/
  | entryPointRejected (name : String)
  /-- Settings have been read from a file. -/
  | settingsLoaded (path settings : String)

namespace Event

def level : Event → Level
  | .entryPointFailed .. => .error
  | .entryPointRejected .. => .warning
  | _ => .debug

def origin : Event → Origin
  | .discovered .. => .reachability
  | .untracked .. | .unused .. | .fallback .. => .coverage
  | .registered .. | .deregistered .. | .entryPointTaken .. | .entryPointFailed ..
  | .entryPointRejected .. => .registry
  | .settingsLoaded .. => .settings

/-- The text that says that an element is expanded because of an unused literal, with the literal
shown in a given way. -/
def unusedText (element : Element) (shown : String) : String :=
  "Crawling " ++ element.text ++ ": literal " ++ shown ++ " is unused"

def message : Event → String
  | .discovered count root =>
    "Discovered " ++ toString count ++ " literal(s) reachable from " ++ root.text
  | .untracked name => "No usage entry for literal " ++ Text.quoted name ++ "; skipping"
  | .unused element name => unusedText element (Text.quoted name)
  | .fallback count element decision =>
    "No unused literal among " ++ toString count ++ " reachable from " ++ element.text
      ++ "; fallback draw -> " ++ (if decision then "True" else "False")
  | .registered name className => "Registered strategy " ++ Text.quoted name ++ " -> " ++ className
  | .deregistered name => "Deregistered strategy " ++ Text.quoted name
  | .entryPointTaken name =>
    "Entry-point " ++ Text.quoted name ++ " already registered; skipping."
  | .entryPointFailed name group =>
    "Failed to load entry-point " ++ Text.quoted name ++ " from group " ++ Text.quoted group
      ++ "; skipping."
  | .entryPointRejected name =>
    "Entry-point " ++ Text.quoted name ++ " loaded but could not be registered; skipping."
  | .settingsLoaded path settings => "Loaded crawl config from " ++ path ++ ": " ++ settings

end Event

end GrammarCoverage
