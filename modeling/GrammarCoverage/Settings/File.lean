import GrammarCoverage.FileTree
import GrammarCoverage.Log
import GrammarCoverage.Settings.Basic
import GrammarCoverage.Yaml.Document

/-!
# Settings from files

A file holds settings as a YAML document, either at top level or in a section of their own; an empty
document or section gives the defaults. What turns the text of a file into a document is given from
outside.
-/

namespace GrammarCoverage

/-- Why no settings could be read from a file. -/
inductive LoadFailure where
  /-- The file or its settings are refused. -/
  | settings (failure : SettingsFailure)
  /-- The path holds a null character. -/
  | nullInPath
  /-- The file is no text. -/
  | notText
  /-- A scalar of the document has no value of its kind. -/
  | badScalar (error : Yaml.Error)

namespace Settings

def sectionName : String := "crawl"

/-- The settings below the root of a document: those of the section if there is one. What stands
anywhere is seen from outside, and turned into a value only when it is checked. -/
def ofRoot {α : Type} (depth : Nat) (outline : α → Outline α) (value : α → Value) (root : α) :
    Except SettingsFailure Settings :=
  match outline root with
  | .nothing => ofOutline depth value (.mapping [])
  | .mapping entries =>
    match Outline.field? entries sectionName with
    | some v => ofOutline depth value (if (outline v).isBlank then .mapping [] else outline v)
    | none => ofOutline depth value (.mapping entries)
  | o => ofOutline depth value o

/-- The settings in a document of a file. -/
def ofYaml (depth : Nat) (d : Yaml.Document) : Except SettingsFailure Settings :=
  ofRoot depth d.outline d.value d.root

/-- Read every line end as a line feed. -/
def unifyLineEnds : List Char → List Char
  | '\r' :: '\n' :: rest => '\n' :: unifyLineEnds rest
  | '\r' :: rest => '\n' :: unifyLineEnds rest
  | c :: rest => c :: unifyLineEnds rest
  | [] => []

/-- The content of the file at a path. -/
def readFile (tree : FileTree) (path : String) : Except LoadFailure ByteArray :=
  let refuse (reason : ReadError) : Except LoadFailure ByteArray :=
    .error (.settings (.invalid (.unreadable (FileTree.normalized path) reason)))
  if path.toList.contains '\x00' then .error .nullInPath
  else
    match tree.lookup path with
    | .file content => .ok content
    | .directory => refuse .isADirectory
    | .nothing => refuse .noSuchFile
    | .blocked => refuse .notADirectory
    | .tooLong => refuse .nameTooLong

/-- The settings in the content of the file at a path. -/
def ofContent (parse : String → Except Yaml.Error Yaml.Document) (depth : Nat) (path : String)
    (content : ByteArray) : Except LoadFailure Settings :=
  match String.fromUTF8? content with
  | none => .error .notText
  | some text =>
    match parse (String.ofList (unifyLineEnds text.toList)) with
    | .ok d => (ofYaml depth d).mapError .settings
    | .error .malformed =>
      .error (.settings (.invalid (.invalidYaml (FileTree.normalized path))))
    | .error e => .error (.badScalar e)

def load (parse : String → Except Yaml.Error Yaml.Document) (depth : Nat) (tree : FileTree)
    (path : String) : Except LoadFailure (Settings × Event) := do
  let settings ← ofContent parse depth path (← readFile tree path)
  return (settings, .settingsLoaded (FileTree.normalized path) settings.describe)

end Settings

end GrammarCoverage
