import GrammarCoverage.Proofs.Settings.Acceptance
import GrammarCoverage.Settings.File

/-!
# Settings in files

The settings in a document are those in one outline of values: what stands at the keys may as
well be turned into values before anything is checked. What reading settings from a file comes to,
by whatever turns its text into a document, is a relation with one rule for each way in which it can
go (`Settings.Loads`).
-/

namespace GrammarCoverage

namespace Settings

variable {α : Type} {value : α → Value} {entries : List (Value × α)}

lemma unknownKeys_map :
    unknownKeys (entries.map fun e => (e.1, value e.2)) = unknownKeys entries := by
  rw [unknownKeys, unknownKeys, List.map_map]
  rfl

lemma ofKnown_eq_map :
    ofKnown value entries = ofKnown id (entries.map fun e => (e.1, value e.2)) := by
  simp only [ofKnown, Outline.field?_map, Option.map_id, id_eq]

lemma ofOutline_eq_map (depth : Nat) (value : α → Value) (o : Outline α) :
    ofOutline depth value o = ofOutline depth id (o.map value) := by
  cases o with
  | nothing | other typeName isBlank => rfl
  | mapping entries => rw [Outline.map, ofOutline, ofOutline, unknownKeys_map, ofKnown_eq_map]

/-- The outline that the settings below a root are read from. -/
def source (outline : α → Outline α) (root : α) : Outline α :=
  match outline root with
  | .nothing => .mapping []
  | .mapping entries =>
    match Outline.field? entries sectionName with
    | some v => if (outline v).isBlank then .mapping [] else outline v
    | none => .mapping entries
  | .other typeName isBlank => .other typeName isBlank

lemma ofRoot_eq_ofOutline (depth : Nat) (outline : α → Outline α) (value : α → Value) (root : α) :
    ofRoot depth outline value root = ofOutline depth value (source outline root) := by
  cases ho : outline root with
  | nothing | other typeName isBlank => simp only [ofRoot, source, ho]
  | mapping entries =>
    cases hv : Outline.field? entries sectionName <;> simp only [ofRoot, source, ho, hv]

lemma ofYaml_eq (depth : Nat) (d : Yaml.Document) :
    ofYaml depth d = ofOutline depth id ((source d.outline d.root).map d.value) := by
  rw [ofYaml, ofRoot_eq_ofOutline, ofOutline_eq_map]

/-! ### Reading -/

variable {parse : String → Except Yaml.Error Yaml.Document} {depth : Nat} {d : Yaml.Document}
  {tree : FileTree} {path : String} {content : ByteArray}

/-- A content is a text, with its line ends as line feeds. -/
def IsText (content : ByteArray) (text : String) : Prop :=
  ∃ raw, String.fromUTF8? content = some raw ∧ text = String.ofList (unifyLineEnds raw.toList)

/-- The ways in which reading settings from a file can go. -/
inductive Loads (parse : String → Except Yaml.Error Yaml.Document) (depth : Nat) (tree : FileTree)
    (path : String) : Except LoadFailure Settings → Prop where
  | nullInPath (hpath : '\x00' ∈ path.toList) : Loads parse depth tree path (.error .nullInPath)
  | unreadable {e : SettingsError} (hpath : '\x00' ∉ path.toList)
      (hread : readFile tree path = .error (.settings (.invalid e))) :
      Loads parse depth tree path (.error (.settings (.invalid e)))
  | notText {content : ByteArray} (hread : readFile tree path = .ok content)
      (htext : ∀ text, ¬ IsText content text) : Loads parse depth tree path (.error .notText)
  | malformed {content : ByteArray} {text : String} (hread : readFile tree path = .ok content)
      (htext : IsText content text) (hyaml : parse text = .error .malformed) :
      Loads parse depth tree path
        (.error (.settings (.invalid (.invalidYaml (FileTree.normalized path)))))
  | badScalar {content : ByteArray} {text : String} {e : Yaml.Error}
      (hread : readFile tree path = .ok content) (htext : IsText content text)
      (hyaml : parse text = .error e) (he : e ≠ .malformed) :
      Loads parse depth tree path (.error (.badScalar e))
  | document {content : ByteArray} {text : String} {d : Yaml.Document}
      (hread : readFile tree path = .ok content) (htext : IsText content text)
      (hyaml : parse text = .ok d) :
      Loads parse depth tree path ((ofYaml depth d).mapError .settings)

lemma IsText.unique {text text' : String} (h : IsText content text) (h' : IsText content text') :
    text = text' := by
  obtain ⟨raw, hraw, rfl⟩ := h
  obtain ⟨raw', hraw', rfl⟩ := h'
  obtain rfl := Option.some.inj (hraw.symm.trans hraw')
  rfl

lemma map_load : (load parse depth tree path).map Prod.fst =
    readFile tree path >>= ofContent parse depth path := by
  rw [load]
  cases hread : readFile tree path with
  | error e => rfl
  | ok content =>
    simp only [bind, Except.bind]
    cases ofContent parse depth path content <;> rfl

/-- The file at a path holds a document. -/
def Holds (parse : String → Except Yaml.Error Yaml.Document) (tree : FileTree) (path : String)
    (d : Yaml.Document) : Prop :=
  ∃ content text, readFile tree path = .ok content ∧ IsText content text ∧ parse text = .ok d

lemma map_load_of_holds (h : Holds parse tree path d) :
    (load parse depth tree path).map Prod.fst = (ofYaml depth d).mapError .settings := by
  obtain ⟨content, text, hread, ⟨raw, hraw, rfl⟩, hyaml⟩ := h
  rw [map_load, hread]
  simp only [bind, Except.bind, ofContent, hraw, hyaml]

/-! ### A single file -/

/-- A directory with one file. -/
def oneFile (content : ByteArray) : FileTree := ⟨[(["c"], content)], []⟩

lemma readFile_oneFile (content : ByteArray) : readFile (oneFile content) "c" = .ok content := by
  have hcomponents : FileTree.components "c" = ["c"] := by cbv
  have hnormalized : FileTree.normalized "c" = "c" := by cbv
  have hlookup : (oneFile content).lookup "c" = .file content := by
    rw [FileTree.lookup, hcomponents, hnormalized]
    rfl
  have hpath : "c".toList.contains '\x00' = false := by decide
  simp only [readFile, hpath, hlookup]
  rfl

lemma isText_toUTF8 (text : String) :
    IsText text.toUTF8 (String.ofList (unifyLineEnds text.toList)) := by
  refine ⟨text, ?_, rfl⟩
  rw [String.fromUTF8?]
  exact dif_pos text.isValidUTF8

lemma holds_oneFile {text : String}
    (h : parse (String.ofList (unifyLineEnds text.toList)) = .ok d) :
    Holds parse (oneFile text.toUTF8) "c" d :=
  ⟨_, _, readFile_oneFile _, isText_toUTF8 text, h⟩

end Settings

end GrammarCoverage
