import GrammarCoverage.Proofs.Settings.Files
import GrammarCoverage.Proofs.Yaml.Copies

/-!
# Settings in a section

A document may hold settings in a section of their own or all by itself (`Yaml.Document.Nests`).
Both mean the same, with one exception: where something else than a mapping or nothing stands, it is
refused unless it stands in a section and counts as absent (`Settings.Hollow`).
-/

namespace GrammarCoverage

/-- A document is a mapping with one key, which names the section of settings, and a copy of the
other document stands there. -/
structure Yaml.Document.Nests (outer inner : Yaml.Document) (f : Yaml.NodeId → Yaml.NodeId) :
    Prop where
  root_eq : ∃ origin?, outer.get outer.root =
    .mapping [(⟨.text Settings.sectionName, origin?⟩, f inner.root)]
  copied : inner.Copied outer f

namespace Settings

variable {parse : String → Except Yaml.Error Yaml.Document} {depth : Nat}
  {outer inner d : Yaml.Document} {f : Yaml.NodeId → Yaml.NodeId} {tree tree' : FileTree}
  {path path' : String} {typeName : String}

/-- A document is no mapping with a section of settings. -/
def Plain (d : Yaml.Document) : Prop :=
  ∀ entries, d.outline d.root = .mapping entries → Outline.field? entries sectionName = none

/-- A document is something else than a mapping or nothing, but counts as absent. -/
def Hollow (d : Yaml.Document) : Prop := ∃ typeName, d.outline d.root = .other typeName true

/-- Two files come to the same: the same settings, or no settings. -/
inductive Alike : Except LoadFailure Settings → Except LoadFailure Settings → Prop where
  | ok (c : Settings) : Alike (.ok c) (.ok c)
  | error (e e' : LoadFailure) : Alike (.error e) (.error e')

lemma alike_self (outcome : Except LoadFailure Settings) : Alike outcome outcome := by
  cases outcome with
  | ok c => exact .ok c
  | error e => exact .error e e

lemma ofOutline_empty : ofOutline depth id (.mapping []) = .ok default := by
  rw [ofOutline_eq_ok_iff]
  exact ⟨[], rfl, by simp [KnownKeys], Field.reads_otherwise rfl, Field.reads_otherwise rfl,
    Field.reads_otherwise rfl, Field.reads_otherwise rfl⟩

/-- In a section, whatever counts as absent gives the defaults. -/
lemma ofYaml_of_nests (h : outer.Nests inner f) : ofYaml depth outer =
    if (inner.outline inner.root).isBlank then .ok default
    else ofOutline depth id ((inner.outline inner.root).map inner.value) := by
  obtain ⟨⟨origin?, hroot⟩, hcopied⟩ := h
  have hcopy := hcopied.map_outline_eq Relation.ReflTransGen.refl
  have hblank : (outer.outline (f inner.root)).isBlank = (inner.outline inner.root).isBlank := by
    rw [← Outline.isBlank_map outer.value, hcopy, Outline.isBlank_map]
  have houtline : outer.outline outer.root = .mapping [(.text sectionName, f inner.root)] := by
    rw [Yaml.Document.outline, hroot]
    rfl
  have hfield : Outline.field? [(Value.text sectionName, f inner.root)] sectionName =
      some (f inner.root) := rfl
  rw [ofYaml_eq]
  simp only [source, houtline, hfield, hblank]
  split
  · exact ofOutline_empty
  · rw [hcopy]

/-- Without a section only nothing gives the defaults. -/
lemma ofYaml_of_plain (h : Plain d) : ofYaml depth d =
    match d.outline d.root with
    | .nothing => .ok default
    | o => ofOutline depth id (o.map d.value) := by
  rw [ofYaml_eq, source]
  cases ho : d.outline d.root with
  | nothing => exact ofOutline_empty
  | mapping entries => simp only [h entries ho]
  | other typeName isBlank => rfl

lemma ofYaml_of_other {isBlank : Bool} (h : d.outline d.root = .other typeName isBlank) :
    ofYaml depth d = .error (.invalid (.notAMapping typeName)) := by
  have hplain : Plain d := by
    intro entries hentries
    rw [h] at hentries
    cases hentries
  rw [ofYaml_of_plain hplain, h]
  rfl

lemma ofYaml_eq_of_not_hollow (hnests : outer.Nests inner f) (hplain : Plain inner)
    (h : ¬ Hollow inner) : ofYaml depth outer = ofYaml depth inner := by
  rw [ofYaml_of_nests hnests, ofYaml_of_plain hplain]
  cases ho : inner.outline inner.root with
  | nothing => rfl
  | mapping entries =>
    cases entries with
    | nil => exact ofOutline_empty.symm
    | cons e entries => rfl
  | other typeName isBlank =>
    cases isBlank with
    | false => rfl
    | true => exact absurd ⟨typeName, ho⟩ h

/-- **A section and a whole file mean the same, but for hollow ones.** Take a file whose document is
a mapping with nothing but a section of settings, and one whose document is what stands in that
section, and is not a mapping with a section itself. Both come to the same unless that document is
hollow, and then fail for the same reason if they do. Nothing gives the defaults in both. Anything
else that is no mapping is refused as a whole file, and also as a section unless it is hollow; then
the section gives the defaults. It is so whatever turns texts into documents, and down to whatever
depth collections can be shown. -/
theorem load_alike_iff (depth : Nat) (houter : Holds parse tree path outer)
    (hinner : Holds parse tree' path' inner) (hnests : outer.Nests inner f) (hplain : Plain inner) :
    (Alike ((load parse depth tree path).map Prod.fst)
      ((load parse depth tree' path').map Prod.fst) ↔ ¬ Hollow inner) ∧
    (¬ Hollow inner → (load parse depth tree path).map Prod.fst =
      (load parse depth tree' path').map Prod.fst) ∧
    (inner.outline inner.root = .nothing →
      (load parse depth tree path).map Prod.fst = .ok default ∧
      (load parse depth tree' path').map Prod.fst = .ok default) ∧
    ∀ typeName isBlank, inner.outline inner.root = .other typeName isBlank →
      (load parse depth tree' path').map Prod.fst =
        .error (.settings (.invalid (.notAMapping typeName))) ∧
      (load parse depth tree path).map Prod.fst =
        if isBlank then .ok default
        else .error (.settings (.invalid (.notAMapping typeName))) := by
  rw [map_load_of_holds houter, map_load_of_holds hinner]
  have hother (typeName : String) (isBlank : Bool)
      (ho : inner.outline inner.root = .other typeName isBlank) :
      (ofYaml depth inner).mapError LoadFailure.settings =
        .error (.settings (.invalid (.notAMapping typeName))) ∧
      (ofYaml depth outer).mapError LoadFailure.settings = if isBlank then .ok default
        else .error (.settings (.invalid (.notAMapping typeName))) := by
    rw [ofYaml_of_other ho, ofYaml_of_nests hnests, ho]
    cases isBlank <;> exact ⟨rfl, rfl⟩
  refine ⟨⟨fun halike => ?_, fun h => ?_⟩, fun h => ?_, fun ho => ?_, hother⟩
  · rintro ⟨typeName, ho⟩
    obtain ⟨hin, hout⟩ := hother typeName true ho
    rw [hin, hout, if_pos rfl] at halike
    cases halike
  · rw [ofYaml_eq_of_not_hollow hnests hplain h]
    exact alike_self _
  · rw [ofYaml_eq_of_not_hollow hnests hplain h]
  · rw [ofYaml_of_nests hnests, ofYaml_of_plain hplain, ho]
    exact ⟨rfl, rfl⟩

/-! ### Small documents -/

/-- What nodes of small documents stand for. -/
inductive Small where
  | truth (b : Bool)
  | number (n : Int)
  | entry (name : String) (i : Yaml.NodeId)
deriving DecidableEq

def Small.datum : Small → Yaml.Datum
  | .truth b => .scalar ⟨.bool b, none⟩
  | .number n => .scalar ⟨.int n, none⟩
  | .entry name i => .mapping [(⟨.text name, none⟩, i)]

/-- The same with all numbers of nodes two greater. -/
def Small.shift : Small → Small
  | .entry name i => .entry name (i + 2)
  | x => x

lemma Small.datum_shift (x : Small) : x.shift.datum = x.datum.rename (· + 2) := by
  cases x <;> rfl

def small? (d : Yaml.Document) (i : Yaml.NodeId) : Option Small :=
  match d.get i with
  | .scalar ⟨.bool b, none⟩ => some (.truth b)
  | .scalar ⟨.int n, none⟩ => some (.number n)
  | .mapping [(⟨.text name, none⟩, j)] => some (.entry name j)
  | _ => none

lemma get_of_small? {i : Yaml.NodeId} {x : Small} (h : small? d i = some x) :
    d.get i = x.datum := by
  rw [small?] at h
  split at h <;> cases h <;> assumption

/-- A document has the root zero, and small data at some nodes. -/
def isSmall (nodes : List (Yaml.NodeId × Small)) (d : Yaml.Document) : Bool :=
  d.root == 0 && nodes.all fun e => small? d e.1 == some e.2

lemma exists_holds {text : String} {nodes : List (Yaml.NodeId × Small)}
    (h : (Yaml.load (String.ofList (unifyLineEnds text.toList))).toOption.any (isSmall nodes)) :
    ∃ d, Holds Yaml.load (oneFile text.toUTF8) "c" d ∧ d.root = 0 ∧
      ∀ e ∈ nodes, d.get e.1 = e.2.datum := by
  cases hyaml : Yaml.load (String.ofList (unifyLineEnds text.toList)) with
  | error e => simp [hyaml, Except.toOption] at h
  | ok d =>
    have hd : isSmall nodes d = true := by simpa [hyaml, Except.toOption] using h
    rw [isSmall, Bool.and_eq_true, beq_iff_eq, List.all_eq_true] at hd
    exact ⟨d, holds_oneFile hyaml, hd.1, fun e he => get_of_small? (beq_iff_eq.mp (hd.2 e he))⟩

/-- Two texts hold the same small document, one of them in a section. -/
lemma exists_nests (whole part : String) (nodes : List (Yaml.NodeId × Small))
    (hwhole : (Yaml.load (String.ofList (unifyLineEnds whole.toList))).toOption.any
      (isSmall nodes))
    (hpart : (Yaml.load (String.ofList (unifyLineEnds part.toList))).toOption.any
      (isSmall ((0, .entry sectionName 2) :: nodes.map fun e => (e.1 + 2, e.2.shift))))
    (hroot : 0 ∈ nodes.map Prod.fst)
    (hclosed : ∀ e ∈ nodes, ∀ j ∈ e.2.datum.children, j ∈ nodes.map Prod.fst) :
    ∃ outer inner, Holds Yaml.load (oneFile part.toUTF8) "c" outer ∧
      Holds Yaml.load (oneFile whole.toUTF8) "c" inner ∧ outer.Nests inner (· + 2) ∧
      inner.root = 0 ∧
      ∀ e ∈ nodes, inner.get e.1 = e.2.datum := by
  obtain ⟨inner, hinner, hroot₁, hget₁⟩ := exists_holds hwhole
  obtain ⟨outer, houter, hroot₂, hget₂⟩ := exists_holds hpart
  refine ⟨outer, inner, houter, hinner, ⟨⟨none, ?_⟩, ?_⟩, hroot₁, hget₁⟩
  · rw [hroot₁, hroot₂]
    exact hget₂ _ List.mem_cons_self
  · refine Yaml.Document.copied_of_closed (nodes.map Prod.fst) (add_left_injective 2)
      (hroot₁ ▸ hroot) ?_ ?_
    · intro i hi
      obtain ⟨e, he, rfl⟩ := List.mem_map.mp hi
      rw [hget₁ e he]
      exact hclosed e he
    · intro i hi
      obtain ⟨e, he, rfl⟩ := List.mem_map.mp hi
      rw [hget₁ e he, ← Small.datum_shift]
      exact hget₂ _ (List.mem_cons_of_mem _ (List.mem_map_of_mem he))

/-- A seed means the same in a section and alone. -/
theorem load_alike_iff_seed : ∃ (outer inner : Yaml.Document) (c : Settings),
    Holds Yaml.load (oneFile "crawl:\n  seed: 7\n".toUTF8) "c" outer ∧
    Holds Yaml.load (oneFile "seed: 7\n".toUTF8) "c" inner ∧ outer.Nests inner (· + 2) ∧
    Plain inner ∧
    ¬ Hollow inner ∧ c.seed = some 7 ∧
    (load Yaml.load 100 (oneFile "crawl:\n  seed: 7\n".toUTF8) "c").map Prod.fst = .ok c ∧
    (load Yaml.load 100 (oneFile "seed: 7\n".toUTF8) "c").map Prod.fst = .ok c := by
  obtain ⟨outer, inner, houter, hinner, hnests, hroot, hget⟩ := exists_nests
    "seed: 7\n" "crawl:\n  seed: 7\n" [(0, .entry "seed" 2), (2, .number 7)]
    (by decide +kernel) (by decide +kernel) (by decide) (by decide)
  have houtline : inner.outline inner.root = .mapping [(.text "seed", 2)] := by
    rw [hroot, Yaml.Document.outline, hget _ List.mem_cons_self]
    rfl
  have hplain : Plain inner := by
    intro entries hentries
    rw [houtline] at hentries
    cases hentries
    rfl
  have hhollow : ¬ Hollow inner := by
    rintro ⟨typeName, h⟩
    rw [houtline] at h
    cases h
  have hequal := (load_alike_iff 100 houter hinner hnests hplain).2.1 hhollow
  have hseed : ((readFile (oneFile "seed: 7\n".toUTF8) "c" >>=
      ofContent Yaml.load 100 "c").toOption.map Settings.seed) = some (some 7) := by
    rw [readFile_oneFile]
    decide +kernel
  rw [← map_load] at hseed
  cases hload : (load Yaml.load 100 (oneFile "seed: 7\n".toUTF8) "c").map Prod.fst with
  | error e =>
    rw [hload] at hseed
    cases hseed
  | ok c =>
    rw [hload] at hseed
    exact ⟨outer, inner, c, houter, hinner, hnests, hplain, hhollow, Option.some.inj hseed,
      hequal.trans hload, rfl⟩

/-- A truth value is refused alone, but where it is false not in a section. -/
theorem not_alike_false : ∃ outer inner : Yaml.Document,
    Holds Yaml.load (oneFile "crawl: false\n".toUTF8) "c" outer ∧
    Holds Yaml.load (oneFile "false\n".toUTF8) "c" inner ∧ outer.Nests inner (· + 2) ∧ Plain inner ∧
    (load Yaml.load 100 (oneFile "crawl: false\n".toUTF8) "c").map Prod.fst = .ok default ∧
    ¬ Alike ((load Yaml.load 100 (oneFile "crawl: false\n".toUTF8) "c").map Prod.fst)
      ((load Yaml.load 100 (oneFile "false\n".toUTF8) "c").map Prod.fst) := by
  obtain ⟨outer, inner, houter, hinner, hnests, hroot, hget⟩ := exists_nests
    "false\n" "crawl: false\n" [(0, .truth false)]
    (by decide +kernel) (by decide +kernel) (by decide) (by decide)
  have houtline : inner.outline inner.root = .other "bool" true := by
    rw [hroot, Yaml.Document.outline, hget _ List.mem_cons_self]
    rfl
  have hplain : Plain inner := by
    intro entries hentries
    rw [houtline] at hentries
    cases hentries
  have hpart : (load Yaml.load 100 (oneFile "crawl: false\n".toUTF8) "c").map Prod.fst =
      .ok default := by
    rw [map_load_of_holds houter, ofYaml_of_nests hnests, houtline]
    rfl
  refine ⟨outer, inner, houter, hinner, hnests, hplain, hpart, ?_⟩
  rw [hpart, map_load_of_holds hinner, ofYaml_of_other houtline]
  rintro ⟨⟩

end Settings

end GrammarCoverage
