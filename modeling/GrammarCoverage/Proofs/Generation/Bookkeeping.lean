import GrammarCoverage.Proofs.Generation.Rounds
import GrammarCoverage.Proofs.OrderedMap
import GrammarCoverage.Proofs.Strategy.Decision

/-!
# The books of a run

Counting a text changes values only, never which literals are tracked. So over any run the count of
a tracked literal grows by the number of texts that hold it (`Generation.Run.counts`), and what is
reported as unused in the end is what no text holds.
-/

namespace GrammarCoverage

universe u v

namespace Crawler

variable {c c' : Crawler} {name : String}

lemma keys_of_increment (h : c.increment name = .ok c') : c'.usage.keys = c.usage.keys := by
  rw [increment] at h
  split at h
  · cases h
  · next v hv =>
    split at h
    · cases h
      exact OrderedMap.keys_insert_of_mem (OrderedMap.mem_keys_iff.mpr (by rw [hv]; rfl))
    · cases h

lemma keys_of_incrementEach {names : List String} (h : c.incrementEach names = .ok c') :
    c'.usage.keys = c.usage.keys := by
  induction names generalizing c with
  | nil =>
    cases h
    rfl
  | cons name names ih =>
    rw [incrementEach] at h
    split at h
    · split at h
      · next c₁ hc₁ => rw [ih h, keys_of_increment hc₁]
      · cases h
    · exact ih h

/-- The report of unused literals lists exactly those that are tracked with a count of zero. -/
lemma mem_unusedNames : name ∈ c.unusedNames ↔ c.Unused name := by
  simp only [unusedNames, List.mem_mergeSort, List.mem_map, List.mem_filter]
  constructor
  · rintro ⟨⟨_, count⟩, ⟨hmem, hzero⟩, rfl⟩
    exact ⟨count, OrderedMap.get?_eq_some_iff.mpr hmem, hzero⟩
  · rintro ⟨count, hcount, hzero⟩
    exact ⟨(name, count), ⟨OrderedMap.get?_eq_some_iff.mp hcount, hzero⟩, rfl⟩

/-- Where every count is zero, no name has been used. -/
lemma countedAs_zero (h : ∀ e ∈ c.usage.entries, e.2 = .int 0) :
    c.CountedAs fun name => if name ∈ c.usage.keys then some 0 else none := by
  intro name
  cases hv : c.usage.get? name with
  | none =>
    have hname : name ∉ c.usage.keys := by simp [OrderedMap.mem_keys_iff, hv]
    simp [hname]
  | some v =>
    have hname : name ∈ c.usage.keys := by simp [OrderedMap.mem_keys_iff, hv]
    obtain rfl : v = .int 0 := h _ (OrderedMap.get?_eq_some_iff.mp hv)
    simp [hname]

lemma unusedNames_increasing (c : Crawler) : c.unusedNames.Pairwise (· < ·) := by
  apply pairwise_lt_mergeSort
  exact c.usage.nodup.sublist (List.filter_sublist.map Prod.fst)

end Crawler

namespace Generation

variable {σ : Type u} {γ : Type v} [NumberSource σ] [IndexSource γ] {g g' : Generation σ γ}
  {root : Element} {texts : List (List String)} {uses : String → Option Nat}

lemma Run.keys_eq (h : Run root g texts g') :
    g'.guide.crawler.usage.keys = g.guide.crawler.usage.keys := by
  induction h with
  | nil g => rfl
  | cons head _ ih => rw [ih, Crawler.keys_of_incrementEach head.counted]

/-- Over a run the count of each tracked literal grows by the number of texts that hold it. -/
lemma Run.counts (h : Run root g texts g') (hcounted : g.guide.crawler.CountedAs uses) :
    g'.guide.crawler.scope = g.guide.crawler.scope ∧
      g'.guide.crawler.CountedAs fun name => (uses name).map (· + texts.countP (name ∈ ·)) := by
  induction h generalizing uses with
  | nil g => simpa using hcounted
  | @cons g g₁ g' text texts head _ ih =>
    obtain ⟨hscope₁, hcounted₁⟩ := head.counts hcounted
    obtain ⟨hscope, hcounts⟩ := ih hcounted₁
    refine ⟨hscope.trans hscope₁, ?_⟩
    -- the first text and the later ones together are counted as one list
    have huses : (fun name => ((uses name).map (· + if name ∈ text then 1 else 0)).map
        (· + texts.countP (name ∈ ·))) =
        fun name => (uses name).map (· + (text :: texts).countP (name ∈ ·)) := by
      funext name
      rw [Option.map_map, List.countP_cons]
      congr 1
      funext n
      simp only [Function.comp, decide_eq_true_eq]
      omega
    rwa [huses] at hcounts

/-- **Over a run of finished rounds, the count of each tracked literal grows by the number of texts
that hold it**, and nothing else of the crawler changes. A derivation never changes the crawler,
whether it completes or is stopped, and reads it throughout as it was at the start of the round; a
text that is derived finishes its round. If all counts were zero at first, the literals that are
reported as unused are the tracked ones that no text holds. -/
theorem usage_counts (hcounted : g.guide.crawler.CountedAs uses) (hrun : Run root g texts g') :
    g'.guide.crawler.usage.keys = g.guide.crawler.usage.keys ∧
    g'.guide.crawler.scope = g.guide.crawler.scope ∧
    (∀ name, g'.guide.crawler.usage.get? name =
      (uses name).map fun n => .int (n + texts.countP (name ∈ ·) : Nat)) ∧
    (∀ depth,
      g'.guide.crawler.table.derive depth root g'.opening =
        (g'.guide.crawler.table.derive depth root g'.opening.snapshot).mapAdviser
          Snapshot.guide ∧
      (g'.guide.crawler.table.derive depth root g'.opening).derivation.adviser.crawler =
        g'.guide.crawler ∧
      ∀ d, g'.guide.crawler.table.derive depth root g'.opening = .going d →
        ∃ g'', g'.roundWithin depth root = (⟨d.tokens.toList, .finished⟩, g'')) ∧
    g'.guide.crawler.unusedNames.Pairwise (· < ·) ∧
    ((∀ name n, uses name = some n → n = 0) →
      ∀ name, name ∈ g'.guide.crawler.unusedNames ↔
        name ∈ g.guide.crawler.usage.keys ∧ ∀ text ∈ texts, name ∉ text) := by
  obtain ⟨hscope, hcounts⟩ := hrun.counts hcounted
  refine ⟨hrun.keys_eq, hscope, fun name => ?_, fun depth => ⟨?_, ?_, fun d hd => ?_⟩,
    g'.guide.crawler.unusedNames_increasing, fun hzero name => ?_⟩
  · rw [hcounts name, Option.map_map]
    rfl
  · exact RuleTable.derive_eq_snapshot _ depth root g'.opening
  · exact RuleTable.crawler_derive _ depth root g'.opening
  · exact exists_finished hcounts hd
  · rw [Crawler.mem_unusedNames, ← Crawler.isUnused_iff, hcounts.isUnused_iff,
      OrderedMap.mem_keys_iff, hcounted name]
    cases hn : uses name with
    | none => simp
    | some n =>
      obtain rfl := hzero name n hn
      simp [List.countP_eq_zero]

/-- The words `a` and `c` are tracked, as is `d`, which no text can hold. -/
def listOfWords : Generation MersenneTwister MersenneTwister where
  guide :=
    { crawler :=
        { table := .ofList [("word", some ⟨"word", [[.literal 2 "a"]]⟩)]
          usage := .ofList [("a", .int 0), ("c", .int 0), ("d", .int 0)]
          pruned := .empty }
      strategy := .coverage 0 ⟨#[], 0⟩ ⟨.ofInt 0, by decide, by decide⟩ }
  picker := ⟨#[], 0⟩

/-- Two words with a comma between them, and then one of two more. -/
def wordsRoot : Element :=
  .group 0 "list" .once [.ruleRef 1 "word", .separator 3 ",", .ruleRef 4 "word",
    .choice 5 "" [.literal 6 "b", .literal 7 "c"]]

theorem usage_counts_listOfWords :
    ∃ g, Run wordsRoot listOfWords [["a", ",", "a", "c"], ["a", ",", "a", "b"]] g ∧
      g.guide.crawler.usage.get? "a" = some (.int 2) ∧
      g.guide.crawler.usage.get? "c" = some (.int 1) ∧
      ∀ name, name ∈ g.guide.crawler.unusedNames ↔ name = "d" := by
  have hentries : listOfWords.guide.crawler.usage.entries =
      [("a", .int 0), ("c", .int 0), ("d", .int 0)] := by
    cbv
  have hzero : ∀ e ∈ listOfWords.guide.crawler.usage.entries, e.2 = .int 0 := by
    simp [hentries]
  have hrounds : (listOfWords.rounds wordsRoot 2).1 =
      [⟨["a", ",", "a", "c"], .finished⟩, ⟨["a", ",", "a", "b"], .finished⟩] := by
    cbv
  have hrun : Run wordsRoot listOfWords [["a", ",", "a", "c"], ["a", ",", "a", "b"]]
      (listOfWords.rounds wordsRoot 2).2 := by
    apply Run.of_rounds (Prod.ext hrounds rfl)
    simp
  obtain ⟨_, _, hcounts, _, _, hunused⟩ := usage_counts (Crawler.countedAs_zero hzero) hrun
  refine ⟨_, hrun, hcounts "a", hcounts "c", fun name => ?_⟩
  rw [hunused, OrderedMap.keys, hentries]
  · constructor
    · rintro ⟨hname, hunheld⟩
      have hd : ∀ name ∈ ["a", "c", "d"], (∀ text ∈ [["a", ",", "a", "c"], ["a", ",", "a", "b"]],
          name ∉ text) → name = "d" := by
        decide
      exact hd name hname hunheld
    · rintro rfl
      decide
  · intro name n hn
    split at hn
    · cases hn
      rfl
    · cases hn

end Generation

end GrammarCoverage
