import GrammarCoverage.Proofs.Generation.Rounds
import GrammarCoverage.Proofs.Strategy.Coverage

/-!
# Rounds that make progress

With a strategy that leaves nothing to chance, every text holds an unused literal as long as one can
be reached, and counting the text uses it. So the unused literals become fewer with each round, up
to the round after which none is left.
-/

namespace GrammarCoverage

universe u v

/-- The names of a set that are tracked and unused. -/
def Crawler.unusedAmong (c : Crawler) (found : NameSet) : Finset String :=
  found.names.toFinset.filter (c.isUnused · = true)

lemma Crawler.mem_unusedAmong {c : Crawler} {found : NameSet} {name : String} :
    name ∈ c.unusedAmong found ↔ name ∈ found ∧ c.isUnused name = true := by
  rw [unusedAmong, Finset.mem_filter, List.mem_toFinset, NameSet.mem_names]

/-- Counting a text uses the literals in it and no others. -/
lemma Crawler.CountedAs.unusedAmong_eq {c c' : Crawler} {uses : String → Option Nat}
    {text : List String} (h : c.CountedAs uses)
    (h' : c'.CountedAs fun name => (uses name).map (· + if name ∈ text then 1 else 0))
    (found : NameSet) : c'.unusedAmong found = c.unusedAmong found \ text.toFinset := by
  ext name
  rw [Finset.mem_sdiff, List.mem_toFinset, mem_unusedAmong, mem_unusedAmong, h.isUnused_iff,
    h'.isUnused_iff, and_assoc]
  by_cases hname : name ∈ text
  · simp [hname]
  · simp [hname]

namespace Generation

variable {σ : Type u} {γ : Type v} [NumberSource σ] [IndexSource γ]

/-- What the rounds of a strategy that leaves nothing to chance keep. -/
structure Insists (g : Generation σ γ) : Prop where
  guide : g.guide.Insists g.guide.crawler
  counted : ∃ uses, g.guide.crawler.CountedAs uses

variable {g g' : Generation σ γ} {root : Element} {found : NameSet} {depth : Nat}
  {text : List String}

/-! ### One round -/

section Derivation

variable {d : Derivation (Guide σ) γ}

/-- A derivation keeps a guide that leaves nothing to chance. -/
lemma Insists.adviser (h : g.Insists)
    (hd : g.guide.crawler.table.derive depth root g.opening = .going d) :
    d.adviser.Insists g.guide.crawler := by
  have hanswers := Guide.answers_of_insists (σ := σ) g.guide.crawler
  obtain ⟨ws, _, hkept⟩ := RuleTable.exists_writes hanswers.keeps hd
  exact hkept h.guide

/-- As long as an unused literal can be reached, a text that is derived holds one. -/
lemma Insists.exists_unused_written (h : g.Insists)
    (hfound : g.guide.crawler.scope.discover root = .ok found)
    (hd : g.guide.crawler.table.derive depth root g.opening = .going d)
    (hne : (g.guide.crawler.unusedAmong found).Nonempty) :
    ∃ name ∈ d.tokens.toList, name ∈ g.guide.crawler.unusedAmong found := by
  obtain ⟨ws, ⟨htokens, _⟩, hwritten⟩ :=
    Scope.exists_goal_written (Guide.answers_of_insists g.guide.crawler) hd h.guide
  have hws : d.tokens.toList = ws := by simpa [opening] using htokens
  obtain ⟨name, hname⟩ := hne
  obtain ⟨hmem, hunused⟩ := Crawler.mem_unusedAmong.mp hname
  obtain ⟨id, he⟩ := Scope.exists_reaches_of_mem_discover hfound hmem
  obtain ⟨written, hw, hgoal, _, hr⟩ := hwritten ⟨id, name, he, hunused⟩
  exact ⟨written, hws ▸ hw, Crawler.mem_unusedAmong.mpr ⟨hr.mem_discover hfound, hgoal⟩⟩

/-- The text of a derivation that completes is counted. -/
lemma Insists.exists_finished (h : g.Insists)
    (hd : g.guide.crawler.table.derive depth root g.opening = .going d) :
    ∃ g', g.roundWithin depth root = (⟨d.tokens.toList, .finished⟩, g') := by
  obtain ⟨uses, hcounted⟩ := h.counted
  exact Generation.exists_finished hcounted hd

end Derivation

/-- After a round the same holds, and the literals of its text are used. -/
lemma Insists.of_finishes (h : g.Insists) (hf : g.Finishes root text g') :
    g'.Insists ∧ g'.guide.crawler.scope = g.guide.crawler.scope ∧
      ∀ found, g'.guide.crawler.unusedAmong found =
        g.guide.crawler.unusedAmong found \ text.toFinset := by
  obtain ⟨uses, hcounted⟩ := h.counted
  obtain ⟨hscope, hcounted'⟩ := hf.counts hcounted
  obtain ⟨depth, hround⟩ := hf
  obtain ⟨d, crawler, hd, _, _, rfl⟩ := roundWithin_eq_finished_iff.mp hround
  exact ⟨⟨(h.adviser hd).with_crawler crawler, _, hcounted'⟩, hscope,
    hcounted.unusedAmong_eq hcounted'⟩

/-- With an unused literal in reach, a round leaves fewer. -/
lemma Insists.ssubset_of_finishes (h : g.Insists)
    (hfound : g.guide.crawler.scope.discover root = .ok found) (hf : g.Finishes root text g')
    (hne : (g.guide.crawler.unusedAmong found).Nonempty) :
    g'.guide.crawler.unusedAmong found ⊂ g.guide.crawler.unusedAmong found := by
  rw [(h.of_finishes hf).2.2 found]
  obtain ⟨depth, hround⟩ := hf
  obtain ⟨d, _, hd, rfl, _⟩ := roundWithin_eq_finished_iff.mp hround
  obtain ⟨name, hw, hname⟩ := h.exists_unused_written hfound hd hne
  apply (Finset.ssubset_iff_of_subset Finset.sdiff_subset).mpr
  exact ⟨name, hname, fun hn => (Finset.mem_sdiff.mp hn).2 (List.mem_toFinset.mpr hw)⟩

/-! ### Runs -/

variable {texts : List (List String)}

/-- A run keeps what its rounds keep. -/
lemma Run.insists (hrun : Run root g texts g') (h : g.Insists) :
    g'.Insists ∧ g'.guide.crawler.scope = g.guide.crawler.scope := by
  induction hrun with
  | nil g => exact ⟨h, rfl⟩
  | cons head _ ih =>
    obtain ⟨h₁, hscope₁, _⟩ := h.of_finishes head
    obtain ⟨h', hscope⟩ := ih h₁
    exact ⟨h', hscope.trans hscope₁⟩

/-- Each round of a run uses an unused literal, until none is left. -/
lemma Run.card_unused_le (hrun : Run root g texts g') (h : g.Insists)
    (hfound : g.guide.crawler.scope.discover root = .ok found) :
    (g'.guide.crawler.unusedAmong found).card ≤
      (g.guide.crawler.unusedAmong found).card - texts.length := by
  induction hrun with
  | nil g => exact le_rfl
  | @cons g g₁ g' text texts head _ ih =>
    obtain ⟨h₁, hscope, hunused⟩ := h.of_finishes head
    have hcard := ih h₁ (hscope ▸ hfound)
    rw [List.length_cons]
    -- with nothing left to use, both sides are zero
    rcases Finset.eq_empty_or_nonempty (g.guide.crawler.unusedAmong found) with hnone | hne
    · have hnone₁ : g₁.guide.crawler.unusedAmong found = ∅ := by
        rw [hunused, hnone, Finset.empty_sdiff]
      rw [hnone₁, Finset.card_empty] at hcard
      omega
    · have hlt := Finset.card_lt_card (h.ssubset_of_finishes hfound head hne)
      omega

/-- **With a chance of zero, texts use up the unused literals.** After any run, a text that is
derived holds an unused literal that the root reaches, as long as there is one; its round is
finished, and no other literal becomes unused. So a run with as many rounds as there were such
literals leaves none. -/
theorem unused_decreases {g₁ : Generation σ γ} {k : Nat} {source : σ} {p : Probability}
    {uses : String → Option Nat} (hstrategy : g.guide.strategy = .coverage k source p)
    (hp : p.value ≤ 0) (hdraws : NumberSource.DrawsFractions source)
    (hcounted : g.guide.crawler.CountedAs uses)
    (hfound : g.guide.crawler.scope.discover root = .ok found) (hrun : Run root g texts g₁) :
    g₁.guide.crawler.scope.discover root = .ok found ∧
    (∀ depth d, g₁.guide.crawler.table.derive depth root g₁.opening = .going d →
      (∃ g₂, g₁.roundWithin depth root = (⟨d.tokens.toList, .finished⟩, g₂)) ∧
      ((g₁.guide.crawler.unusedAmong found).Nonempty →
        ∃ name ∈ d.tokens.toList, name ∈ g₁.guide.crawler.unusedAmong found)) ∧
    (∀ text g₂, g₁.Finishes root text g₂ →
      g₂.guide.crawler.unusedAmong found =
        g₁.guide.crawler.unusedAmong found \ text.toFinset ∧
      ((g₁.guide.crawler.unusedAmong found).Nonempty →
        g₂.guide.crawler.unusedAmong found ⊂ g₁.guide.crawler.unusedAmong found)) ∧
    ((g.guide.crawler.unusedAmong found).card ≤ texts.length →
      g₁.guide.crawler.unusedAmong found = ∅) := by
  have hguide : g.guide.Insists g.guide.crawler := by
    have hg : g.guide = ⟨g.guide.crawler, .coverage k source p⟩ := by rw [← hstrategy]
    rw [hg]
    exact .coverage hp hdraws
  have h : g.Insists := ⟨hguide, uses, hcounted⟩
  obtain ⟨h₁, hscope⟩ := hrun.insists h
  have hfound₁ : g₁.guide.crawler.scope.discover root = .ok found := hscope ▸ hfound
  refine ⟨hfound₁, fun depth d hd => ?_, fun text g₂ hf => ?_, fun hcard => ?_⟩
  · exact ⟨h₁.exists_finished hd, h₁.exists_unused_written hfound₁ hd⟩
  · exact ⟨(h₁.of_finishes hf).2.2 found, h₁.ssubset_of_finishes hfound₁ hf⟩
  · have hle := hrun.card_unused_le h hfound
    apply Finset.card_eq_zero.mp
    omega

/-- A word that is `a` or `b`, with a hidden third choice, while both are unused. -/
def twoWords : Generation MersenneTwister MersenneTwister where
  guide :=
    { crawler :=
        { table := .ofList [("word", some ⟨"word", [[.choice 1 "" [.literal 2 "a",
            .literal 3 "b", .group 4 "spare" .once [.ruleRef 5 "nothing"]]]]⟩)]
          usage := .ofList [("a", .int 0), ("b", .int 0)]
          pruned := .ofList ["spare"] }
      strategy := .coverage 0 ⟨#[], 0⟩ ⟨0, by decide, by decide⟩ }
  picker := ⟨#[], 0⟩

theorem unused_decreases_twoWords :
    twoWords.guide.crawler.scope.discover (.ruleRef 0 "word") = .ok (.ofList ["a", "b"]) ∧
      ∃ g, Run (.ruleRef 0 "word") twoWords [["a"], ["b"]] g ∧
        g.guide.crawler.unusedAmong (.ofList ["a", "b"]) = ∅ := by
  have hfound : twoWords.guide.crawler.scope.discover (.ruleRef 0 "word") =
      .ok (.ofList ["a", "b"]) := by
    cbv
  have hcounted : twoWords.guide.crawler.CountedAs fun name =>
      if "b" = name then some 0 else if "a" = name then some 0 else none := by
    intro name
    change ((OrderedMap.empty.insert "a" (Value.int 0)).insert "b" (.int 0)).get? name = _
    rw [OrderedMap.get?_insert, OrderedMap.get?_insert]
    dsimp only
    split
    · rfl
    · split <;> rfl
  have hrounds : (twoWords.rounds (.ruleRef 0 "word") 2).1 =
      [⟨["a"], .finished⟩, ⟨["b"], .finished⟩] := by
    cbv
  have hrun : Run (.ruleRef 0 "word") twoWords [["a"], ["b"]]
      (twoWords.rounds (.ruleRef 0 "word") 2).2 := by
    apply Run.of_rounds (Prod.ext hrounds rfl)
    simp
  refine ⟨hfound, _, hrun, ?_⟩
  obtain ⟨_, _, _, hnone⟩ := unused_decreases rfl (by decide)
    (MersenneTwister.drawsDoubles ⟨#[], 0⟩).drawsFractions hcounted hfound hrun
  exact hnone (by decide)

end Generation

end GrammarCoverage
