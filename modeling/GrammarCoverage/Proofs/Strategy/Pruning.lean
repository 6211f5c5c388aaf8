import GrammarCoverage.Proofs.Generation.Guidance
import GrammarCoverage.Proofs.Reachability.Agreement

/-!
# More names pruned

With more names pruned fewer nodes are reached, so that a discovery that succeeds goes on doing so
and finds no more than before (`Scope.exists_discover_of_subset`). Names that no reached node has
make no difference at all (`Scope.concurs_of_idle`). What is approved without a draw reaches an
unused literal (`Coverage.Decides.approvesUndrawn_iff`), and reaches it with fewer names pruned too;
but a fault may show then that had been hidden.
-/

namespace GrammarCoverage

namespace Scope

variable {s : Scope} {pruned found : NameSet} {root : Element}

/-- With more pruned names a discovery that succeeds does so again, and finds nothing else. -/
lemma exists_discover_of_subset (hsub : ∀ name ∈ s.pruned, name ∈ pruned)
    (h : s.discover root = .ok found) :
    ∃ found', ({ s with pruned } : Scope).discover root = .ok found' ∧
      ∀ name ∈ found', name ∈ found := by
  have hreaches {e : Element} (he : ({ s with pruned } : Scope).Reaches root e) :
      s.Reaches root e :=
    he.mono rfl hsub
  obtain ⟨found', hfound⟩ := exists_discover fun e he cause => (hreaches he).not_faulty h cause
  refine ⟨found', hfound, fun name hn => ?_⟩
  obtain ⟨id, he⟩ := exists_reaches_of_mem_discover hfound hn
  exact (hreaches he).mem_discover h

/-- A pruned name is idle if no reached node has it; the empty name always is. -/
lemma concurs_of_idle (hsub : ∀ name ∈ s.pruned, name ∈ pruned)
    (hidle : ∀ name ∈ pruned, name ∈ s.pruned ∨ name = "" ∨
      ∀ e, s.Reaches root e → e.name? ≠ some name) :
    s.Concurs { s with pruned } root where
  rules _ _ _ := rfl
  pruned e name he hn hne := by
    refine ⟨fun hp => ?_, hsub name⟩
    by_contra hnew
    -- the node has not been hidden so far, so it is reached, and the new name is not idle
    have hreached : s.Reaches root e := by
      apply he.reaches
      rintro ⟨other, hother, _, hp'⟩
      obtain rfl := Option.some.inj (hn.symm.trans hother)
      exact hnew hp'
    rcases hidle name hp with hold | hempty | hfree
    · exact hnew hold
    · exact hne hempty
    · exact hfree e hreached hn

end Scope

/-- A decision approves, and its source has not been drawn from. -/
def Decision.ApprovesUndrawn (d : Decision Generator) (source : Generator) : Prop :=
  d.outcome = .ok true ∧ d.source.drawn = source.drawn

lemma Generator.drawn_draw (g : Generator) : (NumberSource.draw g).2.drawn = g.drawn + 1 := by
  obtain ⟨source, drawn⟩ := g
  cases source <;> rfl

namespace Coverage

variable {c : Crawler} {p : Probability} {e : Element} {source : Generator}
  {d : Decision Generator}

/-- Exactly the elements that reach an unused literal are approved without a draw. -/
lemma Decides.approvesUndrawn_iff (hd : Decides c p e source d) :
    d.ApprovesUndrawn source ↔ c.Wants e := by
  constructor
  · rintro ⟨houtcome, hdrawn⟩
    cases h : c.scope.discover e with
    | error f =>
      rw [(hd.of_fault h).1] at houtcome
      cases houtcome
    | ok found =>
      refine ⟨found, h, ?_⟩
      by_contra hu
      rw [(hd.of_used h hu).2, Generator.drawn_draw] at hdrawn
      omega
  · rintro ⟨found, h, hu⟩
    obtain ⟨houtcome, hsource⟩ := hd.of_unused h hu
    exact ⟨houtcome, by rw [hsource]⟩

end Coverage

namespace Crawler

variable {c : Crawler} {pruned : NameSet} {e : Element}

/-- What reaches an unused literal does so with fewer pruned names too, unless a fault shows. -/
lemma Wants.of_subset (h : ({ c with pruned } : Crawler).Wants e)
    (hsub : ∀ name ∈ c.pruned, name ∈ pruned) :
    c.Wants e ∨ ∃ f, c.scope.discover e = .error f := by
  cases hd : c.scope.discover e with
  | error f => exact .inr ⟨f, rfl⟩
  | ok found =>
    obtain ⟨id, name, hr, hu⟩ := h.promises
    exact .inl (wants_of_promises ⟨id, name, hr.mono rfl hsub, hu⟩ hd)

/-- **To prune more names never adds a fault or a literal.** With more names pruned a discovery that
has succeeded succeeds again, and what it finds has been found before; where the new names are empty
or no reached node has them, it comes to the same as before. What is then approved without a draw is
approved without a draw with fewer names pruned, or the discovery meets a fault there, which the
decision passes on. -/
theorem discover_antitone (c : Crawler) (pruned : NameSet) (root : Element)
    (hsub : ∀ name ∈ c.pruned, name ∈ pruned) :
    let c' : Crawler := { c with pruned }
    (∀ found, c.scope.discover root = .ok found →
      ∃ found', c'.scope.discover root = .ok found' ∧ ∀ name ∈ found', name ∈ found) ∧
    ((∀ name ∈ pruned, name ∈ c.pruned ∨ name = "" ∨
        ∀ e, c.scope.Reaches root e → e.name? ≠ some name) →
      c'.scope.discover root = c.scope.discover root) ∧
    ∀ p source d p' source' d', Coverage.Decides c p root source d →
      Coverage.Decides c' p' root source' d' → d'.ApprovesUndrawn source' →
      d.ApprovesUndrawn source ∨
        ∃ f, c.scope.discover root = .error f ∧ d.outcome = .error f ∧ d.source = source := by
  intro c'
  refine ⟨fun found h => Scope.exists_discover_of_subset hsub h,
    fun hidle => (Scope.concurs_of_idle (s := c.scope) hsub hidle).discover_eq, ?_⟩
  intro p source d p' source' d' hd hd' happroves
  rcases (hd'.approvesUndrawn_iff.mp happroves).of_subset hsub with hw | ⟨f, hf⟩
  · exact .inl (hd.approvesUndrawn_iff.mpr hw)
  · exact .inr ⟨f, hf, hd.of_fault hf⟩

/-- The crawler of a recursive grammar with a hidden group, with two unused literals. -/
def tangleCrawler : Crawler where
  table := Scope.tangle.table
  usage := .ofList [("a", .int 0), ("c", .int 0)]
  pruned := Scope.tangle.pruned

theorem discover_antitone_tangle :
    (∃ found', ({ tangleCrawler with pruned := .ofList ["spare", "c"] } : Crawler).scope.discover
        (.ruleRef 0 "list") = .ok found' ∧
      ∀ name ∈ found', name ∈ NameSet.ofList ["a", "c"]) ∧
    ({ tangleCrawler with pruned := .ofList ["spare", "", "items"] } : Crawler).scope.discover
        (.ruleRef 0 "list") = .ok (.ofList ["a", "c"]) ∧
    (Coverage.decide tangleCrawler .half (.ruleRef 0 "list") (.ofNumbers [])).ApprovesUndrawn
      (.ofNumbers []) := by
  have hfound : tangleCrawler.scope.discover (.ruleRef 0 "list") = .ok (.ofList ["a", "c"]) := by
    cbv
  have hitems : ∀ e ∈ tangleCrawler.scope.territory (.ruleRef 0 "list"),
      e.name? ≠ some "items" := by
    decide
  have hwants : ({ tangleCrawler with pruned := .ofList ["spare", "c"] } : Crawler).Wants
      (.ruleRef 0 "list") :=
    ⟨.ofList ["a"], by cbv, "a", by simp, .int 0, by cbv, by cbv⟩
  obtain ⟨hfewer, _, hdecides⟩ := discover_antitone tangleCrawler (.ofList ["spare", "c"])
    (.ruleRef 0 "list") (by simp [tangleCrawler, Scope.tangle])
  obtain ⟨_, hidle, _⟩ := discover_antitone tangleCrawler (.ofList ["spare", "", "items"])
    (.ruleRef 0 "list") (by simp [tangleCrawler, Scope.tangle])
  refine ⟨hfewer _ hfound, ?_, ?_⟩
  · rw [← hfound]
    apply hidle
    intro name hn
    have hn : name = "spare" ∨ name = "" ∨ name = "items" := by simpa using hn
    rcases hn with rfl | rfl | rfl
    · exact .inl (by simp [tangleCrawler, Scope.tangle])
    · exact .inr (.inl rfl)
    · exact .inr (.inr fun e he => hitems e he.mem_territory)
  · have happroves := (Coverage.decides_decide
      { tangleCrawler with pruned := .ofList ["spare", "c"] } .half (.ruleRef 0 "list")
      (.ofNumbers [])).approvesUndrawn_iff.mpr hwants
    obtain h | ⟨f, hf, _⟩ := hdecides _ _ _ _ _ _
      (Coverage.decides_decide tangleCrawler .half (.ruleRef 0 "list") (.ofNumbers []))
      (Coverage.decides_decide ..) happroves
    · exact h
    · rw [hfound] at hf
      cases hf

/-- A group of an unused literal and a reference without a rule. -/
def brokenPair : Element := .group 1 "" .once [.literal 2 "a", .ruleRef 3 "ghost"]

def brokenCrawler (pruned : NameSet) : Crawler where
  table := .empty
  usage := .ofList [("a", .int 0)]
  pruned := pruned

/-- A decision that approves without a draw may, with fewer names pruned, pass on a fault. -/
theorem not_approvesUndrawn_brokenPair :
    (∀ name ∈ NameSet.empty, name ∈ NameSet.ofList ["ghost"]) ∧
    (Coverage.decide (brokenCrawler (.ofList ["ghost"])) .defaultFallback brokenPair
      (Generator.ofNumbers [])).ApprovesUndrawn (.ofNumbers []) ∧
    (Coverage.decide (brokenCrawler .empty) .defaultFallback brokenPair
      (Generator.ofNumbers [])).outcome =
        .error ⟨.unknownRule "ghost", none, ["( 'a' ghost )", "ghost"]⟩ ∧
    ¬ (Coverage.decide (brokenCrawler .empty) .defaultFallback brokenPair
      (Generator.ofNumbers [])).ApprovesUndrawn (.ofNumbers []) := by
  have hwants : (brokenCrawler (.ofList ["ghost"])).Wants brokenPair :=
    ⟨.ofList ["a"], by cbv, "a", by simp, .int 0, by cbv, by cbv⟩
  have hfault : (brokenCrawler .empty).scope.discover brokenPair =
      .error ⟨.unknownRule "ghost", none, ["( 'a' ghost )", "ghost"]⟩ := by
    cbv
  have hdecides := Coverage.decides_decide (brokenCrawler .empty) .defaultFallback brokenPair
    (Generator.ofNumbers [])
  refine ⟨by simp, (Coverage.decides_decide ..).approvesUndrawn_iff.mpr hwants,
    (hdecides.of_fault hfault).1, fun h => ?_⟩
  obtain ⟨found, hfound, _⟩ := hdecides.approvesUndrawn_iff.mp h
  rw [hfault] at hfound
  cases hfound

end Crawler

end GrammarCoverage
