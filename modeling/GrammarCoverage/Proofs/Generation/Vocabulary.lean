import GrammarCoverage.Generation.Rounds
import GrammarCoverage.Proofs.Generation.Safety

/-!
# The vocabulary of a text

The nodes that a derivation works through, in order (`RuleTable.Visits`), are all reached from its
root when nothing is pruned, and the tokens it adds are the own tokens of these nodes. So a
discovery without pruning knows every literal that is written; and if no reached node is hidden, any
discovery from the root knows as much (`Scope.Reaches.of_not_hides`), and the literals that it
tracks are all that are ever written.
-/

namespace GrammarCoverage

universe u v

variable {δ : Type u} {γ : Type v}

namespace RuleTable

variable [Adviser δ] [IndexSource γ] {table : RuleTable} {e : Element} {es nodes : List Element}
  {d d' : Derivation δ γ}

/-- Elements are derived one after the other, and these are the nodes that are worked through, each
before what its derivation goes on with. -/
inductive Visits (table : RuleTable) :
    List Element → Derivation δ γ → List Element → Derivation δ γ → Prop where
  | nil (d : Derivation δ γ) : Visits table [] d [] d
  | cons {e : Element} {es below nodes rest : List Element} {d d₁ d₂ d' : Derivation δ γ}
      (he : table.Expands e d below d₁) (hbelow : Visits table below d₁ nodes d₂)
      (hes : Visits table es d₂ rest d') : Visits table (e :: es) d (e :: nodes ++ rest) d'

lemma exists_visits_of_chain
    (h : Derivation.Chain (fun e d d' => ∃ nodes, table.Visits [e] d nodes d') es d d') :
    ∃ nodes, table.Visits es d nodes d' := by
  induction h with
  | nil d => exact ⟨[], .nil d⟩
  | cons head _ ih =>
    obtain ⟨_, hhead⟩ := head
    obtain ⟨rest, htail⟩ := ih
    cases hhead with
    | cons he hbelow hnil =>
      cases hnil with
      | nil => exact ⟨_, .cons he hbelow htail⟩

/-- A derivation that completes has worked through some nodes. -/
lemma exists_visits {depth : Nat} (h : table.derive depth e d = .going d') :
    ∃ nodes, table.Visits [e] d nodes d' := by
  refine derive_induction (P := fun e d d' => ∃ nodes, table.Visits [e] d nodes d') ?_ h
  intro e d es d₁ d' he hes
  obtain ⟨nodes, hnodes⟩ := exists_visits_of_chain hes
  exact ⟨_, .cons he hnodes (.nil d')⟩

/-- The tokens that are added are the own tokens of the nodes, in order. -/
lemma Visits.tokens_eq (h : table.Visits es d nodes d') :
    d'.tokens.toList = d.tokens.toList ++ nodes.flatMap Element.ownTokens := by
  have hkeeps : Adviser.Keeps fun _ : δ => True := fun _ _ _ _ _ _ => trivial
  induction h with
  | nil d => simp
  | cons he _ _ ihbelow ihrest =>
    rw [ihrest, ihbelow, (he.writes hkeeps).1]
    simp

/-- A derivation does not leave what its elements reach when nothing is pruned. -/
lemma Visits.reaches {root : Element} (h : table.Visits es d nodes d')
    (hes : ∀ e ∈ es, table.unpruned.Reaches root e) :
    ∀ e ∈ nodes, table.unpruned.Reaches root e := by
  induction h with
  | nil d => exact fun e he => absurd he List.not_mem_nil
  | @cons e es below nodes rest d d₁ d₂ d' he _ _ ihbelow ihrest =>
    have hreached : table.unpruned.Reaches root e := hes e List.mem_cons_self
    have hbelow : ∀ c ∈ below, table.unpruned.Reaches root c := fun c hc =>
      .edge hreached (he.leads hc) Scope.not_hides_unpruned
    intro c hc
    rcases List.mem_append.mp hc with hc | hc
    · rcases List.mem_cons.mp hc with rfl | hc
      · exact hreached
      · exact ihbelow hbelow c hc
    · exact ihrest (fun c hc => hes c (List.mem_cons_of_mem _ hc)) c hc

end RuleTable

/-- The own token of an element is its name, and the element is a literal or a separator. -/
lemma Element.mem_ownTokens_iff {e : Element} {token : String} :
    token ∈ e.ownTokens ↔ ∃ id, e = .literal id token ∨ e = .separator id token := by
  cases e <;> simp [ownTokens, eq_comm]

/-- Where no reached node is hidden, pruning takes nothing away. -/
lemma Scope.Reaches.of_not_hides {s : Scope} {root e : Element}
    (h : s.table.unpruned.Reaches root e)
    (hs : ∀ e, s.table.unpruned.Reaches root e → ¬ s.Hides e) : s.Reaches root e := by
  induction h with
  | root hroot => exact .root (hs _ (.root hroot))
  | edge he hd hn ih => exact .edge ih hd (hs _ (.edge he hd hn))

namespace Crawler

/-- What has been tracked stays tracked. -/
lemma contains_foldl_setUsage {c : Crawler} {names : List String} {name : String} {v : Value} :
    (names.foldl (fun c name => c.setUsage name v) c).usage.contains name = true ↔
      c.usage.contains name = true ∨ name ∈ names := by
  induction names generalizing c with
  | nil => simp
  | cons n names ih =>
    rw [List.foldl_cons, ih, OrderedMap.contains_eq_isSome, OrderedMap.contains_eq_isSome, setUsage,
      OrderedMap.get?_insert, List.mem_cons]
    by_cases hn : n = name
    · simp [hn]
    · simp [hn, Ne.symm hn]

/-- Tracking what an element can reach tracks every name that a discovery finds in it. -/
lemma exists_trackReachable {c : Crawler} {root : Element} {found : NameSet}
    (h : c.scope.discover root = .ok found) :
    ∃ c', c.trackReachable root = .ok c' ∧ ∀ name ∈ found, c'.usage.contains name = true := by
  refine ⟨_, by rw [trackReachable, h]; rfl, fun name hn => ?_⟩
  exact contains_foldl_setUsage.mpr (.inr hn)

variable [Adviser δ] [IndexSource γ] {c : Crawler} {root : Element} {found : NameSet} {depth : Nat}
  {d d' : Derivation δ γ}

/-- **If a discovery without pruning succeeds, a text that is derived from the same root holds only
literals that are found and separators that are reached**, whoever answers its questions and however
it picks. If besides no reached node is hidden from the crawler, then the crawler's own discovery
finds every literal that is written, and each of them is tracked by a crawler that starts from it.
-/
theorem tokens_known (hfound : c.table.unpruned.discover root = .ok found)
    (hd : c.table.derive depth root d = .going d') :
    (∃ nodes, c.table.Visits [root] d nodes d') ∧
    ∀ nodes, c.table.Visits [root] d nodes d' →
      d'.tokens.toList = d.tokens.toList ++ nodes.flatMap Element.ownTokens ∧
      (∀ token ∈ nodes.flatMap Element.ownTokens,
        token ∈ found ∨ ∃ id, c.table.unpruned.Reaches root (.separator id token)) ∧
      ((∀ e, c.table.unpruned.Reaches root e → ¬ c.scope.Hides e) →
        ∃ known tracked, c.scope.discover root = .ok known ∧ c.trackReachable root = .ok tracked ∧
          ∀ id name, .literal id name ∈ nodes →
            name ∈ known ∧ tracked.usage.contains name = true) := by
  have hroot : c.table.unpruned.Reaches root root := .root Scope.not_hides_unpruned
  refine ⟨RuleTable.exists_visits hd, fun nodes hnodes => ?_⟩
  have hreached : ∀ e ∈ nodes, c.table.unpruned.Reaches root e := by
    apply hnodes.reaches
    intro e he
    rw [List.mem_singleton.mp he]
    exact hroot
  refine ⟨hnodes.tokens_eq, fun token htoken => ?_, fun hhides => ?_⟩
  · obtain ⟨e, he, htoken⟩ := List.mem_flatMap.mp htoken
    obtain ⟨id, rfl | rfl⟩ := Element.mem_ownTokens_iff.mp htoken
    · exact .inl ((hreached _ he).mem_discover hfound)
    · exact .inr ⟨id, hreached _ he⟩
  · obtain ⟨known, hknown⟩ := Scope.exists_discover_of_reaches (s := c.scope) hfound hroot
    obtain ⟨tracked, htracked, hcontains⟩ := exists_trackReachable hknown
    refine ⟨known, tracked, hknown, htracked, fun id name hname => ?_⟩
    have hmem : name ∈ known := ((hreached _ hname).of_not_hides hhides).mem_discover hknown
    exact ⟨hmem, hcontains name hmem⟩

/-- A crawler of lists that hides a rule of which lists make no use. -/
def listingCrawler : Crawler where
  table := RuleTable.listing
  usage := .empty
  pruned := .ofList ["spare"]

theorem tokens_known_listing :
    ∃ d nodes known tracked,
      RuleTable.listing.derive 5 (.ruleRef 0 "list") RuleTable.listingStart = .going d ∧
      RuleTable.listing.Visits [.ruleRef 0 "list"] RuleTable.listingStart nodes d ∧
      nodes.flatMap Element.ownTokens = ["c", ",", "a"] ∧
      (∀ token ∈ ["c", ",", "a"], token ∈ NameSet.ofList ["a", "b", "c"] ∨
        ∃ id, RuleTable.listing.unpruned.Reaches (.ruleRef 0 "list") (.separator id token)) ∧
      listingCrawler.scope.discover (.ruleRef 0 "list") = .ok known ∧
      listingCrawler.trackReachable (.ruleRef 0 "list") = .ok tracked ∧
      ∀ id name, .literal id name ∈ nodes → name ∈ known ∧ tracked.usage.contains name = true := by
  have hfound : listingCrawler.table.unpruned.discover (.ruleRef 0 "list") =
      .ok (.ofList ["a", "b", "c"]) := by
    cbv
  have hderive : ∃ d, listingCrawler.table.derive 5 (.ruleRef 0 "list") RuleTable.listingStart =
      .going d ∧ d.tokens.toList = ["x", "c", ",", "a"] :=
    ⟨_, rfl, rfl⟩
  have hhides : ∀ e, listingCrawler.table.unpruned.Reaches (.ruleRef 0 "list") e →
      ¬ listingCrawler.scope.Hides e := by
    rintro e he ⟨name, hname, _, hp⟩
    obtain rfl : name = "spare" := by simpa [listingCrawler, Crawler.scope] using hp
    have hrules : RuleTable.listing.rules = [RuleTable.listRule] := rfl
    have hmem := he.mem_territory
    simp only [Scope.territory, RuleTable.unpruned, listingCrawler, hrules, RuleTable.listRule,
      Rule.elements, Element.parts, Element.partsAll, List.flatMap_cons, List.flatMap_nil,
      List.flatten_cons, List.flatten_nil, List.append_nil, List.cons_append, List.nil_append,
      List.mem_cons, List.not_mem_nil, or_false] at hmem
    rcases hmem with rfl | rfl | rfl | rfl | rfl | rfl | rfl | rfl <;> simp [Element.name?] at hname
  obtain ⟨d, hd, htokens⟩ := hderive
  obtain ⟨⟨nodes, hnodes⟩, hall⟩ := tokens_known hfound hd
  obtain ⟨hadded, hknown, hcounted⟩ := hall nodes hnodes
  have hwritten : nodes.flatMap Element.ownTokens = ["c", ",", "a"] := by
    simpa [htokens, RuleTable.listingStart] using hadded.symm
  obtain ⟨known, tracked, hfound', htracked, hliterals⟩ := hcounted hhides
  exact ⟨d, nodes, known, tracked, hd, hnodes, hwritten, hwritten ▸ hknown, hfound', htracked,
    hliterals⟩

end Crawler

end GrammarCoverage
