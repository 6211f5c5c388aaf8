import GrammarCoverage.Proofs.OrderedMap
import GrammarCoverage.Proofs.Reachability.Agreement
import GrammarCoverage.Proofs.Reachability.Lineage

/-!
# Tables made from lists of rules

Indexing adds one rule after the other, each under its own name, and stops at the first rule whose
name an earlier one has. A table made so holds the rules in the order of the list, and the order is
all that a permutation of the list changes, so that a traversal sees the same. As every rule stands
under its own name, a fault reports the name to which the last reference above it refers.
-/

namespace GrammarCoverage

open Traversal

/-- The name to which a reference refers. -/
def Element.reference? : Element → Option String
  | .ruleRef _ name => some name
  | _ => none

/-- The name to which the last reference among some nodes refers, if there is a reference. -/
def Element.lastReference? (nodes : List Element) : Option String :=
  (nodes.filterMap Element.reference?).getLast?

namespace RuleTable

/-- A table holds these rules and no others, in order, each under its own name. -/
def Indexes (table : RuleTable) (rules : List Rule) : Prop :=
  table.entries = rules.map fun rule => (rule.name, some rule)

/-- The rule at a place of a list has a name that occurs earlier in the list. -/
def RepeatedAt (rules : List Rule) (i : Nat) : Prop :=
  ∃ rule, rules[i]? = some rule ∧ rule.name ∈ (rules.take i).map Rule.name

variable {table table' : RuleTable} {rules rules' before fresh : List Rule} {rule : Rule}
  {nodes : List Element} {name : String} {r : Option String} {i : Nat} {fault : ModelFault}

/-! ### One rule after the other -/

lemma indexes_empty : Indexes .empty [] := rfl

lemma Indexes.keys_eq (h : table.Indexes rules) : table.keys = rules.map Rule.name := by
  rw [OrderedMap.keys, h, List.map_map]
  rfl

lemma Indexes.contains_iff (h : table.Indexes rules) :
    table.contains name = true ↔ name ∈ rules.map Rule.name := by
  rw [OrderedMap.contains, List.contains_iff_mem, h.keys_eq]

/-- A rule with a new name comes last. -/
lemma Indexes.insert (h : table.Indexes rules) (hn : rule.name ∉ rules.map Rule.name) :
    Indexes (table.insert rule.name (some rule)) (rules ++ [rule]) := by
  rw [Indexes, OrderedMap.entries_insert_of_not_mem (h.keys_eq ▸ hn), h]
  simp

/-- Rules with distinct names are added one after the other, whatever comes after them. -/
lemma Indexes.exists_addRules (h : table.Indexes before)
    (hn : ((before ++ fresh).map Rule.name).Nodup) (after : List Rule) :
    ∃ table' : RuleTable, table'.Indexes (before ++ fresh) ∧
      table.addRules (fresh ++ after) = table'.addRules after := by
  induction fresh generalizing table before with
  | nil => exact ⟨table, by simpa using h, rfl⟩
  | cons rule fresh ih =>
    have hnew : rule.name ∉ before.map Rule.name := by
      rw [List.map_append] at hn
      exact fun hmem => (List.nodup_append.mp hn).2.2 _ hmem _ List.mem_cons_self rfl
    rw [List.append_cons] at hn ⊢
    obtain ⟨table', ht', heq⟩ := ih (h.insert hnew) hn
    refine ⟨table', ht', ?_⟩
    rw [List.cons_append, addRules, if_neg (by rwa [h.contains_iff]), heq]

/-- Rules with distinct names are indexed. -/
lemma exists_indexes (hn : (rules.map Rule.name).Nodup) :
    ∃ table, ofRules rules = .ok table ∧ table.Indexes rules := by
  obtain ⟨table, ht, heq⟩ := indexes_empty.exists_addRules hn []
  rw [List.append_nil] at heq
  exact ⟨table, heq, ht⟩

/-! ### The first repetition -/

/-- Names are distinct as far as none is repeated. -/
lemma nodup_take {n : Nat} (h : ∀ i < n, ¬ RepeatedAt rules i) :
    ((rules.take n).map Rule.name).Nodup := by
  induction n with
  | zero => simp
  | succ n ih =>
    have hn := ih fun i hi => h i (by omega)
    cases hr : rules[n]? with
    | none => rwa [List.take_add_one, hr, Option.toList_none, List.append_nil]
    | some rule =>
      have hnew : rule.name ∉ (rules.take n).map Rule.name :=
        fun hmem => h n (by omega) ⟨rule, hr, hmem⟩
      rw [List.take_add_one, hr, Option.toList_some, List.map_append, List.map_singleton,
        ← List.concat_eq_append]
      exact hn.concat hnew

/-- The first rule whose name is repeated is refused, whatever comes after it. -/
lemma ofRules_of_isLeast (h : IsLeast {i | RepeatedAt rules i} i) (hr : rules[i]? = some rule) :
    ofRules rules = .error ⟨.duplicateRule rule.name, none, []⟩ := by
  obtain ⟨⟨rule', hr', hmem⟩, hle⟩ := h
  obtain rfl : rule' = rule := by
    rw [hr'] at hr
    cases hr
    rfl
  have hn : ((rules.take i).map Rule.name).Nodup := by
    apply nodup_take
    intro k hk hrep
    have hik := hle hrep
    omega
  have hcut : rules.take i ++ rule' :: rules.drop (i + 1) = rules := by
    obtain ⟨hi, rfl⟩ := List.getElem?_eq_some_iff.mp hr'
    rw [← List.drop_eq_getElem_cons hi, List.take_append_drop]
  obtain ⟨table, ht, heq⟩ := indexes_empty.exists_addRules hn (rule' :: rules.drop (i + 1))
  rw [hcut] at heq
  rw [ofRules, heq, addRules, if_pos (ht.contains_iff.mpr hmem)]

/-- Unless the names are distinct there is a first rule whose name is repeated, and it is refused.
-/
lemma exists_refused (hn : ¬ (rules.map Rule.name).Nodup) :
    ∃ i rule, IsLeast {i | RepeatedAt rules i} i ∧ rules[i]? = some rule ∧
      ofRules rules = .error ⟨.duplicateRule rule.name, none, []⟩ := by
  classical
  have hex : ∃ i, RepeatedAt rules i := by
    by_contra hnone
    have htake : ((rules.take rules.length).map Rule.name).Nodup :=
      nodup_take fun i _ hi => hnone ⟨i, hi⟩
    rw [List.take_length] at htake
    exact hn htake
  have hleast := Nat.isLeast_find hex
  obtain ⟨rule, hr, _⟩ := hleast.1
  exact ⟨_, rule, hleast, hr, ofRules_of_isLeast hleast hr⟩

lemma exists_ofRules_eq_ok_iff :
    (∃ table, ofRules rules = .ok table) ↔ (rules.map Rule.name).Nodup := by
  constructor
  · rintro ⟨table, h⟩
    by_contra hn
    obtain ⟨i, rule, _, _, herror⟩ := exists_refused hn
    rw [herror] at h
    cases h
  · intro hn
    obtain ⟨table, h, _⟩ := exists_indexes hn
    exact ⟨table, h⟩

lemma ofRules_eq_error_iff : ofRules rules = .error fault ↔
    ∃ i rule, IsLeast {i | RepeatedAt rules i} i ∧ rules[i]? = some rule ∧
      fault = ⟨.duplicateRule rule.name, none, []⟩ := by
  constructor
  · intro h
    by_cases hn : (rules.map Rule.name).Nodup
    · obtain ⟨table, hok, _⟩ := exists_indexes hn
      rw [hok] at h
      cases h
    · obtain ⟨i, rule, hi, hr, herror⟩ := exists_refused hn
      rw [herror] at h
      cases h
      exact ⟨i, rule, hi, hr, rfl⟩
  · rintro ⟨i, rule, hi, hr, rfl⟩
    exact ofRules_of_isLeast hi hr

lemma indexes_of_ofRules_eq_ok (h : ofRules rules = .ok table) : table.Indexes rules := by
  obtain ⟨table', ht', hindexes⟩ := exists_indexes (exists_ofRules_eq_ok_iff.mp ⟨table, h⟩)
  rw [h] at ht'
  cases ht'
  exact hindexes

/-! ### What a traversal sees of it -/

/-- In the tables of a list and of a permutation of it a name stands for the same rule. -/
lemma Indexes.rule?_eq (h : table.Indexes rules) (h' : table'.Indexes rules')
    (hperm : rules.Perm rules') (name : String) : table'.rule? name = table.rule? name := by
  have hentries : table.entries.Perm table'.entries := by
    rw [h, h']
    exact hperm.map _
  rw [rule?, rule?, OrderedMap.get?_eq_of_perm hentries]

/-- The rules of a table, in any order, give a table that is traversed alike. -/
lemma exists_discover_eq_of_perm (h : ofRules rules = .ok table) (hperm : rules.Perm rules') :
    ∃ table', ofRules rules' = .ok table' ∧ ∀ pruned root,
      (Scope.mk table' pruned).discover root = (Scope.mk table pruned).discover root := by
  have hn : (rules'.map Rule.name).Nodup :=
    (hperm.map Rule.name).nodup_iff.mp (exists_ofRules_eq_ok_iff.mp ⟨table, h⟩)
  obtain ⟨table', h', hindexes'⟩ := exists_indexes hn
  have hrules := (indexes_of_ofRules_eq_ok h).rule?_eq hindexes' hperm
  refine ⟨table', h', fun pruned root => ?_⟩
  have hconcurs : (Scope.mk table pruned).Concurs ⟨table', pruned⟩ root :=
    ⟨fun _ name _ => hrules name, fun _ _ _ _ _ => Iff.rfl⟩
  exact hconcurs.discover_eq

/-- A look-up finds rules of their own names only. -/
lemma Indexes.name_eq (h : table.Indexes rules) (hr : table.get? name = some (some rule)) :
    rule.name = name := by
  have hmem := OrderedMap.get?_eq_some_iff.mp hr
  rw [h] at hmem
  obtain ⟨rule', _, heq⟩ := List.mem_map.mp hmem
  cases heq
  rfl

lemma filterMap_reference?_eq_nil (h : ∀ id name, .ruleRef id name ∉ nodes) :
    nodes.filterMap Element.reference? = [] := by
  rw [List.filterMap_eq_nil_iff]
  intro e he
  cases e with
  | ruleRef id name => exact absurd he (h id name)
  | _ => rfl

/-- In a table of rules under their own names the rule below some nodes is the one to which the last
reference among them refers. -/
lemma RuleBelow.eq_lastReference? (h : table.RuleBelow nodes r) (ht : table.Indexes rules) :
    r = Element.lastReference? nodes := by
  cases h with
  | outside h => rw [Element.lastReference?, filterMap_reference?_eq_nil h, List.getLast?_nil]
  | @inside before id name rule after hr h =>
    have hname : Element.reference? (.ruleRef id name) = some rule.name :=
      congrArg some (ht.name_eq hr).symm
    rw [Element.lastReference?, List.filterMap_append, List.filterMap_cons_some hname,
      filterMap_reference?_eq_nil h, List.getLast?_concat]

/-- **Rules are indexed exactly if their names are distinct, and how they are ordered does not
show.** Otherwise the first rule whose name is repeated is refused. A table of rules holds each of
them under its own name, in the order of the list. Tables of the same rules in any order lead every
traversal to the same names or to the same fault. The rule of a fault is the one to which the last
reference above the faulty node refers, if there is one. -/
theorem ofRules_indexes (rules : List Rule) :
    ((∃ table, ofRules rules = .ok table) ↔ (rules.map Rule.name).Nodup) ∧
    (∀ fault, ofRules rules = .error fault ↔ ∃ i rule, IsLeast {i | RepeatedAt rules i} i ∧
      rules[i]? = some rule ∧ fault = ⟨.duplicateRule rule.name, none, []⟩) ∧
    ∀ table, ofRules rules = .ok table → table.Indexes rules ∧
      (∀ rules', rules.Perm rules' → ∃ table', ofRules rules' = .ok table' ∧ ∀ pruned root,
        (Scope.mk table' pruned).discover root = (Scope.mk table pruned).discover root) ∧
      ∀ pruned root fault, (Scope.mk table pruned).discover root = .error fault →
        ∃ t f, Turns ⟨table, pruned⟩ (start root) t ∧ t.stack.head? = some f ∧
          t.step ⟨table, pruned⟩ = .fault fault ∧ table.Faulty f.element fault.cause ∧
          table.Lineage root (chainAbove t.trail f.parent ++ [f.element]) ∧
          fault.path = (chainAbove t.trail f.parent ++ [f.element]).map Element.label ∧
          fault.ruleName = Element.lastReference? (chainAbove t.trail f.parent) := by
  refine ⟨exists_ofRules_eq_ok_iff, fun _ => ofRules_eq_error_iff, fun table h => ?_⟩
  have hindexes := indexes_of_ofRules_eq_ok h
  refine ⟨hindexes, fun _ => exists_discover_eq_of_perm h, fun pruned root fault hd => ?_⟩
  obtain ⟨t, ht, hs⟩ := Scope.discover_eq_error_iff.mp hd
  have hlinked := ht.linked
  obtain ⟨f, rest, hst, hfaulty, hrule, hpath⟩ := hlinked.of_fault hs
  have hmem : f ∈ t.stack := hst ▸ List.mem_cons_self
  have hbelow : f.ruleName = Element.lastReference? (chainAbove t.trail f.parent) :=
    (hlinked.rules f hmem).eq_lastReference? hindexes
  exact ⟨t, f, ht, by rw [hst, List.head?_cons], hs, hfaulty,
    (hlinked.frames f hmem).lineage hlinked.trail, hpath, hrule.trans hbelow⟩

/-- Rules that refer to each other in a circle, and to a rule that is missing. -/
def phrases : List Rule := [
  ⟨"s", [[.ruleRef 1 "np", .choice 2 "" [.ruleRef 3 "s", .ruleRef 4 "vp"]]]⟩,
  ⟨"np", [[.literal 5 "cat"], [.literal 6 "dog", .ruleRef 7 "s"]]⟩,
  ⟨"vp", [[.group 8 "" .optional [.literal 9 "runs", .ruleRef 10 "adv"]]]⟩]

/-- The table of `phrases`. -/
def phraseTable : RuleTable := .ofList (phrases.map fun rule => (rule.name, some rule))

/-- What stops a traversal of `phrases`. -/
def missingAdverb : ModelFault where
  cause := .unknownRule "adv"
  ruleName := some "vp"
  path := ["s", "np", "s", "( s | vp )", "vp", "( 'runs' adv )?", "adv"]

theorem ofRules_indexes_phrases :
    ofRules phrases = .ok phraseTable ∧ phraseTable.Indexes phrases ∧
    phraseTable.unpruned.discover (.ruleRef 0 "s") = .error missingAdverb ∧
    (∃ table', ofRules phrases.reverse = .ok table' ∧
      table'.unpruned.discover (.ruleRef 0 "s") = .error missingAdverb) ∧
    ∃ above e, phraseTable.Lineage (.ruleRef 0 "s") (above ++ [e]) ∧
      (above ++ [e]).map Element.label = missingAdverb.path ∧
      Element.lastReference? above = missingAdverb.ruleName := by
  have hok : ofRules phrases = .ok phraseTable := by
    cbv
  have hd : phraseTable.unpruned.discover (.ruleRef 0 "s") = .error missingAdverb := by
    cbv
  obtain ⟨_, _, htable⟩ := ofRules_indexes phrases
  obtain ⟨hindexes, hperm, hfault⟩ := htable phraseTable hok
  obtain ⟨table', hok', hsame⟩ := hperm phrases.reverse (List.reverse_perm phrases).symm
  obtain ⟨t, f, _, _, _, _, hlineage, hpath, hrule⟩ := hfault .empty _ _ hd
  exact ⟨hok, hindexes, hd, ⟨table', hok', (hsame .empty _).trans hd⟩, _, _, hlineage, hpath.symm,
    hrule.symm⟩

end RuleTable

end GrammarCoverage
