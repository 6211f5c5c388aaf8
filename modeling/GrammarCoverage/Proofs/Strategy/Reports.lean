import GrammarCoverage.Proofs.Strategy.Decision

/-!
# What the records of a decision say

A decision by coverage reports the discovery first, then the names without a count that it passes on
its way to an unused one, and last what has decided. The names passed depend on the order in which
they are looked through (`Crawler.search_untracked`), but in every order each is reported once, and
all of them if no name is unused (`Coverage.reports_decideAmong`).
-/

namespace GrammarCoverage

universe u

namespace Crawler

variable {c : Crawler} {name : String}

/-- A literal is untracked if it has no entry, or an entry without a count. -/
def Untracked (c : Crawler) (name : String) : Prop :=
  c.usage.get? name = none ∨ c.usage.get? name = some .null

lemma count?_eq_none_iff : c.count? name = none ↔ c.Untracked name := by
  rw [count?, Untracked]
  cases c.usage.get? name with
  | none => simp
  | some count => cases count <;> simp

/-- The names without a count are reported up to the first unused name. -/
lemma search_untracked (c : Crawler) (names : List String) :
    (c.search names).untracked =
      (names.takeWhile (!c.isUnused ·)).filter (c.count? · |>.isNone) := by
  induction names with
  | nil => rfl
  | cons name names ih =>
    rw [search]
    cases hcount : c.count? name with
    | none => simp [isUnused_of_none hcount, hcount, ih]
    | some count =>
      have hunused := isUnused_of_some hcount
      cases hzero : count.isZero <;> simp [hunused, hcount, hzero, ih]

lemma mem_of_mem_search_untracked {names : List String}
    (h : name ∈ (c.search names).untracked) : name ∈ names ∧ c.Untracked name := by
  rw [search_untracked, List.mem_filter, Option.isNone_iff_eq_none, count?_eq_none_iff] at h
  exact ⟨(List.takeWhile_sublist _).subset h.1, h.2⟩

lemma nodup_search_untracked {names : List String} (h : names.Nodup) :
    (c.search names).untracked.Nodup := by
  rw [search_untracked]
  exact (h.sublist (List.takeWhile_sublist _)).filter _

/-- Without an unused name no untracked name is left out. -/
lemma mem_search_untracked {names : List String} (hnone : ∀ name ∈ names, ¬ c.Unused name)
    (hn : name ∈ names) (hu : c.Untracked name) : name ∈ (c.search names).untracked := by
  have hall : names.takeWhile (!c.isUnused ·) = names := by
    rw [List.takeWhile_eq_self_iff]
    intro x hx
    simpa using fun hunused => hnone x hx (isUnused_iff.mp hunused)
  rw [search_untracked, hall, List.mem_filter, Option.isNone_iff_eq_none, count?_eq_none_iff]
  exact ⟨hn, hu⟩

end Crawler

namespace Coverage

variable {σ : Type u} [NumberSource σ] {c : Crawler} {p : Probability} {e : Element} {source : σ}
  {found : NameSet} {d : Decision σ}

/-- The records of an answer about an element in which some names have been found: their number,
then names without a count, each once, and last an unused name, or the number and the answer if
there is none. -/
inductive Reports (c : Crawler) (e : Element) (found : NameSet) : Bool → List Event → Prop where
  | unused {passed : List String} {name : String} (hnodup : passed.Nodup)
      (hpassed : ∀ x ∈ passed, x ∈ found ∧ c.Untracked x) (hn : name ∈ found)
      (hu : c.Unused name) :
      Reports c e found true
        (.discovered found.size e :: passed.map .untracked ++ [.unused e name])
  /-- If no name is unused, then no name without a count is left out. -/
  | fallback {passed : List String} (b : Bool) (hnodup : passed.Nodup)
      (hpassed : ∀ x, x ∈ passed ↔ x ∈ found ∧ c.Untracked x)
      (hnone : ∀ name ∈ found, ¬ c.Unused name) :
      Reports c e found b
        (.discovered found.size e :: passed.map .untracked ++ [.fallback found.size e b])

/-- In any order the records are those of the answer. -/
lemma reports_decideAmong (c : Crawler) (p : Probability) (e : Element) (source : σ)
    {names : List String} (hnames : names.Perm found.names) :
    ∃ b, (decideAmong c p e names source).outcome = .ok b ∧
      Reports c e found b
        (.discovered found.size e :: (decideAmong c p e names source).events) := by
  have hnodup := Crawler.nodup_search_untracked (c := c) (hnames.nodup_iff.mpr found.nodup)
  have hpassed {x : String} (hx : x ∈ (c.search names).untracked) : x ∈ found ∧ c.Untracked x :=
    (Crawler.mem_of_mem_search_untracked hx).imp_left hnames.mem_iff.mp
  rw [decideAmong, Crawler.search_unused]
  cases hfind : names.find? c.isUnused with
  | some name =>
    have hn : name ∈ found := hnames.mem_iff.mp (List.mem_of_find?_eq_some hfind)
    have hu : c.Unused name := Crawler.isUnused_iff.mp (List.find?_some hfind)
    exact ⟨true, rfl, .unused hnodup (fun _ => hpassed) hn hu⟩
  | none =>
    have hnone : ∀ name ∈ names, ¬ c.Unused name := fun name hn hu =>
      List.find?_eq_none.mp hfind name hn (Crawler.isUnused_iff.mpr hu)
    rw [hnames.length_eq]
    refine ⟨_, rfl, .fallback _ hnodup (fun x => ⟨hpassed, fun hx => ?_⟩) fun name hn =>
      hnone name (hnames.mem_iff.mpr hn)⟩
    exact Crawler.mem_search_untracked hnone (hnames.mem_iff.mpr hx.1) hx.2

lemma Reports.level_eq_debug {b : Bool} {events : List Event} (h : Reports c e found b events) :
    ∀ event ∈ events, event.level = .debug := by
  cases h <;> simp +contextual [Event.level, or_imp]

lemma Decides.events_of_fault {f : ModelFault} (hd : Decides c p e source d)
    (h : c.scope.discover e = .error f) : d.events = [] := by
  cases hd with
  | fault _ => rfl
  | among h' _ =>
    rw [h] at h'
    cases h'

lemma Decides.exists_reports (hd : Decides c p e source d) (h : c.scope.discover e = .ok found) :
    ∃ b, d.outcome = .ok b ∧ Reports c e found b d.events := by
  cases hd with
  | fault h' =>
    rw [h] at h'
    cases h'
  | among h' hn =>
    rw [h] at h'
    cases h'
    exact reports_decideAmong c p e source hn

lemma Decides.level_eq_debug (hd : Decides c p e source d) :
    ∀ event ∈ d.events, event.level = .debug := by
  cases h : c.scope.discover e with
  | error f => simp [hd.events_of_fault h]
  | ok found =>
    obtain ⟨_, _, hreports⟩ := hd.exists_reports h
    exact hreports.level_eq_debug

/-- **The records of a decision by coverage tell the truth**, in whatever order the names are looked
through. A fault leaves no record. Otherwise the first record counts the names that have been found,
each of the records after it but the last one names another of them without a count, and the last
record is about the decision: it names an unused literal among them if there is one, and else it
counts them again and shows the answer, and then no name without a count is missing. All records are
for debugging. So it is when the names are looked through as they were found, and those are the
records that a question to a strategy of a session leaves. -/
theorem reports_of_decides (hd : Decides c p e source d) :
    (∀ f, c.scope.discover e = .error f → d.outcome = .error f ∧ d.events = []) ∧
    (∀ found, c.scope.discover e = .ok found →
      ∃ b, d.outcome = .ok b ∧ Reports c e found b d.events) ∧
    (∀ event ∈ d.events, event.level = .debug) ∧
    Decides c p e source (decide c p e source) ∧
    ∀ (s : Session) (id : String) (made : Made) (k : Nat) (generator : Generator),
      s.strategies.get? id = some made → made.strategy = .coverage k generator p →
      (s.perform (.ask id e 1)).events = (decide (s.read k) p e generator).events := by
  refine ⟨fun f h => ⟨(hd.of_fault h).1, hd.events_of_fault h⟩, fun found => hd.exists_reports,
    hd.level_eq_debug, decides_decide c p e source, ?_⟩
  intro s id made k generator hmade hstrategy
  rw [Session.perform_ask_one hmade e, hstrategy]
  rfl

theorem reports_of_decides_mixedGroup :
    ∃ d : Decision Generator,
      Decides Session.mixedCrawler .half Session.mixedGroup (.ofNumbers []) d ∧
      d.events = [.discovered 4 Session.mixedGroup, .untracked "stray", .untracked "blank",
        .unused Session.mixedGroup "fresh"] ∧
      ∃ b, d.outcome = .ok b ∧
        Reports Session.mixedCrawler Session.mixedGroup
          (.ofList ["fresh", "used", "blank", "stray"]) b d.events := by
  have hfound : Session.mixedCrawler.scope.discover Session.mixedGroup =
      .ok (.ofList ["fresh", "used", "blank", "stray"]) := by
    cbv
  -- from the last name to the first, so that all the others are passed
  have hnames : (NameSet.ofList ["fresh", "used", "blank", "stray"]).names.reverse =
      ["stray", "blank", "used", "fresh"] := by
    cbv
  have hd : Decides Session.mixedCrawler .half Session.mixedGroup (Generator.ofNumbers []) _ :=
    .among hfound (hnames ▸ List.reverse_perm _)
  obtain ⟨_, hreports, _⟩ := reports_of_decides hd
  exact ⟨_, hd, rfl, hreports _ hfound⟩

end Coverage

end GrammarCoverage
