import WaveCollapse.Proofs.Rules.Tables
import WaveCollapse.Proofs.Search.Ring

/-! # One set of rules, served in several ways

Rules can be used as they are, through a wrapper that passes every question on, as one of the
two kinds of a rule set, or from a cache, and any of these on top of any other
(`Rules.Served`).  The answers are the same, field by field, so a search cannot tell which of
them it uses: problems give the same systems, and searches from the same start and source take
the same steps to the same end.

In words the answers are the same for every template whose states are words.  For another template
the rules stop while they list its states, and a cache that is asked for a source without states
does not come to list them.
-/

namespace WaveCollapse

/-! ## Ways of serving rules -/

/-- A wrapper that passes every question on. -/
def Rules.delegated (r : Rules) : Rules where
  allows x t y := r.allows x t y
  allowed x t template := r.allowed x t template
  dual t := r.dual t
  classWidth c := r.classWidth c
  typeCount := r.typeCount
  classCount := r.classCount

/-- The second rules serve the first: through wrappers, rule sets and caches. -/
inductive Rules.Served : Rules → Rules → Prop where
  | plain (r : Rules) : Served r r
  | delegated {r q : Rules} (inner : Served r q) : Served r q.delegated
  | adjacency (table : AdjacencyTable) : Served table.rules (RuleSet.adjacency table).rules
  | sockets (table : SocketTable) : Served table.rules (RuleSet.sockets table).rules
  | cached {r q c : Rules} {stride : Nat} (inner : Served r q) (made : q.cached stride = .ok c) :
    Served r c

/-- Faithful rules are served unchanged. -/
theorem Rules.Served.eq {r q : Rules} (h : Served r q) (hr : r.Faithful) : q = r := by
  induction h with
  | plain | adjacency | sockets => rfl
  | delegated _ ih => exact ih hr
  | @cached r q c stride _ made ih =>
    rw [Rules.cached_eq made, ih hr]
    have hanswers : admitted r.allows = r.allowed := by
      funext x t template
      exact (hr x t template).symm
    rw [hanswers]

/-! ## Other rules in the same place -/

section Replacing
variable {V ρ : Type}

/-- The problem with other rules. -/
def Problem.withRules (p : Problem V) (q : Rules) : Problem V := { p with rules := q }

/-- The system with other rules for its problem. -/
def System.withRules (s : System V) (q : Rules) : System V :=
  { s with problem := s.problem.withRules q }

/-- The solver with other rules for its system. -/
def Solver.withRules (s : Solver V ρ) (q : Rules) : Solver V ρ :=
  { s with system := s.system.withRules q }

end Replacing

/-! ## Agreement -/

/-- **However rules are served, they give the same answers and the same searches.**  In words a
cache that can be filled answers every question, of whatever layouts and type, as the rules would,
if the states of the template's class can be listed, which for a class that passes the check means
that the last one is a word; and where the class lies within the words the answer is the set of its
states that some component of the source allows.  On numbers of any size the same holds of every
template.  Searches that differ only in how their rules are served pass through the same solvers and
end alike.  For rules over a registry a cache under the registry's stride can always be filled, in
words as soon as the number of all states is one. -/
theorem Rules.served_agree (r : Rules) :
    (∀ stride m, MaskCache.checkedFill r stride = .ok (.ok m) →
      ∀ x t y, (∃ ps, y.layout.checkedStates = .ok ps) →
        m.checkedAllowed r x t y = checkedAdmitted r.allows x t y) ∧
    (∀ l : Layout, l.Valid →
      ((∃ ps, l.checkedStates = .ok ps) ↔ l.base + l.width ≤ twoTo 64)) ∧
    (∀ x t y, (∃ ps, x.checkedComponents = .ok ps) → y.Readable → y.layout.InWord →
      checkedAdmitted r.allows x t y = .ok (admitted r.allows x t y)) ∧
    (∀ stride c, r.cached stride = .ok c →
      (∀ x t y, c.allowed x t y = admitted r.allows x t y) ∧ c.allows = r.allows ∧
        c.dual = r.dual ∧ c.classWidth = r.classWidth ∧ c.typeCount = r.typeCount ∧
        c.classCount = r.classCount) ∧
    (∀ x t y, y.Readable →
      (admitted r.allows x t y).layout = y.layout ∧
        ∀ i, (admitted r.allows x t y).bits.getLsbD i = true ↔
          i < y.layout.width ∧ ∃ s ∈ x.components, r.allows s t (y.layout.base + i) = true) ∧
    (∀ x t y y', y.layout = y'.layout → admitted r.allows x t y = admitted r.allows x t y') ∧
    (r.Faithful → ∀ q q', Served r q → Served r q' →
      (∀ x t y, q.allowed x t y = q'.allowed x t y) ∧
      (∀ (V : Type) [Ord V] (p : Problem V),
        (p.withRules q).system = (p.withRules q').system) ∧
      ∀ (V ρ : Type) [PickSource ρ] (s : Solver V ρ) run journal,
        (s.withRules q).passed run = (s.withRules q').passed run ∧
        (s.withRules q).drive run journal = (s.withRules q').drive run journal) ∧
    ∀ types duals modules registry, Registry.register types duals modules = .ok registry →
      ∀ set : RuleSet, set.Over registry → ∀ q, Served set.rules q →
        (∃ c, q.cached registry.stride = .ok c) ∧
        (registry.stateSpace < twoTo 64 →
          ∃ m, MaskCache.checkedFill q registry.stride = .ok (.ok m)) := by
  refine ⟨fun stride m hm x t y ⟨ps, hps⟩ => MaskCache.checkedAllowed_eq hm x t hps,
    fun l hl => hl.exists_checkedStates_iff, fun x t y ⟨ps, hps⟩ hy hl => ?_,
    fun stride c hc => ?_, fun x t y hy => admitted_bits r.allows x t hy,
    fun x t y y' hlayout => admitted_congr r.allows x t hlayout, fun hr q q' hq hq' => ?_,
    fun types duals modules registry hreg set hset q hq => ?_⟩
  · obtain ⟨-, -, -, rfl⟩ := Wave.checkedComponents_eq_ok_iff.mp hps
    exact checkedAdmitted_eq r.allows t hps hy hl
  · rw [cached_eq hc]
    exact ⟨fun _ _ _ => rfl, rfl, rfl, rfl, rfl, rfl⟩
  · -- both are the rules themselves
    rw [hq.eq hr, hq'.eq hr]
    exact ⟨fun _ _ _ => rfl, fun _ _ _ => rfl, fun _ _ _ _ _ _ => ⟨rfl, rfl⟩⟩
  · have hsame := hq.eq set.faithful
    have hwidth : q.classWidth = set.rules.classWidth := by rw [hsame]
    have hcount : q.classCount = registry.classCount := by rw [hsame, hset.shape.2.1]
    obtain ⟨c, hc⟩ := hset.cached_isOk (Registry.lawful_of_register hreg) hwidth
    refine ⟨⟨c, hc⟩, fun hspace => ?_⟩
    obtain ⟨m, hm, -⟩ := map_eq_ok_iff.mp hc
    exact ⟨m, MaskCache.checkedFill_eq_ok_iff.mpr ⟨hcount ▸ hspace, hm⟩⟩

/-- The one class of the ring fits its stride. -/
theorem Rules.differing_fits : ∀ c < (differing 2).classCount, 0 < (differing 2).classWidth c →
    (MaskCache.layout (differing 2) 2 c).Valid := by
  intro c hc _
  cases Nat.lt_one_iff.mp hc
  decide

/-- The odd ring is searched with a cache behind a wrapper, and the cache answers in words; and a
cache is filled for a table over a registry with a class of three modules and one of a single
module. -/
theorem Rules.served_differing :
    (∃ m, MaskCache.checkedFill (differing 2) 2 = .ok (.ok m) ∧
      m.checkedAllowed (differing 2) (.full ⟨0, 2, 2⟩) 0 (.empty ⟨0, 2, 2⟩) =
        .ok (admitted (differing 2).allows (.full ⟨0, 2, 2⟩) 0 (.empty ⟨0, 2, 2⟩))) ∧
    (∃ c, (differing 2).delegated.cached 2 = .ok c ∧
      (∀ x t y, c.allowed x t y = admitted (differing 2).allows x t y) ∧
      (((Solver.ring 3 2 {} [7]).withRules c).drive { limit := 5 } .silent).result =
        .error (.exhausted 1 1)) ∧
    ∃ registry table c m, Registry.register ["E", "W"] [1, 0]
        [("a", 0), ("b", 0), ("c", 0), ("door", 1)] = .ok registry ∧
      AdjacencyTable.ofTuples registry [⟨0, 1, 0⟩, ⟨1, 2, 0⟩, ⟨2, 3, 0⟩] = .ok table ∧
      table.rules.cached registry.stride = .ok c ∧ c.allows 3 1 2 = true ∧
      MaskCache.checkedFill table.rules registry.stride = .ok (.ok m) := by
  obtain ⟨hwords, hlist, hadmits, -, -, -, hsame, -⟩ := served_agree (differing 2)
  refine ⟨?_, ?_, ?_⟩
  · obtain ⟨m, hm⟩ := MaskCache.fill_isOk differing_fits
    have hfill : MaskCache.checkedFill (differing 2) 2 = .ok (.ok m) :=
      MaskCache.checkedFill_eq_ok_iff.mpr ⟨by decide, hm⟩
    refine ⟨m, hfill, ?_⟩
    rw [hwords 2 m hfill _ _ _ ((hlist _ (by decide)).mpr (by decide)),
      hadmits _ _ _ ⟨[0, 1], by decide⟩ (by decide) (by decide)]
  · obtain ⟨m, hm⟩ := MaskCache.fill_isOk (r := (differing 2).delegated) differing_fits
    have hc : (differing 2).delegated.cached 2 = .ok
        { (differing 2).delegated with allowed := m.allowed (differing 2).delegated } := by
      unfold cached
      rw [hm]
      rfl
    obtain ⟨hanswers, -, hruns⟩ := hsame (differing_faithful 2) _ _
      (.cached (.delegated (.plain _)) hc) (.plain _)
    refine ⟨_, hc, hanswers, ?_⟩
    rw [(hruns Int WordStream (Solver.ring 3 2 {} [7]) _ _).2]
    exact Solver.drive_result_of_within (n := 20) (by decide +kernel) _
  · have hreg : Registry.register ["E", "W"] [1, 0]
        [("a", 0), ("b", 0), ("c", 0), ("door", 1)] = .ok
          ⟨[⟨"a", 0, 0⟩, ⟨"b", 0, 1⟩, ⟨"c", 0, 2⟩, ⟨"door", 1, 3⟩], #[3, 1], ["E", "W"],
            #[1, 0]⟩ := by decide +kernel
    obtain ⟨table, htable, hallows⟩ : ∃ table, AdjacencyTable.ofTuples
        ⟨[⟨"a", 0, 0⟩, ⟨"b", 0, 1⟩, ⟨"c", 0, 2⟩, ⟨"door", 1, 3⟩], #[3, 1], ["E", "W"],
          #[1, 0]⟩ [⟨0, 1, 0⟩, ⟨1, 2, 0⟩, ⟨2, 3, 0⟩] = .ok table ∧
        table.allows 3 1 2 = true := ⟨_, rfl, by decide +kernel⟩
    obtain ⟨-, -, -, hcached, -, -, -, hfill⟩ := served_agree table.rules
    obtain ⟨⟨c, hc⟩, hwords⟩ :=
      hfill _ _ _ _ hreg (.adjacency table) ⟨_, htable⟩ _ (.adjacency table)
    obtain ⟨m, hm⟩ := hwords (by decide)
    refine ⟨_, table, c, m, hreg, htable, hc, ?_, hm⟩
    rw [(hcached _ c hc).2.1]
    exact hallows

/-- A template whose first state is no word: for a source without states the cache gives the empty
wave of the class, and the rules stop. -/
theorem Rules.served_past_words :
    let x := Wave.empty ⟨0, 2, 2⟩
    let y := Wave.empty ⟨twoTo 63, 2, 2⟩
    Wave.noneOf y.layout = .ok y ∧
      (∀ m : MaskCache, m.checkedAllowed (differing 2) x 0 y = .ok y) ∧
      checkedAdmitted (differing 2).allows x 0 y = .error .overflow ∧
      ¬ ∀ (r : Rules) stride m, MaskCache.checkedFill r stride = .ok (.ok m) →
        ∀ x t y, m.checkedAllowed r x t y = checkedAdmitted r.allows x t y := by
  intro x y
  have hcached : ∀ m : MaskCache, m.checkedAllowed (differing 2) x 0 y = .ok y := by
    intro m
    unfold MaskCache.checkedAllowed
    rw [show x.checkedComponents = .ok [] from by decide]
    rfl
  have hplain : checkedAdmitted (differing 2).allows x 0 y = .error .overflow := by decide
  refine ⟨rfl, hcached, hplain, fun hall => ?_⟩
  obtain ⟨m, hm⟩ := MaskCache.fill_isOk differing_fits
  have hfill := MaskCache.checkedFill_eq_ok_iff.mpr ⟨by decide, hm⟩
  cases (hcached m).symm.trans ((hall (differing 2) 2 m hfill x 0 y).trans hplain)

end WaveCollapse
