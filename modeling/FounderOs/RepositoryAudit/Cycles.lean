import FounderOs.Foundation.StrongComponents
import FounderOs.RepositoryAudit.Unresolved

namespace FounderOs.RepositoryAudit

open Headquarters Components SortedSet Relation

/-- A resolved relationship that has a direction. -/
def LeadsTo (relationships : List Relationship) (a b : Uuid) : Prop :=
  ∃ relationship ∈ relationships,
    relationship.relationshipType ∉ symmetricRelationshipTypes ∧
      relationship.fromRepository.repositoryId = some a ∧
        relationship.toRepository.repositoryId = some b

def Connected (relationships : List Relationship) (a b : Uuid) : Prop :=
  ReflTransGen (LeadsTo relationships) a b ∧ ReflTransGen (LeadsTo relationships) b a

/-- All repositories of a strongly connected component that has several, in the order of ids. -/
structure CycleOf (portfolio : RepositoryPortfolio) (relationships : List Relationship)
    (cycle : List Uuid) : Prop where
  several : 1 < cycle.length
  sorted : cycle.Pairwise fun a b => uuidLe a b = true ∧ a ≠ b
  component : ∃ root ∈ portfolio.repositories.map (·.repositoryId),
    ∀ id, id ∈ cycle ↔ Connected relationships root id

/-- What is found of the cycles before it is compared with the bounds. -/
def cyclesOf (portfolio : RepositoryPortfolio) (relationships : List Relationship) :
    List (List Uuid) :=
  (((components (adjacency relationships)
    (sortedSet uuidLe (portfolio.repositories.map (·.repositoryId)))).filter (1 < ·.length)).map
      (·.mergeSort uuidLe)).mergeSort idsLe

section order

variable {xs ys : List Uuid}

theorem orders_uuidLe : Orders uuidLe := orders_text.comap fun a b h => by
  cases a
  cases b
  cases h
  rfl

theorem pairwise_sorted (h : xs.Nodup) :
    (xs.mergeSort uuidLe).Pairwise fun a b => uuidLe a b = true ∧ a ≠ b :=
  (List.pairwise_mergeSort orders_uuidLe.trans orders_uuidLe.total xs).and
    ((List.mergeSort_perm xs uuidLe).nodup_iff.2 h)

/-- A list of ids in their order is what its members are. -/
theorem eq_mergeSort (hsorted : ys.Pairwise fun a b => uuidLe a b = true ∧ a ≠ b) (hxs : xs.Nodup)
    (h : ∀ id, id ∈ ys ↔ id ∈ xs) : ys = xs.mergeSort uuidLe := by
  have hperm : ys.Perm xs :=
    (List.perm_ext_iff_of_nodup (hsorted.imp And.right) hxs).2 h
  exact List.Perm.eq_of_pairwise (fun a b _ _ => orders_uuidLe.antisymm a b)
    (hsorted.imp And.left)
    (List.pairwise_mergeSort orders_uuidLe.trans orders_uuidLe.total xs)
    (hperm.trans (List.mergeSort_perm xs uuidLe).symm)

end order

section cycles

variable {portfolio : RepositoryPortfolio} {relationships other : List Relationship}
variable {policy : RelationshipPolicy} {a b : Uuid}

theorem Connected.symm (h : Connected relationships a b) : Connected relationships b a :=
  ⟨h.2, h.1⟩

theorem Connected.trans {c : Uuid} (h : Connected relationships a b)
    (h' : Connected relationships b c) : Connected relationships a c :=
  ⟨h.1.trans h'.1, h'.2.trans h.2⟩

theorem mem_adjacency : b ∈ adjacency relationships a ↔ LeadsTo relationships a b := by
  simp only [adjacency, mem_sortedSet, List.mem_filterMap, LeadsTo]
  refine exists_congr fun relationship => and_congr_right fun _ => ?_
  simp only [Bool.or_eq_true, List.contains_iff_mem, bne_iff_ne, ite_eq_iff]
  grind

theorem reach_adjacency :
    Reach (adjacency relationships) a b ↔ ReflTransGen (LeadsTo relationships) a b := by
  have hsame : (fun a b => b ∈ adjacency relationships a) = LeadsTo relationships :=
    funext₂ fun _ _ => propext mem_adjacency
  rw [Reach, hsame]

/-- The order in which relationships are listed makes no difference. -/
theorem adjacency_perm (h : other.Perm relationships) :
    adjacency other = adjacency relationships := by
  refine funext fun node => sortedSet_congr orders_uuidLe fun id => ?_
  rw [(h.filterMap _).mem_iff]

variable (hends : ∀ a b, LeadsTo relationships a b →
  a ∈ portfolio.repositories.map (·.repositoryId) ∧
    b ∈ portfolio.repositories.map (·.repositoryId))

include hends

theorem components_adjacency :
    (∀ c ∈ components (adjacency relationships)
      (sortedSet uuidLe (portfolio.repositories.map (·.repositoryId))),
        Strong (adjacency relationships) c) ∧
    (components (adjacency relationships)
      (sortedSet uuidLe (portfolio.repositories.map (·.repositoryId)))).Pairwise List.Disjoint ∧
    ∀ id, id ∈ (components (adjacency relationships)
      (sortedSet uuidLe (portfolio.repositories.map (·.repositoryId)))).flatten ↔
        id ∈ portfolio.repositories.map (·.repositoryId) := by
  have hclosed : ∀ a ∈ sortedSet uuidLe (portfolio.repositories.map (·.repositoryId)),
      ∀ b ∈ adjacency relationships a,
        b ∈ sortedSet uuidLe (portfolio.repositories.map (·.repositoryId)) :=
    fun a _ b hb => mem_sortedSet.2 (hends a b (mem_adjacency.1 hb)).2
  obtain ⟨hstrong, hdisjoint, hall⟩ := components_spec hclosed
  exact ⟨hstrong, hdisjoint, fun id => (hall id).trans mem_sortedSet⟩

theorem mem_cyclesOf {cycle : List Uuid} :
    cycle ∈ cyclesOf portfolio relationships ↔ CycleOf portfolio relationships cycle := by
  obtain ⟨hstrong, -, hall⟩ := components_adjacency hends
  rw [cyclesOf, (List.mergeSort_perm _ idsLe).mem_iff, List.mem_map]
  constructor
  · rintro ⟨c, hc, rfl⟩
    obtain ⟨hc, hseveral⟩ := List.mem_filter.1 hc
    obtain ⟨hnodup, root, hroot⟩ := hstrong c hc
    have hin : root ∈ c := (hroot root).2 ⟨.refl, .refl⟩
    refine ⟨?_, pairwise_sorted hnodup, root, (hall root).1 (List.mem_flatten.2 ⟨c, hc, hin⟩),
      fun id => ?_⟩
    · rw [List.length_mergeSort]
      exact of_decide_eq_true hseveral
    · rw [List.mem_mergeSort, hroot, reach_adjacency, reach_adjacency]
      rfl
  · rintro ⟨hseveral, hsorted, root, hroot, hmem⟩
    obtain ⟨c, hc, hin⟩ := List.mem_flatten.1 ((hall root).2 hroot)
    obtain ⟨hnodup, first, hfirst⟩ := hstrong c hc
    have hconnected (id : Uuid) : id ∈ c ↔ Connected relationships first id := by
      rw [hfirst, reach_adjacency, reach_adjacency]
      rfl
    have hto := (hconnected root).1 hin
    have hsame (id : Uuid) : id ∈ cycle ↔ id ∈ c := by
      rw [hmem, hconnected]
      exact ⟨hto.trans, hto.symm.trans⟩
    have hsort := eq_mergeSort hsorted hnodup hsame
    refine ⟨c, List.mem_filter.2 ⟨hc, decide_eq_true ?_⟩, hsort.symm⟩
    rwa [hsort, List.length_mergeSort] at hseveral

theorem cyclesOf_nodup : (cyclesOf portfolio relationships).Nodup := by
  obtain ⟨hstrong, hdisjoint, -⟩ := components_adjacency hends
  rw [cyclesOf, (List.mergeSort_perm _ idsLe).nodup_iff]
  refine List.pairwise_map.2 ((hdisjoint.filter _).imp_of_mem fun {c d} hc _ hapart hsame => ?_)
  obtain ⟨-, root, hroot⟩ := hstrong c (List.mem_filter.1 hc).1
  have hin : root ∈ c := (hroot root).2 ⟨.refl, .refl⟩
  have hin' : root ∈ d.mergeSort uuidLe := hsame ▸ List.mem_mergeSort.2 hin
  exact hapart hin (List.mem_mergeSort.1 hin')

omit hends in
theorem findCycles_eq : findCycles portfolio relationships policy =
    if policy.maxCycles < (cyclesOf portfolio relationships).length then
      .error (.limit "relationship graph exceeds the configured cycle bound")
    else if (cyclesOf portfolio relationships).any (policy.maxCycleDepth < ·.length) then
      .error (.limit "relationship graph exceeds the configured cycle-depth bound")
    else .ok (cyclesOf portfolio relationships) := by
  change (do
    refuseIf (decide (policy.maxCycles < (cyclesOf portfolio relationships).length)) _
    refuseIf ((cyclesOf portfolio relationships).any (policy.maxCycleDepth < ·.length)) _
    pure (cyclesOf portfolio relationships)) = _
  generalize cyclesOf portfolio relationships = cycles
  by_cases hmany : policy.maxCycles < cycles.length
  · rw [if_pos hmany, refuseIf, if_pos (decide_eq_true hmany)]
    rfl
  · rw [if_neg hmany, refuseIf, if_neg (by simpa using hmany), refuseIf]
    split <;> rfl

/-- Within its bounds the search returns each strongly connected component with several
repositories once, however the relationships are listed; beyond them it refuses. -/
theorem findCycles_exact : ∃ cycles,
    (∀ cycle, cycle ∈ cycles ↔ CycleOf portfolio relationships cycle) ∧ cycles.Nodup ∧
      ∀ other, other.Perm relationships → findCycles portfolio other policy =
        if policy.maxCycles < cycles.length then
          .error (.limit "relationship graph exceeds the configured cycle bound")
        else if cycles.any (policy.maxCycleDepth < ·.length) then
          .error (.limit "relationship graph exceeds the configured cycle-depth bound")
        else .ok cycles := by
  refine ⟨cyclesOf portfolio relationships, fun cycle => mem_cyclesOf hends, cyclesOf_nodup hends,
    fun other hother => ?_⟩
  have hsame : cyclesOf portfolio other = cyclesOf portfolio relationships := by
    rw [cyclesOf, adjacency_perm hother]
    rfl
  rw [findCycles_eq, hsame]

end cycles

section resolved

variable {Digest : Type} {rules : RelationshipRules Digest} {portfolio : RepositoryPortfolio}
variable {repositories : List PortfolioEntry} {index index' : SelectorIndex}
variable {entry : PortfolioEntry} {key : RelationshipType × Str} {policy : RelationshipPolicy}
variable {signals : List RelationshipSignal} {relationships : List Relationship}

theorem mem_indexSelector (h : indexSelector entry index key = .ok index') :
    ∀ p ∈ index', p ∈ index ∨ p.2 = entry := by
  unfold indexSelector at h
  split at h
  · cases h
  · cases h
    exact fun p hp => (Dict.mem_of_mem_set hp).symm.imp_right fun hset => congrArg Prod.snd hset

theorem mem_indexEntry (h : indexEntry rules index entry = .ok index') :
    ∀ p ∈ index', p ∈ index ∨ p.2 = entry := by
  obtain ⟨typed, htyped, hstable⟩ := ok_of_bind_ok h
  have hfirst : ∀ p ∈ typed, p ∈ index ∨ p.2 = entry := by
    refine foldlM_invariant (P := fun index' _ => ∀ p ∈ index', p ∈ index ∨ p.2 = entry) ?_
      (fun p hp => .inl hp) htyped
    intro before _ selector next hbefore hnext p hp
    split at hnext
    · cases hnext
    · exact (mem_indexSelector hnext p hp).elim (hbefore p) .inr
  refine foldlM_invariant (P := fun index' _ => ∀ p ∈ index', p ∈ index ∨ p.2 = entry) ?_
    hfirst hstable
  intro before _ selector next hbefore hnext p hp
  exact (mem_indexSelector hnext p hp).elim (hbefore p) .inr

/-- A selector resolves to a repository of the portfolio. -/
theorem mem_of_selectorIndex (h : selectorIndex rules repositories = .ok index)
    (hget : Dict.get index key = some entry) : entry ∈ repositories := by
  refine foldlM_invariant (P := fun index done => ∀ p ∈ index, p.2 ∈ done) ?_
    (fun p hp => absurd hp List.not_mem_nil) h _ (Dict.mem_of_get hget)
  intro before done entry next hbefore hnext p hp
  rcases mem_indexEntry hnext p hp with hp | hp
  · exact List.mem_append_left _ (hbefore p hp)
  · rw [hp]
    exact List.mem_append_right _ List.mem_cons_self

theorem mem_of_entry {id : Uuid} (h : portfolio.entry id = some entry) :
    entry ∈ portfolio.repositories := by
  obtain ⟨row, hrow, hpair⟩ := List.mem_map.1 (Dict.mem_of_mem_ofPairs (Dict.mem_of_get h))
  cases hpair
  exact hrow

/-- What the signals are resolved to joins repositories of the portfolio. -/
theorem resolved_ends (hindex : selectorIndex rules portfolio.repositories = .ok index)
    (h : resolveSignals rules portfolio index signals policy = .ok relationships) {a b : Uuid}
    (hleads : LeadsTo relationships a b) :
    a ∈ portfolio.repositories.map (·.repositoryId) ∧
      b ∈ portfolio.repositories.map (·.repositoryId) := by
  obtain ⟨relationship, hmem, -, hfrom, hto⟩ := hleads
  have hfirst := (resolved_iff h).1 ⟨relationship, hmem, rfl⟩
  obtain ⟨key, -, hedge⟩ := List.mem_filterMap.1 (List.mem_of_find?_eq_some hfirst)
  obtain ⟨source, hsource, hedge⟩ := Option.map_eq_some_iff.1 hedge
  have hlisted {reference : RepositoryReference} {id : Uuid}
      (hid : reference.repositoryId = some id)
      (hreference : reference = source.reference ∨ reference =
        ((Dict.get index key.2).map (·.reference)).getD
          (candidateReference rules portfolio.workspaceId key.2.1 key.2.2)) :
      id ∈ portfolio.repositories.map (·.repositoryId) := by
    rcases hreference with rfl | rfl
    · cases hid
      exact List.mem_map_of_mem (mem_of_entry hsource)
    · cases htarget : Dict.get index key.2 with
      | none =>
        rw [htarget] at hid
        cases hid
      | some target =>
        rw [htarget] at hid
        cases hid
        exact List.mem_map_of_mem (mem_of_selectorIndex hindex htarget)
  unfold Edge.normalized at hedge
  split at hedge
  · obtain ⟨-, hsourceOf, htargetOf⟩ := Edge.mk.inj hedge
    exact ⟨hlisted hfrom (.inl hsourceOf.symm), hlisted hto (.inr htargetOf.symm)⟩
  · obtain ⟨-, hsourceOf, htargetOf⟩ := Edge.mk.inj hedge
    exact ⟨hlisted hfrom (.inr hsourceOf.symm), hlisted hto (.inl htargetOf.symm)⟩

/-- The cycles of an analysis are those of its own relationships. -/
theorem analysis_cycles {collections : List StaticCollection} {analysis : RelationshipAnalysis}
    (h : buildRepositoryRelationshipAnalysis rules portfolio collections signals policy =
      .ok analysis) :
    analysis.cycles.Nodup ∧
      ∀ cycle, cycle ∈ analysis.cycles ↔ CycleOf portfolio analysis.relationships cycle := by
  obtain ⟨_, -, h⟩ := ok_of_bind_ok h
  obtain ⟨_, -, h⟩ := ok_of_bind_ok h
  obtain ⟨_, -, h⟩ := ok_of_bind_ok h
  obtain ⟨index, hindex, h⟩ := ok_of_bind_ok h
  obtain ⟨relationships, hresolved, h⟩ := ok_of_bind_ok h
  rw [relationships_of_analysis h]
  have hends := fun a b => resolved_ends (a := a) (b := b) (mapError_ok_iff.1 hindex) hresolved
  obtain ⟨cycles, hcycles, h⟩ := ok_of_bind_ok h
  obtain ⟨_, -, h⟩ := ok_of_bind_ok h
  obtain ⟨_, -, h⟩ := ok_of_bind_ok h
  obtain ⟨_, -, h⟩ := ok_of_bind_ok h
  obtain ⟨_, -, h⟩ := ok_of_bind_ok h
  obtain ⟨_, -, h⟩ := ok_of_bind_ok h
  cases h
  have hfound : cycles = cyclesOf portfolio relationships := by
    rw [findCycles_eq] at hcycles
    split at hcycles
    · cases hcycles
    · split at hcycles
      · cases hcycles
      · exact (Except.ok.inj hcycles).symm
  rw [hfound]
  exact ⟨cyclesOf_nodup hends, fun cycle => mem_cyclesOf hends⟩

end resolved

section samples

def ringPortfolio : RepositoryPortfolio where
  workspaceId := sampleWorkspace
  repositories := [1, 2, 3].map fun n =>
    ⟨sampleWorkspace, sampleId n, [48 + n], Str.of "acme/" ++ [48 + n], [], [], [], [], [], [], []⟩

def ringEdge (a b : Nat) : Relationship :=
  let reference (n : Nat) : RepositoryReference :=
    ⟨sampleWorkspace, some (sampleId n), [48 + n], Str.of "acme/" ++ [48 + n], .canonical⟩
  { selfEdge with
    fromRepository := reference a
    toRepository := reference b
    relationshipType := .callsApiOf }

/-- Each of three services calls the next. -/
def callRing : List Relationship := [ringEdge 1 2, ringEdge 2 3, ringEdge 3 1]

theorem ring_ends (a b : Uuid) (h : LeadsTo callRing a b) :
    a ∈ ringPortfolio.repositories.map (·.repositoryId) ∧
      b ∈ ringPortfolio.repositories.map (·.repositoryId) := by
  have hall : (callRing.all fun relationship =>
      relationship.fromRepository.repositoryId.all
          (ringPortfolio.repositories.map (·.repositoryId)).contains &&
        relationship.toRepository.repositoryId.all
          (ringPortfolio.repositories.map (·.repositoryId)).contains) = true := by
    decide +kernel
  obtain ⟨relationship, hmem, -, hfrom, hto⟩ := h
  have hone := List.all_eq_true.1 hall relationship hmem
  rw [hfrom, hto, Bool.and_eq_true] at hone
  exact ⟨List.contains_iff_mem.1 hone.1, List.contains_iff_mem.1 hone.2⟩

theorem ring_cycles :
    cyclesOf ringPortfolio callRing = [[sampleId 1, sampleId 2, sampleId 3]] := by
  have hsorted : [sampleId 1, sampleId 2, sampleId 3].Pairwise fun a b =>
      uuidLe a b = true ∧ a ≠ b := by
    decide +kernel
  have hnodes : sortedSet uuidLe (ringPortfolio.repositories.map (·.repositoryId)) =
      [sampleId 1, sampleId 2, sampleId 3] := by
    have hdedup : (ringPortfolio.repositories.map (·.repositoryId)).dedup =
        [sampleId 1, sampleId 2, sampleId 3] := by
      decide +kernel
    rw [sortedSet, hdedup]
    exact List.mergeSort_of_pairwise (hsorted.imp And.left)
  have hcomponents : components (adjacency callRing) [sampleId 1, sampleId 2, sampleId 3] =
      [[sampleId 3, sampleId 2, sampleId 1]] := by
    decide +kernel
  have hordered : [sampleId 1, sampleId 2, sampleId 3] =
      [sampleId 3, sampleId 2, sampleId 1].mergeSort uuidLe :=
    eq_mergeSort hsorted (by decide +kernel) fun id => by
      simp only [List.mem_cons, List.not_mem_nil, or_false]
      tauto
  rw [cyclesOf, hnodes, hcomponents, hordered]
  exact List.mergeSort_singleton _

theorem findCycles_exact_ring : ∃ cycles,
    (∀ cycle, cycle ∈ cycles ↔ CycleOf ringPortfolio callRing cycle) ∧ cycles.Nodup ∧
      ∀ other, other.Perm callRing → findCycles ringPortfolio other samplePolicy =
        if samplePolicy.maxCycles < cycles.length then
          .error (.limit "relationship graph exceeds the configured cycle bound")
        else if cycles.any (samplePolicy.maxCycleDepth < ·.length) then
          .error (.limit "relationship graph exceeds the configured cycle-depth bound")
        else .ok cycles :=
  findCycles_exact ring_ends

/-- With a bound of two repositories a cycle, the three are refused. -/
theorem findCycles_refuses :
    (∀ a b, LeadsTo callRing a b → a ∈ ringPortfolio.repositories.map (·.repositoryId) ∧
      b ∈ ringPortfolio.repositories.map (·.repositoryId)) ∧
    CycleOf ringPortfolio callRing [sampleId 1, sampleId 2, sampleId 3] ∧
      findCycles ringPortfolio callRing { samplePolicy with maxCycleDepth := 2 } =
        .error (.limit "relationship graph exceeds the configured cycle-depth bound") := by
  refine ⟨ring_ends, (mem_cyclesOf ring_ends).1 ?_, ?_⟩
  · rw [ring_cycles]
    exact List.mem_cons_self
  · rw [findCycles_eq, ring_cycles]
    rfl

end samples

end FounderOs.RepositoryAudit
