import FounderOs.Foundation.SortedSet
import FounderOs.Headquarters.Missions

namespace FounderOs.Headquarters

open Execution (Instant)
open SortedSet (Ranks greaterFirst)

/-- `sorted(mission_candidates, key=_mission_sort_key)`, each with its score before. -/
def rankMissions (candidates : List (Nat × MissionCandidate)) : List MissionCandidate :=
  (candidates.mergeSort missionOrder).map (·.2)

def priorityOf (ranked : List MissionCandidate) : Option Mission := ranked.head?.map (·.mission)

def queueOf (ranked : List MissionCandidate) : List Mission :=
  ((ranked.drop 1).take 2).map (·.mission)

section orders

theorem ranks_id {α : Type} (id : α → Str) : Ranks (fun a b => decide (id a ≤ id b)) id where
  trans a b c hab hbc :=
    decide_eq_true (le_trans (of_decide_eq_true hab) (of_decide_eq_true hbc))
  total a b := by simpa using le_total (id a) (id b)
  tie a b hab hba := le_antisymm (of_decide_eq_true hab) (of_decide_eq_true hba)

theorem ranks_missionOrder : Ranks missionOrder fun candidate => candidate.2.mission.id :=
  ((ranks_id fun candidate : Nat × MissionCandidate => candidate.2.mission.id).greaterFirst
    fun candidate => stamp candidate.2.eventTime).greaterFirst fun candidate => candidate.1

/-- The order of changes, over any key. -/
theorem ranks_newerFirst {α : Type} (key : α → Option Instant × Option Instant × Str) :
    Ranks (fun a b => newerFirst (key a) (key b)) fun a => (key a).2.2 :=
  ((ranks_id fun a => (key a).2.2).greaterFirst fun a => stamp (key a).2.1).greaterFirst
    fun a => stamp (key a).1

end orders

section changes

variable {ranked other : List MissionCandidate}

theorem temporalCandidates_eq (hnodup : (ranked.map (·.mission.id)).Nodup)
    (hperm : ranked.Perm other) : temporalCandidates ranked = temporalCandidates other := by
  refine (ranks_newerFirst temporalCandidateSortKey).mergeSort_eq ?_ (hperm.filter _)
  exact hnodup.sublist (List.filter_sublist.map _)

/-- The changes are those of the candidates, however they are ranked. -/
theorem buildChanges_eq {S : Type} (hnodup : (ranked.map (·.mission.id)).Nodup)
    (hperm : ranked.Perm other) (itemId : ChangeItem → Str) (checkpoint : Option (Checkpoint S))
    (atLeast : Bool) (resolvedItems : List ChangeItem) (resolvedTotal : Nat)
    (eventCursorValid : Bool) :
    buildChanges itemId ranked checkpoint atLeast resolvedItems resolvedTotal eventCursorValid =
      buildChanges itemId other checkpoint atLeast resolvedItems resolvedTotal
        eventCursorValid := by
  unfold buildChanges currentFingerprints
  rw [temporalCandidates_eq hnodup hperm]

end changes

section ranking

variable {candidates other : List (Nat × MissionCandidate)}

theorem rankMissions_eq (hnodup : (candidates.map (·.2.mission.id)).Nodup)
    (hperm : candidates.Perm other) : rankMissions candidates = rankMissions other := by
  rw [rankMissions, ranks_missionOrder.mergeSort_eq hnodup hperm, rankMissions]

theorem nodup_ranked (hnodup : (candidates.map (·.2.mission.id)).Nodup) :
    ((rankMissions candidates).map (·.mission.id)).Nodup := by
  rw [rankMissions, List.map_map]
  exact ((List.mergeSort_perm _ _).map _).nodup_iff.2 hnodup

theorem priority_notMem_queue {ranked : List MissionCandidate}
    (hnodup : (ranked.map (·.mission.id)).Nodup) :
    ∀ priority ∈ priorityOf ranked, priority ∉ queueOf ranked := by
  intro priority hpriority hqueue
  cases ranked with
  | nil => cases hpriority
  | cons first rest =>
    obtain rfl := Option.some.inj hpriority
    obtain ⟨queued, hqueued, hsame⟩ := List.mem_map.1 hqueue
    have hrest : queued ∈ rest := List.mem_of_mem_take hqueued
    rw [List.map_cons, List.nodup_cons] at hnodup
    exact hnodup.1 (List.mem_map.2 ⟨queued, hrest, congrArg Mission.id hsame⟩)

end ranking

/-- A mission that nothing but its id tells apart. -/
def namedMission (id : String) : Nat × MissionCandidate :=
  (350, ⟨⟨Str.of id, [], [], none, [], [], none⟩, none, none, none⟩)

def twoMissions : List (Nat × MissionCandidate) := [namedMission "b", namedMission "a"]

end FounderOs.Headquarters
