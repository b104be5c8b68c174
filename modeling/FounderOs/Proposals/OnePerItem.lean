import FounderOs.Foundation.Transition
import FounderOs.Proposals.Briefing
import Mathlib.Logic.Function.Basic

namespace FounderOs.Proposals

open Headquarters Execution Transition

abbrev GenerationCall := Nat

/-- `seen` counts the proposals that were committed when the open ones were read. -/
inductive GenerationPc where
  | loaded
  | read (openKeys : List Str) (seen : Nat)
  | generated (openKeys : List Str) (seen : Nat) (result : GenerationResult)

/-- The committed proposals of the workspace with the open transactions. `stream` is who holds the
row of the workspace in `company_memory_event_streams`, which the first proposal of a transaction
locks. -/
structure GenerationWorld where
  proposals : List ActionProposal
  stream : Option GenerationCall
  calls : GenerationCall → Option GenerationPc

/-- `fail` is any end that is not named: a rollback, a lost connection, a rejected event. -/
inductive GenerationAction where
  | generate (call : GenerationCall)
  | readOpen (call : GenerationCall)
  | create (call : GenerationCall) (newId : Nat → Uuid)
  | commit (call : GenerationCall)
  | fail (call : GenerationCall)

namespace GenerationWorld

variable (s : GenerationWorld) (i : GenerationCall)

def put (pc : GenerationPc) : GenerationWorld :=
  { s with calls := Function.update s.calls i (some pc) }

def close : GenerationWorld :=
  { s with
    stream := if s.stream = some i then none else s.stream
    calls := Function.update s.calls i none }

end GenerationWorld

section steps

variable {Digest : Type} (rules : EvidenceRules Digest) (briefing : Briefing)

def createStep (s : GenerationWorld) (i : GenerationCall) (openKeys : List Str) (seen : Nat)
    (newId : Nat → Uuid) : Option GenerationWorld :=
  match generateFromBriefing rules briefing newId openKeys with
  | .error _ => some (s.close i)
  | .ok result =>
    if result.proposals.isEmpty then some (s.put i (.generated openKeys seen result))
    else if s.stream = none then
      if ((s.proposals ++ result.proposals).map (·.id)).Nodup then
        some { s.put i (.generated openKeys seen result) with stream := some i }
      else some (s.close i)
    else none

def generationStep (s : GenerationWorld) : GenerationAction → Option GenerationWorld
  | .generate i => if (s.calls i).isNone then some (s.put i .loaded) else none
  | .readOpen i =>
    match s.calls i with
    | some .loaded =>
      some (s.put i (.read (existingOpenItemKeys briefing s.proposals) s.proposals.length))
    | _ => none
  | .create i newId =>
    match s.calls i with
    | some (.read openKeys seen) => createStep rules briefing s i openKeys seen newId
    | _ => none
  | .commit i =>
    match s.calls i with
    | some (.generated _ _ result) =>
      some { s.close i with proposals := s.proposals ++ result.proposals }
    | _ => none
  | .fail i => if (s.calls i).isNone then none else some (s.close i)

end steps

/-- No transaction is open yet. -/
def beforeGeneration (proposals : List ActionProposal) : GenerationWorld :=
  ⟨proposals, none, fun _ => none⟩

def OneOpenPerItem (briefing : Briefing) (proposals : List ActionProposal) : Prop :=
  ∀ item ∈ briefing.items, (existingOpenItemKeys briefing proposals).count item.itemKey ≤ 1

/-- No proposal has been committed since the transaction read the open ones, or it has found one for
each item of which it would make one. -/
def ReadsLatest (briefing : Briefing) (s : GenerationWorld) : GenerationAction → Prop
  | .commit i => ∀ openKeys seen result, s.calls i = some (.generated openKeys seen result) →
      s.proposals.length = seen ∨ ∀ key ∈ wantedKeys briefing.items, key ∈ openKeys
  | _ => True

/-- What a transaction has read is the start of what is there, and what came after it covers what is
wanted. -/
structure Read (briefing : Briefing) (proposals : List ActionProposal) (openKeys : List Str)
    (seen : Nat) : Prop where
  keys : openKeys = existingOpenItemKeys briefing (proposals.take seen)
  bound : seen ≤ proposals.length
  later : seen < proposals.length →
    ∀ key ∈ wantedKeys briefing.items, key ∈ existingOpenItemKeys briefing proposals

def GenerationPc.Relies (briefing : Briefing) (s : GenerationWorld) : GenerationPc → Prop
  | .loaded => True
  | .read openKeys seen => Read briefing s.proposals openKeys seen
  | .generated openKeys seen result => Read briefing s.proposals openKeys seen ∧
      Generated briefing briefing.items openKeys result.proposals

def GenerationWorld.Sound (briefing : Briefing) (s : GenerationWorld) : Prop :=
  ∀ i pc, s.calls i = some pc → pc.Relies briefing s

section grow

variable {briefing : Briefing} {proposals created : List ActionProposal} {openKeys : List Str}
  {seen : Nat} {s t : GenerationWorld} {i : GenerationCall} {pc : GenerationPc}

/-- The proposals of another transaction leave one for everything that is wanted. -/
theorem Generated.covered (h : Generated briefing briefing.items openKeys created)
    (hr : Read briefing proposals openKeys seen) :
    ∀ key ∈ wantedKeys briefing.items,
      key ∈ existingOpenItemKeys briefing (proposals ++ created) := by
  intro key hkey
  rw [existing_append]
  rcases h.covers key hkey with hopen | hcreated
  · rw [hr.keys] at hopen
    refine List.mem_append_left _ ?_
    rw [← List.take_append_drop seen proposals, existing_append]
    exact List.mem_append_left _ hopen
  · exact List.mem_append_right _ hcreated

theorem Read.grow (h : Read briefing proposals openKeys seen)
    (hcovered : ∀ key ∈ wantedKeys briefing.items,
      key ∈ existingOpenItemKeys briefing (proposals ++ created)) :
    Read briefing (proposals ++ created) openKeys seen where
  keys := by rw [List.take_append_of_le_length h.bound, h.keys]
  bound := by
    rw [List.length_append]
    exact Nat.le_add_right_of_le h.bound
  later _ := hcovered

theorem GenerationPc.Relies.grow (h : pc.Relies briefing s)
    (hgrow : t.proposals = s.proposals ++ created)
    (hcovered : ∀ key ∈ wantedKeys briefing.items,
      key ∈ existingOpenItemKeys briefing (s.proposals ++ created)) : pc.Relies briefing t := by
  cases pc with
  | loaded => trivial
  | read openKeys seen =>
    have hread : Read briefing t.proposals openKeys seen := hgrow ▸ Read.grow h hcovered
    exact hread
  | generated openKeys seen result => exact ⟨hgrow ▸ Read.grow h.1 hcovered, h.2⟩

theorem GenerationPc.Relies.of_proposals (h : pc.Relies briefing s)
    (heq : t.proposals = s.proposals) : pc.Relies briefing t := by
  cases pc with
  | loaded => trivial
  | read openKeys seen =>
    have hread : Read briefing t.proposals openKeys seen := heq ▸ h
    exact hread
  | generated openKeys seen result => exact ⟨heq.symm ▸ h.1, h.2⟩

/-- A step of one call that commits nothing. -/
theorem GenerationWorld.Sound.local_step (i : GenerationCall) (hs : s.Sound briefing)
    (hproposals : t.proposals = s.proposals) (hothers : ∀ j, j ≠ i → t.calls j = s.calls j)
    (hown : ∀ pc, t.calls i = some pc → pc.Relies briefing t) : t.Sound briefing := by
  intro j pc hcall
  by_cases hj : j = i
  · subst hj
    exact hown pc hcall
  · rw [hothers j hj] at hcall
    exact (hs j pc hcall).of_proposals hproposals

theorem GenerationWorld.Sound.put (hs : s.Sound briefing) (h : pc.Relies briefing s) :
    (s.put i pc).Sound briefing := by
  refine hs.local_step i rfl (fun j hj => Function.update_of_ne hj _ _) fun pc' hcall => ?_
  have hself : (s.put i pc).calls i = some pc := Function.update_self ..
  rw [hself] at hcall
  cases hcall
  exact h.of_proposals rfl

theorem GenerationWorld.Sound.close (hs : s.Sound briefing) : (s.close i).Sound briefing := by
  refine hs.local_step i rfl (fun j hj => Function.update_of_ne hj _ _) fun pc hcall => ?_
  have hself : (s.close i).calls i = none := Function.update_self ..
  rw [hself] at hcall
  cases hcall

theorem GenerationWorld.Sound.commit {result : GenerationResult} (hs : s.Sound briefing)
    (hcall : s.calls i = some (.generated openKeys seen result)) :
    GenerationWorld.Sound briefing
      { s.close i with proposals := s.proposals ++ result.proposals } := by
  obtain ⟨hread, hgenerated⟩ := hs i _ hcall
  intro j pc hpc
  by_cases hj : j = i
  · subst hj
    have hself : (s.close j).calls j = none := Function.update_self ..
    have hpc' : (s.close j).calls j = some pc := hpc
    rw [hself] at hpc'
    cases hpc'
  · have hother : s.calls j = some pc := (Function.update_of_ne hj _ _).symm.trans hpc
    exact (hs j pc hother).grow rfl (hgenerated.covered hread)

end grow

section steps

variable {Digest : Type} {rules : EvidenceRules Digest} {table : Nat → Str} {briefing : Briefing}
  {s t : GenerationWorld} {i : GenerationCall} {openKeys : List Str} {seen : Nat}
  {result : GenerationResult} {newId : Nat → Uuid}

theorem generated_of_ok
    (h : generateFromBriefing (folding rules table) briefing newId openKeys = .ok result) :
    Generated briefing briefing.items openKeys result.proposals := by
  obtain ⟨created, hproposals, hgenerated⟩ := generateItems_ok h
  have hsame : result.proposals = created := hproposals
  exact hsame ▸ hgenerated

theorem create_sound (hs : s.Sound briefing) (hcall : s.calls i = some (.read openKeys seen))
    (h : createStep (folding rules table) briefing s i openKeys seen newId = some t) :
    t.Sound briefing ∧ t.proposals = s.proposals := by
  unfold createStep at h
  split at h
  · cases h
    exact ⟨hs.close, rfl⟩
  rename_i result hresult
  have hread : Read briefing s.proposals openKeys seen := hs i _ hcall
  have hput : (s.put i (.generated openKeys seen result)).Sound briefing :=
    hs.put ⟨hread, generated_of_ok hresult⟩
  split at h
  · cases h
    exact ⟨hput, rfl⟩
  split at h
  · split at h
    · cases h
      exact ⟨fun j pc hpc => (hput j pc hpc).of_proposals rfl, rfl⟩
    · cases h
      exact ⟨hs.close, rfl⟩
  · cases h

/-- What a step may do: keep the proposals, or commit what a transaction has generated. -/
theorem sound_generationStep {a : GenerationAction} (hs : s.Sound briefing)
    (h : generationStep (folding rules table) briefing s a = some t) :
    t.Sound briefing ∧ (t.proposals = s.proposals ∨ ∃ i openKeys seen result, a = .commit i ∧
      s.calls i = some (.generated openKeys seen result) ∧
      t.proposals = s.proposals ++ result.proposals) := by
  cases a with
  | generate i =>
    simp only [generationStep] at h
    split at h
    · cases h
      exact ⟨hs.put trivial, .inl rfl⟩
    · cases h
  | readOpen i =>
    simp only [generationStep] at h
    split at h
    · cases h
      refine ⟨hs.put ⟨by rw [List.take_length], Nat.le_refl _, fun hlt => ?_⟩, .inl rfl⟩
      exact absurd hlt (Nat.lt_irrefl _)
    · cases h
  | create i newId =>
    simp only [generationStep] at h
    split at h
    · rename_i openKeys seen hcall
      obtain ⟨hsound, hproposals⟩ := create_sound hs hcall h
      exact ⟨hsound, .inl hproposals⟩
    · cases h
  | commit i =>
    simp only [generationStep] at h
    split at h
    · rename_i openKeys seen result hcall
      cases h
      exact ⟨hs.commit hcall, .inr ⟨i, openKeys, seen, result, rfl, hcall, rfl⟩⟩
    · cases h
  | fail i =>
    simp only [generationStep] at h
    split at h
    · cases h
    · cases h
      exact ⟨hs.close, .inl rfl⟩

theorem wanted_item {key : Str} {items : List BriefingItem} (h : key ∈ wantedKeys items) :
    ∃ item ∈ items, item.itemKey = key := by
  obtain ⟨item, hitem, hkey⟩ := List.mem_map.1 h
  exact ⟨item, List.mem_of_mem_filter hitem, hkey⟩

theorem commit_one_open_iff (hs : s.Sound briefing) (hone : OneOpenPerItem briefing s.proposals)
    (hcall : s.calls i = some (.generated openKeys seen result)) :
    OneOpenPerItem briefing (s.proposals ++ result.proposals) ↔
      (s.proposals.length = seen ∨ ∀ key ∈ wantedKeys briefing.items, key ∈ openKeys) := by
  obtain ⟨hread, hgenerated⟩ := hs i _ hcall
  constructor
  · intro hafter
    by_contra hneither
    obtain ⟨hlength, hmissing⟩ := not_or.1 hneither
    obtain ⟨key, hkey⟩ := not_forall.1 hmissing
    obtain ⟨hwanted, hclosed⟩ := Classical.not_imp.1 hkey
    have hthere := hread.later (lt_of_le_of_ne hread.bound (Ne.symm hlength)) key hwanted
    have hcreated := (hgenerated.covers key hwanted).resolve_left hclosed
    obtain ⟨item, hitem, rfl⟩ := wanted_item hwanted
    have hcount := hafter item hitem
    rw [existing_append, List.count_append] at hcount
    have hold := List.count_pos_iff.2 hthere
    have hnew := List.count_pos_iff.2 hcreated
    omega
  · rintro (hlatest | hall) item hitem
    · have hkeys : openKeys = existingOpenItemKeys briefing s.proposals := by
        rw [hread.keys, ← hlatest, List.take_length]
      rw [existing_append, List.count_append]
      by_cases hcreated : item.itemKey ∈ existingOpenItemKeys briefing result.proposals
      · have hnone : (existingOpenItemKeys briefing s.proposals).count item.itemKey = 0 :=
          List.count_eq_zero.2 (hkeys ▸ hgenerated.new _ hcreated)
        rw [hnone, Nat.zero_add]
        exact List.nodup_iff_count.1 hgenerated.once _
      · rw [List.count_eq_zero.2 hcreated]
        exact hone item hitem
    · have hnothing : existingOpenItemKeys briefing result.proposals = [] := by
        refine List.eq_nil_iff_forall_not_mem.2 fun key hkey => ?_
        exact hgenerated.new key hkey (hall key (hgenerated.wanted key hkey))
      rw [existing_append, hnothing, List.append_nil]
      exact hone item hitem

theorem readsLatest_iff (hcall : s.calls i = some (.generated openKeys seen result)) :
    ReadsLatest briefing s (.commit i) ↔
      (s.proposals.length = seen ∨ ∀ key ∈ wantedKeys briefing.items, key ∈ openKeys) := by
  constructor
  · exact fun h => h openKeys seen result hcall
  · intro h openKeys' seen' result' hcall'
    cases hcall.symm.trans hcall'
    exact h

theorem step_commit (h : generationStep (folding rules table) briefing s (.commit i) = some t) :
    ∃ openKeys seen result, s.calls i = some (.generated openKeys seen result) ∧
      t.proposals = s.proposals ++ result.proposals := by
  simp only [generationStep] at h
  split at h
  · rename_i openKeys seen result hcall
    cases h
    exact ⟨openKeys, seen, result, hcall, rfl⟩
  · cases h

theorem sound_before (proposals : List ActionProposal) :
    (beforeGeneration proposals).Sound briefing := fun _ _ h => by cases h

theorem sound_of_reaches {ok : GenerationWorld → GenerationAction → Prop}
    (hrun : Reaches (generationStep (folding rules table) briefing) ok s t)
    (hs : s.Sound briefing) : t.Sound briefing :=
  hrun.invariant (fun _ _ _ hx _ ht => (sound_generationStep hx ht).1) hs

theorem wanted_stays {ok : GenerationWorld → GenerationAction → Prop} {key : Str}
    (hrun : Reaches (generationStep (folding rules table) briefing) ok s t)
    (hs : s.Sound briefing) (h : key ∈ existingOpenItemKeys briefing s.proposals) :
    key ∈ existingOpenItemKeys briefing t.proposals := by
  refine hrun.invariant_of (I := GenerationWorld.Sound briefing)
    (P := fun x => key ∈ existingOpenItemKeys briefing x.proposals)
    (fun _ _ _ hx _ ht => (sound_generationStep hx ht).1) ?_ hs h
  intro x a y hx hkey _ hy
  rcases (sound_generationStep hx hy).2 with hsame | ⟨_, _, _, _, _, _, hgrown⟩
  · exact hsame ▸ hkey
  · rw [hgrown, existing_append]
    exact List.mem_append_left _ hkey

end steps

theorem one_open_per_item_iff {Digest : Type} (rules : EvidenceRules Digest) (table : Nat → Str)
    (briefing : Briefing) {proposals : List ActionProposal}
    (hstart : OneOpenPerItem briefing proposals) :
    (∀ s, Reaches (generationStep (folding rules table) briefing) (ReadsLatest briefing)
        (beforeGeneration proposals) s → OneOpenPerItem briefing s.proposals) ∧
      (∀ s, Reaches (generationStep (folding rules table) briefing) anyStep
          (beforeGeneration proposals) s → OneOpenPerItem briefing s.proposals →
        ∀ i t, generationStep (folding rules table) briefing s (.commit i) = some t →
          (OneOpenPerItem briefing t.proposals ↔ ReadsLatest briefing s (.commit i))) ∧
      ∀ s i t u, Reaches (generationStep (folding rules table) briefing) anyStep
          (beforeGeneration proposals) s →
        generationStep (folding rules table) briefing s (.commit i) = some t →
        Reaches (generationStep (folding rules table) briefing) anyStep t u →
        ∀ newId, ∃ skipped, generateFromBriefing (folding rules table) briefing newId
          (existingOpenItemKeys briefing u.proposals) = .ok ⟨[], skipped⟩ := by
  refine ⟨?_, ?_, ?_⟩
  · intro s hrun
    refine hrun.invariant_of (I := GenerationWorld.Sound briefing)
      (P := fun x => OneOpenPerItem briefing x.proposals)
      (fun _ _ _ hx _ ht => (sound_generationStep hx ht).1) ?_ (sound_before proposals) hstart
    intro x a y hx hone hok hy
    rcases (sound_generationStep hx hy).2 with hsame | ⟨i, openKeys, seen, result, rfl, hcall, hgrown⟩
    · exact hsame ▸ hone
    · exact hgrown ▸ (commit_one_open_iff hx hone hcall).2 ((readsLatest_iff hcall).1 hok)
  · intro s hrun hone i t ht
    obtain ⟨openKeys, seen, result, hcall, hgrown⟩ := step_commit ht
    rw [hgrown, readsLatest_iff hcall]
    exact commit_one_open_iff (sound_of_reaches hrun (sound_before proposals)) hone hcall
  · intro s i t u hrun ht hlater newId
    have hs : s.Sound briefing := sound_of_reaches hrun (sound_before proposals)
    obtain ⟨openKeys, seen, result, hcall, hgrown⟩ := step_commit ht
    obtain ⟨hread, hgenerated⟩ := hs i _ hcall
    refine generateItems_nothing fun key hkey => ?_
    exact wanted_stays hlater (sound_generationStep hs ht).1
      (hgrown ▸ hgenerated.covered hread key hkey)

section overlap

def sampleBriefing : Briefing where
  id := sampleWorkspace
  items := [{
    id := sampleWorkspace
    itemKey := Str.of "jira-work-items"
    category := Str.of "work"
    title := Str.of "Open work items"
    summary := []
    severity := Str.of "info"
    recommendedNextStep := none
    evidenceRefs := [.obj [(Str.of "kind", .str (Str.of "work_item")),
      (Str.of "source", .str (Str.of "jira")), (Str.of "ref", .str (Str.of "OPS-1"))]]
    relatedEntities := [] }]

def plainTable (c : Nat) : Str := [c]

/-- Both transactions read before either commits. -/
def overlapping : List GenerationAction :=
  [.generate 0, .generate 1, .readOpen 0, .readOpen 1, .create 0 fun _ => sampleWorkspace, .commit 0,
    .create 1 fun _ => sampleUuid (Fin.last 9), .commit 1]

theorem one_open_per_item_overlapping :
    ∃ s, Reaches (generationStep (folding asciiRules plainTable) sampleBriefing) anyStep
        (beforeGeneration []) s ∧ s.proposals.length = 1 ∧
      ∀ i t, generationStep (folding asciiRules plainTable) sampleBriefing s (.commit i) = some t →
        (OneOpenPerItem sampleBriefing t.proposals ↔ ReadsLatest sampleBriefing s (.commit i)) := by
  have hrun : (exec (generationStep (folding asciiRules plainTable) sampleBriefing)
      (beforeGeneration []) (overlapping.take 7)).map (fun s => s.proposals.length == 1 &&
        sampleBriefing.items.all fun item =>
          (existingOpenItemKeys sampleBriefing s.proposals).count item.itemKey ≤ 1) = some true := by
    decide +kernel
  obtain ⟨s, hs, hcheck⟩ := reaches_of_exec_check hrun
  obtain ⟨hlength, hall⟩ := Bool.and_eq_true_iff.1 hcheck
  have hempty : OneOpenPerItem sampleBriefing [] := fun _ _ => Nat.zero_le 1
  refine ⟨s, hs, by simpa using hlength,
    (one_open_per_item_iff asciiRules plainTable sampleBriefing hempty).2.1 s hs ?_⟩
  exact fun item hitem => of_decide_eq_true (List.all_eq_true.1 hall item hitem)

theorem overlapping_generations_duplicate :
    ¬∀ s, Reaches (generationStep (folding asciiRules plainTable) sampleBriefing) anyStep
      (beforeGeneration []) s → OneOpenPerItem sampleBriefing s.proposals := by
  intro hall
  have hrun : (exec (generationStep (folding asciiRules plainTable) sampleBriefing)
      (beforeGeneration []) overlapping).map (fun s => sampleBriefing.items.any fun item =>
        (existingOpenItemKeys sampleBriefing s.proposals).count item.itemKey == 2) = some true := by
    decide +kernel
  obtain ⟨s, hs, htwice⟩ := reaches_of_exec_check hrun
  obtain ⟨item, hitem, hcount⟩ := List.any_eq_true.1 htwice
  have hone := hall s hs item hitem
  rw [beq_iff_eq.1 hcount] at hone
  exact absurd hone (by decide)

end overlap

end FounderOs.Proposals
