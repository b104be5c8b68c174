import FounderOs.RepositoryAudit.World

namespace FounderOs.RepositoryAudit

open Headquarters

section mirrors

variable {α β : Type}

/-- The outcome is that of the checks: their first failure, or a value with the property. -/
def Mirrors (outcome : Except AuditError α) (checks : List (Bool × AuditError)) (Q : α → Prop) :
    Prop :=
  match verify checks with
  | .ok _ => ∃ a, outcome = .ok a ∧ Q a
  | .error error => outcome = .error error

variable {outcome : Except AuditError α} {checks checks' : List (Bool × AuditError)}
variable {Q Q' : α → Prop} {R : β → Prop} {error : AuditError}

theorem verify_append_of_ok (h : verify checks = .ok ()) :
    verify (checks ++ checks') = verify checks' := by
  induction checks with
  | nil => rfl
  | cons entry checks ih =>
    obtain ⟨failed, raised⟩ := entry
    cases failed with
    | true => cases h
    | false => exact ih h

theorem verify_append_of_error (h : verify checks = .error error) :
    verify (checks ++ checks') = .error error := by
  induction checks with
  | nil => cases h
  | cons entry checks ih =>
    obtain ⟨failed, raised⟩ := entry
    cases failed with
    | true => exact h
    | false => exact ih h

theorem Mirrors.of_ok (h : Mirrors outcome checks Q) (hok : verify checks = .ok ()) :
    ∃ a, outcome = .ok a ∧ Q a := by
  unfold Mirrors at h
  rwa [hok] at h

theorem Mirrors.of_error (h : Mirrors outcome checks Q) (herror : verify checks = .error error) :
    outcome = .error error := by
  unfold Mirrors at h
  rwa [herror] at h

theorem Mirrors.intro (hok : verify checks = .ok () → ∃ a, outcome = .ok a ∧ Q a)
    (herror : ∀ error, verify checks = .error error → outcome = .error error) :
    Mirrors outcome checks Q := by
  unfold Mirrors
  split
  · rename_i heq
    exact hok heq
  · rename_i error heq
    exact herror error heq

theorem Mirrors.pure {a : α} (h : Q a) : Mirrors (.ok a) [] Q := ⟨a, rfl, h⟩

theorem Mirrors.bind {f : α → Except AuditError β} (h : Mirrors outcome checks Q)
    (hf : ∀ a, outcome = .ok a → Q a → Mirrors (f a) checks' R) :
    Mirrors (outcome >>= f) (checks ++ checks') R := by
  cases hverify : verify checks with
  | error error =>
    refine .intro (fun hok => ?_) fun other hother => ?_
    · rw [verify_append_of_error hverify] at hok
      cases hok
    · rw [verify_append_of_error hverify] at hother
      cases hother
      rw [h.of_error hverify]
      rfl
  | ok =>
    obtain ⟨a, rfl, ha⟩ := h.of_ok hverify
    unfold Mirrors
    rw [verify_append_of_ok hverify]
    exact hf a rfl ha

theorem Mirrors.imp (h : Mirrors outcome checks Q) (himp : ∀ a, Q a → Q' a) :
    Mirrors outcome checks Q' :=
  .intro (fun hok => (h.of_ok hok).imp fun a ha => ⟨ha.1, himp a ha.2⟩) fun _ => h.of_error

theorem mirrors_verify : Mirrors (verify checks) checks fun _ => verify checks = .ok () :=
  .intro (fun hok => ⟨(), hok, hok⟩) fun _ herror => herror

/-- Checks that pass leave nothing to mirror. -/
theorem mirrors_passed (h : verify checks = .ok ()) : Mirrors (verify checks) [] fun _ => True :=
  ⟨(), h, trivial⟩

theorem mirrors_rejectIf {bad : Bool} :
    Mirrors (rejectIf bad error) [(bad, error)] fun _ => bad = false := by
  cases bad with
  | true => exact rfl
  | false => exact ⟨(), rfl, rfl⟩

theorem Mirrors.foldlM {X : Type} {f : α → X → Except AuditError α}
    {checksOf : X → List (Bool × AuditError)} {l : List X}
    (hstep : ∀ s x, x ∈ l → Q s → Mirrors (f s x) (checksOf x) Q) {s : α} (hs : Q s) :
    Mirrors (l.foldlM f s) (l.flatMap checksOf) Q := by
  induction l generalizing s with
  | nil => exact .pure hs
  | cons x l ih =>
    rw [List.foldlM_cons, List.flatMap_cons]
    exact (hstep s x (List.mem_cons_self ..) hs).bind fun next _ hnext =>
      ih (fun s y hy => hstep s y (List.mem_cons_of_mem _ hy)) hnext

end mirrors

section evidence

variable (before : WorkspaceRows) (run : StoredRun)

def evidenceKey (ref : EvidenceRefV1) : Uuid × EvidenceRefV1 :=
  (ref.sourceRecordId.getD run.sourceRecordId, ref)

/-- The row of evidence that a reference names among those that are there. -/
def named (ref : EvidenceRefV1) : Option Uuid :=
  match ref.evidenceRefId with
  | some id => some id
  | none => (before.evidence.find? (·.evidenceKey = some (evidenceKey run ref))).map (·.id)

def resolveChecks (ref : EvidenceRefV1) : List (Bool × AuditError) :=
  match ref.evidenceRefId with
  | some id => [(!before.evidence.any (·.id = id), unavailableEvidence)]
  | none =>
    [(!before.sourceRecords.contains (evidenceKey run ref).1, unavailableSourceRecord),
      ((named before run ref).isNone && (evidenceSelector ref).isNone, missingSelector)]

def namedLink (cited : EvidenceRole × EvidenceRefV1) : Option EvidenceLink :=
  (named before run cited.2).map (⟨·, cited.1⟩)

/-- No link to a row of evidence is made twice, in one role. -/
def citationChecks (parentType : String) : List (EvidenceRole × EvidenceRefV1) →
    List (EvidenceRole × EvidenceRefV1) → List (Bool × AuditError)
  | _, [] => []
  | done, cited :: rest =>
    resolveChecks before run cited.2 ++
      [check ("uq_repository_evidence_links_" ++ parentType) (!(namedLink before run cited).any
        ((done.filterMap (namedLink before run)).contains ·))] ++
      citationChecks parentType (done ++ [cited]) rest

end evidence

section draws

variable (draw : Nat → Uuid) (before : WorkspaceRows) (refs : List EvidenceRefV1)

/-- The ids that can be drawn for the evidence of the references. -/
def drawnIds : List Uuid :=
  (List.range refs.length).map fun i => draw (before.evidence.length + i)

/-- They are ids that nobody has seen. -/
structure FreshDraws : Prop where
  distinct : (drawnIds draw before refs).Nodup
  unused : ∀ row ∈ before.evidence, row.id ∉ drawnIds draw before refs
  unmentioned : ∀ ref ∈ refs, ∀ id ∈ drawnIds draw before refs, ref.evidenceRefId ≠ some id

instance : Decidable (FreshDraws draw before refs) :=
  decidable_of_iff ((drawnIds draw before refs).Nodup ∧
    (∀ row ∈ before.evidence, row.id ∉ drawnIds draw before refs) ∧
      ∀ ref ∈ refs, ∀ id ∈ drawnIds draw before refs, ref.evidenceRefId ≠ some id)
    ⟨fun h => ⟨h.1, h.2.1, h.2.2⟩, fun h => ⟨h.distinct, h.unused, h.unmentioned⟩⟩

variable (run : StoredRun) (w : WorkspaceRows)

structure AddedRow (row : EvidenceRow) : Prop where
  drawn : ∃ i, before.evidence.length + i < w.evidence.length ∧
    row.id = draw (before.evidence.length + i)
  cited : ∃ ref ∈ refs, row.evidenceKey = some (evidenceKey run ref) ∧
    (evidenceSelector ref).isSome = true

/-- Evidence has been added for some of the references, under ids that were drawn. -/
structure Extends : Prop where
  repositories : w.repositories = before.repositories
  sourceRecords : w.sourceRecords = before.sourceRecords
  evidence : ∃ added, w.evidence = before.evidence ++ added ∧
    (added.map (·.evidenceKey)).Nodup ∧ ∀ row ∈ added, AddedRow draw before refs run w row
  nodup : (w.evidence.map (·.id)).Nodup

/-- The id is that of the row that was named, or of a row that was added for the reference. -/
inductive Stands (ref : EvidenceRefV1) (id : Uuid) : Prop
  | known : named before run ref = some id → id ∉ drawnIds draw before refs → Stands ref id
  | added (row : EvidenceRow) : named before run ref = none →
      id ∈ drawnIds draw before refs → row ∈ w.evidence → row.id = id →
        row.evidenceKey = some (evidenceKey run ref) → Stands ref id

end draws

/-- What can be stored of a reference. -/
structure EvidenceRefV1.Storable (ref : EvidenceRefV1) : Prop where
  selector : (evidenceSelector ref).all (storable 500) = true
  url : ref.url.all (storable 1000) = true

section resolve

variable {draw : Nat → Uuid} {before w w' : WorkspaceRows} {refs : List EvidenceRefV1}
variable {run : StoredRun} {ref : EvidenceRefV1} {id : Uuid} {parentType : String}
variable {row : EvidenceRow}

theorem mem_drawnIds {i : Nat} (h : i < refs.length) :
    draw (before.evidence.length + i) ∈ drawnIds draw before refs :=
  List.mem_map.2 ⟨i, List.mem_range.2 h, rfl⟩

theorem FreshDraws.injective (h : FreshDraws draw before refs) {i j : Nat} (hi : i < refs.length)
    (hj : j < refs.length)
    (heq : draw (before.evidence.length + i) = draw (before.evidence.length + j)) : i = j :=
  List.inj_on_of_nodup_map h.distinct (List.mem_range.2 hi) (List.mem_range.2 hj) heq

theorem Extends.refl (hnodup : (before.evidence.map (·.id)).Nodup) :
    Extends draw before refs run before :=
  ⟨rfl, rfl, ⟨[], by simp, by simp, by simp⟩, hnodup⟩

theorem Extends.mem (h : Extends draw before refs run w) (hrow : row ∈ before.evidence) :
    row ∈ w.evidence := by
  obtain ⟨added, hadded, -⟩ := h.evidence
  rw [hadded]
  exact List.mem_append_left _ hrow

theorem Stands.mono (h : Stands draw before refs run w ref id)
    (hgrows : ∀ row ∈ w.evidence, row ∈ w'.evidence) : Stands draw before refs run w' ref id := by
  cases h with
  | known hnamed hnot => exact .known hnamed hnot
  | added row hnone hid hrow hrowId hkey => exact .added row hnone hid (hgrows row hrow) hrowId hkey

/-- Each reference has one row at most, and so the draws suffice. -/
theorem added_length {added : List EvidenceRow} (hkeys : (added.map (·.evidenceKey)).Nodup)
    (hcited : ∀ row ∈ added, ∃ ref ∈ refs, row.evidenceKey = some (evidenceKey run ref)) :
    added.length ≤ refs.length := by
  have hsub : added.map (·.evidenceKey) ⊆ refs.map fun ref => some (evidenceKey run ref) := by
    intro key hkey
    obtain ⟨row, hrow, rfl⟩ := List.mem_map.1 hkey
    obtain ⟨ref, href, hkey⟩ := hcited row hrow
    exact List.mem_map.2 ⟨ref, href, hkey.symm⟩
  simpa using hkeys.length_le_of_subset hsub

theorem Extends.room (h : Extends draw before refs run w) :
    w.evidence.length ≤ before.evidence.length + refs.length := by
  obtain ⟨added, hadded, hkeys, hrows⟩ := h.evidence
  have hlength : added.length ≤ refs.length := added_length hkeys fun row hrow =>
    (hrows row hrow).cited.imp fun _ hcited => ⟨hcited.1, hcited.2.1⟩
  rw [hadded, List.length_append]
  omega

theorem Extends.isDrawn (h : Extends draw before refs run w)
    (hrow : AddedRow draw before refs run w row) : row.id ∈ drawnIds draw before refs := by
  have hroom := h.room
  obtain ⟨i, hi, hdrawn⟩ := hrow.drawn
  rw [hdrawn]
  exact mem_drawnIds (by omega)

/-- A row that is inserted for a reference that has none. -/
theorem Extends.insert (h : Extends draw before refs run w) (hfresh : FreshDraws draw before refs)
    (href : ref ∈ refs) (hid : row.id = draw w.evidence.length)
    (hkey : row.evidenceKey = some (evidenceKey run ref))
    (hselector : (evidenceSelector ref).isSome = true)
    (hunkeyed : ∀ other ∈ w.evidence, other.evidenceKey ≠ row.evidenceKey) :
    row.id ∈ drawnIds draw before refs ∧ (∀ other ∈ w.evidence, other.id ≠ row.id) ∧
      Extends draw before refs run { w with evidence := w.evidence ++ [row] } := by
  obtain ⟨added, hadded, hkeys, hrows⟩ := h.evidence
  have hkeys' : ((added ++ [row]).map (·.evidenceKey)).Nodup := by
    rw [List.map_append, List.nodup_append]
    refine ⟨hkeys, List.nodup_singleton _, ?_⟩
    rintro key hmem other hother rfl
    obtain ⟨found, hfound, rfl⟩ := List.mem_map.1 hmem
    exact hunkeyed found (hadded ▸ List.mem_append_right _ hfound) (List.mem_singleton.1 hother)
  have hcited : ∀ other ∈ added ++ [row], ∃ ref ∈ refs,
      other.evidenceKey = some (evidenceKey run ref) := by
    intro other hother
    rcases List.mem_append.1 hother with hold | hlast
    · obtain ⟨found, hfound, hfoundKey, -⟩ := (hrows other hold).cited
      exact ⟨found, hfound, hfoundKey⟩
    · obtain rfl := List.mem_singleton.1 hlast
      exact ⟨ref, href, hkey⟩
  have hroom : added.length < refs.length := by
    have hlength := added_length hkeys' hcited
    rw [List.length_append] at hlength
    exact hlength
  have hlength : w.evidence.length = before.evidence.length + added.length := by
    rw [hadded, List.length_append]
  have hdrawn : row.id = draw (before.evidence.length + added.length) := hlength ▸ hid
  have hmem : row.id ∈ drawnIds draw before refs := hdrawn ▸ mem_drawnIds hroom
  have hnew : ∀ other ∈ w.evidence, other.id ≠ row.id := by
    intro other hother heq
    rw [hadded] at hother
    rcases List.mem_append.1 hother with hold | hold
    · exact hfresh.unused other hold (heq ▸ hmem)
    · obtain ⟨i, hi, hother⟩ := (hrows other hold).drawn
      rw [hlength] at hi
      have hless : i < added.length := Nat.lt_of_add_lt_add_left hi
      have hsame := hfresh.injective (Nat.lt_trans hless hroom) hroom
        (hother.symm.trans (heq.trans hdrawn))
      omega
  refine ⟨hmem, hnew, h.repositories, h.sourceRecords, ⟨added ++ [row], ?_, hkeys', ?_⟩, ?_⟩
  · change w.evidence ++ [row] = _
    rw [hadded, List.append_assoc]
  · intro other hother
    have hlonger : w.evidence.length < (w.evidence ++ [row]).length := by simp
    rcases List.mem_append.1 hother with hold | hlast
    · obtain ⟨i, hi, hotherId⟩ := (hrows other hold).drawn
      exact ⟨⟨i, Nat.lt_trans hi hlonger, hotherId⟩, (hrows other hold).cited⟩
    · obtain rfl := List.mem_singleton.1 hlast
      exact ⟨⟨added.length, hlength ▸ hlonger, hdrawn⟩, ref, href, hkey, hselector⟩
  · change ((w.evidence ++ [row]).map (·.id)).Nodup
    rw [List.map_append, List.nodup_append]
    refine ⟨h.nodup, List.nodup_singleton _, ?_⟩
    rintro id hid' other hother rfl
    obtain ⟨found, hfound, rfl⟩ := List.mem_map.1 hid'
    exact hnew found hfound (List.mem_singleton.1 hother)

theorem find_append {rows added : List EvidenceRow} (p : EvidenceRow → Bool)
    (hadded : ∀ row ∈ added, p row = false) : (rows ++ added).find? p = rows.find? p := by
  have hnone : added.find? p = none :=
    List.find?_eq_none.2 fun row hrow => by simp [hadded row hrow]
  rw [List.find?_append, hnone, Option.or_none]

theorem evidenceRow_storable (hnew : ∀ other ∈ w.evidence, other.id ≠ row.id)
    (hkey : ∀ other ∈ w.evidence, other.evidenceKey ≠ row.evidenceKey)
    (hsource : w.sourceRecords.contains row.sourceRecordId = true)
    (hselector : row.selector.all (storable 500) = true)
    (hurl : row.sourceUrl.all (storable 1000) = true) :
    verify (row.constraints w) = .ok () := by
  have hid : w.evidence.any (fun other => other.id = row.id) = false := by simpa using hnew
  have hany : w.evidence.any (fun other => other.evidenceKey = row.evidenceKey) = false := by
    simpa using hkey
  have hmem : row.sourceRecordId ∈ w.sourceRecords := by simpa using hsource
  simp [verify, EvidenceRow.constraints, check, nullableColumn, hid, hany, hmem, hselector, hurl]

/-- The evidence is found or added exactly if the checks on the rows from before pass. -/
def Resolved (draw : Nat → Uuid) (before : WorkspaceRows) (refs : List EvidenceRefV1)
    (run : StoredRun) (w : WorkspaceRows) (ref : EvidenceRefV1)
    (resolved : WorkspaceRows × Uuid) : Prop :=
  Extends draw before refs run resolved.1 ∧ (∀ row ∈ w.evidence, row ∈ resolved.1.evidence) ∧
    Stands draw before refs run resolved.1 ref resolved.2

/-- A reference that gives an id, which no draw has. -/
theorem resolve_given (h : Extends draw before refs run w) (hfresh : FreshDraws draw before refs)
    (hmem : ref ∈ refs) (hgiven : ref.evidenceRefId = some id) :
    Mirrors (resolveEvidence run draw w ref) (resolveChecks before run ref)
      (Resolved draw before refs run w ref) := by
  obtain ⟨added, hadded, -, hrows⟩ := h.evidence
  have hnot : id ∉ drawnIds draw before refs := fun hdrawn =>
    hfresh.unmentioned ref hmem id hdrawn hgiven
  have hfind : w.evidence.find? (fun row => row.id = id) =
      before.evidence.find? (fun row => row.id = id) := by
    rw [hadded]
    exact find_append _ fun row hrow => decide_eq_false fun heq =>
      hnot (heq ▸ h.isDrawn (hrows row hrow))
  unfold resolveEvidence resolveChecks
  simp only [hgiven, hfind]
  cases hbefore : before.evidence.find? (fun row => row.id = id) with
  | none =>
    have hany : before.evidence.any (fun row => row.id = id) = false := by simpa using hbefore
    simp [Mirrors, verify, hany]
  | some row =>
    have hid : row.id = id := by simpa using List.find?_some hbefore
    have hany : before.evidence.any (fun row => row.id = id) = true :=
      List.any_eq_true.2 ⟨row, List.mem_of_find?_eq_some hbefore, decide_eq_true hid⟩
    have hstands : Stands draw before refs run w ref row.id :=
      .known (by rw [named, hgiven, hid]) (hid ▸ hnot)
    simp only [Mirrors, verify, hany, Bool.not_true, Bool.false_eq_true, if_false]
    exact ⟨(w, row.id), rfl, h, fun _ hrow => hrow, hstands⟩

/-- A reference that gives no id: its row is there, was added before, or is added now. -/
theorem resolve_keyed (h : Extends draw before refs run w) (hfresh : FreshDraws draw before refs)
    (hmem : ref ∈ refs) (hstorable : ref.Storable) (hgiven : ref.evidenceRefId = none) :
    Mirrors (resolveEvidence run draw w ref) (resolveChecks before run ref)
      (Resolved draw before refs run w ref) := by
  obtain ⟨added, hadded, -, hrows⟩ := h.evidence
  have hcontains : w.sourceRecords.contains (ref.sourceRecordId.getD run.sourceRecordId) =
      before.sourceRecords.contains (evidenceKey run ref).1 := by rw [h.sourceRecords]; rfl
  unfold resolveEvidence resolveChecks
  have hkeyed : (ref.sourceRecordId.getD run.sourceRecordId, ref) = evidenceKey run ref := rfl
  simp only [hgiven, hcontains, hkeyed]
  cases hknown : before.sourceRecords.contains (evidenceKey run ref).1 with
  | false => simp [Mirrors, verify]
  | true =>
    simp only [if_true]
    have hnamedEq : named before run ref =
        (before.evidence.find? (·.evidenceKey = some (evidenceKey run ref))).map (·.id) := by
      rw [named, hgiven]
    cases hfind : w.evidence.find? (fun row => row.evidenceKey = some (evidenceKey run ref)) with
    | some row =>
      have hkey : row.evidenceKey = some (evidenceKey run ref) := by
        simpa using List.find?_some hfind
      have hrow := List.mem_of_find?_eq_some hfind
      cases hbefore : before.evidence.find? (fun row =>
          row.evidenceKey = some (evidenceKey run ref)) with
      | some old =>
        have hsame : old = row := by
          rw [hadded, List.find?_append, hbefore] at hfind
          exact Option.some.inj hfind
        subst hsame
        have hnamed : named before run ref = some old.id := by
          rw [hnamedEq, hbefore, Option.map_some]
        have hstands : Stands draw before refs run w ref old.id :=
          .known hnamed (hfresh.unused old (List.mem_of_find?_eq_some hbefore))
        simp only [Mirrors, verify, hnamed, Bool.not_true, Bool.false_eq_true, if_false,
          Option.isNone_some, Bool.false_and]
        exact ⟨(w, old.id), rfl, h, fun _ hrow => hrow, hstands⟩
      | none =>
        -- The row was added for an equal reference, which had a selector.
        have hnamed : named before run ref = none := by rw [hnamedEq, hbefore, Option.map_none]
        have hnew : row ∈ added := by
          rw [hadded] at hrow
          rcases List.mem_append.1 hrow with hold | hnew
          · have hnot := List.find?_eq_none.1 hbefore row hold
            simp [hkey] at hnot
          · exact hnew
        obtain ⟨other, -, hother, hselector⟩ := (hrows row hnew).cited
        obtain rfl : ref = other :=
          congrArg Prod.snd (Option.some.inj (hkey.symm.trans hother))
        have hsome : (evidenceSelector ref).isNone = false := by
          rw [Option.isNone_eq_false_iff]
          exact hselector
        simp only [Mirrors, verify, hnamed, hsome, Bool.not_true, Bool.false_eq_true, if_false,
          Bool.and_false]
        exact ⟨(w, row.id), rfl, h, fun _ hrow => hrow,
          .added row hnamed (h.isDrawn (hrows row hnew)) hrow rfl hkey⟩
    | none =>
      have hunkeyed : ∀ row ∈ w.evidence, row.evidenceKey ≠ some (evidenceKey run ref) := by
        simpa using hfind
      have hbefore : before.evidence.find? (fun row =>
          row.evidenceKey = some (evidenceKey run ref)) = none := by
        rw [List.find?_eq_none]
        intro row hrow
        simpa using hunkeyed row (h.mem hrow)
      have hnamed : named before run ref = none := by rw [hnamedEq, hbefore, Option.map_none]
      cases hselector : evidenceSelector ref with
      | none => simp [Mirrors, verify, hnamed]
      | some selector =>
        let row : EvidenceRow :=
          { id := draw w.evidence.length
            sourceRecordId := (evidenceKey run ref).1
            evidenceKey := some (evidenceKey run ref)
            selector := some selector
            sourceUrl := ref.url }
        have hsome : (evidenceSelector ref).isSome = true := by rw [hselector]; rfl
        have hshort : row.selector.all (storable 500) = true := by
          have hall := hstorable.selector
          rw [hselector] at hall
          exact hall
        obtain ⟨hdrawn, hnew, hinsert⟩ : row.id ∈ drawnIds draw before refs ∧
            (∀ other ∈ w.evidence, other.id ≠ row.id) ∧
              Extends draw before refs run { w with evidence := w.evidence ++ [row] } :=
          h.insert hfresh hmem rfl rfl hsome hunkeyed
        have hverify : verify (row.constraints w) = .ok () :=
          evidenceRow_storable hnew hunkeyed (hcontains.trans hknown) hshort hstorable.url
        change Mirrors (verify (row.constraints w) >>= fun _ => _) _ _
        rw [hverify]
        simp only [Mirrors, verify, hnamed, Bool.not_true, Bool.false_eq_true, if_false,
          Option.isNone_none, Option.isNone_some, Bool.and_false]
        refine ⟨_, rfl, hinsert, fun row hrow => List.mem_append_left _ hrow, ?_⟩
        exact .added row hnamed hdrawn (List.mem_append_right _ (List.mem_singleton_self _)) rfl rfl

theorem resolve_mirrors (h : Extends draw before refs run w) (hfresh : FreshDraws draw before refs)
    (hmem : ref ∈ refs) (hstorable : ref.Storable) :
    Mirrors (resolveEvidence run draw w ref) (resolveChecks before run ref)
      (Resolved draw before refs run w ref) := by
  cases hgiven : ref.evidenceRefId with
  | some id => exact resolve_given h hfresh hmem hgiven
  | none => exact resolve_keyed h hfresh hmem hstorable hgiven

end resolve

section links

variable (draw : Nat → Uuid) (before : WorkspaceRows) (refs : List EvidenceRefV1) (run : StoredRun)

/-- The links are those of what has been cited. -/
def Linked (done : List (EvidenceRole × EvidenceRefV1))
    (state : WorkspaceRows × List EvidenceLink) : Prop :=
  Extends draw before refs run state.1 ∧
    List.Forall₂ (fun link cited => link.role = cited.1 ∧
      Stands draw before refs run state.1 cited.2 link.evidenceRefId) state.2 done

variable {draw before refs run}
variable {done rest : List (EvidenceRole × EvidenceRefV1)} {cited : EvidenceRole × EvidenceRefV1}
variable {state : WorkspaceRows × List EvidenceLink} {w w' : WorkspaceRows} {id id' : Uuid}
variable {parentType : String} {ref ref' : EvidenceRefV1}

theorem Stands.of_named (h : Stands draw before refs run w ref id)
    (hnamed : named before run ref = some id') : id = id' := by
  cases h with
  | known hown => exact Option.some.inj (hown.symm.trans hnamed)
  | added row hnone => rw [hnone] at hnamed; cases hnamed

/-- Two references with one row both name it, or are the same. -/
theorem Stands.same (h : Stands draw before refs run w ref id)
    (h' : Stands draw before refs run w ref' id) (hnodup : (w.evidence.map (·.id)).Nodup) :
    (named before run ref = some id ∧ named before run ref' = some id) ∨ ref = ref' := by
  cases h with
  | known hnamed hnot =>
    cases h' with
    | known hnamed' => exact .inl ⟨hnamed, hnamed'⟩
    | added row hnone hdrawn => exact absurd hdrawn hnot
  | added row hnone hdrawn hrow hid hkey =>
    cases h' with
    | known hnamed hnot => exact absurd hdrawn hnot
    | added other hnone' hdrawn' hother hotherId hotherKey =>
      obtain rfl := List.inj_on_of_nodup_map hnodup hrow hother (hid.trans hotherId.symm)
      exact .inr (congrArg Prod.snd (Option.some.inj (hkey.symm.trans hotherKey)))

theorem exists_of_forall₂ {A B : Type} {R : A → B → Prop} {l : List A} {l' : List B}
    (h : List.Forall₂ R l l') :
    (∀ a ∈ l, ∃ b ∈ l', R a b) ∧ ∀ b ∈ l', ∃ a ∈ l, R a b := by
  induction h with
  | nil => exact ⟨by rintro _ ⟨⟩, by rintro _ ⟨⟩⟩
  | @cons a b l l' hab _ ih =>
    constructor
    · rintro x (_ | ⟨_, hx⟩)
      · exact ⟨b, List.mem_cons_self .., hab⟩
      · obtain ⟨y, hy, hxy⟩ := ih.1 x hx
        exact ⟨y, List.mem_cons_of_mem _ hy, hxy⟩
    · rintro y (_ | ⟨_, hy⟩)
      · exact ⟨a, List.mem_cons_self .., hab⟩
      · obtain ⟨x, hx, hxy⟩ := ih.2 y hy
        exact ⟨x, List.mem_cons_of_mem _ hx, hxy⟩

/-- A link is there already exactly if an earlier citation names the same row. -/
theorem contains_link (h : Linked draw before refs run done state)
    (hstands : Stands draw before refs run state.1 cited.2 id) (hnew : cited ∉ done) :
    state.2.contains ⟨id, cited.1⟩ =
      (namedLink before run cited).any ((done.filterMap (namedLink before run)).contains ·) := by
  obtain ⟨hextends, hlinks⟩ := h
  obtain ⟨hofLink, hofCited⟩ := exists_of_forall₂ hlinks
  rw [Bool.eq_iff_iff, List.contains_iff_mem, Option.any_eq_true]
  constructor
  · intro hmem
    obtain ⟨other, hother, hrole, hotherStands⟩ := hofLink _ hmem
    rcases hstands.same hotherStands hextends.nodup with ⟨hnamed, hotherNamed⟩ | hsame
    · refine ⟨⟨id, cited.1⟩, by rw [namedLink, hnamed, Option.map_some], ?_⟩
      rw [List.contains_iff_mem, List.mem_filterMap]
      exact ⟨other, hother, by rw [namedLink, hotherNamed, Option.map_some, ← hrole]⟩
    · have heq : cited = other := Prod.ext hrole hsame
      exact absurd (heq ▸ hother) hnew
  · rintro ⟨link, hlink, hmem⟩
    rw [List.contains_iff_mem, List.mem_filterMap] at hmem
    obtain ⟨other, hother, hotherLink⟩ := hmem
    obtain ⟨named, hnamed, rfl⟩ := Option.map_eq_some_iff.1 hlink
    obtain ⟨named', hnamed', hsame⟩ := Option.map_eq_some_iff.1 hotherLink
    obtain ⟨rfl, hrole⟩ := EvidenceLink.mk.inj hsame
    obtain ⟨link, hlink, hlinkRole, hlinkStands⟩ := hofCited other hother
    have hid : link = ⟨id, cited.1⟩ := by
      rw [hstands.of_named hnamed, ← hlinkStands.of_named hnamed', ← hrole, ← hlinkRole]
    exact hid ▸ hlink

theorem link_mirrors (h : Linked draw before refs run done state)
    (hfresh : FreshDraws draw before refs) (hmem : cited.2 ∈ refs) (hstorable : cited.2.Storable)
    (hnew : cited ∉ done) :
    Mirrors (linkEvidence run draw parentType state cited)
      (resolveChecks before run cited.2 ++
        [check ("uq_repository_evidence_links_" ++ parentType) (!(namedLink before run cited).any
          ((done.filterMap (namedLink before run)).contains ·))])
      (Linked draw before refs run (done ++ [cited])) := by
  refine (resolve_mirrors h.1 hfresh hmem hstorable).bind fun resolved _ hresolved => ?_
  obtain ⟨hextends, hgrows, hstands⟩ := hresolved
  have hlinked : Linked draw before refs run done (resolved.1, state.2) :=
    ⟨hextends, h.2.imp fun _ _ hboth => ⟨hboth.1, hboth.2.mono hgrows⟩⟩
  rw [← contains_link hlinked hstands hnew, ← List.append_nil [check _ _]]
  refine mirrors_verify.bind fun _ _ _ => .pure ⟨hextends, ?_⟩
  exact List.rel_append hlinked.2 (.cons ⟨rfl, hstands⟩ .nil)

/-- By induction on what is still to be cited. -/
theorem links_mirror (hfresh : FreshDraws draw before refs) (hnodup : (done ++ rest).Nodup)
    (hrest : ∀ cited ∈ rest, cited.2 ∈ refs ∧ cited.2.Storable)
    (h : Linked draw before refs run done state) :
    Mirrors (rest.foldlM (linkEvidence run draw parentType) state)
      (citationChecks before run parentType done rest)
      (Linked draw before refs run (done ++ rest)) := by
  induction rest generalizing done state with
  | nil => exact .pure (by rwa [List.append_nil])
  | cons cited rest ih =>
    obtain ⟨hmem, hstorable⟩ := hrest cited (List.mem_cons_self ..)
    have hnew : cited ∉ done := fun hdone =>
      List.disjoint_of_nodup_append hnodup hdone (List.mem_cons_self ..)
    rw [← List.singleton_append, ← List.append_assoc] at hnodup ⊢
    rw [List.singleton_append, List.foldlM_cons, citationChecks]
    exact (link_mirrors h hfresh hmem hstorable hnew).bind fun next _ hnext =>
      ih hnodup (fun other hother => hrest other (List.mem_cons_of_mem _ hother)) hnext

end links

end FounderOs.RepositoryAudit
