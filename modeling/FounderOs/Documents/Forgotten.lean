import FounderOs.Documents.History

namespace FounderOs.Documents

open Locks Transition

/-- A title or body of before the last correction, in the document or its history, is one that the
correction or an update received after it has supplied. -/
def DocumentWorld.NoReturn (s : DocumentWorld) : Prop :=
  ∀ text, (∃ row, s.document = some row ∧ text ∈ row.content.texts) ∨
    (∃ v ∈ s.versions, text ∈ v.content.texts) → text ∈ s.past → text ∈ s.allowed

/-- An update that was received before the last correction and commits after it has none of the
forgotten texts in memory. -/
def KeepsForgotten (s : DocumentWorld) : DocumentAction → Prop
  | .commit i => ∀ d u n, s.sessions i = some (.appended d u n) → d.erased = none →
      d.since < s.corrections → ∀ text ∈ d.memory.texts, text ∈ s.past → text ∈ s.allowed
  | _ => True

variable {rules : DocumentRules} {s t : DocumentWorld} {i : RequestId} {d : Draft} {u n : Nat}

theorem commit_history_of_none (h : d.erased = none) :
    (commitDraft s i d u n).past = s.past ∧ (commitDraft s i d u n).allowed = s.allowed := by
  unfold commitDraft
  rw [h]
  exact ⟨rfl, rfl⟩

theorem commit_allowed_of_some {numbers : List Nat} (h : d.erased = some numbers) :
    (commitDraft s i d u n).allowed = d.memory.texts := by
  unfold commitDraft
  rw [h]

/-- An update that was received after the last correction has been supplied what it has, or has read
it in a state that the correction left. -/
theorem recent_allowed (hs : s.Sound rules) (h : d.Holds s i) (herased : d.erased = none)
    (hsince : d.since = s.corrections) (hno : s.NoReturn) {text : TextColumn × Str}
    (htext : text ∈ d.memory.texts) (hpast : text ∈ s.past) : text ∈ s.allowed := by
  rcases h.document with ⟨hown, -⟩ | ⟨hloaded, hpresent⟩
  · rw [hown.past] at hpast
    cases hpast
  · rcases h.recent hloaded herased hsince text htext with hallowed | hlive
    · exact hallowed
    · exact hno text (.inr (hs.live hpresent text hlive)) hpast

theorem noReturn_commit_iff (herased : d.erased = none) (hno : s.NoReturn) :
    (commitDraft s i d u n).NoReturn ↔
      ∀ text ∈ d.memory.texts, text ∈ s.past → text ∈ s.allowed := by
  obtain ⟨hpast, hallowed⟩ := commit_history_of_none (s := s) (i := i) (u := u) (n := n) herased
  have hversions := (commit_of_none (s := s) (i := i) (u := u) (n := n) herased).2.2
  unfold DocumentWorld.NoReturn
  rw [hpast, hallowed, hversions, commit_document]
  constructor
  · intro hall text htext
    exact hall text (.inr ⟨_, List.mem_append_right _ (List.mem_singleton_self _), htext⟩)
  · rintro hmemory text (⟨row, hrow, htext⟩ | ⟨v, hv, htext⟩)
    · obtain rfl := Option.some.inj hrow
      rcases texts_of_row htext with hnew | ⟨before, hbefore, hold⟩
      · exact hmemory text hnew
      · exact hno text (.inl ⟨before, hbefore, hold⟩)
    · rcases List.mem_append.1 hv with hold | hlast
      · exact hno text (.inr ⟨v, hold, htext⟩)
      · obtain rfl := List.mem_singleton.1 hlast
        exact hmemory text htext

theorem noReturn_correction {numbers : List Nat} (h : d.Numbers n s i)
    (hsome : d.erased = some numbers) : (commitDraft s i d u n).NoReturn := by
  rintro text (⟨row, hrow, htext⟩ | ⟨v, hv, htext⟩) _
  · rw [commit_document] at hrow
    obtain rfl := Option.some.inj hrow
    rw [row_of_erased h.toRelies hsome] at htext
    rwa [commit_allowed_of_some hsome]
  · rw [(commit_of_some h.toRelies hsome).2.2] at hv
    obtain rfl := List.mem_singleton.1 hv
    rwa [commit_allowed_of_some hsome]

theorem noReturn_step_iff (hs : s.Sound rules) {a : DocumentAction}
    (hstep : documentStep rules s a = some t) (hno : s.NoReturn) :
    t.NoReturn ↔ KeepsForgotten s a := by
  by_cases hcommit : ∃ i, a = .commit i
  · obtain ⟨i, rfl⟩ := hcommit
    simp only [documentStep] at hstep
    split at hstep
    · rename_i d u n hsession
      have h : d.Numbers n s i := hs.relies i _ hsession
      cases hstep
      cases herased : d.erased with
      | some numbers =>
        refine ⟨fun _ => ?_, fun _ => noReturn_correction h herased⟩
        intro d' u' n' hsession' hnone
        rw [hsession] at hsession'
        cases hsession'
        rw [herased] at hnone
        cases hnone
      | none =>
        rw [noReturn_commit_iff herased hno]
        constructor
        · intro hmemory d' u' n' hsession' _ _
          rw [hsession] at hsession'
          cases hsession'
          exact hmemory
        · intro hkeeps text htext hpast
          rcases Nat.lt_or_eq_of_le h.since_le with holder | hsince
          · exact hkeeps d u n hsession herased holder text htext hpast
          · exact recent_allowed hs h.toHolds herased hsince hno htext hpast
    · rename_i hsession
      cases hstep
      constructor
      · intro _ d u n hsession'
        rw [hsession] at hsession'
        cases hsession'
      · rintro _ text (⟨row, hrow, -⟩ | ⟨v, hv, -⟩)
        · cases hrow
        · cases hv
    · cases hstep
  · have hnot : ∀ i, a ≠ .commit i := fun i ha => hcommit ⟨i, ha⟩
    obtain ⟨hdocument, hversions, hpast, hallowed⟩ := rows_of_not_commit hstep hnot
    constructor
    · intro _
      cases a with
      | commit i => exact absurd rfl (hnot i)
      | _ => trivial
    · intro _ text hthere hforgotten
      rw [hdocument, hversions] at hthere
      rw [hpast] at hforgotten
      exact hallowed text (hno text hthere hforgotten)

/-- A step brings back a forgotten text exactly if an update from before the correction commits with
it. -/
theorem forgotten_text_iff (h : Reaches (documentStep rules) anyStep noDocument s) :
    (∀ a t, documentStep rules s a = some t → s.NoReturn → (t.NoReturn ↔ KeepsForgotten s a)) ∧
      (Reaches (documentStep rules) KeepsForgotten noDocument s → s.NoReturn) := by
  refine ⟨fun a t hstep => noReturn_step_iff (sound_of_reaches h) hstep, fun hkeeps => ?_⟩
  have hsound : DocumentWorld.Sound rules noDocument := sound_of_reaches (Reaches.refl _)
  have hstart : noDocument.NoReturn := fun _ _ hpast => nomatch hpast
  exact hkeeps.invariant_of (fun _ _ _ hs _ hstep => hs.step hstep)
    (fun _ _ _ hs hno hok hstep => (noReturn_step_iff hs hstep hno).2 hok) hsound hstart

def redact : DocumentRequest :=
  .correct ⟨Str.of "plan", Str.of "redacted", [], Str.of "draft"⟩
    ⟨1, 1, Str.of "purge_document_history"⟩

def redaction : List DocumentAction :=
  [.receive 2 redact, .lock 2, .expect 2, .erase 2] ++ finish 2 2

theorem forgotten_text_iff_redacted :
    ∃ s, Reaches (documentStep plainDocuments) anyStep noDocument s ∧ s.corrections = 1 ∧
      (∀ a t, documentStep plainDocuments s a = some t → s.NoReturn →
        (t.NoReturn ↔ KeepsForgotten s a)) ∧
      (Reaches (documentStep plainDocuments) KeepsForgotten noDocument s → s.NoReturn) := by
  have hrun : (exec (documentStep plainDocuments) noDocument (createDraft ++ redaction)).map
      (fun s => s.corrections == 1) = some true := by
    decide +kernel
  obtain ⟨s, hs, hcorrections⟩ := reaches_of_exec_check hrun
  exact ⟨s, hs, by simpa using hcorrections, forgotten_text_iff hs⟩

/-- An update of the title has the first body in memory while the correction replaces it. -/
def lateRetitle : List DocumentAction :=
  createDraft ++ [.receive 1 (.update retitle), .load 1] ++ redaction ++ finish 1 3

theorem forgotten_body_returns :
    ¬∀ s, Reaches (documentStep plainDocuments) anyStep noDocument s → s.NoReturn := by
  intro hall
  have hrun : (exec (documentStep plainDocuments) noDocument lateRetitle).map
      (fun s => s.versions.any fun v => v.content.texts.any fun text =>
        s.past.contains text && !s.allowed.contains text) = some true := by
    decide +kernel
  obtain ⟨s, hs, hback⟩ := reaches_of_exec_check hrun
  obtain ⟨v, hv, htexts⟩ := List.any_eq_true.1 hback
  obtain ⟨text, htext, hforgotten⟩ := List.any_eq_true.1 htexts
  obtain ⟨hpast, hnot⟩ := Bool.and_eq_true_iff.1 hforgotten
  have hallowed := hall s hs text (.inr ⟨v, hv, htext⟩) (List.contains_iff_mem.1 hpast)
  rw [List.contains_iff_mem.2 hallowed] at hnot
  cases hnot

end FounderOs.Documents
