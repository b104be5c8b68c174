import FounderOs.Documents.Model

namespace FounderOs.Documents

open Locks Transition

/-- What the creation of the document relies on until it commits. -/
structure DocumentWorld.Creating (s : DocumentWorld) (i : RequestId) : Prop where
  creator : s.creator = some i
  absent : s.document = none
  versions : s.versions = []
  edits : s.edits = []
  past : s.past = []
  live : s.live = []

variable (rules : DocumentRules)

/-- What a draft says about the committed rows: nothing, if it is of an update, but the texts that it
has from a state after the last correction. -/
structure Draft.Relies (d : Draft) (s : DocumentWorld) (i : RequestId) : Prop where
  insert : d.loaded = none → s.Creating i ∧ d.erased = none
  erase : ∀ numbers, d.erased = some numbers → s.locks () = some i ∧
    numbers = s.versions.map (·.versionNumber) ∧
      ∃ row, s.document = some row ∧ d.loaded = some row.content
  recent : d.loaded ≠ none → d.erased = none → d.since = s.corrections →
    ∀ text ∈ d.memory.texts, text ∈ s.allowed ∨ text ∈ s.live
  since_le : d.since ≤ s.corrections

structure Draft.Holds (d : Draft) (s : DocumentWorld) (i : RequestId) : Prop
    extends d.Relies s i where
  lock : s.locks () = some i
  found : d.loaded ≠ none → s.document ≠ none

structure Draft.Numbers (d : Draft) (n : Nat) (s : DocumentWorld) (i : RequestId) : Prop
    extends d.Holds s i where
  number : n = (d.kept s.versions).length + 1

def DocumentRequest.Relies (s : DocumentWorld) (i : RequestId) (since : Nat) :
    DocumentRequest → Prop
  | .create _ => s.Creating i
  | .update payload => since = s.corrections → ∀ text ∈ payload.supplied rules, text ∈ s.allowed
  | .correct _ _ | .forget _ => True

def DocumentPc.Relies (s : DocumentWorld) (i : RequestId) : DocumentPc → Prop
  | .received request since => request.Relies rules s i since ∧ since ≤ s.corrections
  | .locked _ since row | .expected _ since row =>
    s.locks () = some i ∧ s.document = some row ∧ since ≤ s.corrections
  | .edited d => d.Relies s i
  | .flushed d _ => d.Holds s i
  | .numbered d _ n | .appended d _ n => d.Numbers n s i
  | .removed => s.locks () = some i ∧ s.document ≠ none

structure DocumentWorld.Sound (s : DocumentWorld) : Prop where
  unborn : s.creator = none →
    s.document = none ∧ s.edits = [] ∧ s.past = [] ∧ s.live = []
  numbers : s.versions.map (·.versionNumber) = List.range' 1 s.versions.length
  absent : s.document = none → s.versions = []
  present : s.document ≠ none → s.versions ≠ []
  edits : s.document ≠ none → ∀ d ∈ s.edits, ∃ v ∈ s.versions, v.content = d.memory
  row_live : ∀ row, s.document = some row → ∀ text ∈ row.content.texts, text ∈ s.live
  live : s.document ≠ none → ∀ text ∈ s.live, ∃ v ∈ s.versions, text ∈ v.content.texts
  versions_live : ∀ v ∈ s.versions, ∀ text ∈ v.content.texts, text ∈ s.live
  relies : ∀ i pc, s.sessions i = some pc → pc.Relies rules s i

/-- What a step leaves to a request that does not make it. -/
structure Kept (s t : DocumentWorld) (j : RequestId) : Prop where
  lock : s.locks () = some j → t.locks () = some j
  rows : s.locks () = some j → t.document = s.document ∧ t.versions = s.versions
  creating : s.Creating j → t.Creating j
  corrections : s.corrections ≤ t.corrections
  allowed : t.corrections = s.corrections → ∀ text ∈ s.allowed, text ∈ t.allowed
  live : t.corrections = s.corrections → ∀ text ∈ s.live, text ∈ t.live

section frame

variable {rules} {s t : DocumentWorld} {i j : RequestId} {d : Draft} {pc : DocumentPc}

/-- The request was received after the last correction before the step too. -/
theorem Kept.same_corrections (hk : Kept s t j) {since : Nat} (hle : since ≤ s.corrections)
    (hsince : since = t.corrections) : t.corrections = s.corrections := by
  have := hk.corrections
  omega

theorem Kept.draft (hk : Kept s t j) (h : d.Relies s j) : d.Relies t j where
  insert hnone := ⟨hk.creating (h.insert hnone).1, (h.insert hnone).2⟩
  erase numbers hsome := by
    obtain ⟨hlock, hnumbers, hrow⟩ := h.erase numbers hsome
    obtain ⟨hdocument, hversions⟩ := hk.rows hlock
    rw [hdocument, hversions]
    exact ⟨hk.lock hlock, hnumbers, hrow⟩
  recent hloaded herased hsince text htext := by
    have hsame := hk.same_corrections h.since_le hsince
    rcases h.recent hloaded herased (hsince.trans hsame) text htext with hallowed | hlive
    · exact .inl (hk.allowed hsame text hallowed)
    · exact .inr (hk.live hsame text hlive)
  since_le := Nat.le_trans h.since_le hk.corrections

theorem Kept.holds (hk : Kept s t j) (h : d.Holds s j) : d.Holds t j := by
  refine ⟨hk.draft h.toRelies, hk.lock h.lock, ?_⟩
  rw [(hk.rows h.lock).1]
  exact h.found

theorem Kept.numbers {n : Nat} (hk : Kept s t j) (h : d.Numbers n s j) : d.Numbers n t j := by
  refine ⟨hk.holds h.toHolds, ?_⟩
  rw [(hk.rows h.lock).2]
  exact h.number

theorem Kept.request {request : DocumentRequest} {since : Nat} (hk : Kept s t j)
    (hle : since ≤ s.corrections) (h : request.Relies rules s j since) :
    request.Relies rules t j since := by
  cases request with
  | create payload => exact hk.creating h
  | update payload =>
    intro hsince text htext
    have hsame := hk.same_corrections hle hsince
    exact hk.allowed hsame text (h (hsince.trans hsame) text htext)
  | correct payload expected => trivial
  | forget expected => trivial

theorem Kept.relies (hk : Kept s t j) (h : pc.Relies rules s j) : pc.Relies rules t j := by
  cases pc with
  | received request since => exact ⟨hk.request h.2 h.1, Nat.le_trans h.2 hk.corrections⟩
  | locked request since row =>
    exact ⟨hk.lock h.1, (hk.rows h.1).1.trans h.2.1, Nat.le_trans h.2.2 hk.corrections⟩
  | expected request since row =>
    exact ⟨hk.lock h.1, (hk.rows h.1).1.trans h.2.1, Nat.le_trans h.2.2 hk.corrections⟩
  | edited d => exact hk.draft h
  | flushed d updatedAt => exact hk.holds h
  | numbered d updatedAt n => exact hk.numbers h
  | appended d updatedAt n => exact hk.numbers h
  | removed => exact ⟨hk.lock h.1, (hk.rows h.1).1.symm ▸ h.2⟩

/-- The rows and what is remembered of them are as they were. -/
structure SameRows (s t : DocumentWorld) : Prop where
  document : t.document = s.document
  versions : t.versions = s.versions
  edits : t.edits = s.edits
  live : t.live = s.live
  past : t.past = s.past
  corrections : t.corrections = s.corrections

theorem SameRows.kept (h : SameRows s t) (hallowed : ∀ text ∈ s.allowed, text ∈ t.allowed)
    (hcreator : s.creator = some j → t.creator = some j)
    (hlock : s.locks () = some j → t.locks () = some j) : Kept s t j where
  lock := hlock
  rows _ := ⟨h.document, h.versions⟩
  creating hc := ⟨hcreator hc.creator, h.document.trans hc.absent, h.versions.trans hc.versions,
    h.edits.trans hc.edits, h.past.trans hc.past, h.live.trans hc.live⟩
  corrections := Nat.le_of_eq h.corrections.symm
  allowed _ := hallowed
  live _ _ hlive := h.live ▸ hlive

/-- A step of one request that commits nothing. -/
theorem DocumentWorld.Sound.local_step (i : RequestId) (hs : s.Sound rules) (h : SameRows s t)
    (hallowed : ∀ text ∈ s.allowed, text ∈ t.allowed)
    (hborn : t.creator = none → s.creator = none)
    (hcreator : ∀ j, j ≠ i → s.creator = some j → t.creator = some j)
    (hothers : ∀ j, j ≠ i → t.sessions j = s.sessions j)
    (hlocks : ∀ j, j ≠ i → s.locks () = some j → t.locks () = some j)
    (hown : ∀ pc, t.sessions i = some pc → pc.Relies rules t i) : t.Sound rules where
  unborn hnone := by
    rw [h.document, h.edits, h.past, h.live]
    exact hs.unborn (hborn hnone)
  numbers := h.versions ▸ hs.numbers
  absent := h.versions ▸ h.document ▸ hs.absent
  present := h.versions ▸ h.document ▸ hs.present
  edits := h.versions ▸ h.document ▸ h.edits ▸ hs.edits
  row_live := h.document ▸ h.live ▸ hs.row_live
  live := h.versions ▸ h.document ▸ h.live ▸ hs.live
  versions_live := h.versions ▸ h.live ▸ hs.versions_live
  relies j pc hsession := by
    by_cases hj : j = i
    · subst hj
      exact hown pc hsession
    · rw [hothers j hj] at hsession
      exact (h.kept hallowed (hcreator j hj) (hlocks j hj)).relies (hs.relies j pc hsession)

theorem DocumentWorld.Sound.close (hs : s.Sound rules) : (s.close i).Sound rules := by
  refine hs.local_step i ⟨rfl, rfl, rfl, rfl, rfl, rfl⟩ (fun _ h => h) (fun h => h)
    (fun _ _ h => h) ?_ ?_ ?_
  · intro j hj
    exact Function.update_of_ne hj ..
  · intro j hj hlock
    exact release_of_holds hj hlock
  · intro pc hsession
    simp [DocumentWorld.close] at hsession

theorem DocumentWorld.Sound.put (hs : s.Sound rules) (h : pc.Relies rules s i) :
    (s.put i pc).Sound rules := by
  refine hs.local_step i ⟨rfl, rfl, rfl, rfl, rfl, rfl⟩ (fun _ h => h) (fun h => h)
    (fun _ _ h => h) ?_ (fun _ _ h => h) ?_
  · intro j hj
    exact Function.update_of_ne hj ..
  · intro pc' hsession
    obtain rfl : pc = pc' := by simpa [DocumentWorld.put] using hsession
    have hrows : SameRows s (s.put i pc) := ⟨rfl, rfl, rfl, rfl, rfl, rfl⟩
    have hk : Kept s (s.put i pc) i := hrows.kept (fun _ h => h) (fun h => h) fun h => h
    exact hk.relies h

/-- A request goes on with the lock of the row. -/
theorem DocumentWorld.Sound.take (hs : s.Sound rules) (hfree : s.locks.free i () = true)
    (h : pc.Relies rules { s with locks := s.locks.take i () } i) :
    (s.take i pc).Sound rules := by
  refine hs.local_step i ⟨rfl, rfl, rfl, rfl, rfl, rfl⟩ (fun _ h => h) (fun h => h)
    (fun _ _ h => h) ?_ ?_ ?_
  · intro j hj
    exact Function.update_of_ne hj ..
  · intro j _ hlock
    exact take_of_holds hfree hlock
  · intro pc' hsession
    obtain rfl : pc = pc' := by simpa [DocumentWorld.take, DocumentWorld.put] using hsession
    have hrows : SameRows { s with locks := s.locks.take i () } (s.take i pc) :=
      ⟨rfl, rfl, rfl, rfl, rfl, rfl⟩
    have hk : Kept { s with locks := s.locks.take i () } (s.take i pc) i :=
      hrows.kept (fun _ h => h) (fun h => h) fun h => h
    exact hk.relies h

end frame

section versions

variable {s : DocumentWorld} {i : RequestId} {d : Draft} {rules}

theorem foldr_max_range' (n b : Nat) : (List.range' 1 n).foldr max b = max n b := by
  induction n generalizing b with
  | zero => simp
  | succ n ih =>
    rw [List.range'_concat, List.foldr_append, ih]
    simp only [List.foldr_cons, List.foldr_nil]
    omega

theorem latestVersion_eq {versions : List DocumentVersion} {n : Nat}
    (h : versions.map (·.versionNumber) = List.range' 1 n) : latestVersion versions = n := by
  have hmap : latestVersion versions = (versions.map (·.versionNumber)).foldr max 0 := by
    rw [latestVersion, List.foldr_map]
  rw [hmap, h, foldr_max_range', Nat.max_zero]

/-- An update leaves the versions, a correction none. -/
theorem kept_of_none (h : d.erased = none) (versions : List DocumentVersion) :
    d.kept versions = versions := by
  simp [Draft.kept, h]

theorem kept_of_some {numbers : List Nat} (h : d.Relies s i) (hsome : d.erased = some numbers) :
    d.kept s.versions = [] := by
  obtain ⟨-, rfl, -⟩ := h.erase numbers hsome
  refine List.filter_eq_nil_iff.2 fun version hversion => ?_
  have hmem : version.versionNumber ∈ s.versions.map (·.versionNumber) :=
    List.mem_map.2 ⟨version, hversion, rfl⟩
  simp only [hsome, Option.any_some, Bool.not_eq_true', Bool.not_eq_false]
  exact List.contains_iff_mem.2 hmem

theorem latest_kept (hs : s.Sound rules) (h : d.Relies s i) :
    latestVersion (d.kept s.versions) = (d.kept s.versions).length := by
  cases herased : d.erased with
  | none =>
    rw [kept_of_none herased]
    exact latestVersion_eq hs.numbers
  | some numbers =>
    rw [kept_of_some h herased]
    rfl

end versions

section texts

variable {rules}

theorem given_ok {T : Type} {value : Option T} {normalized : T → Except DocumentError T}
    {loaded result : T} (h : given value normalized loaded = .ok result) :
    value = none ∧ result = loaded ∨ ∃ v, value = some v ∧ normalized v = .ok result := by
  cases value with
  | none => exact .inl ⟨rfl, (Except.ok.inj h).symm⟩
  | some v => exact .inr ⟨v, rfl, h⟩

theorem normalizedBody_ok {value body : Str} (h : normalizedBody value = .ok body) :
    body = value := by
  unfold normalizedBody at h
  split_ifs at h
  exact (Except.ok.inj h).symm

/-- A text that an update leaves in memory has been supplied or loaded. -/
theorem texts_of_apply {payload : DocumentUpdateInput} {loaded memory : Content}
    (h : payload.apply rules loaded = .ok memory) :
    ∀ text ∈ memory.texts, text ∈ payload.supplied rules ∨ text ∈ loaded.texts := by
  unfold DocumentUpdateInput.apply at h
  obtain ⟨title, htitle, h⟩ := ok_of_bind_ok h
  obtain ⟨body, hbody, h⟩ := ok_of_bind_ok h
  obtain ⟨tags, -, h⟩ := ok_of_bind_ok h
  obtain ⟨status, -, h⟩ := ok_of_bind_ok h
  obtain rfl := Except.ok.inj h
  have hbody : body = loaded.bodyMarkdown ∨ payload.bodyMarkdown = some body := by
    rcases given_ok hbody with ⟨-, hsame⟩ | ⟨value, hvalue, hnormal⟩
    · exact .inl hsame
    · exact .inr (normalizedBody_ok hnormal ▸ hvalue)
  intro text htext
  simp only [Content.texts, List.mem_cons, List.not_mem_nil, or_false] at htext
  rcases htext with rfl | rfl | rfl
  · rcases given_ok htitle with ⟨-, rfl⟩ | ⟨value, hvalue, hnormal⟩
    · exact .inr (by simp [Content.texts])
    · refine .inl (List.mem_append_left _ ?_)
      simp [hvalue, hnormal, Except.toOption]
  · rcases hbody with rfl | hvalue
    · exact .inr (by simp [Content.texts])
    · exact .inl (List.mem_append_right _ (by simp [hvalue]))
  · split
    · exact .inr (by simp [Content.texts])
    · rename_i hchanged
      rcases hbody with rfl | hvalue
      · exact absurd rfl hchanged
      · exact .inl (List.mem_append_right _ (by simp [hvalue]))

end texts

section step

variable {rules} {s t : DocumentWorld} {i : RequestId} {request : DocumentRequest} {since : Nat}
variable {row : DocumentRow} {d : Draft}

theorem sound_receive (hs : s.Sound rules) (hstep : receiveStep rules s i request = some t) :
    t.Sound rules := by
  cases request with
  | create payload =>
    simp only [receiveStep] at hstep
    split at hstep
    case isFalse => cases hstep
    rename_i hnone
    obtain ⟨habsent, hedits, hpast, hlive⟩ := hs.unborn hnone
    cases hstep
    refine hs.local_step i ⟨rfl, rfl, rfl, rfl, rfl, rfl⟩ (fun _ h => h) ?_ ?_ ?_ (fun _ _ h => h) ?_
    · intro hborn
      cases hborn
    · intro j _ hcreator
      rw [hnone] at hcreator
      cases hcreator
    · intro j hj
      exact Function.update_of_ne hj ..
    · intro pc hsession
      obtain rfl : DocumentPc.received (.create payload) s.corrections = pc := by
        simpa [DocumentWorld.put] using hsession
      exact ⟨⟨rfl, habsent, hs.absent habsent, hedits, hpast, hlive⟩, Nat.le_refl _⟩
  | update payload =>
    simp only [receiveStep, Option.some.injEq] at hstep
    subst hstep
    refine hs.local_step i ⟨rfl, rfl, rfl, rfl, rfl, rfl⟩ (fun _ h => List.mem_append_left _ h)
      (fun h => h) (fun _ _ h => h) ?_ (fun _ _ h => h) ?_
    · intro j hj
      exact Function.update_of_ne hj ..
    · intro pc hsession
      obtain rfl : DocumentPc.received (.update payload) s.corrections = pc := by
        simpa [DocumentWorld.put] using hsession
      exact ⟨fun _ text htext => List.mem_append_right _ htext, Nat.le_refl _⟩
  | correct payload expected =>
    simp only [receiveStep] at hstep
    split at hstep
    · cases hstep
      exact hs.put ⟨trivial, Nat.le_refl _⟩
    · cases hstep
      exact hs
  | forget expected =>
    simp only [receiveStep] at hstep
    split at hstep
    · cases hstep
      exact hs.put ⟨trivial, Nat.le_refl _⟩
    · cases hstep
      exact hs

theorem sound_load (hs : s.Sound rules) (h : request.Relies rules s i since)
    (hle : since ≤ s.corrections) (hstep : loadStep rules s i request since = some t) :
    t.Sound rules := by
  cases request with
  | create payload =>
    simp only [loadStep] at hstep
    split at hstep
    · cases hstep
      exact hs.close
    · cases hstep
      exact hs.put ⟨fun _ => ⟨h, rfl⟩, (fun _ hsome => nomatch hsome),
        fun hloaded => absurd rfl hloaded, hle⟩
  | update payload =>
    simp only [loadStep] at hstep
    split at hstep
    · cases hstep
      exact hs.close
    · rename_i row hdocument
      split at hstep
      · cases hstep
        exact hs.close
      · rename_i memory happly
        split at hstep
        · cases hstep
          exact hs.close
        · cases hstep
          refine hs.put ⟨(fun hnone => nomatch hnone), (fun _ hsome => nomatch hsome), ?_, hle⟩
          intro _ _ hsince text htext
          rcases texts_of_apply happly text htext with hsupplied | hloaded
          · exact .inl (h hsince text hsupplied)
          · exact .inr (hs.row_live row hdocument text hloaded)
  | correct payload expected => cases hstep
  | forget expected => cases hstep

theorem sound_lock (hs : s.Sound rules) (hle : since ≤ s.corrections)
    (hstep : lockStep s i request since = some t) : t.Sound rules := by
  have hlocked : ∀ row, s.document = some row → s.locks.free i () = true →
      (s.take i (.locked request since row)).Sound rules := by
    intro row hdocument hfree
    have hheld : s.locks.take i () () = some i := take_self
    exact hs.take hfree ⟨hheld, hdocument, hle⟩
  cases request with
  | create payload => cases hstep
  | update payload => cases hstep
  | correct payload expected =>
    simp only [lockStep] at hstep
    split at hstep
    · cases hstep
      exact hs.close
    · split at hstep
      · cases hstep
        exact hlocked _ ‹_› ‹_›
      · cases hstep
  | forget expected =>
    simp only [lockStep] at hstep
    split at hstep
    · cases hstep
      exact hs.close
    · split at hstep
      · cases hstep
        exact hlocked _ ‹_› ‹_›
      · cases hstep

theorem sound_expect (hs : s.Sound rules)
    (h : s.locks () = some i ∧ s.document = some row ∧ since ≤ s.corrections) :
    (expectStep s i request since row).Sound rules := by
  cases request with
  | create payload => exact hs
  | update payload => exact hs
  | correct payload expected =>
    simp only [expectStep]
    split
    · exact hs.put h
    · exact hs.close
  | forget expected =>
    simp only [expectStep]
    split
    · exact hs.put h
    · exact hs.close

theorem sound_erase (hs : s.Sound rules)
    (h : s.locks () = some i ∧ s.document = some row ∧ since ≤ s.corrections) :
    (eraseStep rules s i request since row).Sound rules := by
  obtain ⟨hlock, hdocument, hle⟩ := h
  cases request with
  | create payload => exact hs
  | update payload => exact hs
  | correct payload expected =>
    simp only [eraseStep]
    split
    · exact hs.close
    · refine hs.put ⟨(fun hnone => nomatch hnone), ?_, (fun _ hnone => nomatch hnone), hle⟩
      intro numbers hsome
      exact ⟨hlock, (Option.some.inj hsome).symm, row, hdocument, rfl⟩
  | forget expected => exact hs.put ⟨hlock, by rw [hdocument]; simp⟩

theorem sound_flush {now : Nat} (hs : s.Sound rules) (h : d.Relies s i)
    (hstep : flushStep s i d now = some t) : t.Sound rules := by
  unfold flushStep at hstep
  split_ifs at hstep with hstale hfree
  · cases hstep
    exact hs.close
  · cases hstep
    have hk : Kept s { s with locks := s.locks.take i () } i := by
      have hrows : SameRows s { s with locks := s.locks.take i () } := ⟨rfl, rfl, rfl, rfl, rfl, rfl⟩
      exact hrows.kept (fun _ h => h) (fun h => h) fun h => take_of_holds hfree h
    have hheld : s.locks.take i () () = some i := take_self
    refine hs.take hfree ⟨hk.draft h, hheld, ?_⟩
    intro hloaded hnone
    exact hstale ⟨Option.isSome_iff_ne_none.2 hloaded, Option.isNone_iff_eq_none.2 hnone⟩

theorem sound_number {updatedAt : Nat} (hs : s.Sound rules) (h : d.Holds s i) :
    (s.put i (.numbered d updatedAt (latestVersion (d.kept s.versions) + 1))).Sound rules :=
  hs.put ⟨h, congrArg (· + 1) (latest_kept hs h.toRelies)⟩

theorem sound_append {updatedAt n : Nat} (hs : s.Sound rules) (h : d.Numbers n s i) :
    (appendStep s i d updatedAt n).Sound rules := by
  unfold appendStep
  split
  · exact hs.close
  · exact hs.put h

end step

section commit

variable {rules} {s t : DocumentWorld} {i j : RequestId} {d : Draft} {u n : Nat}
variable {loaded memory row : Content}

theorem flushed_self (loaded memory : Content) : loaded.flushed memory loaded = memory := by
  have hsame : ∀ {T : Type} [DecidableEq T] (m l : T), (if m = l then l else m) = m := by
    intro T _ m l
    split
    · exact Eq.symm ‹_›
    · rfl
  simp only [Content.flushed, hsame]

theorem texts_of_flushed {text : TextColumn × Str} (h : text ∈ (loaded.flushed memory row).texts) :
    text ∈ memory.texts ∨ text ∈ row.texts := by
  simp only [Content.texts, Content.flushed, List.mem_cons, List.not_mem_nil, or_false] at h ⊢
  rcases h with rfl | rfl | rfl
  · split
    · exact .inr (.inl rfl)
    · exact .inl (.inl rfl)
  · split
    · exact .inr (.inr (.inl rfl))
    · exact .inl (.inr (.inl rfl))
  · split
    · exact .inr (.inr (.inr rfl))
    · exact .inl (.inr (.inr rfl))

theorem commit_document : (commitDraft s i d u n).document = some (d.row s.document u) := by
  unfold commitDraft
  cases d.erased <;> rfl

theorem commit_versions :
    (commitDraft s i d u n).versions = d.kept s.versions ++ [⟨n, d.memory⟩] := by
  unfold commitDraft
  cases d.erased <;> rfl

theorem commit_of_none (h : d.erased = none) :
    (commitDraft s i d u n).edits = s.edits ++ [d] ∧
      (commitDraft s i d u n).live = s.live ++ d.memory.texts ∧
        (commitDraft s i d u n).versions = s.versions ++ [⟨n, d.memory⟩] := by
  rw [commit_versions, kept_of_none h]
  unfold commitDraft
  rw [h]
  exact ⟨rfl, rfl, rfl⟩

theorem commit_of_some {numbers : List Nat} (hr : d.Relies s i) (h : d.erased = some numbers) :
    (commitDraft s i d u n).edits = [d] ∧ (commitDraft s i d u n).live = d.memory.texts ∧
      (commitDraft s i d u n).versions = [⟨n, d.memory⟩] := by
  rw [commit_versions, kept_of_some hr h]
  unfold commitDraft
  rw [h]
  exact ⟨rfl, rfl, rfl⟩

theorem commit_locks : (commitDraft s i d u n).locks = s.locks.release i := by
  unfold commitDraft
  cases d.erased <;> rfl

theorem commit_sessions :
    (commitDraft s i d u n).sessions = Function.update s.sessions i none := by
  unfold commitDraft
  cases d.erased <;> rfl

theorem commit_creator : (commitDraft s i d u n).creator = s.creator := by
  unfold commitDraft
  cases d.erased <;> rfl

/-- Only the draft of the creation finds no document. -/
theorem Draft.Holds.document (h : d.Holds s i) :
    s.Creating i ∧ d.loaded = none ∧ d.erased = none ∨ d.loaded ≠ none ∧ s.document ≠ none := by
  cases hloaded : d.loaded with
  | none => exact .inl ⟨(h.insert hloaded).1, rfl, (h.insert hloaded).2⟩
  | some loaded => exact .inr ⟨by simp, h.found (by simp [hloaded])⟩

/-- A correction, which has read under the lock, writes what it has in memory. -/
theorem row_of_erased {numbers : List Nat} (h : d.Relies s i) (hsome : d.erased = some numbers) :
    (d.row s.document u).content = d.memory := by
  obtain ⟨-, -, row, hdocument, hloaded⟩ := h.erase numbers hsome
  simp only [Draft.row, hdocument, hloaded, flushed_self]

theorem texts_of_row {text : TextColumn × Str} (h : text ∈ (d.row s.document u).content.texts) :
    text ∈ d.memory.texts ∨ ∃ row, s.document = some row ∧ text ∈ row.content.texts := by
  unfold Draft.row at h
  split at h
  · exact (texts_of_flushed h).imp_right fun hrow => ⟨_, ‹_›, hrow⟩
  · exact .inl h

theorem kept_commit (hj : j ≠ i) (h : d.Holds s i) : Kept s (commitDraft s i d u n) j where
  lock hlock := by
    rw [commit_locks]
    exact release_of_holds hj hlock
  rows hlock := absurd (exclusive hlock h.lock) hj
  creating hc := by
    rcases h.document with ⟨hown, -⟩ | ⟨-, hpresent⟩
    · exact absurd (Option.some.inj (hc.creator.symm.trans hown.creator)) hj
    · exact absurd hc.absent hpresent
  corrections := by
    unfold commitDraft
    cases d.erased with
    | none => exact Nat.le_refl _
    | some numbers => exact Nat.le_succ _
  allowed hsame text htext := by
    unfold commitDraft at hsame ⊢
    cases herased : d.erased with
    | none => exact htext
    | some numbers =>
      rw [herased] at hsame
      exact absurd hsame (Nat.succ_ne_self _)
  live hsame text htext := by
    unfold commitDraft at hsame ⊢
    cases herased : d.erased with
    | none => exact List.mem_append_left _ htext
    | some numbers =>
      rw [herased] at hsame
      exact absurd hsame (Nat.succ_ne_self _)

theorem numbers_commit (hs : s.Sound rules) (h : d.Numbers n s i) :
    (commitDraft s i d u n).versions.map (·.versionNumber) =
      List.range' 1 (commitDraft s i d u n).versions.length := by
  have hkept : (d.kept s.versions).map (·.versionNumber) =
      List.range' 1 (d.kept s.versions).length := by
    cases herased : d.erased with
    | none =>
      rw [kept_of_none herased]
      exact hs.numbers
    | some numbers =>
      rw [kept_of_some h.toRelies herased]
      rfl
  rw [commit_versions, List.map_append, hkept, List.length_append, List.length_singleton,
    List.range'_concat, h.number]
  simp [Nat.add_comm]

theorem sound_commit (hs : s.Sound rules) (h : d.Numbers n s i) :
    (commitDraft s i d u n).Sound rules := by
  have hnew : (⟨n, d.memory⟩ : DocumentVersion) ∈ (commitDraft s i d u n).versions := by
    rw [commit_versions]
    exact List.mem_append_right _ (List.mem_singleton_self _)
  have hrelies : ∀ j pc, (commitDraft s i d u n).sessions j = some pc →
      pc.Relies rules (commitDraft s i d u n) j := by
    intro j pc hsession
    rw [commit_sessions] at hsession
    by_cases hj : j = i
    · subst hj
      rw [Function.update_self] at hsession
      cases hsession
    · rw [Function.update_of_ne hj] at hsession
      exact (kept_commit hj h.toHolds).relies (hs.relies j pc hsession)
  have hunborn : (commitDraft s i d u n).creator ≠ none := by
    rw [commit_creator]
    rcases h.document with ⟨hown, -⟩ | ⟨-, hpresent⟩
    · rw [hown.creator]
      simp
    · exact fun hnone => hpresent (hs.unborn hnone).1
  refine ⟨fun hnone => absurd hnone hunborn, numbers_commit hs h, ?_, ?_, ?_, ?_, ?_, ?_, hrelies⟩
  · rw [commit_document]
    intro hnone
    cases hnone
  · intro _
    exact List.ne_nil_of_mem hnew
  · intro _ d' hd'
    cases herased : d.erased with
    | none =>
      obtain ⟨hedits, -, hversions⟩ := commit_of_none (s := s) (i := i) (u := u) (n := n) herased
      rw [hedits] at hd'
      rw [hversions]
      rcases List.mem_append.1 hd' with hold | hlast
      · rcases h.document with ⟨hown, -⟩ | ⟨-, hpresent⟩
        · rw [hown.edits] at hold
          cases hold
        · obtain ⟨v, hv, hsame⟩ := hs.edits hpresent d' hold
          exact ⟨v, List.mem_append_left _ hv, hsame⟩
      · obtain rfl := List.mem_singleton.1 hlast
        exact ⟨_, List.mem_append_right _ (List.mem_singleton_self _), rfl⟩
    | some numbers =>
      obtain ⟨hedits, -, -⟩ := commit_of_some (u := u) (n := n) h.toRelies herased
      rw [hedits] at hd'
      obtain rfl := List.mem_singleton.1 hd'
      exact ⟨_, hnew, rfl⟩
  · intro row hrow text htext
    rw [commit_document] at hrow
    obtain rfl := Option.some.inj hrow
    cases herased : d.erased with
    | none =>
      rw [(commit_of_none herased).2.1]
      rcases texts_of_row htext with hmemory | ⟨before, hbefore, hold⟩
      · exact List.mem_append_right _ hmemory
      · exact List.mem_append_left _ (hs.row_live before hbefore text hold)
    | some numbers =>
      rw [(commit_of_some h.toRelies herased).2.1]
      rwa [row_of_erased h.toRelies herased] at htext
  · intro _ text htext
    cases herased : d.erased with
    | none =>
      obtain ⟨-, hlive, hversions⟩ := commit_of_none (s := s) (i := i) (u := u) (n := n) herased
      rw [hlive] at htext
      rw [hversions]
      rcases List.mem_append.1 htext with hold | hmemory
      · rcases h.document with ⟨hown, -⟩ | ⟨-, hpresent⟩
        · rw [hown.live] at hold
          cases hold
        · obtain ⟨v, hv, hmem⟩ := hs.live hpresent text hold
          exact ⟨v, List.mem_append_left _ hv, hmem⟩
      · exact ⟨_, List.mem_append_right _ (List.mem_singleton_self _), hmemory⟩
    | some numbers =>
      rw [(commit_of_some h.toRelies herased).2.1] at htext
      exact ⟨_, hnew, htext⟩
  · intro v hv text htext
    cases herased : d.erased with
    | none =>
      obtain ⟨-, hlive, hversions⟩ := commit_of_none (s := s) (i := i) (u := u) (n := n) herased
      rw [hversions] at hv
      rw [hlive]
      rcases List.mem_append.1 hv with hold | hlast
      · exact List.mem_append_left _ (hs.versions_live v hold text htext)
      · obtain rfl := List.mem_singleton.1 hlast
        exact List.mem_append_right _ htext
    | some numbers =>
      obtain ⟨-, hlive, hversions⟩ := commit_of_some (u := u) (n := n) h.toRelies herased
      rw [hversions] at hv
      obtain rfl := List.mem_singleton.1 hv
      rwa [hlive]

theorem sound_remove (hs : s.Sound rules) (hlock : s.locks () = some i)
    (hpresent : s.document ≠ none) :
    DocumentWorld.Sound rules { s.close i with document := none, versions := [] } where
  unborn hnone := absurd (hs.unborn hnone).1 hpresent
  numbers := rfl
  absent _ := rfl
  present h := absurd rfl h
  edits h := absurd rfl h
  row_live _ h := nomatch h
  live h := absurd rfl h
  versions_live _ h := nomatch h
  relies j pc hsession := by
    by_cases hj : j = i
    · subst hj
      simp [DocumentWorld.close] at hsession
    · have hbefore : s.sessions j = some pc := by
        rw [← hsession]
        exact (Function.update_of_ne hj ..).symm
      have hk : Kept s { s.close i with document := none, versions := [] } j :=
        { lock := fun h => release_of_holds hj h
          rows := fun h => absurd (exclusive h hlock) hj
          creating := fun hc => absurd hc.absent hpresent
          corrections := Nat.le_refl _
          allowed := fun _ _ h => h
          live := fun _ _ h => h }
      exact hk.relies (hs.relies j pc hbefore)

theorem DocumentWorld.Sound.step (hs : s.Sound rules) {a : DocumentAction}
    (hstep : documentStep rules s a = some t) : t.Sound rules := by
  cases a with
  | receive i request =>
    simp only [documentStep] at hstep
    split at hstep
    · exact sound_receive hs hstep
    · cases hstep
  | load i =>
    simp only [documentStep] at hstep
    split at hstep
    · rename_i request since hsession
      obtain ⟨hrequest, hle⟩ := hs.relies i _ hsession
      exact sound_load hs hrequest hle hstep
    · cases hstep
  | lock i =>
    simp only [documentStep] at hstep
    split at hstep
    · rename_i request since hsession
      exact sound_lock hs (hs.relies i _ hsession).2 hstep
    · cases hstep
  | expect i =>
    simp only [documentStep] at hstep
    split at hstep
    · rename_i request since row hsession
      cases hstep
      exact sound_expect hs (hs.relies i _ hsession)
    · cases hstep
  | erase i =>
    simp only [documentStep] at hstep
    split at hstep
    · rename_i request since row hsession
      cases hstep
      exact sound_erase hs (hs.relies i _ hsession)
    · cases hstep
  | flush i now =>
    simp only [documentStep] at hstep
    split at hstep
    · rename_i d hsession
      exact sound_flush hs (hs.relies i _ hsession) hstep
    · cases hstep
  | number i =>
    simp only [documentStep] at hstep
    split at hstep
    · rename_i d updatedAt hsession
      cases hstep
      exact sound_number hs (hs.relies i _ hsession)
    · cases hstep
  | append i =>
    simp only [documentStep] at hstep
    split at hstep
    · rename_i d updatedAt n hsession
      cases hstep
      exact sound_append hs (hs.relies i _ hsession)
    · cases hstep
  | commit i =>
    simp only [documentStep] at hstep
    split at hstep
    · rename_i d updatedAt n hsession
      cases hstep
      exact sound_commit hs (hs.relies i _ hsession)
    · rename_i hsession
      obtain ⟨hlock, hpresent⟩ := hs.relies i _ hsession
      cases hstep
      exact sound_remove hs hlock hpresent
    · cases hstep
  | fail i =>
    simp only [documentStep] at hstep
    split_ifs at hstep
    cases hstep
    exact hs.close

theorem sound_of_reaches (h : Reaches (documentStep rules) anyStep noDocument s) :
    s.Sound rules := by
  refine h.invariant (fun _ _ _ hs _ hstep => hs.step hstep) ?_
  exact ⟨fun _ => ⟨rfl, rfl, rfl, rfl⟩, rfl, fun _ => rfl, fun h => absurd rfl h,
    fun h => absurd rfl h, (fun _ h => nomatch h), fun h => absurd rfl h, (fun _ h => nomatch h),
    fun _ _ h => nomatch h⟩

end commit

/-- The highest-numbered version row is the document. -/
def DocumentWorld.HistoryTrue (s : DocumentWorld) : Prop :=
  ∀ row, s.document = some row → s.versions.getLast?.map (·.content) = some row.content

/-- A column that the memory has as it was loaded is so in the row. -/
structure Content.Current (loaded memory row : Content) : Prop where
  title : memory.title = loaded.title → row.title = loaded.title
  bodyMarkdown : memory.bodyMarkdown = loaded.bodyMarkdown → row.bodyMarkdown = loaded.bodyMarkdown
  bodyText : memory.bodyText = loaded.bodyText → row.bodyText = loaded.bodyText
  status : memory.status = loaded.status → row.status = loaded.status
  tags : memory.tags = loaded.tags → row.tags = loaded.tags

/-- An update that commits has the columns that it leaves alone as they are in the row. -/
def KeepsHistory (s : DocumentWorld) : DocumentAction → Prop
  | .commit i => ∀ d u n loaded row, s.sessions i = some (.appended d u n) →
      d.loaded = some loaded → s.document = some row → loaded.Current d.memory row.content
  | _ => True

section history

variable {rules} {s t : DocumentWorld} {i : RequestId} {d : Draft} {u n : Nat}
variable {loaded memory row : Content}

theorem column_flushed_iff {T : Type} [DecidableEq T] {m l r : T} :
    (if m = l then r else m) = m ↔ (m = l → r = l) := by
  by_cases hsame : m = l
  · simp [hsame]
  · simp [hsame]

theorem flushed_eq_memory_iff :
    loaded.flushed memory row = memory ↔ loaded.Current memory row := by
  rw [Content.flushed, Content.mk.injEq]
  simp only [column_flushed_iff]
  constructor
  · rintro ⟨htitle, hbody, htext, hstatus, htags⟩
    exact ⟨htitle, hbody, htext, hstatus, htags⟩
  · rintro ⟨htitle, hbody, htext, hstatus, htags⟩
    exact ⟨htitle, hbody, htext, hstatus, htags⟩

/-- A step that is not a commit changes no row, and only adds to what is allowed. -/
theorem rows_of_not_commit {a : DocumentAction} (hstep : documentStep rules s a = some t)
    (hnot : ∀ i, a ≠ .commit i) :
    t.document = s.document ∧ t.versions = s.versions ∧ t.past = s.past ∧
      ∀ text ∈ s.allowed, text ∈ t.allowed := by
  cases a with
  | receive i request =>
    simp only [documentStep] at hstep
    split at hstep
    case isFalse => cases hstep
    cases request with
    | update payload =>
      cases hstep
      exact ⟨rfl, rfl, rfl, fun _ h => List.mem_append_left _ h⟩
    | _ =>
      simp only [receiveStep] at hstep
      split at hstep <;> cases hstep <;> exact ⟨rfl, rfl, rfl, fun _ h => h⟩
  | load i =>
    simp only [documentStep, loadStep] at hstep
    repeat' split at hstep
    all_goals cases hstep
    all_goals exact ⟨rfl, rfl, rfl, fun _ h => h⟩
  | lock i =>
    simp only [documentStep, lockStep] at hstep
    repeat' split at hstep
    all_goals cases hstep
    all_goals exact ⟨rfl, rfl, rfl, fun _ h => h⟩
  | expect i =>
    simp only [documentStep, expectStep] at hstep
    repeat' split at hstep
    all_goals cases hstep
    all_goals exact ⟨rfl, rfl, rfl, fun _ h => h⟩
  | erase i =>
    simp only [documentStep, eraseStep] at hstep
    repeat' split at hstep
    all_goals cases hstep
    all_goals exact ⟨rfl, rfl, rfl, fun _ h => h⟩
  | flush i now =>
    simp only [documentStep, flushStep] at hstep
    repeat' split at hstep
    all_goals cases hstep
    all_goals exact ⟨rfl, rfl, rfl, fun _ h => h⟩
  | number i =>
    simp only [documentStep] at hstep
    split at hstep <;> cases hstep
    exact ⟨rfl, rfl, rfl, fun _ h => h⟩
  | append i =>
    simp only [documentStep, appendStep] at hstep
    repeat' split at hstep
    all_goals cases hstep
    all_goals exact ⟨rfl, rfl, rfl, fun _ h => h⟩
  | commit i => exact absurd rfl (hnot i)
  | fail i =>
    simp only [documentStep] at hstep
    split_ifs at hstep
    cases hstep
    exact ⟨rfl, rfl, rfl, fun _ h => h⟩

theorem historyTrue_commit_iff (h : d.Holds s i) :
    (commitDraft s i d u n).HistoryTrue ↔
      ∀ loaded row, d.loaded = some loaded → s.document = some row →
        loaded.Current d.memory row.content := by
  unfold DocumentWorld.HistoryTrue
  rw [commit_document, commit_versions]
  simp only [Option.some.injEq, forall_eq', List.getLast?_append, List.getLast?_singleton,
    Option.some_or, Option.map_some]
  rcases h.document with ⟨hown, hloaded, -⟩ | ⟨hloaded, hpresent⟩
  · simp [Draft.row, hloaded]
  · obtain ⟨loaded, hloaded⟩ := Option.ne_none_iff_exists'.1 hloaded
    obtain ⟨row, hdocument⟩ := Option.ne_none_iff_exists'.1 hpresent
    simp only [Draft.row, hloaded, hdocument, Option.some.injEq]
    rw [eq_comm, flushed_eq_memory_iff]
    constructor
    · rintro hcurrent _ _ rfl rfl
      exact hcurrent
    · intro hcurrent
      exact hcurrent loaded row rfl rfl

/-- Of the steps only a commit can part the history from the document. -/
theorem historyTrue_step_iff (hs : s.Sound rules) {a : DocumentAction}
    (hstep : documentStep rules s a = some t) (htrue : s.HistoryTrue) :
    t.HistoryTrue ↔ KeepsHistory s a := by
  by_cases hcommit : ∃ i, a = .commit i
  · obtain ⟨i, rfl⟩ := hcommit
    simp only [documentStep] at hstep
    split at hstep
    · rename_i d u n hsession
      have h : d.Numbers n s i := hs.relies i _ hsession
      cases hstep
      rw [historyTrue_commit_iff h.toHolds]
      constructor
      · intro hcurrent d' u' n' loaded row hsession' hloaded hdocument
        rw [hsession] at hsession'
        cases hsession'
        exact hcurrent loaded row hloaded hdocument
      · intro hkeeps loaded row hloaded hdocument
        exact hkeeps d u n loaded row hsession hloaded hdocument
    · rename_i hsession
      cases hstep
      refine ⟨fun _ => ?_, fun _ _ hnone => nomatch hnone⟩
      intro d u n loaded row hsession'
      rw [hsession] at hsession'
      cases hsession'
    · cases hstep
  · have hnot : ∀ i, a ≠ .commit i := fun i ha => hcommit ⟨i, ha⟩
    obtain ⟨hdocument, hversions, -, -⟩ := rows_of_not_commit hstep hnot
    refine ⟨fun _ => ?_, fun _ => ?_⟩
    · cases a with
      | commit i => exact absurd rfl (hnot i)
      | _ => trivial
    · intro row hrow
      rw [hversions]
      exact htrue row (hdocument.symm.trans hrow)

/-- The versions are numbered without gaps and hold every edit since the last correction, in every
run; a step parts them from the document exactly if an update commits with a column of an older
row. -/
theorem document_history_iff (h : Reaches (documentStep rules) anyStep noDocument s) :
    (s.document ≠ none → s.versions ≠ [] ∧
      s.versions.map (·.versionNumber) = List.range' 1 s.versions.length ∧
        ∀ d ∈ s.edits, ∃ v ∈ s.versions, v.content = d.memory) ∧
    (∀ a t, documentStep rules s a = some t → s.HistoryTrue →
      (t.HistoryTrue ↔ KeepsHistory s a)) ∧
    (Reaches (documentStep rules) KeepsHistory noDocument s → s.HistoryTrue) := by
  have hs := sound_of_reaches h
  refine ⟨fun hpresent => ⟨hs.present hpresent, hs.numbers, hs.edits hpresent⟩,
    fun a t hstep => historyTrue_step_iff hs hstep, fun hkeeps => ?_⟩
  have hsound : DocumentWorld.Sound rules noDocument := sound_of_reaches (Reaches.refl _)
  have hstart : noDocument.HistoryTrue := fun _ hrow => nomatch hrow
  exact hkeeps.invariant_of (fun _ _ _ hs _ hstep => hs.step hstep)
    (fun _ _ _ hs htrue hok hstep => (historyTrue_step_iff hs hstep htrue).2 hok) hsound hstart

end history

/-- Text without marks and in lower case is left as it is. -/
def plainDocuments : DocumentRules := ⟨id, id⟩

def finish (i : RequestId) (now : Nat) : List DocumentAction :=
  [.flush i now, .number i, .append i, .commit i]

def createDraft : List DocumentAction :=
  [.receive 0 (.create ⟨Str.of "plan", Str.of "first", [], Str.of "draft"⟩), .load 0] ++ finish 0 1

def retitle : DocumentUpdateInput := ⟨some (Str.of "roadmap"), none, none, none⟩

/-- Two updates of different fields read the same row. -/
def crossedUpdates : List DocumentAction :=
  createDraft ++ [.receive 1 (.update retitle),
    .receive 2 (.update ⟨none, some (Str.of "second"), none, none⟩), .load 1, .load 2] ++
    finish 1 2 ++ finish 2 3

theorem document_history_iff_retitled :
    ∃ s, Reaches (documentStep plainDocuments) anyStep noDocument s ∧ s.versions.length = 2 ∧
      (s.document ≠ none → s.versions ≠ [] ∧
        s.versions.map (·.versionNumber) = List.range' 1 s.versions.length ∧
          ∀ d ∈ s.edits, ∃ v ∈ s.versions, v.content = d.memory) ∧
      (∀ a t, documentStep plainDocuments s a = some t → s.HistoryTrue →
        (t.HistoryTrue ↔ KeepsHistory s a)) ∧
      (Reaches (documentStep plainDocuments) KeepsHistory noDocument s → s.HistoryTrue) := by
  have hrun : (exec (documentStep plainDocuments) noDocument
      (createDraft ++ [.receive 1 (.update retitle), .load 1] ++ finish 1 2)).map
        (fun s => s.versions.length == 2) = some true := by
    decide +kernel
  obtain ⟨s, hs, hversions⟩ := reaches_of_exec_check hrun
  exact ⟨s, hs, by simpa using hversions, document_history_iff hs⟩

theorem crossed_updates_part_history :
    ¬∀ s, Reaches (documentStep plainDocuments) anyStep noDocument s → s.HistoryTrue := by
  intro hall
  have hrun : (exec (documentStep plainDocuments) noDocument crossedUpdates).map
      (fun s => s.document.any fun row =>
        s.versions.getLast?.map (·.content) ≠ some row.content) = some true := by
    decide +kernel
  obtain ⟨s, hs, hparted⟩ := reaches_of_exec_check hrun
  obtain ⟨row, hrow, hne⟩ := (Option.any_eq_true _ _).1 hparted
  exact of_decide_eq_true hne (hall s hs row hrow)

end FounderOs.Documents
