import FounderOs.ConnectorControl.Connection

namespace FounderOs.ConnectorControl

open Transition

def Connection.passed (connection : Connection) : Bool := connection.providerMetadata.passed

/-- The connection is shown as connected or as verified. -/
def Connection.Shown (connection : Connection) : Prop :=
  connection.status = .connected ∨ connection.passed = true

/-- The probe was made with what the connection has stored. -/
structure Probe.Matches (probe : Probe) (row : Connection) : Prop where
  connection : probe.connection = row.id
  token : row.encryptedAccessToken = some probe.token
  baseUrl : probe.baseUrl = row.baseUrl
  accountEmail : probe.accountEmail = row.accountEmail

/-- Each connection of the control center that is shown so has been probed as it is stored, and nothing
has been configured or removed since that probe loaded it. -/
def ControlWorld.Verified (s : ControlWorld) : Prop :=
  ∀ row ∈ s.rows, row.viaControl = true → row.Shown →
    ∃ probe ∈ s.probes, probe.Matches row ∧ probe.generation = s.generation

/-- What an update leaves of a row that it does not mean to be shown: where the new status or metadata
is what was loaded, the stored one stays. -/
def ControlWorld.Hides (s : ControlWorld) (loaded : Connection) (metadata : Metadata) : Prop :=
  ∀ row ∈ s.rows, row.id = loaded.id →
    (loaded.status = .disabled → row.status ≠ .connected) ∧
      (metadata = loaded.providerMetadata → row.passed = false)

instance (s : ControlWorld) (loaded : Connection) (metadata : Metadata) :
    Decidable (s.Hides loaded metadata) :=
  inferInstanceAs (Decidable (∀ row ∈ s.rows, row.id = loaded.id →
    (loaded.status = .disabled → row.status ≠ .connected) ∧
      (metadata = loaded.providerMetadata → row.passed = false)))

/-- A check commits only while nothing has been configured or removed since it loaded its connection. A
configuration or a removal commits only where what it leaves unwritten has not been promoted since it was
loaded, and a first configuration only while there is none. -/
def ControlCall.UpToDate (provider : Provider) (s : ControlWorld) (now : Nat) : ControlCall → Prop
  | .apply _ none => s.settingsRows = []
  | .apply config (some loaded) => s.Hides loaded (Metadata.configured provider config now)
  | .disconnect loaded => s.Hides loaded (loaded.providerMetadata.disconnected now)
  | .check _ _ _ => True
  | .checked loaded _ generation _ => loaded.viaControl = true → generation = s.generation

instance (provider : Provider) (s : ControlWorld) (now : Nat) :
    DecidablePred (ControlCall.UpToDate provider s now)
  | .apply _ none => inferInstanceAs (Decidable (s.settingsRows = []))
  | .apply _ (some _) | .disconnect _ => inferInstanceAs (Decidable (s.Hides _ _))
  | .check _ _ _ => inferInstanceAs (Decidable True)
  | .checked loaded _ generation _ =>
    inferInstanceAs (Decidable (loaded.viaControl = true → generation = s.generation))

/-- The request that commits is up to date. -/
def ControlWorld.UpToDate (provider : Provider) (s : ControlWorld) : ControlAction → Prop
  | .commitApply i _ _ now _ | .commitDisconnect i now =>
    ∀ call ∈ s.calls i, call.UpToDate provider s now
  | .commitCheck i => ∀ call ∈ s.calls i, call.UpToDate provider s 0
  | _ => True

instance (provider : Provider) (s : ControlWorld) : DecidablePred (s.UpToDate provider)
  | .commitApply i _ _ now _ | .commitDisconnect i now =>
    inferInstanceAs (Decidable (∀ call ∈ s.calls i, call.UpToDate provider s now))
  | .commitCheck i => inferInstanceAs (Decidable (∀ call ∈ s.calls i, call.UpToDate provider s 0))
  | .apply _ _ _ | .disconnect _ _ | .readCheck _ _ _ | .probe _ _ | .fail _ =>
    inferInstanceAs (Decidable True)

/-- Any rows of the provider before the control center has one; a managed row is among them. -/
structure ProviderRows (managed : Option ConnectionId) where
  rows : List Connection
  ids : (rows.map (·.id)).Nodup
  unmade : ∀ row ∈ rows, row.viaControl = false
  managed_mem : ∀ id ∈ managed, id ∈ rows.map (·.id)

def ProviderRows.world {managed : Option ConnectionId} (rows : ProviderRows managed) :
    ControlWorld :=
  ⟨rows.rows, fun _ => none, 0, []⟩

/-- What is known of a connection that a request has loaded, at a generation if it is a check. -/
structure Loaded (s : ControlWorld) (loaded : Connection) (generation : Option Nat) : Prop where
  stored : ∃ row ∈ s.rows, row.id = loaded.id ∧ row.viaControl = loaded.viaControl
  before : ∀ g ∈ generation, g ≤ s.generation
  same : ∀ g ∈ generation, loaded.viaControl = true → g = s.generation →
    ∀ row ∈ s.rows, row.id = loaded.id → row.encryptedAccessToken = loaded.encryptedAccessToken ∧
      row.baseUrl = loaded.baseUrl ∧ row.accountEmail = loaded.accountEmail

def ControlCall.Knows (s : ControlWorld) : ControlCall → Prop
  | .apply _ none => True
  | .apply _ (some loaded) | .disconnect loaded =>
    Loaded s loaded none ∧ loaded.viaControl = true
  | .check loaded _ generation => Loaded s loaded (some generation)
  | .checked loaded _ generation outcome =>
    Loaded s loaded (some generation) ∧ (loaded.viaControl = true → ∀ result,
      outcome = .ok result → ∃ probe ∈ s.probes, probe.Matches loaded ∧ probe.generation = generation)

structure Shape (rows : List Connection) (managed : Option ConnectionId) : Prop where
  ids : (rows.map (·.id)).Nodup
  single : ∀ row ∈ rows, row.viaControl = true → ∀ other ∈ rows, other.viaControl = true →
    other = row
  managed_mem : ∀ id ∈ managed, id ∈ rows.map (·.id)
  unmanaged : ∀ row ∈ rows, row.viaControl = true → managed ≠ some row.id

structure ControlWorld.Sound (s : ControlWorld) (managed : Option ConnectionId) : Prop where
  shape : Shape s.rows managed
  verified : s.Verified
  knows : ∀ i call, s.calls i = some call → call.Knows s

section rows

variable {s : ControlWorld} {managed : Option ConnectionId} {row loaded new : Connection}
  {id : ConnectionId}

theorem mem_settingsRows : row ∈ s.settingsRows ↔ row ∈ s.rows ∧ row.viaControl = true :=
  List.mem_filter

theorem settingsConnection_some (h : s.settingsConnection id = some row) :
    row ∈ s.rows ∧ row.viaControl = true :=
  mem_settingsRows.1 (List.mem_of_find?_eq_some (Option.filter_eq_some_iff.1 h).1)

theorem selectConnection_some (h : s.selectConnection managed id = some row) : row ∈ s.rows := by
  unfold ControlWorld.selectConnection at h
  split_ifs at h
  · exact List.mem_of_find?_eq_some h
  · exact (mem_settingsRows.1 (List.mem_of_find?_eq_some h)).1
  · exact List.mem_of_find?_eq_some h

theorem column_cases {A : Type} [DecidableEq A] (loaded new stored : A) :
    new = loaded ∧ column loaded new stored = stored ∨ column loaded new stored = new := by
  unfold column
  split_ifs with h
  · exact .inl ⟨h, rfl⟩
  · exact .inr rfl

/-- An update keeps who made the row, when the request does. -/
theorem viaControl_update {stored : Connection} (hnew : new.viaControl = loaded.viaControl)
    (hstored : stored.viaControl = loaded.viaControl) :
    (loaded.update new stored).viaControl = loaded.viaControl := by
  rcases column_cases loaded.providerMetadata new.providerMetadata stored.providerMetadata with
    ⟨-, hmetadata⟩ | hmetadata
  · rw [← hstored]
    exact congrArg (fun metadata => decide (metadata.createdVia = some controlSource)) hmetadata
  · rw [← hnew]
    exact congrArg (fun metadata => decide (metadata.createdVia = some controlSource)) hmetadata

theorem eq_of_id (hshape : Shape s.rows managed) {other : Connection} (hrow : row ∈ s.rows)
    (hother : other ∈ s.rows) (hid : row.id = other.id) : row = other :=
  List.inj_on_of_nodup_map hshape.ids hrow hother hid

theorem stored_viaControl {generation : Option Nat} (hshape : Shape s.rows managed)
    (hloaded : Loaded s loaded generation) (hrow : row ∈ s.rows) (hid : row.id = loaded.id) :
    row.viaControl = loaded.viaControl := by
  obtain ⟨stored, hstored, hstoredId, hvia⟩ := hloaded.stored
  rw [eq_of_id hshape hrow hstored (hid.trans hstoredId.symm), hvia]

/-- The rows after an update, each with the row that it was. -/
structure Keeps (f : Connection → Connection) (rows : List Connection) : Prop where
  id : ∀ row ∈ rows, (f row).id = row.id
  viaControl : ∀ row ∈ rows, (f row).viaControl = row.viaControl

theorem Shape.map {f : Connection → Connection} {rows : List Connection}
    (h : Shape rows managed) (hf : Keeps f rows) : Shape (rows.map f) managed := by
  have hids : (rows.map f).map (·.id) = rows.map (·.id) := by
    rw [List.map_map]
    exact List.map_congr_left hf.id
  refine ⟨hids ▸ h.ids, ?_, hids ▸ h.managed_mem, ?_⟩
  · intro _ hrow hvia _ hother hotherVia
    obtain ⟨row, hold, rfl⟩ := List.mem_map.1 hrow
    obtain ⟨other, hotherOld, rfl⟩ := List.mem_map.1 hother
    rw [hf.viaControl row hold] at hvia
    rw [hf.viaControl other hotherOld] at hotherVia
    rw [h.single row hold hvia other hotherOld hotherVia]
  · intro _ hrow hvia
    obtain ⟨row, hold, rfl⟩ := List.mem_map.1 hrow
    rw [hf.viaControl row hold] at hvia
    rw [hf.id row hold]
    exact h.unmanaged row hold hvia

/-- The function that `updateRow` maps over the rows. -/
def written (loaded new row : Connection) : Connection :=
  if row.id = loaded.id then loaded.update new row else row

theorem written_of_ne (h : row.id ≠ loaded.id) : written loaded new row = row := if_neg h

theorem written_of_eq (h : row.id = loaded.id) :
    written loaded new row = loaded.update new row := if_pos h

theorem keeps_written {generation : Option Nat} (hshape : Shape s.rows managed)
    (hloaded : Loaded s loaded generation) (hnew : new.viaControl = loaded.viaControl) :
    Keeps (written loaded new) s.rows where
  id row _ := by
    by_cases hid : row.id = loaded.id
    · rw [written_of_eq hid]
      rfl
    · rw [written_of_ne hid]
  viaControl row hrow := by
    by_cases hid : row.id = loaded.id
    · have hvia := stored_viaControl hshape hloaded hrow hid
      rw [written_of_eq hid, viaControl_update hnew hvia, hvia]
    · rw [written_of_ne hid]

end rows

section frame

variable {s t : ControlWorld} {managed : Option ConnectionId} {i : CallId} {call : ControlCall}
  {loaded row : Connection} {generation : Option Nat}

theorem Loaded.of_rows (h : Loaded s loaded generation) (hrows : t.rows = s.rows)
    (hgeneration : t.generation = s.generation) : Loaded t loaded generation :=
  ⟨hrows ▸ h.stored, hgeneration ▸ h.before, hgeneration ▸ hrows ▸ h.same⟩

theorem ControlCall.Knows.of_rows (h : call.Knows s) (hrows : t.rows = s.rows)
    (hgeneration : t.generation = s.generation) (hprobes : ∀ probe ∈ s.probes, probe ∈ t.probes) :
    call.Knows t := by
  cases call with
  | apply config loaded =>
    cases loaded with
    | none => trivial
    | some loaded => exact ⟨h.1.of_rows hrows hgeneration, h.2⟩
  | disconnect loaded => exact ⟨h.1.of_rows hrows hgeneration, h.2⟩
  | check loaded checkedAt g => exact Loaded.of_rows h hrows hgeneration
  | checked loaded checkedAt g outcome =>
    refine ⟨h.1.of_rows hrows hgeneration, fun hvia result hresult => ?_⟩
    obtain ⟨probe, hprobe, hmatches⟩ := h.2 hvia result hresult
    exact ⟨probe, hprobes probe hprobe, hmatches⟩

/-- A step of one request that leaves the rows. -/
theorem ControlWorld.Sound.local_step (i : CallId) (hs : s.Sound managed) (hrows : t.rows = s.rows)
    (hgeneration : t.generation = s.generation) (hprobes : ∀ probe ∈ s.probes, probe ∈ t.probes)
    (hothers : ∀ j, j ≠ i → t.calls j = s.calls j)
    (hown : ∀ call, t.calls i = some call → call.Knows t) : t.Sound managed where
  shape := hrows.symm ▸ hs.shape
  verified row hrow hvia hshown := by
    rw [hrows] at hrow
    obtain ⟨probe, hprobe, hmatches⟩ := hs.verified row hrow hvia hshown
    exact ⟨probe, hprobes probe hprobe, hgeneration ▸ hmatches⟩
  knows j call hcall := by
    by_cases hj : j = i
    · subst hj
      exact hown call hcall
    · rw [hothers j hj] at hcall
      exact (hs.knows j call hcall).of_rows hrows hgeneration hprobes

theorem ControlWorld.Sound.put (hs : s.Sound managed) (h : call.Knows s) :
    (s.put i call).Sound managed := by
  refine hs.local_step i rfl rfl (fun _ h => h) (fun j hj => Function.update_of_ne hj ..) ?_
  intro call' hcall
  obtain rfl : call = call' := by simpa [ControlWorld.put] using hcall
  exact h.of_rows rfl rfl fun _ h => h

theorem ControlWorld.Sound.close (hs : s.Sound managed) : (s.close i).Sound managed := by
  refine hs.local_step i rfl rfl (fun _ h => h) (fun j hj => Function.update_of_ne hj ..) ?_
  intro call hcall
  simp [ControlWorld.close] at hcall

theorem call_of_close {j : CallId} (h : (s.close i).calls j = some call) : s.calls j = some call := by
  by_cases hj : j = i
  · subst hj
    simp [ControlWorld.close] at h
  · have hupdate : Function.update s.calls i none j = some call := h
    rwa [Function.update_of_ne hj] at hupdate

theorem loaded_of_mem (hrow : row ∈ s.rows) (hgeneration : ∀ g ∈ generation, g = s.generation)
    (hshape : Shape s.rows managed) : Loaded s row generation where
  stored := ⟨row, hrow, rfl, rfl⟩
  before g hg := Nat.le_of_eq (hgeneration g hg)
  same _ _ _ _ other hother hid := by
    rw [eq_of_id hshape hother hrow hid]
    exact ⟨rfl, rfl, rfl⟩

/-- After a configuration or a removal a request that had loaded before is behind. -/
theorem Loaded.behind {f : Connection → Connection} (h : Loaded s loaded generation)
    (hf : Keeps f s.rows) (hrows : ∀ row ∈ s.rows, f row ∈ t.rows)
    (hgeneration : t.generation = s.generation + 1) : Loaded t loaded generation where
  stored := by
    obtain ⟨row, hrow, hid, hvia⟩ := h.stored
    exact ⟨f row, hrows row hrow, (hf.id row hrow).trans hid, (hf.viaControl row hrow).trans hvia⟩
  before g hg := hgeneration ▸ Nat.le_succ_of_le (h.before g hg)
  same g hg _ hsame := by
    rw [hgeneration] at hsame
    exact absurd (h.before g hg) (Nat.not_le_of_lt (hsame ▸ Nat.lt_succ_self _))

theorem ControlCall.Knows.behind {f : Connection → Connection} (h : call.Knows s)
    (hf : Keeps f s.rows) (hrows : ∀ row ∈ s.rows, f row ∈ t.rows)
    (hgeneration : t.generation = s.generation + 1) (hprobes : t.probes = s.probes) :
    call.Knows t := by
  cases call with
  | apply config loaded =>
    cases loaded with
    | none => trivial
    | some loaded => exact ⟨h.1.behind hf hrows hgeneration, h.2⟩
  | disconnect loaded => exact ⟨h.1.behind hf hrows hgeneration, h.2⟩
  | check loaded checkedAt g => exact Loaded.behind h hf hrows hgeneration
  | checked loaded checkedAt g outcome => exact ⟨h.1.behind hf hrows hgeneration, hprobes ▸ h.2⟩

end frame

section promotion

variable {s : ControlWorld} {managed : Option ConnectionId} {provider : Provider} {i : CallId}
  {loaded new row : Connection} {metadata : Metadata}

/-- Where what is left unwritten has not been promoted, the row is not shown after the update. -/
theorem hidden_update (hhides : s.Hides loaded new.providerMetadata) (hrow : row ∈ s.rows)
    (hid : row.id = loaded.id) (hstatus : new.status = .disabled) (hpassed : new.passed = false) :
    ¬(loaded.update new row).Shown := by
  obtain ⟨hconnected, hchecked⟩ := hhides row hrow hid
  rintro (hshown | hshown)
  · rcases column_cases loaded.status new.status row.status with ⟨hsame, hcolumn⟩ | hcolumn
    · exact hconnected (hsame.symm.trans hstatus) (hcolumn.symm.trans hshown)
    · cases hstatus.symm.trans (hcolumn.symm.trans hshown)
  · rcases column_cases loaded.providerMetadata new.providerMetadata row.providerMetadata with
      ⟨hsame, hcolumn⟩ | hcolumn
    · have hpass : row.passed = true := by
        rw [Connection.passed, ← hcolumn]
        exact hshown
      exact Bool.false_ne_true ((hchecked hsame).symm.trans hpass)
    · have hpass : new.passed = true := by
        rw [Connection.passed, ← hcolumn]
        exact hshown
      exact Bool.false_ne_true (hpassed.symm.trans hpass)

theorem sound_write (hs : s.Sound managed) (hloaded : Loaded s loaded none)
    (hvia : loaded.viaControl = true) (hnew : new.viaControl = true)
    (hhides : s.Hides loaded new.providerMetadata) (hstatus : new.status = .disabled)
    (hpassed : new.passed = false) :
    ControlWorld.Sound { s.close i with
      rows := s.updateRow loaded new
      generation := s.generation + 1 } managed where
  shape := hs.shape.map (keeps_written hs.shape hloaded (hnew.trans hvia.symm))
  verified row hrow hrowVia hshown := by
    have hkeeps := keeps_written hs.shape hloaded (hnew.trans hvia.symm)
    obtain ⟨old, hold, rfl⟩ := List.mem_map.1 hrow
    obtain ⟨stored, hstored, hid, hstoredVia⟩ := hloaded.stored
    have hone : old = stored := hs.shape.single stored hstored (hstoredVia.trans hvia) old hold
      ((hkeeps.viaControl old hold).symm.trans hrowVia)
    rw [if_pos (hone ▸ hid)] at hshown
    exact absurd hshown (hidden_update hhides hold (hone ▸ hid) hstatus hpassed)
  knows j call hcall := (hs.knows j call (call_of_close hcall)).behind
    (keeps_written hs.shape hloaded (hnew.trans hvia.symm))
    (fun _ hrow => List.mem_map_of_mem hrow) rfl rfl

/-- A check leaves the credential, the address and the account. -/
structure SameTarget (loaded new : Connection) : Prop where
  id : new.id = loaded.id
  token : new.encryptedAccessToken = loaded.encryptedAccessToken
  baseUrl : new.baseUrl = loaded.baseUrl
  accountEmail : new.accountEmail = loaded.accountEmail
  viaControl : new.viaControl = loaded.viaControl

theorem sameTarget_check (loaded : Connection) (checkedAt : Nat)
    (outcome : Except ProbeError ProbeResult) : SameTarget loaded (loaded.check checkedAt outcome) := by
  cases outcome <;> exact ⟨rfl, rfl, rfl, rfl, rfl⟩

/-- So does its update, where the stored row has what was loaded. -/
theorem sameTarget_update (hnew : SameTarget loaded new) (hbaseUrl : row.baseUrl = loaded.baseUrl)
    (haccountEmail : row.accountEmail = loaded.accountEmail)
    (hvia : row.viaControl = loaded.viaControl) : SameTarget row (loaded.update new row) where
  id := rfl
  token := if_pos hnew.token
  baseUrl := by
    rcases column_cases loaded.providerMetadata new.providerMetadata row.providerMetadata with
      ⟨-, hcolumn⟩ | hcolumn
    · exact congrArg (fun metadata => metadata.control.baseUrl) hcolumn
    · rw [hbaseUrl, ← hnew.baseUrl]
      exact congrArg (fun metadata => metadata.control.baseUrl) hcolumn
  accountEmail := by
    rcases column_cases loaded.providerMetadata new.providerMetadata row.providerMetadata with
      ⟨-, hcolumn⟩ | hcolumn
    · exact congrArg (fun metadata => metadata.control.accountEmail) hcolumn
    · rw [haccountEmail, ← hnew.accountEmail]
      exact congrArg (fun metadata => metadata.control.accountEmail) hcolumn
  viaControl := (viaControl_update hnew.viaControl hvia).trans hvia.symm

theorem Probe.Matches.of_same {probe : Probe} (h : probe.Matches row) (hsame : SameTarget row new) :
    probe.Matches new :=
  ⟨h.connection.trans hsame.id.symm, hsame.token.trans h.token, h.baseUrl.trans hsame.baseUrl.symm,
    h.accountEmail.trans hsame.accountEmail.symm⟩

/-- A check that has failed promotes nothing. -/
theorem shown_of_failed {error : ProbeError} {checkedAt : Nat}
    (h : (loaded.update (loaded.check checkedAt (.error error)) row).Shown) : row.Shown := by
  rcases h with hshown | hshown
  · rcases column_cases loaded.status .error row.status with ⟨-, hcolumn⟩ | hcolumn
    · exact .inl (hcolumn.symm.trans hshown)
    · cases hcolumn.symm.trans hshown
  · rcases column_cases loaded.providerMetadata
      (loaded.providerMetadata.setReadCheck (.failed error checkedAt)) row.providerMetadata with
      ⟨-, hcolumn⟩ | hcolumn
    · refine .inr ?_
      rw [Connection.passed, ← hcolumn]
      exact hshown
    · have hpass : (loaded.providerMetadata.setReadCheck (.failed error checkedAt)).passed = true := by
        rw [← hcolumn]
        exact hshown
      cases hpass

theorem SameTarget.refl (row : Connection) : SameTarget row row := ⟨rfl, rfl, rfl, rfl, rfl⟩

theorem sameTarget_of_loaded {g : Nat} (hshape : Shape s.rows managed)
    (hloaded : Loaded s loaded (some g)) (hcurrent : g = s.generation)
    (hvia : loaded.viaControl = true) (hrow : row ∈ s.rows) (hid : row.id = loaded.id) :
    SameTarget loaded row := by
  obtain ⟨htoken, hbaseUrl, haccountEmail⟩ := hloaded.same g rfl hvia hcurrent row hrow hid
  exact ⟨hid, htoken, hbaseUrl, haccountEmail, stored_viaControl hshape hloaded hrow hid⟩

/-- The rows of the control center keep their target when a check commits that is up to date. -/
theorem sameTarget_written {g : Nat} (hshape : Shape s.rows managed)
    (hloaded : Loaded s loaded (some g)) (hcurrent : loaded.viaControl = true → g = s.generation)
    (hnew : SameTarget loaded new) (hrow : row ∈ s.rows) (hvia : row.viaControl = true) :
    SameTarget row (written loaded new row) := by
  by_cases hid : row.id = loaded.id
  · have hloadedVia := (stored_viaControl hshape hloaded hrow hid).symm.trans hvia
    have hsame := sameTarget_of_loaded hshape hloaded (hcurrent hloadedVia) hloadedVia hrow hid
    rw [written_of_eq hid]
    exact sameTarget_update hnew hsame.baseUrl hsame.accountEmail hsame.viaControl
  · rw [written_of_ne hid]
    exact SameTarget.refl row

theorem Loaded.checked {t : ControlWorld} {other : Connection} {g : Option Nat}
    (h : Loaded s other g) (hshape : Shape s.rows managed) (hkeeps : Keeps (written loaded new) s.rows)
    (hrows : t.rows = s.rows.map (written loaded new)) (hgeneration : t.generation = s.generation)
    (hsame : ∀ row ∈ s.rows, row.viaControl = true → SameTarget row (written loaded new row)) :
    Loaded t other g where
  stored := by
    obtain ⟨row, hrow, hid, hvia⟩ := h.stored
    exact ⟨written loaded new row, hrows ▸ List.mem_map_of_mem hrow, (hkeeps.id row hrow).trans hid,
      (hkeeps.viaControl row hrow).trans hvia⟩
  before := hgeneration ▸ h.before
  same g hg hvia hcurrent row hrow hid := by
    rw [hrows] at hrow
    obtain ⟨old, hold, rfl⟩ := List.mem_map.1 hrow
    have holdId : old.id = other.id := (hkeeps.id old hold).symm.trans hid
    have holdVia := (stored_viaControl hshape h hold holdId).trans hvia
    obtain ⟨htoken, hbaseUrl, haccountEmail⟩ :=
      h.same g hg hvia (hcurrent.trans hgeneration) old hold holdId
    have htarget := hsame old hold holdVia
    exact ⟨htarget.token.trans htoken, htarget.baseUrl.trans hbaseUrl,
      htarget.accountEmail.trans haccountEmail⟩

theorem ControlCall.Knows.checked {t : ControlWorld} {call : ControlCall}
    (h : call.Knows s) (hshape : Shape s.rows managed) (hkeeps : Keeps (written loaded new) s.rows)
    (hrows : t.rows = s.rows.map (written loaded new)) (hgeneration : t.generation = s.generation)
    (hprobes : t.probes = s.probes)
    (hsame : ∀ row ∈ s.rows, row.viaControl = true → SameTarget row (written loaded new row)) :
    call.Knows t := by
  cases call with
  | apply config other =>
    cases other with
    | none => trivial
    | some other => exact ⟨h.1.checked hshape hkeeps hrows hgeneration hsame, h.2⟩
  | disconnect other => exact ⟨h.1.checked hshape hkeeps hrows hgeneration hsame, h.2⟩
  | check other checkedAt g => exact Loaded.checked h hshape hkeeps hrows hgeneration hsame
  | checked other checkedAt g outcome =>
    exact ⟨h.1.checked hshape hkeeps hrows hgeneration hsame, hprobes ▸ h.2⟩

theorem sound_check {checkedAt g : Nat} {outcome : Except ProbeError ProbeResult}
    (hs : s.Sound managed) (hknows : (ControlCall.checked loaded checkedAt g outcome).Knows s)
    (hcurrent : loaded.viaControl = true → g = s.generation) :
    ControlWorld.Sound { s.close i with
      rows := s.updateRow loaded (loaded.check checkedAt outcome) } managed := by
  obtain ⟨hloaded, hprobed⟩ := hknows
  have hnew := sameTarget_check loaded checkedAt outcome
  have hkeeps := keeps_written hs.shape hloaded hnew.viaControl
  have hsame (row : Connection) (hrow : row ∈ s.rows) (hvia : row.viaControl = true) :
      SameTarget row (written loaded (loaded.check checkedAt outcome) row) :=
    sameTarget_written hs.shape hloaded hcurrent hnew hrow hvia
  refine ⟨hs.shape.map hkeeps, ?_, fun j call hcall => ?_⟩
  · intro row hrow hvia hshown
    obtain ⟨old, hold, rfl⟩ := List.mem_map.1 hrow
    have holdVia : old.viaControl = true := (hkeeps.viaControl old hold).symm.trans hvia
    have htarget := hsame old hold holdVia
    have hearlier (hshown : old.Shown) : ∃ probe ∈ s.probes,
        probe.Matches (written loaded (loaded.check checkedAt outcome) old) ∧
          probe.generation = s.generation := by
      obtain ⟨probe, hprobe, hmatches, hgeneration⟩ := hs.verified old hold holdVia hshown
      exact ⟨probe, hprobe, hmatches.of_same htarget, hgeneration⟩
    by_cases hid : old.id = loaded.id
    · cases outcome with
      | error error =>
        rw [if_pos hid] at hshown
        exact hearlier (shown_of_failed hshown)
      | ok result =>
        -- the check's own probe
        have hloadedVia := (stored_viaControl hs.shape hloaded hold hid).symm.trans holdVia
        obtain ⟨probe, hprobe, hmatches, hgeneration⟩ := hprobed hloadedVia result rfl
        have hstored := sameTarget_of_loaded hs.shape hloaded (hcurrent hloadedVia) hloadedVia hold hid
        exact ⟨probe, hprobe, (hmatches.of_same hstored).of_same htarget,
          hgeneration.trans (hcurrent hloadedVia)⟩
    · rw [if_neg hid] at hshown
      exact hearlier hshown
  · exact (hs.knows j call (call_of_close hcall)).checked hs.shape hkeeps rfl rfl rfl hsame

theorem sound_insert {config : Configuration} {id : ConnectionId} {createdAt now nonce : Nat}
    (hs : s.Sound managed) (hnone : s.settingsRows = []) (hnew : id ∉ s.rows.map (·.id)) :
    ControlWorld.Sound { s.close i with
      rows := s.rows ++ [(blank id createdAt).apply provider config now nonce]
      generation := s.generation + 1 } managed := by
  have hunmade (row : Connection) (hrow : row ∈ s.rows) : ¬row.viaControl = true := fun hvia => by
    have hmem := mem_settingsRows.2 ⟨hrow, hvia⟩
    rw [hnone] at hmem
    cases hmem
  have hcases (row : Connection) (hvia : row.viaControl = true)
      (hrow : row ∈ s.rows ++ [(blank id createdAt).apply provider config now nonce]) :
      row = (blank id createdAt).apply provider config now nonce := by
    rcases List.mem_append.1 hrow with hold | hrow
    · exact absurd hvia (hunmade row hold)
    · exact List.mem_singleton.1 hrow
  refine ⟨⟨?_, ?_, ?_, ?_⟩, ?_, fun j call hcall => ?_⟩
  · rw [List.map_append, List.map_singleton]
    refine List.nodup_append.2 ⟨hs.shape.ids, List.pairwise_singleton _ _, fun old hold _ hid => ?_⟩
    rw [List.mem_singleton.1 hid]
    exact fun hsame : old = id => hnew (hsame ▸ hold)
  · intro row hrow hvia other hother hotherVia
    rw [hcases row hvia hrow, hcases other hotherVia hother]
  · intro other hmanaged
    rw [List.map_append]
    exact List.mem_append_left _ (hs.shape.managed_mem other hmanaged)
  · intro row hrow hvia hmanaged
    rw [hcases row hvia hrow] at hmanaged
    exact hnew (hs.shape.managed_mem id hmanaged)
  · intro row hrow hvia hshown
    rw [hcases row hvia hrow] at hshown
    rcases hshown with hstatus | hpassed
    · cases hstatus
    · cases hpassed
  · exact (hs.knows j call (call_of_close hcall)).behind (f := fun row => row)
      ⟨fun _ _ => rfl, fun _ _ => rfl⟩ (fun _ hrow => List.mem_append_left _ hrow) rfl rfl

end promotion

section step

variable {s t : ControlWorld} {managed : Option ConnectionId} {provider : Provider} {i : CallId}

/-- A probe that succeeds with a credential is on record. -/
theorem knows_probe {loaded : Connection} {checkedAt g : Nat}
    {answer : Except ProbeError ProbeResult} (hs : s.Sound managed)
    (hloaded : Loaded s loaded (some g)) :
    (ControlCall.checked loaded checkedAt g (probeConnection provider managed loaded answer)).Knows
      { s with probes :=
          probeOf managed loaded g (probeConnection provider managed loaded answer) ++ s.probes } := by
  refine ⟨hloaded.of_rows rfl rfl, fun hvia result hresult => ?_⟩
  obtain ⟨row, hrow, hid, hrowVia⟩ := hloaded.stored
  have hunmanaged : managed ≠ some loaded.id :=
    hid ▸ hs.shape.unmanaged row hrow (hrowVia.trans hvia)
  have htoken : loaded.encryptedAccessToken ≠ none := by
    intro hnone
    rw [probeConnection, if_neg hunmanaged, if_pos hnone] at hresult
    cases hresult
  obtain ⟨token, htoken⟩ := Option.ne_none_iff_exists'.1 htoken
  refine ⟨⟨loaded.id, token, loaded.baseUrl, loaded.accountEmail, g⟩, ?_, ⟨rfl, htoken, rfl, rfl⟩,
    rfl⟩
  rw [hresult, probeOf, if_neg hunmanaged, htoken]
  exact List.mem_append_left _ (List.mem_singleton_self _)

theorem sound_control_step (hs : s.Sound managed) {a : ControlAction}
    (ha : s.UpToDate provider a) (hstep : controlStep provider managed s a = some t) :
    t.Sound managed := by
  cases a with
  | apply i config id =>
    cases id with
    | none =>
      simp only [controlStep] at hstep
      split at hstep
      · cases hstep
        exact hs.put trivial
      · cases hstep
    | some id =>
      simp only [controlStep] at hstep
      split at hstep
      · obtain ⟨row, hrow, rfl⟩ := Option.map_eq_some_iff.1 hstep
        obtain ⟨hmem, hvia⟩ := settingsConnection_some hrow
        exact hs.put ⟨loaded_of_mem hmem (fun _ hg => nomatch hg) hs.shape, hvia⟩
      · cases hstep
  | commitApply i id createdAt now nonce =>
    simp only [controlStep] at hstep
    split at hstep
    · rename_i config hcall
      split at hstep
      · cases hstep
      · rename_i hunused
        cases hstep
        refine sound_insert hs (ha _ hcall) fun hmem => hunused ?_
        obtain ⟨row, hrow, hid⟩ := List.mem_map.1 hmem
        exact List.any_eq_true.2 ⟨row, hrow, decide_eq_true hid⟩
    · rename_i config loaded hcall
      cases hstep
      obtain ⟨hloaded, hvia⟩ := hs.knows i _ hcall
      exact sound_write hs hloaded hvia rfl (ha _ hcall) rfl rfl
    · cases hstep
  | disconnect i id =>
    simp only [controlStep] at hstep
    split at hstep
    · obtain ⟨row, hrow, rfl⟩ := Option.map_eq_some_iff.1 hstep
      obtain ⟨hmem, hvia⟩ := settingsConnection_some (Option.filter_eq_some_iff.1 hrow).1
      exact hs.put ⟨loaded_of_mem hmem (fun _ hg => nomatch hg) hs.shape, hvia⟩
    · cases hstep
  | commitDisconnect i now =>
    simp only [controlStep] at hstep
    split at hstep
    · rename_i loaded hcall
      cases hstep
      obtain ⟨hloaded, hvia⟩ := hs.knows i _ hcall
      exact sound_write hs hloaded hvia hvia (ha _ hcall) rfl rfl
    · cases hstep
  | readCheck i id checkedAt =>
    simp only [controlStep] at hstep
    split at hstep
    · obtain ⟨row, hrow, rfl⟩ := Option.map_eq_some_iff.1 hstep
      exact hs.put (loaded_of_mem (selectConnection_some hrow)
        (fun _ hg => (Option.some.inj hg).symm) hs.shape)
    · cases hstep
  | probe i answer =>
    simp only [controlStep] at hstep
    split at hstep
    · rename_i loaded checkedAt g hcall
      cases hstep
      refine hs.local_step i rfl rfl (fun probe hprobe => List.mem_append_right _ hprobe)
        (fun j hj => Function.update_of_ne hj ..) fun call hown => ?_
      obtain rfl : ControlCall.checked loaded checkedAt g
          (probeConnection provider managed loaded answer) = call := by
        simpa [ControlWorld.put] using hown
      exact (knows_probe hs (hs.knows i _ hcall)).of_rows rfl rfl fun _ h => h
    · cases hstep
  | commitCheck i =>
    simp only [controlStep] at hstep
    split at hstep
    · rename_i loaded checkedAt g outcome hcall
      cases hstep
      exact sound_check hs (hs.knows i _ hcall) (ha _ hcall)
    · cases hstep
  | fail i =>
    simp only [controlStep] at hstep
    split at hstep
    · cases hstep
    · cases hstep
      exact hs.close

/-- In a run whose requests commit up to date, a connection that is shown as connected or verified has
been probed as it is stored. -/
theorem verified_of_upToDate (rows : ProviderRows managed)
    (h : Reaches (controlStep provider managed) (ControlWorld.UpToDate provider) rows.world s) :
    s.Verified := by
  have hstart : rows.world.Sound managed := by
    have hnone (row : Connection) (hrow : row ∈ rows.rows) : ¬row.viaControl = true := by
      rw [rows.unmade row hrow]
      exact Bool.false_ne_true
    refine ⟨⟨rows.ids, ?_, rows.managed_mem, ?_⟩, ?_, fun _ _ hcall => nomatch hcall⟩
    · exact fun row hrow hvia => absurd hvia (hnone row hrow)
    · exact fun row hrow hvia => absurd hvia (hnone row hrow)
    · exact fun row hrow hvia => absurd hvia (hnone row hrow)
  have hs : s.Sound managed := h.invariant (P := fun s => s.Sound managed)
    (fun _ _ _ hs ha hstep => sound_control_step hs ha hstep) hstart
  exact hs.verified

end step

def noRows : ProviderRows none := ⟨[], List.nodup_nil, (fun _ h => nomatch h), (fun _ h => nomatch h)⟩

def jiraConfiguration : Configuration where
  authMethod := Str.of "jira_cloud_api_token"
  accessToken := Str.of "token"
  displayName := none
  accountEmail := some (Str.of "ann@acme.com")
  scopes := []
  baseUrl := some (Str.of "https://acme.atlassian.net")

/-- A configuration is committed, and a check of it has its answer. -/
def checkedJira : List ControlAction :=
  [.apply 0 jiraConfiguration none, .commitApply 0 1 10 10 5, .readCheck 1 1 20,
    .probe 1 (.ok ⟨some (Str.of "Ann"), [], none⟩)]

theorem verified_of_upToDate_jira :
    ∃ s, Reaches (controlStep .jira none) (ControlWorld.UpToDate .jira) noRows.world s ∧
      (∃ row ∈ s.rows, row.viaControl = true ∧ row.Shown) ∧ s.Verified := by
  have hrun : (exec (restrict (controlStep .jira none) (ControlWorld.UpToDate .jira)) noRows.world
      (checkedJira ++ [.commitCheck 1])).map (fun s => s.rows.any fun row =>
        row.viaControl ∧ row.status = .connected) = some true := by
    decide +kernel
  obtain ⟨s, hexec, hrow⟩ := Option.map_eq_some_iff.1 hrun
  have hs := reaches_of_exec_restrict hexec
  obtain ⟨row, hmem, hrow⟩ := List.any_eq_true.1 hrow
  obtain ⟨hvia, hstatus⟩ := of_decide_eq_true hrow
  exact ⟨s, hs, ⟨row, hmem, hvia, .inl hstatus⟩, verified_of_upToDate noRows hs⟩

/-- The credential is removed while the check waits for its answer, and the check then shows the
connection as connected and verified. -/
theorem removed_credential_shown :
    ∃ s, Reaches (controlStep .jira none) anyStep noRows.world s ∧
      (∃ row ∈ s.rows, row.viaControl = true ∧ row.encryptedAccessToken = none ∧
        row.status = .connected ∧ row.passed = true) ∧ ¬s.Verified := by
  have hrun : (exec (controlStep .jira none) noRows.world
      (checkedJira ++ [.disconnect 2 1, .commitDisconnect 2 30, .commitCheck 1])).map
      (fun s => s.rows.any fun row => row.viaControl ∧ row.encryptedAccessToken = none ∧
        row.status = .connected ∧ row.passed) = some true := by
    decide +kernel
  obtain ⟨s, hs, hrow⟩ := reaches_of_exec_check hrun
  obtain ⟨row, hmem, hrow⟩ := List.any_eq_true.1 hrow
  obtain ⟨hvia, htoken, hstatus, hpassed⟩ := of_decide_eq_true hrow
  refine ⟨s, hs, ⟨row, hmem, hvia, htoken, hstatus, hpassed⟩, fun hverified => ?_⟩
  obtain ⟨probe, -, hmatches, -⟩ := hverified row hmem hvia (.inl hstatus)
  cases htoken.symm.trans hmatches.token

end FounderOs.ConnectorControl
