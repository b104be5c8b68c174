import FounderOs.Connectors.Imports

namespace FounderOs.Connectors

open Headquarters Proposals LastWrite

section accepted

variable {D : Type} (platform : Platform D)

/-- The entries that normalize, unless one raises. -/
def accepted (provider : Provider) : List Object → Except NormalizeError (List Object)
  | [] => .ok []
  | entry :: entries =>
    match buildNormalized platform provider entry with
    | .ok normalized => (accepted provider entries).map (normalized :: ·)
    | .error (.skipped _) => accepted provider entries
    | .error .raised => .error .raised

def upserts (connections : List (Provider × Uuid)) (request : ImportRequest) : List Upsert :=
  if request.commits && request.connectionId.all (fun id =>
      connections.contains (request.provider, id)) then
    match accepted platform request.provider request.entries with
    | .ok normalized => normalized.map
      (⟨request.provider, request.connectionId, request.observedAt, ·⟩)
    | .error _ => []
  else []

def snapshotsOf (provider : Provider) (writes : List Upsert) : List Object :=
  (writes.filter fun u => u.provider = provider).map (·.normalized)

def ofObject (provider : Provider) (object : Str) (snapshots : List Object) : List Object :=
  snapshots.filter fun snapshot => externalId provider snapshot = object

/-- The snapshots of a provider that the requests have imported, in their order. -/
def imported (connections : List (Provider × Uuid)) (requests : List ImportRequest)
    (provider : Provider) : List Object :=
  snapshotsOf provider (requests.flatMap (upserts platform connections))

/-- The columns of a source record that come from the snapshot. -/
def SourceRecord.content (row : SourceRecord) : String × Option Str × Value × Str × Option Int :=
  (row.recordType, row.sourceUrl, row.payload, row.payloadHash, row.sourceUpdatedAt)

def contentOf (provider : Provider) (normalized : Object) :
    String × Option Str × Value × Str × Option Int :=
  (sourceRecordOf platform provider none 0 normalized).content

/-- The source record of the object, and the task of a Jira issue, show the snapshot. -/
structure Carries (provider : Provider) (store : ConnectorStore) (snapshot : Object) : Prop where
  record : (store.sourceRecords (provider, externalId provider snapshot)).map
    SourceRecord.content = some (contentOf platform provider snapshot)
  task : provider = .jira →
    store.tasks (externalId .jira snapshot) = some (taskOf platform snapshot)

/-- The snapshot is the newest of its object among those, by the update times of the provider, which
are there and are distinct. -/
def Newest (provider : Provider) (snapshots : List Object) (newest : Object) : Prop :=
  newest ∈ snapshots ∧ ∀ other ∈ snapshots,
    externalId provider other = externalId provider newest → other ≠ newest →
      ∃ earlier latest, providerUpdateTime platform provider other = some earlier ∧
        providerUpdateTime platform provider newest = some latest ∧ earlier < latest

end accepted

section fold

variable {D : Type} {platform : Platform D} {store : ConnectorStore} {request : ImportRequest}
  {requests : List ImportRequest} {provider : Provider} {entries : List Object}

def Upsert.key (u : Upsert) : Provider × Str := (u.provider, externalId u.provider u.normalized)

def Upsert.row (platform : Platform D) (u : Upsert) : SourceRecord :=
  sourceRecordOf platform u.provider u.connectionId u.observedAt u.normalized

theorem importEntries_eq :
    importEntries platform request entries store =
      (accepted platform request.provider entries).map fun normalized =>
        (normalized.map fun n => (⟨request.provider, request.connectionId, request.observedAt, n⟩ :
          Upsert)).foldl (fun s u => s.upsert platform u) store := by
  induction entries generalizing store with
  | nil => rfl
  | cons entry entries ih =>
    rw [importEntries, accepted]
    cases h : buildNormalized platform request.provider entry with
    | ok normalized =>
      simp only [ih]
      cases accepted platform request.provider entries <;> rfl
    | error e =>
      cases e with
      | skipped detail => exact ih
      | raised => rfl

theorem importLocal_eq :
    importLocal platform store request =
      (upserts platform store.connections request).foldl (fun s u => s.upsert platform u) store := by
  unfold importLocal upserts
  split
  · rw [importEntries_eq]
    cases accepted platform request.provider request.entries <;> rfl
  · rfl

theorem foldl_upsert_connections (writes : List Upsert) :
    (writes.foldl (fun s u => s.upsert platform u) store).connections = store.connections := by
  induction writes generalizing store with
  | nil => rfl
  | cons u writes ih => exact ih

theorem importAll_eq :
    importAll platform store requests =
      (requests.flatMap (upserts platform store.connections)).foldl
        (fun s u => s.upsert platform u) store := by
  induction requests generalizing store with
  | nil => rfl
  | cons request requests ih =>
    rw [importAll, List.foldl_cons, ← importAll, ih, importLocal_eq, foldl_upsert_connections,
      List.flatMap_cons, List.foldl_append]

theorem foldl_upsert_records (writes : List Upsert) :
    (writes.foldl (fun s u => s.upsert platform u) store).sourceRecords =
      writeAll Upsert.key (Upsert.row platform) store.sourceRecords writes := by
  induction writes generalizing store with
  | nil => rfl
  | cons u writes ih => exact ih

theorem foldl_upsert_tasks (writes : List Upsert) :
    (writes.foldl (fun s u => s.upsert platform u) store).tasks =
      writeAll (fun u => taskExternalId u.normalized) (fun u => taskOf platform u.normalized)
        store.tasks (writes.filter fun u => u.provider = .jira) := by
  induction writes generalizing store with
  | nil => rfl
  | cons u writes ih =>
    rw [List.foldl_cons, ih, List.filter_cons]
    by_cases hjira : u.provider = .jira
    · simp [hjira, ConnectorStore.upsert, writeAll]
    · simp [hjira, ConnectorStore.upsert]

theorem mem_accepted {normalized : Object} {result : List Object}
    (h : accepted platform provider entries = .ok result) (hmem : normalized ∈ result) :
    ∃ entry, buildNormalized platform provider entry = .ok normalized := by
  induction entries generalizing result with
  | nil =>
    cases h
    cases hmem
  | cons entry entries ih =>
    rw [accepted] at h
    cases hbuild : buildNormalized platform provider entry with
    | ok built =>
      simp only [hbuild] at h
      obtain ⟨rest, hrest, rfl⟩ := map_eq_ok h
      rcases List.mem_cons.1 hmem with rfl | hmem
      · exact ⟨entry, hbuild⟩
      · exact ih hrest hmem
    | error e =>
      cases e with
      | skipped detail =>
        simp only [hbuild] at h
        exact ih h hmem
      | raised =>
        simp only [hbuild] at h
        cases h

theorem mem_upserts {connections : List (Provider × Uuid)} {u : Upsert}
    (h : u ∈ upserts platform connections request) :
    ∃ entry, buildNormalized platform u.provider entry = .ok u.normalized := by
  unfold upserts at h
  split at h
  · split at h
    · rename_i result hresult
      obtain ⟨normalized, hmem, rfl⟩ := List.mem_map.1 h
      exact mem_accepted hresult hmem
    · cases h
  · cases h

end fold

section external

variable {D : Type} {platform : Platform D} {fields record normalized : Object} {key : String}

theorem sanitizePayload_null : sanitizePayload platform .null = .null := by
  rw [sanitizePayload.eq_4] <;> simp

theorem get_cons (name : Str) (value : Value) (fields : Object) (key : String) :
    Proposals.get ((name, value) :: fields) key =
      if name = Str.of key then value else Proposals.get fields key := by
  unfold Proposals.get
  rw [Dict.get_cons]
  split <;> rfl

theorem get_sanitizeFields (hkey : metadataKeyIsSensitive platform (Str.of key) = false) :
    Proposals.get (sanitizeFields platform fields) key =
      sanitizePayload platform (Proposals.get fields key) := by
  induction fields with
  | nil => exact sanitizePayload_null.symm
  | cons field fields ih =>
    obtain ⟨name, value⟩ := field
    rw [sanitizeFields, get_cons]
    by_cases hname : name = Str.of key
    · subst hname
      rw [hkey, if_neg Bool.false_ne_true, get_cons, if_pos rfl, if_pos rfl]
    · rw [if_neg hname, ← ih]
      split
      · rfl
      · rw [get_cons, if_neg hname]

theorem strip_ne_nil {c : Nat} {text : Str} (h : Str.isSpace c = false) :
    Str.strip (c :: text) ≠ [] := by
  rw [Str.strip, List.dropWhile_cons_of_neg (by simp [h])]
  intro hnil
  have hall := List.rdropWhile_eq_nil_iff.1 hnil c List.mem_cons_self
  rw [h] at hall
  cases hall

theorem isJiraKey_head {text : Str} (h : isJiraKey platform text = true) :
    ∃ c rest, text = c :: rest ∧ 32 < c ∧ c < 127 := by
  unfold isJiraKey at h
  dsimp only at h
  split at h
  · rename_i project number hparts
    simp only [Bool.and_eq_true, Option.any_eq_true] at h
    obtain ⟨c, hhead, hlower, hupper⟩ := h.1.1.1.1
    obtain ⟨rest, rfl⟩ := List.head?_eq_some_iff.1 hhead
    have htext : [45].intercalate (text.splitOn 45) = text := List.intercalate_splitOn 45
    rw [hparts, List.intercalate_cons_cons] at htext
    simp only [decide_eq_true_eq] at hlower hupper
    exact ⟨c, _, htext.symm, by omega, by omega⟩
  · cases h

theorem jira_external (h : buildNormalizedJiraIssue platform record = .ok normalized) :
    ∃ text, safeText 255 (Proposals.get normalized "external_id") = some text := by
  unfold buildNormalizedJiraIssue at h
  dsimp only at h
  split at h
  · cases h
  rename_i key hkey
  obtain rfl := Except.ok.inj h
  have hname : metadataKeyIsSensitive platform (Str.of "external_id") = false := by rfl
  obtain ⟨hread, hformed⟩ := Option.filter_eq_some_iff.1 hkey
  obtain ⟨c, rest, rfl, hlower, hupper⟩ := isJiraKey_head hformed
  have hnonblank : Str.strip ((c :: rest).take 1000) ≠ [] :=
    strip_ne_nil (Str.isSpace_printable c hupper hlower)
  refine ⟨(Str.strip ((c :: rest).take 1000)).take 255, ?_⟩
  rw [get_sanitizeFields hname]
  have hvalue {entry : Value} (hentry : entry = .str (c :: rest)) :
      safeText 255 (sanitizePayload platform entry) =
        some ((Str.strip ((c :: rest).take 1000)).take 255) := by
    rw [hentry, sanitizePayload, safeText, if_neg hnonblank]
  exact hvalue rfl

theorem taskExternalId_eq (h : buildNormalizedJiraIssue platform record = .ok normalized) :
    taskExternalId normalized = externalId .jira normalized := by
  obtain ⟨text, htext⟩ := jira_external h
  rw [taskExternalId, externalId, htext]
  rfl

end external

section convergence

variable {D : Type} {platform : Platform D} {store : ConnectorStore}
  {requests : List ImportRequest} {provider : Provider} {writes : List Upsert} {newest : Object}

theorem ofObject_eq (object : Str) :
    ofObject provider object (snapshotsOf provider writes) =
      (writesTo Upsert.key (provider, object) writes).map (·.normalized) := by
  rw [ofObject, snapshotsOf, List.filter_map, List.filter_filter, writesTo]
  refine congrArg _ (List.filter_congr fun u _ => ?_)
  rw [Bool.eq_iff_iff]
  simp only [Function.comp, Bool.and_eq_true, decide_eq_true_eq, Upsert.key, Prod.mk.injEq]
  constructor
  · rintro ⟨hid, rfl⟩
    exact ⟨rfl, hid⟩
  · rintro ⟨rfl, hid⟩
    exact ⟨hid, rfl⟩

/-- The last snapshot of an object is the one that its source record shows. -/
theorem record_of_last {object : Str} {last : Object}
    (h : (ofObject provider object (snapshotsOf provider writes)).getLast? = some last) :
    ((writes.foldl (fun s u => s.upsert platform u) store).sourceRecords
      (provider, object)).map SourceRecord.content = some (contentOf platform provider last) := by
  rw [ofObject_eq, List.getLast?_map] at h
  obtain ⟨u, hu, rfl⟩ := Option.map_eq_some_iff.1 h
  have hkey : u.key = (provider, object) :=
    of_decide_eq_true (List.mem_filter.1 (List.mem_of_getLast? hu)).2
  obtain ⟨rfl, -⟩ := Prod.mk.inj hkey
  rw [foldl_upsert_records, writeAll_last hu]
  rfl

theorem task_of_last {object : Str} {last : Object}
    (hbuilt : ∀ u ∈ writes, u.provider = .jira →
      taskExternalId u.normalized = externalId .jira u.normalized)
    (h : (ofObject .jira object (snapshotsOf .jira writes)).getLast? = some last) :
    (writes.foldl (fun s u => s.upsert platform u) store).tasks object =
      some (taskOf platform last) := by
  rw [ofObject_eq, List.getLast?_map] at h
  obtain ⟨u, hu, rfl⟩ := Option.map_eq_some_iff.1 h
  have hsame : writesTo (fun u => taskExternalId u.normalized) object
      (writes.filter fun u => u.provider = .jira) = writesTo Upsert.key (.jira, object) writes := by
    rw [writesTo, writesTo, List.filter_filter]
    refine List.filter_congr fun w hw => ?_
    rw [Bool.eq_iff_iff]
    simp only [Bool.and_eq_true, decide_eq_true_eq, Upsert.key, Prod.mk.injEq]
    constructor
    · rintro ⟨hid, hjira⟩
      exact ⟨hjira, hjira ▸ (hbuilt w hw hjira).symm.trans hid⟩
    · rintro ⟨hjira, hid⟩
      exact ⟨(hbuilt w hw hjira).trans (hjira ▸ hid), hjira⟩
  rw [foldl_upsert_tasks, writeAll_last (hsame ▸ hu)]

theorem not_carries {older : Object}
    (hlast : (ofObject provider (externalId provider newest)
      (snapshotsOf provider writes)).getLast? = some older)
    (htime : providerUpdateTime platform provider older ≠
      providerUpdateTime platform provider newest) :
    ¬Carries platform provider (writes.foldl (fun s u => s.upsert platform u) store) newest := by
  intro h
  have hsame := (record_of_last hlast).symm.trans h.record
  exact htime (congrArg (·.2.2.2.2) (Option.some.inj hsame))

theorem import_converges_iff (platform : Platform D) (store : ConnectorStore)
    (requests : List ImportRequest) (provider : Provider) {newest : Object}
    (h : Newest platform provider
      (imported platform store.connections requests provider) newest) :
    Carries platform provider (importAll platform store requests) newest ↔
      (ofObject provider (externalId provider newest)
        (imported platform store.connections requests provider)).getLast? = some newest := by
  obtain ⟨hmem, hnewest⟩ := h
  rw [importAll_eq]
  have hbuilt : ∀ u ∈ requests.flatMap (upserts platform store.connections), u.provider = .jira →
      taskExternalId u.normalized = externalId .jira u.normalized := by
    intro u hu hjira
    obtain ⟨request, -, hrequest⟩ := List.mem_flatMap.1 hu
    obtain ⟨entry, hentry⟩ := mem_upserts hrequest
    rw [hjira] at hentry
    exact taskExternalId_eq hentry
  constructor
  · intro hcarries
    obtain ⟨last, hlast⟩ : ∃ last, (ofObject provider (externalId provider newest)
        (imported platform store.connections requests provider)).getLast? = some last := by
      refine Option.ne_none_iff_exists'.1 fun hnone => ?_
      have hin : newest ∈ ofObject provider (externalId provider newest)
          (imported platform store.connections requests provider) :=
        List.mem_filter.2 ⟨hmem, decide_eq_true rfl⟩
      rw [List.getLast?_eq_none_iff.1 hnone] at hin
      cases hin
    obtain ⟨hlastmem, hobject⟩ := List.mem_filter.1 (List.mem_of_getLast? hlast)
    by_contra hother
    have hne : last ≠ newest := fun heq => hother (heq ▸ hlast)
    obtain ⟨earlier, latest, hearlier, hlatest, hlt⟩ :=
      hnewest last hlastmem (of_decide_eq_true hobject) hne
    refine not_carries hlast ?_ hcarries
    rw [hearlier, hlatest]
    exact fun heq => absurd (Option.some.inj heq) (Int.ne_of_lt hlt)
  · intro hlast
    refine ⟨record_of_last hlast, ?_⟩
    rintro rfl
    exact task_of_last hbuilt hlast

end convergence

section sample

def tenOClock : Str := Str.of "2026-07-06T10:00:00+00:00"
def elevenOClock : Str := Str.of "2026-07-06T11:00:00+00:00"

/-- A platform that reads these two times. -/
def samplePlatform : Platform Str where
  foldTable c := [c]
  upperTable c := [c]
  isDecimal _ := false
  fromIsoformat text := if text = tenOClock ∨ text = elevenOClock then some text else none
  isoformat text := text
  instant text := if text = tenOClock then 1783332000000000 else 1783335600000000
  dateFromIsoformat _ := none
  dateIsoformat _ := []
  isDigit _ := false
  intText _ := none
  payloadHash _ := []

/-- One object for the three connectors, as it is at a time. -/
def sampleEntry (time : Str) : Object :=
  [(Str.of "key", .str (Str.of "OPS-1")), (Str.of "id", .str (Str.of "OPS-1")),
    (Str.of "updated", .str time), (Str.of "received_at", .str time)]

def sampleImport (provider : Provider) (time : Str) : ImportRequest :=
  ⟨provider, none, 0, [sampleEntry time], true⟩

def sampleSnapshot (provider : Provider) (time : Str) : Object :=
  (buildNormalized samplePlatform provider (sampleEntry time)).toOption.getD []

def emptyConnectors : ConnectorStore := ⟨[], fun _ => none, fun _ => none⟩

def sampleImports (provider : Provider) (times : List Str) : List ImportRequest :=
  times.map (sampleImport provider)

theorem sample_imported (provider : Provider) :
    imported samplePlatform [] (sampleImports provider [elevenOClock, tenOClock]) provider =
      [sampleSnapshot provider elevenOClock, sampleSnapshot provider tenOClock] := by
  cases provider <;> rfl

theorem sample_newest (provider : Provider) {snapshots : List Object}
    (h : ∀ snapshot, snapshot ∈ snapshots ↔ snapshot = sampleSnapshot provider elevenOClock ∨
      snapshot = sampleSnapshot provider tenOClock) :
    Newest samplePlatform provider snapshots (sampleSnapshot provider elevenOClock) := by
  refine ⟨(h _).2 (.inl rfl), fun other hother _ hne => ?_⟩
  obtain rfl := ((h other).1 hother).resolve_left hne
  refine ⟨1783332000000000, 1783335600000000, ?_, ?_, by decide⟩
  · cases provider <;> decide +kernel
  · cases provider <;> decide +kernel

theorem import_converges_iff_in_order :
    Carries samplePlatform .jira
      (importAll samplePlatform emptyConnectors (sampleImports .jira [tenOClock, elevenOClock]))
      (sampleSnapshot .jira elevenOClock) := by
  have himported : imported samplePlatform emptyConnectors.connections
      (sampleImports .jira [tenOClock, elevenOClock]) .jira =
        [sampleSnapshot .jira tenOClock, sampleSnapshot .jira elevenOClock] := rfl
  have hnewest : Newest samplePlatform .jira (imported samplePlatform emptyConnectors.connections
      (sampleImports .jira [tenOClock, elevenOClock]) .jira)
        (sampleSnapshot .jira elevenOClock) := by
    refine sample_newest .jira fun snapshot => ?_
    rw [himported, List.mem_pair, or_comm]
  exact (import_converges_iff samplePlatform emptyConnectors _ .jira hnewest).2 rfl

theorem older_import_overwrites :
    ¬∃ provider, ∀ requests newest,
      Newest samplePlatform provider (imported samplePlatform emptyConnectors.connections requests
        provider) newest →
        Carries samplePlatform provider (importAll samplePlatform emptyConnectors requests)
          newest := by
  rintro ⟨provider, hconverges⟩
  refine absurd (hconverges (sampleImports provider [elevenOClock, tenOClock])
    (sampleSnapshot provider elevenOClock) (sample_newest provider fun snapshot => ?_)) ?_
  · rw [emptyConnectors, sample_imported, List.mem_pair]
  · have hlast : (ofObject provider (externalId provider (sampleSnapshot provider elevenOClock))
        [sampleSnapshot provider elevenOClock, sampleSnapshot provider tenOClock]).getLast? =
          some (sampleSnapshot provider tenOClock) := by
      cases provider <;> rfl
    rw [← sample_imported provider] at hlast
    rw [importAll_eq]
    refine not_carries hlast ?_
    cases provider <;> decide +kernel

end sample

end FounderOs.Connectors
