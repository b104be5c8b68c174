import FounderOs.RepositoryAudit.LevelZero

namespace FounderOs.RepositoryAudit

open Headquarters Proposals Connectors

/-- No space in the text is another than the blank. -/
def blankOnly (text : Str) : Bool := !text.any fun c => Str.isSpace c && c != 32

section text

variable {text : Str} {least most limit : Nat} {value : Value}

theorem safe_iff : safe text = true ↔ Str.strip text = text ∧ ∀ c ∈ text, isControl c = false := by
  simp [safe]

theorem strictText_eq_some (hne : text ≠ []) (hsafe : safe text = true)
    (hblank : blankOnly text = true) : strictText (.str text) = some text := by
  obtain ⟨hstrip, hcontrol⟩ := safe_iff.1 hsafe
  have hspaces : (text.any fun c => Str.isSpace c && c != 32) = false := by
    simpa [blankOnly] using hblank
  have hcontrols : (text.any fun c => c < 32 || c == 127) = false :=
    List.any_eq_false.2 fun c hc => by simpa [isControl] using hcontrol c hc
  rw [strictText, Field.asStr, Option.bind_some, if_neg (not_or.2 ⟨hne, not_not.2 hstrip.symm⟩),
    hspaces, hcontrols]
  rfl

theorem blankOnly_of_strictText (h : (strictText (.str text)).isSome = true) :
    blankOnly text = true := by
  simp only [strictText, Field.asStr, Option.bind_some] at h
  split at h
  · cases h
  split at h
  · cases h
  rename_i hspaces
  simpa [blankOnly] using hspaces

theorem safe_of_graphic (h : ∀ c ∈ text, 32 < c ∧ c < 127) : safe text = true := by
  refine safe_iff.2 ⟨Str.strip_eq_self fun c hc => ?_, fun c hc => ?_⟩
  · exact Str.isSpace_printable c (h c hc).2 (h c hc).1
  · have hc := h c hc
    simp only [isControl, Bool.or_eq_false_iff, decide_eq_false_iff_not, beq_eq_false_iff_ne]
    omega

theorem blankOnly_of_graphic (h : ∀ c ∈ text, 32 < c ∧ c < 127) : blankOnly text = true := by
  have hspaces : (text.any fun c => Str.isSpace c && c != 32) = false :=
    List.any_eq_false.2 fun c hc => by
      simp [Str.isSpace_printable c (h c hc).2 (h c hc).1]
  rw [blankOnly, hspaces]
  rfl

/-- A text of ASCII that neither begins nor ends with a blank. -/
def plain (text : Str) : Bool :=
  (text.all fun c => 32 ≤ c && c < 127) && text.head?.all (· != 32) && text.getLast?.all (· != 32)

theorem safe_of_plain (h : plain text = true) : safe text = true := by
  simp only [plain, Bool.and_eq_true, List.all_eq_true, decide_eq_true_eq] at h
  obtain ⟨⟨hascii, hhead⟩, hlast⟩ := h
  have hspace {c : Nat} (hc : c ∈ text) (hne : (c != 32) = true) : Str.isSpace c = false := by
    have hrange := hascii c hc
    have hblank : c ≠ 32 := by simpa using hne
    exact Str.isSpace_printable c hrange.2 (by omega)
  refine safe_iff.2 ⟨?_, fun c hc => ?_⟩
  · have hdrop : text.dropWhile Str.isSpace = text := by
      cases text with
      | nil => rfl
      | cons c rest =>
        exact List.dropWhile_cons_of_neg (by simp [hspace List.mem_cons_self hhead])
    rw [Str.strip, hdrop, List.rdropWhile_eq_self_iff]
    intro hne
    rw [List.getLast?_eq_getLast_of_ne_nil hne] at hlast
    simp [hspace (List.getLast_mem hne) hlast]
  · have hrange := hascii c hc
    simp only [isControl, Bool.or_eq_false_iff, decide_eq_false_iff_not, beq_eq_false_iff_ne]
    omega

theorem l0SafeText_spec (h : l0SafeText limit value = some text) :
    text ≠ [] ∧ text.length ≤ limit ∧ safe text = true := by
  cases value with
  | str whole =>
    simp only [l0SafeText] at h
    split at h
    · cases h
    split at h
    · cases h
    rename_i hlength hcontrol
    cases h
    obtain ⟨hne, hle⟩ := not_or.1 hlength
    refine ⟨hne, Nat.not_lt.1 hle, safe_iff.2 ⟨Str.strip_strip whole, ?_⟩⟩
    simpa using hcontrol
  | _ => cases h

theorem lengthWithin_of (hne : text ≠ []) (hle : text.length ≤ limit) :
    lengthWithin 1 limit text = true := by
  simp only [lengthWithin, Bool.and_eq_true, decide_eq_true_eq]
  exact ⟨List.length_pos_iff.2 hne, hle⟩

theorem nameChar_graphic {c : Nat} (h : nameChar c = true) : 32 < c ∧ c < 127 := by
  simp only [nameChar, isLower, isUpper, isDigit, Bool.or_eq_true, Bool.and_eq_true,
    decide_eq_true_eq] at h
  omega

theorem namePart_graphic {part : Str} (h : namePart part = true) {c : Nat} (hc : c ∈ part) :
    32 < c ∧ c < 127 := by
  simp only [namePart, Bool.and_eq_true, List.all_eq_true, Bool.or_eq_true, beq_iff_eq] at h
  cases part with
  | nil => cases hc
  | cons first rest =>
    rcases List.mem_cons.1 hc with rfl | hc
    · exact nameChar_graphic (by simpa using h.1.1)
    · rcases h.2 c hc with ((hname | rfl) | rfl) | rfl
      · exact nameChar_graphic hname
      · decide
      · decide
      · decide

theorem gitHubFullName_graphic (h : gitHubFullName text = true) : ∀ c ∈ text, 32 < c ∧ c < 127 := by
  simp only [gitHubFullName, Bool.and_eq_true, List.all_eq_true] at h
  have hparts := Text.forall_intercalate (P := fun c => 32 < c ∧ c < 127) (a := 47) (by decide)
    fun part hpart c hc => namePart_graphic (h.2 part hpart) hc
  rwa [List.intercalate_splitOn] at hparts

theorem uuid_strict (id : Uuid) : strictText (.str id.text) = some id.text := by
  have hgraphic := uuid_graphic id
  refine strictText_eq_some ?_ (safe_of_graphic hgraphic) (blankOnly_of_graphic hgraphic)
  exact List.ne_nil_of_length_pos (uuid_length id ▸ Nat.zero_lt_succ 35)

theorem safe_append {head : Str} (hhead : ∀ c ∈ head, 32 < c ∧ c < 127) (hne : head ≠ [])
    (htext : text ≠ []) (h : safe text = true) : safe (head ++ text) = true := by
  obtain ⟨hstrip, hcontrol⟩ := safe_iff.1 h
  obtain ⟨hsame, hclean⟩ := safe_iff.1 (safe_of_graphic hhead)
  refine safe_iff.2 ⟨?_, fun c hc => (List.mem_append.1 hc).elim (hclean c) (hcontrol c)⟩
  have hlast : Str.isSpace (text.getLast htext) = false := by
    have hkept : (text.dropWhile Str.isSpace).rdropWhile Str.isSpace = text := hstrip
    have hnot := List.rdropWhile_last_not Str.isSpace (text.dropWhile Str.isSpace)
      (hkept.symm ▸ htext)
    simpa [hkept] using hnot
  have hdrop : (head ++ text).dropWhile Str.isSpace = head ++ text := by
    cases head with
    | nil => exact absurd rfl hne
    | cons c rest =>
      have hc := hhead c List.mem_cons_self
      exact List.dropWhile_cons_of_neg (by simp [Str.isSpace_printable c hc.2 hc.1])
  rw [Str.strip, hdrop, List.rdropWhile_eq_self_iff]
  intro _
  rw [List.getLast_append_of_ne_nil _ htext, hlast]
  exact Bool.false_ne_true

end text

section payload

variable {Digest : Type} {rules : L0Rules Digest} {repository : CanonicalRepository}
  {record : CanonicalRecord} {url : Option Str} {text : Str} {workspaceId : Uuid}
  {context : Option SourceContext}

theorem safeHttpUrl_spec (h : safeHttpUrl rules url = some text) :
    lengthWithin 1 1000 text = true ∧ safe text = true ∧
      actionEvidenceUrlIsSafe rules.toEvidenceRules (.str text) = true := by
  obtain ⟨hread, hplain⟩ := Option.filter_eq_some_iff.1 h
  obtain ⟨hne, hlength, hsafe⟩ := l0SafeText_spec hread
  simp only [Bool.and_eq_true, Bool.not_eq_true'] at hplain
  obtain ⟨⟨⟨hslash, hspaces⟩, hhttp⟩, -⟩ := hplain
  have hblank : blankOnly text = true := by
    refine Bool.not_eq_true' _ ▸ List.any_eq_false.2 fun c hc => ?_
    simp [List.any_eq_false.1 hspaces c hc]
  refine ⟨lengthWithin_of hne hlength, hsafe, ?_⟩
  rw [actionEvidenceUrlIsSafe, strictText_eq_some hne hsafe hblank, Option.any_some, hslash, hspaces,
    hhttp]
  simp only [Bool.not_false, Bool.and_true]
  exact decide_eq_true hlength

theorem repositoryRef_safe (hne : repository.externalId ≠ [])
    (h : safe repository.externalId = true) : safe (repositoryRef repository) = true :=
  safe_append (by decide) (by decide) hne h

theorem repositoryRef_text (h : shortText repository.externalId = true) :
    refText (repositoryRef repository) = true := by
  have hlength : (Str.of "repository:").length = 11 := by decide
  simp only [shortText, lengthWithin, Bool.and_eq_true, decide_eq_true_eq] at h
  simp only [refText, lengthWithin, repositoryRef, List.length_append, hlength, Bool.and_eq_true,
    decide_eq_true_eq]
  omega

theorem repositoryRef_blank :
    blankOnly (repositoryRef repository) = blankOnly repository.externalId := by
  have hhead : (Str.of "repository:").any (fun c => Str.isSpace c && c != 32) = false := by decide
  rw [blankOnly, blankOnly, repositoryRef, List.any_append, hhead, Bool.false_or]

/-- The fields of the evidence that a payload carries, and of the probe of its source URL. -/
def recordFields (recordId : Option Uuid) (ref : Str) (url : Option Str) : Fields :=
  [(Str.of "kind", .str (Str.of "repository_metadata")), (Str.of "source", .str (Str.of "github"))] ++
    (recordId.map fun id => (Str.of "source_record_id", Field.str id.text)).toList ++
    [(Str.of "ref", .str ref)] ++ (url.map fun text => (Str.of "url", Field.str text)).toList

theorem recordFields_read (recordId : Option Uuid) (ref : Str) (url : Option Str) :
    field (recordFields recordId ref url) "kind" = .str (Str.of "repository_metadata") ∧
      field (recordFields recordId ref url) "source" = .str (Str.of "github") ∧
      field (recordFields recordId ref url) "evidence_ref_id" = .null ∧
      field (recordFields recordId ref url) "source_record_id" =
        (recordId.map fun id => Field.str id.text).getD .null ∧
      field (recordFields recordId ref url) "record_id" = .null ∧
      field (recordFields recordId ref url) "ref" = .str ref ∧
      field (recordFields recordId ref url) "id" = .null ∧
      field (recordFields recordId ref url) "url" = (url.map Field.str).getD .null := by
  cases recordId <;> cases url <;> exact ⟨rfl, rfl, rfl, rfl, rfl, rfl, rfl, rfl⟩

theorem recordFields_schema_iff {recordId : Option Uuid} {ref : Str} {url : Option Str}
    (href : ref ≠ []) (hsafe : safe ref = true) (hlength : ref.length ≤ 500)
    (hurl : ∀ text, url = some text → actionEvidenceUrlIsSafe rules.toEvidenceRules (.str text) = true) :
    actionEvidenceRefMatchesSchema rules.toEvidenceRules (recordFields recordId ref url) = true ↔
      blankOnly ref = true := by
  obtain ⟨hkind, hsource, hevidence, hrecord, hrow, hrefs, hid, hurls⟩ :=
    recordFields_read recordId ref url
  have hallowed : (recordFields recordId ref url).all
      (fun f => decide (f.1 ∈ actionEvidenceAllowedKeys)) = true := by
    cases recordId <;> cases url <;> rfl
  have hkindText : (strictText (.str (Str.of "repository_metadata"))).any
      (fun kind => kind.length ≤ actionEvidenceKindMaxLength) = true := by decide
  have hsourceText : (strictText (.str (Str.of "github"))).any
      (fun source => source.length ≤ actionEvidenceSourceMaxLength) = true := by decide
  have hshort (id : Uuid) : id.text.length ≤ actionEvidenceSelectorMaxLength := by
    rw [uuid_length]
    decide
  have hurlValid : (field (recordFields recordId ref url) "url" = .null ||
      actionEvidenceUrlIsSafe rules.toEvidenceRules (field (recordFields recordId ref url) "url")) =
        true := by
    rw [hurls]
    cases url with
    | none => rfl
    | some text => simp [hurl text rfl]
  constructor
  · intro h
    refine blankOnly_of_strictText ?_
    simp only [actionEvidenceRefMatchesSchema, Bool.and_eq_true, List.all_eq_true] at h
    have hselected : strictText (.str ref) ∈ (selectorKeys.filter fun key =>
        field (recordFields recordId ref url) key ≠ .null).map
          fun key => strictText (field (recordFields recordId ref url) key) :=
      List.mem_map.2 ⟨"ref", List.mem_filter.2 ⟨by decide, by simp [hrefs]⟩, by rw [hrefs]⟩
    obtain ⟨text, htext, -⟩ := (Option.any_eq_true _ _).1 (h.1.1.2 _ hselected)
    rw [htext]
    rfl
  · intro hblank
    have hrefText := strictText_eq_some href hsafe hblank
    have hrefLength : ref.length ≤ actionEvidenceSelectorMaxLength := hlength
    simp only [actionEvidenceRefMatchesSchema, hallowed, hkind, hkindText, hsource, hsourceText,
      hurlValid, selectorKeys, uuidSelectorKeys]
    cases recordId <;>
      simp [hevidence, hrecord, hrow, hrefs, hid, uuid_strict, hrefText, hshort, hrefLength,
        rules.uuid_text]

theorem safeHttpUrl_all : (safeHttpUrl rules url).all (fun text =>
    lengthWithin 1 1000 text && safe text) = true := by
  cases h : safeHttpUrl rules url with
  | none => rfl
  | some text =>
    obtain ⟨hlength, hsafe, -⟩ := safeHttpUrl_spec h
    simp [hlength, hsafe]

theorem contextEvidence_valid_iff (hext : shortText repository.externalId = true)
    (hsafe : safe repository.externalId = true) :
    (contextEvidence rules repository record).valid rules.toEvidenceRules = true ↔
      blankOnly repository.externalId = true := by
  have hne : repository.externalId ≠ [] := by
    rintro hnil
    rw [hnil] at hext
    cases hext
  have hrefText := repositoryRef_text hext
  have hrefSafe := repositoryRef_safe hne hsafe
  have hmaterial : (contextEvidence rules repository record).material =
      recordFields (some record.id) (repositoryRef repository)
        (safeHttpUrl rules record.sourceUrl) := rfl
  have hlength : (repositoryRef repository).length ≤ 500 := by
    simp only [refText, lengthWithin, Bool.and_eq_true, decide_eq_true_eq] at hrefText
    exact hrefText.2
  have hrefNe : repositoryRef repository ≠ [] := List.append_ne_nil_of_right_ne_nil _ hne
  have hschema : actionEvidenceRefMatchesSchema rules.toEvidenceRules
      (recordFields (some record.id) (repositoryRef repository)
        (safeHttpUrl rules record.sourceUrl)) = true ↔
      blankOnly (repositoryRef repository) = true :=
    recordFields_schema_iff hrefNe hrefSafe hlength fun _ htext => (safeHttpUrl_spec htext).2.2
  rw [repositoryRef_blank, ← hmaterial] at hschema
  rw [← hschema, EvidenceRefV1.valid]
  simp only [contextEvidence, Option.all_some, Option.all_none, hrefText, hrefSafe, safeHttpUrl_all,
    Bool.and_self, Bool.true_and]

/-- Evidence is that of the identity of the row, whose id is then a short and safe text. -/
theorem sourceContext_spec {record : Option CanonicalRecord} {found : SourceContext}
    (h : sourceContext rules repository record = some found) :
    found.evidence = contextEvidence rules repository found.record ∧
      shortText repository.externalId = true ∧ safe repository.externalId = true := by
  obtain ⟨row, -, h⟩ := Option.bind_eq_some_iff.1 h
  split at h
  · simp only at h
    split at h
    · cases h
    rename_i hid
    split at h
    · cases h
    cases h
    obtain ⟨hne, hlength, hsafe⟩ := l0SafeText_spec (not_not.1 hid)
    exact ⟨rfl, lengthWithin_of hne hlength, hsafe⟩
  · cases h

theorem identity_valid_iff :
    RepositoryIdentity.valid rules.toEvidenceRules
        ⟨repository.externalId, repository.fullName,
          l0SafeText 255 (Connectors.optional repository.defaultBranch),
          safeHttpUrl rules repository.sourceUrl⟩ = true ↔
      (shortText repository.externalId = true ∧ safe repository.externalId = true) ∧
        lengthWithin 3 500 repository.fullName = true ∧ gitHubFullName repository.fullName = true := by
  have hbranch : (l0SafeText 255 (Connectors.optional repository.defaultBranch)).all
      (fun text => shortText text && safe text) = true := by
    cases h : l0SafeText 255 (Connectors.optional repository.defaultBranch) with
    | none => rfl
    | some text =>
      obtain ⟨hne, hlength, hsafe⟩ := l0SafeText_spec h
      simp [shortText, lengthWithin_of hne hlength, hsafe]
  have hurl : (safeHttpUrl rules repository.sourceUrl).all (fun text =>
      lengthWithin 1 1000 text && safe text && actionEvidenceRefMatchesSchema rules.toEvidenceRules
        [(Str.of "kind", .str (Str.of "repository_metadata")),
          (Str.of "source", .str (Str.of "github")),
          (Str.of "ref", .str (Str.of "repository-identity")), (Str.of "url", .str text)]) = true := by
    cases h : safeHttpUrl rules repository.sourceUrl with
    | none => rfl
    | some text =>
      obtain ⟨hlength, hsafe, haction⟩ := safeHttpUrl_spec h
      have hprobe : actionEvidenceRefMatchesSchema rules.toEvidenceRules
          (recordFields none (Str.of "repository-identity") (some text)) = true := by
        refine (recordFields_schema_iff (by decide) (by decide) (by decide) ?_).2 (by decide)
        rintro _ ⟨⟩
        exact haction
      have hfields : recordFields none (Str.of "repository-identity") (some text) =
        [(Str.of "kind", .str (Str.of "repository_metadata")),
          (Str.of "source", .str (Str.of "github")),
          (Str.of "ref", .str (Str.of "repository-identity")), (Str.of "url", .str text)] := rfl
      rw [Option.all_some, hlength, hsafe, ← hfields, hprobe]
      rfl
  have hname (h : gitHubFullName repository.fullName = true) :
      safe repository.fullName = true := safe_of_graphic (gitHubFullName_graphic h)
  simp only [RepositoryIdentity.valid, hbranch, hurl, Bool.and_true, Bool.and_eq_true]
  constructor
  · rintro ⟨⟨⟨hext, hlength⟩, -⟩, hfull⟩
    exact ⟨hext, hlength, hfull⟩
  · rintro ⟨hext, hlength, hfull⟩
    exact ⟨⟨⟨hext, hlength⟩, hname hfull⟩, hfull⟩

theorem evidenceListValid_toList {evidence : Option EvidenceRefV1} :
    evidenceListValid rules.toEvidenceRules evidence.toList = true ↔
      ∀ ref, evidence = some ref → ref.valid rules.toEvidenceRules = true := by
  cases evidence with
  | none => simp [evidenceListValid]
  | some ref => simp [evidenceListValid, repositoryIntelligenceMaxEvidenceRefs]

theorem claimIdValid_of_plain {claimId : Str}
    (h : (lengthWithin 1 128 claimId && plain claimId && stableKey claimId) = true) :
    claimIdValid claimId = true := by
  simp only [Bool.and_eq_true] at h
  simp [claimIdValid, h.1.1, safe_of_plain h.1.2, h.2]

theorem purposeSummary_plain : ∀ type ∈ repositoryTypes,
    let summary := Str.of "Canonical metadata supports a " ++
      replaceChar 95 32 (Str.of type.value) ++ Str.of " repository type candidate."
    (summaryText summary && plain summary) = true :=
  of_decide_eq_true rfl

theorem mem_repositoryTypes (type : RepositoryType) : type ∈ repositoryTypes := by
  cases type <;> decide

theorem purposeClaim_valid {type : RepositoryType} {evidence : List EvidenceRefV1}
    (h : evidenceListValid rules.toEvidenceRules evidence = true) :
    (purposeClaim workspaceId type evidence).valid rules.toEvidenceRules = true := by
  unfold purposeClaim
  split
  · rfl
  · rename_i hknown
    obtain ⟨-, hne⟩ := not_or.1 hknown
    have hsummary := purposeSummary_plain type (mem_repositoryTypes type)
    rw [Bool.and_eq_true] at hsummary
    have hempty : evidence.isEmpty = false := List.isEmpty_eq_false_iff.2 hne
    have hnil : evidenceListValid rules.toEvidenceRules [] = true := rfl
    have hid : claimIdValid (Str.of "purpose.primary") = true :=
      claimIdValid_of_plain rfl
    have hlow : decide ((0 : Rat) ≤ 13 / 20) = true := by decide +kernel
    have hhigh : decide ((13 / 20 : Rat) ≤ 1) = true := by decide +kernel
    simp only [PurposeClaim.valid, AnalyzerItem.valid, Option.all_some, Option.all_none, hsummary.1,
      safe_of_plain hsummary.2, h, hnil, hid, hlow, hhigh, hempty]
    rfl

theorem unknown_valid {unknownId question : Str} {evidence : List EvidenceRefV1}
    (hid : (lengthWithin 1 128 unknownId && plain unknownId && stableKey unknownId) = true)
    (hquestion : (summaryText question && plain question) = true)
    (h : evidenceListValid rules.toEvidenceRules evidence = true) :
    RepositoryUnknown.valid rules.toEvidenceRules ⟨unknownId, workspaceId, question, evidence⟩ =
      true := by
  rw [Bool.and_eq_true] at hquestion
  rw [RepositoryUnknown.valid, claimIdValid_of_plain hid, hquestion.1, safe_of_plain hquestion.2, h]
  rfl

theorem unknowns_valid {purpose : PurposeClaim}
    (h : evidenceListValid rules.toEvidenceRules (context.map (·.evidence)).toList = true) :
    (unknowns workspaceId repository context purpose).all (·.valid rules.toEvidenceRules) = true := by
  have hnil : evidenceListValid rules.toEvidenceRules [] = true := rfl
  simp only [unknowns, List.all_append, List.all_cons, List.all_nil, Bool.and_true, Bool.and_eq_true]
  refine ⟨⟨⟨unknown_valid rfl rfl h, ?_⟩, ?_⟩, ?_⟩
  · split
    · rw [List.all_cons, unknown_valid rfl rfl hnil]
      rfl
    · rfl
  · split
    · rw [List.all_cons, unknown_valid rfl rfl h]
      rfl
    · rfl
  · split
    · rw [List.all_cons, unknown_valid rfl rfl h]
      rfl
    · rfl

theorem findings_valid
    (h : evidenceListValid rules.toEvidenceRules (context.map (·.evidence)).toList = true) :
    (findings workspaceId repository context).all (·.valid rules.toEvidenceRules) = true := by
  unfold findings
  split
  · rfl
  rename_i found
  split
  · have hlist : evidenceListValid rules.toEvidenceRules [found.evidence] = true := h
    have hnil : evidenceListValid rules.toEvidenceRules [] = true := rfl
    have hlow : decide ((0 : Rat) ≤ 1) = true := rfl
    have hhigh : decide ((1 : Rat) ≤ 1) = true := rfl
    have hfinding : claimIdValid (Str.of "finding.repository-archived") = true :=
      claimIdValid_of_plain rfl
    have hrule : claimIdValid (Str.of "ri.l0.repository-archived") = true :=
      claimIdValid_of_plain rfl
    have hcategory : safe (Str.of "lifecycle") = true := safe_of_plain rfl
    have htitle : safe (Str.of "Repository is archived") = true :=
      safe_of_plain rfl
    have hsummary : safe (Str.of
        "Canonical repository metadata marks this repository as archived.") = true :=
      safe_of_plain rfl
    simp only [List.all_cons, List.all_nil, Finding.valid, AnalyzerItem.valid, hlist, hnil, hlow,
      hhigh, hfinding, hrule, hcategory, htitle, hsummary, Option.all_none]
    rfl
  · rfl

theorem take_two_sublist {α : Type} {whole rest : List α} (h : rest.Sublist (whole.drop 2)) :
    (whole.take 2 ++ rest).Sublist whole := by
  have happend := (List.Sublist.refl (whole.take 2)).append h
  rwa [List.take_append_drop] at happend

theorem limitations_sublist (record : Option CanonicalRecord) (context : Option SourceContext) :
    (limitations record context).Sublist limitationTexts := by
  unfold limitations
  refine take_two_sublist ?_
  split
  · exact List.take_sublist _ _
  · split
    · exact List.drop_sublist _ _
    · exact List.nil_sublist _

theorem limitations_valid (record : Option CanonicalRecord) (context : Option SourceContext) :
    (limitations record context).Nodup ∧
      (limitations record context).all (fun text => detailText text && safe text) = true := by
  have hplain : limitationTexts.Nodup ∧
      ∀ text ∈ limitationTexts, (detailText text && plain text) = true :=
    of_decide_eq_true rfl
  have hsublist := limitations_sublist record context
  refine ⟨hplain.1.sublist hsublist, List.all_eq_true.2 fun text htext => ?_⟩
  have htexts := hplain.2 text (hsublist.subset htext)
  rw [Bool.and_eq_true] at htexts ⊢
  exact ⟨htexts.1, safe_of_plain htexts.2⟩

theorem limitations_few (record : Option CanonicalRecord) (context : Option SourceContext) :
    (limitations record context).length ≤ repositoryIntelligenceMaxItems := by
  have hfour : limitationTexts.length = 4 := rfl
  refine (limitations_sublist record context).length_le.trans ?_
  rw [hfour]
  decide

theorem unknowns_ids (workspaceId : Uuid) (repository : CanonicalRepository)
    (context : Option SourceContext) (purpose : PurposeClaim) :
    ((unknowns workspaceId repository context purpose).map (·.unknownId)).Nodup ∧
      (unknowns workspaceId repository context purpose).length ≤ repositoryIntelligenceMaxItems := by
  simp only [unknowns]
  split <;> split <;> split <;> exact ⟨of_decide_eq_true rfl, of_decide_eq_true rfl⟩

theorem findings_ids (workspaceId : Uuid) (repository : CanonicalRepository)
    (context : Option SourceContext) :
    ((findings workspaceId repository context).map (·.findingId)).Nodup ∧
      (findings workspaceId repository context).length ≤ repositoryIntelligenceMaxItems := by
  unfold findings
  split
  · exact ⟨of_decide_eq_true rfl, of_decide_eq_true rfl⟩
  · split <;> exact ⟨of_decide_eq_true rfl, of_decide_eq_true rfl⟩

/-- Of a result of this analysis only the evidence can be invalid. -/
theorem result_valid_iff (rules : L0Rules Digest) (workspaceId : Uuid)
    (repository : CanonicalRepository) (record : Option CanonicalRecord) :
    AnalyzerResult.valid rules.toEvidenceRules (projected rules workspaceId repository record).result =
        true ↔
      ∀ found, sourceContext rules repository record = some found →
        found.evidence.valid rules.toEvidenceRules = true := by
  let context := sourceContext rules repository record
  let evidence := (context.map (·.evidence)).toList
  let purpose := purposeClaim workspaceId (repositoryTypeCandidate context) evidence
  have hiff : evidenceListValid rules.toEvidenceRules evidence = true ↔
      ∀ found, context = some found → found.evidence.valid rules.toEvidenceRules = true := by
    rw [evidenceListValid_toList]
    cases context with
    | none => simp
    | some found => simp
  refine Iff.trans ?_ hiff
  constructor
  · intro h
    simp only [AnalyzerResult.valid, Bool.and_eq_true] at h
    have hunknown := List.all_eq_true.1 h.1.1.1.1.2 _ List.mem_cons_self
    simp only [RepositoryUnknown.valid, Bool.and_eq_true] at hunknown
    exact hunknown.2
  · intro h
    obtain ⟨hunknowns, hfewUnknowns⟩ := unknowns_ids workspaceId repository context purpose
    obtain ⟨hfindings, hfewFindings⟩ := findings_ids workspaceId repository context
    obtain ⟨honce, hlimits⟩ := limitations_valid record context
    have hfewLimits := limitations_few record context
    have hpurpose : purpose.valid rules.toEvidenceRules = true := purposeClaim_valid h
    have hidentities : AnalyzerResult.identitiesValid ⟨purpose, [], [], [], [], [], [],
        findings workspaceId repository context, [],
        unknowns workspaceId repository context purpose, limitations record context⟩ = true := by
      simp [AnalyzerResult.identitiesValid, AnalyzerResult.claims, AnalyzerResult.sections,
        hunknowns, hfindings]
    have hshape : (projected rules workspaceId repository record).result =
        ⟨purpose, [], [], [], [], [], [], findings workspaceId repository context, [],
          unknowns workspaceId repository context purpose, limitations record context⟩ := rfl
    simp only [hshape, AnalyzerResult.valid, AnalyzerResult.sections, List.append_nil, List.all_nil,
      hpurpose, findings_valid h, unknowns_valid h, decide_eq_true honce, hlimits, hidentities,
      decide_eq_true hfewUnknowns, decide_eq_true hfewFindings, decide_eq_true hfewLimits]
    rfl

/-- What the contract of a payload asks of the row that it is made of. -/
structure CanonicalRepository.Admitted (rules : L0Rules Digest) (repository : CanonicalRepository)
    (record : Option CanonicalRecord) : Prop where
  externalId : shortText repository.externalId = true ∧ safe repository.externalId = true
  fullName : lengthWithin 3 500 repository.fullName = true ∧
    gitHubFullName repository.fullName = true
  cited : (sourceContext rules repository record).isSome = true →
    blankOnly repository.externalId = true

theorem metadataSnapshotId_short (repository : CanonicalRepository)
    (context : Option SourceContext) :
    shortText (metadataSnapshotId rules repository context) = true := by
  have hrow : (Str.of "canonical-repository-").length = 21 := by decide
  have hrecord : (Str.of "canonical-source-record-").length = 24 := by decide
  cases context with
  | none =>
    have hhex := rules.repositoryDigest_hex repository
    simp only [lowerHex, Bool.and_eq_true, beq_iff_eq] at hhex
    simp only [metadataSnapshotId, shortText, lengthWithin, List.length_append, hrow, hhex.1]
    rfl
  | some found =>
    have hhex := rules.recordDigest_hex found.record
    simp only [lowerHex, Bool.and_eq_true, beq_iff_eq] at hhex
    simp only [metadataSnapshotId, shortText, lengthWithin, List.length_append, hrecord, hhex.1]
    rfl

theorem purposeClaim_workspace {type : RepositoryType} {evidence : List EvidenceRefV1} :
    (purposeClaim workspaceId type evidence).workspaceId = workspaceId := by
  unfold purposeClaim
  split <;> rfl

theorem findings_workspace :
    (findings workspaceId repository context).all (·.workspaceId == workspaceId) = true := by
  unfold findings
  split
  · rfl
  · split
    · simp
    · rfl

theorem unknowns_workspace {purpose : PurposeClaim} :
    (unknowns workspaceId repository context purpose).all (·.workspaceId == workspaceId) = true := by
  simp only [unknowns]
  split <;> split <;> split <;> simp

theorem projected_valid_iff {record : Option CanonicalRecord} :
    (projected rules workspaceId repository record).valid rules.toEvidenceRules = true ↔
      repository.Admitted rules record := by
  have hresult := result_valid_iff rules workspaceId repository record
  have hcited : (∀ found, sourceContext rules repository record = some found →
      found.evidence.valid rules.toEvidenceRules = true) ↔
        ((sourceContext rules repository record).isSome = true →
          blankOnly repository.externalId = true) := by
    cases hcontext : sourceContext rules repository record with
    | none => simp
    | some found =>
      obtain ⟨hevidence, hext, hsafe⟩ := sourceContext_spec hcontext
      have hvalid : (contextEvidence rules repository found.record).valid rules.toEvidenceRules =
          true ↔ blankOnly repository.externalId = true := contextEvidence_valid_iff hext hsafe
      simp [hevidence, hvalid]
  constructor
  · intro h
    simp only [RepositoryIntelligence.valid, Bool.and_eq_true, and_assoc] at h
    obtain ⟨hidentity, -, -, -, -, -, -, -, hpayload, -⟩ := h
    obtain ⟨hext, hname⟩ := identity_valid_iff.1 hidentity
    exact ⟨hext, hname, hcited.1 (hresult.1 hpayload)⟩
  · rintro ⟨hext, hname, hblank⟩
    have hidentity : RepositoryIdentity.valid rules.toEvidenceRules
        (projected rules workspaceId repository record).repository = true :=
      identity_valid_iff.2 ⟨hext, hname⟩
    have hconstants : (lengthWithin 1 80 repositoryIntelligenceL0Profile &&
        plain repositoryIntelligenceL0Profile && profileText repositoryIntelligenceL0Profile &&
        lowerHex 64 repositoryIntelligenceL0PolicyHash &&
        lengthWithin 1 80 repositoryIntelligenceL0EngineVersion &&
        plain repositoryIntelligenceL0EngineVersion) = true := by
      decide +kernel
    simp only [Bool.and_eq_true] at hconstants
    obtain ⟨⟨⟨⟨⟨hprofile, hplain⟩, hkey⟩, hhash⟩, hengine⟩, hversion⟩ := hconstants
    have htarget : (projected rules workspaceId repository record).analysisTarget.valid = true := by
      rw [AnalysisTarget.valid]
      simp [projected, metadataSnapshotId_short]
    have hpurpose : (projected rules workspaceId repository record).result.purpose.workspaceId =
        workspaceId := purposeClaim_workspace
    have hfindings : (projected rules workspaceId repository record).result.findings.all
        (·.workspaceId == workspaceId) = true := findings_workspace
    have hunknowns : (projected rules workspaceId repository record).result.unknowns.all
        (·.workspaceId == workspaceId) = true := unknowns_workspace
    have hshape : (projected rules workspaceId repository record).workspaceId = workspaceId ∧
        (projected rules workspaceId repository record).auditLevel = .l0 ∧
        (projected rules workspaceId repository record).profile = repositoryIntelligenceL0Profile ∧
        (projected rules workspaceId repository record).policyHash =
          repositoryIntelligenceL0PolicyHash ∧
        (projected rules workspaceId repository record).engineVersion =
          repositoryIntelligenceL0EngineVersion ∧
        (projected rules workspaceId repository record).result.sections = [] ∧
        (projected rules workspaceId repository record).result.relationshipCandidates = [] ∧
        (projected rules workspaceId repository record).result.contradictions = [] :=
      ⟨rfl, rfl, rfl, rfl, rfl, rfl, rfl, rfl⟩
    simp [RepositoryIntelligence.valid, hidentity, htarget, hresult.2 (hcited.2 hblank), hshape,
      hprofile, safe_of_plain hplain, hkey, hhash, hengine, safe_of_plain hversion, hpurpose,
      -List.all_eq_true, hfindings, hunknowns]

theorem projectRepository_ok_iff {record : Option CanonicalRecord} :
    (∃ payload, projectRepository rules workspaceId repository record = .ok payload) ↔
      repository.Admitted rules record := by
  have hiff : (projected rules workspaceId repository record).valid rules.toEvidenceRules = true ↔
      repository.Admitted rules record := projected_valid_iff
  rw [← hiff]
  simp only [projectRepository]
  split
  · rename_i hvalid
    exact ⟨fun _ => hvalid, fun _ => ⟨_, rfl⟩⟩
  · rename_i hinvalid
    refine ⟨?_, fun h => absurd h hinvalid⟩
    rintro ⟨payload, h⟩
    cases h

theorem projectRepository_ok {record : Option CanonicalRecord} {payload : RepositoryIntelligence}
    (h : projectRepository rules workspaceId repository record = .ok payload) :
    payload.repositoryId = repository.id ∧ payload.valid rules.toEvidenceRules = true := by
  simp only [projectRepository] at h
  split at h
  · rename_i hvalid
    cases h
    exact ⟨rfl, hvalid⟩
  · cases h

end payload

section portfolio

variable {Digest : Type} {rules : L0Rules Digest} {collate : Str → Str → Bool}
  {store : CanonicalStore} {workspaceId : Uuid} {results : List RepositoryIntelligence}

theorem ordered_perm :
    (store.ordered collate workspaceId).Perm (store.repositoriesOf workspaceId) :=
  List.mergeSort_perm _ _

theorem build_eq :
    buildWorkspaceRepositoryIntelligenceL0 rules collate store workspaceId =
      if repositoryIntelligenceL0MaxRepositories < (store.repositoriesOf workspaceId).length then
        .error .tooMany
      else (store.ordered collate workspaceId).mapM fun repository =>
        (projectRepository rules workspaceId repository (store.recordOf repository)).mapError
          fun _ => .invalidRow := by
  simp only [buildWorkspaceRepositoryIntelligenceL0, List.length_take, ordered_perm.length_eq]
  split
  · rename_i hmany
    rw [if_pos (lt_of_lt_of_le hmany (Nat.min_le_right _ _))]
  · rename_i hfew
    have hlength : (store.repositoriesOf workspaceId).length ≤
        repositoryIntelligenceL0MaxRepositories := by omega
    rw [if_neg (Nat.not_lt.2 hlength),
      List.take_of_length_le (ordered_perm.length_eq ▸ Nat.le_succ_of_le hlength)]

theorem build_ok_iff :
    (∃ results, buildWorkspaceRepositoryIntelligenceL0 rules collate store workspaceId =
        .ok results) ↔
      (store.repositoriesOf workspaceId).length ≤ repositoryIntelligenceL0MaxRepositories ∧
        ∀ repository ∈ store.repositoriesOf workspaceId,
          repository.Admitted rules (store.recordOf repository) := by
  rw [build_eq]
  split
  · rename_i hmany
    refine ⟨?_, fun h => absurd h.1 (Nat.not_le.2 hmany)⟩
    rintro ⟨results, h⟩
    cases h
  · rename_i hfew
    rw [mapM_ok_iff]
    refine Iff.trans ?_ (and_iff_right (Nat.not_lt.1 hfew)).symm
    refine forall_congr' fun repository => imp_congr ordered_perm.mem_iff ?_
    simp only [mapError_ok_iff]
    exact projectRepository_ok_iff

theorem build_renders
    (h : buildWorkspaceRepositoryIntelligenceL0 rules collate store workspaceId = .ok results)
    {repository : CanonicalRepository} (hmem : repository ∈ store.repositoriesOf workspaceId) :
    ∃ payload ∈ results, payload.repositoryId = repository.id ∧
      payload.valid rules.toEvidenceRules = true := by
  rw [build_eq] at h
  split at h
  · cases h
  · obtain ⟨payload, hpayload, hproject⟩ := mem_of_mapM_ok h (ordered_perm.mem_iff.2 hmem)
    exact ⟨payload, hpayload, projectRepository_ok (mapError_ok_iff.1 hproject)⟩

end portfolio

end FounderOs.RepositoryAudit
