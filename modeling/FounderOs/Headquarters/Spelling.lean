import FounderOs.Headquarters.Verification

namespace FounderOs.Headquarters

open Execution Decision

section definitions

variable {Digest : Type} (rules : EvidenceRules Digest)

/-- What the resolver that is built for a reference answers for it. -/
def evidenceAnswer (plan : Plan) (db : Database) (workspaceId : Uuid) (ref : Fields) :
    Except EvidenceError (Option ResolvedEvidence) :=
  (buildDirectEvidenceResolver rules plan db workspaceId [ref]).map
    fun resolver => resolveDirectEvidence rules resolver ref

/-- Two texts of one id. -/
def SameUuid (value value' : Field) : Prop :=
  ∃ text text' id, value = .str text ∧ value' = .str text' ∧ rules.uuid text = some id ∧
    rules.uuid text' = some id

/-- Two accepted references that differ in how their ids are written. -/
structure Respelled (ref ref' : Fields) : Prop where
  accepted : actionEvidenceRefMatchesSchema rules ref = true
  accepted' : actionEvidenceRefMatchesSchema rules ref' = true
  selectors : ∀ key ∈ selectorKeys,
    field ref key = field ref' key ∨ SameUuid rules (field ref key) (field ref' key)
  others : ∀ key, key ∉ selectorKeys → field ref key = field ref' key

/-- The ids are written as `str` writes them, and those of a source record are one. -/
def EvidenceSelector.canonical (selector : EvidenceSelector) : Bool :=
  match selector.kind with
  | .evidenceRef => isUuidText selector.token && selector.sourceRecordTokens.all isUuidText &&
      decide (selector.sourceRecordTokens.length ≤ 1)
  | .sourceRecord => isUuidText selector.token
  | .external => true

/-- What a reference names, where it is written so that a lookup can find it. -/
def named (ref : Fields) : Option EvidenceSelector := (evidenceSelector ref).filter (·.canonical)

/-- One text or two of one id, as a key of the resolver's. -/
def Alike (token token' : Option Str) : Prop :=
  token = token' ∨ ∃ text text' id, Str.strip text = text ∧ Str.strip text' = text' ∧
    token = some (Str.joined text) ∧ token' = some (Str.joined text') ∧
    rules.uuid text = some id ∧ rules.uuid text' = some id

end definitions

section texts

variable {Digest : Type} {rules : EvidenceRules Digest} {ref ref' : Fields} {value : Field}
  {text token : Str} {key : String} {o o' : Option Str}

theorem strictText_some (h : strictText value = some text) :
    value = .str text ∧ text ≠ [] ∧ Str.strip text = text := by
  obtain ⟨raw, hraw, h⟩ := Option.bind_eq_some_iff.1 h
  split_ifs at h with hempty
  cases h
  rw [not_or, not_not] at hempty
  cases value with
  | str text => exact ⟨congrArg Field.str (Option.some.inj hraw), hempty.1, hempty.2.symm⟩
  | null => cases hraw
  | other => cases hraw

theorem joined_ne_nil (hne : text ≠ []) (hstrip : Str.strip text = text) : Str.joined text ≠ [] := by
  obtain ⟨c, rest, rfl⟩ := List.exists_cons_of_ne_nil hne
  obtain ⟨word, words, hwords⟩ := List.exists_cons_of_ne_nil
    (Str.words_ne_nil List.mem_cons_self (Str.head_of_strip hstrip))
  have hword : word ≠ [] := by
    have hmem : word ∈ Str.words (c :: rest) := hwords ▸ List.mem_cons_self
    simpa using (List.mem_filter.1 hmem).2
  rw [Str.joined, hstrip, hwords]
  cases words with
  | nil => simpa using hword
  | cons next words => simp [List.intercalate_cons_cons]

theorem cleanText_strict (h : strictText value = some text) :
    cleanText value = some (Str.joined text) := by
  obtain ⟨rfl, hne, hstrip⟩ := strictText_some h
  exact if_neg (joined_ne_nil hne hstrip)

theorem not_space_of_canonical (h : isUuidText text = true) : ∀ c ∈ text, Str.isSpace c = false := by
  intro c hc
  obtain ⟨hlow, hhigh⟩ := uuid_graphic ⟨text, h⟩ c hc
  exact Str.isSpace_printable c hhigh hlow

/-- A text that is read as a canonical one is that one. -/
theorem joined_of_canonical (hstrip : Str.strip text = text)
    (h : isUuidText (Str.joined text) = true) : Str.joined text = text := by
  refine Str.joined_eq_self fun c hc => ?_
  by_contra hspace
  have hmem := Str.space_mem_joined hstrip hc (Bool.of_not_eq_false hspace)
  have hnot := not_space_of_canonical h 32 hmem
  revert hnot
  decide

theorem Alike.symm (h : Alike rules o o') : Alike rules o' o := by
  rcases h with rfl | ⟨text, text', id, hstrip, hstrip', ho, ho', hid, hid'⟩
  · exact .inl rfl
  · exact .inr ⟨text', text, id, hstrip', hstrip, ho', ho, hid', hid⟩

theorem Alike.none_iff (h : Alike rules o o') : o = none ↔ o' = none := by
  rcases h with rfl | ⟨text, text', id, -, -, rfl, rfl, -⟩
  · rfl
  · exact ⟨(fun h => nomatch h), (fun h => nomatch h)⟩

theorem Alike.eq_of_canonical {a b : Str} (h : Alike rules (some a) (some b))
    (ha : isUuidText a = true) (hb : isUuidText b = true) : a = b := by
  rcases h with hsame | ⟨text, text', id, hstrip, hstrip', ho, ho', hid, hid'⟩
  · exact Option.some.inj hsame
  · obtain rfl := Option.some.inj ho
    obtain rfl := Option.some.inj ho'
    have htext := joined_of_canonical hstrip ha
    have htext' := joined_of_canonical hstrip' hb
    rw [htext] at ha
    rw [htext'] at hb
    have huuid := rules.uuid_text ⟨text, ha⟩
    have huuid' := rules.uuid_text ⟨text', hb⟩
    rw [htext, htext']
    have hids : (⟨text, ha⟩ : Uuid) = ⟨text', hb⟩ :=
      (Option.some.inj (huuid.symm.trans hid)).trans (Option.some.inj (huuid'.symm.trans hid')).symm
    exact congrArg Uuid.text hids

theorem strict_selector (h : actionEvidenceRefMatchesSchema rules ref = true)
    (hkey : key ∈ selectorKeys) :
    field ref key = .null ∨ ∃ text, strictText (field ref key) = some text := by
  by_cases hnull : field ref key = .null
  · exact .inl hnull
  · refine .inr ?_
    simp only [actionEvidenceRefMatchesSchema, Bool.and_eq_true] at h
    have hselectors := List.all_eq_true.1 h.1.1.2 _ (List.mem_map_of_mem
      (List.mem_filter.2 ⟨hkey, decide_eq_true hnull⟩))
    obtain ⟨text, htext, -⟩ := (Option.any_eq_true ..).1 hselectors
    exact ⟨text, htext⟩

theorem uuid_selector (h : actionEvidenceRefMatchesSchema rules ref = true)
    (hkey : key ∈ uuidSelectorKeys) (htext : strictText (field ref key) = some text) :
    ∃ id, rules.uuid text = some id := by
  simp only [actionEvidenceRefMatchesSchema, Bool.and_eq_true] at h
  have huuid := List.all_eq_true.1 h.1.2 key hkey
  rcases Bool.or_eq_true_iff.1 huuid with hnull | huuid
  · rw [of_decide_eq_true hnull] at htext
    cases htext
  · rw [htext] at huuid
    exact Option.isSome_iff_exists.1 huuid

theorem alike_selector (h : Respelled rules ref ref') (key : String) (hkey : key ∈ selectorKeys) :
    Alike rules (cleanText (field ref key)) (cleanText (field ref' key)) := by
  rcases h.selectors key hkey with hsame | ⟨text, text', id, hvalue, hvalue', hid, hid'⟩
  · exact .inl (congrArg cleanText hsame)
  · refine .inr ?_
    rcases strict_selector h.accepted hkey with hnull | ⟨strict, hstrict⟩
    · rw [hvalue] at hnull
      cases hnull
    rcases strict_selector h.accepted' hkey with hnull | ⟨strict', hstrict'⟩
    · rw [hvalue'] at hnull
      cases hnull
    obtain ⟨hstr, -, hstrip⟩ := strictText_some hstrict
    obtain ⟨hstr', -, hstrip'⟩ := strictText_some hstrict'
    obtain rfl : text = strict := Field.str.inj (hvalue.symm.trans hstr)
    obtain rfl : text' = strict' := Field.str.inj (hvalue'.symm.trans hstr')
    exact ⟨text, text', id, hstrip, hstrip', cleanText_strict hstrict, cleanText_strict hstrict',
      hid, hid'⟩

theorem Respelled.symm (h : Respelled rules ref ref') : Respelled rules ref' ref where
  accepted := h.accepted'
  accepted' := h.accepted
  selectors key hkey := by
    rcases h.selectors key hkey with hsame | ⟨text, text', id, hvalue, hvalue', hid, hid'⟩
    · exact .inl hsame.symm
    · exact .inr ⟨text', text, id, hvalue', hvalue, hid', hid⟩
  others key hkey := (h.others key hkey).symm

end texts

section selectors

variable {Digest : Type} {rules : EvidenceRules Digest} {ref ref' : Fields}
  {selector selector' : EvidenceSelector} {token : Str}

theorem mem_sourceRecordTokens : token ∈ sourceRecordTokens ref ↔
    cleanText (field ref "source_record_id") = some token ∨
      cleanText (field ref "record_id") = some token := by
  unfold sourceRecordTokens
  cases ha : cleanText (field ref "source_record_id") with
  | none => cases hb : cleanText (field ref "record_id") <;> simp [eq_comm]
  | some a =>
    cases hb : cleanText (field ref "record_id") with
    | none => simp [eq_comm]
    | some b =>
      dsimp only
      split_ifs with hsame
      · simp [hsame, eq_comm]
      · simp [eq_comm]

/-- An id of a source record in one reference stands in the other, in some spelling. -/
theorem token_alike (h : Respelled rules ref ref') (hmem : token ∈ sourceRecordTokens ref) :
    ∃ token' ∈ sourceRecordTokens ref', Alike rules (some token) (some token') := by
  have hkey {key : String} (hkey : key ∈ selectorKeys) (htoken : cleanText (field ref key) = some token) :
      ∃ token', cleanText (field ref' key) = some token' ∧ Alike rules (some token) (some token') := by
    have halike := alike_selector h key hkey
    rw [htoken] at halike
    cases htoken' : cleanText (field ref' key) with
    | none => cases halike.none_iff.2 htoken'
    | some token' => exact ⟨token', rfl, htoken' ▸ halike⟩
  rcases mem_sourceRecordTokens.1 hmem with hfirst | hsecond
  · obtain ⟨token', htoken', halike⟩ := hkey (by decide) hfirst
    exact ⟨token', mem_sourceRecordTokens.2 (.inl htoken'), halike⟩
  · obtain ⟨token', htoken', halike⟩ := hkey (by decide) hsecond
    exact ⟨token', mem_sourceRecordTokens.2 (.inr htoken'), halike⟩

theorem sourceRecordTokens_nil (h : Respelled rules ref ref') (hnil : sourceRecordTokens ref = []) :
    sourceRecordTokens ref' = [] := by
  refine List.eq_nil_iff_forall_not_mem.2 fun token' hmem => ?_
  obtain ⟨token, htoken, -⟩ := token_alike h.symm hmem
  rw [hnil] at htoken
  cases htoken

theorem sourceRecordTokens_subset (h : Respelled rules ref ref')
    (hall : ∀ token ∈ sourceRecordTokens ref, isUuidText token = true)
    (hall' : ∀ token ∈ sourceRecordTokens ref', isUuidText token = true)
    (hmem : token ∈ sourceRecordTokens ref) : token ∈ sourceRecordTokens ref' := by
  obtain ⟨token', htoken', halike⟩ := token_alike h hmem
  rwa [halike.eq_of_canonical (hall token hmem) (hall' token' htoken')]

/-- One canonical id of a source record in both is the same one. -/
theorem sourceRecordTokens_eq (h : Respelled rules ref ref')
    (hall : ∀ token ∈ sourceRecordTokens ref, isUuidText token = true)
    (hall' : ∀ token ∈ sourceRecordTokens ref', isUuidText token = true)
    (hone : (sourceRecordTokens ref).length ≤ 1) (hone' : (sourceRecordTokens ref').length ≤ 1) :
    sourceRecordTokens ref = sourceRecordTokens ref' := by
  have hsub (token : Str) (hmem : token ∈ sourceRecordTokens ref) : token ∈ sourceRecordTokens ref' :=
    sourceRecordTokens_subset h hall hall' hmem
  have hsub' (token : Str) (hmem : token ∈ sourceRecordTokens ref') : token ∈ sourceRecordTokens ref :=
    sourceRecordTokens_subset h.symm hall' hall hmem
  revert hsub hsub' hone hone'
  generalize sourceRecordTokens ref = tokens
  generalize sourceRecordTokens ref' = tokens'
  intro hone hone' hsub hsub'
  rcases tokens with _ | ⟨a, _ | ⟨b, rest⟩⟩
  · exact (List.eq_nil_iff_forall_not_mem.2 fun token hmem => nomatch hsub' token hmem).symm
  · rcases tokens' with _ | ⟨a', _ | ⟨b', rest'⟩⟩
    · cases hsub a (List.mem_singleton_self a)
    · rw [List.mem_singleton.1 (hsub a (List.mem_singleton_self a))]
    · exact absurd hone' (by simp)
  · exact absurd hone (by simp)

/-- How a selector is put together from the fields. -/
theorem evidenceSelector_cases (ref : Fields) :
    (∃ token, cleanText (field ref "evidence_ref_id") = some token ∧
      evidenceSelector ref = some ⟨.evidenceRef, token, sourceRecordTokens ref⟩) ∨
    (cleanText (field ref "evidence_ref_id") = none ∧ sourceRecordTokens ref ≠ [] ∧
      ((∃ token, sourceRecordTokens ref = [token] ∧
        evidenceSelector ref = some ⟨.sourceRecord, token, []⟩) ∨
      (1 < (sourceRecordTokens ref).length ∧ evidenceSelector ref = none))) ∨
    (cleanText (field ref "evidence_ref_id") = none ∧ sourceRecordTokens ref = [] ∧
      evidenceSelector ref = ((cleanText (field ref "ref")).or (cleanText (field ref "id"))).map
        fun token => ⟨.external, token, []⟩) := by
  unfold evidenceSelector
  cases hevidence : cleanText (field ref "evidence_ref_id") with
  | some token => exact .inl ⟨token, rfl, rfl⟩
  | none =>
    refine .inr ?_
    rcases htokens : sourceRecordTokens ref with _ | ⟨token, _ | ⟨next, rest⟩⟩
    · refine .inr ⟨rfl, rfl, ?_⟩
      cases cleanText (field ref "ref") <;> rfl
    · exact .inl ⟨rfl, List.cons_ne_nil _ _, .inl ⟨token, rfl, rfl⟩⟩
    · exact .inl ⟨rfl, List.cons_ne_nil _ _, .inr ⟨by simp, rfl⟩⟩

theorem named_some : named ref = some selector ↔
    evidenceSelector ref = some selector ∧ selector.canonical = true :=
  Option.filter_eq_some_iff

theorem named_none (h : named ref = none) (hselector : evidenceSelector ref = some selector) :
    selector.canonical = false := by
  refine Bool.eq_false_iff.2 fun hcanonical => ?_
  rw [named_some.2 ⟨hselector, hcanonical⟩] at h
  cases h

theorem canonical_evidenceRef {tokens : List Str} :
    (EvidenceSelector.mk .evidenceRef token tokens).canonical = true ↔
      isUuidText token = true ∧ (∀ token ∈ tokens, isUuidText token = true) ∧ tokens.length ≤ 1 := by
  simp [EvidenceSelector.canonical, and_assoc]

theorem Alike.or {a a' b b' : Option Str} (ha : Alike rules a a') (hb : Alike rules b b') :
    Alike rules (a.or b) (a'.or b') := by
  cases a with
  | none =>
    rw [ha.none_iff.1 rfl]
    exact hb
  | some x =>
    cases a' with
    | none => cases ha.none_iff.2 rfl
    | some x' => exact ha

/-- A selector that is no id of a row is read from the same field in both. -/
theorem external_selector (h : Respelled rules ref ref')
    (hselector : evidenceSelector ref = some selector) (hkind : selector.kind = .external) :
    ∃ token token', selector = ⟨.external, token, []⟩ ∧
      evidenceSelector ref' = some ⟨.external, token', []⟩ ∧ Alike rules (some token) (some token') := by
  rcases evidenceSelector_cases ref with ⟨token, -, hfound⟩ | ⟨-, -, ⟨token, -, hfound⟩ | ⟨-, hfound⟩⟩ |
    ⟨hnone, hnil, hfound⟩
  · cases hselector.symm.trans hfound
    cases hkind
  · cases hselector.symm.trans hfound
    cases hkind
  · cases hselector.symm.trans hfound
  · have hnone' := (alike_selector h "evidence_ref_id" (by decide)).none_iff.1 hnone
    have hnil' := sourceRecordTokens_nil h hnil
    have halike := (alike_selector h "ref" (by decide)).or
      (alike_selector h "id" (by decide))
    rw [hfound] at hselector
    obtain ⟨token, htoken, rfl⟩ := Option.map_eq_some_iff.1 hselector
    rcases evidenceSelector_cases ref' with ⟨token', hsome, -⟩ | ⟨-, hcons, -⟩ | ⟨-, -, hfound'⟩
    · cases hnone'.symm.trans hsome
    · exact absurd hnil' hcons
    · rw [htoken] at halike
      cases htoken' : (cleanText (field ref' "ref")).or (cleanText (field ref' "id")) with
      | none => cases halike.none_iff.2 htoken'
      | some token' =>
        rw [htoken'] at halike hfound'
        exact ⟨token, token', rfl, hfound', halike⟩

/-- Where both references name a row by its ids, they name the same one. -/
theorem named_eq (h : Respelled rules ref ref') (hnamed : named ref = some selector)
    (hnamed' : named ref' = some selector') (hkind : selector.kind ≠ .external) :
    selector = selector' := by
  obtain ⟨hfound, hcanonical⟩ := named_some.1 hnamed
  obtain ⟨hfound', hcanonical'⟩ := named_some.1 hnamed'
  have halike := alike_selector h "evidence_ref_id" (by decide)
  have hnil := sourceRecordTokens_nil h
  have hnil' := sourceRecordTokens_nil h.symm
  have heq := sourceRecordTokens_eq h
  rcases evidenceSelector_cases ref with ⟨token, htoken, hcase⟩ |
    ⟨hnone, hcons, ⟨token, htokens, hcase⟩ | ⟨-, hcase⟩⟩ | ⟨-, -, hcase⟩
  · rcases evidenceSelector_cases ref' with ⟨token', htoken', hcase'⟩ | ⟨hnone', -⟩ | ⟨hnone', -⟩
    · obtain rfl := Option.some.inj (hfound.symm.trans hcase)
      obtain rfl := Option.some.inj (hfound'.symm.trans hcase')
      obtain ⟨huuid, hall, hone⟩ := canonical_evidenceRef.1 hcanonical
      obtain ⟨huuid', hall', hone'⟩ := canonical_evidenceRef.1 hcanonical'
      rw [htoken, htoken'] at halike
      rw [halike.eq_of_canonical huuid huuid', heq hall hall' hone hone']
    · cases htoken.symm.trans (halike.none_iff.2 hnone')
    · cases htoken.symm.trans (halike.none_iff.2 hnone')
  · rcases evidenceSelector_cases ref' with ⟨token', htoken', -⟩ |
      ⟨-, -, ⟨token', htokens', hcase'⟩ | ⟨-, hcase'⟩⟩ | ⟨-, hempty, -⟩
    · cases htoken'.symm.trans (halike.none_iff.1 hnone)
    · obtain rfl := Option.some.inj (hfound.symm.trans hcase)
      obtain rfl := Option.some.inj (hfound'.symm.trans hcase')
      have hsame := heq (htokens ▸ fun _ hmem => List.mem_singleton.1 hmem ▸ hcanonical)
        (htokens' ▸ fun _ hmem => List.mem_singleton.1 hmem ▸ hcanonical') (by simp [htokens])
        (by simp [htokens'])
      rw [htokens, htokens'] at hsame
      rw [(List.cons.inj hsame).1]
    · cases hfound'.symm.trans hcase'
    · exact absurd (hnil' hempty) hcons
  · cases hfound.symm.trans hcase
  · rw [hcase] at hfound
    obtain ⟨token, -, rfl⟩ := Option.map_eq_some_iff.1 hfound
    exact absurd rfl hkind

end selectors

section resolution

variable {Digest : Type} {rules : EvidenceRules Digest} {ref ref' : Fields} {db : Database}
  {workspaceId : Uuid} {selector : EvidenceSelector} {token : Str}

theorem sourceRecordTokens_nodup (ref : Fields) : (sourceRecordTokens ref).Nodup := by
  unfold sourceRecordTokens
  split
  · rename_i a b ha hb
    split_ifs with hsame
    · exact List.pairwise_singleton _ _
    · simpa using hsame
  · exact List.pairwise_singleton _ _
  · exact List.pairwise_singleton _ _
  · exact List.nodup_nil

theorem evidenceById_text {row : EvidenceRow}
    (h : Dict.get (db.resolver workspaceId).evidenceById token = some row) : row.id.text = token :=
  ((Dict.get_index (evidenceRows_id db workspaceId)).1 h).2

theorem sourceById_text {row : SourceRow}
    (h : Dict.get (db.resolver workspaceId).sourceById token = some row) : row.id.text = token :=
  ((Dict.get_index (sourceRows_id db workspaceId)).1 h).2

/-- The tables of the resolver are keyed by the canonical texts. -/
theorem unresolved_of_unnamed (h : named ref = none) :
    resolveDirectEvidence rules (db.resolver workspaceId) ref = none := by
  unfold resolveDirectEvidence
  split
  · rfl
  rcases evidenceSelector_cases ref with ⟨token, -, hfound⟩ | ⟨-, -, ⟨token, -, hfound⟩ | ⟨-, hfound⟩⟩ |
    ⟨-, -, hfound⟩
  · rw [hfound, Option.bind_some]
    dsimp only
    cases hrow : Dict.get (db.resolver workspaceId).evidenceById token with
    | none => rfl
    | some row =>
      have huuid : isUuidText token = true := evidenceById_text hrow ▸ row.id.canonical
      have hother : (sourceRecordTokens ref).any (· != row.source.id.text) = true := by
        by_contra hsame
        have hall (other : Str) (hmem : other ∈ sourceRecordTokens ref) :
            other = row.source.id.text := by
          by_contra hne
          exact hsame (List.any_eq_true.2 ⟨other, hmem, bne_iff_ne.2 hne⟩)
        have hcanonical : (EvidenceSelector.mk .evidenceRef token (sourceRecordTokens ref)).canonical =
            true := by
          refine canonical_evidenceRef.2 ⟨huuid, fun other hmem => ?_, ?_⟩
          · exact hall other hmem ▸ row.source.id.canonical
          · have hlength : (sourceRecordTokens ref).length ≤ [row.source.id.text].length :=
              (sourceRecordTokens_nodup ref).length_le_of_subset fun other hmem =>
                List.mem_singleton.2 (hall other hmem)
            exact hlength
        exact Bool.false_ne_true ((named_none h hfound).symm.trans hcanonical)
      rw [Option.bind_some, hother, if_pos rfl]
      split <;> rfl
  · rw [hfound, Option.bind_some]
    dsimp only
    cases hrow : Dict.get (db.resolver workspaceId).sourceById token with
    | none => rfl
    | some row =>
      have huuid : isUuidText token = true := sourceById_text hrow ▸ row.id.canonical
      cases (named_none h hfound).symm.trans huuid
  · rw [hfound]
    rfl
  · cases hclean : (cleanText (field ref "ref")).or (cleanText (field ref "id")) with
    | none =>
      rw [hclean] at hfound
      rw [hfound]
      rfl
    | some token =>
      rw [hclean] at hfound
      cases named_none h hfound

theorem answer_eq (plan : Plan) (db : Database) (workspaceId : Uuid) (ref : Fields) :
    evidenceAnswer rules plan db workspaceId ref =
      if (Query.ofRefs rules [ref]).tokens.all Str.encodable = true then
        .ok (resolveDirectEvidence rules (db.resolver workspaceId) ref)
      else .error .unencodable := by
  unfold evidenceAnswer
  split_ifs with hall
  · obtain ⟨resolver, hbuild⟩ := (build_eq_ok plan db workspaceId).2 hall
    rw [hbuild]
    exact congrArg Except.ok (resolve_build hbuild (List.mem_singleton_self ref))
  · unfold buildDirectEvidenceResolver
    dsimp only
    rw [if_neg hall]
    rfl

end resolution

section encodable

variable {Digest : Type} {rules : EvidenceRules Digest} {ref ref' : Fields}
  {selector : EvidenceSelector} {token : Str}
  (hencodable : ∀ text id, rules.uuid text = some id → Str.encodable text = true)

theorem query_encodable_of (h : ∀ selector, evidenceSelector ref = some selector →
      ∀ token ∈ selector.token :: selector.sourceRecordTokens, Str.encodable token = true) :
    (Query.ofRefs rules [ref]).tokens.all Str.encodable = true := by
  refine List.all_eq_true.2 fun token hmem => ?_
  obtain ⟨-, other, hother, htoken⟩ := mem_query_tokens.1 hmem
  rw [List.mem_singleton.1 hother, evidenceTokens] at htoken
  cases hselector : evidenceSelector ref with
  | none =>
    rw [hselector] at htoken
    cases htoken
  | some selector =>
    rw [hselector] at htoken
    exact h selector hselector token (List.mem_eraseDups.1 htoken)

include hencodable

theorem encodable_uuid_selector {key : String} (h : actionEvidenceRefMatchesSchema rules ref = true)
    (hkey : key ∈ uuidSelectorKeys) (hselector : key ∈ selectorKeys)
    (htoken : cleanText (field ref key) = some token) : Str.encodable token = true := by
  rcases strict_selector h hselector with hnull | ⟨text, htext⟩
  · rw [hnull] at htoken
    cases htoken
  · obtain ⟨id, hid⟩ := uuid_selector h hkey htext
    obtain rfl := Option.some.inj (htoken.symm.trans (cleanText_strict htext))
    exact Str.encodable_joined (hencodable text id hid)

theorem encodable_sourceRecordTokens (h : actionEvidenceRefMatchesSchema rules ref = true)
    (hmem : token ∈ sourceRecordTokens ref) : Str.encodable token = true := by
  rcases mem_sourceRecordTokens.1 hmem with htoken | htoken
  · exact encodable_uuid_selector hencodable h (by decide) (by decide) htoken
  · exact encodable_uuid_selector hencodable h (by decide) (by decide) htoken

theorem encodable_ids (h : actionEvidenceRefMatchesSchema rules ref = true)
    (hkind : ∀ selector, evidenceSelector ref = some selector → selector.kind ≠ .external) :
    (Query.ofRefs rules [ref]).tokens.all Str.encodable = true := by
  refine query_encodable_of fun selector hselector token hmem => ?_
  rcases evidenceSelector_cases ref with ⟨first, hfirst, hfound⟩ |
    ⟨-, -, ⟨first, htokens, hfound⟩ | ⟨-, hfound⟩⟩ | ⟨-, -, hfound⟩
  · obtain rfl := Option.some.inj (hselector.symm.trans hfound)
    rcases List.mem_cons.1 hmem with rfl | hmem
    · exact encodable_uuid_selector hencodable h (by decide) (by decide) hfirst
    · exact encodable_sourceRecordTokens hencodable h hmem
  · obtain rfl := Option.some.inj (hselector.symm.trans hfound)
    rw [List.mem_singleton.1 hmem]
    exact encodable_sourceRecordTokens hencodable h (htokens ▸ List.mem_singleton_self first)
  · cases hselector.symm.trans hfound
  · rw [hfound] at hselector
    obtain ⟨first, -, rfl⟩ := Option.map_eq_some_iff.1 hselector
    exact absurd rfl (hkind _ (hfound.trans hselector))

/-- Two references of one row are read as one, or the query can be sent for both. -/
theorem same_or_encodable (h : Respelled rules ref ref') :
    evidenceSelector ref = evidenceSelector ref' ∨
      (Query.ofRefs rules [ref]).tokens.all Str.encodable = true ∧
        (Query.ofRefs rules [ref']).tokens.all Str.encodable = true := by
  by_cases hexternal : ∃ selector, evidenceSelector ref = some selector ∧ selector.kind = .external
  · obtain ⟨selector, hselector, hkind⟩ := hexternal
    obtain ⟨token, token', rfl, hselector', halike⟩ := external_selector h hselector hkind
    rcases halike with hsame | ⟨text, text', id, -, -, htoken, htoken', hid, hid'⟩
    · rw [hselector, hselector', Option.some.inj hsame]
      exact .inl rfl
    · have hone {other : Fields} {first : Str} (htoken : Str.encodable first = true)
          (hother : evidenceSelector other = some ⟨.external, first, []⟩) :
          (Query.ofRefs rules [other]).tokens.all Str.encodable = true := by
        refine query_encodable_of fun selector hfound token hmem => ?_
        obtain rfl := Option.some.inj (hother.symm.trans hfound)
        rw [List.mem_singleton.1 hmem]
        exact htoken
      refine .inr ⟨hone ?_ hselector, hone ?_ hselector'⟩
      · rw [Option.some.inj htoken]
        exact Str.encodable_joined (hencodable text id hid)
      · rw [Option.some.inj htoken']
        exact Str.encodable_joined (hencodable text' id hid')
  · refine .inr ⟨encodable_ids hencodable h.accepted ?_, encodable_ids hencodable h.accepted' ?_⟩
    · exact fun selector hselector hkind => hexternal ⟨selector, hselector, hkind⟩
    · intro selector hselector hkind
      obtain ⟨token, token', -, hfound, -⟩ := external_selector h.symm hselector hkind
      exact hexternal ⟨_, hfound, rfl⟩

end encodable

section lone

variable {Digest : Type} {rules : EvidenceRules Digest} {ref ref' : Fields}

/-- One source record with one reference to it, and one repository. -/
def oneOfEach (provider externalId fullName : Str) (record reference repository : Uuid) :
    Database where
  sourceRecords := [⟨⟨record, provider, externalId, [], none, [], 0⟩, sampleWorkspace, false⟩]
  evidenceRefs := [⟨⟨none, "", none, 0, []⟩, reference, sampleWorkspace, record⟩]
  repositories := [⟨⟨repository, Str.of "github", fullName, none, false, 0⟩, sampleWorkspace⟩]
  connections := []
  briefings := []
  briefingItems := []
  proposals := []
  sourceRecord_id := .single _ _
  sourceRecord_name := .single _ _
  evidenceRef_id := .single _ _
  repository_id := .single _ _
  repository_name := .single _ _
  repository_provider _ hmem := List.mem_singleton.1 hmem ▸ rfl
  connection_id := .none _
  briefing_id := .none _
  briefingItem_id := .none _
  proposal_id := .none _

def loneSource (provider externalId : Str) (record : Uuid) : SourceRow :=
  ⟨record, provider, externalId, [], none, [], 0⟩

def loneRepository (fullName : Str) (repository : Uuid) : RepositoryRow :=
  ⟨repository, Str.of "github", fullName, none, false, 0⟩

variable {provider token token' : Str} {record : Uuid}

theorem resolver_oneOfEach (provider externalId fullName : Str)
    (record reference repository : Uuid) :
    (oneOfEach provider externalId fullName record reference repository).resolver sampleWorkspace =
      { sourceById := [(record.text, loneSource provider externalId record)]
        sourceByExternal := [((provider, externalId), loneSource provider externalId record)]
        repositoryById := [(repository.text, loneRepository fullName repository)]
        repositoryByName := [(fullName, loneRepository fullName repository)]
        connectionById := []
        evidenceById :=
          [(reference.text, ⟨⟨none, "", none, 0, []⟩, reference,
            loneSource provider externalId record⟩)] } := by
  simp [Database.resolver, indexRows, Database.sourceRows, Database.repositoryRows,
    Database.connectionRows, Database.evidenceRows, oneOfEach, Dict.index, Dict.ofPairs, Dict.set,
    loneSource, loneRepository]

theorem get_lone {K V : Type} [DecidableEq K] (k k' : K) (v : V) :
    Dict.get [(k, v)] k' = if k = k' then some v else none := by
  by_cases h : k = k' <;> simp [Dict.get, h]

theorem resolves_evidenceRef (externalId fullName : Str) (record reference repository : Uuid)
    {tokens : List Str} (halias : sourceAliasIsSupported rules (field ref "source") = true)
    (hselector : evidenceSelector ref = some ⟨.evidenceRef, reference.text, tokens⟩)
    (hprovider : providerMatchesSourceHint rules provider (sourceKey rules (field ref "source")) = true)
    (htokens : ∀ token ∈ tokens, token = record.text) :
    resolveDirectEvidence rules ((oneOfEach provider externalId fullName record reference
      repository).resolver sampleWorkspace) ref ≠ none := by
  rw [resolveDirectEvidence, halias, hselector, resolver_oneOfEach]
  simpa [get_lone, loneSource, hprovider] using htokens

theorem resolves_sourceRecord (externalId fullName : Str) (record reference repository : Uuid)
    (halias : sourceAliasIsSupported rules (field ref "source") = true)
    (hselector : evidenceSelector ref = some ⟨.sourceRecord, record.text, []⟩)
    (hprovider : providerMatchesSourceHint rules provider (sourceKey rules (field ref "source")) = true) :
    resolveDirectEvidence rules ((oneOfEach provider externalId fullName record reference
      repository).resolver sampleWorkspace) ref ≠ none := by
  rw [resolveDirectEvidence, halias, hselector, resolver_oneOfEach]
  simp [get_lone, loneSource, hprovider]

/-- A record of the source by its name there, or without a source a repository by its full name. -/
theorem resolves_external (halias : sourceAliasIsSupported rules (field ref "source") = true)
    (hselector : evidenceSelector ref = some ⟨.external, token, []⟩) (hrecord : record.text ≠ token) :
    resolveDirectEvidence rules ((oneOfEach ((sourceKey rules (field ref "source")).getD []) token
      token record record record).resolver sampleWorkspace) ref ≠ none := by
  rw [resolveDirectEvidence, halias, hselector, resolver_oneOfEach]
  cases hhint : sourceKey rules (field ref "source") with
  | none => simp [get_lone, resolveExternal, hrecord, providerMatchesSourceHint]
  | some key => simp [get_lone, resolveExternal, hrecord]

theorem unresolved_external (hselector : evidenceSelector ref = some ⟨.external, token', []⟩)
    (hne : token ≠ token') (hrecord : record.text ≠ token') :
    resolveDirectEvidence rules ((oneOfEach provider token token record record
      record).resolver sampleWorkspace) ref = none := by
  have hnil : Dict.get ([] : List (Str × ConnectionRow)) token' = none := rfl
  rw [resolveDirectEvidence, hselector, resolver_oneOfEach]
  cases sourceKey rules (field ref "source") <;>
    simp [get_lone, resolveExternal, hrecord, hne, hnil]

theorem exists_uuid_ne (token token' : Str) :
    ∃ id : Uuid, id.text ≠ token ∧ id.text ≠ token' := by
  have h01 : (sampleUuid 0).text ≠ (sampleUuid 1).text := by decide +kernel
  have h02 : (sampleUuid 0).text ≠ (sampleUuid 2).text := by decide +kernel
  have h12 : (sampleUuid 1).text ≠ (sampleUuid 2).text := by decide +kernel
  by_contra hnone
  have hall (id : Uuid) : id.text = token ∨ id.text = token' := by
    by_contra hneither
    exact hnone ⟨id, not_or.1 hneither⟩
  rcases hall (sampleUuid 0) with h0 | h0 <;> rcases hall (sampleUuid 1) with h1 | h1 <;>
    rcases hall (sampleUuid 2) with h2 | h2 <;> simp_all

end lone

section agreement

variable {Digest : Type} {rules : EvidenceRules Digest} {ref ref' : Fields}
  {selector : EvidenceSelector}

theorem source_text (h : actionEvidenceRefMatchesSchema rules ref = true) :
    ∃ source, field ref "source" = .str source := by
  simp only [actionEvidenceRefMatchesSchema, Bool.and_eq_true] at h
  obtain ⟨source, hsource, -⟩ := (Option.any_eq_true ..).1 h.1.1.1.1.2
  exact ⟨source, (strictText_some hsource).1⟩

/-- A reference that names a row is answered where the row is there. -/
theorem exists_resolved (h : actionEvidenceRefMatchesSchema rules ref = true)
    (halias : sourceAliasIsSupported rules (field ref "source") = true)
    (hnamed : named ref = some selector) (hkind : selector.kind ≠ .external) :
    ∃ db : Database,
      resolveDirectEvidence rules (db.resolver sampleWorkspace) ref ≠ none := by
  obtain ⟨hfound, hcanonical⟩ := named_some.1 hnamed
  obtain ⟨source, hsource⟩ := source_text h
  have hprovider : providerMatchesSourceHint rules source (sourceKey rules (field ref "source")) =
      true := by
    rw [hsource, providerMatchesSourceHint]
    simp
  rcases evidenceSelector_cases ref with ⟨token, -, hcase⟩ |
    ⟨-, -, ⟨token, -, hcase⟩ | ⟨-, hcase⟩⟩ | ⟨-, -, hcase⟩
  · obtain rfl := Option.some.inj (hfound.symm.trans hcase)
    obtain ⟨huuid, hall, hone⟩ := canonical_evidenceRef.1 hcanonical
    obtain ⟨record, hrecord⟩ : ∃ record : Uuid, ∀ token ∈ sourceRecordTokens ref,
        token = record.text := by
      cases htokens : sourceRecordTokens ref with
      | nil => exact ⟨sampleWorkspace, fun _ hmem => nomatch hmem⟩
      | cons first rest =>
        rw [htokens] at hall hone
        obtain rfl := List.length_eq_zero_iff.1 (Nat.le_zero.1 (Nat.le_of_succ_le_succ hone))
        exact ⟨⟨first, hall first List.mem_cons_self⟩, fun _ hmem => List.mem_singleton.1 hmem⟩
    exact ⟨_, resolves_evidenceRef [] [] record ⟨token, huuid⟩ record halias hfound hprovider hrecord⟩
  · obtain rfl := Option.some.inj (hfound.symm.trans hcase)
    exact ⟨_, resolves_sourceRecord [] [] ⟨token, hcanonical⟩ sampleWorkspace sampleWorkspace halias
      hfound hprovider⟩
  · cases hfound.symm.trans hcase
  · rw [hcase] at hfound
    obtain ⟨token, -, rfl⟩ := Option.map_eq_some_iff.1 hfound
    exact absurd rfl hkind

theorem named_of_agreed (h : Respelled rules ref ref')
    (halias : sourceAliasIsSupported rules (field ref "source") = true)
    (hagree : ∀ db : Database, resolveDirectEvidence rules (db.resolver sampleWorkspace) ref =
      resolveDirectEvidence rules (db.resolver sampleWorkspace) ref')
    (hnamed : named ref = some selector) : named ref' = some selector := by
  by_cases hkind : selector.kind = .external
  · obtain ⟨hfound, -⟩ := named_some.1 hnamed
    obtain ⟨token, token', rfl, hfound', -⟩ := external_selector h hfound hkind
    by_cases hsame : token = token'
    · exact named_some.2 ⟨hsame ▸ hfound', rfl⟩
    · obtain ⟨id, hid, hid'⟩ := exists_uuid_ne token token'
      have hresolved := resolves_external halias hfound hid
      rw [hagree] at hresolved
      exact absurd (unresolved_external hfound' hsame hid') hresolved
  · cases hnamed' : named ref' with
    | some selector' => rw [named_eq h hnamed hnamed' hkind]
    | none =>
      obtain ⟨db, hresolved⟩ := exists_resolved h.accepted halias hnamed hkind
      rw [hagree] at hresolved
      exact absurd (unresolved_of_unnamed hnamed') hresolved

theorem answer_of_selector (h : Respelled rules ref ref')
    (hselector : evidenceSelector ref = evidenceSelector ref') (plan : Plan) (db : Database)
    (workspaceId : Uuid) :
    evidenceAnswer rules plan db workspaceId ref = evidenceAnswer rules plan db workspaceId ref' := by
  have htokens : evidenceTokens ref = evidenceTokens ref' := by
    rw [evidenceTokens, evidenceTokens, hselector]
  have hresolve (resolver : Resolver) :
      resolveDirectEvidence rules resolver ref = resolveDirectEvidence rules resolver ref' := by
    rw [resolveDirectEvidence, resolveDirectEvidence, hselector, h.others "source" (by decide)]
  rw [answer_eq, answer_eq, hresolve, Query.ofRefs, Query.ofRefs, List.flatMap_singleton,
    List.flatMap_singleton, htokens]

/-- Two spellings of a reference are answered alike in every database just when both name what they
name, or neither does: an id that the resolver looks up is written in the canonical way in both or in
neither, and another name is the same text. -/
theorem answers_agree_iff
    (hencodable : ∀ text id, rules.uuid text = some id → Str.encodable text = true)
    (h : Respelled rules ref ref') :
    (∀ plan db workspaceId, evidenceAnswer rules plan db workspaceId ref =
        evidenceAnswer rules plan db workspaceId ref') ↔
      sourceAliasIsSupported rules (field ref "source") = false ∨ named ref = named ref' := by
  have hsource := h.others "source" (by decide)
  rcases same_or_encodable hencodable h with hsame | ⟨hsent, hsent'⟩
  · exact ⟨fun _ => .inr (congrArg (Option.filter _) hsame), fun _ => answer_of_selector h hsame⟩
  have hanswer (plan : Plan) (db : Database) (workspaceId : Uuid) :
      evidenceAnswer rules plan db workspaceId ref = evidenceAnswer rules plan db workspaceId ref' ↔
        resolveDirectEvidence rules (db.resolver workspaceId) ref =
          resolveDirectEvidence rules (db.resolver workspaceId) ref' := by
    rw [answer_eq, answer_eq, if_pos hsent, if_pos hsent', Except.ok.injEq]
  simp only [hanswer]
  constructor
  · intro hagree
    cases halias : sourceAliasIsSupported rules (field ref "source") with
    | false => exact .inl rfl
    | true =>
      refine .inr (Option.ext fun selector => ⟨?_, ?_⟩)
      · exact named_of_agreed h halias fun db => hagree .asListed db sampleWorkspace
      · exact named_of_agreed h.symm (hsource ▸ halias)
          fun db => (hagree .asListed db sampleWorkspace).symm
  · rintro (halias | hnamed) plan db workspaceId
    · rw [resolveDirectEvidence, resolveDirectEvidence, ← hsource, halias]
      rfl
    · cases hnamed' : named ref' with
      | none => rw [unresolved_of_unnamed hnamed', unresolved_of_unnamed (hnamed.trans hnamed')]
      | some selector =>
        have hfound := (named_some.1 (hnamed.trans hnamed')).1
        rw [resolveDirectEvidence, resolveDirectEvidence, ← hsource, hfound,
          (named_some.1 hnamed').1]

end agreement

theorem casefold_canonical {text : Str} (h : isUuidText text = true) :
    asciiRules.casefold text = text := by
  refine (List.map_congr_left fun c hc => ?_).trans (List.map_id text)
  simp only [isUuidText, Bool.and_eq_true, List.all_eq_true, beq_iff_eq] at h
  refine if_neg fun hupper => ?_
  have hdigit := h.1.2 c (List.mem_filter.2 ⟨hc, by
    rw [bne_iff_ne]
    omega⟩)
  simp only [Bool.or_eq_true, Bool.and_eq_true, decide_eq_true_eq] at hdigit
  omega

/-- The rules of the samples, with ids in capitals too. -/
def capitalRules : EvidenceRules (List Fields) :=
  { asciiRules with
    uuid := fun text => asciiRules.uuid (asciiRules.casefold text)
    uuid_text := fun id => by
      rw [casefold_canonical id.canonical]
      exact asciiRules.uuid_text id }

theorem encodable_capital {text : Str} {id : Uuid} (h : capitalRules.uuid text = some id) :
    Str.encodable text = true := by
  have hcanonical : isUuidText (asciiRules.casefold text) = true := by
    by_contra hnot
    have hnone : capitalRules.uuid text = none := dif_neg hnot
    rw [hnone] at h
    cases h
  refine List.all_eq_true.2 fun c hc => ?_
  have hgraphic := uuid_graphic ⟨_, hcanonical⟩ _ (List.mem_map_of_mem hc)
  have hlow : c < 127 := by
    split at hgraphic <;> omega
  have hnot : ¬0xD800 ≤ c := by omega
  simp [hnot]

/-- A reference to a source record by its id, in some spelling. -/
def recordRef (text : Str) : Fields :=
  [(Str.of "kind", .str (Str.of "document")), (Str.of "source", .str (Str.of "github")),
    (Str.of "source_record_id", .str text)]

theorem respelled_recordRef {Digest : Type} {rules : EvidenceRules Digest} {text text' : Str}
    (id : Uuid) (haccepted : actionEvidenceRefMatchesSchema rules (recordRef text) = true)
    (haccepted' : actionEvidenceRefMatchesSchema rules (recordRef text') = true)
    (hid : rules.uuid text = some id) (hid' : rules.uuid text' = some id) :
    Respelled rules (recordRef text) (recordRef text') := by
  have hother (key : String) (hkey : key ≠ "source_record_id") :
      field (recordRef text) key = field (recordRef text') key := by
    have hne : Str.of "source_record_id" ≠ Str.of key := fun hsame => hkey (Str.of_inj hsame).symm
    simp [field, recordRef, Dict.get, List.find?_cons, hne]
  have hrecord (text : Str) : field (recordRef text) "source_record_id" = .str text := by
    have hkind : Str.of "kind" ≠ Str.of "source_record_id" := by decide
    have hsource : Str.of "source" ≠ Str.of "source_record_id" := by decide
    simp [field, recordRef, Dict.get, hkind, hsource]
  refine ⟨haccepted, haccepted', fun key _ => ?_, fun key hkey => ?_⟩
  · by_cases hsame : key = "source_record_id"
    · subst hsame
      exact .inr ⟨text, text', id, hrecord text, hrecord text', hid, hid'⟩
    · exact .inl (hother key hsame)
  · refine hother key fun hsame => hkey ?_
    rw [hsame]
    decide

def letterUuid : Uuid := ⟨Str.of "ab000000-0000-4000-8000-000000000001", by decide +kernel⟩

/-- Capitals beside small letters or alone: no reference in either finds its record. -/
theorem answers_agree_iff_capitals :
    named (recordRef (Str.of "AB000000-0000-4000-8000-000000000001")) = none ∧
      ∀ plan db workspaceId,
        evidenceAnswer capitalRules plan db workspaceId
            (recordRef (Str.of "AB000000-0000-4000-8000-000000000001")) =
          evidenceAnswer capitalRules plan db workspaceId
            (recordRef (Str.of "Ab000000-0000-4000-8000-000000000001")) := by
  have hrespelled : Respelled capitalRules
      (recordRef (Str.of "AB000000-0000-4000-8000-000000000001"))
      (recordRef (Str.of "Ab000000-0000-4000-8000-000000000001")) :=
    respelled_recordRef letterUuid (by decide +kernel) (by decide +kernel) (by decide +kernel)
      (by decide +kernel)
  exact ⟨by decide +kernel, (answers_agree_iff (fun _ _ => encodable_capital) hrespelled).2
    (.inr (by decide +kernel))⟩

/-- The record is there, and the capitals do not find it. -/
theorem capitals_unanswered :
    Respelled capitalRules (recordRef letterUuid.text)
        (recordRef (Str.of "AB000000-0000-4000-8000-000000000001")) ∧
      ∃ plan db workspaceId, evidenceAnswer capitalRules plan db workspaceId
          (recordRef letterUuid.text) ≠
        evidenceAnswer capitalRules plan db workspaceId
          (recordRef (Str.of "AB000000-0000-4000-8000-000000000001")) := by
  refine ⟨respelled_recordRef letterUuid (by decide +kernel) (by decide +kernel)
    (by decide +kernel) (by decide +kernel), .asListed,
    oneOfEach (Str.of "github") [] [] letterUuid sampleWorkspace sampleWorkspace, sampleWorkspace,
    fun hsame => ?_⟩
  have hanswered : ((evidenceAnswer capitalRules .asListed
      (oneOfEach (Str.of "github") [] [] letterUuid sampleWorkspace sampleWorkspace) sampleWorkspace
      (recordRef letterUuid.text)).toOption.bind fun answer => answer).isSome = true := by
    decide +kernel
  have hunanswered : ((evidenceAnswer capitalRules .asListed
      (oneOfEach (Str.of "github") [] [] letterUuid sampleWorkspace sampleWorkspace) sampleWorkspace
      (recordRef (Str.of "AB000000-0000-4000-8000-000000000001"))).toOption.bind
        fun answer => answer).isSome = false := by
    decide +kernel
  rw [hsame] at hanswered
  cases hanswered.symm.trans hunanswered

end FounderOs.Headquarters
