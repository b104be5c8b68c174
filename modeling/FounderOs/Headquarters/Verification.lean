import FounderOs.Foundation.Outcome
import FounderOs.Headquarters.Evidence

namespace FounderOs.Headquarters

open Execution Decision

variable {Digest : Type} {rules : EvidenceRules Digest} {db : Database} {plan : Plan}
variable {workspaceId : Uuid} {proposals : List Proposal} {proposal : Proposal}
variable {refs : List Fields} {ref : Fields} {r r' : Resolver} {token : Str}

theorem uuid_eq {a b : Uuid} (h : a.text = b.text) : a = b := by
  cases a
  cases b
  cases h
  rfl

/-- The resolver over all that the workspace holds. -/
def Database.resolver (db : Database) (workspaceId : Uuid) : Resolver :=
  indexRows (db.sourceRows workspaceId) (db.repositoryRows workspaceId)
    (db.connectionRows workspaceId) (db.evidenceRows workspaceId)

theorem sourceRows_id (db : Database) (workspaceId : Uuid) :
    Dict.Unique (·.id.text) (db.sourceRows workspaceId) := by
  intro a ha b hb hid
  obtain ⟨x, hx, rfl⟩ := List.mem_map.1 ha
  obtain ⟨y, hy, rfl⟩ := List.mem_map.1 hb
  rw [db.sourceRecord_id x (List.mem_filter.1 hx).1 y (List.mem_filter.1 hy).1 (uuid_eq hid)]

theorem sourceRows_name (db : Database) (workspaceId : Uuid) :
    Dict.Unique (fun row => (row.provider, row.externalId)) (db.sourceRows workspaceId) := by
  intro a ha b hb hname
  obtain ⟨x, hx, rfl⟩ := List.mem_map.1 ha
  obtain ⟨y, hy, rfl⟩ := List.mem_map.1 hb
  obtain ⟨hx, hxw⟩ := List.mem_filter.1 hx
  obtain ⟨hy, hyw⟩ := List.mem_filter.1 hy
  have hwork : x.workspaceId = y.workspaceId :=
    (of_decide_eq_true hxw).1.trans (of_decide_eq_true hyw).1.symm
  obtain ⟨hprovider, hexternal⟩ := Prod.mk.inj hname
  rw [db.sourceRecord_name x hx y hy (by simp [hwork, hprovider, hexternal])]

theorem repositoryRows_id (db : Database) (workspaceId : Uuid) :
    Dict.Unique (·.id.text) (db.repositoryRows workspaceId) := by
  intro a ha b hb hid
  obtain ⟨x, hx, rfl⟩ := List.mem_map.1 ha
  obtain ⟨y, hy, rfl⟩ := List.mem_map.1 hb
  rw [db.repository_id x (List.mem_filter.1 hx).1 y (List.mem_filter.1 hy).1 (uuid_eq hid)]

/-- One provider is admitted, so a full name alone is a key. -/
theorem repositoryRows_name (db : Database) (workspaceId : Uuid) :
    Dict.Unique (·.fullName) (db.repositoryRows workspaceId) := by
  intro a ha b hb hname
  obtain ⟨x, hx, rfl⟩ := List.mem_map.1 ha
  obtain ⟨y, hy, rfl⟩ := List.mem_map.1 hb
  obtain ⟨hx, hxw⟩ := List.mem_filter.1 hx
  obtain ⟨hy, hyw⟩ := List.mem_filter.1 hy
  have hwork : x.workspaceId = y.workspaceId :=
    (of_decide_eq_true hxw).1.trans (of_decide_eq_true hyw).1.symm
  have hprovider : x.provider = y.provider :=
    (db.repository_provider x hx).trans (db.repository_provider y hy).symm
  have hfull : x.fullName = y.fullName := hname
  rw [db.repository_name x hx y hy (by simp [hwork, hprovider, hfull])]

theorem connectionRows_id (db : Database) (workspaceId : Uuid) :
    Dict.Unique (·.id.text) (db.connectionRows workspaceId) := by
  intro a ha b hb hid
  obtain ⟨x, hx, rfl⟩ := List.mem_map.1 ha
  obtain ⟨y, hy, rfl⟩ := List.mem_map.1 hb
  rw [db.connection_id x (List.mem_filter.1 hx).1 y (List.mem_filter.1 hy).1 (uuid_eq hid)]

theorem evidenceRows_id (db : Database) (workspaceId : Uuid) :
    Dict.Unique (·.id.text) (db.evidenceRows workspaceId) := by
  intro a ha b hb hid
  obtain ⟨x, hx, ha⟩ := List.mem_flatMap.1 ha
  obtain ⟨y, hy, hb⟩ := List.mem_flatMap.1 hb
  obtain ⟨s, hs, rfl⟩ := List.mem_map.1 ha
  obtain ⟨t, ht, rfl⟩ := List.mem_map.1 hb
  obtain rfl : x = y :=
    db.evidenceRef_id x (List.mem_filter.1 hx).1 y (List.mem_filter.1 hy).1 (uuid_eq hid)
  obtain ⟨hs, hsid⟩ := List.mem_filter.1 hs
  obtain ⟨ht, htid⟩ := List.mem_filter.1 ht
  have hsame : s.id.text = t.id.text :=
    congrArg Uuid.text ((of_decide_eq_true hsid).trans (of_decide_eq_true htid).symm)
  rw [sourceRows_id db workspaceId s hs t ht hsame]

structure Resolver.AgreesOn (r r' : Resolver) (token : Str) : Prop where
  sourceById : Dict.get r.sourceById token = Dict.get r'.sourceById token
  sourceByExternal : ∀ provider,
    Dict.get r.sourceByExternal (provider, token) = Dict.get r'.sourceByExternal (provider, token)
  repositoryById : Dict.get r.repositoryById token = Dict.get r'.repositoryById token
  repositoryByName : Dict.get r.repositoryByName token = Dict.get r'.repositoryByName token
  connectionById : Dict.get r.connectionById token = Dict.get r'.connectionById token
  evidenceById : Dict.get r.evidenceById token = Dict.get r'.evidenceById token

theorem resolveDirectEvidence_congr
    (h : ∀ selector, evidenceSelector ref = some selector → r.AgreesOn r' selector.token) :
    resolveDirectEvidence rules r ref = resolveDirectEvidence rules r' ref := by
  unfold resolveDirectEvidence
  cases hselector : evidenceSelector ref with
  | none => rfl
  | some selector =>
    have hagree := h selector hselector
    cases hkind : selector.kind with
    | evidenceRef => simp only [hkind, hagree.evidenceById, Option.bind_some]
    | sourceRecord => simp only [hkind, hagree.sourceById, Option.bind_some]
    | external =>
      simp only [hkind, resolveExternal, hagree.evidenceById, hagree.sourceById,
        hagree.sourceByExternal, hagree.repositoryById, hagree.repositoryByName,
        hagree.connectionById, Option.bind_some]

theorem cleanText_ne_nil {value : Field} {text : Str} (h : cleanText value = some text) :
    text ≠ [] := by
  obtain ⟨raw, -, h⟩ := Option.bind_eq_some_iff.1 h
  split at h
  · cases h
  · rename_i hjoined
    exact Option.some.inj h ▸ hjoined

theorem sourceRecordTokens_ne_nil (h : token ∈ sourceRecordTokens ref) : token ≠ [] := by
  unfold sourceRecordTokens at h
  cases ha : cleanText (field ref "source_record_id") <;>
    cases hb : cleanText (field ref "record_id") <;> simp only [ha, hb] at h
  · cases h
  · exact List.mem_singleton.1 h ▸ cleanText_ne_nil hb
  · exact List.mem_singleton.1 h ▸ cleanText_ne_nil ha
  · split at h
    · exact List.mem_singleton.1 h ▸ cleanText_ne_nil ha
    · rcases List.mem_cons.1 h with rfl | h
      · exact cleanText_ne_nil ha
      · exact List.mem_singleton.1 h ▸ cleanText_ne_nil hb

theorem selector_token_ne_nil {selector : EvidenceSelector}
    (h : evidenceSelector ref = some selector) : selector.token ≠ [] := by
  unfold evidenceSelector at h
  split at h
  · rename_i hclean
    exact Option.some.inj h ▸ cleanText_ne_nil hclean
  · split at h
    · rename_i token htokens
      have hmem : token ∈ sourceRecordTokens ref := htokens ▸ List.mem_singleton_self token
      exact Option.some.inj h ▸ sourceRecordTokens_ne_nil hmem
    · cases h
    · split at h
      · rename_i hclean
        exact Option.some.inj h ▸ cleanText_ne_nil hclean
      · obtain ⟨token, hclean, rfl⟩ := Option.map_eq_some_iff.1 h
        exact cleanText_ne_nil hclean

theorem mem_query_tokens :
    token ∈ (Query.ofRefs rules refs).tokens ↔ token ≠ [] ∧ ∃ ref ∈ refs, token ∈ evidenceTokens ref := by
  simp [Query.ofRefs, List.mem_eraseDups, and_comm]

theorem selector_token_mem {selector : EvidenceSelector} (href : ref ∈ refs)
    (h : evidenceSelector ref = some selector) :
    selector.token ∈ (Query.ofRefs rules refs).tokens := by
  refine mem_query_tokens.2 ⟨selector_token_ne_nil h, ref, href, ?_⟩
  simp [evidenceTokens, h, List.mem_eraseDups]

theorem uuid_mem {id : Uuid} (h : id.text ∈ (Query.ofRefs rules refs).tokens) :
    id ∈ (Query.ofRefs rules refs).uuidTokens :=
  List.mem_filterMap.2 ⟨id.text, h, rules.uuid_text id⟩

theorem build_eq_ok (plan : Plan) (db : Database) (workspaceId : Uuid) :
    (∃ r, buildDirectEvidenceResolver rules plan db workspaceId refs = .ok r) ↔
      (Query.ofRefs rules refs).tokens.all Str.encodable = true := by
  unfold buildDirectEvidenceResolver
  dsimp only
  split
  · rename_i h
    exact ⟨fun _ => h, fun _ => ⟨_, rfl⟩⟩
  · rename_i h
    constructor
    · rintro ⟨_, hr⟩
      cases hr
    · exact fun hall => absurd hall h

/-- What a query loads is all that its own tokens can name. -/
theorem agreesOn_build (hbuild : buildDirectEvidenceResolver rules plan db workspaceId refs = .ok r)
    (htoken : token ∈ (Query.ofRefs rules refs).tokens) :
    r.AgreesOn (db.resolver workspaceId) token := by
  unfold buildDirectEvidenceResolver at hbuild
  dsimp only at hbuild
  split at hbuild
  · obtain rfl := Except.ok.inj hbuild
    have hsub : ∀ {R : Type} {rows : List R} {p : R → Bool},
        ∀ row ∈ plan.order (rows.filter p), row ∈ rows := by
      intro R rows p row hrow
      exact (List.mem_filter.1 ((plan.perm _).mem_iff.1 hrow)).1
    have hloaded : ∀ {R : Type} {rows : List R} {p : R → Bool} {row : R}, row ∈ rows →
        p row = true → row ∈ plan.order (rows.filter p) := by
      intro R rows p row hrow hp
      exact (plan.perm _).mem_iff.2 (List.mem_filter.2 ⟨hrow, hp⟩)
    refine ⟨?_, fun provider => ?_, ?_, ?_, ?_, ?_⟩
    · refine Dict.get_index_restrict (sourceRows_id db workspaceId) hsub fun row hrow hkey => ?_
      exact hloaded hrow (decide_eq_true (.inl (uuid_mem (hkey ▸ htoken))))
    · refine Dict.get_index_restrict (sourceRows_name db workspaceId) hsub fun row hrow hkey => ?_
      exact hloaded hrow (decide_eq_true (.inr ((Prod.mk.inj hkey).2 ▸ htoken)))
    · refine Dict.get_index_restrict (repositoryRows_id db workspaceId) hsub fun row hrow hkey => ?_
      exact hloaded hrow (decide_eq_true (.inl (uuid_mem (hkey ▸ htoken))))
    · refine Dict.get_index_restrict (repositoryRows_name db workspaceId) hsub
        fun row hrow hkey => ?_
      exact hloaded hrow (decide_eq_true (.inr (hkey ▸ htoken)))
    · refine Dict.get_index_restrict (connectionRows_id db workspaceId) hsub fun row hrow hkey => ?_
      exact hloaded hrow (decide_eq_true (uuid_mem (hkey ▸ htoken)))
    · refine Dict.get_index_restrict (evidenceRows_id db workspaceId) hsub fun row hrow hkey => ?_
      exact hloaded hrow (decide_eq_true (uuid_mem (hkey ▸ htoken)))
  · cases hbuild

theorem resolve_build (hbuild : buildDirectEvidenceResolver rules plan db workspaceId refs = .ok r)
    (href : ref ∈ refs) :
    resolveDirectEvidence rules r ref = resolveDirectEvidence rules (db.resolver workspaceId) ref :=
  resolveDirectEvidence_congr fun _ hselector =>
    agreesOn_build hbuild (selector_token_mem href hselector)

/-- What a proposal's references name in the workspace. -/
def citedEvidence (rules : EvidenceRules Digest) (db : Database) (workspaceId : Uuid)
    (proposal : Proposal) : Option (List ResolvedEvidence) :=
  (strictEvidenceRefs rules proposal.evidenceRefs).bind fun refs =>
    let resolvedRefs := refs.filterMap (resolveDirectEvidence rules (db.resolver workspaceId))
    if resolvedRefs.length = refs.length ∧ proposalEvidenceIsRelevant rules proposal resolvedRefs
    then some resolvedRefs else none

def linkedItem (db : Database) (workspaceId : Uuid) (proposal : Proposal) : Option BriefingItem :=
  proposal.briefingItemId.bind (Dict.get (Dict.index (·.id) (db.briefingItems.filter fun item =>
    db.briefings.any fun b => b.id = item.briefingId && b.workspaceId = workspaceId)))

theorem filterMap_build (hbuild : buildDirectEvidenceResolver rules plan db workspaceId refs = .ok r)
    {own : List Fields} (hown : ∀ ref ∈ own, ref ∈ refs) :
    own.filterMap (resolveDirectEvidence rules r) =
      own.filterMap (resolveDirectEvidence rules (db.resolver workspaceId)) :=
  List.filterMap_congr fun ref href => resolve_build hbuild (hown ref href)

theorem validate_eq_ok {resolved : List ResolvedEvidence} :
    validateActionProposalEvidence rules plan db workspaceId proposal = .ok resolved ↔
      proposal.workspaceId = workspaceId ∧
      (∀ refs, strictEvidenceRefs rules proposal.evidenceRefs = some refs →
        (Query.ofRefs rules refs).tokens.all Str.encodable = true) ∧
      citedEvidence rules db workspaceId proposal = some resolved := by
  unfold validateActionProposalEvidence citedEvidence
  by_cases hhome : proposal.workspaceId = workspaceId
  · rw [if_neg (not_not.2 hhome)]
    cases hrefs : strictEvidenceRefs rules proposal.evidenceRefs with
    | none => simp
    | some refs =>
      dsimp only
      cases hbuild : buildDirectEvidenceResolver rules plan db workspaceId refs with
      | error e =>
        have hfail : ¬ (Query.ofRefs rules refs).tokens.all Str.encodable = true := by
          rw [← build_eq_ok plan db workspaceId, hbuild]
          simp
        constructor
        · intro h
          cases h
        · rintro ⟨-, hall, -⟩
          exact absurd (hall refs rfl) hfail
      | ok r =>
        have hall := (build_eq_ok plan db workspaceId).1 ⟨r, hbuild⟩
        have hsame := filterMap_build hbuild (fun ref href => href)
        simp only [Except.bind, hsame, Option.bind_some]
        constructor
        · intro h
          split at h
          · cases h
          · split at h
            · cases h
            · rename_i hlength hrelevant
              refine ⟨hhome, fun _ h' => Option.some.inj h' ▸ hall, ?_⟩
              rw [if_pos ⟨not_not.1 hlength, by simpa using hrelevant⟩]
              exact congrArg some (Except.ok.inj h)
        · rintro ⟨-, -, h⟩
          split at h
          · rename_i hcited
            rw [if_neg (not_not.2 hcited.1), if_neg (by simp [hcited.2])]
            exact congrArg Except.ok (Option.some.inj h)
          · cases h
  · rw [if_pos hhome]
    constructor
    · intro h
      cases h
    · exact fun h => absurd h.1 hhome

theorem strictEvidenceRefs_ne_nil {column : Column}
    (h : strictEvidenceRefs rules column = some refs) : refs ≠ [] := by
  cases column with
  | other => cases h
  | list items =>
    simp only [strictEvidenceRefs] at h
    split at h
    · cases h
    · rename_i hitems
      split at h
      · rintro rfl
        have hlength : (items.filterMap Item.asMapping).length = items.length := by
          by_contra hne
          exact hitems (.inr (.inr hne))
        rw [Option.some.inj h] at hlength
        exact hitems (.inl (List.eq_nil_of_length_eq_zero hlength.symm))
      · cases h

theorem dedupeEvidence_ne_nil {evidence : List Evidence} (h : evidence ≠ []) :
    dedupeEvidence evidence ≠ [] := by
  have hgrows : ∀ (refs : List Evidence) (d : List (Str × Evidence)), d ≠ [] →
      refs.foldl (fun unique ref => Dict.setDefault unique ref.id ref) d ≠ [] := by
    intro refs
    induction refs with
    | nil => exact fun _ hd => hd
    | cons first rest ih => exact fun d _ => ih _ (Dict.setDefault_ne_nil d first.id first)
  cases evidence with
  | nil => exact absurd rfl h
  | cons first rest =>
    intro hnil
    exact hgrows rest _ (Dict.setDefault_ne_nil [] first.id first) (List.map_eq_nil_iff.1 hnil)

/-- The only caller passes rows of the workspace, read in the same transaction. -/
def Stored (db : Database) (workspaceId : Uuid) (proposals : List Proposal) : Prop :=
  ∀ proposal ∈ proposals, proposal ∈ db.proposals ∧ proposal.workspaceId = workspaceId

theorem get_strictProposalRefs (rules : EvidenceRules Digest) (hstored : Stored db workspaceId proposals)
    (hmem : proposal ∈ proposals) :
    Dict.get (strictProposalRefs rules proposals) proposal.id =
      strictEvidenceRefs rules proposal.evidenceRefs := by
  apply Option.ext
  intro refs
  rw [strictProposalRefs, Dict.get_ofPairs, List.mem_filterMap]
  · constructor
    · rintro ⟨other, hother, hpair⟩
      obtain ⟨refs', hrefs, hpair⟩ := Option.map_eq_some_iff.1 hpair
      obtain ⟨hid, rfl⟩ := Prod.mk.inj hpair
      rwa [db.proposal_id other (hstored other hother).1 proposal (hstored proposal hmem).1 hid]
        at hrefs
    · exact fun hrefs => ⟨proposal, hmem, by simp [hrefs]⟩
  · intro p hp q hq hid
    obtain ⟨a, ha, hp⟩ := List.mem_filterMap.1 hp
    obtain ⟨b, hb, hq⟩ := List.mem_filterMap.1 hq
    obtain ⟨refsA, hrefsA, rfl⟩ := Option.map_eq_some_iff.1 hp
    obtain ⟨refsB, hrefsB, rfl⟩ := Option.map_eq_some_iff.1 hq
    obtain rfl := db.proposal_id a (hstored a ha).1 b (hstored b hb).1 hid
    exact Option.some.inj (hrefsA.symm.trans hrefsB)

theorem mem_directRefs (hstored : Stored db workspaceId proposals) :
    ref ∈ (strictProposalRefs rules proposals).flatMap (·.2) ↔
      ∃ proposal ∈ proposals, ∃ refs,
        strictEvidenceRefs rules proposal.evidenceRefs = some refs ∧ ref ∈ refs := by
  constructor
  · intro h
    obtain ⟨entry, hentry, href⟩ := List.mem_flatMap.1 h
    obtain ⟨proposal, hmem, hpair⟩ := List.mem_filterMap.1 (Dict.mem_of_mem_ofPairs hentry)
    obtain ⟨refs, hrefs, rfl⟩ := Option.map_eq_some_iff.1 hpair
    exact ⟨proposal, hmem, refs, hrefs, href⟩
  · rintro ⟨proposal, hmem, refs, hrefs, href⟩
    have hget := get_strictProposalRefs rules hstored hmem
    rw [hrefs] at hget
    exact List.mem_flatMap.2 ⟨_, Dict.mem_of_get hget, href⟩

theorem get_linkedBriefingItems (hmem : proposal ∈ proposals) :
    proposal.briefingItemId.bind (Dict.get (linkedBriefingItems plan db workspaceId proposals)) =
      linkedItem db workspaceId proposal := by
  cases hid : proposal.briefingItemId with
  | none => simp [linkedItem, hid]
  | some id =>
    rw [linkedItem, hid, Option.bind_some, Option.bind_some, linkedBriefingItems]
    apply Dict.get_index_restrict
    · exact db.briefingItem_id.subset fun item hitem => (List.mem_filter.1 hitem).1
    · intro item hitem
      obtain ⟨hitem, hp⟩ := List.mem_filter.1 ((plan.perm _).mem_iff.1 hitem)
      exact List.mem_filter.2 ⟨hitem, (Bool.and_eq_true_iff.1 hp).1⟩
    · intro item hitem hkey
      obtain ⟨hitem, hp⟩ := List.mem_filter.1 hitem
      refine (plan.perm _).mem_iff.2 (List.mem_filter.2 ⟨hitem, Bool.and_eq_true_iff.2 ⟨hp, ?_⟩⟩)
      exact decide_eq_true (List.mem_filterMap.2 ⟨proposal, hmem, hkey ▸ hid⟩)

theorem evidenceMaterial_eq :
    evidenceMaterial rules refs =
      if refs.all Fields.encodable then .ok (rules.digest refs) else .error .unencodable := rfl

theorem query_encodable :
    (Query.ofRefs rules refs).tokens.all Str.encodable = true ↔
      ∀ ref ∈ refs, ∀ token ∈ evidenceTokens ref, Str.encodable token = true := by
  rw [List.all_eq_true]
  constructor
  · intro h ref href token htoken
    by_cases hnil : token = []
    · simp [hnil, Str.encodable]
    · exact h token (mem_query_tokens.2 ⟨hnil, ref, href, htoken⟩)
  · intro h token htoken
    obtain ⟨-, ref, href, hmem⟩ := mem_query_tokens.1 htoken
    exact h ref href token hmem

theorem cited_strict {resolved : List ResolvedEvidence}
    (h : citedEvidence rules db workspaceId proposal = some resolved) :
    ∃ refs, strictEvidenceRefs rules proposal.evidenceRefs = some refs := by
  obtain ⟨refs, hrefs, -⟩ := Option.bind_eq_some_iff.1 h
  exact ⟨refs, hrefs⟩

variable [DecidableEq Digest]

/-- The two materials are digested for a system proposal with a strict linked item only. -/
theorem trustedItem_eq_ok {linked : Option BriefingItem} :
    (∃ trusted, trustedItem rules proposal refs linked = .ok trusted) ↔
      ∀ item itemRefs, linked = some item → strictEvidenceRefs rules item.evidenceRefs = some itemRefs →
        proposal.createdBy = .system → proposal.createdByUserId = none →
        ∀ ref ∈ refs ++ itemRefs, ref.encodable = true := by
  unfold trustedItem
  cases linked with
  | none => simp
  | some item =>
    cases hitem : strictEvidenceRefs rules item.evidenceRefs with
    | none =>
      simp only [Option.bind_some, hitem, Option.map_none, Except.ok.injEq, exists_eq', true_iff]
      rintro _ _ hsome hrefs
      obtain rfl := Option.some.inj hsome
      rw [hitem] at hrefs
      cases hrefs
    | some itemRefs =>
      simp only [Option.bind_some, hitem, Option.map_some]
      split
      · rename_i hother
        simp only [Except.ok.injEq, exists_eq', true_iff]
        rintro _ _ - - hsystem huser
        rcases hother with hne | hne
        · exact absurd hsystem hne
        · exact absurd huser hne
      · rename_i hboth
        rw [not_or, not_not, not_not] at hboth
        simp only [evidenceMaterial_eq]
        constructor
        · rintro ⟨trusted, h⟩ _ _ hsome hrefs - - ref href
          obtain rfl := Option.some.inj hsome
          obtain rfl := Option.some.inj (hitem.symm.trans hrefs)
          split at h
          · rename_i hown
            split at h
            · rename_i hlinked
              rcases List.mem_append.1 href with href | href
              · exact List.all_eq_true.1 hown ref href
              · exact List.all_eq_true.1 hlinked ref href
            · cases h
          · cases h
        · intro h
          have hall := h item itemRefs rfl hitem hboth.1 hboth.2
          have hown : refs.all Fields.encodable = true :=
            List.all_eq_true.2 fun ref href => hall ref (List.mem_append_left _ href)
          have hlinked : itemRefs.all Fields.encodable = true :=
            List.all_eq_true.2 fun ref href => hall ref (List.mem_append_right _ href)
          exact ⟨_, by rw [if_pos hown, if_pos hlinked]; rfl⟩

theorem verifyProposal_eq {items : List (Uuid × BriefingItem)}
    {proposalRefs : List (Uuid × List Fields)}
    (hbuild : buildDirectEvidenceResolver rules plan db workspaceId refs = .ok r)
    (hown : ∀ own, strictEvidenceRefs rules proposal.evidenceRefs = some own →
      ∀ ref ∈ own, ref ∈ refs)
    (hrefs : Dict.get proposalRefs proposal.id = strictEvidenceRefs rules proposal.evidenceRefs)
    (hitem : proposal.briefingItemId.bind (Dict.get items) = linkedItem db workspaceId proposal) :
    verifyProposal rules r items proposalRefs proposal =
      match citedEvidence rules db workspaceId proposal with
      | none => .ok none
      | some resolved =>
        (trustedItem rules proposal ((strictEvidenceRefs rules proposal.evidenceRefs).getD [])
          (linkedItem db workspaceId proposal)).map fun trusted =>
            some ⟨proposal, dedupeEvidence (resolved.map (·.evidence)), trusted⟩ := by
  unfold verifyProposal citedEvidence
  rw [hrefs, hitem]
  cases hstrict : strictEvidenceRefs rules proposal.evidenceRefs with
  | none => rfl
  | some own =>
    have hne := strictEvidenceRefs_ne_nil hstrict
    simp only [filterMap_build hbuild (hown own hstrict), Option.bind_some, Option.getD_some]
    split
    · rename_i hfail
      rw [if_neg]
      rintro ⟨hlength, -⟩
      rcases hfail with hnil | hshort
      · exact hne hnil
      · exact hshort hlength
    · rename_i hfull
      rw [not_or, not_not] at hfull
      split
      · rename_i hunrelated
        rw [if_neg]
        rintro ⟨-, hrelevant⟩
        simp [hrelevant] at hunrelated
      · rename_i hrelevant
        rw [if_pos ⟨hfull.2, by simpa using hrelevant⟩]
        have hsome : dedupeEvidence ((own.filterMap
            (resolveDirectEvidence rules (db.resolver workspaceId))).map (·.evidence)) ≠ [] := by
          apply dedupeEvidence_ne_nil
          rw [← List.length_pos_iff, List.length_map, hfull.2]
          exact List.length_pos_iff.2 hne
        simp only [if_neg hsome]

/-- No text that the batch has to encode holds a lone surrogate: the selectors it binds, and the
references it digests to compare a system proposal with its briefing item. -/
structure Encodable (rules : EvidenceRules Digest) (db : Database) (workspaceId : Uuid)
    (proposals : List Proposal) : Prop where
  selectors : ∀ proposal ∈ proposals, ∀ refs,
    strictEvidenceRefs rules proposal.evidenceRefs = some refs →
    ∀ ref ∈ refs, ∀ token ∈ evidenceTokens ref, Str.encodable token = true
  compared : ∀ proposal ∈ proposals, ∀ refs item itemRefs,
    strictEvidenceRefs rules proposal.evidenceRefs = some refs →
    (citedEvidence rules db workspaceId proposal).isSome →
    proposal.createdBy = .system → proposal.createdByUserId = none →
    linkedItem db workspaceId proposal = some item →
    strictEvidenceRefs rules item.evidenceRefs = some itemRefs →
    ∀ ref ∈ refs ++ itemRefs, ref.encodable = true

/-- The batch answers, and reports a proposal exactly when the proposal validates alone, with the
evidence it then resolves to. -/
def BatchAgrees (rules : EvidenceRules Digest) (db : Database) (workspaceId : Uuid)
    (proposals : List Proposal) : Prop :=
  ∀ plan plan' : Plan, ∃ verified,
    verifyProposals rules plan db workspaceId proposals = .ok verified ∧
    ∀ proposal ∈ proposals, ∀ evidenceRefs,
      (∃ v ∈ verified, v.proposal = proposal ∧ v.evidenceRefs = evidenceRefs) ↔
        ∃ resolved,
          validateActionProposalEvidence rules plan' db workspaceId proposal = .ok resolved ∧
          dedupeEvidence (resolved.map (·.evidence)) = evidenceRefs

/-- What a stored proposal comes to in a batch whose query loads. -/
theorem verifyProposal_stored (hstored : Stored db workspaceId proposals)
    (hbuild : buildDirectEvidenceResolver rules plan db workspaceId
      ((strictProposalRefs rules proposals).flatMap (·.2)) = .ok r)
    (hmem : proposal ∈ proposals) :
    verifyProposal rules r (linkedBriefingItems plan db workspaceId proposals)
        (strictProposalRefs rules proposals) proposal =
      match citedEvidence rules db workspaceId proposal with
      | none => .ok none
      | some resolved =>
        (trustedItem rules proposal ((strictEvidenceRefs rules proposal.evidenceRefs).getD [])
          (linkedItem db workspaceId proposal)).map fun trusted =>
            some ⟨proposal, dedupeEvidence (resolved.map (·.evidence)), trusted⟩ := by
  apply verifyProposal_eq hbuild
  · exact fun own hstrict ref href =>
      (mem_directRefs hstored).2 ⟨proposal, hmem, own, hstrict, href⟩
  · exact get_strictProposalRefs rules hstored hmem
  · exact get_linkedBriefingItems hmem

theorem verifyProposals_encodable (hstored : Stored db workspaceId proposals)
    {verified : List VerifiedProposal}
    (h : verifyProposals rules plan db workspaceId proposals = .ok verified) :
    Encodable rules db workspaceId proposals := by
  unfold verifyProposals at h
  dsimp only at h
  cases hbuild : buildDirectEvidenceResolver rules plan db workspaceId
      ((strictProposalRefs rules proposals).flatMap (·.2)) with
  | error e =>
    rw [hbuild] at h
    cases h
  | ok r =>
    have hquery := query_encodable.1 ((build_eq_ok plan db workspaceId).1 ⟨r, hbuild⟩)
    rw [hbuild] at h
    refine ⟨fun proposal hmem refs hrefs ref href => ?_, ?_⟩
    · exact hquery ref ((mem_directRefs hstored).2 ⟨proposal, hmem, refs, hrefs, href⟩)
    · intro proposal hmem refs item itemRefs hrefs hcited hsystem huser hitem hitemRefs
      cases hbatch : proposals.mapM (verifyProposal rules r
          (linkedBriefingItems plan db workspaceId proposals)
          (strictProposalRefs rules proposals)) with
      | error e => simp [Except.bind, Except.map, hbatch] at h
      | ok reports =>
        obtain ⟨report, hreport⟩ := mapM_ok_iff.1 ⟨reports, hbatch⟩ proposal hmem
        obtain ⟨resolved, hresolved⟩ := Option.isSome_iff_exists.1 hcited
        rw [verifyProposal_stored hstored hbuild hmem, hresolved, hrefs] at hreport
        cases htrusted : trustedItem rules proposal refs (linkedItem db workspaceId proposal) with
        | error e => simp [Except.map, htrusted] at hreport
        | ok trusted =>
          exact trustedItem_eq_ok.1 ⟨trusted, htrusted⟩ item itemRefs hitem hitemRefs hsystem huser

theorem verifyProposals_eq_ok (plan : Plan) (hstored : Stored db workspaceId proposals)
    (h : Encodable rules db workspaceId proposals) :
    ∃ verified, verifyProposals rules plan db workspaceId proposals = .ok verified ∧
      ∀ v, v ∈ verified ↔ ∃ proposal ∈ proposals, ∃ resolved trusted,
        citedEvidence rules db workspaceId proposal = some resolved ∧
        v = ⟨proposal, dedupeEvidence (resolved.map (·.evidence)), trusted⟩ ∧
        trustedItem rules proposal ((strictEvidenceRefs rules proposal.evidenceRefs).getD [])
          (linkedItem db workspaceId proposal) = .ok trusted := by
  have hquery : (Query.ofRefs rules ((strictProposalRefs rules proposals).flatMap (·.2))).tokens.all
      Str.encodable = true := by
    refine query_encodable.2 fun ref href => ?_
    obtain ⟨proposal, hmem, refs, hrefs, href⟩ := (mem_directRefs hstored).1 href
    exact h.selectors proposal hmem refs hrefs ref href
  obtain ⟨r, hbuild⟩ := (build_eq_ok plan db workspaceId).2 hquery
  have htrusted : ∀ proposal ∈ proposals, ∀ resolved,
      citedEvidence rules db workspaceId proposal = some resolved →
      ∃ trusted, trustedItem rules proposal
        ((strictEvidenceRefs rules proposal.evidenceRefs).getD [])
        (linkedItem db workspaceId proposal) = .ok trusted := by
    intro proposal hmem resolved hcited
    obtain ⟨refs, hrefs⟩ := cited_strict hcited
    rw [hrefs]
    refine trustedItem_eq_ok.2 fun item itemRefs hitem hitemRefs hsystem huser => ?_
    exact h.compared proposal hmem refs item itemRefs hrefs (by simp [hcited]) hsystem huser hitem
      hitemRefs
  have hall : ∀ proposal ∈ proposals, ∃ report, verifyProposal rules r
      (linkedBriefingItems plan db workspaceId proposals)
      (strictProposalRefs rules proposals) proposal = .ok report := by
    intro proposal hmem
    rw [verifyProposal_stored hstored hbuild hmem]
    cases hcited : citedEvidence rules db workspaceId proposal with
    | none => exact ⟨none, rfl⟩
    | some resolved =>
      obtain ⟨trusted, htrusted⟩ := htrusted proposal hmem resolved hcited
      exact ⟨_, by rw [htrusted]; rfl⟩
  obtain ⟨reports, hreports⟩ := mapM_ok_iff.2 hall
  refine ⟨reports.filterMap id, ?_, fun v => ?_⟩
  · simp [verifyProposals, hbuild, Except.bind, hreports, Except.map]
  · rw [List.mem_filterMap]
    simp only [id, exists_eq_right, mem_mapM_ok hreports]
    refine exists_congr fun proposal => and_congr_right fun hmem => ?_
    rw [verifyProposal_stored hstored hbuild hmem]
    cases hcited : citedEvidence rules db workspaceId proposal with
    | none => simp
    | some resolved =>
      obtain ⟨trusted, htrusted⟩ := htrusted proposal hmem resolved hcited
      simp [htrusted, Except.map, eq_comm]

/-- Rows come back as they are listed. -/
def Plan.asListed : Plan := ⟨fun rows => rows, fun rows => .refl rows⟩

theorem batch_verification_iff (hstored : Stored db workspaceId proposals) :
    BatchAgrees rules db workspaceId proposals ↔ Encodable rules db workspaceId proposals := by
  constructor
  · intro h
    obtain ⟨verified, hok, -⟩ := h .asListed .asListed
    exact verifyProposals_encodable hstored hok
  · intro h plan plan'
    obtain ⟨verified, hok, hverified⟩ := verifyProposals_eq_ok plan hstored h
    refine ⟨verified, hok, fun proposal hmem evidenceRefs => ?_⟩
    have halone : ∀ resolved,
        validateActionProposalEvidence rules plan' db workspaceId proposal = .ok resolved ↔
          citedEvidence rules db workspaceId proposal = some resolved := by
      intro resolved
      rw [validate_eq_ok]
      refine ⟨fun h => h.2.2, fun hcited => ⟨(hstored proposal hmem).2, ?_, hcited⟩⟩
      exact fun refs hrefs => query_encodable.2 (h.selectors proposal hmem refs hrefs)
    simp only [halone]
    constructor
    · rintro ⟨v, hv, rfl, rfl⟩
      obtain ⟨p, -, resolved, trusted, hcited, rfl, -⟩ := (hverified v).1 hv
      exact ⟨resolved, hcited, rfl⟩
    · rintro ⟨resolved, hcited, rfl⟩
      obtain ⟨refs, hrefs⟩ := cited_strict hcited
      obtain ⟨trusted, htrusted⟩ := trustedItem_eq_ok.2 fun item itemRefs hitem hitemRefs hsystem
        huser => h.compared proposal hmem refs item itemRefs hrefs (by simp [hcited]) hsystem huser
          hitem hitemRefs
      exact ⟨_, (hverified _).2 ⟨proposal, hmem, resolved, trusted, hcited, rfl, by
        rwa [hrefs, Option.getD_some]⟩, rfl, rfl⟩

def asciiRules : EvidenceRules (List Fields) where
  casefold text := text.map fun c => if 65 ≤ c ∧ c ≤ 90 then c + 32 else c
  uuid text := if h : isUuidText text = true then some ⟨text, h⟩ else none
  uuid_text id := dif_pos id.canonical
  httpUrl text := (Str.of "https://").isPrefixOf text
  safeUrl text := (Str.of "https://").isPrefixOf text
  digest refs := refs

def sampleProposal (id : Fin 10) (selector : Str) : Proposal where
  id := sampleUuid id
  workspaceId := sampleUuid 0
  briefingItemId := none
  targetProvider := .internal
  payload := .mapping []
  evidenceRefs := .list [.mapping [(Str.of "kind", .str (Str.of "repository")),
    (Str.of "source", .str (Str.of "github")), (Str.of "ref", .str selector)]]
  createdBy := .user
  createdByUserId := some (sampleUuid 9)

/-- Two proposals of one workspace, each with one selector, and the repository `octo/api`. -/
def sampleDatabase (first second : Str) : Database where
  sourceRecords := []
  evidenceRefs := []
  repositories :=
    [⟨⟨sampleUuid 3, Str.of "github", Str.of "octo/api", none, false, 0⟩, sampleUuid 0⟩]
  connections := []
  briefings := []
  briefingItems := []
  proposals := [sampleProposal 1 first, sampleProposal 2 second]
  sourceRecord_id := by simp [Dict.Unique]
  sourceRecord_name := by simp [Dict.Unique]
  evidenceRef_id := by simp [Dict.Unique]
  repository_id := by simp [Dict.Unique]
  repository_name := by simp [Dict.Unique]
  repository_provider := by simp
  connection_id := by simp [Dict.Unique]
  briefing_id := by simp [Dict.Unique]
  briefingItem_id := by simp [Dict.Unique]
  proposal_id := by
    have hne : sampleUuid 1 ≠ sampleUuid 2 := by decide +kernel
    simp [Dict.Unique, sampleProposal, hne, hne.symm]

theorem stored_sampleDatabase (first second : Str) :
    Stored (sampleDatabase first second) (sampleUuid 0) (sampleDatabase first second).proposals := by
  intro proposal hmem
  refine ⟨hmem, ?_⟩
  simp only [sampleDatabase, List.mem_cons, List.not_mem_nil, or_false] at hmem
  rcases hmem with rfl | rfl <;> rfl

theorem batch_verification_iff_encodable_selectors :
    BatchAgrees asciiRules (sampleDatabase (Str.of "octo/api") (Str.of "octo/none")) (sampleUuid 0)
      (sampleDatabase (Str.of "octo/api") (Str.of "octo/none")).proposals := by
  have htokens : ∀ proposal ∈ (sampleDatabase (Str.of "octo/api") (Str.of "octo/none")).proposals,
      (strictEvidenceRefs asciiRules proposal.evidenceRefs).all (fun refs => refs.all fun ref =>
        (evidenceTokens ref).all Str.encodable) = true := by
    decide +kernel
  refine (batch_verification_iff (stored_sampleDatabase _ _)).2 ⟨?_, ?_⟩
  · intro proposal hmem refs hrefs ref href token htoken
    have hrow := htokens proposal hmem
    rw [hrefs, Option.all_some] at hrow
    exact List.all_eq_true.1 (List.all_eq_true.1 hrow ref href) token htoken
  · rintro proposal hmem refs item itemRefs - - - - hitem
    simp only [sampleDatabase, List.mem_cons, List.not_mem_nil, or_false] at hmem
    rcases hmem with rfl | rfl <;> cases hitem

/-- One selector with a lone surrogate, and the batch answers for no proposal: not for the other
one either, which validates alone. -/
theorem surrogate_selector_fails_batch :
    Stored (sampleDatabase (Str.of "octo/api") [0xD800]) (sampleUuid 0)
        (sampleDatabase (Str.of "octo/api") [0xD800]).proposals ∧
      (validateActionProposalEvidence asciiRules .asListed
        (sampleDatabase (Str.of "octo/api") [0xD800]) (sampleUuid 0)
        (sampleProposal 1 (Str.of "octo/api"))).toOption.isSome = true ∧
      ¬ BatchAgrees asciiRules (sampleDatabase (Str.of "octo/api") [0xD800]) (sampleUuid 0)
        (sampleDatabase (Str.of "octo/api") [0xD800]).proposals := by
  refine ⟨stored_sampleDatabase _ _, by decide +kernel, fun h => ?_⟩
  obtain ⟨verified, hok, -⟩ := h .asListed .asListed
  have hraises : (verifyProposals asciiRules .asListed (sampleDatabase (Str.of "octo/api") [0xD800])
      (sampleUuid 0) (sampleDatabase (Str.of "octo/api") [0xD800]).proposals).toOption = none := by
    decide +kernel
  rw [hok] at hraises
  cases hraises

end FounderOs.Headquarters
