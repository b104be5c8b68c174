import FounderOs.Documents.Markdown
import FounderOs.Documents.Model
import FounderOs.Foundation.Like
import Mathlib.Data.List.Nodup

namespace FounderOs.Documents

open Like

/-- The two ways in which case is ignored: `str.casefold` by its Unicode table, and the `lower` of
the database, which depends on its locale. -/
structure CaseRules where
  entry : Nat → Str
  lower : Str → Str
  entry_ne_nil : ∀ c, entry c ≠ []
  entry_wild : ∀ c, 128 ≤ c → percent ∉ entry c ∧ underscore ∉ entry c
  lower_small : ∀ t : Str, (∀ c ∈ t, 97 ≤ c ∧ c ≤ 122) → lower t = t

def CaseRules.casefold (rules : CaseRules) : Str → Str := Str.casefold rules.entry

def CaseRules.documentRules (rules : CaseRules) : DocumentRules :=
  ⟨markdownToText, rules.casefold⟩

/-- A row of `documents`. -/
structure DocumentRecord where
  workspaceId : Nat
  id : Nat
  document : DocumentRow
  deriving DecidableEq

structure DocumentListFilters where
  status : Option Str
  search : Option Str
  limit : Nat

section list

variable (rules : CaseRules)

def statusFilter : Option Str → Except DocumentError (Option Str)
  | none => .ok none
  | some status =>
    if status = [] then .ok none else (normalizedStatus rules.documentRules status).map some

/-- `lower(title) LIKE like OR lower(body_text) LIKE like` -/
def found (search : Str) (content : Content) : Bool :=
  let pattern := around (rules.casefold search)
  like (rules.lower content.title) pattern || like (rules.lower content.bodyText) pattern

/-- `ORDER BY updated_at DESC, id DESC` -/
def newerFirst (a b : DocumentRecord) : Bool :=
  decide (b.document.updatedAt < a.document.updatedAt) ||
    (a.document.updatedAt == b.document.updatedAt && decide (b.id ≤ a.id))

def listDocuments (documents : List DocumentRecord) (workspaceId : Nat)
    (filters : DocumentListFilters) : Except DocumentError (List DocumentRecord) := do
  let status ← statusFilter rules filters.status
  let search := Str.strip (filters.search.getD [])
  let rows := documents.filter fun row => row.workspaceId == workspaceId &&
    status.all (· == row.document.content.status) &&
    (search.isEmpty || found rules search row.document.content)
  return (rows.mergeSort newerFirst).take (max 1 (min filters.limit 200))

end list

section law

variable (rules : CaseRules)

/-- A text that a column can hold. -/
def columnText (t : Str) : Bool := Str.encodable t && !t.contains 0

/-- What the service writes for a payload. -/
def Authored (content : Content) : Prop := ∃ payload : DocumentCreateInput,
  columnText payload.title = true ∧ columnText payload.bodyMarkdown = true ∧
    payload.content rules.documentRules = .ok content

/-- The text occurs in a line of the title or of the Markdown body, case being ignored. -/
def Written (search : Str) (content : Content) : Prop :=
  ∃ line ∈ splitLines content.title ++ splitLines content.bodyMarkdown,
    rules.casefold search <:+: rules.casefold line

def WildcardsWritten (search : Str) (content : Content) : Prop :=
  ∀ c ∈ [percent, underscore], c ∈ search → c ∈ content.title ∨ c ∈ content.bodyMarkdown

/-- In every table whose documents in the workspace are within the limit, the documents in which
the text is written are listed, and none in which a wildcard of it is not. -/
def FindsWhatIsWritten (search : Str) : Prop :=
  ∀ (documents : List DocumentRecord) (workspaceId limit : Nat),
    (documents.map (·.id)).Nodup → (∀ row ∈ documents, Authored rules row.document.content) →
    1 ≤ limit → limit ≤ 200 →
    (documents.filter fun row => row.workspaceId == workspaceId).length ≤ limit →
    ∃ listed, listDocuments rules documents workspaceId ⟨none, some search, limit⟩ = .ok listed ∧
      ∀ row ∈ documents, row.workspaceId = workspaceId →
        (Written rules search row.document.content → row ∈ listed) ∧
        (row ∈ listed → WildcardsWritten search row.document.content)

/-- What the route takes and a line of a document may contain. -/
structure SearchText where
  text : Str
  given : Str.strip text ≠ []
  oneLine : ∀ c ∈ text, isLineBreak c = false
  short : text.length ≤ 200
  storable : columnText text = true

end law

section listed

variable {rules : CaseRules} {documents : List DocumentRecord} {workspaceId limit : Nat}
  {search : Str}

theorem listDocuments_search (hsearch : Str.strip search ≠ []) :
    listDocuments rules documents workspaceId ⟨none, some search, limit⟩ =
      .ok (((documents.filter fun row => row.workspaceId == workspaceId &&
        found rules (Str.strip search) row.document.content).mergeSort newerFirst).take
          (max 1 (min limit 200))) := by
  have hempty : (Str.strip search).isEmpty = false := by
    rw [← Bool.not_eq_true, List.isEmpty_iff]
    exact hsearch
  simp only [listDocuments, statusFilter, bind, Except.bind, Option.getD_some, hempty,
    Option.all_none, Bool.and_true, Bool.false_or]
  rfl

/-- Within the limit a row of the workspace is listed if it is found. -/
theorem mem_listed_iff (hsearch : Str.strip search ≠ []) (hlimit : limit ≤ 200)
    (hcount : (documents.filter fun row => row.workspaceId == workspaceId).length ≤ limit) :
    ∃ listed, listDocuments rules documents workspaceId ⟨none, some search, limit⟩ = .ok listed ∧
      ∀ row, row ∈ listed ↔ row ∈ documents ∧ row.workspaceId = workspaceId ∧
        found rules (Str.strip search) row.document.content = true := by
  refine ⟨_, listDocuments_search hsearch, fun row => ?_⟩
  have hsub : (documents.filter fun row => row.workspaceId == workspaceId &&
      found rules (Str.strip search) row.document.content).length ≤
      (documents.filter fun row => row.workspaceId == workspaceId).length :=
    (List.monotone_filter_right documents fun row h => (Bool.and_eq_true_iff.1 h).1).length_le
  rw [List.take_of_length_le (by rw [List.length_mergeSort]; omega),
    (List.mergeSort_perm _ _).mem_iff, List.mem_filter, Bool.and_eq_true, beq_iff_eq]

/-- A search text without a special character is found exactly in what contains it. -/
theorem found_iff_of_plain {content : Content}
    (h : ∀ c ∈ rules.casefold search, c ≠ percent ∧ c ≠ underscore ∧ c ≠ backslash) :
    found rules search content = true ↔
      rules.casefold search <:+: rules.lower content.title ∨
        rules.casefold search <:+: rules.lower content.bodyText := by
  simp only [found, Bool.or_eq_true, like_around_iff h]

end listed

section folded

variable {rules : CaseRules} {t u : Str} {c : Nat}

theorem casefold_append : rules.casefold (t ++ u) = rules.casefold t ++ rules.casefold u :=
  List.flatMap_append

theorem casefold_ne_nil (h : t ≠ []) : rules.casefold t ≠ [] := by
  obtain ⟨c, u, rfl⟩ := List.exists_cons_of_ne_nil h
  have hc : (if c < 128 then [if 65 ≤ c ∧ c ≤ 90 then c + 32 else c] else rules.entry c) ≠ [] := by
    split
    · exact List.cons_ne_nil _ _
    · exact rules.entry_ne_nil c
  rw [CaseRules.casefold, Str.casefold, List.flatMap_cons]
  exact List.append_ne_nil_of_left_ne_nil hc _

/-- A wildcard of the folded text is one of the text. -/
theorem mem_of_wild_mem_casefold (hwild : c ∈ [percent, underscore]) (h : c ∈ rules.casefold t) :
    c ∈ t := by
  obtain ⟨d, hd, hc⟩ := List.mem_flatMap.1 h
  have hvalue : c = 37 ∨ c = 95 := by simpa [percent, underscore] using hwild
  split at hc
  · rw [List.mem_singleton] at hc
    split at hc
    · omega
    · exact hc ▸ hd
  · rename_i hd'
    obtain ⟨hpercent, hunderscore⟩ := rules.entry_wild d (by omega)
    rcases hvalue with rfl | rfl
    · exact absurd hc hpercent
    · exact absurd hc hunderscore

end folded

section fails

variable {rules : CaseRules} {search body : Str} {title : Nat} {content : Content}

/-- A draft whose title is one character. -/
def draftOf (title : Nat) (body : Str) : DocumentCreateInput :=
  ⟨[title], body, [], Str.of "draft"⟩

def draftContent (title : Nat) (body : Str) : Content :=
  ⟨[title], body, markdownToText body, Str.of "draft", []⟩

theorem authored_draft (htitle : 97 ≤ title ∧ title ≤ 122) (hbody : columnText body = true)
    (hlength : body.length ≤ documentBodyMax) : Authored rules (draftContent title body) := by
  have hspace : Str.strip [title] = [title] :=
    Str.strip_eq_self fun c hc =>
      List.mem_singleton.1 hc ▸ Str.isSpace_printable title (by omega) (by omega)
  refine ⟨draftOf title body, ?_, hbody, ?_⟩
  · simp [draftOf, columnText, Str.encodable]
    omega
  · have hnormalized : normalizedTitle [title] = .ok [title] := by
      rw [normalizedTitle, hspace, if_neg (List.cons_ne_nil _ _)]
      rfl
    have hkept : normalizedBody body = .ok body := by
      rw [normalizedBody, if_neg (Nat.not_lt.2 hlength)]
    have hstatus : normalizedStatus rules.documentRules (Str.of "draft") = .ok (Str.of "draft") :=
      rfl
    simp only [DocumentCreateInput.content, draftOf, hnormalized, hkept, hstatus]
    rfl

/-- What the law says of a table that holds one document. -/
theorem FindsWhatIsWritten.one (h : FindsWhatIsWritten rules search)
    (hsearch : Str.strip search ≠ []) (hcontent : Authored rules content) :
    (Written rules search content → found rules (Str.strip search) content = true) ∧
      (found rules (Str.strip search) content = true → WildcardsWritten search content) := by
  let row : DocumentRecord := ⟨0, 0, ⟨content, 0⟩⟩
  have hauthored : ∀ other ∈ [row], Authored rules other.document.content :=
    fun other hother => List.mem_singleton.1 hother ▸ hcontent
  have hcount : ([row].filter fun row => row.workspaceId == 0).length ≤ 1 :=
    List.length_filter_le _ _
  obtain ⟨listed, hlisted, hlaw⟩ := h [row] 0 1 (List.nodup_singleton _) hauthored le_rfl
    (by omega) hcount
  obtain ⟨listed', hlisted', hmem⟩ :=
    @mem_listed_iff rules [row] 0 1 search hsearch (by omega) hcount
  obtain rfl : listed = listed' := Except.ok.inj (hlisted.symm.trans hlisted')
  obtain ⟨hfinds, honly⟩ := hlaw row List.mem_cons_self rfl
  exact ⟨fun hwritten => ((hmem row).1 (hfinds hwritten)).2.2,
    fun hfound => honly ((hmem row).2 ⟨List.mem_cons_self, rfl, hfound⟩)⟩

/-- A draft whose body leaves no text is found by its title alone. -/
theorem found_draft (htitle : 97 ≤ title ∧ title ≤ 122) (hbody : markdownToText body = []) :
    found rules search (draftContent title body) =
      (like [title] (around (rules.casefold search)) ||
        like [] (around (rules.casefold search))) := by
  have hlower : rules.lower [title] = [title] :=
    rules.lower_small _ fun c hc => List.mem_singleton.1 hc ▸ htitle
  have hnone : rules.lower [] = [] := rules.lower_small [] fun c hc => absurd hc List.not_mem_nil
  simp only [found, draftContent, hbody, hlower, hnone]

theorem infix_of_found_draft {l : Str} (htitle : 97 ≤ title ∧ title ≤ 122)
    (hbody : markdownToText body = [])
    (hl : ∀ t, like t (around (rules.casefold search)) = true → l <:+: t)
    (h : found rules search (draftContent title body) = true) : l <:+: [title] := by
  rw [found_draft htitle hbody, Bool.or_eq_true] at h
  rcases h with h | h
  · exact hl _ h
  · exact (hl _ h).trans (List.nil_infix)

namespace SearchText

variable (search : SearchText)

theorem not_mem_break : 10 ∉ search.text := fun h => by
  have := search.oneLine 10 h
  simp [isLineBreak] at this

theorem storable_fenced : columnText (fence ++ search.text) = true := by
  simpa [columnText, Str.encodable, fence] using search.storable

theorem length_fenced : (fence ++ search.text).length ≤ documentBodyMax := by
  have := search.short
  simp [fence, documentBodyMax]
  omega

/-- A search text is written in the line of the fence that hides it. -/
theorem written_fenced : Written rules search.text (draftContent title (fence ++ search.text)) := by
  have hline : splitLines (fence ++ search.text) = [fence ++ search.text] := by
    refine splitLines_line (List.forall_mem_append.2 ⟨?_, search.oneLine⟩) (by simp [fence])
    decide
  refine ⟨fence ++ search.text, List.mem_append_right _ (hline ▸ List.mem_singleton_self _), ?_⟩
  rw [casefold_append]
  exact (List.suffix_append _ _).isInfix

end SearchText

end fails

/-- The rules where nothing but ASCII has a case. -/
def asciiRules : CaseRules where
  entry c := [c]
  lower t := t.map fun c => if 65 ≤ c ∧ c ≤ 90 then c + 32 else c
  entry_ne_nil c h := List.cons_ne_nil c [] h
  entry_wild c hc := by
    constructor <;> rw [List.mem_singleton] <;> simp only [percent, underscore] <;> omega
  lower_small t h := by
    have hkept : t.map (fun c => if 65 ≤ c ∧ c ≤ 90 then c + 32 else c) = t.map id := by
      refine List.map_congr_left fun c hc => ?_
      have := h c hc
      rw [if_neg (by omega), id]
    rw [hkept, List.map_id]

def namingNote : DocumentRecord :=
  ⟨1, 7,
    ⟨⟨Str.of "Naming", Str.of "use snake_case", Str.of "use snakecase", Str.of "draft", []⟩, 0⟩⟩

end FounderOs.Documents
