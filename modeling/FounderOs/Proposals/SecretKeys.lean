import FounderOs.Foundation.Outcome
import FounderOs.Headquarters.Verification

namespace FounderOs.Proposals

open Headquarters

/-- A JSON value as Python holds it; a finite number is kept as `json.dumps` writes it. -/
inductive Value where
  | null
  | bool (value : Bool)
  | num (text : Str)
  | nonFinite
  | str (text : Str)
  | arr (items : List Value)
  | obj (fields : List (Str × Value))

abbrev Object := List (Str × Value)

/-- `payload.get(key)`, where a missing key reads as `None`. -/
def get (fields : Object) (key : String) : Value := (Dict.get fields (Str.of key)).getD .null

def secretLikeKeys : List Str :=
  ["token", "access_token", "refresh_token", "password", "secret", "api_key", "private_key"].map
    Str.of

section walk

variable (casefold : Str → Str)

/-- `_normalize_value`, and `str(key).strip().casefold()`. -/
def normalizeValue (text : Str) : Str := casefold (Str.strip text)

def secretLike (key : Str) : Bool := secretLikeKeys.contains (normalizeValue casefold key)

mutual

/-- `_first_secret_like_key`, of which both services have a copy. -/
def walkFields : List (Str × Value) → Option Str
  | [] => none
  | (key, value) :: fields =>
    if secretLike casefold key then some (normalizeValue casefold key)
    else (walkValue value).or (walkFields fields)

def walkValue : Value → Option Str
  | .obj fields => walkFields fields
  | .arr items => walkItems items
  | _ => none

/-- An array directly inside an array is not entered. -/
def walkItems : List Value → Option Str
  | [] => none
  | .obj fields :: items => (walkFields fields).or (walkItems items)
  | _ :: items => walkItems items

end

end walk

def escapedSize (c : Nat) : Nat :=
  if c = 34 ∨ c = 92 ∨ c = 8 ∨ c = 9 ∨ c = 10 ∨ c = 12 ∨ c = 13 then 2
  else if 32 ≤ c ∧ c ≤ 126 then 1
  else if c ≤ 0xFFFF then 6
  else 12

def textSize (text : Str) : Nat := text.foldr (fun c size => escapedSize c + size) 2

mutual

/-- The length of `json.dumps(value, allow_nan=False)`. -/
def dumpsSize : Value → Option Nat
  | .null => some 4
  | .bool value => some (if value then 4 else 5)
  | .num text => some text.length
  | .nonFinite => none
  | .str text => some (textSize text)
  | .arr items => (itemsSize items).map (· + 2)
  | .obj fields => (fieldsSize fields).map (· + 2)

def itemsSize : List Value → Option Nat
  | [] => some 0
  | item :: items => do
    return (← dumpsSize item) + (if items.isEmpty then 0 else 2) + (← itemsSize items)

def fieldsSize : List (Str × Value) → Option Nat
  | [] => some 0
  | (key, value) :: fields => do
    return textSize key + 2 + (← dumpsSize value) + (if fields.isEmpty then 0 else 2) +
      (← fieldsSize fields)

end

section validate

variable {Digest : Type} (rules : EvidenceRules Digest)

def actionProposalPayloadMaxBytes : Nat := 64 * 1024
def actionProposalEvidenceRefsMaxBytes : Nat := 64 * 1024

def validTargetProviders : List Str := ["github", "internal"].map Str.of
def validActionTypes : List Str := ["create_github_issue", "internal_todo"].map Str.of
def validProviderActionPairs : List (Str × Str) :=
  [(Str.of "github", Str.of "create_github_issue"), (Str.of "internal", Str.of "internal_todo")]
def validCreatedBy : List Str := ["user", "system", "ai"].map Str.of

/-- What the validator reads of the input. -/
structure ActionProposalCreateInput where
  targetProvider : Str
  actionType : Str
  title : Str
  payload : Value
  evidenceRefs : Value
  createdBy : Str

def rejectIf (bad : Bool) (detail : String) : Except Str Unit :=
  if bad then .error (Str.of detail) else .ok ()

def validateJsonByteSize (value : Value) (fieldName : String) (maxBytes : Nat) : Except Str Unit :=
  match dumpsSize value with
  | none => .error (Str.of (fieldName ++ " must be JSON serializable"))
  | some size =>
    rejectIf (maxBytes < size) (fieldName ++ " exceeds " ++ toString maxBytes ++
      " UTF-8 serialized bytes")

def asField : Value → Field
  | .null => .null
  | .str text => .str text
  | _ => .other

def Value.asMapping : Value → Option Object
  | .obj fields => some fields
  | _ => none

def evidenceRefMatches (ref : Value) : Bool :=
  ref.asMapping.any fun fields =>
    actionEvidenceRefMatchesSchema rules (fields.map fun field => (field.1, asField field.2))

/-- `validate_action_proposal_input` up to its last check; the payload as an object. -/
def checkActionProposalInput (input : ActionProposalCreateInput) : Except Str Object := do
  let targetProvider := normalizeValue rules.casefold input.targetProvider
  let actionType := normalizeValue rules.casefold input.actionType
  let createdBy := normalizeValue rules.casefold input.createdBy
  rejectIf (!validTargetProviders.contains targetProvider) "unknown target_provider"
  rejectIf (!validActionTypes.contains actionType) "unknown action_type"
  rejectIf (!validProviderActionPairs.contains (targetProvider, actionType))
    "invalid provider/action pair"
  rejectIf (Str.strip input.title).isEmpty "title is required"
  let .obj payload := input.payload | .error (Str.of "payload must be an object")
  let .arr evidenceRefs := input.evidenceRefs | .error (Str.of "evidence_refs must be a list")
  rejectIf (actionProposalEvidenceRefsMaxItems < evidenceRefs.length)
    "evidence_refs exceeds 50 items"
  rejectIf (evidenceRefs.any fun ref => ref.asMapping.isNone) "evidence_refs items must be objects"
  validateJsonByteSize (.obj payload) "payload" actionProposalPayloadMaxBytes
  validateJsonByteSize (.arr evidenceRefs) "evidence_refs" actionProposalEvidenceRefsMaxBytes
  rejectIf (evidenceRefs.any fun ref => !evidenceRefMatches rules ref)
    "evidence_refs items must match the evidence_ref.v1 schema"
  rejectIf (!validCreatedBy.contains createdBy) "unknown created_by"
  return payload

def rejectSecretKey (casefold : Str → Str) (payload : Object) : Except Str Unit :=
  match walkFields casefold payload with
  | some key => .error (Str.of "payload contains secret-like key: " ++ key)
  | none => .ok ()

def validateActionProposalInput (input : ActionProposalCreateInput) : Except Str Unit := do
  let payload ← checkActionProposalInput rules input
  rejectSecretKey rules.casefold payload

structure GitHubIssuePayload where
  repositoryFullName : Str
  title : Str
  body : Option Str
  labels : List Str
  assignees : List Str

def requiredText (value : Value) (message : String) : Except Str Str :=
  match value with
  | .str text => if Str.strip text = [] then .error (Str.of message) else .ok (Str.strip text)
  | _ => .error (Str.of message)

def optionalText : Value → Option Str
  | .str text => if Str.strip text = [] then none else some (Str.strip text)
  | _ => none

def listedText (fieldName : String) : Value → Except Str Str
  | .str text => .ok (Str.strip text)
  | _ => .error (Str.of (fieldName ++ " must be a list of strings"))

def optionalStringList (value : Value) (fieldName : String) : Except Str (List Str) :=
  match value with
  | .null => .ok []
  | .arr items =>
    (items.mapM (listedText fieldName)).map fun texts => (texts.filter (· ≠ [])).map (·.take 120)
  | _ => .error (Str.of (fieldName ++ " must be a list of strings"))

def looksLikeRepositoryFullName (value : Str) : Bool :=
  let parts := value.splitOn 47
  parts.length = 2 && parts.all fun part => Str.strip part ≠ []

/-- `validate_github_issue_payload` after its first check. -/
def gitHubIssuePayload (payload : Object) : Except Str GitHubIssuePayload := do
  let repositoryFullName ← requiredText (get payload "repository_full_name")
    "repository_full_name is required"
  rejectIf (!looksLikeRepositoryFullName repositoryFullName)
    "repository_full_name must look like owner/repo"
  let title ← requiredText (get payload "title") "title is required"
  let body := optionalText (get payload "body")
  let labels ← optionalStringList (get payload "labels") "labels"
  let assignees ← optionalStringList (get payload "assignees") "assignees"
  return ⟨repositoryFullName, title, body, labels, assignees⟩

def validateGitHubIssuePayload (payload : Object) : Except Str GitHubIssuePayload := do
  rejectSecretKey rules.casefold payload
  gitHubIssuePayload payload

end validate

def Value.isLeaf : Value → Bool
  | .arr _ | .obj _ => false
  | _ => true

/-- A value that is somewhere inside another, at any depth. -/
inductive Within (v : Value) : Value → Prop
  | self : Within v v
  | item {i : Value} {items : List Value} : i ∈ items → Within v i → Within v (.arr items)
  | field {f : Str × Value} {fields : Object} : f ∈ fields → Within v f.2 → Within v (.obj fields)

section secret

variable (casefold : Str → Str)

def NoSecretKey (v : Value) : Prop :=
  ∀ fields, Within (.obj fields) v → ∀ f ∈ fields, secretLike casefold f.1 = false

/-- The arrays that lie directly in an array hold no secret-like key. -/
def NestedArraysClean (v : Value) : Prop :=
  ∀ items inner, Within (.arr items) v → .arr inner ∈ items → NoSecretKey casefold (.arr inner)

end secret

section lemmas

variable {casefold : Str → Str} {v w x : Value}

theorem Within.trans (h : Within v w) (h' : Within w x) : Within v x := by
  induction h' with
  | self => exact h
  | item hmem _ ih => exact .item hmem ih
  | field hmem _ ih => exact .field hmem ih

theorem within_obj {fields : Object} :
    Within v (.obj fields) ↔ v = .obj fields ∨ ∃ f ∈ fields, Within v f.2 := by
  constructor
  · intro h
    cases h with
    | self => exact .inl rfl
    | field hmem hin => exact .inr ⟨_, hmem, hin⟩
  · rintro (rfl | ⟨f, hmem, hin⟩)
    · exact .self
    · exact .field hmem hin

theorem within_arr {items : List Value} :
    Within v (.arr items) ↔ v = .arr items ∨ ∃ i ∈ items, Within v i := by
  constructor
  · intro h
    cases h with
    | self => exact .inl rfl
    | item hmem hin => exact .inr ⟨_, hmem, hin⟩
  · rintro (rfl | ⟨i, hmem, hin⟩)
    · exact .self
    · exact .item hmem hin

theorem noSecretKey_obj {fields : Object} : NoSecretKey casefold (.obj fields) ↔
    (∀ f ∈ fields, secretLike casefold f.1 = false) ∧
      ∀ f ∈ fields, NoSecretKey casefold f.2 := by
  constructor
  · intro h
    exact ⟨h fields .self, fun f hf inner hin => h inner (.field hf hin)⟩
  · rintro ⟨hkeys, hvalues⟩ inner hin
    rcases within_obj.1 hin with heq | ⟨f, hf, hin⟩
    · cases heq
      exact hkeys
    · exact hvalues f hf inner hin

theorem noSecretKey_arr {items : List Value} :
    NoSecretKey casefold (.arr items) ↔ ∀ i ∈ items, NoSecretKey casefold i := by
  constructor
  · intro h i hi inner hin
    exact h inner (.item hi hin)
  · intro h inner hin
    rcases within_arr.1 hin with heq | ⟨i, hi, hin⟩
    · cases heq
    · exact h i hi inner hin

theorem nestedArraysClean_obj {fields : Object} : NestedArraysClean casefold (.obj fields) ↔
    ∀ f ∈ fields, NestedArraysClean casefold f.2 := by
  constructor
  · intro h f hf items inner hin
    exact h items inner (.field hf hin)
  · intro h items inner hin
    rcases within_obj.1 hin with heq | ⟨f, hf, hin⟩
    · cases heq
    · exact h f hf items inner hin

theorem nestedArraysClean_arr {items : List Value} : NestedArraysClean casefold (.arr items) ↔
    (∀ inner, .arr inner ∈ items → NoSecretKey casefold (.arr inner)) ∧
      ∀ i ∈ items, NestedArraysClean casefold i := by
  constructor
  · intro h
    exact ⟨fun inner => h items inner .self, fun i hi inner' inner hin => h inner' inner (.item hi hin)⟩
  · rintro ⟨hdirect, hitems⟩ outer inner hin hmem
    rcases within_arr.1 hin with heq | ⟨i, hi, hin⟩
    · cases heq
      exact hdirect inner hmem
    · exact hitems i hi outer inner hin hmem

theorem NoSecretKey.nestedArraysClean (h : NoSecretKey casefold v) :
    NestedArraysClean casefold v := by
  intro items inner hin hmem fields hfields
  exact h fields (hfields.trans ((Within.item hmem .self).trans hin))

theorem noSecretKey_leaf (h : v.isLeaf = true) : NoSecretKey casefold v := by
  intro fields hin
  cases hin <;> cases h

mutual

theorem walkValue_iff : (v : Value) →
    (walkValue casefold v = none ∧ NestedArraysClean casefold v ↔ NoSecretKey casefold v)
  | .obj fields => by
    rw [walkValue, nestedArraysClean_obj, noSecretKey_obj]
    exact walkFields_iff fields
  | .arr items => by
    rw [walkValue, nestedArraysClean_arr, noSecretKey_arr]
    exact walkItems_iff items
  | .null | .bool _ | .num _ | .nonFinite | .str _ =>
    ⟨fun _ => noSecretKey_leaf rfl, fun h => ⟨rfl, h.nestedArraysClean⟩⟩

theorem walkFields_iff : (fields : List (Str × Value)) →
    ((walkFields casefold fields = none ∧ ∀ f ∈ fields, NestedArraysClean casefold f.2) ↔
      (∀ f ∈ fields, secretLike casefold f.1 = false) ∧ ∀ f ∈ fields, NoSecretKey casefold f.2)
  | [] => by simp [walkFields]
  | (key, value) :: fields => by
    have hvalue := walkValue_iff value
    have hrest := walkFields_iff fields
    simp only [walkFields, List.forall_mem_cons]
    cases hkey : secretLike casefold key with
    | true => simp
    | false =>
      rw [if_neg (by simp), Option.or_eq_none_iff]
      tauto

theorem walkItems_iff : (items : List Value) →
    ((walkItems casefold items = none ∧
      (∀ inner, .arr inner ∈ items → NoSecretKey casefold (.arr inner)) ∧
        ∀ i ∈ items, NestedArraysClean casefold i) ↔ ∀ i ∈ items, NoSecretKey casefold i)
  | [] => by simp [walkItems]
  | .obj fields :: items => by
    have hitem := walkValue_iff (.obj fields)
    have hrest := walkItems_iff items
    rw [walkValue] at hitem
    simp only [walkItems, List.mem_cons, reduceCtorEq, false_or, Option.or_eq_none_iff,
      forall_eq_or_imp]
    tauto
  | .arr inner :: items => by
    have hitem : NoSecretKey casefold (.arr inner) → NestedArraysClean casefold (.arr inner) :=
      NoSecretKey.nestedArraysClean
    have hrest := walkItems_iff items
    simp only [walkItems, List.mem_cons, Value.arr.injEq, forall_eq_or_imp]
    tauto
  | .null :: items | .bool _ :: items | .num _ :: items | .nonFinite :: items
  | .str _ :: items => by
    have hleaf : ∀ {v : Value}, v.isLeaf = true →
        NoSecretKey casefold v ∧ NestedArraysClean casefold v :=
      fun h => ⟨noSecretKey_leaf h, (noSecretKey_leaf h).nestedArraysClean⟩
    have hrest := walkItems_iff items
    simp only [walkItems, List.mem_cons, reduceCtorEq, false_or, forall_eq_or_imp]
    rw [hrest.symm, and_iff_right (hleaf rfl).1, and_iff_right (hleaf rfl).2]

end

theorem noSecretKey_iff {fields : Object} :
    NoSecretKey casefold (.obj fields) ↔
      walkFields casefold fields = none ∧ NestedArraysClean casefold (.obj fields) := by
  rw [← walkValue_iff, walkValue]

theorem rejectSecretKey_ok {payload : Object} :
    rejectSecretKey casefold payload = .ok () ↔ walkFields casefold payload = none := by
  unfold rejectSecretKey
  cases walkFields casefold payload <;> simp

end lemmas

section accepted

variable {Digest : Type} {rules : EvidenceRules Digest}

theorem payload_of_check {input : ActionProposalCreateInput} {payload : Object}
    (h : checkActionProposalInput rules input = .ok payload) : input.payload = .obj payload := by
  unfold checkActionProposalInput at h
  obtain ⟨_, -, h⟩ := ok_of_bind_ok h
  obtain ⟨_, -, h⟩ := ok_of_bind_ok h
  obtain ⟨_, -, h⟩ := ok_of_bind_ok h
  obtain ⟨_, -, h⟩ := ok_of_bind_ok h
  split at h
  · rename_i fields hfields
    split at h
    · iterate 6 obtain ⟨_, -, h⟩ := ok_of_bind_ok h
      rw [hfields, Except.ok.inj h]
    · cases h
  · cases h

theorem validateActionProposalInput_ok {input : ActionProposalCreateInput} :
    validateActionProposalInput rules input = .ok () ↔
      ∃ payload, checkActionProposalInput rules input = .ok payload ∧
        walkFields rules.casefold payload = none := by
  unfold validateActionProposalInput
  constructor
  · intro h
    obtain ⟨payload, hcheck, h⟩ := ok_of_bind_ok h
    exact ⟨payload, hcheck, rejectSecretKey_ok.1 h⟩
  · rintro ⟨payload, hcheck, hwalk⟩
    rw [hcheck]
    exact rejectSecretKey_ok.2 hwalk

theorem validateGitHubIssuePayload_ok {payload : Object} {accepted : GitHubIssuePayload} :
    validateGitHubIssuePayload rules payload = .ok accepted ↔
      walkFields rules.casefold payload = none ∧ gitHubIssuePayload payload = .ok accepted := by
  unfold validateGitHubIssuePayload
  constructor
  · intro h
    obtain ⟨_, hreject, h⟩ := ok_of_bind_ok h
    exact ⟨rejectSecretKey_ok.1 hreject, h⟩
  · rintro ⟨hwalk, haccepted⟩
    rw [rejectSecretKey_ok.2 hwalk]
    exact haccepted

/-- Of the payloads that pass the other checks and have no secret-like key where the walk goes, the
validators accept one with such a key exactly when an array directly inside an array has it. -/
theorem no_secret_key_passes_iff (rules : EvidenceRules Digest) :
    (∀ input, (validateActionProposalInput rules input = .ok () →
        NoSecretKey rules.casefold input.payload) ↔
      ∀ payload, checkActionProposalInput rules input = .ok payload →
        walkFields rules.casefold payload = none →
          NestedArraysClean rules.casefold input.payload) ∧
    ∀ payload, (∀ accepted, validateGitHubIssuePayload rules payload = .ok accepted →
        NoSecretKey rules.casefold (.obj payload)) ↔
      ∀ accepted, gitHubIssuePayload payload = .ok accepted →
        walkFields rules.casefold payload = none →
          NestedArraysClean rules.casefold (.obj payload) := by
  refine ⟨fun input => ⟨fun h payload hcheck hwalk => ?_, fun h hvalid => ?_⟩,
    fun payload => ⟨fun h accepted haccepted hwalk => ?_, fun h accepted hvalid => ?_⟩⟩
  · exact (h (validateActionProposalInput_ok.2 ⟨payload, hcheck, hwalk⟩)).nestedArraysClean
  · obtain ⟨payload, hcheck, hwalk⟩ := validateActionProposalInput_ok.1 hvalid
    have hclean := h payload hcheck hwalk
    rw [payload_of_check hcheck] at hclean ⊢
    exact noSecretKey_iff.2 ⟨hwalk, hclean⟩
  · exact (h accepted (validateGitHubIssuePayload_ok.2 ⟨hwalk, haccepted⟩)).nestedArraysClean
  · obtain ⟨hwalk, haccepted⟩ := validateGitHubIssuePayload_ok.1 hvalid
    exact noSecretKey_iff.2 ⟨hwalk, h accepted haccepted hwalk⟩

end accepted

/-- `{"repository_full_name": "octo/api", "title": "t", "x": [[{"token": null}]]}` -/
def nestedToken : Object :=
  [(Str.of "repository_full_name", .str (Str.of "octo/api")), (Str.of "title", .str (Str.of "t")),
    (Str.of "x", .arr [.arr [.obj [(Str.of "token", .null)]]])]

def nestedTokenProposal : ActionProposalCreateInput where
  targetProvider := Str.of "github"
  actionType := Str.of "create_github_issue"
  title := Str.of "t"
  payload := .obj nestedToken
  evidenceRefs := .arr []
  createdBy := Str.of "user"

theorem nested_token_passes :
    (validateActionProposalInput asciiRules nestedTokenProposal).toOption.isSome = true ∧
      (validateGitHubIssuePayload asciiRules nestedToken).toOption.isSome = true ∧
        ¬ NoSecretKey asciiRules.casefold (.obj nestedToken) := by
  refine ⟨by decide +kernel, by decide +kernel, fun h => ?_⟩
  have htoken := h [(Str.of "token", .null)]
    (.field (f := (Str.of "x", .arr [.arr [.obj [(Str.of "token", .null)]]])) (by simp [nestedToken])
      (.item List.mem_cons_self (.item List.mem_cons_self .self))) _ List.mem_cons_self
  exact absurd htoken (by decide +kernel)

end FounderOs.Proposals
