import FounderOs.Foundation.Transition
import FounderOs.Proposals.Briefing
import FounderOs.Proposals.ValueText

namespace FounderOs.Proposals

open Headquarters Execution Transition

section datetimes

/-- A datetime in UTC, as the driver returns one. -/
structure Datetime where
  year : Nat
  month : Nat
  day : Nat
  hour : Nat
  minute : Nat
  second : Nat
  microsecond : Nat
  inRange : (year < 10000 ∧ month < 100 ∧ day < 100) ∧ (hour < 100 ∧ minute < 100 ∧ second < 100) ∧
    microsecond < 1000000

/-- The last digits of a number, with zeros before them. -/
def padded : Nat → Nat → Str
  | 0, _ => []
  | width + 1, n => padded width (n / 10) ++ [48 + n % 10]

def Datetime.isoformat (time : Datetime) : Str :=
  padded 4 time.year ++ 45 :: (padded 2 time.month ++ 45 :: (padded 2 time.day ++
    84 :: (padded 2 time.hour ++ 58 :: (padded 2 time.minute ++ 58 :: (padded 2 time.second ++
      ((if time.microsecond = 0 then [] else 46 :: padded 6 time.microsecond) ++
        Str.of "+00:00"))))))

theorem length_padded (width n : Nat) : (padded width n).length = width := by
  induction width generalizing n with
  | zero => rfl
  | succ width ih => rw [padded, List.length_append, ih]; rfl

theorem padded_inj {width n m : Nat} (hn : n < 10 ^ width) (hm : m < 10 ^ width)
    (h : padded width n = padded width m) : n = m := by
  induction width generalizing n m with
  | zero =>
    rw [Nat.pow_zero] at hn hm
    omega
  | succ width ih =>
    rw [Nat.pow_succ] at hn hm
    obtain ⟨hrest, hlast⟩ := List.append_inj' h rfl
    have hquotient := ih (by omega) (by omega) hrest
    have hdigit : 48 + n % 10 = 48 + m % 10 := (List.cons.inj hlast).1
    omega

theorem padded_append_inj {width n m : Nat} {rest rest' : Str} (hn : n < 10 ^ width)
    (hm : m < 10 ^ width) (h : padded width n ++ rest = padded width m ++ rest') :
    n = m ∧ rest = rest' := by
  obtain ⟨hdigits, hrest⟩ := List.append_inj h (by rw [length_padded, length_padded])
  exact ⟨padded_inj hn hm hdigits, hrest⟩

theorem isoformat_inj {time time' : Datetime} (h : time.isoformat = time'.isoformat) :
    time = time' := by
  obtain ⟨⟨hyear, hmonth, hday⟩, ⟨hhour, hminute, hsecond⟩, hmicro⟩ := time.inRange
  obtain ⟨⟨hyear', hmonth', hday'⟩, ⟨hhour', hminute', hsecond'⟩, hmicro'⟩ := time'.inRange
  obtain ⟨hsame, h⟩ := padded_append_inj hyear hyear' h
  obtain ⟨hsame₁, h⟩ := padded_append_inj hmonth hmonth' (List.cons.inj h).2
  obtain ⟨hsame₂, h⟩ := padded_append_inj hday hday' (List.cons.inj h).2
  obtain ⟨hsame₃, h⟩ := padded_append_inj hhour hhour' (List.cons.inj h).2
  obtain ⟨hsame₄, h⟩ := padded_append_inj hminute hminute' (List.cons.inj h).2
  obtain ⟨hsame₅, h⟩ := padded_append_inj hsecond hsecond' (List.cons.inj h).2
  have hfraction := List.append_cancel_right h
  have hsame₆ : time.microsecond = time'.microsecond := by
    split at hfraction <;> split at hfraction
    · rename_i hzero hzero'
      rw [hzero, hzero']
    · cases hfraction
    · cases hfraction
    · exact padded_inj hmicro hmicro' (List.cons.inj hfraction).2
  cases time
  cases time'
  simp only at hsame hsame₁ hsame₂ hsame₃ hsame₄ hsame₅ hsame₆
  subst hsame hsame₁ hsame₂ hsame₃ hsame₄ hsame₅ hsame₆
  rfl

end datetimes

section rows

def statusValue : ProposalStatus → String
  | .proposed => "proposed"
  | .approved => "approved"
  | .rejected => "rejected"
  | .executed => "executed"
  | .failed => "failed"

/-- All columns of a row of `action_proposals`. -/
structure ProposalRow extends ActionProposal where
  workspaceId : Uuid
  createdByUserId : Option Uuid
  approvedByUserId : Option Uuid
  approvedAt : Option Datetime
  rejectedByUserId : Option Uuid
  rejectedAt : Option Datetime
  rejectionReason : Option Str
  createdAt : Datetime
  updatedAt : Datetime

/-- What a text column can hold: the driver encodes it. -/
def columnText (text : Str) : Bool := Str.encodable text && !text.contains 0

def columnString (most : Nat) (text : Str) : Bool := columnText text && text.length ≤ most

/-- A `json` column keeps what `json.dumps` writes for it, in ASCII characters, so that surrogates
are kept as well. -/
def columnJson (value : Value) : Bool := value.loaded && value.finite

def ProposalRow.storable (row : ProposalRow) : Bool :=
  columnString 40 row.targetProvider && columnString 80 row.actionType &&
    columnString 500 row.title && row.description.all columnText && columnString 20 row.createdBy &&
    row.rejectionReason.all columnText && columnJson row.payload && columnJson row.evidenceRefs

structure StoredProposal where
  row : ProposalRow
  storable : row.storable = true

def ProposalRow.stored (row : ProposalRow) : Option StoredProposal :=
  if h : row.storable = true then some ⟨row, h⟩ else none

/-- An input whose JSON values are what `json.loads` makes of a body. -/
structure LoadedRequest extends ProposalRequest where
  payload_loaded : payload.loaded = true
  evidence_loaded : evidenceRefs.loaded = true

structure CreationFacts where
  id : Uuid
  workspaceId : Uuid
  createdByUserId : Option Uuid
  now : Datetime

/-- `create_action_proposal`, up to the row that is read back. -/
def storeActionProposal {Digest : Type} (rules : EvidenceRules Digest) (facts : CreationFacts)
    (request : ProposalRequest) : Option StoredProposal := do
  let proposal ← (createActionProposal rules facts.id request).toOption
  ProposalRow.stored {
    toActionProposal := proposal
    workspaceId := facts.workspaceId
    createdByUserId := if proposal.createdBy = Str.of "user" then facts.createdByUserId else none
    approvedByUserId := none
    approvedAt := none
    rejectedByUserId := none
    rejectedAt := none
    rejectionReason := none
    createdAt := facts.now
    updatedAt := facts.now }

/-- What is written to a proposal after its creation; `settle` is the status that an execution
leaves. -/
inductive ProposalChange where
  | approve (actor : Uuid) (now : Datetime)
  | reject (actor : Uuid) (reason : Option Str) (now : Datetime)
  | settle (status : ProposalStatus) (now : Datetime)

def ProposalRow.changed (row : ProposalRow) : ProposalChange → Option ProposalRow
  | .approve actor now =>
    if row.status = .proposed then
      some { row with
        status := .approved
        approvedByUserId := some actor
        approvedAt := some now
        updatedAt := now }
    else none
  | .reject actor reason now =>
    if row.status = .proposed then
      some { row with
        status := .rejected
        rejectedByUserId := some actor
        rejectedAt := some now
        rejectionReason := reason.bind fun text => optionalText (.str text)
        updatedAt := now }
    else none
  | .settle status now => some { row with status := status, updatedAt := now }

def StoredProposal.change (proposal : StoredProposal) (change : ProposalChange) :
    Option StoredProposal :=
  (proposal.row.changed change).bind ProposalRow.stored

end rows

section version

def strOf (text : Option Str) : Value := (text.map Value.str).getD .null

/-- The material of the version, in the order of its keys. -/
def ProposalRow.columns (row : ProposalRow) : List (String × Value) :=
  [("action_type", Value.str row.actionType),
    ("approved_at", strOf (row.approvedAt.map (·.isoformat))),
    ("approved_by_user_id", strOf (row.approvedByUserId.map (·.text))),
    ("briefing_item_id", strOf (row.briefingItemId.map (·.text))),
    ("created_at", .str row.createdAt.isoformat), ("created_by", .str row.createdBy),
    ("created_by_user_id", strOf (row.createdByUserId.map (·.text))),
    ("description", strOf row.description), ("evidence_refs", row.evidenceRefs),
    ("id", .str row.id.text), ("payload", row.payload),
    ("rejected_at", strOf (row.rejectedAt.map (·.isoformat))),
    ("rejected_by_user_id", strOf (row.rejectedByUserId.map (·.text))),
    ("rejection_reason", strOf row.rejectionReason),
    ("status", .str (Str.of (statusValue row.status))), ("target_provider", .str row.targetProvider),
    ("title", .str row.title), ("updated_at", .str row.updatedAt.isoformat),
    ("workspace_id", .str row.workspaceId.text)]

def ProposalRow.material (row : ProposalRow) : Value :=
  .obj (row.columns.map fun column => (Str.of column.1, column.2))

/-- The row with the objects of its `json` columns as dicts. -/
def ProposalRow.sorted (row : ProposalRow) : ProposalRow :=
  { row with payload := row.payload.sorted, evidenceRefs := row.evidenceRefs.sorted }

variable (sha256 : Str → Str)

/-- The digest is of the text as UTF-8, which a lone surrogate has not. -/
def actionProposalVersion (row : ProposalRow) : Option Str :=
  row.sorted.material.dumps.bind fun serialized =>
    if Str.encodable serialized then some (Str.of "ap1_" ++ sha256 serialized) else none

/-- `payload or {}` and `evidence_refs or []` are the columns themselves: what they hold is an
object and a list. -/
structure ProposalRead extends ProposalRow where
  proposalVersion : Str

def serializeActionProposal (row : ProposalRow) : Option ProposalRead :=
  (actionProposalVersion sha256 row).map fun version => ⟨row, version⟩

/-- What the listing answers for the rows that it has read. -/
def listed (rows : List StoredProposal) : Option (List ProposalRead) :=
  rows.mapM fun proposal => serializeActionProposal sha256 proposal.row

end version

section columns

theorem every_strOf {number text : Str → Bool} {nonFinite : Bool} {string : Option Str}
    (h : ∀ value ∈ string, text value = true) :
    (strOf string).every number text nonFinite = true := by
  cases string with
  | none => rfl
  | some value => exact h value rfl

theorem graphic_encodable {text : Str} (h : ∀ c ∈ text, c < 128) : Str.encodable text = true := by
  refine List.all_eq_true.2 fun c hc => ?_
  have hc := h c hc
  simp only [Bool.not_eq_true', Bool.and_eq_false_iff, decide_eq_false_iff_not]
  omega

theorem encodable_uuid (id : Uuid) : Str.encodable id.text = true :=
  graphic_encodable fun c hc => Nat.lt_trans (uuid_graphic id c hc).2 (by decide)

theorem padded_ascii (width n : Nat) : ∀ c ∈ padded width n, c < 128 := by
  induction width generalizing n with
  | zero => exact fun c hc => nomatch hc
  | succ width ih =>
    intro c hc
    rcases List.mem_append.1 hc with hc | hc
    · exact ih (n / 10) c hc
    · rw [List.mem_singleton.1 hc]
      omega

theorem encodable_isoformat (time : Datetime) : Str.encodable time.isoformat = true := by
  refine graphic_encodable fun c hc => ?_
  have hzone : ∀ c ∈ Str.of "+00:00", c < 128 := by decide
  have hfraction : ∀ c ∈ (if time.microsecond = 0 then [] else 46 :: padded 6 time.microsecond),
      c < 128 := by
    split
    · exact fun c hc => nomatch hc
    · exact List.forall_mem_cons.2 ⟨by decide, padded_ascii 6 _⟩
  simp only [Datetime.isoformat, List.mem_append, List.mem_cons] at hc
  rcases hc with hc | rfl | hc | rfl | hc | rfl | hc | rfl | hc | rfl | hc | hc | hc
  all_goals first
    | exact padded_ascii _ _ c hc
    | exact hfraction c hc
    | exact hzone c hc
    | decide

theorem whole_of_encodable {text : Str} (h : Str.encodable text = true) : whole text = true := by
  induction text with
  | nil => rfl
  | cons c text ih =>
    obtain ⟨hc, hrest⟩ := List.forall_mem_cons.1 (List.all_eq_true.1 h)
    cases text with
    | nil => rfl
    | cons d text =>
      rw [whole, ih (List.all_eq_true.2 hrest), Bool.and_true]
      simp only [Bool.not_eq_true', Bool.and_eq_false_iff, decide_eq_false_iff_not] at hc ⊢
      omega

variable {number text : Str → Bool} {nonFinite : Bool} {row : ProposalRow}

theorem columnText_encodable {string : Str} (h : columnText string = true) :
    Str.encodable string = true :=
  (Bool.and_eq_true_iff.1 h).1

theorem columnString_encodable {most : Nat} {string : Str} (h : columnString most string = true) :
    Str.encodable string = true :=
  columnText_encodable (Bool.and_eq_true_iff.1 h).1

theorem names_encodable (row : ProposalRow) :
    ∀ column ∈ row.columns, Str.encodable (Str.of column.1) = true := by
  have hnames : ∀ name ∈ ["action_type", "approved_at", "approved_by_user_id", "briefing_item_id",
      "created_at", "created_by", "created_by_user_id", "description", "evidence_refs", "id",
      "payload", "rejected_at", "rejected_by_user_id", "rejection_reason", "status",
      "target_provider", "title", "updated_at", "workspace_id"],
      Str.encodable (Str.of name) = true := by
    decide +kernel
  exact fun column hcolumn => hnames column.1 (List.mem_map_of_mem hcolumn)

/-- Beside the two `json` columns there are only texts that the driver has encoded. -/
theorem every_column (htext : ∀ string, Str.encodable string = true → text string = true)
    (h : row.storable = true) : ∀ column ∈ row.columns,
      column = ("evidence_refs", row.evidenceRefs) ∨ column = ("payload", row.payload) ∨
        column.2.every number text nonFinite = true := by
  simp only [ProposalRow.storable, Bool.and_eq_true, and_assoc, Option.all_eq_true] at h
  obtain ⟨hprovider, htype, htitle, hdescription, hcreatedBy, hreason, -⟩ := h
  have hid (id : Option Uuid) :
      (strOf (id.map (·.text))).every number text nonFinite = true := by
    refine every_strOf fun value hvalue => ?_
    obtain ⟨id, -, rfl⟩ := Option.map_eq_some_iff.1 hvalue
    exact htext _ (encodable_uuid id)
  have htime (time : Option Datetime) :
      (strOf (time.map (·.isoformat))).every number text nonFinite = true := by
    refine every_strOf fun value hvalue => ?_
    obtain ⟨time, -, rfl⟩ := Option.map_eq_some_iff.1 hvalue
    exact htext _ (encodable_isoformat time)
  have hstatus : Str.encodable (Str.of (statusValue row.status)) = true := by
    cases row.status <;> rfl
  simp only [ProposalRow.columns, List.forall_mem_cons, List.not_mem_nil, false_implies, implies_true,
    and_true]
  exact ⟨.inr (.inr (htext _ (columnString_encodable htype))), .inr (.inr (htime _)),
    .inr (.inr (hid _)), .inr (.inr (hid _)), .inr (.inr (htext _ (encodable_isoformat _))),
    .inr (.inr (htext _ (columnString_encodable hcreatedBy))), .inr (.inr (hid _)),
    .inr (.inr (every_strOf fun value hvalue =>
      htext _ (columnText_encodable (hdescription value hvalue)))),
    .inl trivial, .inr (.inr (htext _ (encodable_uuid _))), .inr (.inl trivial), .inr (.inr (htime _)),
    .inr (.inr (hid _)),
    .inr (.inr (every_strOf fun value hvalue =>
      htext _ (columnText_encodable (hreason value hvalue)))),
    .inr (.inr (htext _ hstatus)), .inr (.inr (htext _ (columnString_encodable hprovider))),
    .inr (.inr (htext _ (columnString_encodable htitle))),
    .inr (.inr (htext _ (encodable_isoformat _))), .inr (.inr (htext _ (encodable_uuid _)))⟩

theorem every_material (htext : ∀ string, Str.encodable string = true → text string = true)
    (h : row.storable = true) : row.material.every number text nonFinite =
      (row.evidenceRefs.every number text nonFinite &&
        row.payload.every number text nonFinite) := by
  rw [ProposalRow.material, Value.every, Bool.eq_iff_iff, everyField_iff, Bool.and_eq_true]
  simp only [List.forall_mem_map]
  constructor
  · intro hall
    exact ⟨(hall ("evidence_refs", row.evidenceRefs) (by simp [ProposalRow.columns])).2,
      (hall ("payload", row.payload) (by simp [ProposalRow.columns])).2⟩
  · rintro ⟨hevidence, hpayload⟩ column hcolumn
    refine ⟨htext _ (names_encodable row column hcolumn), ?_⟩
    rcases every_column htext h column hcolumn with rfl | rfl | hother
    · exact hevidence
    · exact hpayload
    · exact hother

theorem storable_sorted (h : row.storable = true) : row.sorted.storable = true := by
  simp only [ProposalRow.storable, columnJson, Value.loaded, Value.finite, ProposalRow.sorted,
    every_sorted] at h ⊢
  exact h

end columns

section readable

variable {sha256 : Str → Str} {proposal later : StoredProposal}

theorem StoredProposal.material_text (proposal : StoredProposal) :
    proposal.row.sorted.material.loaded = true ∧
      ∃ text, proposal.row.sorted.material.dumps = some text := by
  have hstorable := storable_sorted proposal.storable
  have hjson := hstorable
  simp only [ProposalRow.storable, columnJson, Bool.and_eq_true, and_assoc] at hjson
  obtain ⟨-, -, -, -, -, -, hpayload, hpayloadFinite, hevidence, hevidenceFinite⟩ := hjson
  constructor
  · rw [Value.loaded, every_material (fun _ => whole_of_encodable) hstorable]
    exact Bool.and_eq_true_iff.2 ⟨hevidence, hpayload⟩
  · refine dumps_of_finite _ ?_
    rw [Value.finite, every_material (fun _ _ => rfl) hstorable]
    exact Bool.and_eq_true_iff.2 ⟨hevidenceFinite, hpayloadFinite⟩

theorem version_isSome_iff (proposal : StoredProposal) :
    (actionProposalVersion sha256 proposal.row).isSome = true ↔
      proposal.row.payload.encodable = true ∧ proposal.row.evidenceRefs.encodable = true := by
  obtain ⟨hloaded, text, htext⟩ := proposal.material_text
  have hencodable := encodable_dumps _ hloaded htext
  rw [Value.encodable, every_material (fun _ h => h) (storable_sorted proposal.storable)] at hencodable
  simp only [ProposalRow.sorted, every_sorted] at hencodable
  rw [actionProposalVersion, htext, Option.bind_some, hencodable]
  split
  · rename_i hboth
    obtain ⟨hevidence, hpayload⟩ := Bool.and_eq_true_iff.1 hboth
    exact ⟨fun _ => ⟨hpayload, hevidence⟩, fun _ => rfl⟩
  · rename_i hnot
    refine Iff.intro (fun h => Bool.noConfusion h) fun h => absurd ?_ hnot
    exact Bool.and_eq_true_iff.2 ⟨h.2, h.1⟩

theorem strOf_inj {string string' : Option Str} (h : strOf string = strOf string') :
    string = string' := by
  cases string <;> cases string' <;> cases h <;> rfl

theorem map_text_inj {id id' : Option Uuid} (h : id.map (·.text) = id'.map (·.text)) : id = id' :=
  Option.map_injective (fun _ _ => uuid_eq) h

theorem statusValue_inj {status status' : ProposalStatus}
    (h : Str.of (statusValue status) = Str.of (statusValue status')) : status = status' := by
  revert h
  cases status <;> cases status' <;> decide +kernel

/-- The material has every column. -/
theorem material_inj {row row' : ProposalRow} (h : row.material = row'.material) : row = row' := by
  have hcolumns := Value.obj.inj h
  simp only [ProposalRow.columns, List.map_cons, List.map_nil, List.cons.injEq, Prod.mk.injEq,
    Value.str.injEq, true_and, and_true] at hcolumns
  obtain ⟨htype, happrovedAt, happrovedBy, hitem, hcreatedAt, hcreatedBy, hcreator, hdescription,
    hevidence, hid, hpayload, hrejectedAt, hrejectedBy, hreason, hstatus, hprovider, htitle,
    hupdatedAt, hworkspace⟩ := hcolumns
  have happrovedAt := Option.map_injective (fun _ _ => isoformat_inj) (strOf_inj happrovedAt)
  have hrejectedAt := Option.map_injective (fun _ _ => isoformat_inj) (strOf_inj hrejectedAt)
  have happrovedBy := map_text_inj (strOf_inj happrovedBy)
  have hitem := map_text_inj (strOf_inj hitem)
  have hcreator := map_text_inj (strOf_inj hcreator)
  have hrejectedBy := map_text_inj (strOf_inj hrejectedBy)
  have hcreatedAt := isoformat_inj hcreatedAt
  have hupdatedAt := isoformat_inj hupdatedAt
  have hdescription := strOf_inj hdescription
  have hreason := strOf_inj hreason
  have hstatus := statusValue_inj hstatus
  have hid := uuid_eq hid
  have hworkspace := uuid_eq hworkspace
  obtain ⟨⟨⟩⟩ := row
  obtain ⟨⟨⟩⟩ := row'
  simp only at *
  subst_vars
  rfl

/-- Two rows of one version are one row, unless the digest collides. -/
theorem version_inj {proposal proposal' : StoredProposal} {version : Str}
    (h : actionProposalVersion sha256 proposal.row = some version)
    (h' : actionProposalVersion sha256 proposal'.row = some version) :
    proposal.row.sorted = proposal'.row.sorted ∨
      ∃ text text', text ≠ text' ∧ sha256 text = sha256 text' := by
  obtain ⟨hloaded, text, htext⟩ := proposal.material_text
  obtain ⟨hloaded', text', htext'⟩ := proposal'.material_text
  rw [actionProposalVersion, htext, Option.bind_some] at h
  rw [actionProposalVersion, htext', Option.bind_some] at h'
  by_cases hsame : text = text'
  · subst hsame
    exact .inl (material_inj (dumps_inj hloaded hloaded' htext htext'))
  · refine .inr ⟨text, text', hsame, ?_⟩
    split at h
    · split at h'
      · exact List.append_cancel_left (Option.some.inj (h.trans h'.symm))
      · cases h'
    · cases h

theorem row_of_stored {row : ProposalRow} (h : row.stored = some proposal) :
    proposal.row = row := by
  unfold ProposalRow.stored at h
  split at h
  · rw [← Option.some.inj h]
  · cases h

theorem change_json {change : ProposalChange} (h : proposal.change change = some later) :
    later.row.payload = proposal.row.payload ∧
      later.row.evidenceRefs = proposal.row.evidenceRefs := by
  obtain ⟨row, hrow, hstored⟩ := Option.bind_eq_some_iff.1 h
  obtain rfl := row_of_stored hstored
  cases change with
  | approve actor now =>
    simp only [ProposalRow.changed] at hrow
    split at hrow
    · rw [← Option.some.inj hrow]
      exact ⟨rfl, rfl⟩
    · cases hrow
  | reject actor reason now =>
    simp only [ProposalRow.changed] at hrow
    split at hrow
    · rw [← Option.some.inj hrow]
      exact ⟨rfl, rfl⟩
    · cases hrow
  | settle status now =>
    rw [← Option.some.inj hrow]
    exact ⟨rfl, rfl⟩

/-- Nothing writes the two columns after the creation. -/
theorem json_of_reaches (h : Reaches StoredProposal.change anyStep proposal later) :
    later.row.payload = proposal.row.payload ∧
      later.row.evidenceRefs = proposal.row.evidenceRefs := by
  refine h.invariant (P := fun later => later.row.payload = proposal.row.payload ∧
    later.row.evidenceRefs = proposal.row.evidenceRefs) (fun p change q hp _ hchange => ?_) ⟨rfl, rfl⟩
  obtain ⟨hpayload, hevidence⟩ := change_json hchange
  exact ⟨hpayload.trans hp.1, hevidence.trans hp.2⟩

variable {Digest : Type} {rules : EvidenceRules Digest} {facts : CreationFacts}
  {request : ProposalRequest}

theorem json_of_store (h : storeActionProposal rules facts request = some proposal) :
    proposal.row.payload = request.payload ∧ proposal.row.evidenceRefs = request.evidenceRefs := by
  obtain ⟨created, hcreated, hstored⟩ := Option.bind_eq_some_iff.1 h
  have hcreated := ok_of_toOption hcreated
  unfold createActionProposal at hcreated
  obtain ⟨_, -, hcreated⟩ := ok_of_bind_ok hcreated
  rw [row_of_stored hstored, ← Except.ok.inj hcreated]
  exact ⟨rfl, rfl⟩

theorem listed_isSome_iff {rows : List StoredProposal} : (listed sha256 rows).isSome = true ↔
    ∀ proposal ∈ rows, proposal.row.payload.encodable = true ∧
      proposal.row.evidenceRefs.encodable = true := by
  induction rows with
  | nil => exact ⟨fun _ _ h => absurd h List.not_mem_nil, fun _ => rfl⟩
  | cons proposal rows ih =>
    rw [List.forall_mem_cons, ← version_isSome_iff, ← ih, listed, listed, List.mapM_cons,
      serializeActionProposal]
    cases actionProposalVersion sha256 proposal.row with
    | none => exact Iff.intro (fun h => Bool.noConfusion h) fun h => Bool.noConfusion h.1
    | some version =>
      cases rows.mapM fun proposal => serializeActionProposal sha256 proposal.row with
      | none => exact Iff.intro (fun h => Bool.noConfusion h) fun h => Bool.noConfusion h.2
      | some read => exact ⟨fun _ => ⟨rfl, rfl⟩, fun _ => rfl⟩

/-- A proposal that was accepted can be read, now and after every decision on it, exactly when no
string of its payload or evidence has a lone surrogate; a listing needs this of all its rows. The
version tells two rows apart. -/
theorem proposal_readable_iff (rules : EvidenceRules Digest) (sha256 : Str → Str) :
    (∀ facts (request : LoadedRequest) created later,
      storeActionProposal rules facts request.toProposalRequest = some created →
      Reaches StoredProposal.change anyStep created later →
        ((serializeActionProposal sha256 later.row).isSome = true ↔
          request.payload.encodable = true ∧ request.evidenceRefs.encodable = true)) ∧
    (∀ rows : List StoredProposal, (listed sha256 rows).isSome = true ↔
      ∀ proposal ∈ rows, proposal.row.payload.encodable = true ∧
        proposal.row.evidenceRefs.encodable = true) ∧
    ∀ (proposal proposal' : StoredProposal) version,
      actionProposalVersion sha256 proposal.row = some version →
      actionProposalVersion sha256 proposal'.row = some version →
        proposal.row.sorted = proposal'.row.sorted ∨
          ∃ text text', text ≠ text' ∧ sha256 text = sha256 text' := by
  refine ⟨fun facts request created later hcreated hlater => ?_, fun rows => listed_isSome_iff,
    fun proposal proposal' version => version_inj⟩
  obtain ⟨hpayload, hevidence⟩ := json_of_reaches hlater
  obtain ⟨hpayload', hevidence'⟩ := json_of_store hcreated
  rw [serializeActionProposal, Option.isSome_map, version_isSome_iff, hpayload, hevidence, hpayload',
    hevidence']

end readable

section surrogate

def sampleTime : Datetime := ⟨2026, 7, 6, 10, 0, 0, 0, by decide⟩

def sampleFacts : CreationFacts := ⟨sampleWorkspace, sampleWorkspace, none, sampleTime⟩

/-- A todo whose payload is `{"x": text}`. -/
def todoRequest (text : Str) (h : whole text = true) : LoadedRequest where
  targetProvider := Str.of "internal"
  actionType := Str.of "internal_todo"
  title := Str.of "t"
  payload := .obj [(Str.of "x", .str text)]
  evidenceRefs := .arr []
  createdBy := Str.of "user"
  description := none
  briefingItemId := none
  payload_loaded := by simp [Value.loaded, Value.every, everyField, h, Str.of, whole]
  evidence_loaded := rfl

/-- The payload `{"x": "\ud800"}`. -/
def surrogateRequest : LoadedRequest := todoRequest [0xD800] rfl

def surrogateStored : Option StoredProposal :=
  storeActionProposal asciiRules sampleFacts surrogateRequest.toProposalRequest

/-- The accepted proposal cannot be read, nor listed beside another one. -/
theorem lone_surrogate_blocks : ∃ stored plain, surrogateStored = some stored ∧
    storeActionProposal asciiRules sampleFacts
      (todoRequest (Str.of "y") rfl).toProposalRequest = some plain ∧
    serializeActionProposal id stored.row = none ∧ listed id [plain, stored] = none := by
  have hsome : surrogateStored.isSome = true := by decide +kernel
  have hplain : (storeActionProposal asciiRules sampleFacts
      (todoRequest (Str.of "y") rfl).toProposalRequest).isSome = true := by decide +kernel
  obtain ⟨stored, hstored⟩ := Option.isSome_iff_exists.1 hsome
  obtain ⟨plain, hplain⟩ := Option.isSome_iff_exists.1 hplain
  have hbad : ¬stored.row.payload.encodable = true := by
    rw [(json_of_store hstored).1]
    decide +kernel
  refine ⟨stored, plain, hstored, hplain, ?_, ?_⟩
  · rw [← Option.not_isSome_iff_eq_none, serializeActionProposal, Option.isSome_map,
      version_isSome_iff]
    exact fun h => hbad h.1
  · rw [← Option.not_isSome_iff_eq_none, listed_isSome_iff]
    exact fun h => hbad (h stored (by simp)).1

end surrogate

end FounderOs.Proposals
