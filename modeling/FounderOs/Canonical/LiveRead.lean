import FounderOs.Canonical.SourceRecord
import FounderOs.Foundation.Paging
import FounderOs.SyncWorker.Model

namespace FounderOs.Canonical

open Paging SyncWorker

variable {E N K P : Type}

structure ListedItem (E : Type) where
  externalId : E
  isPullRequest : Bool
  deriving DecidableEq, Repr

inductive ItemState where
  | opened | closed | merged
  deriving DecidableEq, Repr

/-- What the provider lists for each repository at each instant, newest first; the issues listing
also shows pull requests. -/
structure ProviderHistory (E K P : Type) where
  listing : WorkKind → K → Instant → List (ListedItem E)
  state : Instant → E → ItemState
  payload : Instant → E → P
  newestFirst : ∀ kind repository t t', t ≤ t' → ∃ added stays,
    listing kind repository t' = added ++ (listing kind repository t).filter stays ∧
      ∀ item ∈ listing kind repository t, item ∈ listing kind repository t' → stays item = true
  pullRequests : ∀ repository t item, item ∈ listing .pullRequest repository t →
    item.isPullRequest = true
  issueState : ∀ repository t item, item ∈ listing .issue repository t →
    item.isPullRequest = false → state t item.externalId ≠ .merged

def WorkKind.keeps : WorkKind → ListedItem E → Bool
  | .issue, item => !item.isPullRequest
  | .pullRequest, _ => true

namespace ProviderHistory

variable (H : ProviderHistory E K P)

def Present (kind : WorkKind) (repository : K) (externalId : E) (t : Instant) : Prop :=
  ∃ item ∈ H.listing kind repository t, kind.keeps item = true ∧ item.externalId = externalId

end ProviderHistory

structure RawItem (E P : Type) where
  item : ListedItem E
  state : ItemState
  payload : P
  deriving DecidableEq, Repr

def perPage : Nat := 100
def maxPages : Nat := 10

/-- Page `n + 1` of `list_issues` or `list_pull_requests`, answered at instant `t`. -/
def ProviderHistory.page (H : ProviderHistory E K P) (kind : WorkKind) (repository : K)
    (n : Nat) (t : Instant) : List (RawItem E P) :=
  (slice perPage n (H.listing kind repository t)).map
    (fun item => ⟨item, H.state t item.externalId, H.payload t item.externalId⟩)

structure PreparedScope where
  includeIssues : Bool
  includePullRequests : Bool
  issueStates : List IssueState
  pullRequestStates : List PullRequestState
  deriving DecidableEq, Repr

namespace PreparedScope

variable (prepared : PreparedScope)

def included : WorkKind → Bool
  | .issue => prepared.includeIssues
  | .pullRequest => prepared.includePullRequests

def authoritative : WorkKind → Bool
  | .issue => prepared.includeIssues && completeIssueScope prepared.issueStates
  | .pullRequest =>
    prepared.includePullRequests && completePullRequestScope prepared.pullRequestStates

def issueSelected : ItemState → Bool
  | .opened => decide (.all ∈ prepared.issueStates ∨ .opened ∈ prepared.issueStates)
  | .closed => decide (.all ∈ prepared.issueStates ∨ .closed ∈ prepared.issueStates)
  | .merged => false

def pullRequestSelected : ItemState → Bool
  | .opened => decide (.all ∈ prepared.pullRequestStates ∨ .opened ∈ prepared.pullRequestStates)
  | .closed => decide (.all ∈ prepared.pullRequestStates ∨ .closed ∈ prepared.pullRequestStates)
  | .merged => decide (.all ∈ prepared.pullRequestStates ∨ .merged ∈ prepared.pullRequestStates)

def selects (kind : WorkKind) (raw : RawItem E P) : Bool :=
  match kind with
  | .issue => kind.keeps raw.item && prepared.issueSelected raw.state
  | .pullRequest => kind.keeps raw.item && prepared.pullRequestSelected raw.state

variable {prepared}

theorem included_of_authoritative {kind : WorkKind} (h : prepared.authoritative kind = true) :
    prepared.included kind = true := by
  cases kind <;> exact (Bool.and_eq_true_iff.1 h).1

/-- A complete scope filters nothing but the pull requests of the issues listing. -/
theorem selects_of_authoritative {kind : WorkKind} (h : prepared.authoritative kind = true)
    {raw : RawItem E P} (hkeeps : kind.keeps raw.item = true)
    (hstate : kind = .issue → raw.state ≠ .merged) : prepared.selects kind raw = true := by
  cases kind with
  | issue =>
    have hcomplete := (Bool.and_eq_true_iff.1 h).2
    simp only [completeIssueScope, Bool.or_eq_true, decide_eq_true_eq] at hcomplete
    simp only [selects, hkeeps, Bool.true_and]
    cases hs : raw.state with
    | opened =>
      simp only [issueSelected, decide_eq_true_eq]
      exact hcomplete.imp id (fun h => h.1)
    | closed =>
      simp only [issueSelected, decide_eq_true_eq]
      exact hcomplete.imp id (fun h => h.2)
    | merged => exact absurd hs (hstate rfl)
  | pullRequest =>
    have hcomplete := (Bool.and_eq_true_iff.1 h).2
    simp only [completePullRequestScope, Bool.or_eq_true, decide_eq_true_eq] at hcomplete
    simp only [selects, hkeeps, Bool.true_and]
    cases raw.state with
    | opened =>
      simp only [pullRequestSelected, decide_eq_true_eq]
      exact hcomplete.imp id (fun h => h.1)
    | closed =>
      simp only [pullRequestSelected, decide_eq_true_eq]
      exact hcomplete.imp id (fun h => h.2.1)
    | merged =>
      simp only [pullRequestSelected, decide_eq_true_eq]
      exact hcomplete.imp id (fun h => h.2.2)

end PreparedScope

/-- A successful `read_github_app_repository_batch`: `pages` are the pages read, `pageAt` when each
was answered, and `observedAt` the stamp taken after the last of them. -/
structure LiveRead (H : ProviderHistory E K P) (casefold : N → K) where
  fullName : N
  prepared : PreparedScope
  repositoryExternalId : E
  repositoryPayload : P
  pageAt : WorkKind → Nat → Instant
  pages : WorkKind → List (List (RawItem E P))
  observedAt : Instant
  ordered : ∀ kind n, pageAt kind n ≤ pageAt kind (n + 1)
  stamped : ∀ kind n, pageAt kind n ≤ observedAt
  read : ∀ kind, prepared.included kind = true →
    readPages perPage (fun n => H.page kind (casefold fullName) n (pageAt kind n)) maxPages 0 =
      some (pages kind)

namespace LiveRead

variable {H : ProviderHistory E K P} {casefold : N → K} (read : LiveRead H casefold)

def items (kind : WorkKind) : List (WorkItem E P) :=
  if read.prepared.included kind then
    ((read.pages kind).flatten.filter (fun raw => read.prepared.selects kind raw)).map
      (fun raw => ⟨raw.item.externalId, raw.payload⟩)
  else []

def batch : RepositoryBatch E N P where
  fullName := read.fullName
  observedAt := read.observedAt
  repositoryExternalId := read.repositoryExternalId
  repositoryPayload := read.repositoryPayload
  items := read.items
  authoritative := read.prepared.authoritative

def listing (kind : WorkKind) (n : Nat) : List (ListedItem E) :=
  H.listing kind (casefold read.fullName) (read.pageAt kind n)

/-- Nothing listed ahead of `externalId` when one page is read is gone when the next is. -/
def Steady (kind : WorkKind) (externalId : E) : Prop :=
  ∀ n, n + 1 < (read.pages kind).length → ∀ ahead item behind,
    read.listing kind n = ahead ++ item :: behind → kind.keeps item = true →
    item.externalId = externalId → ∀ other ∈ ahead, other ∈ read.listing kind (n + 1)

def PresentThroughout (kind : WorkKind) (externalId : E) : Prop :=
  ∀ n, n < (read.pages kind).length →
    H.Present kind (casefold read.fullName) externalId (read.pageAt kind n)

variable {read}

theorem first_le_pageAt (kind : WorkKind) (n : Nat) : read.pageAt kind 0 ≤ read.pageAt kind n := by
  induction n with
  | zero => exact Nat.le_refl _
  | succ n ih => exact Nat.le_trans ih (read.ordered kind n)

theorem item_of_present {kind : WorkKind} {x : E} {repository : K} {t : Instant}
    (h : H.Present kind repository x t) :
    ⟨x, decide (kind = .pullRequest)⟩ ∈ H.listing kind repository t := by
  obtain ⟨⟨externalId, isPullRequest⟩, hitem, hkeeps, rfl⟩ := h
  cases kind with
  | issue => simp_all [WorkKind.keeps]
  | pullRequest =>
    have hpull : isPullRequest = true := H.pullRequests _ _ _ hitem
    simpa [hpull] using hitem

theorem keeps_item (kind : WorkKind) (x : E) :
    kind.keeps ⟨x, decide (kind = .pullRequest)⟩ = true := by
  cases kind <;> rfl

theorem movesBack_of_steady {kind : WorkKind} {x : E} (hsteady : read.Steady kind x)
    (hpresent : read.PresentThroughout kind x) (n : Nat) (hn : n + 1 < (read.pages kind).length) :
    MovesBack ⟨x, decide (kind = .pullRequest)⟩ (read.listing kind n) (read.listing kind (n + 1)) := by
  obtain ⟨added, stays, hlisting, hstays⟩ :=
    H.newestFirst kind (casefold read.fullName) _ _ (read.ordered kind n)
  have hnow := item_of_present (hpresent n (Nat.lt_of_succ_lt hn))
  have hnext := item_of_present (hpresent (n + 1) hn)
  refine movesBack_of_newest_first hlisting (hstays _ hnow hnext) ?_
  intro ahead behind hsplit other hother
  have hhere : other ∈ read.listing kind n := by
    rw [hsplit]
    exact List.mem_append_left _ hother
  exact hstays other hhere (hsteady n hn ahead _ behind hsplit (keeps_item kind x) rfl other hother)

theorem pages_pos {kind : WorkKind} (hincluded : read.prepared.included kind = true) :
    0 < (read.pages kind).length :=
  length_readPages_pos (read.read kind hincluded)

/-- A read of a complete scope observes what was there at each of its pages, if nothing listed
ahead of it disappeared meanwhile. -/
theorem observed_of_present {kind : WorkKind} (hauth : read.prepared.authoritative kind = true)
    {x : E} (hsteady : read.Steady kind x) (hpresent : read.PresentThroughout kind x) :
    x ∈ (read.batch.items kind).map (·.externalId) := by
  have hincluded := PreparedScope.included_of_authoritative hauth
  have hread := read.read kind hincluded
  have hmem : ⟨x, decide (kind = .pullRequest)⟩ ∈ (read.pages kind).flatten.map (·.item) := by
    refine mem_of_readPages (fun raw : RawItem E P => raw.item) (fun n => read.listing kind n) ?_
      hread ?_ ?_
    · intro k
      simp [ProviderHistory.page, listing, Function.comp_def]
    · intro k hk
      simpa using movesBack_of_steady hsteady hpresent k hk
    · simpa [listing] using item_of_present (hpresent 0 (pages_pos hincluded))
  obtain ⟨raw, hraw, hitem⟩ := List.mem_map.1 hmem
  obtain ⟨k, hk⟩ := mem_page_of_mem_readPages hread hraw
  have hkeeps : kind.keeps raw.item = true := hitem ▸ keeps_item kind x
  have hstate : kind = .issue → raw.state ≠ .merged := by
    rintro rfl
    obtain ⟨listed, hlisted, rfl⟩ := List.mem_map.1 hk
    have hthere : listed ∈ H.listing .issue (casefold read.fullName) (read.pageAt .issue k) :=
      List.mem_of_mem_drop (List.mem_of_mem_take hlisted)
    exact H.issueState _ _ listed hthere (by simpa [WorkKind.keeps] using hkeeps)
  have hselected := PreparedScope.selects_of_authoritative hauth hkeeps hstate
  have hid : raw.item.externalId = x := by rw [hitem]
  simp only [batch, items, hincluded, if_true, List.map_map]
  exact List.mem_map.2 ⟨raw, List.mem_filter.2 ⟨hraw, hselected⟩, hid⟩

end LiveRead

end FounderOs.Canonical
