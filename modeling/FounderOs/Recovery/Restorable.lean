import FounderOs.Foundation.Outcome
import FounderOs.Recovery.Offsite

namespace FounderOs.Recovery

open Transition

variable {P Key Nonce Archive Content Digest : Type}

/-- The artifact that a prune has removed and whose receipt is next. -/
def Proc.removing : Proc Key Archive Digest → Option Str
  | .pruning (item :: _) true => some item.artifact
  | _ => none

/-- The name whose files a process relies on. -/
def Proc.holds : Proc Key Archive Digest → Option Str
  | .exporting call pc => if pc.written then some call.artifact else none
  | .pruning (item :: _) true => some item.artifact
  | _ => none

/-- No step gets in the way of another process: an export writes under a name that is free, what it
cleans up is its own, a prune removes nothing that a running export has written, and it is not
stopped between the two files of a backup. Nothing is damaged from outside. -/
def Undisturbed (w : World P Key Archive Content Digest) :
    Action P Key Nonce Archive Content Digest → Prop
  | .replaceArtifact p _ => ∀ call, w.procs p = .exporting call .checked →
      w.target.artifacts.get call.artifact = none ∧ w.target.receipts.get call.artifact = none ∧
        ∀ q, (w.procs q).holds ≠ some call.artifact
  | .unlinkArtifact p => ∀ call written, w.procs p = .exporting call (.failed written) →
      written = true ∨ w.target.artifacts.get call.artifact = none
  | .unlinkReceipt p => ∀ call, w.procs p = .exporting call .unlinked →
      w.target.receipts.get call.artifact = none
  | .pruneArtifact p => ∀ item rest, w.procs p = .pruning (item :: rest) false →
      ∀ q, (w.procs q).holds ≠ some item.artifact
  | .crash p => (w.procs p).removing = none
  | .damageArtifact _ _ | .damageReceipt _ _ => False
  | _ => True

/-- A prune has removed an artifact, and its receipt is still there. -/
def World.HalfRemoved (w : World P Key Archive Content Digest) : Prop :=
  ∃ p name, (w.procs p).removing = some name ∧ (w.target.receipts.get name).isSome

def World.start : World P Key Archive Content Digest where
  target := ⟨.empty, .empty⟩
  procs _ := .idle
  reported := []

/-- What the receipts of a target have, all of them written by exports. -/
structure Issued (name : Str) (receipt : OffsiteReceipt Digest) : Prop where
  fields : receipt.formatVersion = offsiteFormatVersion ∧ receipt.status = "encrypted_verified" ∧
    receipt.encryption = "AES-256-GCM" ∧ receipt.keyPersistedWithBackup = false
  artifact : Str.strip receipt.artifact = name
  valid : validArtifactName name = true

def ExportPc.hash : ExportPc Digest → Option Digest
  | .hashed sha256 | .verified sha256 => some sha256
  | _ => none

section invariant

variable (crypto : Crypto Key Nonce Archive Content Digest)

/-- What a process has found or made of the files of the name that it holds. -/
def Relies (target : Target Content Digest) : Proc Key Archive Digest → Prop
  | .idle => True
  | .exporting call pc => pc.written = true → ∃ content,
      target.artifacts.get call.artifact = some content ∧
        crypto.decrypt call.key content = some call.bundle.archive ∧
        (∀ sha256 ∈ pc.hash, crypto.sha256 content = sha256) ∧
        ((target.receipts.get call.artifact).isSome ↔ pc = .recorded)
  | .pruning removable unlinked => (∀ item ∈ removable, item.receipt = item.artifact) ∧
      (unlinked = true → ∀ item ∈ removable.head?, target.artifacts.get item.artifact = none)

def Matches (target : Target Content Digest) (name : Str) (receipt : OffsiteReceipt Digest) :
    Prop :=
  ∃ content, target.artifacts.get name = some content ∧
    crypto.sha256 content = receipt.artifactSha256

def Kept (target : Target Content Digest) (backup : ReportedBackup Key Archive) : Prop :=
  (target.receipts.get backup.artifact).isSome ∧ ∃ content,
    target.artifacts.get backup.artifact = some content ∧
      crypto.decrypt backup.key content = some backup.archive

structure Sound (w : World P Key Archive Content Digest) : Prop where
  relies : ∀ p, Relies crypto w.target (w.procs p)
  apart : ∀ p q name, (w.procs p).holds = some name → (w.procs q).holds = some name → p = q
  whole : ∀ name receipt, w.target.receipts.get name = some receipt → Issued name receipt ∧
    (Matches crypto w.target name receipt ∨ ∃ p, (w.procs p).removing = some name)
  kept : ∀ backup ∈ w.reported, Kept crypto w.target backup

end invariant

section change

variable {crypto : Crypto Key Nonce Archive Content Digest}
  {w w' : World P Key Archive Content Digest} {target target' : Target Content Digest} {p : P}
  {proc proc' : Proc Key Archive Digest}

theorem removed_of_removing {name : Str} (h : Relies crypto target proc)
    (hremoving : proc.removing = some name) : target.artifacts.get name = none := by
  unfold Proc.removing at hremoving
  split at hremoving
  · rename_i item rest
    rw [← Option.some.inj hremoving]
    exact h.2 rfl item rfl
  · cases hremoving

theorem holds_pruning (removable : List (LoadedBackup Digest)) :
    (Proc.pruning removable false : Proc Key Archive Digest).holds = none := by
  cases removable <;> rfl

/-- A process relies on nothing but the name that it holds. -/
theorem relies_of_agree (h : Relies crypto target proc)
    (hagree : ∀ name, proc.holds = some name →
      target'.artifacts.get name = target.artifacts.get name ∧
        target'.receipts.get name = target.receipts.get name) :
    Relies crypto target' proc := by
  cases proc with
  | idle => trivial
  | exporting call pc =>
    intro hwritten
    have hholds : (Proc.exporting call pc).holds = some call.artifact := if_pos hwritten
    obtain ⟨hartifact, hreceipt⟩ := hagree call.artifact hholds
    rw [hartifact, hreceipt]
    exact h hwritten
  | pruning removable unlinked =>
    refine ⟨h.1, fun hunlinked item hitem => ?_⟩
    obtain ⟨rest, rfl⟩ : ∃ rest, removable = item :: rest := by
      cases removable with
      | nil => cases hitem
      | cons first rest => exact ⟨rest, by rw [Option.some.inj hitem]⟩
    subst hunlinked
    rw [(hagree item.artifact rfl).1]
    exact h.2 rfl item hitem

variable [DecidableEq P]

/-- One process goes on, and the files that the others hold stay. -/
theorem Sound.change (hs : Sound crypto w) (hprocs : w'.procs = Function.update w.procs p proc')
    (hfiles : ∀ q, q ≠ p → ∀ name, (w.procs q).holds = some name →
      w'.target.artifacts.get name = w.target.artifacts.get name ∧
        w'.target.receipts.get name = w.target.receipts.get name)
    (hrelies : Relies crypto w'.target proc')
    (hholds : ∀ name, proc'.holds = some name → ∀ q, q ≠ p → (w.procs q).holds ≠ some name)
    (hwhole : ∀ name receipt, w'.target.receipts.get name = some receipt → Issued name receipt ∧
      (Matches crypto w'.target name receipt ∨ proc'.removing = some name ∨
        ∃ q, q ≠ p ∧ (w.procs q).removing = some name))
    (hkept : ∀ backup ∈ w'.reported, Kept crypto w'.target backup) : Sound crypto w' := by
  have hself : w'.procs p = proc' := by rw [hprocs, Function.update_self]
  have hother {q : P} (hne : q ≠ p) : w'.procs q = w.procs q := by
    rw [hprocs, Function.update_of_ne hne]
  refine ⟨fun q => ?_, fun q r name hq hr => ?_, fun name receipt hreceipt => ?_, hkept⟩
  · by_cases hq : q = p
    · rw [hq, hself]
      exact hrelies
    · rw [hother hq]
      exact relies_of_agree (hs.relies q) (hfiles q hq)
  · by_cases hqp : q = p <;> by_cases hrp : r = p
    · rw [hqp, hrp]
    · rw [hqp, hself] at hq
      rw [hother hrp] at hr
      exact absurd hr (hholds name hq r hrp)
    · rw [hrp, hself] at hr
      rw [hother hqp] at hq
      exact absurd hq (hholds name hr q hqp)
    · rw [hother hqp] at hq
      rw [hother hrp] at hr
      exact hs.apart q r name hq hr
  · refine (hwhole name receipt hreceipt).imp_right (Or.imp_right ?_)
    rintro (hp | ⟨q, hne, hq⟩)
    · exact ⟨p, hself ▸ hp⟩
    · exact ⟨q, (hother hne).symm ▸ hq⟩

/-- A process goes on, and the files are what they were. -/
theorem Sound.goOn (hs : Sound crypto w) (hprocs : w'.procs = Function.update w.procs p proc')
    (hsame : ∀ name, w'.target.artifacts.get name = w.target.artifacts.get name ∧
      w'.target.receipts.get name = w.target.receipts.get name)
    (hreported : w'.reported = w.reported) (hrelies : Relies crypto w.target proc')
    (hholds : ∀ name, proc'.holds = some name → (w.procs p).holds = some name)
    (hremoving : ∀ name, (w.procs p).removing = some name → w.target.receipts.get name = none) :
    Sound crypto w' := by
  have hmatches {name : Str} {receipt : OffsiteReceipt Digest}
      (h : Matches crypto w.target name receipt) : Matches crypto w'.target name receipt := by
    obtain ⟨content, hcontent, hhash⟩ := h
    exact ⟨content, (hsame name).1.trans hcontent, hhash⟩
  refine hs.change hprocs (fun _ _ name _ => hsame name) ?_ ?_ ?_ ?_
  · exact relies_of_agree hrelies fun name _ => hsame name
  · exact fun name hname q hne hq => hne (hs.apart q p name hq (hholds name hname))
  · intro name receipt hreceipt
    rw [(hsame name).2] at hreceipt
    refine (hs.whole name receipt hreceipt).imp_right (Or.imp hmatches ?_)
    rintro ⟨q, hq⟩
    refine .inr ⟨q, ?_, hq⟩
    rintro rfl
    exact Option.some_ne_none receipt (hreceipt.symm.trans (hremoving name hq))
  · intro backup hmem
    obtain ⟨hreceipt, content, hcontent, hkey⟩ := hs.kept backup (hreported ▸ hmem)
    exact ⟨(hsame backup.artifact).2 ▸ hreceipt, content,
      (hsame backup.artifact).1.trans hcontent, hkey⟩

/-- A process touches the files of a name that no other process holds. -/
theorem Sound.changeAt (hs : Sound crypto w) (name : Str)
    (hprocs : w'.procs = Function.update w.procs p proc')
    (hagree : ∀ other, name ≠ other →
      w'.target.artifacts.get other = w.target.artifacts.get other ∧
        w'.target.receipts.get other = w.target.receipts.get other)
    (hfree : ∀ q, q ≠ p → (w.procs q).holds ≠ some name)
    (hremoving : ∀ other, (w.procs p).removing = some other → other = name)
    (hrelies : Relies crypto w'.target proc')
    (hholds : ∀ other, proc'.holds = some other → other = name)
    (hwhole : ∀ receipt, w'.target.receipts.get name = some receipt → Issued name receipt ∧
      (Matches crypto w'.target name receipt ∨ proc'.removing = some name))
    (hkept : ∀ backup ∈ w'.reported, backup ∈ w.reported ∧ name ≠ backup.artifact) :
    Sound crypto w' := by
  refine hs.change hprocs ?_ hrelies ?_ ?_ ?_
  · intro q hne other hother
    refine hagree other ?_
    rintro rfl
    exact hfree q hne hother
  · intro other hother q hne
    rw [hholds other hother]
    exact hfree q hne
  · intro other receipt hreceipt
    by_cases heq : name = other
    · subst heq
      exact (hwhole receipt hreceipt).imp_right (Or.imp_right .inl)
    · obtain ⟨hartifact, hsame⟩ := hagree other heq
      rw [hsame] at hreceipt
      refine (hs.whole other receipt hreceipt).imp_right (Or.imp ?_ ?_)
      · rintro ⟨content, hcontent, hhash⟩
        exact ⟨content, hartifact.trans hcontent, hhash⟩
      · rintro ⟨q, hq⟩
        refine .inr ⟨q, ?_, hq⟩
        rintro rfl
        exact heq (hremoving other hq).symm
  · intro backup hmem
    obtain ⟨hbefore, hne⟩ := hkept backup hmem
    obtain ⟨hreceipt, content, hcontent, hkey⟩ := hs.kept backup hbefore
    obtain ⟨hartifact, hsame⟩ := hagree backup.artifact hne
    exact ⟨hsame ▸ hreceipt, content, hartifact.trans hcontent, hkey⟩

end change

section steps

variable {crypto : Crypto Key Nonce Archive Content Digest}
  {w : World P Key Archive Content Digest} {p : P} {call : ExportCall Key Archive}
  [DecidableEq P]

theorem Sound.setProc {proc : Proc Key Archive Digest} (hs : Sound crypto w)
    (hrelies : Relies crypto w.target proc)
    (hholds : ∀ name, proc.holds = some name → (w.procs p).holds = some name)
    (hremoving : (w.procs p).removing = none) : Sound crypto (w.setProc p proc) :=
  hs.goOn rfl (fun _ => ⟨rfl, rfl⟩) rfl hrelies hholds fun _ h => by cases hremoving.symm.trans h

theorem sound_checkTarget (hs : Sound crypto w) (hproc : w.procs p = .idle) :
    Sound crypto (w.checkTarget p call) := by
  unfold World.checkTarget
  split_ifs
  · exact hs
  · exact hs.setProc (fun h => by cases h) (fun _ h => by cases h) (hproc ▸ rfl)

theorem sound_replaceArtifact {nonce : Nonce} (hs : Sound crypto w)
    (hproc : w.procs p = .exporting call .checked)
    (hreceipt : w.target.receipts.get call.artifact = none)
    (hfree : ∀ q, (w.procs q).holds ≠ some call.artifact) :
    Sound crypto ((w.setArtifact call.artifact
      (some (crypto.encrypt call.key nonce call.bundle.archive))).setProc p
        (.exporting call .encrypted)) := by
  refine hs.changeAt call.artifact rfl ?_ (fun q _ => hfree q) ?_ ?_ ?_ ?_ ?_
  · intro other hne
    simp [hne]
  · rw [hproc]
    exact fun _ h => by cases h
  · intro _
    refine ⟨_, ?_, crypto.decrypt_encrypt _ nonce _, (fun _ h => by cases h), ?_⟩
    · simp
    · simp [hreceipt]
  · exact fun _ h => (Option.some.inj h).symm
  · intro receipt h
    rw [World.target_setProc, World.receipts_setArtifact, hreceipt] at h
    cases h
  · refine fun backup hmem => ⟨hmem, ?_⟩
    intro heq
    have hkept := (hs.kept backup hmem).1
    rw [← heq, hreceipt] at hkept
    cases hkept

theorem strip_artifactName (bundle : Str) :
    Str.strip (artifactName bundle) = artifactName bundle := by
  have hhead : (artifactName bundle).dropWhile Str.isSpace = artifactName bundle :=
    List.dropWhile_cons_of_neg Bool.false_ne_true
  have hlast : (artifactName bundle).reverse.dropWhile Str.isSpace =
      (artifactName bundle).reverse := by
    rw [artifactName, List.reverse_append, List.reverse_append]
    exact List.dropWhile_cons_of_neg Bool.false_ne_true
  rw [Str.strip, hhead, List.rdropWhile, hlast, List.reverse_reverse]

theorem validArtifactName_artifactName (bundle : VerifiedBundle Archive) :
    validArtifactName (artifactName bundle.name) = true := by
  have hslash : 47 ∉ artifactName bundle.name := by
    simp only [artifactName, List.mem_append, not_or]
    exact ⟨by decide, bundle.named.2, by decide⟩
  have hsuffix : Str.of ".fosbak" <:+ artifactName bundle.name :=
    (List.suffix_append _ _).trans (List.suffix_append _ _)
  rw [validArtifactName, List.contains_eq_mem, decide_eq_false hslash,
    List.isSuffixOf_iff_suffix.2 hsuffix]
  rfl

theorem issued_issuedReceipt (call : ExportCall Key Archive) (sha256 : Digest) :
    Issued call.artifact (issuedReceipt call sha256) :=
  ⟨⟨rfl, rfl, rfl, rfl⟩, strip_artifactName _, validArtifactName_artifactName _⟩

theorem sound_replaceReceipt {sha256 : Digest} (hs : Sound crypto w)
    (hproc : w.procs p = .exporting call (.verified sha256)) :
    Sound crypto ((w.setReceipt call.artifact (some (issuedReceipt call sha256))).setProc p
      (.exporting call .recorded)) := by
  have hrelies := hs.relies p
  rw [hproc] at hrelies
  obtain ⟨content, hcontent, hkey, hhash, hreceipt⟩ := hrelies rfl
  have hholds : (w.procs p).holds = some call.artifact := hproc ▸ rfl
  refine hs.changeAt call.artifact rfl ?_ ?_ ?_ ?_ ?_ ?_ ?_
  · intro other hne
    simp [hne]
  · exact fun q hne hq => hne (hs.apart q p call.artifact hq hholds)
  · rw [hproc]
    exact fun _ h => by cases h
  · exact fun _ => ⟨content, hcontent, hkey, (fun _ h => by cases h), by simp⟩
  · exact fun _ h => (Option.some.inj h).symm
  · intro receipt h
    rw [World.target_setProc, World.receipt_setReceipt, if_pos rfl, Option.some.injEq] at h
    subst h
    exact ⟨issued_issuedReceipt call sha256, .inl ⟨content, hcontent, hhash sha256 rfl⟩⟩
  · refine fun backup hmem => ⟨hmem, ?_⟩
    intro heq
    have hkept := (hs.kept backup hmem).1
    rw [← heq, hreceipt] at hkept
    cases hkept

theorem sound_hashArtifact [DecidableEq Digest] (hs : Sound crypto w)
    (hproc : w.procs p = .exporting call .encrypted) :
    Sound crypto (w.hashArtifact crypto p call) := by
  have hrelies := hs.relies p
  rw [hproc] at hrelies
  obtain ⟨content, hcontent, hkey, -, hreceipt⟩ := hrelies rfl
  unfold World.hashArtifact
  rw [hcontent]
  refine hs.setProc ?_ (fun name h => hproc ▸ h) (hproc ▸ rfl)
  refine fun _ => ⟨content, hcontent, hkey, ?_, ?_⟩
  · exact fun _ h => Option.some.inj h
  · rw [hreceipt]
    exact iff_of_false (fun h => by cases h) fun h => by cases h

theorem sound_verifyArtifact [DecidableEq Archive] {sha256 : Digest} (hs : Sound crypto w)
    (hproc : w.procs p = .exporting call (.hashed sha256)) :
    Sound crypto (w.verifyArtifact crypto p call sha256) := by
  have hrelies := hs.relies p
  rw [hproc] at hrelies
  obtain ⟨content, hcontent, hkey, hhash, hreceipt⟩ := hrelies rfl
  unfold World.verifyArtifact
  rw [hcontent, Option.bind_some, if_pos hkey]
  refine hs.setProc ?_ (fun name h => hproc ▸ h) (hproc ▸ rfl)
  refine fun _ => ⟨content, hcontent, hkey, hhash, ?_⟩
  rw [hreceipt]
  exact iff_of_false (fun h => by cases h) fun h => by cases h

theorem sound_exportFail {pc : ExportPc Digest} (hs : Sound crypto w)
    (hproc : w.procs p = .exporting call pc) (htry : pc.inTry = true) :
    Sound crypto (w.setProc p (.exporting call (.failed pc.written))) := by
  have hrelies := hs.relies p
  rw [hproc] at hrelies
  refine hs.setProc ?_ (fun name h => hproc ▸ h) (hproc ▸ rfl)
  intro hwritten
  obtain ⟨content, hcontent, hkey, -, hreceipt⟩ := hrelies hwritten
  refine ⟨content, hcontent, hkey, (fun _ h => by cases h), ?_⟩
  rw [hreceipt]
  refine iff_of_false ?_ (fun h => by cases h)
  rintro rfl
  cases htry

theorem sound_exportReturn (hs : Sound crypto w)
    (hproc : w.procs p = .exporting call .recorded) :
    Sound crypto { w.setProc p .idle with
      reported := ⟨call.artifact, call.key, call.bundle.archive⟩ :: w.reported } := by
  have hrelies := hs.relies p
  rw [hproc] at hrelies
  obtain ⟨content, hcontent, hkey, -, hreceipt⟩ := hrelies rfl
  have hidle : Sound crypto (w.setProc p .idle) :=
    hs.setProc trivial (fun _ h => by cases h) (hproc ▸ rfl)
  refine ⟨hidle.relies, hidle.apart, hidle.whole, ?_⟩
  refine List.forall_mem_cons.2 ⟨⟨hreceipt.2 rfl, content, hcontent, hkey⟩, hidle.kept⟩

theorem sound_unlinkArtifact {written : Bool} (hs : Sound crypto w)
    (hproc : w.procs p = .exporting call (.failed written))
    (hown : written = true ∨ w.target.artifacts.get call.artifact = none) :
    Sound crypto ((w.setArtifact call.artifact none).setProc p (.exporting call .unlinked)) := by
  have hdone : Relies crypto (w.setArtifact call.artifact none).target
      (.exporting call .unlinked) := fun h => by cases h
  rcases hown with rfl | hnone
  · have hrelies := hs.relies p
    rw [hproc] at hrelies
    obtain ⟨-, -, -, -, hreceipt⟩ := hrelies rfl
    have hreceipt : w.target.receipts.get call.artifact = none :=
      Option.not_isSome_iff_eq_none.1 fun h => by cases hreceipt.1 h
    have hholds : (w.procs p).holds = some call.artifact := hproc ▸ rfl
    refine hs.changeAt call.artifact rfl ?_ ?_ ?_ hdone (fun _ h => by cases h) ?_ ?_
    · intro other hne
      simp [hne]
    · exact fun q hne hq => hne (hs.apart q p call.artifact hq hholds)
    · rw [hproc]
      exact fun _ h => by cases h
    · intro receipt h
      rw [World.target_setProc, World.receipts_setArtifact, hreceipt] at h
      cases h
    · refine fun backup hmem => ⟨hmem, ?_⟩
      intro heq
      have hkept := (hs.kept backup hmem).1
      rw [← heq, hreceipt] at hkept
      cases hkept
  · refine hs.goOn rfl (fun name => ⟨?_, rfl⟩) rfl (fun h => by cases h) (fun _ h => by cases h) ?_
    · rw [World.target_setProc, World.artifact_setArtifact]
      split_ifs with heq
      · rw [← heq, hnone]
      · rfl
    · rw [hproc]
      exact fun _ h => by cases h

theorem sound_unlinkReceipt (hs : Sound crypto w)
    (hproc : w.procs p = .exporting call .unlinked)
    (hnone : w.target.receipts.get call.artifact = none) :
    Sound crypto ((w.setReceipt call.artifact none).setProc p .idle) := by
  refine hs.goOn rfl (fun name => ⟨rfl, ?_⟩) rfl trivial (fun _ h => by cases h) ?_
  · rw [World.target_setProc, World.receipt_setReceipt]
    split_ifs with heq
    · rw [← heq, hnone]
    · rfl
  · rw [hproc]
    exact fun _ h => by cases h

theorem sound_pruneArtifact {item : LoadedBackup Digest} {rest : List (LoadedBackup Digest)}
    (hs : Sound crypto w) (hproc : w.procs p = .pruning (item :: rest) false)
    (hfree : ∀ q, (w.procs q).holds ≠ some item.artifact) :
    Sound crypto (w.pruneArtifact p item rest) := by
  have hrelies := hs.relies p
  rw [hproc] at hrelies
  unfold World.pruneArtifact
  split_ifs with hnone
  · exact hs.setProc trivial (fun _ h => by cases h) (hproc ▸ rfl)
  · refine hs.changeAt item.artifact rfl ?_ (fun q _ => hfree q) ?_ ?_ ?_ ?_ ?_
    · intro other hne
      simp [hne]
    · rw [hproc]
      exact fun _ h => by cases h
    · refine ⟨hrelies.1, fun _ other hother => ?_⟩
      rw [← Option.some.inj hother]
      simp
    · exact fun _ h => (Option.some.inj h).symm
    · exact fun receipt h => ⟨(hs.whole item.artifact receipt h).1, .inr rfl⟩
    · intro backup hmem
      obtain ⟨hbefore, hne⟩ := List.mem_filter.1 hmem
      exact ⟨hbefore, fun heq => of_decide_eq_true hne heq.symm⟩

theorem sound_pruneReceipt {item : LoadedBackup Digest} {rest : List (LoadedBackup Digest)}
    (hs : Sound crypto w) (hproc : w.procs p = .pruning (item :: rest) true) :
    Sound crypto (w.pruneReceipt p item rest) := by
  have hrelies := hs.relies p
  rw [hproc] at hrelies
  obtain ⟨hnames, hgone⟩ := hrelies
  have hname : item.receipt = item.artifact := hnames item List.mem_cons_self
  have hgone : w.target.artifacts.get item.artifact = none := hgone rfl item rfl
  have hholds : (w.procs p).holds = some item.artifact := hproc ▸ rfl
  have hremoving : ∀ name, (w.procs p).removing = some name → name = item.artifact := by
    rw [hproc]
    exact fun _ h => (Option.some.inj h).symm
  unfold World.pruneReceipt
  split_ifs with hnone
  · refine hs.goOn rfl (fun _ => ⟨rfl, rfl⟩) rfl trivial (fun _ h => by cases h) ?_
    intro name h
    rw [hremoving name h, ← hname, hnone]
  · refine hs.changeAt item.artifact rfl ?_ ?_ hremoving ?_ ?_ ?_ ?_
    · intro other hne
      simp [hname, hne]
    · exact fun q hne hq => hne (hs.apart q p item.artifact hq hholds)
    · exact ⟨fun other hother => hnames other (List.mem_cons_of_mem _ hother),
        fun h => absurd h Bool.false_ne_true⟩
    · exact fun _ h => by cases (holds_pruning rest).symm.trans h
    · intro receipt h
      rw [World.target_setProc, World.receipt_setReceipt, if_pos hname] at h
      cases h
    · refine fun backup hmem => ⟨hmem, ?_⟩
      intro heq
      obtain ⟨-, content, hcontent, -⟩ := hs.kept backup hmem
      rw [← heq, hgone] at hcontent
      cases hcontent

end steps

section load

variable {crypto : Crypto Key Nonce Archive Content Digest}
  {w : World P Key Archive Content Digest} [DecidableEq Digest] {name : Str}
  {receipt : OffsiteReceipt Digest} {item : LoadedBackup Digest}

theorem loadOffsiteBackup_ok_iff {target : Target Content Digest} (h : Issued name receipt) :
    loadOffsiteBackup crypto target name receipt = .ok item ↔
      Matches crypto target name receipt ∧
        item = ⟨name, name, receipt.createdAt, receipt.artifactSha256⟩ := by
  obtain ⟨hversion, hstatus, hencryption, hkey⟩ := h.fields
  unfold loadOffsiteBackup
  simp only [hversion, hstatus, hencryption, hkey, h.artifact, h.valid, ne_eq, not_true_eq_false,
    Bool.false_eq_true, or_self, if_false, Bool.true_eq_false]
  cases hcontent : target.artifacts.get name with
  | none => simp [Matches, hcontent]
  | some content =>
    by_cases hhash : crypto.sha256 content = receipt.artifactSha256
    · simp [Matches, hcontent, hhash, eq_comm]
    · simp [Matches, hcontent, hhash]

theorem loadOffsiteBackups_ok_iff (hs : Sound crypto w) :
    (∃ backups, loadOffsiteBackups crypto w.target = .ok backups) ↔
      ∀ name receipt, w.target.receipts.get name = some receipt →
        Matches crypto w.target name receipt := by
  unfold loadOffsiteBackups
  rw [mapM_ok_iff]
  constructor
  · intro h name receipt hreceipt
    obtain ⟨item, hitem⟩ := h (name, receipt)
      (List.mem_mergeSort.2 (Directory.mem_entries_iff.2 hreceipt))
    exact ((loadOffsiteBackup_ok_iff (hs.whole name receipt hreceipt).1).1 hitem).1
  · rintro h ⟨name, receipt⟩ hmem
    have hreceipt := Directory.mem_entries_iff.1 (List.mem_mergeSort.1 hmem)
    exact ⟨_, (loadOffsiteBackup_ok_iff (hs.whole name receipt hreceipt).1).2
      ⟨h name receipt hreceipt, rfl⟩⟩

theorem mem_loaded_iff (hs : Sound crypto w) {backups : List (LoadedBackup Digest)}
    (hload : loadOffsiteBackups crypto w.target = .ok backups) :
    item ∈ backups ↔ ∃ name receipt, w.target.receipts.get name = some receipt ∧
      item = ⟨name, name, receipt.createdAt, receipt.artifactSha256⟩ := by
  rw [mem_mapM_ok hload]
  constructor
  · rintro ⟨⟨name, receipt⟩, hmem, hitem⟩
    have hreceipt := Directory.mem_entries_iff.1 (List.mem_mergeSort.1 hmem)
    exact ⟨name, receipt, hreceipt,
      ((loadOffsiteBackup_ok_iff (hs.whole name receipt hreceipt).1).1 hitem).2⟩
  · rintro ⟨name, receipt, hreceipt, hitem⟩
    refine ⟨(name, receipt), List.mem_mergeSort.2 (Directory.mem_entries_iff.2 hreceipt), ?_⟩
    exact (loadOffsiteBackup_ok_iff (hs.whole name receipt hreceipt).1).2
      ⟨(loadOffsiteBackups_ok_iff hs).1 ⟨backups, hload⟩ name receipt hreceipt, hitem⟩

theorem sound_loadPrune [DecidableEq P] {p : P} {keep : List Str} (hs : Sound crypto w)
    (hproc : w.procs p = .idle) : Sound crypto (w.loadPrune crypto p keep) := by
  unfold World.loadPrune
  split
  · rename_i backups hload
    refine hs.setProc ⟨fun item hitem => ?_, fun h => absurd h Bool.false_ne_true⟩ ?_ (hproc ▸ rfl)
    · obtain ⟨name, receipt, -, rfl⟩ := (mem_loaded_iff hs hload).1 (List.mem_of_mem_filter hitem)
      rfl
    · exact fun _ h => by cases (holds_pruning _).symm.trans h
  · exact hs

end load

section runs

variable {crypto : Crypto Key Nonce Archive Content Digest}
  {w : World P Key Archive Content Digest}

theorem sound_start : Sound crypto (World.start : World P Key Archive Content Digest) :=
  ⟨fun _ => trivial, (fun _ _ _ h => by cases h), (fun _ _ h => by cases h), (fun _ h => by cases h)⟩

/-- Every receipt has its artifact, unless one is half removed. -/
theorem all_match_iff (hs : Sound crypto w) :
    (∀ name receipt, w.target.receipts.get name = some receipt →
      Matches crypto w.target name receipt) ↔ ¬w.HalfRemoved := by
  constructor
  · rintro hall ⟨p, name, hremoving, hreceipt⟩
    obtain ⟨receipt, hreceipt⟩ := Option.isSome_iff_exists.1 hreceipt
    obtain ⟨content, hcontent, -⟩ := hall name receipt hreceipt
    have hgone := removed_of_removing (hs.relies p) hremoving
    exact Option.some_ne_none content (hcontent.symm.trans hgone)
  · intro hnone name receipt hreceipt
    refine (hs.whole name receipt hreceipt).2.resolve_right ?_
    rintro ⟨p, hremoving⟩
    exact hnone ⟨p, name, hremoving, by simp [hreceipt]⟩

variable [DecidableEq Digest]

theorem select_reported (hs : Sound crypto w) {backup : ReportedBackup Key Archive}
    (hmem : backup ∈ w.reported) {backups : List (LoadedBackup Digest)}
    (hload : loadOffsiteBackups crypto w.target = .ok backups) :
    ∃ item, selectOffsiteBackup crypto w.target (some backup.artifact) = .ok item ∧
      item.artifact = backup.artifact := by
  obtain ⟨hreceipt, content, hcontent, -⟩ := hs.kept backup hmem
  obtain ⟨receipt, hreceipt⟩ := Option.isSome_iff_exists.1 hreceipt
  have hloaded : (⟨backup.artifact, backup.artifact, receipt.createdAt,
      receipt.artifactSha256⟩ : LoadedBackup Digest) ∈ backups :=
    (mem_loaded_iff hs hload).2 ⟨backup.artifact, receipt, hreceipt, rfl⟩
  have hfound : (backups.find? (·.artifact = backup.artifact)).isSome :=
    List.find?_isSome.2 ⟨_, hloaded, decide_eq_true rfl⟩
  obtain ⟨item, hfind⟩ := Option.isSome_iff_exists.1 hfound
  have hitem : item.artifact = backup.artifact := by
    simpa using List.find?_some hfind
  refine ⟨item, ?_, hitem⟩
  have hthere : w.target.artifacts.get backup.artifact ≠ none :=
    hcontent ▸ Option.some_ne_none content
  calc selectOffsiteBackup crypto w.target (some backup.artifact)
      = if w.target.artifacts.get backup.artifact = none then .error .outsideTarget
        else (backups.find? (·.artifact = backup.artifact)).elim (.error .noValidReceipt) .ok := by
        rw [selectOffsiteBackup, hload]
        rfl
    _ = .ok item := by
        rw [if_neg hthere, hfind]
        rfl

variable [DecidableEq P] [DecidableEq Archive]

theorem sound_step (w : World P Key Archive Content Digest)
    (a : Action P Key Nonce Archive Content Digest) (w' : World P Key Archive Content Digest)
    (hs : Sound crypto w) (hok : Undisturbed w a) (hstep : w.step crypto a = some w') :
    Sound crypto w' := by
  cases a <;> simp only [World.step] at hstep
  case checkTarget p bundle key createdAt =>
    split at hstep <;> cases hstep
    exact sound_checkTarget hs ‹_›
  case replaceArtifact p nonce =>
    split at hstep <;> cases hstep
    rename_i call hproc
    obtain ⟨-, hreceipt, hfree⟩ := hok call hproc
    exact sound_replaceArtifact hs hproc hreceipt hfree
  case hashArtifact p =>
    split at hstep <;> cases hstep
    exact sound_hashArtifact hs ‹_›
  case verifyArtifact p =>
    split at hstep <;> cases hstep
    exact sound_verifyArtifact hs ‹_›
  case replaceReceipt p =>
    split at hstep <;> cases hstep
    exact sound_replaceReceipt hs ‹_›
  case exportReturn p =>
    split at hstep <;> cases hstep
    exact sound_exportReturn hs ‹_›
  case exportFail p =>
    split at hstep
    · split_ifs at hstep with htry
      cases hstep
      exact sound_exportFail hs ‹_› htry
    · cases hstep
  case unlinkArtifact p =>
    split at hstep <;> cases hstep
    rename_i call written hproc
    exact sound_unlinkArtifact hs hproc (hok call written hproc)
  case unlinkReceipt p =>
    split at hstep <;> cases hstep
    rename_i call hproc
    exact sound_unlinkReceipt hs hproc (hok call hproc)
  case recover artifactPath =>
    cases hstep
    exact hs
  case loadPrune p keep =>
    split at hstep <;> cases hstep
    exact sound_loadPrune hs ‹_›
  case pruneArtifact p =>
    split at hstep <;> cases hstep
    rename_i item rest hproc
    exact sound_pruneArtifact hs hproc (hok item rest hproc)
  case pruneReceipt p =>
    split at hstep <;> cases hstep
    exact sound_pruneReceipt hs ‹_›
  case crash p =>
    cases hstep
    exact hs.setProc trivial (fun _ h => by cases h) hok
  case damageArtifact name content => exact hok.elim
  case damageReceipt name receipt => exact hok.elim

theorem sound_of_reaches (h : Reaches (World.step crypto) Undisturbed World.start w) :
    Sound crypto w :=
  h.invariant sound_step sound_start

theorem restores_iff (h : Reaches (World.step crypto) Undisturbed World.start w)
    {backup : ReportedBackup Key Archive} (hmem : backup ∈ w.reported) :
    w.restores crypto backup = true ↔ ¬w.HalfRemoved := by
  have hs := sound_of_reaches h
  rw [← all_match_iff hs, ← loadOffsiteBackups_ok_iff hs]
  constructor
  · intro hrestores
    cases hload : loadOffsiteBackups crypto w.target with
    | error e =>
      have hselect : selectOffsiteBackup crypto w.target (some backup.artifact) = .error e := by
        rw [selectOffsiteBackup, hload]
        rfl
      rw [World.restores, hselect] at hrestores
      cases hrestores
    | ok backups => exact ⟨backups, rfl⟩
  · rintro ⟨backups, hload⟩
    obtain ⟨item, hselect, hitem⟩ := select_reported hs hmem hload
    obtain ⟨-, content, hcontent, hkey⟩ := hs.kept backup hmem
    simp [World.restores, hselect, hitem, hcontent, hkey]

variable {p : P} {call : ExportCall Key Archive} {nonce : Nonce}

/-- What an export makes of the world that nobody disturbs it in. -/
def World.exported (crypto : Crypto Key Nonce Archive Content Digest)
    (w : World P Key Archive Content Digest) (p : P) (call : ExportCall Key Archive)
    (nonce : Nonce) : World P Key Archive Content Digest :=
  let content := crypto.encrypt call.key nonce call.bundle.archive
  { ((w.setArtifact call.artifact (some content)).setReceipt call.artifact
      (some (issuedReceipt call (crypto.sha256 content)))).setProc p .idle with
    reported := ⟨call.artifact, call.key, call.bundle.archive⟩ :: w.reported }

/-- An export under a name that is free returns. -/
theorem reaches_exported (hidle : w.procs p = .idle)
    (hartifact : w.target.artifacts.get call.artifact = none)
    (hreceipt : w.target.receipts.get call.artifact = none)
    (hfree : ∀ q, (w.procs q).holds ≠ some call.artifact) :
    Reaches (World.step crypto) Undisturbed w (w.exported crypto p call nonce) := by
  let content := crypto.encrypt call.key nonce call.bundle.archive
  let checked := w.setProc p (.exporting call .checked)
  let encrypted := (checked.setArtifact call.artifact (some content)).setProc p
    (.exporting call .encrypted)
  let hashed := encrypted.setProc p (.exporting call (.hashed (crypto.sha256 content)))
  let verified := hashed.setProc p (.exporting call (.verified (crypto.sha256 content)))
  let recorded := (verified.setReceipt call.artifact
    (some (issuedReceipt call (crypto.sha256 content)))).setProc p (.exporting call .recorded)
  have hcheck : w.step crypto (.checkTarget p call.bundle call.key call.createdAt) =
      some checked := by
    simp [World.step, hidle, World.checkTarget, hartifact, hreceipt, checked]
  have hreplace : checked.step crypto (.replaceArtifact p nonce) = some encrypted := by
    simp [World.step, World.setProc, World.setArtifact, checked, encrypted, content]
  have hhash : encrypted.step crypto (.hashArtifact p) = some hashed := by
    simp [World.step, World.setProc, World.setArtifact, World.hashArtifact, hashed, encrypted,
      checked]
  have hverify : hashed.step crypto (.verifyArtifact p) = some verified := by
    simp [World.step, World.setProc, World.setArtifact, World.verifyArtifact, hashed, encrypted,
      checked, verified, content, crypto.decrypt_encrypt]
  have hrecord : verified.step crypto (.replaceReceipt p) = some recorded := by
    simp [World.step, World.setProc, World.setReceipt, recorded, verified]
  have hreturn : recorded.step crypto (.exportReturn p) =
      some (w.exported crypto p call nonce) := by
    simp [World.step, World.setProc, World.setReceipt, World.setArtifact, World.exported, recorded,
      verified, hashed, encrypted, checked, content]
  have hundisturbed : Undisturbed checked (.replaceArtifact p nonce :
      Action P Key Nonce Archive Content Digest) := by
    intro other hother
    have hself : checked.procs p = .exporting call .checked := Function.update_self ..
    obtain rfl : call = other := by
      injection hself.symm.trans hother
    refine ⟨hartifact, hreceipt, fun q => ?_⟩
    by_cases hq : q = p
    · rw [hq, hself]
      exact fun h => by cases h
    · have hother : checked.procs q = w.procs q := Function.update_of_ne hq ..
      rw [hother]
      exact hfree q
  refine (Reaches.one hcheck trivial).trans ((Reaches.one hreplace hundisturbed).trans ?_)
  refine (Reaches.one hhash trivial).trans ((Reaches.one hverify trivial).trans ?_)
  exact (Reaches.one hrecord trivial).trans (Reaches.one hreturn trivial)

end runs

section overlap

/-- Keys, nonces and archives are numbers; nothing but the key opens a content, and no two
contents share a hash. -/
def sampleCrypto : Crypto Nat Nat Nat (Nat × Nat × Nat) (Nat × Nat × Nat) where
  encrypt key nonce archive := (key, nonce, archive)
  decrypt key content := if content.1 = key then some content.2.2 else none
  sha256 content := content
  decrypt_encrypt _ _ _ := if_pos rfl

def sampleBundle : VerifiedBundle Nat := ⟨Str.of "founderos-1", 7, by decide⟩

theorem export_restores :
    ((World.start : World Unit Nat Nat _ _).exported sampleCrypto () ⟨sampleBundle, 5, 0⟩
      3).restores sampleCrypto ⟨artifactName sampleBundle.name, 5, 7⟩ = true := by
  refine (restores_iff (reaches_exported rfl rfl rfl fun _ h => by cases h)
    List.mem_cons_self).2 ?_
  rintro ⟨p, name, hremoving, -⟩
  cases hremoving

/-- Two exports of one bundle find the target free. The first returns; the second fails, and what it
cleans up is the backup of the first. -/
theorem second_export_unlinks :
    ∃ w : World Bool Nat Nat (Nat × Nat × Nat) (Nat × Nat × Nat),
      Reaches (World.step sampleCrypto) anyStep World.start w ∧
        ∃ backup ∈ w.reported, w.restores sampleCrypto backup = false := by
  have hrun : ((exec (World.step sampleCrypto) (World.start : World Bool Nat Nat _ _)
      [.checkTarget false sampleBundle 5 0, .checkTarget true sampleBundle 5 1,
        .replaceArtifact false 3, .hashArtifact false, .verifyArtifact false,
        .replaceReceipt false, .exportReturn false, .exportFail true, .unlinkArtifact true,
        .unlinkReceipt true]).map fun w =>
          w.reported.any fun backup => !w.restores sampleCrypto backup) = some true := by
    decide +kernel
  obtain ⟨w, hreaches, hbroken⟩ := reaches_of_exec_check hrun
  obtain ⟨backup, hmem, hrestores⟩ := List.any_eq_true.1 hbroken
  exact ⟨w, hreaches, backup, hmem, by simpa using hrestores⟩

end overlap

end FounderOs.Recovery
