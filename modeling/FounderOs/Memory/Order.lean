import FounderOs.Foundation.Dict
import FounderOs.Memory.Ledger
import Mathlib.Data.List.Nodup

namespace FounderOs.Memory

open Transition

structure Continues (events : List Event) (work : Work) : Prop where
  numbered : work.pending.map Event.workspaceSequence =
    List.range' (events.length + 1) work.pending.length
  counted : work.lastSequence = none → work.pending = []
  reached : ∀ n, work.lastSequence = some n → n = events.length + work.pending.length
  distinct : ((events ++ work.pending).map Event.key).Nodup

/-- The work of a transaction without a number that it has taken and not used yet. -/
def Txn.settled (x : Txn) : Work :=
  match x.call with
  | none => x.work
  | some call =>
    match call.pc with
    | .flushing _ => call.before
    | _ => x.work

structure Txn.Ordered (events : List Event) (x : Txn) : Prop where
  settled : Continues events x.settled
  calling : ∀ call, x.call = some call → call.running = true →
    (∀ n, call.pc ≠ .flushing n) → x.work = call.before
  flushing : ∀ call n, x.call = some call → call.pc = .flushing n →
    n = events.length + call.before.pending.length + 1 ∧ x.work = ⟨call.before.pending, some n⟩
  savepoints : ∀ work ∈ x.savepoints, Continues events work
  nested : (x.settled :: x.savepoints).Pairwise
    (fun later earlier => earlier.lastSequence.isSome → later.lastSequence.isSome)

structure World.Ordered (s : World) : Prop where
  numbered : s.events.map Event.workspaceSequence = List.range' 1 s.events.length
  stream : s.currentSequence = s.events.length
  distinct : (s.events.map Event.key).Nodup
  holder : ∀ txn x, s.txns txn = some x → (s.lock = some txn ↔ x.work.lastSequence.isSome)
  closed : ∀ txn, s.txns txn = none → s.lock ≠ some txn
  txns : ∀ txn x, s.txns txn = some x → x.Ordered s.events

section Work

variable {events rows : List Event} {work : Work} {entry : Entry} {outcome : Outcome} {e : Event}

theorem Continues.nothing (h : (events.map Event.key).Nodup) : Continues events ⟨[], none⟩ where
  numbered := rfl
  counted _ := rfl
  reached n hn := by cases hn
  distinct := by simpa using h

theorem Continues.keys (h : Continues events work) : (events.map Event.key).Nodup := by
  have hboth := h.distinct
  rw [List.map_append] at hboth
  exact (List.nodup_append.1 hboth).1

theorem Continues.eq_nothing (h : Continues events work) (hnone : work.lastSequence = none) :
    work = ⟨[], none⟩ := by
  obtain ⟨pending, lastSequence⟩ := work
  have hpending := h.counted hnone
  simp only at hnone hpending
  rw [hnone, hpending]

theorem Continues.add (h : Continues events work) (observedAt : Nat)
    (hkey : ∀ row ∈ events ++ work.pending, row.key ≠ entry.idempotencyKey) :
    Continues events
      ⟨work.pending ++ [⟨events.length + work.pending.length + 1, entry, observedAt⟩],
        some (events.length + work.pending.length + 1)⟩ where
  numbered := by
    rw [List.map_append, h.numbered, List.length_append, List.length_singleton,
      List.range'_1_concat]
    simp [Nat.add_right_comm]
  counted hnone := by cases hnone
  reached n hn := by
    simp only [Option.some.injEq] at hn
    simp only [List.length_append, List.length_singleton]
    omega
  distinct := by
    rw [← List.append_assoc, List.map_append]
    refine List.nodup_append.2 ⟨h.distinct, by simp, ?_⟩
    intro key hmem key' hnew hsame
    obtain ⟨row, hrow, rfl⟩ := List.mem_map.1 hmem
    obtain rfl : key' = entry.idempotencyKey := by simpa [Event.key] using hnew
    exact hkey row hrow hsame

theorem existingOutcome_of_mem (hkeys : (rows.map Event.key).Nodup) (hmem : e ∈ rows)
    (hkey : e.key = entry.idempotencyKey) (hsame : e.fingerprint = entry.payloadFingerprint) :
    existingOutcome entry rows = some (.replayed e) := by
  have hfind : rows.find? (fun row => row.key = entry.idempotencyKey) = some e :=
    (Dict.find?_key (.of_nodup hkeys)).2 ⟨hmem, hkey⟩
  simp [existingOutcome, hfind, hsame]

end Work

section Transaction

variable {s : World} {events : List Event} {txn : TxnId} {x y : Txn} {call : Call} {work : Work}

def Txn.AtRest (x : Txn) : Prop := ∀ call, x.call = some call → ∀ n, call.pc ≠ .flushing n

theorem Txn.AtRest.settled (h : x.AtRest) : x.settled = x.work := by
  cases hcall : x.call with
  | none => simp only [Txn.settled, hcall]
  | some call =>
    cases hpc : call.pc with
    | flushing n => exact absurd hpc (h call hcall n)
    | _ => simp only [Txn.settled, hcall, hpc]

theorem Txn.atRest_at {pc : CallPc} (hpc : ∀ n, pc ≠ .flushing n) : (x.at call pc).AtRest := by
  rintro _ ⟨⟩
  exact hpc

theorem atRest_of_not_appending (h : x.appending = false) : x.AtRest := by
  rintro call hcall n hpc
  simp [Txn.appending, hcall, Call.running, hpc] at h

theorem Txn.Ordered.atRest (h : x.Ordered events) (hnone : x.work.lastSequence = none) :
    x.AtRest := by
  rintro call hcall n hpc
  rw [(h.flushing call n hcall hpc).2] at hnone
  cases hnone

theorem Txn.Ordered.of_atRest (hrest : x.AtRest) (hwork : Continues events x.work)
    (hcalling : ∀ call, x.call = some call → call.running = true → x.work = call.before)
    (hsavepoints : ∀ work ∈ x.savepoints, Continues events work)
    (hnested : (x.work :: x.savepoints).Pairwise
      (fun later earlier => earlier.lastSequence.isSome → later.lastSequence.isSome)) :
    x.Ordered events where
  settled := by rwa [hrest.settled]
  calling call hcall hrunning _ := hcalling call hcall hrunning
  flushing call n hcall hpc := absurd hpc (hrest call hcall n)
  savepoints := hsavepoints
  nested := by rwa [hrest.settled]

/-- A transaction without the row lock has written nothing, so a commit of another keeps it. -/
theorem Txn.Ordered.commit_of_other (h : x.Ordered events) (hnone : x.work.lastSequence = none)
    {events' : List Event} (hkeys : (events'.map Event.key).Nodup) : x.Ordered events' := by
  have hrest := h.atRest hnone
  have hwork := h.settled
  have hnested := h.nested
  rw [hrest.settled] at hwork hnested
  have hnothing : ∀ work ∈ x.work :: x.savepoints, work = ⟨[], none⟩ := by
    intro work hmem
    rcases List.mem_cons.1 hmem with rfl | hmem
    · exact hwork.eq_nothing hnone
    · refine (h.savepoints work hmem).eq_nothing ?_
      have hlater := (List.pairwise_cons.1 hnested).1 work hmem
      rw [hnone] at hlater
      simpa using hlater
  refine .of_atRest hrest ?_ ?_ ?_ hnested
  · rw [hnothing x.work (by simp)]
    exact .nothing hkeys
  · exact fun call hcall hrunning => h.calling call hcall hrunning (hrest call hcall)
  · intro work hmem
    rw [hnothing work (by simp [hmem])]
    exact .nothing hkeys

theorem World.Ordered.put (h : s.Ordered) {lock : Option TxnId}
    (hlock : lock = some txn ↔ y.work.lastSequence.isSome)
    (hother : ∀ j, j ≠ txn → (lock = some j ↔ s.lock = some j)) (hy : y.Ordered s.events) :
    World.Ordered { s.put txn y with lock := lock } where
  numbered := h.numbered
  stream := h.stream
  distinct := h.distinct
  holder j z hz := by
    by_cases hj : j = txn
    · subst hj
      obtain rfl : y = z := by simpa [World.put] using hz
      exact hlock
    · have hz' : s.txns j = some z := by simpa [World.put, hj] using hz
      rw [hother j hj]
      exact h.holder j z hz'
  closed j hnone := by
    by_cases hj : j = txn
    · simp [World.put, hj] at hnone
    · have hnone' : s.txns j = none := by simpa [World.put, hj] using hnone
      rw [ne_eq, hother j hj]
      exact h.closed j hnone'
  txns j z hz := by
    by_cases hj : j = txn
    · subst hj
      obtain rfl : y = z := by simpa [World.put] using hz
      exact hy
    · exact h.txns j z (by simpa [World.put, hj] using hz)

theorem World.Ordered.put_unlocked (h : s.Ordered) (hx : s.txns txn = some x)
    (hwork : y.work.lastSequence = x.work.lastSequence) (hy : y.Ordered s.events) : (s.put txn y).Ordered :=
  h.put (by rw [hwork]; exact h.holder txn x hx) (fun _ _ => Iff.rfl) hy

theorem World.Ordered.restore (h : s.Ordered) (hx : s.txns txn = some x)
    (hheld : work.lastSequence.isSome → x.work.lastSequence.isSome)
    (hy : ({ y with work := work } : Txn).Ordered s.events) : (s.restore txn y work).Ordered := by
  have hholder := h.holder txn x hx
  refine h.put ?_ ?_ hy
  · cases hsequence : work.lastSequence with
    | none => simp
    | some n => simpa [hsequence] using hholder.2 (hheld (by simp [hsequence]))
  · intro j hj
    split
    · rename_i hfree
      simp [hfree.2, Ne.symm hj]
    · exact Iff.rfl

end Transaction

section Steps

variable {s s' : World} {txn : TxnId} {x : Txn} {call : Call} {a : Action}

theorem atRest_of_call (hcall : x.call = some call) (hpc : ∀ n, call.pc ≠ .flushing n) :
    x.AtRest := by
  rintro _ h
  obtain rfl : call = _ := Option.some.inj (hcall.symm.trans h)
  exact hpc

/-- A step that moves the append on without a number taken, or ends it. -/
theorem World.Ordered.move (h : s.Ordered) (hx : s.txns txn = some x) (hcall : x.call = some call)
    (hrunning : call.running = true) (hpc : ∀ n, call.pc ≠ .flushing n) {pc : CallPc}
    (hnext : ∀ n, pc ≠ .flushing n) : (s.put txn (x.at call pc)).Ordered := by
  have hx' := h.txns txn x hx
  have hrest := atRest_of_call hcall hpc
  have hwork := hx'.settled
  have hnested := hx'.nested
  rw [hrest.settled] at hwork hnested
  refine h.put_unlocked hx rfl (.of_atRest (Txn.atRest_at hnext) hwork ?_ hx'.savepoints hnested)
  rintro _ ⟨⟩ _
  exact hx'.calling call hcall hrunning hpc

/-- A savepoint of the append rolled back, whether a number was taken in it or not. -/
theorem World.Ordered.undo (h : s.Ordered) (hx : s.txns txn = some x) (hcall : x.call = some call)
    (hrunning : call.running = true) {pc : CallPc} (hnext : ∀ n, pc ≠ .flushing n) :
    (s.restore txn (x.at call pc) call.before).Ordered := by
  have hx' := h.txns txn x hx
  have hbefore : x.settled = call.before := by
    by_cases hflushing : ∃ n, call.pc = .flushing n
    · obtain ⟨n, hn⟩ := hflushing
      simp only [Txn.settled, hcall, hn]
    · simp only [not_exists] at hflushing
      rw [(atRest_of_call hcall hflushing).settled]
      exact hx'.calling call hcall hrunning hflushing
  have hheld : call.before.lastSequence.isSome → x.work.lastSequence.isSome := by
    intro hsome
    by_cases hflushing : ∃ n, call.pc = .flushing n
    · obtain ⟨n, hn⟩ := hflushing
      rw [(hx'.flushing call n hcall hn).2]
      rfl
    · simp only [not_exists] at hflushing
      rwa [hx'.calling call hcall hrunning hflushing]
  have hsettled := hx'.settled
  have hnested := hx'.nested
  rw [hbefore] at hsettled hnested
  refine h.restore hx hheld (.of_atRest ?_ hsettled ?_ hx'.savepoints hnested)
  · rintro _ ⟨⟩
    exact hnext
  · rintro _ ⟨⟩ _
    rfl

theorem World.Ordered.allocate (h : s.Ordered) (hx : s.txns txn = some x)
    (hcall : x.call = some call) (hpc : call.pc = .allocating)
    (hstep : allocateStep s txn x call = some s') : s'.Ordered := by
  have hx' := h.txns txn x hx
  have hrunning : call.running = true := by simp [Call.running, hpc]
  have hbefore := hx'.calling call hcall hrunning (by simp [hpc])
  have hsettled := hx'.settled
  have hnested := hx'.nested
  rw [(atRest_of_call hcall (by simp [hpc])).settled, hbefore] at hsettled hnested
  simp only [allocateStep] at hstep
  split at hstep
  · rename_i hfree
    simp only [Option.some.injEq] at hstep
    have hsequence : (x.work.lastSequence.orElse fun _ => s.lastSequence).getD 0 =
        s.events.length + call.before.pending.length := by
      rw [hbefore]
      cases hlast : call.before.lastSequence with
      | none => simpa [hsettled.counted hlast, World.currentSequence] using h.stream
      | some n => simpa using hsettled.reached n hlast
    rw [hsequence] at hstep
    subst hstep
    refine h.put (by simp) ?_ ?_
    · intro j hj
      rcases hfree with hnone | hown
      · simp [hnone, Ne.symm hj]
      · simp [hown]
    · exact {
        settled := by simpa [Txn.at, Txn.settled] using hsettled
        calling := by
          rintro _ ⟨⟩ _ hnot
          exact absurd rfl (hnot _)
        flushing := by
          rintro _ n ⟨⟩ hn
          cases hn
          exact ⟨rfl, by rw [hbefore]⟩
        savepoints := hx'.savepoints
        nested := by simpa [Txn.at, Txn.settled] using hnested }
  · cases hstep

theorem World.Ordered.flush (h : s.Ordered) (hx : s.txns txn = some x)
    (hcall : x.call = some call) {n : Nat} (hpc : call.pc = .flushing n) (integrityError : Bool) :
    (flushStep s txn x call n integrityError).Ordered := by
  have hx' := h.txns txn x hx
  have hrunning : call.running = true := by simp [Call.running, hpc]
  obtain ⟨rfl, hwork⟩ := hx'.flushing call n hcall hpc
  simp only [flushStep]
  split
  · exact h.undo hx hcall hrunning (by simp)
  · rename_i hfresh
    have hsettled : Continues s.events call.before := by
      simpa [Txn.settled, hcall, hpc] using hx'.settled
    have hkey : ∀ row ∈ s.events ++ call.before.pending, row.key ≠ call.entry.idempotencyKey := by
      intro row hrow hsame
      refine hfresh (.inr (List.any_eq_true.2 ⟨row, ?_, ?_⟩))
      · simpa [World.visible, hwork] using hrow
      · exact decide_eq_true (.inl hsame)
    have hnested := hx'.nested
    have hadded := hsettled.add call.observedAt hkey
    refine h.put_unlocked hx rfl (.of_atRest ?_ ?_ ?_ hx'.savepoints ?_)
    · rintro _ ⟨⟩
      simp
    · simpa [hwork] using hadded
    · rintro _ ⟨⟩ hended
      cases hended
    · refine List.pairwise_cons.2 ⟨?_, (List.pairwise_cons.1 hnested).2⟩
      simp [hwork]

theorem World.Ordered.callStep (h : s.Ordered) (hx : s.txns txn = some x)
    (hcall : x.call = some call) (hstep : callStep s txn x call a = some s') : s'.Ordered := by
  unfold Memory.callStep at hstep
  split at hstep
  · rename_i hpc
    obtain rfl := Option.some.inj hstep
    unfold selectStep
    split
    all_goals exact h.move hx hcall (by simp [Call.running, hpc]) (by simp [hpc]) (by simp)
  · rename_i hpc
    exact h.allocate hx hcall hpc hstep
  · rename_i hpc
    obtain rfl := Option.some.inj hstep
    exact h.flush hx hcall hpc _
  · rename_i hpc
    obtain rfl := Option.some.inj hstep
    exact h.move hx hcall (by simp [Call.running, hpc]) (by simp [hpc]) (by simp)
  iterate 4
    rename_i hpc
    obtain rfl := Option.some.inj hstep
    exact h.undo hx hcall (by simp [Call.running, hpc]) (by simp)
  · cases hstep

theorem World.Ordered.rollback (h : s.Ordered) :
    (s.close txn s.events s.lastSequence).Ordered where
  numbered := h.numbered
  stream := h.stream
  distinct := h.distinct
  holder j y hy := by
    by_cases hj : j = txn
    · subst hj
      simp [World.close] at hy
    · have hy' : s.txns j = some y := by simpa [World.close, hj] using hy
      rw [← h.holder j y hy']
      simp only [World.close]
      split
      · rename_i hheld
        simp [hheld, Ne.symm hj]
      · exact Iff.rfl
  closed j hnone := by
    simp only [World.close]
    split
    · simp
    · rename_i hother
      by_cases hj : j = txn
      · rwa [hj]
      · exact h.closed j (by simpa [World.close, hj] using hnone)
  txns j y hy := by
    by_cases hj : j = txn
    · subst hj
      simp [World.close] at hy
    · exact h.txns j y (by simpa [World.close, hj] using hy)

theorem World.Ordered.commit (h : s.Ordered) (hx : s.txns txn = some x)
    (hrest : x.appending = false) :
    (s.close txn (s.visible x) (x.work.lastSequence.orElse fun _ => s.lastSequence)).Ordered := by
  have hwork := (h.txns txn x hx).settled
  rw [(atRest_of_not_appending hrest).settled] at hwork
  have hclosed : (s.close txn s.events s.lastSequence).Ordered := h.rollback
  refine ⟨?_, ?_, hwork.distinct, hclosed.holder, hclosed.closed, ?_⟩
  · simp only [World.close, World.visible, List.map_append, h.numbered, hwork.numbered,
      List.length_append]
    rw [Nat.add_comm s.events.length 1, List.range'_append_1]
  · simp only [World.currentSequence, World.close, World.visible, List.length_append]
    cases hlast : x.work.lastSequence with
    | none => simpa [hwork.counted hlast, World.currentSequence] using h.stream
    | some n => simpa using hwork.reached n hlast
  · intro j y hy
    have hy' := hclosed.txns j y hy
    by_cases hnone : y.work.lastSequence = none
    · exact hy'.commit_of_other hnone hwork.distinct
    · -- the other holds the lock, so this one has written nothing
      have hlock := (hclosed.holder j y hy).2 (Option.isSome_iff_ne_none.2 hnone)
      have hmine : x.work.lastSequence = none := by
        by_contra hsome
        have hown := (h.holder txn x hx).2 (Option.isSome_iff_ne_none.2 hsome)
        simp [World.close, hown] at hlock
      simpa [World.close, World.visible, hwork.counted hmine] using hy'

theorem World.Ordered.txnStep (h : s.Ordered) (hx : s.txns txn = some x)
    (hstep : txnStep s txn x a = some s') : s'.Ordered := by
  have hx' := h.txns txn x hx
  have hquiet : x.appending = false →
      Continues s.events x.work ∧ (x.work :: x.savepoints).Pairwise
        (fun later earlier => earlier.lastSequence.isSome → later.lastSequence.isSome) := by
    intro hrest
    rw [← (atRest_of_not_appending hrest).settled]
    exact ⟨hx'.settled, hx'.nested⟩
  have hcalling : x.appending = false → ∀ {work : Work} call, x.call = some call →
      call.running = true → work = call.before := by
    intro hrest work call hcall hrunning
    simp [Txn.appending, hcall, hrunning] at hrest
  cases a with
  | append i request observedAt =>
    simp only [Memory.txnStep, appendStep] at hstep
    split at hstep
    · cases hstep
    · rename_i hrest
      simp only [Bool.not_eq_true] at hrest
      obtain ⟨hwork, hnested⟩ := hquiet hrest
      split at hstep
      · obtain rfl := Option.some.inj hstep
        refine h.put_unlocked hx rfl (.of_atRest ?_ hwork ?_ hx'.savepoints hnested)
        · rintro _ ⟨⟩
        · rintro _ ⟨⟩
      · obtain rfl := Option.some.inj hstep
        refine h.put_unlocked hx rfl (.of_atRest ?_ hwork ?_ hx'.savepoints hnested)
        · rintro _ ⟨⟩
          simp
        · rintro _ ⟨⟩ _
          rfl
  | rollback i =>
    obtain rfl := Option.some.inj hstep
    exact h.rollback
  | commit i =>
    simp only [Memory.txnStep] at hstep
    split at hstep
    · cases hstep
    · rename_i hrest
      obtain rfl := Option.some.inj hstep
      exact h.commit hx (by simpa using hrest)
  | savepoint i =>
    simp only [Memory.txnStep] at hstep
    split at hstep
    · cases hstep
    · rename_i hrest
      simp only [Bool.not_eq_true] at hrest
      obtain ⟨hwork, hnested⟩ := hquiet hrest
      obtain rfl := Option.some.inj hstep
      refine h.put_unlocked hx rfl
        (.of_atRest (atRest_of_not_appending hrest) hwork (hcalling hrest) ?_ ?_)
      · intro work hmem
        rcases List.mem_cons.1 hmem with rfl | hmem
        · exact hwork
        · exact hx'.savepoints work hmem
      · refine List.pairwise_cons.2 ⟨?_, hnested⟩
        intro work hmem
        rcases List.mem_cons.1 hmem with rfl | hmem
        · exact id
        · exact (List.pairwise_cons.1 hnested).1 work hmem
  | release i =>
    simp only [Memory.txnStep] at hstep
    split at hstep
    · cases hstep
    · rename_i hrest
      simp only [Bool.not_eq_true] at hrest
      obtain ⟨hwork, hnested⟩ := hquiet hrest
      obtain rfl := Option.some.inj hstep
      refine h.put_unlocked hx rfl (.of_atRest (atRest_of_not_appending hrest) hwork
        (hcalling hrest) (fun work hmem => hx'.savepoints work (List.mem_of_mem_tail hmem)) ?_)
      exact hnested.sublist ((List.tail_sublist _).cons_cons _)
  | rollbackTo i =>
    simp only [Memory.txnStep] at hstep
    split at hstep
    · cases hstep
    · rename_i hrest
      simp only [Bool.not_eq_true] at hrest
      obtain ⟨hwork, hnested⟩ := hquiet hrest
      cases hsaved : x.savepoints with
      | nil => simp [hsaved] at hstep
      | cons work rest =>
        simp only [hsaved, List.head?_cons, Option.map_some, Option.some.injEq,
          List.tail_cons] at hstep
        subst hstep
        rw [hsaved] at hnested
        obtain ⟨hlater, hnested⟩ := List.pairwise_cons.1 hnested
        refine h.restore hx (hlater work (by simp)) (.of_atRest
          (atRest_of_not_appending hrest) (hx'.savepoints work (by simp [hsaved]))
          (hcalling hrest) (fun work hmem => hx'.savepoints work (by simp [hsaved, hmem])) hnested)
  | begin | select | allocate | flush | reselect | interrupt =>
    cases hcall : x.call with
    | none => simp [Memory.txnStep, hcall] at hstep
    | some call =>
      simp only [Memory.txnStep, hcall, Option.bind_some] at hstep
      exact h.callStep hx hcall hstep

theorem World.Ordered.step (h : s.Ordered) (hstep : step s a = some s') : s'.Ordered := by
  unfold Memory.step at hstep
  split at hstep
  · split at hstep
    · rename_i txn hclosed
      obtain rfl := Option.some.inj hstep
      have hunlocked := h.closed txn (Option.isNone_iff_eq_none.1 hclosed)
      refine h.put (by simpa using hunlocked) (fun _ _ => Iff.rfl)
        (.of_atRest ?_ (.nothing h.distinct) ?_ (by simp) (by simp))
      · rintro _ ⟨⟩
      · rintro _ ⟨⟩
    · cases hstep
  · obtain ⟨x, hx, hstep⟩ := Option.bind_eq_some_iff.1 hstep
    exact h.txnStep hx hstep

theorem ordered_emptyLedger : emptyLedger.Ordered where
  numbered := rfl
  stream := rfl
  distinct := .nil
  holder _ _ h := by cases h
  closed _ _ h := by cases h
  txns _ _ h := by cases h

theorem ordered_of_reaches (h : Reaches step anyStep emptyLedger s) : s.Ordered :=
  h.invariant (P := World.Ordered) (fun _ _ _ hs _ hstep => hs.step hstep) ordered_emptyLedger

theorem events_callStep (hstep : callStep s txn x call a = some s') :
    s'.events = s.events ∧ s'.lastSequence = s.lastSequence := by
  unfold callStep at hstep
  split at hstep
  · obtain rfl := Option.some.inj hstep
    unfold selectStep
    split <;> exact ⟨rfl, rfl⟩
  · unfold allocateStep at hstep
    split at hstep
    · obtain rfl := Option.some.inj hstep
      exact ⟨rfl, rfl⟩
    · cases hstep
  · obtain rfl := Option.some.inj hstep
    unfold flushStep
    dsimp only
    split <;> exact ⟨rfl, rfl⟩
  iterate 5
    obtain rfl := Option.some.inj hstep
    exact ⟨rfl, rfl⟩
  · cases hstep

theorem events_step (hstep : step s a = some s') : s.events <+: s'.events := by
  unfold step at hstep
  split at hstep
  · split at hstep
    · obtain rfl := Option.some.inj hstep
      exact List.prefix_rfl
    · cases hstep
  · obtain ⟨x, -, hstep⟩ := Option.bind_eq_some_iff.1 hstep
    unfold txnStep at hstep
    split at hstep
    · simp only [appendStep] at hstep
      split at hstep
      · cases hstep
      · split at hstep <;> obtain rfl := Option.some.inj hstep <;> exact List.prefix_rfl
    · obtain rfl := Option.some.inj hstep
      exact List.prefix_rfl
    · split at hstep
      · cases hstep
      · obtain rfl := Option.some.inj hstep
        exact List.prefix_append _ _
    iterate 2
      split at hstep
      · cases hstep
      · obtain rfl := Option.some.inj hstep
        exact List.prefix_rfl
    · split at hstep
      · cases hstep
      · obtain ⟨work, -, rfl⟩ := Option.map_eq_some_iff.1 hstep
        exact List.prefix_rfl
    · obtain ⟨call, -, hstep⟩ := Option.bind_eq_some_iff.1 hstep
      exact (events_callStep hstep).1 ▸ List.prefix_rfl

theorem events_reaches (h : Reaches step anyStep s s') : s.events <+: s'.events :=
  h.invariant (P := fun t => s.events <+: t.events)
    (fun _ _ _ hs _ hstep => hs.trans (events_step hstep)) List.prefix_rfl

/-- What becomes visible later has a number above the cursor. -/
theorem mem_of_le_currentSequence (h : s.Ordered) (h' : s'.Ordered) (hgrown : s.events <+: s'.events)
    {e : Event} (he : e ∈ s'.events) (hle : e.workspaceSequence ≤ s.currentSequence) :
    e ∈ s.events := by
  obtain ⟨later, hlater⟩ := hgrown
  rw [h.stream] at hle
  rw [← hlater] at he
  rcases List.mem_append.1 he with he | he
  · exact he
  · have hnumbered := h'.numbered
    rw [← hlater, List.map_append, h.numbered, List.length_append, ← List.range'_append_1,
      List.append_cancel_left_eq] at hnumbered
    have hmem : e.workspaceSequence ∈ later.map Event.workspaceSequence :=
      List.mem_map_of_mem he
    rw [hnumbered, List.mem_range'_1] at hmem
    omega

/-- While an append runs, its transaction can only go on with it or be rolled back. -/
theorem callStep_of_step (hx : s.txns txn = some x) (hcall : x.call = some call)
    (hrunning : call.running = true) (ha : a.txn = txn) (hstep : step s a = some s') {y : Txn}
    (hy : s'.txns txn = some y) : callStep s txn x call a = some s' := by
  have happending : x.appending = true := by simp [Txn.appending, hcall, hrunning]
  cases a with
  | begin i =>
    obtain rfl : i = txn := ha
    simp [step, hx] at hstep
  | append | savepoint | release | rollbackTo | commit =>
    obtain rfl := ha
    simp only [Action.txn] at hx
    simp [step, Action.txn, txnStep, appendStep, hx, happending] at hstep
  | rollback =>
    obtain rfl := ha
    simp only [Action.txn] at hx
    simp only [step, Action.txn, txnStep, hx, Option.bind_some, Option.some.injEq] at hstep
    simp [← hstep, World.close, Action.txn] at hy
  | select | allocate | flush | reselect | interrupt =>
    obtain rfl := ha
    simp only [Action.txn] at hx ⊢
    simpa [step, Action.txn, txnStep, hx, hcall] using hstep

/-- An append of an event that is there already ends with that event and leaves no trace. -/
theorem replay_adds_nothing (h : s.Ordered) (hx : s.txns txn = some x) (hcall : x.call = some call)
    (hrunning : call.running = true) {e : Event} (he : e ∈ s.visible x)
    (hkey : e.key = call.entry.idempotencyKey)
    (hsame : e.fingerprint = call.entry.payloadFingerprint) (ha : a.txn = txn)
    (hstep : step s a = some s') {y : Txn} (hy : s'.txns txn = some y) {outcome : Outcome}
    (hended : y.call = some { call with pc := .ended outcome }) :
    s'.events = s.events ∧ s'.lastSequence = s.lastSequence ∧ y.work = call.before ∧
      (outcome = .replayed e ∨ a = .interrupt txn) := by
  have hx' := h.txns txn x hx
  have hcallStep := callStep_of_step hx hcall hrunning ha hstep hy
  obtain ⟨hevents, hlast⟩ := events_callStep hcallStep
  refine ⟨hevents, hlast, ?_⟩
  have hfound : (∀ n, call.pc ≠ .flushing n) →
      x.work = call.before ∧ existingOutcome call.entry (s.visible x) = some (.replayed e) := by
    intro hpc
    have hsettled := hx'.settled
    rw [(atRest_of_call hcall hpc).settled] at hsettled
    exact ⟨hx'.calling call hcall hrunning hpc,
      existingOutcome_of_mem hsettled.distinct he hkey hsame⟩
  unfold callStep at hcallStep
  split at hcallStep
  · rename_i hpc
    obtain ⟨hwork, hexisting⟩ := hfound (by simp [hpc])
    obtain rfl := Option.some.inj hcallStep
    simp only [selectStep, hexisting, World.put, Function.update_self, Option.some.injEq] at hy
    subst hy
    simp only [Txn.at, Option.some.injEq, Call.mk.injEq, CallPc.ended.injEq, true_and] at hended
    exact ⟨hwork, .inl hended.symm⟩
  · rename_i hpc
    unfold allocateStep at hcallStep
    split at hcallStep
    · obtain rfl := Option.some.inj hcallStep
      simp only [World.put, Function.update_self, Option.some.injEq] at hy
      subst hy
      simp [Txn.at] at hended
    · cases hcallStep
  · rename_i n hpc
    obtain rfl := Option.some.inj hcallStep
    have htaken : (s.visible x).any (fun row =>
        row.key = (⟨n, call.entry, call.observedAt⟩ : Event).key ∨ row.workspaceSequence = n) = true :=
      List.any_eq_true.2 ⟨e, he, decide_eq_true (.inl hkey)⟩
    simp only [flushStep, htaken, or_true, if_true, World.restore, World.put,
      Function.update_self, Option.some.injEq] at hy
    subst hy
    simp [Txn.at] at hended
  · rename_i hpc
    obtain ⟨hwork, hexisting⟩ := hfound (by simp [hpc])
    obtain rfl := Option.some.inj hcallStep
    simp only [reselectStep, hexisting, Option.getD_some, World.put, Function.update_self,
      Option.some.injEq] at hy
    subst hy
    simp only [Txn.at, Option.some.injEq, Call.mk.injEq, CallPc.ended.injEq, true_and] at hended
    exact ⟨hwork, .inl hended.symm⟩
  iterate 4
    obtain rfl := Option.some.inj hcallStep
    simp only [interruptStep, World.restore, World.put, Function.update_self,
      Option.some.injEq] at hy
    subst hy
    exact ⟨rfl, .inr (by rw [← ha]; rfl)⟩
  · cases hcallStep

end Steps

theorem ledger_order {s : World} (h : Reaches step anyStep emptyLedger s) :
    s.events.map Event.workspaceSequence = List.range' 1 s.events.length ∧
    (∀ t, Reaches step anyStep s t → s.events <+: t.events ∧
      ∀ k ≤ s.currentSequence, ∀ e ∈ t.events, e.workspaceSequence ≤ k → e ∈ s.events) ∧
    ∀ (a : Action) (t : World) (x y : Txn) (call : Call) (outcome : Outcome),
      s.txns a.txn = some x → x.call = some call → call.running = true →
      step s a = some t → t.txns a.txn = some y →
      y.call = some { call with pc := .ended outcome } →
      ∀ e ∈ s.visible x, e.key = call.entry.idempotencyKey →
        e.fingerprint = call.entry.payloadFingerprint →
        t.events = s.events ∧ t.lastSequence = s.lastSequence ∧ y.work = call.before ∧
          (outcome = .replayed e ∨ a = .interrupt a.txn) := by
  have hordered := ordered_of_reaches h
  refine ⟨hordered.numbered, ?_, ?_⟩
  · intro t ht
    have hgrown := events_reaches ht
    refine ⟨hgrown, fun k hk e he hle => ?_⟩
    exact mem_of_le_currentSequence hordered (ordered_of_reaches (h.trans ht)) hgrown he
      (hle.trans hk)
  · intro a t x y call outcome hx hcall hrunning hstep hy hended e he hkey hsame
    exact replay_adds_nothing hordered hx hcall hrunning he hkey hsame rfl hstep hy hended

def disappeared (id : RowId) : AppendRequest where
  workspaceId := 0
  eventType := .sourceRecordDisappeared
  subjectType := .sourceRecord
  subjectKey := id
  subjectId := id
  sourceKey := "github"
  actorUserId := none
  primarySourceRecordId := some id
  evidenceRefs := [⟨.sourceRecord, id⟩]
  occurredAt := some 0
  idempotencyMaterial := ⟨.sourceRecordDisappeared, [id], 0⟩

/-- Transaction 1 looks for the event before transaction 0 commits it, then waits for the lock. -/
def racingAppends : List Action :=
  [.begin 0, .begin 1, .append 0 (disappeared "a") 0, .append 1 (disappeared "a") 1,
    .select 0, .select 1, .allocate 0, .flush 0 false, .commit 0,
    .allocate 1, .flush 1 false, .reselect 1, .append 1 (disappeared "b") 2,
    .select 1, .allocate 1, .flush 1 false, .commit 1]

theorem ledger_order_racing_appends :
    ∃ s, exec step emptyLedger racingAppends = some s ∧
      s.events.map Event.workspaceSequence = [1, 2] := by
  have hrun : (exec step emptyLedger racingAppends).any (fun s => s.events.length = 2) = true := by
    decide +kernel
  obtain ⟨s, hs, hlength⟩ := (Option.any_eq_true _ _).1 hrun
  have hnumbered := (ledger_order (reaches_of_exec hs)).1
  rw [of_decide_eq_true hlength] at hnumbered
  exact ⟨s, hs, hnumbered⟩

end FounderOs.Memory
