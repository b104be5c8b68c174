import Mathlib.Logic.Relation

namespace FounderOs.Transition

variable {σ α : Type}

def Guarded (step : σ → α → Option σ) (ok : σ → α → Prop) (s t : σ) : Prop :=
  ∃ a, ok s a ∧ step s a = some t

def Reaches (step : σ → α → Option σ) (ok : σ → α → Prop) : σ → σ → Prop :=
  Relation.ReflTransGen (Guarded step ok)

def anyStep : σ → α → Prop := fun _ _ => True

def exec (step : σ → α → Option σ) : σ → List α → Option σ
  | s, [] => some s
  | s, a :: as => (step s a).bind (exec step · as)

variable {step : σ → α → Option σ} {ok ok' : σ → α → Prop} {s t u : σ}

theorem Reaches.refl (s : σ) : Reaches step ok s s := Relation.ReflTransGen.refl

theorem Reaches.trans (h : Reaches step ok s t) (h' : Reaches step ok t u) :
    Reaches step ok s u :=
  Relation.ReflTransGen.trans h h'

theorem Reaches.tail (h : Reaches step ok s t) {a : α} (ha : ok t a)
    (hs : step t a = some u) : Reaches step ok s u :=
  Relation.ReflTransGen.tail h ⟨a, ha, hs⟩

theorem Reaches.one {a : α} (hs : step s a = some t) (ha : ok s a) : Reaches step ok s t :=
  (Reaches.refl s).tail ha hs

theorem Reaches.weaken (hok : ∀ s a, ok s a → ok' s a) (h : Reaches step ok s t) :
    Reaches step ok' s t := by
  induction h with
  | refl => exact Reaches.refl s
  | tail _ hstep ih =>
    obtain ⟨a, ha, hs⟩ := hstep
    exact ih.tail (hok _ _ ha) hs

theorem Reaches.any (h : Reaches step ok s t) : Reaches step anyStep s t :=
  h.weaken (fun _ _ _ => trivial)

/-- What one permitted step preserves, a whole run preserves. -/
theorem Reaches.invariant {P : σ → Prop}
    (hstep : ∀ s a t, P s → ok s a → step s a = some t → P t)
    (h : Reaches step ok s t) (hs : P s) : P t := by
  induction h with
  | refl => exact hs
  | tail _ htail ih =>
    obtain ⟨a, ha, ht⟩ := htail
    exact hstep _ a _ ih ha ht

theorem Reaches.invariant_of {I P : σ → Prop}
    (hinv : ∀ s a t, I s → ok s a → step s a = some t → I t)
    (hstep : ∀ s a t, I s → P s → ok s a → step s a = some t → P t)
    (h : Reaches step ok s t) (hi : I s) (hs : P s) : P t :=
  (h.invariant (P := fun x => I x ∧ P x)
    (fun s a t hx ha ht => ⟨hinv s a t hx.1 ha ht, hstep s a t hx.1 hx.2 ha ht⟩) ⟨hi, hs⟩).2

theorem reaches_of_exec {as : List α} (h : exec step s as = some t) :
    Reaches step anyStep s t := by
  induction as generalizing s with
  | nil =>
    simp only [exec, Option.some.injEq] at h
    exact h ▸ Reaches.refl s
  | cons a as ih =>
    simp only [exec, Option.bind_eq_some_iff] at h
    obtain ⟨m, hm, hrest⟩ := h
    have hstep : Guarded step anyStep s m := ⟨a, trivial, hm⟩
    exact Reaches.trans (.single hstep) (ih hrest)

theorem reaches_of_exec_check {as : List α} {check : σ → Bool}
    (h : (exec step s as).map check = some true) :
    ∃ t, Reaches step anyStep s t ∧ check t = true := by
  cases hx : exec step s as with
  | none => simp [hx] at h
  | some t =>
    simp only [hx, Option.map_some, Option.some.injEq] at h
    exact ⟨t, reaches_of_exec hx, h⟩

def restrict (step : σ → α → Option σ) (ok : σ → α → Prop) [∀ s a, Decidable (ok s a)]
    (s : σ) (a : α) : Option σ :=
  if ok s a then step s a else none

theorem reaches_of_exec_restrict [∀ s a, Decidable (ok s a)] {as : List α}
    (h : exec (restrict step ok) s as = some t) : Reaches step ok s t := by
  induction as generalizing s with
  | nil =>
    simp only [exec, Option.some.injEq] at h
    exact h ▸ Reaches.refl s
  | cons a as ih =>
    simp only [exec, Option.bind_eq_some_iff, restrict] at h
    obtain ⟨m, hm, hrest⟩ := h
    split at hm
    · rename_i ha
      exact ((Reaches.refl s).tail ha hm).trans (ih hrest)
    · cases hm

end FounderOs.Transition
