namespace FounderOs

variable {ε α β : Type}

theorem ok_of_bind_ok {x : Except ε α} {f : α → Except ε β} {b : β} (h : x >>= f = .ok b) :
    ∃ a, x = .ok a ∧ f a = .ok b := by
  cases x with
  | error e => cases h
  | ok a => exact ⟨a, rfl, h⟩

theorem map_eq_ok {f : α → β} {x : Except ε α} {b : β} (h : x.map f = .ok b) :
    ∃ a, x = .ok a ∧ f a = b := by
  cases x with
  | error e => cases h
  | ok a => exact ⟨a, rfl, Except.ok.inj h⟩

theorem ok_of_toOption {x : Except ε α} {a : α} (h : x.toOption = some a) : x = .ok a := by
  cases x with
  | error e => cases h
  | ok b => exact congrArg Except.ok (Option.some.inj h)

theorem mapError_ok_iff {ε' : Type} {x : Except ε α} {f : ε → ε'} {a : α} :
    x.mapError f = .ok a ↔ x = .ok a := by
  cases x with
  | error e =>
    constructor
    · intro h
      cases h
    · intro h
      cases h
  | ok b =>
    have hmap : (Except.ok b : Except ε α).mapError f = .ok b := rfl
    rw [hmap]
    exact ⟨fun h => congrArg Except.ok (Except.ok.inj h),
      fun h => congrArg Except.ok (Except.ok.inj h)⟩

theorem forM_ok_iff {f : α → Except ε Unit} {l : List α} :
    l.forM f = .ok () ↔ ∀ x ∈ l, f x = .ok () := by
  induction l with
  | nil => exact ⟨fun _ _ hx => absurd hx List.not_mem_nil, fun _ => rfl⟩
  | cons x l ih =>
    have hcons : (x :: l).forM f = f x >>= fun _ => l.forM f := rfl
    rw [hcons, List.forall_mem_cons]
    constructor
    · intro h
      obtain ⟨_, hx, hrest⟩ := ok_of_bind_ok h
      exact ⟨hx, ih.1 hrest⟩
    · rintro ⟨hx, hrest⟩
      rw [hx]
      exact ih.2 hrest

/-- A loop over a list goes through exactly when it does at every entry. -/
theorem mapM_ok_iff {f : α → Except ε β} {l : List α} :
    (∃ ys, l.mapM f = .ok ys) ↔ ∀ x ∈ l, ∃ y, f x = .ok y := by
  induction l with
  | nil =>
    constructor
    · intro _ x hx
      cases hx
    · intro _
      exact ⟨[], rfl⟩
  | cons x l ih =>
    constructor
    · rintro ⟨ys, h⟩
      rw [List.mapM_cons] at h
      obtain ⟨y, hy, h⟩ := ok_of_bind_ok h
      obtain ⟨rest, hrest, -⟩ := ok_of_bind_ok h
      exact List.forall_mem_cons.2 ⟨⟨y, hy⟩, ih.1 ⟨rest, hrest⟩⟩
    · intro h
      obtain ⟨⟨y, hy⟩, hall⟩ := List.forall_mem_cons.1 h
      obtain ⟨rest, hrest⟩ := ih.2 hall
      refine ⟨y :: rest, ?_⟩
      rw [List.mapM_cons, hy, hrest]
      rfl

/-- What a loop over a list comes to. -/
theorem mem_mapM_ok {f : α → Except ε β} {l : List α} {ys : List β} (h : l.mapM f = .ok ys)
    {y : β} : y ∈ ys ↔ ∃ x ∈ l, f x = .ok y := by
  induction l generalizing ys with
  | nil =>
    obtain rfl := Except.ok.inj h
    exact iff_of_false List.not_mem_nil fun ⟨_, hx, _⟩ => List.not_mem_nil hx
  | cons head l ih =>
    rw [List.mapM_cons] at h
    obtain ⟨first, hfirst, h⟩ := ok_of_bind_ok h
    obtain ⟨rest, hrest, h⟩ := ok_of_bind_ok h
    cases h
    simp only [List.mem_cons, ih hrest, exists_eq_or_imp, hfirst, Except.ok.injEq,
      eq_comm (a := y)]

theorem mem_of_mapM_ok {f : α → Except ε β} {l : List α} {ys : List β} (h : l.mapM f = .ok ys)
    {x : α} (hx : x ∈ l) : ∃ y ∈ ys, f x = .ok y := by
  obtain ⟨y, hy⟩ := mapM_ok_iff.1 ⟨ys, h⟩ x hx
  exact ⟨y, (mem_mapM_ok h).2 ⟨x, hx, hy⟩, hy⟩

theorem mapM_eq_map {f : α → Except ε β} {g : α → β} {l : List α} (h : ∀ x ∈ l, f x = .ok (g x)) :
    l.mapM f = .ok (l.map g) := by
  induction l with
  | nil => rfl
  | cons x l ih =>
    rw [List.forall_mem_cons] at h
    rw [List.mapM_cons, h.1, ih h.2]
    rfl

theorem map_of_mapM_ok {τ : Type} {f : α → Except ε β} {g : α → τ} {k : β → τ} {l : List α} {ys : List β}
    (hsame : ∀ x y, f x = .ok y → k y = g x) (h : l.mapM f = .ok ys) : ys.map k = l.map g := by
  induction l generalizing ys with
  | nil =>
    cases h
    rfl
  | cons x l ih =>
    rw [List.mapM_cons] at h
    obtain ⟨y, hy, h⟩ := ok_of_bind_ok h
    obtain ⟨rest, hrest, h⟩ := ok_of_bind_ok h
    cases h
    rw [List.map_cons, List.map_cons, hsame x y hy, ih hrest]

variable {σ τ : Type}

/-- A fold that succeeds is followed by a fold without errors. -/
theorem foldlM_simulates {f : σ → α → Except ε σ} {g : τ → α → τ} {R : σ → τ → Prop}
    (hstep : ∀ s t x s', R s t → f s x = .ok s' → R s' (g t x)) {l : List α} {s s' : σ} {t : τ}
    (hr : R s t) (h : l.foldlM f s = .ok s') : R s' (l.foldl g t) := by
  induction l generalizing s t with
  | nil =>
    cases h
    exact hr
  | cons x l ih =>
    rw [List.foldlM_cons] at h
    obtain ⟨next, hnext, hrest⟩ := ok_of_bind_ok h
    exact ih (hstep s t x next hr hnext) hrest

/-- An invariant of a loop, over what it has been through. -/
theorem foldlM_invariant {f : σ → α → Except ε σ} {P : σ → List α → Prop}
    (hstep : ∀ s done x s', P s done → f s x = .ok s' → P s' (done ++ [x])) {l : List α} {s s' : σ}
    (hstart : P s []) (h : l.foldlM f s = .ok s') : P s' l := by
  have hall : P s' (l.foldl (fun done x => done ++ [x]) []) :=
    foldlM_simulates (fun s done x s' => hstep s done x s') hstart h
  have hdone (done : List α) : l.foldl (fun done x => done ++ [x]) done = done ++ l := by
    clear h hall
    induction l generalizing done with
    | nil => exact (List.append_nil done).symm
    | cons x l ih => simp [ih]
  rwa [hdone] at hall

end FounderOs
