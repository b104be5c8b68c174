import Mathlib.Data.List.Basic
import Mathlib.Data.List.Induction
import Mathlib.Data.List.Nodup

namespace FounderOs.Dict

variable {K V R : Type} [DecidableEq K]

def get (d : List (K × V)) (k : K) : Option V := (d.find? (fun entry => entry.1 = k)).map (·.2)

/-- `d[k] = v`: the entry keeps its place. -/
def set : List (K × V) → K → V → List (K × V)
  | [], k, v => [(k, v)]
  | entry :: d, k, v => if entry.1 = k then (k, v) :: d else entry :: set d k v

/-- `d.setdefault(k, v)`. -/
def setDefault (d : List (K × V)) (k : K) (v : V) : List (K × V) :=
  if (get d k).isSome then d else d ++ [(k, v)]

/-- `del d[k]` -/
def erase (d : List (K × V)) (k : K) : List (K × V) := d.filter fun entry => entry.1 ≠ k

/-- `{k: v for k, v in pairs}`. -/
def ofPairs (pairs : List (K × V)) : List (K × V) := pairs.foldl (fun d p => set d p.1 p.2) []

/-- `{key(row): row for row in rows}`. -/
def index (key : R → K) (rows : List R) : List (K × R) :=
  ofPairs (rows.map fun row => (key row, row))

def Unique (key : R → K) (rows : List R) : Prop :=
  ∀ a ∈ rows, ∀ b ∈ rows, key a = key b → a = b

variable {X : Type}

/-- `entry = d.setdefault(k, start)`, then the entry takes in what comes under its key. -/
def amend (start : K → X → V) (step : V → X → V) (d : List (K × V)) (p : K × X) : List (K × V) :=
  set d p.1 (step ((get d p.1).getD (start p.1 p.2)) p.2)

def gather (start : K → X → V) (step : V → X → V) (pairs : List (K × X)) : List (K × V) :=
  pairs.foldl (amend start step) []

def under (k : K) (pairs : List (K × X)) : List X := (pairs.filter (fun p => p.1 = k)).map (·.2)

def tally (start : K → X → V) (step : V → X → V) (k : K) : List X → Option V
  | [] => none
  | x :: xs => some (xs.foldl step (step (start k x) x))

variable {d pairs : List (K × V)} {k k' : K} {v : V} {key : R → K} {rows : List R} {row : R}

theorem get_cons (entry : K × V) (d : List (K × V)) (k : K) :
    get (entry :: d) k = if entry.1 = k then some entry.2 else get d k := by
  by_cases h : entry.1 = k <;> simp [get, h]

theorem get_set (d : List (K × V)) (k : K) (v : V) (k' : K) :
    get (set d k v) k' = if k = k' then some v else get d k' := by
  induction d with
  | nil => simp [set, get]
  | cons entry d ih =>
    simp only [set]
    split
    · rename_i hk
      rw [get_cons, get_cons]
      split
      · rfl
      · rename_i hne
        rw [if_neg (hk ▸ hne)]
    · rename_i hk
      rw [get_cons, get_cons, ih]
      by_cases he : entry.1 = k'
      · have hne : k ≠ k' := fun h => hk (he.trans h.symm)
        simp [he, hne]
      · simp [he]

theorem get_erase (d : List (K × V)) (k k' : K) :
    get (erase d k) k' = if k = k' then none else get d k' := by
  induction d with
  | nil => simp [erase, get]
  | cons entry d ih =>
    by_cases hk : entry.1 = k
    · rw [erase, List.filter_cons_of_neg (by simpa using hk), ← erase, ih, get_cons]
      by_cases hk' : k = k'
      · rw [if_pos hk', if_pos hk']
      · rw [if_neg hk', if_neg hk', if_neg (hk ▸ hk')]
    · rw [erase, List.filter_cons_of_pos (by simpa using hk), ← erase, get_cons, get_cons, ih]
      by_cases hk' : k = k'
      · rw [if_pos hk', if_pos hk', if_neg (hk' ▸ hk)]
      · rw [if_neg hk', if_neg hk']

theorem mem_of_get (h : get d k = some v) : (k, v) ∈ d := by
  obtain ⟨entry, hentry, rfl⟩ := Option.map_eq_some_iff.1 h
  have hkey := List.find?_some hentry
  obtain rfl : entry.1 = k := of_decide_eq_true hkey
  exact List.mem_of_find?_eq_some hentry

theorem mem_of_mem_set {entry : K × V} (h : entry ∈ set d k v) : entry = (k, v) ∨ entry ∈ d := by
  induction d with
  | nil => exact .inl (List.mem_singleton.1 h)
  | cons first d ih =>
    simp only [set] at h
    split at h
    · rcases List.mem_cons.1 h with rfl | h
      · exact .inl rfl
      · exact .inr (List.mem_cons_of_mem _ h)
    · rcases List.mem_cons.1 h with rfl | h
      · exact .inr (List.mem_cons_self ..)
      · exact (ih h).imp_right (List.mem_cons_of_mem _)

theorem setDefault_ne_nil (d : List (K × V)) (k : K) (v : V) : setDefault d k v ≠ [] := by
  unfold setDefault
  split
  · rename_i hsome
    rintro rfl
    simp [get] at hsome
  · simp

theorem get_setDefault (d : List (K × V)) (k : K) (v : V) (k' : K) :
    get (setDefault d k v) k' = (get d k').or (if k = k' then some v else none) := by
  unfold setDefault
  split
  · rename_i hsome
    obtain ⟨held, hheld⟩ := Option.isSome_iff_exists.1 hsome
    split
    · rename_i hk
      rw [← hk, hheld]
      rfl
    · rw [Option.or_none]
  · rename_i hnone
    induction d with
    | nil => simp [get]
    | cons entry d ih =>
      rw [get_cons] at hnone
      rw [List.cons_append, get_cons, get_cons]
      split
      · rfl
      · split at hnone
        · exact absurd rfl hnone
        · exact ih hnone

/-- Defaults that no entry speaks against. -/
theorem get_setDefaults (hpairs : ∀ p ∈ pairs, ∀ q ∈ pairs, p.1 = q.1 → p.2 = q.2)
    (hheld : ∀ p ∈ pairs, ∀ held, get d p.1 = some held → held = p.2) :
    get (pairs.foldl (fun d p => setDefault d p.1 p.2) d) k = some v ↔
      get d k = some v ∨ (k, v) ∈ pairs := by
  induction pairs generalizing d with
  | nil => simp
  | cons p pairs ih =>
    rw [List.forall_mem_cons] at hpairs hheld
    have hfirst : get (setDefault d p.1 p.2) k = some v ↔ get d k = some v ∨ (k, v) = p := by
      rw [get_setDefault]
      cases hget : get d k with
      | none => simp [Prod.ext_iff, eq_comm]
      | some held =>
        constructor
        · exact .inl
        · rintro (h | rfl)
          · exact h
          · exact congrArg some (hheld.1 held hget)
    have hnext : ∀ q ∈ pairs, ∀ held, get (setDefault d p.1 p.2) q.1 = some held → held = q.2 := by
      intro q hq held hget
      rw [get_setDefault] at hget
      cases hold : get d q.1 with
      | none =>
        rw [hold, Option.none_or] at hget
        split at hget
        · rename_i hk
          exact (Option.some.inj hget).symm.trans
            (hpairs.1 q (List.mem_cons_of_mem p hq) hk)
        · cases hget
      | some first =>
        rw [hold] at hget
        exact (Option.some.inj hget).symm.trans (hheld.2 q hq first hold)
    rw [List.foldl_cons, ih (fun q hq r hr => hpairs.2 q hq r (List.mem_cons_of_mem p hr)) hnext,
      hfirst, List.mem_cons, or_assoc]

theorem ofPairs_concat (pairs : List (K × V)) (p : K × V) :
    ofPairs (pairs ++ [p]) = set (ofPairs pairs) p.1 p.2 := by
  rw [ofPairs, List.foldl_append]
  rfl

/-- What is set later takes the place of what was set before. -/
theorem get_ofPairs_append (before after : List (K × V)) (k : K) :
    get (ofPairs (before ++ after)) k = (get (ofPairs after) k).or (get (ofPairs before) k) := by
  induction after using List.reverseRecOn with
  | nil => simp [ofPairs, get]
  | append_singleton after p ih =>
    rw [← List.append_assoc, ofPairs_concat, ofPairs_concat, get_set, get_set, ih]
    split <;> rfl

theorem mem_of_mem_ofPairs {entry : K × V} (h : entry ∈ ofPairs pairs) : entry ∈ pairs := by
  induction pairs using List.reverseRecOn with
  | nil => exact h
  | append_singleton pairs p ih =>
    rw [ofPairs_concat] at h
    rcases mem_of_mem_set h with rfl | h
    · exact List.mem_append_right _ (List.mem_singleton_self _)
    · exact List.mem_append_left _ (ih h)

theorem mem_keys_set : k' ∈ (set d k v).map (·.1) ↔ k' = k ∨ k' ∈ d.map (·.1) := by
  induction d with
  | nil => simp [set]
  | cons entry d ih =>
    simp only [set]
    split
    · rename_i hk
      simp [hk]
    · simp only [List.map_cons, List.mem_cons, ih]
      exact or_left_comm

theorem mem_keys_ofPairs : k ∈ (ofPairs pairs).map (·.1) ↔ k ∈ pairs.map (·.1) := by
  induction pairs using List.reverseRecOn with
  | nil => rfl
  | append_singleton pairs p ih =>
    rw [ofPairs_concat, mem_keys_set, ih]
    simp [or_comm]

/-- Where a key has one value, the order of the pairs does not matter. -/
theorem get_ofPairs (h : ∀ p ∈ pairs, ∀ q ∈ pairs, p.1 = q.1 → p.2 = q.2) :
    get (ofPairs pairs) k = some v ↔ (k, v) ∈ pairs := by
  refine ⟨fun hget => mem_of_mem_ofPairs (mem_of_get hget), fun hmem => ?_⟩
  induction pairs using List.reverseRecOn with
  | nil => cases hmem
  | append_singleton pairs p ih =>
    rw [ofPairs_concat, get_set]
    split
    · rename_i hk
      have hvalue := h p (by simp) (k, v) hmem hk
      exact congrArg some hvalue
    · rename_i hk
      rcases List.mem_append.1 hmem with hmem | hmem
      · exact ih (fun p hp q hq => h p (by simp [hp]) q (by simp [hq])) hmem
      · exact absurd (congrArg Prod.fst (List.mem_singleton.1 hmem)).symm hk

theorem get_index (h : Unique key rows) :
    get (index key rows) k = some row ↔ row ∈ rows ∧ key row = k := by
  have hpairs : ∀ p ∈ rows.map (fun row => (key row, row)),
      ∀ q ∈ rows.map (fun row => (key row, row)), p.1 = q.1 → p.2 = q.2 := by
    intro p hp q hq hkey
    obtain ⟨a, ha, rfl⟩ := List.mem_map.1 hp
    obtain ⟨b, hb, rfl⟩ := List.mem_map.1 hq
    exact h a ha b hb hkey
  rw [index, get_ofPairs hpairs, List.mem_map]
  constructor
  · rintro ⟨a, ha, hpair⟩
    obtain ⟨rfl, rfl⟩ := Prod.mk.inj hpair
    exact ⟨ha, rfl⟩
  · rintro ⟨hmem, rfl⟩
    exact ⟨row, hmem, rfl⟩

omit [DecidableEq K] in
theorem Unique.of_nodup (h : (rows.map key).Nodup) : Unique key rows :=
  fun _ ha _ hb hsame => List.inj_on_of_nodup_map h ha hb hsame

theorem find?_key (h : Unique key rows) :
    (rows.find? fun row => key row = k) = some row ↔ row ∈ rows ∧ key row = k := by
  constructor
  · intro hfound
    exact ⟨List.mem_of_find?_eq_some hfound, by simpa using List.find?_some hfound⟩
  · rintro ⟨hmem, rfl⟩
    obtain ⟨found, hfound⟩ := Option.isSome_iff_exists.1
      (List.find?_isSome (p := fun other => key other = key row).2 ⟨row, hmem, decide_eq_true rfl⟩)
    have hsame : key found = key row := by simpa using List.find?_some hfound
    rw [hfound, h found (List.mem_of_find?_eq_some hfound) row hmem hsame]

theorem get_index_eq_find? (h : Unique key rows) :
    get (index key rows) k = rows.find? fun row => key row = k :=
  Option.ext fun _ => (get_index h).trans (find?_key h).symm

omit [DecidableEq K] in
theorem Unique.none (key : R → K) : Unique key [] := fun _ ha => absurd ha List.not_mem_nil

omit [DecidableEq K] in
theorem Unique.single (key : R → K) (row : R) : Unique key [row] :=
  fun _ ha _ hb _ => (List.mem_singleton.1 ha).trans (List.mem_singleton.1 hb).symm

omit [DecidableEq K] in
theorem Unique.subset {rows' : List R} (h : Unique key rows) (hsub : ∀ r ∈ rows', r ∈ rows) :
    Unique key rows' :=
  fun a ha b hb => h a (hsub a ha) b (hsub b hb)

theorem get_index_restrict {rows' : List R} (h : Unique key rows) (hsub : ∀ r ∈ rows', r ∈ rows)
    (hall : ∀ r ∈ rows, key r = k → r ∈ rows') :
    get (index key rows') k = get (index key rows) k := by
  apply Option.ext
  intro r
  rw [get_index (h.subset hsub), get_index h]
  constructor
  · rintro ⟨hr, hk⟩
    exact ⟨hsub r hr, hk⟩
  · rintro ⟨hr, hk⟩
    exact ⟨hall r hr hk, hk⟩

theorem nodup_keys_set (h : (d.map (·.1)).Nodup) : ((set d k v).map (·.1)).Nodup := by
  induction d with
  | nil => simp [set]
  | cons entry d ih =>
    rw [List.map_cons, List.nodup_cons] at h
    simp only [set]
    split
    · rename_i hk
      rw [List.map_cons, List.nodup_cons]
      exact ⟨hk ▸ h.1, h.2⟩
    · rename_i hk
      rw [List.map_cons, List.nodup_cons]
      refine ⟨fun hmem => ?_, ih h.2⟩
      rcases mem_keys_set.1 hmem with heq | hmem
      · exact hk heq
      · exact h.1 hmem

theorem nodup_keys_ofPairs (pairs : List (K × V)) : ((ofPairs pairs).map (·.1)).Nodup := by
  induction pairs using List.reverseRecOn with
  | nil => exact List.nodup_nil
  | append_singleton pairs p ih =>
    rw [ofPairs_concat]
    exact nodup_keys_set ih

theorem set_of_not_mem (h : k ∉ d.map (·.1)) : set d k v = d ++ [(k, v)] := by
  induction d with
  | nil => rfl
  | cons entry d ih =>
    rw [List.map_cons, List.mem_cons, not_or] at h
    rw [set, if_neg (Ne.symm h.1), ih h.2, List.cons_append]

theorem ofPairs_of_nodup {pairs : List (K × V)} (h : (pairs.map (·.1)).Nodup) :
    ofPairs pairs = pairs := by
  induction pairs using List.reverseRecOn with
  | nil => rfl
  | append_singleton pairs p ih =>
    rw [List.map_append, List.nodup_append'] at h
    have hfresh : p.1 ∉ pairs.map (·.1) := fun hmem => h.2.2 hmem (by simp)
    rw [ofPairs_concat, ih h.1, set_of_not_mem hfresh]

theorem get_of_mem (h : (d.map (·.1)).Nodup) (hmem : (k, v) ∈ d) : get d k = some v := by
  induction d with
  | nil => cases hmem
  | cons entry d ih =>
    rw [List.map_cons, List.nodup_cons] at h
    rw [get_cons]
    rcases List.mem_cons.1 hmem with rfl | hmem
    · rw [if_pos rfl]
    · have hne : entry.1 ≠ k := fun heq => h.1 (heq ▸ List.mem_map_of_mem hmem)
      rw [if_neg hne]
      exact ih h.2 hmem

theorem get_eq_none : get d k = none ↔ k ∉ d.map (·.1) := by
  simp only [get, Option.map_eq_none_iff, List.find?_eq_none, List.mem_map, decide_eq_true_eq]
  constructor
  · rintro h ⟨entry, hentry, hk⟩
    exact h entry hentry hk
  · exact fun h entry hentry hk => h ⟨entry, hentry, hk⟩

/-- A pair stays unless its key is set again. -/
theorem mem_ofPairs_cons {p entry : K × V} :
    entry ∈ ofPairs (p :: pairs) ↔
      entry ∈ ofPairs pairs ∨ entry = p ∧ p.1 ∉ pairs.map (·.1) := by
  have hget : get (ofPairs (p :: pairs)) entry.1 =
      (get (ofPairs pairs) entry.1).or (if p.1 = entry.1 then some p.2 else none) := by
    have hone : ofPairs [p] = [p] := ofPairs_of_nodup (List.nodup_singleton p.1)
    have happend := get_ofPairs_append [p] pairs entry.1
    rwa [List.singleton_append, hone, get_cons] at happend
  have hmem : ∀ pairs : List (K × V), entry ∈ ofPairs pairs ↔
      get (ofPairs pairs) entry.1 = some entry.2 :=
    fun pairs => ⟨get_of_mem (nodup_keys_ofPairs pairs), mem_of_get⟩
  rw [hmem, hmem, hget, Option.or_eq_some_iff, get_eq_none, mem_keys_ofPairs]
  refine or_congr Iff.rfl ⟨?_, ?_⟩
  · rintro ⟨hfresh, hlast⟩
    split at hlast
    · rename_i hkey
      exact ⟨Prod.ext hkey.symm (Option.some.inj hlast).symm, hkey ▸ hfresh⟩
    · cases hlast
  · rintro ⟨rfl, hfresh⟩
    exact ⟨hfresh, if_pos rfl⟩

theorem get_mapValues {W : Type} (f : V → W) :
    get (d.map fun entry => (entry.1, f entry.2)) k = (get d k).map f := by
  induction d with
  | nil => rfl
  | cons entry d ih =>
    rw [List.map_cons, get_cons, get_cons, ih]
    split <;> rfl

theorem get_filter {p : V → Bool} (h : (d.map (·.1)).Nodup) :
    get (d.filter fun entry => p entry.2) k = (get d k).filter p := by
  induction d with
  | nil => rfl
  | cons entry d ih =>
    rw [List.map_cons, List.nodup_cons] at h
    rw [get_cons, List.filter_cons]
    by_cases hk : entry.1 = k
    · rw [if_pos hk]
      cases hp : p entry.2 with
      | true => rw [if_pos rfl, get_cons, if_pos hk, Option.filter_some, hp, if_pos rfl]
      | false =>
        have hrest : get d k = none := by
          cases hget : get d k with
          | none => rfl
          | some v => exact absurd (hk ▸ List.mem_map_of_mem (mem_of_get hget)) h.1
        rw [if_neg Bool.false_ne_true, ih h.2, hrest, Option.filter_some, hp]
        rfl
    · rw [if_neg hk, ← ih h.2]
      split
      · rw [get_cons, if_neg hk]
      · rfl

variable {start : K → X → V} {step : V → X → V} {contributions : List (K × X)}

theorem under_flatMap {R : Type} (rows : List R) (f : R → List (K × X)) :
    under k (rows.flatMap f) = rows.flatMap fun r => under k (f r) := by
  rw [under, List.filter_flatMap, List.map_flatMap]
  rfl

theorem under_self_keyed {keys : List K} (hkeys : keys.Nodup) (f : K → X) :
    under k (keys.map fun key => (key, f key)) = if k ∈ keys then [f k] else [] := by
  induction keys with
  | nil => rfl
  | cons first keys ih =>
    rw [List.nodup_cons] at hkeys
    have hcons : under k ((first :: keys).map fun key => (key, f key)) =
        (if first = k then [f first] else []) ++ under k (keys.map fun key => (key, f key)) := by
      by_cases hk : first = k <;> simp [under, hk]
    rw [hcons, ih hkeys.2]
    by_cases hk : first = k
    · subst hk
      simp [hkeys.1]
    · have hne : k ≠ first := fun h => hk h.symm
      simp [hk, hne]

omit [DecidableEq K] in
theorem tally_concat (xs : List X) (x : X) :
    tally start step k (xs ++ [x]) =
      some (step ((tally start step k xs).getD (start k x)) x) := by
  cases xs with
  | nil => rfl
  | cons y xs => simp [tally]

omit [DecidableEq K] in
theorem tally_induct {P : V → Prop} {xs : List X} (h : tally start step k xs = some v)
    (hstart : ∀ x ∈ xs, P (step (start k x) x)) (hstep : ∀ v, ∀ x ∈ xs, P v → P (step v x)) :
    P v := by
  induction xs using List.reverseRecOn generalizing v with
  | nil => cases h
  | append_singleton xs x ih =>
    rw [tally_concat] at h
    obtain rfl := Option.some.inj h
    cases hxs : tally start step k xs with
    | none => exact hstart x (by simp)
    | some w =>
      refine hstep w x (by simp) (ih hxs (fun y hy => hstart y ?_) (fun v y hy => hstep v y ?_))
      · simp [hy]
      · simp [hy]

omit [DecidableEq K] in
theorem tally_isSome (start : K → X → V) (step : V → X → V) (k : K) {xs : List X} :
    (tally start step k xs).isSome ↔ xs ≠ [] := by
  cases xs <;> simp [tally]

/-- What stands under a key depends on what came under that key only. -/
theorem get_gather :
    get (gather start step contributions) k = tally start step k (under k contributions) := by
  induction contributions using List.reverseRecOn with
  | nil => rfl
  | append_singleton contributions p ih =>
    rw [gather, List.foldl_append]
    change get (amend start step (gather start step contributions) p) k = _
    rw [amend, get_set]
    by_cases hk : p.1 = k
    · subst hk
      have hunder : under p.1 (contributions ++ [p]) = under p.1 contributions ++ [p.2] := by
        simp [under]
      rw [if_pos rfl, hunder, tally_concat, ih]
    · have hunder : under k (contributions ++ [p]) = under k contributions := by
        simp [under, hk]
      rw [if_neg hk, hunder, ih]

theorem mem_keys_gather :
    k ∈ (gather start step contributions).map (·.1) ↔ k ∈ contributions.map (·.1) := by
  induction contributions using List.reverseRecOn with
  | nil => rfl
  | append_singleton contributions p ih =>
    rw [gather, List.foldl_append]
    change k ∈ (amend start step (gather start step contributions) p).map (·.1) ↔ _
    rw [amend, mem_keys_set, ih]
    simp [or_comm]

theorem nodup_keys_gather : ((gather start step contributions).map (·.1)).Nodup := by
  induction contributions using List.reverseRecOn with
  | nil => exact List.nodup_nil
  | append_singleton contributions p ih =>
    rw [gather, List.foldl_append]
    exact nodup_keys_set ih

theorem mem_gather : (k, v) ∈ gather start step contributions ↔
    tally start step k (under k contributions) = some v := by
  rw [← get_gather]
  exact ⟨get_of_mem nodup_keys_gather, mem_of_get⟩

end FounderOs.Dict
