import FounderOs.Foundation.Dict
import FounderOs.Proposals.SecretKeys

namespace FounderOs.Execution

open Proposals (secretLike secretLikeKeys normalizeValue)

/-- The Unicode table of `str.casefold`; no code point folds to nothing. -/
structure Folding where
  entry : Nat → Str
  entry_ne_nil : ∀ c, entry c ≠ []

def Folding.casefold (folding : Folding) : Str → Str := Str.casefold folding.entry

/-- A value of the metadata: a mapping's key is what `str(key)` reads, and `other` is the text of a
value that is neither a mapping, a list nor a JSON scalar. -/
inductive Metadata where
  | null
  | bool (value : Bool)
  | number (text : Str)
  | str (text : Str)
  | other (text : Str)
  | list (items : List Metadata)
  | mapping (entries : List (Str × Metadata))

/-- `key_text[:120]` -/
def storedKey (key : Str) : Str := (Str.strip key).take 120

section sanitize

variable (folding : Folding)

def passes (key : Str) : Bool := Str.strip key ≠ [] && !secretLike folding.casefold key

mutual

/-- `_sanitize_metadata` -/
def sanitizeMetadata : Metadata → Metadata
  | .mapping entries => .mapping (Dict.ofPairs (sanitizeEntries entries))
  | .list items => .list (sanitizeItems 50 items)
  | .str text => .str (text.take 500)
  | .other text => .str (text.take 500)
  | .null => .null
  | .bool value => .bool value
  | .number text => .number text

def sanitizeEntries : List (Str × Metadata) → List (Str × Metadata)
  | [] => []
  | (key, item) :: entries =>
    if passes folding key then (storedKey key, sanitizeMetadata item) :: sanitizeEntries entries
    else sanitizeEntries entries

/-- `value[:50]`, each item sanitised. -/
def sanitizeItems : Nat → List Metadata → List Metadata
  | _, [] => []
  | 0, _ :: _ => []
  | limit + 1, item :: items => sanitizeMetadata item :: sanitizeItems limit items

end

/-- The keys a mapping with these entries is stored under. -/
def storedKeys (entries : List (Str × Metadata)) : List Str :=
  (entries.filter fun entry => passes folding entry.1).map fun entry => storedKey entry.1

mutual

/-- No key that is stored was cut right after a space. -/
def KeysCutWhole : Metadata → Prop
  | .mapping entries => EntriesCutWhole entries
  | .list items => ItemsCutWhole 50 items
  | _ => True

/-- An entry whose stored key comes again later is overwritten. -/
def EntriesCutWhole : List (Str × Metadata) → Prop
  | [] => True
  | (key, item) :: entries =>
    (passes folding key = true → storedKey key ∉ storedKeys folding entries →
      Str.strip (storedKey key) = storedKey key ∧ KeysCutWhole item) ∧ EntriesCutWhole entries

def ItemsCutWhole : Nat → List Metadata → Prop
  | _, [] => True
  | 0, _ :: _ => True
  | limit + 1, item :: items => KeysCutWhole item ∧ ItemsCutWhole limit items

end

end sanitize

mutual

/-- The keys of a value, at any depth. -/
def Metadata.keys : Metadata → List Str
  | .mapping entries => entryKeys entries
  | .list items => itemKeys items
  | _ => []

def entryKeys : List (Str × Metadata) → List Str
  | [] => []
  | (key, item) :: entries => key :: item.keys ++ entryKeys entries

def itemKeys : List Metadata → List Str
  | [] => []
  | item :: items => item.keys ++ itemKeys items

end

variable {folding : Folding}

theorem length_storedKey (key : Str) : (storedKey key).length ≤ 120 :=
  List.length_take_le 120 (Str.strip key)

theorem storedKey_ne_nil {key : Str} (h : passes folding key = true) : storedKey key ≠ [] := by
  simp only [passes, Bool.and_eq_true, decide_eq_true_eq] at h
  simpa [storedKey] using h.1

theorem storedKey_eq_self {key : Str} (h : key.length ≤ 120) :
    storedKey key = key ↔ Str.strip key = key := by
  have hshort : (Str.strip key).length ≤ 120 := (Str.length_strip_le key).trans h
  rw [storedKey, List.take_of_length_le hshort]

theorem Folding.length_le (folding : Folding) (text : Str) :
    text.length ≤ (folding.casefold text).length := by
  induction text with
  | nil => exact Nat.zero_le _
  | cons c text ih =>
    have hfold : folding.casefold (c :: text) =
        (if c < 128 then [if 65 ≤ c ∧ c ≤ 90 then c + 32 else c] else folding.entry c) ++
          folding.casefold text := rfl
    have hentry := List.length_pos_of_ne_nil (folding.entry_ne_nil c)
    rw [hfold, List.length_append, List.length_cons]
    split
    · rw [List.length_singleton]
      omega
    · omega

theorem secretLikeKeys_short : ∀ key ∈ secretLikeKeys, key.length < 120 := by decide

/-- A key that is cut is longer than any secret-like key, unless it is cut right after a space. -/
theorem secretLike_storedKey {key : Str} (h : passes folding key = true)
    (hcut : Str.strip (storedKey key) = storedKey key) :
    secretLike folding.casefold (storedKey key) = false := by
  simp only [passes, Bool.and_eq_true, Bool.not_eq_true'] at h
  by_cases hlength : (Str.strip key).length ≤ 120
  · have hself : storedKey key = Str.strip key := List.take_of_length_le hlength
    rw [secretLike, normalizeValue, hcut, hself]
    exact h.2
  · have hstored : (storedKey key).length = 120 := by
      rw [storedKey, List.length_take]
      omega
    have hfold := folding.length_le (storedKey key)
    rw [secretLike, normalizeValue, hcut]
    refine Bool.eq_false_iff.2 fun hsecret => ?_
    have hshort := secretLikeKeys_short _ (List.contains_iff_mem.1 hsecret)
    omega

theorem passes_storedKey {key : Str} (h : passes folding key = true)
    (hcut : Str.strip (storedKey key) = storedKey key) : passes folding (storedKey key) = true := by
  rw [passes, secretLike_storedKey h hcut, hcut]
  simpa using storedKey_ne_nil h

theorem map_sanitizeEntries (entries : List (Str × Metadata)) :
    (sanitizeEntries folding entries).map (·.1) = storedKeys folding entries := by
  induction entries with
  | nil => simp [sanitizeEntries, storedKeys]
  | cons entry entries ih =>
    obtain ⟨key, item⟩ := entry
    cases hkey : passes folding key with
    | true =>
      have hkeys : storedKeys folding ((key, item) :: entries) =
          storedKey key :: storedKeys folding entries := by simp [storedKeys, hkey]
      rw [sanitizeEntries, if_pos hkey, List.map_cons, ih, hkeys]
    | false =>
      have hkeys : storedKeys folding ((key, item) :: entries) = storedKeys folding entries := by
        simp [storedKeys, hkey]
      rw [sanitizeEntries, if_neg (by simp [hkey]), ih, hkeys]

theorem mem_storedKeys {entries : List (Str × Metadata)} {stored : Str} :
    stored ∈ storedKeys folding entries ↔
      ∃ entry ∈ entries, passes folding entry.1 = true ∧ storedKey entry.1 = stored := by
  simp [storedKeys, and_assoc]

/-- Entries under distinct keys that were stored already are stored as they are. -/
theorem sanitizeEntries_self {entries : List (Str × Metadata)}
    (h : ∀ entry ∈ entries, passes folding entry.1 = true ∧ storedKey entry.1 = entry.1) :
    sanitizeEntries folding entries =
      entries.map fun entry => (entry.1, sanitizeMetadata folding entry.2) := by
  induction entries with
  | nil => simp [sanitizeEntries]
  | cons entry entries ih =>
    obtain ⟨key, item⟩ := entry
    obtain ⟨⟨hpass, hself⟩, hrest⟩ := List.forall_mem_cons.1 h
    rw [sanitizeEntries, if_pos hpass, hself, ih hrest, List.map_cons]

theorem map_values_eq_self {entries : List (Str × Metadata)} {f : Metadata → Metadata} :
    entries.map (fun entry => (entry.1, f entry.2)) = entries ↔
      ∀ entry ∈ entries, f entry.2 = entry.2 := by
  have hiff := List.map_inj_left (l := entries) (f := fun entry => (entry.1, f entry.2)) (g := id)
  rw [List.map_id] at hiff
  simp [hiff, Prod.ext_iff]

theorem keys_map_values (entries : List (Str × Metadata)) (f : Metadata → Metadata) :
    (entries.map fun entry => (entry.1, f entry.2)).map (·.1) = entries.map (·.1) := by
  rw [List.map_map]
  rfl

/-- When sanitising a mapping changes nothing. -/
theorem sanitizeEntries_fixed_iff {entries : List (Str × Metadata)} :
    Dict.ofPairs (sanitizeEntries folding entries) = entries ↔
      (entries.map (·.1)).Nodup ∧ ∀ entry ∈ entries, passes folding entry.1 = true ∧
        storedKey entry.1 = entry.1 ∧ sanitizeMetadata folding entry.2 = entry.2 := by
  constructor
  · intro hfixed
    have hnodup : (entries.map (·.1)).Nodup := hfixed ▸ Dict.nodup_keys_ofPairs _
    have hsource : ∀ entry ∈ entries, ∃ other ∈ entries,
        passes folding other.1 = true ∧ storedKey other.1 = entry.1 := by
      intro entry hentry
      rw [← mem_storedKeys, ← map_sanitizeEntries, ← Dict.mem_keys_ofPairs, hfixed]
      exact List.mem_map_of_mem hentry
    have hself : ∀ entry ∈ entries, storedKey entry.1 = entry.1 := by
      intro entry hentry
      obtain ⟨other, hother, -, hkey⟩ := hsource entry hentry
      obtain ⟨third, -, -, hkey'⟩ := hsource other hother
      have hshort : other.1.length ≤ 120 := hkey' ▸ length_storedKey third.1
      have hstrip : storedKey other.1 = Str.strip other.1 :=
        List.take_of_length_le ((Str.length_strip_le _).trans hshort)
      rw [storedKey_eq_self (hkey ▸ length_storedKey other.1), ← hkey, hstrip, Str.strip_strip]
    have hpass : ∀ entry ∈ entries, passes folding entry.1 = true := by
      intro entry hentry
      obtain ⟨other, hother, hpass, hkey⟩ := hsource entry hentry
      rwa [← hkey, hself other hother]
    have hmap := sanitizeEntries_self fun entry hentry => ⟨hpass entry hentry, hself entry hentry⟩
    rw [hmap, Dict.ofPairs_of_nodup (by rwa [keys_map_values]), map_values_eq_self] at hfixed
    exact ⟨hnodup, fun entry hentry =>
      ⟨hpass entry hentry, hself entry hentry, hfixed entry hentry⟩⟩
  · rintro ⟨hnodup, hall⟩
    have hmap := sanitizeEntries_self fun entry hentry =>
      ⟨(hall entry hentry).1, (hall entry hentry).2.1⟩
    rw [hmap, Dict.ofPairs_of_nodup (by rwa [keys_map_values]), map_values_eq_self]
    exact fun entry hentry => (hall entry hentry).2.2

theorem length_sanitizeItems (limit : Nat) (items : List Metadata) :
    (sanitizeItems folding limit items).length ≤ limit := by
  induction items generalizing limit with
  | nil => simp [sanitizeItems]
  | cons item items ih =>
    cases limit with
    | zero => simp [sanitizeItems]
    | succ limit =>
      rw [sanitizeItems, List.length_cons]
      exact Nat.succ_le_succ (ih limit)

theorem trimmed_of_stored {entries : List (Str × Metadata)} {entry : Str × Metadata}
    (h : entry ∈ Dict.ofPairs (sanitizeEntries folding entries)) :
    (passes folding entry.1 = true ∧ storedKey entry.1 = entry.1) ↔
      Str.strip entry.1 = entry.1 := by
  have hkey : entry.1 ∈ storedKeys folding entries :=
    map_sanitizeEntries entries ▸ List.mem_map_of_mem (Dict.mem_of_mem_ofPairs h)
  obtain ⟨source, -, hpass, hstored⟩ := mem_storedKeys.1 hkey
  have hself := storedKey_eq_self (hstored ▸ length_storedKey source.1)
  rw [hself]
  refine ⟨And.right, fun hcut => ⟨?_, hcut⟩⟩
  rw [← hstored] at hcut ⊢
  exact passes_storedKey hpass hcut

mutual

theorem sanitize_again_iff : (value : Metadata) →
    (sanitizeMetadata folding (sanitizeMetadata folding value) = sanitizeMetadata folding value ↔
      KeysCutWhole folding value)
  | .mapping entries => by
    rw [sanitizeMetadata, sanitizeMetadata, KeysCutWhole, Metadata.mapping.injEq,
      sanitizeEntries_fixed_iff, ← sanitizeEntries_again_iff entries]
    refine ⟨fun h entry hentry => ?_, fun h =>
      ⟨Dict.nodup_keys_ofPairs _, fun entry hentry => ?_⟩⟩
    · obtain ⟨hpass, hself, hitem⟩ := h.2 entry hentry
      exact ⟨(trimmed_of_stored hentry).1 ⟨hpass, hself⟩, hitem⟩
    · obtain ⟨hcut, hitem⟩ := h entry hentry
      obtain ⟨hpass, hself⟩ := (trimmed_of_stored hentry).2 hcut
      exact ⟨hpass, hself, hitem⟩
  | .list items => by
    rw [sanitizeMetadata, sanitizeMetadata, KeysCutWhole, Metadata.list.injEq]
    exact sanitizeItems_again_iff 50 items
  | .str text => by simp [sanitizeMetadata, KeysCutWhole, List.take_take]
  | .other text => by simp [sanitizeMetadata, KeysCutWhole, List.take_take]
  | .null => by simp [sanitizeMetadata, KeysCutWhole]
  | .bool value => by simp [sanitizeMetadata, KeysCutWhole]
  | .number text => by simp [sanitizeMetadata, KeysCutWhole]

theorem sanitizeEntries_again_iff : (entries : List (Str × Metadata)) →
    ((∀ entry ∈ Dict.ofPairs (sanitizeEntries folding entries),
      Str.strip entry.1 = entry.1 ∧ sanitizeMetadata folding entry.2 = entry.2) ↔
        EntriesCutWhole folding entries)
  | [] => by simp [sanitizeEntries, EntriesCutWhole, Dict.ofPairs]
  | (key, item) :: entries => by
    have hitem := sanitize_again_iff item
    have hrest := sanitizeEntries_again_iff entries
    rw [EntriesCutWhole, sanitizeEntries, ← hrest, ← hitem]
    cases hkey : passes folding key with
    | true =>
      simp only [if_true, Dict.mem_ofPairs_cons, map_sanitizeEntries]
      constructor
      · intro h
        exact ⟨fun _ hlast => h _ (.inr ⟨rfl, hlast⟩), fun entry hentry => h entry (.inl hentry)⟩
      · rintro ⟨hhead, htail⟩ entry (hentry | ⟨rfl, hlast⟩)
        · exact htail entry hentry
        · exact hhead trivial hlast
    | false => simp

theorem sanitizeItems_again_iff : (limit : Nat) → (items : List Metadata) →
    (sanitizeItems folding limit (sanitizeItems folding limit items) =
      sanitizeItems folding limit items ↔ ItemsCutWhole folding limit items)
  | limit, [] => by simp [sanitizeItems, ItemsCutWhole]
  | 0, _ :: _ => by simp [sanitizeItems, ItemsCutWhole]
  | limit + 1, item :: items => by
    have hitem := sanitize_again_iff item
    have hrest := sanitizeItems_again_iff limit items
    rw [ItemsCutWhole, ← hitem, ← hrest, sanitizeItems, sanitizeItems, List.cons.injEq]

end

mutual

/-- A value that sanitising leaves alone has no secret-like key. -/
theorem no_secret_of_fixed : (value : Metadata) → sanitizeMetadata folding value = value →
    ∀ key ∈ value.keys, secretLike folding.casefold key = false
  | .mapping entries, h => by
    rw [sanitizeMetadata, Metadata.mapping.injEq, sanitizeEntries_fixed_iff] at h
    exact no_secret_of_entries entries fun entry hentry =>
      ⟨(h.2 entry hentry).1, (h.2 entry hentry).2.2⟩
  | .list items, h => by
    rw [sanitizeMetadata, Metadata.list.injEq] at h
    exact no_secret_of_items 50 items h
  | .str _, _ | .other _, _ | .null, _ | .bool _, _ | .number _, _ => by simp [Metadata.keys]

theorem no_secret_of_entries : (entries : List (Str × Metadata)) →
    (∀ entry ∈ entries, passes folding entry.1 = true ∧
      sanitizeMetadata folding entry.2 = entry.2) →
        ∀ key ∈ entryKeys entries, secretLike folding.casefold key = false
  | [], _ => by simp [entryKeys]
  | (name, item) :: entries, h => by
    obtain ⟨⟨hpass, hitem⟩, hrest⟩ := List.forall_mem_cons.1 h
    simp only [passes, Bool.and_eq_true, Bool.not_eq_true'] at hpass
    intro key hkey
    rw [entryKeys, List.cons_append, List.mem_cons, List.mem_append] at hkey
    rcases hkey with rfl | hkey | hkey
    · exact hpass.2
    · exact no_secret_of_fixed item hitem key hkey
    · exact no_secret_of_entries entries hrest key hkey

theorem no_secret_of_items : (limit : Nat) → (items : List Metadata) →
    sanitizeItems folding limit items = items →
      ∀ key ∈ itemKeys items, secretLike folding.casefold key = false
  | _, [], _ => by simp [itemKeys]
  | 0, _ :: _, h => by simp [sanitizeItems] at h
  | limit + 1, item :: items, h => by
    rw [sanitizeItems, List.cons.injEq] at h
    intro key hkey
    rw [itemKeys, List.mem_append] at hkey
    rcases hkey with hkey | hkey
    · exact no_secret_of_fixed item h.1 key hkey
    · exact no_secret_of_items limit items h.2 key hkey

end

/-- The log stores no secret-like key, and what it stores is stable, exactly when no key it keeps
was cut right after a space. -/
theorem stored_metadata_clean_iff (folding : Folding) (value : Metadata) :
    ((∀ key ∈ (sanitizeMetadata folding value).keys, secretLike folding.casefold key = false) ∧
      sanitizeMetadata folding (sanitizeMetadata folding value) = sanitizeMetadata folding value) ↔
        KeysCutWhole folding value := by
  rw [← sanitize_again_iff value]
  exact ⟨And.right, fun h => ⟨no_secret_of_fixed _ h, h⟩⟩

/-- Folds nothing but ASCII. -/
def asciiFolding : Folding where
  entry c := [c]
  entry_ne_nil _ := List.cons_ne_nil _ _

/-- `token`, spaces up to the cut, and one character behind it. -/
def paddedToken : Str := Str.of "token" ++ List.replicate 115 32 ++ [120]

def paddedMetadata : Metadata := .mapping [(paddedToken, .str [49])]

theorem padded_token_stored :
    ¬ ((∀ key ∈ (sanitizeMetadata asciiFolding paddedMetadata).keys,
      secretLike asciiFolding.casefold key = false) ∧
        sanitizeMetadata asciiFolding (sanitizeMetadata asciiFolding paddedMetadata) =
          sanitizeMetadata asciiFolding paddedMetadata) := by
  have hpass : passes asciiFolding paddedToken = true := by decide +kernel
  have hsecret : secretLike asciiFolding.casefold (storedKey paddedToken) = true := by
    decide +kernel
  rintro ⟨hkeys, -⟩
  have hkept : storedKey paddedToken ∈ (sanitizeMetadata asciiFolding paddedMetadata).keys := by
    simp [paddedMetadata, sanitizeMetadata, sanitizeEntries, hpass, Dict.ofPairs, Dict.set,
      Metadata.keys, entryKeys]
  rw [hkeys _ hkept] at hsecret
  cases hsecret

end FounderOs.Execution
