import FounderOs.RepositoryAudit.CheckoutTree

namespace FounderOs.RepositoryAudit

open Separated

section keys

variable (rules : PathRules)

/-- The key of a path under NFC and case folding, part by part. -/
def pathKey (path : Str) : Str := joinParts ((path.splitOn 47).map (portablePart rules))

variable {rules} {path stem stem' key : Str} {parts : List Str}

theorem portablePart_slash {part : Str} (h : 47 ∉ part) : 47 ∉ portablePart rules part := by
  intro hmem
  obtain ⟨c, hc, hfold⟩ := List.mem_flatMap.1 hmem
  have hne : c ≠ 47 := fun hc' => rules.nfc_slash part h (hc' ▸ hc)
  split at hfold
  · have hsame := List.mem_singleton.1 hfold
    split at hsame
    · omega
    · omega
  · rename_i hwide
    exact rules.foldTable_slash c (by omega) hfold

theorem map_portablePart_slash (h : ∀ part ∈ parts, 47 ∉ part) :
    ∀ part ∈ parts.map (portablePart rules), 47 ∉ part := by
  intro part hpart
  obtain ⟨part, hmem, rfl⟩ := List.mem_map.1 hpart
  exact portablePart_slash (h part hmem)

theorem splitOn_joinParts (hne : parts ≠ []) (hparts : ∀ part ∈ parts, 47 ∉ part) :
    (joinParts parts).splitOn 47 = parts :=
  List.splitOn_intercalate 47 hparts hne

theorem pathKey_joinParts (hne : parts ≠ []) (hparts : ∀ part ∈ parts, 47 ∉ part) :
    pathKey rules (joinParts parts) = joinParts (parts.map (portablePart rules)) := by
  rw [pathKey, splitOn_joinParts hne hparts]

theorem beneath_iff_splitOn : Beneath 47 stem path ↔
    ∃ tail, tail ≠ [] ∧ path.splitOn 47 = stem.splitOn 47 ++ tail := by
  constructor
  · rintro ⟨rest, rfl⟩
    exact ⟨rest.splitOn 47, List.splitOn_ne_nil 47 rest, List.splitOn_append_cons_self stem rest⟩
  · rintro ⟨tail, htail, hsplit⟩
    have hbeneath := beneath_intercalate (a := 47) (List.splitOn_ne_nil 47 stem) htail
    rwa [List.intercalate_splitOn, ← hsplit, List.intercalate_splitOn] at hbeneath

/-- The directories of a key are the keys of the directories. -/
theorem beneath_pathKey :
    Beneath 47 key (pathKey rules path) ↔
      ∃ stem, Beneath 47 stem path ∧ pathKey rules stem = key := by
  have hslash : ∀ part ∈ (path.splitOn 47).map (portablePart rules), 47 ∉ part :=
    map_portablePart_slash fun part => not_mem_of_mem_splitOn
  constructor
  · intro h
    obtain ⟨head, tail, hhead, htail, hsplit, rfl⟩ := (beneath_iff
      (fun hnil => List.splitOn_ne_nil 47 path (List.map_eq_nil_iff.1 hnil)) hslash).1 h
    obtain ⟨first, rest, hparts, rfl, rfl⟩ := List.map_eq_append_iff.1 hsplit
    have hfirst : first ≠ [] := fun hnil => hhead (List.map_eq_nil_iff.2 hnil)
    have hclean : ∀ part ∈ first, 47 ∉ part := by
      intro part hpart
      exact not_mem_of_mem_splitOn (hparts ▸ List.mem_append_left rest hpart)
    refine ⟨joinParts first, beneath_iff_splitOn.2 ⟨rest, ?_, ?_⟩, pathKey_joinParts hfirst hclean⟩
    · exact fun hnil => htail (List.map_eq_nil_iff.2 hnil)
    · rw [hparts, splitOn_joinParts hfirst hclean]
  · rintro ⟨stem, hstem, rfl⟩
    obtain ⟨tail, htail, hsplit⟩ := beneath_iff_splitOn.1 hstem
    rw [pathKey, pathKey, hsplit, List.map_append]
    apply beneath_intercalate
    · exact fun hnil => List.splitOn_ne_nil 47 stem (List.map_eq_nil_iff.1 hnil)
    · exact fun hnil => htail (List.map_eq_nil_iff.1 hnil)

/-- Along one path no two directories share a key. -/
theorem beneath_unique (h : Beneath 47 stem path) (h' : Beneath 47 stem' path)
    (hkey : pathKey rules stem = pathKey rules stem') : stem = stem' := by
  have hparts (text : Str) : ∀ part ∈ (text.splitOn 47).map (portablePart rules), 47 ∉ part :=
    map_portablePart_slash fun part => not_mem_of_mem_splitOn
  have hne (text : Str) : (text.splitOn 47).map (portablePart rules) ≠ [] := fun hnil =>
    List.splitOn_ne_nil 47 text (List.map_eq_nil_iff.1 hnil)
  have hmap := intercalate_inj (hne stem) (hne stem') (hparts stem) (hparts stem') hkey
  have hlength : (stem.splitOn 47).length = (stem'.splitOn 47).length := by
    simpa using congrArg List.length hmap
  obtain ⟨tail, -, hsplit⟩ := beneath_iff_splitOn.1 h
  obtain ⟨tail', -, hsplit'⟩ := beneath_iff_splitOn.1 h'
  have hsame := (List.append_inj (hsplit.symm.trans hsplit') hlength).1
  have hjoin : [47].intercalate (stem.splitOn 47) = [47].intercalate (stem'.splitOn 47) := by
    rw [hsame]
  rwa [List.intercalate_splitOn, List.intercalate_splitOn] at hjoin

theorem mem_prefixes (hne : parts ≠ []) (hparts : ∀ part ∈ parts, 47 ∉ part) :
    (key, stem) ∈ (treePathOf rules parts).prefixes ↔
      Beneath 47 stem (joinParts parts) ∧ pathKey rules stem = key := by
  have htake (index : Nat) : ∀ part ∈ parts.take index, 47 ∉ part := fun part hpart =>
    hparts part (List.mem_of_mem_take hpart)
  simp only [treePathOf, List.mem_map, List.mem_range'_1, List.length_map]
  constructor
  · rintro ⟨index, ⟨hlow, hhigh⟩, hpair⟩
    obtain ⟨rfl, rfl⟩ := Prod.mk.inj hpair
    have hindex : parts.take index ≠ [] := by
      intro hnil
      rw [List.take_eq_nil_iff] at hnil
      rcases hnil with h | h
      · omega
      · exact hne h
    refine ⟨beneath_iff_splitOn.2 ⟨parts.drop index, ?_, ?_⟩, ?_⟩
    · intro hnil
      rw [List.drop_eq_nil_iff] at hnil
      omega
    · rw [splitOn_joinParts hne hparts, splitOn_joinParts hindex (htake index),
        List.take_append_drop]
    · rw [pathKey_joinParts hindex (htake index), List.map_take]
  · rintro ⟨hstem, rfl⟩
    obtain ⟨tail, htail, hsplit⟩ := beneath_iff_splitOn.1 hstem
    rw [splitOn_joinParts hne hparts] at hsplit
    have htaken : parts.take (stem.splitOn 47).length = stem.splitOn 47 := by
      rw [hsplit, List.take_left]
    have hlength := congrArg List.length hsplit
    rw [List.length_append] at hlength
    have hpos := List.length_pos_of_ne_nil (List.splitOn_ne_nil 47 stem)
    have hpos' := List.length_pos_of_ne_nil htail
    refine ⟨(stem.splitOn 47).length, ⟨hpos, by omega⟩, ?_⟩
    rw [← List.map_take, htaken, pathKey, joinParts, joinParts, List.intercalate_splitOn]

end keys

section paths

variable {rules : PathRules} {policy : RepositoryCheckoutPolicy} {value : Str} {place : TreePath}
  {parts : List Str}

structure SafePath (rules : PathRules) (policy : RepositoryCheckoutPolicy) (path : Str) : Prop where
  relative : path ≠ [] ∧ path.head? ≠ some 47
  parts : ∀ part ∈ path.splitOn 47, part ≠ [] ∧ part ≠ [46] ∧ part ≠ [46, 46] ∧ part ≠ dotGit ∧
    Str.casefold rules.foldTable part ≠ dotGit
  characters : ∀ c ∈ path, c ≠ 92 ∧ controlChar c = false
  depth : (path.splitOn 47).length ≤ policy.maxDepth

theorem safePart_iff {part : Str} : safePart rules part = true ↔
    part ≠ [] ∧ part ≠ [46] ∧ part ≠ [46, 46] ∧ Str.casefold rules.foldTable part ≠ dotGit := by
  simp [safePart, and_assoc]

theorem relative_of_parts (hne : parts ≠ []) (hparts : ∀ part ∈ parts, 47 ∉ part)
    (hsafe : ∀ part ∈ parts, part ≠ []) :
    joinParts parts ≠ [] ∧ (joinParts parts).head? ≠ some 47 := by
  obtain ⟨first, rest, rfl⟩ := List.exists_cons_of_ne_nil hne
  obtain ⟨c, first, rfl⟩ := List.exists_cons_of_ne_nil (hsafe first List.mem_cons_self)
  have hc : c ≠ 47 := fun h => hparts _ List.mem_cons_self (h ▸ List.mem_cons_self)
  have hhead : (joinParts ((c :: first) :: rest)).head? = some c := by
    cases rest with
    | nil => simp [joinParts]
    | cons next rest => simp [joinParts, List.intercalate_cons_cons]
  constructor
  · intro hnil
    rw [hnil] at hhead
    cases hhead
  · rw [hhead]
    exact fun h => hc (Option.some.inj h)

theorem safePath_joinParts (hne : parts ≠ []) (hparts : ∀ part ∈ parts, 47 ∉ part)
    (hsafe : ∀ part ∈ parts, safePart rules part = true)
    (hcharacters : ∀ part ∈ parts, ∀ c ∈ part, c ≠ 92 ∧ controlChar c = false)
    (hdepth : parts.length ≤ policy.maxDepth) : SafePath rules policy (joinParts parts) where
  relative := relative_of_parts hne hparts fun part hpart => (safePart_iff.1 (hsafe part hpart)).1
  parts := by
    intro part hpart
    rw [splitOn_joinParts hne hparts] at hpart
    obtain ⟨hpart, hdot, hdots, hgit⟩ := safePart_iff.1 (hsafe part hpart)
    refine ⟨hpart, hdot, hdots, ?_, hgit⟩
    rintro rfl
    exact hgit rfl
  characters := Text.forall_intercalate (by decide) hcharacters
  depth := by rwa [splitOn_joinParts hne hparts]

theorem validatedTreePath_ok (h : validatedTreePath rules policy value = .ok place) :
    ∃ parts, parts ≠ [] ∧ (∀ part ∈ parts, 47 ∉ part) ∧ SafePath rules policy (joinParts parts) ∧
      place = treePathOf rules parts := by
  unfold validatedTreePath at h
  dsimp only at h
  split at h
  · cases h
  · rename_i htext
    split at h
    · cases h
    · split at h
      · cases h
      · rename_i hbad
        split at h
        · cases h
        · rename_i hdepth
          simp only [Bool.or_eq_true, not_or, List.any_eq_true, not_exists, not_and,
            List.contains_iff_mem] at htext
          simp only [Bool.or_eq_true, decide_eq_true_eq, not_or, Bool.not_eq_true',
            Bool.not_eq_false, List.all_eq_true] at hbad
          have hslash : ∀ part ∈ pathParts value, 47 ∉ part := fun part hpart =>
            not_mem_of_mem_splitOn (List.mem_filter.1 hpart).1
          have hvalue : ∀ c ∈ value, c ≠ 92 ∧ controlChar c = false := fun c hc =>
            ⟨fun hback => htext.1.2 (hback ▸ hc), Bool.of_not_eq_true (htext.2 c hc)⟩
          have hcharacters : ∀ part ∈ pathParts value, ∀ c ∈ part, c ≠ 92 ∧ controlChar c = false :=
            fun part hpart => Text.forall_splitOn hvalue 47 part (List.mem_filter.1 hpart).1
          exact ⟨pathParts value, hbad.1, hslash,
            safePath_joinParts hbad.1 hslash hbad.2 hcharacters (not_lt.1 hdepth),
            (Except.ok.inj h).symm⟩

end paths

section scan

variable {rules : PathRules} {policy : RepositoryCheckoutPolicy} {s s' : TreeScan} {raw : Bytes}
  {place : TreePath} {objectId path : Str} {size : Int}

theorem checkoutRefusal_ok {bad : Bool} {error : CheckoutError}
    (h : checkoutRefusal bad error = .ok ()) : bad = false := by
  cases bad with
  | false => rfl
  | true => cases h

theorem treeRecord_ok (h : treeRecord raw = .ok (objectId, size, path)) :
    lowerHex 40 objectId = true ∧ 0 ≤ size := by
  unfold treeRecord at h
  dsimp only at h
  split at h
  · obtain ⟨_, -, h⟩ := ok_of_bind_ok h
    obtain ⟨_, -, h⟩ := ok_of_bind_ok h
    obtain ⟨_, -, h⟩ := ok_of_bind_ok h
    obtain ⟨_, -, h⟩ := ok_of_bind_ok h
    obtain ⟨_, -, h⟩ := ok_of_bind_ok h
    obtain ⟨_, -, h⟩ := ok_of_bind_ok h
    obtain ⟨_, hobject, h⟩ := ok_of_bind_ok h
    cases h
    simpa using checkoutRefusal_ok hobject
  · cases h

theorem collisions_ok (h : s.collisions place = .ok ()) :
    Dict.get s.filePaths place.key = none ∧ Dict.get s.directoryPaths place.key = none ∧
      ∀ entry ∈ place.prefixes, Dict.get s.filePaths entry.1 = none ∧
        ∀ held, Dict.get s.directoryPaths entry.1 = some held → held = entry.2 := by
  unfold TreeScan.collisions at h
  split at h
  · cases h
  · rename_i hkey
    simp only [Bool.or_eq_true, not_or, Bool.not_eq_true, Option.isSome_eq_false_iff,
      Option.isNone_iff_eq_none] at hkey
    refine ⟨hkey.1, hkey.2, fun entry hentry => ?_⟩
    have hloop := forM_ok_iff.1 h entry hentry
    split at hloop
    · cases hloop
    · rename_i hfile
      split at hloop
      · cases hloop
      · rename_i hheld
        refine ⟨by simpa using hfile, fun held hget => ?_⟩
        rw [hget] at hheld
        simpa using hheld

theorem bounds_ok (h : s.bounds policy size = .ok ()) : size ≤ policy.maxFileBytes ∧
    s.totalBytes ≤ policy.maxBytes ∧ s.entries.length ≤ policy.maxFiles := by
  unfold TreeScan.bounds at h
  split at h
  · cases h
  · split at h
    · cases h
    · split at h
      · cases h
      · exact ⟨by omega, by omega, by omega⟩

theorem record_ok (h : s.record rules policy raw = .ok s') :
    s' = s ∨ ∃ objectId size path place, treeRecord raw = .ok (objectId, size, path) ∧
      validatedTreePath rules policy path = .ok place ∧ s.collisions place = .ok () ∧
        s' = s.place objectId size place ∧ s'.bounds policy size = .ok () := by
  unfold TreeScan.record at h
  split at h
  · exact .inl (Except.ok.inj h).symm
  · obtain ⟨⟨objectId, size, path⟩, hrecord, h⟩ := ok_of_bind_ok h
    obtain ⟨place, hplace, h⟩ := ok_of_bind_ok h
    obtain ⟨_, hcollisions, h⟩ := ok_of_bind_ok h
    obtain ⟨_, hbounds, h⟩ := ok_of_bind_ok h
    cases h
    exact .inr ⟨objectId, size, path, place, hrecord, hplace, hcollisions, rfl, hbounds⟩

end scan

section tree

variable (rules : PathRules) (policy : RepositoryCheckoutPolicy)

/-- What a checkout may rest on, whatever file system it goes to. -/
structure PortableTree (entries : List TreeEntry) : Prop where
  safe : ∀ entry ∈ entries, SafePath rules policy entry.path
  keysApart : entries.Pairwise fun first second =>
    pathKey rules first.path ≠ pathKey rules second.path
  filesApart : ∀ first ∈ entries, ∀ second ∈ entries,
    ¬Beneath 47 (pathKey rules first.path) (pathKey rules second.path)
  spelledOnce : ∀ first ∈ entries, ∀ second ∈ entries, ∀ stem stem',
    Beneath 47 stem first.path → Beneath 47 stem' second.path →
      pathKey rules stem = pathKey rules stem' → stem = stem'
  sizes : ∀ entry ∈ entries, 0 ≤ entry.size ∧ entry.size ≤ policy.maxFileBytes
  totalBytes : (entries.map (·.size)).sum ≤ policy.maxBytes
  count : entries.length ≤ policy.maxFiles

/-- The two dictionaries are what the entries so far make of them. -/
structure TreeScan.Holds (s : TreeScan) : Prop extends PortableTree rules policy s.entries where
  files : ∀ key, (Dict.get s.filePaths key).isSome = true ↔
    ∃ entry ∈ s.entries, pathKey rules entry.path = key
  directories : ∀ key stem, Dict.get s.directoryPaths key = some stem ↔
    (∃ entry ∈ s.entries, Beneath 47 stem entry.path) ∧ pathKey rules stem = key
  total : s.totalBytes = (s.entries.map (·.size)).sum

variable {rules policy} {s s' : TreeScan} {place : TreePath} {objectId : Str} {size : Int}
  {parts : List Str}

theorem beneath_irrefl (path : Str) : ¬Beneath 47 path path := by
  rintro ⟨rest, h⟩
  have hlength := congrArg List.length h
  rw [List.length_append, List.length_cons] at hlength
  omega

theorem start_holds (hvalid : policy.validate = .ok ()) :
    TreeScan.start.Holds rules policy := by
  have hbounds : 0 ≤ policy.maxBytes ∧ 0 ≤ policy.maxFiles := by
    unfold RepositoryCheckoutPolicy.validate at hvalid
    dsimp only at hvalid
    split at hvalid
    · cases hvalid
    · split at hvalid
      · cases hvalid
      · rename_i hpositive
        simp only [List.any_cons, List.any_nil, Bool.or_eq_true, decide_eq_true_eq, not_or,
          not_le] at hpositive
        exact ⟨hpositive.2.1.le, hpositive.1.le⟩
  exact
    { safe := by simp [TreeScan.start]
      keysApart := List.Pairwise.nil
      filesApart := by simp [TreeScan.start]
      spelledOnce := by simp [TreeScan.start]
      sizes := by simp [TreeScan.start]
      totalBytes := hbounds.1
      count := hbounds.2
      files := by simp [TreeScan.start, Dict.get]
      directories := by simp [TreeScan.start, Dict.get]
      total := rfl }

section placed

variable (hs : s.Holds rules policy) (hne : parts ≠ []) (hparts : ∀ part ∈ parts, 47 ∉ part)
  (hcollisions : s.collisions (treePathOf rules parts) = .ok ())

include hs hne hparts hcollisions

theorem key_fresh : ∀ entry ∈ s.entries,
    pathKey rules entry.path ≠ pathKey rules (joinParts parts) ∧
    ¬Beneath 47 (pathKey rules entry.path) (pathKey rules (joinParts parts)) ∧
      ¬Beneath 47 (pathKey rules (joinParts parts)) (pathKey rules entry.path) := by
  obtain ⟨hfile, hdirectory, hprefixes⟩ := collisions_ok hcollisions
  have hkey : (treePathOf rules parts).key = pathKey rules (joinParts parts) :=
    (pathKey_joinParts hne hparts).symm
  intro entry hentry
  refine ⟨fun hsame => ?_, fun hbeneath => ?_, fun hbeneath => ?_⟩
  · have hheld := (hs.files _).2 ⟨entry, hentry, hsame⟩
    rw [← hkey, hfile] at hheld
    cases hheld
  · obtain ⟨stem, hstem, hsame⟩ := beneath_pathKey.1 hbeneath
    have hheld := (hs.files _).2 ⟨entry, hentry, rfl⟩
    rw [(hprefixes _ ((mem_prefixes hne hparts).2 ⟨hstem, hsame⟩)).1] at hheld
    cases hheld
  · obtain ⟨stem, hstem, hsame⟩ := beneath_pathKey.1 hbeneath
    have hheld := (hs.directories _ _).2 ⟨⟨entry, hentry, hstem⟩, hsame⟩
    rw [← hkey, hdirectory] at hheld
    cases hheld

/-- A directory above the new file is spelled as it is above the earlier ones. -/
theorem stem_agrees {stem stem' : Str} (hstem : Beneath 47 stem (joinParts parts))
    {entry : TreeEntry} (hentry : entry ∈ s.entries) (hstem' : Beneath 47 stem' entry.path)
    (hkey : pathKey rules stem = pathKey rules stem') : stem = stem' := by
  obtain ⟨-, -, hprefixes⟩ := collisions_ok hcollisions
  have hmem : (pathKey rules stem', stem) ∈ (treePathOf rules parts).prefixes :=
    (mem_prefixes hne hparts).2 ⟨hstem, hkey⟩
  exact ((hprefixes _ hmem).2 stem' ((hs.directories _ _).2 ⟨⟨entry, hentry, hstem'⟩, rfl⟩)).symm

theorem place_directories (key stem : Str) :
    Dict.get (s.place objectId size (treePathOf rules parts)).directoryPaths key = some stem ↔
      (∃ entry ∈ (s.place objectId size (treePathOf rules parts)).entries,
        Beneath 47 stem entry.path) ∧ pathKey rules stem = key := by
  have hpairs : ∀ p ∈ (treePathOf rules parts).prefixes, ∀ q ∈ (treePathOf rules parts).prefixes,
      p.1 = q.1 → p.2 = q.2 := by
    intro p hp q hq hsame
    obtain ⟨hstem, hkey⟩ := (mem_prefixes hne hparts).1 hp
    obtain ⟨hstem', hkey'⟩ := (mem_prefixes hne hparts).1 hq
    exact beneath_unique hstem hstem' (hkey.trans (hsame.trans hkey'.symm))
  have hheld : ∀ p ∈ (treePathOf rules parts).prefixes, ∀ held,
      Dict.get s.directoryPaths p.1 = some held → held = p.2 := fun p hp =>
    ((collisions_ok hcollisions).2.2 p hp).2
  have hget := Dict.get_setDefaults (k := key) (v := stem) hpairs hheld
  rw [TreeScan.place, hget, hs.directories, mem_prefixes hne hparts, ← or_and_right]
  refine and_congr_left fun _ => ?_
  simp only [List.mem_append, List.mem_singleton, or_and_right, exists_or, exists_eq_left]
  exact Iff.rfl

theorem place_holds (hpath : SafePath rules policy (joinParts parts)) (hsize : 0 ≤ size)
    (hbounds : (s.place objectId size (treePathOf rules parts)).bounds policy size = .ok ()) :
    (s.place objectId size (treePathOf rules parts)).Holds rules policy := by
  obtain ⟨hfile, htotal, hcount⟩ := bounds_ok hbounds
  have hfresh := key_fresh hs hne hparts hcollisions
  have hsum : s.totalBytes + size =
      ((s.place objectId size (treePathOf rules parts)).entries.map (·.size)).sum := by
    rw [TreeScan.place, hs.total, List.map_append, List.sum_append, List.map_singleton,
      List.sum_singleton]
  exact
    { safe := by
        simp only [TreeScan.place, List.forall_mem_append, List.forall_mem_singleton]
        exact ⟨hs.safe, hpath⟩
      keysApart := by
        rw [TreeScan.place, List.pairwise_append]
        refine ⟨hs.keysApart, List.pairwise_singleton _ _, fun entry hentry last hlast => ?_⟩
        obtain rfl := List.mem_singleton.1 hlast
        exact (hfresh entry hentry).1
      filesApart := by
        simp only [TreeScan.place, List.forall_mem_append, List.forall_mem_singleton]
        refine ⟨fun first hfirst => ⟨hs.filesApart first hfirst, (hfresh first hfirst).2.1⟩,
          fun second hsecond => (hfresh second hsecond).2.2, beneath_irrefl _⟩
      spelledOnce := by
        simp only [TreeScan.place, List.forall_mem_append, List.forall_mem_singleton]
        refine ⟨fun first hfirst => ⟨hs.spelledOnce first hfirst, ?_⟩, ?_, ?_⟩
        · intro stem stem' hstem hstem' hkey
          exact (stem_agrees hs hne hparts hcollisions hstem' hfirst hstem hkey.symm).symm
        · intro second hsecond stem stem' hstem hstem' hkey
          exact stem_agrees hs hne hparts hcollisions hstem hsecond hstem' hkey
        · exact fun stem stem' hstem hstem' => beneath_unique hstem hstem'
      sizes := by
        simp only [TreeScan.place, List.forall_mem_append, List.forall_mem_singleton]
        exact ⟨hs.sizes, hsize, hfile⟩
      totalBytes := hsum ▸ htotal
      count := hcount
      files := by
        intro key
        have hkey : (treePathOf rules parts).key = pathKey rules (joinParts parts) :=
          (pathKey_joinParts hne hparts).symm
        simp only [TreeScan.place, Dict.get_set, hkey, List.mem_append, List.mem_singleton,
          or_and_right, exists_or, exists_eq_left, ← hs.files]
        by_cases hsame : pathKey rules (joinParts parts) = key
        · simp [hsame, treePathOf]
        · simp [hsame, treePathOf]
      directories := place_directories hs hne hparts hcollisions
      total := hsum }

end placed

theorem record_holds (hs : s.Holds rules policy) {raw : Bytes}
    (h : s.record rules policy raw = .ok s') : s'.Holds rules policy := by
  rcases record_ok h with
    rfl | ⟨objectId, size, path, place, hrecord, hplace, hcollisions, rfl, hbounds⟩
  · exact hs
  · obtain ⟨parts, hne, hparts, hpath, rfl⟩ := validatedTreePath_ok hplace
    exact place_holds hs hne hparts hcollisions hpath (treeRecord_ok hrecord).2 hbounds

/-- What the parser accepts, under a policy that passed its own check, is safe and portable. -/
theorem parseTreeEntries_portable (hvalid : policy.validate = .ok ()) {output : Bytes}
    {entries : List TreeEntry} (h : parseTreeEntries rules policy output = .ok entries) :
    PortableTree rules policy entries := by
  obtain ⟨s, hrun, rfl⟩ := map_eq_ok h
  have hholds : s.Holds rules policy :=
    foldlM_invariant (P := fun s _ => s.Holds rules policy) (fun _ _ _ _ hs => record_holds hs)
      (start_holds hvalid) hrun
  exact hholds.toPortableTree

end tree

section samples

/-- A text in ASCII is in NFC. -/
def asciiPathRules : PathRules where
  nfc text := text
  foldTable c := [c]
  nfc_slash _ h := h
  foldTable_slash c h hmem := by
    rw [List.mem_singleton] at hmem
    omega

def defaultCheckoutPolicy : RepositoryCheckoutPolicy :=
  ⟨60, 20000, 536870912, 67108864, 8388608, 1024, 64⟩

def sampleTreeRecord (lastDigit : Nat) (size path : Str) : Bytes :=
  (Str.of "100644 blob " ++ List.replicate 39 97 ++ lastDigit :: 32 :: size ++ 9 :: path ++
    [0]).map UInt8.ofNat

def sampleTree : Bytes :=
  sampleTreeRecord 48 (Str.of "     12") (Str.of "README.md") ++
    sampleTreeRecord 49 (Str.of "   7") (Str.of "bin//run")

theorem parseTreeEntries_portable_sample : ∃ entries,
    parseTreeEntries asciiPathRules defaultCheckoutPolicy sampleTree = .ok entries ∧
      entries.map (·.path) = [Str.of "README.md", Str.of "bin/run"] ∧
        PortableTree asciiPathRules defaultCheckoutPolicy entries := by
  have hparse : (parseTreeEntries asciiPathRules defaultCheckoutPolicy sampleTree).toOption =
      some [⟨Str.of "README.md", List.replicate 39 97 ++ [48], 12⟩,
        ⟨Str.of "bin/run", List.replicate 39 97 ++ [49], 7⟩] := by
    decide +kernel
  have hok := ok_of_toOption hparse
  exact ⟨_, hok, rfl, parseTreeEntries_portable (by decide +kernel) hok⟩

example : parseTreeEntries asciiPathRules defaultCheckoutPolicy
    (sampleTreeRecord 48 [49] (Str.of "Bin/run") ++ sampleTreeRecord 49 [49] (Str.of "bin/stop")) =
      .error (.path "checkout tree contains a portable directory collision") := by
  decide +kernel

end samples

end FounderOs.RepositoryAudit
