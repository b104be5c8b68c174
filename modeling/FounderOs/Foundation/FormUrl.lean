import Mathlib.Data.List.Basic
import Mathlib.Data.List.TakeWhile

namespace FounderOs.FormUrl

/-- The bytes that a form leaves as they are: letters, digits, and `*`, `-`, `.`, `_`. -/
def kept (b : Nat) : Bool :=
  (48 ≤ b && b ≤ 57) || (65 ≤ b && b ≤ 90) || (97 ≤ b && b ≤ 122) ||
    b = 42 || b = 45 || b = 46 || b = 95

def hexDigit (n : Nat) : Nat := if n < 10 then 48 + n else 55 + n

def encodeByte (b : Nat) : List Nat :=
  if b = 32 then [43] else if kept b then [b] else [37, hexDigit (b / 16), hexDigit (b % 16)]

def encode (bytes : List Nat) : List Nat := bytes.flatMap encodeByte

def hexValue (c : Nat) : Option Nat :=
  if 48 ≤ c ∧ c ≤ 57 then some (c - 48)
  else if 65 ≤ c ∧ c ≤ 70 then some (c - 55)
  else if 97 ≤ c ∧ c ≤ 102 then some (c - 87)
  else none

/-- A percent sign that no two hexadecimal digits follow stands for itself. -/
def percentDecode : List Nat → List Nat
  | 37 :: high :: low :: rest =>
    match hexValue high, hexValue low with
    | some h, some l => (16 * h + l) :: percentDecode rest
    | _, _ => 37 :: percentDecode (high :: low :: rest)
  | c :: rest => c :: percentDecode rest
  | [] => []

def plusToSpace (text : List Nat) : List Nat := text.map fun c => if c = 43 then 32 else c

def decode (text : List Nat) : List Nat := percentDecode (plusToSpace text)

abbrev Pair := List Nat × List Nat

def serializePair (pair : Pair) : List Nat := encode pair.1 ++ 61 :: encode pair.2

def serialize (pairs : List Pair) : List Nat := [38].intercalate (pairs.map serializePair)

/-- A piece without `=` is a name with an empty value. -/
def parsePair (piece : List Nat) : Pair :=
  (decode (piece.takeWhile (· ≠ 61)), decode ((piece.dropWhile (· ≠ 61)).drop 1))

def parse (query : List Nat) : List Pair :=
  ((query.splitOn 38).filter (· ≠ [])).map parsePair

section round

variable {b c n : Nat} {bytes rest : List Nat} {pair : Pair} {pairs : List Pair}

theorem hexValue_hexDigit (h : n < 16) : hexValue (hexDigit n) = some n := by
  unfold hexDigit
  split
  · rw [hexValue, if_pos ⟨by omega, by omega⟩]
    exact congrArg some (by omega)
  · rw [hexValue, if_neg (by omega), if_pos ⟨by omega, by omega⟩]
    exact congrArg some (by omega)

theorem hexDigit_range (h : n < 16) :
    (48 ≤ hexDigit n ∧ hexDigit n ≤ 57) ∨ 65 ≤ hexDigit n ∧ hexDigit n ≤ 70 := by
  unfold hexDigit
  split <;> omega

theorem kept_range (h : kept b = true) : b ≠ 37 ∧ b ≠ 43 ∧ 42 ≤ b ∧ b ≤ 122 ∧ b ≠ 61 := by
  unfold kept at h
  simp only [Bool.or_eq_true, Bool.and_eq_true, decide_eq_true_eq] at h
  omega

theorem mem_encodeByte (hb : b < 256) (hc : c ∈ encodeByte b) :
    37 ≤ c ∧ c ≤ 122 ∧ c ≠ 38 ∧ c ≠ 61 := by
  unfold encodeByte at hc
  split at hc
  · obtain rfl := List.mem_singleton.1 hc
    omega
  · split at hc
    · rename_i hkept
      obtain rfl := List.mem_singleton.1 hc
      have hrange := kept_range hkept
      omega
    · have hhigh := hexDigit_range (Nat.div_lt_of_lt_mul (show b < 16 * 16 from hb))
      have hlow := hexDigit_range (Nat.mod_lt b (show 0 < 16 by omega))
      simp only [List.mem_cons, List.not_mem_nil, or_false] at hc
      omega

/-- What is encoded has no separator of a query. -/
theorem mem_encode (hbytes : ∀ b ∈ bytes, b < 256) (hc : c ∈ encode bytes) :
    37 ≤ c ∧ c ≤ 122 ∧ c ≠ 38 ∧ c ≠ 61 := by
  obtain ⟨b, hb, hc⟩ := List.mem_flatMap.1 hc
  exact mem_encodeByte (hbytes b hb) hc

theorem percentDecode_other (h : c ≠ 37) :
    percentDecode (c :: rest) = c :: percentDecode rest := by
  cases rest with
  | nil => simp [percentDecode]
  | cons d rest =>
    cases rest with
    | nil => simp [percentDecode]
    | cons e rest =>
      rw [percentDecode]
      intro _ _ _ heq
      exact absurd heq h

theorem percentDecode_escape (hb : b < 256) :
    percentDecode (37 :: hexDigit (b / 16) :: hexDigit (b % 16) :: rest) =
      b :: percentDecode rest := by
  have hhigh := hexValue_hexDigit (Nat.div_lt_of_lt_mul (show b < 16 * 16 from hb))
  have hlow := hexValue_hexDigit (Nat.mod_lt b (show 0 < 16 by omega))
  rw [percentDecode, hhigh, hlow]
  exact congrArg (· :: percentDecode rest) (Nat.div_add_mod b 16)

theorem decode_encodeByte (hb : b < 256) :
    decode (encodeByte b ++ rest) = b :: decode rest := by
  unfold encodeByte
  split
  · rename_i hspace
    subst hspace
    have hspace : percentDecode (32 :: plusToSpace rest) = 32 :: percentDecode (plusToSpace rest) :=
      percentDecode_other (by decide)
    exact hspace
  · rename_i hspace
    split
    · rename_i hkept
      obtain ⟨hpercent, hplus, -⟩ := kept_range hkept
      have hcons : plusToSpace ([b] ++ rest) = b :: plusToSpace rest := by
        simp [plusToSpace, hplus]
      rw [decode, hcons, percentDecode_other hpercent]
      rfl
    · have hhigh := hexDigit_range (Nat.div_lt_of_lt_mul (show b < 16 * 16 from hb))
      have hlow := hexDigit_range (Nat.mod_lt b (show 0 < 16 by omega))
      have hhighPlus : hexDigit (b / 16) ≠ 43 := by omega
      have hlowPlus : hexDigit (b % 16) ≠ 43 := by omega
      have hcons : plusToSpace ([37, hexDigit (b / 16), hexDigit (b % 16)] ++ rest) =
          37 :: hexDigit (b / 16) :: hexDigit (b % 16) :: plusToSpace rest := by
        simp [plusToSpace, hhighPlus, hlowPlus]
      rw [decode, hcons, percentDecode_escape hb]
      rfl

theorem decode_encode (h : ∀ b ∈ bytes, b < 256) : decode (encode bytes) = bytes := by
  induction bytes with
  | nil => rfl
  | cons b bytes ih =>
    have hcons : encode (b :: bytes) = encodeByte b ++ encode bytes := List.flatMap_cons
    rw [hcons, decode_encodeByte (h b List.mem_cons_self),
      ih fun c hc => h c (List.mem_cons_of_mem b hc)]

/-- A pair of bytes. -/
def Pair.Bytes (pair : Pair) : Prop := (∀ b ∈ pair.1, b < 256) ∧ ∀ b ∈ pair.2, b < 256

theorem parsePair_serializePair (h : pair.Bytes) : parsePair (serializePair pair) = pair := by
  have hname : ∀ c ∈ encode pair.1, decide (c ≠ 61) = true :=
    fun c hc => decide_eq_true (mem_encode h.1 hc).2.2.2
  have htake : (serializePair pair).takeWhile (· ≠ 61) = encode pair.1 := by
    rw [serializePair, List.takeWhile_append_of_pos hname]
    simp
  have hdrop : (serializePair pair).dropWhile (· ≠ 61) = 61 :: encode pair.2 := by
    rw [serializePair, List.dropWhile_append_of_pos hname]
    simp
  rw [parsePair, htake, hdrop, decode_encode h.1]
  exact congrArg (Prod.mk pair.1) (decode_encode h.2)

theorem serializePair_piece (h : pair.Bytes) :
    38 ∉ serializePair pair ∧ serializePair pair ≠ [] := by
  refine ⟨fun hmem => ?_, by simp [serializePair]⟩
  rcases List.mem_append.1 hmem with hmem | hmem
  · exact (mem_encode h.1 hmem).2.2.1 rfl
  · rcases List.mem_cons.1 hmem with heq | hmem
    · omega
    · exact (mem_encode h.2 hmem).2.2.1 rfl

/-- A query reads back as the pairs that it was written from. -/
theorem parse_serialize (h : ∀ pair ∈ pairs, pair.Bytes) : parse (serialize pairs) = pairs := by
  cases hpairs : pairs with
  | nil => rfl
  | cons first others =>
    rw [hpairs] at h
    have hpieces : ∀ piece ∈ (first :: others).map serializePair, 38 ∉ piece ∧ piece ≠ [] := by
      intro piece hpiece
      obtain ⟨pair, hpair, rfl⟩ := List.mem_map.1 hpiece
      exact serializePair_piece (h pair hpair)
    have hsplit : (serialize (first :: others)).splitOn 38 =
        (first :: others).map serializePair :=
      List.splitOn_intercalate 38 (fun piece hpiece => (hpieces piece hpiece).1) (by simp)
    have hkept : ((first :: others).map serializePair).filter (· ≠ []) =
        (first :: others).map serializePair :=
      List.filter_eq_self.2 fun piece hpiece => decide_eq_true (hpieces piece hpiece).2
    rw [parse, hsplit, hkept, List.map_map]
    have hread : (first :: others).map (parsePair ∘ serializePair) = (first :: others).map id :=
      List.map_congr_left fun pair hpair => parsePair_serializePair (h pair hpair)
    rw [hread, List.map_id]

theorem mem_serialize (h : ∀ pair ∈ pairs, pair.Bytes) (hc : c ∈ serialize pairs) :
    37 ≤ c ∧ c ≤ 122 := by
  induction pairs with
  | nil => cases hc
  | cons pair pairs ih =>
    have hpair : ∀ c ∈ serializePair pair, 37 ≤ c ∧ c ≤ 122 := by
      intro c hc
      have hbytes := h pair List.mem_cons_self
      rcases List.mem_append.1 hc with hc | hc
      · exact ⟨(mem_encode hbytes.1 hc).1, (mem_encode hbytes.1 hc).2.1⟩
      · rcases List.mem_cons.1 hc with rfl | hc
        · omega
        · exact ⟨(mem_encode hbytes.2 hc).1, (mem_encode hbytes.2 hc).2.1⟩
    cases pairs with
    | nil =>
      rw [serialize, List.map_singleton, List.intercalate_singleton] at hc
      exact hpair c hc
    | cons next pairs =>
      rw [serialize, List.map_cons, List.map_cons, List.intercalate_cons_cons] at hc
      rcases List.mem_append.1 hc with hc | hc
      · rcases List.mem_append.1 hc with hc | hc
        · exact hpair c hc
        · obtain rfl := List.mem_singleton.1 hc
          omega
      · exact ih (fun p hp => h p (List.mem_cons_of_mem pair hp)) hc

end round

end FounderOs.FormUrl
