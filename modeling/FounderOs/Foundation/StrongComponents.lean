import FounderOs.Foundation.Components
import Mathlib.Data.List.Nodup
import Mathlib.Order.Lattice
import Mathlib.Logic.Relation

namespace FounderOs.Components

open Relation

variable {α : Type} [DecidableEq α] {targets : α → List α} {nodes path : List α}
variable {s t u : Search α} {node : α}

def Reach (targets : α → List α) : α → α → Prop := ReflTransGen fun a b => b ∈ targets a

/-- The nodes of the list are those that one node is in a cycle with, each listed once. -/
def Strong (targets : α → List α) (c : List α) : Prop :=
  c.Nodup ∧ ∃ root, ∀ b, b ∈ c ↔ Reach targets root b ∧ Reach targets b root

namespace Search

def Seen (s : Search α) (a : α) : Prop := (Dict.get s.indexes a).isSome

def number (s : Search α) (a : α) : Nat := (Dict.get s.indexes a).getD 0

/-- The nodes in `path` have been entered and not been left. -/
structure Sound (targets : α → List α) (nodes path : List α) (s : Search α) : Prop where
  below : ∀ a, s.Seen a → s.number a < s.index
  known : ∀ a, s.Seen a → a ∈ nodes
  seen : ∀ a, s.Seen a ↔ a ∈ s.stack ∨ a ∈ s.components.flatten
  apart : ∀ a ∈ s.stack, a ∉ s.components.flatten
  ordered : s.stack.Pairwise fun a b => s.number b < s.number a
  opened : ∀ a ∈ path, a ∈ s.stack
  left : ∀ a, s.Seen a → a ∉ path → ∀ b ∈ targets a, s.Seen b
  closed : ∀ a ∈ s.components.flatten, ∀ b ∈ targets a, b ∈ s.components.flatten
  upward : ∀ a ∈ s.stack, ∀ b ∈ s.stack, s.number a ≤ s.number b → Reach targets a b
  downward : ∀ b ∈ s.stack, ∃ a ∈ path, s.number a ≤ s.number b ∧ Reach targets b a
  strong : ∀ c ∈ s.components, Strong targets c
  disjoint : s.components.Pairwise List.Disjoint

/-- What is known of a node stays as it is. -/
structure Keeps (s t : Search α) : Prop where
  seen : ∀ a, s.Seen a → t.Seen a
  number : ∀ a, s.Seen a → t.number a = s.number a
  lowLink : ∀ a, s.Seen a → t.lowLink a = s.lowLink a

theorem Keeps.trans (h : s.Keeps t) (h' : t.Keeps u) : s.Keeps u where
  seen a ha := h'.seen a (h.seen a ha)
  number a ha := (h'.number a (h.seen a ha)).trans (h.number a ha)
  lowLink a ha := (h'.lowLink a (h.seen a ha)).trans (h.lowLink a ha)

section steps

variable {bound : Nat}

theorem not_seen_start (a : α) : ¬(start : Search α).Seen a := by simp [Seen, start, Dict.get]

theorem sound_start : (start : Search α).Sound targets nodes [] where
  below a ha := absurd ha (not_seen_start a)
  known a ha := absurd ha (not_seen_start a)
  seen a := by simp [Seen, start, Dict.get]
  apart _ ha := absurd ha List.not_mem_nil
  ordered := .nil
  opened _ ha := absurd ha List.not_mem_nil
  left a ha := absurd ha (not_seen_start a)
  closed _ ha := absurd ha List.not_mem_nil
  upward _ ha := absurd ha List.not_mem_nil
  downward _ ha := absurd ha List.not_mem_nil
  strong _ hc := absurd hc List.not_mem_nil
  disjoint := .nil

theorem seen_enter {a : α} : (s.enter node).Seen a ↔ a = node ∨ s.Seen a := by
  rw [Seen, enter, Dict.get_set]
  split
  · rename_i hsame
    simp [hsame]
  · rename_i hne
    simp [Ne.symm hne, Seen]

theorem number_enter_self : (s.enter node).number node = s.index := by
  simp [number, enter, Dict.get_set]

theorem number_enter {a : α} (h : a ≠ node) : (s.enter node).number a = s.number a := by
  simp [number, enter, Dict.get_set, h.symm]

theorem lowLink_enter_self : (s.enter node).lowLink node = s.index := by
  simp [lowLink, enter, Dict.get_set]

theorem keeps_enter (h : ¬s.Seen node) : s.Keeps (s.enter node) where
  seen a ha := seen_enter.2 (.inr ha)
  number a ha := number_enter fun hsame => h (hsame ▸ ha)
  lowLink a ha := by
    have hne : node ≠ a := fun hsame => h (hsame ▸ ha)
    simp [lowLink, enter, Dict.get_set, hne]

theorem lowLink_lower_self : (s.lower node bound).lowLink node = min (s.lowLink node) bound := by
  simp [lowLink, lower, Dict.get_set]

theorem Keeps.lower (h : s.Keeps t) (hnew : ¬s.Seen node) : s.Keeps (t.lower node bound) where
  seen := h.seen
  number := h.number
  lowLink a ha := by
    have hne : node ≠ a := fun hsame => hnew (hsame ▸ ha)
    have hlow : (t.lower node bound).lowLink a = t.lowLink a := by
      simp [Search.lowLink, Search.lower, Dict.get_set, hne]
    exact hlow.trans (h.lowLink a ha)

theorem Sound.reach_closed (h : s.Sound targets nodes path) {a b : α}
    (ha : a ∈ s.components.flatten) (hreach : Reach targets a b) : b ∈ s.components.flatten := by
  induction hreach with
  | refl => exact ha
  | tail _ hedge ih => exact h.closed _ ih _ hedge

theorem Sound.lower (h : s.Sound targets nodes path) :
    (s.lower node bound).Sound targets nodes path where
  below := h.below
  known := h.known
  seen := h.seen
  apart := h.apart
  ordered := h.ordered
  opened := h.opened
  left := h.left
  closed := h.closed
  upward := h.upward
  downward := h.downward
  strong := h.strong
  disjoint := h.disjoint

theorem Sound.enter (h : s.Sound targets nodes path) (hnode : node ∈ nodes) (hnew : ¬s.Seen node)
    (hpath : ∀ a ∈ path, Reach targets a node) :
    (s.enter node).Sound targets nodes (node :: path) := by
  have hstacked {a : α} (ha : a ∈ s.stack) : s.Seen a := (h.seen a).2 (.inl ha)
  have hnumber {a : α} (ha : a ∈ s.stack) : (s.enter node).number a = s.number a :=
    (keeps_enter hnew).number a (hstacked ha)
  have hless {a : α} (ha : a ∈ s.stack) : s.number a < s.index := h.below a (hstacked ha)
  refine ⟨?_, ?_, ?_, ?_, ?_, ?_, ?_, h.closed, ?_, ?_, h.strong, h.disjoint⟩
  · intro a ha
    show _ < s.index + 1
    rcases seen_enter.1 ha with rfl | hseen
    · rw [number_enter_self]
      exact Nat.lt_succ_self _
    · rw [(keeps_enter hnew).number a hseen]
      exact (h.below a hseen).trans (Nat.lt_succ_self _)
  · intro a ha
    rcases seen_enter.1 ha with rfl | hseen
    · exact hnode
    · exact h.known a hseen
  · intro a
    rw [seen_enter, h.seen a]
    show _ ↔ a ∈ node :: s.stack ∨ a ∈ s.components.flatten
    rw [List.mem_cons, or_assoc]
  · intro a ha
    rcases List.mem_cons.1 ha with rfl | hstack
    · exact fun hleft => hnew ((h.seen _).2 (.inr hleft))
    · exact h.apart a hstack
  · refine List.pairwise_cons.2 ⟨fun a ha => ?_, h.ordered.imp_of_mem fun ha hb hab => ?_⟩
    · rw [hnumber ha, number_enter_self]
      exact hless ha
    · rw [hnumber ha, hnumber hb]
      exact hab
  · intro a ha
    rcases List.mem_cons.1 ha with rfl | hopen
    · exact List.mem_cons_self
    · exact List.mem_cons_of_mem _ (h.opened a hopen)
  · intro a ha hopen b hb
    rw [List.mem_cons, not_or] at hopen
    have hseen := (seen_enter.1 ha).resolve_left hopen.1
    exact seen_enter.2 (.inr (h.left a hseen hopen.2 b hb))
  · intro a ha b hb hab
    rcases List.mem_cons.1 ha with hfirst | hin
    · rcases List.mem_cons.1 hb with hsame | hlower
      · rw [hfirst, hsame]
        exact .refl
      · rw [hfirst, number_enter_self, hnumber hlower] at hab
        exact absurd (hless hlower) (Nat.not_lt.2 hab)
    · rcases List.mem_cons.1 hb with hlast | hlower
      · obtain ⟨opened, hopened, -, hreach⟩ := h.downward a hin
        rw [hlast]
        exact hreach.trans (hpath opened hopened)
      · rw [hnumber hin, hnumber hlower] at hab
        exact h.upward a hin b hlower hab
  · intro b hb
    rcases List.mem_cons.1 hb with rfl | hb
    · exact ⟨b, List.mem_cons_self, le_rfl, .refl⟩
    · obtain ⟨a, ha, hab, hreach⟩ := h.downward b hb
      refine ⟨a, List.mem_cons_of_mem _ ha, ?_, hreach⟩
      rw [hnumber hb, hnumber (h.opened a ha)]
      exact hab

end steps

section visits

/-- What a visit of a node does. -/
structure Visited (targets : α → List α) (nodes path : List α) (s : Search α) (node : α)
    (t : Search α) : Prop where
  sound : t.Sound targets nodes path
  keeps : s.Keeps t
  seen : t.Seen node
  fresh : s.index ≤ t.number node
  stack : ∃ above, t.stack = above ++ s.stack ∧
    ∀ a ∈ above, ∀ b ∈ targets a, b ∈ s.stack → t.lowLink node ≤ t.number b
  low : t.lowLink node = t.number node ∨
    ∃ a ∈ t.stack, t.number a = t.lowLink node ∧ Reach targets node a

/-- A node whose first targets have been looked at; `above` is what was stacked over it. -/
structure Scanning (targets : α → List α) (nodes path : List α) (s : Search α) (node : α)
    (done above : List α) (t : Search α) : Prop where
  sound : t.Sound targets nodes (node :: path)
  keeps : s.Keeps t
  seen : t.Seen node
  fresh : s.index ≤ t.number node
  stack : t.stack = above ++ node :: s.stack
  doneSeen : ∀ b ∈ done, t.Seen b
  aboveLow : ∀ a ∈ above, ∀ b ∈ targets a, b ∈ s.stack → t.lowLink node ≤ t.number b
  doneLow : ∀ b ∈ done, b ∈ s.stack → t.lowLink node ≤ t.number b
  lowLe : t.lowLink node ≤ t.number node
  low : ∃ a ∈ t.stack, t.number a = t.lowLink node ∧ Reach targets node a

def unseen (s : Search α) (nodes : List α) : List α :=
  nodes.filter fun a => (Dict.get s.indexes a).isNone

theorem mem_unseen {a : α} : a ∈ s.unseen nodes ↔ a ∈ nodes ∧ ¬s.Seen a := by
  simp [unseen, Seen]

theorem unseen_lt (h : s.Keeps t) (hnode : node ∈ nodes) (hnew : ¬s.Seen node)
    (hseen : t.Seen node) : (t.unseen nodes).length < (s.unseen nodes).length := by
  have hsub : (t.unseen nodes).Sublist (s.unseen nodes) := by
    refine List.monotone_filter_right nodes fun a ha => ?_
    have hunseen : ¬t.Seen a := by simpa [Seen] using ha
    simpa [Seen] using fun hbefore => hunseen (h.seen a hbefore)
  refine Nat.lt_of_not_le fun hle => ?_
  have hin : node ∈ s.unseen nodes := mem_unseen.2 ⟨hnode, hnew⟩
  rw [← hsub.eq_of_length_le hle] at hin
  exact (mem_unseen.1 hin).2 hseen

theorem Scanning.start (h : s.Sound targets nodes path) (hnode : node ∈ nodes)
    (hnew : ¬s.Seen node) (hpath : ∀ a ∈ path, Reach targets a node) :
    Scanning targets nodes path s node [] [] (s.enter node) where
  sound := h.enter hnode hnew hpath
  keeps := keeps_enter hnew
  seen := seen_enter.2 (.inl rfl)
  fresh := number_enter_self.ge
  stack := rfl
  doneSeen _ hb := absurd hb List.not_mem_nil
  aboveLow _ ha := absurd ha List.not_mem_nil
  doneLow _ hb := absurd hb List.not_mem_nil
  lowLe := by rw [lowLink_enter_self, number_enter_self]
  low := ⟨node, List.mem_cons_self, by rw [lowLink_enter_self, number_enter_self], .refl⟩

variable {done above : List α} {target : α}

/-- A target that had not been seen is visited. -/
theorem Scanning.child (h : Scanning targets nodes path s node done above t) (hnew : ¬s.Seen node)
    (htarget : target ∈ targets node) (hunseen : ¬t.Seen target)
    (hvisit : Visited targets nodes (node :: path) t target u) :
    ∃ above', Scanning targets nodes path s node (done ++ [target]) above'
      (u.lower node (u.lowLink target)) := by
  obtain ⟨piled, hpiled, hpiledLow⟩ := hvisit.stack
  have hstack {b : α} (hb : b ∈ s.stack) : b ∈ t.stack := by
    rw [h.stack]
    exact List.mem_append_right _ (List.mem_cons_of_mem _ hb)
  have hstacked {b : α} (hb : b ∈ t.stack) : t.Seen b := (h.sound.seen b).2 (.inl hb)
  have hnode : u.lowLink node = t.lowLink node := hvisit.keeps.lowLink node h.seen
  have hnumber {b : α} (hb : b ∈ t.stack) : u.number b = t.number b :=
    hvisit.keeps.number b (hstacked hb)
  refine ⟨piled ++ above, hvisit.sound.lower, (h.keeps.trans hvisit.keeps).lower hnew,
    hvisit.keeps.seen node h.seen, ?_, ?_, ?_, ?_, ?_, ?_, ?_⟩
  · exact h.fresh.trans (hvisit.keeps.number node h.seen).ge
  · show u.stack = _
    rw [hpiled, h.stack, List.append_assoc]
  · intro b hb
    rcases List.mem_append.1 hb with hb | hb
    · exact hvisit.keeps.seen b (h.doneSeen b hb)
    · rw [List.mem_singleton.1 hb]
      exact hvisit.seen
  · intro a ha b hb hbelow
    rw [lowLink_lower_self]
    show _ ≤ u.number b
    rcases List.mem_append.1 ha with ha | ha
    · exact (Nat.min_le_right _ _).trans (hpiledLow a ha b hb (hstack hbelow))
    · rw [hnode, hnumber (hstack hbelow)]
      exact (Nat.min_le_left _ _).trans (h.aboveLow a ha b hb hbelow)
  · intro b hb hbelow
    rw [lowLink_lower_self]
    show _ ≤ u.number b
    rcases List.mem_append.1 hb with hb | hb
    · rw [hnode, hnumber (hstack hbelow)]
      exact (Nat.min_le_left _ _).trans (h.doneLow b hb hbelow)
    · rw [List.mem_singleton.1 hb] at hbelow
      exact absurd (hstacked (hstack hbelow)) hunseen
  · rw [lowLink_lower_self, hnode]
    show _ ≤ u.number node
    rw [hvisit.keeps.number node h.seen]
    exact (Nat.min_le_left _ _).trans h.lowLe
  · rw [lowLink_lower_self, hnode]
    show ∃ a ∈ u.stack, u.number a = _ ∧ _
    by_cases hlower : u.lowLink target < t.lowLink node
    · -- A lower link of the target is not its own number, which is greater than the node's.
      have hnumberNode : t.number node < t.index := h.sound.below node h.seen
      obtain heq | ⟨a, ha, hlow, hreach⟩ := hvisit.low
      · have := hvisit.fresh
        have := h.lowLe
        omega
      · refine ⟨a, ha, ?_, hreach.head htarget⟩
        rw [hlow, Nat.min_eq_right hlower.le]
    · obtain ⟨a, ha, hlow, hreach⟩ := h.low
      refine ⟨a, ?_, ?_, hreach⟩
      · rw [hpiled]
        exact List.mem_append_right _ ha
      · rw [hnumber ha, hlow, Nat.min_eq_left (Nat.not_lt.1 hlower)]

/-- A target that is on the stack is not visited again. -/
theorem Scanning.stacked (h : Scanning targets nodes path s node done above t) (hnew : ¬s.Seen node)
    (htarget : target ∈ targets node) (hin : target ∈ t.stack) :
    Scanning targets nodes path s node (done ++ [target]) above
      (t.lower node (t.number target)) := by
  refine ⟨h.sound.lower, h.keeps.lower hnew, h.seen, h.fresh, h.stack, ?_, ?_, ?_, ?_, ?_⟩
  · intro b hb
    rcases List.mem_append.1 hb with hb | hb
    · exact h.doneSeen b hb
    · rw [List.mem_singleton.1 hb]
      exact (h.sound.seen target).2 (.inl hin)
  · intro a ha b hb hbelow
    rw [lowLink_lower_self]
    exact (Nat.min_le_left _ _).trans (h.aboveLow a ha b hb hbelow)
  · intro b hb hbelow
    rw [lowLink_lower_self]
    rcases List.mem_append.1 hb with hb | hb
    · exact (Nat.min_le_left _ _).trans (h.doneLow b hb hbelow)
    · rw [List.mem_singleton.1 hb]
      exact Nat.min_le_right _ _
  · rw [lowLink_lower_self]
    exact (Nat.min_le_left _ _).trans h.lowLe
  · rw [lowLink_lower_self]
    rcases Nat.le_total (t.lowLink node) (t.number target) with hle | hle
    · rw [Nat.min_eq_left hle]
      exact h.low
    · rw [Nat.min_eq_right hle]
      exact ⟨target, hin, rfl, .single htarget⟩

theorem Scanning.finished (h : Scanning targets nodes path s node done above t)
    (hseen : t.Seen target) (hout : target ∉ t.stack) :
    Scanning targets nodes path s node (done ++ [target]) above t :=
  { h with
    doneSeen := by
      intro b hb
      rcases List.mem_append.1 hb with hb | hb
      · exact h.doneSeen b hb
      · rw [List.mem_singleton.1 hb]
        exact hseen
    doneLow := by
      intro b hb hbelow
      rcases List.mem_append.1 hb with hb | hb
      · exact h.doneLow b hb hbelow
      · rw [List.mem_singleton.1 hb] at hbelow
        refine absurd ?_ hout
        rw [h.stack]
        exact List.mem_append_right _ (List.mem_cons_of_mem _ hbelow) }

end visits

section leaving

variable {above : List α}

theorem number_of_seen {a : α} (h : s.Seen a) : Dict.get s.indexes a = some (s.number a) := by
  obtain ⟨n, hn⟩ := Option.isSome_iff_exists.1 h
  rw [number, hn]
  rfl

theorem leave_of_ne (hseen : t.Seen node) (h : t.lowLink node ≠ t.number node) :
    t.leave node = t := by
  rw [leave, number_of_seen hseen, if_neg]
  exact fun hsame => h (Option.some.inj hsame).symm

theorem leave_of_eq {rest : List α} (hseen : t.Seen node) (h : t.lowLink node = t.number node)
    (hstack : t.stack = above ++ node :: rest) (hnot : node ∉ above) :
    t.leave node = { t with
      stack := rest
      components := t.components ++ [above ++ [node]] } := by
  have hbefore : ∀ a ∈ above, decide (a ≠ node) = true := by
    intro a ha
    exact decide_eq_true fun hsame => hnot (hsame ▸ ha)
  rw [leave, number_of_seen hseen, h, if_pos rfl, hstack, List.dropWhile_append_of_pos hbefore,
    List.takeWhile_append_of_pos hbefore]
  simp

namespace Scanning

variable (h : Scanning targets nodes path s node (targets node) above t)

include h

theorem parts : (∀ a ∈ above, t.number node < t.number a) ∧
    (∀ a ∈ above, ∀ b ∈ s.stack, t.number b < t.number a) ∧
      (∀ b ∈ s.stack, t.number b < t.number node) ∧ s.stack.Pairwise fun a b =>
        t.number b < t.number a := by
  have hordered := h.sound.ordered
  rw [h.stack, List.pairwise_append, List.pairwise_cons] at hordered
  obtain ⟨-, ⟨hnode, hrest⟩, habove⟩ := hordered
  exact ⟨fun a ha => habove a ha node List.mem_cons_self,
    fun a ha b hb => habove a ha b (List.mem_cons_of_mem _ hb), hnode, hrest⟩

theorem mem_stack {a : α} : a ∈ t.stack ↔ a ∈ above ++ [node] ∨ a ∈ s.stack := by
  rw [h.stack]
  simp [or_assoc]

theorem targets_seen {a : α} (ha : t.Seen a) (hopen : a ∉ path) : ∀ b ∈ targets a, t.Seen b := by
  by_cases hnode : a = node
  · rw [hnode]
    exact h.doneSeen
  · refine h.sound.left a ha fun hin => ?_
    rcases List.mem_cons.1 hin with hsame | hin
    · exact hnode hsame
    · exact hopen hin

/-- Where the node reaches below itself, it stays on the stack. -/
theorem stays (hlow : t.lowLink node ≠ t.number node) :
    Visited targets nodes path s node t := by
  obtain ⟨reached, hreached, hnumber, hreach⟩ := h.low
  have hless : t.number reached < t.number node := by
    have := h.lowLe
    omega
  refine ⟨{ h.sound with
    opened := fun a ha => h.sound.opened a (List.mem_cons_of_mem _ ha)
    left := fun a ha hopen => h.targets_seen ha hopen
    downward := ?_ }, h.keeps, h.seen, h.fresh, ⟨above ++ [node], by rw [h.stack]; simp, ?_⟩,
    .inr h.low⟩
  · intro b hb
    obtain ⟨a, ha, hab, hba⟩ := h.sound.downward b hb
    rcases List.mem_cons.1 ha with rfl | ha
    · obtain ⟨first, hfirst, hle, hto⟩ := h.sound.downward reached hreached
      rcases List.mem_cons.1 hfirst with rfl | hfirst
      · exact absurd hless (Nat.not_lt.2 hle)
      · exact ⟨first, hfirst, by omega, (hba.trans hreach).trans hto⟩
    · exact ⟨a, ha, hab, hba⟩
  · intro a ha b hb hin
    rcases List.mem_append.1 ha with ha | ha
    · exact h.aboveLow a ha b hb hin
    · rw [List.mem_singleton.1 ha] at hb
      exact h.doneLow b hb hin

/-- Otherwise nothing leads from the node, or from what is stacked over it, further down. -/
theorem outward (hs : s.Sound targets nodes path) (hlow : t.lowLink node = t.number node) {a b : α}
    (ha : a ∈ above ++ [node]) (hb : b ∈ targets a) :
    b ∈ above ++ [node] ∨ b ∈ t.components.flatten := by
  obtain ⟨habove, habove', hbelow, -⟩ := h.parts
  have hseen : t.Seen a := (h.sound.seen a).2 (.inl (h.mem_stack.2 (.inl ha)))
  have hopen : a ∉ path := by
    intro hin
    have hlower := hs.opened a hin
    rcases List.mem_append.1 ha with ha | ha
    · exact lt_irrefl _ (habove' a ha a hlower)
    · rw [List.mem_singleton.1 ha] at hlower
      exact lt_irrefl _ (hbelow node hlower)
  have htarget : t.Seen b := h.targets_seen hseen hopen b hb
  rcases (h.sound.seen b).1 htarget with hin | hout
  · rcases h.mem_stack.1 hin with hin | hin
    · exact .inl hin
    · have hless := hbelow b hin
      rcases List.mem_append.1 ha with ha | ha
      · exact absurd (h.aboveLow a ha b hb hin) (by omega)
      · rw [List.mem_singleton.1 ha] at hb
        exact absurd (h.doneLow b hb hin) (by omega)
  · exact .inr hout

theorem pushed_nodup : (above ++ [node]).Nodup ∧ ∀ a ∈ above ++ [node], a ∉ s.stack := by
  have hnodup : t.stack.Nodup := by
    refine h.sound.ordered.imp fun {a b} hless hsame => ?_
    rw [hsame] at hless
    exact lt_irrefl _ hless
  have hall : t.stack = (above ++ [node]) ++ s.stack := by
    rw [h.stack]
    simp
  rw [hall, List.nodup_append] at hnodup
  exact ⟨hnodup.1, fun a ha hin => hnodup.2.2 a ha a hin rfl⟩

theorem pushed_strong (hs : s.Sound targets nodes path) (hlow : t.lowLink node = t.number node) :
    Strong targets (above ++ [node]) := by
  obtain ⟨habove, -, hbelow, -⟩ := h.parts
  have hnode : node ∈ t.stack := h.mem_stack.2 (.inl (List.mem_append_right _ List.mem_cons_self))
  -- What the node reaches is stacked over it, or had been left for good and leads nowhere else.
  have hreached {b : α} (hto : Reach targets node b) :
      b ∈ above ++ [node] ∨ b ∈ t.components.flatten := by
    induction hto with
    | refl => exact .inl (List.mem_append_right _ List.mem_cons_self)
    | tail _ hedge ih =>
      rcases ih with hin | hout
      · exact h.outward hs hlow hin hedge
      · exact .inr (h.sound.closed _ hout _ hedge)
  refine ⟨h.pushed_nodup.1, node, fun b => ⟨fun hb => ?_, fun ⟨hto, hback⟩ => ?_⟩⟩
  · have hin : b ∈ t.stack := h.mem_stack.2 (.inl hb)
    have hle : t.number node ≤ t.number b := by
      rcases List.mem_append.1 hb with hb | hb
      · exact (habove b hb).le
      · rw [List.mem_singleton.1 hb]
    refine ⟨h.sound.upward node hnode b hin hle, ?_⟩
    obtain ⟨a, ha, -, hreach⟩ := h.sound.downward b hin
    rcases List.mem_cons.1 ha with rfl | ha
    · exact hreach
    · have hlower := hs.opened a ha
      exact hreach.trans (h.sound.upward a (h.mem_stack.2 (.inr hlower)) node hnode
        (hbelow a hlower).le)
  · exact (hreached hto).resolve_right fun hout =>
      h.sound.apart node hnode (h.sound.reach_closed hout hback)

/-- Where it does not, the node and what is stacked over it are a component. -/
theorem pops (hs : s.Sound targets nodes path) (hlow : t.lowLink node = t.number node) :
    Visited targets nodes path s node { t with
      stack := s.stack
      components := t.components ++ [above ++ [node]] } := by
  obtain ⟨-, -, hbelow, hordered⟩ := h.parts
  have hin {b : α} (hb : b ∈ s.stack) : b ∈ t.stack := h.mem_stack.2 (.inr hb)
  have hflat {a : α} : a ∈ (t.components ++ [above ++ [node]]).flatten ↔
      a ∈ t.components.flatten ∨ a ∈ above ++ [node] := by
    rw [List.flatten_append, List.mem_append, List.flatten_singleton]
  have hpushed {a : α} (ha : a ∈ above ++ [node]) : a ∈ t.stack := h.mem_stack.2 (.inl ha)
  refine ⟨⟨h.sound.below, h.sound.known, ?_, ?_, hordered, hs.opened, ?_, ?_, ?_, ?_, ?_, ?_⟩,
    ⟨h.keeps.seen, h.keeps.number, h.keeps.lowLink⟩, h.seen, h.fresh,
    ⟨[], rfl, fun a ha => absurd ha List.not_mem_nil⟩, .inl hlow⟩
  · intro a
    rw [hflat]
    refine (h.sound.seen a).trans ?_
    rw [h.mem_stack]
    tauto
  · intro a ha
    rw [hflat, not_or]
    exact ⟨h.sound.apart a (hin ha), fun hpush => h.pushed_nodup.2 a hpush ha⟩
  · exact fun a ha hopen => h.targets_seen ha hopen
  · intro a ha b hb
    rw [hflat] at ha ⊢
    rcases ha with ha | ha
    · exact .inl (h.sound.closed a ha b hb)
    · exact (h.outward hs hlow ha hb).symm
  · exact fun a ha b hb hab => h.sound.upward a (hin ha) b (hin hb) hab
  · intro b hb
    obtain ⟨a, ha, hab, hreach⟩ := h.sound.downward b (hin hb)
    rcases List.mem_cons.1 ha with rfl | ha
    · exact absurd (hbelow b hb) (Nat.not_lt.2 hab)
    · exact ⟨a, ha, hab, hreach⟩
  · intro c hc
    rcases List.mem_append.1 hc with hc | hc
    · exact h.sound.strong c hc
    · rw [List.mem_singleton.1 hc]
      exact h.pushed_strong hs hlow
  · refine List.pairwise_append.2 ⟨h.sound.disjoint, List.pairwise_singleton _ _, ?_⟩
    intro c hc d hd a ha hpush
    rw [List.mem_singleton.1 hd] at hpush
    exact h.sound.apart a (hpushed hpush) (List.mem_flatten.2 ⟨c, hc, ha⟩)

theorem leave (hs : s.Sound targets nodes path) :
    Visited targets nodes path s node (t.leave node) := by
  by_cases hlow : t.lowLink node = t.number node
  · have hnot : node ∉ above := fun hin => lt_irrefl _ (h.parts.1 node hin)
    rw [leave_of_eq h.seen hlow h.stack hnot]
    exact h.pops hs hlow
  · rw [leave_of_ne h.seen hlow]
    exact h.stays hlow

end Scanning

end leaving

section runs

/-- The loop over the targets of a node, whatever visits those that had not been seen. -/
theorem scan_spec {f : Search α → α → Search α} {g : α → Search α → Search α}
    {rest done above : List α} (hs : s.Sound targets nodes path) (hnew : ¬s.Seen node)
    (hunseen : ∀ t target, Dict.get t.indexes target = none →
      f t target = (g target t).lower node ((g target t).lowLink target))
    (hseen : ∀ t target index, Dict.get t.indexes target = some index →
      f t target = if t.stack.contains target then t.lower node index else t)
    (hvisit : ∀ done above t target, Scanning targets nodes path s node done above t →
      target ∈ targets node → ¬t.Seen target →
        Visited targets nodes (node :: path) t target (g target t))
    (hsplit : done ++ rest = targets node) (h : Scanning targets nodes path s node done above t) :
    Visited targets nodes path s node ((rest.foldl f t).leave node) := by
  induction rest generalizing done above t with
  | nil =>
    rw [List.append_nil] at hsplit
    rw [hsplit] at h
    exact h.leave hs
  | cons target rest ih =>
    have htarget : target ∈ targets node := hsplit ▸ List.mem_append_right _ List.mem_cons_self
    have hnext : (done ++ [target]) ++ rest = targets node := by
      rw [List.append_assoc]
      exact hsplit
    rw [List.foldl_cons]
    cases hindex : Dict.get t.indexes target with
    | none =>
      have hnone : ¬t.Seen target := by simp [Seen, hindex]
      obtain ⟨above', hchild⟩ :=
        h.child hnew htarget hnone (hvisit done above t target h htarget hnone)
      rw [hunseen t target hindex]
      exact ih hnext hchild
    | some index =>
      have hsome : t.Seen target := by simp [Seen, hindex]
      have hnumber : t.number target = index := by simp [number, hindex]
      rw [hseen t target index hindex]
      split
      · rename_i hin
        rw [List.contains_iff_mem] at hin
        exact ih hnext (hnumber ▸ h.stacked hnew htarget hin)
      · rename_i hout
        rw [List.contains_iff_mem] at hout
        exact ih hnext (h.finished hsome hout)

variable (hclosed : ∀ a ∈ nodes, ∀ b ∈ targets a, b ∈ nodes)

include hclosed

theorem visit_spec {fuel : Nat} (hs : s.Sound targets nodes path) (hnode : node ∈ nodes)
    (hnew : ¬s.Seen node) (hfuel : (s.unseen nodes).length ≤ fuel)
    (hpath : ∀ a ∈ path, Reach targets a node) :
    Visited targets nodes path s node (visit targets fuel node s) := by
  induction fuel generalizing s node path with
  | zero =>
    have hnone := List.eq_nil_of_length_eq_zero (Nat.le_zero.1 hfuel)
    have hin : node ∈ s.unseen nodes := mem_unseen.2 ⟨hnode, hnew⟩
    rw [hnone] at hin
    cases hin
  | succ fuel ih =>
    rw [visit]
    refine scan_spec (g := visit targets fuel) hs hnew (fun t target hnone => ?_)
      (fun t target index hsome => ?_) ?_ (List.nil_append _) (Scanning.start hs hnode hnew hpath)
    · simp only [hnone]
    · simp only [hsome]
    · intro done above t target h htarget hunseen
      have hless := unseen_lt h.keeps hnode hnew h.seen
      refine ih h.sound (hclosed node hnode target htarget) hunseen (by omega) fun a ha => ?_
      rcases List.mem_cons.1 ha with rfl | ha
      · exact .single htarget
      · exact (hpath a ha).tail htarget

theorem search_spec :
    (search targets nodes).Sound targets nodes [] ∧ ∀ a ∈ nodes, (search targets nodes).Seen a := by
  have hrun {rest : List α} {s : Search α} (hrest : ∀ a ∈ rest, a ∈ nodes)
      (hs : s.Sound targets nodes []) :
      let t := rest.foldl (fun s node =>
        if (Dict.get s.indexes node).isSome then s else visit targets nodes.length node s) s
      t.Sound targets nodes [] ∧ (∀ a, s.Seen a → t.Seen a) ∧ ∀ a ∈ rest, t.Seen a := by
    induction rest generalizing s with
    | nil => exact ⟨hs, fun _ ha => ha, fun _ ha => absurd ha List.not_mem_nil⟩
    | cons node rest ih =>
      have hhead := hrest node List.mem_cons_self
      have htail : ∀ a ∈ rest, a ∈ nodes := fun a ha => hrest a (List.mem_cons_of_mem _ ha)
      rw [List.foldl_cons]
      split
      · rename_i hseen
        obtain ⟨hsound, hkept, hall⟩ := ih htail hs
        refine ⟨hsound, hkept, fun a ha => ?_⟩
        rcases List.mem_cons.1 ha with rfl | ha
        · exact hkept _ hseen
        · exact hall a ha
      · rename_i hnew
        have hfuel : (s.unseen nodes).length ≤ nodes.length := List.length_filter_le _ _
        have hvisit := visit_spec hclosed hs hhead hnew hfuel fun a ha => absurd ha List.not_mem_nil
        obtain ⟨hsound, hkept, hall⟩ := ih htail hvisit.sound
        refine ⟨hsound, fun a ha => hkept a (hvisit.keeps.seen a ha), fun a ha => ?_⟩
        rcases List.mem_cons.1 ha with rfl | ha
        · exact hkept _ hvisit.seen
        · exact hall a ha
  obtain ⟨hsound, -, hseen⟩ := hrun (fun _ ha => ha) sound_start
  exact ⟨hsound, hseen⟩

end runs

end Search

/-- The search lists each strongly connected component once. -/
theorem components_spec (hclosed : ∀ a ∈ nodes, ∀ b ∈ targets a, b ∈ nodes) :
    (∀ c ∈ components targets nodes, Strong targets c) ∧
    (components targets nodes).Pairwise List.Disjoint ∧
      ∀ a, a ∈ (components targets nodes).flatten ↔ a ∈ nodes := by
  obtain ⟨hsound, hseen⟩ := Search.search_spec hclosed
  refine ⟨hsound.strong, hsound.disjoint, fun a => ⟨fun ha => ?_, fun ha => ?_⟩⟩
  · exact hsound.known a ((hsound.seen a).2 (.inr ha))
  · refine ((hsound.seen a).1 (hseen a ha)).resolve_left fun hin => ?_
    obtain ⟨first, hfirst, -⟩ := hsound.downward a hin
    exact List.not_mem_nil hfirst

end FounderOs.Components
