import Lexing.Proofs.WordTree
import Lexing.WordArena

/-!
# What word arenas spell

An arena that was made by inserting words has no index outside itself: each node spells a text of
its own, the root the empty one, and goes on with a code point to the node that spells the longer
text if there is one. The longest word that the walk from the root finds is the one that the tree of
the words finds.

## Main definitions

* `WordArena.Represents` : what the nodes of an arena spell.
* `IsLongestMatch` : the greatest length of a word at the beginning of a text.

## Main results

* `WordArena.Represents.exists_insertFrom?` : a word is inserted.
* `WordArena.exists_ofWords?` : an arena is made of any words.
* `WordArena.exists_longest?` : the walk finds the longest word and consumes nothing.
-/

namespace Lexing

open Scanner

/-- Looking at a code point changes nothing that a scanner shows. -/
theorem Scanner.restores_peek (s : Scanner) (i : Int) : s.Restores (s.peek i).2 where
  view := by
    cases i with
    | ofNat n => simp [peek, view, upcoming]
    | negSucc n => rfl
  isClean := (consumes_peek s i).isClean

/-! ### Longest matches -/

/-- The number is the greatest length of a word that the text begins with, or 0 if there is none. -/
structure IsLongestMatch (words : List String) (text : List Char) (n : Nat) : Prop where
  found : n ≠ 0 → ∃ word ∈ words, word.toList <+: text ∧ word.toList.length = n
  length_le : ∀ word ∈ words, word.toList <+: text → word.toList.length ≤ n

namespace IsLongestMatch

variable {words words' : List String} {text : List Char} {m n : Nat}

theorem le (hm : IsLongestMatch words text m) (hn : IsLongestMatch words text n) : m ≤ n := by
  by_cases hzero : m = 0
  · omega
  · obtain ⟨word, hword, hbegins, rfl⟩ := hm.found hzero
    exact hn.length_le word hword hbegins

theorem unique (hm : IsLongestMatch words text m) (hn : IsLongestMatch words text n) : m = n :=
  Nat.le_antisymm (hm.le hn) (hn.le hm)

/-- The order and the number of times in which words are listed do not matter. -/
theorem of_mem_iff (h : IsLongestMatch words text n) (hwords : ∀ w, w ∈ words' ↔ w ∈ words) :
    IsLongestMatch words' text n where
  found hn := by
    obtain ⟨word, hword, hmatch⟩ := h.found hn
    exact ⟨word, (hwords word).mpr hword, hmatch⟩
  length_le word hword := h.length_le word ((hwords word).mp hword)

end IsLongestMatch

/-- The tree of words finds the longest of them. -/
theorem WordTree.isLongestMatch_ofWords (words : List String) (text : List Char) :
    IsLongestMatch words text ((ofWords words).longest text) where
  found hn := by
    obtain ⟨word, hword, htake, -⟩ := contains_ofWords.mp (contains_take_longest hn)
    refine ⟨word, hword, htake ▸ List.take_prefix .., ?_⟩
    rw [htake, List.length_take]
    exact Nat.min_eq_left (longest_le_length ..)
  length_le word hword hbegins := by
    by_cases hnil : word.toList = []
    · simp [hnil]
    · exact length_le_longest (contains_ofWords.mpr ⟨word, hword, rfl, hnil⟩) hbegins

/-! ### What nodes spell -/

namespace WordArena

/-- The nodes of the arena spell different texts, the root the empty one, and all beginnings of a
text are spelled. A node goes on with a code point to the node that spells the longer text. The
nodes where a word ends are those that spell one of the words, each of which is spelled. -/
structure Represents (a : WordArena) (texts : Array (List Char)) (words : List String) : Prop where
  size_eq : texts.size = a.nodes.size
  root : texts[0]? = some []
  unique : ∀ {i j : Nat} {w}, texts[i]? = some w → texts[j]? = some w → i = j
  shorter : ∀ {j : Nat} {w c}, texts[j]? = some (w ++ [c]) → ∃ i : Nat, texts[i]? = some w
  child : ∀ {i : Nat} {node w}, a.nodes[i]? = some node → texts[i]? = some w →
    ∀ c j, node.children.lookup c = some j ↔ texts[j]? = some (w ++ [c])
  ends : ∀ {i : Nat} {node w}, a.nodes[i]? = some node → texts[i]? = some w →
    (node.ends = true ↔ ∃ word ∈ words, word.toList = w)
  spelled : ∀ word ∈ words, ∃ i : Nat, texts[i]? = some word.toList

/-- The arena with one more node, which the node `i` goes on to with `c`. -/
def grown (a : WordArena) (i : Nat) (c : Char) : WordArena :=
  ⟨(a.nodes.push {}).modify i fun n => { n with children := n.children ++ [(c, a.nodes.size)] }⟩

variable {a : WordArena} {texts : Array (List Char)} {words : List String} {i : Nat}
  {u : List Char}

/-- An arena without words has the root only. -/
theorem represents_empty : Represents {} #[[]] [] := by
  have htexts {i : Nat} {w} (h : #[([] : List Char)][i]? = some w) : i = 0 ∧ w = [] := by
    rw [Array.getElem?_eq_some_iff] at h
    grind
  have hnodes {i : Nat} {node} (h : ({} : WordArena).nodes[i]? = some node) : node = {} := by
    rw [Array.getElem?_eq_some_iff] at h
    grind
  have hlonger (j : Nat) (w : List Char) (c : Char) :
      #[([] : List Char)][j]? ≠ some (w ++ [c]) := by
    intro hj
    simpa using (htexts hj).2
  refine ⟨rfl, rfl, ?_, ?_, ?_, ?_, fun word hword => absurd hword List.not_mem_nil⟩
  · intro i j w hi hj
    rw [(htexts hi).1, (htexts hj).1]
  · intro j w c hj
    exact absurd hj (hlonger j w c)
  · intro i node w hnode hw c j
    rw [hnodes hnode]
    simpa using hlonger j w c
  · intro i node w hnode hw
    rw [hnodes hnode]
    simp

theorem extend?_of_child?_eq_none {c : Char} (h : a.child? i c = some none) :
    a.extend? i c = some (a.nodes.size, a.grown i c) := by
  obtain ⟨node, hnode, -⟩ := Option.map_eq_some_iff.mp h
  obtain ⟨hlt, -⟩ := Array.getElem?_eq_some_iff.mp hnode
  simp [extend?, h, update?, grown, Nat.lt_succ_of_lt hlt]

/-- A node of the larger arena is the new one, the one that goes on to it, or as before. -/
theorem nodes_grown (hi : i < a.nodes.size) (c : Char) (k : Nat) :
    (a.grown i c).nodes[k]? =
      if k = a.nodes.size then some {}
      else if k = i then a.nodes[k]?.map fun n =>
        { n with children := n.children ++ [(c, a.nodes.size)] }
      else a.nodes[k]? := by
  rw [grown, Array.getElem?_modify, Array.getElem?_push]
  grind

namespace Represents

theorem exists_node (h : a.Represents texts words) (hu : texts[i]? = some u) :
    ∃ node, a.nodes[i]? = some node := by
  obtain ⟨hlt, -⟩ := Array.getElem?_eq_some_iff.mp hu
  rw [h.size_eq] at hlt
  exact ⟨_, Array.getElem?_eq_getElem hlt⟩

/-- Where a text is spelled, so are its beginnings. -/
theorem exists_of_append (h : a.Represents texts words) (v : List Char)
    (hu : texts[i]? = some (u ++ v)) : ∃ j : Nat, texts[j]? = some u := by
  induction v using List.reverseRecOn generalizing i with
  | nil => exact ⟨i, by simpa using hu⟩
  | append_singleton v c ih =>
    rw [← List.append_assoc] at hu
    obtain ⟨j, hj⟩ := h.shorter hu
    exact ih hj

/-- The node that a node goes on to is in the arena. -/
theorem child?_eq (h : a.Represents texts words) (hu : texts[i]? = some u) (c : Char) :
    (∃ j, a.child? i c = some (some j) ∧ texts[j]? = some (u ++ [c])) ∨
      a.child? i c = some none ∧ ∀ j : Nat, texts[j]? ≠ some (u ++ [c]) := by
  obtain ⟨node, hnode⟩ := h.exists_node hu
  have hchild := h.child hnode hu c
  rw [child?, hnode, Option.map_some]
  cases hlookup : node.children.lookup c with
  | some j => exact .inl ⟨j, rfl, (hchild j).mp hlookup⟩
  | none =>
    refine .inr ⟨rfl, fun j hj => ?_⟩
    rw [(hchild j).mpr hj] at hlookup
    cases hlookup

theorem text_of_child? (h : a.Represents texts words) (hu : texts[i]? = some u) {c : Char}
    {j : Nat} (hchild : a.child? i c = some (some j)) : texts[j]? = some (u ++ [c]) := by
  obtain ⟨node, hnode, hlookup⟩ := Option.map_eq_some_iff.mp hchild
  exact (h.child hnode hu c j).mp hlookup

/-- A word that ends at a node is marked there. -/
theorem update?_ends (h : a.Represents texts words) (word : String)
    (hword : texts[i]? = some word.toList) :
    ∃ b, a.update? i (fun n => { n with ends := true }) = some b ∧
      b.Represents texts (words ++ [word]) := by
  obtain ⟨hlt, -⟩ := Array.getElem?_eq_some_iff.mp hword
  rw [h.size_eq] at hlt
  refine ⟨_, if_pos hlt, by simpa using h.size_eq, h.root, h.unique, h.shorter, ?_, ?_, ?_⟩
  · intro k node w hnode hw
    rw [Array.getElem?_modify] at hnode
    split at hnode
    · obtain ⟨old, hold, rfl⟩ := Option.map_eq_some_iff.mp hnode
      have hchild := h.child hold hw
      exact hchild
    · exact h.child hnode hw
  · intro k node w hnode hw
    rw [Array.getElem?_modify] at hnode
    split at hnode
    · rename_i hik
      subst hik
      obtain ⟨old, hold, rfl⟩ := Option.map_eq_some_iff.mp hnode
      obtain rfl := Option.some.inj (hword.symm.trans hw)
      simp
    · rename_i hik
      rw [h.ends hnode hw]
      -- Another node does not spell the word.
      have hne : word.toList ≠ w := fun heq => hik (h.unique hword (heq ▸ hw))
      simp [hne, or_and_right, exists_or]
  · intro other hother
    rcases List.mem_append.mp hother with hmem | hmem
    · exact h.spelled other hmem
    · rw [List.mem_singleton.mp hmem]
      exact ⟨i, hword⟩

/-- A node of the larger arena spells the new text or what it spelled before. -/
theorem push_eq_some_iff (h : a.Represents texts words) {v w : List Char} {j : Nat} :
    (texts.push v)[j]? = some w ↔ j = a.nodes.size ∧ v = w ∨ texts[j]? = some w := by
  rw [Array.getElem?_push, h.size_eq]
  split
  · rename_i hj
    simp [hj, ← h.size_eq]
  · rename_i hj
    simp [hj]

theorem ne_size (h : a.Represents texts words) (hu : texts[i]? = some u) : i ≠ a.nodes.size := by
  obtain ⟨hlt, -⟩ := Array.getElem?_eq_some_iff.mp hu
  rw [h.size_eq] at hlt
  exact Nat.ne_of_lt hlt

/-- In the larger arena the nodes go on to the nodes that spell the longer texts. -/
theorem child_grown (h : a.Represents texts words) (hu : texts[i]? = some u) {c : Char}
    (hne : ∀ j : Nat, texts[j]? ≠ some (u ++ [c])) {k : Nat} {node : Node} {w : List Char}
    (hnode : (a.grown i c).nodes[k]? = some node)
    (hw : (texts.push (u ++ [c]))[k]? = some w) (d : Char) (j : Nat) :
    node.children.lookup d = some j ↔ (texts.push (u ++ [c]))[j]? = some (w ++ [d]) := by
  obtain ⟨hlt, -⟩ := Array.getElem?_eq_some_iff.mp hu
  rw [nodes_grown (h.size_eq ▸ hlt)] at hnode
  rw [h.push_eq_some_iff]
  rcases h.push_eq_some_iff.mp hw with ⟨rfl, rfl⟩ | hw
  · -- The new node does not go on, since no text longer than its own is spelled.
    rw [if_pos rfl] at hnode
    obtain rfl := Option.some.inj hnode
    refine ⟨fun hnone => absurd hnone.symm (Option.some_ne_none j), ?_⟩
    rintro (⟨-, hlonger⟩ | hlonger)
    · simp at hlonger
    · obtain ⟨k, hk⟩ := h.shorter hlonger
      exact absurd hk (hne k)
  · rw [if_neg (h.ne_size hw)] at hnode
    split at hnode
    · rename_i hk
      subst hk
      obtain ⟨old, hold, rfl⟩ := Option.map_eq_some_iff.mp hnode
      obtain rfl := Option.some.inj (hu.symm.trans hw)
      have hchild := h.child hold hu
      by_cases hd : d = c
      · subst hd
        have hnone : old.children.lookup d = none :=
          Option.eq_none_iff_forall_ne_some.mpr fun m hm => hne m ((hchild d m).mp hm)
        simp [List.lookup_append, hnone, hne, eq_comm]
      · simp [List.lookup_append, List.lookup_cons, beq_false_of_ne hd, hchild, Ne.symm hd]
    · rename_i hk
      rw [h.child hnode hw]
      refine ⟨.inr, ?_⟩
      rintro (⟨-, hsame⟩ | hj)
      · obtain ⟨rfl, -⟩ := List.append_inj' hsame rfl
        exact absurd (h.unique hw hu) hk
      · exact hj

/-- In the larger arena the same words end. -/
theorem ends_grown (h : a.Represents texts words) (hu : texts[i]? = some u) {c : Char}
    (hne : ∀ j : Nat, texts[j]? ≠ some (u ++ [c])) {k : Nat} {node : Node} {w : List Char}
    (hnode : (a.grown i c).nodes[k]? = some node)
    (hw : (texts.push (u ++ [c]))[k]? = some w) :
    node.ends = true ↔ ∃ word ∈ words, word.toList = w := by
  obtain ⟨hlt, -⟩ := Array.getElem?_eq_some_iff.mp hu
  rw [nodes_grown (h.size_eq ▸ hlt)] at hnode
  rcases h.push_eq_some_iff.mp hw with ⟨rfl, rfl⟩ | hw
  · rw [if_pos rfl] at hnode
    obtain rfl := Option.some.inj hnode
    refine ⟨Bool.noConfusion, ?_⟩
    rintro ⟨word, hword, hspells⟩
    obtain ⟨k, hk⟩ := h.spelled word hword
    exact absurd (hspells ▸ hk) (hne k)
  · rw [if_neg (h.ne_size hw)] at hnode
    split at hnode
    · obtain ⟨old, hold, rfl⟩ := Option.map_eq_some_iff.mp hnode
      have hends := h.ends hold hw
      exact hends
    · exact h.ends hnode hw

/-- A text that was not spelled gets a node. -/
theorem grown (h : a.Represents texts words) (hu : texts[i]? = some u) {c : Char}
    (hne : ∀ j : Nat, texts[j]? ≠ some (u ++ [c])) :
    (a.grown i c).Represents (texts.push (u ++ [c])) words where
  size_eq := by simp [WordArena.grown, h.size_eq]
  root := h.push_eq_some_iff.mpr (.inr h.root)
  unique {j k w} hj hk := by
    rcases h.push_eq_some_iff.mp hj with ⟨rfl, rfl⟩ | hj <;>
      rcases h.push_eq_some_iff.mp hk with ⟨rfl, hw⟩ | hk
    · rfl
    · exact absurd hk (hne k)
    · exact absurd (hw ▸ hj) (hne j)
    · exact h.unique hj hk
  shorter {j w d} hj := by
    rcases h.push_eq_some_iff.mp hj with ⟨-, hw⟩ | hj
    · obtain ⟨rfl, -⟩ := List.append_inj' hw rfl
      exact ⟨i, h.push_eq_some_iff.mpr (.inr hu)⟩
    · obtain ⟨k, hk⟩ := h.shorter hj
      exact ⟨k, h.push_eq_some_iff.mpr (.inr hk)⟩
  child := h.child_grown hu hne
  ends := h.ends_grown hu hne
  spelled word hword := by
    obtain ⟨k, hk⟩ := h.spelled word hword
    exact ⟨k, h.push_eq_some_iff.mpr (.inr hk)⟩

/-- The node for a longer text is found or added. -/
theorem exists_extend? (h : a.Represents texts words) (hu : texts[i]? = some u) (c : Char) :
    ∃ j b texts', a.extend? i c = some (j, b) ∧ b.Represents texts' words ∧
      texts'[j]? = some (u ++ [c]) := by
  rcases h.child?_eq hu c with ⟨j, hchild, hj⟩ | ⟨hchild, hne⟩
  · exact ⟨j, a, texts, by simp [extend?, hchild], h, hj⟩
  · refine ⟨_, _, _, extend?_of_child?_eq_none hchild, h.grown hu hne, ?_⟩
    rw [← h.size_eq, Array.getElem?_push_size]

/-- A word is added. -/
theorem exists_insertFrom? (h : a.Represents texts words) (hu : texts[i]? = some u) (word : String)
    {cs : List Char} (hword : word.toList = u ++ cs) :
    ∃ b texts', a.insertFrom? i cs = some b ∧ b.Represents texts' (words ++ [word]) := by
  induction cs generalizing a texts i u with
  | nil =>
    rw [List.append_nil] at hword
    obtain ⟨b, hb, hrep⟩ := h.update?_ends word (hword ▸ hu)
    exact ⟨b, texts, hb, hrep⟩
  | cons c cs ih =>
    obtain ⟨j, b, texts', hextend, hb, hj⟩ := h.exists_extend? hu c
    obtain ⟨d, texts'', hd, hrep⟩ := ih hb hj (by simpa using hword)
    exact ⟨d, texts'', by simp [insertFrom?, hextend, hd], hrep⟩

/-- Words are added. -/
theorem exists_foldlM (h : a.Represents texts words) (more : List String) :
    ∃ b texts', more.foldlM (fun a word => a.insert? word.toList) a = some b ∧
      b.Represents texts' (words ++ more) := by
  induction more generalizing a texts words with
  | nil => exact ⟨a, texts, rfl, by simpa using h⟩
  | cons word more ih =>
    obtain ⟨b, texts', hb, hrep⟩ := h.exists_insertFrom? h.root word (List.nil_append _).symm
    obtain ⟨d, texts'', hd, hrep'⟩ := ih hrep
    refine ⟨d, texts'', ?_, by simpa using hrep'⟩
    rw [List.foldlM_cons, insert?, hb]
    exact hd

end Represents

/-- An arena is made of any words. -/
theorem exists_ofWords? (words : List String) :
    ∃ a texts, ofWords? words = some a ∧ a.Represents texts words :=
  represents_empty.exists_foldlM words

/-! ### The walk -/

namespace Represents

/-- If the walk stops at a node that does not go on, no word goes beyond it. -/
theorem isLongestMatch_of_ne (h : a.Represents texts words) {text : List Char} {c : Char}
    {good n : Nat} (hc : text[n]? = some c)
    (hne : ∀ j : Nat, texts[j]? ≠ some (text.take n ++ [c]))
    (hgood : IsLongestMatch words (text.take n) good) : IsLongestMatch words text good := by
  constructor
  · intro hzero
    obtain ⟨word, hword, hbegins, hlength⟩ := hgood.found hzero
    exact ⟨word, hword, hbegins.trans (List.take_prefix ..), hlength⟩
  · intro word hword hbegins
    refine hgood.length_le word hword (List.prefix_take_iff.mpr ⟨hbegins, ?_⟩)
    by_contra hlong
    obtain ⟨k, hk⟩ := h.spelled word hword
    obtain ⟨v, hv⟩ : text.take (n + 1) <+: word.toList :=
      List.prefix_of_prefix_length_le (List.take_prefix ..) hbegins (by simp; omega)
    rw [← hv] at hk
    obtain ⟨j, hj⟩ := h.exists_of_append v hk
    rw [List.take_add_one, hc] at hj
    exact hne j hj

/-- The longest word so far after one more code point. -/
theorem isLongestMatch_step (h : a.Represents texts words) {text : List Char} {c : Char}
    {good n j : Nat} {node : Node} (hc : text[n]? = some c) (hnode : a.nodes[j]? = some node)
    (hj : texts[j]? = some (text.take (n + 1)))
    (hgood : IsLongestMatch words (text.take n) good) :
    IsLongestMatch words (text.take (n + 1)) (if node.ends then n + 1 else good) := by
  have hlength : (text.take (n + 1)).length = n + 1 := by
    obtain ⟨hlt, -⟩ := List.getElem?_eq_some_iff.mp hc
    exact List.length_take_of_le hlt
  have hends := h.ends hnode hj
  split
  · rename_i hend
    obtain ⟨word, hword, hspells⟩ := hends.mp hend
    refine ⟨fun _ => ⟨word, hword, hspells ▸ List.prefix_rfl, hspells ▸ hlength⟩, ?_⟩
    intro other _ hbegins
    exact hlength ▸ hbegins.length_le
  · rename_i hend
    constructor
    · intro hzero
      obtain ⟨word, hword, hbegins, hmatch⟩ := hgood.found hzero
      exact ⟨word, hword, hbegins.trans (List.take_prefix_take_left (by omega)), hmatch⟩
    · intro word hword hbegins
      refine hgood.length_le word hword ?_
      -- A word of the full length would end at the node.
      have hne : word.toList ≠ text.take (n + 1) := fun heq => hend (hends.mpr ⟨word, hword, heq⟩)
      have hshort : word.toList.length ≤ n := by
        have hle := hlength ▸ hbegins.length_le
        by_contra hlong
        exact hne (hbegins.eq_of_length (by omega))
      exact List.prefix_take_iff.mpr ⟨hbegins.trans (List.take_prefix ..), hshort⟩

/-- The walk from a node that spells what was passed finds the longest word and consumes nothing. -/
theorem exists_longestFrom? (h : a.Represents texts words) (s : Scanner) {good n : Nat}
    (hi : texts[i]? = some (s.upcoming.chars.take n))
    (hgood : IsLongestMatch words (s.upcoming.chars.take n) good) :
    ∃ m t, a.longestFrom? i good n s = some (m, t) ∧
      IsLongestMatch words s.upcoming.chars m ∧ s.Restores t := by
  have hpassed (s : Scanner) (n : Nat) {r : Option Char} {t : Scanner}
      (hpeek : s.peek n = (r, t)) : s.upcoming.chars[n]? = r ∧ s.Restores t := by
    have hchar := peek?_natCast s n
    have hrestores := restores_peek s n
    rw [peek?, hpeek] at hchar
    rw [hpeek] at hrestores
    exact ⟨hchar.symm, hrestores⟩
  fun_induction longestFrom? a i good n s with
  | case1 i good n s t hpeek =>
    obtain ⟨hnone, hrestores⟩ := hpassed s n hpeek
    rw [List.take_of_length_le (List.getElem?_eq_none_iff.mp hnone)] at hgood
    exact ⟨good, t, rfl, hgood, hrestores⟩
  | case2 i good n s c t hpeek hchild =>
    rcases h.child?_eq hi c with ⟨j, hj, -⟩ | ⟨hj, -⟩
    · simp [hj] at hchild
    · simp [hj] at hchild
  | case3 i good n s c t hpeek hchild =>
    obtain ⟨hc, hrestores⟩ := hpassed s n hpeek
    rcases h.child?_eq hi c with ⟨j, hj, -⟩ | ⟨-, hne⟩
    · simp [hj] at hchild
    · exact ⟨good, t, rfl, h.isLongestMatch_of_ne hc hne hgood, hrestores⟩
  | case4 i good n s c t hpeek j hchild hnone =>
    obtain ⟨node, hnode⟩ := h.exists_node (h.text_of_child? hi hchild)
    simp [hnode] at hnone
  | case5 i good n s c t hpeek j hchild node hnode ih =>
    obtain ⟨hc, hrestores⟩ := hpassed s n hpeek
    have hj : texts[j]? = some (s.upcoming.chars.take (n + 1)) := by
      rw [h.text_of_child? hi hchild, List.take_add_one, hc, Option.toList_some]
    have hchars : t.upcoming.chars = s.upcoming.chars := congrArg View.upcoming hrestores.view
    rw [hchars] at ih
    obtain ⟨m, v, hm, hlongest, hv⟩ := ih hj (h.isLongestMatch_step hc hnode hj hgood)
    exact ⟨m, v, hm, hlongest, hrestores.trans hv⟩

end Represents

/-- The walk finds the longest word that is upcoming and consumes nothing. No index outside the
arena is used. -/
theorem exists_longest? (words : List String) (s : Scanner) :
    ∃ a, ofWords? words = some a ∧
      ∃ t, a.longest? s = some ((WordTree.ofWords words).longest s.upcoming.chars, t) ∧
        s.Restores t := by
  obtain ⟨a, texts, ha, h⟩ := exists_ofWords? words
  have hroot : texts[0]? = some (s.upcoming.chars.take 0) := h.root
  have hnone : IsLongestMatch words (s.upcoming.chars.take 0) 0 :=
    ⟨fun hzero => absurd rfl hzero, fun _ _ hbegins => hbegins.length_le⟩
  obtain ⟨m, t, hm, hlongest, ht⟩ := h.exists_longestFrom? s hroot hnone
  obtain rfl := hlongest.unique (WordTree.isLongestMatch_ofWords words s.upcoming.chars)
  exact ⟨a, ha, t, hm, ht⟩

end WordArena

end Lexing
