import Lexing.WordTree

/-!
# The words of a word tree

A word tree stands for a set of words. Inserting a word adds it to the set, and the longest match at
the beginning of a text is the greatest length of a word of the set that the text begins with.

## Main definitions

* `WordTree.contains` : the words of a tree.

## Main results

* `WordTree.contains_ofWords` : a tree contains the non-empty words that it was made of.
* `WordTree.contains_take_longest` : a match is a word of the tree.
* `WordTree.length_le_longest` : no longer word matches.
* `WordTree.longest_append` : a match does not depend on what comes after a delimiter.
-/

namespace Lexing.WordTree

/-- Whether a word is among those of the tree. -/
def contains : WordTree → List Char → Bool
  | empty, _ => false
  | node .., [] => false
  | node label ends children siblings, c :: cs =>
    if label = c then (ends && cs.isEmpty) || children.contains cs else siblings.contains (c :: cs)

@[simp]
theorem contains_nil (tree : WordTree) : tree.contains [] = false := by
  cases tree <;> rfl

theorem ne_nil_of_contains {tree : WordTree} {w : List Char} (h : tree.contains w) : w ≠ [] := by
  rintro rfl
  simp at h

/-! ### Insertion -/

theorem contains_ofWord (word w : List Char) :
    (ofWord word).contains w = (w == word && !word.isEmpty) := by
  induction word generalizing w with
  | nil => simp [ofWord, contains]
  | cons c cs ih =>
    cases w with
    | nil => simp [ofWord]
    | cons d ds =>
      by_cases hcd : c = d
      · subst hcd
        rw [ofWord, contains, ih]
        cases cs <;> cases ds <;> simp
      · simp [ofWord, contains, hcd, Ne.symm hcd]

/-- Inserting a word that is not empty adds it to the words of a tree. -/
theorem contains_insert (tree : WordTree) (word w : List Char) :
    (tree.insert word).contains w = (tree.contains w || (w == word && !word.isEmpty)) := by
  fun_induction insert tree word generalizing w with
  | case1 word => simp [contains_ofWord, contains]
  | case2 label ends children siblings => simp
  | case3 ends children siblings label cs ih =>
    cases w with
    | nil => simp
    | cons d ds =>
      by_cases hd : label = d
      · subst hd
        simp only [contains, ↓reduceIte, ih]
        cases cs <;> cases ds <;> cases ends <;> simp
      · simp [contains, hd, Ne.symm hd]
  | case4 label ends children siblings c cs hc ih =>
    cases w with
    | nil => simp
    | cons d ds =>
      by_cases hd : label = d
      · subst hd
        simp [contains, hc]
      · simp [contains, hd, ih]

/-- A tree contains the non-empty words that it was made of. -/
theorem contains_ofWords {words : List String} {w : List Char} :
    (ofWords words).contains w ↔ ∃ word ∈ words, word.toList = w ∧ w ≠ [] := by
  have fold (words : List String) (tree : WordTree) :
      (words.foldl (fun tree word => tree.insert word.toList) tree).contains w ↔
        tree.contains w ∨ ∃ word ∈ words, word.toList = w ∧ w ≠ [] := by
    induction words generalizing tree with
    | nil => simp
    | cons word words ih =>
      simp only [List.foldl_cons, ih, contains_insert, Bool.or_eq_true, Bool.and_eq_true,
        beq_iff_eq, Bool.not_eq_true', List.isEmpty_eq_false_iff, List.mem_cons, exists_eq_or_imp]
      grind
  simpa [contains, ofWords] using fold words empty

/-! ### The longest match -/

theorem longest_le_length (tree : WordTree) (text : List Char) :
    tree.longest text ≤ text.length := by
  fun_induction longest tree text with
  | case1 | case2 | case3 | case4 => simp
  | case5 ends children siblings c cs n hn ih =>
    rw [hn] at ih
    simp only [List.length_cons]
    omega
  | case6 label ends children siblings c cs hc ih => exact ih

/-- A match is a word of the tree. -/
theorem contains_take_longest {tree : WordTree} {text : List Char} (h : tree.longest text ≠ 0) :
    tree.contains (text.take (tree.longest text)) := by
  fun_induction longest tree text with
  | case1 | case2 | case4 => simp at h
  | case3 children siblings c cs hz ih => simp [contains]
  | case5 ends children siblings c cs n hn ih =>
    have hword := ih (by simp [hn])
    rw [hn] at hword
    simp [contains, hword]
  | case6 label ends children siblings c cs hc ih =>
    obtain ⟨n, hn⟩ := Nat.exists_eq_succ_of_ne_zero h
    have hword := ih h
    rw [hn] at hword ⊢
    simpa [contains, hc] using hword

/-- No word that the text begins with is longer than the longest match. -/
theorem length_le_longest {tree : WordTree} {text w : List Char} (hw : tree.contains w)
    (h : w <+: text) : w.length ≤ tree.longest text := by
  -- A word that begins with the label is the label itself or goes on in the children.
  have word_cases {ends : Bool} {children siblings : WordTree} {c : Char} {w cs : List Char}
      (hw : (node c ends children siblings).contains w) (h : w <+: c :: cs) :
      (ends = true ∧ w = [c]) ∨ ∃ v, w = c :: v ∧ children.contains v ∧ v <+: cs := by
    cases w with
    | nil => simp at hw
    | cons d v =>
      obtain ⟨rfl, hv⟩ := List.cons_prefix_cons.mp h
      simp only [contains, ↓reduceIte, Bool.or_eq_true, Bool.and_eq_true, List.isEmpty_iff] at hw
      rcases hw with ⟨hends, rfl⟩ | hw
      · exact .inl ⟨hends, rfl⟩
      · exact .inr ⟨v, rfl, hw, hv⟩
  fun_induction longest tree text generalizing w with
  | case1 => simp [contains] at hw
  | case2 => simp_all
  | case3 children siblings c cs hz ih | case4 ends children siblings c cs hz hends ih =>
    rcases word_cases hw h with ⟨he, rfl⟩ | ⟨v, rfl, hv, hpre⟩
    · simp_all
    · have hlen := ih hv hpre
      have hnil : v = [] := List.eq_nil_of_length_eq_zero (by omega)
      simp [hnil] at hv
  | case5 ends children siblings c cs n hn ih =>
    rcases word_cases hw h with ⟨-, rfl⟩ | ⟨v, rfl, hv, hpre⟩
    · simp
    · have hlen := ih hv hpre
      simp only [List.length_cons]
      omega
  | case6 label ends children siblings c cs hc ih =>
    cases w with
    | nil => simp
    | cons d ds =>
      obtain ⟨rfl, -⟩ := List.cons_prefix_cons.mp h
      exact ih (by simpa [contains, hc] using hw) h

/-! ### Texts that go on -/

/-- Where the longest match does not go beyond a text, what comes after the text does not matter. -/
theorem longest_append_of_le {tree : WordTree} {text rest : List Char}
    (h : tree.longest (text ++ rest) ≤ text.length) :
    tree.longest (text ++ rest) = tree.longest text := by
  refine Nat.le_antisymm ?_ ?_
  · by_cases hzero : tree.longest (text ++ rest) = 0
    · omega
    · have hword := contains_take_longest hzero
      rw [List.take_append_of_le_length h] at hword
      have hlength := length_le_longest hword (List.take_prefix ..)
      rwa [List.length_take, Nat.min_eq_left h] at hlength
  · by_cases hzero : tree.longest text = 0
    · omega
    · have hle := tree.longest_le_length text
      have hlength := length_le_longest (contains_take_longest hzero)
        ((List.take_prefix _ _).trans (List.prefix_append text rest))
      rwa [List.length_take, Nat.min_eq_left hle] at hlength

/-- Words without the code point `c` are found in a text whether or not it goes on with `c`. -/
theorem longest_append {tree : WordTree} {c : Char} (htree : ∀ w, tree.contains w → c ∉ w)
    {rest : List Char} (hrest : rest = [] ∨ rest.head? = some c) (text : List Char) :
    tree.longest (text ++ rest) = tree.longest text := by
  refine longest_append_of_le ?_
  rcases hrest with rfl | hrest
  · rw [List.append_nil]
    exact tree.longest_le_length text
  · obtain ⟨more, rfl⟩ := List.head?_eq_some_iff.mp hrest
    refine Nat.le_of_not_lt fun hlt => ?_
    have hword : tree.contains _ := contains_take_longest (Nat.ne_zero_of_lt hlt)
    refine htree _ hword ?_
    rw [List.take_append]
    obtain ⟨k, hk⟩ := Nat.exists_eq_add_of_lt hlt
    simp [hk, Nat.add_assoc]

/-- Where all words have one length, a match does not become longer as the text goes on. -/
theorem longest_append_of_length {tree : WordTree}
    (htree : ∀ w w', tree.contains w → tree.contains w' → w.length = w'.length)
    {text : List Char} (h : tree.longest text ≠ 0) (rest : List Char) :
    tree.longest (text ++ rest) = tree.longest text := by
  have hword := contains_take_longest h
  have hlonger := length_le_longest hword
    ((List.take_prefix _ text).trans (List.prefix_append text rest))
  rw [List.length_take, Nat.min_eq_left (tree.longest_le_length text)] at hlonger
  have hword' : tree.contains ((text ++ rest).take (tree.longest (text ++ rest))) :=
    contains_take_longest (by omega)
  have hlength := htree _ _ hword' hword
  rwa [List.length_take, List.length_take, Nat.min_eq_left (tree.longest_le_length text),
    Nat.min_eq_left (tree.longest_le_length _)] at hlength

/-! ### Single words -/

theorem eq_of_contains_ofWords {word : String} {w : List Char} (h : (ofWords [word]).contains w) :
    w = word.toList := by
  obtain ⟨u, hu, rfl, -⟩ := contains_ofWords.mp h
  rw [List.mem_singleton.mp hu]

/-- A word that the text begins with is found. -/
theorem longest_ne_zero (word : String) {text : List Char} (hne : word.toList ≠ [])
    (h : word.toList <+: text) : (ofWords [word]).longest text ≠ 0 := by
  have hcontains : (ofWords [word]).contains word.toList :=
    contains_ofWords.mpr ⟨word, List.mem_singleton.mpr rfl, rfl, hne⟩
  have hlength := length_le_longest hcontains h
  have hpos := List.length_pos_iff.mpr hne
  omega

/-- A text in which a word is found begins with it. -/
theorem begins_of_longest_ne_zero {word : String} {text : List Char}
    (h : (ofWords [word]).longest text ≠ 0) : word.toList <+: text := by
  rw [← eq_of_contains_ofWords (contains_take_longest h)]
  exact List.take_prefix ..

end Lexing.WordTree
