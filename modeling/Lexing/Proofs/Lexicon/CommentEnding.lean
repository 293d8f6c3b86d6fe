import Lexing.Proofs.Lexicon.Replay
import Lexing.Proofs.Rule.Comment
import Lexing.Proofs.Rule.Literal
import Lexing.Proofs.Scanner.Decoding
import Mathlib.Data.Nat.Find

/-!
# Where comments end

A comment goes on to the first place behind its opening literal where a closing literal stands, and
ends with the longest one that stands there. Without such a place it takes all of the text and is
reported, once. A comment up to the end of its line ends before the first line feed and is never
reported.

Whether the comment is kept makes no difference to what is consumed. A kept comment has the text
between the literals as value and the kind of the rule. One that is not kept has no value, and the
call for the next token passes over it, unless it was reported.

## Main definitions

* `IsFirstMatch`, `LacksMatch` : where the first word of a list stands in a text, if one does.
* `CommentRule.IsPassedOver`, `CommentRule.Reads` : what becomes of a comment.

## Main results

* `CommentRule.body_of_firstMatch`, `CommentRule.body_of_lacksMatch` : what is consumed behind the
  opening literal.
* `Lexicon.nextWithin_of_matched` : a pass in which the rules match.
* `CommentRule.ends_at_first_match` : comments.
-/

namespace Lexing

open Scanner

/-! ### The first match in a text -/

/-- The first place in the text where a word stands is behind `v`, and `e` is the longest word
there. -/
structure IsFirstMatch (words : List String) (text v e rest : List Char) : Prop where
  text_eq : text = v ++ (e ++ rest)
  ne_nil : e ≠ []
  longest : IsLongestMatch words (e ++ rest) e.length
  first : ∀ k < v.length, ∀ word ∈ words, ¬word.toList <+: text.drop k

/-- No word stands anywhere in the text. -/
def LacksMatch (words : List String) (text : List Char) : Prop :=
  ∀ k < text.length, ∀ word ∈ words, ¬word.toList <+: text.drop k

/-- A text without a first match lacks all the words. -/
theorem lacksMatch_of_not_exists {words : List String} (hwords : "" ∉ words) {text : List Char}
    (h : ¬∃ v e rest, IsFirstMatch words text v e rest) : LacksMatch words text := by
  classical
  by_contra hmatch
  have hexists : ∃ k, k < text.length ∧ ∃ word ∈ words, word.toList <+: text.drop k := by
    simpa [LacksMatch] using hmatch
  -- The least offset of a word, and the longest word there.
  obtain ⟨k, ⟨hk, word, hword, hbegins⟩, hleast⟩ :
      ∃ k, (k < text.length ∧ ∃ word ∈ words, word.toList <+: text.drop k) ∧
        ∀ j < k, ¬(j < text.length ∧ ∃ word ∈ words, word.toList <+: text.drop j) :=
    ⟨Nat.find hexists, Nat.find_spec hexists, fun j hj => Nat.find_min hexists hj⟩
  have hlongest := WordTree.isLongestMatch_ofWords words (text.drop k)
  generalize (WordTree.ofWords words).longest (text.drop k) = n at hlongest
  have hlength := hlongest.length_le word hword hbegins
  have hne : word.toList ≠ [] := fun hnil => hwords (String.toList_eq_nil_iff.mp hnil ▸ hword)
  have hpos := List.length_pos_iff.mpr hne
  obtain ⟨word', -, hbegins', hlength'⟩ := hlongest.found (by omega)
  have hle := hbegins'.length_le
  have htake : ((text.drop k).take n).length = n := by
    rw [List.length_take]
    omega
  refine h ⟨text.take k, (text.drop k).take n, (text.drop k).drop n, ?_, ?_, ?_, ?_⟩
  · rw [List.take_append_drop, List.take_append_drop]
  · exact List.length_pos_iff.mp (by omega)
  · rw [List.take_append_drop, htake]
    exact hlongest
  · intro j hj other hother hfound
    rw [List.length_take] at hj
    exact hleast j (by omega) ⟨by omega, other, hother, hfound⟩

/-- A line feed stands where a text begins with it. -/
theorem lineFeed_not_begins_iff {text : List Char} :
    (∀ word ∈ ["\n"], ¬word.toList <+: text) ↔ text.head? ≠ some '\n' := by
  rw [List.forall_mem_singleton, show "\n".toList = ['\n'] from rfl]
  cases text with
  | nil => simp
  | cons c cs => simp [List.cons_prefix_cons, eq_comm]

/-- Before the end of a text without line feeds, none stands. -/
theorem lineFeed_not_begins_drop {v : List Char} (hv : '\n' ∉ v) (rest : List Char) :
    ∀ k < v.length, ∀ word ∈ ["\n"], ¬word.toList <+: (v ++ rest).drop k := by
  intro k hk
  rw [lineFeed_not_begins_iff, List.head?_drop, List.getElem?_append_left hk,
    List.getElem?_eq_getElem hk]
  intro heq
  exact hv (Option.some.inj heq ▸ List.getElem_mem hk)

/-- What a line holds before its line feed, or up to the end of the text. -/
theorem lineFeed_cases (w : List Char) :
    (∃ rest, IsFirstMatch ["\n"] w (w.takeWhile (· ≠ '\n')) ['\n'] rest) ∨
      w.takeWhile (· ≠ '\n') = w ∧ LacksMatch ["\n"] w := by
  have hline : '\n' ∉ w.takeWhile (· ≠ '\n') := fun hmem => by
    simpa using List.mem_takeWhile_imp hmem
  have hsplit := List.takeWhile_append_dropWhile (p := (· ≠ '\n')) (l := w)
  have hlacks := lineFeed_not_begins_drop hline (w.dropWhile (· ≠ '\n'))
  rw [hsplit] at hlacks
  cases hrest : w.dropWhile (· ≠ '\n') with
  | nil =>
    rw [hrest, List.append_nil] at hsplit
    rw [hsplit] at hlacks
    exact .inr ⟨hsplit, hlacks⟩
  | cons c rest =>
    have hc := List.head?_dropWhile_not (· ≠ '\n') w
    rw [hrest] at hc hsplit
    obtain rfl : c = '\n' := by simpa using hc
    refine .inl ⟨rest, hsplit.symm, List.cons_ne_nil _ _, ⟨fun _ => ?_, ?_⟩, hlacks⟩
    · exact ⟨"\n", List.mem_singleton_self _, ⟨rest, rfl⟩, rfl⟩
    · rintro word hword -
      rw [List.mem_singleton.mp hword]
      exact Nat.le_refl 1

/-- A tree finds nothing if the text does not begin with a word. -/
theorem WordTree.longest_ofWords_eq_zero_iff {words : List String} (hwords : "" ∉ words)
    (text : List Char) :
    (ofWords words).longest text = 0 ↔ ∀ word ∈ words, ¬word.toList <+: text := by
  have hmatch := isLongestMatch_ofWords words text
  refine ⟨fun hzero word hword hbegins => ?_, fun hnone => ?_⟩
  · have hle := hmatch.length_le word hword hbegins
    have hnil : word.toList = [] := List.eq_nil_of_length_eq_zero (by omega)
    exact hwords (String.toList_eq_nil_iff.mp hnil ▸ hword)
  · by_contra hne
    obtain ⟨word, hword, hbegins, -⟩ := hmatch.found hne
    exact hnone word hword hbegins

/-- A rule for literals has those that it was made of, and none is empty. -/
theorem LiteralRule.eq_of_ofWords? {words : List String} {r : LiteralRule}
    (h : ofWords? words = .ok r) : "" ∉ words ∧ r = { words := .ofWords words } := by
  rw [ofWords?] at h
  split at h
  · cases h
  · rename_i hany
    refine ⟨fun hempty => hany ?_, (Except.ok.inj h).symm⟩
    exact List.any_eq_true.mpr ⟨"", hempty, rfl⟩

namespace CommentRule

variable {r : CommentRule} {ends : List String} {s : Scanner} {v e rest : List Char}

/-- Behind its opening literal, a comment moves over the text before the first closing literal, and
over that literal if it belongs to the comment. -/
theorem body_of_firstMatch (hends : "" ∉ ends) (hclosing : r.closing = .ofWords ends)
    (h : IsFirstMatch ends s.upcoming.chars v e rest) (kept : Bool) :
    r.body kept s.upcoming.chars s =
      if r.inclusive then (times v.length (move kept) s).times e.length .skip
      else times v.length (move kept) s := by
  have hfound := WordTree.longest_ofWords_eq_zero_iff hends
  have hlongest : r.closing.longest (e ++ rest) = e.length :=
    hclosing ▸ (WordTree.isLongestMatch_ofWords ends _).unique h.longest
  have hpos := List.length_pos_iff.mpr h.ne_nil
  obtain ⟨v', rest', htext, hlacks, hend⟩ := body_cases (r := r) kept (s := s) rfl
  have hsplit : v' ++ rest' = v ++ (e ++ rest) := htext.symm.trans h.text_eq
  -- Neither of the two places where the text is divided comes before the other.
  have hle : v'.length ≤ v.length := by
    by_contra hlt
    have hzero := hlacks v.length (by omega)
    rw [hsplit, List.drop_left] at hzero
    omega
  have hge : v.length ≤ v'.length := by
    by_contra hlt
    have hnone := h.first v'.length (by omega)
    rw [htext, List.drop_left, ← hfound, ← hclosing] at hnone
    rcases hend with ⟨rfl, -⟩ | ⟨hne, -⟩
    · have hlength := congrArg List.length hsplit
      rw [List.length_append, List.length_append, List.length_nil] at hlength
      omega
    · exact hne hnone
  obtain ⟨rfl, rfl⟩ := List.append_inj hsplit (by omega)
  rcases hend with ⟨hnil, -⟩ | ⟨-, hbody⟩
  · exact absurd (List.append_eq_nil_iff.mp hnil).1 h.ne_nil
  · rw [hbody, hlongest]

/-- Without a closing literal, a comment moves over all of the text, and is reported if the literal
belongs to it. -/
theorem body_of_lacksMatch (hends : "" ∉ ends) (hclosing : r.closing = .ofWords ends)
    (h : LacksMatch ends s.upcoming.chars) (kept : Bool) :
    r.body kept s.upcoming.chars s =
      if r.inclusive then
        (times s.upcoming.chars.length (move kept) s).reject .unterminatedComment
      else times s.upcoming.chars.length (move kept) s := by
  obtain ⟨v, rest, htext, hlacks, hend⟩ := body_cases (r := r) kept (s := s) rfl
  rcases hend with ⟨rfl, hbody⟩ | ⟨hne, -⟩
  · rw [hbody, htext, List.append_nil]
  · have hrest : rest ≠ [] := by
      rintro rfl
      exact hne (Nat.le_zero.mp (r.closing.longest_le_length []))
    have hlength := List.length_pos_iff.mpr hrest
    have hnone := h v.length (by rw [htext, List.length_append]; omega)
    rw [htext, List.drop_left, ← WordTree.longest_ofWords_eq_zero_iff hends, ← hclosing] at hnone
    exact absurd hnone hne

/-! ### Moves over the text -/

/-- Text that a comment moves over stands for itself if it is kept, and for nothing otherwise. -/
theorem decodes_times_move {w w' : List Char} (kept : Bool) (hup : s.upcoming.chars = w ++ w') :
    s.Decodes w (if kept then w else []) (times w.length (move kept) s) := by
  cases kept with
  | false => exact decodes_times_skip hup
  | true =>
    induction w generalizing s with
    | nil => exact .refl s
    | cons c w ih =>
      have hkeep := decodes_keep (current?_of_upcoming hup)
      exact hkeep.trans (ih (hkeep.upcoming_eq hup))

/-- The longest opening literal is skipped. -/
theorem attempt_of_longestMatch {begins : List String} {b w : List Char} (flags : Flags)
    (hopening : r.opening = { words := .ofWords begins, skipped := true }) (hb : b ≠ [])
    (hup : s.upcoming.chars = b ++ w) (hlongest : IsLongestMatch begins (b ++ w) b.length) :
    ∃ u, s.Decodes b [] u ∧ u.upcoming.chars = w ∧ r.attempt flags s =
      some (r.label (r.keepFlag.any flags) (r.body (r.keepFlag.any flags) u.upcoming.chars u)) := by
  have hskip := decodes_times_skip hup
  have hlength : r.opening.longest s = b.length := by
    rw [LiteralRule.longest, hopening, hup]
    exact (WordTree.isLongestMatch_ofWords begins _).unique hlongest
  obtain ⟨n, hn⟩ := Nat.exists_eq_add_one.mpr (List.length_pos_iff.mpr hb)
  refine ⟨_, hskip, hskip.upcoming_eq hup, ?_⟩
  rw [attempt, LiteralRule.attempt, hlength, hn, hopening]
  rfl

end CommentRule

/-! ### What becomes of a comment -/

/-- Where the rules of a lexicon match, a pass reads a token, which is the result unless it is
blank. After a blank token the passes go on. -/
theorem Lexicon.nextWithin_of_matched {rules : List Rule} {discards : CharClass} {flags : Flags}
    {s t : Scanner} {w : List Char} (bound : Nat) (hs : s.IsFresh) (hw : w ≠ [])
    (ht : s.Consumes w t) (hdiscards : s.isIn discards = false)
    (hmatched : Rule.evalFirst flags rules s = .ok (true, t)) :
    ({ rules, discards } : Lexicon).nextWithin flags (bound + 1) s =
      if t.checkValue.assembled.isBlank then
        ifMoved s t.renew (({ rules, discards } : Lexicon).nextWithin flags bound t.renew)
      else .ok (accept t.checkValue.assembled t.renew) := by
  have hend : s.atEnd = false := by
    rw [Scanner.atEnd_eq, ht.upcoming]
    simpa using fun hnil => absurd hnil hw
  obtain ⟨hemit, -⟩ := ht.passes_renew hs hw
  have hscan : ({ rules, discards } : Lexicon).scanToken flags s =
      .ok (t.checkValue.assembled, t.renew) := by
    simp only [scanToken, hmatched, hemit, bind, Except.bind, pure, Except.pure, Bool.true_or,
      ↓reduceIte]
  rw [nextWithin, skipDiscards_eq rfl, whileIn_of_not_isIn _ hdiscards]
  simp only [bind, Except.bind, hend, hscan]
  cases t.checkValue.assembled.isBlank <;> rfl

namespace CommentRule

variable {r : CommentRule} {flags : Flags} {s t u : Scanner} {w text : List Char} {closed : Bool}

/-- What a call for the next token makes of a comment that is not kept, in any lexicon without hooks
whose rules come to the comment. If it is closed, the passes go on behind it, as long as the
position has moved. Otherwise it is handed out as an illegal token without value. -/
def IsPassedOver (r : CommentRule) (flags : Flags) (s : Scanner) (closed : Bool) (t : Scanner) :
    Prop :=
  ∀ rules discards bound, s.isIn discards = false →
    Rule.evalFirst flags rules s = (Rule.comment r).eval flags s →
    (closed = true → ({ rules, discards } : Lexicon).nextWithin flags (bound + 1) s =
      Lexicon.ifMoved s t.renew
        (({ rules, discards } : Lexicon).nextWithin flags bound t.renew)) ∧
    (closed = false → ∃ token u,
      ({ rules, discards } : Lexicon).nextWithin flags (bound + 1) s = .ok (token, u) ∧
        token.kind = Kind.illegal ∧ token.value = "")

/-- What becomes of a comment that consumes `w`, with `text` between its literals. If it is not
closed, it is reported. A kept comment has the text as value and the kind of the rule. One that is
not kept has no value and is passed over, unless it is illegal. The position has moved behind it,
unless the comment is as long as the range of the numbers of a position. -/
structure Reads (r : CommentRule) (flags : Flags) (s : Scanner) (w text : List Char)
    (closed : Bool) (t : Scanner) : Prop where
  eval : (Rule.comment r).eval flags s = .ok (true, t)
  consumes : s.Consumes w t
  moves : w.length < UInt32.size → t.renew.position ≠ s.position
  diagnostics : t.draft.diagnostics =
    if closed then #[] else #[{ position := s.position, problem := .unterminatedComment }]
  kept : r.keepFlag.any flags = true →
    t.draft.value = Utf8.encode text ∧ t.draft.kind = if closed then r.kind else Kind.illegal
  dropped : r.keepFlag.any flags = false →
    t.draft.value = [] ∧ t.draft.kind = (if closed then "" else Kind.illegal) ∧
      r.IsPassedOver flags s closed t

/-- What a comment leaves in the draft, once its text is consumed. -/
theorem label_of_decodes (kept closed : Bool) (hs : s.IsFresh)
    (h : s.Decodes w (if kept then text else []) t)
    (hu : r.label kept (if closed then t else t.reject .unterminatedComment) = u) :
    s.Consumes w u ∧ u.draft.value = (if kept then Utf8.encode text else []) ∧
      u.draft.diagnostics = (if closed then #[]
        else #[{ position := s.position, problem := .unterminatedComment }]) ∧
      u.draft.kind = if closed then (if kept then r.kind else "") else Kind.illegal := by
  have hvalue : t.draft.value = if kept then Utf8.encode text else [] := by
    rw [h.value, hs.1, Draft.value_empty, List.nil_append]
    cases kept <;> rfl
  have hkind : t.draft.kind = "" := h.kind.trans (congrArg Draft.kind hs.1)
  have hreports : t.draft.diagnostics = #[] := h.diagnostics.trans (congrArg _ hs.1)
  subst hu
  cases closed with
  | true =>
    cases kept with
    | true =>
      rw [label, if_pos (by simp [hkind])]
      exact ⟨h.consumes.setKind _, hvalue, hreports, rfl⟩
    | false => exact ⟨h.consumes, hvalue, hreports, hkind⟩
  | false =>
    rw [label, if_neg (by simp [reject, Kind.illegal])]
    refine ⟨h.consumes.reject _, hvalue, ?_, rfl⟩
    have hstart : t.start = s.position := h.consumes.start.trans hs.2
    simp [reject, hreports, hstart]

/-- What becomes of a comment whose text is consumed. -/
theorem reads_of_attempt (hs : s.IsFresh) (hw : w ≠ [])
    (h : s.Decodes w (if r.keepFlag.any flags then text else []) t)
    (hattempt : r.attempt flags s = some (r.label (r.keepFlag.any flags)
      (if closed then t else t.reject .unterminatedComment))) :
    ∃ u, r.Reads flags s w text closed u := by
  generalize hu : r.label (r.keepFlag.any flags)
    (if closed then t else t.reject .unterminatedComment) = u at hattempt
  obtain ⟨hconsumes, hvalue, hdiagnostics, hkind⟩ := label_of_decodes _ closed hs h hu
  have heval : (Rule.comment r).eval flags s = .ok (true, u) := by
    rw [Rule.eval_comment, hattempt]
    rfl
  have hpass := (hconsumes.passes_renew hs hw).2
  refine ⟨u, heval, hconsumes, hpass.position_ne hw, hdiagnostics, fun hkept => ?_,
    fun hdropped => ?_⟩
  · rw [hkept] at hkind hvalue
    exact ⟨hvalue, hkind⟩
  · rw [hdropped] at hkind hvalue
    have hempty : u.draft.value = [] := hvalue
    refine ⟨hempty, hkind, fun rules discards bound hdiscards hfirst => ?_⟩
    rw [Lexicon.nextWithin_of_matched bound hs hw hconsumes hdiscards (hfirst.trans heval)]
    refine ⟨fun hclosed => ?_, fun hopen => ?_⟩
    · rw [hclosed] at hkind
      exact if_pos (isBlank_assembled.mpr ⟨hempty, hkind⟩)
    · have hkind : u.draft.kind = Kind.illegal := by
        rw [hkind, hopen]
        rfl
      have hillegal : u.draft.kind ≠ "" := hkind ▸ (by decide)
      rw [if_neg fun hblank => hillegal (isBlank_assembled.mp hblank).2,
        checkValue_of_value_eq_nil hempty]
      refine ⟨_, _, rfl, (kind_assembled_of_kind_ne hillegal).trans hkind, ?_⟩
      exact String.isEmpty_iff.mp (isEmpty_valueText.mpr hempty)

/-- Comments behind an opening literal that end with a closing literal. -/
theorem exists_reads_of_inclusive {begins ends : List String} {b : List Char} (hs : s.IsFresh)
    (hopening : r.opening = { words := .ofWords begins, skipped := true })
    (hends : "" ∉ ends) (hclosing : r.closing = .ofWords ends) (hinclusive : r.inclusive = true)
    (hb : b ≠ []) (hup : s.upcoming.chars = b ++ w)
    (hlongest : IsLongestMatch begins (b ++ w) b.length) (flags : Flags) :
    (∀ v e rest, IsFirstMatch ends w v e rest →
      ∃ t, r.Reads flags s (b ++ v ++ e) v true t) ∧
    ((¬∃ v e rest, IsFirstMatch ends w v e rest) → ∃ t, r.Reads flags s (b ++ w) w false t) := by
  obtain ⟨u, hu, huw, hattempt⟩ := attempt_of_longestMatch flags hopening hb hup hlongest
  refine ⟨fun v e rest hmatch => ?_, fun hnone => ?_⟩
  · have htext := decodes_times_move (r.keepFlag.any flags) (huw.trans hmatch.text_eq)
    have hclose := decodes_times_skip (htext.upcoming_eq (huw.trans hmatch.text_eq))
    have hall := (hu.trans htext).trans hclose
    rw [List.nil_append, List.append_nil] at hall
    rw [body_of_firstMatch hends hclosing (huw ▸ hmatch), if_pos hinclusive] at hattempt
    refine reads_of_attempt hs ?_ hall hattempt
    simp [hb]
  · have hlacks := lacksMatch_of_not_exists hends hnone
    have htext := decodes_times_move (r.keepFlag.any flags)
      (huw.trans (List.append_nil w).symm)
    have hall := hu.trans htext
    rw [List.nil_append] at hall
    rw [body_of_lacksMatch hends hclosing (huw ▸ hlacks), if_pos hinclusive, huw] at hattempt
    exact reads_of_attempt hs (by simp [hb]) hall hattempt

/-- The text of a line has no line feed. -/
theorem exists_reads_of_line {word : String} (hs : s.IsFresh) (hword : word ≠ "")
    (hopening : r.opening = { words := .ofWords [word], skipped := true })
    (hclosing : r.closing = .ofWords ["\n"]) (hinclusive : r.inclusive = false)
    (hup : s.upcoming.chars = word.toList ++ w) (flags : Flags) :
    ∃ t, r.Reads flags s (word.toList ++ w.takeWhile (· ≠ '\n')) (w.takeWhile (· ≠ '\n'))
      true t := by
  have hb : word.toList ≠ [] := mt String.toList_eq_nil_iff.mp hword
  have hlongest : IsLongestMatch [word] (word.toList ++ w) word.toList.length := by
    refine ⟨fun _ => ⟨word, List.mem_singleton_self _, List.prefix_append _ _, rfl⟩, ?_⟩
    rintro other hother -
    rw [List.mem_singleton.mp hother]
  obtain ⟨u, hu, huw, hattempt⟩ := attempt_of_longestMatch flags hopening hb hup hlongest
  have hends : "" ∉ ["\n"] := by decide
  have hline : r.body (r.keepFlag.any flags) u.upcoming.chars u =
      times (w.takeWhile (· ≠ '\n')).length (move (r.keepFlag.any flags)) u := by
    rcases lineFeed_cases w with ⟨rest, hmatch⟩ | ⟨hall, hlacks⟩
    · rw [body_of_firstMatch hends hclosing (huw ▸ hmatch), if_neg (by simp [hinclusive]), huw]
    · rw [body_of_lacksMatch hends hclosing (huw ▸ hlacks), if_neg (by simp [hinclusive]), huw,
        hall]
  have htext := decodes_times_move (r.keepFlag.any flags)
    (huw.trans (List.takeWhile_append_dropWhile (p := (· ≠ '\n'))).symm)
  have hall := hu.trans htext
  rw [List.nil_append] at hall
  rw [hline] at hattempt
  exact reads_of_attempt hs (by simp [hb]) hall hattempt

/-- The rule for comments up to the end of the line has an opening literal that is not empty. -/
theorem eq_of_line? {word : String} {line : CommentRule} (h : line? word = .ok line) :
    word ≠ "" ∧ line = toLineEnd { words := .ofWords [word] } := by
  rw [line?] at h
  cases hopening : LiteralRule.ofWords? [word] with
  | error e =>
    rw [hopening] at h
    cases h
  | ok opening =>
    obtain ⟨hword, rfl⟩ := LiteralRule.eq_of_ofWords? hopening
    rw [hopening] at h
    exact ⟨by simpa [eq_comm] using hword, (Except.ok.inj h).symm⟩

/-- Let comments begin with a literal of one list and end with a literal of another, and let no
literal be empty. At a token, behind the longest opening literal `b` that is upcoming, a comment
consumes the text `v` before the first closing literal, and there the longest one, `e`. Without a
closing literal it consumes all of the text, and is reported once. A comment up to the end of the
line consumes what comes before the first line feed, and is never reported. Whether comments are
kept makes no difference to this; what it makes of them is said by `Reads`. -/
theorem ends_at_first_match (begins ends : List String) (opening closing : LiteralRule)
    (hopening : LiteralRule.ofWords? begins = .ok opening)
    (hclosing : LiteralRule.ofWords? ends = .ok closing) (skipped skipped' : Bool) (kind : String)
    (keepFlag : Option String) (r : CommentRule)
    (hr : r = { between { opening with skipped } { closing with skipped := skipped' } with
      kind, keepFlag })
    (flags : Flags) (s : Scanner) (hs : s.IsFresh) :
    (∀ b w, b ≠ [] → s.upcoming.chars = b ++ w → IsLongestMatch begins (b ++ w) b.length →
      (∀ v e rest, IsFirstMatch ends w v e rest →
        ∃ t, r.Reads flags s (b ++ v ++ e) v true t) ∧
      ((¬∃ v e rest, IsFirstMatch ends w v e rest) →
        ∃ t, r.Reads flags s (b ++ w) w false t)) ∧
    (∀ word line w, line? word = .ok line → s.upcoming.chars = word.toList ++ w →
      ∃ t, { line with kind, keepFlag }.Reads flags s (word.toList ++ w.takeWhile (· ≠ '\n'))
        (w.takeWhile (· ≠ '\n')) true t) := by
  obtain ⟨-, rfl⟩ := LiteralRule.eq_of_ofWords? hopening
  obtain ⟨hends, rfl⟩ := LiteralRule.eq_of_ofWords? hclosing
  subst hr
  refine ⟨?_, ?_⟩
  · intro b w hb hup hlongest
    exact exists_reads_of_inclusive hs rfl hends rfl rfl hb hup hlongest flags
  · intro word line w hline hup
    obtain ⟨hword, rfl⟩ := eq_of_line? hline
    exact exists_reads_of_line hs hword rfl rfl rfl hup flags

/-- A source with a comment. The opening literal overlaps what would be a closing one, and behind
the text a closing literal is the end of a longer one. -/
def starSample : ByteSource :=
  { reads := [.bytes [0x2F, 0x2A, 0x2F, 0x20, 0x61, 0x20, 0x2A, 0x2A, 0x2F, 0x20, 0x62]] }

/-- The comment ends with the longer literal, which begins before the shorter one. -/
theorem ends_at_first_match_starSample :
    ∃ opening closing, LiteralRule.ofWords? ["/*"] = .ok opening ∧
      LiteralRule.ofWords? ["*/", "**/"] = .ok closing ∧ (ofSource "f" starSample).IsFresh ∧
      IsLongestMatch ["/*"] "/*/ a **/ b".toList 2 ∧
      IsFirstMatch ["*/", "**/"] "/ a **/ b".toList "/ a ".toList "**/".toList " b".toList ∧
      ∃ t, { between opening closing with keepFlag := some "notes" }.Reads (fun _ => true)
        (ofSource "f" starSample) "/*/ a **/".toList "/ a ".toList true t := by
  have hopening : LiteralRule.ofWords? ["/*"] = .ok { words := .ofWords ["/*"] } :=
    LiteralRule.ofWords?_eq_ok (by decide)
  have hclosing : LiteralRule.ofWords? ["*/", "**/"] = .ok { words := .ofWords ["*/", "**/"] } :=
    LiteralRule.ofWords?_eq_ok (by decide)
  have hlongest : IsLongestMatch ["/*"] "/*/ a **/ b".toList 2 :=
    WordTree.isLongestMatch_ofWords ["/*"] _
  have hmatch :
      IsFirstMatch ["*/", "**/"] "/ a **/ b".toList "/ a ".toList "**/".toList " b".toList :=
    ⟨rfl, by decide, WordTree.isLongestMatch_ofWords ["*/", "**/"] _, by decide⟩
  have hfresh := isFresh_ofSource "f" starSample
  refine ⟨_, _, hopening, hclosing, hfresh, hlongest, hmatch, ?_⟩
  have hall := ends_at_first_match _ _ _ _ hopening hclosing false false Kind.comment
    (some "notes") _ rfl (fun _ => true) _ hfresh
  exact (hall.1 "/*".toList "/ a **/ b".toList (by decide) rfl hlongest).1 _ _ _ hmatch

end CommentRule

end Lexing
