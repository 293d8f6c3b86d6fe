import Lexing.Proofs.Lexicon.Run

/-!
# Tokens tile the text

The literals of the tokens and the gaps between them make up the whole text, in order and without
overlap. Each token tells where its literal begins.

## Main definitions

* `Tiling` : the division of a text into gaps and the literals of tokens.

## Main results

* `Lexicon.Fits.tiling_of_run` : the tokens of a run tile a text without failures.
-/

namespace Lexing

open Scanner

/-- The kind of the previous token after `token` was returned: comments do not count. -/
def kindAfter (previous : String) (token : Token) : String :=
  if token.kind = Kind.comment then previous else token.kind

theorem Lexicon.accept_eq_kindAfter (token : Token) (s : Scanner) :
    accept token s = (token, s.setPreviousKind (kindAfter s.previousKind token)) := by
  rw [accept, kindAfter]
  split <;> rfl

/-- The text, which comes after the text `before` and a token of the kind `previous`, is a gap, the
literal of the first token, a gap, the literal of the second token, and so on up to a last gap. Each
token has a position of its literal, given the text before it. What may stand in a gap can depend on
the kind of the token before it. -/
inductive Tiling (places : List Char → Position → Prop)
    (drops : String → List Char → List Char → Prop) :
    List Char → String → List Char → List Token → Prop
  | done {before g : List Char} {previous : String} (h : Gap (drops previous) g []) :
      Tiling places drops before previous g []
  | token {before g w rest : List Char} {previous : String} {token : Token} {tokens : List Token}
      (hgap : Gap (drops previous) g (w ++ rest)) (hne : w ≠ [])
      (hliteral : token.literal = String.ofList w)
      (hposition : places (before ++ g) token.position)
      (hrest : Tiling places drops (before ++ g ++ w) (kindAfter previous token) rest tokens) :
      Tiling places drops before previous (g ++ w ++ rest) (token :: tokens)

namespace Tiling

variable {places places' : List Char → Position → Prop}
  {drops drops' : String → List Char → List Char → Prop} {before text : List Char}
  {previous : String} {tokens : List Token}

theorem mono (h : Tiling places drops before previous text tokens)
    (hd : ∀ previous w rest, drops previous w rest → drops' previous w rest) :
    Tiling places drops' before previous text tokens := by
  induction h with
  | done h => exact .done (h.mono (hd _))
  | token hgap hne hliteral hposition _ ih =>
    exact .token (hgap.mono (hd _)) hne hliteral hposition ih

/-- Positions matter only for the parts of the text. -/
theorem mono_places (h : Tiling places drops before previous text tokens)
    (hplaces : ∀ part position, part <+: before ++ text → places part position →
      places' part position) : Tiling places' drops before previous text tokens := by
  induction h with
  | done h => exact .done h
  | token hgap hne hliteral hposition _ ih =>
    refine .token hgap hne hliteral (hplaces _ _ ?_ hposition) (ih fun part position hpart => ?_)
    · simp
    · exact hplaces part position (by simpa using hpart)

end Tiling

namespace Lexicon

variable {x : Lexicon} {flags : Flags} {p : Profile} {s : Scanner} {name : String}
  {before : List Char} {tokens : List Token}

/-- The tokens of a run tile the upcoming text, if it has no failure and no token is taken for the
end of the text. -/
theorem Fits.tiling_of_run (hx : x.Fits flags p)
    (hmakes : ∀ previous token w rest, Makes p previous token w rest → token.isEnd = false)
    (hs : s.IsFresh) (hclean : s.IsClean) (hposition : s.position = .after name before)
    (hrun : x.Run flags s tokens) :
    Tiling (fun part position => position = .after name part) (x.Drops p) before s.previousKind
      s.upcoming.chars tokens := by
  induction hrun generalizing before with
  | @ended s t token hnext hend =>
    cases hx.step_of_next hs hnext with
    | token hb =>
      obtain ⟨-, -, -, -, hmade, -, -, -⟩ := hb
      simp [hmakes _ _ _ _ hmade] at hend
    | failure hc _ hf => simp [(hc.isClean hclean).1] at hf
    | @ended _ u _ hc hatEnd _ _ =>
      obtain ⟨g, hg, hgap⟩ := hc
      have hnil : u.upcoming.chars = [] := by simpa [atEnd_eq] using hatEnd
      rw [hnil] at hgap
      rw [hg.upcoming, hnil, List.append_nil]
      exact .done hgap
  | @token s t token tokens hnext hmore hrest ih =>
    cases hx.step_of_next hs hnext with
    | @token _ v hb =>
      obtain @⟨g, w, u, hgap, hg, hw, ht, -, -, hliteral, htoken⟩ := hb
      have hu : u.position = .after name (before ++ g) := by
        rw [hg.position, hposition, Position.advanceAll_after]
      have hv : v.position = .after name (before ++ g ++ w) := by
        rw [ht.position, hu, Position.advanceAll_after]
      have hprevious : v.previousKind = s.previousKind := ht.previousKind.trans hg.previousKind
      rw [accept_eq] at ih
      have hrest := ih ht.isFresh (ht.isClean (hg.isClean hclean)) hv
      rw [hprevious] at hrest
      rw [hg.upcoming, ht.upcoming, ← List.append_assoc]
      exact .token hgap hw hliteral (htoken.trans hu) hrest
    | failure hc _ hf => simp [(hc.isClean hclean).1] at hf
    | ended _ _ _ hend => simp [hend] at hmore

end Lexicon

end Lexing
