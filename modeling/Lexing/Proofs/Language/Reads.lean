import Lexing.Proofs.Input.Delivery
import Lexing.Proofs.Language.Failure
import Lexing.Proofs.Lexicon.Procedure

/-!
# The division into reads is invisible

Two byte sources that deliver the same bytes may divide them into reads differently, also within a
code point, and may be interrupted at different places. If both then end or fail alike, they decode
to the same code points. So streams over them answer all requests alike, and scanners over them are
equivalent, from which on nothing that is done to the scanners can tell them apart.

## Main results

* `ByteSource.Delivers.drain_eq` : a source decodes to what its bytes and its ending say.
* `Scanner.equivalent_ofStream` : scanners over streams with the same text and ending.
* `reads_invisible` : requests, procedures and calls of token streams.
-/

namespace Lexing

open Scanner

/-- What a source decodes to depends on its bytes and its ending only. -/
theorem ByteSource.Delivers.drain_eq {source source' : ByteSource} {p : List UInt8}
    {ending : Option String} (h : source.Delivers p ending) (h' : source'.Delivers p ending) :
    (CharStream.ofSource source').drain = (CharStream.ofSource source).drain := by
  obtain ⟨q, r, chars, hp, hr, hlongest, hchars, hbuffer⟩ := h.exists_decodesTo_prefix
  obtain ⟨q', r', chars', hp', hr', hlongest', hchars', hbuffer'⟩ := h'.exists_decodesTo_prefix
  have hrest : r' = r := by
    by_cases hending : ending = none
    · rw [if_pos hending] at hlongest hlongest'
      rw [hlongest, hlongest']
    · rw [if_neg hending] at hlongest hlongest'
      -- Both leave out the longest unfinished sequence at the end.
      have hle := (hlongest r' (hp' ▸ List.suffix_append q' r') hr').length_le
      exact (hlongest' r (hp ▸ List.suffix_append q r) hr).eq_of_length_le hle |>.symm
  have hfront : q' = q := by
    rw [hp, hrest] at hp'
    exact (List.append_cancel_right hp').symm
  rw [hfront] at hbuffer'
  have hsame := (Prod.mk.inj (hbuffer'.drain_eq.symm.trans hbuffer.drain_eq)).1
  rw [hchars.drain_eq, hchars'.drain_eq, hsame]

/-- Scanners over streams with the same text and ending are equivalent. -/
theorem Scanner.equivalent_ofStream (name : String) {input input' : CharStream}
    (h : input'.drain = input.drain) :
    (ofStream name input).Equivalent (ofStream name input') := by
  have hends := Window.ending_ofStream_eq input'
  rw [h, ← Window.ending_ofStream_eq input] at hends
  obtain ⟨hending, hcause⟩ := Prod.mk.inj hends
  refine .of_view (alike_iff_view.mp (alike_ofStream name (congrArg Prod.fst h))) ?_ ?_
  · have hfailure (input : CharStream) : (ofStream name input).failure =
        (Window.ofStream input).2.map fun cause => ⟨.start name, .unreadable, some cause⟩ := by
      rw [ofStream]
      rcases Window.ofStream input with ⟨window, _ | cause⟩ <;> rfl
    rw [hfailure, hfailure, hcause]
  · simpa [ofStream] using hending

/-- Results that correspond look the same if related results do. -/
theorem Corresponds.map_eq {α β γ : Type} {R : α → β → Prop} {a : Except Fault α}
    {b : Except Fault β} {f : α → γ} {g : β → γ} (h : Corresponds R a b)
    (hfg : ∀ a b, R a b → g b = f a) : b.map g = a.map f := by
  cases h with
  | error fault => rfl
  | ok h => exact congrArg Except.ok (hfg _ _ h)

/-! ### Hooks that are procedures -/

/-- Consuming an unexpected code point is a procedure. -/
theorem Scanner.isProcedure_keepUnexpected : IsProcedure fun s => .ok ((), s.keepUnexpected) := by
  have hprocedure := IsProcedure.bind .view fun v =>
    .bind (.perform (.reject (.unexpected (String.ofList v.upcoming.head?.toList)))) fun _ =>
      .bind (.perform (.move .keep)) fun _ => .done ()
  convert hprocedure using 2 with s
  rw [keepUnexpected, current?_eq]
  rfl

/-- The hook of Go looks at the kind of the previous token only. -/
theorem Language.Go.isProcedural : Go.lexicon.IsProcedural := by
  have hnil : Rule.functionsOfAll Go.lexicon.rules = [] :=
    Rule.functionsOfAll_eq_nil fun r hr => (isBuiltIn_of_mem_rules r hr).functions_eq_nil
  intro α f hf
  cases hf with
  | rule h => exact absurd (hnil ▸ h) List.not_mem_nil
  | discardRule h => exact absurd h List.not_mem_nil
  | beforeToken => exact .done ()
  | afterToken _ token => exact .bind .view fun v => .done (insertSemicolon v.previousKind token)
  | noMatch => exact isProcedure_keepUnexpected

/-! ### Sources that deliver the same bytes -/

/-- Two sources that deliver the same bytes and then end or fail alike cannot be told apart, however
they divide the bytes into reads and wherever they are interrupted: not by requests to streams over
them, not by a procedure that acts on scanners over them, and not by calls of token streams. -/
theorem reads_invisible {source source' : ByteSource} {p : List UInt8} {ending : Option String}
    (h : source.Delivers p ending) (h' : source'.Delivers p ending) :
    (∀ requests : List Request,
      (Request.run CharStream.perform requests (.ofSource source')).1 =
        (Request.run CharStream.perform requests (.ofSource source)).1) ∧
    ∀ name : String,
      ∀ s ∈ [Scanner.ofStream name (.ofSource source), Scanner.ofSource name source],
      ∀ t ∈ [Scanner.ofStream name (.ofSource source'), Scanner.ofSource name source'],
        (∀ {α : Type} (f : Scanner → Except Fault (α × Scanner)), IsProcedure f →
          (f t).map (fun (a, u) => (a, u.view)) = (f s).map fun (a, u) => (a, u.view)) ∧
        ∀ x : Lexicon, x.IsProcedural →
          ∀ (flags : Flags) (calls : List (Flags × TokenStream.Call)),
            (TokenStream.ofScanner x flags t).map (TokenStream.transcript calls) =
              (TokenStream.ofScanner x flags s).map (TokenStream.transcript calls) := by
  have hdrain := h.drain_eq h'
  refine ⟨fun requests => ?_, fun name s hs t ht => ?_⟩
  · rw [(CharStream.backlog_run requests _).1, (CharStream.backlog_run requests _).1,
      CharStream.backlog, CharStream.backlog, hdrain]
  · have hover (source : ByteSource) (s : Scanner)
        (hs : s ∈ [Scanner.ofStream name (.ofSource source), Scanner.ofSource name source]) :
        ∃ input, s = ofStream name input ∧ input.drain = (CharStream.ofSource source).drain := by
      simp only [List.mem_cons, List.not_mem_nil, or_false] at hs
      rcases hs with rfl | rfl
      · exact ⟨_, rfl, rfl⟩
      · exact ⟨_, rfl, CharStream.drain_load _⟩
    obtain ⟨input, rfl, hinput⟩ := hover source s hs
    obtain ⟨input', rfl, hinput'⟩ := hover source' t ht
    have hequivalent := equivalent_ofStream name (hinput'.trans (hdrain.trans hinput.symm))
    refine ⟨fun f hf => ?_, fun x hx flags calls => ?_⟩
    · exact (hf.isBlind _ _ hequivalent).map_eq fun p q hpq => Prod.ext hpq.1 hpq.2.view_eq
    · exact (TokenStream.matches_ofScanner hx flags hequivalent).map_eq
        fun ts us hmatches => hmatches.transcript_eq hx calls

/-- An `é` between a letter and a newline, in one read before a failure. -/
def ByteSource.joinedSample : ByteSource :=
  { reads := [.bytes [0x61, 0xC3, 0xA9, 0x0A], .failed "reset"] }

/-- The same bytes and the same failure, with the `é` divided between two reads. -/
def ByteSource.dividedSample : ByteSource :=
  { reads := [.interrupted, .bytes [0x61, 0xC3], .interrupted, .interrupted, .bytes [0xA9],
      .bytes [0x0A], .failed "reset", .bytes [0x62]] }

/-- Token streams of Go over both sources cannot be told apart. -/
theorem reads_invisible_dividedSample :
    ByteSource.joinedSample.Delivers [0x61, 0xC3, 0xA9, 0x0A] (some "reset") ∧
      ByteSource.dividedSample.Delivers [0x61, 0xC3, 0xA9, 0x0A] (some "reset") ∧
      Language.Go.lexicon.IsProcedural ∧
      ∀ calls, (TokenStream.ofScanner Language.Go.lexicon .off
          (.ofStream "f" (.ofSource .dividedSample))).map (TokenStream.transcript calls) =
        (TokenStream.ofScanner Language.Go.lexicon .off
          (.ofStream "f" (.ofSource .joinedSample))).map (TokenStream.transcript calls) := by
  have hjoined : ByteSource.joinedSample.Delivers [0x61, 0xC3, 0xA9, 0x0A] (some "reset") :=
    ⟨_, .bytes (List.cons_ne_nil _ _) (.failed "reset" []), rfl⟩
  have hdivided : ByteSource.dividedSample.Delivers [0x61, 0xC3, 0xA9, 0x0A] (some "reset") :=
    ⟨_, .interrupted (.bytes (List.cons_ne_nil _ _) (.interrupted (.interrupted
      (.bytes (List.cons_ne_nil _ _) (.bytes (List.cons_ne_nil _ _)
        (.failed "reset" [.bytes [0x62]])))))), rfl⟩
  have hscanners := (reads_invisible hjoined hdivided).2 "f" _ List.mem_cons_self _
    List.mem_cons_self
  exact ⟨hjoined, hdivided, Language.Go.isProcedural,
    hscanners.2 _ Language.Go.isProcedural .off⟩

end Lexing
