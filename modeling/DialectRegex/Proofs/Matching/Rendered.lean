import DialectRegex.Proofs.Grammar.Rereading
import DialectRegex.Proofs.Matching.Iteration

namespace DialectRegex

namespace Matches

variable {r r' : Regex} {input : Input Id}

theorem findFrom_congr {flags : SearchFlags}
    (h : ∀ origin i, (r'.run r'.whole flags input origin i : Option State) = r.run r.whole flags input origin i)
    (origin fuel start : Nat) :
    r'.findFrom (m := Id) flags input origin fuel start = r.findFrom (m := Id) flags input origin fuel start := by
  induction fuel generalizing start with
  | zero => rfl
  | succ fuel ih =>
    rw [Regex.findFrom, Regex.findFrom, h]
    cases (r.run r.whole flags input origin start : Option State) with
    | some t => rfl
    | none =>
      cases (input.charAt start : Option Char) with
      | none => rfl
      | some c => exact ih (start + 1)

end Matches

namespace Regex

variable {r : Regex} {source : String} {d : Dialect} {o : Options}

theorem compile_render (hr : compile source d o = .ok r) (hm : o.multiline = false) (hs : r.body.Spelled o) :
    DialectRegex.compile .perl5 o r.body.render = .ok (r.body.reread, r.groupCount) := by
  have hreads := (compile_formed (compile_eq_ok hr)).reads hs hm
  obtain ⟨f, _, hbody, hread⟩ := hreads (.begin (.capturing 0) r.body.render) [] [] rfl (by simp [Unmarked])
  rw [List.append_nil] at hread
  apply compile_of_finish
  refine hread.trans ((Dialect.finish_nil rfl).trans ?_)
  rw [hbody]
  rfl

def rewritten (r : Regex) (o : Options) : Regex where
  source := r.render
  dialect := .perl5
  options := o
  body := r.body.reread
  groupCount := r.groupCount
  merge := r.merge
  merge_eq := by rw [r.merge_eq, Pattern.hasBackref_reread]

theorem run_rewritten (r : Regex) (o : Options) (flags : SearchFlags) (input : Input Id) (origin i : Nat) :
    ((r.rewritten o).run (r.rewritten o).whole flags input origin i : Option State) =
      r.run r.whole flags input origin i := by
  rw [run_eq, run_eq, whole, whole, Pattern.ends_group, Pattern.ends_group]
  dsimp only [rewritten]
  rw [Pattern.ends_reread]
  rfl

theorem findAt_rewritten (r : Regex) (o : Options) (flags : SearchFlags) (input : Input Id) (offset : Nat) :
    ((r.rewritten o).findAt flags input offset : Option Match) = r.findAt flags input offset := by
  rw [findAt, findAt]
  simp only [Matches.findFrom_congr (run_rewritten r o flags input)]

/-- The text of a pattern whose tests can all be spelled in the Perl dialect compiles to one that is written the same,
has the same groups and the same least length, and finds the same matches in every text. -/
theorem rendered_compiles (hr : compile source d o = .ok r) (hm : o.multiline = false) (hs : r.body.Spelled o) :
    ∃ r', compile r.render .perl5 o = .ok r' ∧ r'.render = r.render ∧ r'.groupCount = r.groupCount ∧
      r'.minLength = r.minLength ∧ ∀ h : Haystack, r'.findAll h = r.findAll h := by
  refine ⟨r.rewritten o, ?_, ?_, rfl, Pattern.minLength_reread r.body, ?_⟩
  · have htext : r.render.toList = r.body.render := Pattern.toList_write r.body ""
    have hmerge : (!r.body.reread.hasBackref) = r.merge := by rw [r.merge_eq, Pattern.hasBackref_reread]
    rw [compile, htext, compile_render hr hm hs]
    simp only [rewritten, hmerge]
  · apply String.toList_inj.mp
    rw [render, render, Pattern.toList_write, Pattern.toList_write]
    exact congrArg _ (Pattern.render_reread r.body)
  · intro h
    exact findAll_congr rfl (findAt_rewritten r o {} h.input)

theorem rendered_compiles_repetitions :
    ∃ r : Regex, compile "([[:digit:]-]{2}{3}|x\\.)+\\1" .posixExtended {} = .ok r ∧ r.body.Spelled {} ∧
      r.render = "((?:[\\d\\-]{2}){3}|x\\.)+\\1" ∧
      ∃ r', compile r.render .perl5 {} = .ok r' ∧ r'.render = r.render ∧ r'.groupCount = r.groupCount ∧
        r'.minLength = r.minLength ∧ (∀ h : Haystack, r'.findAll h = r.findAll h) ∧
        r.findAll (.ofString "0-x.x.") = [⟨2, 6, [some (2, 6), some (2, 4)]⟩] := by
  let pair : Pattern := .repeated (.test (.set ⟨[.named .digit false, .char '-'], false, false, false⟩)) 2 (some 2) true
  let body : Pattern := .alt (.repeated pair 3 (some 3) true) (.test (.literal ['x', '.'] false))
  let r : Regex := ⟨"([[:digit:]-]{2}{3}|x\\.)+\\1", .posixExtended, {},
    .seq (.repeated (.group (some 1) body) 1 none true) (.test (.backref 1 false)), 2, false, rfl⟩
  have hbody : DialectRegex.compile .posixExtended {} r.source.toList = .ok (r.body, 2) := by decide +kernel
  have hr : compile r.source .posixExtended {} = .ok r := by rw [compile, hbody]; rfl
  have hs : r.body.Spelled {} := by
    simp [r, body, pair, Pattern.Spelled, Test.Spelled, SetItem.Spelled, CharClass.escape?]
  obtain ⟨r', hcompile, hrender, hcount, hlength, hall⟩ := rendered_compiles hr rfl hs
  exact ⟨r, hr, hs, by decide +kernel, r', hcompile, hrender, hcount, hlength, hall, by decide +kernel⟩

end Regex

end DialectRegex
