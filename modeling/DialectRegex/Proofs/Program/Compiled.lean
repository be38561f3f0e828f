import DialectRegex.Proofs.Program.Parser

namespace DialectRegex

open Dialect (Run)

variable {o : Options}

theorem Pattern.Formed.program {body : Pattern} {groups : Nat} (h : body.Formed o .alternatives 1 groups) :
    let laid := body.layout.alternatives [⟨.tail, 0⟩]
    (Program.around laid.1 laid.2 groups body.hasBackref).WellFormed ∧ Sound laid.2 ∧
      ReadsAlternatives laid.2 laid.1 body := by
  intro laid
  obtain ⟨k, rfl, hnumbers⟩ := h.numbers_eq
  obtain ⟨_, hsound, hreads⟩ := h.laid [⟨.tail, 0⟩] .tail
  have hn : (tally TokenKind.numbers laid.2).Perm body.numbers := (tallies_numbers.adds body _).alternatives
  have hb : (tally TokenKind.backrefs laid.2).Perm body.backrefs := (tallies_backrefs.adds body _).alternatives
  rw [hnumbers] at hn
  refine ⟨Program.around_wellFormed hsound (hsound.alternatives_lt hreads) hn ?_ ?_, hsound, hreads⟩
  · exact fun g hg => h.backrefs_lt.2 g (hb.mem_iff.mp hg)
  · rw [Pattern.hasBackref_iff, Ne, Ne, ← List.length_eq_zero_iff, ← List.length_eq_zero_iff, hb.length_eq]

/-- Compiling goes from step to step, each of which reads on, until one of them fails or the whole text has been read.
Then all references in the program are in order, its groups and references are those of the pattern, and it says the
same. Parsing the text, with nothing read outside of it, gives this program or this error. -/
theorem Regex.compile_program (source : String) (d : Dialect) (o : Options) :
    (Parser.parse ⟨d, o, source.toList⟩ =
      match compile source d o with
      | .error e => throw e
      | .ok r => pure r.program) ∧
    ∃ q, Run d o (.start source.toList) q ∧
      (∀ p, Run d o (.start source.toList) p → p.rest <:+ source.toList ∧
        ∀ c rest p', p.rest = c :: rest → d.step o p c rest = .ok p' → p'.rest <:+ rest) ∧
      match compile source d o with
      | .error e => ∃ fault : Fault, fault.rest <:+ source.toList ∧ e = fault.locate source.toList ∧
          (q.rest = [] ∧ q.outer ≠ [] ∧ fault = ⟨.unmatchedOpen, q.frame.opened⟩ ∨
            ∃ c rest, q.rest = c :: rest ∧ d.step o q c rest = .error fault)
      | .ok r => q.rest = [] ∧ q.outer = [] ∧ r.body = q.frame.body o.ignoreCase ∧ r.groupCount = q.groups ∧
          r.program.WellFormed ∧ ∀ p, (ReadsSequence r.program.tokens r.program.root p ↔ p = r.whole) ∧
            (ReadsSequence r.program.tokens r.program.full p ↔ p = r.wholeToEnd) := by
  refine ⟨Parser.parse_eq source d o, ?_⟩
  have hstart : Dialect.Along source.toList (.start source.toList) :=
    ⟨List.suffix_rfl, List.forall_mem_singleton.mpr List.suffix_rfl⟩
  obtain ⟨q, hq, hend⟩ := Dialect.finish_stops d o (.start source.toList)
  refine ⟨q, hq, ?_, ?_⟩
  · exact fun p hp => ⟨(hstart.run hp).rest, fun c rest p' hr hs => Dialect.step_suffix hr hs⟩
  · have halong := hstart.run hq
    rw [compile, DialectRegex.compile]
    cases hf : d.finish o (.start source.toList) with
    | error e =>
      rw [hf] at hend
      refine ⟨e, ?_, rfl, hend⟩
      rcases hend with ⟨-, -, rfl⟩ | ⟨c, rest, hr, hs⟩
      · exact halong.opened q.frame List.mem_cons_self
      · have hstays := Dialect.step_stays (d := d) (o := o) hr
        rw [hs] at hstays
        exact List.IsSuffix.trans hstays halong.rest
    | ok result =>
      obtain ⟨body, groups⟩ := result
      rw [hf] at hend
      obtain ⟨hrest, houter, hbody, hgroups⟩ := hend
      have hcompile : DialectRegex.compile d o source.toList = .ok (body, groups) := by rw [DialectRegex.compile, hf]
      obtain ⟨hwf, hsound, hreads⟩ := (compile_formed hcompile).program
      refine ⟨hrest, houter, hbody, hgroups, ?_⟩
      rw [program_eq]
      exact ⟨hwf, fun p => Program.around_reads hsound hreads⟩

theorem Regex.compile_program_repeated :
    ∃ r : Regex, compile "a(b|cd)*\\1" .perl5 {} = .ok r ∧
      r.program = ⟨[⟨.tail, 0⟩, ⟨.test (.literal ['b'] false), 0⟩, ⟨.test (.literal ['c', 'd'] false), 0⟩,
        ⟨.group (some 1) [1, 2], 0⟩, ⟨.test (.backref 1 false), 0⟩, ⟨.repeated 3 0 none true, 4⟩,
        ⟨.test (.literal ['a'] false), 5⟩, ⟨.group (some 0) [6], 0⟩, ⟨.test (.anchor .stop false), 0⟩,
        ⟨.group (some 0) [6], 8⟩], 7, 9, 2, true⟩ ∧
      r.program.WellFormed ∧ Parser.parse ⟨.perl5, {}, "a(b|cd)*\\1".toList⟩ = pure r.program := by
  let word (cs : List Char) : Pattern := .test (.literal cs false)
  let body : Pattern :=
    .seq (word ['a']) (.seq (.repeated (.group (some 1) (.alt (word ['b']) (word ['c', 'd']))) 0 none true)
      (.test (.backref 1 false)))
  let r : Regex := ⟨"a(b|cd)*\\1", .perl5, {}, body, 2, false, rfl⟩
  have hr : compile "a(b|cd)*\\1" .perl5 {} = .ok r := by cbv
  obtain ⟨hparse, q, -, -, hend⟩ := compile_program "a(b|cd)*\\1" .perl5 {}
  rw [hr] at hparse hend
  exact ⟨r, hr, rfl, hend.2.2.2.2.1, hparse⟩

end DialectRegex
