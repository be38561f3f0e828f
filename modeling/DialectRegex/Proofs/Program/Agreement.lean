import DialectRegex.Proofs.Program.Termination

namespace DialectRegex

def Pending.Within (k : Pending) (ts : List Token) : Prop := ∀ p ∈ k, p.2 < ts.length

namespace Walker

variable {w : Walker} {c : Setting}

theorem Performs.through (hp : w.Performs c)
    (hall : ∀ i < w.program.tokens.length, ∃ q, ReadsSequence w.program.tokens i q) {k : Pending}
    (hk : k.Within w.program.tokens) :
    ∃ L : State → List State, (∀ t, w.run 0 t k = some (L t).head?) ∧
      ∀ t out, w.collect 0 t k out = some (w.addAll out (L t)) := by
  induction k with
  | nil =>
    exact ⟨fun t => [t], fun t => (run_tail hp.first [] t).1, fun t out => (collect_tail hp.first [] t out).1⟩
  | cons p k ih =>
    obtain ⟨g, after⟩ := p
    obtain ⟨hafter, hk⟩ := List.forall_mem_cons.mp hk
    obtain ⟨q, hq⟩ := hall after hafter
    obtain ⟨L, hone, hevery⟩ := ih hk
    refine ⟨fun t => (q.ends w.search (t.leave g)).flatMap L, fun t => ?_, fun t out => ?_⟩
    · rw [(run_tail hp.first k t).2, (hp.sequence hq).one hone, ← findSome?_some, findSome?_flatMap]
      simp only [findSome?_some]
    · rw [(collect_tail hp.first k t out).2, (hp.sequence hq).every hevery]

end Walker

namespace Regex

variable {r : Regex} {source : String} {d : Dialect} {o : Options} {input : Input Id} {text : List Char}

/-- From every token of a compiled program, and with whatever pending inside it, both ways to walk come to an end, and
what the one finds is the first of the states that the other collects. So it is with a pattern and its continuations. -/
theorem run_eq_head?_collect (hr : compile source d o = .ok r) (h : input.Reads text) (flags : SearchFlags) :
    (∀ i < r.program.tokens.length, ∀ k : Pending, k.Within r.program.tokens → ∀ s, ∃ found,
      (r.walker flags input).collect i s k [] = some found ∧
        (r.walker flags input).run i s k = some found.head? ∧
        ((r.walker flags input).run i s k = some none ↔ found = [])) ∧
    ∀ (e : Search Id) (p : Pattern) (outer : List (Option Nat × Pattern)) (s : State),
      p.first (m := Id) e (Pattern.firstAfter e outer) s =
          (e.dedup (p.all (m := Id) e (Pattern.allAfter e outer) s)).head? ∧
        (p.first (m := Id) e (Pattern.firstAfter e outer) s = none ↔
          e.dedup (p.all (m := Id) e (Pattern.allAfter e outer) s) = []) := by
  refine ⟨fun i hi k hk s => ?_, Pattern.first_eq_head?_collected⟩
  have hp := walker_performs hr h flags
  obtain ⟨hsound, hfilled⟩ := program_sound hr
  have hall := hsound.exists_readsSequence hfilled
  obtain ⟨q, hq⟩ := hall i hi
  obtain ⟨L, hone, hevery⟩ := hp.through hall hk
  let found := (q.ends (r.walker flags input).search s).flatMap L
  have hcollect : (r.walker flags input).collect i s k [] = some ((r.walker flags input).search.dedup found) := by
    rw [(hp.sequence hq).every hevery, Walker.addAll_nil]
  have hrun : (r.walker flags input).run i s k = some ((r.walker flags input).search.dedup found).head? := by
    rw [(hp.sequence hq).one hone, Search.head?_dedup, ← findSome?_some found, findSome?_flatMap]
    simp only [findSome?_some]
  refine ⟨_, hcollect, hrun, ?_⟩
  rw [hrun, Option.some_inj]
  exact List.head?_eq_none_iff

theorem run_eq_head?_collect_inside :
    ∃ (r : Regex) (found found' : List State), compile "(a|ab)(b?)" .perl5 {} = .ok r ∧
      r.program.tokens[6]? = some ⟨.group (some 1) [1, 2], 5⟩ ∧
      (r.walker {} (Haystack.ofString "abb").input).collect 7 (.initial 3 0 0) [] [] = some found ∧
      found.head? = some ⟨0, 2, [⟨some 0, some 2⟩, ⟨some 0, some 1⟩, ⟨some 1, some 2⟩]⟩ ∧
      (r.walker {} (Haystack.ofString "abb").input).collect 2 (.initial 3 0 0) [(some 1, 5), (some 0, 0)] [] =
        some found' ∧
      (r.walker {} (Haystack.ofString "abb").input).run 2 (.initial 3 0 0) [(some 1, 5), (some 0, 0)] =
        some found'.head? := by
  let word (cs : List Char) : Pattern := .test (.literal cs false)
  let body : Pattern := .seq (.group (some 1) (.alt (word ['a']) (word ['a', 'b'])))
    (.group (some 2) (.repeated (word ['b']) 0 (some 1) true))
  let r : Regex := ⟨"(a|ab)(b?)", .perl5, {}, body, 3, true, rfl⟩
  have hr : compile "(a|ab)(b?)" .perl5 {} = .ok r := by cbv
  have hlen : r.program.tokens.length = 10 := rfl
  have htext := Haystack.input_reads "abb"
  obtain ⟨hagree, _⟩ := run_eq_head?_collect hr htext {}
  rw [hlen] at hagree
  obtain ⟨found, hfound, hrun, _⟩ := hagree 7 (by decide) [] (fun _ h => absurd h List.not_mem_nil) (.initial 3 0 0)
  obtain ⟨found', hfound', hrun', _⟩ := hagree 2 (by decide) [(some 1, 5), (some 0, 0)]
    (by simp [Pending.Within, hlen]) (.initial 3 0 0)
  have hwhole := hrun.symm.trans (walk_eq hr htext (program_reads hr).1 0 0)
  refine ⟨r, found, found', hr, rfl, hfound, ?_, hfound', hrun'⟩
  exact (Option.some.inj hwhole).trans (by decide +kernel)

end Regex

end DialectRegex
