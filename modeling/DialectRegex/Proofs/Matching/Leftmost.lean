import DialectRegex.Dialect.Named
import DialectRegex.Proofs.Matching.Shifted
import DialectRegex.Proofs.Matching.Unrolling

namespace DialectRegex

theorem Capture.shift_zero : Capture.shift 0 = id := by
  funext k
  simp [shift]

theorem State.shift_zero (origin : Nat) (s : State) : s.shift 0 origin = ⟨origin, s.offset, s.captures⟩ := by
  simp [shift, Capture.shift_zero]

theorem Test.shifts_origin {e : Search Id} {c : Setting} (he : e.Sees c) (ha : c.flags.anchorOrigin = false) {i : Nat}
    (hi : c.origin ≤ i) (t : Test) : t.Shifts 0 i e e c i := by
  intro s hs
  have hsame : t.moves? e ⟨i, s.offset, s.captures⟩ = t.moves? e s := by
    rw [moves?, moves?, he.flags]
    cases t with
    | anchor edge multiline =>
      cases edge with
      | stop => rfl
      | start =>
        -- At offset 0 both searches have just begun, and further on only the beginnings of lines are left.
        have hbegin : (s.offset == 0 && i == 0) = (s.offset == 0 && s.origin == 0) := by
          have hadv := hs.advances
          simp only [Advances] at hadv
          rw [Bool.eq_iff_iff]
          simp only [Bool.and_eq_true, beq_iff_eq, hs.origin]
          omega
        have hedge : @Eq Bool (atEdge (m := Id) e.input.charAt c.flags multiline ⟨i, s.offset, s.captures⟩ .start)
            (atEdge (m := Id) e.input.charAt c.flags multiline s .start) := by
          rw [atEdge_start he.charAt, atEdge_start he.charAt, ha]
          simp only [Bool.false_eq_true, ↓reduceIte, hbegin]
        apply Option.ext
        intro j
        rw [anchor_run, anchor_run, hedge]
    | literal | any | named | set | boundary | backref => rfl
  rw [State.shift_zero, hsame]
  simp

namespace Regex

variable {r : Regex} {source : String} {d : Dialect} {o : Options} {flags : SearchFlags} {input : Input Id}
  {text : List Char}

theorem ofState_eq (hr : compile source d o = .ok r) (h : input.Reads text) {origin i : Nat} {t : State}
    (ht : (r.run r.whole flags input origin i : Option State) = some t) :
    Match.ofState t = ⟨i, t.offset, t.captures.map Capture.range?⟩ := by
  obtain ⟨hstart, hstop⟩ := ofState_run hr h ht
  calc Match.ofState t
      = ⟨(Match.ofState t).start, (Match.ofState t).stop, t.captures.map Capture.range?⟩ := rfl
    _ = ⟨i, t.offset, t.captures.map Capture.range?⟩ := by rw [hstart, hstop]

theorem attempt_origin (hr : compile source d o = .ok r) (h : input.Reads text) (ha : flags.anchorOrigin = false)
    {origin i : Nat} (hi : origin ≤ i) :
    (r.run r.whole flags input i i : Option State).map Match.ofState =
      (r.run r.whole flags input origin i : Option State).map Match.ofState := by
  have he := search_sees r flags h origin
  have hrun : r.run r.whole flags input i i =
      (r.run r.whole flags input origin i : Option State).map (State.shift 0 i) :=
    run_shift h h (Nat.le_refl _) (Pattern.everyTest (Test.shifts_origin he ha hi) r.whole)
  rw [hrun, Option.map_map]
  apply Option.map_congr
  intro t ht
  have ht' : (r.run r.whole flags input i i : Option State) = some (t.shift 0 i) := by
    rw [hrun, ht]
    rfl
  rw [Function.comp_apply, ofState_eq hr h ht, ofState_eq hr h ht', State.shift_zero]

theorem matchAt_attempt (hr : compile source d o = .ok r) (h : input.Reads text) (ha : flags.anchorOrigin = false)
    {origin i : Nat} (hi : origin ≤ i) (hend : i ≤ text.length) :
    r.matchAt flags input i = (r.run r.whole flags input origin i : Option State).map Match.ofState := by
  rw [matchAt_eq h, if_neg (Nat.not_lt.mpr hend)]
  exact attempt_origin hr h ha hi

theorem findAt_first_attempt (hr : compile source d o = .ok r) (h : input.Reads text)
    (ha : flags.anchorOrigin = false) (offset : Nat) :
    (∀ found, r.findAt flags input offset = some found ↔
      ∃ p, offset ≤ p ∧ p ≤ text.length ∧ r.matchAt flags input p = some found ∧
        ∀ q, offset ≤ q → q < p → r.matchAt flags input q = none) ∧
      (r.findAt flags input offset = none ↔
        ∀ p, offset ≤ p → p ≤ text.length → r.matchAt flags input p = none) := by
  have hattempt (p : Nat) (hle : offset ≤ p) (hend : p ≤ text.length) := matchAt_attempt hr h ha hle hend
  have hfails (p : Nat) (hle : offset ≤ p) (hend : p ≤ text.length) :
      r.matchAt flags input p = none ↔ (r.run r.whole flags input offset p : Option State) = none := by
    rw [hattempt p hle hend, Option.map_eq_none_iff]
  constructor
  · intro found
    rw [findAt_eq_some_iff h]
    constructor
    · rintro ⟨p, hle, hend, hp, hfirst⟩
      refine ⟨p, hle, hend, (hattempt p hle hend).trans hp, ?_⟩
      intro q hq hlt
      exact (hfails q hq (by omega)).mpr (hfirst q hq hlt)
    · rintro ⟨p, hle, hend, hp, hfirst⟩
      refine ⟨p, hle, hend, (hattempt p hle hend).symm.trans hp, ?_⟩
      intro q hq hlt
      exact (hfails q hq (by omega)).mp (hfirst q hq hlt)
  · rw [findAt_eq_none_iff h]
    exact forall₃_congr fun p hle hend => (hfails p hle hend).symm

theorem findAt_first_attempt_lookahead :
    ∃ r : Regex, compile "(?:^|(?=(b*))b)(a)\\2" .perl5 {} = .ok r ∧
      (Haystack.ofString "cabaa").input.Reads "cabaa".toList ∧ SearchFlags.anchorOrigin {} = false ∧
      (r.findAt {} (Haystack.ofString "cabaa").input 1 : Option Match) =
        some ⟨2, 5, [some (2, 5), some (2, 3), some (3, 4)]⟩ ∧
      ∀ p, 3 ≤ p → p ≤ 5 → (r.matchAt {} (Haystack.ofString "cabaa").input p : Option Match) = none := by
  let word (cs : List Char) : Pattern := .test (.literal cs false)
  let front : Pattern := .alt (.test (.anchor .start false))
    (.seq (.look false (.group (some 1) (.repeated (word ['b']) 0 none true))) (word ['b']))
  let body : Pattern := .seq (.group none front) (.seq (.group (some 2) (word ['a'])) (.test (.backref 2 false)))
  let r : Regex := ⟨"(?:^|(?=(b*))b)(a)\\2", .perl5, {}, body, 3, false, rfl⟩
  let m : Match := ⟨2, 5, [some (2, 5), some (2, 3), some (3, 4)]⟩
  have hr : compile "(?:^|(?=(b*))b)(a)\\2" .perl5 {} = .ok r := by cbv
  have hread := Haystack.input_reads "cabaa"
  have hfirst : @Eq (Option Match) (r.matchAt {} (Haystack.ofString "cabaa").input 1) none := by decide +kernel
  have hsecond : @Eq (Option Match) (r.matchAt {} (Haystack.ofString "cabaa").input 2) (some m) := by decide +kernel
  have hlater : @Eq (Option Match) (r.findAt {} (Haystack.ofString "cabaa").input 3) none := by decide +kernel
  refine ⟨r, hr, hread, rfl, ?_, ?_⟩
  · refine ((findAt_first_attempt hr hread rfl 1).1 m).mpr ⟨2, by decide, by decide, hsecond, ?_⟩
    intro q hq hlt
    obtain rfl : q = 1 := by omega
    exact hfirst
  · intro p hle hend
    exact (findAt_first_attempt hr hread rfl 3).2.mp hlater p hle hend

end Regex

end DialectRegex
