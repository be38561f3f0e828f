import DialectRegex.Dialect.Named
import DialectRegex.Proofs.Matching.Searches
import Mathlib.Tactic.IntervalCases

namespace DialectRegex.Pattern

variable {e : Search Id} {c : Setting}

theorem first_probe (p : Pattern) (s : State) (j : Nat) :
    (p.first (m := Id) e (fun t => if t.offset = j then some t else none) s : Option State).isSome = true ↔
      j ∈ (p.ends e s).map State.offset := by
  rw [first_eq, List.findSome?_isSome_iff, List.mem_map]
  apply exists_congr
  intro t
  apply and_congr_right
  intro _
  by_cases ht : t.offset = j <;> simp [ht]

/-- Where a repetition ends, or lets the rest of the pattern begin: after an allowed number of rounds up to the
first stale level, or up to `lo`. Nothing is lost just if no allowed number beyond leads anywhere else. -/
theorem repeated_offsets (he : e.Sees c) {p : Pattern} (hb : p.hasBackref = false) (hv : p.EveryRepeat InOrder)
    {lo : Nat} {hi : Option Nat} (hlohi : InOrder lo hi) (greedy : Bool) {s : State} (hs : s.origin = c.origin) :
    (∀ t, t.origin = c.origin → ∀ j, j ∈ (p.ends e t).map State.offset ↔ p.Reaches c t.offset j) ∧
    ∃ f, FirstStale (p.Reaches c) s.offset f ∧
      (∀ j, j ∈ ((repeated p lo hi greedy).ends e s).map State.offset ↔
        ∃ k ≤ max f lo, Allows lo hi k ∧ Steps (p.Reaches c) k s.offset j) ∧
      (∀ j, ((repeated p lo hi greedy).first (m := Id) e (fun t => if t.offset = j then some t else none) s :
          Option State).isSome = true ↔
        ∃ k ≤ max f lo, Allows lo hi k ∧ Steps (p.Reaches c) k s.offset j) ∧
      ((∀ j, j ∈ ((repeated p lo hi greedy).ends e s).map State.offset ↔
          Counted (p.Reaches c) lo hi s.offset j) ↔
        ∀ k > max f lo, Allows lo hi k → ∀ j, Steps (p.Reaches c) k s.offset j →
          ∃ l ≤ max f lo, Allows lo hi l ∧ Steps (p.Reaches c) l s.offset j) := by
  have hround (t : State) (ht : t.origin = c.origin) (j : Nat) := mem_ends_iff he hb hv ht j
  have hR (i j : Nat) (h : p.Reaches c i j) : Advances c.text.length i j := h.advances he hb hv
  obtain ⟨f, hf⟩ := exists_firstStale (i := s.offset) fun k j h => (steps_advances hR h).mem
  have hends (j : Nat) : j ∈ ((repeated p lo hi greedy).ends e s).map State.offset ↔
      ∃ k ≤ max f lo, Allows lo hi k ∧ Steps (p.Reaches c) k s.offset j :=
    (mem_ends_repeated he hround hlohi greedy hs j).trans (levelled_iff_le hf)
  refine ⟨hround, f, hf, hends, fun j => (first_probe _ s j).trans (hends j), ?_⟩
  constructor
  · intro hall k _ hk j hj
    exact (hends j).mp ((hall j).mpr ⟨k, hk, hj⟩)
  · intro hlate j
    rw [hends]
    constructor
    · rintro ⟨k, _, hk⟩
      exact ⟨k, hk⟩
    · rintro ⟨k, hk, hj⟩
      by_cases hle : k ≤ max f lo
      · exact ⟨k, hle, hk, hj⟩
      · exact hlate k (Nat.not_le.mp hle) hk j hj

theorem repeated_offsets_twice :
    ∃ (e : Search Id) (c : Setting) (p : Pattern) (s : State), e.Sees c ∧ p.hasBackref = false ∧
      p.EveryRepeat InOrder ∧ InOrder 2 (some 3) ∧ s.origin = c.origin ∧ s.offset = 1 ∧
      4 ∈ ((repeated p 2 (some 3) true).ends e s).map State.offset ∧
      ∃ k, Allows 2 (some 3) k ∧ Steps (p.Reaches c) k 1 4 := by
  let p : Pattern := .alt (.test (.literal ['a', 'b'] false)) (.test (.literal ['a'] false))
  let e : Search Id := ⟨(Haystack.ofString "xaab").input, {}, true⟩
  let c : Setting := ⟨"xaab".toList, {}, 0⟩
  let s : State := .initial 1 0 1
  have hread := Haystack.input_reads "xaab"
  have he : e.Sees c := ⟨hread.charAt, hread.limit, rfl⟩
  have horder : InOrder 2 (some 3) := by simp [InOrder]
  have hmem : 4 ∈ ((repeated p 2 (some 3) true).ends e s).map State.offset := by decide +kernel
  obtain ⟨_, f, _, hends, _⟩ := repeated_offsets (p := p) (s := s) he rfl ⟨trivial, trivial⟩ horder true rfl
  obtain ⟨k, _, hk⟩ := (hends 4).mp hmem
  exact ⟨e, c, p, s, he, rfl, ⟨trivial, trivial⟩, horder, rfl, rfl, hmem, k, hk⟩

/-- Four rounds of one character reach the end, and four rounds are allowed. Three rounds lead back to an
offset that one long round reaches, so that the fourth level is never built. -/
theorem repeated_misses_offset :
    ∃ (r : Regex) (p : Pattern), Regex.compile "(?:aaa|a){3,4}$" .perl5 {} = .ok r ∧
      r.body = .seq (.repeated p 3 (some 4) true) (.test (.anchor .stop false)) ∧ p.hasBackref = false ∧
      Counted (p.Reaches ⟨"aaaa".toList, {}, 0⟩) 3 (some 4) 0 4 ∧
      4 ∉ ((repeated p 3 (some 4) true).ends ⟨(Haystack.ofString "aaaa").input, {}, true⟩
        (.initial 1 0 0)).map State.offset ∧
      r.matchAt {} (Haystack.ofString "aaaa").input 0 = none := by
  let p : Pattern := .group none (.alt (.test (.literal ['a', 'a', 'a'] false)) (.test (.literal ['a'] false)))
  let r : Regex := ⟨"(?:aaa|a){3,4}$", .perl5, {},
    .seq (.repeated p 3 (some 4) true) (.test (.anchor .stop false)), 1, true, rfl⟩
  have hr : Regex.compile "(?:aaa|a){3,4}$" .perl5 {} = .ok r := by cbv
  have hone (i : Nat) (hi : i < 4) : p.Reaches ⟨"aaaa".toList, {}, 0⟩ i (i + 1) := by
    refine .inr ⟨rfl, ?_⟩
    interval_cases i <;> exact .cons (by decide) .nil
  have hcounted : Counted (p.Reaches ⟨"aaaa".toList, {}, 0⟩) 3 (some 4) 0 4 := by
    refine ⟨4, ⟨by omega, by simp⟩, 3, ⟨2, ⟨1, ⟨0, rfl, ?_⟩, ?_⟩, ?_⟩, ?_⟩
    · exact hone 0 (by omega)
    · exact hone 1 (by omega)
    · exact hone 2 (by omega)
    · exact hone 3 (by omega)
  refine ⟨r, p, hr, rfl, rfl, hcounted, by decide +kernel, ?_⟩
  have hnone : Option.isNone (r.matchAt {} (Haystack.ofString "aaaa").input 0 : Id (Option Match)) = true := by
    decide +kernel
  exact Option.isNone_iff_eq_none.mp hnone

end DialectRegex.Pattern
