import DialectRegex.Proofs.Matching.Expansion
import DialectRegex.Proofs.Repetition.Settling

namespace DialectRegex.Rounds

variable {r : Rounds Id} {P : State → Prop} {R : Nat → Nat → Prop} {s : State} {m : Nat}

theorem Follows.visited_exact (h : r.Follows P R) (hs : P s) {offsets : Finset Nat}
    (ho : ∀ t, P t → t.offset ∈ offsets) (hmin : r.min = m) (hmax : r.max = some m) {f : Frontier}
    (hf : r.Growing R s f) (hc : f.count ≤ m) {fuel : Nat} (hfuel : offsets.card < fuel + f.count) :
    (r.visited fuel f = [] ∧ r.level m [s] = []) ∨
      ∃ q, r.visited fuel f = [r.level q [s]] ∧
        ((q = m ∧ ∀ k < m, ¬ Stale R s.offset k) ∨
          ∃ first ≤ m, FirstStale R s.offset first ∧ r.StandsFor [s] first m q) := by
  induction fuel generalizing f with
  | zero =>
    have := hf.count_lt h hs ho
    omega
  | succ fuel ih =>
    have hcases := hf.next?_cases h hs
    rw [visited, hmin]
    by_cases hlast : m ≤ f.count
    · have hcount : f.count = m := Nat.le_antisymm hc hlast
      rw [if_pos hlast]
      cases hn : r.next? f with
      | none =>
        refine .inr ⟨m, ?_, .inl ⟨rfl, fun k hk => hf.fresh k (by omega)⟩⟩
        rw [hf.level_eq, hcount]
        rfl
      | some f' =>
        rw [hn] at hcases
        exact absurd (hcases.1 m hmax) (Nat.not_lt.mpr hlast)
    · rw [if_neg hlast, List.nil_append]
      cases hn : r.next? f with
      | none =>
        rw [hn, hmin] at hcases
        rcases hcases with ⟨m', hm', hle⟩ | ⟨k, hk, hnil⟩
        · rw [hmax] at hm'
          cases hm'
          exact absurd hle hlast
        · exact .inl ⟨rfl, h.level_eq_nil hs (by omega) hnil⟩
      | some f' =>
        rw [hn] at hcases
        obtain ⟨_, ⟨hf', hcount⟩ | hf'⟩ := hcases
        · exact ih hf' (by omega) (by omega)
        · have hcount : f'.count = m := by
            have := hf'.count_eq
            omega
          obtain ⟨q, hq, hlevel⟩ := hf'.level_eq
          obtain ⟨n, rfl⟩ : ∃ n, fuel = n + 1 := ⟨fuel - 1, by have := hf.count_lt h hs ho; omega⟩
          have hstale : FirstStale R s.offset (f.count + 1) :=
            ⟨hf'.stale, fun l hl => hf.fresh l (Nat.le_of_lt_succ hl)⟩
          dsimp only
          rw [visited_stalled hf'.stalled (by omega), hlevel]
          exact .inr ⟨q, rfl, .inr ⟨f.count + 1, by omega, hstale, hcount ▸ hq⟩⟩

theorem Follows.recurs_iff (h : r.Follows P R) (hs : P s) {first x : Nat} :
    r.Recurs [s] first x ↔ ∃ y, first ≤ y ∧ y < x ∧ ∀ j, Steps R y s.offset j ↔ Steps R x s.offset j := by
  simp only [Recurs, State.offsets_eq_iff, h.mem_level hs]

theorem Follows.standsFor_settled (h : r.Follows P R) (hs : P s) {n : Nat} (hR : ∀ i j, R i j → Advances n i j)
    {first q x : Nat} (hfirst : FirstStale R s.offset first) (hq : r.StandsFor [s] first m q)
    (hx : FirstSettled R s.offset x) : q = Min.min m x := by
  have hrecurs {z : Nat} (hz : Settles R s.offset z) : first < z ∧ r.Recurs [s] first z := by
    obtain ⟨⟨l, hl, hstale⟩, hsame⟩ := hz
    have hfl : first ≤ l := Nat.not_lt.mp fun hlt => hfirst.2 l hlt hstale
    exact ⟨by omega, (h.recurs_iff hs).mpr ⟨z - 1, by omega, by omega, hsame⟩⟩
  obtain ⟨hfx, hrx⟩ := hrecurs hx.1
  rcases hq with ⟨rfl, hnone⟩ | ⟨x', y, hfy, hyx, hle, hsame, hnone, rfl⟩
  · have hgt : q < x := by
      by_contra hle
      exact hnone x hfx (Nat.not_lt.mp hle) hrx
    omega
  · have hsteps : ∀ j, Steps R y s.offset j ↔ Steps R x' s.offset j := by
      simpa only [State.offsets_eq_iff, h.mem_level hs] using hsame
    have hnext := steps_succ_congr hR hyx hsteps
    -- The first level that comes back comes back at once.
    have hy : x' = y + 1 := by
      by_contra hne
      exact hnone (y + 1) (by omega) (by omega) ((h.recurs_iff hs).mpr ⟨y, hfy, by omega, hnext⟩)
    subst hy
    have hx' : Settles R s.offset (y + 1) := ⟨⟨first, by omega, hfirst.1⟩, hnext⟩
    have hxy : x = y + 1 := by
      rcases Nat.lt_trichotomy x (y + 1) with hlt | heq | hlt
      · exact absurd hrx (hnone x hfx hlt)
      · exact heq
      · exact absurd hx' (hx.2 _ hlt)
    have hone : y + 1 - y = 1 := by omega
    rw [hone, Nat.mod_one]
    omega

theorem Follows.outcomes_exact (h : r.Follows P R) (hs : P s) {n : Nat} (hR : ∀ i j, R i j → Advances n i j)
    {offsets : Finset Nat} (ho : ∀ t, P t → t.offset ∈ offsets) (hmin : r.min = m) (hmax : r.max = some m)
    {fuel : Nat} (hfuel : offsets.card < fuel) (greedy : Bool) {x : Nat} (hx : FirstSettled R s.offset x) :
    r.outcomes fuel greedy s = r.level (Min.min m x) [s] := by
  have hflat {ls : List (List State)} {l : List State} (hl : ls.flatten = l) (hone : ls.length ≤ 1) :
      (if greedy then ls.reverse else ls).flatten = l := by
    match ls, hone with
    | [], _ | [_], _ => cases greedy <;> exact hl
  have hv := h.visited_exact hs ho hmin hmax (growing_initial r R s) (Nat.zero_le m) hfuel
  rw [outcomes]
  rcases hv with ⟨hnone, hnil⟩ | ⟨q, hone, hq⟩
  · rw [hnone]
    refine hflat ?_ (Nat.zero_le 1)
    rw [List.flatten_nil]
    by_cases hxm : x ≤ m
    · rw [Nat.min_eq_right hxm, eq_comm, h.level_eq_nil_iff hs]
      intro j hj
      exact (h.level_eq_nil_iff hs m).mp hnil j ((hx.1.steps_iff hxm).mpr hj)
    · rw [Nat.min_eq_left (by omega), hnil]
  · have hqx : q = Min.min m x := by
      rcases hq with ⟨rfl, hfresh⟩ | ⟨first, _, hfirst, hstands⟩
      · obtain ⟨⟨l, hl, hstale⟩, _⟩ := hx.1
        have hql : q ≤ l := Nat.not_lt.mp fun hlt => hfresh l hlt hstale
        omega
      · exact h.standsFor_settled hs hR hfirst hstands hx
    rw [hone, ← hqx]
    exact hflat (List.flatten_singleton) (Nat.le_refl 1)

end DialectRegex.Rounds
