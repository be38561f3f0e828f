import DialectRegex.Proofs.Repetition.Steps
import Mathlib.Data.Fintype.Powerset
import Mathlib.Data.Fintype.Pigeonhole

namespace DialectRegex

def Settles (R : Nat → Nat → Prop) (i k : Nat) : Prop :=
  (∃ l < k, Stale R i l) ∧ ∀ j, Steps R (k - 1) i j ↔ Steps R k i j

def FirstSettled (R : Nat → Nat → Prop) (i k : Nat) : Prop := Settles R i k ∧ ∀ l < k, ¬ Settles R i l

variable {R : Nat → Nat → Prop} {n i j : Nat}

theorem steps_add_mono {a b : Nat} (h : ∀ j, Steps R a i j → Steps R b i j) (k : Nat)
    (hs : Steps R (a + k) i j) : Steps R (b + k) i j := by
  induction k generalizing j with
  | zero => exact h j hs
  | succ k ih =>
    obtain ⟨m, hm, hj⟩ := hs
    exact ⟨m, ih hm, hj⟩

/-- A run either has a step that stays, which can be made once more, or moves on with each step. -/
theorem steps_succ_or_add_le (hR : ∀ i j, R i j → Advances n i j) {k : Nat} (h : Steps R k i j) :
    Steps R (k + 1) i j ∨ i + k ≤ j := by
  induction k generalizing j with
  | zero => exact .inr (Nat.le_of_eq h)
  | succ k ih =>
    obtain ⟨m, hm, hj⟩ := h
    rcases ih hm with hs | hle
    · exact .inl ⟨m, hs, hj⟩
    · rcases hR m j hj with rfl | ⟨hlt, _⟩
      · exact .inl ⟨m, ⟨m, hm, hj⟩, hj⟩
      · exact .inr (by omega)

theorem steps_succ (hR : ∀ i j, R i j → Advances n i j) {k : Nat} (hk : n < k) (h : Steps R k i j) :
    Steps R (k + 1) i j := by
  rcases steps_succ_or_add_le hR h with hs | hle
  · exact hs
  · rcases steps_advances hR h with rfl | ⟨_, hj⟩ <;> omega

theorem steps_succ_congr (hR : ∀ i j, R i j → Advances n i j) {a b : Nat} (hab : a < b)
    (h : ∀ j, Steps R a i j ↔ Steps R b i j) (j : Nat) : Steps R a i j ↔ Steps R (a + 1) i j := by
  have hd : ∀ j, Steps R a i j ↔ Steps R (a + (b - a)) i j := by rwa [Nat.add_sub_cancel' hab.le]
  -- Whole periods on, the level is far enough for its steps to stay.
  have hfar : ∀ j, Steps R a i j ↔ Steps R (a + (b - a) * (n + 1)) i j := by
    intro j
    have hmod := steps_mod hd (j := j) ((b - a) * (n + 1))
    rwa [Nat.mul_mod_right] at hmod
  have hlong : n < a + (b - a) * (n + 1) := by
    have := Nat.le_mul_of_pos_left (n + 1) (Nat.sub_pos_of_lt hab)
    omega
  have hup : ∀ j, Steps R a i j → Steps R (a + 1) i j := by
    intro j hj
    exact (steps_add_congr hfar 1).mpr (steps_succ hR hlong ((hfar j).mp hj))
  have hups (k : Nat) : ∀ j, Steps R (a + 1) i j → Steps R (a + 1 + k) i j := by
    induction k with
    | zero => exact fun j hj => hj
    | succ k ih =>
      intro j hj
      have hnext := steps_add_mono hup (1 + k) (by rw [← Nat.add_assoc]; exact ih j hj)
      rwa [Nat.add_comm 1 k] at hnext
  refine ⟨hup j, ?_⟩
  intro hj
  have hlast := hups (b - (a + 1)) j hj
  rw [Nat.add_sub_cancel' hab] at hlast
  exact (h j).mpr hlast

theorem Settles.steps_iff {k l : Nat} (h : Settles R i k) (hl : k ≤ l) : Steps R l i j ↔ Steps R k i j := by
  obtain ⟨⟨l', hl', _⟩, hsame⟩ := h
  have hone : ∀ j, Steps R (k - 1) i j ↔ Steps R (k - 1 + 1) i j := by
    rwa [Nat.sub_add_cancel (Nat.one_le_of_lt hl')]
  have hmod := steps_mod hone (j := j) (l - (k - 1))
  rw [Nat.mod_one, Nat.add_zero, Nat.add_sub_cancel' (by omega)] at hmod
  exact hmod.symm.trans (hsame j)

theorem exists_settles (hR : ∀ i j, R i j → Advances n i j) (i : Nat) : ∃ k, Settles R i k := by
  classical
  let offsets := insert i (Finset.range (n + 1))
  obtain ⟨f, hf, _⟩ := exists_firstStale fun k j (h : Steps R k i j) => (steps_advances hR h).mem
  -- There are finitely many sets of offsets, so two levels past `f` have the same one.
  let reach (k : Nat) : offsets.powerset :=
    ⟨offsets.filter fun j => Steps R (f + k) i j, Finset.mem_powerset.mpr (Finset.filter_subset _ _)⟩
  obtain ⟨a, b, hne, heq⟩ := Finite.exists_ne_map_eq_of_infinite reach
  have hsame : ∀ j, Steps R (f + a) i j ↔ Steps R (f + b) i j := by
    intro j
    have hmem := Finset.ext_iff.mp (Subtype.ext_iff.mp heq) j
    simp only [reach, Finset.mem_filter] at hmem
    constructor
    · intro h
      exact (hmem.mp ⟨(steps_advances hR h).mem, h⟩).2
    · intro h
      exact (hmem.mpr ⟨(steps_advances hR h).mem, h⟩).2
  rcases Nat.lt_or_gt_of_ne hne with hlt | hlt
  · exact ⟨f + a + 1, ⟨f, by omega, hf⟩, steps_succ_congr hR (by omega) hsame⟩
  · exact ⟨f + b + 1, ⟨f, by omega, hf⟩, steps_succ_congr hR (by omega) fun j => (hsame j).symm⟩

theorem exists_firstSettled (hR : ∀ i j, R i j → Advances n i j) (i : Nat) : ∃ k, FirstSettled R i k := by
  classical
  have hex := exists_settles hR i
  exact ⟨Nat.find hex, Nat.find_spec hex, fun l hl => Nat.find_min hex hl⟩

end DialectRegex
