import Mathlib.Data.Finset.Card
import Mathlib.Data.Finset.Range
import Mathlib.Data.Nat.Find

/-!
Repetition as a relation between offsets. A repetition by levels goes on until a level is stale, that is,
until it reaches nothing new. It can miss what a later level would reach, but not if one round is enough.
-/

namespace DialectRegex

def Steps (R : Nat → Nat → Prop) : Nat → Nat → Nat → Prop
  | 0, i, j => i = j
  | k + 1, i, j => ∃ m, Steps R k i m ∧ R m j

/-- Whatever `k` steps reach from `i`, fewer steps reach too. -/
def Stale (R : Nat → Nat → Prop) (i k : Nat) : Prop := ∀ j, Steps R k i j → ∃ l < k, Steps R l i j

def FirstStale (R : Nat → Nat → Prop) (i k : Nat) : Prop := Stale R i k ∧ ∀ l < k, ¬ Stale R i l

def InOrder (min : Nat) (max : Option Nat) : Prop := ∀ m ∈ max, min ≤ m

def Allows (min : Nat) (max : Option Nat) (k : Nat) : Prop := min ≤ k ∧ ∀ m ∈ max, k ≤ m

def Advances (n i j : Nat) : Prop := i = j ∨ i < j ∧ j ≤ n

def Counted (R : Nat → Nat → Prop) (min : Nat) (max : Option Nat) (i j : Nat) : Prop :=
  ∃ k, Allows min max k ∧ Steps R k i j

/-- A repetition by levels: beyond `min`, no level follows a stale one. -/
def Levelled (R : Nat → Nat → Prop) (min : Nat) (max : Option Nat) (i j : Nat) : Prop :=
  ∃ k, Allows min max k ∧ Steps R k i j ∧ ∀ l < k, Stale R i l → k ≤ min

variable {R S : Nat → Nat → Prop} {i j : Nat}

theorem steps_one : Steps R 1 i j ↔ R i j := by
  constructor
  · rintro ⟨_, rfl, h⟩
    exact h
  · intro h
    exact ⟨i, rfl, h⟩

theorem steps_mono (h : ∀ i j, R i j → S i j) {k : Nat} (hs : Steps R k i j) : Steps S k i j := by
  induction k generalizing j with
  | zero => exact hs
  | succ k ih =>
    obtain ⟨m, hm, hj⟩ := hs
    exact ⟨m, ih hm, h m j hj⟩

theorem steps_le (h : ∀ i j, R i j → i ≤ j) {k : Nat} (hs : Steps R k i j) : i ≤ j := by
  induction k generalizing j with
  | zero => exact Nat.le_of_eq hs
  | succ k ih =>
    obtain ⟨m, hm, hj⟩ := hs
    exact (ih hm).trans (h m j hj)

theorem Advances.trans {n k : Nat} (h : Advances n i j) (h' : Advances n j k) : Advances n i k := by
  simp only [Advances] at *
  omega

theorem steps_advances {n : Nat} (hR : ∀ i j, R i j → Advances n i j) {k : Nat} (h : Steps R k i j) :
    Advances n i j := by
  induction k generalizing j with
  | zero => exact .inl h
  | succ k ih =>
    obtain ⟨m, hm, hj⟩ := h
    exact (ih hm).trans (hR m j hj)

theorem Advances.mem {n : Nat} (h : Advances n i j) : j ∈ insert i (Finset.range (n + 1)) := by
  simp only [Advances] at h
  rw [Finset.mem_insert, Finset.mem_range]
  omega

theorem steps_add_congr {a b : Nat} (h : ∀ j, Steps R a i j ↔ Steps R b i j) (k : Nat) :
    Steps R (a + k) i j ↔ Steps R (b + k) i j := by
  induction k generalizing j with
  | zero => exact h j
  | succ k ih => exact exists_congr fun m => and_congr_left fun _ => ih

theorem steps_mod {a d : Nat} (h : ∀ j, Steps R a i j ↔ Steps R (a + d) i j) (n : Nat) :
    Steps R (a + n % d) i j ↔ Steps R (a + n) i j := by
  have hm (q : Nat) : ∀ k, Steps R (a + k) i j ↔ Steps R (a + k + d * q) i j := by
    induction q with
    | zero => intro k; rfl
    | succ q ih =>
      intro k
      rw [ih k, Nat.add_assoc a, steps_add_congr h (k + d * q), Nat.mul_succ]
      have he : a + d + (k + d * q) = a + k + (d * q + d) := by omega
      rw [he]
  rw [hm (n / d) (n % d), Nat.add_assoc, Nat.mod_add_div]

theorem not_stale_zero (R : Nat → Nat → Prop) (i : Nat) : ¬ Stale R i 0 := by
  intro h
  obtain ⟨l, hl, _⟩ := h i rfl
  exact absurd hl (Nat.not_lt_zero l)

theorem Stale.closed {k : Nat} (h : Stale R i k) {n : Nat} (hs : Steps R n i j) : ∃ l < k, Steps R l i j := by
  induction n generalizing j with
  | zero =>
    have hk : k ≠ 0 := by
      rintro rfl
      exact not_stale_zero R i h
    exact ⟨0, Nat.pos_of_ne_zero hk, hs⟩
  | succ n ih =>
    obtain ⟨m, hm, hj⟩ := hs
    obtain ⟨l, hl, hs⟩ := ih hm
    by_cases he : l + 1 = k
    · exact h j (he ▸ ⟨m, hs, hj⟩)
    · exact ⟨l + 1, by omega, m, hs, hj⟩

theorem card_of_not_stale {c : Nat} {offsets : Finset Nat} (hf : ∀ k ≤ c, ¬ Stale R i k)
    (ho : ∀ k j, Steps R k i j → j ∈ offsets) : c < offsets.card := by
  have hn : ∀ k, ∃ j, k ≤ c → Steps R k i j ∧ ∀ l < k, ¬ Steps R l i j := by
    intro k
    by_cases hk : k ≤ c
    · have h := hf k hk
      simp only [Stale, not_forall, not_exists, not_and] at h
      obtain ⟨j, hj, hl⟩ := h
      exact ⟨j, fun _ => ⟨hj, hl⟩⟩
    · exact ⟨0, fun h => absurd h hk⟩
  choose own hown using hn
  have hcard : (Finset.range (c + 1)).card ≤ offsets.card := by
    apply Finset.card_le_card_of_injOn own
    · intro k hk
      have hk' : k ≤ c := Nat.le_of_lt_succ (Finset.mem_range.mp hk)
      exact ho k _ (hown k hk').1
    · intro a ha b hb hab
      have ha' : a ≤ c := Nat.le_of_lt_succ (Finset.mem_range.mp ha)
      have hb' : b ≤ c := Nat.le_of_lt_succ (Finset.mem_range.mp hb)
      rcases Nat.lt_trichotomy a b with h | h | h
      · exact absurd (hab ▸ (hown a ha').1) ((hown b hb').2 a h)
      · exact h
      · exact absurd (hab ▸ (hown b hb').1) ((hown a ha').2 b h)
  rwa [Finset.card_range] at hcard

theorem exists_firstStale {offsets : Finset Nat} (ho : ∀ k j, Steps R k i j → j ∈ offsets) :
    ∃ k, FirstStale R i k := by
  classical
  have hex : ∃ k, Stale R i k := by
    by_contra hn
    have hf : ∀ k ≤ offsets.card, ¬ Stale R i k := fun k _ hk => hn ⟨k, hk⟩
    exact Nat.lt_irrefl _ (card_of_not_stale hf ho)
  exact ⟨Nat.find hex, Nat.find_spec hex, fun l hl => Nat.find_min hex hl⟩

theorem levelled_iff_le {k : Nat} (hk : FirstStale R i k) {min : Nat} {max : Option Nat} :
    Levelled R min max i j ↔ ∃ l ≤ Max.max k min, Allows min max l ∧ Steps R l i j := by
  constructor
  · rintro ⟨l, hl, hs, hle⟩
    refine ⟨l, ?_, hl, hs⟩
    by_contra hgt
    have := hle k (by omega) hk.1
    omega
  · rintro ⟨l, hle, hl, hs⟩
    refine ⟨l, hl, hs, ?_⟩
    intro l' hlt hstale
    by_contra hgt
    exact hk.2 l' (by omega) hstale

theorem Levelled.counted {min : Nat} {max : Option Nat} (h : Levelled R min max i j) : Counted R min max i j := by
  obtain ⟨k, hk, hs, _⟩ := h
  exact ⟨k, hk, hs⟩

theorem Counted.mono (h : ∀ i j, R i j → S i j) {min : Nat} {max : Option Nat} (hc : Counted R min max i j) :
    Counted S min max i j := by
  obtain ⟨k, hk, hs⟩ := hc
  exact ⟨k, hk, steps_mono h hs⟩

theorem Counted.le (h : ∀ i j, R i j → i ≤ j) {min : Nat} {max : Option Nat} (hc : Counted R min max i j) :
    i ≤ j := by
  obtain ⟨k, _, hs⟩ := hc
  exact steps_le h hs

theorem stays (h : ∀ i j, R i j → i ≤ j) {k : Nat} (hs : Steps R (k + 1) i i) : R i i := by
  obtain ⟨m, hm, hi⟩ := hs
  have he : m = i := Nat.le_antisymm (h m i hi) (steps_le h hm)
  exact he ▸ hi

theorem counted_iff_levelled (h : ∀ i j, R i j → i ≤ j) {min : Nat} {max : Option Nat} (hmin : min ≤ 1) :
    Counted R min max i j ↔ Levelled R min max i j := by
  classical
  constructor
  · rintro ⟨k, ⟨hk, hmax⟩, hs⟩
    have hex : ∃ k, min ≤ k ∧ Steps R k i j := ⟨k, hk, hs⟩
    obtain ⟨hleast, hsteps⟩ := Nat.find_spec hex
    have hle : Nat.find hex ≤ k := Nat.find_min' hex ⟨hk, hs⟩
    refine ⟨Nat.find hex, ⟨hleast, fun m hm => hle.trans (hmax m hm)⟩, hsteps, ?_⟩
    intro l hl hstale
    obtain ⟨l', hl', hs'⟩ := hstale.closed hsteps
    have hlt : l' < min := by
      by_contra hge
      exact Nat.find_min hex (hl'.trans hl) ⟨Nat.not_lt.mp hge, hs'⟩
    have hz : l' = 0 := by omega
    subst hz
    cases hs'
    have hone : Steps R 1 i i := by
      apply steps_one.mpr
      obtain ⟨n, hn⟩ : ∃ n, Nat.find hex = n + 1 := ⟨Nat.find hex - 1, by omega⟩
      exact stays h (hn ▸ hsteps)
    have := Nat.find_min' hex ⟨hmin, hone⟩
    omega
  · exact Levelled.counted

end DialectRegex
