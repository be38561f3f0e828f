import DialectRegex.Matching.State

namespace DialectRegex

namespace OffsetSet

def Proper : OffsetSet → Prop
  | empty => True
  | node zero left right => (zero = true ∨ left ≠ empty ∨ right ≠ empty) ∧ left.Proper ∧ right.Proper

@[simp] theorem contains_odd (zero : Bool) (left right : OffsetSet) (n : Nat) :
    (node zero left right).contains (2 * n + 1) = left.contains n := by
  have hmod : 2 * n % 2 = 0 := by omega
  have hdiv : 2 * n / 2 = n := by omega
  rw [contains, if_pos hmod, hdiv]

@[simp] theorem contains_even (zero : Bool) (left right : OffsetSet) (n : Nat) :
    (node zero left right).contains (2 * n + 2) = right.contains n := by
  have hmod : ¬ (2 * n + 1) % 2 = 0 := by omega
  have hdiv : (2 * n + 1) / 2 = n := by omega
  rw [contains, if_neg hmod, hdiv]

theorem exists_contains {s : OffsetSet} (hs : s.Proper) (hne : s ≠ empty) : ∃ n, s.contains n = true := by
  induction s with
  | empty => exact absurd rfl hne
  | node zero left right hl hr =>
    obtain ⟨hsome, hleft, hright⟩ := hs
    rcases hsome with rfl | hsome | hsome
    · exact ⟨0, rfl⟩
    · obtain ⟨n, hn⟩ := hl hleft hsome
      exact ⟨2 * n + 1, (contains_odd zero left right n).trans hn⟩
    · obtain ⟨n, hn⟩ := hr hright hsome
      exact ⟨2 * n + 2, (contains_even zero left right n).trans hn⟩

theorem Proper.ext {s t : OffsetSet} (hs : s.Proper) (ht : t.Proper) (h : ∀ n, s.contains n = t.contains n) :
    s = t := by
  have hempty {u : OffsetSet} (hu : u.Proper) (hnone : ∀ n, empty.contains n = u.contains n) : u = empty := by
    by_cases he : u = empty
    · exact he
    · obtain ⟨n, hn⟩ := exists_contains hu he
      rw [← hnone n] at hn
      cases hn
  induction s generalizing t with
  | empty => exact (hempty ht h).symm
  | node zero left right hl hr =>
    cases t with
    | empty => exact hempty hs fun n => (h n).symm
    | node zero' left' right' =>
      have hz : zero = zero' := h 0
      have hleft : left = left' := hl hs.2.1 ht.2.1 fun n => by simpa using h (2 * n + 1)
      have hright : right = right' := hr hs.2.2 ht.2.2 fun n => by simpa using h (2 * n + 2)
      rw [hz, hleft, hright]

theorem proper_insertUpTo {fuel n : Nat} (hn : n ≤ fuel) {s : OffsetSet} (hs : s.Proper) :
    (insertUpTo fuel s n).Proper ∧ insertUpTo fuel s n ≠ empty := by
  have hleft {s : OffsetSet} (hs : s.Proper) : s.left.Proper := by
    cases s with
    | empty => exact trivial
    | node => exact hs.2.1
  have hright {s : OffsetSet} (hs : s.Proper) : s.right.Proper := by
    cases s with
    | empty => exact trivial
    | node => exact hs.2.2
  induction fuel generalizing n s with
  | zero =>
    obtain rfl := Nat.le_zero.mp hn
    rw [insertUpTo_zero]
    exact ⟨⟨.inl rfl, hleft hs, hright hs⟩, nofun⟩
  | succ fuel ih =>
    cases n with
    | zero =>
      rw [insertUpTo_zero]
      exact ⟨⟨.inl rfl, hleft hs, hright hs⟩, nofun⟩
    | succ n =>
      have hle : n / 2 ≤ fuel := by omega
      rw [insertUpTo_succ]
      split
      · obtain ⟨hp, hne⟩ := ih hle (hleft hs)
        exact ⟨⟨.inr (.inl hne), hp, hright hs⟩, nofun⟩
      · obtain ⟨hp, hne⟩ := ih hle (hright hs)
        exact ⟨⟨.inr (.inr hne), hleft hs, hp⟩, nofun⟩

theorem proper_ofList (l : List Nat) : (ofList l).Proper := by
  have hall (s : OffsetSet) (hs : s.Proper) : (l.foldl insert s).Proper := by
    induction l generalizing s with
    | nil => exact hs
    | cons i l ih => exact ih _ (proper_insertUpTo (Nat.le_refl i) hs).1
  exact hall empty trivial

theorem ofList_eq_iff (l l' : List Nat) : ofList l = ofList l' ↔ ∀ j, j ∈ l ↔ j ∈ l' := by
  constructor
  · intro h j
    have hc := congrArg (·.contains j) h
    simpa only [contains_ofList, decide_eq_decide] using hc
  · intro h
    apply (proper_ofList l).ext (proper_ofList l')
    intro j
    simp only [contains_ofList, h]

end OffsetSet

theorem State.offsets_eq_iff (l l' : List State) :
    offsets l = offsets l' ↔ ∀ j, j ∈ l.map offset ↔ j ∈ l'.map offset :=
  OffsetSet.ofList_eq_iff _ _

end DialectRegex
