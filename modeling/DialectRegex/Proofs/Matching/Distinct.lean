import DialectRegex.Matching.Engine

namespace DialectRegex

namespace State

theorem distinct_append (seen : OffsetSet) (l l' : List State) :
    distinct seen (l ++ l') = distinct seen l ++
      distinct ((distinct seen l).foldl (fun seen s => seen.insert s.offset) seen) l' := by
  induction l generalizing seen with
  | nil => rfl
  | cons s l ih =>
    rw [List.cons_append, distinct, distinct]
    split
    · exact ih seen
    · rw [ih, List.foldl_cons, List.cons_append]

theorem distinct_sublist (seen : OffsetSet) (l : List State) : (distinct seen l).Sublist l := by
  induction l generalizing seen with
  | nil => exact List.Sublist.refl []
  | cons s l ih =>
    rw [distinct]
    split
    · exact (ih seen).cons s
    · exact (ih _).cons_cons s

theorem mem_offsets_distinct (seen : OffsetSet) (l : List State) (j : Nat) :
    j ∈ (distinct seen l).map offset ↔ j ∈ l.map offset ∧ seen.contains j = false := by
  induction l generalizing seen with
  | nil => simp [distinct]
  | cons s l ih =>
    rw [distinct]
    by_cases hs : seen.contains s.offset = true
    · rw [if_pos hs, ih, List.map_cons, List.mem_cons]
      constructor
      · rintro ⟨hj, hseen⟩
        exact ⟨.inr hj, hseen⟩
      · rintro ⟨rfl | hj, hseen⟩
        · rw [hs] at hseen
          cases hseen
        · exact ⟨hj, hseen⟩
    · rw [if_neg hs, List.map_cons, List.mem_cons, ih, List.map_cons, List.mem_cons, OffsetSet.contains_insert]
      by_cases hj : j = s.offset
      · simp [hj, hs]
      · simp [hj, Ne.symm hj]

end State

namespace Search

variable {m : Type → Type} (e : Search m) {l : List State}

theorem mem_of_mem_dedup {t : State} (h : t ∈ e.dedup l) : t ∈ l := by
  rw [dedup] at h
  split at h
  · rw [State.dedup_eq] at h
    exact (State.distinct_sublist .empty l).subset h
  · exact h

@[simp] theorem mem_offsets_dedup (j : Nat) :
    j ∈ (e.dedup l).map State.offset ↔ j ∈ l.map State.offset := by
  rw [dedup]
  split
  · rw [State.dedup_eq, State.mem_offsets_distinct]
    simp
  · rfl

theorem head?_dedup : (e.dedup l).head? = l.head? := by
  rw [dedup]
  split
  · rw [State.dedup_eq]
    cases l <;> rfl
  · rfl

end Search

end DialectRegex
