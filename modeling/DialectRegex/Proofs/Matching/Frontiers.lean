import DialectRegex.Proofs.Matching.Expansion
import Mathlib.Data.Finset.Card

namespace DialectRegex

theorem takeWhile_reverse {α : Type} {q : α → Bool} {l : List α} (h : l.Pairwise fun a b => q a = true → q b = true) :
    l.reverse.takeWhile q = (l.filter q).reverse := by
  induction h with
  | nil => rfl
  | @cons a l hq _ ih =>
    rw [List.reverse_cons, List.takeWhile_append]
    cases ha : q a with
    | true =>
      have hall : ∀ b ∈ l, q b = true := fun b hb => hq b hb ha
      have hself : l.filter q = l := List.filter_eq_self.mpr hall
      rw [ih, hself, if_pos rfl, List.filter_cons_of_pos ha, hself, List.reverse_cons, List.takeWhile_cons, if_pos ha,
        List.takeWhile_nil]
    | false =>
      have hnot : ¬ q a = true := ne_true_of_eq_false ha
      rw [List.takeWhile_cons, if_neg hnot, List.append_nil, List.filter_cons_of_neg hnot, ← ih]
      split
      · next hlen => exact ((List.takeWhile_prefix q).eq_of_length hlen).symm
      · rfl

/-- How many more levels can come: each but the last two reaches an offset that has not been seen. -/
def Frontier.room (offsets : Finset Nat) (f : Frontier) : Nat :=
  if f.stalled then 1 else (offsets.filter fun j => f.seen.contains j = false).card + 2

theorem Frontier.room_of_growing {f : Frontier} (hs : f.stalled = false) (offsets : Finset Nat) :
    f.room offsets = (offsets.filter fun j => f.seen.contains j = false).card + 2 := by
  rw [room, if_neg (by simp [hs])]

theorem Frontier.room_initial {offsets : Finset Nat} {s : State} (hs : s.offset ∈ offsets) :
    (initial s).room offsets ≤ offsets.card + 1 := by
  have hsub : (offsets.filter fun j => (initial s).seen.contains j = false) ⊆ offsets.erase s.offset := by
    intro j hj
    simp only [initial, Finset.mem_filter, OffsetSet.contains_insert, Bool.or_eq_false_iff,
      decide_eq_false_iff_not] at hj
    exact Finset.mem_erase.mpr ⟨Ne.symm hj.2.1, hj.1⟩
  have hcard := Finset.card_le_card hsub
  have hpos : 0 < offsets.card := Finset.card_pos.mpr ⟨s.offset, hs⟩
  rw [Finset.card_erase_of_mem hs] at hcard
  rw [room_of_growing rfl]
  omega

namespace Rounds

inductive Course (r : Rounds Id) : Frontier → List Frontier → Prop where
  | last {f : Frontier} (h : r.next? f = none) : Course r f [f]
  | more {f f' : Frontier} {fs : List Frontier} (h : r.next? f = some f') (hfs : Course r f' fs) : Course r f (f :: fs)

variable {r : Rounds Id} {offsets : Finset Nat} {f f' : Frontier} {fs : List Frontier}

theorem next?_room (hmem : ∀ s ∈ r.after f.level, s.offset ∈ offsets) (hn : r.next? f = some f') :
    f'.room offsets < f.room offsets := by
  have hstalled (count : Nat) (level : List State) (seen : OffsetSet) :
      Frontier.room offsets ⟨count, level, seen, true⟩ = 1 := rfl
  rw [next?_eq] at hn
  dsimp only at hn
  split at hn
  · cases hn
  next hgo =>
  have hs : f.stalled = false := (Bool.or_eq_false_iff.mp (Bool.not_eq_true _ ▸ hgo)).1
  rw [Frontier.room_of_growing hs]
  split at hn
  · cases hn
  split at hn
  · next hnew =>
    cases hn
    obtain ⟨s, hs, hseen⟩ := List.any_eq_true.mp hnew
    rw [Frontier.room_of_growing rfl]
    apply Nat.add_lt_add_right
    apply Finset.card_lt_card
    rw [Finset.ssubset_iff_of_subset]
    · refine ⟨s.offset, ?_, ?_⟩
      · simpa [hmem s hs] using hseen
      · have hin := (mem_foldl_insert (r.after f.level) f.seen s.offset).mpr (.inl (List.mem_map_of_mem hs))
        simp [hin]
    · intro j hj
      rw [Finset.mem_filter] at hj ⊢
      refine ⟨hj.1, ?_⟩
      by_contra hold
      have hin := (mem_foldl_insert (r.after f.level) f.seen j).mpr (.inr (by simpa using hold))
      rw [hin] at hj
      cases hj.2
  split at hn
  · cases hn
    rw [hstalled]
    omega
  split at hn
  · cases hn
  · cases hn
    rw [hstalled]
    omega

theorem exists_course {P : State → Prop} (h : r.Keeps P) (ho : ∀ s, P s → s.offset ∈ offsets)
    (hf : ∀ s ∈ f.level, P s) : ∃ fs, r.Course f fs ∧ fs.length ≤ f.room offsets := by
  induction hroom : f.room offsets using Nat.strong_induction_on generalizing f with
  | _ n ih =>
    have hpos : 0 < n := by
      rw [← hroom, Frontier.room]
      split <;> omega
    cases hn : r.next? f with
    | none => exact ⟨[f], .last hn, hpos⟩
    | some f' =>
      have hless := hroom ▸ next?_room (fun s hs => ho s (h _ hf s hs)) hn
      obtain ⟨fs, hfs, hlen⟩ := ih _ hless (h.next? hf hn) rfl
      exact ⟨f :: fs, .more hn hfs, Nat.lt_of_le_of_lt hlen hless⟩

theorem next?_count (hn : r.next? f = some f') : f.count < f'.count := by
  rw [next?_eq] at hn
  dsimp only at hn
  split at hn
  · cases hn
  split at hn
  · cases hn
  split at hn
  · cases hn
    exact Nat.lt_succ_self _
  split at hn
  · cases hn
    exact Nat.lt_succ_self _
  next hmin =>
  split at hn
  · cases hn
  · cases hn
    exact Nat.lt_of_succ_lt (Nat.lt_of_not_le hmin)

namespace Course

theorem exists_cons (h : r.Course f fs) : ∃ rest, fs = f :: rest := by
  cases h <;> exact ⟨_, rfl⟩

theorem count_le (h : r.Course f fs) : ∀ g ∈ fs, f.count ≤ g.count := by
  induction h with
  | last _ =>
    intro g hg
    rw [List.mem_singleton.mp hg]
  | more hn _ ih =>
    intro g hg
    rcases List.mem_cons.mp hg with rfl | hg
    · exact Nat.le_refl _
    · exact (Nat.le_of_lt (next?_count hn)).trans (ih g hg)

theorem ascending (h : r.Course f fs) : fs.Pairwise fun g g' => g.count ≤ g'.count := by
  induction h with
  | last _ => exact List.pairwise_singleton _ _
  | more hn hfs ih =>
    exact .cons (fun g hg => (Nat.le_of_lt (next?_count hn)).trans (hfs.count_le g hg)) ih

theorem visited (h : r.Course f fs) {fuel : Nat} (hfuel : fs.length ≤ fuel) :
    r.visited fuel f = (fs.filter (r.min ≤ ·.count)).map Frontier.level := by
  induction h generalizing fuel with
  | @last f hn =>
    obtain ⟨fuel, rfl⟩ : ∃ n, fuel = n + 1 := ⟨fuel - 1, by rw [List.length_singleton] at hfuel; omega⟩
    rw [Rounds.visited, hn]
    by_cases hmin : r.min ≤ f.count <;> simp [hmin]
  | @more f f' fs hn _ ih =>
    obtain ⟨fuel, rfl⟩ : ∃ n, fuel = n + 1 := ⟨fuel - 1, by rw [List.length_cons] at hfuel; omega⟩
    rw [Rounds.visited, hn]
    dsimp only
    rw [ih (Nat.le_of_succ_le_succ hfuel)]
    by_cases hmin : r.min ≤ f.count <;> simp [hmin]

end Course

theorem exists_course_initial {P : State → Prop} (h : r.Keeps P) (ho : ∀ s, P s → s.offset ∈ offsets) {s : State}
    (hs : P s) : ∃ fs, r.Course (.initial s) fs ∧ fs.length ≤ offsets.card + 1 := by
  have hone : ∀ t ∈ (Frontier.initial s).level, P t := fun t ht => List.mem_singleton.mp ht ▸ hs
  obtain ⟨fs, hfs, hlen⟩ := exists_course h ho hone
  exact ⟨fs, hfs, hlen.trans (Frontier.room_initial (ho s hs))⟩

end Rounds

end DialectRegex
