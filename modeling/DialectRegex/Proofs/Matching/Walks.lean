import DialectRegex.Proofs.Matching.Captures
import Mathlib.Logic.Relation

/-!
The way of a match, step by step. A walk goes through a pattern as the matcher does, but keeps what the captures
forget: each completed visit of a group, with both of its ends. Every state in which a pattern can end has a walk
that leads there, and along each walk the captures are those of the latest visits.
-/

namespace DialectRegex

inductive Task where
  | pattern (p : Pattern)
  | leave (g : Option Nat) (start : Nat)
  | back (start : Nat)

/-- One completed way through a group. -/
structure Visit where
  group : Nat
  start : Nat
  stop : Nat
deriving DecidableEq, Repr

structure Point where
  todo : List Task
  state : State
  visits : List Visit

inductive Step (e : Search Id) : Point → Point → Prop where
  | empty {k s v} : Step e ⟨.pattern .empty :: k, s, v⟩ ⟨k, s, v⟩
  | test {t j k s v} (h : Test.moves? e t s = some j) : Step e ⟨.pattern (.test t) :: k, s, v⟩ ⟨k, s.moveTo j, v⟩
  | seq {p q k s v} : Step e ⟨.pattern (.seq p q) :: k, s, v⟩ ⟨.pattern p :: .pattern q :: k, s, v⟩
  | left {p q k s v} : Step e ⟨.pattern (.alt p q) :: k, s, v⟩ ⟨.pattern p :: k, s, v⟩
  | right {p q k s v} : Step e ⟨.pattern (.alt p q) :: k, s, v⟩ ⟨.pattern q :: k, s, v⟩
  | enter {g p k s v} :
      Step e ⟨.pattern (.group g p) :: k, s, v⟩ ⟨.pattern p :: .leave g s.offset :: k, s.enter g, v⟩
  | leave {g i k s v} :
      Step e ⟨.leave g i :: k, s, v⟩ ⟨k, s.leave g, g.toList.map (⟨·, i, s.offset⟩) ++ v⟩
  | round {p lo hi greedy k s v} :
      Step e ⟨.pattern (.repeated p lo hi greedy) :: k, s, v⟩
        ⟨.pattern p :: .pattern (.repeated p lo hi greedy) :: k, s, v⟩
  | finish {p lo hi greedy k s v} : Step e ⟨.pattern (.repeated p lo hi greedy) :: k, s, v⟩ ⟨k, s, v⟩
  | look {p k s v} :
      Step e ⟨.pattern (.look false p) :: k, s, v⟩ ⟨.pattern p :: .back s.offset :: k, s, v⟩
  | refuse {p k s v} (h : p.ends e s = []) : Step e ⟨.pattern (.look true p) :: k, s, v⟩ ⟨k, s, v⟩
  | back {i k s v} : Step e ⟨.back i :: k, s, v⟩ ⟨k, s.moveTo i, v⟩

abbrev Walk (e : Search Id) : Point → Point → Prop := Relation.ReflTransGen (Step e)

variable {e : Search Id} {c : Setting}

theorem Pattern.ends_walk {p : Pattern} {s t : State} (ht : t ∈ p.ends e s) (k : List Task) (v : List Visit) :
    ∃ v', Walk e ⟨.pattern p :: k, s, v⟩ ⟨k, t, v'⟩ := by
  induction p generalizing s t k v with
  | empty =>
    rw [ends_empty] at ht
    obtain rfl := List.mem_singleton.mp ht
    exact ⟨v, .single .empty⟩
  | test tst =>
    rw [ends_test] at ht
    obtain ⟨j, hj, rfl⟩ := Option.map_eq_some_iff.mp (Option.mem_toList.mp ht)
    exact ⟨v, .single (.test hj)⟩
  | seq p q hp hq =>
    rw [ends_seq] at ht
    obtain ⟨u, hu, ht⟩ := List.mem_flatMap.mp ht
    obtain ⟨v₁, hw₁⟩ := hp hu (.pattern q :: k) v
    obtain ⟨v₂, hw₂⟩ := hq ht k v₁
    exact ⟨v₂, .head .seq (hw₁.trans hw₂)⟩
  | alt p q hp hq =>
    rw [ends_alt] at ht
    rcases List.mem_append.mp ht with ht | ht
    · obtain ⟨v', hw⟩ := hp ht k v
      exact ⟨v', .head .left hw⟩
    · obtain ⟨v', hw⟩ := hq ht k v
      exact ⟨v', .head .right hw⟩
  | group g p hp =>
    rw [ends_group] at ht
    obtain ⟨u, hu, rfl⟩ := List.mem_map.mp ht
    obtain ⟨v', hw⟩ := hp hu (.leave g s.offset :: k) v
    exact ⟨_, .head .enter (hw.tail .leave)⟩
  | repeated p lo hi greedy hp =>
    let again : Task := .pattern (.repeated p lo hi greedy)
    have hround (t : State) (ht : ∃ v', Walk e ⟨again :: k, s, v⟩ ⟨again :: k, t, v'⟩) :
        ∀ u ∈ p.ends e t, ∃ v', Walk e ⟨again :: k, s, v⟩ ⟨again :: k, u, v'⟩ := by
      intro u hu
      obtain ⟨v₁, hw₁⟩ := ht
      obtain ⟨v₂, hw₂⟩ := hp hu (again :: k) v₁
      exact ⟨v₂, hw₁.trans (.head .round hw₂)⟩
    obtain ⟨v', hw⟩ := ends_repeated_keeps hround ⟨v, .refl⟩ t ht
    exact ⟨v', hw.tail .finish⟩
  | look negated p hp =>
    rw [ends_look] at ht
    cases hr : (p.ends e s).head? with
    | none =>
      rw [hr] at ht
      cases negated with
      | false => cases ht
      | true =>
        obtain rfl := List.mem_singleton.mp ht
        exact ⟨v, .single (.refuse (List.head?_eq_none_iff.mp hr))⟩
    | some u =>
      rw [hr] at ht
      cases negated with
      | true => cases ht
      | false =>
        obtain rfl := List.mem_singleton.mp ht
        obtain ⟨v', hw⟩ := hp (List.mem_of_mem_head? hr) (.back s.offset :: k) v
        exact ⟨v', .head .look (hw.tail .back)⟩

namespace Point

def openedAt (g : Nat) : List Task → Option Nat
  | [] => none
  | .leave (some h) i :: k => if h = g then some i else openedAt g k
  | .leave none _ :: k => openedAt g k
  | .pattern _ :: k => openedAt g k
  | .back _ :: k => openedAt g k

def latest (g : Nat) (v : List Visit) : Option Visit := v.find? (·.group == g)

def Nested (n g : Nat) : List Task → Prop
  | [] => True
  | .pattern p :: k => p.WellNested ∧ (g ∈ p.numbers → g < n ∧ openedAt g k = none) ∧ Nested n g k
  | .leave h _ :: k => (h = some g → g < n ∧ openedAt g k = none) ∧ Nested n g k
  | .back _ :: k => Nested n g k

structure Tracks (n g : Nat) (x : Point) : Prop where
  nested : Nested n g x.todo
  length : x.state.captures.length = n
  closed : x.state.captures[g]?.bind Capture.closed = (latest g x.visits).map Visit.stop
  opened : x.state.captures[g]?.bind Capture.opened = (openedAt g x.todo).or ((latest g x.visits).map Visit.start)

def Ahead : List Task → Nat → Prop
  | [], _ => True
  | .pattern _ :: k, o => Ahead k o
  | .leave _ i :: k, o => i ≤ o ∧ Ahead k o
  | .back i :: k, _ => Ahead k i

structure Forward (x : Point) : Prop where
  ahead : Ahead x.todo x.state.offset
  visits : ∀ a ∈ x.visits, a.start ≤ a.stop

variable {x y : Point} {n g : Nat}

@[simp] theorem openedAt_pattern (p : Pattern) (k : List Task) : openedAt g (.pattern p :: k) = openedAt g k := rfl

@[simp] theorem openedAt_back (i : Nat) (k : List Task) : openedAt g (.back i :: k) = openedAt g k := rfl

theorem Tracks.enter {p : Pattern} {k : List Task} {s : State} {v : List Visit} {h : Option Nat}
    (ht : Tracks n g ⟨.pattern (.group h p) :: k, s, v⟩) :
    Tracks n g ⟨.pattern p :: .leave h s.offset :: k, s.enter h, v⟩ := by
  obtain ⟨⟨hwell, hfree, hk⟩, hlen, hclosed, hopened⟩ := ht
  have hn : g ∈ h.toList ++ p.numbers → g < n ∧ openedAt g k = none := by
    rwa [Pattern.numbers_group] at hfree
  refine ⟨⟨hwell.2, ?_, ?_, hk⟩, by simpa using hlen, ?_, ?_⟩
  · intro hg
    obtain ⟨hlt, hnone⟩ := hn (List.mem_append_right _ hg)
    refine ⟨hlt, ?_⟩
    cases h with
    | none => exact hnone
    | some h =>
      have hne : h ≠ g := by
        rintro rfl
        exact hwell.1 h rfl hg
      simpa [openedAt, hne] using hnone
  · rintro rfl
    exact hn (by simp)
  · cases h with
    | none => exact hclosed
    | some h =>
      rw [State.captures_enter]
      split
      · rw [← hclosed]
        cases s.captures[g]? <;> rfl
      · exact hclosed
  · cases h with
    | none => exact hopened
    | some h =>
      rw [State.captures_enter]
      by_cases hg : h = g
      · subst hg
        have hlt : h < s.captures.length := by
          rw [hlen]
          exact (hn (by simp)).1
        simp [openedAt, List.getElem?_eq_getElem hlt]
      · simpa [openedAt, hg] using hopened

theorem Tracks.leave {h : Option Nat} {i : Nat} {k : List Task} {s : State} {v : List Visit}
    (ht : Tracks n g ⟨.leave h i :: k, s, v⟩) :
    Tracks n g ⟨k, s.leave h, h.toList.map (⟨·, i, s.offset⟩) ++ v⟩ := by
  obtain ⟨⟨hfree, hk⟩, hlen, hclosed, hopened⟩ := ht
  cases h with
  | none => exact ⟨hk, hlen, hclosed, hopened⟩
  | some h =>
    refine ⟨hk, by simpa using hlen, ?_, ?_⟩ <;> by_cases hg : h = g
    · subst hg
      have hlt : h < s.captures.length := by
        rw [hlen]
        exact (hfree rfl).1
      simp [latest, List.getElem?_eq_getElem hlt]
    · simpa [latest, hg] using hclosed
    · subst hg
      have hnone : openedAt h k = none := (hfree rfl).2
      have hi : s.captures[h]?.bind Capture.opened = some i := by simpa [openedAt] using hopened
      rw [State.captures_leave, if_pos rfl, hnone]
      have hsame : (s.captures[h]?.map fun k => { k with closed := some s.offset }).bind Capture.opened =
          s.captures[h]?.bind Capture.opened := by
        cases s.captures[h]? <;> rfl
      rw [hsame, hi]
      simp [latest]
    · simpa [latest, hg, openedAt] using hopened

theorem Tracks.step (ht : Tracks n g x) (hs : Step e x y) : Tracks n g y := by
  have hseq {p q : Pattern} {k : List Task} (h : Nested n g (.pattern (.seq p q) :: k)) :
      Nested n g (.pattern p :: .pattern q :: k) := by
    obtain ⟨hwell, hfree, hk⟩ := h
    rw [Pattern.numbers_seq] at hfree
    exact ⟨hwell.1, fun hg => hfree (List.mem_append_left _ hg), hwell.2,
      fun hg => hfree (List.mem_append_right _ hg), hk⟩
  cases hs with
  | empty => exact ⟨ht.nested.2.2, ht.length, ht.closed, ht.opened⟩
  | test h => exact ⟨ht.nested.2.2, ht.length, ht.closed, ht.opened⟩
  | seq => exact ⟨hseq ht.nested, ht.length, ht.closed, ht.opened⟩
  | left =>
    obtain ⟨hwell, hfree, hk⟩ := ht.nested
    rw [Pattern.numbers_alt] at hfree
    exact ⟨⟨hwell.1, fun hg => hfree (List.mem_append_left _ hg), hk⟩, ht.length, ht.closed, ht.opened⟩
  | right =>
    obtain ⟨hwell, hfree, hk⟩ := ht.nested
    rw [Pattern.numbers_alt] at hfree
    exact ⟨⟨hwell.2, fun hg => hfree (List.mem_append_right _ hg), hk⟩, ht.length, ht.closed, ht.opened⟩
  | enter => exact ht.enter
  | leave => exact ht.leave
  | round =>
    obtain ⟨hwell, hfree, hk⟩ := ht.nested
    exact ⟨⟨hwell, hfree, hwell, hfree, hk⟩, ht.length, ht.closed, ht.opened⟩
  | finish => exact ⟨ht.nested.2.2, ht.length, ht.closed, ht.opened⟩
  | look => exact ⟨ht.nested, ht.length, ht.closed, ht.opened⟩
  | refuse h => exact ⟨ht.nested.2.2, ht.length, ht.closed, ht.opened⟩
  | back => exact ⟨ht.nested, ht.length, ht.closed, ht.opened⟩

theorem Tracks.walk (ht : Tracks n g x) (hw : Walk e x y) : Tracks n g y := by
  induction hw with
  | refl => exact ht
  | tail _ hs ih => exact ih.step hs

theorem Ahead.mono {k : List Task} {a b : Nat} (h : Ahead k a) (hab : a ≤ b) : Ahead k b := by
  induction k with
  | nil => exact trivial
  | cons task k ih =>
    cases task with
    | pattern p => exact ih h
    | leave g i => exact ⟨h.1.trans hab, ih h.2⟩
    | back i => exact h

theorem Forward.step (he : e.Sees c) (hf : Forward x) (hs : Step e x y) : Forward y := by
  cases hs with
  | empty => exact ⟨hf.ahead, hf.visits⟩
  | @test t j k s v h =>
    have hle : s.offset ≤ j := by
      have hadv := Test.moves?_advances he h
      simp only [Advances] at hadv
      omega
    exact ⟨Ahead.mono hf.ahead hle, hf.visits⟩
  | seq => exact ⟨hf.ahead, hf.visits⟩
  | left => exact ⟨hf.ahead, hf.visits⟩
  | right => exact ⟨hf.ahead, hf.visits⟩
  | enter =>
    refine ⟨⟨?_, ?_⟩, hf.visits⟩
    · simp
    · rw [Pattern.enter_offset]
      exact hf.ahead
  | leave =>
    refine ⟨?_, ?_⟩
    · rw [Pattern.leave_offset]
      exact hf.ahead.2
    · intro a ha
      rcases List.mem_append.mp ha with ha | ha
      · obtain ⟨_, _, rfl⟩ := List.mem_map.mp ha
        exact hf.ahead.1
      · exact hf.visits a ha
  | round => exact ⟨hf.ahead, hf.visits⟩
  | finish => exact ⟨hf.ahead, hf.visits⟩
  | look => exact ⟨hf.ahead, hf.visits⟩
  | refuse h => exact ⟨hf.ahead, hf.visits⟩
  | back => exact ⟨hf.ahead, hf.visits⟩

theorem Forward.walk (he : e.Sees c) (hf : Forward x) (hw : Walk e x y) : Forward y := by
  induction hw with
  | refl => exact hf
  | tail _ hs ih => exact ih.step he hs

end Point

end DialectRegex
