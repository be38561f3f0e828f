import DialectRegex.Proofs.Matching.Levels

namespace DialectRegex

theorem findSome?_flatMap {α β γ : Type} (l : List α) (f : α → List β) (k : β → Option γ) :
    (l.flatMap f).findSome? k = l.findSome? fun a => (f a).findSome? k := by
  induction l with
  | nil => rfl
  | cons a l ih =>
    rw [List.flatMap_cons, List.findSome?_append, ih, List.findSome?_cons]
    cases (f a).findSome? k <;> rfl

theorem findSome?_some {α : Type} (l : List α) : l.findSome? some = l.head? := by
  cases l <;> rfl

def Test.moves? (e : Search Id) (t : Test) (s : State) : Option Nat := t.run e.input.charAt e.flags s

theorem Search.after_rounds (e : Search Id) (ends : State → List State) (lo : Nat) (hi : Option Nat)
    (l : List State) :
    (e.rounds (m := Id) ends lo hi).after l = e.dedup (l.flatMap fun s => e.dedup (ends s)) := by
  change e.dedup (gather (m := Id) (fun s => e.dedup (ends s)) [] l) = _
  rw [gather_id]
  rfl

namespace Pattern

def ends (e : Search Id) (p : Pattern) (s : State) : List State := p.all e (fun s => pure [s]) s

variable (e : Search Id)

theorem all_empty (k : State → List State) (s : State) : empty.all (m := Id) e k s = k s := rfl

theorem all_seq (p q : Pattern) (k : State → List State) (s : State) :
    (seq p q).all (m := Id) e k s = p.all (m := Id) e (fun t => q.all (m := Id) e k t) s := rfl

theorem all_alt (p q : Pattern) (k : State → List State) (s : State) :
    (alt p q).all (m := Id) e k s = List.append (p.all (m := Id) e k s) (q.all (m := Id) e k s) := rfl

theorem all_group (g : Option Nat) (p : Pattern) (k : State → List State) (s : State) :
    (group g p).all (m := Id) e k s = p.all (m := Id) e (fun t => k (t.leave g)) (s.enter g) := rfl

theorem all_test (t : Test) (k : State → List State) (s : State) :
    (test t).all (m := Id) e k s = ((t.moves? e s).map s.moveTo).toList.flatMap k := by
  rw [all, ← Test.moves?]
  cases t.moves? e s <;> simp [bind, pure]

theorem all_repeated (p : Pattern) (lo : Nat) (hi : Option Nat) (greedy : Bool) (k : State → List State)
    (s : State) :
    (repeated p lo hi greedy).all (m := Id) e k s =
      (e.dedup ((e.rounds (m := Id) (p.ends e) lo hi).outcomes e.fuel greedy s)).flatMap k := by
  rw [← Rounds.states_eq]
  change gather (m := Id) k [] _ = _
  rw [gather_id]
  rfl

theorem all_look (negated : Bool) (p : Pattern) (k : State → List State) (s : State) :
    (look negated p).all (m := Id) e k s =
      match (p.first (m := Id) e (fun s => pure (some s)) s : Option State) with
      | some r => if negated then [] else k (r.moveTo s.offset)
      | none => if negated then k s else [] := rfl

theorem all_eq (p : Pattern) (k : State → List State) (s : State) :
    p.all (m := Id) e k s = (p.ends e s).flatMap k := by
  induction p generalizing k s with
  | empty =>
    rw [ends, all_empty, all_empty]
    exact (List.flatMap_singleton k s).symm
  | test t => rw [ends, all_test, all_test, List.flatMap_assoc]; simp [pure]
  | seq p q hp hq =>
    have he : (seq p q).ends e s = (p.ends e s).flatMap (q.ends e) := by
      rw [ends, all_seq, hp]
      rfl
    rw [he, all_seq, hp, List.flatMap_assoc]
    simp only [hq]
  | alt p q hp hq =>
    have he : (alt p q).ends e s = p.ends e s ++ q.ends e s := all_alt e p q _ s
    rw [he, all_alt, hp, hq, List.flatMap_append]
    rfl
  | group g p hp =>
    have he : (group g p).ends e s = (p.ends e (s.enter g)).flatMap fun s => [s.leave g] := by
      rw [ends, all_group, hp]
      rfl
    rw [he, all_group, hp, List.flatMap_assoc]
    simp
  | repeated p lo hi greedy _ => rw [ends, all_repeated, all_repeated, List.flatMap_assoc]; simp [pure]
  | look negated p _ =>
    rw [ends, all_look, all_look]
    cases (p.first (m := Id) e (fun s => pure (some s)) s : Option State) <;> cases negated <;> simp [pure]

@[simp] theorem ends_empty (s : State) : empty.ends e s = [s] := by
  rw [ends, all_empty]
  rfl

theorem ends_test (t : Test) (s : State) : (test t).ends e s = ((t.moves? e s).map s.moveTo).toList := by
  rw [ends, all_test]
  simp [pure]

@[simp] theorem ends_seq (p q : Pattern) (s : State) :
    (seq p q).ends e s = (p.ends e s).flatMap (q.ends e) := by
  rw [ends, all_seq]
  exact all_eq e p _ s

@[simp] theorem ends_alt (p q : Pattern) (s : State) : (alt p q).ends e s = p.ends e s ++ q.ends e s :=
  all_alt e p q _ s

@[simp] theorem ends_group (g : Option Nat) (p : Pattern) (s : State) :
    (group g p).ends e s = (p.ends e (s.enter g)).map fun s => s.leave g := by
  rw [ends, all_group, List.map_eq_flatMap]
  exact all_eq e p _ _

theorem ends_repeated (p : Pattern) (lo : Nat) (hi : Option Nat) (greedy : Bool) (s : State) :
    (repeated p lo hi greedy).ends e s =
      e.dedup ((e.rounds (m := Id) (p.ends e) lo hi).outcomes e.fuel greedy s) := by
  rw [ends, all_repeated]
  simp [pure]

theorem first_eq (p : Pattern) (k : State → Option State) (s : State) :
    p.first (m := Id) e k s = (p.ends e s).findSome? k := by
  induction p generalizing k s with
  | empty => rw [first, ends_empty, List.findSome?_singleton]
  | test t =>
    rw [first, ends_test, ← Test.moves?]
    cases t.moves? e s <;> simp [bind, pure]
  | seq p q hp hq =>
    rw [ends_seq, first, hp, findSome?_flatMap]
    simp only [hq]
  | alt p q hp hq =>
    rw [ends_alt, first, hp, hq, List.findSome?_append]
    cases (p.ends e s).findSome? k <;> rfl
  | group g p hp =>
    rw [ends_group, first, hp, List.findSome?_map]
    rfl
  | repeated p lo hi greedy _ =>
    rw [ends_repeated, first]
    cases greedy with
    | true =>
      rw [← Rounds.states_eq]
      change firstOf (m := Id) k _ = _
      rw [firstOf_id]
      rfl
    | false =>
      change (e.rounds (m := Id) (p.ends e) lo hi).firstLazily (m := Id) e.merge k e.fuel .empty (.initial s) = _
      rw [Rounds.firstLazily_eq, Search.dedup, State.dedup_eq]
      rfl
  | look negated p _ =>
    rw [ends, all_look, first]
    cases (p.first (m := Id) e (fun s => pure (some s)) s : Option State) <;> cases negated <;> simp [bind, pure]

theorem first_some (p : Pattern) (s : State) :
    p.first (m := Id) e (fun s => pure (some s)) s = (p.ends e s).head? :=
  (first_eq e p some s).trans (findSome?_some _)

theorem ends_look (negated : Bool) (p : Pattern) (s : State) :
    (look negated p).ends e s =
      match (p.ends e s).head? with
      | some r => if negated then [] else [r.moveTo s.offset]
      | none => if negated then [s] else [] := by
  rw [ends, all_look, first_some]
  rfl

section Agreement

theorem first_eq_head? {k : State → Option State} {l : State → List State} (h : ∀ s, k s = (l s).head?)
    (p : Pattern) (s : State) : p.first (m := Id) e k s = (p.all (m := Id) e l s).head? := by
  have hk : k = fun s => (l s).head? := funext h
  rw [first_eq, all_eq, ← findSome?_some, findSome?_flatMap, hk]
  simp only [findSome?_some]

def firstAfter : List (Option Nat × Pattern) → State → Option State
  | [], s => some s
  | (g, next) :: outer, s => next.first (m := Id) e (firstAfter outer) (s.leave g)

def allAfter : List (Option Nat × Pattern) → State → List State
  | [], s => [s]
  | (g, next) :: outer, s => next.all (m := Id) e (allAfter outer) (s.leave g)

theorem firstAfter_eq (outer : List (Option Nat × Pattern)) (s : State) :
    firstAfter e outer s = (allAfter e outer s).head? := by
  induction outer generalizing s with
  | nil => rfl
  | cons f outer ih =>
    obtain ⟨g, next⟩ := f
    exact first_eq_head? e ih next (s.leave g)

/-- The two ways of matching agree, inside any groups: what the one finds is the first that the other collects. -/
theorem first_eq_head?_collected (p : Pattern) (outer : List (Option Nat × Pattern)) (s : State) :
    p.first (m := Id) e (firstAfter e outer) s = (e.dedup (p.all (m := Id) e (allAfter e outer) s)).head? ∧
      (p.first (m := Id) e (firstAfter e outer) s = none ↔
        e.dedup (p.all (m := Id) e (allAfter e outer) s) = []) := by
  have h : p.first (m := Id) e (firstAfter e outer) s =
      (e.dedup (p.all (m := Id) e (allAfter e outer) s)).head? := by
    rw [Search.head?_dedup]
    exact first_eq_head? e (firstAfter_eq e outer) p s
  refine ⟨h, ?_⟩
  rw [h]
  exact List.head?_eq_none_iff

end Agreement

end Pattern

end DialectRegex
