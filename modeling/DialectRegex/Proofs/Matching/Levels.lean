import DialectRegex.Proofs.Matching.Distinct

namespace DialectRegex

namespace Rounds

def after (r : Rounds Id) (l : List State) : List State := r.expand l

def next? (r : Rounds Id) (f : Frontier) : Option Frontier := r.advance f

def padded? (r : Rounds Id) (n : Nat) (l : List State) (history : List OffsetSet) : Option (List State) :=
  r.pad n l history

def level (r : Rounds Id) : Nat → List State → List State
  | 0, l => l
  | k + 1, l => r.after (r.level k l)

def visited (r : Rounds Id) : Nat → Frontier → List (List State)
  | 0, _ => []
  | fuel + 1, f =>
    (if r.min ≤ f.count then [f.level] else []) ++
      match r.next? f with
      | none => []
      | some next => r.visited fuel next

def outcomes (r : Rounds Id) (fuel : Nat) (greedy : Bool) (s : State) : List State :=
  (if greedy then (r.visited fuel (.initial s)).reverse else r.visited fuel (.initial s)).flatten

variable (r : Rounds Id)

theorem level_after (k : Nat) (l : List State) : r.level k (r.after l) = r.level (k + 1) l := by
  induction k with
  | zero => rfl
  | succ k ih => rw [level, ih]; rfl

theorem level_add (j k : Nat) (l : List State) : r.level j (r.level k l) = r.level (k + j) l := by
  induction j with
  | zero => rfl
  | succ j ih => rw [level, ih, ← Nat.add_assoc, level]

theorem iterate_eq (k : Nat) (l : List State) : r.iterate k l = r.level k l := by
  induction k generalizing l with
  | zero => rfl
  | succ k ih => exact (ih (r.after l)).trans (r.level_after k l)

theorem padded?_succ (n : Nat) (l : List State) (history : List OffsetSet) :
    r.padded? (n + 1) l history =
      if (r.after l).isEmpty then none
      else
        match history.idxOf? (State.offsets (r.after l)) with
        | some i => some (r.level (n % (i + 1)) (r.after l))
        | none => r.padded? n (r.after l) (State.offsets (r.after l) :: history) := by
  simp only [← iterate_eq]
  rfl

theorem next?_eq (f : Frontier) :
    r.next? f =
      if f.stalled || r.max.any (· ≤ f.count) then none
      else if (r.after f.level).isEmpty then none
      else
        let seen := (r.after f.level).foldl (fun seen s => seen.insert s.offset) f.seen
        if (r.after f.level).any (!f.seen.contains ·.offset) then some ⟨f.count + 1, r.after f.level, seen, false⟩
        else if r.min ≤ f.count + 1 then some ⟨f.count + 1, r.after f.level, seen, true⟩
        else
          match r.padded? (r.min - (f.count + 1)) (r.after f.level) [State.offsets (r.after f.level)] with
          | none => none
          | some l => some ⟨r.min, l, seen, true⟩ := by
  rfl

theorem levels_eq (fuel : Nat) (found : List (List State)) (f : Frontier) :
    r.levels fuel found f = (r.visited fuel f).reverse ++ found := by
  induction fuel generalizing found f with
  | zero => rfl
  | succ fuel ih =>
    have h : r.levels (fuel + 1) found f =
        match r.next? f with
        | none => if r.min ≤ f.count then f.level :: found else found
        | some next => r.levels fuel (if r.min ≤ f.count then f.level :: found else found) next := rfl
    rw [h, visited]
    cases r.next? f with
    | none => by_cases hf : r.min ≤ f.count <;> simp [hf]
    | some next => by_cases hf : r.min ≤ f.count <;> simp [hf, ih]

theorem states_eq (fuel : Nat) (greedy : Bool) (s : State) :
    r.states fuel greedy s = r.outcomes fuel greedy s := by
  have h : r.states fuel greedy s =
      if greedy then (r.levels fuel [] (.initial s)).flatten
      else (r.levels fuel [] (.initial s)).reverse.flatten := rfl
  rw [h, levels_eq, outcomes]
  cases greedy <;> simp

theorem firstLazily_eq {α : Type} (merge : Bool) (k : State → Option α) (fuel : Nat) (tried : OffsetSet)
    (f : Frontier) :
    r.firstLazily (m := Id) merge k fuel tried f =
      (if merge then State.distinct tried (r.visited fuel f).flatten
        else (r.visited fuel f).flatten).findSome? k := by
  induction fuel generalizing tried f with
  | zero => cases merge <;> rfl
  | succ fuel ih =>
    let fresh := if r.min ≤ f.count then (if merge then State.distinct tried f.level else f.level) else []
    have h : r.firstLazily (m := Id) merge k (fuel + 1) tried f =
        (fresh.findSome? k).or (match r.next? f with
          | none => none
          | some next =>
            r.firstLazily (m := Id) merge k fuel (fresh.foldl (fun tried s => tried.insert s.offset) tried) next) := by
      rw [← firstOf_id]
      change (match (firstOf (m := Id) k fresh : Option α) with | some a => _ | none => _) = _
      cases (firstOf (m := Id) k fresh : Option α) <;> rfl
    have hf : fresh = if merge then State.distinct tried (if r.min ≤ f.count then [f.level] else []).flatten
        else (if r.min ≤ f.count then [f.level] else []).flatten := by
      by_cases hm : r.min ≤ f.count <;> cases merge <;> simp [fresh, hm, State.distinct]
    rw [h, visited]
    cases hn : r.next? f with
    | none => simp [hf]
    | some next =>
      cases merge with
      | false => simp_all [List.findSome?_append]
      | true => simp_all [List.findSome?_append, State.distinct_append]

end Rounds

end DialectRegex
