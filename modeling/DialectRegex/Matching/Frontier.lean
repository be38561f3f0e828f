import DialectRegex.Matching.State

/-!
Repetition by levels. Level `k` holds the states after exactly `k` rounds, in order of preference. Levels are
built until `max`, until one is empty, or until one reaches no offset that an earlier level has not reached:
from there on the levels come back to known offsets. If that happens below `min`, the levels repeat with some
period, and whole periods are left out on the way to `min`.
-/

namespace DialectRegex

variable {m : Type → Type} [Monad m]

section Preference

variable {α β : Type}

@[specialize] def gather (f : α → m (List β)) (found : List (List β)) : List α → m (List β)
  | [] => pure found.reverse.flatten
  | a :: as => f a >>= fun bs => gather f (bs :: found) as

@[specialize] def firstOf (f : α → m (Option β)) : List α → m (Option β)
  | [] => pure none
  | a :: as => f a >>= fun
    | some b => pure (some b)
    | none => firstOf f as

theorem gather_id (f : α → Id (List β)) (found : List (List β)) (l : List α) :
    gather f found l = found.reverse.flatten ++ l.flatMap f := by
  induction l generalizing found with
  | nil => exact (List.append_nil _).symm
  | cons a as ih =>
    refine (ih (f a :: found)).trans ?_
    rw [List.reverse_cons, List.flatten_append, List.flatMap_cons, List.append_assoc]
    exact congrArg (found.reverse.flatten ++ ·) (congrArg (· ++ as.flatMap f) (List.append_nil (f a)))

theorem firstOf_id (f : α → Id (Option β)) (l : List α) : firstOf f l = l.findSome? f := by
  induction l with
  | nil => rfl
  | cons a as ih =>
    have h : firstOf f (a :: as) = match f a with | some b => some b | none => firstOf f as := rfl
    rw [h, List.findSome?_cons, ih]
    rfl

end Preference

structure Rounds (m : Type → Type) where
  expand : List State → m (List State)
  min : Nat
  max : Option Nat

structure Frontier where
  count : Nat
  level : List State
  seen : OffsetSet
  stalled : Bool

def Frontier.initial (s : State) : Frontier := ⟨0, [s], OffsetSet.empty.insert s.offset, false⟩

namespace Rounds

@[specialize] def iterate (r : Rounds m) : Nat → List State → m (List State)
  | 0, level => pure level
  | n + 1, level => r.expand level >>= r.iterate n

@[specialize] def pad (r : Rounds m) : Nat → List State → List OffsetSet → m (Option (List State))
  | 0, level, _ => pure (some level)
  | n + 1, level, history => r.expand level >>= fun next =>
    if next.isEmpty then pure none
    else
      match history.idxOf? (State.offsets next) with
      | some i => r.iterate (n % (i + 1)) next >>= fun last => pure (some last)
      | none => r.pad n next (State.offsets next :: history)

@[specialize] def advance (r : Rounds m) (f : Frontier) : m (Option Frontier) :=
  if f.stalled || r.max.any (· ≤ f.count) then pure none
  else r.expand f.level >>= fun next =>
    if next.isEmpty then pure none
    else
      let fresh := next.any (!f.seen.contains ·.offset)
      let seen := next.foldl (fun seen s => seen.insert s.offset) f.seen
      if fresh then pure (some ⟨f.count + 1, next, seen, false⟩)
      else if r.min ≤ f.count + 1 then pure (some ⟨f.count + 1, next, seen, true⟩)
      else r.pad (r.min - (f.count + 1)) next [State.offsets next] >>= fun
        | none => pure none
        | some level => pure (some ⟨r.min, level, seen, true⟩)

@[specialize] def levels (r : Rounds m) : Nat → List (List State) → Frontier → m (List (List State))
  | 0, found, _ => pure found
  | fuel + 1, found, f =>
    let found := if r.min ≤ f.count then f.level :: found else found
    r.advance f >>= fun
      | none => pure found
      | some f => r.levels fuel found f

@[specialize] def states (r : Rounds m) (fuel : Nat) (greedy : Bool) (s : State) : m (List State) :=
  r.levels fuel [] (.initial s) >>= fun ls => pure (if greedy then ls.flatten else ls.reverse.flatten)

@[specialize] def firstLazily {α : Type} (r : Rounds m) (merge : Bool) (k : State → m (Option α)) :
    Nat → OffsetSet → Frontier → m (Option α)
  | 0, _, _ => pure none
  | fuel + 1, tried, f =>
    let fresh := if r.min ≤ f.count then (if merge then State.distinct tried f.level else f.level) else []
    firstOf k fresh >>= fun
      | some a => pure (some a)
      | none => r.advance f >>= fun
        | none => pure none
        | some next =>
          r.firstLazily merge k fuel (fresh.foldl (fun tried s => tried.insert s.offset) tried) next

end Rounds

end DialectRegex
