import DialectRegex.Matching.Frontier
import DialectRegex.Matching.Step

/-!
The backtracking matcher. `first` finds the preferred way to match a pattern and what follows it; `all` finds
every way, in order of preference. What follows a pattern is given as a continuation.
-/

namespace DialectRegex

variable {m : Type → Type} [Monad m]

structure Search (m : Type → Type) where
  input : Input m
  flags : SearchFlags
  /-- States at one offset are interchangeable, so that one of them is enough. -/
  merge : Bool

namespace Search

def dedup (e : Search m) (l : List State) : List State :=
  if e.merge then State.dedup l else l

@[specialize] def rounds (e : Search m) (ends : State → m (List State)) (min : Nat) (max : Option Nat) :
    Rounds m where
  expand level := gather (fun s => ends s >>= fun l => pure (e.dedup l)) [] level >>= fun next => pure (e.dedup next)
  min := min
  max := max

/-- Each level but the last two reaches a new offset. -/
def fuel (e : Search m) : Nat := e.input.limit + 3

end Search

namespace Pattern

mutual

@[specialize] def first (e : Search m) : Pattern → (State → m (Option State)) → State → m (Option State)
  | empty, k, s => k s
  | test t, k, s => t.run e.input.charAt e.flags s >>= fun
    | none => pure none
    | some i => k (s.moveTo i)
  | seq p q, k, s => p.first e (fun s => q.first e k s) s
  | alt p q, k, s => p.first e k s >>= fun
    | some r => pure (some r)
    | none => q.first e k s
  | group g p, k, s => p.first e (fun s => k (s.leave g)) (s.enter g)
  | repeated p min max greedy, k, s =>
    let r := e.rounds (p.all e fun s => pure [s]) min max
    if greedy then r.states e.fuel true s >>= fun l => firstOf k (e.dedup l)
    else r.firstLazily e.merge k e.fuel .empty (.initial s)
  | look negated p, k, s => p.first e (fun s => pure (some s)) s >>= fun
    | some r => if negated then pure none else k (r.moveTo s.offset)
    | none => if negated then k s else pure none

@[specialize] def all (e : Search m) : Pattern → (State → m (List State)) → State → m (List State)
  | empty, k, s => k s
  | test t, k, s => t.run e.input.charAt e.flags s >>= fun
    | none => pure []
    | some i => k (s.moveTo i)
  | seq p q, k, s => p.all e (fun s => q.all e k s) s
  | alt p q, k, s => p.all e k s >>= fun l => q.all e k s >>= fun l' => pure (l ++ l')
  | group g p, k, s => p.all e (fun s => k (s.leave g)) (s.enter g)
  | repeated p min max greedy, k, s =>
    let r := e.rounds (p.all e fun s => pure [s]) min max
    r.states e.fuel greedy s >>= fun l => gather k [] (e.dedup l)
  | look negated p, k, s => p.first e (fun s => pure (some s)) s >>= fun
    | some r => if negated then pure [] else k (r.moveTo s.offset)
    | none => if negated then k s else pure []

end

end Pattern

end DialectRegex
