import DialectRegex.Regex

namespace DialectRegex

inductive Breach where
  | index
  | difference
  | unreachable
deriving DecidableEq, Repr

abbrev Guarded (m : Type → Type) := ExceptT Breach m

variable {m : Type → Type} [Monad m]

def insist (b : Breach) (p : Prop) [Decidable p] : Guarded m Unit := if p then pure () else throw b

def Input.guarded (input : Input m) : Input (Guarded m) where
  charAt i := .lift (input.charAt i)
  release i := .lift (input.release i)
  limit := input.limit

namespace State

def enterGuarded (s : State) (g : Option Nat) : Guarded m State :=
  insist .index (∀ n ∈ g, n < s.captures.length) >>= fun _ => pure (s.enter g)

def leaveGuarded (s : State) (g : Option Nat) : Guarded m State :=
  insist .index (∀ n ∈ g, n < s.captures.length) >>= fun _ => pure (s.leave g)

def groupGuarded (s : State) (g : Nat) : Guarded m (Option (Nat × Nat)) :=
  insist .index (g < s.captures.length) >>= fun _ => pure (s.group? g)

end State

def Match.ofStateGuarded (s : State) : Guarded m Match :=
  insist .index (0 < s.captures.length) >>= fun _ => pure (.ofState s)

def Test.runGuarded (read : Nat → Guarded m (Option Char)) (flags : SearchFlags) (s : State) :
    Test → Guarded m (Option Nat)
  | backref g fold => s.groupGuarded g >>= fun
    | none => pure none
    | some (a, b) => insist .difference (a ≤ b) >>= fun _ => readAgain read fold (b - a) a s.offset
  | t => t.run read flags s

namespace Pattern

def stepGuarded (e : Search (Guarded m)) : Pattern → State → Guarded m (Option Nat)
  | test t, s => t.runGuarded e.input.charAt e.flags s
  | _, _ => throw .unreachable

def boundsGuarded : Pattern → Guarded m (Nat × Option Nat × Bool)
  | repeated _ min max greedy => pure (min, max, greedy)
  | _ => throw .unreachable

mutual

def firstGuarded (e : Search (Guarded m)) :
    Pattern → (State → Guarded m (Option State)) → State → Guarded m (Option State)
  | empty, k, s => k s
  | seq p q, k, s => p.firstGuarded e (fun s => q.firstGuarded e k s) s
  | alt p q, k, s => p.firstGuarded e k s >>= fun
    | some r => pure (some r)
    | none => q.firstGuarded e k s
  | group g p, k, s => s.enterGuarded g >>= fun s => p.firstGuarded e (fun s => s.leaveGuarded g >>= k) s
  | repeated p min max greedy, k, s =>
    (repeated p min max greedy).boundsGuarded >>= fun (min, max, greedy) =>
      let r := e.rounds (p.allGuarded e fun s => pure [s]) min max
      if greedy then r.states e.fuel true s >>= fun l => firstOf k (e.dedup l)
      else r.firstLazily e.merge k e.fuel .empty (.initial s)
  | look negated p, k, s => p.firstGuarded e (fun s => pure (some s)) s >>= fun
    | some r => if negated then pure none else k (r.moveTo s.offset)
    | none => if negated then k s else pure none
  | p, k, s => p.stepGuarded e s >>= fun
    | none => pure none
    | some i => k (s.moveTo i)

def allGuarded (e : Search (Guarded m)) :
    Pattern → (State → Guarded m (List State)) → State → Guarded m (List State)
  | empty, k, s => k s
  | seq p q, k, s => p.allGuarded e (fun s => q.allGuarded e k s) s
  | alt p q, k, s => p.allGuarded e k s >>= fun l => q.allGuarded e k s >>= fun l' => pure (l ++ l')
  | group g p, k, s => s.enterGuarded g >>= fun s => p.allGuarded e (fun s => s.leaveGuarded g >>= k) s
  | repeated p min max greedy, k, s =>
    (repeated p min max greedy).boundsGuarded >>= fun (min, max, greedy) =>
      let r := e.rounds (p.allGuarded e fun s => pure [s]) min max
      r.states e.fuel greedy s >>= fun l => gather k [] (e.dedup l)
  | look negated p, k, s => p.firstGuarded e (fun s => pure (some s)) s >>= fun
    | some r => if negated then pure [] else k (r.moveTo s.offset)
    | none => if negated then k s else pure []
  | p, k, s => p.stepGuarded e s >>= fun
    | none => pure []
    | some i => k (s.moveTo i)

end

end Pattern

namespace Regex

def attemptGuarded (r : Regex) (flags : SearchFlags) (input : Input (Guarded m)) (origin offset : Nat) :
    Guarded m (Option Match) :=
  r.whole.firstGuarded ⟨input, flags, r.merge⟩ (fun s => pure (some s)) (.initial r.groupCount origin offset) >>= fun
    | none => pure none
    | some s => Match.ofStateGuarded s >>= fun found => pure (some found)

def matchAtGuarded (r : Regex) (flags : SearchFlags) (input : Input (Guarded m)) (offset : Nat) :
    Guarded m (Option Match) :=
  pastEnd input offset >>= fun past => if past then pure none else r.attemptGuarded flags input offset offset

def findFromGuarded (r : Regex) (flags : SearchFlags) (input : Input (Guarded m)) (origin : Nat) :
    Nat → Nat → Guarded m (Option Match)
  | 0, _ => pure none
  | fuel + 1, start => r.attemptGuarded flags input origin start >>= fun
    | some found => pure (some found)
    | none => input.charAt start >>= fun
      | none => pure none
      | some _ => findFromGuarded r flags input origin fuel (start + 1)

def findAtGuarded (r : Regex) (flags : SearchFlags) (input : Input (Guarded m)) (offset : Nat) :
    Guarded m (Option Match) :=
  pastEnd input offset >>= fun past =>
    if past then pure none else r.findFromGuarded flags input offset (input.limit + 1 - offset) offset

end Regex

end DialectRegex
