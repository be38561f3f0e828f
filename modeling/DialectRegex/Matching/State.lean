import DialectRegex.Matching.OffsetSet

namespace DialectRegex

structure Capture where
  opened : Option Nat := none
  closed : Option Nat := none
deriving DecidableEq, Repr

/-- The two ends need not come from one traversal; those that are out of order count as unset. -/
def Capture.range? (c : Capture) : Option (Nat × Nat) :=
  match c.opened, c.closed with
  | some a, some b => if a ≤ b then some (a, b) else none
  | _, _ => none

structure State where
  origin : Nat
  offset : Nat
  captures : List Capture
deriving DecidableEq, Repr

namespace State

def initial (groups origin offset : Nat) : State := ⟨origin, offset, List.replicate groups {}⟩

def moveTo (s : State) (offset : Nat) : State := { s with offset }

def enter (s : State) : Option Nat → State
  | none => s
  | some g => { s with captures := s.captures.modify g fun c => { c with opened := some s.offset } }

def leave (s : State) : Option Nat → State
  | none => s
  | some g => { s with captures := s.captures.modify g fun c => { c with closed := some s.offset } }

def group? (s : State) (g : Nat) : Option (Nat × Nat) := s.captures[g]?.bind Capture.range?

def distinct (seen : OffsetSet) : List State → List State
  | [] => []
  | s :: l => if seen.contains s.offset then distinct seen l else s :: distinct (seen.insert s.offset) l

def dedup : List State → List State
  | s :: s' :: l => distinct .empty (s :: s' :: l)
  | l => l

theorem dedup_eq (l : List State) : dedup l = distinct .empty l := by
  match l with
  | [] | [_] | _ :: _ :: _ => rfl

def offsets (l : List State) : OffsetSet := OffsetSet.ofList (l.map offset)

end State

/-- A match from `start` up to `stop`. Group 0 is the whole match; offsets count characters. -/
structure Match where
  start : Nat
  stop : Nat
  groups : List (Option (Nat × Nat))
deriving DecidableEq, Repr

namespace Match

def isEmpty (m : Match) : Bool := m.stop ≤ m.start

def length (m : Match) : Nat := m.stop - m.start

def group? (m : Match) (g : Nat) : Option (Nat × Nat) := m.groups[g]?.join

def ofState (s : State) : Match :=
  let groups := s.captures.map Capture.range?
  let (start, stop) := (groups.head?.join).getD (s.origin, s.offset)
  ⟨start, stop, groups⟩

end Match

end DialectRegex
