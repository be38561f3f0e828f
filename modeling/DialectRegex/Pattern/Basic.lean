import DialectRegex.CharSet

namespace DialectRegex

inductive Edge where
  | start | stop
deriving DecidableEq, Repr

inductive Boundary where
  | either
  | neither
  | wordStart
  | wordEnd
deriving DecidableEq, Repr

/-- A test has at most one outcome from each position. -/
inductive Test where
  | literal (chars : List Char) (fold : Bool)
  | any (newline nul : Bool)
  | named (k : CharClass) (negated fold : Bool)
  | set (s : CharSet)
  | anchor (e : Edge) (multiline : Bool)
  | boundary (b : Boundary)
  | backref (group : Nat) (fold : Bool)
deriving DecidableEq, Repr

inductive Pattern where
  | empty
  | test (t : Test)
  | seq (p q : Pattern)
  | alt (p q : Pattern)
  | group (number : Option Nat) (body : Pattern)
  | repeated (body : Pattern) (min : Nat) (max : Option Nat) (greedy : Bool)
  | look (negated : Bool) (body : Pattern)
deriving DecidableEq, Repr

namespace Pattern

def before (p : Pattern) : Pattern → Pattern
  | empty => p
  | q => seq p q

def hasBackref : Pattern → Bool
  | empty => false
  | test (.backref _ _) => true
  | test _ => false
  | seq p q => p.hasBackref || q.hasBackref
  | alt p q => p.hasBackref || q.hasBackref
  | group _ p => p.hasBackref
  | repeated p _ _ _ => p.hasBackref
  | look _ p => p.hasBackref

end Pattern

inductive Overflow where
  | addition
deriving DecidableEq, Repr

def Overflow.message : Overflow → String
  | addition => "attempt to add with overflow"

def checkedAdd (a b : UInt64) : Except Overflow UInt64 :=
  if a.toNat + b.toNat < UInt64.size then .ok (a + b) else .error .addition

def saturatingMul (a b : UInt64) : UInt64 := UInt64.ofNat (min (a.toNat * b.toNat) (UInt64.size - 1))

def Test.minLength : Test → Except Overflow UInt64
  | literal cs _ => if cs.length < UInt64.size then .ok (.ofNat cs.length) else .error .addition
  | any _ _ => .ok 1
  | named _ _ _ => .ok 1
  | set _ => .ok 1
  | anchor _ _ => .ok 0
  | boundary _ => .ok 0
  | backref _ _ => .ok 0

/-- A lower bound on the number of characters of a match. Products stop at the greatest word, sums do not. -/
def Pattern.minLength : Pattern → Except Overflow UInt64
  | empty => .ok 0
  | test t => t.minLength
  | seq p q => do checkedAdd (← p.minLength) (← q.minLength)
  | alt p q => do return min (← p.minLength) (← q.minLength)
  | group _ p => p.minLength
  | repeated p lo _ _ => do return saturatingMul (.ofNat lo) (← p.minLength)
  | look _ _ => .ok 0

end DialectRegex
