import DialectRegex.Regex

/-!
Compiled patterns laid out one token after the other. A token refers to others by their positions, and every sequence
of tokens ends at the first one, which is the tail of all of them.
-/

namespace DialectRegex

inductive TokenKind where
  | tail
  | test (t : Test)
  | repeated (body : Nat) (min : Nat) (max : Option Nat) (greedy : Bool)
  | group (number : Option Nat) (alternatives : List Nat)
  | look (negated : Bool) (body : Nat)
deriving DecidableEq, Repr

structure Token where
  kind : TokenKind
  next : Nat
deriving DecidableEq, Repr

structure Program where
  tokens : List Token
  root : Nat
  full : Nat
  groups : Nat
  hasBackref : Bool
deriving DecidableEq, Repr

def pushToken (ts : List Token) (t : Token) : Nat × List Token := (ts.length, ts ++ [t])

structure Layout where
  kind : List Token → TokenKind × List Token
  sequence : List Token → Nat × List Token
  alternatives : List Token → List Nat × List Token

namespace Layout

def ofAlternatives (alternatives : List Token → List Nat × List Token)
    (sequence : List Token → Nat × List Token) : Layout where
  kind ts :=
    let (is, ts) := alternatives ts
    (.group none is, ts)
  sequence
  alternatives

def ofSequence (sequence : List Token → Nat × List Token) : Layout :=
  ofAlternatives (fun ts =>
    let (i, ts) := sequence ts
    ([i], ts)) sequence

def ofKind (kind : List Token → TokenKind × List Token) : Layout :=
  let sequence (ts : List Token) :=
    let (k, ts) := kind ts
    pushToken ts ⟨k, 0⟩
  { ofSequence sequence with kind }

end Layout

/-- What is inside the elements of a sequence comes before all of their own tokens, which stand from right to left. -/
def Pattern.layout : Pattern → Layout
  | empty => .ofSequence fun ts => (0, ts)
  | test t => .ofKind fun ts => (.test t, ts)
  | seq p q => .ofSequence fun ts =>
    let (k, ts) := p.layout.kind ts
    let (next, ts) := q.layout.sequence ts
    pushToken ts ⟨k, next⟩
  | alt p q =>
    let alternatives (ts : List Token) :=
      let (i, ts) := p.layout.sequence ts
      let (is, ts) := q.layout.alternatives ts
      (i :: is, ts)
    .ofAlternatives alternatives fun ts =>
      let (is, ts) := alternatives ts
      pushToken ts ⟨.group none is, 0⟩
  | group g p => .ofKind fun ts =>
    let (is, ts) := p.layout.alternatives ts
    (.group g is, ts)
  | repeated p min max greedy => .ofKind fun ts =>
    let (i, ts) := p.layout.sequence ts
    (.repeated i min max greedy, ts)
  | look negated p => .ofKind fun ts =>
    let (is, ts) := p.layout.alternatives ts
    let (i, ts) := pushToken ts ⟨.group none is, 0⟩
    (.look negated i, ts)

def Regex.program (r : Regex) : Program :=
  let (is, ts) := r.body.layout.alternatives [⟨.tail, 0⟩]
  let (root, ts) := pushToken ts ⟨.group (some 0) is, 0⟩
  let (stop, ts) := pushToken ts ⟨.test (.anchor .stop false), 0⟩
  let (full, ts) := pushToken ts ⟨.group (some 0) is, stop⟩
  ⟨ts, root, full, r.groupCount, r.body.hasBackref⟩

end DialectRegex
