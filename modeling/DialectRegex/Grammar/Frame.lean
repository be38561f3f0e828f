import DialectRegex.Pattern.Basic

namespace DialectRegex

structure Options where
  ignoreCase : Bool := false
  multiline : Bool := false
  dotNewline : Bool := false
deriving DecidableEq, Repr

inductive Node where
  | char (c : Char)
  | piece (p : Pattern)

namespace Node

def literal (fold : Bool) (run : List Char) (rest : Pattern) : Pattern :=
  if run.isEmpty then rest else .before (.test (.literal run fold)) rest

def sequence (fold : Bool) (run : List Char) (rest : Pattern) : List Node → Pattern
  | [] => literal fold run rest
  | char c :: ns => sequence fold (c :: run) rest ns
  | piece p :: ns => sequence fold [] (.before p (literal fold run rest)) ns

def toPattern (fold : Bool) : Node → Pattern
  | char c => .test (.literal [c] fold)
  | piece p => p

end Node

inductive GroupKind where
  | capturing (number : Nat)
  | plain
  | look (negated : Bool)
deriving DecidableEq, Repr

structure Frame where
  kind : GroupKind
  opened : List Char
  finished : List Pattern
  nodes : List Node
  repeatable : Bool

namespace Frame

def begin (kind : GroupKind) (opened : List Char) : Frame := ⟨kind, opened, [], [], false⟩

def push (f : Frame) (n : Node) : Frame := { f with nodes := n :: f.nodes, repeatable := true }

def assert (f : Frame) (p : Pattern) : Frame :=
  { f with nodes := .piece p :: f.nodes, repeatable := false }

def sequence (f : Frame) (fold : Bool) : Pattern := Node.sequence fold [] .empty f.nodes

def nextAlternative (f : Frame) (fold : Bool) : Frame :=
  { f with finished := f.sequence fold :: f.finished, nodes := [], repeatable := false }

def body (f : Frame) (fold : Bool) : Pattern :=
  f.finished.foldl (fun rest p => .alt p rest) (f.sequence fold)

def addGroup (f inner : Frame) (fold : Bool) : Frame :=
  match inner.kind with
  | .capturing g => f.push (.piece (.group (some g) (inner.body fold)))
  | .plain => f.push (.piece (.group none (inner.body fold)))
  | .look negated => f.assert (.look negated (inner.body fold))

def repeatLast (f : Frame) (fold : Bool) (min : Nat) (max : Option Nat) (greedy : Bool) : Frame :=
  match f.nodes with
  | [] => f
  | n :: ns => { f with nodes := .piece (.repeated (n.toPattern fold) min max greedy) :: ns }

end Frame

end DialectRegex
