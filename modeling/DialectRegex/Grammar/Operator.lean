import DialectRegex.Dialect.Basic

namespace DialectRegex

inductive Operator where
  | star | plus | question | intervalOpen | groupOpen | groupClose | bar
deriving DecidableEq, Repr

namespace Dialect

def startsInterval (d : Dialect) : List Char → Bool
  | c :: _ => d.has .intervals && (c.isDigit || c == ',')
  | [] => false

def escapedOperator? (d : Dialect) (c : Char) (rest : List Char) : Option Operator :=
  match c with
  | '(' => if d.has .bareParens then none else some .groupOpen
  | ')' => if d.has .bareParens then none else some .groupClose
  | '|' => if d.has .bareBar || d.has .limitedOperators then none else some .bar
  | '\x7b' => if !d.has .bareBraces && d.startsInterval rest then some .intervalOpen else none
  | '+' => if d.has .backslashPlusQuestion && !d.has .limitedOperators then some .plus else none
  | '?' => if d.has .backslashPlusQuestion && !d.has .limitedOperators then some .question else none
  | _ => none

def bareOperator? (d : Dialect) (c : Char) (rest : List Char) : Option Operator :=
  match c with
  | '(' => if d.has .bareParens then some .groupOpen else none
  | ')' => if d.has .bareParens then some .groupClose else none
  | '|' => if d.has .bareBar && !d.has .limitedOperators then some .bar else none
  | '\n' => if d.has .newlineAlternates then some .bar else none
  | '\x7b' => if d.has .bareBraces && d.startsInterval rest then some .intervalOpen else none
  | '*' => some .star
  | '+' => if d.has .backslashPlusQuestion || d.has .limitedOperators then none else some .plus
  | '?' => if d.has .backslashPlusQuestion || d.has .limitedOperators then none else some .question
  | _ => none

def operator? (d : Dialect) : List Char → Option (Operator × Nat)
  | '\\' :: c :: rest => (d.escapedOperator? c rest).map (·, 2)
  | c :: rest => (d.bareOperator? c rest).map (·, 1)
  | [] => none

theorem operator?_shorter {d : Dialect} {cs : List Char} {op : Operator} {n : Nat}
    (h : d.operator? cs = some (op, n)) : (cs.drop n).length < cs.length := by
  fun_cases operator? d cs
  case case1 c rest =>
    obtain ⟨_, _, he⟩ := Option.map_eq_some_iff.mp h
    simp only [Prod.mk.injEq] at he
    simp only [← he.2, List.drop_succ_cons, List.drop_zero, List.length_cons]
    omega
  case case2 c rest _ =>
    simp only [operator?, Option.map_eq_some_iff] at h
    obtain ⟨_, _, he⟩ := h
    simp only [Prod.mk.injEq] at he
    simp only [← he.2, List.drop_succ_cons, List.drop_zero, List.length_cons]
    omega
  case case3 => simp [operator?] at h

end Dialect

end DialectRegex
