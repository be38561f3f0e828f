import DialectRegex.Pattern.Basic

namespace DialectRegex

def controlLetter? : Char → Option Char
  | '\n' => some 'n'
  | '\t' => some 't'
  | '\r' => some 'r'
  | '\x0c' => some 'f'
  | _ => none

def renderControl (c : Char) : List Char :=
  match controlLetter? c with
  | some l => ['\\', l]
  | none => [c]

def operatorChars : List Char := "\\.^$|?*+()[]\x7b\x7d".toList

def renderLiteral (c : Char) : List Char :=
  if c ∈ operatorChars then '\\' :: renderControl c else renderControl c

def renderSetChar (c : Char) : List Char :=
  if c ∈ [']', '\\', '^', '-', '['] then ['\\', c] else renderControl c

def CharClass.render (k : CharClass) (negated : Bool) : List Char :=
  match k.escape?, negated with
  | some e, false => ['\\', e]
  | some e, true => ['\\', e.toUpper]
  | none, false => '[' :: ':' :: k.name.toList ++ [':', ']']
  | none, true => '[' :: ':' :: '^' :: k.name.toList ++ [':', ']']

def SetItem.render : SetItem → List Char
  | char c => renderSetChar c
  | range lo hi => renderSetChar lo ++ '-' :: renderSetChar hi
  | named k negated => k.render negated

def CharSet.render (s : CharSet) : List Char :=
  '[' :: (if s.negated then ['^'] else []) ++ s.items.flatMap SetItem.render ++ [']']

def Boundary.render : Boundary → List Char
  | either => ['\\', 'b']
  | neither => ['\\', 'B']
  | wordStart => ['\\', '<']
  | wordEnd => ['\\', '>']

def decimal (n : Nat) : List Char := Nat.toDigits 10 n

def Test.render : Test → List Char
  | literal cs _ => cs.flatMap renderLiteral
  | any _ _ => ['.']
  | named k negated _ =>
    match k.escape? with
    | some _ => k.render negated
    | none => '[' :: (if negated then ['^'] else []) ++ k.render false ++ [']']
  | set s => s.render
  | anchor .start _ => ['^']
  | anchor .stop _ => ['$']
  | boundary b => b.render
  | backref g _ => '\\' :: decimal g

def renderBounds : Nat → Option Nat → List Char
  | 0, none => ['*']
  | 1, none => ['+']
  | 0, some 1 => ['?']
  | lo, none => '\x7b' :: decimal lo ++ [',', '\x7d']
  | lo, some hi =>
    if lo = hi then '\x7b' :: decimal lo ++ ['\x7d']
    else '\x7b' :: decimal lo ++ ',' :: decimal hi ++ ['\x7d']

def Pattern.isSingle : Pattern → Bool
  | test (.literal cs _) => cs.length == 1
  | test (.anchor _ _) => false
  | test (.boundary _) => false
  | test _ => true
  | group _ _ => true
  | _ => false

def Pattern.render : Pattern → List Char
  | empty => []
  | test t => t.render
  | seq p q => p.render ++ q.render
  | alt p q => p.render ++ '|' :: q.render
  | group none p => "(?:".toList ++ p.render ++ [')']
  | group (some _) p => '(' :: p.render ++ [')']
  | repeated p lo hi greedy =>
    (if p.isSingle then p.render else "(?:".toList ++ p.render ++ [')'])
      ++ renderBounds lo hi ++ if greedy then [] else ['?']
  | look negated p => (if negated then "(?!" else "(?=").toList ++ p.render ++ [')']

def Pattern.write : Pattern → String → String
  | empty, out => out
  | test t, out => out ++ String.ofList t.render
  | seq p q, out => q.write (p.write out)
  | alt p q, out => q.write (p.write out ++ "|")
  | group none p, out => p.write (out ++ "(?:") ++ ")"
  | group (some _) p, out => p.write (out ++ "(") ++ ")"
  | repeated p lo hi greedy, out =>
    (if p.isSingle then p.write out else p.write (out ++ "(?:") ++ ")")
      ++ String.ofList (renderBounds lo hi ++ if greedy then [] else ['?'])
  | look negated p, out => p.write (out ++ if negated then "(?!" else "(?=") ++ ")"

theorem Pattern.toList_write (p : Pattern) (out : String) : (p.write out).toList = out.toList ++ p.render := by
  induction p generalizing out with
  | empty => simp [write, render]
  | test t => simp [write, render]
  | seq p q hp hq => simp [write, render, hp, hq]
  | alt p q hp hq => simp [write, render, hp, hq]
  | group g p hp => cases g <;> simp [write, render, hp]
  | repeated p lo hi greedy hp =>
    rw [write, render]
    split <;> simp [hp]
  | look negated p hp => cases negated <;> simp [write, render, hp]

end DialectRegex
