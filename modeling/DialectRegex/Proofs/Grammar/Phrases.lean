import DialectRegex.Proofs.Grammar.Rereading

namespace DialectRegex

inductive Times where
  | star
  | plus
  | question
  | exactly (m : Nat) (hm : m ≤ greatestBound)
  | atLeast (m : Nat) (hm : m ≤ greatestBound)
  | between (m n : Nat) (hmn : m ≤ n) (hn : n ≤ greatestBound)

def Times.bounds : Times → Bounds
  | star => ⟨0, none⟩
  | plus => ⟨1, none⟩
  | question => ⟨0, some 1⟩
  | exactly m _ => ⟨m, some m⟩
  | atLeast m _ => ⟨m, none⟩
  | between m n _ _ => ⟨m, some n⟩

inductive Level where
  | item
  | sequence
  | alternatives

inductive Phrase : Level → Type where
  | char (c : Char) : Phrase .item
  | dot : Phrase .item
  | group (p : Phrase .alternatives) : Phrase .item
  | repeated (p : Phrase .item) (t : Times) : Phrase .item
  | empty : Phrase .sequence
  | cons (p : Phrase .item) (q : Phrase .sequence) : Phrase .sequence
  | last (p : Phrase .sequence) : Phrase .alternatives
  | alt (p : Phrase .sequence) (q : Phrase .alternatives) : Phrase .alternatives

abbrev Level.Denotation : Level → Type
  | item => Node
  | sequence => List Node
  | alternatives => Pattern

namespace Phrase

def groups {l : Level} : Phrase l → Nat
  | char _ => 0
  | dot => 0
  | group p => p.groups + 1
  | repeated p _ => p.groups
  | empty => 0
  | cons p q => p.groups + q.groups
  | last p => p.groups
  | alt p q => p.groups + q.groups

/-- What the phrase stands for, with its groups numbered from `n` on in the order in which they open. Characters in a row
become one literal. -/
def denote (any : Test) (fold : Bool) {l : Level} : Phrase l → Nat → l.Denotation
  | char c, _ => Node.char c
  | dot, _ => Node.piece (.test any)
  | group p, n => Node.piece (.group (some n) (p.denote any fold (n + 1)))
  | repeated p t, n =>
    Node.piece (.repeated (Node.toPattern fold (p.denote any fold n)) t.bounds.min t.bounds.max true)
  | empty, _ => ([] : List Node)
  | cons p q, n => List.cons (α := Node) (p.denote any fold n) (q.denote any fold (n + p.groups))
  | last p, n => sequenceOf fold (p.denote any fold n)
  | alt p q, n => Pattern.alt (sequenceOf fold (p.denote any fold n)) (q.denote any fold (n + p.groups))

def quotedChars : List Char := ['.', '*', '^', '$', '[', '\\']

def markChars : List Char := ['(', ')', '\x7b', '\x7d', '|', '+', '?']

end Phrase

namespace Dialect

def braced (d : Dialect) (cs : List Char) : List Char :=
  mark (d.has .bareBraces) '\x7b' ++ cs ++ mark (d.has .bareBraces) '\x7d'

def times (d : Dialect) : Times → List Char
  | .star => ['*']
  | .plus => mark (!d.has .backslashPlusQuestion) '+'
  | .question => mark (!d.has .backslashPlusQuestion) '?'
  | .exactly m _ => d.braced (decimal m)
  | .atLeast m _ => d.braced (decimal m ++ [','])
  | .between m n _ _ => d.braced (decimal m ++ ',' :: decimal n)

end Dialect

inductive Phrase.Spells (d : Dialect) : {l : Level} → Phrase l → List Char → List Char → Prop where
  | plain {c : Char} {rest : List Char} (hc : c ∉ quotedChars ++ markChars) : Spells d (.char c) rest (c :: rest)
  | quoted {c : Char} {rest : List Char} (hc : c ∈ quotedChars) : Spells d (.char c) rest ('\\' :: c :: rest)
  | bare {c : Char} {rest : List Char} (hc : c ∈ markChars) (hop : d.operator? (c :: rest) = none) :
      Spells d (.char c) rest (c :: rest)
  | escaped {c : Char} {rest : List Char} (hc : c ∈ markChars) (hop : d.operator? ('\\' :: c :: rest) = none) :
      Spells d (.char c) rest ('\\' :: c :: rest)
  | dot {rest : List Char} : Spells d .dot rest ('.' :: rest)
  | group {p : Phrase .alternatives} {rest text : List Char}
      (h : Spells d p (mark (d.has .bareParens) ')' ++ rest) text) :
      Spells d (.group p) rest (mark (d.has .bareParens) '(' ++ text)
  | repeated {p : Phrase .item} {t : Times} {rest text : List Char} (h : Spells d p (d.times t ++ rest) text) :
      Spells d (.repeated p t) rest text
  | empty {rest : List Char} : Spells d .empty rest rest
  | cons {p : Phrase .item} {q : Phrase .sequence} {rest middle text : List Char} (hp : Spells d p middle text)
      (hq : Spells d q rest middle) : Spells d (.cons p q) rest text
  | last {p : Phrase .sequence} {rest text : List Char} (h : Spells d p rest text) : Spells d (.last p) rest text
  | alt {p : Phrase .sequence} {q : Phrase .alternatives} {rest middle text : List Char}
      (hp : Spells d p (mark (d.has .bareBar) '|' ++ middle) text) (hq : Spells d q rest middle) :
      Spells d (.alt p q) rest text

namespace Phrase

theorem markChars_cases (d : Dialect) {c : Char} (hc : c ∈ markChars) (rest : List Char) :
    d.operator? (c :: rest) = none ∨ d.operator? ('\\' :: c :: rest) = none := by
  have hne : c ≠ '\\' := by
    rintro rfl
    exact absurd hc (by decide)
  have hmark : c ∈ ['(', ')', '\x7b', '\x7d', '|', '+', '?'] := hc
  rw [Dialect.operator?_bare hne, Dialect.operator?, Option.map_eq_none_iff, Option.map_eq_none_iff]
  simp only [List.mem_cons, List.not_mem_nil, or_false] at hmark
  rcases hmark with rfl | rfl | rfl | rfl | rfl | rfl | rfl
  · cases h : d.has .bareParens <;> simp [Dialect.bareOperator?, Dialect.escapedOperator?, h]
  · cases h : d.has .bareParens <;> simp [Dialect.bareOperator?, Dialect.escapedOperator?, h]
  · cases h : d.has .bareBraces <;> simp [Dialect.bareOperator?, Dialect.escapedOperator?, h]
  · exact .inl rfl
  · cases h : d.has .bareBar <;> simp [Dialect.bareOperator?, Dialect.escapedOperator?, h]
  · cases h : d.has .backslashPlusQuestion <;> simp [Dialect.bareOperator?, Dialect.escapedOperator?, h]
  · cases h : d.has .backslashPlusQuestion <;> simp [Dialect.bareOperator?, Dialect.escapedOperator?, h]

theorem exists_spelling (d : Dialect) {l : Level} (p : Phrase l) (rest : List Char) : ∃ text, p.Spells d rest text := by
  induction p generalizing rest with
  | char c =>
    by_cases hq : c ∈ quotedChars
    · exact ⟨_, .quoted hq⟩
    by_cases hm : c ∈ markChars
    · rcases markChars_cases d hm rest with hop | hop
      · exact ⟨_, .bare hm hop⟩
      · exact ⟨_, .escaped hm hop⟩
    · exact ⟨_, .plain (by simp [hq, hm])⟩
  | dot => exact ⟨_, .dot⟩
  | group p ih =>
    obtain ⟨text, h⟩ := ih (mark (d.has .bareParens) ')' ++ rest)
    exact ⟨_, .group h⟩
  | repeated p t ih =>
    obtain ⟨text, h⟩ := ih (d.times t ++ rest)
    exact ⟨text, .repeated h⟩
  | empty => exact ⟨rest, .empty⟩
  | cons p q ihp ihq =>
    obtain ⟨middle, hq⟩ := ihq rest
    obtain ⟨text, hp⟩ := ihp middle
    exact ⟨text, .cons hp hq⟩
  | last p ih =>
    obtain ⟨text, h⟩ := ih rest
    exact ⟨text, .last h⟩
  | alt p q ihp ihq =>
    obtain ⟨middle, hq⟩ := ihq rest
    obtain ⟨text, hp⟩ := ihp (mark (d.has .bareBar) '|' ++ middle)
    exact ⟨text, .alt hp hq⟩

end Phrase

end DialectRegex
