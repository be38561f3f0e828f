import DialectRegex.Grammar.Compile
import DialectRegex.Program.Layout

namespace DialectRegex

/-- `none` says that something outside of the text was read, or that the reading has no end. -/
abbrev Parse := ExceptT PatternError Option

def Parse.stuck {α : Type} : Parse α := ExceptT.mk none

inductive Piece where
  | char (c : Char)
  | token (k : TokenKind)
  | assertion (k : TokenKind)
deriving DecidableEq, Repr

namespace Piece

def kinds (fold : Bool) (run : List Char) : List Piece → List TokenKind
  | [] => if run.isEmpty then [] else [.test (.literal run fold)]
  | char c :: xs => kinds fold (run ++ [c]) xs
  | token k :: xs | assertion k :: xs =>
    (if run.isEmpty then [] else [.test (.literal run fold)]) ++ k :: kinds fold [] xs

def link (ks : List TokenKind) (ts : List Token) : Nat × List Token :=
  ks.foldr (fun k (next, ts) => pushToken ts ⟨k, next⟩) (0, ts)

end Piece

structure Draft where
  pos : Nat
  groups : Nat
  depth : Nat
  tokens : List Token
  hasBackref : Bool
deriving DecidableEq, Repr

namespace Draft

def start : Draft := ⟨0, 1, 0, [⟨.tail, 0⟩], false⟩

def push (s : Draft) (k : TokenKind) (next : Nat) : Nat × Draft :=
  let (i, tokens) := pushToken s.tokens ⟨k, next⟩
  (i, { s with tokens })

def chain (s : Draft) (fold : Bool) (xs : List Piece) : Nat × Draft :=
  let (i, tokens) := Piece.link (Piece.kinds fold [] xs) s.tokens
  (i, { s with tokens })

def enter (s : Draft) (pos : Nat) : GroupKind → Draft
  | .capturing _ => { s with pos, groups := s.groups + 1, depth := s.depth + 1 }
  | _ => { s with pos, depth := s.depth + 1 }

def leave (s : Draft) : Parse Draft :=
  match s.depth with
  | 0 => .stuck
  | depth + 1 => pure { s with depth }

def close (s : Draft) (is : List Nat) : GroupKind → Piece × Draft
  | .capturing g => (.token (.group (some g) is), s)
  | .plain => (.token (.group none is), s)
  | .look negated =>
    let (sub, s) := s.push (.group none is) 0
    (.assertion (.look negated sub), s)

end Draft

structure Parser where
  dialect : Dialect
  options : Options
  chars : List Char

namespace Parser

def fail {α : Type} (flaw : Flaw) (pos : Nat) : Parse α := throw ⟨flaw, pos⟩

def charAt (p : Parser) (i : Nat) : Parse Char := p.chars[i]?.map .ok

def slice (p : Parser) (start : Nat) : Parse (List Char) :=
  if start ≤ p.chars.length then pure (p.chars.drop start) else .stuck

def operator? (p : Parser) (pos : Nat) : Option (Operator × Nat) := p.dialect.operator? (p.chars.drop pos)

section Bracket

def className (p : Parser) (pos : Nat) : Parse (Option (Member × Nat)) := do
  match splitClassName (← p.slice (pos + 2)) with
  | none => return none
  | some (name, _) =>
    match CharClass.ofName? name with
    | none => fail (.unknownClass (String.ofList name)) pos
    | some k => return some (.named k false, pos + 2 + name.length + 2)

def member (p : Parser) (opened pos : Nat) : Parse (Member × Nat) :=
  match p.chars[pos]? with
  | none => fail .unterminatedList opened
  | some c =>
    if c = '[' ∧ p.chars[pos + 1]? = some ':' ∧ p.dialect.has .charClasses then do
      return (← p.className pos).getD (.char '[', pos + 1)
    else if c = '\\' ∧ (p.dialect.has .escapesInLists || p.dialect.has .classEscapesInLists) then
      match p.chars[pos + 1]? with
      | none => fail .unterminatedList opened
      | some e =>
        let plain : Member × Nat := if p.dialect.has .escapesInLists then (.char e, pos + 2) else (.char '\\', pos + 1)
        if p.dialect.has .classEscapesInLists then
          match CharClass.ofEscape? e, controlEscape? e with
          | some (k, negated), _ => pure (.named k negated, pos + 2)
          | none, some c => pure (.char c, pos + 2)
          | none, none => pure plain
        else pure plain
    else pure (.char c, pos + 1)

def hyphen (p : Parser) (pos : Nat) : Bool :=
  p.chars[pos]? == some '-' && p.chars[pos + 1]? != some ']' && p.chars[pos + 1]? != none

def list (p : Parser) (opened pos : Nat) (first : Bool) (items : List SetItem) : Parse (List SetItem × Nat) :=
  match p.chars[pos]? with
  | none => fail .unterminatedList opened
  | some c =>
    if c = ']' ∧ !first then pure (items, pos + 1)
    else do
      match ← p.member opened pos with
      | (.named k negated, pos) => p |>.list opened pos false (items ++ [.named k negated])
      | (.char lo, after) =>
        if p.hyphen after then
          match ← p.member opened (after + 1) with
          | (.named k negated, pos) => p |>.list opened pos false (items ++ [.char lo, .char '-', .named k negated])
          | (.char hi, after) =>
            if hi < lo && p.dialect.has .noEmptyRanges then fail (.reversedRange lo hi) pos
            else p |>.list opened after false (items ++ [.range lo hi])
        else p |>.list opened after false (items ++ [.char lo])
partial_fixpoint

def bracket (p : Parser) (opened : Nat) : Parse (CharSet × Nat) := do
  let negated := p.chars[opened + 1]? == some '^'
  let (items, pos) ← p.list opened (if negated then opened + 2 else opened + 1) true []
  return (⟨items, negated, p.options.ignoreCase, negated && p.dialect.has .negatedListsNotNewline⟩, pos)

end Bracket

section Interval

def number (p : Parser) (opened pos : Nat) (n : Option Nat) : Parse (Option Nat × Nat) :=
  match p.chars[pos]?.bind Text.digit? with
  | none => pure (n, pos)
  | some k =>
    let m := 10 * n.getD 0 + k
    if greatestBound < m then fail .malformedInterval opened else p |>.number opened (pos + 1) (some m)
partial_fixpoint

def intervalEnd (p : Parser) (opened pos : Nat) : Parse Nat :=
  if p.dialect.has .bareBraces then
    if p.chars[pos]? = some '\x7d' then pure (pos + 1) else fail .malformedInterval opened
  else if p.chars[pos]? = some '\\' ∧ p.chars[pos + 1]? = some '\x7d' then pure (pos + 2)
  else fail .malformedInterval opened

def interval (p : Parser) (opened pos : Nat) : Parse (Bounds × Nat) := do
  let (lo, pos) ← p.number opened pos none
  let (hi, pos) ← if p.chars[pos]? = some ',' then p.number opened (pos + 1) none else pure (some (lo.getD 0), pos)
  let pos ← p.intervalEnd opened pos
  match hi with
  | none => return (⟨lo.getD 0, none⟩, pos)
  | some hi => if hi < lo.getD 0 then fail (.reversedBounds (lo.getD 0) hi) opened else return (⟨lo.getD 0, some hi⟩, pos)

def bounds (p : Parser) (pos : Nat) : Parse (Option (Bounds × Nat)) :=
  match p.operator? pos with
  | some (.star, len) => pure (some (⟨0, none⟩, pos + len))
  | some (.plus, len) => pure (some (⟨1, none⟩, pos + len))
  | some (.question, len) => pure (some (⟨0, some 1⟩, pos + len))
  | some (.intervalOpen, len) => some <$> p.interval pos (pos + len)
  | _ => pure none

end Interval

section Atom

def escape (p : Parser) (s : Draft) : Parse (Piece × Draft) :=
  match p.chars[s.pos]? with
  | none => fail .trailingBackslash (s.pos - 1)
  | some c =>
    let after := { s with pos := s.pos + 1 }
    match (Text.digit? c).filter fun g => !(g = 0 || p.dialect.has .noBackrefs) with
    | some g =>
      if s.groups ≤ g then fail (.undefinedGroup g) (s.pos - 1)
      else pure (.token (.test (.backref g p.options.ignoreCase)), { after with hasBackref := true })
    | none =>
      match p.dialect.escapedAssertion? c with
      | some t => pure (.assertion (.test t), after)
      | none =>
        if p.dialect.has .classEscapes then
          match CharClass.ofEscape? c, controlEscape? c with
          | some (k, negated), _ => pure (.token (.test (.named k negated p.options.ignoreCase)), after)
          | none, some control => pure (.char control, after)
          | none, none => pure (.char c, after)
        else pure (.char c, after)

def endsAlternative (p : Parser) (pos : Nat) : Bool :=
  pos == p.chars.length ||
    match p.operator? pos with
    | some (.groupClose, _) => true
    | some (.bar, _) => true
    | _ => false

def atom (p : Parser) (s : Draft) (first : Bool) : Parse (Piece × Draft) := do
  let c ← p.charAt s.pos
  let after := { s with pos := s.pos + 1 }
  if c = '.' then
    return (.token (.test (.any (p.dialect.has .dotNewline || p.options.dotNewline) (!p.dialect.has .dotNotNull))), after)
  else if c = '^' ∧ (first || p.dialect.has .anchorsAnywhere) then
    return (.assertion (.test (.anchor .start p.options.multiline)), after)
  else if c = '$' ∧ (p.dialect.has .anchorsAnywhere || p.endsAlternative after.pos) then
    return (.assertion (.test (.anchor .stop p.options.multiline)), after)
  else if c = '[' then
    let (set, pos) ← p.bracket s.pos
    return (.token (.test (.set set)), { s with pos })
  else if c = '\\' then p.escape after
  else return (.char c, after)

def nothingToRepeat (p : Parser) (s : Draft) (len : Nat) : Parse (Piece × Draft) := do
  if p.dialect.has .operatorsAnywhere || p.dialect.has .danglingOperatorsInvalid then fail .nothingToRepeat s.pos
  else return (.char (← p.charAt (s.pos + len - 1)), { s with pos := s.pos + len })

def quantifiers (p : Parser) (s : Draft) (x : Piece) : Parse (Piece × Draft) := do
  match ← p.bounds s.pos with
  | none => return (x, s)
  | some (b, pos) =>
    let greedy := !(p.dialect.has .stingyOperators && p.chars[pos]? == some '?')
    let (sub, s) := { s with pos := if greedy then pos else pos + 1 }.chain p.options.ignoreCase [x]
    p |>.quantifiers s (.token (.repeated sub b.min b.max greedy))
partial_fixpoint

end Atom

def opening (p : Parser) (s : Draft) (len : Nat) : Parse (Option GroupKind × Nat) :=
  let pos := s.pos + len
  if p.dialect.hasGroupFlags ∧ p.chars[pos]? = some '?' then
    match p.chars[pos + 1]? with
    | none => fail .unmatchedOpen s.pos
    | some c =>
      if c = ':' ∧ p.dialect.has .pureGrouping then pure (some .plain, pos + 2)
      else if c = '=' ∧ p.dialect.has .lookahead then pure (some (.look false), pos + 2)
      else if c = '!' ∧ p.dialect.has .lookahead then pure (some (.look true), pos + 2)
      else if c = '#' ∧ p.dialect.has .comments then do
        match (← p.slice pos).idxOf? ')' with
        | none => fail .unterminatedComment s.pos
        | some n => return (none, pos + n + 1)
      else fail (.unknownGroupFlag c) (pos + 1)
  else pure (some (.capturing s.groups), pos)

mutual

def alternatives (p : Parser) (s : Draft) (is : List Nat) : Parse (List Nat × Draft) := do
  let (i, s) ← p |>.sequence s []
  match p.operator? s.pos with
  | some (.bar, len) => p |>.alternatives { s with pos := s.pos + len } (is ++ [i])
  | _ => return (is ++ [i], s)
partial_fixpoint

def sequence (p : Parser) (s : Draft) (xs : List Piece) : Parse (Nat × Draft) :=
  if p.chars.length ≤ s.pos then pure (s.chain p.options.ignoreCase xs)
  else
    match p.operator? s.pos with
    | some (.bar, _) => pure (s.chain p.options.ignoreCase xs)
    | some (.groupClose, len) =>
      if 0 < s.depth then pure (s.chain p.options.ignoreCase xs)
      else if p.dialect.has .strayCloseOrdinary then p |>.extend { s with pos := s.pos + len } xs (.char ')')
      else fail .unmatchedClose s.pos
    | some (.groupOpen, len) => do
      match ← p |>.group s len with
      | (none, s) => p |>.sequence s xs
      | (some x, s) => p |>.extend s xs x
    | some (_, len) => do
      let (x, s) ← p.nothingToRepeat s len
      p |>.extend s xs x
    | none => do
      let (x, s) ← p.atom s xs.isEmpty
      p |>.extend s xs x
partial_fixpoint

def extend (p : Parser) (s : Draft) (xs : List Piece) (x : Piece) : Parse (Nat × Draft) :=
  match x with
  | .assertion k => p |>.sequence s (xs ++ [.assertion k])
  | x => do
    let (x, s) ← p.quantifiers s x
    p |>.sequence s (xs ++ [x])
partial_fixpoint

def group (p : Parser) (s : Draft) (len : Nat) : Parse (Option Piece × Draft) := do
  match ← p.opening s len with
  | (none, pos) => return (none, { s with pos })
  | (some kind, pos) => do
    let (is, inner) ← p |>.alternatives (s.enter pos kind) []
    let inner ← inner.leave
    match p.operator? inner.pos with
    | some (.groupClose, len) =>
      let (x, s) := { inner with pos := inner.pos + len }.close is kind
      return (some x, s)
    | _ => fail .unmatchedOpen s.pos
partial_fixpoint

end

def parse (p : Parser) : Parse Program := do
  let (is, s) ← p.alternatives .start []
  if s.pos ≠ p.chars.length then .stuck
  else
    let (root, s) := s.push (.group (some 0) is) 0
    let (stop, s) := s.push (.test (.anchor .stop false)) 0
    let (full, s) := s.push (.group (some 0) is) stop
    return ⟨s.tokens, root, full, s.groups, s.hasBackref⟩

end Parser

end DialectRegex
