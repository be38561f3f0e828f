import DialectRegex.Grammar.Bracket
import DialectRegex.Grammar.Frame
import DialectRegex.Grammar.Interval
import DialectRegex.Grammar.Operator

namespace DialectRegex

structure Progress where
  rest : List Char
  groups : Nat
  frame : Frame
  outer : List Frame

namespace Progress

def start (pattern : List Char) : Progress := ⟨pattern, 1, .begin (.capturing 0) pattern, []⟩

def push (p : Progress) (rest : List Char) (n : Node) : Progress :=
  { p with rest, frame := p.frame.push n }

def assert (p : Progress) (rest : List Char) (t : Test) : Progress :=
  { p with rest, frame := p.frame.assert (.test t) }

def beginGroup (p : Progress) (rest : List Char) (kind : GroupKind) : Progress :=
  { p with rest, frame := .begin kind p.rest, outer := p.frame :: p.outer }

def beginCapture (p : Progress) (rest : List Char) : Progress :=
  { p.beginGroup rest (.capturing p.groups) with groups := p.groups + 1 }

end Progress

namespace Dialect

def hasGroupFlags (d : Dialect) : Bool := d.has .pureGrouping || d.has .lookahead || d.has .comments

def openGroup (d : Dialect) (p : Progress) (after : List Char) : Except Fault Progress :=
  match after with
  | '?' :: flagged =>
    if d.hasGroupFlags then
      match flagged with
      | [] => .error ⟨.unmatchedOpen, p.rest⟩
      | c :: rest =>
        if c = ':' ∧ d.has .pureGrouping then .ok (p.beginGroup rest .plain)
        else if c = '=' ∧ d.has .lookahead then .ok (p.beginGroup rest (.look false))
        else if c = '!' ∧ d.has .lookahead then .ok (p.beginGroup rest (.look true))
        else if c = '#' ∧ d.has .comments then
          match rest.dropWhile (· != ')') with
          | [] => .error ⟨.unterminatedComment, p.rest⟩
          | _ :: rest => .ok { p with rest, frame := { p.frame with repeatable := false } }
        else .error ⟨.unknownGroupFlag c, c :: rest⟩
    else .ok (p.beginCapture after)
  | _ => .ok (p.beginCapture after)

def closeGroup (d : Dialect) (o : Options) (p : Progress) (after : List Char) : Except Fault Progress :=
  match p.outer with
  | f :: outer => .ok { p with rest := after, frame := f.addGroup p.frame o.ignoreCase, outer }
  | [] =>
    if d.has .strayCloseOrdinary then .ok (p.push after (.char ')'))
    else .error ⟨.unmatchedClose, p.rest⟩

def readGreed (d : Dialect) : List Char → Bool × List Char
  | '?' :: rest => if d.has .stingyOperators then (false, rest) else (true, '?' :: rest)
  | rest => (true, rest)

def repetition (d : Dialect) (o : Options) (p : Progress) (c : Char) (after : List Char)
    (bounds : Except Flaw (Bounds × List Char)) : Except Fault Progress :=
  if p.frame.repeatable then
    match bounds with
    | .error e => .error ⟨e, p.rest⟩
    | .ok (b, rest) =>
      let (greedy, rest) := d.readGreed rest
      .ok { p with rest, frame := p.frame.repeatLast o.ignoreCase b.min b.max greedy }
  else if d.has .operatorsAnywhere || d.has .danglingOperatorsInvalid then
    .error ⟨.nothingToRepeat, p.rest⟩
  else .ok (p.push after (.char c))

def endsAlternative (d : Dialect) (cs : List Char) : Bool :=
  cs.isEmpty ||
    match d.operator? cs with
    | some (.groupClose, _) => true
    | some (.bar, _) => true
    | _ => false

def backref (d : Dialect) (o : Options) (p : Progress) (c : Char) (rest : List Char) :
    Option (Except Fault Progress) :=
  match Text.digit? c with
  | none => none
  | some g =>
    if g = 0 || d.has .noBackrefs then none
    else if p.groups ≤ g then some (.error ⟨.undefinedGroup g, p.rest⟩)
    else some (.ok (p.push rest (.piece (.test (.backref g o.ignoreCase)))))

def escapedAssertion? (d : Dialect) (c : Char) : Option Test :=
  if d.has .stringAnchors && c == 'A' then some (.anchor .start false)
  else if d.has .stringAnchors && c == 'Z' then some (.anchor .stop false)
  else if d.has .classEscapes then
    match c with
    | 'b' => some (.boundary .either)
    | 'B' => some (.boundary .neither)
    | _ => none
  else
    match c with
    | '<' => some (.boundary .wordStart)
    | '>' => some (.boundary .wordEnd)
    | _ => none

def escapedNode (d : Dialect) (o : Options) (c : Char) : Node :=
  if d.has .classEscapes then
    match CharClass.ofEscape? c, controlEscape? c with
    | some (k, negated), _ => .piece (.test (.named k negated o.ignoreCase))
    | none, some control => .char control
    | none, none => .char c
  else .char c

def escape (d : Dialect) (o : Options) (p : Progress) : List Char → Except Fault Progress
  | [] => .error ⟨.trailingBackslash, p.rest⟩
  | c :: rest =>
    match d.backref o p c rest with
    | some r => r
    | none =>
      match d.escapedAssertion? c with
      | some t => .ok (p.assert rest t)
      | none => .ok (p.push rest (d.escapedNode o c))

def atom (d : Dialect) (o : Options) (p : Progress) (c : Char) (rest : List Char) : Except Fault Progress :=
  if c = '.' then
    .ok (p.push rest (.piece (.test (.any (d.has .dotNewline || o.dotNewline) (!d.has .dotNotNull)))))
  else if c = '^' ∧ (p.frame.nodes.isEmpty || d.has .anchorsAnywhere) then
    .ok (p.assert rest (.anchor .start o.multiline))
  else if c = '$' ∧ (d.has .anchorsAnywhere || d.endsAlternative rest) then
    .ok (p.assert rest (.anchor .stop o.multiline))
  else if c = '[' then
    match readBracket d o.ignoreCase rest with
    | .error e => .error e
    | .ok (s, rest) => .ok (p.push rest (.piece (.test (.set s))))
  else if c = '\\' then d.escape o p rest
  else .ok (p.push rest (.char c))

def applyOperator (d : Dialect) (o : Options) (p : Progress) (after : List Char) :
    Operator → Except Fault Progress
  | .bar => .ok { p with rest := after, frame := p.frame.nextAlternative o.ignoreCase }
  | .groupOpen => d.openGroup p after
  | .groupClose => d.closeGroup o p after
  | .star => d.repetition o p '*' after (.ok (⟨0, none⟩, after))
  | .plus => d.repetition o p '+' after (.ok (⟨1, none⟩, after))
  | .question => d.repetition o p '?' after (.ok (⟨0, some 1⟩, after))
  | .intervalOpen => d.repetition o p '\x7b' after (readInterval d after)

def step (d : Dialect) (o : Options) (p : Progress) (c : Char) (rest : List Char) : Except Fault Progress :=
  match d.operator? (c :: rest) with
  | some (op, n) => d.applyOperator o p ((c :: rest).drop n) op
  | none => d.atom o p c rest

theorem openGroup_length {d : Dialect} {p p' : Progress} {after : List Char}
    (h : d.openGroup p after = .ok p') : p'.rest.length ≤ after.length := by
  simp only [openGroup] at h
  split at h
  · split at h
    · split at h
      · cases h
      · next c rest =>
        split at h
        · cases h; simp [Progress.beginGroup]; omega
        · split at h
          · cases h; simp [Progress.beginGroup]; omega
          · split at h
            · cases h; simp [Progress.beginGroup]; omega
            · split at h
              · split at h
                · cases h
                · next hd =>
                  have hl := (List.dropWhile_sublist (p := (· != ')')) (l := rest)).length_le
                  rw [hd] at hl
                  cases h
                  simp only [List.length_cons] at *
                  omega
              · cases h
    · cases h; simp [Progress.beginCapture, Progress.beginGroup]
  · cases h; simp [Progress.beginCapture, Progress.beginGroup]

theorem closeGroup_length {d : Dialect} {o : Options} {p p' : Progress} {after : List Char}
    (h : d.closeGroup o p after = .ok p') : p'.rest.length ≤ after.length := by
  simp only [closeGroup] at h
  split at h
  · cases h; exact Nat.le_refl _
  · split at h
    · cases h; exact Nat.le_refl _
    · cases h

theorem readGreed_length (d : Dialect) (cs : List Char) : (d.readGreed cs).2.length ≤ cs.length := by
  fun_cases readGreed d cs <;> simp [*]

theorem repetition_length {d : Dialect} {o : Options} {p p' : Progress} {c : Char} {after : List Char}
    {bounds : Except Flaw (Bounds × List Char)}
    (hb : ∀ b rest, bounds = .ok (b, rest) → rest.length ≤ after.length)
    (h : d.repetition o p c after bounds = .ok p') : p'.rest.length ≤ after.length := by
  simp only [repetition] at h
  split at h
  · split at h
    · cases h
    · next b rest =>
      cases h
      exact Nat.le_trans (readGreed_length d rest) (hb b rest rfl)
  · split at h
    · cases h
    · cases h; exact Nat.le_refl _

theorem escape_length {d : Dialect} {o : Options} {p p' : Progress} {cs : List Char}
    (h : d.escape o p cs = .ok p') : p'.rest.length ≤ cs.length := by
  cases cs with
  | nil => cases h
  | cons c rest =>
    simp only [escape, backref] at h
    split at h
    · next hr =>
      split at hr
      · cases hr
      · split at hr
        · cases hr
        · split at hr
          · cases hr; cases h
          · cases hr; cases h; simp [Progress.push]
    · split at h
      · cases h; simp [Progress.assert]
      · cases h; simp [Progress.push]

theorem atom_length {d : Dialect} {o : Options} {p p' : Progress} {c : Char} {rest : List Char}
    (h : d.atom o p c rest = .ok p') : p'.rest.length ≤ rest.length := by
  simp only [atom] at h
  split at h
  · cases h; exact Nat.le_refl _
  · split at h
    · cases h; exact Nat.le_refl _
    · split at h
      · cases h; exact Nat.le_refl _
      · split at h
        · split at h
          · cases h
          · next hs =>
            have := readBracket_shorter hs
            cases h
            simp only [Progress.push]
            omega
        · split at h
          · exact escape_length h
          · cases h; exact Nat.le_refl _

theorem applyOperator_length {d : Dialect} {o : Options} {p p' : Progress} {after : List Char}
    {op : Operator} (h : d.applyOperator o p after op = .ok p') : p'.rest.length ≤ after.length := by
  have exact_bounds (m : Bounds) (b : Bounds) (rest : List Char)
      (he : (.ok (m, after) : Except Flaw (Bounds × List Char)) = .ok (b, rest)) :
      rest.length ≤ after.length := by
    cases he; exact Nat.le_refl _
  cases op with
  | bar => cases h; exact Nat.le_refl _
  | groupOpen => exact openGroup_length h
  | groupClose => exact closeGroup_length h
  | star => exact repetition_length (exact_bounds _) h
  | plus => exact repetition_length (exact_bounds _) h
  | question => exact repetition_length (exact_bounds _) h
  | intervalOpen => exact repetition_length (fun _ _ => readInterval_length) h

theorem step_shorter {d : Dialect} {o : Options} {p p' : Progress} {c : Char} {rest : List Char}
    (h : d.step o p c rest = .ok p') : p'.rest.length < (c :: rest).length := by
  simp only [step] at h
  split at h
  · next hop => exact Nat.lt_of_le_of_lt (applyOperator_length h) (operator?_shorter hop)
  · exact Nat.lt_succ_of_le (atom_length h)

def finish (d : Dialect) (o : Options) (p : Progress) : Except Fault (Pattern × Nat) :=
  match _h : p.rest with
  | [] =>
    if p.outer.isEmpty then .ok (p.frame.body o.ignoreCase, p.groups)
    else .error ⟨.unmatchedOpen, p.frame.opened⟩
  | c :: rest =>
    match _hs : d.step o p c rest with
    | .error e => .error e
    | .ok p => d.finish o p
termination_by p.rest.length
decreasing_by exact _h ▸ step_shorter _hs

end Dialect

def compile (d : Dialect) (o : Options) (pattern : List Char) : Except PatternError (Pattern × Nat) :=
  match d.finish o (.start pattern) with
  | .error e => .error (e.locate pattern)
  | .ok r => .ok r

end DialectRegex
