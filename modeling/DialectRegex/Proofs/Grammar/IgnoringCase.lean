import DialectRegex.Proofs.Grammar.Counting

namespace DialectRegex

def Options.caseless (o : Options) : Options := { o with ignoreCase := true }

def Test.caseless : Test → Test
  | literal cs _ => literal cs true
  | named k negated _ => named k negated true
  | set s => set { s with fold := true }
  | backref g _ => backref g true
  | t => t

def Pattern.caseless : Pattern → Pattern
  | empty => empty
  | test t => test t.caseless
  | seq p q => seq p.caseless q.caseless
  | alt p q => alt p.caseless q.caseless
  | group g p => group g p.caseless
  | repeated p min max greedy => repeated p.caseless min max greedy
  | look negated p => look negated p.caseless

def Node.caseless : Node → Node
  | char c => char c
  | piece p => piece p.caseless

def Frame.caseless (f : Frame) : Frame :=
  { f with finished := f.finished.map Pattern.caseless, nodes := f.nodes.map Node.caseless }

def Progress.caseless (p : Progress) : Progress :=
  { p with frame := p.frame.caseless, outer := p.outer.map Frame.caseless }

theorem Pattern.caseless_before (p q : Pattern) : (p.before q).caseless = p.caseless.before q.caseless := by
  cases q <;> rfl

theorem Pattern.caseless_foldl (ps : List Pattern) (q : Pattern) :
    (ps.foldl (fun rest p => alt p rest) q).caseless =
      (ps.map caseless).foldl (fun rest p => alt p rest) q.caseless := by
  induction ps generalizing q with
  | nil => rfl
  | cons p ps ih => exact ih (alt p q)

namespace Node

variable (fold : Bool)

theorem caseless_literal (run : List Char) (rest : Pattern) :
    (literal fold run rest).caseless = literal true run rest.caseless := by
  rw [literal, literal]
  split
  · rfl
  · exact Pattern.caseless_before _ rest

theorem caseless_sequence (run : List Char) (rest : Pattern) (ns : List Node) :
    (sequence fold run rest ns).caseless = sequence true run rest.caseless (ns.map caseless) := by
  induction ns generalizing run rest with
  | nil => exact caseless_literal fold run rest
  | cons n ns ih =>
    cases n with
    | char c => exact ih (c :: run) rest
    | piece p =>
      refine (ih [] _).trans ?_
      rw [Pattern.caseless_before, caseless_literal]
      rfl

theorem caseless_toPattern (n : Node) : (n.toPattern fold).caseless = n.caseless.toPattern true := by
  cases n <;> rfl

end Node

namespace Frame

variable (f : Frame) (fold : Bool)

theorem caseless_sequence : (f.sequence fold).caseless = f.caseless.sequence true :=
  Node.caseless_sequence fold [] .empty f.nodes

theorem caseless_body : (f.body fold).caseless = f.caseless.body true := by
  rw [body, body, Pattern.caseless_foldl, caseless_sequence]
  rfl

theorem caseless_nextAlternative : (f.nextAlternative fold).caseless = f.caseless.nextAlternative true := by
  rw [nextAlternative, nextAlternative, ← caseless_sequence f fold]
  rfl

theorem caseless_addGroup (inner : Frame) :
    (f.addGroup inner fold).caseless = f.caseless.addGroup inner.caseless true := by
  have hkind : inner.caseless.kind = inner.kind := rfl
  rw [addGroup, addGroup, hkind, ← caseless_body inner fold]
  cases inner.kind <;> rfl

theorem caseless_repeatLast (lo : Nat) (hi : Option Nat) (greedy : Bool) :
    (f.repeatLast fold lo hi greedy).caseless = f.caseless.repeatLast true lo hi greedy := by
  obtain ⟨kind, opened, finished, nodes, repeatable⟩ := f
  cases nodes with
  | nil => rfl
  | cons n ns =>
    simp only [repeatLast, caseless, List.map_cons, ← Node.caseless_toPattern fold n]
    rfl

end Frame

namespace Dialect

variable (d : Dialect) (o : Options) (p : Progress)

theorem caseless_openGroup (after : List Char) :
    d.openGroup p.caseless after = (d.openGroup p after).map Progress.caseless := by
  rw [openGroup.eq_def, openGroup.eq_def]
  split
  · split
    · split
      · rfl
      split
      · rfl
      split
      · rfl
      split
      · rfl
      split
      · split <;> rfl
      · rfl
    · rfl
  · rfl

theorem caseless_closeGroup (after : List Char) :
    d.closeGroup o.caseless p.caseless after = (d.closeGroup o p after).map Progress.caseless := by
  obtain ⟨rest, groups, frame, outer⟩ := p
  cases outer with
  | nil =>
    simp only [closeGroup, Progress.caseless, List.map_nil]
    split <;> rfl
  | cons f outer =>
    simp only [closeGroup, Progress.caseless, List.map_cons, Except.map, Frame.caseless_addGroup]
    rfl

theorem caseless_repetition (c : Char) (after : List Char) (bounds : Except Flaw (Bounds × List Char)) :
    d.repetition o.caseless p.caseless c after bounds = (d.repetition o p c after bounds).map Progress.caseless := by
  have hrepeatable : p.caseless.frame.repeatable = p.frame.repeatable := rfl
  rw [repetition.eq_def, repetition.eq_def, hrepeatable]
  split
  · cases bounds with
    | error e => rfl
    | ok b => simp only [Except.map, Progress.caseless, Frame.caseless_repeatLast]; rfl
  · split <;> rfl

theorem caseless_backref (c : Char) (rest : List Char) :
    d.backref o.caseless p.caseless c rest = (d.backref o p c rest).map (Except.map Progress.caseless) := by
  have hgroups : p.caseless.groups = p.groups := rfl
  rw [backref.eq_def, backref.eq_def, hgroups]
  split
  · rfl
  split
  · rfl
  split <;> rfl

theorem caseless_escapedAssertion? {c : Char} {t : Test} (h : d.escapedAssertion? c = some t) : t.caseless = t := by
  cases escapedAssertion?_assertion (o := {}) h <;> rfl

theorem caseless_escapedNode (c : Char) : d.escapedNode o.caseless c = (d.escapedNode o c).caseless := by
  rw [escapedNode, escapedNode]
  split
  · split <;> rfl
  · rfl

theorem caseless_escape (cs : List Char) :
    d.escape o.caseless p.caseless cs = (d.escape o p cs).map Progress.caseless := by
  cases cs with
  | nil => rfl
  | cons c rest =>
    rw [escape, escape, caseless_backref]
    cases d.backref o p c rest with
    | some r => rfl
    | none =>
      dsimp only [Option.map_none]
      cases ht : d.escapedAssertion? c with
      | some t =>
        have hsame := caseless_escapedAssertion? d ht
        simp [Except.map, Progress.assert, Progress.caseless, Frame.assert, Frame.caseless, Node.caseless,
          Pattern.caseless, hsame]
      | none =>
        dsimp only
        rw [caseless_escapedNode]
        rfl

theorem caseless_bracket (fold : Bool) (cs : List Char) :
    readBracket d true cs =
      (readBracket d fold cs).map fun (s, rest) => ({ s with fold := true }, rest) := by
  rw [readBracket, readBracket]
  dsimp only
  cases readList d ('[' :: cs) (if (cs.head? == some '^') = true then cs.tail else cs) <;> rfl

theorem caseless_atom (c : Char) (rest : List Char) :
    d.atom o.caseless p.caseless c rest = (d.atom o p c rest).map Progress.caseless := by
  have hempty : p.caseless.frame.nodes.isEmpty = p.frame.nodes.isEmpty := List.isEmpty_map
  rw [atom.eq_def, atom.eq_def, hempty]
  split
  · rfl
  split
  · rfl
  split
  · rfl
  split
  · have hfold : o.caseless.ignoreCase = true := rfl
    rw [hfold, caseless_bracket d o.ignoreCase rest]
    cases readBracket d o.ignoreCase rest <;> rfl
  split
  · exact caseless_escape d o p rest
  · rfl

theorem caseless_applyOperator (after : List Char) (op : Operator) :
    d.applyOperator o.caseless p.caseless after op = (d.applyOperator o p after op).map Progress.caseless := by
  rw [applyOperator.eq_def, applyOperator.eq_def]
  cases op with
  | bar =>
    simp only [Except.map, Progress.caseless, Frame.caseless_nextAlternative]
    rfl
  | groupOpen => exact caseless_openGroup d p after
  | groupClose => exact caseless_closeGroup d o p after
  | star => exact caseless_repetition d o p '*' after _
  | plus => exact caseless_repetition d o p '+' after _
  | question => exact caseless_repetition d o p '?' after _
  | intervalOpen => exact caseless_repetition d o p '\x7b' after _

theorem caseless_step (c : Char) (rest : List Char) :
    d.step o.caseless p.caseless c rest = (d.step o p c rest).map Progress.caseless := by
  rw [step.eq_def, step.eq_def]
  split
  · exact caseless_applyOperator d o p _ _
  · exact caseless_atom d o p c rest

theorem caseless_finish :
    d.finish o.caseless p.caseless = (d.finish o p).map fun (body, groups) => (body.caseless, groups) := by
  fun_induction finish d o p with
  | case1 p hrest houter =>
    have hrest' : p.caseless.rest = [] := hrest
    have houter' : p.caseless.outer.isEmpty = true := List.isEmpty_map.trans houter
    rw [finish_nil hrest', if_pos houter']
    exact congrArg (fun body => Except.ok (body, p.groups)) (Frame.caseless_body p.frame o.ignoreCase).symm
  | case2 p hrest houter =>
    have hrest' : p.caseless.rest = [] := hrest
    have houter' : ¬ p.caseless.outer.isEmpty = true := fun h => houter (List.isEmpty_map.symm.trans h)
    rw [finish_nil hrest', if_neg houter']
    rfl
  | case3 p c rest hrest e hs =>
    have hrest' : p.caseless.rest = c :: rest := hrest
    rw [finish_step hrest', caseless_step, hs]
    rfl
  | case4 p c rest hrest p' hs ih =>
    have hrest' : p.caseless.rest = c :: rest := hrest
    rw [finish_step hrest', caseless_step, hs]
    exact ih

end Dialect

theorem compile_caseless {d : Dialect} {o : Options} {pattern : List Char} {body : Pattern} {groups : Nat}
    (h : compile d o pattern = .ok (body, groups)) : compile d o.caseless pattern = .ok (body.caseless, groups) := by
  rw [compile] at h
  split at h
  · cases h
  · next hf =>
    cases h
    have hfinish := Dialect.caseless_finish d o (.start pattern)
    rw [hf] at hfinish
    exact compile_of_finish hfinish

end DialectRegex
