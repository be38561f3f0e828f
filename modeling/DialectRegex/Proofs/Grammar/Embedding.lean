import DialectRegex.Dialect.Named
import DialectRegex.Proofs.Grammar.Forms
import DialectRegex.Proofs.Grammar.Suffix

namespace DialectRegex

structure Frame.Same (f f' : Frame) : Prop where
  finished : f'.finished = f.finished
  nodes : f'.nodes = f.nodes
  repeatable : f'.repeatable = f.repeatable

inductive Stacked (around : List Frame) : List Frame → List Frame → Prop
  | last {f f' : Frame} (h : f.Same f') (hk : f'.kind = .plain) : Stacked around [f] (f' :: around)
  | cons {f f' : Frame} {l l' : List Frame} (h : f.Same f') (hk : f'.kind = f.kind) (hl : Stacked around l l') :
      Stacked around (f :: l) (f' :: l')

namespace Progress

structure Inside (q : List Char) (around : List Frame) (p p' : Progress) : Prop where
  rest : p'.rest = p.rest ++ ')' :: q
  groups : p'.groups = p.groups
  frames : Stacked around (p.frame :: p.outer) (p'.frame :: p'.outer)

end Progress

namespace Frame

variable {f f' : Frame}

theorem Same.push (h : f.Same f') (n : Node) : (f.push n).Same (f'.push n) :=
  ⟨h.finished, congrArg (n :: ·) h.nodes, rfl⟩

theorem Same.assert (h : f.Same f') (p : Pattern) : (f.assert p).Same (f'.assert p) :=
  ⟨h.finished, congrArg (Node.piece p :: ·) h.nodes, rfl⟩

theorem Same.sequence (h : f.Same f') (fold : Bool) : f'.sequence fold = f.sequence fold := by
  rw [Frame.sequence, Frame.sequence, h.nodes]

theorem Same.body (h : f.Same f') (fold : Bool) : f'.body fold = f.body fold := by
  rw [Frame.body, Frame.body, h.finished, h.sequence]

theorem Same.nextAlternative (h : f.Same f') (fold : Bool) :
    (f.nextAlternative fold).Same (f'.nextAlternative fold) := by
  refine ⟨?_, rfl, rfl⟩
  rw [Frame.nextAlternative, Frame.nextAlternative, h.finished, h.sequence]

theorem Same.addGroup (h : f.Same f') {g g' : Frame} (hg : g.Same g') (hk : g'.kind = g.kind) (fold : Bool) :
    (f.addGroup g fold).Same (f'.addGroup g' fold) := by
  rw [Frame.addGroup, Frame.addGroup, hk, hg.body]
  cases g.kind with
  | capturing n => exact h.push _
  | plain => exact h.push _
  | look negated => exact h.assert _

theorem Same.repeatLast (h : f.Same f') (fold : Bool) (lo : Nat) (hi : Option Nat) (greedy : Bool) :
    (f.repeatLast fold lo hi greedy).Same (f'.repeatLast fold lo hi greedy) := by
  rw [Frame.repeatLast, Frame.repeatLast, h.nodes]
  cases f.nodes with
  | nil => exact h
  | cons n ns => exact ⟨h.finished, rfl, h.repeatable⟩

end Frame

namespace Progress.Inside

variable {q : List Char} {around : List Frame} {p p' : Progress}

theorem same (h : Inside q around p p') : p.frame.Same p'.frame := by
  obtain ⟨rest, groups, frame, outer⟩ := p
  obtain ⟨rest', groups', frame', outer'⟩ := p'
  cases h.frames with
  | last hs _ => exact hs
  | cons hs _ _ => exact hs

theorem update (h : Inside q around p p') {f f' : Frame} (hf : f.Same f') (hk : f.kind = p.frame.kind)
    (hk' : f'.kind = p'.frame.kind) (rest : List Char) :
    Inside q around { p with rest, frame := f } { p' with rest := rest ++ ')' :: q, frame := f' } := by
  obtain ⟨r, groups, frame, outer⟩ := p
  obtain ⟨r', groups', frame', outer'⟩ := p'
  refine ⟨rfl, h.groups, ?_⟩
  cases h.frames with
  | last _ hplain => exact .last hf (hk'.trans hplain)
  | cons _ hkind hl => exact .cons hf (hk'.trans (hkind.trans hk.symm)) hl

theorem push (h : Inside q around p p') (rest : List Char) (n : Node) :
    Inside q around (p.push rest n) (p'.push (rest ++ ')' :: q) n) :=
  h.update (h.same.push n) rfl rfl rest

theorem assert (h : Inside q around p p') (rest : List Char) (t : Test) :
    Inside q around (p.assert rest t) (p'.assert (rest ++ ')' :: q) t) :=
  h.update (h.same.assert _) rfl rfl rest

theorem begin (h : Inside q around p p') (rest : List Char) (kind : GroupKind) :
    Inside q around (p.beginGroup rest kind) (p'.beginGroup (rest ++ ')' :: q) kind) where
  rest := rfl
  groups := h.groups
  frames := .cons ⟨rfl, rfl, rfl⟩ rfl h.frames

theorem capture (h : Inside q around p p') (rest : List Char) :
    Inside q around (p.beginCapture rest) (p'.beginCapture (rest ++ ')' :: q)) where
  rest := rfl
  groups := congrArg (· + 1) h.groups
  frames := by
    rw [beginCapture, beginCapture, h.groups]
    exact .cons ⟨rfl, rfl, rfl⟩ rfl h.frames

theorem close (h : Inside q around p p') {f : Frame} {outer : List Frame} (hout : p.outer = f :: outer)
    (rest : List Char) (fold : Bool) :
    ∃ f' outer', p'.outer = f' :: outer' ∧
      Inside q around { p with rest, frame := f.addGroup p.frame fold, outer }
        { p' with rest := rest ++ ')' :: q, frame := f'.addGroup p'.frame fold, outer := outer' } := by
  obtain ⟨r, groups, frame, outer₀⟩ := p
  obtain ⟨r', groups', frame', outer'⟩ := p'
  cases hout
  cases h.frames with
  | cons hs hk hl =>
    cases hl with
    | last hf hplain =>
      exact ⟨_, _, rfl, rfl, h.groups, .last (hf.addGroup hs hk fold) ((Frame.kind_addGroup _ _ _).trans hplain)⟩
    | cons hf hkf hl =>
      refine ⟨_, _, rfl, rfl, h.groups, .cons (hf.addGroup hs hk fold) ?_ hl⟩
      rw [Frame.kind_addGroup, Frame.kind_addGroup, hkf]

end Progress.Inside

namespace Dialect

open Progress

variable {o : Options} {q : List Char} {around : List Frame} {p p' r : Progress}

theorem openGroup_capture {d : Dialect} {after : List Char} (h : ∀ l, after ≠ '?' :: l) :
    d.openGroup p after = .ok (p.beginCapture after) := by
  rw [openGroup.eq_def]
  split
  · exact absurd rfl (h _)
  · rfl

theorem openGroup_flag {d : Dialect} (hd : d.hasGroupFlags = true) (c : Char) (rest : List Char) :
    d.openGroup p ('?' :: c :: rest) =
      if c = ':' ∧ d.has .pureGrouping then .ok (p.beginGroup rest .plain)
      else if c = '=' ∧ d.has .lookahead then .ok (p.beginGroup rest (.look false))
      else if c = '!' ∧ d.has .lookahead then .ok (p.beginGroup rest (.look true))
      else if c = '#' ∧ d.has .comments then
        match rest.dropWhile (· != ')') with
        | [] => .error ⟨.unterminatedComment, p.rest⟩
        | _ :: rest => .ok { p with rest, frame := { p.frame with repeatable := false } }
      else .error ⟨.unknownGroupFlag c, c :: rest⟩ := by
  rw [openGroup]
  exact if_pos hd

theorem openGroup_inside {after : List Char} (h : perl5.openGroup p after = .ok r) (hi : Inside q around p p') :
    ∃ r', perl5.openGroup p' (after ++ ')' :: q) = .ok r' ∧ Inside q around r r' := by
  have hflags : perl5.hasGroupFlags = true := by decide
  by_cases hmark : ∃ l, after = '?' :: l
  · obtain ⟨flagged, rfl⟩ := hmark
    cases flagged with
    | nil =>
      rw [openGroup, if_pos hflags] at h
      cases h
    | cons c rest =>
      rw [openGroup_flag hflags] at h
      rw [List.cons_append, List.cons_append, openGroup_flag hflags]
      split at h
      · next hc =>
        cases h
        exact ⟨_, if_pos hc, hi.begin rest .plain⟩
      next hplain =>
      rw [if_neg hplain]
      split at h
      · next hc =>
        cases h
        exact ⟨_, if_pos hc, hi.begin rest (.look false)⟩
      next hlook =>
      rw [if_neg hlook]
      split at h
      · next hc =>
        cases h
        exact ⟨_, if_pos hc, hi.begin rest (.look true)⟩
      next hnot =>
      rw [if_neg hnot]
      split at h
      · next hc =>
        rw [if_pos hc]
        split at h
        · cases h
        · next a last hd =>
          cases h
          have hdrop : (rest ++ ')' :: q).dropWhile (· != ')') = a :: (last ++ ')' :: q) := by
            rw [List.dropWhile_append, hd]
            rfl
          rw [hdrop]
          have hs : ({ p.frame with repeatable := false } : Frame).Same { p'.frame with repeatable := false } :=
            ⟨hi.same.finished, hi.same.nodes, rfl⟩
          exact ⟨_, rfl, hi.update hs rfl rfl last⟩
      · cases h
  · have hne : ∀ l, after ≠ '?' :: l := fun l he => hmark ⟨l, he⟩
    have hne' : ∀ l, after ++ ')' :: q ≠ '?' :: l := by
      intro l he
      cases after with
      | nil => cases he
      | cons c after => exact hne after (congrArg (· :: after) (List.cons.inj he).1)
    rw [openGroup_capture hne] at h
    cases h
    exact ⟨_, openGroup_capture hne', hi.capture after⟩

theorem closeGroup_inside {after : List Char} (h : perl5.closeGroup o p after = .ok r) (hi : Inside q around p p') :
    ∃ r', perl5.closeGroup o p' (after ++ ')' :: q) = .ok r' ∧ Inside q around r r' := by
  rw [closeGroup.eq_def] at h
  split at h
  · next f outer hout =>
    cases h
    obtain ⟨f', outer', hout', hin⟩ := hi.close hout after o.ignoreCase
    refine ⟨_, ?_, hin⟩
    rw [closeGroup, hout']
  · have hstray : ¬ perl5.has .strayCloseOrdinary = true := by decide
    rw [if_neg hstray] at h
    cases h

theorem repetition_ok {d : Dialect} (hr : p.frame.repeatable = true) (c : Char) (after rest : List Char) (b : Bounds) :
    d.repetition o p c after (.ok (b, rest)) =
      .ok { p with
        rest := (d.readGreed rest).2
        frame := p.frame.repeatLast o.ignoreCase b.min b.max (d.readGreed rest).1 } := by
  rw [repetition, if_pos hr]

theorem repetition_inside {c : Char} {after : List Char} {bounds bounds' : Except Flaw (Bounds × List Char)}
    (hb : ∀ b rest, bounds = .ok (b, rest) → bounds' = .ok (b, rest ++ ')' :: q))
    (h : perl5.repetition o p c after bounds = .ok r) (hi : Inside q around p p') :
    ∃ r', perl5.repetition o p' c (after ++ ')' :: q) bounds' = .ok r' ∧ Inside q around r r' := by
  by_cases hr : p.frame.repeatable = true
  · cases bounds with
    | error e =>
      rw [repetition, if_pos hr] at h
      cases h
    | ok read =>
      obtain ⟨b, rest⟩ := read
      rw [repetition_ok hr] at h
      cases h
      rw [hb b rest rfl, repetition_ok (hi.same.repeatable.trans hr), readGreed_append]
      exact ⟨_, rfl, hi.update (hi.same.repeatLast _ _ _ _) (Frame.kind_repeatLast _ _ _ _ _)
        (Frame.kind_repeatLast _ _ _ _ _) _⟩
  · have hops : (perl5.has .operatorsAnywhere || perl5.has .danglingOperatorsInvalid) = true := by decide
    rw [repetition.eq_def, if_neg hr, if_pos hops] at h
    cases h

theorem applyOperator_inside {after : List Char} {op : Operator} (h : perl5.applyOperator o p after op = .ok r)
    (hi : Inside q around p p') :
    ∃ r', perl5.applyOperator o p' (after ++ ')' :: q) op = .ok r' ∧ Inside q around r r' := by
  have exact_bounds (m : Bounds) (b : Bounds) (rest : List Char)
      (he : (.ok (m, after) : Except Flaw (Bounds × List Char)) = .ok (b, rest)) :
      (.ok (m, after ++ ')' :: q) : Except Flaw (Bounds × List Char)) = .ok (b, rest ++ ')' :: q) := by
    cases he
    rfl
  cases op with
  | bar =>
    cases h
    exact ⟨_, rfl, hi.update (hi.same.nextAlternative _) rfl rfl after⟩
  | groupOpen => exact openGroup_inside h hi
  | groupClose => exact closeGroup_inside h hi
  | star => exact repetition_inside (exact_bounds _) h hi
  | plus => exact repetition_inside (exact_bounds _) h hi
  | question => exact repetition_inside (exact_bounds _) h hi
  | intervalOpen => exact repetition_inside (fun _ _ hb => readInterval_append hb q) h hi

theorem backref_none_inside {c : Char} {rest : List Char} (h : perl5.backref o p c rest = none)
    (hi : Inside q around p p') : perl5.backref o p' c (rest ++ ')' :: q) = none := by
  rw [backref] at h ⊢
  rw [hi.groups]
  cases hg : Text.digit? c with
  | none => rfl
  | some g =>
    rw [hg] at h
    dsimp only at h ⊢
    split at h
    · next hz => exact if_pos hz
    · split at h <;> cases h

theorem backref_ok_inside {c : Char} {rest : List Char} (h : perl5.backref o p c rest = some (.ok r))
    (hi : Inside q around p p') :
    ∃ r', perl5.backref o p' c (rest ++ ')' :: q) = some (.ok r') ∧ Inside q around r r' := by
  rw [backref] at h ⊢
  rw [hi.groups]
  cases hg : Text.digit? c with
  | none =>
    rw [hg] at h
    cases h
  | some g =>
    rw [hg] at h
    dsimp only at h ⊢
    split at h
    · cases h
    · next hz =>
      rw [if_neg hz]
      split at h
      · cases h
      · next hle =>
        rw [if_neg hle]
        cases h
        exact ⟨_, rfl, hi.push rest _⟩

theorem escape_inside {cs : List Char} (h : perl5.escape o p cs = .ok r) (hi : Inside q around p p') :
    ∃ r', perl5.escape o p' (cs ++ ')' :: q) = .ok r' ∧ Inside q around r r' := by
  cases cs with
  | nil => cases h
  | cons c rest =>
    rw [escape] at h
    rw [List.cons_append, escape]
    cases hb : perl5.backref o p c rest with
    | some b =>
      rw [hb] at h
      cases h
      obtain ⟨r', hb', hin⟩ := backref_ok_inside hb hi
      rw [hb']
      exact ⟨r', rfl, hin⟩
    | none =>
      rw [hb] at h
      rw [backref_none_inside hb hi]
      cases ha : perl5.escapedAssertion? c with
      | some t =>
        rw [ha] at h
        cases h
        exact ⟨_, rfl, hi.assert rest t⟩
      | none =>
        rw [ha] at h
        cases h
        exact ⟨_, rfl, hi.push rest _⟩

theorem atom_inside {c : Char} {rest : List Char} (h : perl5.atom o p c rest = .ok r) (hi : Inside q around p p') :
    ∃ r', perl5.atom o p' c (rest ++ ')' :: q) = .ok r' ∧ Inside q around r r' := by
  have hanchors : perl5.has .anchorsAnywhere = true := by decide
  have hclasses : perl5.has .charClasses = false := by decide
  rw [atom.eq_def] at h ⊢
  simp only [hanchors, Bool.or_true, Bool.true_or, and_true] at h ⊢
  split at h
  · next hc =>
    cases h
    exact ⟨_, if_pos hc, hi.push rest _⟩
  next hdot =>
  rw [if_neg hdot]
  split at h
  · next hc =>
    cases h
    exact ⟨_, if_pos hc, hi.assert rest _⟩
  next hstart =>
  rw [if_neg hstart]
  split at h
  · next hc =>
    cases h
    exact ⟨_, if_pos hc, hi.assert rest _⟩
  next hstop =>
  rw [if_neg hstop]
  split at h
  · next hc =>
    rw [if_pos hc]
    split at h
    · cases h
    · next hs =>
      cases h
      rw [readBracket_append hclasses hs]
      exact ⟨_, rfl, hi.push _ _⟩
  next hbracket =>
  rw [if_neg hbracket]
  split at h
  · next hc =>
    rw [if_pos hc]
    exact escape_inside h hi
  · next hc =>
    cases h
    exact ⟨_, if_neg hc, hi.push rest _⟩

theorem startsInterval_append (cs q : List Char) :
    perl5.startsInterval (cs ++ ')' :: q) = perl5.startsInterval cs := by
  cases cs <;> rfl

theorem operator?_append {c : Char} {cs : List Char} (hne : c ≠ '\\' ∨ cs ≠ []) (q : List Char) :
    perl5.operator? (c :: (cs ++ ')' :: q)) = perl5.operator? (c :: cs) := by
  have hbare (c : Char) : perl5.bareOperator? c (cs ++ ')' :: q) = perl5.bareOperator? c cs := by
    rw [bareOperator?.eq_def, bareOperator?.eq_def, startsInterval_append]
  have hescaped (c : Char) (cs : List Char) :
      perl5.escapedOperator? c (cs ++ ')' :: q) = perl5.escapedOperator? c cs := by
    rw [escapedOperator?.eq_def, escapedOperator?.eq_def, startsInterval_append]
  by_cases hc : c = '\\'
  · subst hc
    cases cs with
    | nil => exact absurd rfl (hne.resolve_left fun h => h rfl)
    | cons c' cs =>
      change (perl5.escapedOperator? c' (cs ++ ')' :: q)).map _ = (perl5.escapedOperator? c' cs).map _
      rw [hescaped]
  · rw [operator?_bare hc, operator?_bare hc, hbare]

theorem operator?_le {d : Dialect} {cs : List Char} {op : Operator} {n : Nat} (h : d.operator? cs = some (op, n)) :
    n ≤ cs.length := by
  have := operator?_shorter h
  rw [operator?.eq_def] at h
  split at h
  · obtain ⟨_, _, he⟩ := Option.map_eq_some_iff.mp h
    cases he
    simp
  · obtain ⟨_, _, he⟩ := Option.map_eq_some_iff.mp h
    cases he
    simp
  · cases h

theorem step_inside {c : Char} {rest : List Char} (h : perl5.step o p c rest = .ok r) (hi : Inside q around p p') :
    ∃ r', perl5.step o p' c (rest ++ ')' :: q) = .ok r' ∧ Inside q around r r' := by
  have hne : c ≠ '\\' ∨ rest ≠ [] := by
    by_contra hn
    obtain ⟨rfl, rfl⟩ : c = '\\' ∧ rest = [] := by simpa using hn
    cases h
  rw [step] at h ⊢
  rw [operator?_append hne]
  cases hop : perl5.operator? (c :: rest) with
  | none =>
    rw [hop] at h
    exact atom_inside h hi
  | some first =>
    obtain ⟨op, n⟩ := first
    rw [hop] at h
    dsimp only at h ⊢
    rw [← List.cons_append, List.drop_append_of_le_length (operator?_le hop)]
    exact applyOperator_inside h hi

theorem finish_nil {d : Dialect} (h : p.rest = []) :
    d.finish o p =
      if p.outer.isEmpty then .ok (p.frame.body o.ignoreCase, p.groups)
      else .error ⟨.unmatchedOpen, p.frame.opened⟩ := by
  rw [finish]
  split
  · rfl
  · next hr =>
    rw [h] at hr
    cases hr

theorem finish_step {d : Dialect} {c : Char} {rest : List Char} (h : p.rest = c :: rest) :
    d.finish o p =
      match d.step o p c rest with
      | .error e => .error e
      | .ok r => d.finish o r := by
  rw [finish]
  split
  · next hr =>
    rw [h] at hr
    cases hr
  · next hr =>
    rw [h] at hr
    cases hr
    split
    · next he => rw [he]
    · next he => rw [he]

theorem finish_cons {d : Dialect} {c : Char} {rest : List Char} (h : p.rest = c :: rest)
    (hs : d.step o p c rest = .ok r) : d.finish o p = d.finish o r := by
  rw [finish_step h, hs]

theorem finish_close (q : List Char) (groups : Nat) (inner f : Frame) (outer : List Frame) :
    perl5.finish o ⟨')' :: q, groups, inner, f :: outer⟩ =
      perl5.finish o ⟨q, groups, f.addGroup inner o.ignoreCase, outer⟩ :=
  finish_cons rfl rfl

theorem finish_inside {f : Frame} {outer : List Frame} {body : Pattern} {groups : Nat}
    (h : perl5.finish o p = .ok (body, groups)) (hi : Inside q (f :: outer) p p') :
    perl5.finish o p' = perl5.finish o ⟨q, groups, f.push (.piece (.group none body)), outer⟩ := by
  fun_induction finish perl5 o p generalizing p' with
  | case1 p hrest houter =>
    cases h
    obtain ⟨r, g, frame, outer₀⟩ := p
    obtain ⟨r', g', frame', outer'⟩ := p'
    cases hrest
    cases List.isEmpty_iff.mp houter
    have hframes := hi.frames
    obtain rfl : r' = ')' :: q := hi.rest
    obtain rfl : g' = g := hi.groups
    cases hframes with
    | last hs hk =>
      refine (finish_close q g' frame' f outer).trans ?_
      rw [Frame.addGroup, hk, hs.body]
    | cons _ _ hl => cases hl
  | case2 => cases h
  | case3 => cases h
  | case4 p c rest hrest r hs ih =>
    obtain ⟨r', hs', hi'⟩ := step_inside hs hi
    have hr : p'.rest = c :: (rest ++ ')' :: q) := by rw [hi.rest, hrest, List.cons_append]
    rw [finish_cons hr hs']
    exact ih h hi'

theorem finish_group {text : List Char} {body : Pattern} {groups : Nat}
    (h : DialectRegex.compile perl5 o text = .ok (body, groups)) (q : List Char) (f : Frame) (outer : List Frame) :
    perl5.finish o ⟨'(' :: '?' :: ':' :: (text ++ ')' :: q), 1, f, outer⟩ =
      perl5.finish o ⟨q, groups, f.push (.piece (.group none body)), outer⟩ := by
  have hopen : perl5.step o ⟨'(' :: '?' :: ':' :: (text ++ ')' :: q), 1, f, outer⟩ '('
      ('?' :: ':' :: (text ++ ')' :: q)) =
      .ok (Progress.beginGroup ⟨'(' :: '?' :: ':' :: (text ++ ')' :: q), 1, f, outer⟩ (text ++ ')' :: q) .plain) := rfl
  rw [finish_cons rfl hopen]
  rw [DialectRegex.compile] at h
  split at h
  · cases h
  · next hf =>
    cases h
    exact finish_inside hf ⟨rfl, rfl, .last ⟨rfl, rfl, rfl⟩ rfl⟩

end Dialect

end DialectRegex
