import DialectRegex.Dialect.Named
import DialectRegex.Proofs.Grammar.Positions
import DialectRegex.Proofs.Matching.Searches
import DialectRegex.Proofs.Pattern.Chains
import Mathlib.Data.List.Chain

namespace DialectRegex

namespace Pattern

def isAnchor (e : Edge) : Pattern → Bool
  | test (.anchor e' _) => e' == e
  | _ => false

def startsClose : Pattern → Bool
  | test (.literal cs _) => cs.head? == some ')'
  | repeated p _ _ _ => p.startsClose
  | _ => false

/-- A start anchor is the first element of a sequence, and a stop anchor the last one, unless a closing parenthesis may
follow it and does. -/
def AnchorsAtEnds (close : Bool) (l : List Pattern) : Prop :=
  (∀ p ∈ l.tail, p.isAnchor .start = false) ∧
    l.IsChain fun p q => p.isAnchor .stop = true → close = true ∧ q.startsClose = true

def AnchorsInside (p : Pattern) : Prop := ∀ b ∈ p.bodies, ∀ a ∈ b.alternatives, AnchorsAtEnds false a.chain

structure Element (p : Pattern) : Prop where
  chain : p.chain = [p]
  alternatives : p.alternatives = [p]
  inside : p.AnchorsInside

variable {p q : Pattern}

theorem AnchorsInside.before (hp : p.AnchorsInside) (hq : q.AnchorsInside) : (p.before q).AnchorsInside := by
  rw [AnchorsInside, bodies_before]
  exact List.forall_mem_append.mpr ⟨hp, hq⟩

theorem element_test (t : Test) : (test t).Element := ⟨rfl, rfl, by simp [AnchorsInside, bodies]⟩

end Pattern

open Pattern (AnchorsAtEnds)

namespace Node

def isAnchor (e : Edge) : Node → Bool
  | char _ => false
  | piece p => p.isAnchor e

def startsClose : Node → Bool
  | char c => c == ')'
  | piece p => p.startsClose

theorem element_toPattern {n : Node} (hn : ∀ p, n = piece p → p.Element) (fold : Bool) :
    (n.toPattern fold).Element := by
  cases n with
  | char c => exact Pattern.element_test _
  | piece p => exact hn p rfl

theorem startsClose_toPattern (n : Node) (fold : Bool) : (n.toPattern fold).startsClose = n.startsClose := by
  cases n <;> simp [toPattern, startsClose, Pattern.startsClose]

end Node

inductive AnchorsRead (close : Bool) : List Node → Prop where
  | nil : AnchorsRead close []
  | cons {n : Node} {ns : List Node} (hn : ∀ p, n = .piece p → p.Element)
      (hstart : n.isAnchor .start = true → ns = [])
      (hstop : ∀ m ∈ ns.head?, m.isAnchor .stop = true → close = true ∧ n.startsClose = true)
      (h : AnchorsRead close ns) : AnchorsRead close (n :: ns)

section Sequence

variable {close fold : Bool} {ns : List Node} {run : List Char} {rest : Pattern}

theorem chain_literal (fold : Bool) (run : List Char) (rest : Pattern) :
    (Node.literal fold run rest).chain =
      (if run.isEmpty then [] else [.test (.literal run fold)]) ++ rest.chain := by
  rw [Node.literal]
  split
  · rfl
  · exact Pattern.chain_before rfl rest

theorem alternatives_literal (h : rest.alternatives = [rest]) :
    (Node.literal fold run rest).alternatives = [Node.literal fold run rest] := by
  rw [Node.literal]
  split
  · exact h
  · exact Pattern.single_before rfl rest

theorem AnchorsRead.alternatives (h : AnchorsRead close ns) (hrest : rest.alternatives = [rest]) :
    (Node.sequence fold run rest ns).alternatives = [Node.sequence fold run rest ns] := by
  induction h generalizing run rest with
  | nil => exact alternatives_literal hrest
  | @cons n ns hn _ _ _ ih =>
    cases n with
    | char c => exact ih hrest
    | piece p => exact ih (Pattern.single_before (hn p rfl).alternatives _)

theorem anchorsInside_literal (h : rest.AnchorsInside) : (Node.literal fold run rest).AnchorsInside := by
  rw [Node.literal]
  split
  · exact h
  · exact (Pattern.element_test _).inside.before h

theorem AnchorsRead.inside (h : AnchorsRead close ns) (hrest : rest.AnchorsInside) :
    (Node.sequence fold run rest ns).AnchorsInside := by
  induction h generalizing run rest with
  | nil => exact anchorsInside_literal hrest
  | @cons n ns hn _ _ _ ih =>
    cases n with
    | char c => exact ih hrest
    | piece p => exact ih ((hn p rfl).inside.before (anchorsInside_literal hrest))

theorem AnchorsRead.sequence (h : AnchorsRead close ns)
    (hstart : ∀ p ∈ (Node.literal fold run rest).chain, p.isAnchor .start = false)
    (hchain : (Node.literal fold run rest).chain.IsChain fun p q =>
      p.isAnchor .stop = true → close = true ∧ q.startsClose = true)
    (hstop : ∀ m ∈ ns.head?, m.isAnchor .stop = true →
      ∀ q ∈ (Node.literal fold run rest).chain.head?, close = true ∧ q.startsClose = true) :
    AnchorsAtEnds close (Node.sequence fold run rest ns).chain := by
  induction h generalizing run rest with
  | nil => exact ⟨fun p hp => hstart p (List.mem_of_mem_tail hp), hchain⟩
  | @cons n ns hn hfirst hlast h ih =>
    cases n with
    | char c =>
      rw [chain_literal] at hstart hchain
      obtain ⟨_, hrest⟩ := List.forall_mem_append.mp hstart
      obtain ⟨_, hchain, _⟩ := List.isChain_append.mp hchain
      have hliteral : (Node.literal fold (c :: run) rest).chain = .test (.literal (c :: run) fold) :: rest.chain :=
        chain_literal fold (c :: run) rest
      apply ih
      · rw [hliteral]
        exact List.forall_mem_cons.mpr ⟨rfl, hrest⟩
      · rw [hliteral]
        apply hchain.cons
        intro q _ hq
        cases hq
      · intro m hm hmstop q hq
        rw [hliteral] at hq
        cases hq
        obtain ⟨hclose, hc⟩ := hlast m hm hmstop
        exact ⟨hclose, hc⟩
    | piece p =>
      have hpiece : (Node.literal fold [] (p.before (Node.literal fold run rest))).chain =
          p :: (Node.literal fold run rest).chain := Pattern.chain_before (hn p rfl).chain _
      have hcons : (p :: (Node.literal fold run rest).chain).IsChain fun p q =>
          p.isAnchor .stop = true → close = true ∧ q.startsClose = true :=
        hchain.cons fun q hq hp => hstop _ rfl hp q hq
      by_cases hp : p.isAnchor .start = true
      · -- Nothing was read before the anchor.
        obtain rfl := hfirst hp
        change AnchorsAtEnds close (Node.literal fold [] (p.before (Node.literal fold run rest))).chain
        rw [hpiece]
        exact ⟨hstart, hcons⟩
      · apply ih
        · rw [hpiece]
          exact List.forall_mem_cons.mpr ⟨by simpa using hp, hstart⟩
        · rw [hpiece]
          exact hcons
        · intro m hm hmstop q hq
          rw [hpiece] at hq
          cases hq
          exact hlast m hm hmstop

theorem AnchorsRead.ends (h : AnchorsRead close ns) :
    AnchorsAtEnds close (Node.sequence fold [] .empty ns).chain := by
  apply h.sequence
  · intro p hp
    cases hp
  · exact .nil
  · intro m _ _ q hq
    cases hq

end Sequence

namespace Frame

variable {close fold : Bool} {f inner : Frame}

structure AnchorsRead (close : Bool) (f : Frame) : Prop where
  finished : ∀ a ∈ f.finished, AnchorsAtEnds close a.chain ∧ a.AnchorsInside
  nodes : DialectRegex.AnchorsRead close f.nodes
  repeatable : f.repeatable = true → ∀ n ∈ f.nodes.head?, ∀ e, n.isAnchor e = false

def atStop (f : Frame) : Bool := f.nodes.head?.any (·.isAnchor .stop)

namespace AnchorsRead

theorem push (h : f.AnchorsRead close) {n : Node} (hn : ∀ p, n = .piece p → p.Element)
    (ha : ∀ e, n.isAnchor e = false) (hstop : f.atStop = true → close = true ∧ n.startsClose = true) :
    (f.push n).AnchorsRead close where
  finished := h.finished
  nodes := by
    refine .cons hn (fun hs => ?_) (fun m hm hms => hstop ?_) h.nodes
    · rw [ha] at hs
      cases hs
    · rw [atStop, hm]
      exact hms
  repeatable _ m hm e := by
    cases hm
    exact ha e

theorem assert (h : f.AnchorsRead close) {p : Pattern} (hp : p.Element)
    (hstart : p.isAnchor .start = true → f.nodes = []) (hstop : f.atStop = false) :
    (f.assert p).AnchorsRead close where
  finished := h.finished
  nodes := by
    refine .cons (fun q hq => ?_) hstart (fun m hm hms => ?_) h.nodes
    · cases hq
      exact hp
    · rw [atStop, hm] at hstop
      exact absurd (hms.symm.trans hstop) (by decide)
  repeatable hr := by cases hr

theorem ends (h : f.AnchorsRead close) (fold : Bool) :
    AnchorsAtEnds close (f.sequence fold).chain ∧ (f.sequence fold).AnchorsInside :=
  ⟨h.nodes.ends, h.nodes.inside (Pattern.element_test (.boundary .either)).inside⟩

theorem nextAlternative (h : f.AnchorsRead close) (fold : Bool) : (f.nextAlternative fold).AnchorsRead close :=
  ⟨List.forall_mem_cons.mpr ⟨h.ends fold, h.finished⟩, .nil, fun hr => by cases hr⟩

theorem repeatLast (h : f.AnchorsRead close) (hr : f.repeatable = true) (fold : Bool) (lo : Nat) (hi : Option Nat)
    (greedy : Bool) : (f.repeatLast fold lo hi greedy).AnchorsRead close := by
  obtain ⟨kind, opened, finished, nodes, repeatable⟩ := f
  obtain ⟨hfinished, hnodes, hlast⟩ := h
  cases hnodes with
  | nil => exact ⟨hfinished, .nil, hlast⟩
  | @cons n ns hn hstart hstop hns =>
    refine ⟨hfinished, .cons ?_ ?_ ?_ hns, ?_⟩
    · intro p hp
      cases hp
      exact ⟨rfl, rfl, (Node.element_toPattern hn fold).inside⟩
    · intro hs
      cases hs
    · intro m hm hms
      obtain ⟨hclose, hstarts⟩ := hstop m hm hms
      exact ⟨hclose, (n.startsClose_toPattern fold).trans hstarts⟩
    · intro _ m hm e
      cases hm
      rfl

theorem body (h : f.AnchorsRead close) (fold : Bool) :
    (∀ a ∈ (f.body fold).alternatives, AnchorsAtEnds close a.chain) ∧ (f.body fold).AnchorsInside := by
  obtain ⟨hends, hinside⟩ := h.ends fold
  have hsingle : (f.sequence fold).alternatives = [f.sequence fold] := h.nodes.alternatives rfl
  constructor
  · rw [Frame.body, Pattern.alternatives_foldl, hsingle, List.forall_mem_append]
    refine ⟨fun a ha => (h.finished a (List.mem_reverse.mp ha)).1, ?_⟩
    exact List.forall_mem_singleton.mpr hends
  · rw [Pattern.AnchorsInside, Frame.body, Pattern.bodies_foldl, List.forall_mem_append]
    refine ⟨fun b hb => ?_, hinside⟩
    obtain ⟨a, ha, hb⟩ := List.mem_flatMap.mp hb
    exact (h.finished a (List.mem_reverse.mp ha)).2 b hb

theorem addGroup (h : f.AnchorsRead close) (hstop : f.atStop = false) (hi : inner.AnchorsRead false) (fold : Bool) :
    (f.addGroup inner fold).AnchorsRead close := by
  obtain ⟨hends, hinside⟩ := hi.body fold
  have hbodies : ∀ b ∈ inner.body fold :: (inner.body fold).bodies,
      ∀ a ∈ b.alternatives, AnchorsAtEnds false a.chain := List.forall_mem_cons.mpr ⟨hends, hinside⟩
  have hgroup (g : Option Nat) : (f.push (.piece (.group g (inner.body fold)))).AnchorsRead close := by
    apply h.push
    · intro p hp
      cases hp
      exact ⟨rfl, rfl, hbodies⟩
    · intro e
      rfl
    · intro hs
      exact absurd (hs.symm.trans hstop) (by decide)
  rw [Frame.addGroup]
  split
  · exact hgroup _
  · exact hgroup _
  · exact h.assert ⟨rfl, rfl, hbodies⟩ (fun hs => by cases hs) hstop

end AnchorsRead

theorem atStop_addGroup (f inner : Frame) (fold : Bool) : (f.addGroup inner fold).atStop = false := by
  rw [addGroup]
  split <;> rfl

theorem atStop_repeatLast (h : f.atStop = false) (fold : Bool) (lo : Nat) (hi : Option Nat) (greedy : Bool) :
    (f.repeatLast fold lo hi greedy).atStop = false := by
  rw [repeatLast]
  split
  · exact h
  · rfl

end Frame

namespace Dialect

variable {d : Dialect} {o : Options} {p p' : Progress} {c : Char} {rest : List Char}

theorem step_ended (h : d.step o p c rest = .ok p') (he : d.endsAlternative (c :: rest) = true) :
    ∃ after, p' = { p with rest := after, frame := p.frame.nextAlternative o.ignoreCase } ∨
      (∃ f outer, p.outer = f :: outer ∧
        p' = { p with rest := after, frame := f.addGroup p.frame o.ignoreCase, outer }) ∨
      p.outer = [] ∧ d.has .strayCloseOrdinary = true ∧ p' = p.push after (.char ')') := by
  rw [endsAlternative, List.isEmpty_cons, Bool.false_or] at he
  rw [step] at h
  split at he
  · next n hop =>
    rw [hop] at h
    change d.closeGroup o p ((c :: rest).drop n) = .ok p' at h
    refine ⟨(c :: rest).drop n, .inr ?_⟩
    rw [closeGroup.eq_def] at h
    split at h
    · next f outer hout =>
      cases h
      exact .inl ⟨f, outer, hout, rfl⟩
    · next hout =>
      split at h
      · next hclose =>
        cases h
        exact .inr ⟨hout, hclose, rfl⟩
      · cases h
  · next n hop =>
    rw [hop] at h
    cases h
    exact ⟨(c :: rest).drop n, .inl rfl⟩
  · cases he

section Places

variable {e : Edge} {multiline : Bool}

theorem repetition_anchor {after : List Char} {bounds : Except Flaw (Bounds × List Char)}
    (h : d.repetition o p c after bounds = .ok p') :
    p'.frame.nodes ≠ .piece (.test (.anchor e multiline)) :: p.frame.nodes := by
  intro hn
  rw [repetition.eq_def] at h
  split at h
  · split at h
    · cases h
    · cases h
      dsimp only at hn
      rw [Frame.repeatLast] at hn
      split at hn
      · next hnil =>
        rw [hnil] at hn
        cases hn
      · cases hn
  · split at h
    · cases h
    · cases h
      cases hn

theorem applyOperator_anchor {after : List Char} {op : Operator} (h : d.applyOperator o p after op = .ok p') :
    p'.frame.nodes ≠ .piece (.test (.anchor e multiline)) :: p.frame.nodes := by
  rw [applyOperator.eq_def] at h
  cases op with
  | bar =>
    cases h
    exact (List.cons_ne_nil _ _).symm
  | groupOpen =>
    have hbegin (kind : GroupKind) : (Frame.begin kind p.rest).nodes ≠
        .piece (.test (.anchor e multiline)) :: p.frame.nodes := (List.cons_ne_nil _ _).symm
    dsimp only at h
    rw [openGroup.eq_def] at h
    split at h
    · split at h
      · split at h
        · cases h
        · split at h
          · cases h
            exact hbegin _
          split at h
          · cases h
            exact hbegin _
          split at h
          · cases h
            exact hbegin _
          split at h
          · split at h
            · cases h
            · cases h
              exact (List.cons_ne_self _ _).symm
          · cases h
      · cases h
        exact hbegin _
    · cases h
      exact hbegin _
  | groupClose =>
    intro hn
    dsimp only at h
    rw [closeGroup.eq_def] at h
    split at h
    · cases h
      dsimp only at hn
      rw [Frame.addGroup] at hn
      split at hn <;> cases hn
    · split at h
      · cases h
        cases hn
      · cases h
  | star => exact repetition_anchor h
  | plus => exact repetition_anchor h
  | question => exact repetition_anchor h
  | intervalOpen => exact repetition_anchor h

theorem backref_anchor (h : d.backref o p c rest = some (.ok p')) :
    p'.frame.nodes ≠ .piece (.test (.anchor e multiline)) :: p.frame.nodes := by
  intro hn
  rw [backref.eq_def] at h
  split at h
  · cases h
  split at h
  · cases h
  split at h
  · cases h
  · cases h
    cases hn

theorem escapedNode_anchor (c : Char) : (d.escapedNode o c).isAnchor e = false := by
  rw [escapedNode]
  split
  · split <;> rfl
  · rfl

theorem escapedAssertion?_anchor (hs : d.has .stringAnchors = false) :
    d.escapedAssertion? c ≠ some (.anchor e multiline) := by
  intro h
  rw [escapedAssertion?.eq_def, hs] at h
  simp only [Bool.false_and, Bool.false_eq_true, ↓reduceIte] at h
  split at h <;> split at h <;> cases h

theorem escape_anchor (hs : d.has .stringAnchors = false) {cs : List Char} (h : d.escape o p cs = .ok p') :
    p'.frame.nodes ≠ .piece (.test (.anchor e multiline)) :: p.frame.nodes := by
  cases cs with
  | nil => cases h
  | cons c rest =>
    rw [escape] at h
    split at h
    · next hr => exact backref_anchor (h ▸ hr)
    intro hn
    split at h
    · next t ht =>
      cases h
      cases hn
      exact escapedAssertion?_anchor hs ht
    · cases h
      have hnode : d.escapedNode o c = .piece (.test (.anchor e multiline)) := (List.cons.inj hn).1
      have hanchor := escapedNode_anchor (d := d) (o := o) (e := e) c
      rw [hnode] at hanchor
      simp [Node.isAnchor, Pattern.isAnchor] at hanchor

theorem step_anchor (ha : d.has .anchorsAnywhere = false) (hs : d.has .stringAnchors = false)
    (h : d.step o p c rest = .ok p') (hn : p'.frame.nodes = .piece (.test (.anchor e multiline)) :: p.frame.nodes) :
    (e = .start → p.frame.nodes = []) ∧ (e = .stop → d.endsAlternative p'.rest = true) := by
  rw [step.eq_def] at h
  split at h
  · exact absurd hn (applyOperator_anchor h)
  rw [atom.eq_def, ha] at h
  split at h
  · cases h
    cases hn
  split at h
  · next hc =>
    cases h
    cases hn
    refine ⟨fun _ => ?_, fun he => by cases he⟩
    simpa using hc.2
  split at h
  · next hc =>
    obtain ⟨_, hends⟩ := hc
    cases h
    cases hn
    exact ⟨fun he => (by cases he), fun _ => hends⟩
  split at h
  · split at h
    · cases h
    · cases h
      cases hn
  split at h
  · exact absurd hn (escape_anchor hs h)
  · cases h
    cases hn

end Places

end Dialect

namespace Progress

variable {d : Dialect} {o : Options} {p p' : Progress} {c : Char} {rest : List Char}

def FramesRead (d : Dialect) : List Frame → Prop
  | [] => True
  | f :: fs => f.AnchorsRead (d.has .strayCloseOrdinary && fs.isEmpty) ∧ FramesRead d fs

structure AnchorsRead (d : Dialect) (p : Progress) : Prop where
  frames : FramesRead d (p.frame :: p.outer)
  outer : ∀ f ∈ p.outer, f.atStop = false
  ended : p.frame.atStop = true → d.endsAlternative p.rest = true

namespace AnchorsRead

theorem update (hp : p.AnchorsRead d) {f : Frame}
    (hf : p.frame.AnchorsRead (d.has .strayCloseOrdinary && p.outer.isEmpty) →
      f.AnchorsRead (d.has .strayCloseOrdinary && p.outer.isEmpty))
    (hstop : f.atStop = true → d.endsAlternative rest = true) : { p with rest, frame := f }.AnchorsRead d :=
  ⟨⟨hf hp.frames.1, hp.frames.2⟩, hp.outer, hstop⟩

theorem begin (hp : p.AnchorsRead d) (hstop : p.frame.atStop = false) (rest : List Char) (groups : Nat)
    (kind : GroupKind) :
    Progress.AnchorsRead d ⟨rest, groups, .begin kind p.rest, p.frame :: p.outer⟩ where
  frames := ⟨⟨fun a ha => (by cases ha), .nil, fun hr => (by cases hr)⟩, hp.frames⟩
  outer := List.forall_mem_cons.mpr ⟨hstop, hp.outer⟩
  ended h := by cases h

theorem close (hp : p.AnchorsRead d) {f : Frame} {outer : List Frame} (hout : p.outer = f :: outer)
    (rest : List Char) (fold : Bool) :
    Progress.AnchorsRead d ⟨rest, p.groups, f.addGroup p.frame fold, outer⟩ := by
  obtain ⟨hframes, houter, _⟩ := hp
  rw [hout] at hframes houter
  obtain ⟨hinner, hf, hfs⟩ := hframes
  obtain ⟨hstop, houter⟩ := List.forall_mem_cons.mp houter
  rw [List.isEmpty_cons, Bool.and_false] at hinner
  refine ⟨⟨hf.addGroup hstop hinner fold, hfs⟩, houter, ?_⟩
  intro h
  rw [Frame.atStop_addGroup] at h
  cases h

theorem char (hp : p.AnchorsRead d) (c : Char)
    (hstop : p.frame.atStop = true → (d.has .strayCloseOrdinary && p.outer.isEmpty) = true ∧ (c == ')') = true)
    (rest : List Char) : (p.push rest (.char c)).AnchorsRead d := by
  apply hp.update
  · intro hf
    exact hf.push (fun q hq => by cases hq) (fun e => rfl) hstop
  · intro h
    cases h

theorem step (hp : p.AnchorsRead d) (ha : d.has .anchorsAnywhere = false) (hs : d.has .stringAnchors = false)
    (hr : p.rest = c :: rest) (h : d.step o p c rest = .ok p') : p'.AnchorsRead d := by
  cases hstop : p.frame.atStop with
  | true =>
    have he := hp.ended hstop
    rw [hr] at he
    obtain ⟨after, rfl | ⟨f, outer, hout, rfl⟩ | ⟨hout, hclose, rfl⟩⟩ := Dialect.step_ended h he
    · exact hp.update (fun hf => hf.nextAlternative _) fun h => by cases h
    · exact hp.close hout after _
    · refine hp.char ')' (fun _ => ?_) after
      simp [hclose, hout]
  | false =>
    have hnot {P : Prop} (h : p.frame.atStop = true) : P := by
      rw [hstop] at h
      cases h
    have hplaces {e : Edge} {multiline : Bool}
        (hn : p'.frame.nodes = .piece (.test (.anchor e multiline)) :: p.frame.nodes) :=
      Dialect.step_anchor ha hs h hn
    cases Dialect.step_moves h with
    | char after c => exact hp.char c hnot after
    | test after t ht =>
      apply hp.update
      · intro hf
        refine hf.push (fun q hq => ?_) (fun e => ?_) hnot
        · cases hq
          exact Pattern.element_test t
        · cases ht <;> rfl
      · intro h
        cases ht <;> cases h
    | assert after t ht =>
      apply hp.update
      · intro hf
        refine hf.assert (Pattern.element_test t) (fun hstart => ?_) hstop
        cases ht with
        | boundary b => cases hstart
        | @anchor e multiline hm =>
          have he : e = .start := by simpa [Pattern.isAnchor] using hstart
          exact (hplaces rfl).1 he
      · intro h
        cases ht with
        | boundary b => cases h
        | @anchor e multiline hm =>
          have he : e = .stop := by simpa [Frame.atStop, Frame.assert, Node.isAnchor, Pattern.isAnchor] using h
          exact (hplaces rfl).2 he
    | bar after => exact hp.update (fun hf => hf.nextAlternative _) fun h => by cases h
    | group after => exact hp.begin hstop after _ _
    | look after negated => exact hp.begin hstop after _ _
    | capture after => exact hp.begin hstop after _ _
    | comment after => exact hp.update (fun hf => ⟨hf.finished, hf.nodes, fun hr => by cases hr⟩) hnot
    | close after hout => exact hp.close hout after _
    | repetition after b greedy hrep =>
      apply hp.update
      · intro hf
        exact hf.repeatLast hrep _ _ _ _
      · intro h
        rw [Frame.atStop_repeatLast hstop] at h
        cases h

theorem run {q : Progress} (hp : p.AnchorsRead d) (ha : d.has .anchorsAnywhere = false)
    (hs : d.has .stringAnchors = false) (hr : Dialect.Run d o p q) : q.AnchorsRead d := by
  induction hr with
  | refl => exact hp
  | step hr hs' _ ih => exact ih (hp.step ha hs hr hs')

end AnchorsRead

end Progress

section Compile

variable {d : Dialect} {o : Options}

theorem compile_anchors (ha : d.has .anchorsAnywhere = false) (hs : d.has .stringAnchors = false)
    {pattern : List Char} {body : Pattern} {groups : Nat} (h : compile d o pattern = .ok (body, groups)) :
    (∀ a ∈ body.alternatives, AnchorsAtEnds (d.has .strayCloseOrdinary) a.chain) ∧ body.AnchorsInside := by
  have hstart : (Progress.start pattern).AnchorsRead d :=
    ⟨⟨⟨fun a ha => (by cases ha), .nil, fun hr => (by cases hr)⟩, trivial⟩, fun f hf => (by cases hf),
      fun h => (by cases h)⟩
  obtain ⟨q, hq, hend⟩ := Dialect.finish_run d o (.start pattern)
  rw [compile] at h
  split at h
  · cases h
  · next hf =>
    cases h
    rw [hf] at hend
    obtain ⟨_, houter, rfl, _⟩ := hend
    have hframe := (hstart.run ha hs hq).frames.1
    rw [houter, List.isEmpty_nil, Bool.and_true] at hframe
    exact hframe.body o.ignoreCase

theorem step_caret (ha : d.has .anchorsAnywhere = false) (o : Options) (p : Progress) (rest : List Char) :
    d.step o p '^' rest =
      .ok (if p.frame.nodes.isEmpty then p.assert rest (.anchor .start o.multiline) else p.push rest (.char '^')) := by
  have hop : d.operator? ('^' :: rest) = none := rfl
  rw [Dialect.step, hop]
  cases hn : p.frame.nodes.isEmpty <;> simp [Dialect.atom, ha, hn]

theorem step_dollar (ha : d.has .anchorsAnywhere = false) (o : Options) (p : Progress) (rest : List Char) :
    d.step o p '$' rest =
      .ok (if d.endsAlternative rest then p.assert rest (.anchor .stop o.multiline) else p.push rest (.char '$')) := by
  have hop : d.operator? ('$' :: rest) = none := rfl
  rw [Dialect.step, hop]
  cases he : d.endsAlternative rest <;> simp [Dialect.atom, ha, he]

end Compile

namespace Regex

variable {r : Regex} {source : String} {d : Dialect} {o : Options}

/-- In a dialect in which anchors depend on where they stand, they stand at the ends of alternatives, in every group
and lookahead. Outside of them all, an ordinary closing parenthesis can follow a stop anchor. A caret or a dollar sign
that is read anywhere else is a character. -/
theorem anchors_at_ends (hr : compile source d o = .ok r) (ha : d.has .anchorsAnywhere = false)
    (hs : d.has .stringAnchors = false) :
    (∀ a ∈ r.body.alternatives, AnchorsAtEnds (d.has .strayCloseOrdinary) a.chain) ∧
      (∀ b ∈ r.body.bodies, ∀ a ∈ b.alternatives, AnchorsAtEnds false a.chain) ∧
      ∀ (p : Progress) (rest : List Char),
        d.step o p '^' rest = .ok (if p.frame.nodes.isEmpty then p.assert rest (.anchor .start o.multiline)
          else p.push rest (.char '^')) ∧
        d.step o p '$' rest = .ok (if d.endsAlternative rest then p.assert rest (.anchor .stop o.multiline)
          else p.push rest (.char '$')) := by
  obtain ⟨halternatives, hbodies⟩ := compile_anchors ha hs (compile_eq_ok hr)
  exact ⟨halternatives, hbodies, fun p rest => ⟨step_caret ha o p rest, step_dollar ha o p rest⟩⟩

theorem anchors_at_ends_awk :
    ∃ (r : Regex) (p q : Pattern), compile "(^a$|b^$c)$" .awk {} = .ok r ∧
      Dialect.awk.has .anchorsAnywhere = false ∧ Dialect.awk.has .stringAnchors = false ∧
      r.body.alternatives = [p] ∧ AnchorsAtEnds true p.chain ∧
      r.body.bodies = [q] ∧ ∀ a ∈ q.alternatives, AnchorsAtEnds false a.chain := by
  let word (cs : List Char) : Pattern := .test (.literal cs false)
  let stop : Pattern := .test (.anchor .stop false)
  let inner : Pattern :=
    .alt (.seq (.test (.anchor .start false)) (.seq (word ['a']) stop)) (word ['b', '^', '$', 'c'])
  let body : Pattern := .seq (.group (some 1) inner) stop
  let r : Regex := ⟨"(^a$|b^$c)$", .awk, {}, body, 2, true, rfl⟩
  have hr : compile "(^a$|b^$c)$" .awk {} = .ok r := by cbv
  have ha : Dialect.awk.has .anchorsAnywhere = false := by decide
  have hs : Dialect.awk.has .stringAnchors = false := by decide
  obtain ⟨halternatives, hbodies, _⟩ := anchors_at_ends hr ha hs
  exact ⟨r, body, inner, hr, ha, hs, rfl, halternatives body List.mem_cons_self, rfl,
    hbodies inner List.mem_cons_self⟩

/-- The parenthesis closes nothing, and yet the dollar sign before it asks for the end of the text. -/
theorem anchor_before_close :
    ∃ r : Regex, compile "a$)b" .awk {} = .ok r ∧ Dialect.awk.has .anchorsAnywhere = false ∧
      Dialect.awk.has .stringAnchors = false ∧ (∃ a ∈ r.body.alternatives, ¬ AnchorsAtEnds false a.chain) ∧
      r.find (.ofString "a$)b") = none := by
  let word (cs : List Char) : Pattern := .test (.literal cs false)
  let body : Pattern := .seq (word ['a']) (.seq (.test (.anchor .stop false)) (word [')', 'b']))
  let r : Regex := ⟨"a$)b", .awk, {}, body, 1, true, rfl⟩
  have hr : compile "a$)b" .awk {} = .ok r := by cbv
  have hnot : ¬ AnchorsAtEnds false body.chain := by
    rintro ⟨_, hchain⟩
    obtain ⟨_, hchain⟩ := List.isChain_cons_cons.mp hchain
    obtain ⟨hstop, _⟩ := List.isChain_cons_cons.mp hchain
    cases (hstop rfl).1
  have hfind : r.find (.ofString "a$)b") = none := by decide +kernel
  exact ⟨r, hr, by decide, by decide, ⟨body, List.mem_cons_self, hnot⟩, hfind⟩

end Regex

end DialectRegex
