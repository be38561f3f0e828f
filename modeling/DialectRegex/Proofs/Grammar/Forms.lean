import DialectRegex.Proofs.Grammar.Moves
import DialectRegex.Proofs.Pattern.Groups
import DialectRegex.Proofs.Pattern.Spans

namespace DialectRegex

inductive Place where
  | item
  | operand
  | part
  | sequence
  | alternatives

namespace Pattern

def startsLiteral : Pattern → Bool
  | test (.literal _ _) => true
  | seq (test (.literal _ _)) _ => true
  | _ => false

/-- The pattern has the form of what is read in such a place. So many groups have been opened before it, and so many
have been opened after it. -/
inductive Formed (o : Options) : Place → Nat → Pattern → Nat → Prop where
  | atom {n : Nat} {t : Test} (ht : t.Atom o n) : Formed o .item n (.test t) n
  | capture {n m : Nat} {p : Pattern} (h : Formed o .alternatives (n + 1) p m) : Formed o .item n (.group (some n) p) m
  | plain {n m : Nat} {p : Pattern} (h : Formed o .alternatives n p m) : Formed o .item n (.group none p) m
  | repeated {n m : Nat} {p : Pattern} (b : Bounds) (greedy : Bool) (hb : InOrder b.min b.max)
      (hmin : b.min ≤ greatestBound) (hmax : ∀ k ∈ b.max, k ≤ greatestBound) (h : Formed o .operand n p m) :
      Formed o .item n (.repeated p b.min b.max greedy) m
  | char (n : Nat) (c : Char) : Formed o .operand n (.test (.literal [c] o.ignoreCase)) n
  | operand {n m : Nat} {p : Pattern} (h : Formed o .item n p m) : Formed o .operand n p m
  | part {n m : Nat} {p : Pattern} (h : Formed o .item n p m) : Formed o .part n p m
  | assertion {t : Test} (n : Nat) (ht : t.Assertion o) : Formed o .part n (.test t) n
  | look {n m : Nat} {p : Pattern} (negated : Bool) (h : Formed o .alternatives n p m) :
      Formed o .part n (.look negated p) m
  | empty (n : Nat) : Formed o .sequence n .empty n
  | before {n k m : Nat} {p q : Pattern} (hp : Formed o .part n p k) (hq : Formed o .sequence k q m) :
      Formed o .sequence n (p.before q) m
  | literal {n m : Nat} {cs : List Char} {q : Pattern} (hcs : cs ≠ []) (hq : Formed o .sequence n q m)
      (hl : q.startsLiteral = false) : Formed o .sequence n ((Pattern.test (.literal cs o.ignoreCase)).before q) m
  | last {n m : Nat} {p : Pattern} (h : Formed o .sequence n p m) : Formed o .alternatives n p m
  | alt {n k m : Nat} {p q : Pattern} (hp : Formed o .sequence n p k) (hq : Formed o .alternatives k q m) :
      Formed o .alternatives n (.alt p q) m

theorem numbers_before (p q : Pattern) : (p.before q).numbers = p.numbers ++ q.numbers := by
  cases q with
  | empty => exact (List.append_nil p.numbers).symm
  | _ => exact numbers_seq p _

theorem everyRepeat_before {P : Nat → Option Nat → Prop} {p q : Pattern} (hp : p.EveryRepeat P)
    (hq : q.EveryRepeat P) : (p.before q).EveryRepeat P := by
  cases q with
  | empty => exact hp
  | _ => exact ⟨hp, hq⟩

theorem everyTest_before {Q : Test → Prop} {p q : Pattern} (hp : p.EveryTest Q) (hq : q.EveryTest Q) :
    (p.before q).EveryTest Q := by
  cases q with
  | empty => exact hp
  | _ => exact ⟨hp, hq⟩

namespace Formed

variable {o : Options} {place : Place} {n m : Nat} {p : Pattern}

theorem not_startsLiteral (h : Formed o .part n p m) (q : Pattern) : (p.before q).startsLiteral = false := by
  cases h with
  | part h =>
    cases h with
    | atom ht => cases ht <;> cases q <;> rfl
    | capture => cases q <;> rfl
    | plain => cases q <;> rfl
    | repeated => cases q <;> rfl
  | assertion _ ht => cases ht <;> cases q <;> rfl
  | look => cases q <;> rfl

theorem everyRepeat {P : Nat → Option Nat → Prop} (h : Formed o place n p m)
    (hP : ∀ lo hi, InOrder lo hi → lo ≤ greatestBound → (∀ k ∈ hi, k ≤ greatestBound) → P lo hi) :
    p.EveryRepeat P := by
  induction h with
  | atom => exact trivial
  | capture _ ih => exact ih
  | plain _ ih => exact ih
  | repeated b greedy hb hmin hmax _ ih => exact ⟨hP _ _ hb hmin hmax, ih⟩
  | char => exact trivial
  | operand _ ih => exact ih
  | part _ ih => exact ih
  | assertion => exact trivial
  | look _ _ ih => exact ih
  | empty => exact trivial
  | before _ _ hp hq => exact everyRepeat_before hp hq
  | literal _ _ _ ih => exact everyRepeat_before trivial ih
  | last _ ih => exact ih
  | alt _ _ hp hq => exact ⟨hp, hq⟩

theorem everyTest {Q : Test → Prop} (h : Formed o place n p m) (hatom : ∀ n t, Test.Atom o n t → Q t)
    (hassert : ∀ t, t.Assertion o → Q t) (hliteral : ∀ cs, Q (.literal cs o.ignoreCase)) : p.EveryTest Q := by
  induction h with
  | atom ht => exact hatom _ _ ht
  | capture _ ih => exact ih
  | plain _ ih => exact ih
  | repeated _ _ _ _ _ _ ih => exact ih
  | char _ c => exact hliteral [c]
  | operand _ ih => exact ih
  | part _ ih => exact ih
  | assertion _ ht => exact hassert _ ht
  | look _ _ ih => exact ih
  | empty => exact trivial
  | before _ _ hp hq => exact everyTest_before hp hq
  | @literal _ _ cs _ _ _ _ ih => exact everyTest_before (hliteral cs) ih
  | last _ ih => exact ih
  | alt _ _ hp hq => exact ⟨hp, hq⟩

theorem numbers_eq (h : Formed o place n p m) : ∃ k, m = n + k ∧ p.numbers = List.range' n k := by
  have happend {n k m : Nat} {p q : Pattern} (hp : ∃ i, k = n + i ∧ p.numbers = List.range' n i)
      (hq : ∃ i, m = k + i ∧ q.numbers = List.range' k i) :
      ∃ i, m = n + i ∧ p.numbers ++ q.numbers = List.range' n i := by
    obtain ⟨i, rfl, hp⟩ := hp
    obtain ⟨j, rfl, hq⟩ := hq
    refine ⟨i + j, Nat.add_assoc n i j, ?_⟩
    rw [hp, hq, ← List.range'_append_1]
  induction h with
  | atom => exact ⟨0, rfl, rfl⟩
  | @capture n m p _ ih =>
    obtain ⟨i, rfl, ih⟩ := ih
    refine ⟨i + 1, by omega, ?_⟩
    rw [numbers_group, ih]
    exact List.range'_succ.symm
  | plain _ ih => exact ih
  | repeated _ _ _ _ _ _ ih => exact ih
  | char => exact ⟨0, rfl, rfl⟩
  | operand _ ih => exact ih
  | part _ ih => exact ih
  | assertion => exact ⟨0, rfl, rfl⟩
  | look _ _ ih => exact ih
  | empty => exact ⟨0, rfl, rfl⟩
  | before _ _ hp hq =>
    rw [numbers_before]
    exact happend hp hq
  | literal _ _ _ ih =>
    rw [numbers_before]
    exact ih
  | last _ ih => exact ih
  | alt _ _ hp hq =>
    rw [numbers_alt]
    exact happend hp hq

end Formed

end Pattern

open Pattern (Formed)

inductive NodesFormed (o : Options) : Bool → Nat → List Node → Nat → Prop where
  | nil (n : Nat) : NodesFormed o false n [] n
  | char {b : Bool} {n m : Nat} {ns : List Node} (c : Char) (h : NodesFormed o b n ns m) :
      NodesFormed o true n (.char c :: ns) m
  | item {b : Bool} {n k m : Nat} {ns : List Node} {p : Pattern} (h : NodesFormed o b n ns k)
      (hp : Formed o .item k p m) : NodesFormed o true n (.piece p :: ns) m
  | part {b : Bool} {n k m : Nat} {ns : List Node} {p : Pattern} (h : NodesFormed o b n ns k)
      (hp : Formed o .part k p m) : NodesFormed o false n (.piece p :: ns) m
  | comment {b : Bool} {n m : Nat} {ns : List Node} (h : NodesFormed o b n ns m) : NodesFormed o false n ns m

inductive FinishedFormed (o : Options) : Nat → List Pattern → Nat → Prop where
  | nil (n : Nat) : FinishedFormed o n [] n
  | cons {n k m : Nat} {p : Pattern} {ps : List Pattern} (h : FinishedFormed o n ps k)
      (hp : Formed o .sequence k p m) : FinishedFormed o n (p :: ps) m

section Sequence

variable {o : Options} {n k m : Nat}

theorem literal_formed {run : List Char} {rest : Pattern} (h : Formed o .sequence n rest m)
    (hl : rest.startsLiteral = false) : Formed o .sequence n (Node.literal o.ignoreCase run rest) m := by
  rw [Node.literal]
  split
  · exact h
  · next hr => exact .literal (by simpa using hr) h hl

theorem sequence_formed {b : Bool} {ns : List Node} (hns : NodesFormed o b n ns k) {run : List Char} {rest : Pattern}
    (h : Formed o .sequence k rest m) (hl : rest.startsLiteral = false) :
    Formed o .sequence n (Node.sequence o.ignoreCase run rest ns) m := by
  induction hns generalizing run rest with
  | nil => exact literal_formed h hl
  | char c _ ih => exact ih h hl
  | item _ hp ih => exact ih (.before (.part hp) (literal_formed h hl)) (Formed.not_startsLiteral (.part hp) _)
  | part _ hp ih => exact ih (.before hp (literal_formed h hl)) (hp.not_startsLiteral _)
  | comment _ ih => exact ih h hl

theorem alternatives_formed {ps : List Pattern} (hps : FinishedFormed o n ps k) {q : Pattern}
    (hq : Formed o .alternatives k q m) : Formed o .alternatives n (ps.foldl (fun rest p => .alt p rest) q) m := by
  induction hps generalizing q with
  | nil => exact hq
  | cons _ hp ih => exact ih (.alt hp hq)

end Sequence

def GroupKind.after (n : Nat) : GroupKind → Nat
  | .capturing _ => n + 1
  | _ => n

structure Frame.Formed (o : Options) (n : Nat) (f : Frame) (m : Nat) : Prop where
  kind : ∀ g, f.kind = .capturing g → g = n
  read : ∃ k, FinishedFormed o (f.kind.after n) f.finished k ∧ NodesFormed o f.repeatable k f.nodes m

namespace Frame

variable {o : Options} {n k m : Nat} {f : Frame}

theorem kind_addGroup (f inner : Frame) (fold : Bool) : (f.addGroup inner fold).kind = f.kind := by
  rw [addGroup]
  split <;> rfl

theorem kind_repeatLast (f : Frame) (fold : Bool) (lo : Nat) (hi : Option Nat) (greedy : Bool) :
    (f.repeatLast fold lo hi greedy).kind = f.kind := by
  rw [repeatLast]
  split <;> rfl

namespace Formed

theorem begin {kind : GroupKind} (hk : ∀ g, kind = .capturing g → g = n) (opened : List Char) :
    (Frame.begin kind opened).Formed o n (kind.after n) :=
  ⟨hk, _, .nil _, .nil _⟩

theorem char (h : f.Formed o n m) (c : Char) : (f.push (.char c)).Formed o n m := by
  obtain ⟨hk, k, hf, hns⟩ := h
  exact ⟨hk, k, hf, .char c hns⟩

theorem item (h : f.Formed o n k) {p : Pattern} (hp : Pattern.Formed o .item k p m) :
    (f.push (.piece p)).Formed o n m := by
  obtain ⟨hk, l, hf, hns⟩ := h
  exact ⟨hk, l, hf, .item hns hp⟩

theorem part (h : f.Formed o n k) {p : Pattern} (hp : Pattern.Formed o .part k p m) : (f.assert p).Formed o n m := by
  obtain ⟨hk, l, hf, hns⟩ := h
  exact ⟨hk, l, hf, .part hns hp⟩

theorem nextAlternative (h : f.Formed o n m) : (f.nextAlternative o.ignoreCase).Formed o n m := by
  obtain ⟨hk, l, hf, hns⟩ := h
  exact ⟨hk, m, .cons hf (sequence_formed hns (.empty m) rfl), .nil m⟩

theorem comment (h : f.Formed o n m) : ({ f with repeatable := false } : Frame).Formed o n m := by
  obtain ⟨hk, l, hf, hns⟩ := h
  exact ⟨hk, l, hf, .comment hns⟩

theorem body (h : f.Formed o n m) : Pattern.Formed o .alternatives (f.kind.after n) (f.body o.ignoreCase) m := by
  obtain ⟨_, l, hf, hns⟩ := h
  exact alternatives_formed hf (.last (sequence_formed hns (.empty m) rfl))

theorem addGroup (h : f.Formed o n k) {inner : Frame} (hi : inner.Formed o k m) :
    (f.addGroup inner o.ignoreCase).Formed o n m := by
  have hbody := hi.body
  rw [Frame.addGroup]
  split
  · next g hg =>
    obtain rfl := hi.kind g hg
    rw [hg] at hbody
    exact h.item (.capture hbody)
  · next hg =>
    rw [hg] at hbody
    exact h.item (.plain hbody)
  · next negated hg =>
    rw [hg] at hbody
    exact h.part (.look negated hbody)

theorem repeatLast (h : f.Formed o n m) (hr : f.repeatable = true) (b : Bounds) (greedy : Bool)
    (hb : InOrder b.min b.max) (hmin : b.min ≤ greatestBound) (hmax : ∀ k ∈ b.max, k ≤ greatestBound) :
    (f.repeatLast o.ignoreCase b.min b.max greedy).Formed o n m := by
  obtain ⟨kind, opened, finished, nodes, repeatable⟩ := f
  obtain ⟨hk, k, hf, hns⟩ := h
  cases hr
  cases hns with
  | char c hns => exact ⟨hk, k, hf, .item hns (.repeated b greedy hb hmin hmax (.char _ c))⟩
  | item hns hp => exact ⟨hk, k, hf, .item hns (.repeated b greedy hb hmin hmax (.operand hp))⟩

end Formed

end Frame

inductive FramesFormed (o : Options) : List Frame → Nat → Prop where
  | outermost {m : Nat} {f : Frame} (hk : f.kind = .capturing 0) (h : f.Formed o 0 m) : FramesFormed o [f] m
  | inner {n m : Nat} {f : Frame} {fs : List Frame} (hfs : FramesFormed o fs n) (h : f.Formed o n m) :
      FramesFormed o (f :: fs) m

namespace Progress

variable {o : Options} {p p' : Progress}

def Formed (o : Options) (p : Progress) : Prop := FramesFormed o (p.frame :: p.outer) p.groups

theorem Formed.update (hp : p.Formed o) {f : Frame} (hk : f.kind = p.frame.kind)
    (hf : ∀ n, p.frame.Formed o n p.groups → f.Formed o n p.groups) : FramesFormed o (f :: p.outer) p.groups := by
  obtain ⟨rest, groups, frame, outer⟩ := p
  cases hp with
  | outermost hz h => exact .outermost (hk.trans hz) (hf 0 h)
  | inner hfs h => exact .inner hfs (hf _ h)

theorem Formed.move (hp : p.Formed o) (h : p.Move o p') : p'.Formed o := by
  cases h with
  | char rest c => exact hp.update rfl fun _ hf => hf.char c
  | test rest t ht => exact hp.update rfl fun _ hf => hf.item (.atom ht)
  | assert rest t ht => exact hp.update rfl fun _ hf => hf.part (.assertion _ ht)
  | bar rest => exact hp.update rfl fun _ hf => hf.nextAlternative
  | group rest => exact .inner hp (.begin (fun g hg => by cases hg) _)
  | look rest negated => exact .inner hp (.begin (fun g hg => by cases hg) _)
  | capture rest =>
    refine .inner hp (.begin ?_ p.rest)
    intro g hg
    cases hg
    rfl
  | comment rest => exact hp.update rfl fun _ hf => hf.comment
  | close rest hout =>
    obtain ⟨rest', groups, frame, outer⟩ := p
    cases hout
    cases hp with
    | inner hfs h =>
      cases hfs with
      | outermost hz hf => exact .outermost ((Frame.kind_addGroup _ _ _).trans hz) (hf.addGroup h)
      | inner hfs hf => exact .inner hfs (hf.addGroup h)
  | repetition rest b greedy hr hb hmin hmax =>
    exact hp.update (Frame.kind_repeatLast _ _ _ _ _) fun _ hf => hf.repeatLast hr b greedy hb hmin hmax

end Progress

section Compile

variable {d : Dialect} {o : Options} {pattern : List Char} {body : Pattern} {groups : Nat}

theorem compile_formed (h : compile d o pattern = .ok (body, groups)) : body.Formed o .alternatives 1 groups := by
  have hstart : (Progress.start pattern).Formed o := by
    refine .outermost rfl (.begin ?_ pattern)
    intro g hg
    cases hg
    rfl
  obtain ⟨q, hq, houter, rfl, rfl⟩ := compile_induction (I := Progress.Formed o) Progress.Formed.move hstart h
  rw [Progress.Formed, houter] at hq
  cases hq with
  | outermost hz hf =>
    have hbody := hf.body
    rwa [hz] at hbody
  | inner hfs => cases hfs

theorem compile_inOrder (h : compile d o pattern = .ok (body, groups)) : body.EveryRepeat InOrder :=
  (compile_formed h).everyRepeat fun _ _ horder _ _ => horder

theorem compile_lower (h : compile d o pattern = .ok (body, groups)) :
    body.EveryRepeat fun lo _ => lo ≤ greatestBound :=
  (compile_formed h).everyRepeat fun _ _ _ hlo _ => hlo

theorem compile_numbers (h : compile d o pattern = .ok (body, groups)) :
    (0 :: body.numbers).Perm (List.range groups) := by
  obtain ⟨k, rfl, hnumbers⟩ := (compile_formed h).numbers_eq
  rw [hnumbers, List.range_eq_range', Nat.add_comm, List.range'_succ]

end Compile

end DialectRegex
