import DialectRegex.Proofs.Grammar.Spelling
import DialectRegex.Proofs.Pattern.Reread

namespace DialectRegex

open Dialect Pattern

def Pattern.Spelled (o : Options) : Pattern → Prop
  | empty => True
  | test t => t.Spelled o
  | seq p q => p.Spelled o ∧ q.Spelled o
  | alt p q => p.Spelled o ∧ q.Spelled o
  | group _ p => p.Spelled o
  | repeated p _ _ _ => p.Spelled o
  | look _ p => p.Spelled o

theorem render_before (p q : Pattern) : (p.before q).render = p.render ++ q.render := by
  cases q with
  | empty => exact (List.append_nil p.render).symm
  | _ => rfl

theorem reread_before (p q : Pattern) : (p.before q).reread = p.reread.before q.reread := by
  cases q <;> rfl

theorem spelled_before {o : Options} {p q : Pattern} : (p.before q).Spelled o ↔ p.Spelled o ∧ q.Spelled o := by
  cases q with
  | empty => exact (and_iff_left trivial).symm
  | _ => exact Iff.rfl

def Unmarked (cs : List Char) : Prop := cs.head? ≠ some '?'

theorem unmarked_cons {c : Char} (hc : c ≠ '?') (cs : List Char) : Unmarked (c :: cs) := fun h =>
  hc (Option.some.inj h)

theorem unmarked_renderLiteral (c : Char) (cs : List Char) : Unmarked (renderLiteral c ++ cs) := by
  rw [renderLiteral]
  split
  · exact unmarked_cons (by decide) _
  · next hc =>
    rcases renderControl_cases c with h | ⟨l, h, _⟩
    · rw [h]
      exact unmarked_cons (by rintro rfl; exact hc (by decide)) cs
    · rw [h]
      exact unmarked_cons (by decide) _

theorem unmarked_atom {o : Options} {n : Nat} {t : Test} (ht : t.Atom o n) (cs : List Char) :
    Unmarked (t.render ++ cs) := by
  cases ht with
  | any => exact unmarked_cons (by decide) _
  | named negated hk =>
    rcases escape?_cases hk with rfl | rfl | rfl <;> cases negated <;> exact unmarked_cons (by decide) _
  | set => exact unmarked_cons (by decide) _
  | backref => exact unmarked_cons (by decide) _

theorem unmarked_assertion {o : Options} {t : Test} (ht : t.Assertion o) (cs : List Char) :
    Unmarked (t.render ++ cs) := by
  cases ht with
  | anchor e => cases e <;> exact unmarked_cons (by decide) _
  | boundary b => cases b <;> exact unmarked_cons (by decide) _

def Place.isElement : Place → Bool
  | sequence => false
  | alternatives => false
  | _ => true

theorem Pattern.Formed.unmarked {o : Options} {place : Place} {n m : Nat} {p : Pattern} (h : Formed o place n p m)
    {rest : List Char} (hr : place.isElement = true ∨ Unmarked rest) : Unmarked (p.render ++ rest) := by
  induction h generalizing rest with
  | atom ht => exact unmarked_atom ht rest
  | capture _ _ => exact unmarked_cons (by decide) _
  | plain _ _ => exact unmarked_cons (by decide) _
  | @repeated _ _ p b greedy _ _ _ _ ih =>
    rw [render]
    split
    · rw [List.append_assoc, List.append_assoc]
      exact ih (.inl rfl)
    · exact unmarked_cons (by decide) _
  | char _ c =>
    rw [render, Test.render, List.flatMap_singleton]
    exact unmarked_renderLiteral c rest
  | operand _ ih => exact ih (.inl rfl)
  | part _ ih => exact ih (.inl rfl)
  | assertion _ ht => exact unmarked_assertion ht rest
  | look negated _ _ => cases negated <;> exact unmarked_cons (by decide) _
  | empty => exact hr.resolve_left Bool.false_ne_true
  | before _ _ hp _ =>
    rw [render_before, List.append_assoc]
    exact hp (.inl rfl)
  | @literal _ _ cs q hcs _ _ ih =>
    rw [render_before, List.append_assoc]
    cases cs with
    | nil => exact absurd rfl hcs
    | cons c cs =>
      rw [render, Test.render, List.flatMap_cons, List.append_assoc]
      exact unmarked_renderLiteral c _
  | last _ ih => exact ih hr
  | alt _ _ hp _ =>
    rw [render, List.append_assoc]
    exact hp (.inr (unmarked_cons (by decide) _))

section Nodes

variable (fold : Bool)

theorem sequence_piece (run : List Char) (rest : Pattern) (ns ms : List Node) (p : Pattern) :
    Node.sequence fold run rest (ns ++ .piece p :: ms) =
      Node.sequence fold [] (p.before (Node.sequence fold run rest ns)) ms := by
  induction ns generalizing run rest with
  | nil => rfl
  | cons n ns ih =>
    cases n with
    | char c => exact ih (c :: run) rest
    | piece q => exact ih [] (q.before (Node.literal fold run rest))

theorem sequence_chars (run : List Char) (rest : Pattern) (cs : List Char) :
    Node.sequence fold run rest (cs.map Node.char) = Node.literal fold (cs.reverse ++ run) rest := by
  induction cs generalizing run with
  | nil => rfl
  | cons c cs ih =>
    rw [List.reverse_cons, List.append_assoc]
    exact ih (c :: run)

def sequenceOf (ns : List Node) : Pattern := Node.sequence fold [] .empty ns.reverse

theorem sequenceOf_piece (p : Pattern) (ns : List Node) :
    sequenceOf fold (.piece p :: ns) = p.before (sequenceOf fold ns) := by
  rw [sequenceOf, List.reverse_cons, sequence_piece]
  rfl

theorem sequenceOf_chars {cs : List Char} (hcs : cs ≠ []) {ns : List Node} (hns : ∀ c ms, ns ≠ .char c :: ms) :
    sequenceOf fold (cs.map Node.char ++ ns) = (Pattern.test (.literal cs fold)).before (sequenceOf fold ns) := by
  have hliteral (rest : Pattern) :
      Node.sequence fold [] rest (cs.map Node.char).reverse = (Pattern.test (.literal cs fold)).before rest := by
    rw [← List.map_reverse, sequence_chars, List.reverse_reverse, List.append_nil, Node.literal,
      if_neg (by simpa using hcs)]
  rw [sequenceOf, List.reverse_append]
  cases ns with
  | nil => exact hliteral .empty
  | cons n ns =>
    cases n with
    | char c => exact absurd rfl (hns c ns)
    | piece p =>
      rw [sequenceOf_piece, List.reverse_cons, List.append_assoc]
      change Node.sequence fold [] .empty (ns.reverse ++ .piece p :: (cs.map Node.char).reverse) = _
      rw [sequence_piece]
      exact hliteral _

end Nodes

section Reading

variable {o : Options} {n k m : Nat} {p q : Pattern}

/-- What is read in each place, if no question mark follows that would belong to it: a node, a part with or without a
place for a repetition operator after it, a list of nodes, or all alternatives of a frame. -/
def Reads (o : Options) : Place → Nat → Pattern → Nat → Prop
  | .item, n, p, m => ∀ f outer rest, p.isSingle = true ∨ Unmarked rest →
      perl5.finish o ⟨p.render ++ rest, n, f, outer⟩ = perl5.finish o ⟨rest, m, f.push (.piece p.reread), outer⟩
  | .operand, n, p, m => ∃ node : Node, node.toPattern o.ignoreCase = p.reread ∧
      ∀ f outer rest, p.isSingle = true ∨ Unmarked rest →
        perl5.finish o ⟨p.render ++ rest, n, f, outer⟩ = perl5.finish o ⟨rest, m, f.push node, outer⟩
  | .part, n, p, m => ∃ b, ∀ f outer rest, Unmarked rest →
      perl5.finish o ⟨p.render ++ rest, n, f, outer⟩ =
        perl5.finish o ⟨rest, m, { f with nodes := .piece p.reread :: f.nodes, repeatable := b }, outer⟩
  | .sequence, n, p, m => ∃ ns : List Node, sequenceOf o.ignoreCase ns = p.reread ∧
      (p.startsLiteral = false → ∀ c ms, ns ≠ .char c :: ms) ∧ ∀ f outer rest, Unmarked rest → ∃ b,
        perl5.finish o ⟨p.render ++ rest, n, f, outer⟩ =
          perl5.finish o ⟨rest, m, { f with nodes := ns.reverse ++ f.nodes, repeatable := b }, outer⟩
  | .alternatives, n, p, m => ∀ f outer rest, f.nodes = [] → Unmarked rest → ∃ f' : Frame, f'.kind = f.kind ∧
      f'.body o.ignoreCase = f.finished.foldl (fun rest p => .alt p rest) p.reread ∧
        perl5.finish o ⟨p.render ++ rest, n, f, outer⟩ = perl5.finish o ⟨rest, m, f', outer⟩

theorem Reads.inside (h : Reads o .alternatives n p m) (kind : GroupKind) (opened rest : List Char) (f : Frame)
    (outer : List Frame) : ∃ inner : Frame, inner.kind = kind ∧ inner.body o.ignoreCase = p.reread ∧
      perl5.finish o ⟨p.render ++ ')' :: rest, n, .begin kind opened, f :: outer⟩ =
        perl5.finish o ⟨rest, m, f.addGroup inner o.ignoreCase, outer⟩ := by
  obtain ⟨inner, hkind, hbody, hread⟩ :=
    h (.begin kind opened) (f :: outer) (')' :: rest) rfl (unmarked_cons (by decide) rest)
  exact ⟨inner, hkind, hbody, hread.trans (finish_close rest m inner f outer)⟩

theorem Reads.capture (h : Reads o .alternatives (n + 1) p m)
    (hp : ∀ rest, Unmarked rest → Unmarked (p.render ++ rest)) : Reads o .item n (.group (some n) p) m := by
  intro f outer rest _
  have hmark : Unmarked (p.render ++ ')' :: rest) := hp _ (unmarked_cons (by decide) rest)
  let whole : List Char := '(' :: (p.render ++ ')' :: rest)
  obtain ⟨inner, hkind, hbody, hread⟩ := h.inside (.capturing n) whole rest f outer
  have hadd : f.addGroup inner o.ignoreCase = f.push (.piece (Pattern.group (some n) p).reread) := by
    rw [Frame.addGroup, hkind, hbody]
    rfl
  have hrender : (Pattern.group (some n) p).render ++ rest = whole := by simp [render, whole]
  rw [hrender, ← hadd, ← hread]
  apply finish_cons rfl
  have hopen : perl5.operator? whole = some (.groupOpen, 1) := rfl
  rw [step, hopen]
  exact openGroup_capture fun l hl => hmark (congrArg List.head? hl)

theorem Reads.plain (h : Reads o .alternatives n p m) : Reads o .item n (.group none p) m := by
  intro f outer rest _
  let whole : List Char := '(' :: '?' :: ':' :: (p.render ++ ')' :: rest)
  obtain ⟨inner, hkind, hbody, hread⟩ := h.inside .plain whole rest f outer
  have hadd : f.addGroup inner o.ignoreCase = f.push (.piece (Pattern.group none p).reread) := by
    rw [Frame.addGroup, hkind, hbody]
    rfl
  have hrender : (Pattern.group none p).render ++ rest = whole := by simp [render, whole]
  rw [hrender, ← hadd, ← hread]
  exact finish_cons rfl rfl

theorem Reads.look (h : Reads o .alternatives n p m) (negated : Bool) : Reads o .part n (.look negated p) m := by
  refine ⟨false, ?_⟩
  intro f outer rest _
  let whole : List Char := '(' :: '?' :: (if negated then '!' else '=') :: (p.render ++ ')' :: rest)
  obtain ⟨inner, hkind, hbody, hread⟩ := h.inside (.look negated) whole rest f outer
  have hadd : f.addGroup inner o.ignoreCase = f.assert (Pattern.look negated p).reread := by
    rw [Frame.addGroup, hkind, hbody]
    rfl
  have hrender : (Pattern.look negated p).render ++ rest = whole := by cases negated <;> simp [render, whole]
  rw [hrender]
  refine Eq.trans ?_ (hread.trans (congrArg (fun f => perl5.finish o ⟨rest, m, f, outer⟩) hadd))
  cases negated <;> exact finish_cons rfl rfl

theorem Reads.operand_alone (h : Reads o .operand n p m) : Reads o .alternatives n p m := by
  obtain ⟨node, hnode, h⟩ := h
  intro f outer rest hf hrest
  refine ⟨f.push node, rfl, ?_, h f outer rest (.inr hrest)⟩
  have hseq : Node.sequence o.ignoreCase [] .empty [node] = node.toPattern o.ignoreCase := by cases node <;> rfl
  rw [Frame.body, Frame.sequence, ← hnode, ← hseq, ← hf]
  rfl

theorem Reads.repeated (h : Reads o .operand n p m) {lo : Nat} {hi : Option Nat} (hb : InOrder lo hi)
    (hlo : lo ≤ greatestBound) (hhi : ∀ k ∈ hi, k ≤ greatestBound) (greedy : Bool) :
    Reads o .item n (.repeated p lo hi greedy) m := by
  intro f outer rest hrest
  have hmark : greedy = true → Unmarked rest := fun _ => hrest.resolve_left Bool.false_ne_true
  have htimes (node : Node) :
      perl5.finish o ⟨renderBounds lo hi ++ (if greedy then [] else ['?']) ++ rest, m, f.push node, outer⟩ =
        perl5.finish o ⟨rest, m, (f.push node).repeatLast o.ignoreCase lo hi greedy, outer⟩ :=
    finish_repeated hb hlo hhi greedy rfl hmark
  rw [render, reread, List.append_assoc, List.append_assoc, ← List.append_assoc (renderBounds lo hi)]
  by_cases hs : p.isSingle = true
  · obtain ⟨node, hnode, hread⟩ := h
    rw [if_pos hs, if_pos hs, hread f outer _ (.inl hs), htimes, ← hnode]
    rfl
  · rw [if_neg hs, if_neg hs]
    exact (h.operand_alone.plain f outer _ (.inl rfl)).trans (htimes _)

theorem Reads.before (hp : Reads o .part n p k) (hq : Reads o .sequence k q m) (hf : Formed o .sequence k q m) :
    Reads o .sequence n (p.before q) m := by
  obtain ⟨b, hp⟩ := hp
  obtain ⟨ns, hns, _, hq⟩ := hq
  refine ⟨.piece p.reread :: ns, ?_, ?_, ?_⟩
  · rw [sequenceOf_piece, hns, reread_before]
  · rintro _ _ _ ⟨⟩
  · intro f outer rest hrest
    obtain ⟨b', hread⟩ := hq { f with nodes := .piece p.reread :: f.nodes, repeatable := b } outer rest hrest
    refine ⟨b', ?_⟩
    rw [render_before, List.append_assoc, hp f outer _ (hf.unmarked (.inr hrest)), hread, List.reverse_cons,
      List.append_assoc]
    rfl

theorem Reads.literal {cs : List Char} (hcs : cs ≠ []) (hq : Reads o .sequence n q m) (hf : Formed o .sequence n q m)
    (hl : q.startsLiteral = false) : Reads o .sequence n ((Pattern.test (.literal cs o.ignoreCase)).before q) m := by
  obtain ⟨ns, hns, hstart, hq⟩ := hq
  refine ⟨cs.map .char ++ ns, ?_, ?_, ?_⟩
  · rw [sequenceOf_chars _ hcs (hstart hl), hns, reread_before]
    rfl
  · intro hfalse
    cases q <;> cases hfalse
  · intro f outer rest hrest
    obtain ⟨b, hread⟩ := finish_chars o n f outer cs (q.render ++ rest)
    obtain ⟨b', hread'⟩ :=
      hq { f with nodes := (cs.map Node.char).reverse ++ f.nodes, repeatable := b } outer rest hrest
    refine ⟨b', ?_⟩
    rw [render_before, List.append_assoc]
    refine hread.trans (hread'.trans ?_)
    rw [List.reverse_append, List.append_assoc]

theorem Reads.last (h : Reads o .sequence n p m) : Reads o .alternatives n p m := by
  obtain ⟨ns, hns, _, h⟩ := h
  intro f outer rest hf hrest
  obtain ⟨b, hread⟩ := h f outer rest hrest
  refine ⟨{ f with nodes := ns.reverse ++ f.nodes, repeatable := b }, rfl, ?_, hread⟩
  rw [Frame.body, Frame.sequence, hf, List.append_nil, ← hns]
  rfl

theorem Reads.alt (hp : Reads o .sequence n p k) (hq : Reads o .alternatives k q m) :
    Reads o .alternatives n (.alt p q) m := by
  obtain ⟨ns, hns, _, hp⟩ := hp
  intro f outer rest hf hrest
  obtain ⟨b, hread⟩ := hp f outer ('|' :: (q.render ++ rest)) (unmarked_cons (by decide) _)
  rw [hf, List.append_nil] at hread
  obtain ⟨f', hkind, hbody, hread'⟩ := hq ⟨f.kind, f.opened, p.reread :: f.finished, [], false⟩ outer rest rfl hrest
  refine ⟨f', hkind, hbody, ?_⟩
  have hbar : perl5.finish o ⟨'|' :: (q.render ++ rest), k, { f with nodes := ns.reverse, repeatable := b }, outer⟩ =
      perl5.finish o ⟨q.render ++ rest, k, ⟨f.kind, f.opened, p.reread :: f.finished, [], false⟩, outer⟩ := by
    rw [← hns]
    exact finish_cons rfl rfl
  rw [render, List.append_assoc]
  exact hread.trans (hbar.trans hread')

theorem Pattern.Formed.reads {place : Place} (h : Formed o place n p m) (hs : p.Spelled o) (hm : o.multiline = false) :
    Reads o place n p m := by
  induction h with
  | atom ht => exact fun f outer rest _ => finish_atom ht hs rest
  | capture h ih => exact (ih hs).capture fun rest hrest => h.unmarked (.inr hrest)
  | plain _ ih => exact (ih hs).plain
  | repeated b greedy hb hmin hmax _ ih => exact (ih hs).repeated hb hmin hmax greedy
  | char n c =>
    refine ⟨.char c, rfl, ?_⟩
    intro f outer rest _
    rw [render, Test.render, List.flatMap_singleton]
    exact finish_char c rest
  | operand _ ih => exact ⟨.piece _, rfl, ih hs⟩
  | part _ ih => exact ⟨true, fun f outer rest hrest => ih hs f outer rest (.inr hrest)⟩
  | assertion n ht => exact ⟨false, fun f outer rest _ => finish_assertion ht hs hm rest⟩
  | look negated _ ih => exact (ih hs).look negated
  | empty =>
    exact ⟨[], rfl, fun _ c ms => (List.cons_ne_nil (.char c) ms).symm, fun f outer rest _ => ⟨f.repeatable, rfl⟩⟩
  | before _ hq ihp ihq =>
    obtain ⟨hsp, hsq⟩ := spelled_before.mp hs
    exact (ihp hsp).before (ihq hsq) hq
  | literal hcs hq hl ih => exact (ih (spelled_before.mp hs).2).literal hcs hq hl
  | last _ ih => exact (ih hs).last
  | alt _ _ ihp ihq => exact (ihp hs.1).alt (ihq hs.2)

end Reading

end DialectRegex
