import DialectRegex.Program.Parser
import DialectRegex.Proofs.Program.Layout

namespace DialectRegex

namespace Pattern

theorem hasBackref_before (p q : Pattern) : (p.before q).hasBackref = (p.hasBackref || q.hasBackref) := by
  cases q with
  | empty => exact (Bool.or_false p.hasBackref).symm
  | _ => rfl

def Single (p : Pattern) : Prop :=
  ∀ ts, p.layout.alternatives ts = ([(p.layout.sequence ts).1], (p.layout.sequence ts).2)

theorem single_literal {fold : Bool} {run : List Char} {rest : Pattern} (h : rest.Single) :
    (Node.literal fold run rest).Single := by
  rw [Node.literal]
  split
  · exact h
  · exact alternatives_before rfl rest

end Pattern

namespace Piece

def kind? : Piece → Option TokenKind
  | char _ => none
  | token k => some k
  | assertion k => some k

def isAssertion : Piece → Bool
  | assertion _ => true
  | _ => false

/-- The piece of a node, whose layout leads from one list of tokens to another. The second of each pair tells whether
there are backreferences. -/
inductive Stands : Node → Piece → List Token × Bool → List Token × Bool → Prop where
  | char (c : Char) (a : List Token × Bool) : Stands (.char c) (.char c) a a
  | piece {q : Pattern} {x : Piece} (ts : List Token) (b : Bool) (hq : q.layout = .ofKind q.layout.kind)
      (hx : x.kind? = some (q.layout.kind ts).1) :
      Stands (.piece q) x (ts, b) ((q.layout.kind ts).2, b || q.hasBackref)

inductive Holds (base : List Token × Bool) : List Node → List Piece → List Token × Bool → Prop where
  | nil : Holds base [] [] base
  | snoc {n : Node} {ns : List Node} {x : Piece} {xs : List Piece} {a a' : List Token × Bool}
      (h : Holds base ns xs a) (hx : Stands n x a a') : Holds base (n :: ns) (xs ++ [x]) a'

section Kinds

variable {fold : Bool} {x : Piece} {k : TokenKind}

theorem kinds_append (hx : x.kind? = some k) (xs ys : List Piece) (run : List Char) :
    kinds fold run (xs ++ x :: ys) = kinds fold run xs ++ k :: kinds fold [] ys := by
  induction xs generalizing run with
  | nil => cases x <;> cases hx <;> rfl
  | cons y xs ih =>
    cases y with
    | char c => exact ih _
    | token k' | assertion k' => simp only [List.cons_append, kinds, ih, List.append_assoc]

theorem kinds_chars (run run' : List Char) :
    kinds fold run (run'.map char) = kinds fold (run ++ run') [] := by
  induction run' generalizing run with
  | nil => rw [List.append_nil, List.map_nil]
  | cons c run' ih =>
    refine (ih (run ++ [c])).trans ?_
    rw [List.append_assoc, List.singleton_append]

end Kinds

section Chains

variable {fold : Bool} {base a a' : List Token × Bool} {n : Node} {ns : List Node} {x : Piece} {xs : List Piece}
  {run : List Char} {l : List TokenKind} {rest : Pattern} {ts : List Token}

theorem Holds.isEmpty_eq (h : Holds base ns xs a) : xs.isEmpty = ns.isEmpty := by
  cases h with
  | nil => rfl
  | snoc => exact List.isEmpty_eq_false_iff.mpr (List.append_ne_nil_of_right_ne_nil _ (List.cons_ne_nil _ _))

theorem sequence_literal (ht : rest.layout.sequence ts = link l a.1) :
    (Node.literal fold run rest).layout.sequence ts = link (kinds fold [] (run.map char) ++ l) a.1 := by
  rw [kinds_chars, List.nil_append, Node.literal, kinds]
  split
  · exact ht
  · rw [Pattern.sequence_before rfl]
    change pushToken (rest.layout.sequence ts).2 ⟨_, (rest.layout.sequence ts).1⟩ = _
    rw [ht]
    rfl

theorem Holds.sequence_eq (h : Holds base ns xs a) (ht : rest.layout.sequence a.1 = link l a'.1) :
    (Node.sequence fold run rest ns).layout.sequence base.1 = link (kinds fold [] (xs ++ run.map char) ++ l) a'.1 := by
  induction h generalizing run rest l with
  | nil => exact sequence_literal ht
  | @snoc n ns x xs a a₁ h hx ih =>
    cases hx with
    | char c a =>
      rw [Node.sequence, ih ht, List.append_assoc]
      rfl
    | @piece q x ts b hq hx =>
      rw [Node.sequence, ih (l := (q.layout.kind ts).1 :: (kinds fold [] (run.map char) ++ l))]
      · rw [List.map_nil, List.append_nil, List.append_assoc, List.singleton_append, kinds_append hx, List.append_assoc,
          List.cons_append]
      · rw [Pattern.sequence_before hq]
        change pushToken ((Node.literal fold run rest).layout.sequence (q.layout.kind ts).2).2
          ⟨_, ((Node.literal fold run rest).layout.sequence (q.layout.kind ts).2).1⟩ = _
        rw [sequence_literal ht]
        rfl

theorem Holds.chain_eq (h : Holds base ns xs a) :
    (Node.sequence fold [] .empty ns).layout.sequence base.1 = link (kinds fold [] xs) a.1 := by
  have hempty : Pattern.empty.layout.sequence a.1 = link [] a.1 := rfl
  rw [h.sequence_eq hempty, List.map_nil, List.append_nil, List.append_nil]

theorem Holds.single (h : Holds base ns xs a) (hr : rest.Single) : (Node.sequence fold run rest ns).Single := by
  induction h generalizing run rest with
  | nil => exact Pattern.single_literal hr
  | snoc _ hx ih =>
    cases hx with
    | char => exact ih hr
    | piece _ _ hq => exact ih (Pattern.alternatives_before hq _)

theorem hasBackref_literal : (Node.literal fold run rest).hasBackref = rest.hasBackref := by
  rw [Node.literal]
  split
  · rfl
  · exact Pattern.hasBackref_before _ rest

theorem Holds.hasBackref_eq (h : Holds base ns xs a) :
    (base.2 || (Node.sequence fold run rest ns).hasBackref) = (a.2 || rest.hasBackref) := by
  induction h generalizing run rest with
  | nil => rw [Node.sequence, hasBackref_literal]
  | snoc _ hx ih =>
    cases hx with
    | char => exact ih
    | piece =>
      rw [Node.sequence, ih, Pattern.hasBackref_before, hasBackref_literal, Bool.or_assoc]

theorem Stands.repeated (h : Stands n x a a') (lo : Nat) (hi : Option Nat) (greedy : Bool) :
    Stands (.piece (.repeated (n.toPattern fold) lo hi greedy))
      (.token (.repeated (link (kinds fold [] [x]) a'.1).1 lo hi greedy)) a
      ((link (kinds fold [] [x]) a'.1).2, a'.2) := by
  have hstands (q : Pattern) (ts : List Token) (b : Bool) (i : Nat × List Token) (hi' : q.layout.sequence ts = i) :
      Stands (.piece (.repeated q lo hi greedy)) (.token (.repeated i.1 lo hi greedy)) (ts, b)
        (i.2, b || q.hasBackref) := by
    subst hi'
    exact .piece ts b rfl rfl
  cases h with
  | char c a =>
    have hchar := hstands (.test (.literal [c] fold)) a.1 a.2 _ rfl
    have hnone : (Pattern.test (.literal [c] fold)).hasBackref = false := rfl
    rwa [hnone, Bool.or_false] at hchar
  | @piece q x ts b hq hx =>
    have hone : kinds fold [] [x] = [(q.layout.kind ts).1] := kinds_append hx [] [] []
    rw [hone]
    exact hstands q ts b _ (Pattern.sequence_before hq .empty ts)

end Chains

section Alternatives

inductive Gathers (base : List Token × Bool) : List Pattern → List Nat → List Token × Bool → Prop where
  | nil : Gathers base [] [] base
  | snoc {q : Pattern} {qs : List Pattern} {is : List Nat} {a : List Token × Bool} (h : Gathers base qs is a) :
      Gathers base (q :: qs) (is ++ [(q.layout.sequence a.1).1]) ((q.layout.sequence a.1).2, a.2 || q.hasBackref)

variable {base a : List Token × Bool} {qs : List Pattern} {is : List Nat}

theorem Gathers.alternatives_eq (h : Gathers base qs is a) (q : Pattern) :
    (qs.foldl (fun rest p => .alt p rest) q).layout.alternatives base.1 =
      (is ++ (q.layout.alternatives a.1).1, (q.layout.alternatives a.1).2) := by
  induction h generalizing q with
  | nil => rfl
  | snoc _ ih =>
    rw [List.foldl_cons, ih, List.append_assoc]
    rfl

theorem Gathers.hasBackref_eq (h : Gathers base qs is a) (q : Pattern) :
    (base.2 || (qs.foldl (fun rest p => .alt p rest) q).hasBackref) = (a.2 || q.hasBackref) := by
  induction h generalizing q with
  | nil => rfl
  | snoc _ ih => rw [List.foldl_cons, ih, Pattern.hasBackref, Bool.or_assoc]

section Group

variable {body : Pattern} {ts ts' : List Token}

theorem stands_group (h : body.layout.alternatives ts = (is, ts')) (g : Option Nat) (b : Bool) :
    Stands (.piece (.group g body)) (.token (.group g is)) (ts, b) (ts', b || body.hasBackref) := by
  have hkind : (Pattern.group g body).layout.kind ts = (.group g is, ts') := by
    change (TokenKind.group g (body.layout.alternatives ts).1, (body.layout.alternatives ts).2) = _
    rw [h]
  have hstands := Stands.piece (q := .group g body) (x := .token (.group g is)) ts b rfl (by rw [hkind]; rfl)
  rwa [hkind] at hstands

theorem stands_look (h : body.layout.alternatives ts = (is, ts')) (negated b : Bool) :
    Stands (.piece (.look negated body)) (.assertion (.look negated ts'.length)) (ts, b)
      (ts' ++ [⟨.group none is, 0⟩], b || body.hasBackref) := by
  have hkind : (Pattern.look negated body).layout.kind ts =
      (.look negated ts'.length, ts' ++ [⟨.group none is, 0⟩]) := by
    change (TokenKind.look negated (body.layout.alternatives ts).2.length,
      (body.layout.alternatives ts).2 ++ [⟨.group none (body.layout.alternatives ts).1, 0⟩]) = _
    rw [h]
  have hstands := Stands.piece (q := .look negated body) (x := .assertion (.look negated ts'.length)) ts b rfl
    (by rw [hkind]; rfl)
  rwa [hkind] at hstands

end Group

end Alternatives

end Piece

end DialectRegex
