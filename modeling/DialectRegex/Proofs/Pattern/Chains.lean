import DialectRegex.Pattern.Basic

namespace DialectRegex.Pattern

def alternatives : Pattern → List Pattern
  | alt p q => p :: q.alternatives
  | p => [p]

def chain : Pattern → List Pattern
  | empty => []
  | seq p q => p :: q.chain
  | p => [p]

def bodies : Pattern → List Pattern
  | empty => []
  | test _ => []
  | seq p q => p.bodies ++ q.bodies
  | alt p q => p.bodies ++ q.bodies
  | group _ p => p :: p.bodies
  | repeated p _ _ _ => p.bodies
  | look _ p => p :: p.bodies

theorem chain_before {p : Pattern} (hp : p.chain = [p]) (q : Pattern) : (p.before q).chain = p :: q.chain := by
  cases q with
  | empty => exact hp
  | _ => rfl

theorem single_before {p : Pattern} (hp : p.alternatives = [p]) (q : Pattern) :
    (p.before q).alternatives = [p.before q] := by
  cases q with
  | empty => exact hp
  | _ => rfl

theorem bodies_before (p q : Pattern) : (p.before q).bodies = p.bodies ++ q.bodies := by
  cases q with
  | empty => exact (List.append_nil p.bodies).symm
  | _ => rfl

theorem alternatives_foldl (ps : List Pattern) (q : Pattern) :
    (ps.foldl (fun rest p => alt p rest) q).alternatives = ps.reverse ++ q.alternatives := by
  induction ps generalizing q with
  | nil => rfl
  | cons p ps ih => rw [List.foldl_cons, ih, alternatives, List.reverse_cons, List.append_assoc, List.singleton_append]

theorem bodies_foldl (ps : List Pattern) (q : Pattern) :
    (ps.foldl (fun rest p => alt p rest) q).bodies = ps.reverse.flatMap bodies ++ q.bodies := by
  induction ps generalizing q with
  | nil => rfl
  | cons p ps ih => rw [List.foldl_cons, ih, bodies, List.reverse_cons, List.flatMap_append, List.flatMap_singleton,
      List.append_assoc]

end DialectRegex.Pattern
