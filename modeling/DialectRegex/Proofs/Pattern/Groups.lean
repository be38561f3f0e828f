import DialectRegex.Pattern.Basic

namespace DialectRegex.Pattern

def groups : Pattern → List (Nat × Pattern)
  | empty => []
  | test _ => []
  | seq p q => p.groups ++ q.groups
  | alt p q => p.groups ++ q.groups
  | group none p => p.groups
  | group (some g) p => (g, p) :: p.groups
  | repeated p _ _ _ => p.groups
  | look _ p => p.groups

def numbers (p : Pattern) : List Nat := p.groups.map (·.1)

@[simp] theorem numbers_empty : empty.numbers = [] := rfl

@[simp] theorem numbers_test (t : Test) : (test t).numbers = [] := rfl

@[simp] theorem numbers_seq (p q : Pattern) : (seq p q).numbers = p.numbers ++ q.numbers := List.map_append

@[simp] theorem numbers_alt (p q : Pattern) : (alt p q).numbers = p.numbers ++ q.numbers := List.map_append

@[simp] theorem numbers_group (g : Option Nat) (p : Pattern) : (group g p).numbers = g.toList ++ p.numbers := by
  cases g <;> rfl

@[simp] theorem numbers_repeated (p : Pattern) (min : Nat) (max : Option Nat) (greedy : Bool) :
    (repeated p min max greedy).numbers = p.numbers := rfl

@[simp] theorem numbers_look (negated : Bool) (p : Pattern) : (look negated p).numbers = p.numbers := rfl

theorem mem_numbers {p : Pattern} {g : Nat} : g ∈ p.numbers ↔ ∃ q, (g, q) ∈ p.groups := by
  simp [numbers]

def WellNested : Pattern → Prop
  | empty => True
  | test _ => True
  | seq p q => p.WellNested ∧ q.WellNested
  | alt p q => p.WellNested ∧ q.WellNested
  | group g p => (∀ n ∈ g, n ∉ p.numbers) ∧ p.WellNested
  | repeated p _ _ _ => p.WellNested
  | look _ p => p.WellNested

theorem wellNested_of_nodup {p : Pattern} (h : p.numbers.Nodup) : p.WellNested := by
  induction p with
  | empty => exact trivial
  | test t => exact trivial
  | seq p q hp hq =>
    obtain ⟨h₁, h₂, _⟩ := List.nodup_append.mp (numbers_seq p q ▸ h)
    exact ⟨hp h₁, hq h₂⟩
  | alt p q hp hq =>
    obtain ⟨h₁, h₂, _⟩ := List.nodup_append.mp (numbers_alt p q ▸ h)
    exact ⟨hp h₁, hq h₂⟩
  | group g p hp =>
    obtain ⟨_, h₂, h₃⟩ := List.nodup_append.mp (numbers_group g p ▸ h)
    refine ⟨?_, hp h₂⟩
    intro n hn hmem
    exact h₃ n (Option.mem_toList.mpr hn) n hmem rfl
  | repeated p min max greedy hp => exact hp h
  | look negated p hp => exact hp h

end DialectRegex.Pattern
