import DialectRegex.Matching.Engine
import DialectRegex.Proofs.Repetition.Steps
import Mathlib.Data.List.Forall2

namespace DialectRegex

structure Setting where
  text : List Char
  flags : SearchFlags
  origin : Nat

namespace Setting

variable (c : Setting)

def One (accepts : Char → Bool) (i j : Nat) : Prop := j = i + 1 ∧ ∃ a, c.text[i]? = some a ∧ accepts a = true

def EdgeAt (multiline : Bool) : Edge → Nat → Prop
  | .start, i =>
    c.flags.notBol = false ∧
      ((if c.flags.anchorOrigin then i = c.origin else i = 0 ∧ c.origin = 0) ∨
        multiline = true ∧ 0 < i ∧ c.text[i - 1]? = some '\n')
  | .stop, i => c.flags.notEol = false ∧ c.text.length ≤ i ∨ multiline = true ∧ c.text[i]? = some '\n'

def WordAt (i : Nat) : Prop := ∃ a, c.text[i]? = some a ∧ isWordChar a = true

def BoundaryAt (b : Boundary) (i : Nat) : Prop :=
  let before := 0 < i ∧ c.WordAt (i - 1)
  let after := c.WordAt i
  match b with
  | .either => ¬ (before ↔ after)
  | .neither => before ↔ after
  | .wordStart => ¬ before ∧ after
  | .wordEnd => before ∧ ¬ after

end Setting

def Test.Spans (c : Setting) : Test → Nat → Nat → Prop
  | literal cs fold, i, j =>
    j = i + cs.length ∧ List.Forall₂ (fun a b => sameChar fold a b = true) ((c.text.drop i).take cs.length) cs
  | any newline nul, i, j => c.One (dotAccepts newline nul) i j
  | named k negated fold, i, j => c.One (fun a => k.accepts fold a != negated) i j
  | set s, i, j => c.One s.accepts i j
  | anchor e multiline, i, j => i = j ∧ c.EdgeAt multiline e i
  | boundary b, i, j => i = j ∧ c.BoundaryAt b i
  | backref _ _, _, _ => False

namespace Pattern

def SpansBy (rep : (Nat → Nat → Prop) → Nat → Option Nat → Nat → Nat → Prop) (c : Setting) :
    Pattern → Nat → Nat → Prop
  | empty, i, j => i = j
  | test t, i, j => t.Spans c i j
  | seq p q, i, j => ∃ m, p.SpansBy rep c i m ∧ q.SpansBy rep c m j
  | alt p q, i, j => p.SpansBy rep c i j ∨ q.SpansBy rep c i j
  | group _ p, i, j => p.SpansBy rep c i j
  | repeated p min max _, i, j => rep (p.SpansBy rep c) min max i j
  | look false p, i, j => i = j ∧ ∃ k, p.SpansBy rep c i k
  | look true p, i, j => i = j ∧ ¬ ∃ k, p.SpansBy rep c i k

/-- The language of a pattern: a repetition is any allowed number of rounds. -/
def Spans (c : Setting) (p : Pattern) : Nat → Nat → Prop := p.SpansBy Counted c

/-- What the matcher reaches: a repetition goes level by level. -/
def Reaches (c : Setting) (p : Pattern) : Nat → Nat → Prop := p.SpansBy Levelled c

def hasNegation : Pattern → Bool
  | empty => false
  | test _ => false
  | seq p q => p.hasNegation || q.hasNegation
  | alt p q => p.hasNegation || q.hasNegation
  | group _ p => p.hasNegation
  | repeated p _ _ _ => p.hasNegation
  | look negated p => negated || p.hasNegation

def EveryRepeat (P : Nat → Option Nat → Prop) : Pattern → Prop
  | empty => True
  | test _ => True
  | seq p q => p.EveryRepeat P ∧ q.EveryRepeat P
  | alt p q => p.EveryRepeat P ∧ q.EveryRepeat P
  | group _ p => p.EveryRepeat P
  | repeated p min max _ => P min max ∧ p.EveryRepeat P
  | look _ p => p.EveryRepeat P

def EveryTest (Q : Test → Prop) : Pattern → Prop
  | empty => True
  | test t => Q t
  | seq p q => p.EveryTest Q ∧ q.EveryTest Q
  | alt p q => p.EveryTest Q ∧ q.EveryTest Q
  | group _ p => p.EveryTest Q
  | repeated p _ _ _ => p.EveryTest Q
  | look _ p => p.EveryTest Q

theorem everyTest {Q : Test → Prop} (h : ∀ t, Q t) (p : Pattern) : p.EveryTest Q := by
  induction p with
  | empty => exact trivial
  | test t => exact h t
  | seq p q hp hq => exact ⟨hp, hq⟩
  | alt p q hp hq => exact ⟨hp, hq⟩
  | group g p hp => exact hp
  | repeated p lo hi greedy hp => exact hp
  | look negated p hp => exact hp

theorem EveryTest.mono {Q Q' : Test → Prop} {p : Pattern} (hp : p.EveryTest Q) (h : ∀ t, Q t → Q' t) :
    p.EveryTest Q' := by
  induction p with
  | empty => exact trivial
  | test t => exact h t hp
  | seq p q ihp ihq => exact ⟨ihp hp.1, ihq hp.2⟩
  | alt p q ihp ihq => exact ⟨ihp hp.1, ihq hp.2⟩
  | group g p ih => exact ih hp
  | repeated p lo hi greedy ih => exact ih hp
  | look negated p ih => exact ih hp

variable {c : Setting}

theorem test_spans_le {t : Test} {i j : Nat} (h : t.Spans c i j) : i ≤ j := by
  cases t with
  | literal cs fold => exact h.1 ▸ Nat.le_add_right i _
  | any newline nul => exact h.1 ▸ Nat.le_succ i
  | named k negated fold => exact h.1 ▸ Nat.le_succ i
  | set s => exact h.1 ▸ Nat.le_succ i
  | anchor e multiline => exact Nat.le_of_eq h.1
  | boundary b => exact Nat.le_of_eq h.1
  | backref g fold => cases h

theorem spans_le {p : Pattern} {i j : Nat} (h : p.Spans c i j) : i ≤ j := by
  induction p generalizing i j with
  | empty => exact Nat.le_of_eq h
  | test t => exact test_spans_le h
  | seq p q hp hq =>
    obtain ⟨m, hm, hj⟩ := h
    exact (hp hm).trans (hq hj)
  | alt p q hp hq => exact h.elim hp hq
  | group g p hp => exact hp h
  | repeated p min max greedy hp => exact Counted.le (fun _ _ => hp) h
  | look negated p _ => cases negated <;> exact Nat.le_of_eq h.1

theorem Reaches.spans {p : Pattern} (hn : p.hasNegation = false) {i j : Nat} (h : p.Reaches c i j) :
    p.Spans c i j := by
  induction p generalizing i j with
  | empty => exact h
  | test t => exact h
  | seq p q hp hq =>
    obtain ⟨hpn, hqn⟩ := Bool.or_eq_false_iff.mp hn
    obtain ⟨m, hm, hj⟩ := h
    exact ⟨m, hp hpn hm, hq hqn hj⟩
  | alt p q hp hq =>
    obtain ⟨hpn, hqn⟩ := Bool.or_eq_false_iff.mp hn
    exact h.imp (hp hpn) (hq hqn)
  | group g p hp => exact hp hn h
  | repeated p min max greedy hp => exact (Levelled.counted h).mono fun _ _ => hp hn
  | look negated p hp =>
    obtain ⟨rfl, hpn⟩ := Bool.or_eq_false_iff.mp hn
    obtain ⟨rfl, k, hk⟩ := h
    exact ⟨rfl, k, hp hpn hk⟩

theorem reaches_iff_spans {p : Pattern} (hr : p.EveryRepeat fun min _ => min ≤ 1) {i j : Nat} :
    p.Reaches c i j ↔ p.Spans c i j := by
  induction p generalizing i j with
  | empty => rfl
  | test t => rfl
  | seq p q hp hq => exact exists_congr fun m => and_congr (hp hr.1) (hq hr.2)
  | alt p q hp hq => exact or_congr (hp hr.1) (hq hr.2)
  | group g p hp => exact hp hr
  | repeated p min max greedy hp =>
    have he : p.SpansBy Levelled c = p.Spans c := by
      funext i j
      exact propext (hp hr.2)
    change Levelled (p.SpansBy Levelled c) min max i j ↔ Counted (p.Spans c) min max i j
    rw [he]
    exact (counted_iff_levelled (fun _ _ => spans_le) hr.1).symm
  | look negated p hp =>
    have he : (∃ k, p.Reaches c i k) ↔ ∃ k, p.Spans c i k := exists_congr fun k => hp hr
    cases negated with
    | false => exact and_congr_right fun _ => he
    | true => exact and_congr_right fun _ => not_congr he

end Pattern

end DialectRegex
