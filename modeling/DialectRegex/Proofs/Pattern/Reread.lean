import DialectRegex.Pattern.Printer
import DialectRegex.Proofs.Matching.Ends

namespace DialectRegex.Pattern

def reread : Pattern → Pattern
  | empty => empty
  | test t => test t
  | seq p q => seq p.reread q.reread
  | alt p q => alt p.reread q.reread
  | group g p => group g p.reread
  | repeated p min max greedy => repeated (if p.isSingle then p.reread else group none p.reread) min max greedy
  | look negated p => look negated p.reread

@[simp] theorem isSingle_reread (p : Pattern) : p.reread.isSingle = p.isSingle := by
  cases p <;> rfl

@[simp] theorem render_reread (p : Pattern) : p.reread.render = p.render := by
  induction p with
  | empty => rfl
  | test t => rfl
  | seq p q hp hq => rw [reread, render, render, hp, hq]
  | alt p q hp hq => rw [reread, render, render, hp, hq]
  | group g p hp => cases g <;> rw [reread, render, render, hp]
  | repeated p lo hi greedy hp =>
    rw [reread, render, render]
    by_cases hs : p.isSingle = true
    · rw [if_pos hs, if_pos hs, if_pos (p.isSingle_reread.trans hs), hp]
    · have hgroup : (group none p.reread).isSingle = true := rfl
      rw [if_neg hs, if_neg hs, if_pos hgroup, render, hp]
  | look negated p hp => rw [reread, render, render, hp]

@[simp] theorem minLength_reread (p : Pattern) : p.reread.minLength = p.minLength := by
  induction p with
  | empty => rfl
  | test t => rfl
  | seq p q hp hq => rw [reread, minLength, minLength, hp, hq]
  | alt p q hp hq => rw [reread, minLength, minLength, hp, hq]
  | group g p hp => exact hp
  | repeated p lo hi greedy hp =>
    rw [reread, minLength, minLength]
    split
    · rw [hp]
    · rw [minLength, hp]
  | look negated p _ => rfl

@[simp] theorem hasBackref_reread (p : Pattern) : p.reread.hasBackref = p.hasBackref := by
  induction p with
  | empty => rfl
  | test t => rfl
  | seq p q hp hq => rw [reread, hasBackref, hasBackref, hp, hq]
  | alt p q hp hq => rw [reread, hasBackref, hasBackref, hp, hq]
  | group g p hp => exact hp
  | repeated p lo hi greedy hp =>
    rw [reread, hasBackref, hasBackref]
    split
    · exact hp
    · exact hp
  | look negated p hp => exact hp

theorem ends_group_none (e : Search Id) (p : Pattern) (s : State) : (group none p).ends e s = p.ends e s := by
  rw [ends_group]
  exact List.map_id _

theorem ends_reread (e : Search Id) (p : Pattern) : p.reread.ends e = p.ends e := by
  induction p with
  | empty => rfl
  | test t => rfl
  | seq p q hp hq =>
    funext s
    rw [reread, ends_seq, ends_seq, hp, hq]
  | alt p q hp hq =>
    funext s
    rw [reread, ends_alt, ends_alt, hp, hq]
  | group g p hp =>
    funext s
    rw [reread, ends_group, ends_group, hp]
  | repeated p lo hi greedy hp =>
    have hsame : (if p.isSingle then p.reread else group none p.reread).ends e = p.ends e := by
      split
      · exact hp
      · exact (funext (ends_group_none e p.reread)).trans hp
    funext s
    rw [reread, ends_repeated, ends_repeated, hsame]
  | look negated p hp =>
    funext s
    rw [reread, ends_look, ends_look, hp]

end DialectRegex.Pattern
