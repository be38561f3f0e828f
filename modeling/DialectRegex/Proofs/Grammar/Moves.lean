import DialectRegex.Grammar.Compile
import DialectRegex.Proofs.Repetition.Steps

namespace DialectRegex

inductive Test.Atom (o : Options) (groups : Nat) : Test → Prop
  | any (newline nul : Bool) : Atom o groups (.any newline nul)
  | named {k : CharClass} (negated : Bool) (hk : k.escape?.isSome) : Atom o groups (.named k negated o.ignoreCase)
  | set {s : CharSet} (hf : s.fold = o.ignoreCase) (hi : s.items ≠ []) : Atom o groups (.set s)
  | backref {g : Nat} (hpos : 0 < g) (hg : g < groups) (hd : g < 10) : Atom o groups (.backref g o.ignoreCase)

inductive Test.Assertion (o : Options) : Test → Prop
  | anchor (e : Edge) {multiline : Bool} (hm : multiline = true → o.multiline = true) :
      Assertion o (.anchor e multiline)
  | boundary (b : Boundary) : Assertion o (.boundary b)

inductive Progress.Move (o : Options) (p : Progress) : Progress → Prop
  | char (rest : List Char) (c : Char) : Move o p (p.push rest (.char c))
  | test (rest : List Char) (t : Test) (ht : t.Atom o p.groups) : Move o p (p.push rest (.piece (.test t)))
  | assert (rest : List Char) (t : Test) (ht : t.Assertion o) : Move o p (p.assert rest t)
  | bar (rest : List Char) : Move o p { p with rest, frame := p.frame.nextAlternative o.ignoreCase }
  | group (rest : List Char) : Move o p (p.beginGroup rest .plain)
  | look (rest : List Char) (negated : Bool) : Move o p (p.beginGroup rest (.look negated))
  | capture (rest : List Char) : Move o p (p.beginCapture rest)
  | comment (rest : List Char) : Move o p { p with rest, frame := { p.frame with repeatable := false } }
  | close (rest : List Char) {f : Frame} {outer : List Frame} (hf : p.outer = f :: outer) :
      Move o p { p with rest, frame := f.addGroup p.frame o.ignoreCase, outer }
  | repetition (rest : List Char) (b : Bounds) (greedy : Bool) (hr : p.frame.repeatable = true)
      (hb : InOrder b.min b.max) (hmin : b.min ≤ greatestBound) (hmax : ∀ m ∈ b.max, m ≤ greatestBound) :
      Move o p { p with rest, frame := p.frame.repeatLast o.ignoreCase b.min b.max greedy }

theorem readItems_ne_nil {d : Dialect} {opened cs rest : List Char} {items : List SetItem}
    (h : readItems d opened cs = .ok (items, rest)) : items ≠ [] := by
  rw [readItems.eq_def] at h
  split at h
  · cases h
  · cases h
    simp
  · split at h
    · cases h
      simp
    · split at h
      · cases h
      · cases h
        simp
      · split at h
        · cases h
        · cases h
          simp

theorem readList_ne_nil {d : Dialect} {opened cs rest : List Char} {items : List SetItem}
    (h : readList d opened cs = .ok (items, rest)) : items ≠ [] := by
  fun_induction readList d opened cs generalizing items rest with
  | case1 => cases h
  | case2 _ _ _ hi =>
    cases h
    exact readItems_ne_nil hi
  | case3 => cases h
  | case4 _ _ _ _ hi _ _ _ _ =>
    cases h
    exact List.append_ne_nil_of_left_ne_nil (readItems_ne_nil hi) _

theorem readBracket_eq_ok {d : Dialect} {fold : Bool} {cs rest : List Char} {s : CharSet}
    (h : readBracket d fold cs = .ok (s, rest)) : s.fold = fold ∧ s.items ≠ [] := by
  rw [readBracket.eq_def] at h
  dsimp only at h
  split at h
  · cases h
  · next hl =>
    cases h
    exact ⟨rfl, readList_ne_nil hl⟩

theorem ofEscape?_isSome {c : Char} {k : CharClass} {negated : Bool}
    (h : CharClass.ofEscape? c = some (k, negated)) : k.escape?.isSome := by
  rw [CharClass.ofEscape?.eq_def] at h
  split at h <;> cases h <;> rfl

theorem digit?_lt {c : Char} {g : Nat} (h : Text.digit? c = some g) : g < 10 := by
  rw [Text.digit?] at h
  split at h
  · next hc =>
    cases h
    have := Char.isDigit_iff_toNat.mp hc
    have hzero : '0'.toNat = 48 := rfl
    have hnine : '9'.toNat = 57 := rfl
    omega
  · cases h

theorem readDigits_le {n m : Nat} {cs rest : List Char} (hn : n ≤ greatestBound)
    (h : readDigits n cs = some (m, rest)) : m ≤ greatestBound := by
  fun_induction readDigits n cs with
  | case1 => cases h; exact hn
  | case2 => cases h; exact hn
  | case3 => cases h
  | case4 _ _ _ _ _ hlt ih => exact ih (Nat.not_lt.mp hlt) h

theorem readBound_le {b : Option Nat} {cs rest : List Char} (h : readBound cs = some (b, rest)) :
    ∀ m ∈ b, m ≤ greatestBound := by
  rw [readBound.eq_def] at h
  split at h
  · cases h
    simp
  · split at h
    · obtain ⟨⟨m, r⟩, hr, he⟩ := Option.map_eq_some_iff.mp h
      cases he
      intro m' hm
      cases hm
      exact readDigits_le (Nat.zero_le _) hr
    · cases h
      simp

theorem readInterval_bounds {d : Dialect} {cs rest : List Char} {b : Bounds}
    (h : readInterval d cs = .ok (b, rest)) :
    InOrder b.min b.max ∧ b.min ≤ greatestBound ∧ ∀ m ∈ b.max, m ≤ greatestBound := by
  have hget {lo : Option Nat} (hlo : ∀ m ∈ lo, m ≤ greatestBound) : lo.getD 0 ≤ greatestBound := by
    cases lo with
    | none => exact Nat.zero_le _
    | some m => exact hlo m rfl
  rw [readInterval.eq_def] at h
  split at h
  · cases h
  · next hlo =>
    have hmin := hget (readBound_le hlo)
    split at h
    · cases h
    · next hhi =>
      have hmax := readBound_le hhi
      split at h
      · cases h
      · dsimp only at h
        split at h
        · cases h
          refine ⟨?_, hmin, hmax⟩
          intro m hm
          cases hm
        · next hi _ =>
          split at h
          · cases h
          · next hle =>
            cases h
            refine ⟨?_, hmin, hmax⟩
            intro m hm
            cases hm
            exact Nat.not_lt.mp hle
  · next hlo =>
    have hmin := hget (readBound_le hlo)
    split at h
    · cases h
    · cases h
      refine ⟨?_, hmin, ?_⟩
      · intro m hm
        cases hm
        exact Nat.le_refl _
      · intro m hm
        cases hm
        exact hmin

namespace Dialect

theorem operator?_bare {d : Dialect} {c : Char} (hc : c ≠ '\\') (cs : List Char) :
    d.operator? (c :: cs) = (d.bareOperator? c cs).map (·, 1) := by
  rw [operator?.eq_def]
  split
  · next he =>
    cases he
    exact absurd rfl hc
  · next he =>
    cases he
    rfl
  · next he => cases he

variable {d : Dialect} {o : Options} {p p' : Progress}

theorem openGroup_moves {after : List Char} (h : d.openGroup p after = .ok p') : p.Move o p' := by
  rw [openGroup.eq_def] at h
  split at h
  · split at h
    · split at h
      · cases h
      · next c rest =>
        split at h
        · cases h
          exact .group rest
        split at h
        · cases h
          exact .look rest false
        split at h
        · cases h
          exact .look rest true
        split at h
        · split at h
          · cases h
          · next rest' _ =>
            cases h
            exact .comment rest'
        · cases h
    · cases h
      exact .capture _
  · cases h
    exact .capture _

theorem closeGroup_moves {after : List Char} (h : d.closeGroup o p after = .ok p') : p.Move o p' := by
  rw [closeGroup.eq_def] at h
  split at h
  · next hf =>
    cases h
    exact .close after hf
  · split at h
    · cases h
      exact .char after ')'
    · cases h

theorem repetition_moves {c : Char} {after : List Char} {bounds : Except Flaw (Bounds × List Char)}
    (hb : ∀ b rest, bounds = .ok (b, rest) →
      InOrder b.min b.max ∧ b.min ≤ greatestBound ∧ ∀ m ∈ b.max, m ≤ greatestBound)
    (h : d.repetition o p c after bounds = .ok p') : p.Move o p' := by
  rw [repetition.eq_def] at h
  split at h
  · next hr =>
    split at h
    · cases h
    · next b rest =>
      obtain ⟨horder, hmin, hmax⟩ := hb b rest rfl
      cases h
      exact .repetition _ b _ hr horder hmin hmax
  · split at h
    · cases h
    · cases h
      exact .char after c

theorem backref_moves {c : Char} {rest : List Char} (h : d.backref o p c rest = some (.ok p')) : p.Move o p' := by
  rw [backref.eq_def] at h
  split at h
  · cases h
  · next g hg =>
    split at h
    · cases h
    · next hz =>
      split at h
      · cases h
      · next hlt =>
        cases h
        simp only [Bool.or_eq_true, decide_eq_true_eq, not_or] at hz
        exact .test rest _ (.backref (by omega) (by omega) (digit?_lt hg))

theorem escapedAssertion?_assertion {c : Char} {t : Test} (h : d.escapedAssertion? c = some t) : t.Assertion o := by
  rw [escapedAssertion?.eq_def] at h
  split at h
  · cases h
    exact .anchor .start (by simp)
  split at h
  · cases h
    exact .anchor .stop (by simp)
  split at h <;> split at h <;> cases h <;> exact .boundary _

theorem push_escapedNode (c : Char) (rest : List Char) : p.Move o (p.push rest (d.escapedNode o c)) := by
  rw [escapedNode]
  split
  · split
    · next k negated hk => exact .test rest _ (.named negated (ofEscape?_isSome hk))
    · exact .char rest _
    · exact .char rest _
  · exact .char rest c

theorem escape_moves {cs : List Char} (h : d.escape o p cs = .ok p') : p.Move o p' := by
  cases cs with
  | nil => cases h
  | cons c rest =>
    rw [escape] at h
    split at h
    · next hr => exact backref_moves (h ▸ hr)
    · split at h
      · next ht =>
        cases h
        exact .assert rest _ (escapedAssertion?_assertion ht)
      · cases h
        exact push_escapedNode c rest

theorem atom_moves {c : Char} {rest : List Char} (h : d.atom o p c rest = .ok p') : p.Move o p' := by
  rw [atom.eq_def] at h
  split at h
  · cases h
    exact .test rest _ (.any _ _)
  split at h
  · cases h
    exact .assert rest _ (.anchor .start id)
  split at h
  · cases h
    exact .assert rest _ (.anchor .stop id)
  split at h
  · split at h
    · cases h
    · next hs =>
      cases h
      obtain ⟨hf, hi⟩ := readBracket_eq_ok hs
      exact .test _ _ (.set hf hi)
  split at h
  · exact escape_moves h
  · cases h
    exact .char rest c

theorem applyOperator_moves {after : List Char} {op : Operator} (h : d.applyOperator o p after op = .ok p') :
    p.Move o p' := by
  have exact_bounds (lo : Nat) (hi : Option Nat) (hlo : lo ≤ 1) (hhi : ∀ m ∈ hi, m = 1) (b : Bounds)
      (rest : List Char) (he : (.ok (⟨lo, hi⟩, after) : Except Flaw (Bounds × List Char)) = .ok (b, rest)) :
      InOrder b.min b.max ∧ b.min ≤ greatestBound ∧ ∀ m ∈ b.max, m ≤ greatestBound := by
    have hone : 1 ≤ greatestBound := by decide
    cases he
    exact ⟨fun m hm => hhi m hm ▸ hlo, hlo.trans hone, fun m hm => hhi m hm ▸ hone⟩
  cases op with
  | bar =>
    cases h
    exact .bar after
  | groupOpen => exact openGroup_moves h
  | groupClose => exact closeGroup_moves h
  | star => exact repetition_moves (exact_bounds 0 none (Nat.zero_le 1) (by simp)) h
  | plus => exact repetition_moves (exact_bounds 1 none (Nat.le_refl 1) (by simp)) h
  | question => exact repetition_moves (exact_bounds 0 (some 1) (Nat.zero_le 1) (by simp [eq_comm])) h
  | intervalOpen => exact repetition_moves (fun _ _ => readInterval_bounds) h

theorem step_moves {c : Char} {rest : List Char} (h : d.step o p c rest = .ok p') : p.Move o p' := by
  rw [step.eq_def] at h
  split at h
  · exact applyOperator_moves h
  · exact atom_moves h

theorem finish_induction {I : Progress → Prop} (hmove : ∀ {p p'}, I p → p.Move o p' → I p') {body : Pattern}
    {groups : Nat} (hp : I p) (h : d.finish o p = .ok (body, groups)) :
    ∃ q, I q ∧ q.outer = [] ∧ body = q.frame.body o.ignoreCase ∧ groups = q.groups := by
  fun_induction finish d o p with
  | case1 p hrest houter =>
    cases h
    exact ⟨p, hp, List.isEmpty_iff.mp houter, rfl, rfl⟩
  | case2 => cases h
  | case3 => cases h
  | case4 p c rest _ p' hs ih => exact ih (hmove hp (step_moves hs)) h

end Dialect

theorem compile_induction {d : Dialect} {o : Options} {I : Progress → Prop}
    (hmove : ∀ {p p'}, I p → p.Move o p' → I p') {pattern : List Char} (hstart : I (.start pattern))
    {body : Pattern} {groups : Nat} (h : compile d o pattern = .ok (body, groups)) :
    ∃ q, I q ∧ q.outer = [] ∧ body = q.frame.body o.ignoreCase ∧ groups = q.groups := by
  rw [compile] at h
  split at h
  · cases h
  · next hf =>
    cases h
    exact Dialect.finish_induction hmove hstart hf

end DialectRegex
