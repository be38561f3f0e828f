import DialectRegex.Proofs.Grammar.Moves

namespace DialectRegex

section Brackets

def Within (text : List Char) {α : Type} : Except Fault (α × List Char) → Prop
  | .error e => e.rest <:+ text
  | .ok (_, rest) => rest <:+ text

variable {d : Dialect} {text opened cs : List Char}

theorem escapedMember_within (d : Dialect) (e : Char) (cs : List Char) : (escapedMember d e cs).2 <:+ e :: cs := by
  have hcs : cs <:+ e :: cs := List.suffix_cons e cs
  rw [escapedMember]
  split
  · split
    · exact hcs
    · exact hcs
    · split
      · exact hcs
      · exact List.suffix_rfl
  · split
    · exact hcs
    · exact List.suffix_rfl

theorem readMember_within (ho : opened <:+ text) (hc : cs <:+ text) : Within text (readMember d opened cs) := by
  have htail {c : Char} {cs : List Char} (h : c :: cs <:+ text) : cs <:+ text := (List.suffix_cons c cs).trans h
  rw [readMember.eq_def]
  split
  · exact ho
  · split
    · split
      · exact htail hc
      · next hs =>
        split
        · exact hc
        · obtain hs := splitClassName_eq_some hs
          apply List.IsSuffix.trans _ (htail (htail hc))
          rw [hs]
          exact (List.suffix_append [':', ']'] _).trans (List.suffix_append _ _)
    · exact htail hc
  · split
    · split
      · exact ho
      · exact (escapedMember_within d _ _).trans (htail hc)
    · exact htail hc
  · exact htail hc

theorem readItems_within (ho : opened <:+ text) (hc : cs <:+ text) : Within text (readItems d opened cs) := by
  have hfirst := readMember_within (d := d) ho hc
  rw [readItems.eq_def]
  split
  · next he =>
    rw [he] at hfirst
    exact hfirst
  · next he =>
    rw [he] at hfirst
    exact hfirst
  · next he =>
    rw [he] at hfirst
    split
    · exact hfirst
    · next hy =>
      rw [Within, afterHyphen?_eq_some hy] at hfirst
      have hsecond := readMember_within (d := d) ho ((List.suffix_cons _ _).trans hfirst)
      split
      · next he =>
        rw [he] at hsecond
        exact hsecond
      · next he =>
        rw [he] at hsecond
        exact hsecond
      · next he =>
        rw [he] at hsecond
        split
        · exact hc
        · exact hsecond

theorem readList_within (ho : opened <:+ text) (hc : cs <:+ text) : Within text (readList d opened cs) := by
  fun_induction readList d opened cs with
  | case1 cs e he =>
    have h := readItems_within (d := d) ho hc
    rwa [he] at h
  | case2 cs items rest he =>
    have h := readItems_within (d := d) ho hc
    rw [he] at h
    exact (List.suffix_cons _ _).trans h
  | case3 cs items rest _ he e hl ih =>
    have h := readItems_within (d := d) ho hc
    rw [he] at h
    rw [hl] at ih
    exact ih h
  | case4 cs items rest _ he more last hl ih =>
    have h := readItems_within (d := d) ho hc
    rw [he] at h
    rw [hl] at ih
    exact ih h

theorem readBracket_within {fold : Bool} (h : '[' :: cs <:+ text) : Within text (readBracket d fold cs) := by
  have hcs : cs <:+ text := (List.suffix_cons _ _).trans h
  have hlist : (if (cs.head? == some '^') = true then cs.tail else cs) <:+ text := by
    split
    · exact (List.tail_suffix cs).trans hcs
    · exact hcs
  have hread := readList_within (d := d) h hlist
  rw [readBracket]
  split
  · next he =>
    rw [he] at hread
    exact hread
  · next he =>
    rw [he] at hread
    exact hread

end Brackets

section Intervals

variable {d : Dialect} {cs rest : List Char}

theorem readDigits_suffix {n m : Nat} (h : readDigits n cs = some (m, rest)) : rest <:+ cs := by
  fun_induction readDigits n cs with
  | case1 =>
    cases h
    exact List.suffix_rfl
  | case2 =>
    cases h
    exact List.suffix_rfl
  | case3 => cases h
  | case4 _ c cs _ _ _ ih => exact (ih h).trans (List.suffix_cons c cs)

theorem readBound_suffix {b : Option Nat} (h : readBound cs = some (b, rest)) : rest <:+ cs := by
  rw [readBound.eq_def] at h
  split at h
  · cases h
    exact List.suffix_rfl
  · split at h
    · obtain ⟨⟨m, r⟩, hr, he⟩ := Option.map_eq_some_iff.mp h
      cases he
      exact readDigits_suffix hr
    · cases h
      exact List.suffix_rfl

theorem closeInterval_suffix (h : closeInterval d cs = some rest) : rest <:+ cs := by
  rw [closeInterval.eq_def] at h
  split at h
  · split at h
    · cases h
      exact List.suffix_cons _ _
    · cases h
  · split at h
    · cases h
    · cases h
      exact List.suffix_append ['\\', '\x7d'] _
  · cases h

theorem readInterval_suffix {b : Bounds} (h : readInterval d cs = .ok (b, rest)) : rest <:+ cs := by
  rw [readInterval.eq_def] at h
  split at h
  · cases h
  · next hlo =>
    have hmid := (List.suffix_cons _ _).trans (readBound_suffix hlo)
    split at h
    · cases h
    · next hhi =>
      have hlast := (readBound_suffix hhi).trans hmid
      split at h
      · cases h
      · next hclose =>
        have hrest := (closeInterval_suffix hclose).trans hlast
        dsimp only at h
        split at h
        · cases h
          exact hrest
        · split at h
          · cases h
          · cases h
            exact hrest
  · next hlo =>
    split at h
    · cases h
    · next hclose =>
      cases h
      exact (closeInterval_suffix hclose).trans (readBound_suffix hlo)

theorem readGreed_suffix (d : Dialect) (cs : List Char) : (d.readGreed cs).2 <:+ cs := by
  rw [Dialect.readGreed.eq_def]
  split
  · split
    · exact List.suffix_cons _ _
    · exact List.suffix_rfl
  · exact List.suffix_rfl

end Intervals

namespace Frame

theorem opened_addGroup (f inner : Frame) (fold : Bool) : (f.addGroup inner fold).opened = f.opened := by
  rw [addGroup]
  split <;> rfl

theorem opened_repeatLast (f : Frame) (fold : Bool) (lo : Nat) (hi : Option Nat) (greedy : Bool) :
    (f.repeatLast fold lo hi greedy).opened = f.opened := by
  rw [repeatLast]
  split <;> rfl

end Frame

namespace Progress

def Stays (text : List Char) : Except Fault Progress → Prop
  | .error e => e.rest <:+ text
  | .ok p => p.rest <:+ text

end Progress

namespace Dialect

open Progress (Stays)

variable {d : Dialect} {o : Options} {p : Progress} {after : List Char}

theorem openGroup_stays (h : after <:+ p.rest) : Stays p.rest (d.openGroup p after) := by
  rw [openGroup.eq_def]
  split
  · next flagged =>
    split
    · split
      · exact List.suffix_rfl
      · next c rest =>
        have hflag : c :: rest <:+ p.rest := (List.suffix_cons _ _).trans h
        have hrest : rest <:+ p.rest := (List.suffix_cons _ _).trans hflag
        split
        · exact hrest
        split
        · exact hrest
        split
        · exact hrest
        split
        · split
          · exact List.suffix_rfl
          · next hd =>
            refine List.IsSuffix.trans ?_ hrest
            exact (hd ▸ List.suffix_cons _ _ : _ <:+ rest.dropWhile (· != ')')).trans (List.dropWhile_suffix _)
        · exact hflag
    · exact h
  · exact h

theorem closeGroup_stays (h : after <:+ p.rest) : Stays p.rest (d.closeGroup o p after) := by
  rw [closeGroup.eq_def]
  split
  · exact h
  · split
    · exact h
    · exact List.suffix_rfl

theorem repetition_stays {c : Char} {bounds : Except Flaw (Bounds × List Char)} (h : after <:+ p.rest)
    (hb : ∀ b rest, bounds = .ok (b, rest) → rest <:+ after) : Stays p.rest (d.repetition o p c after bounds) := by
  rw [repetition.eq_def]
  split
  · split
    · exact List.suffix_rfl
    · next b rest => exact (readGreed_suffix d rest).trans ((hb b rest rfl).trans h)
  · split
    · exact List.suffix_rfl
    · exact h

theorem escape_stays (h : after <:+ p.rest) : Stays p.rest (d.escape o p after) := by
  cases after with
  | nil => exact List.suffix_rfl
  | cons c rest =>
    have hrest : rest <:+ p.rest := (List.suffix_cons _ _).trans h
    rw [escape]
    split
    · next r hr =>
      rw [backref.eq_def] at hr
      split at hr
      · cases hr
      · split at hr
        · cases hr
        · split at hr
          · cases hr
            exact List.suffix_rfl
          · cases hr
            exact hrest
    · split
      · exact hrest
      · exact hrest

theorem atom_stays {c : Char} {rest : List Char} (h : p.rest = c :: rest) : Stays p.rest (d.atom o p c rest) := by
  have hrest : rest <:+ p.rest := h ▸ List.suffix_cons c rest
  rw [atom.eq_def]
  split
  · exact hrest
  split
  · exact hrest
  split
  · exact hrest
  split
  · next hc =>
    have hread : Within p.rest (readBracket d o.ignoreCase rest) := by
      apply readBracket_within
      rw [h, hc]
    split
    · next he =>
      rw [he] at hread
      exact hread
    · next he =>
      rw [he] at hread
      exact hread
  split
  · exact escape_stays hrest
  · exact hrest

theorem applyOperator_stays (h : after <:+ p.rest) (op : Operator) :
    Stays p.rest (d.applyOperator o p after op) := by
  have hexact (m : Bounds) (b : Bounds) (rest : List Char)
      (he : (.ok (m, after) : Except Flaw (Bounds × List Char)) = .ok (b, rest)) : rest <:+ after := by
    cases he
    exact List.suffix_rfl
  cases op with
  | bar => exact h
  | groupOpen => exact openGroup_stays h
  | groupClose => exact closeGroup_stays h
  | star => exact repetition_stays h (hexact _)
  | plus => exact repetition_stays h (hexact _)
  | question => exact repetition_stays h (hexact _)
  | intervalOpen => exact repetition_stays h fun _ _ => readInterval_suffix

theorem step_stays {c : Char} {rest : List Char} (h : p.rest = c :: rest) : Stays p.rest (d.step o p c rest) := by
  rw [step.eq_def]
  split
  · apply applyOperator_stays
    rw [h]
    exact List.drop_suffix _ _
  · exact atom_stays h

theorem step_suffix {c : Char} {rest : List Char} {p' : Progress} (h : p.rest = c :: rest)
    (hs : d.step o p c rest = .ok p') : p'.rest <:+ rest := by
  have hstays := step_stays (d := d) (o := o) h
  have hlt := step_shorter hs
  rw [hs, h] at hstays
  rcases List.suffix_cons_iff.mp hstays with he | hsuffix
  · rw [he] at hlt
    exact absurd hlt (Nat.lt_irrefl _)
  · exact hsuffix

inductive Run (d : Dialect) (o : Options) : Progress → Progress → Prop where
  | refl (p : Progress) : Run d o p p
  | step {p p' q : Progress} {c : Char} {rest : List Char} (hr : p.rest = c :: rest)
      (hs : d.step o p c rest = .ok p') (h : Run d o p' q) : Run d o p q

structure Along (text : List Char) (p : Progress) : Prop where
  rest : p.rest <:+ text
  opened : ∀ f ∈ p.frame :: p.outer, f.opened <:+ text

theorem Along.step {text : List Char} (h : Along text p) {c : Char} {rest : List Char} {p' : Progress}
    (hr : p.rest = c :: rest) (hs : d.step o p c rest = .ok p') : Along text p' := by
  refine ⟨(step_suffix hr hs).trans ((List.suffix_cons c rest).trans (hr ▸ h.rest)), ?_⟩
  have hframe := h.opened p.frame List.mem_cons_self
  have houter : ∀ f ∈ p.outer, f.opened <:+ text := fun f hf => h.opened f (List.mem_cons_of_mem _ hf)
  have hupdate {f : Frame} (hf : f.opened = p.frame.opened) : ∀ g ∈ f :: p.outer, g.opened <:+ text :=
    List.forall_mem_cons.mpr ⟨hf ▸ hframe, houter⟩
  have hbegin (kind : GroupKind) : ∀ g ∈ .begin kind p.rest :: p.frame :: p.outer, g.opened <:+ text :=
    List.forall_mem_cons.mpr ⟨h.rest, h.opened⟩
  cases step_moves hs with
  | char => exact hupdate rfl
  | test => exact hupdate rfl
  | assert => exact hupdate rfl
  | bar => exact hupdate rfl
  | group => exact hbegin .plain
  | look _ negated => exact hbegin (.look negated)
  | capture => exact hbegin (.capturing p.groups)
  | comment => exact hupdate rfl
  | close _ hout =>
    rw [hout] at houter
    refine List.forall_mem_cons.mpr ⟨?_, fun f hf => houter f (List.mem_cons_of_mem _ hf)⟩
    rw [Frame.opened_addGroup]
    exact houter _ List.mem_cons_self
  | repetition => exact hupdate (Frame.opened_repeatLast _ _ _ _ _)

theorem Along.run {text : List Char} {q : Progress} (h : Along text p) (hr : Run d o p q) : Along text q := by
  induction hr with
  | refl => exact h
  | step hr hs _ ih => exact ih (h.step hr hs)

theorem finish_stops (d : Dialect) (o : Options) (p : Progress) :
    ∃ q, Run d o p q ∧
      match d.finish o p with
      | .ok (body, groups) => q.rest = [] ∧ q.outer = [] ∧ body = q.frame.body o.ignoreCase ∧ groups = q.groups
      | .error e => q.rest = [] ∧ q.outer ≠ [] ∧ e = ⟨.unmatchedOpen, q.frame.opened⟩ ∨
          ∃ c rest, q.rest = c :: rest ∧ d.step o q c rest = .error e := by
  fun_induction finish d o p with
  | case1 p hrest houter => exact ⟨p, .refl p, hrest, List.isEmpty_iff.mp houter, rfl, rfl⟩
  | case2 p hrest houter => exact ⟨p, .refl p, .inl ⟨hrest, List.isEmpty_iff.not.mp houter, rfl⟩⟩
  | case3 p c rest hrest e hs => exact ⟨p, .refl p, .inr ⟨c, rest, hrest, hs⟩⟩
  | case4 p c rest hrest p' hs ih =>
    obtain ⟨q, hq, hend⟩ := ih
    exact ⟨q, .step hrest hs hq, hend⟩

theorem finish_run (d : Dialect) (o : Options) (p : Progress) :
    ∃ q, Run d o p q ∧
      match d.finish o p with
      | .ok (body, groups) => q.rest = [] ∧ q.outer = [] ∧ body = q.frame.body o.ignoreCase ∧ groups = q.groups
      | .error e => e.rest = q.frame.opened ∨ Stays q.rest (.error e) := by
  obtain ⟨q, hq, hend⟩ := finish_stops d o p
  refine ⟨q, hq, ?_⟩
  split at hend
  · exact hend
  · rcases hend with ⟨_, _, rfl⟩ | ⟨c, rest, hr, hs⟩
    · exact .inl rfl
    · exact .inr (hs ▸ step_stays hr)

end Dialect

end DialectRegex
