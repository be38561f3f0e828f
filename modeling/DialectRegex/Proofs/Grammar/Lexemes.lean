import DialectRegex.Proofs.Grammar.Positions

namespace DialectRegex

inductive Lexeme where
  | opening (captures : Bool)
  | closing
  | other
deriving DecidableEq, Repr

namespace Lexeme

def depthAfter : Nat → List Lexeme → Option Nat
  | k, [] => some k
  | k, opening _ :: ls => depthAfter (k + 1) ls
  | 0, closing :: _ => none
  | k + 1, closing :: ls => depthAfter k ls
  | k, other :: ls => depthAfter k ls

def captures (ls : List Lexeme) : Nat := ls.count (opening true)

theorem depthAfter_append (k : Nat) (ls ls' : List Lexeme) :
    depthAfter k (ls ++ ls') = (depthAfter k ls).bind fun m => depthAfter m ls' := by
  fun_induction depthAfter k ls <;> simp_all [depthAfter]

variable {ls : List Lexeme}

theorem depthAfter_other (h : ∀ l ∈ ls, l = other) (k : Nat) : depthAfter k ls = some k := by
  induction ls with
  | nil => simp [depthAfter]
  | cons l ls ih =>
    obtain ⟨rfl, hrest⟩ := List.forall_mem_cons.mp h
    rw [depthAfter, ih hrest]

theorem captures_other (h : ∀ l ∈ ls, l = other) : captures ls = 0 := by
  rw [captures, List.count_eq_zero]
  intro hmem
  cases h _ hmem

end Lexeme

namespace Dialect

def opening? (d : Dialect) : List Char → Option (Lexeme × List Char)
  | '?' :: flagged =>
    if d.hasGroupFlags then
      match flagged with
      | [] => none
      | c :: rest =>
        if c = ':' ∧ d.has .pureGrouping ∨ c = '=' ∧ d.has .lookahead ∨ c = '!' ∧ d.has .lookahead then
          some (.opening false, rest)
        else if c = '#' ∧ d.has .comments then
          match rest.dropWhile (· != ')') with
          | [] => none
          | _ :: rest => some (.other, rest)
        else none
    else some (.opening true, '?' :: flagged)
  | after => some (.opening true, after)

def afterAtom? (d : Dialect) : List Char → Option (List Char)
  | [] => none
  | '[' :: cs => (readBracket d false cs).toOption.map Prod.snd
  | ['\\'] => none
  | '\\' :: _ :: cs => some cs
  | _ :: cs => some cs

def lexeme? (d : Dialect) (cs : List Char) : Option (Lexeme × List Char) :=
  match d.operator? cs with
  | some (.groupOpen, n) => d.opening? (cs.drop n)
  | some (.groupClose, n) => some (.closing, cs.drop n)
  | some (_, n) => some (.other, cs.drop n)
  | none => (d.afterAtom? cs).map (.other, ·)

inductive Scans (d : Dialect) : List Char → List Lexeme → List Char → Prop where
  | nil (cs : List Char) : Scans d cs [] cs
  | cons {cs mid rest : List Char} {l : Lexeme} {ls : List Lexeme} (h : d.lexeme? cs = some (l, mid))
      (hrest : Scans d mid ls rest) : Scans d cs (l :: ls) rest

def Passes (d : Dialect) (cs rest : List Char) : Prop := ∃ ls, d.Scans cs ls rest ∧ ∀ l ∈ ls, l = .other

variable {d : Dialect} {cs mid rest : List Char} {ls ls' : List Lexeme} {l : Lexeme}

theorem Scans.single (h : d.lexeme? cs = some (l, rest)) : d.Scans cs [l] rest := .cons h (.nil rest)

theorem Scans.append (h : d.Scans cs ls mid) (h' : d.Scans mid ls' rest) : d.Scans cs (ls ++ ls') rest := by
  induction h with
  | nil => exact h'
  | cons h _ ih => exact .cons h (ih h')

theorem Passes.refl (d : Dialect) (cs : List Char) : d.Passes cs cs := ⟨[], .nil cs, List.forall_mem_nil _⟩

theorem Passes.single (h : d.lexeme? cs = some (.other, rest)) : d.Passes cs rest :=
  ⟨[.other], .single h, by simp⟩

theorem Passes.trans (h : d.Passes cs mid) (h' : d.Passes mid rest) : d.Passes cs rest := by
  obtain ⟨ls, hls, hother⟩ := h
  obtain ⟨ls', hls', hother'⟩ := h'
  exact ⟨ls ++ ls', hls.append hls', List.forall_mem_append.mpr ⟨hother, hother'⟩⟩

section Intervals

def marks : List Char := ['\\', '[', '(', ')', '|', '\n', '\x7b', '*', '+', '?']

theorem lexeme?_none (h : d.operator? cs = none) : d.lexeme? cs = (d.afterAtom? cs).map (.other, ·) := by
  rw [lexeme?, h]

theorem lexeme?_plain {c : Char} (hc : c ∉ marks) (cs : List Char) : d.lexeme? (c :: cs) = some (.other, cs) := by
  have hne (a : Char) (ha : a ∈ marks) : c ≠ a := fun h => hc (h ▸ ha)
  have hnone : d.bareOperator? c cs = none := by
    rw [bareOperator?.eq_def]
    split
    case h_9 => rfl
    all_goals exact absurd (by decide) hc
  have hatom : d.afterAtom? (c :: cs) = some cs := by
    rw [afterAtom?.eq_def]
    split
    · cases ‹_›
    · next h =>
      cases h
      exact absurd rfl (hne '[' (by decide))
    · next h =>
      cases h
      exact absurd rfl (hne '\\' (by decide))
    · next h =>
      cases h
      exact absurd rfl (hne '\\' (by decide))
    · next h =>
      cases h
      rfl
  have hop : d.operator? (c :: cs) = none := by rw [operator?_bare (hne '\\' (by decide)), hnone, Option.map_none]
  rw [lexeme?_none hop, hatom, Option.map_some]

theorem passes_plain {c : Char} (hc : c ∉ marks) (cs : List Char) : d.Passes (c :: cs) cs :=
  .single (lexeme?_plain hc cs)

theorem passes_digits {n m : Nat} (h : readDigits n cs = some (m, rest)) : d.Passes cs rest := by
  fun_induction readDigits n cs with
  | case1 =>
    cases h
    exact .refl d _
  | case2 =>
    cases h
    exact .refl d _
  | case3 => cases h
  | case4 n c cs k hc _ ih =>
    refine (passes_plain ?_ cs).trans (ih h)
    intro hmark
    have hdigit : c.isDigit = true := by
      rw [Text.digit?, Option.ite_none_right_eq_some] at hc
      exact hc.1
    have hmarks : marks.all (!·.isDigit) = true := rfl
    have hnot := List.all_eq_true.mp hmarks c hmark
    rw [hdigit] at hnot
    cases hnot

theorem passes_bound {b : Option Nat} (h : readBound cs = some (b, rest)) : d.Passes cs rest := by
  rw [readBound.eq_def] at h
  split at h
  · cases h
    exact .refl d _
  · split at h
    · obtain ⟨_, hr, he⟩ := Option.map_eq_some_iff.mp h
      cases he
      exact passes_digits hr
    · cases h
      exact .refl d _

theorem passes_close (h : closeInterval d cs = some rest) : d.Passes cs rest := by
  rw [closeInterval.eq_def] at h
  split at h
  · split at h
    · cases h
      exact passes_plain (by decide) rest
    · cases h
  · split at h
    · cases h
    · cases h
      exact .single rfl
  · cases h

theorem passes_interval {b : Bounds} (h : readInterval d cs = .ok (b, rest)) : d.Passes cs rest := by
  have hcomma (cs : List Char) : d.Passes (',' :: cs) cs := passes_plain (by decide) cs
  rw [readInterval.eq_def] at h
  split at h
  · cases h
  · next hlo =>
    have hmid := (passes_bound (d := d) hlo).trans (hcomma _)
    split at h
    · cases h
    · next hhi =>
      have hlast := hmid.trans (passes_bound hhi)
      split at h
      · cases h
      · next hclose =>
        have hrest := hlast.trans (passes_close hclose)
        dsimp only at h
        split at h
        · cases h
          exact hrest
        · split at h
          · cases h
          · cases h
            exact hrest
  · next hlo =>
    split at h
    · cases h
    · next hclose =>
      cases h
      exact (passes_bound hlo).trans (passes_close hclose)

theorem passes_greed (d : Dialect) (cs : List Char) : d.Passes cs (d.readGreed cs).2 := by
  rw [readGreed.eq_def]
  split
  · next rest =>
    split
    · apply Passes.single
      rw [lexeme?, operator?_bare (by decide), bareOperator?]
      cases (d.has .backslashPlusQuestion || d.has .limitedOperators) <;> rfl
    · exact .refl d _
  · exact .refl d _

end Intervals

end Dialect

inductive Progress.Obeys (d : Dialect) (p p' : Progress) : List Lexeme → Prop where
  | passes {ls : List Lexeme} (hls : ∀ l ∈ ls, l = .other) (hgroups : p'.groups = p.groups)
      (hopened : p'.frame.opened = p.frame.opened) (houter : p'.outer = p.outer) : Obeys d p p' ls
  | opens (captures : Bool) (hgroups : p'.groups = p.groups + captures.toNat) (hopened : p'.frame.opened = p.rest)
      (houter : p'.outer = p.frame :: p.outer) : Obeys d p p' [.opening captures]
  | closes {f : Frame} {outer : List Frame} (hout : p.outer = f :: outer) (hgroups : p'.groups = p.groups)
      (hopened : p'.frame.opened = f.opened) (houter : p'.outer = outer) : Obeys d p p' [.closing]
  | stray (hd : d.has .strayCloseOrdinary = true) (hout : p.outer = []) (hgroups : p'.groups = p.groups)
      (hopened : p'.frame.opened = p.frame.opened) (houter : p'.outer = p.outer) : Obeys d p p' [.closing]

namespace Dialect

def Advances (d : Dialect) (p p' : Progress) : Prop := ∃ ls, d.Scans p.rest ls p'.rest ∧ p.Obeys d p' ls

variable {d : Dialect} {o : Options} {p p' : Progress} {n : Nat}

theorem Advances.passes (h : d.Passes p.rest p'.rest) (hgroups : p'.groups = p.groups)
    (hopened : p'.frame.opened = p.frame.opened) (houter : p'.outer = p.outer) : d.Advances p p' := by
  obtain ⟨ls, hscans, hls⟩ := h
  exact ⟨ls, hscans, .passes hls hgroups hopened houter⟩

theorem openGroup_advances (hop : d.operator? p.rest = some (.groupOpen, n))
    (h : d.openGroup p (p.rest.drop n) = .ok p') : d.Advances p p' := by
  have hlex : d.lexeme? p.rest = d.opening? (p.rest.drop n) := by rw [lexeme?, hop]
  generalize p.rest.drop n = after at h hlex
  have hopens {rest : List Char} (captures : Bool) (hl : d.opening? after = some (.opening captures, rest)) :
      d.Scans p.rest [.opening captures] rest := .single (hlex.trans hl)
  rw [openGroup.eq_def] at h
  split at h
  · next flagged =>
    split at h
    · next hflags =>
      split at h
      · cases h
      · next c rest =>
        have hopening : d.opening? ('?' :: c :: rest) =
            if c = ':' ∧ d.has .pureGrouping ∨ c = '=' ∧ d.has .lookahead ∨ c = '!' ∧ d.has .lookahead then
              some (.opening false, rest)
            else if c = '#' ∧ d.has .comments then
              match rest.dropWhile (· != ')') with
              | [] => none
              | _ :: rest => some (.other, rest)
            else none := by
          rw [opening?, if_pos hflags]
        split at h
        · next hc =>
          cases h
          exact ⟨_, hopens false (hopening.trans (if_pos (.inl hc))), .opens false rfl rfl rfl⟩
        next hplain =>
        split at h
        · next hc =>
          cases h
          exact ⟨_, hopens false (hopening.trans (if_pos (.inr (.inl hc)))), .opens false rfl rfl rfl⟩
        next hahead =>
        split at h
        · next hc =>
          cases h
          exact ⟨_, hopens false (hopening.trans (if_pos (.inr (.inr hc)))), .opens false rfl rfl rfl⟩
        next hnot =>
        split at h
        · next hc =>
          rw [if_neg (by simp only [hplain, hahead, hnot, or_self, not_false_iff]), if_pos hc] at hopening
          split at h
          · cases h
          · next hdrop =>
            rw [hdrop] at hopening
            cases h
            exact .passes (.single (hlex.trans hopening)) rfl rfl rfl
        · cases h
    · next hflags =>
      cases h
      have hl : d.opening? ('?' :: flagged) = some (.opening true, '?' :: flagged) := by
        rw [opening?.eq_def]
        exact if_neg hflags
      exact ⟨_, hopens true hl, .opens true rfl rfl rfl⟩
  · next hnot =>
    cases h
    have hl : d.opening? after = some (.opening true, after) := by
      rw [opening?.eq_def]
      split
      · exact absurd rfl (hnot _)
      · rfl
    exact ⟨_, hopens true hl, .opens true rfl rfl rfl⟩

theorem closeGroup_advances (hop : d.operator? p.rest = some (.groupClose, n))
    (h : d.closeGroup o p (p.rest.drop n) = .ok p') : d.Advances p p' := by
  have hscans : d.Scans p.rest [.closing] (p.rest.drop n) := .single (by rw [lexeme?, hop])
  rw [closeGroup.eq_def] at h
  split at h
  · next f outer hout =>
    cases h
    exact ⟨_, hscans, .closes hout rfl (Frame.opened_addGroup _ _ _) rfl⟩
  · next hout =>
    split at h
    · next hd =>
      cases h
      exact ⟨_, hscans, .stray hd hout rfl rfl rfl⟩
    · cases h

theorem repetition_advances {c : Char} {after : List Char} {bounds : Except Flaw (Bounds × List Char)}
    (hafter : d.Passes p.rest after) (hb : ∀ b rest, bounds = .ok (b, rest) → d.Passes after rest)
    (h : d.repetition o p c after bounds = .ok p') : d.Advances p p' := by
  rw [repetition.eq_def] at h
  split at h
  · split at h
    · cases h
    · next b rest =>
      cases h
      have hrest := (hafter.trans (hb b rest rfl)).trans (passes_greed d rest)
      exact .passes hrest rfl (Frame.opened_repeatLast _ _ _ _ _) rfl
  · split at h
    · cases h
    · cases h
      exact .passes hafter rfl rfl rfl

theorem applyOperator_advances {op : Operator} (hop : d.operator? p.rest = some (op, n))
    (h : d.applyOperator o p (p.rest.drop n) op = .ok p') : d.Advances p p' := by
  have hexact (m : Bounds) (b : Bounds) (rest : List Char)
      (he : (.ok (m, p.rest.drop n) : Except Flaw (Bounds × List Char)) = .ok (b, rest)) :
      d.Passes (p.rest.drop n) rest := by
    cases he
    exact .refl d _
  cases op with
  | bar =>
    cases h
    exact .passes (.single (by rw [lexeme?, hop])) rfl rfl rfl
  | groupOpen => exact openGroup_advances hop h
  | groupClose => exact closeGroup_advances hop h
  | star => exact repetition_advances (.single (by rw [lexeme?, hop])) (hexact _) h
  | plus => exact repetition_advances (.single (by rw [lexeme?, hop])) (hexact _) h
  | question => exact repetition_advances (.single (by rw [lexeme?, hop])) (hexact _) h
  | intervalOpen => exact repetition_advances (.single (by rw [lexeme?, hop])) (fun _ _ => passes_interval) h

theorem escape_rest {cs : List Char} (h : d.escape o p cs = .ok p') :
    ∃ c, cs = c :: p'.rest ∧ p'.groups = p.groups ∧ p'.frame.opened = p.frame.opened ∧ p'.outer = p.outer := by
  cases cs with
  | nil => cases h
  | cons c rest =>
    rw [escape] at h
    split at h
    · next r hr =>
      rw [backref.eq_def] at hr
      split at hr
      · cases hr
      · split at hr
        · cases hr
        · split at hr
          · cases hr
            cases h
          · cases hr
            cases h
            exact ⟨c, rfl, rfl, rfl, rfl⟩
    · split at h
      · cases h
        exact ⟨c, rfl, rfl, rfl, rfl⟩
      · cases h
        exact ⟨c, rfl, rfl, rfl, rfl⟩

theorem afterAtom?_bracket {fold : Bool} {cs rest : List Char} {s : CharSet}
    (h : readBracket d fold cs = .ok (s, rest)) : d.afterAtom? ('[' :: cs) = some rest := by
  -- Whether case is ignored does not matter for where the bracket expression ends.
  rw [afterAtom?, readBracket]
  rw [readBracket] at h
  split at h
  · cases h
  · cases h
    rfl

theorem atom_advances {c : Char} {rest : List Char} (hr : p.rest = c :: rest) (hop : d.operator? (c :: rest) = none)
    (h : d.atom o p c rest = .ok p') : d.Advances p p' := by
  have hpasses {rest' : List Char} (ha : d.afterAtom? (c :: rest) = some rest') : d.Passes p.rest rest' := by
    rw [hr]
    exact .single (by rw [lexeme?_none hop, ha, Option.map_some])
  have hchar (hb : c ≠ '[') (hs : c ≠ '\\') : d.afterAtom? (c :: rest) = some rest := by
    rw [afterAtom?.eq_def]
    split <;> simp_all
  rw [atom.eq_def] at h
  split at h
  · next hc =>
    cases h
    exact .passes (hpasses (hchar (by simp [hc]) (by simp [hc]))) rfl rfl rfl
  split at h
  · next hc =>
    cases h
    exact .passes (hpasses (hchar (by simp [hc.1]) (by simp [hc.1]))) rfl rfl rfl
  split at h
  · next hc =>
    cases h
    exact .passes (hpasses (hchar (by simp [hc.1]) (by simp [hc.1]))) rfl rfl rfl
  split at h
  · next hc =>
    subst hc
    split at h
    · cases h
    · next hread =>
      cases h
      exact .passes (hpasses (afterAtom?_bracket hread)) rfl rfl rfl
  next hb =>
  split at h
  · next hc =>
    subst hc
    obtain ⟨c', rfl, hgroups, hopened, houter⟩ := escape_rest h
    exact .passes (hpasses rfl) hgroups hopened houter
  · next hs =>
    cases h
    exact .passes (hpasses (hchar hb hs)) rfl rfl rfl

theorem step_advances {c : Char} {rest : List Char} (hr : p.rest = c :: rest) (h : d.step o p c rest = .ok p') :
    d.Advances p p' := by
  rw [step, ← hr] at h
  split at h
  · next hop => exact applyOperator_advances hop h
  · next hop => exact atom_advances hr (hr ▸ hop) h

section Tracing

open Lexeme

/-- The one text begins with a lexeme of the other. -/
def Reaches (d : Dialect) (pattern text : List Char) : Prop := ∃ ls, d.Scans pattern ls text

/-- The text begins with the opening of a group, which is still open at `rest`, with so many groups inside it. -/
def OpenAt (d : Dialect) (text rest : List Char) (depth : Nat) : Prop :=
  ∃ captures inner ls, d.lexeme? text = some (.opening captures, inner) ∧ d.Scans inner ls rest ∧
    depthAfter 0 ls = some depth

def openings : Frame → List Frame → List (List Char)
  | _, [] => []
  | f, g :: outer => f.opened :: openings g outer

structure Traced (d : Dialect) (pattern : List Char) (p : Progress) : Prop where
  scans : ∃ ls, d.Scans pattern ls p.rest ∧ p.groups = captures ls + 1 ∧
    (d.has .strayCloseOrdinary = false → depthAfter 0 ls = some p.outer.length)
  opened : ∀ i text, (openings p.frame p.outer)[i]? = some text → d.Reaches pattern text ∧ d.OpenAt text p.rest i

theorem openings_congr {f g : Frame} (h : g.opened = f.opened) (outer : List Frame) :
    openings g outer = openings f outer := by
  cases outer with
  | nil => rfl
  | cons f' outer => rw [openings, openings, h]

theorem Scans.of_single {cs rest : List Char} {l : Lexeme} (h : d.Scans cs [l] rest) :
    d.lexeme? cs = some (l, rest) := by
  cases h with
  | cons h hrest =>
    cases hrest
    exact h

theorem OpenAt.scans {text mid rest : List Char} {ls : List Lexeme} {i j : Nat} (h : d.OpenAt text mid i)
    (hls : d.Scans mid ls rest) (hdepth : depthAfter i ls = some j) : d.OpenAt text rest j := by
  obtain ⟨captures, inner, ls', hopen, hscans, hi⟩ := h
  refine ⟨captures, inner, ls' ++ ls, hopen, hscans.append hls, ?_⟩
  rw [depthAfter_append, hi, Option.bind_some, hdepth]

theorem obeys_groups {ls : List Lexeme} (h : p.Obeys d p' ls) : p'.groups = p.groups + captures ls := by
  cases h with
  | passes hls hgroups => rw [hgroups, captures_other hls, Nat.add_zero]
  | opens b hgroups =>
    rw [hgroups]
    cases b <;> rfl
  | closes _ hgroups => exact hgroups
  | stray _ _ hgroups => exact hgroups

theorem obeys_depth {ls : List Lexeme} (h : p.Obeys d p' ls) (hd : d.has .strayCloseOrdinary = false) :
    depthAfter p.outer.length ls = some p'.outer.length := by
  cases h with
  | passes hls _ _ houter => rw [depthAfter_other hls, houter]
  | opens _ _ _ houter =>
    rw [houter]
    simp [depthAfter]
  | closes hout _ _ houter =>
    rw [hout, houter]
    simp [depthAfter]
  | stray hd' => exact absurd (hd.symm.trans hd') (by decide)

theorem Traced.start (d : Dialect) (pattern : List Char) : d.Traced pattern (.start pattern) where
  scans := ⟨[], .nil pattern, rfl, fun _ => by simp [depthAfter, Progress.start]⟩
  opened i text h := by cases h

theorem Traced.step {pattern : List Char} (h : d.Traced pattern p) (ha : d.Advances p p') : d.Traced pattern p' := by
  obtain ⟨ls', hscans', hobeys⟩ := ha
  obtain ⟨ls, hscans, hgroups, hdepth⟩ := h.scans
  constructor
  · refine ⟨ls ++ ls', hscans.append hscans', ?_, ?_⟩
    · rw [obeys_groups hobeys, hgroups, captures, captures, captures, List.count_append]
      omega
    · intro hd
      rw [depthAfter_append, hdepth hd, Option.bind_some, obeys_depth hobeys hd]
  · intro i text hi
    cases hobeys with
    | passes hls _ hopened houter =>
      rw [houter, openings_congr hopened] at hi
      obtain ⟨hreach, hopen⟩ := h.opened i text hi
      exact ⟨hreach, hopen.scans hscans' (depthAfter_other hls i)⟩
    | opens b _ hopened houter =>
      rw [houter, openings, hopened] at hi
      cases i with
      | zero =>
        cases hi
        exact ⟨⟨ls, hscans⟩, b, _, [], hscans'.of_single, .nil _, by simp [depthAfter]⟩
      | succ i =>
        obtain ⟨hreach, hopen⟩ := h.opened i text hi
        exact ⟨hreach, hopen.scans hscans' (by simp [depthAfter])⟩
    | closes hout _ hopened houter =>
      rw [houter, openings_congr hopened] at hi
      obtain ⟨hreach, hopen⟩ := h.opened (i + 1) text (by rw [hout]; exact hi)
      exact ⟨hreach, hopen.scans hscans' (by simp [depthAfter])⟩
    | stray _ hout _ _ houter =>
      rw [houter, hout] at hi
      cases hi

theorem Traced.run {pattern : List Char} {q : Progress} (h : d.Traced pattern p) (hr : Run d o p q) :
    d.Traced pattern q := by
  induction hr with
  | refl => exact h
  | step hr hs _ ih => exact ih (h.step (step_advances hr hs))

end Tracing

end Dialect

end DialectRegex
