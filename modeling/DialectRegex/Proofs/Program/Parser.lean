import DialectRegex.Proofs.Grammar.Embedding
import DialectRegex.Proofs.Program.Cursor
import DialectRegex.Proofs.Program.Linking
import DialectRegex.Proofs.Program.WellFormed

namespace DialectRegex

open Dialect (Run)

namespace Dialect

variable {d : Dialect} {o : Options} {q q' : Progress} {cs : List Char}

theorem Run.single {c : Char} {rest : List Char} (hr : q.rest = c :: rest) (hs : d.step o q c rest = .ok q') :
    Run d o q q' := .step hr hs (.refl q')

theorem Run.trans {r : Progress} (h : Run d o q q') (h' : Run d o q' r) : Run d o q r := by
  induction h with
  | refl => exact h'
  | step hr hs _ ih => exact .step hr hs (ih h')

theorem Run.finish_eq (h : Run d o q q') : d.finish o q = d.finish o q' := by
  induction h with
  | refl => rfl
  | step hr hs _ ih => rw [finish_cons hr hs, ih]

theorem Run.length_le (h : Run d o q q') : q'.rest.length ≤ q.rest.length := by
  induction h with
  | refl => exact Nat.le_refl _
  | step hr hs _ ih =>
    have hlt := step_shorter hs
    rw [hr]
    omega

theorem Run.length_lt (h : Run d o q q') (hne : q' ≠ q) : q'.rest.length < q.rest.length := by
  cases h with
  | refl => exact absurd rfl hne
  | step hr hs h =>
    rw [hr]
    exact Nat.lt_of_le_of_lt h.length_le (step_shorter hs)

theorem finish_fault {c : Char} {rest : List Char} {e : Fault} (hr : q.rest = c :: rest)
    (hs : d.step o q c rest = .error e) : d.finish o q = .error e := by
  rw [finish_step hr, hs]

theorem operator?_pos {op : Operator} {n : Nat} (h : d.operator? cs = some (op, n)) : 0 < n := by
  rw [operator?.eq_def] at h
  split at h
  · obtain ⟨_, _, he⟩ := Option.map_eq_some_iff.mp h
    cases he
    exact Nat.two_pos
  · obtain ⟨_, _, he⟩ := Option.map_eq_some_iff.mp h
    cases he
    exact Nat.one_pos
  · cases h

theorem step_operator {op : Operator} {n : Nat} (h : d.operator? q.rest = some (op, n)) :
    ∃ c rest, q.rest = c :: rest ∧ d.step o q c rest = d.applyOperator o q (q.rest.drop n) op := by
  cases hr : q.rest with
  | nil =>
    rw [hr] at h
    cases h
  | cons c rest =>
    rw [hr] at h
    exact ⟨c, rest, rfl, by rw [step, h]⟩

def quantifier? (d : Dialect) (after : List Char) : Operator → Option (Char × Except Flaw (Bounds × List Char))
  | .star => some ('*', .ok (⟨0, none⟩, after))
  | .plus => some ('+', .ok (⟨1, none⟩, after))
  | .question => some ('?', .ok (⟨0, some 1⟩, after))
  | .intervalOpen => some ('\x7b', readInterval d after)
  | _ => none

section Quantifier

variable {after rest : List Char} {op : Operator} {c : Char} {n : Nat} {b : Bounds}
  {bounds : Except Flaw (Bounds × List Char)}

theorem applyOperator_quantifier (h : d.quantifier? after op = some (c, bounds)) :
    d.applyOperator o q after op = d.repetition o q c after bounds := by
  cases op <;> cases h <;> rfl

theorem quantifier?_suffix (h : d.quantifier? after op = some (c, .ok (b, rest))) : rest <:+ after := by
  cases op with
  | star | plus | question =>
    cases h
    exact List.suffix_rfl
  | intervalOpen =>
    rw [quantifier?, Option.some.injEq, Prod.mk.injEq] at h
    exact readInterval_suffix h.2
  | groupOpen | groupClose | bar => cases h

theorem quantifier?_char (hop : d.operator? cs = some (op, n)) (h : d.quantifier? after op = some (c, bounds)) :
    cs[n - 1]? = some c := by
  rw [operator?.eq_def] at hop
  split at hop
  · next c' rest =>
    obtain ⟨op', ho, he⟩ := Option.map_eq_some_iff.mp hop
    cases he
    rw [escapedOperator?.eq_def] at ho
    split at ho
    all_goals
      try split at ho
      all_goals cases ho <;> cases h <;> rfl
  · next c' rest _ =>
    obtain ⟨op', ho, he⟩ := Option.map_eq_some_iff.mp hop
    cases he
    rw [bareOperator?.eq_def] at ho
    split at ho
    all_goals
      try split at ho
      all_goals cases ho <;> cases h <;> rfl
  · cases hop

theorem repetition_error (hr : q.frame.repeatable = true) (e : Flaw) :
    d.repetition o q c after (.error e) = .error ⟨e, q.rest⟩ := by
  rw [repetition.eq_def, if_pos hr]

end Quantifier

end Dialect

namespace Parser

/-- The parse of what is left at `q` fails as the compilation does from there on, or comes to a later point of it. -/
def Ends (p : Parser) (q : Progress) {β : Type} (I : Progress → β → Prop) (x : Parse β) : Prop :=
  (∃ e, p.dialect.finish p.options q = .error e ∧ x = throw (e.locate p.chars)) ∨
    ∃ q' b, Run p.dialect p.options q q' ∧ I q' b ∧ x = pure b

namespace Ends

variable {p : Parser} {q q' : Progress} {β γ : Type} {I : Progress → β → Prop} {J : Progress → γ → Prop} {x : Parse β}

theorem fault {e : Fault} (h : p.dialect.finish p.options q = .error e) :
    Ends p q I (throw (e.locate p.chars)) := .inl ⟨e, h, rfl⟩

theorem ok {b : β} (hr : Run p.dialect p.options q q') (hi : I q' b) : Ends p q I (pure b) := .inr ⟨q', b, hr, hi, rfl⟩

theorem after (hr : Run p.dialect p.options q q') (h : Ends p q' I x) : Ends p q I x := by
  obtain ⟨e, h, rfl⟩ | ⟨q₁, b, hr', hi, rfl⟩ := h
  · exact .fault (hr.finish_eq.trans h)
  · exact .ok (hr.trans hr') hi

theorem bind {f : β → Parse γ} (h : Ends p q I x)
    (hf : ∀ q' b, Run p.dialect p.options q q' → I q' b → Ends p q' J (f b)) : Ends p q J (x >>= f) := by
  obtain ⟨e, h, rfl⟩ | ⟨q', b, hr, hi, rfl⟩ := h
  · exact .fault h
  · rw [pure_bind]
    exact .after hr (hf q' b hr hi)

theorem mono {I' : Progress → β → Prop} (h : Ends p q I x) (hi : ∀ q' b, I q' b → I' q' b) : Ends p q I' x := by
  obtain ⟨e, h, rfl⟩ | ⟨q', b, hr, h, rfl⟩ := h
  · exact .fault h
  · exact .ok hr (hi q' b h)

end Ends

structure Tracks (p : Parser) (s : Draft) (q : Progress) : Prop where
  here : p.At s.pos q.rest
  groups : s.groups = q.groups
  depth : s.depth = q.outer.length

structure Beside (q q' : Progress) : Prop where
  outer : q'.outer = q.outer
  kind : q'.frame.kind = q.frame.kind
  opened : q'.frame.opened = q.frame.opened
  finished : q'.frame.finished = q.frame.finished

theorem Beside.refl (q : Progress) : Beside q q := ⟨rfl, rfl, rfl, rfl⟩

theorem Beside.trans {q q' r : Progress} (h : Beside q q') (h' : Beside q' r) : Beside q r :=
  ⟨h'.outer.trans h.outer, h'.kind.trans h.kind, h'.opened.trans h.opened, h'.finished.trans h.finished⟩

def Settled (p : Parser) (q : Progress) : Prop :=
  q.frame.repeatable = true →
    ∀ op n, p.dialect.operator? q.rest = some (op, n) → p.dialect.quantifier? (q.rest.drop n) op = none

variable {p : Parser} {s s' : Draft} {q q' : Progress} {pos : Nat} {cs : List Char}

theorem fail_ends {β : Type} {I : Progress → β → Prop} {c : Char} {rest : List Char} {flaw : Flaw} (h : p.At pos cs)
    (hrest : q.rest = c :: rest) (hstep : p.dialect.step p.options q c rest = .error ⟨flaw, cs⟩) :
    Ends p q I (fail flaw pos) := by
  rw [fail_eq h]
  exact .fault (Dialect.finish_fault hrest hstep)

theorem bounds_eq (h : p.At pos cs) :
    p.bounds pos =
      match p.dialect.operator? cs with
      | none => pure none
      | some (op, n) =>
        match p.dialect.quantifier? (cs.drop n) op with
        | none => pure none
        | some (_, .error e) => fail e pos
        | some (_, .ok (b, rest)) => pure (some (b, p.chars.length - rest.length)) := by
  rw [bounds, operator?_eq h]
  cases hop : p.dialect.operator? cs with
  | none => rfl
  | some first =>
    obtain ⟨op, n⟩ := first
    have hat := h.drop (Dialect.operator?_le hop)
    cases op with
    | star | plus | question =>
      dsimp only
      rw [hat.pos_eq]
      rfl
    | intervalOpen =>
      dsimp only
      rw [interval_eq hat, Dialect.quantifier?]
      cases readInterval p.dialect (cs.drop n) <;> rfl
    | groupOpen | groupClose | bar => rfl

theorem readGreed_eq (h : p.At pos cs) :
    (p.dialect.readGreed cs).1 = !(p.dialect.has .stingyOperators && p.chars[pos]? == some '?') ∧
      p.At (if (p.dialect.readGreed cs).1 = true then pos else pos + 1) (p.dialect.readGreed cs).2 := by
  rw [h.head, Dialect.readGreed.eq_def]
  split
  · cases p.dialect.has .stingyOperators with
    | true => exact ⟨rfl, h.tail⟩
    | false => exact ⟨rfl, h⟩
  · next hq =>
    have hhead : cs.head? ≠ some '?' := fun he => (List.head?_eq_some_iff.mp he).elim fun rest he => hq rest he
    exact ⟨by simp [hhead], h⟩

theorem quantifiers_ends {n : Node} {ns : List Node} {x : Piece} {a : List Token × Bool} (ht : p.Tracks s q)
    (hn : q.frame.nodes = n :: ns) (hx : Piece.Stands n x a (s.tokens, s.hasBackref))
    (hr : q.frame.repeatable = true) :
    Ends p q (fun q' (r : Piece × Draft) => p.Tracks r.2 q' ∧ Beside q q' ∧ p.Settled q' ∧
      ∃ n', q'.frame.nodes = n' :: ns ∧ Piece.Stands n' r.1 a (r.2.tokens, r.2.hasBackref)) (p.quantifiers s x) := by
  induction hm : q.rest.length using Nat.strong_induction_on generalizing q s n x with
  | _ m ih =>
  rw [quantifiers.eq_def, bounds_eq ht.here]
  cases hop : p.dialect.operator? q.rest with
  | none =>
    refine .ok (.refl q) ⟨ht, .refl q, fun _ op n h => ?_, n, hn, hx⟩
    rw [hop] at h
    cases h
  | some first =>
    obtain ⟨op, len⟩ := first
    dsimp only
    cases hq : p.dialect.quantifier? (q.rest.drop len) op with
    | none =>
      refine .ok (.refl q) ⟨ht, .refl q, fun _ op' n h => ?_, n, hn, hx⟩
      rw [hop] at h
      cases h
      exact hq
    | some quantifier =>
      obtain ⟨c, bounds⟩ := quantifier
      obtain ⟨c', rest, hrest, hstep⟩ := Dialect.step_operator (o := p.options) hop
      rw [Dialect.applyOperator_quantifier hq] at hstep
      cases bounds with
      | error e =>
        rw [Dialect.repetition_error hr] at hstep
        exact fail_ends ht.here hrest hstep
      | ok bounds =>
        obtain ⟨b, rest'⟩ := bounds
        rw [Dialect.repetition_ok hr] at hstep
        have hsuffix := (Dialect.quantifier?_suffix hq).trans ((List.drop_suffix _ _).trans ht.here.suffix)
        obtain ⟨hgreed, hat⟩ := readGreed_eq (.of_suffix hsuffix)
        have hlt := Dialect.step_shorter hstep
        rw [← hrest, hm] at hlt
        have hframe : q.frame.repeatLast p.options.ignoreCase b.min b.max (p.dialect.readGreed rest').1 =
            { q.frame with nodes := .piece (.repeated (n.toPattern p.options.ignoreCase) b.min b.max
              (p.dialect.readGreed rest').1) :: ns } := by
          rw [Frame.repeatLast.eq_def, hn]
        rw [hframe] at hstep hlt
        refine .after (.single hrest hstep) ?_
        rw [pure_bind]
        dsimp only
        rw [← hgreed]
        refine Ends.mono (ih _ hlt ⟨hat, ht.groups, ht.depth⟩ rfl (hx.repeated _ _ _) hr rfl) ?_
        exact fun q' r h => ⟨h.1, ⟨h.2.1.outer, h.2.1.kind, h.2.1.opened, h.2.1.finished⟩, h.2.2⟩

structure Reads (p : Parser) (q : Progress) (a : List Token × Bool) (q' : Progress) (r : Piece × Draft) : Prop where
  tracks : p.Tracks r.2 q'
  beside : Beside q q'
  node : ∃ n, q'.frame.nodes = n :: q.frame.nodes ∧ Piece.Stands n r.1 a (r.2.tokens, r.2.hasBackref)
  repeatable : q'.frame.repeatable = !r.1.isAssertion

section Atom

variable {a : List Token × Bool} {rest : List Char} {c : Char} {x : Piece}

theorem Reads.push {n : Node} (h : p.Tracks s' (q.push rest n)) (hx : Piece.Stands n x a (s'.tokens, s'.hasBackref))
    (hr : x.isAssertion = false) : Reads p q a (q.push rest n) (x, s') := by
  refine ⟨h, ⟨rfl, rfl, rfl, rfl⟩, ⟨n, rfl, hx⟩, ?_⟩
  rw [hr]
  rfl

theorem Reads.assert {t : Test} {k : TokenKind} (h : p.Tracks s' (q.assert rest t))
    (hx : Piece.Stands (.piece (.test t)) (.assertion k) a (s'.tokens, s'.hasBackref)) :
    Reads p q a (q.assert rest t) (.assertion k, s') := ⟨h, ⟨rfl, rfl, rfl, rfl⟩, ⟨_, rfl, hx⟩, rfl⟩

theorem stands_test {t : Test} (ht : (Pattern.test t).hasBackref = false) (hx : x.kind? = some (.test t))
    (a : List Token × Bool) : Piece.Stands (.piece (.test t)) x a a := by
  have hstands := Piece.Stands.piece (q := .test t) a.1 a.2 rfl hx
  rwa [ht, Bool.or_false] at hstands

theorem charAt_eq (h : p.At pos (c :: cs)) : p.charAt pos = pure c := by
  rw [charAt, h.head]
  rfl

theorem endsAlternative_eq (h : p.At pos cs) : p.endsAlternative pos = p.dialect.endsAlternative cs := by
  have hlen := h.length_eq
  have hend : (pos == p.chars.length) = cs.isEmpty := by
    cases cs with
    | nil =>
      rw [← hlen]
      exact beq_self_eq_true _
    | cons c cs =>
      rw [List.length_cons] at hlen
      simp only [List.isEmpty_cons, beq_eq_false_iff_ne]
      omega
  rw [endsAlternative, hend, operator?_eq h]
  rfl

theorem backref_eq (d : Dialect) (o : Options) (q : Progress) (c : Char) (rest : List Char) :
    d.backref o q c rest =
      ((Text.digit? c).filter fun g => !(g = 0 || d.has .noBackrefs)).map fun g =>
        if q.groups ≤ g then .error ⟨.undefinedGroup g, q.rest⟩
        else .ok (q.push rest (.piece (.test (.backref g o.ignoreCase)))) := by
  rw [Dialect.backref.eq_def]
  cases Text.digit? c with
  | none => rfl
  | some g =>
    rw [Option.filter_some]
    dsimp only
    split
    · next h => rw [h]; rfl
    · next h =>
      rw [Bool.not_eq_true] at h
      rw [h]
      simp only [Bool.not_false, if_pos, Option.map_some]
      split <;> rfl

theorem escape_ends (h : p.Tracks s q) (hrest : q.rest = '\\' :: rest)
    (hstep : p.dialect.step p.options q '\\' rest = p.dialect.escape p.options q rest) :
    Ends p q (Reads p q (s.tokens, s.hasBackref)) (p.escape { s with pos := s.pos + 1 }) := by
  have hat : p.At (s.pos + 1) rest := (hrest ▸ h.here).tail
  rw [escape, hat.head]
  cases rest with
  | nil => exact fail_ends h.here hrest (hstep.trans rfl)
  | cons c rest =>
    have hread : p.At (s.pos + 1 + 1) rest := hat.tail
    rw [List.head?_cons]
    rw [Dialect.escape, backref_eq] at hstep
    dsimp only at hstep ⊢
    cases hf : (Text.digit? c).filter fun g => !(g = 0 || p.dialect.has .noBackrefs) with
    | some g =>
      rw [hf, Option.map_some] at hstep
      dsimp only at hstep ⊢
      rw [h.groups]
      by_cases hg : q.groups ≤ g
      · rw [if_pos hg] at hstep ⊢
        exact fail_ends h.here hrest hstep
      · rw [if_neg hg] at hstep ⊢
        refine .ok (.single hrest hstep) (.push ⟨hread, rfl, h.depth⟩ ?_ rfl)
        have hstands := Piece.Stands.piece (q := .test (.backref g p.options.ignoreCase))
          (x := .token (.test (.backref g p.options.ignoreCase))) s.tokens s.hasBackref rfl rfl
        rwa [Pattern.hasBackref, Bool.or_true] at hstands
    | none =>
      rw [hf, Option.map_none] at hstep
      dsimp only at hstep ⊢
      cases ha : p.dialect.escapedAssertion? c with
      | some t =>
        rw [ha] at hstep
        have hnone : (Pattern.test t).hasBackref = false := by
          cases Dialect.escapedAssertion?_assertion (o := p.options) ha <;> rfl
        exact .ok (.single hrest hstep) (.assert ⟨hread, h.groups, h.depth⟩ (stands_test hnone rfl _))
      | none =>
        rw [ha, Dialect.escapedNode] at hstep
        dsimp only at hstep ⊢
        by_cases hd : p.dialect.has .classEscapes = true
        · rw [if_pos hd] at hstep ⊢
          cases hk : CharClass.ofEscape? c with
          | some named =>
            rw [hk] at hstep
            exact .ok (.single hrest hstep) (.push ⟨hread, h.groups, h.depth⟩ (stands_test rfl rfl _) rfl)
          | none =>
            cases hc : controlEscape? c with
            | some control =>
              rw [hk, hc] at hstep
              exact .ok (.single hrest hstep) (.push ⟨hread, h.groups, h.depth⟩ (.char _ _) rfl)
            | none =>
              rw [hk, hc] at hstep
              exact .ok (.single hrest hstep) (.push ⟨hread, h.groups, h.depth⟩ (.char _ _) rfl)
        · rw [if_neg hd] at hstep ⊢
          exact .ok (.single hrest hstep) (.push ⟨hread, h.groups, h.depth⟩ (.char _ _) rfl)

theorem atom_ends (h : p.Tracks s q) (hrest : q.rest = c :: rest) (hop : p.dialect.operator? q.rest = none) :
    Ends p q (Reads p q (s.tokens, s.hasBackref)) (p.atom s q.frame.nodes.isEmpty) := by
  have hhere : p.At s.pos (c :: rest) := hrest ▸ h.here
  have hat := hhere.tail
  have hstep : p.dialect.step p.options q c rest = p.dialect.atom p.options q c rest := by
    rw [Dialect.step, ← hrest, hop]
  rw [atom, charAt_eq hhere, pure_bind]
  dsimp only
  by_cases hdot : c = '.'
  · rw [Dialect.atom.eq_def, if_pos hdot] at hstep
    rw [if_pos hdot]
    exact .ok (.single hrest hstep) (.push ⟨hat, h.groups, h.depth⟩ (stands_test rfl rfl _) rfl)
  by_cases hcaret : c = '^' ∧ (q.frame.nodes.isEmpty || p.dialect.has .anchorsAnywhere) = true
  · rw [Dialect.atom.eq_def, if_neg hdot, if_pos hcaret] at hstep
    rw [if_neg hdot, if_pos hcaret]
    exact .ok (.single hrest hstep) (.assert ⟨hat, h.groups, h.depth⟩ (stands_test rfl rfl _))
  rw [endsAlternative_eq hat]
  by_cases hdollar : c = '$' ∧ (p.dialect.has .anchorsAnywhere || p.dialect.endsAlternative rest) = true
  · rw [Dialect.atom.eq_def, if_neg hdot, if_neg hcaret, if_pos hdollar] at hstep
    rw [if_neg hdot, if_neg hcaret, if_pos hdollar]
    exact .ok (.single hrest hstep) (.assert ⟨hat, h.groups, h.depth⟩ (stands_test rfl rfl _))
  by_cases hbracket : c = '['
  · rw [Dialect.atom.eq_def, if_neg hdot, if_neg hcaret, if_neg hdollar, if_pos hbracket] at hstep
    rw [if_neg hdot, if_neg hcaret, if_neg hdollar, if_pos hbracket, bracket_eq (hbracket ▸ hhere)]
    cases hb : readBracket p.dialect p.options.ignoreCase rest with
    | error e =>
      rw [hb] at hstep
      exact .fault (Dialect.finish_fault hrest hstep)
    | ok r =>
      rw [hb] at hstep
      have hsuffix := Dialect.step_suffix hrest hstep
      exact .ok (.single hrest hstep)
        (.push ⟨.of_suffix (hsuffix.trans hat.suffix), h.groups, h.depth⟩ (stands_test rfl rfl _) rfl)
  rw [if_neg hdot, if_neg hcaret, if_neg hdollar, if_neg hbracket]
  rw [Dialect.atom.eq_def, if_neg hdot, if_neg hcaret, if_neg hdollar, if_neg hbracket] at hstep
  by_cases hslash : c = '\\'
  · subst hslash
    rw [if_pos rfl] at hstep ⊢
    exact escape_ends h hrest hstep
  · rw [if_neg hslash] at hstep ⊢
    exact .ok (.single hrest hstep) (.push ⟨hat, h.groups, h.depth⟩ (.char _ _) rfl)

theorem nothingToRepeat_ends {op : Operator} {n : Nat} {bounds : Except Flaw (Bounds × List Char)} (h : p.Tracks s q)
    (hop : p.dialect.operator? q.rest = some (op, n))
    (hq : p.dialect.quantifier? (q.rest.drop n) op = some (c, bounds)) (hr : q.frame.repeatable = false) :
    Ends p q (Reads p q (s.tokens, s.hasBackref)) (p.nothingToRepeat s n) := by
  obtain ⟨c', rest, hrest, hstep⟩ := Dialect.step_operator (o := p.options) hop
  rw [Dialect.applyOperator_quantifier hq, Dialect.repetition.eq_def, if_neg (by rw [hr]; exact Bool.false_ne_true)]
    at hstep
  rw [nothingToRepeat]
  split at hstep
  · next hd =>
    rw [if_pos hd]
    exact fail_ends h.here hrest hstep
  · next hd =>
    have hchar : p.charAt (s.pos + n - 1) = pure c := by
      have hlast := h.here.getElem?_eq (n - 1)
      rw [Dialect.quantifier?_char hop hq, ← Nat.add_sub_assoc (Dialect.operator?_pos hop)] at hlast
      rw [charAt, hlast]
      rfl
    rw [if_neg hd, hchar]
    exact .ok (.single hrest hstep)
      (.push ⟨h.here.drop (Dialect.operator?_le hop), h.groups, h.depth⟩ (.char _ _) rfl)

end Atom

section Group

variable {rest : List Char} {len : Nat}

theorem dropWhile_idxOf? (c : Char) (cs : List Char) :
    match cs.idxOf? c with
    | none => cs.dropWhile (· != c) = []
    | some n => n < cs.length ∧ cs.dropWhile (· != c) = c :: cs.drop (n + 1) := by
  induction cs with
  | nil => rfl
  | cons x cs ih =>
    rw [List.idxOf?_cons, List.dropWhile_cons]
    by_cases hx : x = c
    · subst hx
      simp
    · have hb : (x == c) = false := beq_eq_false_iff_ne.mpr hx
      rw [hb, bne, hb]
      cases hi : cs.idxOf? c with
      | none =>
        rw [hi] at ih
        exact ih
      | some n =>
        rw [hi] at ih
        exact ⟨Nat.succ_lt_succ ih.1, ih.2⟩

def Opens (p : Parser) (s : Draft) (q q' : Progress) : Option GroupKind × Nat → Prop
  | (none, pos) => p.Tracks { s with pos } q' ∧ q'.outer = q.outer ∧ q'.frame = { q.frame with repeatable := false } ∧
      q'.rest.length < q.rest.length
  | (some kind, pos) => p.Tracks (s.enter pos kind) q' ∧ q'.outer = q.frame :: q.outer ∧ q'.frame = .begin kind q.rest

theorem opening_ends (h : p.Tracks s q) (hop : p.dialect.operator? q.rest = some (.groupOpen, len)) :
    Ends p q (Opens p s q) (p.opening s len) := by
  obtain ⟨c, rest, hrest, hstep⟩ := Dialect.step_operator (o := p.options) hop
  have hafter : p.At (s.pos + len) (q.rest.drop len) := h.here.drop (Dialect.operator?_le hop)
  generalize q.rest.drop len = after at hstep hafter
  have hbegin {kind : GroupKind} {pos : Nat} {rest' : List Char} (hat : p.At pos rest')
      (hk : s.enter pos kind = { s with pos, depth := s.depth + 1 }) :
      Opens p s q (q.beginGroup rest' kind) (some kind, pos) := by
    refine ⟨?_, rfl, rfl⟩
    rw [hk]
    exact ⟨hat, h.groups, congrArg (· + 1) h.depth⟩
  rw [opening]
  by_cases hflag : p.dialect.hasGroupFlags = true ∧ p.chars[s.pos + len]? = some '?'
  · obtain ⟨hflags, hquestion⟩ := hflag
    rw [hafter.head] at hquestion
    obtain ⟨flagged, rfl⟩ := List.head?_eq_some_iff.mp hquestion
    rw [Dialect.applyOperator] at hstep
    rw [if_pos ⟨hflags, hafter.head⟩, hafter.second]
    cases flagged with
    | nil =>
      rw [Dialect.openGroup, if_pos hflags] at hstep
      exact fail_ends h.here hrest hstep
    | cons flag rest' =>
      have hat : p.At (s.pos + len + 2) rest' := hafter.tail.tail
      rw [Dialect.openGroup_flag hflags] at hstep
      rw [List.head?_cons]
      dsimp only
      by_cases hplain : flag = ':' ∧ p.dialect.has .pureGrouping
      · rw [if_pos hplain] at hstep ⊢
        exact .ok (.single hrest hstep) (hbegin hat rfl)
      by_cases hlook : flag = '=' ∧ p.dialect.has .lookahead
      · rw [if_neg hplain, if_pos hlook] at hstep ⊢
        exact .ok (.single hrest hstep) (hbegin hat rfl)
      by_cases hnot : flag = '!' ∧ p.dialect.has .lookahead
      · rw [if_neg hplain, if_neg hlook, if_pos hnot] at hstep ⊢
        exact .ok (.single hrest hstep) (hbegin hat rfl)
      by_cases hcomment : flag = '#' ∧ p.dialect.has .comments
      · rw [if_neg hplain, if_neg hlook, if_neg hnot, if_pos hcomment] at hstep ⊢
        have hskip : ('?' :: flag :: rest').dropWhile (· != ')') = rest'.dropWhile (· != ')') := by
          rw [hcomment.1]
          rfl
        have hclose := dropWhile_idxOf? ')' ('?' :: flag :: rest')
        rw [← hskip] at hstep
        rw [slice_eq hafter, pure_bind]
        cases hi : ('?' :: flag :: rest').idxOf? ')' with
        | none =>
          rw [hi] at hclose
          rw [hclose] at hstep
          exact fail_ends h.here hrest hstep
        | some n =>
          rw [hi] at hclose
          rw [hclose.2] at hstep
          exact .ok (.single hrest hstep)
            ⟨⟨hafter.drop hclose.1, h.groups, h.depth⟩, rfl, rfl, hrest ▸ Dialect.step_shorter hstep⟩
      · rw [if_neg hplain, if_neg hlook, if_neg hnot, if_neg hcomment] at hstep ⊢
        exact fail_ends hafter.tail hrest hstep
  · have hcapture : p.dialect.applyOperator p.options q after .groupOpen = .ok (q.beginCapture after) := by
      rw [Dialect.applyOperator, Dialect.openGroup.eq_def]
      split
      · rw [if_neg fun hf => hflag ⟨hf, hafter.head⟩]
      · rfl
    rw [hcapture] at hstep
    rw [if_neg hflag, h.groups]
    exact .ok (.single hrest hstep) ⟨⟨hafter, congrArg (· + 1) h.groups, congrArg (· + 1) h.depth⟩, rfl, rfl⟩

end Group

section Sequence

def Stops (p : Parser) (q : Progress) : Prop :=
  q.rest = [] ∨ (∃ n, p.dialect.operator? q.rest = some (.bar, n)) ∨
    (∃ n, p.dialect.operator? q.rest = some (.groupClose, n)) ∧ q.outer ≠ []

structure Sequences (p : Parser) (base : List Token × Bool) (q q' : Progress) (r : Nat × Draft) : Prop where
  tracks : p.Tracks r.2 q'
  beside : Beside q q'
  stops : p.Stops q'
  single : (q'.frame.sequence p.options.ignoreCase).Single
  layout : (q'.frame.sequence p.options.ignoreCase).layout.sequence base.1 = (r.1, r.2.tokens)
  hasBackref : (base.2 || (q'.frame.sequence p.options.ignoreCase).hasBackref) = r.2.hasBackref

def ReadsSequences (p : Parser) (n : Nat) : Prop :=
  ∀ {s : Draft} {q : Progress} {xs : List Piece} {base : List Token × Bool}, q.rest.length ≤ n → p.Tracks s q →
    Piece.Holds base q.frame.nodes xs (s.tokens, s.hasBackref) → p.Settled q →
    Ends p q (Sequences p base q) (p.sequence s xs)

structure Alternates (p : Parser) (base : List Token × Bool) (q q' : Progress) (r : List Nat × Draft) : Prop where
  tracks : p.Tracks r.2 q'
  outer : q'.outer = q.outer
  opened : q'.frame.opened = q.frame.opened
  kind : q'.frame.kind = q.frame.kind
  stops : q'.rest = [] ∨ (∃ n, p.dialect.operator? q'.rest = some (.groupClose, n)) ∧ q'.outer ≠ []
  layout : (q'.frame.body p.options.ignoreCase).layout.alternatives base.1 = (r.1, r.2.tokens)
  hasBackref : (base.2 || (q'.frame.body p.options.ignoreCase).hasBackref) = r.2.hasBackref

variable {base a : List Token × Bool} {xs : List Piece} {is : List Nat} {n : Nat}

theorem sequences_chain (h : p.Tracks s q) (hxs : Piece.Holds base q.frame.nodes xs (s.tokens, s.hasBackref))
    (hs : p.Stops q) : Ends p q (Sequences p base q) (pure (s.chain p.options.ignoreCase xs)) := by
  refine .ok (.refl q) ⟨⟨h.here, h.groups, h.depth⟩, .refl q, hs, hxs.single fun _ => rfl, hxs.chain_eq, ?_⟩
  exact hxs.hasBackref_eq.trans (Bool.or_false _)

theorem extend_ends (hseq : p.ReadsSequences n) {x : Piece} (h : Reads p q a q' (x, s)) (hn : q'.rest.length ≤ n)
    (hxs : Piece.Holds base q.frame.nodes xs a) : Ends p q' (Sequences p base q) (p.extend s xs x) := by
  have hmono {r r' : Progress} {b : Nat × Draft} (hr : Beside q r) (hs : Sequences p base r r' b) :
      Sequences p base q r' b := { hs with beside := hr.trans hs.beside }
  obtain ⟨m, hm, hx⟩ := h.node
  have hrepeatable := h.repeatable
  have hquantified (hr : q'.frame.repeatable = true) : Ends p q' (Sequences p base q)
      (p.quantifiers s x >>= fun r => p.sequence r.2 (xs ++ [r.1])) := by
    refine (quantifiers_ends h.tracks hm hx hr).bind ?_
    rintro r ⟨x', s'⟩ hrun ⟨htracks, hbeside, hsettled, m', hm', hx'⟩
    refine (hseq (hrun.length_le.trans hn) htracks ?_ hsettled).mono fun r' b hs =>
      hmono (h.beside.trans hbeside) hs
    rw [hm']
    exact hxs.snoc hx'
  rw [extend.eq_def]
  cases x with
  | assertion k =>
    refine (hseq hn h.tracks ?_ fun hr => ?_).mono fun r b hs => hmono h.beside hs
    · rw [hm]
      exact hxs.snoc hx
    · rw [hrepeatable] at hr
      cases hr
  | char c => exact hquantified hrepeatable
  | token k => exact hquantified hrepeatable

theorem alternatives_ends (hseq : p.ReadsSequences n) (hn : q.rest.length ≤ n) (h : p.Tracks s q)
    (hnodes : q.frame.nodes = []) (hr : q.frame.repeatable = false)
    (his : Piece.Gathers base q.frame.finished is (s.tokens, s.hasBackref)) :
    Ends p q (Alternates p base q) (p.alternatives s is) := by
  induction hm : q.rest.length using Nat.strong_induction_on generalizing q s is with
  | _ m ih =>
  rw [alternatives.eq_def]
  have hfirst : Ends p q (Sequences p (s.tokens, s.hasBackref) q) (p.sequence s []) := by
    refine hseq hn h ?_ fun ht => ?_
    · rw [hnodes]
      exact .nil
    · rw [hr] at ht
      cases ht
  refine hfirst.bind ?_
  rintro q' ⟨i, s'⟩ hrun hs
  have hlayout := hs.layout
  have hfinished := hs.beside.finished
  have hdone (hd : q'.rest = [] ∨ (∃ n, p.dialect.operator? q'.rest = some (.groupClose, n)) ∧ q'.outer ≠ []) :
      Ends p q' (Alternates p base q) (pure (is ++ [i], s')) := by
    refine .ok (.refl q') ⟨hs.tracks, hs.beside.outer, hs.beside.opened, hs.beside.kind, hd, ?_, ?_⟩
    · rw [Frame.body, hfinished, his.alternatives_eq, hs.single, hlayout]
    · rw [Frame.body, hfinished, his.hasBackref_eq, hs.hasBackref]
  dsimp only
  rw [operator?_eq hs.tracks.here]
  rcases hs.stops with hend | ⟨len, hbar⟩ | ⟨⟨len, hclose⟩, hout⟩
  · rw [hend]
    exact hdone (.inl hend)
  · obtain ⟨c, rest, hrest, hstep⟩ := Dialect.step_operator (o := p.options) hbar
    have hlt := Dialect.step_shorter hstep
    rw [← hrest] at hlt
    have hshorter := Nat.lt_of_lt_of_le hlt hrun.length_le
    rw [hbar]
    refine .after (.single hrest hstep) ?_
    refine Ends.mono (ih _ (hm ▸ hshorter) ((Nat.le_of_lt hshorter).trans hn)
      ⟨hs.tracks.here.drop (Dialect.operator?_le hbar), hs.tracks.groups, hs.tracks.depth⟩ rfl rfl ?_ rfl) ?_
    · have hsnoc := his.snoc (q := q'.frame.sequence p.options.ignoreCase)
      rw [hlayout, hs.hasBackref, ← hfinished] at hsnoc
      exact hsnoc
    · exact fun r b hb => { hb with
        outer := hb.outer.trans hs.beside.outer
        opened := hb.opened.trans hs.beside.opened
        kind := hb.kind.trans hs.beside.kind }
  · rw [hclose]
    exact hdone (.inr ⟨⟨len, hclose⟩, hout⟩)

theorem Alternates.closed {q₁ q₂ : Progress} {inner : Draft} {rest : List Char} {kind : GroupKind}
    (h : Alternates p (s.tokens, s.hasBackref) q₁ q₂ (is, inner)) (hk : q₂.frame.kind = kind) (hat : p.At pos rest) :
    Reads p q (s.tokens, s.hasBackref)
      { q₂ with rest, frame := q.frame.addGroup q₂.frame p.options.ignoreCase, outer := q.outer }
      ({ inner with pos, depth := q.outer.length }.close is kind) := by
  have hgroup (g : Option Nat) := Piece.stands_group h.layout g s.hasBackref
  have hlook (negated : Bool) := Piece.stands_look h.layout negated s.hasBackref
  rw [h.hasBackref] at hgroup hlook
  rw [Frame.addGroup, hk]
  cases kind with
  | capturing g => exact ⟨⟨hat, h.tracks.groups, rfl⟩, ⟨rfl, rfl, rfl, rfl⟩, ⟨_, rfl, hgroup (some g)⟩, rfl⟩
  | plain => exact ⟨⟨hat, h.tracks.groups, rfl⟩, ⟨rfl, rfl, rfl, rfl⟩, ⟨_, rfl, hgroup none⟩, rfl⟩
  | look negated => exact ⟨⟨hat, h.tracks.groups, rfl⟩, ⟨rfl, rfl, rfl, rfl⟩, ⟨_, rfl, hlook negated⟩, rfl⟩

def Groups (p : Parser) (s : Draft) (q q' : Progress) : Option Piece × Draft → Prop
  | (none, s') => Opens p s q q' (none, s'.pos) ∧ s' = { s with pos := s'.pos }
  | (some x, s') => Reads p q (s.tokens, s.hasBackref) q' (x, s')

theorem group_ends {len : Nat} (hseq : p.ReadsSequences n) (hn : q.rest.length ≤ n + 1) (h : p.Tracks s q)
    (hop : p.dialect.operator? q.rest = some (.groupOpen, len)) : Ends p q (Groups p s q) (p.group s len) := by
  rw [group.eq_def]
  refine (opening_ends h hop).bind ?_
  rintro q₁ ⟨kind, pos⟩ hrun hopens
  cases kind with
  | none => exact .ok (.refl q₁) ⟨hopens, rfl⟩
  | some kind =>
    obtain ⟨htracks, houter, hframe⟩ := hopens
    have hlt : q₁.rest.length < q.rest.length := hrun.length_lt fun he => by
      rw [he] at houter
      exact absurd (congrArg List.length houter) (by simp)
    have hbase : ((s.enter pos kind).tokens, (s.enter pos kind).hasBackref) = (s.tokens, s.hasBackref) := by
      cases kind <;> rfl
    have hinner : Ends p q₁ (Alternates p (s.tokens, s.hasBackref) q₁) (p.alternatives (s.enter pos kind) []) := by
      refine alternatives_ends hseq (by omega) htracks ?_ ?_ ?_
      · rw [hframe]
        rfl
      · rw [hframe]
        rfl
      · rw [hframe, hbase]
        exact .nil
    refine hinner.bind ?_
    rintro q₂ ⟨is, inner⟩ - hb
    have houter₂ : q₂.outer = q.frame :: q.outer := hb.outer.trans houter
    have hopened : q₂.frame.opened = q.rest := hb.opened.trans (by rw [hframe]; rfl)
    have hkind : q₂.frame.kind = kind := hb.kind.trans (by rw [hframe]; rfl)
    have hleave : inner.leave = pure { inner with depth := q.outer.length } := by
      rw [Draft.leave, hb.tracks.depth, houter₂, List.length_cons]
    dsimp only
    rw [hleave, pure_bind]
    dsimp only
    rw [operator?_eq hb.tracks.here]
    rcases hb.stops with hend | ⟨⟨len, hclose⟩, -⟩
    · rw [hend]
      have hfault : p.dialect.finish p.options q₂ = .error ⟨.unmatchedOpen, q.rest⟩ := by
        rw [Dialect.finish_nil hend, houter₂, hopened]
        rfl
      exact fail_eq h.here _ ▸ .fault hfault
    · obtain ⟨c, rest, hrest, hstep⟩ := Dialect.step_operator (o := p.options) hclose
      have hat := hb.tracks.here.drop (Dialect.operator?_le hclose)
      rw [Dialect.applyOperator, Dialect.closeGroup, houter₂] at hstep
      rw [hclose]
      exact .ok (.single hrest hstep) (hb.closed hkind hat)

theorem sequence_end (h : p.Tracks s q) (hend : q.rest = [])
    (hxs : Piece.Holds base q.frame.nodes xs (s.tokens, s.hasBackref)) :
    Ends p q (Sequences p base q) (p.sequence s xs) := by
  have hlen := h.here.length_eq
  rw [hend, List.length_nil, Nat.add_zero] at hlen
  rw [sequence.eq_def, if_pos (Nat.le_of_eq hlen.symm)]
  exact sequences_chain h hxs (.inl hend)

theorem Reads.length_lt {r : Piece × Draft} (h : Reads p q a q' r) (hrun : Run p.dialect p.options q q') :
    q'.rest.length < q.rest.length := by
  refine hrun.length_lt fun he => ?_
  obtain ⟨m, hm, -⟩ := h.node
  rw [he] at hm
  exact absurd (congrArg List.length hm) (by simp)

theorem piece_ends (hseq : p.ReadsSequences n) (hn : q.rest.length ≤ n + 1) {r : Parse (Piece × Draft)}
    (hr : Ends p q (Reads p q a) r) (hxs : Piece.Holds base q.frame.nodes xs a) :
    Ends p q (Sequences p base q) (r >>= fun x => p.extend x.2 xs x.1) := by
  refine hr.bind ?_
  rintro q' ⟨x, s⟩ hrun h
  have hlt := h.length_lt hrun
  exact extend_ends hseq h (by omega) hxs

theorem close_ends {len : Nat} (hseq : p.ReadsSequences n) (hn : q.rest.length ≤ n + 1) (h : p.Tracks s q)
    (hop : p.dialect.operator? q.rest = some (.groupClose, len))
    (hxs : Piece.Holds base q.frame.nodes xs (s.tokens, s.hasBackref)) :
    Ends p q (Sequences p base q)
      (if 0 < s.depth then pure (s.chain p.options.ignoreCase xs)
      else if p.dialect.has .strayCloseOrdinary then p.extend { s with pos := s.pos + len } xs (.char ')')
      else fail .unmatchedClose s.pos) := by
  by_cases hdepth : 0 < s.depth
  · rw [if_pos hdepth]
    refine sequences_chain h hxs (.inr (.inr ⟨⟨len, hop⟩, fun hout => ?_⟩))
    rw [h.depth, hout] at hdepth
    exact absurd hdepth (Nat.lt_irrefl 0)
  have hout : q.outer = [] := by
    rw [h.depth] at hdepth
    exact List.length_eq_zero_iff.mp (Nat.eq_zero_of_not_pos hdepth)
  obtain ⟨c, rest, hrest, hstep⟩ := Dialect.step_operator (o := p.options) hop
  rw [Dialect.applyOperator, Dialect.closeGroup, hout] at hstep
  rw [if_neg hdepth]
  dsimp only at hstep
  by_cases hd : p.dialect.has .strayCloseOrdinary = true
  · rw [if_pos hd] at hstep ⊢
    have hread : Reads p q (s.tokens, s.hasBackref) (q.push (q.rest.drop len) (.char ')'))
        (.char ')', { s with pos := s.pos + len }) :=
      .push ⟨h.here.drop (Dialect.operator?_le hop), h.groups, h.depth⟩ (.char _ _) rfl
    exact piece_ends hseq hn (.ok (.single hrest hstep) hread) hxs
  · rw [if_neg hd] at hstep ⊢
    exact fail_ends h.here hrest hstep

theorem readsSequences (p : Parser) (n : Nat) : p.ReadsSequences n := by
  -- Whatever follows a piece, and whatever is inside a group, is shorter than what begins with it.
  induction n with
  | zero => exact fun hn h hxs _ => sequence_end h (List.length_eq_zero_iff.mp (Nat.le_zero.mp hn)) hxs
  | succ n ih =>
    intro s q xs base hn h hxs hsettled
    cases hrest : q.rest with
    | nil => exact sequence_end h hrest hxs
    | cons c rest =>
      have hlen := h.here.length_eq
      rw [hrest, List.length_cons] at hlen
      rw [sequence.eq_def, if_neg (by omega), operator?_eq h.here]
      have hbare {op : Operator} {len : Nat} {quantifier : Char × Except Flaw (Bounds × List Char)}
          (hop : p.dialect.operator? q.rest = some (op, len))
          (hq : p.dialect.quantifier? (q.rest.drop len) op = some quantifier) :
          Ends p q (Sequences p base q) (p.nothingToRepeat s len >>= fun x => p.extend x.2 xs x.1) := by
        have hr : q.frame.repeatable = false := by
          by_contra hr
          have hnone := hsettled (Bool.eq_true_of_not_eq_false hr) op len hop
          rw [hq] at hnone
          cases hnone
        exact piece_ends ih hn (nothingToRepeat_ends h hop hq hr) hxs
      cases hop : p.dialect.operator? q.rest with
      | none =>
        have hatom := atom_ends h hrest hop
        rw [← hxs.isEmpty_eq] at hatom
        exact piece_ends ih hn hatom hxs
      | some first =>
        obtain ⟨op, len⟩ := first
        cases op with
        | star => exact hbare hop rfl
        | plus => exact hbare hop rfl
        | question => exact hbare hop rfl
        | intervalOpen => exact hbare hop rfl
        | bar => exact sequences_chain h hxs (.inr (.inl ⟨len, hop⟩))
        | groupClose => exact close_ends ih hn h hop hxs
        | groupOpen =>
          refine (group_ends ih hn h hop).bind ?_
          rintro q' ⟨x, s'⟩ hrun hgroup
          cases x with
          | some x =>
            have hlt := Reads.length_lt hgroup hrun
            exact extend_ends ih hgroup (by omega) hxs
          | none =>
            obtain ⟨⟨htracks, houter, hframe, hlt⟩, hs⟩ := hgroup
            rw [← hs] at htracks
            have hbeside : Beside q q' := ⟨houter, by rw [hframe], by rw [hframe], by rw [hframe]⟩
            refine (ih (by omega) htracks ?_ ?_).mono fun r b hb => { hb with beside := hbeside.trans hb.beside }
            · rw [hframe, hs]
              exact hxs
            · rw [Settled, hframe]
              exact fun hr => Bool.noConfusion hr

end Sequence

/-- Parsing adds one token after the other and ends with the program that the compiled pattern is laid out as, or with
the error of the compilation. It reads nothing outside of the text. -/
theorem parse_eq (source : String) (d : Dialect) (o : Options) :
    parse ⟨d, o, source.toList⟩ =
      match Regex.compile source d o with
      | .error e => throw e
      | .ok r => pure r.program := by
  have hstart : Tracks ⟨d, o, source.toList⟩ .start (.start source.toList) := ⟨⟨[], rfl, rfl⟩, rfl, rfl⟩
  have hends := alternatives_ends (readsSequences _ source.toList.length) (Nat.le_refl _) hstart rfl rfl .nil
  rw [parse]
  obtain ⟨e, hf, hx⟩ | ⟨q, ⟨is, s⟩, hrun, h, hx⟩ := hends
  · rw [Regex.compile, compile, hf, hx]
    rfl
  · have hout : q.outer = [] := h.outer
    -- Outside of all groups, only the end of the text ends the last alternative.
    have hend : q.rest = [] := h.stops.resolve_right fun hc => hc.2 hout
    have hpos : s.pos = source.toList.length := by
      have hlen := h.tracks.here.length_eq
      rwa [hend] at hlen
    have hgroups : s.groups = q.groups := h.tracks.groups
    have hlayout : (q.frame.body o.ignoreCase).layout.alternatives [⟨.tail, 0⟩] = (is, s.tokens) := h.layout
    have hbackref : (q.frame.body o.ignoreCase).hasBackref = s.hasBackref := h.hasBackref
    have hcompile : compile d o source.toList = .ok (q.frame.body o.ignoreCase, q.groups) := by
      rw [compile, hrun.finish_eq, Dialect.finish_nil hend, hout]
      rfl
    obtain ⟨r, hr, hbody, hcount⟩ : ∃ r, Regex.compile source d o = .ok r ∧ r.body = q.frame.body o.ignoreCase ∧
        r.groupCount = q.groups := by
      rw [Regex.compile, hcompile]
      exact ⟨_, rfl, rfl, rfl⟩
    rw [hr, hx, pure_bind]
    dsimp only
    rw [if_neg (not_not_intro hpos), Regex.program_eq, hbody, hcount, hlayout, hbackref, ← hgroups]
    simp [Draft.push, pushToken, Program.around]

end Parser

end DialectRegex
