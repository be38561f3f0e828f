import DialectRegex.Program.Layout
import DialectRegex.Proofs.Grammar.Forms

namespace DialectRegex

namespace TokenKind

def isLiteral : TokenKind → Bool
  | test (.literal _ _) => true
  | _ => false

def isRepeatable : TokenKind → Bool
  | test (.anchor _ _) => false
  | test (.boundary _) => false
  | test _ => true
  | repeated _ _ _ _ => true
  | group _ _ => true
  | _ => false

def Fits (ts : List Token) : TokenKind → Prop
  | tail => False
  | test (.literal cs _) => cs ≠ []
  | test _ => True
  | repeated i min max _ => InOrder min max ∧ ∃ k, ts[i]? = some ⟨k, 0⟩ ∧ k.isRepeatable = true
  | group _ is => ∀ i ∈ is, i < ts.length
  | look _ i => ∃ is, ts[i]? = some ⟨.group none is, 0⟩

end TokenKind

structure Token.Fits (ts : List Token) (t : Token) : Prop where
  kind : t.kind.Fits ts
  next_lt : t.next < ts.length
  literal : t.kind.isLiteral = true → ∀ u, ts[t.next]? = some u → u.kind.isLiteral = false

inductive Sound : List Token → Prop where
  | tail : Sound [⟨.tail, 0⟩]
  | push {ts : List Token} {t : Token} (h : Sound ts) (ht : t.Fits ts) : Sound (ts ++ [t])

mutual

inductive ReadsSequence (ts : List Token) : Nat → Pattern → Prop where
  | tail : ReadsSequence ts 0 .empty
  | token {i : Nat} {t : Token} {p q : Pattern} (ht : ts[i]? = some t) (hp : ReadsKind ts t.kind p)
      (hq : ReadsSequence ts t.next q) : ReadsSequence ts i (p.before q)

inductive ReadsKind (ts : List Token) : TokenKind → Pattern → Prop where
  | test (t : Test) : ReadsKind ts (.test t) (.test t)
  | repeated {i : Nat} {p : Pattern} (min : Nat) (max : Option Nat) (greedy : Bool) (h : ReadsSequence ts i p) :
      ReadsKind ts (.repeated i min max greedy) (.repeated p min max greedy)
  | group {is : List Nat} {p : Pattern} (g : Option Nat) (h : ReadsAlternatives ts is p) :
      ReadsKind ts (.group g is) (.group g p)
  | look {i : Nat} {is : List Nat} {p : Pattern} (negated : Bool) (hi : ts[i]? = some ⟨.group none is, 0⟩)
      (h : ReadsAlternatives ts is p) : ReadsKind ts (.look negated i) (.look negated p)

inductive ReadsAlternatives (ts : List Token) : List Nat → Pattern → Prop where
  | last {i : Nat} {p : Pattern} (h : ReadsSequence ts i p) : ReadsAlternatives ts [i] p
  | alt {i : Nat} {is : List Nat} {p q : Pattern} (hp : ReadsSequence ts i p) (hq : ReadsAlternatives ts is q) :
      ReadsAlternatives ts (i :: is) (.alt p q)

end

section Reading

variable {ts us : List Token}

theorem getElem?_within (h : ts <+: us) {i : Nat} {t : Token} (ht : ts[i]? = some t) : us[i]? = some t := by
  obtain ⟨rest, rfl⟩ := h
  rwa [List.getElem?_append_left (List.getElem?_eq_some_iff.mp ht).1]

mutual

theorem ReadsSequence.mono (h : ts <+: us) {i : Nat} {p : Pattern} : ReadsSequence ts i p → ReadsSequence us i p
  | .tail => .tail
  | .token ht hp hq => .token (getElem?_within h ht) (hp.mono h) (hq.mono h)

theorem ReadsKind.mono (h : ts <+: us) {k : TokenKind} {p : Pattern} : ReadsKind ts k p → ReadsKind us k p
  | .test t => .test t
  | .repeated min max greedy hp => .repeated min max greedy (hp.mono h)
  | .group g hp => .group g (hp.mono h)
  | .look negated hi hp => .look negated (getElem?_within h hi) (hp.mono h)

theorem ReadsAlternatives.mono (h : ts <+: us) {is : List Nat} {p : Pattern} :
    ReadsAlternatives ts is p → ReadsAlternatives us is p
  | .last hp => .last (hp.mono h)
  | .alt hp hq => .alt (hp.mono h) (hq.mono h)

end

theorem TokenKind.Fits.mono (h : ts <+: us) {k : TokenKind} (hk : k.Fits ts) : k.Fits us := by
  cases k with
  | tail => exact hk
  | test t => cases t <;> exact hk
  | repeated i min max greedy =>
    obtain ⟨horder, k, hi, hr⟩ := hk
    exact ⟨horder, k, getElem?_within h hi, hr⟩
  | group g is => exact fun i hi => Nat.lt_of_lt_of_le (hk i hi) h.length_le
  | look negated i =>
    obtain ⟨is, hi⟩ := hk
    exact ⟨is, getElem?_within h hi⟩

end Reading

namespace Sound

variable {ts : List Token}

theorem first (h : Sound ts) : ts[0]? = some ⟨.tail, 0⟩ := by
  induction h with
  | tail => rfl
  | push _ _ ih => exact getElem?_within (List.prefix_append _ _) ih

theorem length_pos (h : Sound ts) : 0 < ts.length := (List.getElem?_eq_some_iff.mp h.first).1

theorem fits (h : Sound ts) {i : Nat} (hi : 0 < i) {t : Token} (ht : ts[i]? = some t) : t.Fits (ts.take i) := by
  induction h with
  | tail =>
    cases i with
    | zero => cases hi
    | succ i => cases ht
  | @push ts u h hu ih =>
    rcases Nat.lt_or_ge i ts.length with hlt | hle
    · rw [List.getElem?_append_left hlt] at ht
      rw [List.take_append_of_le_length (Nat.le_of_lt hlt)]
      exact ih ht
    · obtain rfl : i = ts.length := by
        have := (List.getElem?_eq_some_iff.mp ht).1
        rw [List.length_append, List.length_singleton] at this
        omega
      rw [List.getElem?_concat_length] at ht
      cases ht
      rwa [List.take_left]

theorem reads_lt (h : Sound ts) {i : Nat} {p : Pattern} (hr : ReadsSequence ts i p) : i < ts.length := by
  cases hr with
  | tail => exact h.length_pos
  | token ht => exact (List.getElem?_eq_some_iff.mp ht).1

theorem alternatives_lt (h : Sound ts) {is : List Nat} {p : Pattern} :
    ReadsAlternatives ts is p → ∀ i ∈ is, i < ts.length
  | .last hp, i, hi => by
    obtain rfl := List.mem_singleton.mp hi
    exact h.reads_lt hp
  | .alt hp hq, i, hi => by
    rcases List.mem_cons.mp hi with rfl | hi
    · exact h.reads_lt hp
    · exact h.alternatives_lt hq i hi

mutual

theorem sequence_unique (h : Sound ts) {i : Nat} {p q : Pattern} :
    ReadsSequence ts i p → ReadsSequence ts i q → p = q
  | .tail, hq => by
    cases hq with
    | tail => rfl
    | token ht hk _ =>
      cases h.first.symm.trans ht
      cases hk
  | .token ht hk hr, hq => by
    cases hq with
    | tail =>
      cases h.first.symm.trans ht
      cases hk
    | token ht' hk' hr' =>
      cases ht.symm.trans ht'
      rw [h.kind_unique hk hk', h.sequence_unique hr hr']

theorem kind_unique (h : Sound ts) {k : TokenKind} {p q : Pattern} : ReadsKind ts k p → ReadsKind ts k q → p = q
  | .test t, hq => by
    cases hq
    rfl
  | .repeated min max greedy hr, hq => by
    cases hq with
    | repeated _ _ _ hr' => rw [h.sequence_unique hr hr']
  | .group g hr, hq => by
    cases hq with
    | group _ hr' => rw [h.alternatives_unique hr hr']
  | .look negated hi hr, hq => by
    cases hq with
    | look _ hi' hr' =>
      cases hi.symm.trans hi'
      rw [h.alternatives_unique hr hr']

theorem alternatives_unique (h : Sound ts) {is : List Nat} {p q : Pattern} :
    ReadsAlternatives ts is p → ReadsAlternatives ts is q → p = q
  | .last hr, hq => by
    cases hq with
    | last hr' => exact h.sequence_unique hr hr'
    | alt _ hs => cases hs
  | .alt hr hs, hq => by
    cases hq with
    | last => cases hs
    | alt hr' hs' => rw [h.sequence_unique hr hr', h.alternatives_unique hs hs']

end

theorem push_last (h : Sound ts) {k : TokenKind} (hk : k.Fits ts) : Sound (ts ++ [⟨k, 0⟩]) := by
  refine h.push ⟨hk, h.length_pos, ?_⟩
  intro _ u hu
  rw [h.first] at hu
  cases hu
  rfl

end Sound

structure LaidKind (p : Pattern) (ts : List Token) (r : TokenKind × List Token) : Prop where
  before : ts <+: r.2
  sound : Sound r.2
  fits : r.1.Fits r.2
  reads : ReadsKind r.2 r.1 p

structure LaidSequence (p : Pattern) (ts : List Token) (r : Nat × List Token) : Prop where
  before : ts <+: r.2
  sound : Sound r.2
  reads : ReadsSequence r.2 r.1 p
  literal : p.startsLiteral = false → ∀ t, r.2[r.1]? = some t → t.kind.isLiteral = false

structure LaidAlternatives (p : Pattern) (ts : List Token) (r : List Nat × List Token) : Prop where
  before : ts <+: r.2
  sound : Sound r.2
  reads : ReadsAlternatives r.2 r.1 p

def Pattern.Laid (p : Pattern) : Place → Prop
  | .item => p.layout = .ofKind p.layout.kind ∧
      ∀ ts, Sound ts → LaidKind p ts (p.layout.kind ts) ∧ (p.layout.kind ts).1.isRepeatable = true ∧
        (p.layout.kind ts).1.isLiteral = false
  | .operand => p.layout = .ofKind p.layout.kind ∧
      ∀ ts, Sound ts → LaidKind p ts (p.layout.kind ts) ∧ (p.layout.kind ts).1.isRepeatable = true
  | .part => p.layout = .ofKind p.layout.kind ∧
      ∀ ts, Sound ts → LaidKind p ts (p.layout.kind ts) ∧ (p.layout.kind ts).1.isLiteral = false
  | .sequence => (∀ ts, p.layout.alternatives ts = ([(p.layout.sequence ts).1], (p.layout.sequence ts).2)) ∧
      ∀ ts, Sound ts → LaidSequence p ts (p.layout.sequence ts)
  | .alternatives => ∀ ts, Sound ts → LaidAlternatives p ts (p.layout.alternatives ts)

namespace Pattern

theorem sequence_before {p : Pattern} (hp : p.layout = .ofKind p.layout.kind) (q : Pattern) (ts : List Token) :
    (p.before q).layout.sequence ts =
      pushToken (q.layout.sequence (p.layout.kind ts).2).2
        ⟨(p.layout.kind ts).1, (q.layout.sequence (p.layout.kind ts).2).1⟩ := by
  cases q with
  | empty =>
    change p.layout.sequence ts = _
    rw [hp]
    rfl
  | _ => rfl

theorem alternatives_before {p : Pattern} (hp : p.layout = .ofKind p.layout.kind) (q : Pattern) (ts : List Token) :
    (p.before q).layout.alternatives ts =
      ([((p.before q).layout.sequence ts).1], ((p.before q).layout.sequence ts).2) := by
  cases q with
  | empty =>
    change p.layout.alternatives ts = ([(p.layout.sequence ts).1], (p.layout.sequence ts).2)
    rw [hp]
    rfl
  | _ => rfl

theorem laid_before {p q : Pattern} (hp : p.layout = .ofKind p.layout.kind) {ts : List Token}
    (hk : LaidKind p ts (p.layout.kind ts))
    (hq : LaidSequence q (p.layout.kind ts).2 (q.layout.sequence (p.layout.kind ts).2))
    (hl : (p.layout.kind ts).1.isLiteral = true → q.startsLiteral = false)
    (hs : (p.before q).startsLiteral = false → (p.layout.kind ts).1.isLiteral = false) :
    LaidSequence (p.before q) ts ((p.before q).layout.sequence ts) := by
  rw [sequence_before hp]
  generalize p.layout.kind ts = r at hk hq hl hs ⊢
  generalize q.layout.sequence r.2 = r' at hq ⊢
  have hlast : (r'.2 ++ [⟨r.1, r'.1⟩])[r'.2.length]? = some (⟨r.1, r'.1⟩ : Token) := List.getElem?_concat_length
  have hpush : r'.2 <+: r'.2 ++ [⟨r.1, r'.1⟩] := List.prefix_append _ _
  refine ⟨(hk.before.trans hq.before).trans hpush,
    hq.sound.push ⟨hk.fits.mono hq.before, hq.sound.reads_lt hq.reads, ?_⟩,
    .token hlast ((hk.reads.mono hq.before).mono hpush) (hq.reads.mono hpush), ?_⟩
  · exact fun h => hq.literal (hl h)
  · intro h t ht
    change (r'.2 ++ [⟨r.1, r'.1⟩])[r'.2.length]? = some t at ht
    rw [hlast] at ht
    cases ht
    exact hs h

theorem Formed.laid {o : Options} {place : Place} {n m : Nat} {p : Pattern} (h : Formed o place n p m) :
    p.Laid place := by
  induction h with
  | atom ht =>
    refine ⟨rfl, fun ts hts => ⟨⟨List.prefix_rfl, hts, ?_, .test _⟩, ?_, ?_⟩⟩ <;> cases ht <;> trivial
  | capture _ ih =>
    refine ⟨rfl, fun ts hts => ?_⟩
    obtain ⟨hbefore, hsound, hreads⟩ := ih ts hts
    exact ⟨⟨hbefore, hsound, hsound.alternatives_lt hreads, .group _ hreads⟩, rfl, rfl⟩
  | plain _ ih =>
    refine ⟨rfl, fun ts hts => ?_⟩
    obtain ⟨hbefore, hsound, hreads⟩ := ih ts hts
    exact ⟨⟨hbefore, hsound, hsound.alternatives_lt hreads, .group _ hreads⟩, rfl, rfl⟩
  | @repeated n m p b greedy hb _ _ _ ih =>
    refine ⟨rfl, fun ts hts => ⟨?_, rfl, rfl⟩⟩
    obtain ⟨⟨hbefore, hsound, hfits, hreads⟩, hr⟩ := ih.2 ts hts
    change LaidKind _ ts (.repeated (p.layout.sequence ts).1 b.min b.max greedy, (p.layout.sequence ts).2)
    rw [show p.layout.sequence ts = _ from sequence_before ih.1 .empty ts]
    generalize p.layout.kind ts = r at *
    have hlast : (r.2 ++ [⟨r.1, 0⟩])[r.2.length]? = some (⟨r.1, 0⟩ : Token) := List.getElem?_concat_length
    have hpush : r.2 <+: r.2 ++ [⟨r.1, 0⟩] := List.prefix_append _ _
    exact ⟨hbefore.trans hpush, hsound.push_last hfits, ⟨hb, r.1, hlast, hr⟩,
      .repeated _ _ _ (.token hlast (hreads.mono hpush) .tail)⟩
  | char n c => exact ⟨rfl, fun ts hts => ⟨⟨List.prefix_rfl, hts, List.cons_ne_nil c [], .test _⟩, rfl⟩⟩
  | operand _ ih => exact ⟨ih.1, fun ts hts => ⟨(ih.2 ts hts).1, (ih.2 ts hts).2.1⟩⟩
  | part _ ih => exact ⟨ih.1, fun ts hts => ⟨(ih.2 ts hts).1, (ih.2 ts hts).2.2⟩⟩
  | assertion _ ht =>
    refine ⟨rfl, fun ts hts => ⟨⟨List.prefix_rfl, hts, ?_, .test _⟩, ?_⟩⟩ <;> cases ht <;> trivial
  | @look n m p negated _ ih =>
    refine ⟨rfl, fun ts hts => ⟨?_, rfl⟩⟩
    obtain ⟨hbefore, hsound, hreads⟩ := ih ts hts
    change LaidKind _ ts (.look negated (p.layout.alternatives ts).2.length,
      (p.layout.alternatives ts).2 ++ [⟨.group none (p.layout.alternatives ts).1, 0⟩])
    generalize p.layout.alternatives ts = r at *
    have hlast : (r.2 ++ [⟨.group none r.1, 0⟩])[r.2.length]? = some (⟨.group none r.1, 0⟩ : Token) :=
      List.getElem?_concat_length
    have hpush : r.2 <+: r.2 ++ [⟨.group none r.1, 0⟩] := List.prefix_append _ _
    exact ⟨hbefore.trans hpush, hsound.push_last (hsound.alternatives_lt hreads), ⟨r.1, hlast⟩,
      .look negated hlast (hreads.mono hpush)⟩
  | empty =>
    refine ⟨fun _ => rfl, fun ts hts => ⟨List.prefix_rfl, hts, .tail, ?_⟩⟩
    intro _ t ht
    cases hts.first.symm.trans ht
    rfl
  | before hp _ ihp ihq =>
    refine ⟨alternatives_before ihp.1 _, fun ts hts => ?_⟩
    obtain ⟨hk, hl⟩ := ihp.2 ts hts
    refine laid_before ihp.1 hk (ihq.2 _ hk.sound) ?_ fun _ => hl
    rw [hl]
    exact nofun
  | @literal n m cs q hcs _ hl ih =>
    refine ⟨alternatives_before rfl q, fun ts hts => ?_⟩
    refine laid_before rfl ⟨List.prefix_rfl, hts, hcs, .test _⟩ (ih.2 _ hts) (fun _ => hl) ?_
    cases q <;> exact nofun
  | last _ ih =>
    intro ts hts
    rw [ih.1]
    obtain ⟨hbefore, hsound, hreads, _⟩ := ih.2 ts hts
    exact ⟨hbefore, hsound, .last hreads⟩
  | alt _ _ ihp ihq =>
    intro ts hts
    obtain ⟨hbefore, hsound, hreads, _⟩ := ihp.2 ts hts
    obtain ⟨hbefore', hsound', hreads'⟩ := ihq _ hsound
    exact ⟨hbefore.trans hbefore', hsound', .alt (hreads.mono hbefore') hreads'⟩

end Pattern

end DialectRegex
