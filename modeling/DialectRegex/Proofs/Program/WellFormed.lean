import DialectRegex.Proofs.Program.Layout

namespace DialectRegex

def Pattern.backrefs : Pattern → List Nat
  | empty => []
  | test (.backref g _) => [g]
  | test _ => []
  | seq p q => p.backrefs ++ q.backrefs
  | alt p q => p.backrefs ++ q.backrefs
  | group _ p => p.backrefs
  | repeated p _ _ _ => p.backrefs
  | look _ p => p.backrefs

namespace TokenKind

def numbers : TokenKind → List Nat
  | group g _ => g.toList
  | _ => []

def backrefs : TokenKind → List Nat
  | test (.backref g _) => [g]
  | _ => []

end TokenKind

def tally (f : TokenKind → List Nat) (ts : List Token) : List Nat := ts.flatMap (f ·.kind)

structure Tallies (f : TokenKind → List Nat) (F : Pattern → List Nat) : Prop where
  empty : F .empty = []
  test : ∀ t, F (.test t) = f (.test t)
  seq : ∀ p q, F (.seq p q) = F p ++ F q
  alt : ∀ p q, F (.alt p q) = F p ++ F q
  group : ∀ g is p, F (.group g p) = f (.group g is) ++ F p
  plain : ∀ is, f (.group none is) = []
  repeated : ∀ i p min max greedy, F (.repeated p min max greedy) = F p ∧ f (.repeated i min max greedy) = []
  look : ∀ negated i p, F (.look negated p) = F p ∧ f (.look negated i) = []

namespace Tallies

variable {f : TokenKind → List Nat} {F : Pattern → List Nat}

theorem tally_push (ts : List Token) (t : Token) : tally f (ts ++ [t]) = tally f ts ++ f t.kind := by
  rw [tally, List.flatMap_append, List.flatMap_singleton, tally]

structure Adds (f : TokenKind → List Nat) (F : Pattern → List Nat) (p : Pattern) (ts : List Token) : Prop where
  kind : (tally f (p.layout.kind ts).2 ++ f (p.layout.kind ts).1).Perm (tally f ts ++ F p)
  sequence : (tally f (p.layout.sequence ts).2).Perm (tally f ts ++ F p)
  alternatives : (tally f (p.layout.alternatives ts).2).Perm (tally f ts ++ F p)

theorem adds_ofKind {p : Pattern} (hp : p.layout = .ofKind p.layout.kind) {ts : List Token}
    (h : (tally f (p.layout.kind ts).2 ++ f (p.layout.kind ts).1).Perm (tally f ts ++ F p)) : Adds f F p ts := by
  have hseq : (tally f (p.layout.sequence ts).2).Perm (tally f ts ++ F p) := by
    rw [hp]
    exact (tally_push _ _).symm ▸ h
  refine ⟨h, hseq, ?_⟩
  rw [hp] at hseq ⊢
  exact hseq

theorem adds (h : Tallies f F) (p : Pattern) (ts : List Token) : Adds f F p ts := by
  have hplain {r : List Nat × List Token} {us : List Nat} (hr : (tally f r.2).Perm us) :
      (tally f r.2 ++ f (.group none r.1)).Perm us := by
    rwa [h.plain, List.append_nil]
  induction p generalizing ts with
  | empty =>
    have hts : (tally f ts).Perm (tally f ts ++ F .empty) := by rw [h.empty, List.append_nil]
    exact ⟨hplain (r := ([0], ts)) hts, hts, hts⟩
  | test t =>
    apply adds_ofKind rfl
    rw [h.test]
    exact .refl _
  | seq p q hp hq =>
    have hseq : (tally f ((Pattern.seq p q).layout.sequence ts).2).Perm (tally f ts ++ F (.seq p q)) := by
      change (tally f ((q.layout.sequence (p.layout.kind ts).2).2 ++ [_])).Perm _
      rw [tally_push, h.seq, ← List.append_assoc]
      refine ((hq _).sequence.append_right _).trans ?_
      rw [List.append_assoc]
      refine (List.perm_append_comm.append_left _).trans ?_
      rw [← List.append_assoc]
      exact (hp ts).kind.append_right _
    exact ⟨hplain (r := ([_], ((Pattern.seq p q).layout.sequence ts).2)) hseq, hseq, hseq⟩
  | alt p q hp hq =>
    have halt : (tally f ((Pattern.alt p q).layout.alternatives ts).2).Perm (tally f ts ++ F (.alt p q)) := by
      change (tally f (q.layout.alternatives (p.layout.sequence ts).2).2).Perm _
      rw [h.alt, ← List.append_assoc]
      exact (hq _).alternatives.trans ((hp ts).sequence.append_right _)
    refine ⟨hplain (r := (Pattern.alt p q).layout.alternatives ts) halt, ?_, halt⟩
    change (tally f (((Pattern.alt p q).layout.alternatives ts).2 ++ [_])).Perm _
    rw [tally_push]
    exact hplain halt
  | group g p hp =>
    apply adds_ofKind rfl
    change (tally f (p.layout.alternatives ts).2 ++ f (.group g (p.layout.alternatives ts).1)).Perm _
    rw [h.group g (p.layout.alternatives ts).1]
    refine ((hp ts).alternatives.append_right _).trans ?_
    rw [List.append_assoc]
    exact List.perm_append_comm.append_left _
  | repeated p min max greedy hp =>
    apply adds_ofKind rfl
    change (tally f (p.layout.sequence ts).2 ++ f (.repeated (p.layout.sequence ts).1 min max greedy)).Perm _
    obtain ⟨hF, hf⟩ := h.repeated (p.layout.sequence ts).1 p min max greedy
    rw [hF, hf, List.append_nil]
    exact (hp ts).sequence
  | look negated p hp =>
    apply adds_ofKind rfl
    change (tally f ((p.layout.alternatives ts).2 ++ [_]) ++
      f (.look negated (p.layout.alternatives ts).2.length)).Perm _
    obtain ⟨hF, hf⟩ := h.look negated (p.layout.alternatives ts).2.length p
    rw [hF, hf, List.append_nil, tally_push]
    exact hplain (hp ts).alternatives

end Tallies

theorem tallies_numbers : Tallies TokenKind.numbers Pattern.numbers where
  empty := rfl
  test _ := rfl
  seq := Pattern.numbers_seq
  alt := Pattern.numbers_alt
  group g _ p := Pattern.numbers_group g p
  plain _ := rfl
  repeated _ _ _ _ _ := ⟨rfl, rfl⟩
  look _ _ _ := ⟨rfl, rfl⟩

theorem tallies_backrefs : Tallies TokenKind.backrefs Pattern.backrefs where
  empty := rfl
  test t := by cases t <;> rfl
  seq _ _ := rfl
  alt _ _ := rfl
  group _ _ _ := rfl
  plain _ := rfl
  repeated _ _ _ _ _ := ⟨rfl, rfl⟩
  look _ _ _ := ⟨rfl, rfl⟩

namespace Pattern

theorem hasBackref_iff {p : Pattern} : p.hasBackref = true ↔ p.backrefs ≠ [] := by
  induction p with
  | empty => simp [hasBackref, backrefs]
  | test t => cases t <;> simp [hasBackref, backrefs]
  | seq p q hp hq => simp [hasBackref, backrefs, hp, hq, Classical.or_iff_not_imp_left]
  | alt p q hp hq => simp [hasBackref, backrefs, hp, hq, Classical.or_iff_not_imp_left]
  | group g p hp => exact hp
  | repeated p min max greedy hp => exact hp
  | look negated p hp => exact hp

theorem backrefs_before (p q : Pattern) : (p.before q).backrefs = p.backrefs ++ q.backrefs := by
  cases q with
  | empty => exact (List.append_nil p.backrefs).symm
  | _ => rfl

theorem Formed.backrefs_lt {o : Options} {place : Place} {n m : Nat} {p : Pattern} (h : Formed o place n p m) :
    n ≤ m ∧ ∀ g ∈ p.backrefs, 0 < g ∧ g < m := by
  have happend {n k m : Nat} {gs hs : List Nat} (hg : n ≤ k ∧ ∀ g ∈ gs, 0 < g ∧ g < k)
      (hh : k ≤ m ∧ ∀ g ∈ hs, 0 < g ∧ g < m) : n ≤ m ∧ ∀ g ∈ gs ++ hs, 0 < g ∧ g < m := by
    refine ⟨hg.1.trans hh.1, ?_⟩
    intro g hmem
    rcases List.mem_append.mp hmem with hmem | hmem
    · exact ⟨(hg.2 g hmem).1, Nat.lt_of_lt_of_le (hg.2 g hmem).2 hh.1⟩
    · exact hh.2 g hmem
  induction h with
  | @atom n t ht =>
    refine ⟨Nat.le_refl n, ?_⟩
    cases ht with
    | backref hpos hg _ =>
      intro g hmem
      obtain rfl := List.mem_singleton.mp hmem
      exact ⟨hpos, hg⟩
    | _ => exact nofun
  | capture _ ih => exact ⟨Nat.le_of_succ_le ih.1, ih.2⟩
  | plain _ ih => exact ih
  | repeated _ _ _ _ _ _ ih => exact ih
  | char n c => exact ⟨Nat.le_refl n, nofun⟩
  | operand _ ih => exact ih
  | part _ ih => exact ih
  | assertion n ht =>
    refine ⟨Nat.le_refl n, ?_⟩
    cases ht <;> exact nofun
  | look _ _ ih => exact ih
  | empty n => exact ⟨Nat.le_refl n, nofun⟩
  | before _ _ hp hq =>
    rw [backrefs_before]
    exact happend hp hq
  | literal _ _ _ ih =>
    rw [backrefs_before]
    exact ih
  | last _ ih => exact ih
  | alt _ _ hp hq => exact happend hp hq

end Pattern

theorem position_unique {f : TokenKind → List Nat} {ts : List Token} (h : (tally f ts).Nodup) {g i j : Nat}
    {t u : Token} (hi : ts[i]? = some t) (ht : g ∈ f t.kind) (hj : ts[j]? = some u) (hu : g ∈ f u.kind) : i = j := by
  have hdisjoint := List.pairwise_iff_getElem.mp (List.nodup_flatMap.mp h).2
  obtain ⟨hlt, rfl⟩ := List.getElem?_eq_some_iff.mp hi
  obtain ⟨hlt', rfl⟩ := List.getElem?_eq_some_iff.mp hj
  rcases Nat.lt_trichotomy i j with h | he | h
  · exact absurd hu (hdisjoint i j hlt hlt' h ht)
  · exact he
  · exact absurd ht (hdisjoint j i hlt' hlt h hu)

namespace Program

def GroupAt (p : Program) (g i : Nat) : Prop := ∃ is next, p.tokens[i]? = some ⟨.group (some g) is, next⟩

def BackrefAt (p : Program) (g i : Nat) : Prop := ∃ fold next, p.tokens[i]? = some ⟨.test (.backref g fold), next⟩

structure WellFormed (p : Program) : Prop where
  tail : ∀ i next, p.tokens[i]? = some ⟨.tail, next⟩ ↔ i = 0 ∧ next = 0
  linked : ∀ i t, 0 < i → p.tokens[i]? = some t → t.next < i ∧
    match t.kind with
    | .repeated j _ _ _ => j < i
    | .group _ is => ∀ j ∈ is, j < i
    | .look _ j => j < i
    | _ => True
  whole : ∀ i, p.GroupAt 0 i ↔ i = p.root ∨ i = p.full
  captures : ∀ g, 0 < g → g < p.groups → ∃! i, p.GroupAt g i
  groups_lt : ∀ g i, p.GroupAt g i → g < p.groups
  backrefs : ∀ g i, p.BackrefAt g i → 0 < g ∧ g < p.groups
  hasBackref : p.hasBackref = true ↔ ∃ g i, p.BackrefAt g i
  repeats : ∀ (i j : Nat) min max greedy next, p.tokens[i]? = some ⟨.repeated j min max greedy, next⟩ →
    InOrder min max ∧ ∃ k, p.tokens[j]? = some ⟨k, 0⟩ ∧ k.isRepeatable = true
  looks : ∀ (i : Nat) negated j next, p.tokens[i]? = some ⟨.look negated j, next⟩ →
    ∃ is, p.tokens[j]? = some ⟨.group none is, 0⟩
  literals : ∀ (i : Nat) cs fold next, p.tokens[i]? = some ⟨.test (.literal cs fold), next⟩ →
    cs ≠ [] ∧ ∀ t, p.tokens[next]? = some t → t.kind.isLiteral = false

end Program

namespace Sound

variable {ts : List Token} (h : Sound ts)
include h

theorem fits_within {i : Nat} {t : Token} (hi : 0 < i) (ht : ts[i]? = some t) :
    t.kind.Fits ts ∧ t.next < i ∧
      (t.kind.isLiteral = true → ∀ u, ts[t.next]? = some u → u.kind.isLiteral = false) := by
  have hlt := (List.getElem?_eq_some_iff.mp ht).1
  have hfits := h.fits hi ht
  have hnext := hfits.next_lt
  rw [List.length_take, Nat.min_eq_left (Nat.le_of_lt hlt)] at hnext
  refine ⟨hfits.kind.mono (List.take_prefix i ts), hnext, ?_⟩
  intro hl u hu
  apply hfits.literal hl
  rwa [List.getElem?_take_of_lt hnext]

theorem pos_of_ne_tail {i : Nat} {t : Token} (ht : ts[i]? = some t) (hk : t.kind ≠ .tail) : 0 < i := by
  apply Nat.pos_of_ne_zero
  rintro rfl
  rw [h.first] at ht
  cases ht
  exact hk rfl

theorem tail_iff {i next : Nat} : ts[i]? = some ⟨.tail, next⟩ ↔ i = 0 ∧ next = 0 := by
  constructor
  · intro ht
    rcases Nat.eq_zero_or_pos i with rfl | hi
    · rw [h.first] at ht
      cases ht
      exact ⟨rfl, rfl⟩
    · exact absurd (h.fits hi ht).kind not_false
  · rintro ⟨rfl, rfl⟩
    exact h.first

theorem links_lt {i : Nat} {t : Token} (hi : 0 < i) (ht : ts[i]? = some t) :
    match t.kind with
    | .repeated j _ _ _ => j < i
    | .group _ is => ∀ j ∈ is, j < i
    | .look _ j => j < i
    | _ => True := by
  have hfits := (h.fits hi ht).kind
  have hlen : (ts.take i).length ≤ i := List.length_take_le i ts
  split
  · next j _ _ _ hk =>
    rw [hk] at hfits
    obtain ⟨_, k, hj, _⟩ := hfits
    exact Nat.lt_of_lt_of_le (List.getElem?_eq_some_iff.mp hj).1 hlen
  · next is hk =>
    rw [hk] at hfits
    exact fun j hj => Nat.lt_of_lt_of_le (hfits j hj) hlen
  · next j hk =>
    rw [hk] at hfits
    obtain ⟨is, hj⟩ := hfits
    exact Nat.lt_of_lt_of_le (List.getElem?_eq_some_iff.mp hj).1 hlen
  · trivial

end Sound

theorem mem_tally {f : TokenKind → List Nat} {ts : List Token} {g : Nat} :
    g ∈ tally f ts ↔ ∃ (i : Nat) (t : Token), ts[i]? = some t ∧ g ∈ f t.kind := by
  rw [tally, List.mem_flatMap]
  constructor
  · rintro ⟨t, ht, hg⟩
    obtain ⟨i, hi⟩ := List.getElem?_of_mem ht
    exact ⟨i, t, hi, hg⟩
  · rintro ⟨i, t, hi, hg⟩
    exact ⟨t, List.mem_of_getElem? hi, hg⟩

def Program.around (is : List Nat) (ts : List Token) (groups : Nat) (hasBackref : Bool) : Program :=
  ⟨ts ++ [⟨.group (some 0) is, 0⟩] ++ [⟨.test (.anchor .stop false), 0⟩] ++ [⟨.group (some 0) is, ts.length + 1⟩],
    ts.length, ts.length + 2, groups, hasBackref⟩

theorem Regex.program_eq (r : Regex) :
    r.program = .around (r.body.layout.alternatives [⟨.tail, 0⟩]).1 (r.body.layout.alternatives [⟨.tail, 0⟩]).2
      r.groupCount r.body.hasBackref := by
  simp [program, pushToken, Program.around]

namespace Program

variable {is : List Nat} {ts : List Token} {groups : Nat} {hasBackref : Bool}

theorem around_root : (around is ts groups hasBackref).tokens[ts.length]? = some ⟨.group (some 0) is, 0⟩ := by
  simp [around]

theorem around_stop :
    (around is ts groups hasBackref).tokens[ts.length + 1]? = some ⟨.test (.anchor .stop false), 0⟩ := by
  simp [around]

theorem around_full :
    (around is ts groups hasBackref).tokens[ts.length + 2]? = some ⟨.group (some 0) is, ts.length + 1⟩ := by
  simp [around]

theorem around_extends : ts <+: (around is ts groups hasBackref).tokens := by
  rw [around, List.append_assoc, List.append_assoc]
  exact List.prefix_append _ _

theorem around_cases {i : Nat} {t : Token} (h : (around is ts groups hasBackref).tokens[i]? = some t) :
    ts[i]? = some t ∨ i = ts.length ∧ t = ⟨.group (some 0) is, 0⟩ ∨
      i = ts.length + 1 ∧ t = ⟨.test (.anchor .stop false), 0⟩ ∨
      i = ts.length + 2 ∧ t = ⟨.group (some 0) is, ts.length + 1⟩ := by
  have hlen := (List.getElem?_eq_some_iff.mp h).1
  rw [around, List.length_append, List.length_append, List.length_append] at hlen
  dsimp only [List.length_singleton] at hlen
  obtain hi | rfl | rfl | rfl : i < ts.length ∨ i = ts.length ∨ i = ts.length + 1 ∨ i = ts.length + 2 := by omega
  · rw [around, List.append_assoc, List.append_assoc, List.getElem?_append_left hi] at h
    exact .inl h
  · rw [around_root] at h
    exact .inr (.inl ⟨rfl, (Option.some.inj h).symm⟩)
  · rw [around_stop] at h
    exact .inr (.inr (.inl ⟨rfl, (Option.some.inj h).symm⟩))
  · rw [around_full] at h
    exact .inr (.inr (.inr ⟨rfl, (Option.some.inj h).symm⟩))

theorem around_sound (h : Sound ts) (his : ∀ i ∈ is, i < ts.length) :
    Sound (around is ts groups hasBackref).tokens := by
  have hroot : Sound (ts ++ [⟨.group (some 0) is, 0⟩]) := h.push_last his
  have hstop : Sound (ts ++ [⟨.group (some 0) is, 0⟩] ++ [⟨.test (.anchor .stop false), 0⟩]) := hroot.push_last trivial
  refine hstop.push ⟨?_, ?_, nofun⟩
  · intro i hi
    have := his i hi
    rw [List.length_append, List.length_append]
    omega
  · rw [List.length_append, List.length_append]
    dsimp only [List.length_singleton]
    omega

theorem around_group {g i : Nat} (hg : 0 < g) (h : (around is ts groups hasBackref).GroupAt g i) :
    ∃ t, ts[i]? = some t ∧ g ∈ t.kind.numbers := by
  obtain ⟨is', next, hi⟩ := h
  rcases around_cases hi with hi | ⟨_, he⟩ | ⟨_, he⟩ | ⟨_, he⟩
  · exact ⟨_, hi, List.mem_singleton_self g⟩
  · cases he
    omega
  · cases he
  · cases he
    omega

section Groups

variable {k : Nat} (hn : (tally TokenKind.numbers ts).Perm (List.range' 1 k))
include hn

theorem around_whole (i : Nat) : (around is ts groups hasBackref).GroupAt 0 i ↔ i = ts.length ∨ i = ts.length + 2 := by
  constructor
  · rintro ⟨is', next, hi⟩
    rcases around_cases hi with hi | ⟨rfl, _⟩ | ⟨_, he⟩ | ⟨rfl, _⟩
    · have hmem := hn.mem_iff.mp (mem_tally.mpr ⟨i, _, hi, List.mem_singleton_self 0⟩)
      rw [List.mem_range'_1] at hmem
      omega
    · exact .inl rfl
    · cases he
    · exact .inr rfl
  · rintro (rfl | rfl)
    · exact ⟨is, 0, around_root⟩
    · exact ⟨is, ts.length + 1, around_full⟩

theorem around_groups_lt {g i : Nat} (h : (around is ts groups hasBackref).GroupAt g i) : g < 1 + k := by
  rcases Nat.eq_zero_or_pos g with rfl | hg
  · omega
  · obtain ⟨t, ht, hmem⟩ := around_group hg h
    have hrange := hn.mem_iff.mp (mem_tally.mpr ⟨i, t, ht, hmem⟩)
    rw [List.mem_range'_1] at hrange
    exact hrange.2

theorem around_captures {g : Nat} (hg : 0 < g) (hk : g < 1 + k) :
    ∃! i, (around is ts groups hasBackref).GroupAt g i := by
  have hmem : g ∈ tally TokenKind.numbers ts := hn.mem_iff.mpr (List.mem_range'_1.mpr ⟨hg, hk⟩)
  obtain ⟨i, t, hi, hgt⟩ := mem_tally.mp hmem
  obtain ⟨kind, next⟩ := t
  refine ⟨i, ?_, ?_⟩
  · cases kind with
    | group number is' =>
      obtain rfl : number = some g := Option.mem_toList.mp hgt
      exact ⟨is', next, getElem?_within around_extends hi⟩
    | _ => cases hgt
  · intro j hj
    obtain ⟨u, hu, hgu⟩ := around_group hg hj
    exact position_unique (hn.nodup_iff.mpr (List.nodup_range' 1)) hu hgu hi hgt

end Groups

theorem around_backref {g : Nat} :
    (∃ i, (around is ts groups hasBackref).BackrefAt g i) ↔ g ∈ tally TokenKind.backrefs ts := by
  rw [mem_tally]
  constructor
  · rintro ⟨i, fold, next, hi⟩
    rcases around_cases hi with hi | ⟨_, he⟩ | ⟨_, he⟩ | ⟨_, he⟩
    · exact ⟨i, _, hi, List.mem_singleton_self g⟩
    · cases he
    · cases he
    · cases he
  · rintro ⟨i, ⟨kind, next⟩, hi, hg⟩
    rw [TokenKind.backrefs.eq_def] at hg
    split at hg
    · next fold hk =>
      obtain rfl := List.mem_singleton.mp hg
      obtain rfl : kind = _ := hk
      exact ⟨i, fold, next, getElem?_within around_extends hi⟩
    · cases hg

theorem around_wellFormed (h : Sound ts) (his : ∀ i ∈ is, i < ts.length) {k : Nat}
    (hn : (tally TokenKind.numbers ts).Perm (List.range' 1 k))
    (hb : ∀ g ∈ tally TokenKind.backrefs ts, 0 < g ∧ g < 1 + k)
    (hr : hasBackref = true ↔ tally TokenKind.backrefs ts ≠ []) : (around is ts (1 + k) hasBackref).WellFormed := by
  have hall : Sound (around is ts (1 + k) hasBackref).tokens := around_sound h his
  constructor
  · exact fun i next => hall.tail_iff
  · exact fun i t hi ht => ⟨(hall.fits_within hi ht).2.1, hall.links_lt hi ht⟩
  · exact around_whole hn
  · exact fun g hpos hlt => around_captures hn hpos hlt
  · exact fun g i hi => around_groups_lt hn hi
  · exact fun g i hi => hb g (around_backref.mp ⟨i, hi⟩)
  · refine hr.trans ⟨?_, ?_⟩
    · intro hne
      obtain ⟨g, hg⟩ := List.exists_mem_of_ne_nil _ hne
      exact ⟨g, around_backref.mpr hg⟩
    · rintro ⟨g, hg⟩
      exact List.ne_nil_of_mem (around_backref.mp hg)
  · intro i j min max greedy next ht
    exact (hall.fits_within (hall.pos_of_ne_tail ht nofun) ht).1
  · intro i negated j next ht
    exact (hall.fits_within (hall.pos_of_ne_tail ht nofun) ht).1
  · intro i cs fold next ht
    obtain ⟨hcs, _, hl⟩ := hall.fits_within (hall.pos_of_ne_tail ht nofun) ht
    exact ⟨hcs, hl rfl⟩

theorem around_reads (h : Sound ts) {p q : Pattern} (hp : ReadsAlternatives ts is p) :
    (ReadsSequence (around is ts groups hasBackref).tokens (around is ts groups hasBackref).root q ↔
        q = .group (some 0) p) ∧
      (ReadsSequence (around is ts groups hasBackref).tokens (around is ts groups hasBackref).full q ↔
        q = .seq (.group (some 0) p) (.test (.anchor .stop false))) := by
  have hall : Sound (around is ts groups hasBackref).tokens := around_sound h (h.alternatives_lt hp)
  have hk : ReadsKind (around is ts groups hasBackref).tokens (.group (some 0) is) (.group (some 0) p) :=
    .group (some 0) (hp.mono around_extends)
  have hroot : ReadsSequence (around is ts groups hasBackref).tokens ts.length (.group (some 0) p) :=
    .token around_root hk .tail
  have hfull : ReadsSequence (around is ts groups hasBackref).tokens (ts.length + 2)
      (.seq (.group (some 0) p) (.test (.anchor .stop false))) :=
    .token around_full hk (.token around_stop (.test _) .tail)
  exact ⟨⟨fun hq => hall.sequence_unique hq hroot, fun hq => hq ▸ hroot⟩,
    ⟨fun hq => hall.sequence_unique hq hfull, fun hq => hq ▸ hfull⟩⟩

end Program

end DialectRegex
