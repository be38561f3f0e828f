import DialectRegex.Dialect.Named
import DialectRegex.Proofs.Grammar.Forms
import DialectRegex.Proofs.Matching.Searches
import Mathlib.Data.List.Forall2

namespace DialectRegex

namespace State

/-- The first states at each offset are the same, in the same order. -/
def Alike (l l' : List State) : Prop := distinct .empty l = distinct .empty l'

theorem distinct_distinct {seen seen' : OffsetSet} (h : ∀ j, seen'.contains j = true → seen.contains j = true)
    (l : List State) : distinct seen (distinct seen' l) = distinct seen l := by
  induction l generalizing seen seen' with
  | nil => rfl
  | cons s l ih =>
    by_cases hs' : seen'.contains s.offset = true
    · rw [distinct, if_pos hs', ih h, distinct, if_pos (h _ hs')]
    · rw [distinct, if_neg hs', distinct, distinct]
      by_cases hs : seen.contains s.offset = true
      · rw [if_pos hs, if_pos hs]
        apply ih
        intro j hj
        rw [OffsetSet.contains_insert, Bool.or_eq_true, decide_eq_true_iff] at hj
        rcases hj with rfl | hj
        · exact hs
        · exact h j hj
      · rw [if_neg hs, if_neg hs, ih]
        intro j hj
        rw [OffsetSet.contains_insert, Bool.or_eq_true] at hj ⊢
        exact hj.imp_right (h j)

theorem distinct_eq_nil {seen : OffsetSet} {l : List State} (h : ∀ j ∈ l.map offset, seen.contains j = true) :
    distinct seen l = [] := by
  apply List.map_eq_nil_iff.mp
  apply List.eq_nil_iff_forall_not_mem.mpr
  intro j hj
  obtain ⟨hmem, hseen⟩ := (mem_offsets_distinct seen l j).mp hj
  rw [h j hmem] at hseen
  cases hseen

theorem distinct_map {f : State → State} (hf : ∀ s, (f s).offset = s.offset) (seen : OffsetSet) (l : List State) :
    distinct seen (l.map f) = (distinct seen l).map f := by
  induction l generalizing seen with
  | nil => rfl
  | cons s l ih =>
    rw [List.map_cons, distinct, distinct, hf, ih, ih]
    split <;> rfl

namespace Alike

variable {l l' m m' : List State}

theorem refl (l : List State) : Alike l l := rfl

theorem symm (h : Alike l l') : Alike l' l := Eq.symm h

theorem trans (h : Alike l l') (h' : Alike l' m) : Alike l m := Eq.trans h h'

theorem distinct_eq (h : Alike l l') (seen : OffsetSet) : distinct seen l = distinct seen l' := by
  have hempty (l : List State) : distinct seen (distinct .empty l) = distinct seen l := by
    apply distinct_distinct
    simp
  rw [← hempty l, ← hempty l', h]

theorem mem_offsets (h : Alike l l') (j : Nat) : j ∈ l.map offset ↔ j ∈ l'.map offset := by
  have hj := congrArg (j ∈ List.map offset ·) h
  simpa [mem_offsets_distinct] using hj

theorem offsets_eq (h : Alike l l') : offsets l = offsets l' := (offsets_eq_iff l l').mpr h.mem_offsets

theorem head? (h : Alike l l') : l.head? = l'.head? := by
  have hhead (l : List State) : (distinct .empty l).head? = l.head? := by
    cases l <;> rfl
  rw [← hhead l, ← hhead l', h]

theorem isEmpty_eq (h : Alike l l') : l.isEmpty = l'.isEmpty := by
  rw [Bool.eq_iff_iff, List.isEmpty_iff, List.isEmpty_iff, ← List.head?_eq_none_iff, ← List.head?_eq_none_iff, h.head?]

theorem append (h : Alike l l') (h' : Alike m m') : Alike (l ++ m) (l' ++ m') := by
  rw [Alike, distinct_append, distinct_append, h, h'.distinct_eq]

theorem flatten {ls ls' : List (List State)} (h : List.Forall₂ Alike ls ls') : Alike ls.flatten ls'.flatten := by
  induction h with
  | nil => exact refl []
  | cons h _ ih => exact h.append ih

theorem flatMap {f g : State → List State} (h : ∀ s ∈ l, Alike (f s) (g s)) : Alike (l.flatMap f) (l.flatMap g) := by
  induction l with
  | nil => exact refl []
  | cons s l ih => exact (h s List.mem_cons_self).append (ih fun t ht => h t (List.mem_cons_of_mem s ht))

theorem map {f : State → State} (hf : ∀ s, (f s).offset = s.offset) (h : Alike l l') : Alike (l.map f) (l'.map f) := by
  rw [Alike, distinct_map hf, distinct_map hf, h]

end Alike

theorem distinct_flatMap {f : State → List State} {l : List State}
    (hf : ∀ s ∈ l, ∀ t ∈ l, s.offset = t.offset → ∀ j ∈ (f t).map offset, j ∈ (f s).map offset)
    {seen reached : OffsetSet}
    (hseen : ∀ t ∈ l, seen.contains t.offset = true → ∀ j ∈ (f t).map offset, reached.contains j = true) :
    distinct reached ((distinct seen l).flatMap f) = distinct reached (l.flatMap f) := by
  induction l generalizing seen reached with
  | nil => rfl
  | cons s l ih =>
    have hl : ∀ a ∈ l, ∀ t ∈ l, a.offset = t.offset → ∀ j ∈ (f t).map offset, j ∈ (f a).map offset :=
      fun a ha t ht => hf a (List.mem_cons_of_mem s ha) t (List.mem_cons_of_mem s ht)
    rw [distinct, List.flatMap_cons, distinct_append]
    by_cases hs : seen.contains s.offset = true
    · rw [if_pos hs, distinct_eq_nil (hseen s List.mem_cons_self hs)]
      exact ih hl fun t ht => hseen t (List.mem_cons_of_mem s ht)
    · rw [if_neg hs, List.flatMap_cons, distinct_append, ih hl]
      intro t ht hin j hj
      rw [← List.foldl_map, OffsetSet.contains_foldl_insert, Bool.or_eq_true, decide_eq_true_iff, mem_offsets_distinct]
      rw [OffsetSet.contains_insert, Bool.or_eq_true, decide_eq_true_iff] at hin
      by_cases hr : reached.contains j = true
      · exact .inr hr
      · rcases hin with heq | hin
        · exact .inl ⟨hf s List.mem_cons_self t (List.mem_cons_of_mem s ht) heq j hj, by simpa using hr⟩
        · exact absurd (hseen t (List.mem_cons_of_mem s ht) hin j hj) hr

theorem Alike.bind {f g : State → List State} {l l' : List State} {P : State → Prop} (hl : ∀ s ∈ l, P s)
    (hl' : ∀ s ∈ l', P s)
    (hf : ∀ s t, P s → P t → s.offset = t.offset → ∀ j ∈ (f t).map offset, j ∈ (f s).map offset)
    (hfg : ∀ s, P s → Alike (f s) (g s)) (h : Alike l l') : Alike (l.flatMap f) (l'.flatMap g) := by
  have hfirst {l : List State} (hl : ∀ s ∈ l, P s) : Alike ((distinct .empty l).flatMap f) (l.flatMap f) := by
    apply distinct_flatMap
    · intro s hs t ht
      exact hf s t (hl s hs) (hl t ht)
    · simp
  have hsame : Alike ((distinct .empty l).flatMap f) ((distinct .empty l').flatMap f) := by
    rw [h]
    exact .refl _
  have hright : Alike (l'.flatMap f) (l'.flatMap g) := .flatMap fun s hs => hfg s (hl' s hs)
  exact (hfirst hl).symm.trans (hsame.trans ((hfirst hl').trans hright))

end State

open State (Alike)

theorem Search.alike_dedup (e : Search Id) (l : List State) : Alike (e.dedup l) l := by
  rw [dedup]
  split
  · rw [State.dedup_eq]
    exact State.distinct_distinct (fun _ h => h) l
  · exact .refl l

namespace Rounds

structure Alike (r r' : Rounds Id) (P : State → Prop) : Prop where
  min_eq : r.min = r'.min
  max_eq : r.max = r'.max
  keeps : r.Keeps P
  keeps' : r'.Keeps P
  after : ∀ l l', (∀ s ∈ l, P s) → (∀ s ∈ l', P s) → State.Alike l l' → State.Alike (r.after l) (r'.after l')

variable {r r' : Rounds Id} {P : State → Prop}

theorem Alike.level (h : r.Alike r' P) {l l' : List State} (hl : ∀ s ∈ l, P s) (hl' : ∀ s ∈ l', P s)
    (hs : State.Alike l l') (k : Nat) : State.Alike (r.level k l) (r'.level k l') := by
  induction k with
  | zero => exact hs
  | succ k ih => exact h.after _ _ (h.keeps.level hl k) (h.keeps'.level hl' k) ih

theorem Alike.padded? (h : r.Alike r' P) {n : Nat} {l l' : List State} {history : List OffsetSet}
    (hl : ∀ s ∈ l, P s) (hl' : ∀ s ∈ l', P s) (hs : State.Alike l l') :
    Option.Rel State.Alike (r.padded? n l history) (r'.padded? n l' history) := by
  induction n generalizing l l' history with
  | zero => exact .some hs
  | succ n ih =>
    have hnext := h.after l l' hl hl' hs
    have hk := h.keeps l hl
    have hk' := h.keeps' l' hl'
    rw [padded?_succ, padded?_succ, hnext.isEmpty_eq, hnext.offsets_eq]
    split
    · exact .none
    · split
      · exact .some (h.level hk hk' hnext _)
      · exact ih hk hk' hnext

end Rounds

structure Frontier.Alike (P : State → Prop) (f f' : Frontier) : Prop where
  count : f.count = f'.count
  stalled : f.stalled = f'.stalled
  seen : ∀ j, f.seen.contains j = f'.seen.contains j
  level : State.Alike f.level f'.level
  keeps : ∀ s ∈ f.level, P s
  keeps' : ∀ s ∈ f'.level, P s

namespace Rounds

variable {r r' : Rounds Id} {P : State → Prop}

theorem any_fresh_iff (l : List State) (seen : OffsetSet) :
    l.any (!seen.contains ·.offset) = true ↔ ∃ j ∈ l.map State.offset, seen.contains j = false := by
  simp

theorem Alike.next? (h : r.Alike r' P) {f f' : Frontier} (hf : f.Alike P f') :
    Option.Rel (Frontier.Alike P) (r.next? f) (r'.next? f') := by
  have hnext := h.after _ _ hf.keeps hf.keeps' hf.level
  have hk := h.keeps _ hf.keeps
  have hk' := h.keeps' _ hf.keeps'
  have hfresh : (r.after f.level).any (!f.seen.contains ·.offset) =
      (r'.after f'.level).any (!f'.seen.contains ·.offset) := by
    rw [Bool.eq_iff_iff, any_fresh_iff, any_fresh_iff]
    simp only [hnext.mem_offsets, hf.seen]
  have hseen (j : Nat) : ((r.after f.level).foldl (fun seen s => seen.insert s.offset) f.seen).contains j =
      ((r'.after f'.level).foldl (fun seen s => seen.insert s.offset) f'.seen).contains j := by
    rw [Bool.eq_iff_iff, mem_foldl_insert, mem_foldl_insert, hnext.mem_offsets, hf.seen]
  rw [next?_eq, next?_eq, ← hf.stalled, ← hf.count, ← h.max_eq, ← h.min_eq, ← hnext.isEmpty_eq, ← hfresh]
  dsimp only
  split
  · exact .none
  split
  · exact .none
  split
  · exact .some ⟨rfl, rfl, hseen, hnext, hk, hk'⟩
  split
  · exact .some ⟨rfl, rfl, hseen, hnext, hk, hk'⟩
  rw [← hnext.offsets_eq]
  have hpad : Option.Rel State.Alike
      (r.padded? (r.min - (f.count + 1)) (r.after f.level) [State.offsets (r.after f.level)])
      (r'.padded? (r.min - (f.count + 1)) (r'.after f'.level) [State.offsets (r.after f.level)]) :=
    h.padded? hk hk' hnext
  generalize hp : r.padded? (r.min - (f.count + 1)) (r.after f.level) [State.offsets (r.after f.level)] = x at hpad ⊢
  generalize hp' : r'.padded? (r.min - (f.count + 1)) (r'.after f'.level) [State.offsets (r.after f.level)] = x'
    at hpad ⊢
  cases hpad with
  | none => exact .none
  | some hl => exact .some ⟨rfl, rfl, hseen, hl, h.keeps.padded? hk hp, h.keeps'.padded? hk' hp'⟩

theorem Alike.visited (h : r.Alike r' P) (fuel : Nat) {f f' : Frontier} (hf : f.Alike P f') :
    List.Forall₂ State.Alike (r.visited fuel f) (r'.visited fuel f') := by
  induction fuel generalizing f f' with
  | zero => exact .nil
  | succ fuel ih =>
    have hnext := h.next? hf
    rw [Rounds.visited, Rounds.visited, ← hf.count, ← h.min_eq]
    apply List.rel_append
    · split
      · exact .cons hf.level .nil
      · exact .nil
    · generalize r.next? f = x at hnext ⊢
      generalize r'.next? f' = x' at hnext ⊢
      cases hnext with
      | none => exact .nil
      | some hg => exact ih hg

theorem Alike.outcomes (h : r.Alike r' P) (fuel : Nat) (greedy : Bool) {s : State} (hs : P s) :
    State.Alike (r.outcomes fuel greedy s) (r'.outcomes fuel greedy s) := by
  have hone : ∀ t ∈ (Frontier.initial s).level, P t := by
    intro t ht
    exact List.mem_singleton.mp ht ▸ hs
  have hinit : (Frontier.initial s).Alike P (.initial s) := ⟨rfl, rfl, fun _ => rfl, .refl _, hone, hone⟩
  have hv := h.visited fuel hinit
  rw [Rounds.outcomes, Rounds.outcomes]
  apply State.Alike.flatten
  cases greedy with
  | false => exact hv
  | true => exact List.rel_reverse hv

end Rounds

namespace Pattern

variable {e e' : Search Id} {c : Setting}

theorem moves?_eq (hi : e.input = e'.input) (hf : e.flags = e'.flags) (t : Test) (s : State) :
    t.moves? e s = t.moves? e' s := by
  rw [Test.moves?, Test.moves?, hi, hf]

theorem mem_ends_of_offset_eq (he : e.Sees c) {p : Pattern} (hb : p.hasBackref = false)
    (hv : p.EveryRepeat InOrder) {s t : State} (hs : s.origin = c.origin) (ht : t.origin = c.origin)
    (hst : s.offset = t.offset) : ∀ j ∈ (p.ends e t).map State.offset, j ∈ (p.ends e s).map State.offset := by
  intro j hj
  rw [mem_ends_iff he hb hv ht] at hj
  rw [mem_ends_iff he hb hv hs, hst]
  exact hj

theorem ends_alike_repeated (he : e.Sees c) {p : Pattern} (hb : p.hasBackref = false) (hv : p.EveryRepeat InOrder)
    (hi : e.input = e'.input) (hp : ∀ s, s.origin = c.origin → State.Alike (p.ends e s) (p.ends e' s)) (lo : Nat)
    (hi' : Option Nat) (greedy : Bool) {s : State} (hs : s.origin = c.origin) :
    State.Alike ((repeated p lo hi' greedy).ends e s) ((repeated p lo hi' greedy).ends e' s) := by
  have hkeeps (e : Search Id) : (e.rounds (m := Id) (p.ends e) lo hi').Keeps fun s => s.origin = c.origin := by
    apply Search.keeps_rounds
    intro s hs t ht
    exact (ends_origin p s t ht).trans hs
  have hrounds : (e.rounds (m := Id) (p.ends e) lo hi').Alike (e'.rounds (m := Id) (p.ends e') lo hi')
      fun s => s.origin = c.origin := by
    refine ⟨rfl, rfl, hkeeps e, hkeeps e', ?_⟩
    intro l l' hl hl' hll
    have hround (e : Search Id) (l : List State) :
        State.Alike (l.flatMap (p.ends e)) ((e.rounds (m := Id) (p.ends e) lo hi').after l) := by
      rw [Search.after_rounds]
      apply State.Alike.trans _ (e.alike_dedup _).symm
      exact .flatMap fun s _ => (e.alike_dedup _).symm
    apply (hround e l).symm.trans
    apply State.Alike.trans _ (hround e' l')
    apply State.Alike.bind hl hl' _ hp hll
    intro s t hs ht
    exact mem_ends_of_offset_eq he hb hv hs ht
  have hfuel : e.fuel = e'.fuel := by rw [Search.fuel, Search.fuel, hi]
  rw [ends_repeated, ends_repeated, ← hfuel]
  apply (e.alike_dedup _).trans
  apply State.Alike.trans _ (e'.alike_dedup _).symm
  exact hrounds.outcomes e.fuel greedy hs

theorem ends_alike (he : e.Sees c) (hi : e.input = e'.input) (hf : e.flags = e'.flags) {p : Pattern}
    (hb : p.hasBackref = false) (hv : p.EveryRepeat InOrder) {s : State} (hs : s.origin = c.origin) :
    State.Alike (p.ends e s) (p.ends e' s) := by
  induction p generalizing s with
  | empty =>
    rw [ends_empty, ends_empty]
    exact .refl _
  | test t =>
    rw [ends_test, ends_test, moves?_eq hi hf]
    exact .refl _
  | seq p q hp hq =>
    obtain ⟨hbp, hbq⟩ := Bool.or_eq_false_iff.mp hb
    have horigin (e : Search Id) : ∀ t ∈ p.ends e s, t.origin = c.origin := fun t ht => (ends_origin p s t ht).trans hs
    rw [ends_seq, ends_seq]
    apply State.Alike.bind (horigin e) (horigin e') _ (fun t ht => hq hbq hv.2 ht) (hp hbp hv.1 hs)
    intro s t hs ht
    exact mem_ends_of_offset_eq he hbq hv.2 hs ht
  | alt p q hp hq =>
    obtain ⟨hbp, hbq⟩ := Bool.or_eq_false_iff.mp hb
    rw [ends_alt, ends_alt]
    exact (hp hbp hv.1 hs).append (hq hbq hv.2 hs)
  | group g p hp =>
    rw [ends_group, ends_group]
    apply State.Alike.map fun s => leave_offset s g
    exact hp hb hv (by rwa [enter_origin])
  | repeated p lo hi' greedy hp =>
    apply ends_alike_repeated (p := p) he hb hv.2 hi _ lo hi' greedy hs
    intro s hs
    exact hp hb hv.2 hs
  | look negated p hp =>
    rw [ends_look, ends_look, (hp hb hv hs).head?]
    exact .refl _

end Pattern

namespace Regex

variable {r : Regex} {source : String} {d : Dialect} {o : Options} {input : Input Id} {text : List Char}

/-- Whether the states at one offset are merged or all of them are kept, each attempt of a pattern without
backreferences ends in the same state, with the same captures. -/
theorem merging_unobservable (hr : compile source d o = .ok r) (hb : r.body.hasBackref = false)
    (h : input.Reads text) (flags : SearchFlags) :
    r.merge = true ∧ ∀ merge origin offset,
      r.run r.whole flags input origin offset =
          r.whole.first (m := Id) ⟨input, flags, merge⟩ (fun s => pure (some s)) (.initial r.groupCount origin offset) ∧
        r.matchAt flags input offset =
          if text.length < offset then none
          else (r.whole.first (m := Id) ⟨input, flags, merge⟩ (fun s => pure (some s))
            (.initial r.groupCount offset offset) : Option State).map Match.ofState := by
  have hv : r.body.EveryRepeat InOrder := compile_inOrder (compile_eq_ok hr)
  have hmerge : r.merge = true := by rw [r.merge_eq, hb]; rfl
  have hrun (merge : Bool) (origin offset : Nat) : r.run r.whole flags input origin offset =
      r.whole.first (m := Id) ⟨input, flags, merge⟩ (fun s => pure (some s)) (.initial r.groupCount origin offset) := by
    rw [run_eq, Pattern.first_some]
    have he := search_sees r flags h origin
    let kept : Search Id := ⟨input, flags, merge⟩
    have hi : (r.search flags input).input = kept.input := rfl
    apply State.Alike.head?
    exact Pattern.ends_alike (p := r.whole) he hi rfl hb hv rfl
  refine ⟨hmerge, ?_⟩
  intro merge origin offset
  refine ⟨hrun merge origin offset, ?_⟩
  rw [matchAt_eq h, ← hrun merge offset offset]

theorem merging_unobservable_nested :
    ∃ r : Regex, compile "(?:(a|ab)|(b?))\x7b3,\x7dc" .perl5 {} = .ok r ∧ r.body.hasBackref = false ∧
      (Haystack.ofString "xabbc").input.Reads "xabbc".toList ∧
      ((r.whole.first (m := Id) ⟨(Haystack.ofString "xabbc").input, {}, false⟩ (fun s => pure (some s))
        (.initial r.groupCount 1 1) : Option State).map Match.ofState) =
          some ⟨1, 5, [some (1, 5), some (1, 2), some (3, 4)]⟩ := by
  let word (cs : List Char) : Pattern := .test (.literal cs false)
  let body : Pattern := .seq (.repeated (.group none (.alt (.group (some 1) (.alt (word ['a']) (word ['a', 'b'])))
    (.group (some 2) (.repeated (word ['b']) 0 (some 1) true)))) 3 none true) (word ['c'])
  let r : Regex := ⟨"(?:(a|ab)|(b?))\x7b3,\x7dc", .perl5, {}, body, 3, true, rfl⟩
  have hr : compile "(?:(a|ab)|(b?))\x7b3,\x7dc" .perl5 {} = .ok r := by cbv
  have hread := Haystack.input_reads "xabbc"
  have hm : @Eq (Option Match) (r.matchAt {} (Haystack.ofString "xabbc").input 1)
      (some ⟨1, 5, [some (1, 5), some (1, 2), some (3, 4)]⟩) := by decide +kernel
  have hlen : ¬ "xabbc".toList.length < 1 := by decide
  have h := ((merging_unobservable hr rfl hread {}).2 false 0 1).2
  rw [if_neg hlen] at h
  exact ⟨r, hr, rfl, hread, h.symm.trans hm⟩

end Regex

end DialectRegex
