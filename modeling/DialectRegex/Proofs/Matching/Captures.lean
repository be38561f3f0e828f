import DialectRegex.Dialect.Named
import DialectRegex.Proofs.Grammar.Forms
import DialectRegex.Proofs.Matching.Searches
import DialectRegex.Proofs.Matching.States

namespace DialectRegex

variable {e : Search Id} {c : Setting}

def Settled (groups : List (Nat × Pattern)) (c : Setting) (g : Nat) (s : State) : Prop :=
  ∀ k ∈ s.captures[g]?, k = {} ∨
    ∃ a b q, k = ⟨some a, some b⟩ ∧ (g, q) ∈ groups ∧ q.Reaches c a b

namespace Pattern

theorem ends_captures {p : Pattern} {g : Nat} (hg : g ∉ p.numbers) (s : State) :
    ∀ t ∈ p.ends e s, t.captures[g]? = s.captures[g]? := by
  apply ends_relates (Q := fun s t => t.captures[g]? = s.captures[g]?) p
  · exact fun _ => rfl
  · exact fun h h' => h'.trans h
  · exact fun _ => rfl
  · intro g' q s t hq ht
    have hne : g' ≠ g := by
      rintro rfl
      exact hg (mem_numbers.mpr ⟨q, hq⟩)
    simpa [hne] using ht
  · exact fun h => h

theorem captures_group {p : Pattern} {g : Nat} (hg : g ∉ p.numbers) {s t : State}
    (ht : t ∈ p.ends e (s.enter (some g))) :
    (t.leave (some g)).captures[g]? = s.captures[g]?.map fun _ => ⟨some s.offset, some t.offset⟩ := by
  rw [State.captures_leave, if_pos rfl, ends_captures hg _ t ht, State.captures_enter, if_pos rfl, Option.map_map]
  rfl

theorem ends_settled {groups : List (Nat × Pattern)} {g : Nat} (he : e.Sees c) {p : Pattern}
    (hb : p.hasBackref = false) (hv : p.EveryRepeat InOrder) (hn : p.WellNested) (hsub : p.groups ⊆ groups)
    {s : State} (ho : s.origin = c.origin) (hs : Settled groups c g s) : ∀ t ∈ p.ends e s, Settled groups c g t := by
  induction p generalizing s with
  | empty =>
    intro t ht
    rw [ends_empty] at ht
    exact List.mem_singleton.mp ht ▸ hs
  | test t =>
    intro u hu
    rw [ends_test] at hu
    obtain ⟨j, _, rfl⟩ := Option.map_eq_some_iff.mp (Option.mem_toList.mp hu)
    exact hs
  | seq p q hp hq =>
    obtain ⟨hbp, hbq⟩ := Bool.or_eq_false_iff.mp hb
    obtain ⟨hsp, hsq⟩ := List.append_subset.mp hsub
    intro u hu
    rw [ends_seq] at hu
    obtain ⟨t, ht, hut⟩ := List.mem_flatMap.mp hu
    have hst := hp hbp hv.1 hn.1 hsp ho hs t ht
    exact hq hbq hv.2 hn.2 hsq ((ends_origin p s t ht).trans ho) hst u hut
  | alt p q hp hq =>
    obtain ⟨hbp, hbq⟩ := Bool.or_eq_false_iff.mp hb
    obtain ⟨hsp, hsq⟩ := List.append_subset.mp hsub
    intro u hu
    rw [ends_alt] at hu
    rcases List.mem_append.mp hu with hu | hu
    · exact hp hbp hv.1 hn.1 hsp ho hs u hu
    · exact hq hbq hv.2 hn.2 hsq ho hs u hu
  | group n p hp =>
    intro u hu
    rw [ends_group] at hu
    obtain ⟨t, ht, rfl⟩ := List.mem_map.mp hu
    cases n with
    | none => exact hp hb hv hn.2 hsub ho hs t ht
    | some n =>
      obtain ⟨hmem, hsub⟩ := List.cons_subset.mp hsub
      by_cases hng : n = g
      · subst hng
        intro k hk
        rw [captures_group (hn.1 n rfl) ht] at hk
        obtain ⟨_, _, rfl⟩ := Option.map_eq_some_iff.mp hk
        have ho' : (s.enter (some n)).origin = c.origin := by rwa [enter_origin]
        have hreach := (mem_ends_iff (p := p) he hb hv ho' t.offset).mp (List.mem_map_of_mem ht)
        rw [enter_offset] at hreach
        exact .inr ⟨_, _, p, rfl, hmem, hreach⟩
      · have henter : Settled groups c g (s.enter (some n)) := by simpa [Settled, hng] using hs
        have ht' := hp hb hv hn.2 hsub (by rwa [enter_origin]) henter t ht
        simpa [Settled, hng] using ht'
  | repeated p lo hi greedy hp =>
    have hround (s : State) (h : s.origin = c.origin ∧ Settled groups c g s) :
        ∀ t ∈ p.ends e s, t.origin = c.origin ∧ Settled groups c g t := by
      intro t ht
      exact ⟨(ends_origin p s t ht).trans h.1, hp hb hv.2 hn hsub h.1 h.2 t ht⟩
    intro t ht
    exact (ends_repeated_keeps hround ⟨ho, hs⟩ t ht).2
  | look negated p hp =>
    intro u hu
    obtain rfl | ⟨r, hr, rfl⟩ := mem_ends_look hu
    · exact hs
    · exact hp hb hv hn hsub ho hs r hr

theorem hasNegation_groups {p q : Pattern} {g : Nat} (hn : p.hasNegation = false) (hq : (g, q) ∈ p.groups) :
    q.hasNegation = false := by
  induction p with
  | empty => cases hq
  | test t => cases hq
  | seq p p' hp hp' =>
    obtain ⟨h, h'⟩ := Bool.or_eq_false_iff.mp hn
    exact (List.mem_append.mp hq).elim (hp h) (hp' h')
  | alt p p' hp hp' =>
    obtain ⟨h, h'⟩ := Bool.or_eq_false_iff.mp hn
    exact (List.mem_append.mp hq).elim (hp h) (hp' h')
  | group n p hp =>
    cases n with
    | none => exact hp hn hq
    | some n =>
      rcases List.mem_cons.mp hq with he | hq
      · cases he
        exact hn
      · exact hp hn hq
  | repeated p lo hi greedy hp => exact hp hn hq
  | look negated p hp => exact hp (Bool.or_eq_false_iff.mp hn).2 hq

end Pattern

theorem settled_initial (groups : List (Nat × Pattern)) (c : Setting) (g n origin offset : Nat) :
    Settled groups c g (.initial n origin offset) :=
  fun _ hk => .inl (State.captures_initial hk)

namespace Regex

variable {r : Regex} {source : String} {d : Dialect} {o : Options}

theorem whole_nodup (hr : compile source d o = .ok r) : r.whole.numbers.Nodup ∧ 0 < r.groupCount := by
  have hperm := compile_numbers (compile_eq_ok hr)
  have hzero := hperm.mem_iff.mp List.mem_cons_self
  exact ⟨hperm.nodup_iff.mpr List.nodup_range, List.mem_range.mp hzero⟩

theorem captures_whole (hzero : 0 ∉ r.body.numbers) (hpos : 0 < r.groupCount) (he : e.Sees c) {origin i : Nat}
    {t : State} (ht : t ∈ r.whole.ends e (.initial r.groupCount origin i)) :
    t.captures[0]? = some ⟨some i, some t.offset⟩ ∧ i ≤ t.offset := by
  have hadv := Pattern.ends_advances he r.whole _ t ht
  rw [whole, Pattern.ends_group] at ht
  obtain ⟨u, hu, rfl⟩ := List.mem_map.mp ht
  have hinit : (State.initial r.groupCount origin i).captures[0]? = some ⟨none, none⟩ := by
    rw [State.initial, List.getElem?_replicate, if_pos hpos]
  rw [Pattern.captures_group hzero hu, hinit, Pattern.leave_offset]
  rw [Pattern.leave_offset] at hadv
  simp only [Advances, State.initial] at hadv
  exact ⟨rfl, by omega⟩

theorem ofState_whole (hzero : 0 ∉ r.body.numbers) (hpos : 0 < r.groupCount) (he : e.Sees c) {origin i : Nat}
    {t : State} (ht : t ∈ r.whole.ends e (.initial r.groupCount origin i)) :
    (Match.ofState t).start = i ∧ (Match.ofState t).stop = t.offset := by
  obtain ⟨hcap, hle⟩ := captures_whole hzero hpos he ht
  have hhead : (t.captures.map Capture.range?).head?.join = some (i, t.offset) := by
    rw [List.head?_map, List.head?_eq_getElem?, hcap]
    exact if_pos hle
  rw [Match.ofState]
  dsimp only
  rw [hhead]
  exact ⟨rfl, rfl⟩

theorem captures_zero (hr : compile source d o = .ok r) (he : e.Sees c) {origin i : Nat} {t : State}
    (ht : t ∈ r.whole.ends e (.initial r.groupCount origin i)) :
    t.captures[0]? = some ⟨some i, some t.offset⟩ ∧ i ≤ t.offset := by
  obtain ⟨hnodup, hpos⟩ := whole_nodup hr
  exact captures_whole (List.nodup_cons.mp hnodup).1 hpos he ht

theorem ofState_range (hr : compile source d o = .ok r) (he : e.Sees c) {origin i : Nat} {t : State}
    (ht : t ∈ r.whole.ends e (.initial r.groupCount origin i)) :
    (Match.ofState t).start = i ∧ (Match.ofState t).stop = t.offset := by
  obtain ⟨hnodup, hpos⟩ := whole_nodup hr
  exact ofState_whole (List.nodup_cons.mp hnodup).1 hpos he ht

theorem run_spans (hr : compile source d o = .ok r) (hb : r.body.hasBackref = false)
    (hn : r.body.hasNegation = false) {flags : SearchFlags} {input : Input Id} {text : List Char}
    (h : input.Reads text) {origin i : Nat} {t : State}
    (ht : (r.run r.whole flags input origin i : Option State) = some t) :
    r.body.Spans ⟨text, flags, origin⟩ (Match.ofState t).start (Match.ofState t).stop ∧
      ∀ g a b, (Match.ofState t).group? g = some (a, b) →
        ∃ q, (g, q) ∈ r.whole.groups ∧ q.Spans ⟨text, flags, origin⟩ a b := by
  have hv : r.body.EveryRepeat InOrder := compile_inOrder (compile_eq_ok hr)
  have he := search_sees r flags h origin
  rw [run_eq] at ht
  have hmem := List.mem_of_mem_head? ht
  obtain ⟨hstart, hstop⟩ := ofState_range hr he hmem
  constructor
  · rw [hstart, hstop]
    have hreach := (Pattern.mem_ends_iff he (p := r.whole) hb hv rfl t.offset).mp (List.mem_map_of_mem hmem)
    exact Pattern.Reaches.spans (p := r.whole) hn hreach
  · intro g a b hg
    have hsettled := Pattern.ends_settled (g := g) he (p := r.whole) hb hv
      (Pattern.wellNested_of_nodup (whole_nodup hr).1) (List.Subset.refl _) rfl (settled_initial _ _ g _ _ _) t hmem
    rw [Match.group?_ofState] at hg
    obtain hunset | ⟨_, _, q, hset, hq, hreach⟩ := hsettled _ (State.group?_eq_some.mp hg).1
    · cases hunset
    · cases hset
      exact ⟨q, hq, hreach.spans (Pattern.hasNegation_groups (p := r.whole) hn hq)⟩

theorem reported_spans (hr : compile source d o = .ok r) (hb : r.body.hasBackref = false)
    (hn : r.body.hasNegation = false) {input : Input Id} {text : List Char} (h : input.Reads text)
    (flags : SearchFlags) (offset : Nat) {m : Match}
    (hm : r.matchAt flags input offset = some m ∨ r.findAt flags input offset = some m) :
    r.body.Spans ⟨text, flags, offset⟩ m.start m.stop ∧
      ∀ g a b, m.group? g = some (a, b) →
        ∃ q, (g, q) ∈ r.whole.groups ∧ q.Spans ⟨text, flags, offset⟩ a b := by
  rcases hm with hm | hm
  · obtain ⟨_, t, ht, rfl⟩ := matchAt_run h hm
    exact run_spans hr hb hn h ht
  · obtain ⟨i, t, _, _, ht, rfl⟩ := findAt_run h hm
    exact run_spans hr hb hn h ht

theorem reported_spans_lookahead :
    ∃ r : Regex, compile "(?=(a+))(ab|a){2,}" .perl5 {} = .ok r ∧ r.body.hasBackref = false ∧
      r.body.hasNegation = false ∧ (Haystack.ofString "xaab").input.Reads "xaab".toList ∧
      ∃ m : Match, r.findAt {} (Haystack.ofString "xaab").input 0 = some m ∧
        m.group? 2 = some (2, 4) ∧ ∃ q, (2, q) ∈ r.whole.groups ∧ q.Spans ⟨"xaab".toList, {}, 0⟩ 2 4 := by
  let word (cs : List Char) : Pattern := .test (.literal cs false)
  let body : Pattern := .seq (.look false (.group (some 1) (.repeated (word ['a']) 1 none true)))
    (.repeated (.group (some 2) (.alt (word ['a', 'b']) (word ['a']))) 2 none true)
  let r : Regex := ⟨"(?=(a+))(ab|a){2,}", .perl5, {}, body, 3, true, rfl⟩
  let m : Match := ⟨1, 4, [some (1, 4), some (1, 3), some (2, 4)]⟩
  have hr : compile "(?=(a+))(ab|a){2,}" .perl5 {} = .ok r := by cbv
  have hread := Haystack.input_reads "xaab"
  have hm : r.find (.ofString "xaab") = some m := by decide +kernel
  exact ⟨r, hr, rfl, rfl, hread, m, hm, rfl, (reported_spans hr rfl rfl hread {} 0 (.inr hm)).2 2 2 4 rfl⟩

end Regex

end DialectRegex
