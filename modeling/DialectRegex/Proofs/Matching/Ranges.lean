import DialectRegex.Proofs.Matching.Recall

namespace DialectRegex

def Pattern.lookNumbers : Pattern → List Nat
  | empty => []
  | test _ => []
  | seq p q => p.lookNumbers ++ q.lookNumbers
  | alt p q => p.lookNumbers ++ q.lookNumbers
  | group _ p => p.lookNumbers
  | repeated p _ _ _ => p.lookNumbers
  | look _ p => p.numbers

theorem Pattern.lookNumbers_subset (p : Pattern) : p.lookNumbers ⊆ p.numbers := by
  have happend {l₁ l₂ l₁' l₂' : List Nat} (h₁ : l₁ ⊆ l₁') (h₂ : l₂ ⊆ l₂') : l₁ ++ l₂ ⊆ l₁' ++ l₂' :=
    List.append_subset.mpr ⟨List.subset_append_of_subset_left _ h₁, List.subset_append_of_subset_right _ h₂⟩
  induction p with
  | empty => exact List.nil_subset _
  | test t => exact List.nil_subset _
  | seq p q hp hq =>
    rw [numbers_seq]
    exact happend hp hq
  | alt p q hp hq =>
    rw [numbers_alt]
    exact happend hp hq
  | group g p hp =>
    rw [numbers_group]
    exact List.subset_append_of_subset_right _ hp
  | repeated p lo hi greedy hp => exact hp
  | look negated p _ => exact List.Subset.refl _

inductive Capture.Lies (lo hi : Nat) : Capture → Prop where
  | unset : Lies lo hi {}
  | set {a b : Nat} (ha : lo ≤ a) (hab : a ≤ b) (hb : b ≤ hi) : Lies lo hi ⟨some a, some b⟩

theorem Capture.Lies.ordered {lo hi a b : Nat} (h : Lies lo hi ⟨some a, some b⟩) : a ≤ b := by
  cases h with
  | set _ hab _ => exact hab

namespace Point

variable {e : Search Id} {c : Setting} {x y : Point} {lo hi g : Nat}

def Began (lo hi : Nat) : List Task → Prop
  | [] => True
  | .pattern _ :: k => Began lo hi k
  | .leave _ i :: k => lo ≤ i ∧ Began lo hi k
  | .back i :: k => (lo ≤ i ∧ i ≤ hi) ∧ Began lo hi k

structure Between (lo hi : Nat) (x : Point) : Prop where
  offset : lo ≤ x.state.offset ∧ x.state.offset ≤ hi
  began : Began lo hi x.todo
  visits : ∀ a ∈ x.visits, lo ≤ a.start ∧ a.stop ≤ hi

theorem Between.step (he : e.Sees c) (h : Between lo c.text.length x) (hs : Step e x y) :
    Between lo c.text.length y := by
  cases hs with
  | empty => exact ⟨h.offset, h.began, h.visits⟩
  | @test t j k s v hj =>
    have hadv := Test.moves?_advances he hj
    have hoffset := h.offset
    simp only [Advances] at hadv
    dsimp only at hoffset
    exact ⟨⟨by dsimp only [State.moveTo]; omega, by dsimp only [State.moveTo]; omega⟩, h.began, h.visits⟩
  | seq => exact ⟨h.offset, h.began, h.visits⟩
  | left => exact ⟨h.offset, h.began, h.visits⟩
  | right => exact ⟨h.offset, h.began, h.visits⟩
  | @enter g p k s v =>
    refine ⟨?_, ⟨h.offset.1, h.began⟩, h.visits⟩
    rw [Pattern.enter_offset]
    exact h.offset
  | @leave g i k s v =>
    refine ⟨?_, h.began.2, ?_⟩
    · rw [Pattern.leave_offset]
      exact h.offset
    · intro a ha
      rcases List.mem_append.mp ha with ha | ha
      · obtain ⟨_, _, rfl⟩ := List.mem_map.mp ha
        exact ⟨h.began.1, h.offset.2⟩
      · exact h.visits a ha
  | round => exact ⟨h.offset, h.began, h.visits⟩
  | finish => exact ⟨h.offset, h.began, h.visits⟩
  | look => exact ⟨h.offset, ⟨h.offset, h.began⟩, h.visits⟩
  | refuse _ => exact ⟨h.offset, h.began, h.visits⟩
  | back => exact ⟨h.began.1, h.began.2, h.visits⟩

theorem Between.walk (he : e.Sees c) (h : Between lo c.text.length x) (hw : Walk e x y) :
    Between lo c.text.length y := by
  induction hw with
  | refl => exact h
  | tail _ hs ih => exact ih.step he hs

def outer : List Task → Nat → Nat
  | [], o => o
  | .pattern _ :: k, o => outer k o
  | .leave _ _ :: k, o => outer k o
  | .back i :: k, _ => outer k i

theorem outer_mono (k : List Task) {i j : Nat} (h : i ≤ j) : outer k i ≤ outer k j := by
  induction k with
  | nil => exact h
  | cons task k ih =>
    cases task with
    | pattern p => exact ih
    | leave g i => exact ih
    | back i => exact Nat.le_refl _

def Outside (g : Nat) : List Task → Prop
  | [] => True
  | .pattern p :: k => g ∉ p.lookNumbers ∧ (g ∈ p.numbers → ∀ o, outer k o = o) ∧ Outside g k
  | .leave h _ :: k => (h = some g → ∀ o, outer k o = o) ∧ Outside g k
  | .back _ :: k => Outside g k

structure Exposed (g : Nat) (x : Point) : Prop where
  outside : Outside g x.todo
  visits : ∀ a ∈ x.visits, a.group = g → a.stop ≤ outer x.todo x.state.offset

theorem Exposed.step (he : e.Sees c) (h : Exposed g x) (hs : Step e x y) : Exposed g y := by
  cases hs with
  | empty => exact ⟨h.outside.2.2, h.visits⟩
  | @test t j k s v hj =>
    have hle : s.offset ≤ j := by
      have hadv := Test.moves?_advances he hj
      simp only [Advances] at hadv
      omega
    exact ⟨h.outside.2.2, fun a ha hag => (h.visits a ha hag).trans (outer_mono k hle)⟩
  | @seq p q k s v =>
    obtain ⟨hlook, hnumbers, hk⟩ := h.outside
    rw [Pattern.lookNumbers, List.mem_append, not_or] at hlook
    rw [Pattern.numbers_seq] at hnumbers
    refine ⟨⟨hlook.1, ?_, hlook.2, ?_, hk⟩, h.visits⟩
    · exact fun hg => hnumbers (List.mem_append_left _ hg)
    · exact fun hg => hnumbers (List.mem_append_right _ hg)
  | left =>
    obtain ⟨hlook, hnumbers, hk⟩ := h.outside
    rw [Pattern.lookNumbers, List.mem_append, not_or] at hlook
    rw [Pattern.numbers_alt] at hnumbers
    exact ⟨⟨hlook.1, fun hg => hnumbers (List.mem_append_left _ hg), hk⟩, h.visits⟩
  | right =>
    obtain ⟨hlook, hnumbers, hk⟩ := h.outside
    rw [Pattern.lookNumbers, List.mem_append, not_or] at hlook
    rw [Pattern.numbers_alt] at hnumbers
    exact ⟨⟨hlook.2, fun hg => hnumbers (List.mem_append_right _ hg), hk⟩, h.visits⟩
  | @enter n p k s v =>
    obtain ⟨hlook, hnumbers, hk⟩ := h.outside
    rw [Pattern.numbers_group] at hnumbers
    refine ⟨⟨hlook, fun hg => hnumbers (List.mem_append_right _ hg), ?_, hk⟩, ?_⟩
    · rintro rfl
      exact hnumbers (by simp)
    · rw [Pattern.enter_offset]
      exact h.visits
  | @leave n i k s v =>
    obtain ⟨hbare, hk⟩ := h.outside
    refine ⟨hk, ?_⟩
    rw [Pattern.leave_offset]
    intro a ha hag
    rcases List.mem_append.mp ha with ha | ha
    · obtain ⟨n', hn, rfl⟩ := List.mem_map.mp ha
      obtain rfl : n' = g := hag
      rw [hbare (Option.mem_toList.mp hn)]
    · exact h.visits a ha hag
  | round =>
    obtain ⟨hlook, hnumbers, hk⟩ := h.outside
    exact ⟨⟨hlook, hnumbers, hlook, hnumbers, hk⟩, h.visits⟩
  | finish => exact ⟨h.outside.2.2, h.visits⟩
  | @look p k s v =>
    obtain ⟨hlook, _, hk⟩ := h.outside
    exact ⟨⟨fun hg => hlook (p.lookNumbers_subset hg), fun hg => absurd hg hlook, hk⟩, h.visits⟩
  | refuse _ => exact ⟨h.outside.2.2, h.visits⟩
  | back => exact ⟨h.outside, h.visits⟩

theorem Exposed.walk (he : e.Sees c) (h : Exposed g x) (hw : Walk e x y) : Exposed g y := by
  induction hw with
  | refl => exact h
  | tail _ hs ih => exact ih.step he hs

theorem Tracks.capture {n : Nat} {t : State} {v : List Visit} (h : Tracks n g ⟨[], t, v⟩) {k : Capture}
    (hk : t.captures[g]? = some k) : k = ((latest g v).map fun a => ⟨some a.start, some a.stop⟩).getD {} := by
  obtain ⟨_, _, hclosed, hopened⟩ := h
  dsimp only [openedAt] at hclosed hopened
  rw [hk, Option.bind_some] at hclosed hopened
  obtain ⟨opened, closed⟩ := k
  cases hl : latest g v <;> simp_all

end Point

namespace Regex

variable {r : Regex} {source : String} {d : Dialect} {o : Options} {e : Search Id} {c : Setting}

theorem captures_lie (hr : compile source d o = .ok r) (he : e.Sees c) {origin i : Nat} (hi : i ≤ c.text.length)
    {t : State} (ht : t ∈ r.whole.ends e (.initial r.groupCount origin i)) (g : Nat) :
    ∀ k ∈ t.captures[g]?, k.Lies i c.text.length ∧ (g ∉ r.body.lookNumbers → k.Lies i t.offset) := by
  let x : Point := ⟨[.pattern r.whole], .initial r.groupCount origin i, []⟩
  obtain ⟨v, hw⟩ : ∃ v, Walk e x ⟨[], t, v⟩ := Pattern.ends_walk ht [] []
  have hforward : x.Forward := ⟨trivial, List.forall_mem_nil _⟩
  have hbetween : x.Between i c.text.length := ⟨⟨Nat.le_refl i, hi⟩, trivial, List.forall_mem_nil _⟩
  intro k hk
  rw [((initial_tracks hr origin i g).walk hw).capture hk]
  cases hl : Point.latest g v with
  | none => exact ⟨.unset, fun _ => .unset⟩
  | some a =>
    have ha := List.mem_of_find?_eq_some hl
    have hag : a.group = g := by simpa using List.find?_some hl
    have hle := (hforward.walk he hw).visits a ha
    obtain ⟨hstart, hstop⟩ := (hbetween.walk he hw).visits a ha
    refine ⟨.set hstart hle hstop, ?_⟩
    intro hg
    have hexposed : x.Exposed g := ⟨⟨hg, fun _ _ => rfl, trivial⟩, List.forall_mem_nil _⟩
    exact .set hstart hle ((hexposed.walk he hw).visits a ha hag)

structure Reports (r : Regex) (n : Nat) (t : State) (m : Match) : Prop where
  eq_ofState : m = .ofState t
  start_le : m.start ≤ m.stop
  stop_le : m.stop ≤ n
  length_groups : m.groups.length = r.groupCount
  group_zero : m.group? 0 = some (m.start, m.stop)
  captures : ∀ g, ∀ k ∈ t.captures[g]?, k.Lies m.start n ∧ (g ∉ r.body.lookNumbers → k.Lies m.start m.stop)
  group_iff : ∀ g a b, m.group? g = some (a, b) ↔ t.captures[g]? = some ⟨some a, some b⟩

theorem run_reports (hr : compile source d o = .ok r) {flags : SearchFlags} {input : Input Id} {text : List Char}
    (h : input.Reads text) {origin i : Nat} (hi : i ≤ text.length) {t : State}
    (ht : (r.run r.whole flags input origin i : Option State) = some t) :
    (Match.ofState t).start = i ∧ r.Reports text.length t (.ofState t) := by
  have he := search_sees r flags h origin
  rw [run_eq] at ht
  have hmem := List.mem_of_mem_head? ht
  obtain ⟨hstart, hstop⟩ := ofState_range hr he hmem
  have hlie := captures_lie hr he hi hmem
  have hlength : t.captures.length = r.groupCount := by
    obtain ⟨v, hw⟩ := Pattern.ends_walk hmem [] []
    exact ((initial_tracks hr origin i 0).walk hw).length
  have hgroup (g a b : Nat) : (Match.ofState t).group? g = some (a, b) ↔ t.captures[g]? = some ⟨some a, some b⟩ := by
    rw [Match.group?_ofState, State.group?_eq_some]
    exact and_iff_left_of_imp fun hk => (hlie g _ hk).1.ordered
  obtain ⟨hzero, hle⟩ := captures_zero hr he hmem
  have hadv := Pattern.ends_advances he r.whole _ t hmem
  simp only [Advances, State.initial] at hadv
  refine ⟨hstart, rfl, by omega, by omega, ?_, ?_, ?_, hgroup⟩
  · rw [Match.ofState, List.length_map, hlength]
  · rw [hstart, hstop]
    exact (hgroup 0 i t.offset).mpr hzero
  · rw [hstart, hstop]
    exact hlie

end Regex

end DialectRegex
