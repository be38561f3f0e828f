import DialectRegex.Proofs.Matching.Limits
import DialectRegex.Proofs.Matching.States

namespace DialectRegex

def Capture.shift (n : Nat) (k : Capture) : Capture := ⟨k.opened.map (· + n), k.closed.map (· + n)⟩

theorem Capture.range?_shift (n : Nat) (k : Capture) :
    (k.shift n).range? = k.range?.map fun (a, b) => (a + n, b + n) := by
  obtain ⟨opened, closed⟩ := k
  cases opened with
  | none => rfl
  | some a =>
    cases closed with
    | none => rfl
    | some b =>
      simp only [shift, range?, Option.map_some, Nat.add_le_add_iff_right]
      split <;> rfl

theorem map_modify {α β : Type} {f : α → β} {u : α → α} {v : β → β} (h : ∀ a, f (u a) = v (f a)) (l : List α)
    (i : Nat) : (l.modify i u).map f = (l.map f).modify i v := by
  apply List.ext_getElem?
  intro j
  simp only [List.getElem?_map, List.getElem?_modify]
  split <;> simp [Function.comp_def, h]

namespace State

def shift (n origin : Nat) (s : State) : State := ⟨origin, s.offset + n, s.captures.map (Capture.shift n)⟩

variable (n origin : Nat)

@[simp] theorem shift_offset (s : State) : (s.shift n origin).offset = s.offset + n := rfl

theorem shift_enter (s : State) (g : Option Nat) : (s.enter g).shift n origin = (s.shift n origin).enter g := by
  cases g with
  | none => rfl
  | some g =>
    simp only [enter, shift, mk.injEq, true_and]
    apply map_modify
    intro k
    rfl

theorem shift_leave (s : State) (g : Option Nat) : (s.leave g).shift n origin = (s.shift n origin).leave g := by
  cases g with
  | none => rfl
  | some g =>
    simp only [leave, shift, mk.injEq, true_and]
    apply map_modify
    intro k
    rfl

theorem shift_initial (groups i j : Nat) : (initial groups i j).shift n origin = initial groups origin (j + n) := by
  simp [initial, shift, Capture.shift]

theorem group?_shift (s : State) (g : Nat) :
    (s.shift n origin).group? g = (s.group? g).map fun (a, b) => (a + n, b + n) := by
  rw [group?, group?, shift, List.getElem?_map]
  cases s.captures[g]? with
  | none => rfl
  | some k => exact k.range?_shift n

theorem map_offset_shift (l : List State) : (l.map (shift n origin)).map offset = (l.map offset).map (· + n) := by
  rw [List.map_map, List.map_map]
  rfl

theorem distinct_shift {seen seen' : OffsetSet} (h : ∀ j, seen'.contains (j + n) = seen.contains j) (l : List State) :
    distinct seen' (l.map (shift n origin)) = (distinct seen l).map (shift n origin) := by
  induction l generalizing seen seen' with
  | nil => rfl
  | cons s l ih =>
    rw [List.map_cons, distinct, distinct, shift_offset, h]
    split
    · exact ih h
    · rw [List.map_cons, ih]
      simp [h]

theorem offsets_shift_eq_iff (l l' : List State) :
    offsets (l.map (shift n origin)) = offsets (l'.map (shift n origin)) ↔ offsets l = offsets l' := by
  simp only [offsets_eq_iff, map_offset_shift]
  constructor
  · intro h j
    simpa using h (j + n)
  · intro h j
    simp only [List.mem_map (f := (· + n)), h]

theorem idxOf?_offsets_shift (ls : List (List State)) (l : List State) :
    (ls.map fun l => offsets (l.map (shift n origin))).idxOf? (offsets (l.map (shift n origin))) =
      (ls.map offsets).idxOf? (offsets l) := by
  induction ls with
  | nil => rfl
  | cons l' ls ih => simp only [List.map_cons, List.idxOf?_cons, ih, beq_iff_eq, offsets_shift_eq_iff]

end State

structure Frontier.Shifts (n origin : Nat) (f f' : Frontier) : Prop where
  count : f'.count = f.count
  stalled : f'.stalled = f.stalled
  level : f'.level = f.level.map (State.shift n origin)
  seen : ∀ j, f'.seen.contains (j + n) = f.seen.contains j

namespace Rounds

structure Shifts (n origin : Nat) (P : State → Prop) (r r' : Rounds Id) : Prop where
  min_eq : r'.min = r.min
  max_eq : r'.max = r.max
  keeps : r.Keeps P
  after : ∀ l, (∀ s ∈ l, P s) → r'.after (l.map (State.shift n origin)) = (r.after l).map (State.shift n origin)

namespace Shifts

variable {n origin : Nat} {P : State → Prop} {r r' : Rounds Id} {l : List State}

theorem level (h : Shifts n origin P r r') (hl : ∀ s ∈ l, P s) (k : Nat) :
    r'.level k (l.map (State.shift n origin)) = (r.level k l).map (State.shift n origin) := by
  induction k with
  | zero => rfl
  | succ k ih =>
    rw [Rounds.level, Rounds.level, ih]
    exact h.after _ (h.keeps.level hl k)

theorem padded? (h : Shifts n origin P r r') (hl : ∀ s ∈ l, P s) (k : Nat) (past : List (List State)) :
    r'.padded? k (l.map (State.shift n origin)) (past.map fun l => State.offsets (l.map (State.shift n origin))) =
      (r.padded? k l (past.map State.offsets)).map (List.map (State.shift n origin)) := by
  induction k generalizing l past with
  | zero => rfl
  | succ k ih =>
    have hnext := h.keeps l hl
    rw [padded?_succ, padded?_succ, h.after l hl, List.isEmpty_map, State.idxOf?_offsets_shift]
    split
    · rfl
    split
    · rw [h.level hnext]
      rfl
    · exact ih hnext (r.after l :: past)

theorem next? (h : Shifts n origin P r r') {f f' : Frontier} (hf : f.Shifts n origin f') (hl : ∀ s ∈ f.level, P s) :
    Option.Rel (Frontier.Shifts n origin) (r.next? f) (r'.next? f') := by
  have hafter := h.after f.level hl
  have hseen (j : Nat) : ((r'.after f'.level).foldl (fun seen s => seen.insert s.offset) f'.seen).contains (j + n) =
      ((r.after f.level).foldl (fun seen s => seen.insert s.offset) f.seen).contains j := by
    rw [Bool.eq_iff_iff, mem_foldl_insert, mem_foldl_insert, hf.level, hafter, hf.seen, State.map_offset_shift]
    simp
  have hfresh : (r'.after f'.level).any (!f'.seen.contains ·.offset) =
      (r.after f.level).any (!f.seen.contains ·.offset) := by
    rw [hf.level, hafter, List.any_map]
    simp only [Function.comp_def, State.shift_offset, hf.seen]
  rw [next?_eq, next?_eq, hf.stalled, hf.count, h.max_eq, h.min_eq, hfresh, hf.level, hafter, List.isEmpty_map]
  rw [hf.level, hafter] at hseen
  dsimp only
  split
  · exact .none
  split
  · exact .none
  split
  · exact .some ⟨rfl, rfl, rfl, hseen⟩
  split
  · exact .some ⟨rfl, rfl, rfl, hseen⟩
  have hpad := h.padded? (h.keeps f.level hl) (r.min - (f.count + 1)) [r.after f.level]
  simp only [List.map_cons, List.map_nil] at hpad
  rw [hpad]
  cases r.padded? (r.min - (f.count + 1)) (r.after f.level) [State.offsets (r.after f.level)] with
  | none => exact .none
  | some l => exact .some ⟨rfl, rfl, rfl, hseen⟩

theorem visited (h : Shifts n origin P r r') (fuel : Nat) {f f' : Frontier} (hf : f.Shifts n origin f')
    (hl : ∀ s ∈ f.level, P s) :
    r'.visited fuel f' = (r.visited fuel f).map (List.map (State.shift n origin)) := by
  induction fuel generalizing f f' with
  | zero => rfl
  | succ fuel ih =>
    have hnext := h.next? hf hl
    have hkeeps := fun g (hg : r.next? f = some g) => h.keeps.next? hl hg
    rw [Rounds.visited, Rounds.visited, hf.count, h.min_eq, hf.level, List.map_append]
    congr 1
    · split <;> rfl
    · generalize r.next? f = x at hnext hkeeps ⊢
      generalize r'.next? f' = x' at hnext ⊢
      cases hnext with
      | none => rfl
      | some hg => exact ih hg (hkeeps _ rfl)

theorem outcomes (h : Shifts n origin P r r') (fuel : Nat) (greedy : Bool) {s : State} (hs : P s) :
    r'.outcomes fuel greedy (s.shift n origin) = (r.outcomes fuel greedy s).map (State.shift n origin) := by
  have hinit : (Frontier.initial s).Shifts n origin (.initial (s.shift n origin)) :=
    ⟨rfl, rfl, rfl, fun j => by simp [Frontier.initial]⟩
  have hone : ∀ t ∈ (Frontier.initial s).level, P t := by
    intro t ht
    exact List.mem_singleton.mp ht ▸ hs
  rw [Rounds.outcomes, Rounds.outcomes, h.visited fuel hinit hone]
  cases greedy <;> simp [List.map_flatten]

end Shifts

end Rounds

theorem Setting.Within.enter {c : Setting} {i : Nat} {s : State} (h : c.Within i s) (g : Option Nat) :
    c.Within i (s.enter g) := by
  constructor
  · rw [Pattern.enter_origin]
    exact h.origin
  · rw [Pattern.enter_offset]
    exact h.advances

def Test.Shifts (n origin : Nat) (e e' : Search Id) (c : Setting) (i : Nat) (t : Test) : Prop :=
  ∀ s, c.Within i s → t.moves? e' (s.shift n origin) = (t.moves? e s).map (· + n)

section Search

variable {n origin i : Nat} {e e' : Search Id} {c : Setting}

theorem Search.dedup_shift (hm : e'.merge = e.merge) (l : List State) :
    e'.dedup (l.map (State.shift n origin)) = (e.dedup l).map (State.shift n origin) := by
  rw [dedup, dedup, hm]
  split
  · rw [State.dedup_eq, State.dedup_eq]
    exact State.distinct_shift n origin (fun _ => rfl) l
  · rfl

theorem Search.shifts_rounds (he : e.Sees c) (hm : e'.merge = e.merge) {p : Pattern}
    (hp : ∀ s, c.Within i s → p.ends e' (s.shift n origin) = (p.ends e s).map (State.shift n origin)) (lo : Nat)
    (hi : Option Nat) :
    Rounds.Shifts n origin (c.Within i) (e.rounds (m := Id) (p.ends e) lo hi) (e'.rounds (m := Id) (p.ends e') lo hi)
    where
  min_eq := rfl
  max_eq := rfl
  keeps := keeps_rounds (fun _ => Pattern.ends_within he p) lo hi
  after l hl := by
    rw [after_rounds, after_rounds, ← dedup_shift hm, List.flatMap_map, List.map_flatMap]
    apply congrArg e'.dedup
    apply List.flatMap_congr
    intro s hs
    rw [hp s (hl s hs), dedup_shift hm]

theorem Pattern.ends_shift (he : e.Sees c) (hm : e'.merge = e.merge) (hf : e.fuel ≤ e'.fuel) {p : Pattern}
    (ht : p.EveryTest (Test.Shifts n origin e e' c i)) {s : State} (hs : c.Within i s) :
    p.ends e' (s.shift n origin) = (p.ends e s).map (State.shift n origin) := by
  -- Captures are shifted along with the offset, so that the states within a pattern are shifted as a whole.
  induction p generalizing s with
  | empty => rw [ends_empty, ends_empty, List.map_singleton]
  | test t =>
    rw [ends_test, ends_test, ht s hs]
    cases t.moves? e s <;> rfl
  | seq p q hp hq =>
    rw [ends_seq, ends_seq, hp ht.1 hs, List.flatMap_map, List.map_flatMap]
    apply List.flatMap_congr
    intro t hts
    exact hq ht.2 (ends_within he p hs t hts)
  | alt p q hp hq => rw [ends_alt, ends_alt, hp ht.1 hs, hq ht.2 hs, List.map_append]
  | group g p hp =>
    rw [ends_group, ends_group, ← State.shift_enter, hp ht (hs.enter g), List.map_map, List.map_map]
    apply List.map_congr_left
    intro t _
    exact (State.shift_leave n origin t g).symm
  | repeated p lo hi greedy hp =>
    have hrounds := Search.shifts_rounds he hm (fun s hs => hp ht hs) lo hi
    -- The two searches have different fuel, since their texts are not equally long, but both have enough.
    rw [ends_repeated, ends_repeated, hrounds.outcomes e'.fuel greedy hs, Search.dedup_shift hm,
      Search.outcomes_fuel he hf]
  | look negated p hp =>
    rw [ends_look, ends_look, hp ht hs, List.head?_map]
    cases (p.ends e s).head? <;> cases negated <;> rfl

end Search

def Match.shift (n : Nat) (m : Match) : Match :=
  ⟨m.start + n, m.stop + n, m.groups.map (Option.map fun (a, b) => (a + n, b + n))⟩

theorem Match.ofState_shift (n : Nat) (s : State) : ofState (s.shift n (s.origin + n)) = (ofState s).shift n := by
  have hgroups : (s.shift n (s.origin + n)).captures.map Capture.range? =
      (s.captures.map Capture.range?).map (Option.map fun (a, b) => (a + n, b + n)) := by
    rw [State.shift, List.map_map, List.map_map]
    apply List.map_congr_left
    intro k _
    exact k.range?_shift n
  rw [ofState, ofState, hgroups, shift]
  dsimp only
  rw [List.head?_map]
  cases (s.captures.map Capture.range?).head? with
  | none => rfl
  | some k => cases k <;> rfl

namespace Regex

variable {r : Regex} {flags flags' : SearchFlags} {input input' : Input Id} {text text' : List Char}

theorem run_shift (h : input.Reads text) (h' : input'.Reads text') (hl : text.length ≤ text'.length)
    {n origin origin' i : Nat} {p : Pattern}
    (hp : p.EveryTest (Test.Shifts n origin' (r.search flags input) (r.search flags' input') ⟨text, flags, origin⟩ i)) :
    r.run p flags' input' origin' (i + n) = (r.run p flags input origin i : Option State).map (State.shift n origin') := by
  have hfuel : (r.search flags input).fuel ≤ (r.search flags' input').fuel := by
    change input.limit + 3 ≤ input'.limit + 3
    rw [h.limit, h'.limit]
    exact Nat.add_le_add_right hl 3
  have hmerge : (r.search flags' input').merge = (r.search flags input).merge := rfl
  have hends := Pattern.ends_shift (search_sees r flags h origin) hmerge hfuel hp
    (s := .initial r.groupCount origin i) ⟨rfl, .inl rfl⟩
  rw [run_eq, run_eq, ← State.shift_initial n origin', hends, List.head?_map]

section Shifts

variable {n origin : Nat} (h : input.Reads text) (h' : input'.Reads text') (hl : text'.length = text.length + n)
  (hp : r.body.EveryTest fun t =>
    ∀ i, t.Shifts n (origin + n) (r.search flags input) (r.search flags' input') ⟨text, flags, origin⟩ i)
include h h' hl hp

theorem attempt_shift (i : Nat) :
    (r.run r.whole flags' input' (origin + n) (i + n) : Option State).map Match.ofState =
      ((r.run r.whole flags input origin i : Option State).map Match.ofState).map (Match.shift n) := by
  have hrun := run_shift h h' (by omega) (p := r.whole) (i := i) (hp.mono fun t ht => ht i)
  rw [hrun, Option.map_map, Option.map_map]
  apply Option.map_congr
  intro t ht
  rw [run_eq] at ht
  have horigin : t.origin = origin := Pattern.ends_origin r.whole _ t (List.mem_of_mem_head? ht)
  rw [Function.comp_apply, ← horigin]
  exact Match.ofState_shift n t

theorem matchAt_shift :
    r.matchAt flags' input' (origin + n) = (r.matchAt flags input origin : Option Match).map (Match.shift n) := by
  rw [matchAt_eq h', matchAt_eq h, hl]
  simp only [Nat.add_lt_add_iff_right]
  split
  · rfl
  · exact attempt_shift h h' hl hp origin

theorem findAt_shift :
    r.findAt flags' input' (origin + n) = (r.findAt flags input origin : Option Match).map (Match.shift n) := by
  have hlen : text'.length + 1 - (origin + n) = text.length + 1 - origin := by omega
  have hrange : List.range' (origin + n) (text.length + 1 - origin) =
      (List.range' origin (text.length + 1 - origin)).map (· + n) := by
    simp only [Nat.add_comm _ n, List.map_add_range']
  rw [findAt_eq h', findAt_eq h, hlen, hrange, List.findSome?_map, List.map_findSome?, List.map_findSome?,
    List.map_findSome?]
  congr 1
  funext i
  exact attempt_shift h h' hl hp i

end Shifts

end Regex

end DialectRegex
