import DialectRegex.Program.Walker
import DialectRegex.Proofs.Matching.Frontiers

namespace DialectRegex

namespace Walker

def search (w : Walker) : Search Id := ⟨w.input, w.flags, !w.program.hasBackref⟩

def Expands (w : Walker) (sub : Nat) (r : Rounds Id) : Prop := ∀ l, w.expand sub [] l = some (r.after l)

inductive Tells : Option Frontier → Bool × Frontier → Prop where
  | more (f : Frontier) : Tells (some f) (true, f)
  | done {f : Frontier} (h : f.stalled = true) : Tells none (false, f)

theorem furtherLevels_succ {w : Walker} {sub min : Nat} {max : Option Nat} {f f' : Frontier} {more : Bool}
    (h : w.advance sub min max f = some (more, f')) (calls : Nat) :
    w.furtherLevels sub min max (calls + 1) f =
      (w.furtherLevels sub min max calls f').map fun n => if more then n + 1 else n := by
  rw [furtherLevels, h, Option.bind_eq_bind, Option.bind_some]
  dsimp only
  cases w.furtherLevels sub min max calls f' <;> rfl

section Frontiers

variable {w : Walker} {sub : Nat} {r : Rounds Id} {f : Frontier} {fs : List Frontier} (hx : w.Expands sub r)
include hx

theorem iterate_eq (n : Nat) (l : List State) : w.iterate sub n l = some (r.level n l) := by
  induction n generalizing l with
  | zero => rw [iterate.eq_def]; rfl
  | succ n ih =>
    rw [iterate.eq_def]
    dsimp only
    rw [hx, Option.bind_eq_bind, Option.bind_some, ih, r.level_after]

theorem pad_tells {n : Nat} (hn : f.count + n = r.min) (hs : f.stalled = true) (history : List OffsetSet) :
    ∃ a, w.pad sub r.min f history = some a ∧
      Tells ((r.padded? n f.level history).map fun l => { f with count := r.min, level := l }) a := by
  induction n generalizing f history with
  | zero =>
    have hcount : f.count = r.min := hn
    rw [pad.eq_def, if_neg (by omega), ← hcount]
    exact ⟨_, rfl, .more f⟩
  | succ n ih =>
    rw [pad.eq_def, if_pos (by omega), hx, Rounds.padded?_succ, Option.bind_eq_bind, Option.bind_some]
    split
    · exact ⟨_, rfl, .done hs⟩
    · dsimp only
      cases hi : history.idxOf? (State.offsets (r.after f.level)) with
      | none => exact ih (f := ⟨f.count + 1, r.after f.level, f.seen, f.stalled⟩) (by dsimp only; omega) hs _
      | some i =>
        dsimp only
        have hleft : r.min - (f.count + 1) = n := by omega
        rw [iterate_eq hx, hleft]
        exact ⟨_, rfl, .more _⟩

theorem advance_tells (f : Frontier) : ∃ a, w.advance sub r.min r.max f = some a ∧ Tells (r.next? f) a := by
  rw [advance.eq_def, Rounds.next?_eq, hx]
  split
  · exact ⟨_, rfl, .done rfl⟩
  rw [Option.bind_eq_bind, Option.bind_some]
  split
  · exact ⟨_, rfl, .done rfl⟩
  dsimp only
  generalize (r.after f.level).foldl (fun seen s => seen.insert s.offset) f.seen = seen
  cases (r.after f.level).any (!f.seen.contains ·.offset) with
  | true => exact ⟨_, rfl, .more _⟩
  | false =>
    rw [Bool.not_false, Bool.true_and, if_neg Bool.false_ne_true]
    by_cases hmin : r.min ≤ f.count + 1
    · rw [if_pos hmin, decide_eq_false (by omega)]
      exact ⟨_, rfl, .more _⟩
    · -- Nothing new has been reached, and yet there are not enough rounds.
      obtain ⟨a, ha, htells⟩ := pad_tells hx (f := ⟨f.count + 1, r.after f.level, seen, true⟩)
        (n := r.min - (f.count + 1)) (by dsimp only; omega) rfl [State.offsets (r.after f.level)]
      rw [if_neg hmin, decide_eq_true (by omega)]
      refine ⟨a, ha, ?_⟩
      dsimp only at htells
      cases hp : r.padded? (r.min - (f.count + 1)) (r.after f.level) [State.offsets (r.after f.level)] <;>
        rwa [hp] at htells

theorem advance_more {f' : Frontier} (hn : r.next? f = some f') : w.advance sub r.min r.max f = some (true, f') := by
  obtain ⟨a, ha, htells⟩ := advance_tells hx f
  rw [hn] at htells
  cases htells
  exact ha

theorem advance_last (hn : r.next? f = none) :
    ∃ f', w.advance sub r.min r.max f = some (false, f') ∧ f'.stalled = true := by
  obtain ⟨a, ha, htells⟩ := advance_tells hx f
  rw [hn] at htells
  cases htells with
  | done hs => exact ⟨_, ha, hs⟩

theorem levels_eq (h : r.Course f fs) : w.levels sub r.min r.max f = some fs := by
  induction h with
  | last hn =>
    obtain ⟨f', ha, _⟩ := advance_last hx hn
    rw [levels.eq_def, ha]
    rfl
  | more hn _ ih =>
    rw [levels.eq_def, advance_more hx hn, Option.bind_eq_bind, Option.bind_some]
    dsimp only
    rw [if_pos rfl, ih]
    rfl

theorem furtherLevels_stalled (hs : f.stalled = true) (calls : Nat) :
    w.furtherLevels sub r.min r.max calls f = some 0 := by
  induction calls generalizing f with
  | zero => rfl
  | succ calls ih =>
    have hn : r.next? f = none := by rw [Rounds.next?_eq, hs, Bool.true_or, if_pos rfl]
    obtain ⟨f', ha, hs'⟩ := advance_last hx hn
    rw [furtherLevels_succ ha, ih hs']
    rfl

theorem furtherLevels_eq (h : r.Course f fs) (calls : Nat) :
    w.furtherLevels sub r.min r.max calls f = some (Min.min calls (fs.length - 1)) := by
  induction h generalizing calls with
  | last hn =>
    cases calls with
    | zero => rfl
    | succ calls =>
      obtain ⟨f', ha, hs⟩ := advance_last hx hn
      rw [furtherLevels_succ ha, furtherLevels_stalled hx hs]
      rfl
  | @more f f' fs hn hfs ih =>
    cases calls with
    | zero => rw [furtherLevels, Nat.zero_min]
    | succ calls =>
      obtain ⟨rest, rfl⟩ := hfs.exists_cons
      rw [furtherLevels_succ (advance_more hx hn), ih, Option.map_some, if_pos rfl]
      exact congrArg some (Nat.succ_min_succ _ _).symm

end Frontiers

section States

variable (w : Walker)

def untried (tried : OffsetSet) (l : List State) : List State :=
  if w.program.hasBackref then l else State.distinct tried l

theorem untried_nil (tried : OffsetSet) : w.untried tried [] = [] := ite_self _

theorem untried_cons (tried : OffsetSet) (s : State) (l : List State) :
    w.untried tried (s :: l) =
      if !w.program.hasBackref && tried.contains s.offset then w.untried tried l
      else s :: w.untried (tried.insert s.offset) l := by
  simp only [untried]
  cases w.program.hasBackref with
  | true => rfl
  | false => exact State.distinct.eq_2 tried s l

theorem untried_empty (l : List State) : w.untried .empty l = w.search.dedup l := by
  rw [untried, Search.dedup, State.dedup_eq, search]
  cases w.program.hasBackref <;> rfl

theorem addAll_append (out l l' : List State) : w.addAll out (l ++ l') = w.addAll (w.addAll out l) l' :=
  List.foldl_append

theorem addAll_eq {out : List State} {seen : OffsetSet} (hs : ∀ j, seen.contains j = out.any (·.offset == j))
    (l : List State) : w.addAll out l = out ++ w.untried seen l := by
  induction l generalizing out seen with
  | nil => rw [untried_nil, List.append_nil]; rfl
  | cons s l ih =>
    have hinsert : ∀ j, (seen.insert s.offset).contains j = (out ++ [s]).any (·.offset == j) := by
      intro j
      rw [OffsetSet.contains_insert, List.any_append, ← hs, Bool.or_comm, List.any_cons, List.any_nil, Bool.or_false]
      rfl
    change w.addAll (w.add out s) l = _
    rw [add, untried_cons, ← hs]
    cases w.program.hasBackref with
    | true => rw [Bool.true_or, if_pos rfl, ih hinsert, List.append_assoc]; rfl
    | false =>
      rw [Bool.false_or, Bool.not_false, Bool.true_and]
      cases seen.contains s.offset with
      | true => exact ih hs
      | false => rw [Bool.not_false, if_pos rfl, ih hinsert, List.append_assoc]; rfl

theorem addAll_nil (l : List State) : w.addAll [] l = w.search.dedup l := by
  have hempty (j : Nat) : OffsetSet.empty.contains j = ([] : List State).any (·.offset == j) := rfl
  rw [addAll_eq w hempty, List.nil_append, untried_empty]

end States

section Trying

variable {w : Walker} {next : Nat} {k : Pending}

theorem runEach_eq {K : State → Option State} (hk : ∀ t, w.run next t k = some (K t)) (tried : OffsetSet)
    (l : List State) : w.runEach next k tried l = some ((w.untried tried l).findSome? K) := by
  induction l generalizing tried with
  | nil => rw [runEach.eq_def, untried_nil]; rfl
  | cons s l ih =>
    rw [runEach.eq_def, untried_cons]
    dsimp only
    split
    · exact ih tried
    · rw [hk, List.findSome?_cons]
      cases K s with
      | some found => rfl
      | none => exact ih _

theorem collectEach_eq {L : State → List State} (hk : ∀ t out, w.collect next t k out = some (w.addAll out (L t)))
    (out l : List State) :
    w.collectEach next k out l = some (w.addAll out (l.flatMap L)) := by
  induction l generalizing out with
  | nil => rw [collectEach.eq_def]; rfl
  | cons s l ih =>
    rw [collectEach.eq_def]
    dsimp only
    rw [hk, Option.bind_eq_bind, Option.bind_some, ih, List.flatMap_cons, addAll_append]

theorem expand_eq {sub : Nat} {ends : State → List State}
    (hsub : ∀ s, w.collect sub s [] [] = some (w.addAll [] (ends s))) (out l : List State) :
    w.expand sub out l = some (w.addAll out (l.flatMap fun s => w.addAll [] (ends s))) := by
  induction l generalizing out with
  | nil => rw [expand.eq_def]; rfl
  | cons s l ih =>
    rw [expand.eq_def]
    dsimp only
    rw [hsub, Option.bind_eq_bind, Option.bind_some, ih, List.flatMap_cons, addAll_append]

section Repetition

variable {sub : Nat} {r : Rounds Id} {f : Frontier} {fs : List Frontier} {K : State → Option State}

theorem runLazily_append {min : Nat} {max : Option Nat} {l' : List State} (hk : ∀ t, w.run next t k = some (K t))
    (hnil : ∀ tried, w.runLazily sub min max next k tried f [] = some ((w.untried tried l').findSome? K))
    (tried : OffsetSet) (l : List State) :
    w.runLazily sub min max next k tried f l = some ((w.untried tried (l ++ l')).findSome? K) := by
  induction l generalizing tried with
  | nil => exact hnil tried
  | cons s l ih =>
    rw [runLazily.eq_def, List.cons_append, untried_cons]
    dsimp only
    split
    · exact ih tried
    · rw [hk, List.findSome?_cons]
      cases K s with
      | some found => rfl
      | none => exact ih _

theorem runLazily_eq (hx : w.Expands sub r) (hk : ∀ t, w.run next t k = some (K t)) (h : r.Course f fs)
    (tried : OffsetSet) (l : List State) :
    w.runLazily sub r.min r.max next k tried f l =
      some ((w.untried tried (l ++ (fs.tail.filter (r.min ≤ ·.count)).flatMap Frontier.level)).findSome? K) := by
  induction h generalizing tried l with
  | last hn =>
    apply runLazily_append hk
    intro tried
    obtain ⟨f', ha, _⟩ := advance_last hx hn
    rw [runLazily.eq_def]
    dsimp only
    rw [ha]
    exact congrArg some (w.untried_nil tried ▸ rfl)
  | @more f f' fs hn hfs ih =>
    apply runLazily_append hk
    intro tried
    obtain ⟨rest, rfl⟩ := hfs.exists_cons
    rw [runLazily.eq_def]
    dsimp only
    rw [advance_more hx hn, Option.bind_eq_bind, Option.bind_some]
    dsimp only
    rw [if_pos rfl, ih, List.tail_cons, List.tail_cons]
    by_cases hmin : r.min ≤ f'.count <;> simp [hmin]

theorem repeatStates_eq {s : State} (h : r.Course (.initial s) fs) {fuel : Nat} (hfuel : fs.length ≤ fuel)
    (greedy : Bool) : repeatStates greedy r.min fs = r.outcomes fuel greedy s := by
  rw [repeatStates, Rounds.outcomes, h.visited hfuel]

theorem downTo_eq {s : State} (h : r.Course (.initial s) fs) (min : Nat) :
    downTo min fs = repeatStates true min fs := by
  have hmono : fs.Pairwise fun g g' => decide (min ≤ g.count) = true → decide (min ≤ g'.count) = true := by
    refine h.ascending.imp ?_
    intro g g' hle hg
    exact decide_eq_true ((of_decide_eq_true hg).trans hle)
  rw [downTo, repeatStates, if_pos rfl, takeWhile_reverse hmono, List.flatMap_def, List.map_reverse]

theorem lazily_eq {s : State} (h : r.Course (.initial s) fs) {fuel : Nat} (hfuel : fs.length ≤ fuel) :
    (if r.min = 0 then [s] else []) ++ (fs.tail.filter (r.min ≤ ·.count)).flatMap Frontier.level =
      r.outcomes fuel false s := by
  rw [← repeatStates_eq h hfuel false, repeatStates]
  obtain ⟨rest, rfl⟩ := h.exists_cons
  by_cases hmin : r.min = 0 <;> simp [hmin, Frontier.initial, List.flatMap_def]

end Repetition

end Trying

end Walker

end DialectRegex
