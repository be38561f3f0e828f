import DialectRegex.Proofs.Matching.Copies
import DialectRegex.Proofs.Pattern.Reread
import DialectRegex.Proofs.Program.Walker
import DialectRegex.Proofs.Program.WellFormed

namespace DialectRegex

theorem Search.exists_course {e : Search Id} {c : Setting} (he : e.Sees c) (b : Pattern) (lo : Nat) (hi : Option Nat)
    {s : State} {offsets : Finset Nat} (ho : ∀ j, Advances c.text.length s.offset j → j ∈ offsets) :
    ∃ fs, (e.rounds (m := Id) (b.ends e) lo hi).Course (.initial s) fs ∧ fs.length ≤ offsets.card + 1 :=
  Rounds.exists_course_initial (Pattern.rounds_advance he b lo hi s.offset) (fun t ht => ho t.offset ht) (.inl rfl)

namespace Walker

/-- From each state, and whatever is pending, one way to walk finds the first end of the pattern from which the walk
comes through at `next`, and the other way collects all ends and goes on there. -/
structure Leads (w : Walker) (one : State → Pending → Option (Option State))
    (every : State → Pending → List State → Option (List State)) (next : Nat) (q : Pattern) : Prop where
  one : ∀ {k : Pending} {K : State → Option State}, (∀ t, w.run next t k = some (K t)) →
    ∀ s, one s k = some ((q.ends w.search s).findSome? K)
  every : ∀ {k : Pending} {L : State → List State},
    (∀ t out, w.collect next t k out = some (w.addAll out (L t))) →
      ∀ s out, every s k out = some (w.addAll out ((q.ends w.search s).flatMap L))

def LeadsFrom (w : Walker) (i next : Nat) (q : Pattern) : Prop := w.Leads (w.run i) (w.collect i) next q

def LeadsAny (w : Walker) (is : List Nat) (q : Pattern) : Prop := w.Leads (w.runAny is) (w.collectAny is) 0 q

section Steps

variable {w : Walker} {c : Setting} {i next sub : Nat} {q q' : Pattern}

theorem LeadsFrom.empty (w : Walker) (i : Nat) : w.LeadsFrom i i .empty where
  one hk s := by rw [Pattern.ends_empty, List.findSome?_singleton, hk]
  every hk s out := by rw [Pattern.ends_empty, List.flatMap_singleton, hk]

theorem LeadsFrom.before (h : w.LeadsFrom i next q) (h' : w.LeadsFrom next 0 q') : w.LeadsFrom i 0 (q.before q') where
  one hk s := by rw [Pattern.ends_before, findSome?_flatMap]; exact h.one (h'.one hk) s
  every hk s out := by rw [Pattern.ends_before, List.flatMap_assoc]; exact h.every (h'.every hk) s out

theorem moves?_search (w : Walker) (t : Test) (s : State) :
    t.moves? w.search s = t.run (m := Id) w.input.charAt w.flags s := rfl

theorem LeadsFrom.test {t : Test} (hi : w.program.tokens[i]? = some ⟨.test t, next⟩) :
    w.LeadsFrom i next (.test t) where
  one hk s := by
    rw [run.eq_def, hi, Pattern.ends_test, moves?_search]
    dsimp only
    cases (t.run (m := Id) w.input.charAt w.flags s : Option Nat) with
    | none => rfl
    | some j => exact (hk _).trans (congrArg some (List.findSome?_singleton).symm)
  every hk s out := by
    rw [collect.eq_def, hi, Pattern.ends_test, moves?_search]
    dsimp only
    cases (t.run (m := Id) w.input.charAt w.flags s : Option Nat) with
    | none => rfl
    | some j => exact (hk _ out).trans (by rw [Option.map_some, Option.toList_some, List.flatMap_singleton])

theorem LeadsAny.last (h : w.LeadsFrom i 0 q) : w.LeadsAny [i] q where
  one {k K} hk s := by
    rw [runAny.eq_def]
    dsimp only
    rw [h.one hk, runAny.eq_def]
    cases (q.ends w.search s).findSome? K <;> rfl
  every hk s out := by
    rw [collectAny.eq_def]
    dsimp only
    rw [h.every hk, Option.bind_eq_bind, Option.bind_some, collectAny.eq_def]

theorem LeadsAny.alt {is : List Nat} (h : w.LeadsFrom i 0 q) (h' : w.LeadsAny is q') :
    w.LeadsAny (i :: is) (.alt q q') where
  one {k K} hk s := by
    rw [runAny.eq_def, Pattern.ends_alt, List.findSome?_append]
    dsimp only
    rw [h.one hk]
    cases (q.ends w.search s).findSome? K with
    | none => exact h'.one hk s
    | some found => rfl
  every hk s out := by
    rw [collectAny.eq_def, Pattern.ends_alt, List.flatMap_append, addAll_append]
    dsimp only
    rw [h.every hk, Option.bind_eq_bind, Option.bind_some, h'.every hk]

section Tail

variable (h0 : w.program.tokens[0]? = some ⟨.tail, 0⟩)
include h0

theorem run_tail (k : Pending) (s : State) :
    w.run 0 s [] = some (some s) ∧ ∀ g after, w.run 0 s ((g, after) :: k) = w.run after (s.leave g) k := by
  constructor
  · rw [run.eq_def, h0]
  · intro g after
    rw [run.eq_def, h0]

theorem collect_tail (k : Pending) (s : State) (out : List State) :
    w.collect 0 s [] out = some (w.addAll out [s]) ∧
      ∀ g after, w.collect 0 s ((g, after) :: k) out = w.collect after (s.leave g) k out := by
  constructor
  · rw [collect.eq_def, h0]
    rfl
  · intro g after
    rw [collect.eq_def, h0]

theorem LeadsFrom.alone (h : w.LeadsFrom i 0 q) (s : State) :
    w.run i s [] = some (q.ends w.search s).head? ∧ w.collect i s [] [] = some (w.addAll [] (q.ends w.search s)) := by
  constructor
  · rw [h.one (K := some) (fun t => (run_tail h0 [] t).1), findSome?_some]
  · rw [h.every (L := fun t => [t]) (fun t out => (collect_tail h0 [] t out).1), List.flatMap_singleton']

theorem LeadsAny.group {g : Option Nat} {is : List Nat} (h : w.LeadsAny is q)
    (hi : w.program.tokens[i]? = some ⟨.group g is, next⟩) : w.LeadsFrom i next (.group g q) where
  one {k K} hk s := by
    -- At the tail the group is what is to be closed first.
    have hleave (t : State) : w.run 0 t ((g, next) :: k) = some (K (t.leave g)) :=
      ((run_tail h0 k t).2 g next).trans (hk _)
    rw [run.eq_def, hi, Pattern.ends_group, List.findSome?_map]
    exact h.one hleave _
  every {k L} hk s out := by
    have hleave (t : State) (out : List State) :
        w.collect 0 t ((g, next) :: k) out = some (w.addAll out (L (t.leave g))) :=
      ((collect_tail h0 k t out).2 g next).trans (hk _ out)
    rw [collect.eq_def, hi, Pattern.ends_group, List.flatMap_map]
    exact h.every hleave _ out

theorem LeadsFrom.looks (h : w.LeadsFrom sub 0 (.group none q)) (negated : Bool) (s : State) :
    ∃ found : Option State, w.look negated sub s = some found ∧
      (Pattern.look negated q).ends w.search s = found.toList := by
  rw [look.eq_def, (h.alone h0 s).1, Pattern.ends_group_none, Pattern.ends_look]
  cases (q.ends w.search s).head? <;> cases negated <;> exact ⟨_, rfl, rfl⟩

theorem LeadsFrom.look (h : w.LeadsFrom sub 0 (.group none q)) {negated : Bool}
    (hi : w.program.tokens[i]? = some ⟨.look negated sub, next⟩) : w.LeadsFrom i next (.look negated q) where
  one hk s := by
    obtain ⟨found, hlook, hends⟩ := h.looks h0 negated s
    rw [run.eq_def, hi, hends]
    dsimp only
    rw [hlook]
    cases found with
    | none => rfl
    | some t => exact (hk t).trans (congrArg some List.findSome?_singleton.symm)
  every hk s out := by
    obtain ⟨found, hlook, hends⟩ := h.looks h0 negated s
    rw [collect.eq_def, hi, hends]
    dsimp only
    rw [hlook]
    cases found with
    | none => rfl
    | some t => exact (hk t out).trans (by rw [Option.toList_some, List.flatMap_singleton])

theorem LeadsFrom.expands (h : w.LeadsFrom sub 0 q) (lo : Nat) (hi : Option Nat) :
    w.Expands sub (w.search.rounds (q.ends w.search) lo hi) := by
  intro l
  rw [expand_eq (fun s => (h.alone h0 s).2), w.addAll_nil, Search.after_rounds]
  simp only [w.addAll_nil]

theorem LeadsFrom.repeated (h : w.LeadsFrom sub 0 q) (he : w.search.Sees c) {lo : Nat} {hi : Option Nat} {greedy : Bool}
    (ht : w.program.tokens[i]? = some ⟨.repeated sub lo hi greedy, next⟩) :
    w.LeadsFrom i next (.repeated q lo hi greedy) := by
  have hx := h.expands h0 lo hi
  have hlevels (s : State) : ∃ fs, (w.search.rounds (m := Id) (q.ends w.search) lo hi).Course (.initial s) fs ∧
      fs.length ≤ w.search.fuel ∧ w.levels sub lo hi (.initial s) = some fs := by
    obtain ⟨fs, hfs, hlen⟩ := Search.exists_course he q lo hi (s := s) fun j hj => hj.mem
    exact ⟨fs, hfs, hlen.trans (Search.card_lt_fuel he s.offset), levels_eq hx hfs⟩
  constructor
  · intro k K hk s
    obtain ⟨fs, hfs, hlen, hbuilt⟩ := hlevels s
    rw [run.eq_def, ht, Pattern.ends_repeated, ← w.untried_empty]
    dsimp only
    cases greedy with
    | true =>
      rw [if_pos rfl, hbuilt, Option.bind_eq_bind, Option.bind_some, runEach_eq hk, downTo_eq hfs]
      exact congrArg (fun l => some ((w.untried .empty l).findSome? K)) (repeatStates_eq hfs hlen true)
    | false =>
      rw [if_neg Bool.false_ne_true, ← lazily_eq hfs hlen]
      exact runLazily_eq hx hk hfs .empty _
  · intro k L hk s out
    obtain ⟨fs, hfs, hlen, hbuilt⟩ := hlevels s
    rw [collect.eq_def, ht, Pattern.ends_repeated, ← repeatStates_eq hfs hlen greedy]
    dsimp only
    rw [hbuilt, Option.bind_eq_bind, Option.bind_some, collectEach_eq hk, w.addAll_nil]
    rfl

end Tail

end Steps

structure Performs (w : Walker) (c : Setting) : Prop where
  sees : w.search.Sees c
  first : w.program.tokens[0]? = some ⟨.tail, 0⟩

namespace Performs

variable {w : Walker} {c : Setting}

mutual

theorem sequence (hp : w.Performs c) {i : Nat} {q : Pattern} : ReadsSequence w.program.tokens i q → w.LeadsFrom i 0 q
  | .tail => .empty w 0
  | .token (t := ⟨_, _⟩) ht hk hq => (hp.kind hk ht).before (hp.sequence hq)

theorem kind (hp : w.Performs c) {k : TokenKind} {q : Pattern} :
    ReadsKind w.program.tokens k q → ∀ {i next : Nat}, w.program.tokens[i]? = some ⟨k, next⟩ → w.LeadsFrom i next q
  | .test _, _, _, hi => .test hi
  | .repeated _ _ _ h, _, _, hi => (hp.sequence h).repeated hp.first hp.sees hi
  | .group _ h, _, _, hi => (hp.alternatives h).group hp.first hi
  | .look _ hj h, _, _, hi => ((hp.alternatives h).group hp.first hj).look hp.first hi

theorem alternatives (hp : w.Performs c) {is : List Nat} {q : Pattern} :
    ReadsAlternatives w.program.tokens is q → w.LeadsAny is q
  | .last h => .last (hp.sequence h)
  | .alt h h' => .alt (hp.sequence h) (hp.alternatives h')

end

end Performs

end Walker

end DialectRegex
