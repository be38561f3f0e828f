import DialectRegex.Matching.Guarded
import DialectRegex.Proofs.Matching.Captures
import DialectRegex.Proofs.Matching.Sight
import DialectRegex.Proofs.Program.WellFormed

namespace DialectRegex

variable {m : Type → Type} [Monad m] [LawfulMonad m]

def unbroken (m : Type → Type) [Monad m] [LawfulMonad m] : Coupling (Guarded m) m where
  Joins {α} n Q x y := ∃ z : m {a : α // Q n a}, y = Subtype.val <$> z ∧ x = .lift y
  pure {α n Q a} ha := by
    refine ⟨pure ⟨a, ha⟩, (map_pure Subtype.val (⟨a, ha⟩ : {a // Q n a})).symm, ?_⟩
    apply ExceptT.ext
    rw [ExceptT.run_pure, ExceptT.run_lift, map_pure]
  bind {α β n Q R x y f g} hx hf := by
    obtain ⟨z, rfl, rfl⟩ := hx
    choose z' hg hlift using fun a => hf n a (Nat.le_refl n)
    refine ⟨z >>= fun a => z' a.1 a.2, ?_, ?_⟩
    · rw [bind_map_left, map_bind]
      exact bind_congr fun a => hg a.1 a.2
    · apply ExceptT.ext
      rw [ExceptT.run_bind_lift, ExceptT.run_lift, bind_map_left, bind_map_left, map_bind]
      apply bind_congr
      intro a
      rw [hlift a.1 a.2, ExceptT.run_lift]
  mono {α n Q R x y} hx h := by
    obtain ⟨z, rfl, rfl⟩ := hx
    refine ⟨(fun a => ⟨a.1, h n a.1 (Nat.le_refl n) a.2⟩) <$> z, ?_, rfl⟩
    rw [Functor.map_map]

theorem unbroken_lift {α : Type} {n : Nat} {Q : Nat → α → Prop} (hQ : ∀ a, Q n a) (x : m α) :
    (unbroken m).Joins n Q (.lift x) x := by
  refine ⟨(fun a => ⟨a, hQ a⟩) <$> x, ?_, rfl⟩
  rw [Functor.map_map]
  exact (id_map x).symm

section Guards

variable {n : Nat} {s : State} {α : Type} {R : Nat → α → Prop} {y : m α}

theorem insist_joins {b : Breach} {p : Prop} [Decidable p] (hp : p) {f : Unit → Guarded m α}
    (h : (unbroken m).Joins n R (f ()) y) : (unbroken m).Joins n R (insist b p >>= f) y := by
  rwa [insist, if_pos hp, pure_bind]

variable {f : State → Guarded m α} {g : Option Nat}

theorem enterGuarded_joins (hg : ∀ n ∈ g, n < s.captures.length) (h : (unbroken m).Joins n R (f (s.enter g)) y) :
    (unbroken m).Joins n R (s.enterGuarded g >>= f) y := by
  rw [State.enterGuarded, bind_assoc]
  apply insist_joins hg
  rwa [pure_bind]

theorem leaveGuarded_joins (hg : ∀ n ∈ g, n < s.captures.length) (h : (unbroken m).Joins n R (f (s.leave g)) y) :
    (unbroken m).Joins n R (s.leaveGuarded g >>= f) y := by
  rw [State.leaveGuarded, bind_assoc]
  apply insist_joins hg
  rwa [pure_bind]

theorem ofStateGuarded_joins (hs : 0 < s.captures.length) {f : Match → Guarded m α}
    (h : (unbroken m).Joins n R (f (.ofState s)) y) : (unbroken m).Joins n R (Match.ofStateGuarded s >>= f) y := by
  rw [Match.ofStateGuarded, bind_assoc]
  apply insist_joins hs
  rwa [pure_bind]

theorem runGuarded_joins {read : Nat → Guarded m (Option Char)} {read' : Nat → m (Option Char)}
    (hr : (unbroken m).Reads .unbounded read read') (flags : SearchFlags) {t : Test}
    (ht : ∀ g ∈ (Pattern.test t).backrefs, g < s.captures.length) :
    (unbroken m).Joins n (Sight.unbounded.Onward s.offset) (t.runGuarded read flags s) (t.run read' flags s) := by
  cases t with
  | backref g fold =>
    rw [Test.runGuarded, Test.run, State.groupGuarded, bind_assoc]
    apply insist_joins (ht g (List.mem_singleton_self g))
    rw [pure_bind]
    cases hg : s.group? g with
    | none => exact (unbroken m).pure each_none
    | some ab =>
      apply insist_joins (State.group?_eq_some.mp hg).2
      exact Coupling.readAgain hr fold _ trivial (Nat.le_refl _) trivial trivial
  | _ => exact Coupling.run hr flags _ (Sight.unbounded_held n s)

end Guards

structure Pattern.Placed (n : Nat) (p : Pattern) : Prop where
  numbers : ∀ g ∈ p.numbers, g < n
  backrefs : ∀ g ∈ p.backrefs, g < n

namespace Pattern

variable {n : Nat} {p q : Pattern}

theorem Placed.mono (h : q.Placed n) (hn : p.numbers ⊆ q.numbers) (hb : p.backrefs ⊆ q.backrefs) : p.Placed n :=
  ⟨fun g hg => h.numbers g (hn hg), fun g hg => h.backrefs g (hb hg)⟩

theorem Placed.seq (h : (seq p q).Placed n) : p.Placed n ∧ q.Placed n := by
  have hnumbers := numbers_seq p q
  exact ⟨h.mono (hnumbers ▸ List.subset_append_left _ _) (List.subset_append_left _ _),
    h.mono (hnumbers ▸ List.subset_append_right _ _) (List.subset_append_right _ _)⟩

theorem Placed.alt (h : (alt p q).Placed n) : p.Placed n ∧ q.Placed n := by
  have hnumbers := numbers_alt p q
  exact ⟨h.mono (hnumbers ▸ List.subset_append_left _ _) (List.subset_append_left _ _),
    h.mono (hnumbers ▸ List.subset_append_right _ _) (List.subset_append_right _ _)⟩

theorem Placed.group {g : Option Nat} (h : (group g p).Placed n) : (∀ k ∈ g, k < n) ∧ p.Placed n := by
  have hnumbers := numbers_group g p
  refine ⟨?_, h.mono (hnumbers ▸ List.subset_append_right _ _) (List.Subset.refl _)⟩
  intro k hk
  exact h.numbers k (hnumbers ▸ List.mem_append_left _ (Option.mem_toList.mpr hk))

variable {e : Search (Guarded m)} {e' : Search m}

abbrev HasPlaces (n : Nat) : Nat → State → Prop := fun _ s => s.captures.length = n

theorem hasPlaces_lasting (n : Nat) : Lasting (HasPlaces n) := fun _ _ _ _ h => h

theorem guarded_joins (h : (unbroken m).JoinsSearches .unbounded e e') (hp : p.Placed n) :
    (∀ k k', (unbroken m).Mirrors (HasPlaces n) (Each (HasPlaces n)) k k' →
      (unbroken m).Mirrors (HasPlaces n) (Each (HasPlaces n)) (p.firstGuarded e k) (p.first e' k')) ∧
    ∀ k k', (unbroken m).Mirrors (HasPlaces n) (Each (HasPlaces n)) k k' →
      (unbroken m).Mirrors (HasPlaces n) (Each (HasPlaces n)) (p.allGuarded e k) (p.all e' k') := by
  have hlasting := hasPlaces_lasting n
  induction p with
  | empty =>
    constructor
    · intro k k' hk i s hs
      rw [firstGuarded, first]
      exact hk i s hs
    · intro k k' hk i s hs
      rw [allGuarded, all]
      exact hk i s hs
  | test t =>
    have hrun (i : Nat) (s : State) (hs : HasPlaces n i s) : (unbroken m).Joins i (Sight.unbounded.Onward s.offset)
        ((test t).stepGuarded e s) (t.run e'.input.charAt e'.flags s) := by
      rw [stepGuarded, h.flags_eq]
      exact runGuarded_joins h.reads e'.flags fun g hg => hs ▸ hp.backrefs g hg
    -- The last equations of the two functions ask that the pattern is none of the others.
    constructor
    · intro k k' hk i s hs
      rw [firstGuarded, first]
      · exact Coupling.move (hrun i s hs) (fun i' j _ _ => hk i' _ hs) fun _ => each_none
      all_goals simp
    · intro k k' hk i s hs
      rw [allGuarded, all]
      · exact Coupling.move (hrun i s hs) (fun i' j _ _ => hk i' _ hs) fun _ => each_nil
      all_goals simp
  | seq p q ihp ihq =>
    obtain ⟨hp, hq⟩ := hp.seq
    constructor
    · intro k k' hk i s hs
      rw [firstGuarded, first]
      exact (ihp hp).1 _ _ ((ihq hq).1 _ _ hk) i s hs
    · intro k k' hk i s hs
      rw [allGuarded, all]
      exact (ihp hp).2 _ _ ((ihq hq).2 _ _ hk) i s hs
  | alt p q ihp ihq =>
    obtain ⟨hp, hq⟩ := hp.alt
    constructor
    · intro k k' hk i s hs
      rw [firstGuarded, first]
      exact Coupling.firstAlt ((ihp hp).1 k k' hk i s hs) fun i' _ => (ihq hq).1 k k' hk i' s hs
    · intro k k' hk i s hs
      rw [allGuarded, all]
      exact Coupling.allAlt hlasting ((ihp hp).2 k k' hk i s hs) fun i' _ => (ihq hq).2 k k' hk i' s hs
  | group g p ih =>
    obtain ⟨hg, hp⟩ := hp.group
    have henter (s : State) (hs : s.captures.length = n) : (s.enter g).captures.length = n :=
      (s.length_enter g).trans hs
    have hleave (s : State) (hs : s.captures.length = n) : (s.leave g).captures.length = n :=
      (s.length_leave g).trans hs
    constructor
    · intro k k' hk i s hs
      rw [firstGuarded, first]
      apply enterGuarded_joins (hs ▸ hg)
      apply (ih hp).1 _ _ _ i _ (henter s hs)
      intro i' t ht
      exact leaveGuarded_joins (ht ▸ hg) (hk i' _ (hleave t ht))
    · intro k k' hk i s hs
      rw [allGuarded, all]
      apply enterGuarded_joins (hs ▸ hg)
      apply (ih hp).2 _ _ _ i _ (henter s hs)
      intro i' t ht
      exact leaveGuarded_joins (ht ▸ hg) (hk i' _ (hleave t ht))
  | repeated p lo hi greedy ih =>
    have hone := (ih ⟨hp.numbers, hp.backrefs⟩).2 _ _ fun i s hs => (unbroken m).pure (each_singleton hs)
    constructor
    · intro k k' hk i s hs
      rw [firstGuarded, first, boundsGuarded, pure_bind]
      exact h.firstRepeated hlasting hone lo hi greedy hs hk
    · intro k k' hk i s hs
      rw [allGuarded, all, boundsGuarded, pure_bind]
      exact h.allRepeated hlasting hone lo hi greedy hs hk
  | look negated p ih =>
    have hfound := (ih ⟨hp.numbers, hp.backrefs⟩).1 _ _ fun i s hs => (unbroken m).pure (each_some hs)
    constructor
    · intro k k' hk i s hs
      rw [firstGuarded, first]
      exact Coupling.look (hfound i s hs) (fun i' _ => hk i' s hs) (fun i' r _ hr => hk i' _ hr) (fun _ => each_none)
        negated
    · intro k k' hk i s hs
      rw [allGuarded, all]
      exact Coupling.look (hfound i s hs) (fun i' _ => hk i' s hs) (fun i' r _ hr => hk i' _ hr) (fun _ => each_nil)
        negated

end Pattern

theorem Input.guarded_reads (input : Input m) :
    (unbroken m).Reads .unbounded input.guarded.charAt input.charAt :=
  fun _ i _ => unbroken_lift (fun _ _ => trivial) (input.charAt i)

namespace Regex

variable {r : Regex} {source : String} {d : Dialect} {o : Options}

theorem whole_placed (hr : compile source d o = .ok r) : r.whole.Placed r.groupCount := by
  refine ⟨?_, fun g hg => ((compile_formed (compile_eq_ok hr)).backrefs_lt.2 g hg).2⟩
  intro g hg
  exact List.mem_range.mp ((compile_numbers (compile_eq_ok hr)).mem_iff.mp hg)

theorem attemptGuarded_joins (hr : compile source d o = .ok r) (flags : SearchFlags) (input : Input m)
    (origin offset : Nat) {α : Type} {R : Nat → α → Prop} {f : Option Match → Guarded m α} {g : Option State → m α}
    {n : Nat} (hf : ∀ n' (s : Option State), n ≤ n' → (unbroken m).Joins n' R (f (s.map .ofState)) (g s)) :
    (unbroken m).Joins n R (r.attemptGuarded flags input.guarded origin offset >>= f)
      (r.run r.whole flags input origin offset >>= g) := by
  have hjoins : (unbroken m).JoinsSearches .unbounded ⟨input.guarded, flags, r.merge⟩ ⟨input, flags, r.merge⟩ :=
    ⟨input.guarded_reads, rfl, rfl, rfl⟩
  have hinit := State.length_initial r.groupCount origin offset
  rw [attemptGuarded, bind_assoc]
  apply (unbroken m).bind ((Pattern.guarded_joins hjoins (whole_placed hr)).1 _ _
    (fun _ s hs => (unbroken m).pure (each_some hs)) n _ hinit)
  intro n' s hn hs
  cases s with
  | none =>
    rw [pure_bind]
    exact hf n' none hn
  | some s =>
    have hpos : 0 < s.captures.length := hs s rfl ▸ (whole_nodup hr).2
    rw [bind_assoc]
    apply ofStateGuarded_joins hpos
    rw [pure_bind]
    exact hf n' (some s) hn

theorem guarded_eq (hr : compile source d o = .ok r) (flags : SearchFlags) (input : Input m) (offset : Nat) :
    r.matchAtGuarded flags input.guarded offset = .lift (r.matchAt flags input offset) ∧
      r.findAtGuarded flags input.guarded offset = .lift (r.findAt flags input offset) := by
  have hlift {α : Type} {x : Guarded m α} {y : m α} (h : (unbroken m).Joins 0 (fun _ _ => True) x y) : x = .lift y := by
    obtain ⟨_, _, hx⟩ := h
    exact hx
  have hpast : (unbroken m).Joins 0 (fun _ _ => True) (pastEnd input.guarded offset) (pastEnd input offset) :=
    (unbroken m).mono (Coupling.pastEnd input.guarded_reads trivial) fun _ _ _ _ => trivial
  constructor
  · apply hlift
    apply (unbroken m).bind hpast
    intro n past _ _
    cases past with
    | true => exact (unbroken m).pure trivial
    | false =>
      rw [if_neg Bool.false_ne_true, if_neg Bool.false_ne_true, ← bind_pure (r.attemptGuarded _ _ _ _)]
      exact attemptGuarded_joins hr flags input offset offset fun _ _ _ => (unbroken m).pure trivial
  · have hfrom (n fuel start : Nat) :
        (unbroken m).Joins n (fun _ _ => True) (r.findFromGuarded flags input.guarded offset fuel start)
          (r.findFrom flags input offset fuel start) := by
      induction fuel generalizing n start with
      | zero => exact (unbroken m).pure trivial
      | succ fuel ih =>
        apply attemptGuarded_joins hr flags input offset start
        intro n' s _
        cases s with
        | some s => exact (unbroken m).pure trivial
        | none =>
          apply (unbroken m).bind (input.guarded_reads n' start trivial)
          intro n'' c _ _
          cases c with
          | none => exact (unbroken m).pure trivial
          | some c => exact ih n'' (start + 1)
    apply hlift
    apply (unbroken m).bind hpast
    intro n past _ _
    cases past with
    | true => exact (unbroken m).pure trivial
    | false => exact hfrom n _ offset

end Regex

end DialectRegex
