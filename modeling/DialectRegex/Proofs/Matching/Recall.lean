import DialectRegex.Proofs.Matching.Walks

namespace DialectRegex

def Occurs (text : List Char) (fold : Bool) (n a i : Nat) : Prop :=
  ∀ m < n, ∃ x y, text[a + m]? = some x ∧ text[i + m]? = some y ∧ sameChar fold x y = true

variable {e : Search Id} {c : Setting}

theorem occurs_succ {text : List Char} {fold : Bool} {n a i : Nat} :
    Occurs text fold (n + 1) a i ↔
      (∃ x y, text[a]? = some x ∧ text[i]? = some y ∧ sameChar fold x y = true) ∧
        Occurs text fold n (a + 1) (i + 1) := by
  constructor
  · intro h
    refine ⟨h 0 (Nat.succ_pos n), ?_⟩
    intro m hm
    have hnext := h (m + 1) (Nat.succ_lt_succ hm)
    rwa [Nat.add_comm m 1, ← Nat.add_assoc, ← Nat.add_assoc] at hnext
  · rintro ⟨hzero, h⟩ m hm
    cases m with
    | zero => exact hzero
    | succ m =>
      have hnext := h m (Nat.lt_of_succ_lt_succ hm)
      rwa [Nat.add_assoc a, Nat.add_assoc i, Nat.add_comm 1 m] at hnext

theorem readAgain_eq_some {read : Nat → Option Char} (hr : ∀ i, read i = c.text[i]?) (fold : Bool) (n a i j : Nat) :
    readAgain (m := Id) read fold n a i = some j ↔ j = i + n ∧ Occurs c.text fold n a i := by
  induction n generalizing a i with
  | zero =>
    change some i = some j ↔ _
    rw [Option.some_inj, eq_comm]
    exact ⟨fun h => ⟨h, fun m hm => absurd hm (Nat.not_lt_zero m)⟩, And.left⟩
  | succ n ih =>
    have hread : readAgain (m := Id) read fold (n + 1) a i =
        c.text[a]?.bind fun x => c.text[i]?.bind fun y =>
          if sameChar fold x y then readAgain (m := Id) read fold n (a + 1) (i + 1) else none := by
      rw [readAgain, ← hr a, ← hr i]
      cases read a <;> cases read i <;> rfl
    rw [hread, occurs_succ]
    cases ha : c.text[a]? with
    | none => simp
    | some x =>
      cases hi : c.text[i]? with
      | none => simp
      | some y =>
        by_cases hs : sameChar fold x y = true
        · rw [Option.bind_some, Option.bind_some, if_pos hs, ih]
          simp [hs, Nat.add_assoc, Nat.add_comm 1 n]
        · simp [hs]

namespace Point

variable {x : Point} {n g : Nat}

theorem Tracks.group? (ht : Tracks n g x) :
    x.state.group? g = (latest g x.visits).bind fun a =>
      if (openedAt g x.todo).getD a.start ≤ a.stop then some ((openedAt g x.todo).getD a.start, a.stop) else none := by
  have hclosed := ht.closed
  have hopened := ht.opened
  rw [State.group?]
  cases hk : x.state.captures[g]? with
  | none =>
    rw [hk] at hclosed
    cases ha : latest g x.visits with
    | none => rfl
    | some a =>
      rw [ha] at hclosed
      cases hclosed
  | some k =>
    rw [hk, Option.bind_some] at hclosed hopened
    rw [Option.bind_some, Capture.range?, hclosed, hopened]
    cases latest g x.visits with
    | none => cases openedAt g x.todo <;> rfl
    | some a => cases openedAt g x.todo <;> rfl

theorem Tracks.recalls (ht : Tracks n g x) (he : e.Sees c) (fold : Bool) (j : Nat) :
    (Test.backref g fold).moves? e x.state = some j ↔
      ∃ a, latest g x.visits = some a ∧
        let start := (openedAt g x.todo).getD a.start
        start ≤ a.stop ∧ j = x.state.offset + (a.stop - start) ∧
          Occurs c.text fold (a.stop - start) start x.state.offset := by
  rw [Test.moves?, Test.run, ht.group?]
  cases latest g x.visits with
  | none => simp [pure]
  | some a =>
    dsimp only [Option.bind_some]
    by_cases hle : (openedAt g x.todo).getD a.start ≤ a.stop
    · rw [if_pos hle]
      simpa [hle] using readAgain_eq_some he.charAt fold _ _ _ j
    · rw [if_neg hle]
      simp [hle, pure]

end Point

namespace Regex

variable {r : Regex} {source : String} {d : Dialect} {o : Options} {input : Input Id} {text : List Char}

def start (r : Regex) (offset : Nat) : Point := ⟨[.pattern r.whole], .initial r.groupCount offset offset, []⟩

theorem initial_tracks (hr : compile source d o = .ok r) (origin offset g : Nat) :
    Point.Tracks r.groupCount g ⟨[.pattern r.whole], .initial r.groupCount origin offset, []⟩ := by
  have hperm := compile_numbers (compile_eq_ok hr)
  have hnone {f : Capture → Option Nat} (hf : f {} = none) :
      (State.initial r.groupCount origin offset).captures[g]?.bind f = none := by
    apply Option.bind_eq_none_iff.mpr
    intro k hk
    rw [State.captures_initial hk, hf]
  refine ⟨⟨Pattern.wellNested_of_nodup (whole_nodup hr).1, ?_, trivial⟩, by simp [State.initial], hnone rfl,
    hnone rfl⟩
  intro hg
  exact ⟨List.mem_range.mp (hperm.mem_iff.mp hg), rfl⟩

theorem start_tracks (hr : compile source d o = .ok r) (offset g : Nat) : (r.start offset).Tracks r.groupCount g :=
  initial_tracks hr offset offset g

theorem start_forward (r : Regex) (offset : Nat) : (r.start offset).Forward := ⟨trivial, by simp [start]⟩

theorem matchAt_walk (h : input.Reads text) {flags : SearchFlags} {offset : Nat} {m : Match}
    (hm : r.matchAt flags input offset = some m) :
    ∃ t v, Walk (r.search flags input) (r.start offset) ⟨[], t, v⟩ ∧ m = .ofState t := by
  obtain ⟨_, t, ht, rfl⟩ := matchAt_run h hm
  rw [run_eq] at ht
  obtain ⟨v, hw⟩ := Pattern.ends_walk (List.mem_of_mem_head? ht) [] []
  exact ⟨t, v, hw, rfl⟩

/-- Along the way of a match, a backreference fails before its group has been left, and recalls the text of the
latest visit after that. While the group is open again, it recalls the text from where it was entered now, if it
was not left before that. -/
theorem backref_recalls (hr : compile source d o = .ok r) (h : input.Reads text) (flags : SearchFlags)
    (offset : Nat) :
    (∀ m, r.matchAt flags input offset = some m →
      ∃ t v, Walk (r.search flags input) (r.start offset) ⟨[], t, v⟩ ∧ m = .ofState t) ∧
    ∀ g fold k s v,
      Walk (r.search flags input) (r.start offset) ⟨.pattern (.test (.backref g fold)) :: k, s, v⟩ →
      (Point.latest g v = none → (Test.backref g fold).moves? (r.search flags input) s = none) ∧
      ∀ a, Point.latest g v = some a →
        a.start ≤ a.stop ∧
        (Point.openedAt g k = none → ∀ j, (Test.backref g fold).moves? (r.search flags input) s = some j ↔
          j = s.offset + (a.stop - a.start) ∧ Occurs text fold (a.stop - a.start) a.start s.offset) ∧
        ∀ i, Point.openedAt g k = some i → ∀ j, (Test.backref g fold).moves? (r.search flags input) s = some j ↔
          i ≤ a.stop ∧ j = s.offset + (a.stop - i) ∧ Occurs text fold (a.stop - i) i s.offset := by
  refine ⟨fun m hm => matchAt_walk h hm, ?_⟩
  intro g fold k s v hw
  have he := search_sees r flags h offset
  have hrecalls := ((start_tracks hr offset g).walk hw).recalls he fold
  dsimp only [Point.openedAt_pattern] at hrecalls
  constructor
  · intro hnone
    rw [Option.eq_none_iff_forall_ne_some]
    intro j hj
    obtain ⟨a, ha, _⟩ := (hrecalls j).mp hj
    rw [hnone] at ha
    cases ha
  · intro a ha
    have hle : a.start ≤ a.stop :=
      ((start_forward r offset).walk he hw).visits a (List.mem_of_find?_eq_some ha)
    refine ⟨hle, ?_, ?_⟩
    · intro hnone j
      rw [hrecalls, hnone, ha]
      simp [hle]
    · intro i hi j
      rw [hrecalls, hi, ha]
      simp

theorem backref_recalls_second_visit :
    ∃ (r : Regex) (k : List Task) (s : State) (v : List Visit) (m : Match),
      compile "(ab|c)+\\1" .perl5 {} = .ok r ∧ (Haystack.ofString "cabab").input.Reads "cabab".toList ∧
      r.find (.ofString "cabab") = some m ∧ m.stop = 5 ∧
      Walk (r.search {} (Haystack.ofString "cabab").input) (r.start 0)
        ⟨.pattern (.test (.backref 1 false)) :: k, s, v⟩ ∧
      s.offset = 3 ∧ Point.latest 1 v = some ⟨1, 1, 3⟩ ∧ Occurs "cabab".toList false 2 1 3 := by
  let word (cs : List Char) : Pattern := .test (.literal cs false)
  let rep : Pattern := .repeated (.group (some 1) (.alt (word ['a', 'b']) (word ['c']))) 1 none true
  let r : Regex := ⟨"(ab|c)+\\1", .perl5, {}, .seq rep (.test (.backref 1 false)), 2, false, rfl⟩
  let input := (Haystack.ofString "cabab").input
  let s : State := ⟨0, 3, [⟨some 0, none⟩, ⟨some 1, some 3⟩]⟩
  let v : List Visit := [⟨1, 1, 3⟩, ⟨1, 0, 1⟩]
  have hr : compile "(ab|c)+\\1" .perl5 {} = .ok r := by cbv
  have hread : input.Reads "cabab".toList := Haystack.input_reads "cabab"
  have hfind : r.find (.ofString "cabab") = some ⟨0, 5, [some (0, 5), some (1, 3)]⟩ := by decide +kernel
  have hw : Walk (r.search {} input) (r.start 0)
      ⟨.pattern (.test (.backref 1 false)) :: [.leave (some 0) 0], s, v⟩ := by
    apply Relation.ReflTransGen.head .enter
    apply Relation.ReflTransGen.head .seq
    apply Relation.ReflTransGen.head .round
    apply Relation.ReflTransGen.head .enter
    apply Relation.ReflTransGen.head .right
    apply Relation.ReflTransGen.head (.test (j := 1) (by decide +kernel))
    apply Relation.ReflTransGen.head .leave
    apply Relation.ReflTransGen.head .round
    apply Relation.ReflTransGen.head .enter
    apply Relation.ReflTransGen.head .left
    apply Relation.ReflTransGen.head (.test (j := 3) (by decide +kernel))
    apply Relation.ReflTransGen.head .leave
    exact .single .finish
  obtain ⟨_, hlatest⟩ := (backref_recalls hr hread {} 0).2 1 false _ s v hw
  obtain ⟨_, houtside, _⟩ := hlatest ⟨1, 1, 3⟩ rfl
  have hmoves : (Test.backref 1 false).moves? (r.search {} input) s = some 5 := by decide +kernel
  exact ⟨r, _, s, v, _, hr, hread, hfind, rfl, hw, rfl, rfl, ((houtside rfl 5).mp hmoves).2⟩

/-- In the second round the group has been entered again where it was left before, so that the backreference
recalls no text, in place of the one character of the first round. -/
theorem backref_misses_visit :
    ∃ (r : Regex) (k : List Task) (s t : State) (v v' : List Visit) (a : Visit) (j : Nat),
      compile "(a|\\1b)*" .perl5 {} = .ok r ∧
      r.matchAt {} (Haystack.ofString "ab").input 0 = some (.ofState t) ∧
      Walk (r.search {} (Haystack.ofString "ab").input) (r.start 0)
        ⟨.pattern (.test (.backref 1 false)) :: k, s, v⟩ ∧
      (Test.backref 1 false).moves? (r.search {} (Haystack.ofString "ab").input) s = some j ∧
      Walk (r.search {} (Haystack.ofString "ab").input) ⟨k, s.moveTo j, v⟩ ⟨[], t, v'⟩ ∧
      Point.latest 1 v = some a ∧
      ¬ (j = s.offset + (a.stop - a.start) ∧ Occurs "ab".toList false (a.stop - a.start) a.start s.offset) := by
  let word (cs : List Char) : Pattern := .test (.literal cs false)
  let again : Pattern := .test (.backref 1 false)
  let rep : Pattern := .repeated (.group (some 1) (.alt (word ['a']) (.seq again (word ['b'])))) 0 none true
  let r : Regex := ⟨"(a|\\1b)*", .perl5, {}, rep, 2, false, rfl⟩
  let input := (Haystack.ofString "ab").input
  let k : List Task := [.pattern (word ['b']), .leave (some 1) 1, .pattern rep, .leave (some 0) 0]
  let s : State := ⟨0, 1, [⟨some 0, none⟩, ⟨some 1, some 1⟩]⟩
  let t : State := ⟨0, 2, [⟨some 0, some 2⟩, ⟨some 1, some 2⟩]⟩
  have hr : compile "(a|\\1b)*" .perl5 {} = .ok r := by cbv
  have hmatch : @Eq (Option Match) (r.matchAt {} input 0) (some (.ofState t)) := by decide +kernel
  have hbefore : Walk (r.search {} input) (r.start 0) ⟨.pattern again :: k, s, [⟨1, 0, 1⟩]⟩ := by
    apply Relation.ReflTransGen.head .enter
    apply Relation.ReflTransGen.head .round
    apply Relation.ReflTransGen.head .enter
    apply Relation.ReflTransGen.head .left
    apply Relation.ReflTransGen.head (.test (j := 1) (by decide +kernel))
    apply Relation.ReflTransGen.head .leave
    apply Relation.ReflTransGen.head .round
    apply Relation.ReflTransGen.head .enter
    apply Relation.ReflTransGen.head .right
    exact .single .seq
  have hafter : Walk (r.search {} input) ⟨k, s.moveTo 1, [⟨1, 0, 1⟩]⟩
      ⟨[], t, [⟨0, 0, 2⟩, ⟨1, 1, 2⟩, ⟨1, 0, 1⟩]⟩ := by
    apply Relation.ReflTransGen.head (.test (j := 2) (by decide +kernel))
    apply Relation.ReflTransGen.head .leave
    apply Relation.ReflTransGen.head .finish
    exact .single .leave
  have hmoves : (Test.backref 1 false).moves? (r.search {} input) s = some 1 := by decide +kernel
  refine ⟨r, k, s, t, _, _, ⟨1, 0, 1⟩, 1, hr, hmatch, hbefore, hmoves, hafter, rfl, ?_⟩
  rintro ⟨hj, _⟩
  exact absurd hj (by decide)

end Regex

end DialectRegex
