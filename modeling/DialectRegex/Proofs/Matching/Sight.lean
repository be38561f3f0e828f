import DialectRegex.Proofs.Matching.Coupling
import DialectRegex.Proofs.Matching.States

namespace DialectRegex

/-- Which characters are kept, so that they can be asked for, and which offsets have been reached at each stage. -/
structure Sight where
  kept : Nat → Prop
  reached : Nat → Nat → Prop
  onward {i j : Nat} : i ≤ j → kept i → kept j
  lasting {n n' i : Nat} : n ≤ n' → reached n i → reached n' i
  outset (n : Nat) : reached n 0

namespace Sight

def unbounded : Sight where
  kept _ := True
  reached _ _ := True
  onward _ h := h
  lasting _ h := h
  outset _ := trivial

variable (v : Sight)

abbrev Onward (i : Nat) : Nat → Option Nat → Prop := Each fun n j => i ≤ j ∧ v.reached n j

structure Held (n : Nat) (s : State) : Prop where
  back : v.kept (s.offset - 1)
  reached : v.reached n s.offset
  opened : ∀ g : Nat, ∀ k ∈ s.captures[g]?, ∀ a ∈ k.opened, v.kept a

theorem unbounded_held (n : Nat) (s : State) : unbounded.Held n s := ⟨trivial, trivial, fun _ _ _ _ _ => trivial⟩

theorem held_lasting : Lasting v.Held := fun _ _ _ hn h => ⟨h.back, v.lasting hn h.reached, h.opened⟩

namespace Held

variable {v} {n : Nat} {s : State}

theorem kept (h : v.Held n s) : v.kept s.offset := v.onward (Nat.sub_le s.offset 1) h.back

theorem moveTo (h : v.Held n s) {j : Nat} (hj : s.offset ≤ j ∧ v.reached n j) : v.Held n (s.moveTo j) :=
  ⟨v.onward (Nat.sub_le_sub_right hj.1 1) h.back, hj.2, h.opened⟩

theorem enter (h : v.Held n s) (g : Option Nat) : v.Held n (s.enter g) := by
  cases g with
  | none => exact h
  | some g =>
    refine ⟨h.back, h.reached, ?_⟩
    intro i k hk a ha
    rw [State.captures_enter] at hk
    split at hk
    · obtain ⟨k', _, rfl⟩ := Option.map_eq_some_iff.mp hk
      cases ha
      exact h.kept
    · exact h.opened i k hk a ha

theorem leave (h : v.Held n s) (g : Option Nat) : v.Held n (s.leave g) := by
  cases g with
  | none => exact h
  | some g =>
    refine ⟨h.back, h.reached, ?_⟩
    intro i k hk a ha
    rw [State.captures_leave] at hk
    split at hk
    · obtain ⟨k', hk', rfl⟩ := Option.map_eq_some_iff.mp hk
      exact h.opened i k' hk' a ha
    · exact h.opened i k hk a ha

theorem initial (groups origin : Nat) {i : Nat} (hb : v.kept (i - 1)) (hi : v.reached n i) :
    v.Held n (.initial groups origin i) := by
  refine ⟨hb, hi, ?_⟩
  intro g k hk a ha
  cases State.captures_initial hk
  cases ha

theorem group? (h : v.Held n s) {g a b : Nat} (hg : s.group? g = some (a, b)) : v.kept a :=
  h.opened g _ (State.group?_eq_some.mp hg).1 a rfl

end Held

end Sight

namespace Coupling

variable {m m' : Type → Type} [Monad m] [Monad m'] {c : Coupling m m'} {v : Sight} {n : Nat} {s : State}

variable (c v) in
def Reads (read : Nat → m (Option Char)) (read' : Nat → m' (Option Char)) : Prop :=
  ∀ n i, v.kept i → c.Joins n (fun n a => a.isSome → v.reached n (i + 1)) (read i) (read' i)

section Tests

variable {read : Nat → m (Option Char)} {read' : Nat → m' (Option Char)} (hr : c.Reads v read read')
include hr

protected theorem readLiteral (fold : Bool) (cs : List Char) {i₀ i : Nat} (hle : i₀ ≤ i) (hi : v.kept i)
    (hn : v.reached n i) : c.Joins n (v.Onward i₀) (readLiteral read fold cs i) (readLiteral read' fold cs i) := by
  induction cs generalizing n i with
  | nil => exact c.pure (each_some ⟨hle, hn⟩)
  | cons a cs ih =>
    apply c.bind (hr n i hi)
    intro n' b _ hb
    cases b with
    | none => exact c.pure each_none
    | some b =>
      dsimp only
      split
      · exact ih (Nat.le_succ_of_le hle) (v.onward (Nat.le_succ i) hi) (hb rfl)
      · exact c.pure each_none

protected theorem readOne (accepts : Char → Bool) {i : Nat} (hi : v.kept i) :
    c.Joins n (v.Onward i) (readOne read accepts i) (readOne read' accepts i) := by
  apply c.bind (hr n i hi)
  intro n' a _ ha
  cases a with
  | none => exact c.pure each_none
  | some a =>
    apply c.pure
    split
    · exact each_some ⟨Nat.le_succ i, ha rfl⟩
    · exact each_none

protected theorem readAgain (fold : Bool) (k : Nat) {a i₀ i : Nat} (ha : v.kept a) (hle : i₀ ≤ i) (hi : v.kept i)
    (hn : v.reached n i) : c.Joins n (v.Onward i₀) (readAgain read fold k a i) (readAgain read' fold k a i) := by
  induction k generalizing n a i with
  | zero => exact c.pure (each_some ⟨hle, hn⟩)
  | succ k ih =>
    apply c.bind (hr n a ha)
    intro n' x _ _
    cases x with
    | none => exact c.pure each_none
    | some x =>
      apply c.bind (hr n' i hi)
      intro n'' y _ hy
      cases y with
      | none => exact c.pure each_none
      | some y =>
        dsimp only
        split
        · exact ih (v.onward (Nat.le_succ a) ha) (Nat.le_succ_of_le hle) (v.onward (Nat.le_succ i) hi) (hy rfl)
        · exact c.pure each_none

protected theorem isWordAt {i : Nat} (hi : v.kept i) :
    c.Joins n (fun _ _ => True) (isWordAt read i) (isWordAt read' i) :=
  c.bind (hr n i hi) fun _ _ _ _ => c.pure trivial

protected theorem atBoundary (b : Boundary) {i : Nat} (hi : v.kept (i - 1)) :
    c.Joins n (fun _ _ => True) (atBoundary read b i) (atBoundary read' b i) := by
  have hbefore : c.Joins n (fun _ _ => True) (if 0 < i then isWordAt read (i - 1) else pure false)
      (if 0 < i then isWordAt read' (i - 1) else pure false) := by
    split
    · exact Coupling.isWordAt hr hi
    · exact c.pure trivial
  apply c.bind hbefore
  intro n' _ _ _
  apply c.bind (Coupling.isWordAt hr (v.onward (Nat.sub_le i 1) hi))
  intro n'' _ _ _
  exact c.pure trivial

protected theorem atEdge (flags : SearchFlags) (multiline : Bool) (hs : v.kept (s.offset - 1)) (edge : Edge) :
    c.Joins n (fun _ _ => True) (atEdge read flags multiline s edge) (atEdge read' flags multiline s edge) := by
  cases edge with
  | start =>
    rw [atEdge, atEdge]
    split
    · exact c.pure trivial
    split
    · exact c.pure trivial
    split
    · exact c.pure trivial
    split
    · exact c.bind (hr n (s.offset - 1) hs) fun _ _ _ _ => c.pure trivial
    · exact c.pure trivial
  | stop => exact c.bind (hr n s.offset (v.onward (Nat.sub_le s.offset 1) hs)) fun _ _ _ _ => c.pure trivial

protected theorem run (flags : SearchFlags) (t : Test) (h : v.Held n s) :
    c.Joins n (v.Onward s.offset) (t.run read flags s) (t.run read' flags s) := by
  have hstay (n' : Nat) (b : Bool) (hn : n ≤ n') (_ : True) :
      c.Joins n' (v.Onward s.offset) (pure (if b then some s.offset else none))
        (pure (if b then some s.offset else none)) := by
    cases b with
    | true => exact c.pure (each_some ⟨Nat.le_refl _, v.lasting hn h.reached⟩)
    | false => exact c.pure each_none
  cases t with
  | literal cs fold => exact Coupling.readLiteral hr fold cs (Nat.le_refl _) h.kept h.reached
  | any newline nul => exact Coupling.readOne hr _ h.kept
  | named k negated fold => exact Coupling.readOne hr _ h.kept
  | set cs => exact Coupling.readOne hr _ h.kept
  | anchor e multiline => exact c.bind (Coupling.atEdge hr flags multiline h.back e) hstay
  | boundary b => exact c.bind (Coupling.atBoundary hr b h.back) hstay
  | backref g fold =>
    rw [Test.run, Test.run]
    cases hg : s.group? g with
    | none => exact c.pure each_none
    | some ab => exact Coupling.readAgain hr fold _ (h.group? hg) (Nat.le_refl _) h.kept h.reached

end Tests

variable (c v) in
structure JoinsSearches (e : Search m) (e' : Search m') : Prop where
  reads : c.Reads v e.input.charAt e'.input.charAt
  limit_eq : e.input.limit = e'.input.limit
  flags_eq : e.flags = e'.flags
  merge_eq : e.merge = e'.merge

namespace JoinsSearches

variable {e : Search m} {e' : Search m'} (h : c.JoinsSearches v e e')
include h

theorem fuel_eq : e.fuel = e'.fuel := by rw [Search.fuel, Search.fuel, h.limit_eq]

theorem dedup_eq : e.dedup = e'.dedup := by
  funext l
  rw [Search.dedup, Search.dedup, h.merge_eq]

section Repetition

variable {P : Nat → State → Prop} (hP : Lasting P) {f : State → m (List State)} {f' : State → m' (List State)}
  (hf : c.Mirrors P (Each P) f f') (lo : Nat) (hi : Option Nat)
include hP hf

theorem rounds : c.JoinsRounds P (e.rounds f lo hi) (e'.rounds f' lo hi) where
  lasting := hP
  min_eq := rfl
  max_eq := rfl
  expand n l hl := by
    rw [Search.rounds, Search.rounds, h.dedup_eq]
    have hdedup : c.Mirrors P (Each P) (fun s => f s >>= fun l => pure (e'.dedup l))
        (fun s => f' s >>= fun l => pure (e'.dedup l)) :=
      fun n s hs => c.bind (hf n s hs) fun _ _ _ hl => c.pure (each_dedup e' hl)
    exact c.bind (c.gather hP hdedup each_nil hl) fun _ _ _ hl => c.pure (each_dedup e' hl)

variable (greedy : Bool) (hs : P n s)
include hs

theorem firstRepeated {k : State → m (Option State)} {k' : State → m' (Option State)} (hk : c.Mirrors P (Each P) k k') :
    c.Joins n (Each P)
      (if greedy then (e.rounds f lo hi).states e.fuel true s >>= fun l => firstOf k (e.dedup l)
        else (e.rounds f lo hi).firstLazily e.merge k e.fuel .empty (.initial s))
      (if greedy then (e'.rounds f' lo hi).states e'.fuel true s >>= fun l => firstOf k' (e'.dedup l)
        else (e'.rounds f' lo hi).firstLazily e'.merge k' e'.fuel .empty (.initial s)) := by
  rw [h.dedup_eq, h.fuel_eq, h.merge_eq]
  have hrounds := h.rounds hP hf lo hi
  cases greedy with
  | true => exact c.bind (hrounds.states _ true hs) fun _ _ _ hl => c.firstOf hP hk (each_dedup e' hl)
  | false => exact hrounds.firstLazily _ hk _ _ (each_singleton hs)

theorem allRepeated {k : State → m (List State)} {k' : State → m' (List State)} (hk : c.Mirrors P (Each P) k k') :
    c.Joins n (Each P)
      ((e.rounds f lo hi).states e.fuel greedy s >>= fun l => gather k [] (e.dedup l))
      ((e'.rounds f' lo hi).states e'.fuel greedy s >>= fun l => gather k' [] (e'.dedup l)) := by
  rw [h.dedup_eq, h.fuel_eq]
  exact c.bind ((h.rounds hP hf lo hi).states _ greedy hs) fun _ _ _ hl =>
    c.gather hP hk each_nil (each_dedup e' hl)

end Repetition

open Pattern in
theorem pattern (p : Pattern) :
    (∀ k k', c.Mirrors v.Held (Each v.Held) k k' → c.Mirrors v.Held (Each v.Held) (p.first e k) (p.first e' k')) ∧
      ∀ k k', c.Mirrors v.Held (Each v.Held) k k' → c.Mirrors v.Held (Each v.Held) (p.all e k) (p.all e' k') := by
  have hP := v.held_lasting
  have hlook {α : Type} {Q : Nat → α → Prop} {k : State → m α} {k' : State → m' α} (hk : c.Mirrors v.Held Q k k')
      {n : Nat} {s : State} (hs : v.Held n s) (n' : Nat) (r : State) (hn : n ≤ n') (hr : v.Held n' r) :
      c.Joins n' Q (k (r.moveTo s.offset)) (k' (r.moveTo s.offset)) :=
    hk n' _ ⟨hs.back, v.lasting hn hs.reached, hr.opened⟩
  -- Repetitions need `all` for `first`, and lookaheads need `first` for `all`.
  induction p with
  | empty => exact ⟨fun k k' hk => hk, fun k k' hk => hk⟩
  | test t =>
    have hrun {n : Nat} {s : State} (hs : v.Held n s) :
        c.Joins n (v.Onward s.offset) (t.run e.input.charAt e.flags s) (t.run e'.input.charAt e'.flags s) := by
      rw [h.flags_eq]
      exact Coupling.run h.reads e'.flags t hs
    have hmove {n n' j : Nat} {s : State} (hs : v.Held n s) (hn : n ≤ n') (hj : v.Onward s.offset n' (some j)) :
        v.Held n' (s.moveTo j) := (hP n n' s hn hs).moveTo (hj j rfl)
    constructor
    · intro k k' hk n s hs
      rw [first, first]
      exact move (hrun hs) (fun n' j hn hj => hk n' _ (hmove hs hn hj)) fun _ => each_none
    · intro k k' hk n s hs
      rw [all, all]
      exact move (hrun hs) (fun n' j hn hj => hk n' _ (hmove hs hn hj)) fun _ => each_nil
  | seq p q hp hq => exact ⟨fun k k' hk => hp.1 _ _ (hq.1 _ _ hk), fun k k' hk => hp.2 _ _ (hq.2 _ _ hk)⟩
  | alt p q hp hq =>
    constructor
    · intro k k' hk n s hs
      rw [first, first]
      exact firstAlt (hp.1 k k' hk n s hs) fun n' hn => hq.1 k k' hk n' s (hP n n' s hn hs)
    · intro k k' hk n s hs
      rw [all, all]
      exact allAlt hP (hp.2 k k' hk n s hs) fun n' hn => hq.2 k k' hk n' s (hP n n' s hn hs)
  | group g p hp =>
    exact ⟨fun k k' hk n s hs => hp.1 _ _ (fun n' t ht => hk n' _ (ht.leave g)) n _ (hs.enter g),
      fun k k' hk n s hs => hp.2 _ _ (fun n' t ht => hk n' _ (ht.leave g)) n _ (hs.enter g)⟩
  | repeated p lo hi greedy hp =>
    have hone := hp.2 _ _ fun n s hs => c.pure (each_singleton hs)
    constructor
    · intro k k' hk n s hs
      rw [first, first]
      exact h.firstRepeated hP hone lo hi greedy hs hk
    · intro k k' hk n s hs
      rw [all, all]
      exact h.allRepeated hP hone lo hi greedy hs hk
  | look negated p hp =>
    have hfound := hp.1 _ _ fun n s hs => c.pure (each_some hs)
    constructor
    · intro k k' hk n s hs
      rw [first, first]
      exact Coupling.look (hfound n s hs) (fun n' hn => hk n' s (hP n n' s hn hs)) (hlook hk hs) (fun _ => each_none)
        negated
    · intro k k' hk n s hs
      rw [all, all]
      exact Coupling.look (hfound n s hs) (fun n' hn => hk n' s (hP n n' s hn hs)) (hlook hk hs) (fun _ => each_nil)
        negated

end JoinsSearches

section Searching

variable {input : Input m} {input' : Input m'} (hr : c.Reads v input.charAt input'.charAt)
include hr

theorem pastEnd {offset : Nat} (hb : v.kept (offset - 1)) :
    c.Joins n (fun n past => past = false → v.reached n offset) (Regex.pastEnd input offset)
      (Regex.pastEnd input' offset) := by
  rw [Regex.pastEnd, Regex.pastEnd]
  split
  · next hpos =>
    apply c.bind (hr n (offset - 1) hb)
    intro n' a _ ha
    apply c.pure
    intro hsome
    rw [Nat.sub_add_cancel hpos] at ha
    exact ha (Option.isNone_eq_false_iff.mp hsome)
  · next hzero => exact c.pure fun _ => Nat.eq_zero_of_not_pos hzero ▸ v.outset n

variable (hlimit : input.limit = input'.limit) (r : Regex) (flags : SearchFlags)
include hlimit

theorem attempt (p : Pattern) (origin : Nat) {i : Nat} (hb : v.kept (i - 1)) (hi : v.reached n i) :
    c.Joins n (Each v.Held) (r.run p flags input origin i) (r.run p flags input' origin i) := by
  have hjoins : c.JoinsSearches v ⟨input, flags, r.merge⟩ ⟨input', flags, r.merge⟩ := ⟨hr, hlimit, rfl, rfl⟩
  exact (hjoins.pattern p).1 _ _ (fun _ _ hs => c.pure (each_some hs)) n _ (.initial r.groupCount origin hb hi)

omit hlimit in
theorem findFrom {Q : Nat → Match → Prop} {origin : Nat}
    (hrun : ∀ n i, v.kept (i - 1) → v.reached n i → c.Joins n (Each fun n s => Q n (.ofState s))
      (r.run r.whole flags input origin i) (r.run r.whole flags input' origin i))
    (fuel : Nat) {i : Nat} (hb : v.kept (i - 1)) (hi : v.reached n i) :
    c.Joins n (Each Q) (r.findFrom flags input origin fuel i) (r.findFrom flags input' origin fuel i) := by
  induction fuel generalizing n i with
  | zero => exact c.pure each_none
  | succ fuel ih =>
    apply c.bind (hrun n i hb hi)
    intro n' s _ hs
    cases s with
    | some s => exact c.pure (each_some (hs s rfl))
    | none =>
      have hkept : v.kept i := v.onward (Nat.sub_le i 1) hb
      apply c.bind (hr n' i hkept)
      intro n'' a _ ha
      cases a with
      | none => exact c.pure each_none
      | some a => exact ih hkept (ha rfl)

theorem findAt {Q : Nat → Match → Prop} {offset : Nat}
    (hrun : ∀ n i, v.kept (i - 1) → v.reached n i → c.Joins n (Each fun n s => Q n (.ofState s))
      (r.run r.whole flags input offset i) (r.run r.whole flags input' offset i))
    (hb : v.kept (offset - 1)) :
    c.Joins n (Each Q) (r.findAt flags input offset) (r.findAt flags input' offset) := by
  rw [Regex.findAt, Regex.findAt, hlimit]
  apply c.bind (pastEnd hr hb)
  intro n' past _ hreached
  cases past with
  | true => exact c.pure each_none
  | false => exact findFrom hr r flags hrun _ hb (hreached rfl)

theorem matchAt {offset : Nat} (hb : v.kept (offset - 1)) :
    c.Joins n (fun _ _ => True) (r.matchAt flags input offset) (r.matchAt flags input' offset) := by
  apply c.bind (pastEnd hr hb)
  intro n' past _ hreached
  cases past with
  | true => exact c.pure trivial
  | false => exact c.bind (attempt hr hlimit r flags _ _ hb (hreached rfl)) fun _ _ _ _ => c.pure trivial

end Searching

theorem findAt_unbounded {input : Input m} {input' : Input m'} (hr : c.Reads .unbounded input.charAt input'.charAt)
    (hlimit : input.limit = input'.limit) (r : Regex) (flags : SearchFlags) (offset : Nat) :
    c.Joins n (fun _ _ => True) (r.findAt flags input offset) (r.findAt flags input' offset) := by
  have hfind : c.Joins n (Each fun _ _ => True) (r.findAt flags input offset) (r.findAt flags input' offset) := by
    apply findAt hr hlimit r flags _ trivial
    intro n i hb hi
    exact c.mono (attempt hr hlimit r flags r.whole offset hb hi) fun _ _ _ _ _ _ => trivial
  exact c.mono hfind fun _ _ _ _ => trivial

end Coupling

end DialectRegex
