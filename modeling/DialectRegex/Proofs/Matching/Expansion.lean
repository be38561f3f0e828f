import DialectRegex.Proofs.Matching.Levels
import DialectRegex.Proofs.Matching.OffsetSets
import DialectRegex.Proofs.Repetition.Steps

namespace DialectRegex.Rounds

def Keeps (r : Rounds Id) (P : State → Prop) : Prop := ∀ l, (∀ s ∈ l, P s) → ∀ t ∈ r.after l, P t

structure Follows (r : Rounds Id) (P : State → Prop) (R : Nat → Nat → Prop) : Prop where
  keeps : r.Keeps P
  mem_after : ∀ l, (∀ s ∈ l, P s) → ∀ j, j ∈ (r.after l).map State.offset ↔ ∃ s ∈ l, R s.offset j

def Recurs (r : Rounds Id) (l : List State) (first x : Nat) : Prop :=
  ∃ y, first ≤ y ∧ y < x ∧ State.offsets (r.level y l) = State.offsets (r.level x l)

def StandsFor (r : Rounds Id) (l : List State) (first last q : Nat) : Prop :=
  (q = last ∧ ∀ x, first < x → x ≤ last → ¬ r.Recurs l first x) ∨
    ∃ x y, first ≤ y ∧ y < x ∧ x ≤ last ∧ State.offsets (r.level y l) = State.offsets (r.level x l) ∧
      (∀ z, first < z → z < x → ¬ r.Recurs l first z) ∧ q = x + (last - x) % (x - y)

def Trail (r : Rounds Id) (l : List State) (first c : Nat) (history : List OffsetSet) : Prop :=
  ∀ i, history[i]? = if first + i ≤ c then some (State.offsets (r.level (c - i) l)) else none

structure Growing (r : Rounds Id) (R : Nat → Nat → Prop) (s : State) (f : Frontier) : Prop where
  stalled : f.stalled = false
  level_eq : f.level = r.level f.count [s]
  mem_seen : ∀ j, f.seen.contains j = true ↔ ∃ k ≤ f.count, Steps R k s.offset j
  fresh : ∀ k ≤ f.count, ¬ Stale R s.offset k

structure Final (r : Rounds Id) (R : Nat → Nat → Prop) (s : State) (c : Nat) (f : Frontier) : Prop where
  stalled : f.stalled = true
  stale : Stale R s.offset (c + 1)
  count_eq : f.count = Max.max (c + 1) r.min
  level_eq : ∃ q, r.StandsFor [s] (c + 1) f.count q ∧ f.level = r.level q [s]

variable {r : Rounds Id} {P : State → Prop} {R : Nat → Nat → Prop}

theorem Keeps.level (h : r.Keeps P) {l : List State} (hl : ∀ s ∈ l, P s) (k : Nat) : ∀ t ∈ r.level k l, P t := by
  induction k with
  | zero => exact hl
  | succ k ih => exact h _ ih

theorem Keeps.padded? (h : r.Keeps P) {n : Nat} {l l' : List State} {history : List OffsetSet}
    (hl : ∀ s ∈ l, P s) (hp : r.padded? n l history = some l') : ∀ t ∈ l', P t := by
  induction n generalizing l history with
  | zero =>
    cases hp
    exact hl
  | succ n ih =>
    rw [padded?_succ] at hp
    split at hp
    · cases hp
    · split at hp
      · cases hp
        exact h.level (h l hl) _
      · exact ih (h l hl) hp

theorem Keeps.next? (h : r.Keeps P) {f f' : Frontier} (hf : ∀ s ∈ f.level, P s) (hn : r.next? f = some f') :
    ∀ t ∈ f'.level, P t := by
  have hafter := h f.level hf
  rw [next?_eq] at hn
  dsimp only at hn
  split at hn
  · cases hn
  split at hn
  · cases hn
  split at hn
  · cases hn
    exact hafter
  split at hn
  · cases hn
    exact hafter
  split at hn
  · cases hn
  · next hp =>
    cases hn
    exact h.padded? hafter hp

theorem Keeps.visited (h : r.Keeps P) {f : Frontier} (hf : ∀ s ∈ f.level, P s) (fuel : Nat) :
    ∀ t ∈ (r.visited fuel f).flatten, P t := by
  induction fuel generalizing f with
  | zero =>
    intro t ht
    cases ht
  | succ fuel ih =>
    intro t ht
    rw [Rounds.visited, List.flatten_append, List.mem_append] at ht
    rcases ht with ht | ht
    · split at ht
      · exact hf t (by simpa using ht)
      · cases ht
    · split at ht
      · cases ht
      · next hn => exact ih (h.next? hf hn) t ht

theorem mem_outcomes (fuel : Nat) (greedy : Bool) (s t : State) :
    t ∈ r.outcomes fuel greedy s ↔ t ∈ (r.visited fuel (.initial s)).flatten := by
  rw [outcomes]
  cases greedy <;> simp [List.mem_flatten]

theorem Keeps.outcomes (h : r.Keeps P) {s : State} (hs : P s) {fuel : Nat} {greedy : Bool} :
    ∀ t ∈ r.outcomes fuel greedy s, P t := by
  intro t ht
  apply h.visited (f := .initial s) _ fuel t ((mem_outcomes fuel greedy s t).mp ht)
  intro u hu
  obtain rfl := List.mem_singleton.mp hu
  exact hs

theorem Trail.next {l : List State} {first c : Nat} {history : List OffsetSet} (h : r.Trail l first c history)
    (hc : first ≤ c) : r.Trail l first (c + 1) (State.offsets (r.level (c + 1) l) :: history) := by
  intro i
  cases i with
  | zero => rw [List.getElem?_cons_zero, if_pos (by omega), Nat.sub_zero]
  | succ i =>
    have he : (first + (i + 1) ≤ c + 1) = (first + i ≤ c) := by apply propext; omega
    rw [List.getElem?_cons_succ, h i, Nat.add_sub_add_right]
    simp only [he]

theorem Trail.mem_iff {l : List State} {first c : Nat} {history : List OffsetSet}
    (h : r.Trail l first c history) (s : OffsetSet) :
    s ∈ history ↔ ∃ y, first ≤ y ∧ y ≤ c ∧ State.offsets (r.level y l) = s := by
  rw [List.mem_iff_getElem?]
  constructor
  · rintro ⟨i, hi⟩
    rw [h i] at hi
    by_cases hc : first + i ≤ c
    · rw [if_pos hc] at hi
      exact ⟨c - i, by omega, Nat.sub_le c i, Option.some.inj hi⟩
    · rw [if_neg hc] at hi
      cases hi
  · rintro ⟨y, hf, hc, rfl⟩
    refine ⟨c - y, ?_⟩
    rw [h (c - y), if_pos (by omega), Nat.sub_sub_self hc]

theorem padded?_level {l : List State} {first c : Nat} (n : Nat) {history : List OffsetSet} (hc : first ≤ c)
    (ht : r.Trail l first c history) (hn : ∀ x, first < x → x ≤ c → ¬ r.Recurs l first x) :
    match r.padded? n (r.level c l) history with
    | none => ∃ x, x ≤ c + n ∧ r.level x l = []
    | some l' => ∃ q, r.StandsFor l first (c + n) q ∧ l' = r.level q l := by
  induction n generalizing c history with
  | zero => exact ⟨c, .inl ⟨rfl, hn⟩, rfl⟩
  | succ n ih =>
    have hnext : r.after (r.level c l) = r.level (c + 1) l := rfl
    rw [padded?_succ, hnext]
    by_cases he : (r.level (c + 1) l).isEmpty
    · rw [if_pos he]
      exact ⟨c + 1, by omega, List.isEmpty_iff.mp he⟩
    · rw [if_neg he]
      cases hi : history.idxOf? (State.offsets (r.level (c + 1) l)) with
      | some i =>
        obtain ⟨hlt, hget, _⟩ := List.idxOf?_eq_some_iff.mp hi
        have hsome : history[i]? = some (State.offsets (r.level (c + 1) l)) := by
          rw [List.getElem?_eq_getElem hlt, hget]
        rw [ht i] at hsome
        by_cases hfi : first + i ≤ c
        · rw [if_pos hfi] at hsome
          refine ⟨c + 1 + n % (i + 1),
            .inr ⟨c + 1, c - i, by omega, by omega, by omega, Option.some.inj hsome, ?_, ?_⟩, ?_⟩
          · intro z hz hlt
            exact hn z hz (Nat.le_of_lt_succ hlt)
          · have hd : c + 1 - (c - i) = i + 1 := by omega
            have hr : c + (n + 1) - (c + 1) = n := by omega
            rw [hd, hr]
          · exact r.level_add (n % (i + 1)) (c + 1) l
        · rw [if_neg hfi] at hsome
          cases hsome
      | none =>
        have hnew : ¬ r.Recurs l first (c + 1) := by
          rintro ⟨y, hf, hy, heq⟩
          have hmem := (ht.mem_iff _).mpr ⟨y, hf, Nat.le_of_lt_succ hy, heq⟩
          exact List.idxOf?_eq_none_iff.mp hi hmem
        have h := ih (Nat.le_succ_of_le hc) (ht.next hc) (by
          intro x hx hxc
          by_cases hlast : x = c + 1
          · exact hlast ▸ hnew
          · exact hn x hx (by omega))
        rw [Nat.add_assoc c 1 n, Nat.add_comm 1 n] at h
        exact h

section Levels

variable {s : State}

theorem Follows.mem_level (h : r.Follows P R) (hs : P s) (k j : Nat) :
    j ∈ (r.level k [s]).map State.offset ↔ Steps R k s.offset j := by
  induction k generalizing j with
  | zero => simp [level, Steps, eq_comm]
  | succ k ih =>
    have hl : ∀ t ∈ r.level k [s], P t := h.keeps.level (by simpa using hs) k
    rw [level, h.mem_after _ hl]
    constructor
    · rintro ⟨t, ht, hj⟩
      exact ⟨t.offset, (ih t.offset).mp (List.mem_map_of_mem ht), hj⟩
    · rintro ⟨m, hm, hj⟩
      obtain ⟨t, ht, rfl⟩ := List.mem_map.mp ((ih m).mpr hm)
      exact ⟨t, ht, hj⟩

theorem Follows.level_eq_nil_iff (h : r.Follows P R) (hs : P s) (k : Nat) :
    r.level k [s] = [] ↔ ∀ j, ¬ Steps R k s.offset j := by
  simp only [← h.mem_level hs, ← List.eq_nil_iff_forall_not_mem, List.map_eq_nil_iff]

theorem Follows.level_eq_nil (h : r.Follows P R) (hs : P s) {a b : Nat} (hab : a ≤ b) (ha : r.level a [s] = []) :
    r.level b [s] = [] := by
  rw [h.level_eq_nil_iff hs] at ha ⊢
  obtain ⟨d, rfl⟩ := Nat.exists_eq_add_of_le hab
  induction d with
  | zero => exact ha
  | succ d ih =>
    rintro j ⟨m, hm, _⟩
    exact ih (Nat.le_add_right a d) m hm

theorem Follows.steps_standsFor (h : r.Follows P R) (hs : P s) {first last q : Nat}
    (hq : r.StandsFor [s] first last q) (j : Nat) : Steps R q s.offset j ↔ Steps R last s.offset j := by
  rcases hq with ⟨rfl, _⟩ | ⟨x, y, _, hyx, hx, heq, _, rfl⟩
  · rfl
  · have hper (j : Nat) : Steps R y s.offset j ↔ Steps R (y + (x - y)) s.offset j := by
      rw [Nat.add_sub_cancel' hyx.le, ← h.mem_level hs, ← h.mem_level hs]
      exact (State.offsets_eq_iff _ _).mp heq j
    have hstep := steps_mod (fun j => steps_add_congr hper (x - y)) (j := j) (last - x)
    rwa [Nat.add_sub_cancel' hyx.le, Nat.add_sub_cancel' hx] at hstep

theorem growing_initial (r : Rounds Id) (R : Nat → Nat → Prop) (s : State) : r.Growing R s (.initial s) where
  stalled := rfl
  level_eq := rfl
  mem_seen j := by simp [Frontier.initial, Steps]
  fresh k hk := by
    obtain rfl : k = 0 := Nat.le_zero.mp hk
    exact not_stale_zero R s.offset

theorem trail_singleton (r : Rounds Id) (l : List State) (c : Nat) :
    r.Trail l c c [State.offsets (r.level c l)] := by
  intro i
  cases i with
  | zero => simp
  | succ i => simp

theorem mem_foldl_insert (l : List State) (seen : OffsetSet) (j : Nat) :
    (l.foldl (fun seen s => seen.insert s.offset) seen).contains j = true ↔
      j ∈ l.map State.offset ∨ seen.contains j = true := by
  rw [← List.foldl_map, OffsetSet.contains_foldl_insert, Bool.or_eq_true, decide_eq_true_iff]

theorem Growing.next (h : r.Follows P R) (hs : P s) {f : Frontier} (hf : r.Growing R s f)
    (hnew : (r.level (f.count + 1) [s]).any (!f.seen.contains ·.offset) = true) :
    r.Growing R s ⟨f.count + 1, r.level (f.count + 1) [s],
      (r.level (f.count + 1) [s]).foldl (fun seen s => seen.insert s.offset) f.seen, false⟩ where
  stalled := rfl
  level_eq := rfl
  mem_seen j := by
    rw [mem_foldl_insert, h.mem_level hs, hf.mem_seen]
    constructor
    · rintro (hj | ⟨k, hk, hj⟩)
      · exact ⟨f.count + 1, Nat.le_refl _, hj⟩
      · exact ⟨k, Nat.le_succ_of_le hk, hj⟩
    · rintro ⟨k, hk, hj⟩
      rcases Nat.le_succ_iff.mp hk with hk | rfl
      · exact .inr ⟨k, hk, hj⟩
      · exact .inl hj
  fresh k hk hstale := by
    rcases Nat.le_succ_iff.mp hk with hk | rfl
    · exact hf.fresh k hk hstale
    · obtain ⟨t, ht, hseen⟩ := List.any_eq_true.mp hnew
      obtain ⟨l, hl, hsteps⟩ := hstale t.offset ((h.mem_level hs _ _).mp (List.mem_map_of_mem ht))
      have hold := (hf.mem_seen t.offset).mpr ⟨l, Nat.le_of_lt_succ hl, hsteps⟩
      simp [hold] at hseen

theorem Growing.stale (h : r.Follows P R) (hs : P s) {f : Frontier} (hf : r.Growing R s f)
    (hnew : ¬ (r.level (f.count + 1) [s]).any (!f.seen.contains ·.offset) = true) : Stale R s.offset (f.count + 1) := by
  intro j hj
  obtain ⟨t, ht, rfl⟩ := List.mem_map.mp ((h.mem_level hs _ j).mpr hj)
  have hold : f.seen.contains t.offset = true := by
    by_contra hn
    exact hnew (List.any_eq_true.mpr ⟨t, ht, by simpa using hn⟩)
  obtain ⟨k, hk, hsteps⟩ := (hf.mem_seen t.offset).mp hold
  exact ⟨k, Nat.lt_succ_of_le hk, hsteps⟩

theorem Growing.next?_cases (h : r.Follows P R) (hs : P s) {f : Frontier} (hf : r.Growing R s f) :
    match r.next? f with
    | none => (∃ m ∈ r.max, m ≤ f.count) ∨ ∃ k ≤ Max.max (f.count + 1) r.min, r.level k [s] = []
    | some f' =>
      (∀ m ∈ r.max, f.count < m) ∧ (r.Growing R s f' ∧ f'.count = f.count + 1 ∨ r.Final R s f.count f') := by
  have hnext : r.after f.level = r.level (f.count + 1) [s] := by rw [hf.level_eq]; rfl
  rw [next?_eq, hf.stalled, hnext, Bool.false_or]
  by_cases hmax : r.max.any (· ≤ f.count)
  · rw [if_pos hmax]
    obtain ⟨m, hm, hle⟩ := (Option.any_eq_true _ _).mp hmax
    exact .inl ⟨m, hm, of_decide_eq_true hle⟩
  rw [if_neg hmax]
  have hlt : ∀ m ∈ r.max, f.count < m := by
    intro m hm
    by_contra hle
    exact hmax ((Option.any_eq_true _ _).mpr ⟨m, hm, decide_eq_true (Nat.not_lt.mp hle)⟩)
  by_cases hempty : (r.level (f.count + 1) [s]).isEmpty
  · rw [if_pos hempty]
    exact .inr ⟨f.count + 1, le_max_left _ _, List.isEmpty_iff.mp hempty⟩
  rw [if_neg hempty]
  by_cases hnew : (r.level (f.count + 1) [s]).any (!f.seen.contains ·.offset)
  · dsimp only
    rw [if_pos hnew]
    exact ⟨hlt, .inl ⟨hf.next h hs hnew, rfl⟩⟩
  have hstale := hf.stale h hs hnew
  dsimp only
  rw [if_neg hnew]
  by_cases hmin : r.min ≤ f.count + 1
  · rw [if_pos hmin]
    refine ⟨hlt, .inr ⟨rfl, hstale, (Nat.max_eq_left hmin).symm, f.count + 1, .inl ⟨rfl, ?_⟩, rfl⟩⟩
    intro x hx hle
    exact absurd hx (Nat.not_lt.mpr hle)
  · rw [if_neg hmin]
    have hpad := padded?_level (r.min - (f.count + 1)) (Nat.le_refl _) (trail_singleton r [s] (f.count + 1))
      (fun x hx hle => absurd hx (Nat.not_lt.mpr hle))
    have hsum : f.count + 1 + (r.min - (f.count + 1)) = r.min := by omega
    rw [hsum] at hpad
    have hmaxmin : Max.max (f.count + 1) r.min = r.min := by omega
    cases hp : r.padded? (r.min - (f.count + 1)) (r.level (f.count + 1) [s])
        [State.offsets (r.level (f.count + 1) [s])] with
    | none =>
      rw [hp] at hpad
      obtain ⟨x, hx, hnil⟩ := hpad
      exact .inr ⟨x, by omega, hnil⟩
    | some l =>
      rw [hp] at hpad
      exact ⟨hlt, .inr ⟨rfl, hstale, hmaxmin.symm, hpad⟩⟩

theorem visited_stalled {f : Frontier} (hs : f.stalled = true) (hm : r.min ≤ f.count) (fuel : Nat) :
    r.visited (fuel + 1) f = [f.level] := by
  rw [visited, if_pos hm, next?_eq, hs, Bool.true_or, if_pos rfl, List.append_nil]

theorem Growing.count_lt (h : r.Follows P R) (hs : P s) {offsets : Finset Nat}
    (ho : ∀ t, P t → t.offset ∈ offsets) {f : Frontier} (hf : r.Growing R s f) : f.count < offsets.card := by
  apply card_of_not_stale hf.fresh
  intro k j hj
  obtain ⟨t, ht, rfl⟩ := List.mem_map.mp ((h.mem_level hs k j).mpr hj)
  exact ho t (h.keeps.level (by simpa using hs) k t ht)

theorem Growing.mem_here (h : r.Follows P R) (hs : P s) {f : Frontier} (hf : r.Growing R s f)
    (hmax : ∀ m ∈ r.max, f.count ≤ m) (j : Nat) :
    j ∈ (if r.min ≤ f.count then [f.level] else []).flatten.map State.offset ↔
      Allows r.min r.max f.count ∧ Steps R f.count s.offset j ∧
        ∀ l < f.count, Stale R s.offset l → f.count ≤ r.min := by
  by_cases hm : r.min ≤ f.count
  · rw [if_pos hm, List.flatten_singleton, hf.level_eq, h.mem_level hs]
    constructor
    · intro hj
      exact ⟨⟨hm, hmax⟩, hj, fun l hl hstale => absurd hstale (hf.fresh l hl.le)⟩
    · rintro ⟨_, hj, _⟩
      exact hj
  · rw [if_neg hm]
    simp [Allows, hm]

theorem Final.mem_visited (h : r.Follows P R) (hs : P s) (hb : ∀ m ∈ r.max, r.min ≤ m) {f f' : Frontier}
    (hf : r.Growing R s f) (hlt : ∀ m ∈ r.max, f.count < m) (hf' : r.Final R s f.count f') (n j : Nat) :
    j ∈ (r.visited (n + 1) f').flatten.map State.offset ↔
      ∃ k, f.count + 1 ≤ k ∧ Allows r.min r.max k ∧ Steps R k s.offset j ∧
        ∀ l < k, Stale R s.offset l → k ≤ r.min := by
  obtain ⟨q, hq, hlevel⟩ := hf'.level_eq
  have hcount := hf'.count_eq
  rw [visited_stalled hf'.stalled (by omega), List.flatten_singleton, hlevel, h.mem_level hs, h.steps_standsFor hs hq]
  constructor
  · intro hj
    refine ⟨f'.count, by omega, ⟨by omega, ?_⟩, hj, ?_⟩
    · intro m hm
      have := hlt m hm
      have := hb m hm
      omega
    · intro l hl hstale
      have hl' : ¬ l ≤ f.count := fun hle => hf.fresh l hle hstale
      omega
  · rintro ⟨k, hk, ⟨hmin, _⟩, hj, hle⟩
    have hkc : k = f'.count := by
      by_cases he : k = f.count + 1
      · omega
      · have := hle (f.count + 1) (by omega) hf'.stale
        omega
    exact hkc ▸ hj

theorem Follows.mem_visited (h : r.Follows P R) (hs : P s) {offsets : Finset Nat}
    (ho : ∀ t, P t → t.offset ∈ offsets) (hb : ∀ m ∈ r.max, r.min ≤ m) {f : Frontier} (hf : r.Growing R s f)
    (hmax : ∀ m ∈ r.max, f.count ≤ m) {fuel : Nat} (hfuel : offsets.card < fuel + f.count) (j : Nat) :
    j ∈ (r.visited fuel f).flatten.map State.offset ↔
      ∃ k, f.count ≤ k ∧ Allows r.min r.max k ∧ Steps R k s.offset j ∧
        ∀ l < k, Stale R s.offset l → k ≤ r.min := by
  induction fuel generalizing f with
  | zero =>
    have := hf.count_lt h hs ho
    omega
  | succ fuel ih =>
    have hsplit (Q : Nat → Prop) : (∃ k, f.count ≤ k ∧ Q k) ↔ Q f.count ∨ ∃ k, f.count + 1 ≤ k ∧ Q k := by
      constructor
      · rintro ⟨k, hk, hq⟩
        rcases Nat.eq_or_lt_of_le hk with rfl | hk
        · exact .inl hq
        · exact .inr ⟨k, hk, hq⟩
      · rintro (hq | ⟨k, hk, hq⟩)
        · exact ⟨f.count, Nat.le_refl _, hq⟩
        · exact ⟨k, Nat.le_of_succ_le hk, hq⟩
    rw [visited, List.flatten_append, List.map_append, List.mem_append, hf.mem_here h hs hmax, hsplit]
    apply or_congr_right
    have hcases := hf.next?_cases h hs
    cases hn : r.next? f with
    | none =>
      rw [hn] at hcases
      constructor
      · intro hj
        cases hj
      · rintro ⟨k, hk, ⟨hmin, hkmax⟩, hj, _⟩
        rcases hcases with ⟨m, hm, hle⟩ | ⟨x, hx, hnil⟩
        · have := hkmax m hm
          omega
        · have hlevel := h.level_eq_nil hs (b := k) (by omega) hnil
          rw [← h.mem_level hs, hlevel] at hj
          cases hj
    | some f' =>
      rw [hn] at hcases
      obtain ⟨hlt, ⟨hf', hc⟩ | hf'⟩ := hcases
      · have hrest := ih hf' (fun m hm => by rw [hc]; exact hlt m hm) (by omega)
        rwa [hc] at hrest
      · obtain ⟨n, rfl⟩ : ∃ n, fuel = n + 1 := ⟨fuel - 1, by have := hf.count_lt h hs ho; omega⟩
        exact Final.mem_visited h hs hb hf hlt hf' n j

theorem Follows.mem_outcomes (h : r.Follows P R) (hs : P s) {offsets : Finset Nat}
    (ho : ∀ t, P t → t.offset ∈ offsets) (hb : ∀ m ∈ r.max, r.min ≤ m) {fuel : Nat} (hfuel : offsets.card < fuel)
    (greedy : Bool) (j : Nat) :
    j ∈ (r.outcomes fuel greedy s).map State.offset ↔ Levelled R r.min r.max s.offset j := by
  have hvisited := h.mem_visited hs ho hb (growing_initial r R s) (fun _ _ => Nat.zero_le _) hfuel j
  simp only [List.mem_map, Rounds.mem_outcomes] at hvisited ⊢
  rw [hvisited]
  constructor
  · rintro ⟨k, _, hk⟩
    exact ⟨k, hk⟩
  · rintro ⟨k, hk⟩
    exact ⟨k, Nat.zero_le k, hk⟩

end Levels

end DialectRegex.Rounds
