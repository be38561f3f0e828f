import DialectRegex.Proofs.Matching.Expansion
import DialectRegex.Proofs.Matching.Tests
import DialectRegex.Proofs.Pattern.Groups

namespace DialectRegex

structure Setting.Within (c : Setting) (i : Nat) (s : State) : Prop where
  origin : s.origin = c.origin
  advances : Advances c.text.length i s.offset

variable {e : Search Id} {c : Setting}

theorem Search.card_lt_fuel (he : e.Sees c) (i : Nat) :
    (insert i (Finset.range (c.text.length + 1))).card < e.fuel := by
  have h := Finset.card_insert_le i (Finset.range (c.text.length + 1))
  rw [Finset.card_range] at h
  rw [Search.fuel, he.limit]
  omega

theorem Search.keeps_rounds {P : State → Prop} {ends : State → List State} (h : ∀ s, P s → ∀ t ∈ ends s, P t)
    (lo : Nat) (hi : Option Nat) : (e.rounds (m := Id) ends lo hi).Keeps P := by
  intro l hl t ht
  rw [Search.after_rounds] at ht
  obtain ⟨s, hs, hts⟩ := List.mem_flatMap.mp (e.mem_of_mem_dedup ht)
  exact h s (hl s hs) t (e.mem_of_mem_dedup hts)

namespace Pattern

theorem ends_repeated_keeps {P : State → Prop} {p : Pattern} (h : ∀ s, P s → ∀ t ∈ p.ends e s, P t) {lo : Nat}
    {hi : Option Nat} {greedy : Bool} {s : State} (hs : P s) : ∀ t ∈ (repeated p lo hi greedy).ends e s, P t := by
  intro t ht
  rw [ends_repeated] at ht
  exact (Search.keeps_rounds h lo hi).outcomes hs t (e.mem_of_mem_dedup ht)

theorem mem_ends_look {negated : Bool} {p : Pattern} {s t : State} (h : t ∈ (look negated p).ends e s) :
    t = s ∨ ∃ r ∈ p.ends e s, t = r.moveTo s.offset := by
  rw [ends_look] at h
  cases hr : (p.ends e s).head? with
  | none =>
    rw [hr] at h
    cases negated with
    | true => exact .inl (List.mem_singleton.mp h)
    | false => cases h
  | some r =>
    rw [hr] at h
    cases negated with
    | true => cases h
    | false => exact .inr ⟨r, List.mem_of_mem_head? hr, List.mem_singleton.mp h⟩

@[simp] theorem enter_offset (s : State) (g : Option Nat) : (s.enter g).offset = s.offset := by
  cases g <;> rfl

@[simp] theorem enter_origin (s : State) (g : Option Nat) : (s.enter g).origin = s.origin := by
  cases g <;> rfl

@[simp] theorem leave_offset (s : State) (g : Option Nat) : (s.leave g).offset = s.offset := by
  cases g <;> rfl

theorem ends_relates {Q : State → State → Prop} (p : Pattern) (refl : ∀ s, Q s s)
    (trans : ∀ {s t u}, Q s t → Q t u → Q s u)
    (test : ∀ {t : Test} {s j}, t.moves? e s = some j → Q s (s.moveTo j))
    (group : ∀ {g q s t}, (g, q) ∈ p.groups → Q (s.enter (some g)) t → Q s (t.leave (some g)))
    (look : ∀ {s t}, Q s t → Q s (t.moveTo s.offset)) (s : State) : ∀ t ∈ p.ends e s, Q s t := by
  induction p generalizing s with
  | empty =>
    intro t ht
    rw [ends_empty] at ht
    exact List.mem_singleton.mp ht ▸ refl s
  | test t =>
    intro u hu
    rw [ends_test] at hu
    obtain ⟨j, hj, rfl⟩ := Option.map_eq_some_iff.mp (Option.mem_toList.mp hu)
    exact test hj
  | seq p q hp hq =>
    intro u hu
    rw [ends_seq] at hu
    obtain ⟨t, ht, hut⟩ := List.mem_flatMap.mp hu
    have hst := hp (fun h => group (List.mem_append_left _ h)) s t ht
    exact trans hst (hq (fun h => group (List.mem_append_right _ h)) t u hut)
  | alt p q hp hq =>
    intro u hu
    rw [ends_alt] at hu
    rcases List.mem_append.mp hu with hu | hu
    · exact hp (fun h => group (List.mem_append_left _ h)) s u hu
    · exact hq (fun h => group (List.mem_append_right _ h)) s u hu
  | group g p hp =>
    intro u hu
    rw [ends_group] at hu
    obtain ⟨t, ht, rfl⟩ := List.mem_map.mp hu
    cases g with
    | none => exact hp group s t ht
    | some g => exact group List.mem_cons_self (hp (fun h => group (List.mem_cons_of_mem _ h)) _ t ht)
  | repeated p lo hi greedy hp =>
    exact ends_repeated_keeps (P := Q s) (fun t ht u hu => trans ht (hp group t u hu)) (refl s)
  | look negated p hp =>
    intro u hu
    obtain rfl | ⟨r, hr, rfl⟩ := mem_ends_look hu
    · exact refl u
    · exact look (hp group s r hr)

theorem ends_origin (p : Pattern) (s : State) : ∀ t ∈ p.ends e s, t.origin = s.origin :=
  ends_relates (Q := fun s t => t.origin = s.origin) p (fun _ => rfl) (fun h h' => h'.trans h) (fun _ => rfl)
    (fun _ h => h) (fun h => h) s

theorem ends_advances (he : e.Sees c) (p : Pattern) (s : State) :
    ∀ t ∈ p.ends e s, Advances c.text.length s.offset t.offset :=
  ends_relates (Q := fun s t => Advances c.text.length s.offset t.offset) p (fun _ => .inl rfl) Advances.trans
    (Test.moves?_advances he) (fun _ h => h) (fun _ => .inl rfl) s

theorem rounds_advance (he : e.Sees c) (p : Pattern) (lo : Nat) (hi : Option Nat) (i : Nat) :
    (e.rounds (m := Id) (p.ends e) lo hi).Keeps fun t => Advances c.text.length i t.offset := by
  apply Search.keeps_rounds
  intro s hs t ht
  exact hs.trans (ends_advances he p s t ht)

theorem ends_within {i : Nat} (he : e.Sees c) (p : Pattern) {s : State} (hs : c.Within i s) :
    ∀ t ∈ p.ends e s, c.Within i t := by
  intro t ht
  exact ⟨(ends_origin p s t ht).trans hs.origin, hs.advances.trans (ends_advances he p s t ht)⟩

theorem follows_rounds {i : Nat} (he : e.Sees c) {p : Pattern}
    (hp : ∀ s, s.origin = c.origin → ∀ j, j ∈ (p.ends e s).map State.offset ↔ p.Reaches c s.offset j) (lo : Nat)
    (hi : Option Nat) : (e.rounds (m := Id) (p.ends e) lo hi).Follows (c.Within i) (p.Reaches c) where
  keeps := Search.keeps_rounds (fun _ => ends_within he p) lo hi
  mem_after l hl j := by
    rw [Search.after_rounds, Search.mem_offsets_dedup, List.map_flatMap, List.mem_flatMap]
    simp only [Search.mem_offsets_dedup]
    constructor
    · rintro ⟨s, hs, hj⟩
      exact ⟨s, hs, (hp s (hl s hs).origin j).mp hj⟩
    · rintro ⟨s, hs, hj⟩
      exact ⟨s, hs, (hp s (hl s hs).origin j).mpr hj⟩

theorem mem_ends_repeated (he : e.Sees c) {p : Pattern}
    (hp : ∀ s, s.origin = c.origin → ∀ j, j ∈ (p.ends e s).map State.offset ↔ p.Reaches c s.offset j) {lo : Nat}
    {hi : Option Nat} (hb : InOrder lo hi) (greedy : Bool) {s : State} (hs : s.origin = c.origin) (j : Nat) :
    j ∈ ((repeated p lo hi greedy).ends e s).map State.offset ↔ Levelled (p.Reaches c) lo hi s.offset j := by
  have hw : c.Within s.offset s := ⟨hs, .inl rfl⟩
  rw [ends_repeated, Search.mem_offsets_dedup]
  exact (follows_rounds he hp lo hi).mem_outcomes hw (fun _ ht => ht.advances.mem) hb (Search.card_lt_fuel he _)
    greedy j

theorem mem_ends_look_iff {p : Pattern} {s : State} {Q : Nat → Prop}
    (hp : ∀ k, k ∈ (p.ends e s).map State.offset ↔ Q k) (negated : Bool) (j : Nat) :
    j ∈ ((look negated p).ends e s).map State.offset ↔
      s.offset = j ∧ if negated then ¬ ∃ k, Q k else ∃ k, Q k := by
  rw [ends_look]
  simp only [← hp]
  cases p.ends e s with
  | nil => cases negated <;> simp [eq_comm]
  | cons t l =>
    cases negated with
    | true => simp
    | false => simp [State.moveTo, eq_comm]

theorem mem_ends_iff (he : e.Sees c) {p : Pattern} (hb : p.hasBackref = false) (hv : p.EveryRepeat InOrder)
    {s : State} (hs : s.origin = c.origin) (j : Nat) :
    j ∈ (p.ends e s).map State.offset ↔ p.Reaches c s.offset j := by
  induction p generalizing s j with
  | empty =>
    rw [ends_empty]
    simp [Reaches, SpansBy, eq_comm]
  | test t =>
    change _ ↔ t.Spans c s.offset j
    rw [ends_test, ← Test.moves?_eq_some he hb hs]
    cases t.moves? e s with
    | none => simp
    | some i => simp [State.moveTo, eq_comm]
  | seq p q hp hq =>
    obtain ⟨hbp, hbq⟩ := Bool.or_eq_false_iff.mp hb
    rw [ends_seq, List.map_flatMap, List.mem_flatMap]
    constructor
    · rintro ⟨t, ht, hj⟩
      have htc : t.origin = c.origin := (ends_origin p s t ht).trans hs
      exact ⟨t.offset, (hp hbp hv.1 hs _).mp (List.mem_map_of_mem ht), (hq hbq hv.2 htc j).mp hj⟩
    · rintro ⟨m, hm, hj⟩
      obtain ⟨t, ht, rfl⟩ := List.mem_map.mp ((hp hbp hv.1 hs m).mpr hm)
      have htc : t.origin = c.origin := (ends_origin p s t ht).trans hs
      exact ⟨t, ht, (hq hbq hv.2 htc j).mpr hj⟩
  | alt p q hp hq =>
    obtain ⟨hbp, hbq⟩ := Bool.or_eq_false_iff.mp hb
    rw [ends_alt, List.map_append, List.mem_append, hp hbp hv.1 hs, hq hbq hv.2 hs]
    rfl
  | group g p hp =>
    have ho : (State.offset ∘ fun s => s.leave g) = State.offset := by
      funext s
      exact leave_offset s g
    rw [ends_group, List.map_map, ho, hp hb hv (by rwa [enter_origin]), enter_offset]
    rfl
  | repeated p lo hi greedy hp => exact mem_ends_repeated he (fun s hs j => hp hb hv.2 hs j) hv.1 greedy hs j
  | look negated p hp =>
    rw [mem_ends_look_iff (hp hb hv hs) negated j]
    cases negated <;> rfl

theorem Reaches.advances (he : e.Sees c) {p : Pattern} (hb : p.hasBackref = false) (hv : p.EveryRepeat InOrder)
    {i j : Nat} (h : p.Reaches c i j) : Advances c.text.length i j := by
  obtain ⟨t, ht, rfl⟩ := List.mem_map.mp ((mem_ends_iff he hb hv (s := ⟨c.origin, i, []⟩) rfl j).mpr h)
  exact ends_advances he p _ t ht

end Pattern

end DialectRegex
