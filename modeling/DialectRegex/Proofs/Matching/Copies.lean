import DialectRegex.Proofs.Grammar.Counting
import DialectRegex.Proofs.Matching.Captures
import DialectRegex.Proofs.Matching.Settled

namespace DialectRegex

theorem State.findSome?_distinct {α : Type} {l : List State} (hl : ∀ a ∈ l, ∀ b ∈ l, a.offset = b.offset → a = b)
    (k : State → Option α) {seen : OffsetSet} (hseen : ∀ a ∈ l, seen.contains a.offset = true → k a = none) :
    (distinct seen l).findSome? k = l.findSome? k := by
  induction l generalizing seen with
  | nil => rfl
  | cons a l ih =>
    have hrest : ∀ b ∈ l, ∀ c ∈ l, b.offset = c.offset → b = c := fun b hb c hc =>
      hl b (List.mem_cons_of_mem a hb) c (List.mem_cons_of_mem a hc)
    rw [distinct, List.findSome?_cons]
    split
    · next hs =>
      rw [hseen a List.mem_cons_self hs]
      exact ih hrest fun b hb => hseen b (List.mem_cons_of_mem a hb)
    · rw [List.findSome?_cons]
      cases hk : k a with
      | some r => rfl
      | none =>
        apply ih hrest
        intro b hb hin
        rw [OffsetSet.contains_insert, Bool.or_eq_true, decide_eq_true_iff] at hin
        rcases hin with heq | hin
        · rw [← hl a List.mem_cons_self b (List.mem_cons_of_mem a hb) heq]
          exact hk
        · exact hseen b (List.mem_cons_of_mem a hb) hin

theorem Search.findSome?_dedup {α : Type} (e : Search Id) {l : List State}
    (hl : ∀ a ∈ l, ∀ b ∈ l, a.offset = b.offset → a = b) (k : State → Option α) :
    (e.dedup l).findSome? k = l.findSome? k := by
  rw [dedup]
  split
  · rw [State.dedup_eq]
    exact State.findSome?_distinct hl k (by simp)
  · rfl

namespace Pattern

variable {e : Search Id} {c : Setting}

theorem ends_before (p q : Pattern) (s : State) : (p.before q).ends e s = (p.ends e s).flatMap (q.ends e) := by
  cases q with
  | empty =>
    have hone : empty.ends e = fun s => [s] := by
      funext s
      exact ends_empty e s
    rw [hone, List.flatMap_singleton']
    rfl
  | _ => exact ends_seq e p _ s

theorem ends_copies_succ (p : Pattern) (n : Nat) (s : State) :
    (p.copies (n + 1)).ends e s = ((p.copies n).ends e s).flatMap (p.ends e) := by
  induction n generalizing s with
  | zero =>
    rw [copies, copies, ends_empty, List.flatMap_singleton]
    rfl
  | succ n ih =>
    rw [copies, ends_before, copies, ends_before, List.flatMap_assoc]
    apply List.flatMap_congr
    intro t _
    rw [← ih t, copies]

theorem ends_moveTo {p : Pattern} (hp : p.numbers = []) (s : State) : ∀ t ∈ p.ends e s, t = s.moveTo t.offset := by
  intro t ht
  have ho := ends_origin p s t ht
  have hc : t.captures = s.captures := by
    apply List.ext_getElem?
    intro g
    exact ends_captures (by rw [hp]; exact List.not_mem_nil) s t ht
  cases t
  cases s
  cases ho
  cases hc
  rfl

theorem level_findSome? {α : Type} {p : Pattern} (hp : p.numbers = []) (lo : Nat) (hi : Option Nat) (n : Nat)
    (s : State) (k : State → Option α) :
    ((e.rounds (m := Id) (p.ends e) lo hi).level n [s]).findSome? k = ((p.copies n).ends e s).findSome? k := by
  have hsame {s : State} {l : List State} (hl : ∀ t ∈ l, t = s.moveTo t.offset) :
      ∀ a ∈ l, ∀ b ∈ l, a.offset = b.offset → a = b := by
    intro a ha b hb hab
    rw [hl a ha, hl b hb, hab]
  have hkeeps : (e.rounds (m := Id) (p.ends e) lo hi).Keeps fun t => t = s.moveTo t.offset := by
    apply Search.keeps_rounds
    intro t ht u hu
    rw [ends_moveTo hp t u hu, ht]
    rfl
  induction n generalizing k with
  | zero => rw [copies, ends_empty]; rfl
  | succ n ih =>
    have hlevel := hkeeps.level (l := [s]) (by simp [State.moveTo]) n
    have hround : ∀ t ∈ ((e.rounds (m := Id) (p.ends e) lo hi).level n [s]).flatMap fun s => e.dedup (p.ends e s),
        t = s.moveTo t.offset := by
      intro t ht
      obtain ⟨u, hu, htu⟩ := List.mem_flatMap.mp ht
      rw [ends_moveTo hp u t (e.mem_of_mem_dedup htu), hlevel u hu]
      rfl
    have hends (t : State) : (e.dedup (p.ends e t)).findSome? k = (p.ends e t).findSome? k :=
      e.findSome?_dedup (hsame (ends_moveTo hp t)) k
    rw [Rounds.level, Search.after_rounds, e.findSome?_dedup (hsame hround), findSome?_flatMap, ends_copies_succ,
      findSome?_flatMap]
    simp only [hends]
    exact ih _

theorem repeated_head? (he : e.Sees c) {p : Pattern} (hp : p.numbers = []) (hb : p.hasBackref = false)
    (hv : p.EveryRepeat InOrder) (m : Nat) (greedy : Bool) {s : State} (hs : s.origin = c.origin) {x : Nat}
    (hx : FirstSettled (p.Reaches c) s.offset x) :
    ((repeated p m (some m) greedy).ends e s).head? = ((p.copies (min m x)).ends e s).head? := by
  have hw : c.Within s.offset s := ⟨hs, .inl rfl⟩
  have hR : ∀ i j, p.Reaches c i j → Advances c.text.length i j := fun _ _ h => h.advances he hb hv
  have hfollows := follows_rounds (i := s.offset) he (fun s hs j => mem_ends_iff he hb hv hs j) m (some m)
  have hexact := hfollows.outcomes_exact (m := m) hw hR (fun _ ht => ht.advances.mem) rfl rfl
    (Search.card_lt_fuel he _) greedy hx
  rw [ends_repeated, e.head?_dedup, hexact, ← findSome?_some, level_findSome? hp, findSome?_some]

theorem ends_copies_head?_eq_none (he : e.Sees c) {p : Pattern} (hp : p.numbers = []) (hb : p.hasBackref = false)
    (hv : p.EveryRepeat InOrder) (n : Nat) {s : State} (hs : s.origin = c.origin) :
    ((p.copies n).ends e s).head? = none ↔ ∀ j, ¬ Steps (p.Reaches c) n s.offset j := by
  have hw : c.Within s.offset s := ⟨hs, .inl rfl⟩
  have hfollows := follows_rounds (i := s.offset) he (fun s hs j => mem_ends_iff he hb hv hs j) n (some n)
  rw [← hfollows.level_eq_nil_iff hw, ← findSome?_some, ← level_findSome? hp n (some n), findSome?_some,
    List.head?_eq_none_iff]

theorem repeated_head?_eq_none (he : e.Sees c) {p : Pattern} (hp : p.numbers = []) (hb : p.hasBackref = false)
    (hv : p.EveryRepeat InOrder) (m : Nat) (greedy : Bool) {s : State} (hs : s.origin = c.origin) :
    ((repeated p m (some m) greedy).ends e s).head? = none ↔ ((p.copies m).ends e s).head? = none := by
  obtain ⟨n, hn⟩ := exists_firstSettled (fun _ _ (h : p.Reaches c _ _) => h.advances he hb hv) s.offset
  rw [repeated_head? he hp hb hv m greedy hs hn, ends_copies_head?_eq_none he hp hb hv _ hs,
    ends_copies_head?_eq_none he hp hb hv _ hs]
  apply forall_congr'
  intro j
  apply not_congr
  rcases Nat.le_total m n with hle | hle
  · rw [Nat.min_eq_left hle]
  · rw [Nat.min_eq_right hle]
    exact (hn.1.steps_iff hle).symm

end Pattern

end DialectRegex
