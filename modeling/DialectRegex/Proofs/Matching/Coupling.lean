import DialectRegex.Proofs.Matching.Distinct
import DialectRegex.Regex

namespace DialectRegex

/-- What is known of a result depends on the stage at which it comes, and stages follow one another. -/
structure Coupling (m m' : Type → Type) [Monad m] [Monad m'] where
  /-- From this stage on the two computations go together, and what they end with satisfies a property. -/
  Joins {α : Type} : Nat → (Nat → α → Prop) → m α → m' α → Prop
  protected pure {α : Type} {n : Nat} {Q : Nat → α → Prop} {a : α} : Q n a → Joins n Q (pure a) (pure a)
  protected bind {α β : Type} {n : Nat} {Q : Nat → α → Prop} {R : Nat → β → Prop} {x : m α} {y : m' α} {f : α → m β}
    {g : α → m' β} :
    Joins n Q x y → (∀ n' a, n ≤ n' → Q n' a → Joins n' R (f a) (g a)) → Joins n R (x >>= f) (y >>= g)
  protected mono {α : Type} {n : Nat} {Q R : Nat → α → Prop} {x : m α} {y : m' α} :
    Joins n Q x y → (∀ n' a, n ≤ n' → Q n' a → R n' a) → Joins n R x y

def Each {α γ : Type} [Membership α γ] (P : Nat → α → Prop) (n : Nat) (c : γ) : Prop := ∀ a ∈ c, P n a

def Lasting (P : Nat → State → Prop) : Prop := ∀ n n' s, n ≤ n' → P n s → P n' s

section Each

variable {α : Type} {P : Nat → α → Prop} {n n' : Nat}

theorem each_none : Each P n (none : Option α) := by
  rintro _ ⟨⟩

theorem each_some {a : α} (h : P n a) : Each P n (some a) := by
  rintro _ ⟨⟩
  exact h

theorem each_nil : Each P n ([] : List α) := List.forall_mem_nil (P n)

theorem each_cons {a : α} {l : List α} (h : P n a) (hl : Each P n l) : Each P n (a :: l) :=
  List.forall_mem_cons.mpr ⟨h, hl⟩

theorem each_singleton {a : α} (h : P n a) : Each P n [a] := each_cons h each_nil

theorem each_append {l l' : List α} (h : Each P n l) (h' : Each P n l') : Each P n (l ++ l') :=
  List.forall_mem_append.mpr ⟨h, h'⟩

theorem Each.tail {a : α} {l : List α} (h : Each P n (a :: l)) : Each P n l := (List.forall_mem_cons.mp h).2

theorem Each.flatten {ls : List (List α)} (h : Each (Each P) n ls) : Each P n ls.flatten :=
  List.forall_mem_flatten.mpr h

theorem Each.reverse {l : List α} (h : Each P n l) : Each P n l.reverse :=
  fun a ha => h a (List.mem_reverse.mp ha)

theorem Lasting.each {P : Nat → State → Prop} (hP : Lasting P) (hn : n ≤ n') {l : List State} (h : Each P n l) :
    Each P n' l :=
  fun s hs => hP n n' s hn (h s hs)

theorem each_dedup {m : Type → Type} (e : Search m) {P : Nat → State → Prop} {l : List State} (h : Each P n l) :
    Each P n (e.dedup l) :=
  fun s hs => h s (e.mem_of_mem_dedup hs)

end Each

namespace Coupling

variable {m m' : Type → Type} [Monad m] [Monad m'] (c : Coupling m m') {P : Nat → State → Prop} {n : Nat}

abbrev Mirrors {α : Type} (P : Nat → State → Prop) (Q : Nat → α → Prop) (k : State → m α) (k' : State → m' α) : Prop :=
  ∀ n s, P n s → c.Joins n Q (k s) (k' s)

section Choices

variable (hP : Lasting P) {f : State → m (List State)} {f' : State → m' (List State)} {l : List State}
include hP

protected theorem gather (hf : c.Mirrors P (Each P) f f') {found : List (List State)}
    (hfound : Each (Each P) n found) (hl : Each P n l) :
    c.Joins n (Each P) (gather f found l) (gather f' found l) := by
  induction l generalizing n found with
  | nil => exact c.pure hfound.reverse.flatten
  | cons a as ih =>
    apply c.bind (hf n a (hl a List.mem_cons_self))
    intro n' bs hn hbs
    exact ih (each_cons hbs fun l hl => hP.each hn (hfound l hl)) (hP.each hn hl.tail)

protected theorem firstOf {k : State → m (Option State)} {k' : State → m' (Option State)}
    (hk : c.Mirrors P (Each P) k k') (hl : Each P n l) : c.Joins n (Each P) (firstOf k l) (firstOf k' l) := by
  induction l generalizing n with
  | nil => exact c.pure each_none
  | cons a as ih =>
    apply c.bind (hk n a (hl a List.mem_cons_self))
    intro n' b hn hb
    cases b with
    | some b => exact c.pure hb
    | none => exact ih (hP.each hn hl.tail)

end Choices

structure JoinsRounds (P : Nat → State → Prop) (r : Rounds m) (r' : Rounds m') : Prop where
  lasting : Lasting P
  min_eq : r.min = r'.min
  max_eq : r.max = r'.max
  expand : ∀ n l, Each P n l → c.Joins n (Each P) (r.expand l) (r'.expand l)

namespace JoinsRounds

variable {c} {r : Rounds m} {r' : Rounds m'} {l : List State} {f : Frontier}

theorem iterate (h : c.JoinsRounds P r r') (k : Nat) (hl : Each P n l) :
    c.Joins n (Each P) (r.iterate k l) (r'.iterate k l) := by
  induction k generalizing n l with
  | zero => exact c.pure hl
  | succ k ih => exact c.bind (h.expand n l hl) fun _ _ _ hnext => ih hnext

theorem pad (h : c.JoinsRounds P r r') (k : Nat) (hl : Each P n l) (history : List OffsetSet) :
    c.Joins n (Each (Each P)) (r.pad k l history) (r'.pad k l history) := by
  induction k generalizing n l history with
  | zero => exact c.pure (each_some hl)
  | succ k ih =>
    apply c.bind (h.expand n l hl)
    intro n' next _ hnext
    split
    · exact c.pure each_none
    split
    · exact c.bind (h.iterate _ hnext) fun _ _ _ hlast => c.pure (each_some hlast)
    · exact ih hnext _

theorem advance (h : c.JoinsRounds P r r') (hf : Each P n f.level) :
    c.Joins n (Each fun n f => Each P n f.level) (r.advance f) (r'.advance f) := by
  rw [Rounds.advance, Rounds.advance, h.max_eq, h.min_eq]
  split
  · exact c.pure each_none
  apply c.bind (h.expand n f.level hf)
  intro n' next _ hnext
  dsimp only
  split
  · exact c.pure each_none
  split
  · exact c.pure (each_some hnext)
  split
  · exact c.pure (each_some hnext)
  apply c.bind (h.pad _ hnext _)
  intro n'' padded _ hpadded
  cases padded with
  | none => exact c.pure each_none
  | some level => exact c.pure (each_some (hpadded level rfl))

theorem levels (h : c.JoinsRounds P r r') (fuel : Nat) {found : List (List State)} (hfound : Each (Each P) n found)
    (hf : Each P n f.level) : c.Joins n (Each (Each P)) (r.levels fuel found f) (r'.levels fuel found f) := by
  induction fuel generalizing n found f with
  | zero => exact c.pure hfound
  | succ fuel ih =>
    have hfound' : Each (Each P) n (if r'.min ≤ f.count then f.level :: found else found) := by
      split
      · exact each_cons hf hfound
      · exact hfound
    rw [Rounds.levels, Rounds.levels, h.min_eq]
    apply c.bind (h.advance hf)
    intro n' next hn hnext
    have hlater : Each (Each P) n' (if r'.min ≤ f.count then f.level :: found else found) :=
      fun l hl => h.lasting.each hn (hfound' l hl)
    cases next with
    | none => exact c.pure hlater
    | some next => exact ih hlater (hnext next rfl)

theorem states (h : c.JoinsRounds P r r') (fuel : Nat) (greedy : Bool) {s : State} (hs : P n s) :
    c.Joins n (Each P) (r.states fuel greedy s) (r'.states fuel greedy s) := by
  apply c.bind (h.levels fuel each_nil (each_singleton hs))
  intro n' ls _ hls
  cases greedy with
  | true => exact c.pure hls.flatten
  | false => exact c.pure hls.reverse.flatten

theorem firstLazily (h : c.JoinsRounds P r r') (merge : Bool) {k : State → m (Option State)}
    {k' : State → m' (Option State)} (hk : c.Mirrors P (Each P) k k') (fuel : Nat) (tried : OffsetSet)
    (hf : Each P n f.level) :
    c.Joins n (Each P) (r.firstLazily merge k fuel tried f) (r'.firstLazily merge k' fuel tried f) := by
  induction fuel generalizing n tried f with
  | zero => exact c.pure each_none
  | succ fuel ih =>
    rw [Rounds.firstLazily, Rounds.firstLazily, h.min_eq]
    generalize hfresh : (if r'.min ≤ f.count then if merge = true then State.distinct tried f.level else f.level
      else []) = fresh
    have hmem : fresh ⊆ f.level := by
      subst hfresh
      split
      · split
        · exact (State.distinct_sublist tried f.level).subset
        · exact List.Subset.refl _
      · exact List.nil_subset _
    apply c.bind (c.firstOf h.lasting hk fun s hs => hf s (hmem hs))
    intro n' answer hn hanswer
    cases answer with
    | some t => exact c.pure hanswer
    | none =>
      apply c.bind (h.advance (h.lasting.each hn hf))
      intro n'' next _ hnext
      cases next with
      | none => exact c.pure each_none
      | some next => exact ih _ (hnext next rfl)

end JoinsRounds

section Branches

variable {c} {α : Type} {Q : Nat → α → Prop} {k : State → m α} {k' : State → m' α} {s : State} {z : α}

theorem move {R : Nat → Option Nat → Prop} {x : m (Option Nat)} {y : m' (Option Nat)} (hx : c.Joins n R x y)
    (hk : ∀ n' j, n ≤ n' → R n' (some j) → c.Joins n' Q (k (s.moveTo j)) (k' (s.moveTo j))) (hz : ∀ n, Q n z) :
    c.Joins n Q
      (x >>= fun
        | none => pure z
        | some j => k (s.moveTo j))
      (y >>= fun
        | none => pure z
        | some j => k' (s.moveTo j)) := by
  apply c.bind hx
  intro n' j hn hj
  cases j with
  | none => exact c.pure (hz n')
  | some j => exact hk n' j hn hj

theorem look {x : m (Option State)} {y : m' (Option State)} (hx : c.Joins n (Each P) x y)
    (hk : ∀ n', n ≤ n' → c.Joins n' Q (k s) (k' s))
    (hback : ∀ n' r, n ≤ n' → P n' r → c.Joins n' Q (k (r.moveTo s.offset)) (k' (r.moveTo s.offset)))
    (hz : ∀ n, Q n z) (negated : Bool) :
    c.Joins n Q
      (x >>= fun
        | some r => if negated then pure z else k (r.moveTo s.offset)
        | none => if negated then k s else pure z)
      (y >>= fun
        | some r => if negated then pure z else k' (r.moveTo s.offset)
        | none => if negated then k' s else pure z) := by
  apply c.bind hx
  intro n' r hn hr
  cases r with
  | none =>
    cases negated with
    | true => exact hk n' hn
    | false => exact c.pure (hz n')
  | some r =>
    cases negated with
    | true => exact c.pure (hz n')
    | false => exact hback n' r hn (hr r rfl)

theorem firstAlt {x x' : m (Option State)} {y y' : m' (Option State)} (h : c.Joins n (Each P) x y)
    (h' : ∀ n', n ≤ n' → c.Joins n' (Each P) x' y') :
    c.Joins n (Each P)
      (x >>= fun
        | some r => pure (some r)
        | none => x')
      (y >>= fun
        | some r => pure (some r)
        | none => y') := by
  apply c.bind h
  intro n' r hn hr
  cases r with
  | none => exact h' n' hn
  | some r => exact c.pure hr

theorem allAlt (hP : Lasting P) {x x' : m (List State)} {y y' : m' (List State)} (h : c.Joins n (Each P) x y)
    (h' : ∀ n', n ≤ n' → c.Joins n' (Each P) x' y') :
    c.Joins n (Each P) (x >>= fun l => x' >>= fun l' => pure (l ++ l'))
      (y >>= fun l => y' >>= fun l' => pure (l ++ l')) := by
  apply c.bind h
  intro n' l hn hl
  apply c.bind (h' n' hn)
  intro n'' l' hn' hl'
  exact c.pure (each_append (hP.each hn' hl) hl')

end Branches

end Coupling

end DialectRegex
