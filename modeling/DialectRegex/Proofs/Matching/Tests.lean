import DialectRegex.Proofs.Matching.Ends
import DialectRegex.Proofs.Pattern.Spans

namespace DialectRegex

structure Search.Sees (e : Search Id) (c : Setting) : Prop where
  charAt : ∀ i, e.input.charAt i = c.text[i]?
  limit : e.input.limit = c.text.length
  flags : e.flags = c.flags

theorem Advances.succ {c : Setting} {i : Nat} {a : Char} (h : c.text[i]? = some a) :
    Advances c.text.length i (i + 1) := by
  obtain ⟨hi, _⟩ := List.getElem?_eq_some_iff.mp h
  exact .inr ⟨Nat.lt_succ_self i, hi⟩

variable {e : Search Id} {c : Setting}

theorem stay_eq_some (b : Bool) (i j : Nat) : (if b then some i else none) = some j ↔ i = j ∧ b = true := by
  cases b <;> simp

theorem anchor_run (read : Nat → Option Char) (edge : Edge) (multiline : Bool) (s : State) (j : Nat) :
    Test.run (m := Id) read c.flags s (.anchor edge multiline) = some j ↔
      s.offset = j ∧ (atEdge (m := Id) read c.flags multiline s edge : Bool) = true := by
  rw [Test.run]
  exact stay_eq_some (atEdge (m := Id) read c.flags multiline s edge) s.offset j

theorem boundary_run (read : Nat → Option Char) (b : Boundary) (s : State) (j : Nat) :
    Test.run (m := Id) read c.flags s (.boundary b) = some j ↔
      s.offset = j ∧ (atBoundary (m := Id) read b s.offset : Bool) = true := by
  rw [Test.run]
  exact stay_eq_some (atBoundary (m := Id) read b s.offset) s.offset j

section Reading

variable {read : Nat → Option Char} (hr : ∀ i, read i = c.text[i]?)
include hr

theorem readLiteral_cons (fold : Bool) (a : Char) (cs : List Char) (i : Nat) :
    readLiteral (m := Id) read fold (a :: cs) i =
      match c.text[i]? with
      | none => none
      | some h => if sameChar fold h a then readLiteral (m := Id) read fold cs (i + 1) else none := by
  rw [readLiteral]
  change (match read i with | none => _ | some h => _) = _
  rw [hr i]
  cases c.text[i]? <;> rfl

theorem readLiteral_eq_some (fold : Bool) (cs : List Char) (i j : Nat) :
    readLiteral (m := Id) read fold cs i = some j ↔
      j = i + cs.length ∧ List.Forall₂ (fun a b => sameChar fold a b = true) ((c.text.drop i).take cs.length) cs := by
  induction cs generalizing i with
  | nil =>
    change some i = some j ↔ _
    rw [Option.some_inj, eq_comm]
    simp
  | cons a cs ih =>
    rw [readLiteral_cons hr]
    cases hc : c.text.drop i with
    | nil =>
      have hnone : c.text[i]? = none := by rw [← List.head?_drop, hc]; rfl
      rw [hnone]
      simp
    | cons h rest =>
      have hsome : c.text[i]? = some h := by rw [← List.head?_drop, hc]; rfl
      have hdrop : c.text.drop (i + 1) = rest := by rw [← List.tail_drop, hc]; rfl
      rw [hsome, List.length_cons, List.take_succ_cons, List.forall₂_cons]
      dsimp only
      by_cases hs : sameChar fold h a = true
      · rw [if_pos hs, ih, hdrop, Nat.add_right_comm, Nat.add_assoc]
        simp [hs]
      · rw [if_neg hs]
        simp [hs]

theorem readLiteral_advances {fold : Bool} {cs : List Char} {i j : Nat}
    (h : readLiteral (m := Id) read fold cs i = some j) : Advances c.text.length i j := by
  induction cs generalizing i with
  | nil =>
    cases h
    exact .inl rfl
  | cons a cs ih =>
    rw [readLiteral_cons hr] at h
    split at h
    · cases h
    · next hsome =>
      split at h
      · exact (Advances.succ hsome).trans (ih h)
      · cases h

theorem readOne_eq_some (accepts : Char → Bool) (i j : Nat) :
    readOne (m := Id) read accepts i = some j ↔ c.One accepts i j := by
  rw [readOne]
  change (match read i with | none => _ | some a => _) = some j ↔ _
  rw [hr i, Setting.One]
  cases hc : c.text[i]? with
  | none => simp [pure]
  | some a =>
    change (if accepts a = true then some (i + 1) else none) = some j ↔ _
    by_cases ha : accepts a = true
    · rw [if_pos ha, Option.some_inj, eq_comm]
      simp [ha]
    · simp [ha]

theorem readAgain_advances {fold : Bool} {n a i j : Nat} (h : readAgain (m := Id) read fold n a i = some j) :
    Advances c.text.length i j := by
  induction n generalizing a i with
  | zero =>
    cases h
    exact .inl rfl
  | succ n ih =>
    rw [readAgain] at h
    change (match read a with
      | none => none
      | some x => match read i with
        | none => none
        | some y => if sameChar fold x y then readAgain (m := Id) read fold n (a + 1) (i + 1) else none) = some j at h
    split at h
    · cases h
    · split at h
      · cases h
      · next hsome =>
        split at h
        · rw [hr i] at hsome
          exact (Advances.succ hsome).trans (ih h)
        · cases h

theorem atEdge_start (multiline : Bool) (s : State) :
    atEdge (m := Id) read c.flags multiline s .start =
      (!c.flags.notBol &&
        ((if c.flags.anchorOrigin then s.offset == s.origin else s.offset == 0 && s.origin == 0) ||
          multiline && decide (0 < s.offset) && c.text[s.offset - 1]? == some '\n') : Bool) := by
  rw [atEdge, ← hr]
  cases c.flags.notBol with
  | true => rfl
  | false =>
    cases c.flags.anchorOrigin with
    | true => cases s.offset == s.origin <;> cases multiline && decide (0 < s.offset) <;> rfl
    | false =>
      cases s.offset == 0 <;> cases s.origin == 0 <;> cases multiline && decide (0 < s.offset) <;> rfl

theorem atEdge_iff (multiline : Bool) (s : State) (ho : s.origin = c.origin) (edge : Edge) :
    (atEdge (m := Id) read c.flags multiline s edge : Bool) = true ↔ c.EdgeAt multiline edge s.offset := by
  cases edge with
  | start =>
    rw [atEdge_start hr, Setting.EdgeAt, ← ho]
    change (_ && _ : Bool) = true ↔ _
    cases c.flags.anchorOrigin <;> simp [and_assoc]
  | stop =>
    change (!c.flags.notEol && (read s.offset).isNone || multiline && read s.offset == some '\n') = true ↔ _
    rw [hr]
    simp [Setting.EdgeAt]

theorem isWordAt_iff (i : Nat) : (isWordAt (m := Id) read i : Bool) = true ↔ c.WordAt i := by
  change (read i).any isWordChar = true ↔ _
  rw [hr, Option.any_eq_true]
  rfl

theorem atBoundary_iff (b : Boundary) (i : Nat) :
    (atBoundary (m := Id) read b i : Bool) = true ↔ c.BoundaryAt b i := by
  have hafter := isWordAt_iff hr i
  have hbefore : ((if 0 < i then isWordAt (m := Id) read (i - 1) else false) : Bool) = true ↔
      0 < i ∧ c.WordAt (i - 1) := by
    by_cases hi : 0 < i
    · rw [if_pos hi, isWordAt_iff hr]
      exact (and_iff_right hi).symm
    · simp [hi]
  change b.holds (if 0 < i then isWordAt (m := Id) read (i - 1) else false) (isWordAt (m := Id) read i) = true ↔ _
  generalize ((if 0 < i then isWordAt (m := Id) read (i - 1) else false) : Bool) = before at *
  generalize (isWordAt (m := Id) read i : Bool) = after at *
  cases b <;> simp only [Setting.BoundaryAt, ← hafter, ← hbefore] <;>
    cases before <;> cases after <;> simp [Boundary.holds]

end Reading

namespace Test

theorem moves?_eq_some (he : e.Sees c) {t : Test} (hb : (Pattern.test t).hasBackref = false) {s : State}
    (ho : s.origin = c.origin) (j : Nat) : t.moves? e s = some j ↔ t.Spans c s.offset j := by
  rw [moves?, he.flags]
  cases t with
  | literal cs fold => exact readLiteral_eq_some he.charAt fold cs s.offset j
  | any newline nul => exact readOne_eq_some he.charAt _ s.offset j
  | named k negated fold => exact readOne_eq_some he.charAt _ s.offset j
  | set cs => exact readOne_eq_some he.charAt _ s.offset j
  | anchor edge multiline =>
    apply (anchor_run e.input.charAt edge multiline s j).trans
    exact and_congr_right fun _ => atEdge_iff he.charAt multiline s ho edge
  | boundary b =>
    exact (boundary_run e.input.charAt b s j).trans (and_congr_right fun _ => atBoundary_iff he.charAt b s.offset)
  | backref g fold => cases hb

theorem moves?_advances (he : e.Sees c) {t : Test} {s : State} {j : Nat} (h : t.moves? e s = some j) :
    Advances c.text.length s.offset j := by
  have hone {accepts : Char → Bool} (h : c.One accepts s.offset j) : Advances c.text.length s.offset j := by
    obtain ⟨rfl, a, ha, _⟩ := h
    exact Advances.succ ha
  cases t with
  | literal cs fold => exact readLiteral_advances he.charAt h
  | any newline nul => exact hone ((readOne_eq_some he.charAt _ s.offset j).mp h)
  | named k negated fold => exact hone ((readOne_eq_some he.charAt _ s.offset j).mp h)
  | set cs => exact hone ((readOne_eq_some he.charAt _ s.offset j).mp h)
  | anchor edge multiline =>
    rw [moves?, he.flags] at h
    exact .inl ((anchor_run e.input.charAt edge multiline s j).mp h).1
  | boundary b =>
    rw [moves?, he.flags] at h
    exact .inl ((boundary_run e.input.charAt b s j).mp h).1
  | backref g fold =>
    rw [moves?, Test.run] at h
    cases hg : s.group? g with
    | none => rw [hg] at h; cases h
    | some ab => rw [hg] at h; exact readAgain_advances he.charAt h

end Test

end DialectRegex
