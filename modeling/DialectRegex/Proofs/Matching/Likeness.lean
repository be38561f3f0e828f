import DialectRegex.Proofs.Matching.Shifted

namespace DialectRegex

def Test.Respects (R : Char → Char → Prop) : Test → Prop
  | literal _ fold => ∀ a b, R a b → ∀ c, sameChar fold a c = sameChar fold b c
  | any newline nul => ∀ a b, R a b → dotAccepts newline nul a = dotAccepts newline nul b
  | named k _ fold => ∀ a b, R a b → k.accepts fold a = k.accepts fold b
  | set s => ∀ a b, R a b → s.accepts a = s.accepts b
  | anchor _ _ => ∀ a b, R a b → (a == '\n') = (b == '\n')
  | boundary _ => ∀ a b, R a b → isWordChar a = isWordChar b
  | backref _ fold => ∀ a b, R a b → ∀ a' b', R a' b' → sameChar fold a a' = sameChar fold b b'

theorem Test.respects_eq (t : Test) : t.Respects Eq := by
  cases t with
  | backref g fold =>
    rintro a _ rfl a' _ rfl
    rfl
  | _ =>
    rintro a _ rfl
    simp

def Setting.begins (c : Setting) (i : Nat) : Bool :=
  if c.flags.anchorOrigin then i == c.origin else i == 0 && c.origin == 0

/-- The text of `c` is like that of `c'` from offset `n` on. -/
structure Setting.Like (R : Char → Char → Prop) (n : Nat) (c c' : Setting) : Prop where
  char : ∀ i, Option.Rel R c.text[i]? c'.text[i + n]?
  notBol : c'.flags.notBol = c.flags.notBol
  notEol : c'.flags.notEol = c.flags.notEol
  begins : ∀ i, c'.begins (i + n) = c.begins i
  outset : 0 < n → c.begins 0 = true

section Reading

variable {R : Char → Char → Prop} {n : Nat} {read read' : Nat → Option Char}
  (hr : ∀ i, Option.Rel R (read i) (read' (i + n)))
include hr

theorem readLiteral_like {fold : Bool} (hR : ∀ a b, R a b → ∀ c, sameChar fold a c = sameChar fold b c)
    (cs : List Char) (i : Nat) :
    readLiteral (m := Id) read' fold cs (i + n) = (readLiteral (m := Id) read fold cs i : Option Nat).map (· + n) := by
  induction cs generalizing i with
  | nil => rfl
  | cons c cs ih =>
    have hnext := ih (i + 1)
    have hi := hr i
    rw [Nat.add_right_comm] at hnext
    rw [readLiteral, readLiteral]
    generalize read i = x at hi ⊢
    generalize read' (i + n) = x' at hi ⊢
    cases hi with
    | none => rfl
    | @some a b hab =>
      change (if sameChar fold b c then readLiteral (m := Id) read' fold cs (i + n + 1) else none) =
        (if sameChar fold a c then readLiteral (m := Id) read fold cs (i + 1) else none : Option Nat).map (· + n)
      rw [hR a b hab]
      split
      · exact hnext
      · rfl

theorem readOne_like {accepts : Char → Bool} (hR : ∀ a b, R a b → accepts a = accepts b) (i : Nat) :
    readOne (m := Id) read' accepts (i + n) = (readOne (m := Id) read accepts i : Option Nat).map (· + n) := by
  have hi := hr i
  rw [readOne, readOne]
  generalize read i = x at hi ⊢
  generalize read' (i + n) = x' at hi ⊢
  cases hi with
  | none => rfl
  | @some a b hab =>
    change (if accepts b then some (i + n + 1) else none) = (if accepts a then some (i + 1) else none).map (· + n)
    rw [hR a b hab]
    split
    · exact congrArg some (Nat.add_right_comm i n 1)
    · rfl

theorem readAgain_like {fold : Bool} (hR : ∀ a b, R a b → ∀ a' b', R a' b' → sameChar fold a a' = sameChar fold b b')
    (k start i : Nat) :
    readAgain (m := Id) read' fold k (start + n) (i + n) =
      (readAgain (m := Id) read fold k start i : Option Nat).map (· + n) := by
  induction k generalizing start i with
  | zero => rfl
  | succ k ih =>
    have hnext := ih (start + 1) (i + 1)
    have hstart := hr start
    have hi := hr i
    rw [Nat.add_right_comm start, Nat.add_right_comm i] at hnext
    rw [readAgain, readAgain]
    generalize read start = x at hstart ⊢
    generalize read' (start + n) = x' at hstart ⊢
    generalize read i = y at hi ⊢
    generalize read' (i + n) = y' at hi ⊢
    cases hstart with
    | none => rfl
    | @some a b hab =>
      cases hi with
      | none => rfl
      | @some a' b' hab' =>
        change (if sameChar fold b b' then readAgain (m := Id) read' fold k (start + n + 1) (i + n + 1) else none) =
          (if sameChar fold a a' then readAgain (m := Id) read fold k (start + 1) (i + 1) else none : Option Nat).map
            (· + n)
        rw [hR a b hab a' b' hab']
        split
        · exact hnext
        · rfl

end Reading

namespace Setting.Like

variable {R : Char → Char → Prop} {n : Nat} {c c' : Setting} (hc : c.Like R n c') {read read' : Nat → Option Char}
  (hr : ∀ i, read i = c.text[i]?) (hr' : ∀ i, read' i = c'.text[i]?)
include hc

theorem any_eq {accepts : Char → Bool} (hR : ∀ a b, R a b → accepts a = accepts b) (i : Nat) :
    c'.text[i + n]?.any accepts = c.text[i]?.any accepts := by
  have hi := hc.char i
  generalize c.text[i]? = x at hi ⊢
  generalize c'.text[i + n]? = x' at hi ⊢
  cases hi with
  | none => rfl
  | some hab => exact (hR _ _ hab).symm

theorem isNone_eq (i : Nat) : c'.text[i + n]?.isNone = c.text[i]?.isNone := by
  have hi := hc.char i
  generalize c.text[i]? = x at hi ⊢
  generalize c'.text[i + n]? = x' at hi ⊢
  cases hi <;> rfl

include hr hr'

theorem atEdge (hR : ∀ a b, R a b → (a == '\n') = (b == '\n')) (multiline : Bool) {s : State}
    (hs : s.origin = c.origin) (edge : Edge) :
    atEdge (m := Id) read' c'.flags multiline (s.shift n c'.origin) edge =
      atEdge (m := Id) read c.flags multiline s edge := by
  have hnewline (x : Option Char) : (x == some '\n') = x.any (· == '\n') := by cases x <;> rfl
  cases edge with
  | start =>
    have hbegins : c.begins s.offset = if c.flags.anchorOrigin then s.offset == s.origin
        else s.offset == 0 && s.origin == 0 := by
      rw [Setting.begins, hs]
    have hbegins' := (hc.begins s.offset).trans hbegins
    rw [Setting.begins] at hbegins'
    rw [atEdge_start hr', atEdge_start hr, hc.notBol, State.shift_offset, hnewline, hnewline]
    dsimp only [State.shift]
    rw [hbegins', ← hbegins]
    -- What stands before the part can be looked at only at its beginning, where the anchor holds anyway.
    rcases Nat.eq_zero_or_pos s.offset with hzero | hpos
    · rcases Nat.eq_zero_or_pos n with rfl | hn
      · simp [hzero]
      · rw [hzero, hc.outset hn, Bool.true_or, Bool.true_or]
    · have hsub : s.offset + n - 1 = s.offset - 1 + n := by omega
      rw [hsub, hc.any_eq hR, decide_eq_true hpos, decide_eq_true (Nat.add_pos_left hpos n)]
  | stop =>
    change (!c'.flags.notEol && (read' (s.offset + n)).isNone || multiline && read' (s.offset + n) == some '\n') =
      (!c.flags.notEol && (read s.offset).isNone || multiline && read s.offset == some '\n')
    rw [hr, hr', hc.notEol, hc.isNone_eq, hnewline, hnewline, hc.any_eq hR]

theorem atBoundary (hR : ∀ a b, R a b → isWordChar a = isWordChar b)
    (hn : 0 < n → c'.text[n - 1]?.any isWordChar = false) (b : Boundary) (i : Nat) :
    atBoundary (m := Id) read' b (i + n) = atBoundary (m := Id) read b i := by
  have hword (i : Nat) : isWordAt (m := Id) read' (i + n) = isWordAt (m := Id) read i := by
    change (read' (i + n)).any isWordChar = (read i).any isWordChar
    rw [hr, hr', hc.any_eq hR]
  have hbefore : (if 0 < i + n then isWordAt (m := Id) read' (i + n - 1) else false : Bool) =
      if 0 < i then isWordAt (m := Id) read (i - 1) else false := by
    rcases Nat.eq_zero_or_pos i with rfl | hpos
    · rw [Nat.zero_add, if_neg (Nat.lt_irrefl 0)]
      split
      · next hpos =>
        change (read' (n - 1)).any isWordChar = false
        rw [hr', hn hpos]
      · rfl
    · have hsub : i + n - 1 = i - 1 + n := by omega
      rw [if_pos hpos, if_pos (Nat.add_pos_left hpos n), hsub, hword]
  change b.holds (if 0 < i + n then isWordAt (m := Id) read' (i + n - 1) else false)
      (isWordAt (m := Id) read' (i + n)) =
    b.holds (if 0 < i then isWordAt (m := Id) read (i - 1) else false) (isWordAt (m := Id) read i)
  rw [hbefore, hword]

end Setting.Like

theorem Test.shifts_of_like {R : Char → Char → Prop} {n i : Nat} {c c' : Setting} {e e' : Search Id} (he : e.Sees c)
    (he' : e'.Sees c') (hc : c.Like R n c') {t : Test} (ht : t.Respects R)
    (hb : ∀ b, t = .boundary b → 0 < n → c'.text[n - 1]?.any isWordChar = false) : t.Shifts n c'.origin e e' c i := by
  intro s hs
  have hread (i : Nat) : Option.Rel R (e.input.charAt i) (e'.input.charAt (i + n)) := by
    rw [he.charAt, he'.charAt]
    exact hc.char i
  have hstay (b : Bool) : (if b then some (s.offset + n) else none) =
      (if b then some s.offset else none).map (· + n) := by
    cases b <;> rfl
  rw [moves?, moves?, he.flags, he'.flags]
  cases t with
  | literal cs fold => exact readLiteral_like hread ht cs s.offset
  | any newline nul => exact readOne_like hread ht s.offset
  | named k negated fold =>
    apply readOne_like hread
    intro a b hab
    rw [ht a b hab]
  | set cs => exact readOne_like hread ht s.offset
  | anchor edge multiline =>
    rw [run, run, hc.atEdge he.charAt he'.charAt ht multiline hs.origin edge]
    exact hstay (atEdge (m := Id) e.input.charAt c.flags multiline s edge)
  | boundary b =>
    rw [run, run, State.shift_offset, hc.atBoundary he.charAt he'.charAt ht (hb b rfl)]
    exact hstay (atBoundary (m := Id) e.input.charAt b s.offset)
  | backref g fold =>
    rw [run, run, State.group?_shift]
    cases s.group? g with
    | none => rfl
    | some ab =>
      obtain ⟨a, b⟩ := ab
      dsimp only [Option.map_some]
      rw [Nat.add_sub_add_right]
      exact readAgain_like hread ht (b - a) a s.offset

end DialectRegex
