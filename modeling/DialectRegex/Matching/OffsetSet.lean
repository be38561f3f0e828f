namespace DialectRegex

/-- A finite set of offsets, as a binary tree: the root is for 0, the left branch holds `n` for `2 * n + 1`
and the right branch `n` for `2 * n + 2`. -/
inductive OffsetSet where
  | empty
  | node (zero : Bool) (left right : OffsetSet)
deriving DecidableEq, Repr

namespace OffsetSet

def contains : OffsetSet → Nat → Bool
  | empty, _ => false
  | node zero _ _, 0 => zero
  | node _ left right, n + 1 => if n % 2 = 0 then left.contains (n / 2) else right.contains (n / 2)

def insertUpTo : Nat → OffsetSet → Nat → OffsetSet
  | _, empty, 0 => node true empty empty
  | _, node _ left right, 0 => node true left right
  | 0, s, _ => s
  | fuel + 1, empty, n + 1 =>
    if n % 2 = 0 then node false (insertUpTo fuel empty (n / 2)) empty
    else node false empty (insertUpTo fuel empty (n / 2))
  | fuel + 1, node zero left right, n + 1 =>
    if n % 2 = 0 then node zero (insertUpTo fuel left (n / 2)) right
    else node zero left (insertUpTo fuel right (n / 2))

def insert (s : OffsetSet) (n : Nat) : OffsetSet := insertUpTo n s n

def hasZero : OffsetSet → Bool
  | empty => false
  | node zero _ _ => zero

def left : OffsetSet → OffsetSet
  | empty => empty
  | node _ left _ => left

def right : OffsetSet → OffsetSet
  | empty => empty
  | node _ _ right => right

def ofList (l : List Nat) : OffsetSet := l.foldl insert empty

@[simp] theorem contains_empty (n : Nat) : empty.contains n = false := rfl

theorem contains_zero (s : OffsetSet) : s.contains 0 = s.hasZero := by
  cases s <;> rfl

theorem contains_succ (s : OffsetSet) (n : Nat) :
    s.contains (n + 1) = if n % 2 = 0 then s.left.contains (n / 2) else s.right.contains (n / 2) := by
  cases s with
  | empty => simp only [contains_empty, left, right, ite_self]
  | node => rfl

theorem insertUpTo_zero (fuel : Nat) (s : OffsetSet) : insertUpTo fuel s 0 = node true s.left s.right := by
  cases s <;> cases fuel <;> rfl

theorem insertUpTo_succ (fuel : Nat) (s : OffsetSet) (n : Nat) :
    insertUpTo (fuel + 1) s (n + 1) =
      if n % 2 = 0 then node s.hasZero (insertUpTo fuel s.left (n / 2)) s.right
      else node s.hasZero s.left (insertUpTo fuel s.right (n / 2)) := by
  cases s <;> rfl

theorem contains_insertUpTo {fuel n : Nat} (h : n ≤ fuel) (s : OffsetSet) (m : Nat) :
    (insertUpTo fuel s n).contains m = (decide (n = m) || s.contains m) := by
  induction fuel generalizing n s m with
  | zero =>
    obtain rfl := Nat.le_zero.mp h
    cases m with
    | zero => rw [insertUpTo_zero]; rfl
    | succ m => simp only [insertUpTo_zero, contains_succ, left, right, decide_eq_false (Nat.zero_ne_add_one m), Bool.false_or]
  | succ fuel ih =>
    cases n with
    | zero =>
      cases m with
      | zero => rw [insertUpTo_zero]; rfl
      | succ m =>
        simp only [insertUpTo_zero, contains_succ, left, right, decide_eq_false (Nat.zero_ne_add_one m), Bool.false_or]
    | succ n =>
      have hn : n / 2 ≤ fuel := by omega
      cases m with
      | zero =>
        rw [insertUpTo_succ, decide_eq_false (Nat.succ_ne_zero n), Bool.false_or]
        split <;> simp only [contains_zero, hasZero]
      | succ m =>
        rw [insertUpTo_succ, contains_succ s]
        by_cases hp : n % 2 = 0 <;> by_cases hq : m % 2 = 0
        · have he : (n / 2 = m / 2) = (n + 1 = m + 1) := by apply propext; omega
          simp only [hp, hq, if_true, contains_succ, left, ih hn, he]
        · have he : n + 1 ≠ m + 1 := by omega
          simp only [hp, hq, if_true, if_false, contains_succ, right, decide_eq_false he, Bool.false_or]
        · have he : n + 1 ≠ m + 1 := by omega
          simp only [hp, hq, if_true, if_false, contains_succ, left, decide_eq_false he, Bool.false_or]
        · have he : (n / 2 = m / 2) = (n + 1 = m + 1) := by apply propext; omega
          simp only [hp, hq, if_false, contains_succ, right, ih hn, he]

@[simp] theorem contains_insert (s : OffsetSet) (i j : Nat) :
    (s.insert i).contains j = (decide (i = j) || s.contains j) :=
  contains_insertUpTo (Nat.le_refl i) s j

theorem contains_foldl_insert (l : List Nat) (s : OffsetSet) (j : Nat) :
    (l.foldl insert s).contains j = (decide (j ∈ l) || s.contains j) := by
  induction l generalizing s with
  | nil => simp
  | cons i l ih =>
    rw [List.foldl_cons, ih, contains_insert, Bool.eq_iff_iff]
    simp only [Bool.or_eq_true, decide_eq_true_eq, List.mem_cons]
    grind

theorem contains_ofList (l : List Nat) (j : Nat) : (ofList l).contains j = decide (j ∈ l) := by
  rw [ofList, contains_foldl_insert]
  simp

end OffsetSet

end DialectRegex
