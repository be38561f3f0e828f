namespace DialectRegex

structure CharQueue where
  items : Array Char
  front : Nat
  front_le : front ≤ items.size

namespace CharQueue

def empty : CharQueue := ⟨#[], 0, Nat.zero_le _⟩

def toList (q : CharQueue) : List Char := q.items.toList.drop q.front

def size (q : CharQueue) : Nat := q.items.size - q.front

def get? (q : CharQueue) (i : Nat) : Option Char := q.items[q.front + i]?

def append (q : CharQueue) (cs : List Char) : CharQueue :=
  ⟨q.items.appendList cs, q.front, by
    rw [Array.appendList_eq_append, ← Array.length_toList, Array.toList_appendList, List.length_append]
    exact Nat.le_add_right_of_le q.front_le⟩

def drop (q : CharQueue) (n : Nat) : CharQueue :=
  let front := min (q.front + n) q.items.size
  if q.items.size ≤ 2 * front then ⟨q.items.extract front q.items.size, 0, Nat.zero_le _⟩
  else ⟨q.items, front, Nat.min_le_right _ _⟩

@[simp] theorem toList_empty : empty.toList = [] := rfl

@[simp] theorem length_toList (q : CharQueue) : q.toList.length = q.size := by
  rw [toList, List.length_drop, Array.length_toList, size]

@[simp] theorem getElem?_toList (q : CharQueue) (i : Nat) : q.toList[i]? = q.get? i := by
  rw [toList, List.getElem?_drop, Array.getElem?_toList, get?]

@[simp] theorem toList_append (q : CharQueue) (cs : List Char) : (q.append cs).toList = q.toList ++ cs := by
  change (q.items.appendList cs).toList.drop q.front = _
  rw [Array.appendList_eq_append, Array.toList_appendList]
  exact List.drop_append_of_le_length q.front_le

@[simp] theorem toList_drop (q : CharQueue) (n : Nat) : (q.drop n).toList = q.toList.drop n := by
  have h : q.items.toList.drop (min (q.front + n) q.items.size) = q.toList.drop n := by
    rw [toList, List.drop_drop]
    rcases Nat.le_total (q.front + n) q.items.size with h | h
    · rw [Nat.min_eq_left h]
    · rw [Nat.min_eq_right h, List.drop_of_length_le (by simp), List.drop_of_length_le (by simpa using h)]
  rw [← h, drop]
  split
  · simp [toList, List.take_of_length_le]
  · rfl

end CharQueue

end DialectRegex
