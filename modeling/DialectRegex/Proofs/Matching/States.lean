import DialectRegex.Matching.State

namespace DialectRegex

variable {a b : Nat}

theorem Capture.range?_eq_some {k : Capture} : k.range? = some (a, b) ↔ k = ⟨some a, some b⟩ ∧ a ≤ b := by
  obtain ⟨opened, closed⟩ := k
  cases opened with
  | none => simp [range?]
  | some i =>
    cases closed with
    | none => simp [range?]
    | some j =>
      rw [range?]
      simp only [Option.ite_none_right_eq_some, Option.some.injEq, Prod.mk.injEq, mk.injEq]
      constructor
      · rintro ⟨hle, rfl, rfl⟩
        exact ⟨⟨rfl, rfl⟩, hle⟩
      · rintro ⟨⟨rfl, rfl⟩, hle⟩
        exact ⟨hle, rfl, rfl⟩

namespace State

theorem group?_eq_some {s : State} {g : Nat} :
    s.group? g = some (a, b) ↔ s.captures[g]? = some ⟨some a, some b⟩ ∧ a ≤ b := by
  simp only [group?, Option.bind_eq_some_iff, Capture.range?_eq_some]
  constructor
  · rintro ⟨_, hk, rfl, hle⟩
    exact ⟨hk, hle⟩
  · rintro ⟨hk, hle⟩
    exact ⟨_, hk, rfl, hle⟩

@[simp] theorem captures_enter (s : State) (g h : Nat) :
    (s.enter (some g)).captures[h]? =
      if g = h then s.captures[h]?.map fun k => { k with opened := some s.offset } else s.captures[h]? := by
  rw [enter, List.getElem?_modify]
  split
  · rfl
  · exact congrFun Option.map_id _

@[simp] theorem captures_leave (s : State) (g h : Nat) :
    (s.leave (some g)).captures[h]? =
      if g = h then s.captures[h]?.map fun k => { k with closed := some s.offset } else s.captures[h]? := by
  rw [leave, List.getElem?_modify]
  split
  · rfl
  · exact congrFun Option.map_id _

@[simp] theorem length_enter (s : State) (g : Option Nat) : (s.enter g).captures.length = s.captures.length := by
  cases g <;> simp [enter]

@[simp] theorem length_leave (s : State) (g : Option Nat) : (s.leave g).captures.length = s.captures.length := by
  cases g <;> simp [leave]

theorem length_initial (n origin offset : Nat) : (initial n origin offset).captures.length = n := List.length_replicate

theorem captures_initial {n origin offset g : Nat} {k : Capture} (h : k ∈ (initial n origin offset).captures[g]?) :
    k = {} := by
  rw [initial, Option.mem_def, List.getElem?_replicate] at h
  split at h
  · cases h
    rfl
  · cases h

end State

theorem Match.group?_ofState (s : State) (g : Nat) : (Match.ofState s).group? g = s.group? g := by
  rw [group?, ofState, State.group?, List.getElem?_map]
  cases s.captures[g]? <;> rfl

end DialectRegex
