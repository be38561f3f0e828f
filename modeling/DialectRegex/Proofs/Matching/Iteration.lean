import DialectRegex.Matches
import DialectRegex.Proofs.Matching.Captures

namespace DialectRegex

namespace Match

theorem resume_eq (m : Match) : m.resume = if m.isEmpty then m.stop + 1 else m.stop := rfl

theorem stop_le_resume (m : Match) : m.stop ≤ m.resume := by
  rw [resume]
  split <;> omega

theorem stop_lt_resume (m : Match) (h : m.start = m.stop) : m.stop < m.resume := by
  have hempty : m.isEmpty = true := decide_eq_true (Nat.le_of_eq h.symm)
  rw [resume, if_pos hempty]
  exact Nat.lt_succ_self m.stop

theorem resume_le (m : Match) : m.resume ≤ m.stop + 1 := by
  rw [resume]
  split <;> omega

end Match

theorem Regex.findAt_resume {r : Regex} {source : String} {d : Dialect} {o : Options} (hr : compile source d o = .ok r)
    {input : Input Id} {text : List Char} (h : input.Reads text) {flags : SearchFlags} {offset : Nat} {found : Match}
    (hf : r.findAt flags input offset = some found) : offset ≤ text.length ∧ offset < found.resume := by
  obtain ⟨i, s, hi, hlength, hrun, rfl⟩ := findAt_run h hf
  have he := search_sees r flags h offset
  rw [run_eq] at hrun
  have hmem := List.mem_of_mem_head? hrun
  obtain ⟨hstart, hstop⟩ := ofState_range hr he hmem
  have hadv := Pattern.ends_advances he r.whole _ s hmem
  simp only [Advances, State.initial] at hadv
  have hle := (Match.ofState s).stop_le_resume
  have hlt := (Match.ofState s).stop_lt_resume
  rw [hstart, hstop] at hlt
  rw [hstop] at hle
  exact ⟨by omega, by omega⟩

namespace Matches

variable {it : Matches} {input : Input Id} {text : List Char}

theorem next_unknown (hu : it.upcoming = .unknown) :
    it.next (m := Id) input =
      match (it.regex.findAt it.flags input it.offset : Option Match) with
      | some found => (some found, { it with offset := found.resume, upcoming := .unknown })
      | none => (none, { it with upcoming := .exhausted }) := by
  rw [next, look, hu]
  generalize it.regex.findAt (m := Id) it.flags input it.offset = found
  cases found <;> rfl

theorem next_exhausted (hu : it.upcoming = .exhausted) : it.next (m := Id) input = (none, it) := by
  obtain ⟨regex, flags, offset, upcoming⟩ := it
  obtain rfl : upcoming = .exhausted := hu
  rfl

def listing (input : Input Id) : Nat → Matches → List Match
  | 0, _ => []
  | fuel + 1, it =>
    match (it.next (m := Id) input : Option Match × Matches) with
    | (none, _) => []
    | (some found, it) => found :: listing input fuel it

theorem listing_unknown (hu : it.upcoming = .unknown) (fuel : Nat) :
    listing input (fuel + 1) it =
      match (it.regex.findAt it.flags input it.offset : Option Match) with
      | some found => found :: listing input fuel { it with offset := found.resume, upcoming := .unknown }
      | none => [] := by
  rw [listing, next_unknown hu]
  cases (it.regex.findAt it.flags input it.offset : Option Match) <;> rfl

theorem collect_eq (fuel : Nat) (found : List Match) (it : Matches) :
    collect (m := Id) input fuel found it = found.reverse ++ listing input fuel it := by
  induction fuel generalizing found it with
  | zero => exact (List.append_nil _).symm
  | succ fuel ih =>
    rw [collect, listing]
    generalize it.next (m := Id) input = next
    obtain ⟨_ | m, it'⟩ := next
    · exact (List.append_nil _).symm
    · have h := ih (m :: found) it'
      rw [List.reverse_cons, List.append_assoc] at h
      exact h

theorem listing_exhausted (hu : it.upcoming = .exhausted) (fuel : Nat) : listing input fuel it = [] := by
  cases fuel with
  | zero => rfl
  | succ fuel => rw [listing, next_exhausted hu]

theorem exists_findAt_of_mem_listing {r : Regex} {flags : SearchFlags} {m : Match} {fuel offset : Nat}
    (h : m ∈ listing input fuel (.start r offset flags)) :
    ∃ offset, (r.findAt flags input offset : Option Match) = some m := by
  induction fuel generalizing offset with
  | zero => cases h
  | succ fuel ih =>
    rw [listing_unknown rfl] at h
    dsimp only [start] at h
    cases hf : (r.findAt flags input offset : Option Match) with
    | none =>
      rw [hf] at h
      cases h
    | some found =>
      rw [hf] at h
      rcases List.mem_cons.mp h with rfl | h
      · exact ⟨offset, hf⟩
      · exact ih h

theorem listing_congr {r r' : Regex} {input' : Input Id} {flags : SearchFlags}
    (h : ∀ offset, (r'.findAt flags input' offset : Option Match) = r.findAt flags input offset) (fuel : Nat)
    (offset : Nat) : listing input' fuel (.start r' offset flags) = listing input fuel (.start r offset flags) := by
  induction fuel generalizing offset with
  | zero => rfl
  | succ fuel ih =>
    rw [listing_unknown rfl, listing_unknown rfl]
    dsimp only [start]
    rw [h]
    cases (r.findAt flags input offset : Option Match) with
    | none => rfl
    | some found => exact congrArg (found :: ·) (ih found.resume)

variable {source : String} {d : Dialect} {o : Options}

theorem fuel_resume (hr : Regex.compile source d o = .ok it.regex) (h : input.Reads text) {found : Match}
    (hf : it.regex.findAt it.flags input it.offset = some found) (upcoming : Upcoming) :
    fuel { it with offset := found.resume, upcoming } text.length < it.fuel text.length := by
  obtain ⟨hle, hlt⟩ := Regex.findAt_resume hr h hf
  rw [fuel, fuel]
  dsimp only
  omega

theorem listing_fuel (hr : Regex.compile source d o = .ok it.regex) (h : input.Reads text)
    (hu : it.upcoming = .unknown) {a b : Nat} (ha : it.fuel text.length ≤ a) (hb : it.fuel text.length ≤ b) :
    listing input a it = listing input b it := by
  induction a generalizing it b with
  | zero => cases ha
  | succ a ih =>
    cases b with
    | zero => cases hb
    | succ b =>
      rw [listing_unknown hu, listing_unknown hu]
      cases hf : (it.regex.findAt it.flags input it.offset : Option Match) with
      | none => rfl
      | some found =>
        have hless := fuel_resume hr h hf .unknown
        let rest : Matches := { it with offset := found.resume, upcoming := .unknown }
        have hrest : listing input a rest = listing input b rest := by
          apply ih
          · exact hr
          · rfl
          · exact Nat.le_of_lt_succ (Nat.lt_of_lt_of_le hless ha)
          · exact Nat.le_of_lt_succ (Nat.lt_of_lt_of_le hless hb)
        exact congrArg (found :: ·) hrest

theorem listing_next (hr : Regex.compile source d o = .ok it.regex) (h : input.Reads text)
    (hi : it.upcoming = .unknown ∨ it.upcoming = .exhausted) {fuel : Nat}
    (hf : it.upcoming = .unknown → it.fuel text.length ≤ fuel) {found : Option Match} {it' : Matches}
    (hn : it.next (m := Id) input = (found, it')) :
    (listing input fuel it)[0]? = found ∧
      ∃ fuel', (it'.upcoming = .unknown → it'.fuel text.length ≤ fuel') ∧
        ∀ k, (listing input fuel it)[k + 1]? = (listing input fuel' it')[k]? := by
  rcases hi with hu | hu
  · cases fuel with
    | zero => cases hf hu
    | succ fuel =>
      have hle := hf hu
      rw [listing, hn]
      rw [next_unknown hu] at hn
      cases ha : (it.regex.findAt it.flags input it.offset : Option Match) with
      | none =>
        rw [ha] at hn
        cases hn
        refine ⟨rfl, 0, ?_, fun k => rfl⟩
        intro hu'
        cases hu'
      | some m =>
        have hless := fuel_resume hr h ha .unknown
        rw [ha] at hn
        cases hn
        exact ⟨rfl, fuel, fun _ => by omega, fun k => rfl⟩
  · rw [next_exhausted hu] at hn
    cases hn
    rw [listing_exhausted hu]
    exact ⟨rfl, fuel, hf, fun k => by rw [listing_exhausted hu]; rfl⟩

end Matches

theorem Regex.findAll_congr {r r' : Regex} {h h' : Haystack} (hl : h'.length = h.length)
    (hf : ∀ offset, (r'.findAt {} h'.input offset : Option Match) = r.findAt {} h.input offset) :
    r'.findAll h' = r.findAll h := by
  have hlimit : h'.input.limit = h.input.limit := hl
  rw [findAll, findAll, Matches.toList, Matches.toList, Matches.collect_eq, Matches.collect_eq, hlimit]
  exact congrArg _ (Matches.listing_congr hf _ 0)

end DialectRegex
