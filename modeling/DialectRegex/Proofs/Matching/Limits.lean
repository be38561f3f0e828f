import DialectRegex.Proofs.Matching.Frontiers
import DialectRegex.Proofs.Matching.Searches

namespace DialectRegex

namespace Rounds

variable {r : Rounds Id}

theorem outcomes_fuel {n : Nat} {s : State} (h : r.Keeps fun t => Advances n s.offset t.offset) (greedy : Bool)
    {a b : Nat} (ha : n + 3 ≤ a) (hb : n + 3 ≤ b) : r.outcomes a greedy s = r.outcomes b greedy s := by
  obtain ⟨fs, hfs, hlen⟩ := exists_course_initial h (fun t ht => ht.mem) (.inl rfl)
  have hcard := Finset.card_insert_le s.offset (Finset.range (n + 1))
  rw [Finset.card_range] at hcard
  have hfuel : fs.length ≤ n + 3 := by omega
  rw [outcomes, outcomes, hfs.visited (hfuel.trans ha), hfs.visited (hfuel.trans hb)]

end Rounds

def Input.ofList (text : List Char) : Input Id := .ofText (text[·]?) text.length

theorem Input.ofList_reads (text : List Char) : (ofList text).Reads text := ⟨fun _ => rfl, rfl⟩

def Input.upTo (input : Input Id) (limit : Nat) : Input Id := { input with limit }

def Search.upTo (e : Search Id) (limit : Nat) : Search Id := { e with input := e.input.upTo limit }

theorem Search.outcomes_fuel {e : Search Id} {c : Setting} (he : e.Sees c) {fuel : Nat} (hf : e.fuel ≤ fuel)
    (p : Pattern) (lo : Nat) (hi : Option Nat) (greedy : Bool) (s : State) :
    (e.rounds (m := Id) (p.ends e) lo hi).outcomes fuel greedy s =
      (e.rounds (m := Id) (p.ends e) lo hi).outcomes e.fuel greedy s := by
  rw [Search.fuel, he.limit] at hf ⊢
  exact Rounds.outcomes_fuel (Pattern.rounds_advance he p lo hi s.offset) greedy hf (Nat.le_refl _)

theorem Pattern.ends_upTo {e : Search Id} {c : Setting} (he : e.Sees c) {limit : Nat} (hl : c.text.length ≤ limit)
    (p : Pattern) : p.ends (e.upTo limit) = p.ends e := by
  induction p with
  | empty =>
    funext s
    rw [ends_empty, ends_empty]
  | test t =>
    funext s
    rw [ends_test, ends_test]
    rfl
  | seq p q hp hq =>
    funext s
    rw [ends_seq, ends_seq, hp, hq]
  | alt p q hp hq =>
    funext s
    rw [ends_alt, ends_alt, hp, hq]
  | group g p hp =>
    funext s
    rw [ends_group, ends_group, hp]
  | repeated p lo hi greedy hp =>
    funext s
    have hfuel : e.fuel ≤ (e.upTo limit).fuel := by
      rw [Search.fuel, he.limit]
      exact Nat.add_le_add_right hl 3
    rw [ends_repeated, ends_repeated, hp, ← Search.outcomes_fuel he hfuel]
    rfl
  | look negated p hp =>
    funext s
    rw [ends_look, ends_look, hp]

namespace Regex

variable {r : Regex} {flags : SearchFlags} {input : Input Id} {text : List Char} {limit : Nat}

theorem run_upTo (h : input.Reads text) (hl : text.length ≤ limit) (p : Pattern) (origin offset : Nat) :
    r.run p flags (input.upTo limit) origin offset = r.run p flags input origin offset := by
  have hends := Pattern.ends_upTo (search_sees r flags h origin) hl p
  rw [run_eq, run_eq, ← hends]
  rfl

theorem matchAt_upTo (h : input.Reads text) (hl : text.length ≤ limit) (offset : Nat) :
    r.matchAt flags (input.upTo limit) offset = r.matchAt flags input offset := by
  have hpast : pastEnd (m := Id) (input.upTo limit) offset = pastEnd (m := Id) input offset := rfl
  rw [matchAt, matchAt, hpast, run_upTo h hl]

theorem findFrom_upTo (h : input.Reads text) (hl : text.length ≤ limit) (origin : Nat) {start a b : Nat}
    (hs : start ≤ text.length) (ha : text.length < start + a) (hb : text.length < start + b) :
    r.findFrom flags (input.upTo limit) origin a start = r.findFrom flags input origin b start := by
  induction a generalizing start b with
  | zero => omega
  | succ a ih =>
    obtain ⟨b, rfl⟩ : ∃ b', b = b' + 1 := ⟨b - 1, by omega⟩
    have hchar : (input.upTo limit).charAt start = text[start]? := h.charAt start
    rw [findFrom, findFrom, run_upTo h hl, hchar, h.charAt]
    cases (r.run r.whole flags input origin start : Option State) with
    | some s => rfl
    | none =>
      cases hc : text[start]? with
      | none => rfl
      | some c =>
        have := (List.getElem?_eq_some_iff.mp hc).1
        exact ih (by omega) (by omega) (by omega)

theorem findAt_upTo (h : input.Reads text) (hl : text.length ≤ limit) (offset : Nat) :
    r.findAt flags (input.upTo limit) offset = r.findAt flags input offset := by
  have hpast : pastEnd (m := Id) (input.upTo limit) offset = pastEnd (m := Id) input offset := rfl
  rw [findAt, findAt, hpast, pastEnd_eq h, h.limit]
  by_cases hp : text.length < offset
  · rw [decide_eq_true hp]
    rfl
  · rw [decide_eq_false hp]
    have hlim : (input.upTo limit).limit = limit := rfl
    rw [hlim]
    exact findFrom_upTo h hl offset (by omega) (by omega) (by omega)

end Regex

end DialectRegex
