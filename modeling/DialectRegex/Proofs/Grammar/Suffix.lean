import DialectRegex.Grammar.Compile
import Mathlib.Data.List.Basic

namespace DialectRegex

theorem escapedMember_append (d : Dialect) (e : Char) (cs q : List Char) :
    escapedMember d e (cs ++ q) = ((escapedMember d e cs).1, (escapedMember d e cs).2 ++ q) := by
  rw [escapedMember, escapedMember]
  split
  · split <;> try split
    all_goals rfl
  · split <;> rfl

theorem afterHyphen?_append {cs : List Char} (hne : cs ≠ ['-']) (q : List Char) :
    afterHyphen? (cs ++ ')' :: q) = (afterHyphen? cs).map (· ++ ')' :: q) := by
  cases cs with
  | nil => rfl
  | cons c cs =>
    by_cases hc : c = '-'
    · subst hc
      cases cs with
      | nil => exact absurd rfl hne
      | cons c' cs =>
        by_cases hc' : c' = ']'
        · subst hc'
          rfl
        · simp [afterHyphen?, hc']
    · simp [afterHyphen?, hc]

theorem readList_close {d : Dialect} {opened cs rest : List Char} {items : List SetItem}
    (h : readItems d opened cs = .ok (items, ']' :: rest)) : readList d opened cs = .ok (items, rest) := by
  rw [readList]
  split <;> simp_all

theorem readList_more {d : Dialect} {opened cs mid rest : List Char} {items more : List SetItem}
    (h : readItems d opened cs = .ok (items, mid)) (hmid : ∀ r, mid ≠ ']' :: r)
    (hmore : readList d opened mid = .ok (more, rest)) : readList d opened cs = .ok (items ++ more, rest) := by
  rw [readList]
  split
  · next he =>
    rw [h] at he
    cases he
  · next he =>
    rw [h] at he
    cases he
    exact absurd rfl (hmid _)
  · next he =>
    rw [h] at he
    cases he
    rw [hmore]

theorem readList_fails {d : Dialect} {opened cs : List Char} {e : Fault} (h : readItems d opened cs = .error e) :
    readList d opened cs = .error e := by
  rw [readList]
  split <;> simp_all

theorem readList_nil (d : Dialect) (opened : List Char) :
    readList d opened [] = .error ⟨.unterminatedList, opened⟩ := by
  rw [readList]
  rfl

theorem readList_hyphen (d : Dialect) (opened : List Char) :
    readList d opened ['-'] = .error ⟨.unterminatedList, opened⟩ := by
  have hi : readItems d opened ['-'] = .ok ([.char '-'], []) := rfl
  rw [readList]
  split
  · next he =>
    rw [hi] at he
    cases he
  · next he =>
    rw [hi] at he
    cases he
  · next he =>
    rw [hi] at he
    cases he
    rw [readList_nil]

theorem readBracket_cons (d : Dialect) (fold : Bool) (c : Char) (cs : List Char) :
    readBracket d fold (c :: cs) =
      match readList d ('[' :: c :: cs) (if some c == some '^' then cs else c :: cs) with
      | .error e => .error e
      | .ok (items, rest) =>
        .ok (⟨items, some c == some '^', fold, some c == some '^' && d.has .negatedListsNotNewline⟩, rest) := rfl

section Bracket

variable {d : Dialect} (hd : d.has .charClasses = false)
include hd

theorem readMember_cons (opened : List Char) (c : Char) (cs : List Char) :
    readMember d opened (c :: cs) =
      if c = '\\' ∧ (d.has .escapesInLists || d.has .classEscapesInLists) = true then
        match cs with
        | [] => .error ⟨.unterminatedList, opened⟩
        | e :: rest => .ok (escapedMember d e rest)
      else .ok (.char c, cs) := by
  rw [readMember.eq_def]
  split
  · next h => cases h
  · next h =>
    cases h
    simp [hd]
  · next h =>
    cases h
    split
    · next hf =>
      exact (if_pos ⟨rfl, hf⟩).symm
    · next hf => rw [if_neg fun h => hf h.2]
  · next hne h =>
    cases h
    rw [if_neg fun h => hne h.1]

theorem readMember_append {opened cs rest : List Char} {m : Member} (h : readMember d opened cs = .ok (m, rest))
    (opened' q : List Char) : readMember d opened' (cs ++ q) = .ok (m, rest ++ q) := by
  cases cs with
  | nil => cases h
  | cons c cs =>
    rw [readMember_cons hd] at h
    rw [List.cons_append, readMember_cons hd]
    split at h
    · next hc =>
      rw [if_pos hc]
      cases cs with
      | nil => cases h
      | cons e cs =>
        have he : escapedMember d e cs = (m, rest) := Except.ok.inj h
        change Except.ok (escapedMember d e (cs ++ q)) = _
        rw [escapedMember_append d, he]
    · next hc =>
      cases h
      rw [if_neg hc]

theorem readItems_append {opened cs rest : List Char} {items : List SetItem}
    (h : readItems d opened cs = .ok (items, rest)) (hne : rest ≠ ['-']) (opened' q : List Char) :
    readItems d opened' (cs ++ ')' :: q) = .ok (items, rest ++ ')' :: q) := by
  rw [readItems.eq_def] at h ⊢
  cases hm : readMember d opened cs with
  | error e =>
    rw [hm] at h
    cases h
  | ok first =>
    obtain ⟨m, mid⟩ := first
    rw [readMember_append hd hm opened']
    rw [hm] at h
    cases m with
    | named k negated =>
      cases h
      rfl
    | char lo =>
      dsimp only at h ⊢
      cases hy : afterHyphen? mid with
      | none =>
        rw [hy] at h
        cases h
        rw [afterHyphen?_append hne, hy]
        rfl
      | some after =>
        have hmid : mid ≠ ['-'] := by
          rintro rfl
          cases hy
        rw [hy] at h
        rw [afterHyphen?_append hmid, hy]
        dsimp only [Option.map_some] at h ⊢
        cases hm' : readMember d opened after with
        | error e =>
          rw [hm'] at h
          cases h
        | ok second =>
          obtain ⟨m', last⟩ := second
          rw [readMember_append hd hm' opened']
          rw [hm'] at h
          cases m' with
          | named k negated =>
            cases h
            rfl
          | char hi =>
            dsimp only at h ⊢
            split at h
            · cases h
            · next hc =>
              cases h
              rw [if_neg hc]

theorem readList_append {opened cs rest : List Char} {items : List SetItem}
    (h : readList d opened cs = .ok (items, rest)) (opened' q : List Char) :
    readList d opened' (cs ++ ')' :: q) = .ok (items, rest ++ ')' :: q) := by
  fun_induction readList d opened cs generalizing items rest with
  | case1 => cases h
  | case2 cs items rest hi =>
    cases h
    exact readList_close (readItems_append hd hi (by simp) opened' q)
  | case3 => cases h
  | case4 cs items mid hmid hi more last hl ih =>
    cases h
    -- The list goes on, so what follows the items is neither empty nor a hyphen alone.
    have hne : mid ≠ ['-'] := by
      rintro rfl
      rw [readList_hyphen] at hl
      cases hl
    have hmid' : ∀ r, mid ++ ')' :: q ≠ ']' :: r := by
      intro r he
      cases mid with
      | nil => cases he
      | cons c mid =>
        cases he
        exact hmid mid rfl
    exact readList_more (readItems_append hd hi hne opened' q) hmid' (ih hl)

theorem readBracket_append {fold : Bool} {cs rest : List Char} {s : CharSet}
    (h : readBracket d fold cs = .ok (s, rest)) (q : List Char) :
    readBracket d fold (cs ++ ')' :: q) = .ok (s, rest ++ ')' :: q) := by
  cases cs with
  | nil =>
    change (match readList d ['['] [] with | .error e => _ | .ok (items, rest) => _) = _ at h
    rw [readList_nil] at h
    cases h
  | cons c cs =>
    have htail : (if some c == some '^' then cs ++ ')' :: q else c :: (cs ++ ')' :: q)) =
        (if some c == some '^' then cs else c :: cs) ++ ')' :: q := by
      split <;> rfl
    rw [readBracket_cons] at h
    rw [List.cons_append, readBracket_cons, htail]
    cases hl : readList d ('[' :: c :: cs) (if some c == some '^' then cs else c :: cs) with
    | error e =>
      rw [hl] at h
      cases h
    | ok list =>
      rw [hl] at h
      cases h
      rw [readList_append hd hl]

end Bracket

section Interval

variable {cs rest : List Char}

theorem readDigits_append {n m : Nat} (h : readDigits n cs = some (m, rest)) (q : List Char) :
    readDigits n (cs ++ ')' :: q) = some (m, rest ++ ')' :: q) := by
  fun_induction readDigits n cs with
  | case1 n =>
    cases h
    rfl
  | case2 n c cs hc =>
    cases h
    rw [List.cons_append, readDigits, hc]
  | case3 => cases h
  | case4 n c cs k hc hle ih =>
    rw [List.cons_append, readDigits, hc]
    dsimp only
    rw [if_neg hle]
    exact ih h

theorem readBound_append {b : Option Nat} (h : readBound cs = some (b, rest)) (q : List Char) :
    readBound (cs ++ ')' :: q) = some (b, rest ++ ')' :: q) := by
  cases cs with
  | nil =>
    cases h
    rfl
  | cons c cs =>
    change (if c.isDigit then (readDigits 0 (c :: cs)).map _ else _) = _ at h
    change (if c.isDigit then (readDigits 0 (c :: cs ++ ')' :: q)).map _ else _) = _
    split at h
    · next hc =>
      obtain ⟨⟨m, r⟩, hr, he⟩ := Option.map_eq_some_iff.mp h
      cases he
      rw [if_pos hc, readDigits_append hr, Option.map_some]
    · next hc =>
      cases h
      rw [if_neg hc]

theorem closeInterval_append {d : Dialect} (h : closeInterval d cs = some rest) (q : List Char) :
    closeInterval d (cs ++ q) = some (rest ++ q) := by
  rw [closeInterval.eq_def] at h
  split at h
  · next r =>
    split at h
    · next hb =>
      cases h
      exact if_pos hb
    · cases h
  · next r =>
    split at h
    · cases h
    · next hb =>
      cases h
      exact if_neg hb
  · cases h

theorem readInterval_comma (d : Dialect) {lo : Option Nat} (h : readBound cs = some (lo, ',' :: rest)) :
    readInterval d cs =
      match readBound rest with
      | none => .error .malformedInterval
      | some (hi, rest) =>
        match closeInterval d rest with
        | none => .error .malformedInterval
        | some rest =>
          match hi with
          | none => .ok (⟨lo.getD 0, none⟩, rest)
          | some hi =>
            if hi < lo.getD 0 then .error (.reversedBounds (lo.getD 0) hi) else .ok (⟨lo.getD 0, some hi⟩, rest) := by
  rw [readInterval, h]
  rfl

theorem readInterval_exact (d : Dialect) {lo : Option Nat} (h : readBound cs = some (lo, rest))
    (hne : ∀ r, rest ≠ ',' :: r) :
    readInterval d cs =
      match closeInterval d rest with
      | none => .error .malformedInterval
      | some rest => .ok (⟨lo.getD 0, some (lo.getD 0)⟩, rest) := by
  rw [readInterval, h]
  split
  · next he => cases he
  · next he =>
    cases he
    exact absurd rfl (hne _)
  · next he =>
    cases he
    rfl

theorem readInterval_append {d : Dialect} {b : Bounds} (h : readInterval d cs = .ok (b, rest)) (q : List Char) :
    readInterval d (cs ++ ')' :: q) = .ok (b, rest ++ ')' :: q) := by
  cases hlo : readBound cs with
  | none =>
    rw [readInterval, hlo] at h
    cases h
  | some first =>
    obtain ⟨lo, mid⟩ := first
    have hlo' := readBound_append hlo q
    by_cases hcomma : ∃ r, mid = ',' :: r
    · obtain ⟨mid, rfl⟩ := hcomma
      rw [readInterval_comma d hlo] at h
      rw [readInterval_comma d hlo']
      cases hhi : readBound mid with
      | none =>
        rw [hhi] at h
        cases h
      | some second =>
        obtain ⟨hi, last⟩ := second
        rw [hhi] at h
        change (match readBound (mid ++ ')' :: q) with | none => _ | some (hi, rest) => _) = _
        rw [readBound_append hhi]
        dsimp only at h ⊢
        cases hclose : closeInterval d last with
        | none =>
          rw [hclose] at h
          cases h
        | some after =>
          rw [hclose] at h
          rw [closeInterval_append hclose]
          cases hi with
          | none =>
            cases h
            rfl
          | some hi =>
            dsimp only at h ⊢
            split at h
            · cases h
            · next hle =>
              cases h
              rw [if_neg hle]
    · have hne : ∀ r, mid ≠ ',' :: r := fun r he => hcomma ⟨r, he⟩
      have hne' : ∀ r, mid ++ ')' :: q ≠ ',' :: r := by
        intro r he
        cases mid with
        | nil => cases he
        | cons c mid => exact hne mid (congrArg (· :: mid) (List.cons.inj he).1)
      rw [readInterval_exact d hlo hne] at h
      rw [readInterval_exact d hlo' hne']
      cases hclose : closeInterval d mid with
      | none =>
        rw [hclose] at h
        cases h
      | some after =>
        rw [hclose] at h
        cases h
        rw [closeInterval_append hclose]

end Interval

theorem readGreed_append (d : Dialect) (cs q : List Char) :
    d.readGreed (cs ++ ')' :: q) = ((d.readGreed cs).1, (d.readGreed cs).2 ++ ')' :: q) := by
  cases cs with
  | nil => rfl
  | cons c cs =>
    by_cases hc : c = '?'
    · subst hc
      rw [List.cons_append, Dialect.readGreed, Dialect.readGreed]
      split <;> rfl
    · simp [Dialect.readGreed, hc]

end DialectRegex
