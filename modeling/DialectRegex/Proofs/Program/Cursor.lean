import DialectRegex.Program.Parser
import DialectRegex.Proofs.Grammar.Positions

namespace DialectRegex

namespace Parser

/-- The text `cs` is what is left at a position. -/
def At (p : Parser) (pos : Nat) (cs : List Char) : Prop := ∃ before, p.chars = before ++ cs ∧ pos = before.length

/-- The outcome of reading a text, with positions instead of what is left. -/
def located (p : Parser) {α : Type} : Except Fault (α × List Char) → Parse (α × Nat)
  | .error e => throw (e.locate p.chars)
  | .ok (a, rest) => pure (a, p.chars.length - rest.length)

variable {p : Parser} {pos opened : Nat} {cs rest openedText : List Char} {c : Char}

namespace At

theorem suffix (h : p.At pos cs) : cs <:+ p.chars := by
  obtain ⟨before, htext, -⟩ := h
  exact ⟨before, htext.symm⟩

theorem pos_eq (h : p.At pos cs) : pos = p.chars.length - cs.length := by
  obtain ⟨before, htext, rfl⟩ := h
  rw [htext, List.length_append, Nat.add_sub_cancel]

theorem of_suffix (h : cs <:+ p.chars) : p.At (p.chars.length - cs.length) cs := by
  obtain ⟨before, htext⟩ := h
  exact ⟨before, htext.symm, by rw [← htext, List.length_append, Nat.add_sub_cancel]⟩

theorem drop_eq (h : p.At pos cs) : p.chars.drop pos = cs := by
  obtain ⟨before, htext, rfl⟩ := h
  rw [htext, List.drop_left]

theorem getElem?_eq (h : p.At pos cs) (n : Nat) : p.chars[pos + n]? = cs[n]? := by
  rw [← h.drop_eq, List.getElem?_drop]

theorem head (h : p.At pos cs) : p.chars[pos]? = cs.head? := by
  rw [List.head?_eq_getElem?, ← h.getElem?_eq, Nat.add_zero]

theorem second (h : p.At pos (c :: cs)) : p.chars[pos + 1]? = cs.head? := by
  rw [List.head?_eq_getElem?, h.getElem?_eq, List.getElem?_cons_succ]

theorem append {w : List Char} (h : p.At pos (w ++ cs)) : p.At (pos + w.length) cs := by
  obtain ⟨before, htext, rfl⟩ := h
  exact ⟨before ++ w, by rw [htext, List.append_assoc], List.length_append.symm⟩

theorem tail (h : p.At pos (c :: cs)) : p.At (pos + 1) cs := h.append (w := [c])

theorem drop (h : p.At pos cs) {n : Nat} (hn : n ≤ cs.length) : p.At (pos + n) (cs.drop n) := by
  rw [← List.take_append_drop n cs] at h
  have hdrop := h.append
  rwa [List.length_take_of_le hn] at hdrop

theorem length_eq (h : p.At pos cs) : pos + cs.length = p.chars.length := by
  obtain ⟨before, htext, rfl⟩ := h
  rw [htext, List.length_append]

end At

theorem fail_eq (h : p.At pos cs) {α : Type} (flaw : Flaw) :
    (fail flaw pos : Parse α) = throw (Fault.locate ⟨flaw, cs⟩ p.chars) := by
  rw [fail, h.pos_eq]
  rfl

theorem slice_eq (h : p.At pos cs) : p.slice pos = pure cs := by
  rw [slice, if_pos (h.length_eq ▸ Nat.le_add_right _ _), h.drop_eq]

theorem operator?_eq (h : p.At pos cs) : p.operator? pos = p.dialect.operator? cs := by
  rw [operator?, h.drop_eq]

section Bracket

theorem className_eq (h : p.At pos ('[' :: ':' :: cs)) :
    p.className pos =
      match splitClassName cs with
      | none => pure none
      | some (name, after) =>
        match CharClass.ofName? name with
        | none => throw (Fault.locate ⟨.unknownClass (String.ofList name), '[' :: ':' :: cs⟩ p.chars)
        | some k => pure (some (.named k false, p.chars.length - after.length)) := by
  have hcs : p.At (pos + 2) cs := h.append (w := ['[', ':'])
  rw [className, slice_eq hcs, pure_bind]
  cases hs : splitClassName cs with
  | none => rfl
  | some split =>
    obtain ⟨name, after⟩ := split
    dsimp only
    cases CharClass.ofName? name with
    | none => exact fail_eq h _
    | some k =>
      have hafter : p.At (pos + 2 + (name ++ [':', ']']).length) after := by
        apply At.append
        rw [List.append_assoc]
        exact splitClassName_eq_some hs ▸ hcs
      rw [List.length_append] at hafter
      rw [← hafter.pos_eq]
      rfl

theorem member_class (openedText : List Char) (h : p.At pos ('[' :: ':' :: rest)) :
    p.member opened pos = p.located (readMember p.dialect openedText ('[' :: ':' :: rest)) := by
  have hfirst : p.chars[pos]? = some '[' := h.head
  have hcolon : p.chars[pos + 1]? = some ':' := h.second
  rw [member, readMember, hfirst]
  dsimp only
  rw [hcolon]
  by_cases hd : p.dialect.has .charClasses = true
  · rw [if_pos (And.intro rfl (And.intro rfl hd)), if_pos hd, className_eq h]
    cases splitClassName rest with
    | none =>
      dsimp only
      rw [pure_bind, h.tail.pos_eq]
      rfl
    | some split =>
      dsimp only
      cases CharClass.ofName? split.1 with
      | none => rfl
      | some k => rfl
  · rw [if_neg (fun hc => hd hc.2.2), if_neg (fun hc => absurd hc.1 (by decide)), if_neg hd, h.tail.pos_eq]
    rfl

theorem member_escape (ho : p.At opened openedText) (h : p.At pos ('\\' :: rest)) :
    p.member opened pos = p.located (readMember p.dialect openedText ('\\' :: rest)) := by
  have hfirst : p.chars[pos]? = some '\\' := h.head
  rw [member, hfirst]
  dsimp only
  rw [if_neg (fun hc => absurd hc.1 (by decide))]
  by_cases hd : (p.dialect.has .escapesInLists || p.dialect.has .classEscapesInLists) = true
  · rw [if_pos (And.intro rfl hd), h.second]
    cases rest with
    | nil =>
      rw [readMember, if_pos hd]
      exact fail_eq ho _
    | cons e rest =>
      have htwo : pos + 2 = p.chars.length - rest.length := h.tail.tail.pos_eq
      have hone : pos + 1 = p.chars.length - (e :: rest).length := h.tail.pos_eq
      dsimp only [List.head?_cons]
      rw [readMember, if_pos hd, escapedMember, htwo, hone]
      cases p.dialect.has .classEscapesInLists with
      | false => cases p.dialect.has .escapesInLists <;> rfl
      | true =>
        cases CharClass.ofEscape? e with
        | some named => rfl
        | none =>
          cases controlEscape? e with
          | some control => rfl
          | none => cases p.dialect.has .escapesInLists <;> rfl
  · have hread : readMember p.dialect openedText ('\\' :: rest) = .ok (.char '\\', rest) := by
      cases rest <;> rw [readMember, if_neg hd]
    rw [if_neg (fun hc => hd hc.2), hread, h.tail.pos_eq]
    rfl

theorem member_eq (ho : p.At opened openedText) (h : p.At pos cs) :
    p.member opened pos = p.located (readMember p.dialect openedText cs) := by
  rw [readMember.eq_def]
  split
  · rw [member, h.head]
    exact fail_eq ho _
  · exact member_class openedText h
  · exact member_escape ho h
  · next c rest hclass hslash =>
    have hfirst : p.chars[pos]? = some c := h.head
    rw [member, hfirst]
    dsimp only
    rw [h.second, if_neg, if_neg, h.tail.pos_eq]
    · rfl
    · rintro ⟨rfl, -⟩
      exact hslash rfl
    · rintro ⟨rfl, hcolon, -⟩
      obtain ⟨rest', rfl⟩ := List.head?_eq_some_iff.mp hcolon
      exact hclass rest' rfl rfl

theorem hyphen_eq (h : p.At pos cs) : p.hyphen pos = (afterHyphen? cs).isSome := by
  rw [hyphen, h.head, afterHyphen?.eq_def]
  split
  · rw [h.second]
    rfl
  · rw [h.second]
    rfl
  · next rest hnil hclose =>
    rw [h.second]
    cases rest with
    | nil => exact absurd rfl hnil
    | cons c rest =>
      have hc : c ≠ ']' := fun he => hclose rest (by rw [he])
      simpa using hc
  · next hminus =>
    cases cs with
    | nil => rfl
    | cons c cs =>
      have hc : c ≠ '-' := fun he => hminus cs (by rw [he])
      simp [hc]

theorem at_member {m : Member} (ho : p.At opened openedText) (h : p.At pos cs)
    (hm : readMember p.dialect openedText cs = .ok (m, rest)) : p.At (p.chars.length - rest.length) rest := by
  have hwithin := readMember_within (d := p.dialect) ho.suffix h.suffix
  rw [hm] at hwithin
  exact .of_suffix hwithin

theorem list_items (ho : p.At opened openedText) (h : p.At pos cs) {first : Bool}
    (hfirst : first = false → cs.head? ≠ some ']') (items : List SetItem) :
    p.list opened pos first items =
      match readItems p.dialect openedText cs with
      | .error e => throw (e.locate p.chars)
      | .ok (more, rest) => p.list opened (p.chars.length - rest.length) false (items ++ more) := by
  rw [list.eq_def, readItems]
  cases cs with
  | nil =>
    rw [h.head]
    exact fail_eq ho _
  | cons c cs =>
    have hc : ¬(c = ']' ∧ (!first) = true) := fun hc =>
      hfirst (by simpa using hc.2) (congrArg some hc.1)
    have hhead : p.chars[pos]? = some c := h.head
    rw [hhead]
    dsimp only
    rw [if_neg hc, member_eq ho h]
    cases hm : readMember p.dialect openedText (c :: cs) with
    | error e => rfl
    | ok r =>
      obtain ⟨m, rest⟩ := r
      have hrest := at_member ho h hm
      rw [located, pure_bind]
      cases m with
      | named k negated => rfl
      | char lo =>
        dsimp only
        rw [hyphen_eq hrest]
        cases hy : afterHyphen? rest with
        | none => rfl
        | some after =>
          rw [afterHyphen?_eq_some hy] at hrest
          dsimp only [Option.isSome_some]
          rw [if_pos rfl, afterHyphen?_eq_some hy, member_eq ho hrest.tail]
          cases hm' : readMember p.dialect openedText after with
          | error e => rfl
          | ok r =>
            obtain ⟨m, rest⟩ := r
            rw [located, pure_bind]
            cases m with
            | named k negated => rfl
            | char hi =>
              dsimp only
              split
              · exact fail_eq h _
              · rfl

theorem list_eq (ho : p.At opened openedText) (h : p.At pos cs) {first : Bool}
    (hfirst : first = false → cs.head? ≠ some ']') (items : List SetItem) :
    p.list opened pos first items =
      p.located ((readList p.dialect openedText cs).map fun (more, rest) => (items ++ more, rest)) := by
  have hat {cs rest : List Char} {more : List SetItem} (h : cs <:+ p.chars)
      (hi : readItems p.dialect openedText cs = .ok (more, rest)) : p.At (p.chars.length - rest.length) rest := by
    have hwithin := readItems_within (d := p.dialect) ho.suffix h
    rw [hi] at hwithin
    exact .of_suffix hwithin
  have hopen {rest : List Char} (hne : ∀ after, rest = ']' :: after → False) : false = false → rest.head? ≠ some ']' :=
    fun _ he => (List.head?_eq_some_iff.mp he).elim hne
  rw [list_items ho h hfirst]
  fun_induction readList p.dialect openedText cs generalizing pos first items with
  | case1 cs e hi => rw [hi]; rfl
  | case2 cs more rest hi =>
    have hrest := hat h.suffix hi
    have hhead : p.chars[p.chars.length - (']' :: rest).length]? = some ']' := hrest.head
    rw [hi]
    dsimp only
    rw [list.eq_def, hhead]
    dsimp only
    rw [if_pos ⟨rfl, rfl⟩, hrest.tail.pos_eq]
    rfl
  | case3 cs more rest hne hi e hl ih =>
    have hrest := hat h.suffix hi
    rw [hi]
    dsimp only
    rw [list_items ho hrest (hopen hne), ih hrest (hopen hne), hl]
    rfl
  | case4 cs more rest hne hi more' last hl ih =>
    have hrest := hat h.suffix hi
    rw [hi]
    dsimp only
    rw [list_items ho hrest (hopen hne), ih hrest (hopen hne), hl, Except.map, Except.map]
    dsimp only
    rw [List.append_assoc]

theorem bracket_eq (h : p.At pos ('[' :: cs)) :
    p.bracket pos = p.located (readBracket p.dialect p.options.ignoreCase cs) := by
  have hlist : p.At (if (cs.head? == some '^') = true then pos + 2 else pos + 1)
      (if (cs.head? == some '^') = true then cs.tail else cs) := by
    split
    · next hc =>
      obtain ⟨rest, rfl⟩ := List.head?_eq_some_iff.mp (beq_iff_eq.mp hc)
      exact h.tail.tail
    · exact h.tail
  rw [bracket, h.second, list_eq h hlist (fun he => Bool.noConfusion he), readBracket]
  cases readList p.dialect ('[' :: cs) (if (cs.head? == some '^') = true then cs.tail else cs) with
  | error e => rfl
  | ok r => rfl

end Bracket

section Interval

theorem number_some (h : p.At pos cs) (n : Nat) :
    p.number opened pos (some n) =
      match readDigits n cs with
      | none => fail .malformedInterval opened
      | some (m, rest) => pure (some m, p.chars.length - rest.length) := by
  fun_induction readDigits n cs generalizing pos with
  | case1 n =>
    rw [number.eq_def, h.head, h.pos_eq]
    rfl
  | case2 n c cs hc =>
    rw [number.eq_def, h.head, List.head?_cons, Option.bind_some, hc, h.pos_eq]
  | case3 n c cs k hc hlt =>
    rw [number.eq_def, h.head, List.head?_cons, Option.bind_some, hc]
    dsimp only [Option.getD_some]
    rw [if_pos hlt]
  | case4 n c cs k hc hlt ih =>
    rw [number.eq_def, h.head, List.head?_cons, Option.bind_some, hc]
    dsimp only [Option.getD_some]
    rw [if_neg hlt, ih h.tail]

theorem number_none (h : p.At pos cs) :
    p.number opened pos none =
      match readBound cs with
      | none => fail .malformedInterval opened
      | some (n, rest) => pure (n, p.chars.length - rest.length) := by
  cases cs with
  | nil =>
    rw [number.eq_def, h.head, h.pos_eq]
    rfl
  | cons c cs =>
    rw [readBound]
    by_cases hc : c.isDigit = true
    · -- A digit gives the same number after nothing as after a zero.
      have hzero : p.number opened pos none = p.number opened pos (some 0) := by
        rw [number.eq_def, number.eq_def, h.head, List.head?_cons, Option.bind_some, Text.digit?, if_pos hc]
        rfl
      rw [if_pos hc, hzero, number_some h]
      cases readDigits 0 (c :: cs) <;> rfl
    · rw [if_neg hc, number.eq_def, h.head, List.head?_cons, Option.bind_some, Text.digit?, if_neg hc, h.pos_eq]

theorem closeInterval_eq (d : Dialect) (cs : List Char) :
    closeInterval d cs =
      if d.has .bareBraces then if cs.head? = some '\x7d' then some cs.tail else none
      else if cs.head? = some '\\' ∧ cs.tail.head? = some '\x7d' then some cs.tail.tail else none := by
  rw [closeInterval.eq_def]
  split
  · cases d.has .bareBraces <;> rfl
  · cases d.has .bareBraces <;> rfl
  · next hbare hescaped =>
    have hone : cs.head? ≠ some '\x7d' := fun hc =>
      (List.head?_eq_some_iff.mp hc).elim fun rest he => hbare rest he
    have htwo : ¬(cs.head? = some '\\' ∧ cs.tail.head? = some '\x7d') := by
      rintro ⟨hslash, hbrace⟩
      obtain ⟨cs, rfl⟩ := List.head?_eq_some_iff.mp hslash
      obtain ⟨cs, rfl⟩ := List.head?_eq_some_iff.mp hbrace
      exact hescaped cs rfl
    rw [if_neg hone, if_neg htwo, ite_self]

theorem intervalEnd_eq (h : p.At pos cs) :
    p.intervalEnd opened pos =
      match closeInterval p.dialect cs with
      | none => fail .malformedInterval opened
      | some rest => pure (p.chars.length - rest.length) := by
  rw [intervalEnd, closeInterval_eq, h.head]
  split
  · split
    · next hc =>
      obtain ⟨cs, rfl⟩ := List.head?_eq_some_iff.mp hc
      rw [h.tail.pos_eq]
      rfl
    · rfl
  · cases cs with
    | nil => rfl
    | cons c cs =>
      rw [h.second, List.tail_cons]
      by_cases hc : (c :: cs).head? = some '\\' ∧ cs.head? = some '\x7d'
      · obtain ⟨rest, rfl⟩ := List.head?_eq_some_iff.mp hc.2
        rw [if_pos hc, if_pos hc, h.tail.tail.pos_eq]
        rfl
      · rw [if_neg hc, if_neg hc]

theorem readInterval_comma {d : Dialect} {lo : Option Nat} (hlo : readBound cs = some (lo, ',' :: rest)) :
    readInterval d cs =
      match readBound rest with
      | none => .error .malformedInterval
      | some (hi, rest) =>
        match closeInterval d rest with
        | none => .error .malformedInterval
        | some rest =>
          match hi with
          | none => .ok (⟨lo.getD 0, none⟩, rest)
          | some hi =>
            if hi < lo.getD 0 then .error (.reversedBounds (lo.getD 0) hi) else .ok (⟨lo.getD 0, some hi⟩, rest) := by
  rw [readInterval, hlo]
  rfl

theorem readInterval_single {d : Dialect} {lo : Option Nat} (hlo : readBound cs = some (lo, rest))
    (hc : rest.head? ≠ some ',') :
    readInterval d cs =
      match closeInterval d rest with
      | none => .error .malformedInterval
      | some rest => .ok (⟨lo.getD 0, some (lo.getD 0)⟩, rest) := by
  rw [readInterval.eq_def, hlo]
  split
  · next he => cases he
  · next he =>
    cases he
    exact absurd rfl hc
  · next he =>
    cases he
    rfl

theorem interval_eq (h : p.At pos cs) :
    p.interval opened pos =
      match readInterval p.dialect cs with
      | .error e => fail e opened
      | .ok (b, rest) => pure (b, p.chars.length - rest.length) := by
  rw [interval, number_none h]
  cases hlo : readBound cs with
  | none =>
    rw [readInterval, hlo]
    rfl
  | some r =>
    obtain ⟨lo, rest⟩ := r
    have hrest : p.At (p.chars.length - rest.length) rest := .of_suffix ((readBound_suffix hlo).trans h.suffix)
    dsimp only
    rw [pure_bind]
    dsimp only
    rw [hrest.head]
    by_cases hcomma : rest.head? = some ','
    · obtain ⟨rest, rfl⟩ := List.head?_eq_some_iff.mp hcomma
      rw [if_pos hcomma, number_none hrest.tail, readInterval_comma hlo]
      cases hhi : readBound rest with
      | none => rfl
      | some r =>
        obtain ⟨hi, rest⟩ := r
        have hrest : p.At (p.chars.length - rest.length) rest :=
          .of_suffix ((readBound_suffix hhi).trans hrest.tail.suffix)
        dsimp only
        rw [pure_bind]
        dsimp only
        rw [intervalEnd_eq hrest]
        cases closeInterval p.dialect rest with
        | none => rfl
        | some rest =>
          dsimp only
          rw [pure_bind]
          cases hi with
          | none => rfl
          | some hi =>
            dsimp only
            split <;> rfl
    · rw [if_neg hcomma, readInterval_single hlo hcomma, pure_bind]
      dsimp only
      rw [intervalEnd_eq hrest]
      cases closeInterval p.dialect rest with
      | none => rfl
      | some rest =>
        dsimp only
        rw [pure_bind, if_neg (Nat.lt_irrefl _)]

end Interval

end Parser

end DialectRegex
