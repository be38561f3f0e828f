import DialectRegex.CharSet
import DialectRegex.Dialect.Basic
import DialectRegex.PatternError

namespace DialectRegex

def controlEscape? : Char → Option Char
  | 'n' => some '\n'
  | 't' => some '\t'
  | 'r' => some '\r'
  | 'f' => some '\x0c'
  | _ => none

inductive Member where
  | char (c : Char)
  | named (k : CharClass) (negated : Bool)
deriving DecidableEq, Repr

def splitClassName : List Char → Option (List Char × List Char)
  | ':' :: ']' :: rest => some ([], rest)
  | c :: rest => (splitClassName rest).map fun (name, after) => (c :: name, after)
  | [] => none

theorem splitClassName_eq_some {cs name after : List Char} (h : splitClassName cs = some (name, after)) :
    cs = name ++ ':' :: ']' :: after := by
  fun_induction splitClassName cs generalizing name with
  | case1 rest => simp at h; simp [h]
  | case2 c rest _ ih =>
    obtain ⟨⟨n, a⟩, h', he⟩ := Option.map_eq_some_iff.mp h
    simp only [Prod.mk.injEq] at he
    obtain ⟨rfl, rfl⟩ := he
    simp [ih h']
  | case3 => simp at h

def escapedMember (d : Dialect) (e : Char) (rest : List Char) : Member × List Char :=
  let plain := if d.has .escapesInLists then (.char e, rest) else (.char '\\', e :: rest)
  if d.has .classEscapesInLists then
    match CharClass.ofEscape? e, controlEscape? e with
    | some (k, negated), _ => (.named k negated, rest)
    | none, some c => (.char c, rest)
    | none, none => plain
  else plain

/-- The first member of a text inside the list that opens at `opened`. A class name without an end is
ordinary text. -/
def readMember (d : Dialect) (opened : List Char) : List Char → Except Fault (Member × List Char)
  | [] => .error ⟨.unterminatedList, opened⟩
  | '[' :: ':' :: rest =>
    if d.has .charClasses then
      match splitClassName rest with
      | none => .ok (.char '[', ':' :: rest)
      | some (name, after) =>
        match CharClass.ofName? name with
        | none => .error ⟨.unknownClass (String.ofList name), '[' :: ':' :: rest⟩
        | some k => .ok (.named k false, after)
    else .ok (.char '[', ':' :: rest)
  | '\\' :: rest =>
    if d.has .escapesInLists || d.has .classEscapesInLists then
      match rest with
      | [] => .error ⟨.unterminatedList, opened⟩
      | e :: rest => .ok (escapedMember d e rest)
    else .ok (.char '\\', rest)
  | c :: rest => .ok (.char c, rest)

/-- What follows a hyphen that forms a range; before the end of the list a hyphen is ordinary. -/
def afterHyphen? : List Char → Option (List Char)
  | ['-'] => none
  | '-' :: ']' :: _ => none
  | '-' :: rest => some rest
  | _ => none

def readItems (d : Dialect) (opened cs : List Char) : Except Fault (List SetItem × List Char) :=
  match readMember d opened cs with
  | .error e => .error e
  | .ok (.named k negated, rest) => .ok ([.named k negated], rest)
  | .ok (.char lo, rest) =>
    match afterHyphen? rest with
    | none => .ok ([.char lo], rest)
    | some rest =>
      match readMember d opened rest with
      | .error e => .error e
      | .ok (.named k negated, rest) => .ok ([.char lo, .char '-', .named k negated], rest)
      | .ok (.char hi, rest) =>
        if hi < lo && d.has .noEmptyRanges then .error ⟨.reversedRange lo hi, cs⟩
        else .ok ([.range lo hi], rest)

theorem escapedMember_shorter (d : Dialect) (e : Char) (rest : List Char) :
    (escapedMember d e rest).2.length < rest.length + 2 := by
  simp only [escapedMember]
  split
  · split <;> try split
    all_goals simp
  · split <;> simp

theorem readMember_shorter {d : Dialect} {opened cs rest : List Char} {m : Member}
    (h : readMember d opened cs = .ok (m, rest)) : rest.length < cs.length := by
  fun_cases readMember d opened cs <;> simp_all [readMember]
  case case4 hs _ =>
    rw [splitClassName_eq_some hs]
    simp only [List.length_append, List.length_cons]
    omega
  case case7 e cs _ =>
    have hl := escapedMember_shorter d e cs
    rw [h] at hl
    change rest.length < cs.length + 2 at hl
    omega

theorem afterHyphen?_eq_some {cs rest : List Char} (h : afterHyphen? cs = some rest) :
    cs = '-' :: rest := by
  fun_cases afterHyphen? cs <;> simp_all [afterHyphen?]

theorem readItems_shorter {d : Dialect} {opened cs rest : List Char} {items : List SetItem}
    (h : readItems d opened cs = .ok (items, rest)) : rest.length < cs.length := by
  simp only [readItems] at h
  split at h
  · cases h
  · next hm =>
    have := readMember_shorter hm
    simp_all
  · next hm =>
    have hl := readMember_shorter hm
    split at h
    · simp_all
    · next hy =>
      rw [afterHyphen?_eq_some hy] at hl
      simp only [List.length_cons] at hl
      split at h
      · cases h
      · next hm' =>
        have := readMember_shorter hm'
        simp only [Except.ok.injEq, Prod.mk.injEq] at h
        obtain ⟨_, rfl⟩ := h
        omega
      · next hm' =>
        have := readMember_shorter hm'
        split at h
        · cases h
        · simp only [Except.ok.injEq, Prod.mk.injEq] at h
          obtain ⟨_, rfl⟩ := h
          omega

def readList (d : Dialect) (opened cs : List Char) : Except Fault (List SetItem × List Char) :=
  match _h : readItems d opened cs with
  | .error e => .error e
  | .ok (items, ']' :: rest) => .ok (items, rest)
  | .ok (items, rest) =>
    match readList d opened rest with
    | .error e => .error e
    | .ok (more, rest) => .ok (items ++ more, rest)
termination_by cs.length
decreasing_by exact readItems_shorter _h

theorem readList_shorter {d : Dialect} {opened cs rest : List Char} {items : List SetItem}
    (h : readList d opened cs = .ok (items, rest)) : rest.length < cs.length := by
  fun_induction readList d opened cs generalizing items rest with
  | case1 => cases h
  | case2 _ _ _ hi =>
    have := readItems_shorter hi
    simp_all
    omega
  | case3 => cases h
  | case4 _ _ _ _ hi _ _ hl ih =>
    have := readItems_shorter hi
    have := ih hl
    simp only [Except.ok.injEq, Prod.mk.injEq] at h
    obtain ⟨_, rfl⟩ := h
    omega

def readBracket (d : Dialect) (fold : Bool) (cs : List Char) : Except Fault (CharSet × List Char) :=
  let negated := cs.head? == some '^'
  match readList d ('[' :: cs) (if negated then cs.tail else cs) with
  | .error e => .error e
  | .ok (items, rest) =>
    .ok (⟨items, negated, fold, negated && d.has .negatedListsNotNewline⟩, rest)

theorem readBracket_shorter {d : Dialect} {fold : Bool} {cs rest : List Char} {s : CharSet}
    (h : readBracket d fold cs = .ok (s, rest)) : rest.length < cs.length := by
  simp only [readBracket] at h
  split at h
  · cases h
  · next hl =>
    have := readList_shorter hl
    simp only [Except.ok.injEq, Prod.mk.injEq] at h
    obtain ⟨_, rfl⟩ := h
    split at this
    · simp only [List.length_tail] at this
      omega
    · exact this

end DialectRegex
