namespace DialectRegex.Text

/-- The start of a character: `need` more bytes follow, the next one between `low` and `high`. -/
structure Partial where
  need : Nat
  low : UInt8
  high : UInt8
  value : Nat
deriving DecidableEq

def replacement : Char := '\ufffd'

def leadByte (b : UInt8) : List Char × Option Partial :=
  if b < 0x80 then ([Char.ofNat b.toNat], none)
  else if b < 0xc2 then ([replacement], none)
  else if b < 0xe0 then ([], some ⟨1, 0x80, 0xbf, b.toNat - 0xc0⟩)
  else if b = 0xe0 then ([], some ⟨2, 0xa0, 0xbf, 0⟩)
  else if b = 0xed then ([], some ⟨2, 0x80, 0x9f, 0xd⟩)
  else if b < 0xf0 then ([], some ⟨2, 0x80, 0xbf, b.toNat - 0xe0⟩)
  else if b = 0xf0 then ([], some ⟨3, 0x90, 0xbf, 0⟩)
  else if b < 0xf4 then ([], some ⟨3, 0x80, 0xbf, b.toNat - 0xf0⟩)
  else if b = 0xf4 then ([], some ⟨3, 0x80, 0x8f, 4⟩)
  else ([replacement], none)

def decodeByte : Option Partial → UInt8 → List Char × Option Partial
  | none, b => leadByte b
  | some p, b =>
    if p.low ≤ b ∧ b ≤ p.high then
      let value := p.value * 64 + (b.toNat - 0x80)
      if p.need ≤ 1 then ([Char.ofNat value], none) else ([], some ⟨p.need - 1, 0x80, 0xbf, value⟩)
    else
      let (cs, rest) := leadByte b
      (replacement :: cs, rest)

def decode (start : Option Partial) : List UInt8 → List Char × Option Partial
  | [] => ([], start)
  | b :: bs =>
    let (cs, mid) := decodeByte start b
    let (ds, rest) := decode mid bs
    (cs ++ ds, rest)

def flush (p : Option Partial) : List Char := if p.isSome then [replacement] else []

open String (utf8EncodeChar)

def Unfinished (part : List UInt8) : Prop := ∃ c, part <+: utf8EncodeChar c ∧ part ≠ utf8EncodeChar c

inductive Utf8Error where
  | incomplete
  | invalid (length : Nat)
deriving DecidableEq

structure Utf8Result where
  chars : List Char
  validUpTo : Nat
  error : Option Utf8Error
deriving DecidableEq

/-- What a check of the bytes has to tell. After the valid characters an invalid sequence is as long as it can be a
beginning of a character, and one byte long if it cannot be one. -/
inductive Checked : List UInt8 → Utf8Result → Prop where
  | valid (cs : List Char) :
      Checked (cs.flatMap utf8EncodeChar) ⟨cs, (cs.flatMap utf8EncodeChar).length, none⟩
  | incomplete (cs : List Char) {part : List UInt8} (hp : part ≠ []) (hu : Unfinished part) :
      Checked (cs.flatMap utf8EncodeChar ++ part) ⟨cs, (cs.flatMap utf8EncodeChar).length, some .incomplete⟩
  | stray (cs : List Char) {b : UInt8} (bs : List UInt8) (hb : ∀ c, ¬[b] <+: utf8EncodeChar c) :
      Checked (cs.flatMap utf8EncodeChar ++ b :: bs)
        ⟨cs, (cs.flatMap utf8EncodeChar).length, some (.invalid 1)⟩
  | broken (cs : List Char) {part : List UInt8} {b : UInt8} (bs : List UInt8) (hp : part ≠ []) (hu : Unfinished part)
      (hb : ∀ c, ¬part ++ [b] <+: utf8EncodeChar c) :
      Checked (cs.flatMap utf8EncodeChar ++ (part ++ b :: bs))
        ⟨cs, (cs.flatMap utf8EncodeChar).length, some (.invalid part.length)⟩

def scan (cs : List Char) (n k : Nat) : Option Partial → List UInt8 → Utf8Result
  | none, [] => ⟨cs, n, none⟩
  | some _, [] => ⟨cs, n, some .incomplete⟩
  | none, b :: bs =>
    match leadByte b with
    | (_, some p) => scan cs n 1 (some p) bs
    | (c, none) => if b < 0x80 then scan (cs ++ c) (n + 1) 0 none bs else ⟨cs, n, some (.invalid 1)⟩
  | some p, b :: bs =>
    if p.low ≤ b ∧ b ≤ p.high then
      match decodeByte (some p) b with
      | (_, some p) => scan cs n (k + 1) (some p) bs
      | (c, none) => scan (cs ++ c) (n + (k + 1)) 0 none bs
    else ⟨cs, n, some (.invalid k)⟩

structure Utf8Check where
  check : List UInt8 → Utf8Result
  checked (bs : List UInt8) : Checked bs (check bs)

theorem Checked.invalid_shorter {bs : List UInt8} {cs : List Char} {n len : Nat}
    (h : Checked bs ⟨cs, n, some (.invalid len)⟩) : (bs.drop (n + len)).length < bs.length := by
  cases h with
  | stray _ bs hb =>
    rw [List.length_drop, List.length_append, List.length_cons]
    omega
  | broken _ bs hp hu hb =>
    have := List.length_pos_iff.mpr hp
    rw [List.length_drop, List.length_append, List.length_append]
    omega

def redecode (v : Utf8Check) (pending : List UInt8) : List Char × List UInt8 :=
  match _hv : v.check pending with
  | ⟨cs, _, none⟩ => (cs, [])
  | ⟨cs, n, some .incomplete⟩ => (cs, pending.drop n)
  | ⟨cs, n, some (.invalid len)⟩ =>
    let (ds, rest) := redecode v (pending.drop (n + len))
    (cs ++ replacement :: ds, rest)
termination_by pending.length
decreasing_by exact (_hv ▸ v.checked pending).invalid_shorter

end DialectRegex.Text
