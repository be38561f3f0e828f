namespace DialectRegex

structure Input (m : Type → Type) where
  charAt : Nat → m (Option Char)
  /-- Offsets before `offset - 1` will not be asked for any more. -/
  release : Nat → m Unit
  limit : Nat

def Input.ofText (text : Nat → Option Char) (limit : Nat) : Input Id := ⟨text, fun _ => (), limit⟩

namespace Text

def firstNonAscii? (bytes : List UInt8) : Option Nat := bytes.findIdx? (0x80 ≤ ·)

structure AsciiScan where
  find : List UInt8 → Option Nat
  find_eq_some {bs : List UInt8} {i : Nat} :
    find bs = some i ↔ ∃ h : i < bs.length, 0x80 ≤ bs[i] ∧ ∀ j (hj : j < i), ¬0x80 ≤ bs[j]

def AsciiScan.plain : AsciiScan where
  find := firstNonAscii?
  find_eq_some := by
    intro bs i
    rw [firstNonAscii?, List.findIdx?_eq_some_iff_getElem]
    simp only [decide_eq_true_eq]

def isAscii (scan : AsciiScan) (s : String) : Bool := (scan.find s.toUTF8.toList).isNone

end Text

structure Haystack where
  text : String
  table : Option (Array (Nat × Char))

namespace Haystack

def index (t : Array (Nat × Char)) (i : Nat) : List Char → Array (Nat × Char)
  | [] => t
  | c :: cs => index (t.push (i, c)) (i + c.utf8Size) cs

def ofStringBy (scan : Text.AsciiScan) (s : String) : Haystack :=
  ⟨s, if Text.isAscii scan s then none else some (index #[] 0 s.toList)⟩

def ofString (s : String) : Haystack := ofStringBy .plain s

def length (h : Haystack) : Nat :=
  match h.table with
  | none => h.text.utf8ByteSize
  | some t => t.size

def isEmpty (h : Haystack) : Bool := h.text.isEmpty

def byteAt? (s : String) (i : Nat) : Option UInt8 :=
  if h : (⟨i⟩ : String.Pos.Raw) < s.rawEndPos then some (s.getUTF8Byte ⟨i⟩ h) else none

def charAt (h : Haystack) (i : Nat) : Option Char :=
  match h.table with
  | none => (byteAt? h.text i).map fun b => Char.ofNat b.toNat
  | some t => t[i]?.map (·.2)

def input (h : Haystack) : Input Id := .ofText h.charAt h.length

def byteOffset (h : Haystack) (i : Nat) : Nat :=
  match h.table with
  | none => min i h.text.utf8ByteSize
  | some t => (t[i]?.map (·.1)).getD h.text.utf8ByteSize

def slice (h : Haystack) (start stop : Nat) : String :=
  String.Pos.Raw.extract h.text ⟨h.byteOffset start⟩ ⟨h.byteOffset stop⟩

end Haystack

end DialectRegex
