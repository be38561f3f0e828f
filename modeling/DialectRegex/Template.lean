import DialectRegex.Matches

namespace DialectRegex

inductive TemplatePart where
  | char (c : Char)
  | group (g : Nat)
deriving DecidableEq, Repr

abbrev Template := List TemplatePart

namespace Template

/-- Two dollar signs stand for one. Before anything but a digit a dollar sign is ordinary. -/
def ofList : List Char → Template
  | [] => []
  | '$' :: '$' :: cs => .char '$' :: ofList cs
  | '$' :: c :: cs =>
    match Text.digit? c with
    | some g => .group g :: ofList cs
    | none => .char '$' :: ofList (c :: cs)
  | c :: cs => .char c :: ofList cs

def ofString (s : String) : Template := ofList s.toList

def expandPart (h : Haystack) (m : Match) : TemplatePart → String
  | .char c => c.toString
  | .group g => (m.groupText? h g).getD ""

def expand (h : Haystack) (m : Match) (t : Template) : String :=
  t.foldl (fun s p => s ++ expandPart h m p) ""

end Template

def Haystack.splice (h : Haystack) (t : Template) (out : String) (offset : Nat) : List Match → String
  | [] => out ++ h.slice offset h.length
  | m :: ms => h.splice t (out ++ h.slice offset m.start ++ t.expand h m) m.stop ms

namespace Regex

def replaceFirst? (r : Regex) (h : Haystack) (t : Template) : Option String :=
  (r.find h).map fun m => h.splice t "" 0 [m]

def replaceAll? (r : Regex) (h : Haystack) (t : Template) : Option String :=
  match r.findAll h with
  | [] => none
  | ms => some (h.splice t "" 0 ms)

def replaceFirst (r : Regex) (h : Haystack) (t : Template) : String := (r.replaceFirst? h t).getD h.text

def replaceAll (r : Regex) (h : Haystack) (t : Template) : String := (r.replaceAll? h t).getD h.text

end Regex

end DialectRegex
