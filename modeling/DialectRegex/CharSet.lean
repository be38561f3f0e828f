import DialectRegex.Unicode.Alphabetic
import DialectRegex.Unicode.CaseMapping
import DialectRegex.Unicode.LetterCase

namespace DialectRegex

open Unicode

namespace Text

def isPunctuation (c : Char) : Bool :=
  let n := c.toNat
  (0x21 ≤ n && n ≤ 0x2f) || (0x3a ≤ n && n ≤ 0x40) || (0x5b ≤ n && n ≤ 0x60) || (0x7b ≤ n && n ≤ 0x7e)

def isHexDigit (c : Char) : Bool :=
  c.isDigit || ('a' ≤ c && c ≤ 'f') || ('A' ≤ c && c ≤ 'F')

def digit? (c : Char) : Option Nat := if c.isDigit then some (c.toNat - '0'.toNat) else none

end Text

def isAlphanumeric (c : Char) : Bool := isAlphabetic c || isNumber c

def isWordChar (c : Char) : Bool := c == '_' || isAlphanumeric c

inductive CharClass where
  | alnum | alpha | blank | cntrl | digit | graph | lower | print | punct | space | upper | xdigit | word
deriving DecidableEq, Repr

namespace CharClass

def name : CharClass → String
  | alnum => "alnum"
  | alpha => "alpha"
  | blank => "blank"
  | cntrl => "cntrl"
  | digit => "digit"
  | graph => "graph"
  | lower => "lower"
  | print => "print"
  | punct => "punct"
  | space => "space"
  | upper => "upper"
  | xdigit => "xdigit"
  | word => "word"

def named : List CharClass :=
  [alnum, alpha, blank, cntrl, digit, graph, lower, print, punct, space, upper, xdigit]

def ofName? (s : List Char) : Option CharClass := named.find? (·.name.toList == s)

def ofEscape? : Char → Option (CharClass × Bool)
  | 'd' => some (digit, false)
  | 'D' => some (digit, true)
  | 'w' => some (word, false)
  | 'W' => some (word, true)
  | 's' => some (space, false)
  | 'S' => some (space, true)
  | _ => none

def escape? : CharClass → Option Char
  | digit => some 'd'
  | word => some 'w'
  | space => some 's'
  | _ => none

def accepts (k : CharClass) (fold : Bool) (c : Char) : Bool :=
  match k with
  | alnum => isAlphanumeric c
  | alpha => isAlphabetic c
  | blank => c == ' ' || c == '\t'
  | cntrl => isControl c
  | digit => c.isDigit
  | graph => !isWhiteSpace c && !isControl c
  | lower => if fold then isAlphabetic c else isLowercase c
  | print => c == ' ' || (!isWhiteSpace c && !isControl c)
  | punct => Text.isPunctuation c
  | space => isWhiteSpace c
  | upper => if fold then isAlphabetic c else isUppercase c
  | xdigit => Text.isHexDigit c
  | word => isWordChar c

end CharClass

inductive SetItem where
  | char (c : Char)
  | range (lo hi : Char)
  | named (k : CharClass) (negated : Bool)
deriving DecidableEq, Repr

def inRange (lo hi c : Char) : Bool := lo ≤ c && c ≤ hi

/-- Without regard to case, a range accepts what has either case form inside it. -/
def SetItem.accepts (fold : Bool) (c : Char) : SetItem → Bool
  | char x => c == x || fold && Text.eqIgnoringCase c x
  | range lo hi => inRange lo hi c || fold && (inRange lo hi (toLower c) || inRange lo hi (toUpper c))
  | named k negated => k.accepts fold c != negated

structure CharSet where
  items : List SetItem
  negated : Bool := false
  fold : Bool := false
  notNewline : Bool := false
deriving DecidableEq, Repr

def CharSet.accepts (s : CharSet) (c : Char) : Bool :=
  let hit := s.items.any (·.accepts s.fold c)
  if s.negated then !hit && !(s.notNewline && c == '\n') else hit

end DialectRegex
