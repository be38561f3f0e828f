namespace DialectRegex

inductive Flag where
  | escapesInLists
  | backslashPlusQuestion
  | charClasses
  | anchorsAnywhere
  | operatorsAnywhere
  | danglingOperatorsInvalid
  | dotNewline
  | dotNotNull
  | intervals
  /-- There is no `+`, `?` or `|`. -/
  | limitedOperators
  | newlineAlternates
  | bareBraces
  | bareParens
  | noBackrefs
  | bareBar
  | noEmptyRanges
  | strayCloseOrdinary
  | negatedListsNotNewline
  | stingyOperators
  | classEscapes
  | pureGrouping
  | lookahead
  | stringAnchors
  | comments
  | classEscapesInLists
deriving DecidableEq, Repr

namespace Flag

def all : List Flag :=
  [escapesInLists, backslashPlusQuestion, charClasses, anchorsAnywhere, operatorsAnywhere,
    danglingOperatorsInvalid, dotNewline, dotNotNull, intervals, limitedOperators, newlineAlternates,
    bareBraces, bareParens, noBackrefs, bareBar, noEmptyRanges, strayCloseOrdinary,
    negatedListsNotNewline, stingyOperators, classEscapes, pureGrouping, lookahead, stringAnchors,
    comments, classEscapesInLists]

def bit (f : Flag) : Nat := f.ctorIdx

def name : Flag → String
  | escapesInLists => "BACKSLASH_ESCAPE_IN_LISTS"
  | backslashPlusQuestion => "BK_PLUS_QM"
  | charClasses => "CHAR_CLASSES"
  | anchorsAnywhere => "CONTEXT_INDEP_ANCHORS"
  | operatorsAnywhere => "CONTEXT_INDEP_OPS"
  | danglingOperatorsInvalid => "CONTEXT_INVALID_OPS"
  | dotNewline => "DOT_NEWLINE"
  | dotNotNull => "DOT_NOT_NULL"
  | intervals => "INTERVALS"
  | limitedOperators => "LIMITED_OPS"
  | newlineAlternates => "NEWLINE_ALT"
  | bareBraces => "NO_BK_BRACES"
  | bareParens => "NO_BK_PARENS"
  | noBackrefs => "NO_BK_REFS"
  | bareBar => "NO_BK_VBAR"
  | noEmptyRanges => "NO_EMPTY_RANGES"
  | strayCloseOrdinary => "UNMATCHED_RIGHT_PAREN_ORD"
  | negatedListsNotNewline => "HAT_LISTS_NOT_NEWLINE"
  | stingyOperators => "STINGY_OPS"
  | classEscapes => "CHAR_CLASS_ESCAPES"
  | pureGrouping => "PURE_GROUPING"
  | lookahead => "LOOKAHEAD"
  | stringAnchors => "STRING_ANCHORS"
  | comments => "COMMENTS"
  | classEscapesInLists => "CHAR_CLASS_ESC_IN_LISTS"

def ofName? (s : String) : Option Flag := all.find? (·.name == s)

end Flag

structure Dialect where
  bits : BitVec 25
deriving DecidableEq, Repr

namespace Dialect

def empty : Dialect := ⟨0⟩

def mask (fs : List Flag) : BitVec 25 := fs.foldl (fun m f => m ||| (1#25 <<< f.bit)) 0

def ofFlags (fs : List Flag) : Dialect := ⟨mask fs⟩

def insert (d : Dialect) (fs : List Flag) : Dialect := ⟨d.bits ||| mask fs⟩

def erase (d : Dialect) (fs : List Flag) : Dialect := ⟨d.bits &&& ~~~mask fs⟩

def has (d : Dialect) (f : Flag) : Bool := d.bits.getLsbD f.bit

def hasAll (d : Dialect) (fs : List Flag) : Bool := fs.all d.has

def flags (d : Dialect) : List Flag := Flag.all.filter d.has

end Dialect

end DialectRegex
