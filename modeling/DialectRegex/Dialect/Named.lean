import DialectRegex.Dialect.Basic

namespace DialectRegex.Dialect

def emacs : Dialect := empty

def posixCommon : Dialect :=
  ofFlags [.charClasses, .dotNewline, .dotNotNull, .intervals, .noEmptyRanges]

def posixBasic : Dialect := posixCommon.insert [.backslashPlusQuestion]

def posixExtended : Dialect :=
  posixCommon.insert
    [.anchorsAnywhere, .operatorsAnywhere, .bareBraces, .bareParens, .bareBar, .strayCloseOrdinary]

def posixAwk : Dialect := posixExtended.insert [.escapesInLists]

def awk : Dialect :=
  ofFlags [.escapesInLists, .dotNotNull, .bareParens, .noBackrefs, .bareBar, .noEmptyRanges,
    .strayCloseOrdinary]

def grep : Dialect :=
  ofFlags [.backslashPlusQuestion, .charClasses, .negatedListsNotNewline, .intervals, .newlineAlternates]

def egrep : Dialect :=
  ofFlags [.charClasses, .anchorsAnywhere, .operatorsAnywhere, .negatedListsNotNewline,
    .newlineAlternates, .bareParens, .bareBar]

def posixEgrep : Dialect := egrep.insert [.intervals, .bareBraces]

def ed : Dialect := posixBasic

def sed : Dialect := posixBasic

def posixMinimalBasic : Dialect := posixCommon.insert [.limitedOperators]

def posixMinimalExtended : Dialect :=
  posixCommon.insert [.anchorsAnywhere, .danglingOperatorsInvalid, .bareBraces, .bareParens, .noBackrefs,
    .bareBar, .strayCloseOrdinary]

def perl4 : Dialect :=
  ofFlags [.escapesInLists, .anchorsAnywhere, .operatorsAnywhere, .intervals, .bareBraces, .bareParens,
    .bareBar, .noEmptyRanges, .classEscapes]

def perl4s : Dialect := perl4.insert [.dotNewline]

def perl5 : Dialect :=
  perl4.insert [.pureGrouping, .stingyOperators, .lookahead, .stringAnchors, .classEscapesInLists,
    .comments]

def perl5s : Dialect := perl5.insert [.dotNewline]

/-- Of several names for one dialect the first is the preferred one. -/
def named : List (String × Dialect) :=
  [("emacs", emacs), ("posix-basic", posixBasic), ("posix-extended", posixExtended),
    ("posix-awk", posixAwk), ("awk", awk), ("grep", grep), ("egrep", egrep),
    ("posix-egrep", posixEgrep), ("ed", ed), ("sed", sed), ("posix-minimal-basic", posixMinimalBasic),
    ("posix-minimal-extended", posixMinimalExtended), ("perl4", perl4), ("perl4-s", perl4s),
    ("perl5", perl5), ("perl5-s", perl5s)]

def name? (d : Dialect) : Option String := (named.find? (·.2 = d)).map (·.1)

def canonicalName (s : String) : String :=
  String.ofList (s.toList.map fun c => if c = '_' then '-' else c.toLower)

def ofName? (s : String) : Option Dialect := named.lookup (canonicalName s)

structure UnknownName where
  name : String
deriving DecidableEq, Repr

def UnknownName.message (e : UnknownName) : String := "unknown syntax '" ++ e.name ++ "'"

def ofName (s : String) : Except UnknownName Dialect :=
  match ofName? s with
  | some d => .ok d
  | none => .error ⟨s⟩

def describe (d : Dialect) : String :=
  match d.name? with
  | some n => "Syntax(" ++ n ++ ")"
  | none => "Syntax(SyntaxFlags(" ++ " | ".intercalate (d.flags.map Flag.name) ++ "))"

end DialectRegex.Dialect
