namespace DialectRegex

inductive Flaw where
  | unmatchedOpen
  | unmatchedClose
  | unterminatedList
  | reversedBounds (min max : Nat)
  | malformedInterval
  | unknownClass (name : String)
  | trailingBackslash
  | reversedRange (lo hi : Char)
  | nothingToRepeat
  | undefinedGroup (group : Nat)
  | unterminatedComment
  | unknownGroupFlag (c : Char)
deriving DecidableEq, Repr

structure Fault where
  flaw : Flaw
  rest : List Char
deriving DecidableEq, Repr

structure PatternError where
  flaw : Flaw
  pos : Nat
deriving DecidableEq, Repr

def Flaw.message : Flaw → String
  | unmatchedOpen => "unmatched '('"
  | unmatchedClose => "unmatched ')'"
  | unterminatedList => "unterminated bracket expression"
  | reversedBounds min max => "invalid interval \x7b" ++ toString min ++ "," ++ toString max ++ "\x7d"
  | malformedInterval => "malformed interval"
  | unknownClass name => "unknown POSIX class '" ++ name ++ "'"
  | trailingBackslash => "trailing backslash"
  | reversedRange lo hi => "reversed range '" ++ lo.toString ++ "-" ++ hi.toString ++ "'"
  | nothingToRepeat => "nothing to repeat"
  | undefinedGroup group => "backreference to undefined group " ++ toString group
  | unterminatedComment => "unterminated comment"
  | unknownGroupFlag c => "unknown group flag '" ++ c.toString ++ "'"

def Fault.locate (e : Fault) (pattern : List Char) : PatternError :=
  ⟨e.flaw, pattern.length - e.rest.length⟩

def PatternError.message (e : PatternError) : String :=
  e.flaw.message ++ " at position " ++ toString e.pos

end DialectRegex
