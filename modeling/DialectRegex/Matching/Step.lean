import DialectRegex.Haystack
import DialectRegex.Matching.State
import DialectRegex.Pattern.Basic

namespace DialectRegex

structure SearchFlags where
  notBol : Bool := false
  notEol : Bool := false
  /-- The start anchor holds where the search began, instead of at offset 0. -/
  anchorOrigin : Bool := false
deriving DecidableEq, Repr

def sameChar (fold : Bool) (a b : Char) : Bool := a == b || fold && Text.eqIgnoringCase a b

def Boundary.holds (before after : Bool) : Boundary → Bool
  | either => before != after
  | neither => before == after
  | wordStart => !before && after
  | wordEnd => before && !after

def dotAccepts (newline nul : Bool) (c : Char) : Bool := (newline || c != '\n') && (nul || c != '\x00')

variable {m : Type → Type} [Monad m] (read : Nat → m (Option Char))

@[specialize] def readLiteral (fold : Bool) : List Char → Nat → m (Option Nat)
  | [], i => pure (some i)
  | c :: cs, i => read i >>= fun
    | none => pure none
    | some h => if sameChar fold h c then readLiteral fold cs (i + 1) else pure none

@[specialize] def readOne (accepts : Char → Bool) (i : Nat) : m (Option Nat) :=
  read i >>= fun
    | none => pure none
    | some c => pure (if accepts c then some (i + 1) else none)

@[specialize] def readAgain (fold : Bool) : Nat → Nat → Nat → m (Option Nat)
  | 0, _, i => pure (some i)
  | n + 1, a, i => read a >>= fun
    | none => pure none
    | some x => read i >>= fun
      | none => pure none
      | some y => if sameChar fold x y then readAgain fold n (a + 1) (i + 1) else pure none

@[specialize] def atEdge (flags : SearchFlags) (multiline : Bool) (s : State) : Edge → m Bool
  | .start =>
    if flags.notBol then pure false
    else if flags.anchorOrigin && s.offset == s.origin then pure true
    else if !flags.anchorOrigin && s.offset == 0 && s.origin == 0 then pure true
    else if multiline && 0 < s.offset then read (s.offset - 1) >>= fun c => pure (c == some '\n')
    else pure false
  | .stop => read s.offset >>= fun c => pure (!flags.notEol && c.isNone || multiline && c == some '\n')

@[specialize] def isWordAt (i : Nat) : m Bool := read i >>= fun c => pure (c.any isWordChar)

@[specialize] def atBoundary (b : Boundary) (i : Nat) : m Bool :=
  (if 0 < i then isWordAt read (i - 1) else pure false) >>= fun before =>
    isWordAt read i >>= fun after => pure (b.holds before after)

@[specialize] def Test.run (flags : SearchFlags) (s : State) : Test → m (Option Nat)
  | literal cs fold => readLiteral read fold cs s.offset
  | any newline nul => readOne read (dotAccepts newline nul) s.offset
  | named k negated fold => readOne read (fun c => k.accepts fold c != negated) s.offset
  | set cs => readOne read cs.accepts s.offset
  | anchor e multiline => atEdge read flags multiline s e >>= fun b => pure (if b then some s.offset else none)
  | boundary b => atBoundary read b s.offset >>= fun b => pure (if b then some s.offset else none)
  | backref g fold =>
    match s.group? g with
    | none => pure none
    | some (a, b) => readAgain read fold (b - a) a s.offset

end DialectRegex
