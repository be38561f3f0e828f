import DialectRegex.Grammar.Compile
import DialectRegex.Haystack
import DialectRegex.Matching.Engine
import DialectRegex.Pattern.Printer
import DialectRegex.Unicode.Visible

namespace DialectRegex

structure Regex where
  source : String
  dialect : Dialect
  options : Options
  body : Pattern
  groupCount : Nat
  /-- Captured texts can be asked for only by a backreference. Without one, states at one offset are
  interchangeable. -/
  merge : Bool
  merge_eq : merge = !body.hasBackref

namespace Regex

variable {m : Type → Type} [Monad m]

def compile (source : String) (dialect : Dialect) (options : Options) : Except PatternError Regex :=
  match DialectRegex.compile dialect options source.toList with
  | .error e => .error e
  | .ok (body, groupCount) => .ok ⟨source, dialect, options, body, groupCount, !body.hasBackref, rfl⟩

def minLength (r : Regex) : Except Overflow UInt64 := r.body.minLength

/-- The pattern in the Perl dialect. -/
def render (r : Regex) : String := r.body.write ""

def describe (r : Regex) : String :=
  "Regex(" ++ String.ofList (Text.quote r.source.toList) ++ ")"

def whole (r : Regex) : Pattern := .group (some 0) r.body

def wholeToEnd (r : Regex) : Pattern := .seq r.whole (.test (.anchor .stop false))

@[specialize] def run (r : Regex) (p : Pattern) (flags : SearchFlags) (input : Input m) (origin offset : Nat) :
    m (Option State) :=
  p.first ⟨input, flags, r.merge⟩ (fun s => pure (some s)) (.initial r.groupCount origin offset)

@[specialize] def pastEnd (input : Input m) (offset : Nat) : m Bool :=
  if 0 < offset then input.charAt (offset - 1) >>= fun c => pure c.isNone else pure false

@[specialize] def matchAt (r : Regex) (flags : SearchFlags) (input : Input m) (offset : Nat) :
    m (Option Match) :=
  pastEnd input offset >>= fun past =>
    if past then pure none
    else r.run r.whole flags input offset offset >>= fun s => pure (s.map Match.ofState)

@[specialize] def findFrom (r : Regex) (flags : SearchFlags) (input : Input m) (origin : Nat) :
    Nat → Nat → m (Option Match)
  | 0, _ => pure none
  | fuel + 1, start => r.run r.whole flags input origin start >>= fun
    | some s => pure (some (.ofState s))
    | none => input.charAt start >>= fun
      | none => pure none
      | some _ => findFrom r flags input origin fuel (start + 1)

@[specialize] def findAt (r : Regex) (flags : SearchFlags) (input : Input m) (offset : Nat) :
    m (Option Match) :=
  pastEnd input offset >>= fun past =>
    if past then pure none else r.findFrom flags input offset (input.limit + 1 - offset) offset

def find (r : Regex) (h : Haystack) : Option Match := r.findAt {} h.input 0

@[inline] def isMatch (r : Regex) (h : Haystack) : Bool := (r.find h).isSome

def isFullMatch (r : Regex) (h : Haystack) : Bool :=
  Option.isSome (r.run r.wholeToEnd {} h.input 0 0 : Id (Option State))

end Regex

namespace Match

def text (m : Match) (h : Haystack) : String := h.slice m.start m.stop

def groupText? (m : Match) (h : Haystack) (g : Nat) : Option String :=
  (m.group? g).map fun (start, stop) => h.slice start stop

end Match

end DialectRegex
