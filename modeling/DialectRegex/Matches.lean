import DialectRegex.Regex

namespace DialectRegex

inductive Upcoming where
  | unknown
  | found (m : Match)
  | exhausted
deriving DecidableEq, Repr

structure Matches where
  regex : Regex
  flags : SearchFlags
  offset : Nat
  upcoming : Upcoming

def Match.resume (m : Match) : Nat := if m.isEmpty then m.stop + 1 else m.stop

namespace Matches

variable {m : Type → Type} [Monad m]

def start (regex : Regex) (offset : Nat) (flags : SearchFlags) : Matches := ⟨regex, flags, offset, .unknown⟩

@[specialize] def look (it : Matches) (input : Input m) : m Matches :=
  match it.upcoming with
  | .unknown => it.regex.findAt it.flags input it.offset >>= fun
    | some found => pure { it with upcoming := .found found }
    | none => pure { it with upcoming := .exhausted }
  | _ => pure it

@[specialize] def hasNext (it : Matches) (input : Input m) : m (Bool × Matches) :=
  it.look input >>= fun it =>
    match it.upcoming with
    | .found _ => pure (true, it)
    | _ => pure (false, it)

@[specialize] def next (it : Matches) (input : Input m) : m (Option Match × Matches) :=
  it.look input >>= fun it =>
    match it.upcoming with
    | .found found => input.release found.resume >>= fun _ =>
      pure (some found, { it with offset := found.resume, upcoming := .unknown })
    | _ => pure (none, it)

@[specialize] def collect (input : Input m) : Nat → List Match → Matches → m (List Match)
  | 0, found, _ => pure found.reverse
  | fuel + 1, found, it => it.next input >>= fun
    | (none, _) => pure found.reverse
    | (some m, it) => collect input fuel (m :: found) it

/-- At most one match begins at each offset up to the end, and one search more finds nothing. -/
def fuel (it : Matches) (limit : Nat) : Nat := limit + 1 - it.offset + 1

@[specialize] def toList (it : Matches) (input : Input m) : m (List Match) :=
  collect input (it.fuel input.limit) [] it

end Matches

def Regex.findAll (r : Regex) (h : Haystack) : List Match :=
  (Matches.start r 0 {}).toList h.input

end DialectRegex
