import DialectRegex.Matches
import DialectRegex.Stream.Basic

namespace DialectRegex

inductive Source where
  | text (h : Haystack)
  | chars (cs : Array Char)
  | stream (s : Stream)

abbrev Reading := ExceptT Released (StateM Source)

namespace Source

variable {α : Type}

def bound : Source → Nat
  | text h => h.length
  | chars cs => cs.size
  | stream s => s.bound

def charAt (offset : Nat) : Source → Except Released (Option Char) × Source
  | text h => (.ok (h.charAt offset), text h)
  | chars cs => (.ok cs[offset]?, chars cs)
  | stream s =>
    let (r, s) := s.charAt offset
    (r, stream s)

def release (offset : Nat) : Source → Source
  | text h => text h
  | chars cs => chars cs
  | stream s => stream (s.release offset)

def input (limit : Nat) : Input Reading where
  charAt offset := .mk (charAt offset)
  release offset := .mk fun src => (.ok (), src.release offset)
  limit := limit

@[inline] def run (p : Input Reading → Reading α) (src : Source) : Except Released α × Source :=
  p (input src.bound) src

def matchAt (r : Regex) (flags : SearchFlags) (offset : Nat) (src : Source) :
    Except Released (Option Match) × Source :=
  src.run fun input => r.matchAt flags input offset

def findAt (r : Regex) (flags : SearchFlags) (offset : Nat) (src : Source) :
    Except Released (Option Match) × Source :=
  src.run fun input => r.findAt flags input offset

def settle (it : Matches) : Except Released (α × Matches) × Source → Except Released α × Matches × Source
  | (.ok (a, it), src) => (.ok a, it, src)
  | (.error e, src) => (.error e, it, src)

def hasNext (src : Source) (it : Matches) : Except Released Bool × Matches × Source :=
  settle it (src.run fun input => it.hasNext input)

def next (src : Source) (it : Matches) : Except Released (Option Match) × Matches × Source :=
  settle it (src.run fun input => it.next input)

def drain : Nat → List Match → Matches → Source → Except Released (List Match) × Matches × Source
  | 0, found, it, src => (.ok found.reverse, it, src)
  | fuel + 1, found, it, src =>
    match src.next it with
    | (.error e, it, src) => (.error e, it, src)
    | (.ok none, it, src) => (.ok found.reverse, it, src)
    | (.ok (some m), it, src) => drain fuel (m :: found) it src

def rest (src : Source) (it : Matches) : Except Released (List Match) × Matches × Source :=
  drain (it.fuel src.bound) [] it src

end Source

end DialectRegex
