import DialectRegex.Program.Layout

/-!
The matcher that walks the tokens of a program. Reaching the end of a sequence closes the innermost open group and goes
on after it. Nothing here limits how long a walk may take: `none` says that it has no end, or that it left the program.
-/

namespace DialectRegex

/-- The groups that are open, from the inside out, each with the token that follows it. -/
abbrev Pending := List (Option Nat × Nat)

structure Walker where
  program : Program
  input : Input Id
  flags : SearchFlags

namespace Walker

def add (w : Walker) (out : List State) (s : State) : List State :=
  if w.program.hasBackref || !out.any (·.offset == s.offset) then out ++ [s] else out

def addAll (w : Walker) (out l : List State) : List State := l.foldl w.add out

def downTo (min : Nat) (levels : List Frontier) : List State :=
  (levels.reverse.takeWhile (min ≤ ·.count)).flatMap Frontier.level

def repeatStates (greedy : Bool) (min : Nat) (levels : List Frontier) : List State :=
  let kept := (levels.filter (min ≤ ·.count)).map Frontier.level
  (if greedy then kept.reverse else kept).flatten

mutual

def run (w : Walker) (id : Nat) (s : State) (k : Pending) : Option (Option State) :=
  match w.program.tokens[id]? with
  | none => none
  | some ⟨kind, next⟩ =>
    match kind with
    | .tail =>
      match k with
      | [] => some (some s)
      | (g, after) :: k => w |>.run after (s.leave g) k
    | .test t =>
      match t.run (m := Id) w.input.charAt w.flags s with
      | none => some none
      | some i => w |>.run next (s.moveTo i) k
    | .group g is => w |>.runAny is (s.enter g) ((g, next) :: k)
    | .repeated sub min max greedy =>
      if greedy then do
        let fs ← w |>.levels sub min max (.initial s)
        w |>.runEach next k .empty (downTo min fs)
      else w |>.runLazily sub min max next k .empty (.initial s) (if min = 0 then [s] else [])
    | .look negated sub => do
      match ← w |>.look negated sub s with
      | none => some none
      | some s => w |>.run next s k
partial_fixpoint

def look (w : Walker) (negated : Bool) (sub : Nat) (s : State) : Option (Option State) := do
  match ← w |>.run sub s [] with
  | some found => some (if negated then none else some (found.moveTo s.offset))
  | none => some (if negated then some s else none)
partial_fixpoint

def runAny (w : Walker) (is : List Nat) (s : State) (k : Pending) : Option (Option State) :=
  match is with
  | [] => some none
  | i :: is => do
    match ← w |>.run i s k with
    | some found => some (some found)
    | none => w |>.runAny is s k
partial_fixpoint

def runEach (w : Walker) (next : Nat) (k : Pending) (tried : OffsetSet) (l : List State) : Option (Option State) :=
  match l with
  | [] => some none
  | s :: l =>
    if !w.program.hasBackref && tried.contains s.offset then w |>.runEach next k tried l
    else do
      match ← w |>.run next s k with
      | some found => some (some found)
      | none => w |>.runEach next k (tried.insert s.offset) l
partial_fixpoint

def runLazily (w : Walker) (sub min : Nat) (max : Option Nat) (next : Nat) (k : Pending) (tried : OffsetSet)
    (f : Frontier) (l : List State) : Option (Option State) :=
  match l with
  | s :: l =>
    if !w.program.hasBackref && tried.contains s.offset then w |>.runLazily sub min max next k tried f l
    else do
      match ← w |>.run next s k with
      | some found => some (some found)
      | none => w |>.runLazily sub min max next k (tried.insert s.offset) f l
  | [] => do
    let (more, f) ← w |>.advance sub min max f
    if more then w |>.runLazily sub min max next k tried f (if min ≤ f.count then f.level else []) else some none
partial_fixpoint

def collect (w : Walker) (id : Nat) (s : State) (k : Pending) (out : List State) : Option (List State) :=
  match w.program.tokens[id]? with
  | none => none
  | some ⟨kind, next⟩ =>
    match kind with
    | .tail =>
      match k with
      | [] => some (w.add out s)
      | (g, after) :: k => w |>.collect after (s.leave g) k out
    | .test t =>
      match t.run (m := Id) w.input.charAt w.flags s with
      | none => some out
      | some i => w |>.collect next (s.moveTo i) k out
    | .group g is => w |>.collectAny is (s.enter g) ((g, next) :: k) out
    | .repeated sub min max greedy => do
      let fs ← w |>.levels sub min max (.initial s)
      w |>.collectEach next k out (w.addAll [] (repeatStates greedy min fs))
    | .look negated sub => do
      match ← w |>.look negated sub s with
      | none => some out
      | some s => w |>.collect next s k out
partial_fixpoint

def collectAny (w : Walker) (is : List Nat) (s : State) (k : Pending) (out : List State) : Option (List State) :=
  match is with
  | [] => some out
  | i :: is => do
    let out ← w |>.collect i s k out
    w |>.collectAny is s k out
partial_fixpoint

def collectEach (w : Walker) (next : Nat) (k : Pending) (out l : List State) : Option (List State) :=
  match l with
  | [] => some out
  | s :: l => do
    let out ← w |>.collect next s k out
    w |>.collectEach next k out l
partial_fixpoint

def expand (w : Walker) (sub : Nat) (out l : List State) : Option (List State) :=
  match l with
  | [] => some out
  | s :: l => do
    let ends ← w |>.collect sub s [] []
    w |>.expand sub (w.addAll out ends) l
partial_fixpoint

def advance (w : Walker) (sub min : Nat) (max : Option Nat) (f : Frontier) : Option (Bool × Frontier) :=
  if f.stalled || max.any (· ≤ f.count) then some (false, { f with stalled := true })
  else do
    let next ← w |>.expand sub [] f.level
    if next.isEmpty then some (false, { f with stalled := true })
    else
      let fresh := next.any (!f.seen.contains ·.offset)
      let seen := next.foldl (fun seen s => seen.insert s.offset) f.seen
      let f : Frontier := ⟨f.count + 1, next, seen, !fresh⟩
      if !fresh && decide (f.count < min) then w |>.pad sub min f [State.offsets next] else some (true, f)
partial_fixpoint

def pad (w : Walker) (sub min : Nat) (f : Frontier) (history : List OffsetSet) : Option (Bool × Frontier) :=
  if f.count < min then do
    let next ← w |>.expand sub [] f.level
    if next.isEmpty then some (false, f)
    else
      let f : Frontier := { f with count := f.count + 1, level := next }
      match history.idxOf? (State.offsets next) with
      | some i => do
        let last ← w |>.iterate sub ((min - f.count) % (i + 1)) next
        some (true, { f with count := min, level := last })
      | none => w |>.pad sub min f (State.offsets next :: history)
  else some (true, f)
partial_fixpoint

def iterate (w : Walker) (sub n : Nat) (l : List State) : Option (List State) :=
  match n with
  | 0 => some l
  | n + 1 => do
    let next ← w |>.expand sub [] l
    w |>.iterate sub n next
partial_fixpoint

def levels (w : Walker) (sub min : Nat) (max : Option Nat) (f : Frontier) : Option (List Frontier) := do
  let (more, f') ← w |>.advance sub min max f
  if more then do
    let fs ← w |>.levels sub min max f'
    some (f :: fs)
  else some [f]
partial_fixpoint

end

def scan (w : Walker) (origin start : Nat) : Option (Option State) := do
  match ← w.run w.program.root (.initial w.program.groups origin start) [] with
  | some found => some (some found)
  | none =>
    match (w.input.charAt start : Option Char) with
    | none => some none
    | some _ => w |>.scan origin (start + 1)
partial_fixpoint

def matchAt (w : Walker) (offset : Nat) : Option (Option Match) :=
  if Id.run (Regex.pastEnd w.input offset) then some none
  else (w.run w.program.root (.initial w.program.groups offset offset) []).map fun s => s.map Match.ofState

def findAt (w : Walker) (offset : Nat) : Option (Option Match) :=
  if Id.run (Regex.pastEnd w.input offset) then some none
  else (w.scan offset offset).map fun s => s.map Match.ofState

def fullMatch (w : Walker) : Option (Option State) := w.run w.program.full (.initial w.program.groups 0 0) []

/-- How many of so many calls in a row give another level. -/
def furtherLevels (w : Walker) (sub min : Nat) (max : Option Nat) : Nat → Frontier → Option Nat
  | 0, _ => some 0
  | calls + 1, f => do
    let (more, f) ← w.advance sub min max f
    let n ← w.furtherLevels sub min max calls f
    some (if more then n + 1 else n)

end Walker

def Regex.walker (r : Regex) (flags : SearchFlags) (input : Input Id) : Walker := ⟨r.program, input, flags⟩

end DialectRegex
