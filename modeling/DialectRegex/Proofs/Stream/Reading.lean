import DialectRegex.Proofs.Matching.Captures
import DialectRegex.Proofs.Matching.Limits
import DialectRegex.Proofs.Matching.Sight
import DialectRegex.Proofs.Stream.Serving
import DialectRegex.Source

namespace DialectRegex

structure Window where
  deliveries : Option (List Delivery)
  text : List Char
  base : Nat

inductive Source.Holds (w : Window) (reach : Nat) : Source → Prop where
  | text {h : Haystack} (hd : w.deliveries = none) (hc : ∀ i, h.charAt i = w.text[i]?)
      (hl : w.text.length ≤ h.length) : Holds w reach (.text h)
  | chars {cs : Array Char} (hd : w.deliveries = none) (hc : cs.toList = w.text) : Holds w reach (.chars cs)
  | stream {s : Stream} {ds : List Delivery} (hd : w.deliveries = some ds) (hb : s.base = w.base)
      (h : s.Conveys ds w.text reach) : Holds w reach (.stream s)

theorem Source.Holds.length_le {w : Window} {reach : Nat} {src : Source} (h : src.Holds w reach) :
    w.text.length ≤ src.bound := by
  cases h with
  | text _ _ hl => exact hl
  | chars _ hc => exact hc ▸ Nat.le_refl _
  | stream _ _ h => exact h.bounded

theorem Reading.bind_apply {α β : Type} {x : Reading α} {f : α → Reading β} {src src' : Source} {a : α}
    (h : x src = (.ok a, src')) : (x >>= f) src = f a src' := by
  change (ExceptT.bindCont f (x src).1 : StateM Source _) (x src).2 = _
  rw [h]
  rfl

namespace Window

variable {w : Window} {m : Nat} {α β : Type} {Q : Nat → α → Prop} {R : Nat → β → Prop}

/-- From any source for the text, `x` answers `y`, without a fault, and `Q` holds of how far it has read. -/
def Yields (w : Window) (m : Nat) (x : Reading α) (y : α) (Q : Nat → α → Prop) : Prop :=
  ∀ src : Source, src.Holds w m →
    ∃ src' m', x src = (.ok y, src') ∧ src'.Holds w m' ∧ m ≤ m' ∧ Q m' y

namespace Yields

theorem pure {a : α} (h : Q m a) : w.Yields m (pure a) a Q :=
  fun src hs => ⟨src, m, rfl, hs, Nat.le_refl m, h⟩

theorem bind {x : Reading α} {y : Id α} {f : α → Reading β} {g : α → Id β} (hx : w.Yields m x y Q)
    (hf : ∀ n, m ≤ n → Q n y → w.Yields n (f y) (g y) R) : w.Yields m (x >>= f) (y >>= g) R := by
  intro src hs
  obtain ⟨src', n, hrun, hs', hle, hq⟩ := hx src hs
  obtain ⟨src'', n', hrun', hs'', hle', hr⟩ := hf n hle hq src' hs'
  exact ⟨src'', n', (Reading.bind_apply hrun).trans hrun', hs'', Nat.le_trans hle hle', hr⟩

theorem mono {x : Reading α} {y : α} {Q' : Nat → α → Prop} (hx : w.Yields m x y Q)
    (h : ∀ n, m ≤ n → Q n y → Q' n y) : w.Yields m x y Q' := by
  intro src hs
  obtain ⟨src', n, hrun, hs', hle, hq⟩ := hx src hs
  exact ⟨src', n, hrun, hs', hle, h n hle hq⟩

end Yields

def coupling (w : Window) : Coupling Reading Id where
  Joins m Q x y := w.Yields m x y Q
  pure h := .pure h
  bind hx hf := hx.bind fun n hn hq => hf n _ hn hq
  mono hx h := hx.mono fun n hn hq => h n _ hn hq

def sight (w : Window) : Sight where
  kept i := w.base ≤ i
  reached n i := i ≤ n
  onward hij hi := Nat.le_trans hi hij
  lasting hn hi := Nat.le_trans hi hn
  outset n := Nat.zero_le n

def input (w : Window) : Input Id := .ofList w.text

theorem input_reads (w : Window) : w.input.Reads w.text := Input.ofList_reads w.text

theorem reads_input (w : Window) (limit : Nat) :
    w.coupling.Reads w.sight (Source.input limit).charAt (w.input.upTo limit).charAt := by
  intro m i hi src hs
  cases hs with
  | @text h hd hc hl =>
    refine ⟨.text h, m + (i + 1), ?_, .text hd hc hl, Nat.le_add_right _ _, fun _ => Nat.le_add_left _ _⟩
    exact Prod.ext (congrArg Except.ok (hc i)) rfl
  | @chars cs hd hc =>
    refine ⟨.chars cs, m + (i + 1), ?_, .chars hd hc, Nat.le_add_right _ _, fun _ => Nat.le_add_left _ _⟩
    change _ = (Except.ok w.text[i]?, _)
    rw [← hc, Array.getElem?_toList]
    rfl
  | @stream s ds hd hb h =>
    have hkept : s.base ≤ i := hb ▸ (show w.base ≤ i from hi)
    obtain ⟨n, hle, hn, hchar, hs', hb'⟩ := h.charAt hkept
    refine ⟨.stream (s.charAt i).2, n, Prod.ext hchar rfl, .stream hd (hb'.trans hb) hs', hle, ?_⟩
    intro hsome
    rcases hn with hn | hn
    · exact hn
    · have hnone : (w.input.upTo limit).charAt i = none := hn
      rw [hnone] at hsome
      cases hsome

variable {r : Regex} {source : String} {d : Dialect} {o : Options} {flags : SearchFlags} {limit : Nat}

theorem attempt_yields (hr : Regex.compile source d o = .ok r) (hl : w.text.length ≤ limit) (origin : Nat)
    {start : Nat} (hb : w.base ≤ start - 1) (hs : start ≤ m) :
    w.Yields m (r.run r.whole flags (Source.input limit) origin start)
      (r.run (m := Id) r.whole flags (w.input.upTo limit) origin start)
      (Each fun n s => (Match.ofState s).stop ≤ n) := by
  have hheld : w.Yields m (r.run r.whole flags (Source.input limit) origin start)
      (r.run (m := Id) r.whole flags (w.input.upTo limit) origin start) (Each w.sight.Held) :=
    Coupling.attempt (w.reads_input limit) rfl r flags r.whole origin hb hs
  apply hheld.mono
  intro n _ hheld s hmem
  have hrun : (r.run r.whole flags w.input origin start : Option State) = some s := by
    rw [← Regex.run_upTo w.input_reads hl]
    exact hmem
  rw [Regex.run_eq] at hrun
  have hstop := (Regex.ofState_range hr (Regex.search_sees r flags w.input_reads origin)
    (List.mem_of_mem_head? hrun)).2
  rw [hstop]
  exact (hheld s hmem).reached

theorem findAt_yields (hr : Regex.compile source d o = .ok r) (hl : w.text.length ≤ limit) {offset : Nat}
    (hb : w.base ≤ offset - 1) :
    w.Yields m (r.findAt flags (Source.input limit) offset) (r.findAt (m := Id) flags w.input offset)
      (Each fun n (found : Match) => found.stop ≤ n) := by
  rw [← Regex.findAt_upTo w.input_reads hl]
  exact Coupling.findAt (w.reads_input limit) rfl r flags (fun _ _ => attempt_yields hr hl offset) hb

end Window

end DialectRegex
