import DialectRegex.Proofs.Stream.Memory
import DialectRegex.Proofs.Text.Templates
import DialectRegex.Template

namespace DialectRegex

def Haystack.splice? (h : Haystack) (t : Template) (out : String) (offset : Nat) : List Match → Option String
  | [] => (h.slice? offset h.length).map (out ++ ·)
  | m :: ms =>
    (h.slice? offset m.start).bind fun before =>
      (t.expand? h m).bind fun e => h.splice? t (out ++ before ++ e) m.stop ms

/-- What becomes of the text from `offset` on if each match, from left to right, is replaced by something that `P`
allows for it. -/
inductive Spliced (text : List Char) (P : Match → List Char → Prop) : Nat → List Match → List Char → Prop where
  | nil {offset : Nat} (h : offset ≤ text.length) : Spliced text P offset [] (text.drop offset)
  | cons {offset : Nat} {m : Match} {ms : List Match} {e rest : List Char} (hstart : offset ≤ m.start)
      (hstop : m.start ≤ m.stop) (he : P m e) (h : Spliced text P m.stop ms rest) :
      Spliced text P offset (m :: ms) (text.extract offset m.start ++ e ++ rest)

inductive Successive (r : Regex) (n : Nat) : Nat → List Match → Prop where
  | nil {offset : Nat} (h : offset ≤ n) : Successive r n offset []
  | cons {offset : Nat} {m : Match} {ms : List Match} {t : State} (hstart : offset ≤ m.start) (hm : r.Reports n t m)
      (h : Successive r n m.stop ms) : Successive r n offset (m :: ms)

section Successive

variable {r : Regex} {offset : Nat} {ms : List Match}

theorem Regex.Reports.group_le {n : Nat} {t : State} {m : Match} (h : r.Reports n t m) {g a b : Nat}
    (hg : m.group? g = some (a, b)) : a ≤ b :=
  (h.captures g _ ((h.group_iff g a b).mp hg)).1.ordered

theorem Successive.first {n : Nat} (h : Successive r n offset ms) : Successive r n offset (ms.take 1) := by
  cases h with
  | nil h => exact .nil h
  | cons hstart hm h => exact .cons hstart hm (.nil hm.stop_le)

theorem Source.Enumerates.successive {source : String} {d : Dialect} {o : Options}
    (hr : Regex.compile source d o = .ok r) {text : List Char} {src : Source} (hs : src.InMemory text)
    {flags : SearchFlags} (h : src.Enumerates r flags offset ms) {a : Nat} (ha : a ≤ offset)
    (hlength : a ≤ text.length) : Successive r text.length a ms := by
  induction h generalizing a with
  | nil h => exact .nil hlength
  | @cons offset m ms hfind _ ih =>
    obtain ⟨hle, t, hm⟩ := hs.findAt_reports hr hfind
    exact .cons (ha.trans hle) hm (ih m.stop_le_resume hm.stop_le)

theorem Haystack.findAll_ofString (r : Regex) (s : String) :
    r.findAll (ofString s) = Matches.listing (.ofList s.toList) (s.toList.length + 2) (.start r 0 {}) := by
  rw [Regex.findAll, Matches.toList, Matches.collect_eq, input_ofString]
  rfl

theorem Regex.findAll_successive {source : String} {d : Dialect} {o : Options} (hr : compile source d o = .ok r)
    (s : String) : Successive r s.toList.length 0 (r.findAll (.ofString s)) := by
  have hs : (Source.text (.ofString s)).InMemory s.toList := .text s rfl
  have hfound : (Source.text (.ofString s)).Enumerates r {} 0 (r.findAll (.ofString s)) := by
    rw [Haystack.findAll_ofString]
    exact hs.enumerates_listing hr (by omega)
  exact hfound.successive hr hs (Nat.zero_le 0) (Nat.zero_le _)

theorem Regex.toList_find (r : Regex) (s : String) :
    (r.find (.ofString s)).toList = (r.findAll (.ofString s)).take 1 := by
  rw [Haystack.findAll_ofString, find, Haystack.input_ofString, Matches.listing_unknown rfl]
  dsimp only [Matches.start]
  cases (r.findAt {} (.ofList s.toList) 0 : Option Match) <;> rfl

end Successive

section Spliced

variable {r : Regex} {text : List Char} {P Q : Match → List Char → Prop} {offset : Nat} {ms : List Match}
  {out : List Char}

theorem Spliced.imp (h : Spliced text P offset ms out) (hs : Successive r text.length offset ms)
    (himp : ∀ t m e, r.Reports text.length t m → P m e → Q m e) : Spliced text Q offset ms out := by
  induction h with
  | nil h => exact .nil h
  | cons hstart hstop he h ih =>
    cases hs with
    | cons _ hm hs => exact .cons hstart hstop (himp _ _ _ hm he) (ih hs)

theorem Spliced.eq_drop (h : Spliced text (fun m e => e = text.extract m.start m.stop) offset ms out) :
    out = text.drop offset := by
  induction h with
  | nil => rfl
  | @cons offset m ms e rest hstart hstop he h ih =>
    have hextract {a b : Nat} (hab : a ≤ b) : text.extract a b ++ text.drop b = text.drop a := by
      rw [List.extract_eq_take_drop]
      nth_rewrite 2 [← Nat.add_sub_cancel' hab]
      rw [← List.drop_drop, List.take_append_drop]
    rw [he, ih, List.append_assoc, hextract hstop, hextract hstart]

end Spliced

namespace Haystack

variable {r : Regex} {s : String} {offset : Nat} {ms : List Match}

theorem splice_spliced (h : Successive r s.toList.length offset ms) (t : Template) (out : String) :
    (ofString s).splice? t out offset ms = some ((ofString s).splice t out offset ms) ∧
      ∃ rest, (ofString s).splice t out offset ms = out ++ .ofList rest ∧
        Spliced s.toList (fun m e => e = t.flatMap (Template.chars s.toList m)) offset ms rest := by
  induction h generalizing out with
  | @nil offset h =>
    rw [splice?, splice, length_ofString, slice?_ofString s h, slice_ofString s h]
    refine ⟨rfl, s.toList.drop offset, ?_, .nil h⟩
    rw [List.extract_eq_take_drop, ← List.length_drop, List.take_length]
  | @cons offset m ms _ hstart hm h ih =>
    obtain ⟨hexpand?, hexpand⟩ := Template.expand?_ofString (s := s) (fun _ _ _ => hm.group_le) t
    rw [splice?, splice, slice?_ofString s hstart, slice_ofString s hstart, Option.bind_some, hexpand?, hexpand,
      Option.bind_some]
    obtain ⟨hchecked, rest, hrest, hspliced⟩ := ih (out ++ .ofList (s.toList.extract offset m.start) ++
      .ofList (t.flatMap (Template.chars s.toList m)))
    refine ⟨hchecked, _, ?_, .cons hstart hm.start_le rfl hspliced⟩
    rw [hrest, String.ofList_append, String.ofList_append, String.append_assoc, String.append_assoc,
      String.append_assoc]

theorem splice_nil (s : String) (t : Template) : (ofString s).splice t "" 0 [] = s := by
  rw [splice, length_ofString, slice_ofString s (Nat.zero_le _), List.extract_eq_take_drop, List.drop_zero, Nat.sub_zero,
    List.take_length, String.ofList_toList, String.empty_append]

end Haystack

namespace Regex

variable {r : Regex}

theorem replaceAll_eq (r : Regex) (s : String) (t : Template) :
    r.replaceAll (.ofString s) t = (Haystack.ofString s).splice t "" 0 (r.findAll (.ofString s)) := by
  rw [replaceAll, replaceAll?]
  cases r.findAll (.ofString s) with
  | nil => exact (Haystack.splice_nil s t).symm
  | cons m ms => rfl

theorem replaceFirst_eq (r : Regex) (s : String) (t : Template) :
    r.replaceFirst (.ofString s) t = (Haystack.ofString s).splice t "" 0 ((r.findAll (.ofString s)).take 1) := by
  rw [replaceFirst, replaceFirst?, ← toList_find]
  cases r.find (.ofString s) with
  | none => exact (Haystack.splice_nil s t).symm
  | some m => rfl

theorem replacement_splices {source : String} {d : Dialect} {o : Options} (hr : compile source d o = .ok r) (s : String) :
    let h := Haystack.ofString s
    let ms := r.findAll h
    (∀ t : String,
      h.splice? (.ofString t) "" 0 ms = some (r.replaceAll h (.ofString t)) ∧
      h.splice? (.ofString t) "" 0 (ms.take 1) = some (r.replaceFirst h (.ofString t)) ∧
      Spliced s.toList (Expansion s.toList · t.toList) 0 ms (r.replaceAll h (.ofString t)).toList ∧
      Spliced s.toList (Expansion s.toList · t.toList) 0 (ms.take 1) (r.replaceFirst h (.ofString t)).toList) ∧
    r.replaceAll h (.ofString "$0") = s ∧
    ∀ w : String, Spliced s.toList (fun _ e => e = w.toList) 0 ms
      (r.replaceAll h (.ofString (.ofList (Template.escape w.toList)))).toList := by
  intro h ms
  have hms : Successive r s.toList.length 0 ms := findAll_successive hr s
  have hsplice {ms : List Match} (hms : Successive r s.toList.length 0 ms) (t : List Char) :
      h.splice? (.ofList t) "" 0 ms = some (h.splice (.ofList t) "" 0 ms) ∧
        Spliced s.toList (Expansion s.toList · t) 0 ms (h.splice (.ofList t) "" 0 ms).toList := by
    obtain ⟨hchecked, rest, hrest, hspliced⟩ := Haystack.splice_spliced hms (Template.ofList t) ""
    rw [String.empty_append] at hrest
    refine ⟨hchecked, ?_⟩
    rw [hrest, String.toList_ofList]
    exact hspliced.imp hms fun _ _ _ _ => Template.expansion_iff.mpr
  refine ⟨?_, ?_, ?_⟩
  · intro t
    rw [replaceAll_eq, replaceFirst_eq]
    obtain ⟨hchecked, hspliced⟩ := hsplice hms t.toList
    obtain ⟨hchecked', hspliced'⟩ := hsplice hms.first t.toList
    exact ⟨hchecked, hchecked', hspliced, hspliced'⟩
  · rw [replaceAll_eq]
    obtain ⟨_, hspliced⟩ := hsplice hms "$0".toList
    have hsame := hspliced.imp hms fun _ _ _ hm => (Template.expansion_zero hm.group_zero).mp
    exact String.toList_inj.mp hsame.eq_drop
  · intro w
    rw [replaceAll_eq, Template.ofString, String.toList_ofList]
    obtain ⟨_, hspliced⟩ := hsplice hms (Template.escape w.toList)
    exact hspliced.imp hms fun _ _ _ _ => (Template.expansion_escape w.toList _).mp

theorem replacement_splices_ahead :
    ∃ r : Regex, compile "(?=(.*))(é)?(x)?" .perl5 {} = .ok r ∧
      Spliced "aé€".toList (Expansion "aé€".toList · "<$0|$1|$3|$$1$>".toList) 0 (r.findAll (.ofString "aé€"))
        (r.replaceAll (.ofString "aé€") (.ofString "<$0|$1|$3|$$1$>")).toList ∧
      r.replaceAll (.ofString "aé€") (.ofString "<$0|$1|$3|$$1$>") = "<|aé€||$1$>a<é|é€||$1$><|€||$1$>€<|||$1$>" := by
  let ahead : Pattern := .look false (.group (some 1) (.repeated (.test (.any false true)) 0 none true))
  let optional (g : Nat) (c : Char) : Pattern :=
    .repeated (.group (some g) (.test (.literal [c] false))) 0 (some 1) true
  let r : Regex := ⟨"(?=(.*))(é)?(x)?", .perl5, {}, .seq ahead (.seq (optional 2 'é') (optional 3 'x')), 4, true, rfl⟩
  have hr : compile "(?=(.*))(é)?(x)?" .perl5 {} = .ok r := by cbv
  obtain ⟨hsplice, _, _⟩ := replacement_splices hr "aé€"
  obtain ⟨_, _, hspliced, _⟩ := hsplice "<$0|$1|$3|$$1$>"
  exact ⟨r, hr, hspliced, by decide +kernel⟩

end Regex

end DialectRegex
