import DialectRegex.Proofs.Text.RangeTables
import DialectRegex.Unicode.CaseMapping
import Mathlib.Data.List.Basic

namespace DialectRegex.Unicode

def images (runs : Array CaseRun) : List Char :=
  runs.toList.flatMap fun r =>
    (List.range ((r.last - r.first) / r.step + 1)).map fun k => Char.ofNat (↑(r.first + r.step * k) + r.shift).toNat

def entries (runs : Array CaseRun) : List (Char × Char) :=
  runs.toList.flatMap fun r => (List.range ((r.last - r.first) / r.step + 1)).map fun k =>
    (Char.ofNat (r.first + r.step * k), Char.ofNat (↑(r.first + r.step * k) + r.shift).toNat)

theorem mapCase_entries (runs : Array CaseRun) (c : Char) :
    mapCase runs c = c ∨ (c, mapCase runs c) ∈ entries runs := by
  rw [mapCase]
  split
  · exact .inl rfl
  · next r hr =>
    obtain ⟨hmem, hlow, hhigh⟩ := findBetween_mem (by rwa [find?] at hr)
    split
    · next hstep =>
      refine .inr (List.mem_flatMap.mpr ⟨r, hmem, List.mem_map.mpr ⟨(c.toNat - r.first) / r.step, ?_, ?_⟩⟩)
      · rw [List.mem_range, Nat.lt_succ_iff]
        exact Nat.div_le_div_right (by omega)
      · rw [Nat.mul_div_cancel' (Nat.dvd_of_mod_eq_zero hstep), Nat.add_sub_cancel' hlow, Char.ofNat_toNat]
    · exact .inl rfl

theorem mem_images {runs : Array CaseRun} {e : Char × Char} (he : e ∈ entries runs) : e.2 ∈ images runs := by
  obtain ⟨r, hr, hmem⟩ := List.mem_flatMap.mp he
  obtain ⟨k, hk, rfl⟩ := List.mem_map.mp hmem
  exact List.mem_flatMap.mpr ⟨r, hr, List.mem_map_of_mem hk⟩

theorem mapCase_cases (runs : Array CaseRun) (c : Char) : mapCase runs c = c ∨ mapCase runs c ∈ images runs :=
  (mapCase_entries runs c).imp_right mem_images

theorem forall_of_ascii {P : Char → Prop} (hascii : ∀ n < 0x80, P (Char.ofNat n)) (hrest : ∀ c, ¬ c.toNat < 0x80 → P c)
    (c : Char) : P c := by
  by_cases hlt : c.toNat < 0x80
  · have h := hascii c.toNat hlt
    rwa [Char.ofNat_toNat] at h
  · exact hrest c hlt

structure Settles (f : Char → Char) (c : Char) : Prop where
  again : f (f c) = f c
  newline : f c = '\n' → c = '\n'

instance (f : Char → Char) (c : Char) : Decidable (Settles f c) :=
  decidable_of_iff (f (f c) = f c ∧ (f c = '\n' → c = '\n')) ⟨fun h => ⟨h.1, h.2⟩, fun h => ⟨h.again, h.newline⟩⟩

theorem settles_of_images {f : Char → Char} {runs : Array CaseRun} (hf : ∀ c, ¬ c.toNat < 0x80 → f c = mapCase runs c)
    (hascii : ∀ n < 0x80, Settles f (Char.ofNat n)) (himages : (images runs).all fun a => f a == a && a != '\n')
    (c : Char) : Settles f c := by
  refine forall_of_ascii hascii (fun c hlt => ?_) c
  -- a character that the table leaves alone settles at once, and the others are all mapped to images
  rcases mapCase_cases runs c with h | h
  · rw [← hf c hlt] at h
    exact ⟨congrArg f h, fun hc => h ▸ hc⟩
  · rw [← hf c hlt] at h
    have himage := List.all_eq_true.mp himages _ h
    rw [Bool.and_eq_true, beq_iff_eq, bne_iff_ne] at himage
    exact ⟨himage.1, fun hc => absurd hc himage.2⟩

theorem settles_toLower : ∀ c, Settles toLower c :=
  @settles_of_images toLower lowerRuns (fun _ h => if_neg h) (by decide +kernel) (by decide +kernel)

theorem settles_toUpper : ∀ c, Settles toUpper c :=
  @settles_of_images toUpper upperRuns (fun _ h => if_neg h) (by decide +kernel) (by decide +kernel)

theorem forall_of_entries {f : Char → Char} {runs : Array CaseRun} {P : Char → Char → Prop}
    (hf : ∀ c, ¬ c.toNat < 0x80 → f c = mapCase runs c) (hsame : ∀ c, f c = c → P c c)
    (hascii : ∀ n < 0x80, P (Char.ofNat n) (f (Char.ofNat n))) (hentries : ∀ e ∈ entries runs, P e.1 e.2) (c : Char) :
    P c (f c) := by
  refine forall_of_ascii (P := fun c => P c (f c)) hascii (fun c hlt => ?_) c
  rcases mapCase_entries runs c with h | h
  · rw [← hf c hlt] at h
    rw [h]
    exact hsame c h
  · rw [hf c hlt]
    exact hentries _ h

end DialectRegex.Unicode
