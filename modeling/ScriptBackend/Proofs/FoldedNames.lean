import Mathlib.Data.List.Basic
import ScriptBackend.Reference.Set

/-! # Folded names

Uppercasing goes character by character, so the form of a name that is compared is put together
from the forms of its parts.  That it is its own form (`uppercase_uppercase`) is a fact about the
tables: whatever stands for a letter, alone or as one of several capitals, is not itself a small
letter of a run or one that is written out.

The tables have a good fifteen hundred small letters and as many capitals.  Instead of comparing
each with each, both are gathered in numbers with one bit for each code point (`bits`), and the
two numbers have no bit in common (`bits_smallLetters_and_bits_capitalLetters`).
-/
namespace ScriptBackend.Text

/-- The small letters of a run. -/
def LetterRun.letters (r : LetterRun) : List Nat :=
  List.range' r.first ((r.last - r.first) / r.step + 1) r.step

/-- The code points whose capital form is not just themselves, as far as the tables tell. -/
def smallLetters : List Nat :=
  letterRuns.flatMap (·.letters) ++ expansions.map Prod.fst

/-- The code points that capital forms of small letters are made of. -/
def capitalLetters : List Nat :=
  letterRuns.flatMap (fun r => r.letters.map fun n : Nat => (n + r.shift).toNat) ++
    expansions.flatMap Prod.snd

variable {n m : Nat} {r : LetterRun}

theorem LetterRun.mem_letters_of_capital? (h : r.capital? n = some m) :
    n ∈ r.letters ∧ m = (n + r.shift).toNat := by
  unfold capital? at h
  split at h
  case isFalse => cases h
  case isTrue hrun =>
    obtain ⟨hfirst, hlast, hstep⟩ := hrun
    refine ⟨List.mem_range'.mpr ⟨(n - r.first) / r.step, ?_, ?_⟩, (Option.some.inj h).symm⟩
    · have hle : (n - r.first) / r.step ≤ (r.last - r.first) / r.step :=
        Nat.div_le_div_right (by omega)
      omega
    · have hdiv : r.step * ((n - r.first) / r.step) = n - r.first :=
        Nat.mul_div_cancel' (Nat.dvd_of_mod_eq_zero hstep)
      omega

/-! ### What capital forms are made of -/

/-- No other code point is changed. -/
theorem capitalForm_of_not_mem (h : n ∉ smallLetters) : capitalForm n = [n] := by
  rw [smallLetters, List.mem_append, not_or] at h
  have hruns : letterRuns.findSome? (·.capital? n) = none := by
    refine List.findSome?_eq_none_iff.mpr fun r hr => ?_
    rcases hcapital : r.capital? n with _ | m
    · rfl
    · exact absurd (List.mem_flatMap.mpr ⟨r, hr, (r.mem_letters_of_capital? hcapital).1⟩) h.1
  have hexpansions : expansions.lookup n = none := by
    refine List.lookup_eq_none_iff.mpr fun entry hentry => ?_
    exact bne_iff_ne.mpr fun hn => h.2 (List.mem_map.mpr ⟨entry, hentry, hn.symm⟩)
  rw [capitalForm, hruns, hexpansions]
  rfl

/-- What is changed, is changed into capital letters. -/
theorem mem_capitalForm (h : m ∈ capitalForm n) :
    m ∈ capitalLetters ∨ m = n ∧ capitalForm n = [n] := by
  rcases hruns : letterRuns.findSome? (·.capital? n) with _ | capital
  · rcases hlookup : expansions.lookup n with _ | form
    · have hform : capitalForm n = [n] := by
        rw [capitalForm, hruns, hlookup]
        rfl
      rw [hform, List.mem_singleton] at h
      exact Or.inr ⟨h, hform⟩
    · rw [capitalForm, hruns, hlookup] at h
      obtain ⟨before, after, hentries, -⟩ := List.lookup_eq_some_iff.mp hlookup
      have hentry : (n, form) ∈ expansions := by
        rw [hentries]
        exact List.mem_append_right before List.mem_cons_self
      exact Or.inl (List.mem_append_right _ (List.mem_flatMap.mpr ⟨_, hentry, h⟩))
  · rw [capitalForm, hruns, List.mem_singleton] at h
    obtain ⟨r, hr, hcapital⟩ := List.exists_of_findSome?_eq_some hruns
    obtain ⟨hn, hshift⟩ := r.mem_letters_of_capital? hcapital
    have hmem : m ∈ r.letters.map fun n : Nat => (n + r.shift).toNat :=
      List.mem_map.mpr ⟨n, hn, by rw [h, hshift]⟩
    exact Or.inl (List.mem_append_left _ (List.mem_flatMap.mpr ⟨r, hr, hmem⟩))

/-! ### No capital letter is a small one -/

/-- The number whose bits are set at the given places. -/
def bits (places : List Nat) : Nat :=
  places.foldr (fun n rest => 1 <<< n ||| rest) 0

theorem testBit_bits {places : List Nat} : (bits places).testBit n = true ↔ n ∈ places := by
  induction places with
  | nil => simp [bits]
  | cons place places ih =>
    have hcons : bits (place :: places) = 1 <<< place ||| bits places := rfl
    rw [hcons, Nat.testBit_or, Bool.or_eq_true, ih, Nat.one_shiftLeft, Nat.testBit_two_pow,
      decide_eq_true_eq, List.mem_cons, eq_comm]

theorem bits_smallLetters_and_bits_capitalLetters :
    bits smallLetters &&& bits capitalLetters = 0 := by
  decide +kernel

theorem not_mem_smallLetters (h : m ∈ capitalLetters) : m ∉ smallLetters := by
  intro hsmall
  have hbit : (bits smallLetters &&& bits capitalLetters).testBit m = true := by
    rw [Nat.testBit_and, testBit_bits.mpr hsmall, testBit_bits.mpr h]
    rfl
  rw [bits_smallLetters_and_bits_capitalLetters, Nat.zero_testBit] at hbit
  cases hbit

theorem isValidChar_of_mem_capitalLetters : ∀ m ∈ capitalLetters, m.isValidChar := by
  decide +kernel

/-! ### Texts -/

/-- **What a character becomes, stays as it is**, each character of a capital form by itself. -/
theorem capitals_of_mem_capitals {c d : Char} (h : d ∈ capitals c) : capitals d = [d] := by
  obtain ⟨m, hm, rfl⟩ := List.mem_map.mp h
  rcases mem_capitalForm hm with hcapital | ⟨rfl, hform⟩
  · have hcode : (Char.ofNat m).toNat = m := by
      rw [Char.ofNat, dif_pos (isValidChar_of_mem_capitalLetters m hcapital)]
      rfl
    rw [capitals, hcode, capitalForm_of_not_mem (not_mem_smallLetters hcapital),
      List.map_singleton]
  · rw [capitals, Char.ofNat_toNat, hform, List.map_singleton, Char.ofNat_toNat]

theorem capitals_of_mem_uppercase {s : String} {d : Char} (h : d ∈ (uppercase s).toList) :
    capitals d = [d] := by
  rw [uppercase, String.toList_ofList] at h
  obtain ⟨c, -, hd⟩ := List.mem_flatMap.mp h
  exact capitals_of_mem_capitals hd

/-- A text of such characters is its own uppercase. -/
theorem uppercase_of_capitals {s : String} (h : ∀ c ∈ s.toList, capitals c = [c]) :
    uppercase s = s := by
  have hsame : s.toList.flatMap capitals = s.toList := by
    rw [List.flatMap_congr h, List.flatMap_singleton']
  rw [uppercase, hsame, String.ofList_toList]

theorem uppercase_uppercase (s : String) : uppercase (uppercase s) = uppercase s :=
  uppercase_of_capitals fun _ => capitals_of_mem_uppercase

end ScriptBackend.Text

namespace ScriptBackend

/-- **Folding is done once and for all, and part by part.**  The folded form of two names one after
the other is that of the first followed by that of the second.  It has only characters that stand
for themselves, so it is its own folded form, and no set of assemblies tells a name from its
folded form. -/
theorem foldName_settles (a b : String) :
    foldName (a ++ b) = foldName a ++ foldName b ∧
      (∀ c ∈ (foldName a).toList, Text.capitals c = [c]) ∧
      foldName (foldName a) = foldName a ∧
      ∀ set : AssemblySet, set.isReferenced (foldName a) = set.isReferenced a ∧
        set.getByName? (foldName a) = set.getByName? a := by
  have hfold : foldName (foldName a) = foldName a := Text.uppercase_uppercase a
  refine ⟨Text.uppercase_append a b, fun c => Text.capitals_of_mem_uppercase, hfold, fun set => ?_⟩
  rw [AssemblySet.isReferenced, AssemblySet.isReferenced, AssemblySet.getByName?,
    AssemblySet.getByName?, hfold]
  exact ⟨rfl, rfl⟩

example : foldName "Maße.ﬁς" = "MASSE.FIΣ" := by decide +kernel

end ScriptBackend
