-- Small letters stay: what the mapping to small letters gives is moved by none of its runs, so
-- a text in small letters is its own. Most ASCII letters are what ASCII characters only become, so
-- for words of these letters the mapping of ASCII does.
import LiteralFolding.Text.Case.Lower

namespace LiteralFolding.Text

/-! ## Runs and what they give -/

namespace CaseRun

/-- Where a run takes its first code. -/
def start (run : CaseRun) : Nat := ((run.first : Int) + run.shift).toNat

/-- Where a run takes the last code that it can have. -/
def stop (run : CaseRun) : Nat := run.start + (run.last - run.first)

/-- Does a run move its codes to codes of characters? -/
def isSound (run : CaseRun) : Bool :=
  0 ≤ (run.first : Int) + run.shift &&
    (run.stop < 0xD800 || (0xDFFF < run.start && run.stop < 0x110000))

/-- Do the codes of a run lie an even number apart? -/
def skips (run : CaseRun) : Bool := run.step.beq 2 || run.first.beq run.last

/-- Nothing that a run gives is moved by the other one: it lies before the codes of that one,
after them, or between them. -/
def avoids (run other : CaseRun) : Bool :=
  run.stop.blt other.first || other.last.blt run.start ||
    (run.skips && other.step.beq 2 && ((run.start + other.first) % 2).beq 1)

variable {run other : CaseRun} {code : Nat}

/-- A code and the first one of its run are moved by the same amount. -/
theorem shifted_eq (hsound : run.isSound = true) (hcode : run.has code = true) :
    ((code : Int) + run.shift).toNat = run.start + (code - run.first) := by
  simp only [has, Bool.and_eq_true, decide_eq_true_eq] at hcode
  simp only [isSound, Bool.and_eq_true, decide_eq_true_eq] at hsound
  unfold start
  omega

theorem isValidChar_shifted (hsound : run.isSound = true) (hcode : run.has code = true) :
    ((code : Int) + run.shift).toNat.isValidChar := by
  rw [shifted_eq hsound hcode]
  simp only [has, Bool.and_eq_true, decide_eq_true_eq] at hcode
  simp only [isSound, Bool.and_eq_true, Bool.or_eq_true, decide_eq_true_eq] at hsound
  unfold stop at hsound
  unfold Nat.isValidChar
  omega

theorem not_has_shifted (hsound : run.isSound = true) (havoids : run.avoids other = true)
    (hcode : run.has code = true) : other.has ((code : Int) + run.shift).toNat = false := by
  rw [shifted_eq hsound hcode]
  simp only [has, Bool.and_eq_true, decide_eq_true_eq, beq_iff_eq] at hcode
  simp only [avoids, stop, skips, Bool.or_eq_true, Bool.and_eq_true, Nat.blt_eq, Nat.beq_eq] at havoids
  rw [Bool.eq_false_iff]
  intro hother
  simp only [has, Bool.and_eq_true, decide_eq_true_eq, beq_iff_eq] at hother
  obtain (hbefore | hafter) | ⟨⟨hstep | hsingle, hother_step⟩, hodd⟩ := havoids
  · omega
  · omega
  -- In the last two cases what the run gives and the codes of the other one differ in parity.
  · rw [hstep] at hcode
    rw [hother_step] at hother
    omega
  · rw [hother_step] at hother
    omega

end CaseRun

/-! ## The small letters -/

/-- The one character whose small letter is a sequence, as a run. -/
def sequenceRun : CaseRun := ⟨0x130, 0x130, 1, 0⟩

/-- The run of the ASCII capitals. -/
def capitalRun : CaseRun := ⟨0x41, 0x5A, 1, 32⟩

/-- A text of characters that are their own small letters. -/
def IsSmall (t : Text) : Prop := ∀ c ∈ t, smallLetters.apply c = [c]

instance (t : Text) : Decidable (IsSmall t) :=
  decidable_of_iff (t.all fun c => smallLetters.apply c == [c]) (by simp [IsSmall])

/-- The small ASCII letters that no character outside ASCII becomes. The dotted capital I becomes
an `i` with a dot above it, and the kelvin sign becomes a `k`. -/
def isPlain (c : Char) : Bool := 97 ≤ c.toNat && c.toNat ≤ 122 && c != 'i' && c != 'k'

/-- A run that moves a character outside ASCII does not move it to a plain letter. -/
def CaseRun.sparesPlain (run : CaseRun) : Bool :=
  run.last < 128 || run.stop < 97 || 122 < run.start || (run.start == 107 && run.stop == 107)

-- What the table says about itself, run by run.

theorem smallRuns_eq : smallRuns = capitalRun :: smallRuns.tail := rfl

theorem apply_capitalRun :
    ∀ n < 128, CaseMapping.apply ⟨[capitalRun], []⟩ (Char.ofNat n) = [(Char.ofNat n).toLower] := by
  decide +kernel

theorem smallRuns_tail_outside : smallRuns.tail.all (128 ≤ ·.first) = true := by
  decide +kernel

theorem smallRuns_regular :
    (smallRuns.all fun run => run.isSound && run.sparesPlain &&
      (sequenceRun :: smallRuns).all run.avoids) = true := by
  decide +kernel

theorem regular_of_mem {run : CaseRun} (hrun : run ∈ smallRuns) :
    run.isSound = true ∧ run.sparesPlain = true ∧
      ∀ other ∈ sequenceRun :: smallRuns, run.avoids other = true := by
  have hregular := List.all_eq_true.mp smallRuns_regular run hrun
  rwa [Bool.and_eq_true, Bool.and_eq_true, and_assoc, List.all_eq_true] at hregular

/-- The letters that are given otherwise than by a run: the one sequence, and the two forms of the
sigma. -/
theorem isSmall_special :
    IsSmall [Char.ofNat 0x69, Char.ofNat 0x307, '\u03c2', '\u03c3'] := by
  decide +kernel

theorem apply_capitalSigma : smallLetters.apply '\u03a3' = ['\u03c3'] := rfl

/-! ## A text in small letters -/

theorem lookup_smallSequences (code : Nat) :
    smallSequences.lookup code = if code = 0x130 then some [0x69, 0x307] else none := by
  by_cases h : code = 0x130
  · subst h
    rfl
  · simp [smallSequences, h]

theorem apply_of_avoided {c : Char} (hseq : sequenceRun.has c.toNat = false)
    (hruns : ∀ run ∈ smallRuns, run.has c.toNat = false) : smallLetters.apply c = [c] := by
  have hlookup : smallSequences.lookup c.toNat = none := by
    rw [lookup_smallSequences, if_neg]
    intro heq
    rw [heq] at hseq
    exact absurd hseq (by decide)
  have hfind : smallRuns.find? (·.has c.toNat) = none := by
    rw [List.find?_eq_none]
    intro run hrun
    simp [hruns run hrun]
  simp [CaseMapping.apply, smallLetters, hlookup, hfind]

theorem toNat_ofNat {n : Nat} (h : n.isValidChar) : (Char.ofNat n).toNat = n := by
  unfold Char.ofNat
  rw [dif_pos h]
  rfl

/-- What a run gives is a small letter. -/
theorem isSmall_shifted {run : CaseRun} {code : Nat} (hrun : run ∈ smallRuns)
    (hcode : run.has code = true) : IsSmall [Char.ofNat ((code : Int) + run.shift).toNat] := by
  obtain ⟨hsound, -, havoids⟩ := regular_of_mem hrun
  have havoid : ∀ other ∈ sequenceRun :: smallRuns,
      other.has ((code : Int) + run.shift).toNat = false := fun other hother =>
    CaseRun.not_has_shifted hsound (havoids other hother) hcode
  have hvalid := CaseRun.isValidChar_shifted hsound hcode
  have htoNat := toNat_ofNat hvalid
  intro c hc
  obtain rfl := List.mem_singleton.mp hc
  apply apply_of_avoided
  · rw [htoNat]
    exact havoid _ List.mem_cons_self
  · intro other hother
    rw [htoNat]
    exact havoid other (List.mem_cons_of_mem _ hother)

/-- What a character becomes: the one sequence, what a run moves it to, or itself. -/
theorem apply_cases (c : Char) :
    smallLetters.apply c = [Char.ofNat 0x69, Char.ofNat 0x307] ∨
      (∃ run ∈ smallRuns, run.has c.toNat = true ∧
        smallLetters.apply c = [Char.ofNat ((c.toNat : Int) + run.shift).toNat]) ∨
      smallLetters.apply c = [c] := by
  unfold CaseMapping.apply
  split
  · rename_i codes hcodes
    rw [smallLetters, lookup_smallSequences] at hcodes
    split at hcodes
    · obtain rfl := Option.some.inj hcodes
      exact .inl rfl
    · cases hcodes
  · split
    · rename_i run hrun
      exact .inr (.inl ⟨run, List.mem_of_find?_eq_some hrun,
        List.find?_some (p := fun run : CaseRun => run.has c.toNat) hrun, rfl⟩)
    · exact .inr (.inr rfl)

theorem IsSmall.append {s t : Text} (hs : IsSmall s) (ht : IsSmall t) : IsSmall (s ++ t) := by
  intro c hc
  exact (List.mem_append.mp hc).elim (hs c) (ht c)

theorem IsSmall.of_subset {s t : Text} (ht : IsSmall t) (hsub : s ⊆ t) : IsSmall s :=
  fun c hc => ht c (hsub hc)

theorem isSmall_apply (c : Char) : IsSmall (smallLetters.apply c) := by
  rcases apply_cases c with happly | ⟨run, hrun, hcode, happly⟩ | happly
  · rw [happly]
    exact IsSmall.of_subset isSmall_special (by simp)
  · rw [happly]
    exact isSmall_shifted hrun hcode
  · rw [happly]
    intro d hd
    rw [List.mem_singleton.mp hd]
    exact happly

theorem isSmall_lowerAfter (before t : Text) : IsSmall (lowerAfter before t) := by
  induction t generalizing before with
  | nil => exact fun c hc => absurd hc List.not_mem_nil
  | cons c t ih =>
    rw [lowerAfter]
    refine IsSmall.append ?_ (ih (c :: before))
    split
    · split
      · exact IsSmall.of_subset isSmall_special (by simp)
      · exact IsSmall.of_subset isSmall_special (by simp)
    · exact isSmall_apply c

/-- A text in small letters holds small letters only. -/
theorem isSmall_lower (t : Text) : IsSmall (lower t) := isSmall_lowerAfter [] t

theorem lowerAfter_of_isSmall {t : Text} (h : IsSmall t) (before : Text) :
    lowerAfter before t = t := by
  induction t generalizing before with
  | nil => rfl
  | cons c t ih =>
    have hc : smallLetters.apply c = [c] := h c List.mem_cons_self
    -- A capital sigma is not its own small letter, so the case that looks around does not occur.
    have hsigma : c ≠ '\u03a3' := by
      rintro rfl
      rw [apply_capitalSigma] at hc
      exact absurd hc (by decide)
    rw [lowerAfter, if_neg hsigma, hc, ih (h.of_subset (List.subset_cons_self c t))]
    rfl

/-- Small letters stay as they are. -/
theorem lower_of_isSmall {t : Text} (h : IsSmall t) : lower t = t := lowerAfter_of_isSmall h []

/-! ## Small letters of ASCII -/

theorem ascii_of_isPlain {c : Char} (h : isPlain c = true) : c.toNat < 128 := by
  simp only [isPlain, Bool.and_eq_true, decide_eq_true_eq] at h
  omega

theorem apply_of_ascii {c : Char} (h : c.toNat < 128) : smallLetters.apply c = [c.toLower] := by
  have hlookup : smallSequences.lookup c.toNat = none := by
    rw [lookup_smallSequences, if_neg (by omega)]
  have hrest : smallRuns.tail.find? (·.has c.toNat) = none := by
    rw [List.find?_eq_none]
    intro run hrun hhas
    have hfirst := List.all_eq_true.mp smallRuns_tail_outside run hrun
    simp only [CaseRun.has, Bool.and_eq_true, decide_eq_true_eq] at hhas hfirst
    omega
  have hfind : smallRuns.find? (·.has c.toNat) = [capitalRun].find? (·.has c.toNat) := by
    rw [smallRuns_eq, List.find?_cons, List.find?_cons, hrest]
    rfl
  have hc := apply_capitalRun c.toNat h
  rw [Char.ofNat_toNat] at hc
  rw [← hc, CaseMapping.apply, CaseMapping.apply, smallLetters, hlookup, hfind]
  rfl

theorem toLower_of_not_ascii {c : Char} (h : 128 ≤ c.toNat) : c.toLower = c := by
  unfold Char.toLower
  rw [dif_neg]
  rintro ⟨-, hle⟩
  have : c.toNat ≤ 90 := hle
  omega

theorem not_isPlain_shifted {run : CaseRun} {code : Nat} (hrun : run ∈ smallRuns)
    (hcode : run.has code = true) (h : 128 ≤ code) :
    isPlain (Char.ofNat ((code : Int) + run.shift).toNat) = false := by
  obtain ⟨hsound, hspares, -⟩ := regular_of_mem hrun
  have hvalid := CaseRun.isValidChar_shifted hsound hcode
  rw [CaseRun.shifted_eq hsound hcode] at hvalid ⊢
  rw [Bool.eq_false_iff]
  intro hplain
  simp only [isPlain, toNat_ofNat hvalid, Bool.and_eq_true, decide_eq_true_eq, bne_iff_ne] at hplain
  obtain ⟨⟨⟨hlow, hhigh⟩, -⟩, hk⟩ := hplain
  simp only [CaseRun.has, Bool.and_eq_true, decide_eq_true_eq] at hcode
  simp only [CaseRun.sparesPlain, Bool.or_eq_true, Bool.and_eq_true, decide_eq_true_eq,
    beq_iff_eq] at hspares
  unfold CaseRun.stop at hspares
  obtain ((hlast | hstop) | hstart) | ⟨hstart, hstop⟩ := hspares
  · omega
  · omega
  · omega
  · have hcode : run.start + (code - run.first) = 107 := by omega
    rw [hcode] at hk
    exact hk rfl

/-- A character outside ASCII leaves something in a text in small letters that is no plain
letter. -/
theorem exists_not_isPlain {c : Char} (h : 128 ≤ c.toNat) :
    ∃ d ∈ smallLetters.apply c, isPlain d = false := by
  rcases apply_cases c with happly | ⟨run, hrun, hcode, happly⟩ | happly
  · exact ⟨Char.ofNat 0x69, by simp [happly], by decide⟩
  · exact ⟨_, by simp [happly], not_isPlain_shifted hrun hcode h⟩
  · refine ⟨c, by simp [happly], Bool.eq_false_iff.mpr fun hplain => ?_⟩
    have := ascii_of_isPlain hplain
    omega

/-- A text that has a character outside ASCII in it has no small letters that are all plain. -/
theorem ascii_of_lowerAfter {before t : Text} (h : (lowerAfter before t).all isPlain = true) :
    ∀ c ∈ t, c.toNat < 128 := by
  induction t generalizing before with
  | nil => simp
  | cons c t ih =>
    rw [lowerAfter, List.all_append, Bool.and_eq_true] at h
    obtain ⟨hsmall, hrest⟩ := h
    refine List.forall_mem_cons.mpr ⟨Nat.lt_of_not_le fun hc => ?_, ih hrest⟩
    split at hsmall
    · split at hsmall <;> exact absurd hsmall (by decide)
    · obtain ⟨d, hd, hplain⟩ := exists_not_isPlain hc
      rw [List.all_eq_true.mp hsmall d hd] at hplain
      cases hplain

theorem lowerAfter_of_ascii {t : Text} (h : ∀ c ∈ t, c.toNat < 128) (before : Text) :
    lowerAfter before t = lowerAscii t := by
  induction t generalizing before with
  | nil => rfl
  | cons c t ih =>
    rw [List.forall_mem_cons] at h
    have hsigma : c ≠ '\u03a3' := by
      rintro rfl
      exact absurd h.1 (by decide)
    rw [lowerAfter, if_neg hsigma, apply_of_ascii h.1, ih h.2]
    rfl

theorem ascii_of_lowerAscii {t : Text} (h : (lowerAscii t).all isPlain = true) :
    ∀ c ∈ t, c.toNat < 128 := by
  refine fun c hc => Nat.lt_of_not_le fun hnot => ?_
  have hplain := List.all_eq_true.mp h c.toLower (List.mem_map_of_mem hc)
  rw [toLower_of_not_ascii hnot] at hplain
  have := ascii_of_isPlain hplain
  omega

/-- For words of plain letters the mapping of ASCII alone tells as much as the full one. -/
theorem lower_eq_iff {word : Text} (h : word.all isPlain = true) (t : Text) :
    lower t = word ↔ lowerAscii t = word := by
  constructor
  · rintro rfl
    exact (lowerAfter_of_ascii (ascii_of_lowerAfter h) []).symm
  · rintro rfl
    exact lowerAfter_of_ascii (ascii_of_lowerAscii h) []

end LiteralFolding.Text
