-- Digits and the numbers that they spell. A number is spelled by the digits before its last one
-- and that digit; reading digits from the left gives this number and nothing else.
import LiteralFolding.Text.Digit
import Mathlib.Algebra.Group.Nat.Defs
import Mathlib.Data.List.Induction

namespace LiteralFolding.Text

variable {base n m : Nat} {word t rest : Text} {c : Char}

/-! ## Spelling -/

/-- The digits `word` of base `base` spell the number. -/
inductive Spelled (base : Nat) : Text → Nat → Prop
  | nil : Spelled base [] 0
  | snoc {word : Text} {n d : Nat} {c : Char} :
      Spelled base word n → hexValue? c = some d → d < base → Spelled base (word ++ [c]) (n * base + d)

theorem digitValue?_eq_some_iff {d : Nat} :
    digitValue? base c = some d ↔ hexValue? c = some d ∧ d < base := by
  simp [digitValue?, Option.filter_eq_some_iff]

/-- What reading from the left makes of digits: nothing if another character is among them. -/
theorem foldlM_digits_eq_some_iff :
    word.foldlM (fun acc c => (digitValue? base c).map (acc * base + ·)) 0 = some n ↔
      Spelled base word n := by
  induction word using List.reverseRecOn generalizing n with
  | nil =>
    constructor
    · intro h
      cases h
      exact .nil
    · intro h
      generalize hw : ([] : Text) = word at h
      cases h with
      | nil => rfl
      | snoc _ _ _ => simp at hw
  | append_singleton word c ih =>
    rw [List.foldlM_append, Option.bind_eq_bind, Option.bind_eq_some_iff]
    constructor
    · rintro ⟨m, hm, hstep⟩
      rw [List.foldlM_cons, Option.bind_eq_bind, Option.bind_eq_some_iff] at hstep
      obtain ⟨k, hk, hnil⟩ := hstep
      obtain ⟨d, hd, rfl⟩ := Option.map_eq_some_iff.mp hk
      cases hnil
      obtain ⟨hvalue, hlt⟩ := digitValue?_eq_some_iff.mp hd
      exact .snoc (ih.mp hm) hvalue hlt
    · intro h
      generalize hw : word ++ [c] = whole at h
      cases h with
      | nil => simp at hw
      | snoc hword hvalue hlt =>
        obtain ⟨rfl, hc⟩ := List.append_inj' hw rfl
        cases hc
        refine ⟨_, ih.mpr hword, ?_⟩
        simp [digitValue?_eq_some_iff.mpr ⟨hvalue, hlt⟩]

theorem wholeValue?_eq_some_iff : wholeValue? base word = some n ↔ word ≠ [] ∧ Spelled base word n := by
  rw [wholeValue?, ← foldlM_digits_eq_some_iff]
  cases word with
  | nil => simp
  | cons c word => simp

theorem fixedValue?_eq_some_iff {count : Nat} (hcount : 0 < count) :
    fixedValue? base count t = some (n, rest) ↔
      ∃ word, t = word ++ rest ∧ word.length = count ∧ Spelled base word n := by
  unfold fixedValue?
  constructor
  · intro h
    dsimp only at h
    split at h
    · rename_i hlen
      obtain ⟨m, hm, heq⟩ := Option.map_eq_some_iff.mp h
      obtain ⟨rfl, rfl⟩ := Prod.mk.inj heq
      exact ⟨t.take count, (List.take_append_drop ..).symm, hlen, (wholeValue?_eq_some_iff.mp hm).2⟩
    · cases h
  · rintro ⟨word, rfl, rfl, hword⟩
    have hne : word ≠ [] := List.ne_nil_of_length_pos hcount
    simp [wholeValue?_eq_some_iff.mpr ⟨hne, hword⟩]

/-! ## Values -/

theorem Spelled.unique (h : Spelled base word n) (h' : Spelled base word m) : n = m :=
  Option.some.inj ((foldlM_digits_eq_some_iff.mpr h).symm.trans (foldlM_digits_eq_some_iff.mpr h'))

theorem Spelled.lt_pow (h : Spelled base word n) : n < base ^ word.length := by
  induction h with
  | nil => simp
  | @snoc word n d c _ _ hd ih =>
    rw [List.length_append, List.length_singleton, Nat.pow_succ]
    have hle : (n + 1) * base ≤ base ^ word.length * base := Nat.mul_le_mul_right base ih
    rw [Nat.succ_mul] at hle
    omega

theorem Spelled.isSome_hexValue? (h : Spelled base word n) : ∀ c ∈ word, (hexValue? c).isSome := by
  induction h with
  | nil => simp
  | snoc _ hvalue _ ih =>
    intro x hx
    rcases List.mem_append.mp hx with hx | hx
    · exact ih x hx
    · rw [List.mem_singleton.mp hx, hvalue]
      rfl

end LiteralFolding.Text
