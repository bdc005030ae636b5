-- Slices by bytes and by characters: a slice is there exactly when the text can be cut into a
-- front, the slice and a back at its two ends.
import LiteralFolding.Text.Basic

namespace LiteralFolding.Text

variable {t u v : Text} {a b c : Nat}

/-! ## The length in bytes -/

@[simp] theorem byteLength_nil : byteLength [] = 0 := rfl

@[simp] theorem byteLength_cons (x : Char) (t : Text) :
    byteLength (x :: t) = x.utf8Size + byteLength t := rfl

@[simp] theorem byteLength_append (t u : Text) :
    byteLength (t ++ u) = byteLength t + byteLength u := by
  induction t with
  | nil => simp
  | cons x t ih =>
    simp only [List.cons_append, byteLength_cons, ih]
    omega

theorem eq_nil_of_byteLength (h : byteLength t = 0) : t = [] := by
  cases t with
  | nil => rfl
  | cons x t =>
    have := x.utf8Size_pos
    simp only [byteLength_cons] at h
    omega

/-- Two cuts of a text at the same byte are the same cut. -/
theorem append_inj_of_byteLength {front back front' back' : Text}
    (h : front ++ back = front' ++ back') (hlen : byteLength front = byteLength front') :
    front = front' ∧ back = back' := by
  induction front generalizing front' with
  | nil =>
    obtain rfl := eq_nil_of_byteLength (t := front') (by simpa using hlen.symm)
    exact ⟨rfl, h⟩
  | cons x front ih =>
    cases front' with
    | nil =>
      have := x.utf8Size_pos
      simp only [byteLength_cons, byteLength_nil] at hlen
      omega
    | cons y front' =>
      simp only [List.cons_append, List.cons.injEq] at h
      obtain ⟨rfl, h⟩ := h
      obtain ⟨rfl, rfl⟩ := ih h (by simpa using hlen)
      exact ⟨rfl, rfl⟩

/-- Of two cuts of a text the later one is the earlier one with more at its front. -/
theorem exists_append_of_byteLength_le {front back front' back' : Text}
    (h : front ++ back = front' ++ back') (hle : byteLength front ≤ byteLength front') :
    ∃ m, front' = front ++ m ∧ back = m ++ back' := by
  rcases List.append_eq_append_iff.mp h with ⟨m, hfront, hback⟩ | ⟨m, rfl, rfl⟩
  · exact ⟨m, hfront, hback⟩
  · obtain rfl : m = [] := by
      apply eq_nil_of_byteLength
      simp only [byteLength_append] at hle
      omega
    exact ⟨[], by simp, rfl⟩

/-! ## Cuts at a byte -/

theorem dropBytes_append (front back : Text) :
    dropBytes (byteLength front) (front ++ back) = some back := by
  induction front with
  | nil => rw [byteLength_nil, dropBytes, List.nil_append]
  | cons x front ih =>
    have hpos := x.utf8Size_pos
    obtain ⟨n, hn⟩ : ∃ n, byteLength (x :: front) = n + 1 :=
      ⟨byteLength (x :: front) - 1, by simp only [byteLength_cons]; omega⟩
    simp only [byteLength_cons] at hn
    rw [byteLength_cons, hn, List.cons_append, dropBytes, if_pos (by omega), ← hn,
      Nat.add_sub_cancel_left, ih]

theorem takeBytes_append (front back : Text) :
    takeBytes (byteLength front) (front ++ back) = some front := by
  induction front with
  | nil => rw [byteLength_nil, takeBytes]
  | cons x front ih =>
    have hpos := x.utf8Size_pos
    obtain ⟨n, hn⟩ : ∃ n, byteLength (x :: front) = n + 1 :=
      ⟨byteLength (x :: front) - 1, by simp only [byteLength_cons]; omega⟩
    simp only [byteLength_cons] at hn
    rw [byteLength_cons, hn, List.cons_append, takeBytes, if_pos (by omega), ← hn,
      Nat.add_sub_cancel_left, ih, Option.map_some]

theorem exists_of_dropBytes {n : Nat} (h : dropBytes n t = some u) :
    ∃ front, t = front ++ u ∧ byteLength front = n := by
  fun_induction dropBytes n t with
  | case1 t =>
    cases h
    exact ⟨[], rfl, rfl⟩
  | case2 => cases h
  | case3 n x t hx ih =>
    obtain ⟨front, rfl, hlen⟩ := ih h
    exact ⟨x :: front, rfl, by simp only [byteLength_cons]; omega⟩
  | case4 => cases h

theorem exists_of_takeBytes {n : Nat} (h : takeBytes n t = some u) :
    ∃ back, t = u ++ back ∧ byteLength u = n := by
  fun_induction takeBytes n t generalizing u with
  | case1 t =>
    cases h
    exact ⟨t, rfl, rfl⟩
  | case2 => cases h
  | case3 n x t hx ih =>
    obtain ⟨u, hu, rfl⟩ := Option.map_eq_some_iff.mp h
    obtain ⟨back, rfl, hlen⟩ := ih hu
    exact ⟨back, rfl, by simp only [byteLength_cons]; omega⟩
  | case4 => cases h

/-! ## Slices -/

theorem slice_append (front u back : Text) :
    slice (front ++ u ++ back) (byteLength front) (byteLength front + byteLength u) = some u := by
  rw [slice, if_pos (by omega), List.append_assoc, dropBytes_append, Option.bind_some,
    Nat.add_sub_cancel_left, takeBytes_append]

/-- A slice is there exactly when the text can be cut at both of its ends. -/
theorem slice_eq_some_iff :
    slice t a b = some u ↔
      ∃ front back, t = front ++ u ++ back ∧ byteLength front = a ∧ a + byteLength u = b := by
  constructor
  · intro h
    rw [slice] at h
    split at h
    · rename_i hab
      obtain ⟨rest, hdrop, htake⟩ := Option.bind_eq_some_iff.mp h
      obtain ⟨front, rfl, hfront⟩ := exists_of_dropBytes hdrop
      obtain ⟨back, rfl, hu⟩ := exists_of_takeBytes htake
      exact ⟨front, back, by simp, hfront, by omega⟩
    · cases h
  · rintro ⟨front, back, rfl, rfl, rfl⟩
    exact slice_append front u back

theorem slice_all (t : Text) : slice t 0 (byteLength t) = some t := by
  rw [slice_eq_some_iff]
  exact ⟨[], [], by simp, rfl, by simp⟩

theorem byteLength_of_slice (h : slice t a b = some u) : a + byteLength u = b := by
  rw [slice_eq_some_iff] at h
  obtain ⟨_, _, _, _, hlen⟩ := h
  exact hlen

/-- Two slices next to each other make one. -/
theorem slice_join (hu : slice t a b = some u) (hv : slice t b c = some v) :
    slice t a c = some (u ++ v) := by
  rw [slice_eq_some_iff] at hu hv ⊢
  obtain ⟨front, back, rfl, rfl, rfl⟩ := hu
  obtain ⟨front', back', heq, hfront', rfl⟩ := hv
  rw [List.append_assoc front' v back'] at heq
  obtain ⟨rfl, rfl⟩ := append_inj_of_byteLength heq (by simpa using hfront'.symm)
  refine ⟨front, back', by simp, rfl, ?_⟩
  simp only [byteLength_append]
  omega

theorem le_of_slice (h : slice t a b = some u) : a ≤ b := by
  have := byteLength_of_slice h
  omega

/-- A slice inside a slice is a slice of the whole. -/
theorem slice_within (h : slice t a b = some u) {i j : Nat} (hj : j ≤ byteLength u) :
    slice t (a + i) (a + j) = slice u i j := by
  rw [slice_eq_some_iff] at h
  obtain ⟨front, back, rfl, rfl, _⟩ := h
  apply Option.ext
  intro v
  rw [slice_eq_some_iff, slice_eq_some_iff]
  constructor
  · rintro ⟨front', back', heq, hfront, hv⟩
    rw [List.append_assoc, List.append_assoc] at heq
    obtain ⟨m, rfl, hrest⟩ := exists_append_of_byteLength_le heq (by omega)
    rw [byteLength_append] at hfront
    rw [← List.append_assoc] at hrest
    obtain ⟨rest, rfl, _⟩ := exists_append_of_byteLength_le hrest.symm
      (by rw [byteLength_append]; omega)
    exact ⟨m, rest, rfl, by omega, by omega⟩
  · rintro ⟨front', back', rfl, rfl, rfl⟩
    exact ⟨front ++ front', back' ++ back, by simp, by simp, by omega⟩

/-- Two texts with a slice in common have all of its slices in common. -/
theorem slice_congr {t' : Text} {a' b' : Nat} (h : slice t a b = some u)
    (h' : slice t' a' b' = some u) {i j : Nat} (hj : j ≤ byteLength u) :
    slice t (a + i) (a + j) = slice t' (a' + i) (a' + j) := by
  rw [slice_within h hj, slice_within h' hj]

/-- A slice of two parts can be cut between them. -/
theorem slice_cut (h : slice t a b = some (u ++ v)) :
    slice t a (a + byteLength u) = some u ∧ slice t (a + byteLength u) b = some v := by
  rw [slice_eq_some_iff] at h
  obtain ⟨front, back, rfl, rfl, rfl⟩ := h
  rw [slice_eq_some_iff, slice_eq_some_iff]
  constructor
  · exact ⟨front, v ++ back, by simp, rfl, rfl⟩
  · exact ⟨front ++ u, back, by simp, by simp, by simp; omega⟩

/-! ## Boundaries of characters -/

/-- Does a character start at the byte, or the text end there? -/
def isBoundary (t : Text) (n : Nat) : Bool := (dropBytes n t).isSome

theorem isBoundary_iff :
    isBoundary t a ↔ ∃ front back, t = front ++ back ∧ byteLength front = a := by
  rw [isBoundary, Option.isSome_iff_exists]
  constructor
  · rintro ⟨back, h⟩
    obtain ⟨front, ht, hlen⟩ := exists_of_dropBytes h
    exact ⟨front, back, ht, hlen⟩
  · rintro ⟨front, back, rfl, rfl⟩
    exact ⟨back, dropBytes_append front back⟩

theorem le_byteLength_of_isBoundary (h : isBoundary t a) : a ≤ byteLength t := by
  rw [isBoundary_iff] at h
  obtain ⟨front, back, rfl, rfl⟩ := h
  rw [byteLength_append]
  omega

theorem isBoundary_start (h : slice t a b = some u) : isBoundary t a := by
  rw [slice_eq_some_iff] at h
  obtain ⟨front, back, rfl, hlen, _⟩ := h
  rw [isBoundary_iff]
  exact ⟨front, u ++ back, by simp, hlen⟩

theorem isBoundary_stop (h : slice t a b = some u) : isBoundary t b := by
  rw [slice_eq_some_iff] at h
  obtain ⟨front, back, rfl, rfl, rfl⟩ := h
  rw [isBoundary_iff]
  exact ⟨front ++ u, back, rfl, byteLength_append front u⟩

/-- There is a slice between any two boundaries. -/
theorem exists_slice (ha : isBoundary t a) (hb : isBoundary t b) (hab : a ≤ b) :
    ∃ u, slice t a b = some u := by
  rw [isBoundary_iff] at ha hb
  obtain ⟨front, back, rfl, rfl⟩ := ha
  obtain ⟨front', back', heq, rfl⟩ := hb
  obtain ⟨u, rfl, rfl⟩ := exists_append_of_byteLength_le heq hab
  refine ⟨u, ?_⟩
  rw [slice_eq_some_iff]
  exact ⟨front, back', by simp, rfl, by simp⟩

end LiteralFolding.Text
