-- Paths by their components. Two spellings with the same components are the same path: they lead
-- to the same place, and they stand at the same place in the order of paths, which is
-- lexicographic.
import LiteralFolding.Files.Project

namespace LiteralFolding

/-! ## Pieces between separators -/

namespace Text

variable {sep : Char} {t : Text}

theorem head?_splitAt (sep : Char) (t : Text) :
    (splitAt sep t).head? = some (t.takeWhile (· ≠ sep)) := by
  induction t with
  | nil => rfl
  | cons c t ih =>
    rw [splitAt]
    cases hpieces : splitAt sep t with
    | nil => simp [hpieces] at ih
    | cons piece pieces =>
      rw [hpieces] at ih
      by_cases hc : c = sep
      · simp [hc]
      · simpa [hc] using ih

theorem splitAt_append (sep : Char) (a b : Text) :
    splitAt sep (a ++ sep :: b) = splitAt sep a ++ splitAt sep b := by
  induction a with
  | nil =>
    cases hpieces : splitAt sep b with
    | nil => simpa [hpieces] using head?_splitAt sep b
    | cons piece pieces => simp [splitAt, hpieces]
  | cons c a ih =>
    rw [List.cons_append, splitAt, ih, splitAt]
    cases hpieces : splitAt sep a with
    | nil => simpa [hpieces] using head?_splitAt sep a
    | cons piece pieces => by_cases hc : c = sep <;> simp [hc]

theorem splitAt_of_not_mem (h : sep ∉ t) : splitAt sep t = [t] := by
  induction t with
  | nil => rfl
  | cons c t ih =>
    rw [List.mem_cons, not_or] at h
    rw [splitAt, ih h.2]
    simp [Ne.symm h.1]

end Text

/-! ## The order of components -/

namespace Component

/-- Marked components have a fixed order, and names come after them. -/
def rank : Component → Nat
  | .root => 0
  | .current => 1
  | .parent => 2
  | .normal _ => 3

/-- The strict order of components; two names are compared by their characters. -/
def Before : Component → Component → Prop
  | .normal a, .normal b => a < b
  | a, b => a.rank < b.rank

theorem before_irrefl (a : Component) : ¬ Before a a := by
  cases a with
  | normal a => exact List.lt_irrefl a
  | _ => exact Nat.lt_irrefl _

theorem before_trans {a b c : Component} (h : Before a b) (h' : Before b c) : Before a c := by
  cases a <;> cases b <;> cases c <;> simp_all [Before, rank]
  exact List.lt_trans h h'

/-- Two names are in one of the three relations. -/
theorem normal_trichotomy (a b : Text) : a = b ∨ a < b ∨ b < a := by
  rcases Std.lt_trichotomy a b with h | h | h
  · exact .inr (.inl h)
  · exact .inl h
  · exact .inr (.inr h)

theorem before_trichotomy (a b : Component) : a = b ∨ Before a b ∨ Before b a := by
  cases a with
  | normal a =>
    cases b with
    | normal b => exact (normal_trichotomy a b).imp_left (congrArg normal)
    | _ => simp [Before, rank]
  | _ => cases b <;> simp [Before, rank]

theorem le_iff {a b : Component} : a.le b = true ↔ a = b ∨ Before a b := by
  cases a with
  | normal a =>
    cases b with
    | normal b =>
      rw [le, Bool.not_eq_true', decide_eq_false_iff_not, normal.injEq]
      constructor
      · exact fun h => (normal_trichotomy a b).imp_right fun h' => h'.resolve_right h
      · rintro (rfl | h)
        · exact List.lt_irrefl a
        · exact List.lt_asymm h
    | _ => simp [le, Before, rank]
  | _ => cases b <;> simp [le, Before, rank]

end Component

namespace Path

/-! ## The order of paths -/

/-- Two spellings of one path. -/
def Same (a b : Text) : Prop := components a = components b

/-- The strict order of paths. -/
def Before (a b : Text) : Prop := List.Lex Component.Before (components a) (components b)

theorem le_iff {xs ys : List Component} :
    le xs ys = true ↔ xs = ys ∨ List.Lex Component.Before xs ys := by
  induction xs generalizing ys with
  | nil => cases ys <;> simp [le]
  | cons x xs ih =>
    cases ys with
    | nil => simp [le]
    | cons y ys =>
      rw [le]
      by_cases hxy : x = y
      · subst hxy
        simp [ih, List.cons_lex_cons_iff, Component.before_irrefl]
      · simp [hxy, List.cons_lex_cons_iff, Component.le_iff]

theorem before_trans {a b c : Text} (h : Before a b) (h' : Before b c) : Before a c :=
  List.lex_trans Component.before_trans h h'

theorem before_irrefl (a : Text) : ¬ Before a a := List.lex_irrefl Component.before_irrefl _

theorem lex_trichotomy (xs ys : List Component) :
    xs = ys ∨ List.Lex Component.Before xs ys ∨ List.Lex Component.Before ys xs := by
  induction xs generalizing ys with
  | nil => cases ys <;> simp
  | cons x xs ih =>
    cases ys with
    | nil => simp
    | cons y ys =>
      rcases Component.before_trichotomy x y with rfl | h | h
      · simpa [List.cons_lex_cons_iff, Component.before_irrefl] using ih ys
      · exact .inr (.inl (.rel h))
      · exact .inr (.inr (.rel h))

theorem le_trans {xs ys zs : List Component} (h : le xs ys = true) (h' : le ys zs = true) :
    le xs zs = true := by
  rw [le_iff] at *
  rcases h with rfl | h
  · exact h'
  · rcases h' with rfl | h'
    · exact .inr h
    · exact .inr (List.lex_trans Component.before_trans h h')

theorem le_total (xs ys : List Component) : (le xs ys || le ys xs) = true := by
  rw [Bool.or_eq_true, le_iff, le_iff]
  rcases lex_trichotomy xs ys with h | h | h
  · exact .inl (.inl h)
  · exact .inl (.inr h)
  · exact .inr (.inr h)

/-! ## Names below a directory -/

/-- An entry of a directory can have this name. -/
def IsName (name : Text) : Prop :=
  name ≠ [] ∧ '/' ∉ name ∧ name ≠ ['.'] ∧ name ≠ ['.', '.']

instance (name : Text) : Decidable (IsName name) := inferInstanceAs (Decidable (_ ∧ _))

/-- What stands before the steps of a path. -/
def lead (path : Text) : List Component :=
  if path.head? = some '/' then [.root]
  else if path.takeWhile (· ≠ '/') = ['.'] then [.current] else []

/-- The steps of a path. -/
def steps (path : Text) : List Component := (Text.splitAt '/' path).filterMap component?

theorem components_eq (path : Text) : components path = lead path ++ steps path := by
  unfold components lead steps
  dsimp only
  simp only [Text.head?_splitAt, Option.some.injEq]
  cases path with
  | nil => rfl
  | cons c path =>
    by_cases hc : c = '/'
    · subst hc
      rfl
    · simp only [List.head?_cons, Option.some.injEq, hc, if_false]
      split
      · exact absurd (List.cons.inj ‹_›).1 hc
      · split <;> rfl

theorem component?_of_isName {name : Text} (h : IsName name) :
    component? name = some (.normal name) := by
  obtain ⟨hempty, -, hdot, hdots⟩ := h
  simp [component?, hempty, hdot, hdots]

theorem steps_append (a b : Text) : steps (a ++ '/' :: b) = steps a ++ steps b := by
  rw [steps, Text.splitAt_append, List.filterMap_append]
  rfl

theorem steps_of_isName {name : Text} (h : IsName name) : steps name = [.normal name] := by
  simp [steps, Text.splitAt_of_not_mem h.2.1, component?_of_isName h]

theorem takeWhile_append_slash (a b : Text) :
    (a ++ '/' :: b).takeWhile (· ≠ '/') = a.takeWhile (· ≠ '/') := by
  induction a with
  | nil => simp
  | cons c a ih => by_cases hc : c = '/' <;> simp_all

theorem lead_append {a : Text} (h : a ≠ []) (b : Text) : lead (a ++ '/' :: b) = lead a := by
  obtain ⟨c, a, rfl⟩ := List.exists_cons_of_ne_nil h
  unfold lead
  rw [takeWhile_append_slash]
  rfl

/-- What follows a slash does not matter to how a path starts. -/
theorem lead_append_slash (a b c : Text) : lead (a ++ '/' :: b) = lead (a ++ '/' :: c) := by
  cases a with
  | nil => rfl
  | cons x a => rw [lead_append (by simp), lead_append (by simp)]

/-- The directory gets a slash unless it ends in one. -/
theorem exists_join_eq {directory : Text} (h : directory ≠ []) (name : Text) :
    ∃ front, join directory name = front ++ '/' :: name ∧
      lead (front ++ '/' :: name) = lead directory ∧ steps front = steps directory := by
  by_cases hlast : directory.getLast? = some '/'
  · obtain ⟨front, rfl⟩ := List.getLast?_eq_some_iff.mp hlast
    refine ⟨front, ?_, lead_append_slash front name [], ?_⟩
    · simp [join]
    · rw [steps_append]
      exact (List.append_nil _).symm
  · exact ⟨directory, by simp [join, h, hlast], lead_append h name, rfl⟩

theorem components_join {directory name : Text} (hdirectory : directory ≠ []) (hname : IsName name) :
    components (join directory name) = components directory ++ [.normal name] := by
  obtain ⟨front, hjoin, hlead, hsteps⟩ := exists_join_eq hdirectory name
  rw [hjoin, components_eq, components_eq, hlead, steps_append, hsteps, steps_of_isName hname,
    List.append_assoc]

theorem join_ne_nil {directory : Text} (h : directory ≠ []) (name : Text) :
    join directory name ≠ [] := by
  obtain ⟨front, hjoin, -⟩ := exists_join_eq h name
  simp [hjoin]

/-- The path of a place below a directory has the names of the way added. -/
theorem components_joinAll {directory : Text} {names : List Text} (hdirectory : directory ≠ [])
    (hnames : ∀ name ∈ names, IsName name) :
    components (names.foldl join directory) = components directory ++ names.map .normal := by
  induction names generalizing directory with
  | nil => simp
  | cons name names ih =>
    rw [List.forall_mem_cons] at hnames
    rw [List.foldl_cons, ih (join_ne_nil hdirectory name) hnames.2,
      components_join hdirectory hnames.1, List.append_assoc]
    rfl

theorem components_of_isName {name : Text} (h : IsName name) : components name = [.normal name] := by
  have hwhole : name.takeWhile (· ≠ '/') = name := by
    have hhead := Text.head?_splitAt '/' name
    rw [Text.splitAt_of_not_mem h.2.1] at hhead
    exact (Option.some.inj hhead).symm
  have hstart : name.head? ≠ some '/' := fun hhead => h.2.1 (List.mem_of_mem_head? hhead)
  have hlead : lead name = [] := by
    unfold lead
    rw [if_neg hstart, hwhole, if_neg h.2.2.1]
  rw [components_eq, hlead, steps_of_isName h]
  rfl

/-- The extension of a path below a directory is that of its last name. -/
theorem extension?_joinAll {directory last : Text} {names : List Text} (hdirectory : directory ≠ [])
    (hnames : ∀ name ∈ names ++ [last], IsName name) :
    extension? ((names ++ [last]).foldl join directory) = extension? last := by
  unfold extension? fileName?
  rw [components_joinAll hdirectory hnames, components_of_isName (hnames last (by simp))]
  simp

theorem fileName?_eq_some_iff {path name : Text} :
    fileName? path = some name ↔ (steps path).getLast? = some (.normal name) := by
  have hlead : ∀ name, (lead path).getLast? ≠ some (.normal name) := by
    intro name
    unfold lead
    split
    · simp
    · split <;> simp
  unfold fileName?
  rw [components_eq, List.getLast?_append]
  cases (steps path).getLast? with
  | none =>
    cases hlast : (lead path).getLast? with
    | none => simp
    | some c =>
      cases c with
      | normal name' => exact absurd hlast (hlead name')
      | _ => simp
  | some c => cases c <;> simp

/-- If the name that a path is joined with has an extension, it is that of the path. -/
theorem extension?_join {directory name ext : Text} (hdirectory : directory ≠ [])
    (h : extension? name = some ext) : extension? (join directory name) = some ext := by
  obtain ⟨last, hlast, hext⟩ := Option.bind_eq_some_iff.mp h
  obtain ⟨front, hjoin, -⟩ := exists_join_eq hdirectory name
  have hlast' : fileName? (join directory name) = some last := by
    rw [fileName?_eq_some_iff] at hlast ⊢
    rw [hjoin, steps_append, List.getLast?_append, hlast]
    rfl
  rw [extension?, hlast', Option.bind_some, hext]

theorem joinAll_ne_nil {directory : Text} (h : directory ≠ []) (names : List Text) :
    names.foldl join directory ≠ [] := by
  induction names generalizing directory with
  | nil => exact h
  | cons name names ih => exact ih (join_ne_nil h name)

end Path

/-! ## Where paths lead -/

namespace Store

variable {store : Store} {place next : Place}

/-- The place that one component leads to. -/
def goTo (place : Place) : Component → Place
  | .root => []
  | .current => place
  | .parent => place.dropLast
  | .normal name => place ++ [name]

theorem step_eq_ok {piece : Text} (h : store.step place piece = .ok next) :
    next = (Path.component? piece).toList.foldl goTo place := by
  unfold step at h
  unfold Path.component?
  split at h
  · cases h
  · cases h
  · by_cases hnone : piece = [] ∨ piece = ['.']
    · rw [if_pos hnone] at h ⊢
      exact (Except.ok.inj h).symm
    · rw [if_neg hnone] at h ⊢
      by_cases hparent : piece = ['.', '.']
      · rw [if_pos hparent] at h ⊢
        exact (Except.ok.inj h).symm
      · rw [if_neg hparent] at h ⊢
        split at h
        · exact (Except.ok.inj h).symm
        · cases h

theorem foldlM_step_eq_ok {pieces : List Text} (h : pieces.foldlM store.step place = .ok next) :
    next = (pieces.filterMap Path.component?).foldl goTo place := by
  induction pieces generalizing place with
  | nil => exact (Except.ok.inj h).symm
  | cons piece pieces ih =>
    rw [List.foldlM_cons] at h
    cases hstep : store.step place piece with
    | error e =>
      rw [hstep] at h
      cases h
    | ok between =>
      rw [hstep] at h
      rw [ih h, step_eq_ok hstep]
      cases hpiece : Path.component? piece <;> simp [hpiece]

/-- A path that leads anywhere leads where its components say. -/
theorem follow_eq_ok {path : Text} (h : store.follow path = .ok place) :
    place = (Path.components path).foldl goTo store.working := by
  unfold follow at h
  split at h
  · cases h
  · rename_i c rest
    have hplace := foldlM_step_eq_ok h
    rw [Path.components_eq, List.foldl_append, Path.lead]
    by_cases hc : c = '/'
    · simpa [hc, goTo, Path.steps] using hplace
    · rw [if_neg (by simpa using hc)]
      rw [if_neg hc] at hplace
      split <;> exact hplace

/-- All spellings of a path that lead anywhere lead to one place. -/
theorem follow_of_same {a b : Text} (h : Path.Same a b) (ha : store.follow a = .ok place)
    (hb : store.follow b = .ok next) : place = next := by
  rw [follow_eq_ok ha, follow_eq_ok hb, h]

theorem ne_nil_of_follow {path : Text} (h : store.follow path = .ok place) : path ≠ [] := by
  rintro rfl
  cases h

end Store

end LiteralFolding
