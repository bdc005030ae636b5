-- The life of a candidate. Calls may come in any order and any number: a candidate only moves
-- forward, keeps its first reason to skip, and stays as it is once it is transformed. A visit
-- leaves it with a text or with a reason, and every later call keeps it so.
import LiteralFolding.Candidate

namespace LiteralFolding

namespace Progress

/-- How far a candidate has come. -/
def rank : Progress → Nat
  | .created => 0
  | .visited _ => 1
  | .transformed _ => 2

/-- The text that a candidate holds. -/
def text? : Progress → Option Text
  | .created => none
  | .visited text => text
  | .transformed text => text

@[simp] theorem rank_created : rank .created = 0 := rfl
@[simp] theorem rank_visited (text : Option Text) : (visited text).rank = 1 := rfl
@[simp] theorem rank_transformed (text : Option Text) : (transformed text).rank = 2 := rfl
@[simp] theorem text?_created : text? .created = none := rfl
@[simp] theorem text?_visited (text : Option Text) : (visited text).text? = text := rfl
@[simp] theorem text?_transformed (text : Option Text) : (transformed text).text? = text := rfl

theorem rank_le_two (p : Progress) : p.rank ≤ 2 := by
  cases p <;> simp

end Progress

namespace Candidate

/-! ## Calls -/

/-- What can be asked of a candidate. -/
inductive Call where
  | visit (s : Source) (resolver : Resolver)
  | transform (f : Transform)
  /-- Asks for the literal and changes nothing. -/
  | rebuild (quote : Quote)

/-- The candidate after a call. -/
def after (c : Candidate) : Call → Candidate
  | .visit s resolver => c.visit s resolver
  | .transform f => c.transform f
  | .rebuild _ => c

/-- The candidate after calls, one after the other. -/
def afterAll (c : Candidate) (calls : List Call) : Candidate := calls.foldl after c

/-- The call is the first of the calls that changes the candidate. -/
def FirstToChange (c : Candidate) (calls : List Call) (call : Call) : Prop :=
  ∃ front back, calls = front ++ call :: back ∧ (∀ early ∈ front, c.after early = c) ∧
    c.after call ≠ c

variable {c d e : Candidate} {p : Position} {calls : List Call}

theorem afterAll_append (c : Candidate) (front back : List Call) :
    c.afterAll (front ++ back) = (c.afterAll front).afterAll back :=
  List.foldl_append

theorem afterAll_eq_self (h : ∀ call ∈ calls, c.after call = c) : c.afterAll calls = c := by
  induction calls with
  | nil => rfl
  | cons call calls ih =>
    rw [List.forall_mem_cons] at h
    rw [afterAll, List.foldl_cons, h.1]
    exact ih h.2

/-! ## One call -/

/-- A visit counts for a new candidate only. It leaves a text, or no text and a reason. -/
theorem visit_cases (s : Source) (resolver : Resolver) (c : Candidate) :
    (0 < c.progress.rank ∧ c.visit s resolver = c) ∨
    (c.progress = .created ∧
      ((∃ text, c.visit s resolver = { c with progress := .visited (some text) }) ∨
        ∃ reason, c.visit s resolver =
          { c with progress := .visited none, skip := c.skip.or (some reason) })) := by
  unfold visit
  cases hp : c.progress with
  | created =>
    refine .inr ⟨rfl, ?_⟩
    cases evaluate s resolver c.position with
    | ok text => exact .inl ⟨text, rfl⟩
    | error reason => exact .inr ⟨reason, rfl⟩
  | visited text => exact .inl ⟨by simp, rfl⟩
  | transformed text => exact .inl ⟨by simp, rfl⟩

/-- A transform counts until the first one. A visited text becomes another text, or there is
none and the failure is a reason; without a text there is nothing to do. -/
theorem transform_cases (f : Transform) (c : Candidate) :
    (c.progress.rank = 2 ∧ c.transform f = c) ∨
    (c.progress.rank < 2 ∧ c.progress.text? = none ∧
      c.transform f = { c with progress := .transformed none }) ∨
    ((∃ text, c.progress = .visited (some text)) ∧
      ((∃ text, c.transform f = { c with progress := .transformed (some text) }) ∨
        ∃ e, c.transform f =
          { c with progress := .transformed none, skip := c.skip.or (some (.transform e)) })) := by
  unfold transform
  cases hp : c.progress with
  | created => exact .inr (.inl ⟨by simp, rfl, rfl⟩)
  | transformed text => exact .inl ⟨rfl, rfl⟩
  | visited text =>
    cases text with
    | none => exact .inr (.inl ⟨by simp, rfl, rfl⟩)
    | some text =>
      refine .inr (.inr ⟨⟨text, rfl⟩, ?_⟩)
      dsimp only
      cases Transform.run f text with
      | ok text => exact .inl ⟨text, rfl⟩
      | error e => exact .inr ⟨e, rfl⟩

theorem rank_transform (f : Transform) (c : Candidate) : (c.transform f).progress.rank = 2 := by
  rcases transform_cases f c with ⟨hrank, h⟩ | ⟨-, -, h⟩ | ⟨-, ⟨text, h⟩ | ⟨e, h⟩⟩
  · rw [h, hrank]
  all_goals rw [h, Progress.rank]

/-! ## Only forward -/

/-- The second candidate is what became of the first: it has come at least as far, it has kept
the reason, and if the first was transformed it is no different. -/
structure Becomes (c d : Candidate) : Prop where
  rank_le : c.progress.rank ≤ d.progress.rank
  skip_kept : ∀ reason, c.skip = some reason → d.skip = some reason
  transformed_kept : ∀ text, c.progress = .transformed text →
    d.progress = c.progress ∧ d.skip = c.skip

theorem Becomes.refl (c : Candidate) : Becomes c c :=
  ⟨Nat.le_refl _, fun _ h => h, fun _ _ => ⟨rfl, rfl⟩⟩

theorem Becomes.trans (h : Becomes c d) (h' : Becomes d e) : Becomes c e := by
  refine ⟨Nat.le_trans h.rank_le h'.rank_le, ?_, ?_⟩
  · intro reason hc
    exact h'.skip_kept reason (h.skip_kept reason hc)
  · intro text hc
    obtain ⟨hprogress, hskip⟩ := h.transformed_kept text hc
    obtain ⟨hprogress', hskip'⟩ := h'.transformed_kept text (hprogress.trans hc)
    exact ⟨hprogress'.trans hprogress, hskip'.trans hskip⟩

/-- A step forward, from a candidate that cannot have been transformed. -/
theorem becomes_of_lt (hlt : c.progress.rank < d.progress.rank)
    (hskip : ∀ reason, c.skip = some reason → d.skip = some reason) : Becomes c d := by
  refine ⟨Nat.le_of_lt hlt, hskip, ?_⟩
  intro text hc
  have hle := d.progress.rank_le_two
  rw [hc, Progress.rank] at hlt
  omega

theorem becomes_visit (s : Source) (resolver : Resolver) (c : Candidate) :
    Becomes c (c.visit s resolver) := by
  rcases visit_cases s resolver c with ⟨-, h⟩ | ⟨hnew, ⟨text, h⟩ | ⟨reason, h⟩⟩
  · rw [h]
    exact .refl c
  · rw [h]
    exact becomes_of_lt (by simp [hnew]) fun _ hc => hc
  · rw [h]
    exact becomes_of_lt (by simp [hnew]) fun _ hc => by simp [hc]

theorem becomes_transform (f : Transform) (c : Candidate) : Becomes c (c.transform f) := by
  rcases transform_cases f c with ⟨-, h⟩ | ⟨hrank, -, h⟩ | ⟨⟨text, hp⟩, ⟨text', h⟩ | ⟨e, h⟩⟩
  · rw [h]
    exact .refl c
  · rw [h]
    exact becomes_of_lt hrank fun _ hc => hc
  · rw [h]
    exact becomes_of_lt (by simp [hp]) fun _ hc => hc
  · rw [h]
    exact becomes_of_lt (by simp [hp]) fun _ hc => by simp [hc]

theorem becomes_after (c : Candidate) (call : Call) : Becomes c (c.after call) := by
  cases call with
  | visit s resolver => exact becomes_visit s resolver c
  | transform f => exact becomes_transform f c
  | rebuild quote => exact .refl c

theorem becomes_afterAll (c : Candidate) (calls : List Call) : Becomes c (c.afterAll calls) := by
  induction calls generalizing c with
  | nil => exact .refl c
  | cons call calls ih => exact (becomes_after c call).trans (ih (c.after call))

/-! ## A text or a reason -/

/-- The candidate has been visited, and it holds either a text or a reason to skip. -/
structure Decided (c : Candidate) : Prop where
  rank_pos : 0 < c.progress.rank
  text_or_reason : c.progress.text?.isSome = c.skip.isNone

theorem decided_visit_new (s : Source) (resolver : Resolver) (p : Position) :
    Decided (visit s resolver { position := p }) := by
  rcases visit_cases s resolver { position := p } with ⟨hpos, -⟩ | ⟨-, ⟨text, h⟩ | ⟨reason, h⟩⟩
  · simp at hpos
  · rw [h]
    exact ⟨by simp, rfl⟩
  · rw [h]
    exact ⟨by simp, rfl⟩

theorem Decided.transform (h : Decided c) (f : Transform) : Decided (c.transform f) := by
  obtain ⟨hpos, htext⟩ := h
  refine ⟨by simp [rank_transform], ?_⟩
  rcases transform_cases f c with ⟨-, h⟩ | ⟨-, hnone, h⟩ | ⟨⟨text, hp⟩, hnext⟩
  · rw [h, htext]
  · rw [hnone] at htext
    rw [h]
    exact htext
  · have hskip : c.skip = none := by
      rw [hp, Progress.text?] at htext
      simpa using htext.symm
    rcases hnext with ⟨text', h⟩ | ⟨e, h⟩
    · simp [h, hskip]
    · simp [h, hskip]

theorem Decided.after (h : Decided c) (call : Call) : Decided (c.after call) := by
  cases call with
  | visit s resolver =>
    rcases visit_cases s resolver c with ⟨-, heq⟩ | ⟨hnew, -⟩
    · rw [Candidate.after, heq]
      exact h
    · have := h.rank_pos
      simp [hnew] at this
  | transform f => exact h.transform f
  | rebuild quote => exact h

theorem Decided.afterAll (h : Decided c) (calls : List Call) : Decided (c.afterAll calls) := by
  induction calls generalizing c with
  | nil => exact h
  | cons call calls ih => exact ih (h.after call)

/-! ## The first call that counts -/

theorem after_visit_ne_new (s : Source) (resolver : Resolver) (p : Position) :
    after { position := p } (.visit s resolver) ≠ { position := p } := by
  intro heq
  have hpos := (decided_visit_new s resolver p).rank_pos
  rw [after] at heq
  simp [heq] at hpos

theorem after_transform_ne_new (f : Transform) (p : Position) :
    after { position := p } (.transform f) ≠ { position := p } := by
  intro heq
  have hrank := rank_transform f { position := p }
  rw [after] at heq
  simp [heq] at hrank

/-- A new candidate stays new, or the first call that counts is a visit or a transform. -/
theorem firstToChange_cases (p : Position) (calls : List Call) :
    afterAll { position := p } calls = { position := p } ∨
    (∃ f, FirstToChange { position := p } calls (.transform f)) ∨
    ∃ s resolver, FirstToChange { position := p } calls (.visit s resolver) := by
  induction calls with
  | nil => exact .inl rfl
  | cons call calls ih =>
    cases call with
    | visit s resolver =>
      exact .inr (.inr ⟨s, resolver, [], calls, rfl, by simp, after_visit_ne_new s resolver p⟩)
    | transform f =>
      exact .inr (.inl ⟨f, [], calls, rfl, by simp, after_transform_ne_new f p⟩)
    | rebuild quote =>
      have hcons : ∀ {first}, FirstToChange { position := p } calls first →
          FirstToChange { position := p } (.rebuild quote :: calls) first := by
        rintro first ⟨front, back, rfl, hfront, hfirst⟩
        exact ⟨.rebuild quote :: front, back, rfl, List.forall_mem_cons.mpr ⟨rfl, hfront⟩, hfirst⟩
      rcases ih with h | ⟨f, h⟩ | ⟨s, resolver, h⟩
      · exact .inl h
      · exact .inr (.inl ⟨f, hcons h⟩)
      · exact .inr (.inr ⟨s, resolver, hcons h⟩)

theorem FirstToChange.exists_afterAll_eq {call : Call} (h : FirstToChange c calls call) :
    ∃ back, c.afterAll calls = (c.after call).afterAll back := by
  obtain ⟨front, back, rfl, hfront, -⟩ := h
  refine ⟨back, ?_⟩
  rw [afterAll_append, afterAll_eq_self hfront]
  rfl

/-- A candidate that is transformed before it is visited never has anything to tell. -/
theorem FirstToChange.afterAll_of_transform {f : Transform}
    (h : FirstToChange { position := p } calls (.transform f)) :
    (afterAll { position := p } calls).progress = .transformed none ∧
      (afterAll { position := p } calls).skip = none := by
  obtain ⟨back, hback⟩ := h.exists_afterAll_eq
  rw [hback]
  exact (becomes_afterAll _ back).transformed_kept none rfl

theorem FirstToChange.decided_of_visit {s : Source} {resolver : Resolver}
    (h : FirstToChange { position := p } calls (.visit s resolver)) :
    Decided (afterAll { position := p } calls) := by
  obtain ⟨back, hback⟩ := h.exists_afterAll_eq
  rw [hback]
  exact (decided_visit_new s resolver p).afterAll back

/-! ## Literals -/

theorem literal?_eq_some_iff {quote : Quote} {literal : Text} :
    c.literal? quote = some literal ↔
      ∃ text, c.progress = .transformed (some text) ∧ literal = Literal.encode quote text := by
  unfold literal?
  split <;> simp_all [eq_comm]

theorem isSome_literal? (h : c.progress.rank = 2) (quote : Quote) :
    (c.literal? quote).isSome = c.progress.text?.isSome := by
  unfold literal?
  rcases hp : c.progress with _ | text | _ | text <;> simp_all

/-- After a transform, at whatever time it came, the candidate is transformed. -/
theorem rank_afterAll_of_transform (c : Candidate) (front back : List Call) (f : Transform) :
    (c.afterAll (front ++ .transform f :: back)).progress.rank = 2 := by
  have heq : c.afterAll (front ++ .transform f :: back) =
      ((c.afterAll front).transform f).afterAll back := afterAll_append c front _
  have hlater := (becomes_afterAll ((c.afterAll front).transform f) back).rank_le
  rw [rank_transform] at hlater
  rw [heq]
  exact Nat.le_antisymm (Progress.rank_le_two _) hlater

/-! ## The whole life -/

/-- What a candidate holds agrees with the calls that were made on it since it was new. -/
structure Consistent (p : Position) (calls : List Call) (c : Candidate) : Prop where
  no_reason_beside_text : c.progress.text?.isSome → c.skip = none
  reason_if_visited : c.progress = .visited none → c.skip.isSome
  /-- One with neither text nor reason was transformed before it was visited. -/
  no_reason_iff : c.progress = .transformed none →
    (c.skip = none ↔ ∃ f, FirstToChange { position := p } calls (.transform f))
  literal_iff : ∀ quote literal, c.literal? quote = some literal ↔
    ∃ text, c.progress = .transformed (some text) ∧ literal = Literal.encode quote text

theorem consistent_afterAll (p : Position) (calls : List Call) :
    Consistent p calls (afterAll { position := p } calls) := by
  rcases firstToChange_cases p calls with hnew | ⟨f, hfirst⟩ | ⟨s, resolver, hfirst⟩
  · rw [hnew]
    exact ⟨by simp, by simp, by simp, fun _ _ => literal?_eq_some_iff⟩
  · obtain ⟨hprogress, hskip⟩ := hfirst.afterAll_of_transform
    exact ⟨fun _ => hskip, by simp [hprogress], fun _ => iff_of_true hskip ⟨f, hfirst⟩,
      fun _ _ => literal?_eq_some_iff⟩
  · have hdecided := hfirst.decided_of_visit.text_or_reason
    refine ⟨?_, ?_, ?_, fun _ _ => literal?_eq_some_iff⟩
    · intro htext
      rw [hdecided] at htext
      simpa using htext
    · intro hp
      simpa [hp] using hdecided
    · intro hp
      constructor
      · intro hskip
        simp [hp, hskip] at hdecided
      · rintro ⟨f, hf⟩
        exact hf.afterAll_of_transform.2

/-- Whatever calls are made on a new candidate, each state is what became of every earlier one,
so nothing is taken back, and what it holds agrees with the calls. If it was visited at first
and transformed at some time after, there is either a literal or a reason to skip. -/
theorem candidate_moves_forward (p : Position) (calls : List Call) :
    (∀ front back, calls = front ++ back →
      Becomes (afterAll { position := p } front) (afterAll { position := p } calls)) ∧
    Consistent p calls (afterAll { position := p } calls) ∧
    (∀ s resolver middle f back, calls = .visit s resolver :: middle ++ .transform f :: back →
      ∀ quote, ((afterAll { position := p } calls).literal? quote).isSome =
        (afterAll { position := p } calls).skip.isNone) := by
  refine ⟨?_, consistent_afterAll p calls, ?_⟩
  · rintro front back rfl
    rw [afterAll_append]
    exact becomes_afterAll _ back
  · rintro s resolver middle f back rfl quote
    rw [isSome_literal? (rank_afterAll_of_transform _ _ back f)]
    exact ((decided_visit_new s resolver p).afterAll _).text_or_reason

end Candidate

end LiteralFolding
