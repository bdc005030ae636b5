-- Texts written back into a store. The files keep their places, so paths lead where they led
-- before; a file holds what was written to it last, and all else stays as it was. The first file
-- that does not take its text ends the writing, and what was written before it stays.
import LiteralFolding.Files.Project

namespace LiteralFolding

/-- Is the entry a directory? -/
def FileEntry.isDirectory : FileEntry → Bool
  | .directory => true
  | .file _ => false

namespace Store

variable {a b c store : Store} {place : Place} {path : Text}

/-! ## One entry -/

theorem ne_nil_of_file {content : Content} (h : store.get? place = some (.file content)) :
    place ≠ [] := by
  rintro rfl
  simp [get?] at h

theorem get?_put_self (h : place ≠ []) (entry : FileEntry) :
    (store.put place entry).get? place = some entry := by
  have hnone : (store.entries.filter fun e => e.1 ≠ place).find? (fun e => e.1 = place) = none := by
    rw [List.find?_eq_none]
    intro e he
    simpa using (List.mem_filter.mp he).2
  simp only [get?, put, if_neg h, List.find?_append, hnone]
  simp

theorem get?_put_of_ne {q : Place} (h : q ≠ place) (entry : FileEntry) :
    (store.put place entry).get? q = store.get? q := by
  have hfilter : (store.entries.filter fun e => e.1 ≠ place).find? (fun e => e.1 = q) =
      store.entries.find? fun e => e.1 = q := by
    rw [List.find?_filter]
    congr 1
    funext e
    by_cases he : e.1 = q
    · simp [he, h]
    · simp [he]
  have hother : [(place, entry)].find? (fun e => e.1 = q) = none := by
    simp [Ne.symm h]
  simp only [get?, put, List.find?_append, hfilter, hother, Option.or_none]

/-! ## The shape of a store -/

/-- The two stores have their files and directories at the same places, and the same files take
the same texts. -/
structure SameShape (a b : Store) : Prop where
  working : a.working = b.working
  obstacles : a.obstacles = b.obstacles
  shape : ∀ place, (a.get? place).map FileEntry.isDirectory =
    (b.get? place).map FileEntry.isDirectory

theorem SameShape.refl (a : Store) : SameShape a a := ⟨rfl, rfl, fun _ => rfl⟩

theorem SameShape.symm (h : SameShape a b) : SameShape b a :=
  ⟨h.working.symm, h.obstacles.symm, fun place => (h.shape place).symm⟩

theorem SameShape.trans (h : SameShape a b) (h' : SameShape b c) : SameShape a c :=
  ⟨h.working.trans h'.working, h.obstacles.trans h'.obstacles,
    fun place => (h.shape place).trans (h'.shape place)⟩

theorem SameShape.isSome_eq (h : SameShape a b) (place : Place) :
    (a.get? place).isSome = (b.get? place).isSome := by
  have := congrArg Option.isSome (h.shape place)
  simpa using this

theorem SameShape.step_eq (h : SameShape a b) (place : Place) (piece : Text) :
    a.step place piece = b.step place piece := by
  have hshape := h.shape place
  have hnext := h.isSome_eq (place ++ [piece])
  unfold step
  cases ha : a.get? place with
  | none =>
    rw [ha] at hshape
    cases hb : b.get? place with
    | none => rfl
    | some entry => simp [hb] at hshape
  | some entry =>
    rw [ha] at hshape
    cases hb : b.get? place with
    | none => simp [hb] at hshape
    | some entry' =>
      rw [hb] at hshape
      cases entry <;> cases entry' <;> simp_all [FileEntry.isDirectory]

/-- A path leads to the same place in both. -/
theorem SameShape.follow_eq (h : SameShape a b) (path : Text) : a.follow path = b.follow path := by
  have hstep : a.step = b.step := by
    funext place piece
    exact h.step_eq place piece
  unfold follow
  cases path with
  | nil => rfl
  | cons x xs => rw [hstep, h.working]

theorem SameShape.obstacle?_eq (h : SameShape a b) (place : Place) :
    a.obstacle? place = b.obstacle? place := by
  unfold obstacle?
  rw [h.obstacles]

theorem sameShape_put {content content' : Content}
    (h : store.get? place = some (.file content)) :
    SameShape (store.put place (.file content')) store := by
  refine ⟨rfl, rfl, ?_⟩
  intro q
  by_cases hq : q = place
  · subst hq
    rw [get?_put_self (ne_nil_of_file h), h]
    rfl
  · rw [get?_put_of_ne hq]

/-! ## Files that are read and written -/

/-- The path leads to a file at the place. -/
def LeadsToFile (store : Store) (path : Text) (place : Place) : Prop :=
  store.follow path = .ok place ∧ ∃ content, store.get? place = some (.file content)

theorem exists_leadsToFile_of_read {text : Text} (h : store.read path = .ok text) :
    ∃ place, store.LeadsToFile path place := by
  unfold read content at h
  cases hfollow : store.follow path with
  | error e =>
    rw [hfollow] at h
    cases h
  | ok place =>
    rw [hfollow] at h
    cases hentry : store.get? place with
    | none =>
      simp only [hentry, bind, Except.bind] at h
      cases h
    | some entry =>
      cases entry with
      | directory =>
        simp only [hentry, bind, Except.bind] at h
        cases h
      | file content => exact ⟨place, hfollow, content, hentry⟩

theorem LeadsToFile.of_sameShape (h : store.LeadsToFile path place) (hshape : SameShape a store) :
    a.LeadsToFile path place := by
  obtain ⟨hfollow, content, hentry⟩ := h
  refine ⟨(hshape.follow_eq path).trans hfollow, ?_⟩
  have := hshape.shape place
  rw [hentry] at this
  cases ha : a.get? place with
  | none => simp [ha] at this
  | some entry =>
    cases entry with
    | directory => simp [ha, FileEntry.isDirectory] at this
    | file content' => exact ⟨content', rfl⟩

/-- The path leads to a file that takes the text. -/
def Takes (store : Store) (path text : Text) : Prop :=
  ∃ place, store.LeadsToFile path place ∧
    (store.obstacle? place = none ∨
      ∃ n, store.obstacle? place = some (.room n) ∧ (Text.encoded text).length ≤ n)

/-- The path leads to a file that does not take the text. What is left is the file as it was, or
as many bytes of the text as there is room for. -/
inductive Refuses (store : Store) (path text : Text) : Store → Prop
  | readOnly {place : Place} (hfile : store.LeadsToFile path place)
      (hobstacle : store.obstacle? place = some .readOnly) : Refuses store path text store
  | room {place : Place} {n : Nat} (hfile : store.LeadsToFile path place)
      (hobstacle : store.obstacle? place = some (.room n))
      (hlong : n < (Text.encoded text).length) :
      Refuses store path text
        (store.put place (.file (.ofBytes ((Text.encoded text).take n))))

theorem LeadsToFile.unique {q : Place} (h : store.LeadsToFile path place)
    (h' : store.LeadsToFile path q) : place = q :=
  Except.ok.inj (h.1.symm.trans h'.1)

theorem Takes.of_sameShape {text : Text} (h : store.Takes path text) (hshape : SameShape a store) :
    a.Takes path text := by
  obtain ⟨place, hfile, htakes⟩ := h
  refine ⟨place, hfile.of_sameShape hshape, ?_⟩
  rwa [hshape.obstacle?_eq]

/-- A file that can only be read is left as it was. -/
theorem Refuses.eq_of_readOnly {text : Text} {left : Store} (h : store.Refuses path text left)
    (hplace : store.LeadsToFile path place) (hreadOnly : store.obstacle? place = some .readOnly) :
    left = store := by
  cases h with
  | readOnly => rfl
  | room hfile hobstacle _ =>
    obtain rfl := hfile.unique hplace
    rw [hreadOnly] at hobstacle
    cases hobstacle

theorem Refuses.not_takes {text : Text} {left : Store} (h : store.Refuses path text left) :
    ¬ store.Takes path text := by
  rintro ⟨place, hplace, htakes⟩
  cases h with
  | readOnly hfile hobstacle =>
    obtain rfl := hfile.unique hplace
    simp [hobstacle] at htakes
  | room hfile hobstacle hlong =>
    obtain rfl := hfile.unique hplace
    simp only [hobstacle, reduceCtorEq, Option.some.injEq, Obstacle.room.injEq, false_or] at htakes
    obtain ⟨n, rfl, hle⟩ := htakes
    omega

/-- A file takes a text as a whole, or the write fails. -/
theorem write_cases (h : store.LeadsToFile path place) (text : Text) :
    store.Takes path text ∧ store.write path text = .ok (store.put place (.file (.text text))) ∨
      ∃ e left, store.Refuses path text left ∧ store.write path text = .error (e, left) := by
  have hwrite : store.write path text = store.writeAt place text := by
    obtain ⟨hfollow, content, hentry⟩ := h
    simp only [write, hfollow, hentry]
  rw [hwrite]
  unfold writeAt
  cases hobstacle : store.obstacle? place with
  | none => exact .inl ⟨⟨place, h, .inl hobstacle⟩, rfl⟩
  | some obstacle =>
    cases obstacle with
    | readOnly => exact .inr ⟨_, _, .readOnly h hobstacle, rfl⟩
    | room n =>
      by_cases hfits : (Text.encoded text).length ≤ n
      · exact .inl ⟨⟨place, h, .inr ⟨n, hobstacle, hfits⟩⟩, if_pos hfits⟩
      · exact .inr ⟨_, _, .room h hobstacle (Nat.lt_of_not_le hfits), if_neg hfits⟩

/-! ## Sources written one after the other -/

/-- What writing sources back makes of a store. -/
structure Rewritten (before : Store) (sources : List FoldedSource) (after : Store) : Prop where
  /-- No file or directory comes or goes. -/
  shape : SameShape after before
  /-- What no path of a source leads to stays as it was. -/
  kept : ∀ place, (∀ f ∈ sources, before.follow f.path ≠ .ok place) →
    after.get? place = before.get? place
  /-- Where the paths of sources lead, the last of them decides. -/
  last : ∀ front f back place, sources = front ++ f :: back → before.follow f.path = .ok place →
    (∀ g ∈ back, before.follow g.path ≠ .ok place) →
    after.get? place = some (.file (.text f.text))

theorem Rewritten.nil (store : Store) : Rewritten store [] store where
  shape := .refl store
  kept := fun _ _ => rfl
  last := by
    intro front f back place h
    simp at h

theorem Rewritten.cons {f : FoldedSource} {fs : List FoldedSource} {after : Store}
    (hf : store.LeadsToFile f.path place)
    (h : Rewritten (store.put place (.file (.text f.text))) fs after) :
    Rewritten store (f :: fs) after := by
  have hplace := hf.1
  obtain ⟨content, hentry⟩ := hf.2
  have hshape : SameShape (store.put place (.file (.text f.text))) store := sameShape_put hentry
  refine ⟨h.shape.trans hshape, ?_, ?_⟩
  · intro q hq
    have hne : q ≠ place := by
      rintro rfl
      exact hq f (List.mem_cons_self ..) hplace
    rw [h.kept q, get?_put_of_ne hne]
    intro g hg
    rw [hshape.follow_eq]
    exact hq g (List.mem_cons_of_mem _ hg)
  · intro front g back q hsplit hg hback
    cases front with
    | nil =>
      obtain ⟨rfl, rfl⟩ := List.cons.inj hsplit
      obtain rfl := Except.ok.inj (hplace.symm.trans hg)
      rw [h.kept, get?_put_self (ne_nil_of_file hentry)]
      intro k hk
      rw [hshape.follow_eq]
      exact hback k hk
    | cons _ front =>
      obtain ⟨_, rfl⟩ := List.cons.inj hsplit
      apply h.last front g back q rfl
      · rw [hshape.follow_eq]
        exact hg
      · intro k hk
        rw [hshape.follow_eq]
        exact hback k hk

/-- Sources are written up to the first that its file does not take, or all of them. -/
theorem writeOne_cases {fs : List FoldedSource}
    (h : ∀ f ∈ fs, ∃ place, store.LeadsToFile f.path place) :
    ∃ written unwritten middle, fs = written ++ unwritten ∧
      (∀ f ∈ written, store.Takes f.path f.text) ∧ Rewritten store written middle ∧
      (unwritten = [] ∧ fs.foldlM Project.writeOne store = .ok middle ∨
        ∃ f rest failure, unwritten = f :: rest ∧ middle.Refuses f.path f.text failure.store ∧
          fs.foldlM Project.writeOne store = .error failure) := by
  induction fs generalizing store with
  | nil => exact ⟨[], [], store, rfl, by simp, .nil store, .inl ⟨rfl, rfl⟩⟩
  | cons f fs ih =>
    obtain ⟨place, hf⟩ := h f (List.mem_cons_self ..)
    rw [List.foldlM_cons]
    rcases write_cases hf f.text with ⟨htakes, hwrite⟩ | ⟨e, left, hrefuses, hwrite⟩
    · obtain ⟨content, hentry⟩ := hf.2
      have hshape : SameShape (store.put place (.file (.text f.text))) store := sameShape_put hentry
      have hfs : ∀ g ∈ fs, ∃ q, (store.put place (.file (.text f.text))).LeadsToFile g.path q := by
        intro g hg
        obtain ⟨q, hq⟩ := h g (List.mem_cons_of_mem _ hg)
        exact ⟨q, hq.of_sameShape hshape⟩
      obtain ⟨written, unwritten, middle, rfl, htaken, hmiddle, hend⟩ := ih hfs
      refine ⟨f :: written, unwritten, middle, rfl, ?_, .cons hf hmiddle, ?_⟩
      · intro g hg
        rcases List.mem_cons.mp hg with rfl | hg
        · exact htakes
        · exact (htaken g hg).of_sameShape hshape.symm
      · simp only [Project.writeOne, hwrite]
        exact hend
    · refine ⟨[], f :: fs, store, rfl, by simp, .nil store, .inr ⟨f, fs, ?_⟩⟩
      refine ⟨{ error := .unwritable f.path e, store := left }, rfl, hrefuses, ?_⟩
      simp only [Project.writeOne, hwrite]
      rfl

end Store

end LiteralFolding
