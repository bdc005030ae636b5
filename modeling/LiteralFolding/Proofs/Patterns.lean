-- Binding patterns. Taking a pattern apart on a stack gives the names that its form says, in the
-- order of the text and each once: those of the places where the pattern binds, and none of a key
-- or a default value.
import LiteralFolding.Proofs.Positions
import LiteralFolding.Symbol.Pattern

namespace LiteralFolding

namespace Tree

/-! ## The names by the form of a pattern -/

mutual

/-- The identifiers that a pattern binds, by its form. -/
def namesByForm : Tree → List Node
  | .mk node children =>
    match node.kind with
    | .identifier | .shorthandPropertyIdentifierPattern => [node]
    | .assignmentPattern | .objectAssignmentPattern => namesByFormIn .left children
    | .pairPattern => namesByFormIn .value children
    | .objectPattern | .arrayPattern | .restPattern => namesByFormOfAll children
    | _ => []

/-- The identifiers that the first child in a role binds. -/
def namesByFormIn (field : Field) : List Tree → List Node
  | [] => []
  | t :: ts => if t.node.field = some field then namesByForm t else namesByFormIn field ts

/-- The identifiers that all meaningful children bind. -/
def namesByFormOfAll : List Tree → List Node
  | [] => []
  | t :: ts => (if t.node.named then namesByForm t else []) ++ namesByFormOfAll ts

end

theorem namesByFormIn_eq (field : Field) (ts : List Tree) :
    namesByFormIn field ts =
      (ts.find? (·.node.field = some field)).toList.flatMap namesByForm := by
  induction ts with
  | nil => rfl
  | cons t ts ih =>
    rw [namesByFormIn, List.find?_cons, ih]
    by_cases h : t.node.field = some field
    · simp [h]
    · simp [h]

theorem namesByFormOfAll_eq (ts : List Tree) :
    namesByFormOfAll ts = (ts.filter (·.node.named)).flatMap namesByForm := by
  induction ts with
  | nil => rfl
  | cons t ts ih =>
    rw [namesByFormOfAll, List.filter_cons, ih]
    split <;> simp

theorem namesByForm_eq (t : Tree) :
    t.namesByForm =
      match t.kind with
      | .identifier | .shorthandPropertyIdentifierPattern => [t.node]
      | .assignmentPattern | .objectAssignmentPattern =>
        (t.child? .left).toList.flatMap namesByForm
      | .pairPattern => (t.child? .value).toList.flatMap namesByForm
      | .objectPattern | .arrayPattern | .restPattern => t.namedChildren.flatMap namesByForm
      | _ => [] := by
  cases t with
  | mk node children =>
    rw [namesByForm, namesByFormIn_eq, namesByFormIn_eq, namesByFormOfAll_eq]
    rfl

/-! ## The stack -/

theorem pushAll_toList (stack : List Tree) (t? : Option Tree) :
    pushAll stack t?.toList = t?.toList ++ stack := by
  cases t? <;> rfl

theorem pushAll_reverse (stack ts : List Tree) : pushAll stack ts.reverse = ts ++ stack := by
  rw [pushAll_eq, List.reverse_reverse]

/-- What the loop still adds are the names of the patterns on the stack, from the top down. -/
theorem namesOnStack_eq (names : List Node) (stack : List Tree) :
    namesOnStack names stack = names ++ stack.flatMap namesByForm := by
  fun_induction namesOnStack names stack with
  | case1 names => simp
  | case2 names t stack hkind ih | case3 names t stack hkind ih =>
    rw [ih, List.flatMap_cons, namesByForm_eq t]
    simp [hkind]
  | case4 names t stack hkind ih | case5 names t stack hkind ih | case6 names t stack hkind ih =>
    rw [ih, pushAll_toList, List.flatMap_append, List.flatMap_cons, namesByForm_eq t]
    simp [hkind]
  | case7 names t stack hkind ih | case8 names t stack hkind ih | case9 names t stack hkind ih =>
    rw [ih, pushAll_reverse, List.flatMap_append, List.flatMap_cons, namesByForm_eq t]
    simp [hkind]
  | case10 names t stack _ _ _ _ _ _ _ _ ih =>
    rw [ih, List.flatMap_cons, namesByForm_eq t]
    split <;> first | contradiction | simp

theorem boundNames_eq_namesByForm (t : Tree) : t.boundNames = t.namesByForm := by
  rw [boundNames, namesOnStack_eq]
  simp

end Tree

namespace Position

variable {p q r : Position} {t : Tree}

/-! ## Where a pattern binds -/

/-- The pattern at the first place binds what its part at the second place binds. -/
inductive BindsThrough (p q : Position) : Prop
  | left (hkind : p.kind = .assignmentPattern ∨ p.kind = .objectAssignmentPattern)
      (hleft : p.child? .left = some q)
  | value (hkind : p.kind = .pairPattern) (hvalue : p.child? .value = some q)
  | part (hkind : p.kind = .objectPattern ∨ p.kind = .arrayPattern ∨ p.kind = .restPattern)
      (hpart : q ∈ p.namedChildren)

/-- The pattern at the first place binds the identifier at the second. -/
inductive BindsAt : Position → Position → Prop
  | here {p : Position}
      (hkind : p.kind = .identifier ∨ p.kind = .shorthandPropertyIdentifierPattern) : BindsAt p p
  | through {p q r : Position} (hpart : BindsThrough p q) (hbinds : BindsAt q r) : BindsAt p r

theorem BindsThrough.mem_children (h : p.BindsThrough q) : q ∈ p.children := by
  cases h with
  | left _ hleft => exact mem_children_of_child? hleft
  | value _ hvalue => exact mem_children_of_child? hvalue
  | part _ hpart => exact mem_children_of_mem_namedChildren hpart

theorem BindsAt.suffix (h : p.BindsAt r) : p.route <:+ r.route := by
  induction h with
  | here => exact List.suffix_refl _
  | through hpart _ ih => exact suffix_of_mem_children hpart.mem_children ih

/-- All steps on the way from a pattern down to an identifier that it binds are from a pattern to
a part through which it binds. -/
theorem BindsAt.through_of_suffix {start : Position} (h : start.BindsAt r) (hstart : start ∈ all t)
    (hp : p ∈ all t) (habove : start.route <:+ p.route) (hq : q ∈ p.children)
    (hsuffix : q.route <:+ r.route) : p.BindsThrough q := by
  have hlength := length_route_of_mem_children hq
  induction h with
  | here =>
    have := hsuffix.length_le
    have := habove.length_le
    omega
  | @through start next r hpart hbinds ih =>
    have hnext := length_route_of_mem_children hpart.mem_children
    have hp_suffix := suffix_of_mem_children hq hsuffix
    by_cases heq : start.route = p.route
    · obtain rfl := eq_of_route_eq (all_pairwise t) hstart hp heq
      -- Both the place and the next one lie right below the start and above the identifier.
      have hsame : next.route = q.route := by
        have := List.suffix_of_suffix_length_le hbinds.suffix hsuffix (by omega)
        exact this.eq_of_length (by omega)
      obtain rfl :=
        eq_of_route_eq start.children_pairwise hpart.mem_children hq hsame
      exact hpart
    · have hlt : start.route.length < p.route.length := by
        refine Nat.lt_of_le_of_ne habove.length_le fun hlen => heq (habove.eq_of_length hlen)
      refine ih (mem_all_of_mem_children hstart hpart.mem_children) ?_ hsuffix
      exact List.suffix_of_suffix_length_le hbinds.suffix hp_suffix (by omega)

/-! ## The places of the names -/

/-- The parts through which the pattern at a place binds. -/
def parts (p : Position) : List Position :=
  match p.kind with
  | .assignmentPattern | .objectAssignmentPattern => (p.child? .left).toList
  | .pairPattern => (p.child? .value).toList
  | .objectPattern | .arrayPattern | .restPattern => p.namedChildren
  | _ => []

theorem mem_parts_iff : q ∈ p.parts ↔ p.BindsThrough q := by
  unfold parts
  constructor
  · intro h
    split at h <;> rename_i hkind
    case h_1 => exact .left (.inl hkind) (Option.mem_toList.mp h)
    case h_2 => exact .left (.inr hkind) (Option.mem_toList.mp h)
    case h_3 => exact .value hkind (Option.mem_toList.mp h)
    case h_4 | h_5 | h_6 => exact .part (by simp [hkind]) h
    case h_7 => cases h
  · intro h
    cases h with
    | left hkind hleft => rcases hkind with hkind | hkind <;> simp [hkind, hleft]
    | value hkind hvalue => simp [hkind, hvalue]
    | part hkind hpart => rcases hkind with hkind | hkind | hkind <;> simpa [hkind] using hpart

theorem toList_child?_sublist (p : Position) (field : Field) :
    (p.child? field).toList.Sublist p.children := by
  cases h : p.child? field with
  | none => exact List.nil_sublist _
  | some q => exact List.singleton_sublist.mpr (mem_children_of_child? h)

theorem parts_sublist (p : Position) : p.parts.Sublist p.children := by
  unfold parts
  split
  case h_1 | h_2 | h_3 => exact p.toList_child?_sublist _
  case h_4 | h_5 | h_6 => exact List.filter_sublist
  case h_7 => exact List.nil_sublist _

/-- The places of the identifiers that the pattern at a place binds. -/
def boundPlaces (p : Position) : List Position :=
  if p.kind = .identifier ∨ p.kind = .shorthandPropertyIdentifierPattern then [p]
  else p.parts.attach.flatMap fun ⟨q, hq⟩ =>
    have := size_lt_of_mem_children (p.parts_sublist.subset hq)
    boundPlaces q
termination_by p.tree.size

theorem boundPlaces_eq (p : Position) :
    p.boundPlaces =
      if p.kind = .identifier ∨ p.kind = .shorthandPropertyIdentifierPattern then [p]
      else p.parts.flatMap boundPlaces := by
  have hparts :
      p.parts.attach.flatMap (fun q => boundPlaces q.val) = p.parts.flatMap boundPlaces := by
    rw [← List.flatMap_map, List.attach_map_subtype_val]
  rw [boundPlaces, ← hparts]

theorem flatMap_sublist {f g : Position → List Position} {ps qs : List Position}
    (h : ps.Sublist qs) (hfg : ∀ q ∈ qs, (f q).Sublist (g q)) :
    (ps.flatMap f).Sublist (qs.flatMap g) := by
  induction h with
  | slnil => exact .refl _
  | cons q _ ih =>
    rw [List.forall_mem_cons] at hfg
    exact (ih hfg.2).trans (List.sublist_append_right _ _)
  | cons_cons q _ ih =>
    rw [List.forall_mem_cons] at hfg
    rw [List.flatMap_cons, List.flatMap_cons]
    exact hfg.1.append (ih hfg.2)

/-- The places stand in the order of the text. -/
theorem boundPlaces_sublist (p : Position) : p.boundPlaces.Sublist p.listed := by
  induction p using induction_on_children with
  | step p ih =>
    rw [boundPlaces_eq, listed_eq]
    split
    · simp
    · exact .cons _ (flatMap_sublist p.parts_sublist ih)

theorem map_tree_toList_child? (p : Position) (field : Field) :
    (p.child? field).toList.map (·.tree) = (p.tree.child? field).toList := by
  have hfind := List.find?_map (f := fun q : Position => q.tree)
    (p := fun t : Tree => t.node.field = some field) (l := p.children)
  rw [children, map_tree_siblings] at hfind
  rw [Tree.child?, hfind, Option.toList_map]
  rfl

theorem map_node_boundPlaces (p : Position) : p.boundPlaces.map (·.node) = p.tree.namesByForm := by
  induction p using induction_on_children with
  | step p ih =>
    have hparts : p.parts.flatMap (fun q => q.boundPlaces.map (·.node)) =
        (p.parts.map (·.tree)).flatMap Tree.namesByForm := by
      rw [List.flatMap_map, List.flatMap_def, List.flatMap_def,
        List.map_congr_left fun q hq => ih q (p.parts_sublist.subset hq)]
    have hkind : p.kind = p.tree.kind := rfl
    rw [boundPlaces_eq, Tree.namesByForm_eq, ← hkind]
    by_cases hname : p.kind = .identifier ∨ p.kind = .shorthandPropertyIdentifierPattern
    · rw [if_pos hname]
      rcases hname with hname | hname <;> simp [hname, node]
    · rw [if_neg hname, List.map_flatMap, hparts, parts]
      split
      case h_1 h | h_2 h | h_3 h => rw [h, map_tree_toList_child?]
      case h_4 h | h_5 h | h_6 h => rw [h, map_tree_namedChildren]
      case h_7 => split <;> simp_all

theorem mem_boundPlaces_iff : r ∈ p.boundPlaces ↔ p.BindsAt r := by
  constructor
  · induction p using induction_on_children with
    | step p ih =>
      intro h
      rw [boundPlaces_eq] at h
      split at h <;> rename_i hkind
      · obtain rfl := List.mem_singleton.mp h
        exact .here hkind
      · obtain ⟨q, hq, hr⟩ := List.mem_flatMap.mp h
        exact .through (mem_parts_iff.mp hq) (ih q (p.parts_sublist.subset hq) hr)
  · intro h
    induction h with
    | here hkind => simp [boundPlaces_eq, hkind]
    | @through p q r hpart _ ih =>
      have hkind : ¬ (p.kind = .identifier ∨ p.kind = .shorthandPropertyIdentifierPattern) := by
        cases hpart with
        | left hkind => rcases hkind with hkind | hkind <;> simp [hkind]
        | value hkind => simp [hkind]
        | part hkind => rcases hkind with hkind | hkind | hkind <;> simp [hkind]
      rw [boundPlaces_eq, if_neg hkind]
      exact List.mem_flatMap.mpr ⟨q, mem_parts_iff.mpr hpart, ih⟩

end Position

/-- The stack is emptied, and the names taken from it are those that the form of the pattern says.
They are those of the places where the pattern binds, in the order of the text and each once. On
the way down to such a place a pair is left through its value and a pattern with a default through
its left side, so no key and nothing of a default value is among them. -/
theorem Tree.boundNames_are_of_bound_places (t : Tree) :
    t.boundNames = t.namesByForm ∧
      ∃ places : List Position,
        t.boundNames = places.map (·.node) ∧ places.Sublist (Position.all t) ∧
        places.Pairwise (·.route ≠ ·.route) ∧
        (∀ r, r ∈ places ↔ (Position.top t).BindsAt r) ∧
        ∀ p ∈ Position.all t, ∀ q ∈ p.children, ∀ r ∈ places, q.route <:+ r.route →
          (p.kind = .pairPattern → q.node.field = some .value) ∧
          (p.kind = .assignmentPattern ∨ p.kind = .objectAssignmentPattern →
            q.node.field = some .left) := by
  have hform := t.boundNames_eq_namesByForm
  have hsublist := (Position.top t).boundPlaces_sublist
  refine ⟨hform, (Position.top t).boundPlaces, ?_, hsublist, ?_,
    fun r => Position.mem_boundPlaces_iff, ?_⟩
  · rw [hform, Position.map_node_boundPlaces]
    rfl
  · exact (Position.all_pairwise t).sublist hsublist
  · intro p hp q hq r hr hsuffix
    have hbinds := Position.mem_boundPlaces_iff.mp hr
    have hthrough :=
      hbinds.through_of_suffix (Position.top_mem_all t) hp List.nil_suffix hq hsuffix
    cases hthrough with
    | left hkind hleft =>
      have hfield : q.node.field = some .left := by simpa using List.find?_some hleft
      refine ⟨fun hpair => ?_, fun _ => hfield⟩
      rcases hkind with hkind | hkind <;> simp [hkind] at hpair
    | value hkind hvalue =>
      have hfield : q.node.field = some .value := by simpa using List.find?_some hvalue
      exact ⟨fun _ => hfield, fun hdefault => by simp [hkind] at hdefault⟩
    | part hkind _ =>
      rcases hkind with hkind | hkind | hkind <;> simp [hkind]

-- The pattern `{ a, b: c, d = f, ...r }` binds `a`, `c`, `d` and `r`.
example :
    (Tree.piece .objectPattern none 0 24 [
        .piece .shorthandPropertyIdentifierPattern none 2 3 [],
        .piece .pairPattern none 5 9 [.piece .propertyIdentifier (some .key) 5 6 [],
          .piece .identifier (some .value) 8 9 []],
        .piece .objectAssignmentPattern none 11 16 [
          .piece .shorthandPropertyIdentifierPattern (some .left) 11 12 [],
          .piece .identifier (some .right) 15 16 []],
        .piece .restPattern none 18 22 [.piece .identifier none 21 22 []]]).boundNames.map
      (·.span.start) = [2, 8, 11, 21] := by
  decide +kernel

end LiteralFolding
