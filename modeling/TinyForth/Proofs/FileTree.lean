import TinyForth.FileTree
import TinyForth.Proofs.FileName

/-!
# Resolving, reading and writing

Opening a file for writing leads to a location that is not a directory (`target`), and what
is written there is all that changes.  So writing makes and removes no directory, and trees
with the same directories resolve the same names to the same locations.

Two names that differ behind their last slash only lead into the same directory.  If one of
them resolves, then where the other leads no longer depends on the tree
(`exists_folder`).  That is what the outputs of a compilation and its source rest on, whose
names differ in their extensions.
-/

namespace TinyForth.FileTree

/-! ## Locations -/

/-- The part names something in a directory.  The other parts are steps along the tree. -/
def IsPlain (part : Text) : Prop := part ≠ [] ∧ part ≠ ['.'] ∧ part ≠ parent

theorem isPlain_append (t : Text) {e : Text} (long : 2 < e.length) : IsPlain (t ++ e) := by
  have short : ∀ s : Text, s.length ≤ 2 → t ++ e ≠ s := by
    rintro s hs rfl
    rw [List.length_append] at hs
    omega
  exact ⟨short [] (by decide), short ['.'] (by decide), short parent (by decide)⟩

theorem descend_of_isPlain {part : Text} (plain : IsPlain part) (here : Location) :
    descend here part = here ++ [part] := by
  obtain ⟨notEmpty, notDot, notParent⟩ := plain
  rw [descend, if_neg (not_or.mpr ⟨notEmpty, notDot⟩), if_neg notParent]

theorem ascend_ne_append {part : Text} (notParent : part ≠ parent) (here : Location) :
    ascend here ≠ here ++ [part] := by
  have shorter : ∀ other : Location, other.length ≤ here.length → other ≠ here ++ [part] := by
    rintro other h rfl
    rw [List.length_append, List.length_singleton] at h
    omega
  unfold ascend
  split
  next none =>
    rw [List.getLast?_eq_none_iff.mp none]
    exact fun h => notParent (List.singleton_inj.mp h).symm
  next =>
    split
    next => exact fun h => notParent (List.singleton_inj.mp (List.append_cancel_left h)).symm
    next =>
      split
      next => exact shorter here (Nat.le_refl _)
      next => exact shorter here.dropLast (by simp)

/-- A plain part is the only way from a location to the one it names there. -/
theorem descend_eq_iff {part plainPart : Text} (plain : IsPlain plainPart) (here : Location) :
    descend here part = descend here plainPart ↔ part = plainPart := by
  refine ⟨?_, fun h => by rw [h]⟩
  rw [descend_of_isPlain plain]
  unfold descend
  split
  next => exact fun h => absurd h (by simp)
  next =>
    split
    next => exact fun h => absurd h (ascend_ne_append plain.2.2 here)
    next => exact fun h => List.singleton_inj.mp (List.append_cancel_left h)

/-! ## Nodes -/

theorem getElem?_put (tree : FileTree) (here other : Location) (bytes : List UInt8) :
    (tree.put here bytes)[other]? = if other = here then some (.file bytes) else tree[other]? := by
  rw [put, Std.ExtTreeMap.getElem?_insert]
  simp only [Std.LawfulEqCmp.compare_eq_iff_eq, eq_comm (a := here)]

theorem isAnchor_eq_false {tree : FileTree} {here : Location}
    (h : tree.node? here ≠ some .directory) : isAnchor here = false := by
  cases anchor : isAnchor here with
  | false => rfl
  | true => exact absurd (if_pos anchor) h

theorem node?_put_self {tree : FileTree} {here : Location}
    (h : tree.node? here ≠ some .directory) (bytes : List UInt8) :
    (tree.put here bytes).node? here = some (.file bytes) := by
  rw [node?, isAnchor_eq_false h, getElem?_put, if_pos rfl]
  rfl

theorem node?_put_of_ne (tree : FileTree) {here other : Location} (bytes : List UInt8)
    (ne : other ≠ here) : (tree.put here bytes).node? other = tree.node? other := by
  rw [node?, getElem?_put, if_neg ne, node?]

/-- Two trees have their directories at the same locations. -/
def SameDirectories (tree tree' : FileTree) : Prop :=
  ∀ here, tree.node? here = some .directory ↔ tree'.node? here = some .directory

theorem SameDirectories.refl (tree : FileTree) : SameDirectories tree tree := fun _ => Iff.rfl

theorem sameDirectories_put {tree : FileTree} {here : Location}
    (h : tree.node? here ≠ some .directory) (bytes : List UInt8) :
    SameDirectories tree (tree.put here bytes) := by
  intro other
  by_cases same : other = here
  · subst same
    rw [node?_put_self h]
    exact iff_of_false h (by simp)
  · rw [node?_put_of_ne tree _ same]

/-! ## Writing several files -/

/-- The tree with files at several locations, where each location has its content. -/
def putAll (tree : FileTree) (heres : List Location) (content : Location → List UInt8) :
    FileTree :=
  heres.foldl (fun tree here => tree.put here (content here)) tree

theorem getElem?_putAll (tree : FileTree) (heres : List Location)
    (content : Location → List UInt8) (other : Location) :
    (tree.putAll heres content)[other]? =
      if other ∈ heres then some (.file (content other)) else tree[other]? := by
  induction heres generalizing tree with
  | nil => simp [putAll]
  | cons here heres ih =>
      have step : tree.putAll (here :: heres) content =
          (tree.put here (content here)).putAll heres content := rfl
      rw [step, ih, getElem?_put]
      by_cases later : other ∈ heres <;> by_cases first : other = here <;> simp [later, first]

theorem node?_putAll {tree : FileTree} {heres : List Location}
    (free : ∀ here ∈ heres, tree.node? here ≠ some .directory) (content : Location → List UInt8)
    (other : Location) : (tree.putAll heres content).node? other =
      if other ∈ heres then some (.file (content other)) else tree.node? other := by
  by_cases written : other ∈ heres
  · simp [node?, getElem?_putAll, written, isAnchor_eq_false (free other written)]
  · simp [node?, getElem?_putAll, written]

section

variable {tree : FileTree} {here there : Location} (h : tree.node? here ≠ some .directory)
  (h' : tree.node? there ≠ some .directory) (bytes : List UInt8)

include h h'

theorem sameDirectories_put_put (bytes' : List UInt8) :
    SameDirectories tree ((tree.put here bytes).put there bytes') := by
  have first := sameDirectories_put h bytes
  have second := sameDirectories_put (fun directory => h' ((first there).mpr directory)) bytes'
  exact fun other => (first other).trans (second other)

theorem node?_put_put (other : Location) :
    ((tree.put here bytes).put there bytes).node? other =
      if other = here ∨ other = there then some (.file bytes) else tree.node? other := by
  have free : ∀ x ∈ [here, there], tree.node? x ≠ some .directory := by simp [h, h']
  simpa [putAll] using node?_putAll free (fun _ => bytes) other

end

theorem getElem?_put_put (tree : FileTree) (here there other : Location) (bytes : List UInt8) :
    ((tree.put here bytes).put there bytes)[other]? =
      if other = here ∨ other = there then some (.file bytes) else tree[other]? := by
  simpa [putAll] using getElem?_putAll tree [here, there] (fun _ => bytes) other

/-! ## Resolving -/

theorem walk_append (tree : FileTree) (here : Location) (front rest : List Text) :
    tree.walk here (front ++ rest) =
      match tree.walk here front with
      | .error problem => .error problem
      | .ok folder => tree.walk folder rest := by
  induction front generalizing here with
  | nil => rfl
  | cons part front ih =>
      rw [List.cons_append, walk, walk]
      cases tree.node? here with
      | none => rfl
      | some node =>
          cases node with
          | file bytes => rfl
          | directory =>
              cases FileName.isPartTooLong part with
              | true => rfl
              | false => exact ih (descend here part)

/-- One step from a directory. -/
theorem walk_singleton {tree : FileTree} {folder : Location}
    (directory : tree.node? folder = some .directory) (part : Text) :
    tree.walk folder [part] =
      if FileName.isPartTooLong part then .error .tooLong else .ok (descend folder part) := by
  rw [walk, directory]
  rfl

theorem directory_of_walk_singleton {tree : FileTree} {folder here : Location} {part : Text}
    (h : tree.walk folder [part] = .ok here) : tree.node? folder = some .directory := by
  rw [walk] at h
  split at h
  next => cases h
  next => cases h
  next directory => exact directory

/-- A walk that succeeds sees directories only. -/
theorem walk_of_sameDirectories {tree tree' : FileTree} (same : SameDirectories tree tree')
    {here there : Location} {parts : List Text} (h : tree.walk here parts = .ok there) :
    tree'.walk here parts = .ok there := by
  induction parts generalizing here with
  | nil => exact h
  | cons part parts ih =>
      rw [walk] at h ⊢
      split at h
      next => cases h
      next => cases h
      next directory =>
        rw [(same here).mp directory]
        dsimp only
        split at h
        next => cases h
        next short =>
          rw [if_neg short]
          exact ih h

/-- The location that a name is resolved from. -/
def start (name : Text) : Location := if name.head? = some '/' then [root] else []

theorem start_append (t : Text) {e : Text} (noSlash : '/' ∉ e) : start (t ++ e) = start t := by
  cases t with
  | nil =>
      have other : e.head? ≠ some '/' := fun h => noSlash (List.mem_of_head? h)
      rw [List.nil_append, start, if_neg other]
      rfl
  | cons c t => rfl

theorem walk_of_resolve {tree : FileTree} {name : Text} {here : Location}
    (h : tree.resolve name = .ok here) :
    tree.walk (start name) (FileName.parts name) = .ok here := by
  unfold resolve at h
  split at h
  next => cases h
  next =>
    split at h
    next => cases h
    next =>
      split at h
      next => cases h
      next => exact h

theorem resolve_congr {tree tree' : FileTree} {name : Text}
    (h : tree.walk (start name) (FileName.parts name) =
      tree'.walk (start name) (FileName.parts name)) :
    tree.resolve name = tree'.resolve name := by
  unfold start at h
  rw [resolve, h, resolve]

theorem resolve_of_sameDirectories {tree tree' : FileTree} (same : SameDirectories tree tree')
    {name : Text} {here : Location} (h : tree.resolve name = .ok here) :
    tree'.resolve name = .ok here := by
  rw [← h]
  refine (resolve_congr ?_).symm
  rw [walk_of_resolve h, walk_of_sameDirectories same (walk_of_resolve h)]

/-- If a name resolves, then the names with other last parts lead into the same directory, in
every tree with the same directories. -/
theorem exists_folder {tree : FileTree} {t e : Text} {here : Location} (noSlash : '/' ∉ e)
    (resolved : tree.resolve (t ++ e) = .ok here) :
    ∃ folder last, ∀ tree', SameDirectories tree tree' → ∀ e', '/' ∉ e' →
      tree'.walk (start (t ++ e')) (FileName.parts (t ++ e')) =
        if FileName.isPartTooLong (last ++ e') then .error .tooLong
        else .ok (descend folder (last ++ e')) := by
  obtain ⟨front, last, split⟩ := FileName.exists_parts_append t
  have walked := walk_of_resolve resolved
  rw [start_append t noSlash, split e noSlash, walk_append] at walked
  cases reached : tree.walk (start t) front with
  | error problem =>
      rw [reached] at walked
      cases walked
  | ok folder =>
      rw [reached] at walked
      have directory := directory_of_walk_singleton walked
      refine ⟨folder, last, ?_⟩
      intro tree' same e' noSlash'
      rw [start_append t noSlash', split e' noSlash', walk_append,
        walk_of_sameDirectories same reached]
      exact walk_singleton ((same folder).mp directory) _

theorem resolve_of_sibling {tree tree' : FileTree} {t e e' : Text} {here : Location}
    (noSlash : '/' ∉ e) (noSlash' : '/' ∉ e') (resolved : tree.resolve (t ++ e) = .ok here)
    (same : SameDirectories tree tree') :
    tree'.resolve (t ++ e') = tree.resolve (t ++ e') := by
  obtain ⟨folder, last, leads⟩ := exists_folder noSlash resolved
  exact resolve_congr
    ((leads tree' same e' noSlash').trans (leads tree (.refl tree) e' noSlash').symm)

/-- Two names with the same root lead to one location only if they are the same, unless they
both are steps along the tree. -/
theorem sibling_eq_iff {tree : FileTree} {t e e' : Text} {here here' : Location}
    (noSlash : '/' ∉ e) (noSlash' : '/' ∉ e') (long : 2 < e'.length)
    (resolved : tree.resolve (t ++ e) = .ok here)
    (resolved' : tree.resolve (t ++ e') = .ok here') : here = here' ↔ e = e' := by
  obtain ⟨folder, last, leads⟩ := exists_folder noSlash resolved
  have location : ∀ {e : Text} {here : Location}, '/' ∉ e → tree.resolve (t ++ e) = .ok here →
      here = descend folder (last ++ e) := by
    intro e here noSlash resolved
    have walked := walk_of_resolve resolved
    rw [leads tree (.refl tree) e noSlash] at walked
    split at walked
    next => cases walked
    next => exact (Except.ok.inj walked).symm
  rw [location noSlash resolved, location noSlash' resolved',
    descend_eq_iff (isPlain_append last long), List.append_right_inj]

/-! ## Reading and writing -/

/-- The location that opening a name for writing leads to. -/
def target (tree : FileTree) (name : Text) : Except Error Location :=
  match tree.resolve name with
  | .error problem => .error ⟨problem, name⟩
  | .ok here =>
      if tree.node? here = some .directory then .error ⟨.isDirectory, name⟩ else .ok here

/-- Writing is opening for writing and then changing the tree at one location. -/
theorem write_eq (tree : FileTree) (name : Text) (bytes : List UInt8) :
    tree.write name bytes =
      (tree.target name).map fun here => tree.put here bytes := by
  unfold write target
  cases tree.resolve name with
  | error problem => rfl
  | ok here =>
      dsimp only
      split
      next directory => rw [if_pos directory]; rfl
      next other => rw [if_neg other]; rfl

theorem target_eq_ok_iff {tree : FileTree} {name : Text} {here : Location} :
    tree.target name = .ok here ↔
      tree.resolve name = .ok here ∧ tree.node? here ≠ some .directory := by
  unfold target
  cases tree.resolve name with
  | error problem => simp
  | ok there =>
      dsimp only
      split
      next directory =>
        refine iff_of_false (by simp) ?_
        rintro ⟨resolved, other⟩
        cases resolved
        exact other directory
      next other =>
        constructor
        · intro h
          cases h
          exact ⟨rfl, other⟩
        · rintro ⟨h, -⟩
          cases h
          rfl

/-- The file of a name can be written. -/
def Writable (tree : FileTree) (name : Text) : Prop :=
  ∃ bytes written, tree.write name bytes = .ok written

theorem writable_iff {tree : FileTree} {name : Text} :
    tree.Writable name ↔ ∃ here, tree.target name = .ok here := by
  simp only [Writable, write_eq]
  cases tree.target name with
  | error e => simp [Except.map]
  | ok here => simp [Except.map]

theorem read_eq_ok_iff {tree : FileTree} {name : Text} {bytes : List UInt8} :
    tree.read name = .ok bytes ↔
      ∃ here, tree.resolve name = .ok here ∧ tree.node? here = some (.file bytes) := by
  unfold read
  cases tree.resolve name with
  | error problem => simp
  | ok here =>
      dsimp only
      split <;> simp_all

theorem name_of_read_error {tree : FileTree} {name : Text} {e : Error}
    (h : tree.read name = .error e) : e.name = name := by
  unfold read at h
  split at h
  next => cases h; rfl
  next =>
    split at h
    next => cases h; rfl
    next => cases h; rfl
    next => cases h

/-- What a file holds has no influence on where names lead, nor on the errors met on the way. -/
theorem walk_put_congr {tree : FileTree} {own : Location}
    (free : tree.node? own ≠ some .directory) (bytes bytes' : List UInt8) (here : Location)
    (parts : List Text) :
    (tree.put own bytes).walk here parts = (tree.put own bytes').walk here parts := by
  induction parts generalizing here with
  | nil => rfl
  | cons part parts ih =>
      rw [walk, walk]
      by_cases same : here = own
      · rw [same, node?_put_self free, node?_put_self free]
      · rw [node?_put_of_ne tree _ same, node?_put_of_ne tree _ same]
        simp only [ih]

theorem target_put_congr {tree : FileTree} {own : Location}
    (free : tree.node? own ≠ some .directory) (bytes bytes' : List UInt8) (name : Text) :
    (tree.put own bytes).target name = (tree.put own bytes').target name := by
  rw [target, resolve_congr (walk_put_congr free bytes bytes' ..), target]
  cases (tree.put own bytes').resolve name with
  | error problem => rfl
  | ok here =>
      have directory := (sameDirectories_put free bytes here).symm.trans
        (sameDirectories_put free bytes' here)
      simp only [directory]

/-- What is written to a sibling of a name does not change where opening the name leads. -/
theorem target_put_sibling {tree : FileTree} {t e e' : Text} {here : Location}
    (noSlash : '/' ∉ e) (noSlash' : '/' ∉ e') (long : 2 < e.length) (ne : e ≠ e')
    (opened : tree.target (t ++ e) = .ok here) (bytes : List UInt8) :
    (tree.put here bytes).target (t ++ e') = tree.target (t ++ e') := by
  obtain ⟨resolved, other⟩ := target_eq_ok_iff.mp opened
  rw [target, resolve_of_sibling noSlash noSlash' resolved (sameDirectories_put other bytes),
    target]
  cases resolved' : tree.resolve (t ++ e') with
  | error problem => rfl
  | ok there =>
      have apart : there ≠ here := fun h =>
        ne ((sibling_eq_iff noSlash' noSlash long resolved' resolved).mp h).symm
      dsimp only
      rw [node?_put_of_ne tree _ apart]

/-- Reading a name gives what stands where the name leads, also after other files are written. -/
theorem read_of_sameDirectories {tree tree' : FileTree} {name : Text} {here : Location}
    {bytes : List UInt8} (same : SameDirectories tree tree')
    (resolved : tree.resolve name = .ok here) (holds : tree'.node? here = some (.file bytes)) :
    tree'.read name = .ok bytes :=
  read_eq_ok_iff.mpr ⟨here, resolve_of_sameDirectories same resolved, holds⟩

theorem read_put {tree : FileTree} {name : Text} {here : Location}
    (opened : tree.target name = .ok here) (bytes : List UInt8) :
    (tree.put here bytes).read name = .ok bytes := by
  obtain ⟨resolved, free⟩ := target_eq_ok_iff.mp opened
  exact read_of_sameDirectories (sameDirectories_put free bytes) resolved
    (node?_put_self free bytes)

theorem read_put_put {tree : FileTree} {name : Text} {here there other : Location}
    (free : tree.node? here ≠ some .directory) (free' : tree.node? there ≠ some .directory)
    (resolved : tree.resolve name = .ok other) (written : other = here ∨ other = there)
    (bytes : List UInt8) : ((tree.put here bytes).put there bytes).read name = .ok bytes := by
  refine read_of_sameDirectories (sameDirectories_put_put free free' bytes bytes) resolved ?_
  rw [node?_put_put free free', if_pos written]

theorem read_of_write {tree written : FileTree} {name : Text} {bytes : List UInt8}
    (h : tree.write name bytes = .ok written) : written.read name = .ok bytes := by
  rw [write_eq] at h
  cases opened : tree.target name with
  | error e =>
      rw [opened] at h
      cases h
  | ok here =>
      rw [opened] at h
      cases h
      exact read_put opened bytes

/-- Writing a file does not change where opening a sibling of it leads. -/
theorem target_of_write_sibling {tree written : FileTree} {t e e' : Text} {bytes : List UInt8}
    (noSlash : '/' ∉ e) (noSlash' : '/' ∉ e') (long : 2 < e.length) (ne : e ≠ e')
    (h : tree.write (t ++ e) bytes = .ok written) :
    written.target (t ++ e') = tree.target (t ++ e') := by
  rw [write_eq] at h
  cases opened : tree.target (t ++ e) with
  | error problem =>
      rw [opened] at h
      cases h
  | ok here =>
      rw [opened] at h
      cases h
      exact target_put_sibling noSlash noSlash' long ne opened bytes

end TinyForth.FileTree
