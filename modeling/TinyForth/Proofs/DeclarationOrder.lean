import TinyForth.Proofs.Declarations

/-!
# The order of declarations

The order in which a module declares its locals has no meaning.  `sortDeclarations` settles it by
comparing whole lines, and the compiler takes the names in ascending order.  The two come to the
same (`sortDeclarations_of_perm`), although a shorter name is followed in its line by a space
where a longer one goes on.  The space comes before every character that a name can go on with
(`compare_space`), just as the end of a name does.

So nothing is lost by listing the variables in ascending order.  With any other listing the
compiler fails the same way, or makes a module that is the same with its declarations sorted
(`compile_eq_sorted`).
-/

namespace TinyForth

namespace Text

/-! ## Comparing texts -/

theorem compare_append_left (s x y : Text) : compare (s ++ x) (s ++ y) = compare x y := by
  induction s with
  | nil => rfl
  | cons c s ih =>
      have same : compare c c = .eq := Std.ReflCmp.compare_self
      show List.compareLex compare (c :: (s ++ x)) (c :: (s ++ y)) = _
      rw [List.compareLex_cons_cons, same]
      exact ih

theorem compare_space {c : Char} (h : isAlphanumeric c = true) : compare ' ' c = .lt := by
  have letters : ∀ r ∈ letterRanges, 0x20 < r.1 := by decide +kernel
  have numerics : ∀ r ∈ numericRanges, 0x20 < r.1 := by decide +kernel
  have above : 0x20 < c.toNat := by
    rcases Bool.or_eq_true_iff.mp h with letter | numeric
    · obtain ⟨r, mem, low, _⟩ := CodeRanges.has_iff.mp letter
      exact Nat.lt_of_lt_of_le (letters r mem) low
    · obtain ⟨r, mem, low, _⟩ := CodeRanges.has_iff.mp numeric
      exact Nat.lt_of_lt_of_le (numerics r mem) low
  exact if_pos above

/-- A space behind two names leaves them in their order. -/
theorem compare_append_space {x y : Text} (hy : ∀ c ∈ y, isAlphanumeric c = true) (t : Text)
    (lt : compare x y = .lt) : compare (x ++ ' ' :: t) (y ++ ' ' :: t) = .lt := by
  induction x generalizing y with
  | nil =>
      cases y with
      | nil => cases lt
      | cons d y =>
          obtain ⟨hd, _⟩ := List.forall_mem_cons.mp hy
          show List.compareLex compare (' ' :: t) (d :: (y ++ ' ' :: t)) = .lt
          rw [List.compareLex_cons_cons, compare_space hd]
          rfl
  | cons c x ih =>
      cases y with
      | nil => cases lt
      | cons d y =>
          have later := ih (List.forall_mem_cons.mp hy).2
          change List.compareLex compare (c :: x) (d :: y) = .lt at lt
          show List.compareLex compare (c :: (x ++ ' ' :: t)) (d :: (y ++ ' ' :: t)) = .lt
          rw [List.compareLex_cons_cons, Ordering.then_eq_lt] at lt ⊢
          exact lt.imp_right fun ⟨same, rest⟩ => ⟨same, later rest⟩

/-! ## Lines with newlines of their own -/

/-- A last line may as well be taken apart at its newlines. -/
theorem ofLines_append_pieces (ls : List Text) (t : Text) :
    ofLines (ls ++ pieces t) = ofLines (ls ++ [t]) := by
  induction ls with
  | nil => rw [List.nil_append, List.nil_append, ofLines, pieces, List.intercalate_splitOn, ofLines,
      List.intercalate_singleton]
  | cons l ls ih =>
      have some : ls ++ pieces t ≠ [] :=
        List.append_ne_nil_of_right_ne_nil _ (List.splitOn_ne_nil '\n' t)
      rw [List.cons_append, List.cons_append, ofLines_cons l some, ih, ofLines_cons l (by simp)]

end Text

namespace Word

theorem Listing.sorted_ascending (ts : List Text) :
    (ascending.list ts).Pairwise fun x y => compare x y = .lt :=
  Std.ExtTreeSet.ordered_toList (t := Std.ExtTreeSet.ofList ts)

theorem sorted_of_variablesIn {v : Vocabulary} {ws names : List Word}
    (h : variablesIn v ws = .ok names) : names.Pairwise fun x y => compare x y = .lt := by
  rw [eq_list_of_variablesIn h]
  exact Listing.sorted_ascending _

end Word

namespace Wat

/-! ## Sorting declarations -/

/-- The order in which declarations are sorted. -/
def inOrder (a b : Text) : Bool := (compare a b).isLE

theorem inOrder_trans (a b c : Text) (hab : inOrder a b = true) (hbc : inOrder b c = true) :
    inOrder a c = true :=
  Std.TransCmp.isLE_trans hab hbc

theorem inOrder_total (a b : Text) : (inOrder a b || inOrder b a) = true := by
  have swap : compare b a = (compare a b).swap := Std.OrientedCmp.eq_swap
  rw [inOrder, inOrder, swap]
  cases compare a b <;> rfl

theorem inOrder_antisymm {a b : Text} (hab : inOrder a b = true) (hba : inOrder b a = true) :
    a = b :=
  Std.LawfulEqCmp.eq_of_compare (Std.OrientedCmp.isLE_antisymm hab hba)

/-- Declarations stand in the order of the names they declare. -/
theorem inOrder_declaration {x y : Text} (hy : ∀ c ∈ y, Text.isAlphanumeric c = true)
    (lt : compare x y = .lt) : inOrder (declaration x) (declaration y) = true := by
  have text : ∀ z : Text, declaration z = "    (local $".toList ++ (z ++ ' ' :: "i32)".toList) := by
    intro z
    simp [declaration, line]
  rw [inOrder, text, text, Text.compare_append_left, Text.compare_append_space hy _ lt]
  rfl

/-- Declarations in any order are sorted by the names they declare. -/
theorem mergeSort_declarations {names order : List Text}
    (sorted : names.Pairwise fun x y => compare x y = .lt)
    (alphanumeric : ∀ x ∈ names, ∀ c ∈ x, Text.isAlphanumeric c = true) (perm : order.Perm names) :
    (order.map declaration).mergeSort inOrder = names.map declaration := by
  have ascending : (names.map declaration).Pairwise fun a b => inOrder a b = true := by
    refine List.pairwise_map.mpr (sorted.imp_of_mem ?_)
    intro x y _ mem lt
    exact inOrder_declaration (alphanumeric y mem) lt
  refine List.Perm.eq_of_pairwise (fun a b _ _ => inOrder_antisymm)
    (List.pairwise_mergeSort inOrder_trans inOrder_total _) ascending ?_
  exact (List.mergeSort_perm ..).trans (perm.map declaration)

/-- Sorting moves the declarations of a module among themselves and leaves its other lines
alone. -/
theorem sortDeclarations_module {names lines : List Text} (hnames : ∀ x ∈ names, '\n' ∉ x)
    (hlines : ∀ l ∈ lines, '\n' ∉ l) (instructions : ∀ l ∈ lines, isDeclaration l = false) :
    sortDeclarations (Text.ofLines ([opening] ++ names.map declaration ++ lines ++ [closing])) =
      Text.ofLines ([opening] ++ (names.map declaration).mergeSort inOrder ++ lines ++
        [closing]) := by
  have hdeclarations : ∀ l ∈ names.map declaration, '\n' ∉ l :=
    List.forall_mem_map.mpr fun x mem => newline_not_mem_declaration (hnames x mem)
  have others : ∀ l ∈ lines ++ Text.pieces closing, isDeclaration l = false :=
    List.forall_mem_append.mpr ⟨instructions, by decide⟩
  have front : ∀ ls : List Text, Text.ofLines ([opening] ++ ls ++ lines ++ [closing]) =
      (opening ++ ['\n']) ++ Text.ofLines (ls ++ lines ++ [closing]) := by
    intro ls
    show Text.ofLines (opening :: (ls ++ lines ++ [closing])) = _
    rw [Text.ofLines_cons opening (by simp), List.append_assoc opening, List.singleton_append]
  have pieces : Text.pieces (Text.ofLines (names.map declaration ++ lines ++ [closing])) =
      names.map declaration ++ (lines ++ Text.pieces closing) := by
    rw [Text.pieces_ofLines (by simp)]
    simp only [List.flatMap_append, List.flatMap_singleton, Text.flatMap_pieces hlines,
      Text.flatMap_pieces hdeclarations, List.append_assoc]
  rw [front, front, sortDeclarations]
  dsimp only
  rw [if_pos (List.isPrefixOf_iff_prefix.mpr (List.prefix_append ..)), List.drop_left, pieces,
    takeWhile_isDeclaration (isDeclaration_of_mem_map names) others,
    dropWhile_isDeclaration (isDeclaration_of_mem_map names) others, ← List.append_assoc,
    Text.ofLines_append_pieces]
  rfl

/-- A module whose variables are declared in some order is, with its declarations sorted, the
module that declares them in ascending order. -/
theorem sortDeclarations_of_perm {v : Vocabulary} {ws names order : List Word} {lines : List Text}
    (found : Word.variablesIn v ws = .ok names) (hlines : ∀ l ∈ lines, '\n' ∉ l)
    (instructions : ∀ l ∈ lines, isDeclaration l = false) (perm : order.Perm names) :
    sortDeclarations (Text.ofLines ([opening] ++ order.map declaration ++ lines ++ [closing])) =
      Text.ofLines ([opening] ++ names.map declaration ++ lines ++ [closing]) := by
  have alphanumeric : ∀ x ∈ names, ∀ c ∈ x, Text.isAlphanumeric c = true := fun x mem =>
    Word.isAlphanumeric_of_hasNameShape
      (Word.isVariable_eq_true_iff.mp ((Word.mem_of_variablesIn found).mp mem).1).1
  have hnames : ∀ x ∈ order, '\n' ∉ x := fun x mem =>
    Word.newline_not_mem_of_variablesIn found x (perm.mem_iff.mp mem)
  rw [sortDeclarations_module hnames hlines instructions,
    mergeSort_declarations (Word.sorted_of_variablesIn found) alphanumeric perm]

end Wat

/-- Two listings of the variables of some words have the same variables. -/
theorem Word.perm_of_variablesIn {v : Vocabulary} {ws names names' : List Word}
    {listing listing' : Listing} (h : variablesIn v ws listing = .ok names)
    (h' : variablesIn v ws listing' = .ok names') : names.Perm names' :=
  (List.perm_ext_iff_of_nodup (nodup_of_variablesIn h) (nodup_of_variablesIn h')).mpr fun _ =>
    (mem_of_variablesIn h).trans (mem_of_variablesIn h').symm

/-- What the compiler makes of a source with the variables in ascending order is what it makes of it
with any listing, once the declarations are sorted. -/
theorem Compiler.compile_eq_sorted (source : Text) (listing : Word.Listing) :
    compile source = (compile source listing).map Wat.sortDeclarations := by
  cases h : compile source listing with
  | error e => exact compileWords_error_congr h .ascending
  | ok text =>
      obtain ⟨order, ts, listed, translated, rfl⟩ := translations_of_compileWords h
      obtain ⟨names, found, compiled⟩ := compileWords_of_translates translated
      have noNewline := Wat.newline_not_mem_of_translations translated
        fun _ mem => newline_not_mem_of_source mem
      have sorted := Wat.sortDeclarations_of_perm found noNewline
        (Wat.isDeclaration_of_translations translated) (Word.perm_of_variablesIn listed found)
      rw [Except.map, sorted]
      exact compiled

/-- The variables of a compiled module may be declared in any order, since sorting makes the module
of it again. -/
theorem Compiler.sortDeclarations_of_compile {source text : Text} (h : compile source = .ok text) :
    ∃ names lines,
      let module := fun order : List Word => Text.ofLines
        ([Wat.opening] ++ order.map Wat.declaration ++ lines ++ [Wat.closing])
      Word.variablesIn .standard (Comment.strip (sourceWords source)) = .ok names ∧
        text = module names ∧
        ∀ order, order.Perm names → Wat.sortDeclarations (module order) = module names := by
  obtain ⟨names, ts, found, translated, rfl⟩ := translations_of_compileWords h
  have noNewline := Wat.newline_not_mem_of_translations translated
    fun _ mem => newline_not_mem_of_source mem
  have instructions := Wat.isDeclaration_of_translations translated
  exact ⟨names, ts.flatten, found, rfl,
    fun _ perm => Wat.sortDeclarations_of_perm found noNewline instructions perm⟩

end TinyForth
