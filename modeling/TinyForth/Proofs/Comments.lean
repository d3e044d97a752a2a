import TinyForth.Proofs.FileEffect

/-!
# Comments have no effect

Stripping comments goes through the words once and carries along whether it is inside a
comment.  What it does with the words after a point depends on the words before it through
that alone (`stripFrom_append`).  So a whole comment that stands outside of comments leaves no
trace, and neither does a comment that is opened there and never closed.

A run of the compiler sees the words outside comments only.  Sources that agree on these words
have the same outcome, down to the error and to every file besides the source.
-/

namespace TinyForth

namespace Comment

/-! ## Ending inside a comment -/

/-- The words end inside a comment. -/
inductive EndsInside : List Text → Prop where
  /-- A comment is opened and not closed. -/
  | opened {inside : List Text} : closing ∉ inside → EndsInside (opening :: inside)
  /-- The words after a word outside comments end inside a comment. -/
  | word {w : Text} {ws : List Text} : w ≠ opening → EndsInside ws → EndsInside (w :: ws)
  /-- The words after a whole comment end inside a comment. -/
  | comment {inside ws : List Text} : closing ∉ inside → EndsInside ws →
      EndsInside (opening :: (inside ++ closing :: ws))

/-- Whether some words end inside a comment, when they start inside one or outside. -/
def insideAfter : (inside : Bool) → List Text → Bool
  | inside, [] => inside
  | true, w :: ws => insideAfter (w != closing) ws
  | false, w :: ws => insideAfter (w == opening) ws

theorem insideAfter_comment {inside : List Text} (h : closing ∉ inside) (ws : List Text) :
    insideAfter true (inside ++ ws) = insideAfter true ws := by
  induction inside with
  | nil => rfl
  | cons w inside ih =>
      obtain ⟨hw, later⟩ := List.ne_and_not_mem_of_not_mem_cons h
      rw [List.cons_append, insideAfter, bne_iff_ne.mpr hw.symm, ih later]

theorem insideAfter_of_endsInside {ws : List Text} (h : EndsInside ws) :
    insideAfter false ws = true := by
  induction h with
  | @opened inside unclosed =>
      rw [insideAfter, beq_self_eq_true, ← List.append_nil inside, insideAfter_comment unclosed]
      rfl
  | word other _ ih => rw [insideAfter, beq_eq_false_iff_ne.mpr other, ih]
  | comment unclosed _ ih =>
      rw [insideAfter, beq_self_eq_true, insideAfter_comment unclosed, insideAfter,
        bne_self_eq_false, ih]

/-- The words read so far of a comment that is still open are put in front of the rest. -/
theorem endsInside_of_insideAfter (ws : List Text) :
    (insideAfter false ws = true → EndsInside ws) ∧
      (insideAfter true ws = true → ∀ inside, closing ∉ inside →
        EndsInside (opening :: (inside ++ ws))) := by
  induction ws with
  | nil =>
      refine ⟨fun h => absurd h (by simp [insideAfter]), fun _ inside unclosed => ?_⟩
      rw [List.append_nil]
      exact .opened unclosed
  | cons w ws ih =>
      obtain ⟨outside, within⟩ := ih
      constructor
      · intro h
        by_cases other : w = opening
        · rw [other, insideAfter, beq_self_eq_true] at h
          rw [other]
          exact within h [] List.not_mem_nil
        · rw [insideAfter, beq_eq_false_iff_ne.mpr other] at h
          exact .word other (outside h)
      · -- The word closes the comment, or is one more word of it.
        intro h inside unclosed
        by_cases last : w = closing
        · rw [last, insideAfter, bne_self_eq_false] at h
          rw [last]
          exact .comment unclosed (outside h)
        · rw [insideAfter, bne_iff_ne.mpr last] at h
          have longer : closing ∉ inside ++ [w] := by simp [unclosed, Ne.symm last]
          simpa using within h (inside ++ [w]) longer

theorem endsInside_iff {ws : List Text} : EndsInside ws ↔ insideAfter false ws = true :=
  ⟨insideAfter_of_endsInside, (endsInside_of_insideAfter ws).1⟩

theorem not_endsInside_of_not_mem {ws : List Text} (h : opening ∉ ws) : ¬ EndsInside ws := by
  intro ends
  induction ends with
  | opened _ => exact h (List.mem_cons_self ..)
  | word _ _ ih => exact ih (List.not_mem_of_not_mem_cons h)
  | comment _ _ _ => exact h (List.mem_cons_self ..)

instance (ws : List Text) : Decidable (EndsInside ws) := decidable_of_iff' _ endsInside_iff

/-! ## Stripping -/

/-- What is stripped from the words after a point depends on the words before it only through
whether these end inside a comment. -/
theorem stripFrom_append (inside : Bool) (a b : List Text) :
    stripFrom inside (a ++ b) = stripFrom inside a ++ stripFrom (insideAfter inside a) b := by
  induction a generalizing inside with
  | nil => cases inside <;> rfl
  | cons w a ih =>
      cases inside with
      | true => rw [List.cons_append, stripFrom, ih, stripFrom, insideAfter]
      | false =>
          by_cases comment : w = opening
          · simp [stripFrom, insideAfter, comment, ih]
          · simp [stripFrom, insideAfter, comment, beq_eq_false_iff_ne.mpr comment, ih]

theorem stripFrom_comment {inside : List Text} (h : closing ∉ inside) :
    stripFrom true inside = [] := by
  induction inside with
  | nil => rfl
  | cons w inside ih =>
      obtain ⟨hw, later⟩ := List.ne_and_not_mem_of_not_mem_cons h
      rw [stripFrom, bne_iff_ne.mpr hw.symm, ih later]

theorem strip_append {a : List Text} (outside : ¬ EndsInside a) (b : List Text) :
    strip (a ++ b) = strip a ++ strip b := by
  have closed : insideAfter false a = false :=
    Bool.eq_false_iff.mpr fun h => outside (endsInside_iff.mpr h)
  rw [strip, stripFrom_append, closed, strip, strip]

theorem strip_of_not_mem {ws : List Text} (h : opening ∉ ws) : strip ws = ws := by
  induction ws with
  | nil => rfl
  | cons w ws ih =>
      obtain ⟨first, later⟩ := List.ne_and_not_mem_of_not_mem_cons h
      have rest : stripFrom false ws = ws := ih later
      rw [strip, stripFrom, if_neg first.symm, rest]

/-- A comment that is never closed. -/
theorem strip_opened {inside : List Text} (h : closing ∉ inside) :
    strip (opening :: inside) = [] := by
  rw [strip, stripFrom, if_pos rfl, stripFrom_comment h]

/-- A whole comment. -/
theorem strip_comment {inside : List Text} (h : closing ∉ inside) (b : List Text) :
    strip (opening :: (inside ++ closing :: b)) = strip b := by
  have closes : insideAfter true inside = true := by
    rw [← List.append_nil inside, insideAfter_comment h]
    rfl
  rw [strip, stripFrom, if_pos rfl, stripFrom_append, stripFrom_comment h, closes, stripFrom,
    bne_self_eq_false, List.nil_append, strip]

end Comment

namespace FileTree

/-! ## Trees that differ at one location -/

/-- The two trees hold the same, except that each may hold bytes of its own at one location. -/
structure DifferAt (own : Location) (bytes bytes' : List UInt8) (tree tree' : FileTree) : Prop where
  same_or_own (other : Location) : tree[other]? = tree'[other]? ∨
    other = own ∧ tree[own]? = some (.file bytes) ∧ tree'[own]? = some (.file bytes')

theorem differAt_put (tree : FileTree) (own : Location) (bytes bytes' : List UInt8) :
    DifferAt own bytes bytes' (tree.put own bytes) (tree.put own bytes') := by
  refine ⟨fun other => ?_⟩
  simp only [getElem?_put]
  by_cases source : other = own
  · exact .inr ⟨source, if_pos trivial, if_pos trivial⟩
  · exact .inl (by rw [if_neg source, if_neg source])

/-- Writing the same to both trees makes them no more different. -/
theorem DifferAt.put {own : Location} {bytes bytes' : List UInt8} {tree tree' : FileTree}
    (h : DifferAt own bytes bytes' tree tree') (here : Location) (content : List UInt8) :
    DifferAt own bytes bytes' (tree.put here content) (tree'.put here content) := by
  refine ⟨fun other => ?_⟩
  simp only [getElem?_put]
  by_cases written : other = here
  · exact .inl (by rw [if_pos written, if_pos written])
  rcases h.same_or_own other with same | ⟨source, left, right⟩
  · exact .inl (by rw [if_neg written, if_neg written, same])
  · rw [source] at written
    exact .inr ⟨source, by rw [if_neg written, left], by rw [if_neg written, right]⟩

end FileTree

namespace Command

/-! ## Sources with the same words outside comments -/

/-- Compiling two sources has the same outcome, with every toolchain.  The sources stand, the one or
the other, in the file that a name leads to. -/
structure SameOutcome (source source' : Text) : Prop where
  /-- The same module, or the same error. -/
  module (listing : Word.Listing) :
    Compiler.compile source listing = Compiler.compile source' listing
  /-- The command ends the same way. -/
  ending {tree : FileTree} {name : Text} {own : Location} (command : Text) (tools : Toolchain) :
    tree.target name = .ok own →
      (compile (tree.put own (Utf8.encode source)) [command, name] tools).ending =
        (compile (tree.put own (Utf8.encode source')) [command, name] tools).ending
  /-- The command leaves the same files, unless it leaves the two sources as they were. -/
  files {tree : FileTree} {name : Text} {own : Location} (command : Text) (tools : Toolchain)
    (other : Location) :
    tree.target name = .ok own →
      let run := compile (tree.put own (Utf8.encode source)) [command, name] tools
      let run' := compile (tree.put own (Utf8.encode source')) [command, name] tools
      run.tree[other]? = run'.tree[other]? ∨
        other = own ∧ run.tree[own]? = some (.file (Utf8.encode source)) ∧
          run'.tree[own]? = some (.file (Utf8.encode source'))

/-- What the compiler makes of the source decides the run, whatever the text of the source. -/
theorem compile_put_congr {source source' : Text} {tools : Toolchain}
    (same : Compiler.compile source tools.listing = Compiler.compile source' tools.listing)
    {tree : FileTree} {name : Text} {own : Location} (h : tree.target name = .ok own)
    (command : Text) :
    let run := compile (tree.put own (Utf8.encode source)) [command, name] tools
    let run' := compile (tree.put own (Utf8.encode source')) [command, name] tools
    run.ending = run'.ending ∧
      FileTree.DifferAt own (Utf8.encode source) (Utf8.encode source') run.tree run'.tree := by
  intro run run'
  have free := (FileTree.target_eq_ok_iff.mp h).2
  have left : run = _ := compile_of_decode (FileTree.read_put h _) (Utf8.decode_encode source)
  have right : run' = _ := compile_of_decode (FileTree.read_put h _) (Utf8.decode_encode source')
  have before := FileTree.differAt_put tree own (Utf8.encode source) (Utf8.encode source')
  rw [left, right, same]
  cases Compiler.compile source' tools.listing with
  | error e => exact ⟨rfl, before⟩
  | ok module =>
      -- The outputs can be opened, or cannot, in both trees alike.
      simp only [writeOutputs_eq, FileTree.target_put_congr free (Utf8.encode source)
        (Utf8.encode source')]
      cases (tree.put own (Utf8.encode source')).target (FileName.root name ++ watExtension) with
      | error e => exact ⟨rfl, before⟩
      | ok here =>
          cases (tree.put own (Utf8.encode source')).target
            (FileName.root name ++ wasmExtension) with
          | error e => exact ⟨rfl, before.put here _⟩
          | ok there => exact ⟨rfl, (before.put here _).put there _⟩

theorem sameOutcome_of_strip_eq {source source' : Text}
    (h : Comment.strip (Compiler.sourceWords source) =
      Comment.strip (Compiler.sourceWords source')) : SameOutcome source source' := by
  have same : ∀ listing, Compiler.compile source listing = Compiler.compile source' listing := by
    intro listing
    rw [Compiler.compile, h, Compiler.compile]
  exact {
    module := same
    ending := fun command tools found => (compile_put_congr (same tools.listing) found command).1
    files := fun command tools other found =>
      (compile_put_congr (same tools.listing) found command).2.same_or_own other }

/-- A comment has no effect on compiling, whatever it holds, if it is opened outside comments.
That goes for a whole comment, and for one that is never closed and so reaches to the end.  It does
not matter in which order variables are declared or what the binary format is. -/
theorem comments_are_transparent (a c : List Word) (outside : ¬ Comment.EndsInside a)
    (unclosed : Comment.closing ∉ c) :
    (∀ b source source',
      Compiler.sourceWords source = a ++ [Comment.opening] ++ c ++ [Comment.closing] ++ b →
      Compiler.sourceWords source' = a ++ b → SameOutcome source source') ∧
    (∀ source source', Compiler.sourceWords source = a ++ [Comment.opening] ++ c →
      Compiler.sourceWords source' = a → SameOutcome source source') := by
  constructor
  · intro b source source' words words'
    refine sameOutcome_of_strip_eq ?_
    have comment : [Comment.opening] ++ (c ++ ([Comment.closing] ++ b)) =
        Comment.opening :: (c ++ Comment.closing :: b) := rfl
    rw [words, words', List.append_assoc, List.append_assoc, List.append_assoc, comment,
      Comment.strip_append outside, Comment.strip_append outside, Comment.strip_comment unclosed]
  · intro source source' words words'
    refine sameOutcome_of_strip_eq ?_
    rw [words, words', List.append_assoc, List.singleton_append, Comment.strip_append outside,
      Comment.strip_opened unclosed, List.append_nil]

/-- A comment that holds a mark alone and an opening, after words with a whole comment among
them, and the same comment without its end. -/
theorem comments_of_small_sources :
    let a := ["7".toList, "(".toList, "x".toList, ")".toList]
    let c := ["!".toList, "(".toList]
    ¬ Comment.EndsInside a ∧ Comment.closing ∉ c ∧
      SameOutcome "7 ( x ) ( ! ( ) .".toList "7 ( x ) .".toList ∧
      SameOutcome "7 ( x ) ( ! (".toList "7 ( x )".toList := by
  intro a c
  have outside : ¬ Comment.EndsInside a := by decide
  have unclosed : Comment.closing ∉ c := by decide
  obtain ⟨whole, opened⟩ := comments_are_transparent a c outside unclosed
  exact ⟨outside, unclosed, whole [".".toList] _ _ (by decide) (by decide),
    opened _ _ (by decide) (by decide)⟩

end Command

end TinyForth
