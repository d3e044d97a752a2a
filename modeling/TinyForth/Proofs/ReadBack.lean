import TinyForth.Proofs.DeclarationOrder

/-!
# Reading the words back from a module

A module shows its source up to layout, comments, and one abbreviation: the newline word is
written as the two words `10` and `emit` are.  Written out that way, words and instruction
lines are in step (`mapM_wordOfLine?`), and compiling does not tell words from the same words
written out (`compileWords_expand`).  So two sources have the same module exactly if their
words, written out, are the same.

For this the lines have to come apart again.  No word of a source brings a delimiter of the
text format along (`delimiter_not_mem_of_source`), so the newlines and the parentheses of a module
are those of its fixed parts and of its declarations.  The latter are balanced
(`nesting?_module`).
-/

namespace TinyForth

/-! ## Parentheses -/

namespace Text

/-- How many parentheses are open after a text, or `none` if one is closed that is not open. -/
def nesting? : (depth : Nat) → Text → Option Nat
  | depth, [] => some depth
  | depth, '(' :: t => nesting? (depth + 1) t
  | 0, ')' :: _ => none
  | depth + 1, ')' :: t => nesting? depth t
  | depth, _ :: t => nesting? depth t

theorem nesting?_append (depth : Nat) (a b : Text) :
    nesting? depth (a ++ b) = (nesting? depth a).bind fun after => nesting? after b := by
  fun_induction nesting? depth a with
  | case1 => rfl
  | case2 depth t ih => rw [List.cons_append, nesting?, ih]
  | case3 => rfl
  | case4 depth t ih => rw [List.cons_append, nesting?, ih]
  | case5 depth c t _ _ _ ih => rw [List.cons_append, nesting?, ih] <;> assumption

theorem nesting?_of_not_mem (depth : Nat) {t : Text} (opens : '(' ∉ t) (closes : ')' ∉ t) :
    nesting? depth t = some depth := by
  fun_induction nesting? depth t with
  | case1 => rfl
  | case2 => simp at opens
  | case3 => simp at closes
  | case4 => simp at closes
  | case5 depth c t _ _ _ ih =>
      exact ih (List.not_mem_of_not_mem_cons opens) (List.not_mem_of_not_mem_cons closes)

/-- Lines that leave the depth as it is stand between a line that opens and one that closes. -/
theorem nesting?_ofLines {first depth last : Nat} {front back : Text} {ls : List Text}
    (opens : nesting? first front = some depth) (keeps : ∀ l ∈ ls, nesting? depth l = some depth)
    (closes : nesting? depth back = some last) :
    nesting? first (ofLines (front :: (ls ++ [back]))) = some last := by
  have newline : ∀ t, nesting? depth ('\n' :: t) = nesting? depth t := fun _ => rfl
  rw [ofLines_cons front (by simp), nesting?_append, opens, Option.bind_some, newline]
  clear opens
  induction ls with
  | nil => rw [List.nil_append, ofLines, List.intercalate_singleton, closes]
  | cons l ls ih =>
      obtain ⟨here, later⟩ := List.forall_mem_cons.mp keeps
      rw [List.cons_append, ofLines_cons l (by simp), nesting?_append, here, Option.bind_some,
        newline, ih later]

end Text

/-! ## Delimiters -/

namespace Word

theorem delimiter_not_mem_of_isVariable {v : Vocabulary} {x : Word} (h : isVariable v x = true) :
    ∀ c ∈ Wat.delimiters, c ∉ x := by
  have apart : ∀ c ∈ Wat.delimiters,
      c.toNat < 0x80 ∧ Text.asciiAlphanumeric.has c = false := Text.forall_mem_of_all (by decide)
  exact fun c hc => not_mem_of_hasNameShape (isVariable_eq_true_iff.mp h).1
    (Text.isAlphanumeric_eq_false (apart c hc))

/-- The only delimiter that a word of the language can hold is a newline around a numeral. -/
theorem delimiter_not_mem_of_grammatical {w : Word} (h : Grammatical .standard w)
    (noNewline : '\n' ∉ w) : ∀ c ∈ Wat.delimiters, c ∉ w := by
  obtain ⟨ls, translated⟩ := h
  cases translated with
  | numeral numeral =>
      have apart : ∀ c ∈ Wat.delimiters, c = '\n' ∨ Numeral.isNumeralChar c = false :=
        Text.forall_mem_of_all (by decide)
      intro c hc mem
      rcases apart c hc with rfl | other
      · exact noNewline mem
      · rw [Numeral.isNumeral_eq_false_of_mem mem other] at numeral
        cases numeral
  | operation found =>
      rcases Vocabulary.standard_cases found with
        ⟨rfl, _⟩ | ⟨rfl, _⟩ | ⟨rfl, _⟩ | ⟨rfl, _⟩ | ⟨rfl, _⟩ | ⟨rfl, _⟩ <;>
      exact Text.forall_mem_of_all (by decide)
  | fetch var => exact delimiter_not_mem_of_isVariable var
  | store var =>
      have mark : ∀ c ∈ Wat.delimiters, c ∉ ['!'] := Text.forall_mem_of_all (by decide)
      intro c hc
      rw [List.mem_append, not_or]
      exact ⟨delimiter_not_mem_of_isVariable var c hc, mark c hc⟩

end Word

namespace Wat

theorem nesting?_declaration (depth : Nat) {x : Text} (h : ∀ c ∈ delimiters, c ∉ x) :
    Text.nesting? depth (declaration x) = some depth := by
  have inside : Text.nesting? (depth + 1) x = some (depth + 1) :=
    Text.nesting?_of_not_mem _ (h '(' (by decide)) (h ')' (by decide))
  show Text.nesting? (depth + 1) ("local $".toList ++ x ++ " i32)".toList) = some depth
  rw [List.append_assoc, Text.nesting?_append,
    show Text.nesting? (depth + 1) "local $".toList = some (depth + 1) from rfl, Option.bind_some,
    Text.nesting?_append, inside]
  rfl

/-- The parentheses of a module are balanced if its names and lines bring none along. -/
theorem nesting?_module {names lines : List Text} (hnames : ∀ x ∈ names, ∀ c ∈ delimiters, c ∉ x)
    (hlines : ∀ l ∈ lines, ∀ c ∈ delimiters, c ∉ l) :
    Text.nesting? 0 (Text.ofLines ([opening] ++ names.map declaration ++ lines ++ [closing])) =
      some 0 := by
  have opens : Text.nesting? 0 opening = some 2 := by decide
  have closes : Text.nesting? 2 closing = some 0 := by decide
  rw [List.append_assoc [opening], List.append_assoc [opening], List.singleton_append]
  refine Text.nesting?_ofLines opens ?_ closes
  rw [List.forall_mem_append, List.forall_mem_map]
  refine ⟨fun x mem => nesting?_declaration 2 (hnames x mem), fun l mem => ?_⟩
  exact Text.nesting?_of_not_mem 2 (hlines l mem '(' (by decide)) (hlines l mem ')' (by decide))

end Wat

/-! ## Words written out -/

namespace Word

/-- The words that a word is written as: for a newline its code point and `emit`. -/
def expand (w : Word) : List Word := if w = "nl".toList then ["10".toList, "emit".toList] else [w]

theorem expand_of_ne {w : Word} (h : w ≠ "nl".toList) : w.expand = [w] := if_neg h

theorem expand_of_isNumeral {w : Word} (h : Numeral.isNumeral w = true) : w.expand = [w] := by
  refine expand_of_ne ?_
  rintro rfl
  have letter : 'n' ∈ "nl".toList := by decide
  rw [Numeral.isNumeral_eq_false_of_mem letter (by decide)] at h
  cases h

theorem expand_of_isVariable {x : Word} (h : isVariable .standard x = true) : x.expand = [x] :=
  expand_of_ne (Vocabulary.standard_eq_none_iff.mp (isVariable_eq_true_iff.mp h).2).1

theorem expand_mark (x : Word) : expand (x ++ ['!']) = [x ++ ['!']] :=
  expand_of_ne fun same => by simpa using congrArg List.getLast? same

/-- Writing a word out keeps the variables it is about, which are none for a newline. -/
theorem filter_map_name_expand (w : Word) :
    (w.expand.map name).filter (isVariable .standard) =
      ([w].map name).filter (isVariable .standard) := by
  by_cases newline : w = "nl".toList
  · rw [newline]
    decide +kernel
  · rw [expand_of_ne newline]

end Word

namespace Code

/-- The code of words is that of the words written out. -/
theorem generate_expand (ws : List Word) :
    generate .standard (ws.flatMap Word.expand) = generate .standard ws := by
  induction ws with
  | nil => rfl
  | cons w ws ih =>
      rw [List.flatMap_cons]
      by_cases newline : w = "nl".toList
      · have ten : Word.meaning .standard "10".toList = .ok (.push "10".toList) :=
          Word.meaning_of_isNumeral (by decide +kernel)
        have emit : Word.meaning .standard "emit".toList = .ok (.operation ["call $emit".toList]) :=
          Word.meaning_of_operation (by decide +kernel) (by decide +kernel)
        have both : Word.meaning .standard "nl".toList =
            .ok (.operation ["i32.const 10".toList, "call $emit".toList]) :=
          Word.meaning_of_operation (by decide +kernel) (by decide +kernel)
        rw [newline, generate_cons_of_meaning both, ← ih]
        show generate .standard ("10".toList :: "emit".toList :: ws.flatMap Word.expand) = _
        rw [generate_cons_of_meaning ten, generate_cons_of_meaning emit]
        rfl
      · rw [Word.expand_of_ne newline, List.singleton_append]
        cases h : w.meaning .standard with
        | error e => rw [generate_cons_of_error h, generate_cons_of_error h]
        | ok m => rw [generate_cons_of_meaning h, generate_cons_of_meaning h, ih]

end Code

namespace Word

theorem variablesIn_expand {ws names : List Word} (found : variablesIn .standard ws = .ok names) :
    variablesIn .standard (ws.flatMap expand) = .ok names := by
  have named : ∀ w ∈ ws.flatMap expand, w.name ≠ [] := by
    intro w mem
    obtain ⟨u, memU, memW⟩ := List.mem_flatMap.mp mem
    by_cases newline : u = "nl".toList
    · have both : ∀ w ∈ expand "nl".toList, w.name ≠ [] := by decide
      exact both w (newline ▸ memW)
    · rw [expand_of_ne newline, List.mem_singleton] at memW
      rw [memW]
      exact name_ne_nil_of_variablesIn found u memU
  have same : ((ws.flatMap expand).map name).filter (isVariable .standard) =
      (ws.map name).filter (isVariable .standard) := by
    clear found named
    induction ws with
    | nil => rfl
    | cons w ws ih =>
        rw [List.flatMap_cons, List.map_append, List.filter_append, filter_map_name_expand, ih,
          ← List.filter_append, ← List.map_append, List.singleton_append]
  rw [variablesIn_of_names named, same, eq_list_of_variablesIn found]

end Word

namespace Wat

/-! ## The word of a line -/

/-- The word that an instruction line is written for. -/
def wordOfLine? (l : Text) : Option Word :=
  if l = line "i32.add".toList then some "+".toList
  else if l = line "i32.mul".toList then some "*".toList
  else if l = line "call $emit".toList then some "emit".toList
  else if l = line "call $input".toList then some "input".toList
  else if l = line "call $print".toList then some ".".toList
  else if let some w := (line "i32.const ".toList).isPrefixOf? l then some w
  else if let some x := (line "local.get $".toList).isPrefixOf? l then some x
  else if let some x := (line "local.set $".toList).isPrefixOf? l then some (x ++ ['!'])
  else none

theorem mapM_wordOfLine?_of_translates {w : Word} {ls : List Text}
    (h : Word.Translates .standard w ls) : ls.mapM wordOfLine? = some w.expand := by
  cases h with
  | numeral numeral =>
      rw [Word.expand_of_isNumeral numeral]
      rfl
  | operation found =>
      rcases Vocabulary.standard_cases found with
        ⟨rfl, rfl⟩ | ⟨rfl, rfl⟩ | ⟨rfl, rfl⟩ | ⟨rfl, rfl⟩ | ⟨rfl, rfl⟩ | ⟨rfl, rfl⟩ <;> rfl
  | fetch var =>
      rw [Word.expand_of_isVariable var]
      rfl
  | @store x _ =>
      rw [Word.expand_mark x]
      rfl

/-- The words of the instruction lines are the words of the program, written out. -/
theorem mapM_wordOfLine? {ws : List Word} {ts : List (List Text)}
    (h : List.Forall₂ (Word.Translates .standard) ws ts) :
    ts.flatten.mapM wordOfLine? = some (ws.flatMap Word.expand) := by
  induction h with
  | nil => rfl
  | cons hw _ ih =>
      rw [List.flatten_cons, List.mapM_append, mapM_wordOfLine?_of_translates hw, ih,
        List.flatMap_cons]
      rfl

/-! ## Modules with their declarations sorted -/

/-- The pieces of a module with its declarations sorted. -/
theorem pieces_sortDeclarations {names lines : List Text} (hnames : ∀ x ∈ names, '\n' ∉ x)
    (hlines : ∀ l ∈ lines, '\n' ∉ l) (instructions : ∀ l ∈ lines, isDeclaration l = false) :
    ∃ ds, ds.Perm (names.map declaration) ∧ Text.pieces (sortDeclarations
        (Text.ofLines ([opening] ++ names.map declaration ++ lines ++ [closing]))) =
      Text.pieces opening ++ (ds ++ (lines ++ Text.pieces closing)) := by
  have perm := List.mergeSort_perm (names.map declaration) inOrder
  have sorted : ∀ l ∈ (names.map declaration).mergeSort inOrder, '\n' ∉ l := by
    intro l mem
    obtain ⟨x, memX, rfl⟩ := List.mem_map.mp (perm.mem_iff.mp mem)
    exact newline_not_mem_declaration (hnames x memX)
  refine ⟨_, perm, ?_⟩
  rw [sortDeclarations_module hnames hlines instructions, Text.pieces_ofLines (by simp)]
  simp only [List.flatMap_append, List.flatMap_singleton, Text.flatMap_pieces hlines,
    Text.flatMap_pieces sorted, List.append_assoc]

end Wat

namespace Compiler

theorem compileWords_expand {ws : List Word} {text : Text}
    (compiled : compileWords .standard ws = .ok text) :
    compileWords .standard (ws.flatMap Word.expand) = .ok text := by
  obtain ⟨names, _, found, _, _⟩ := translations_of_compileWords compiled
  rw [← compiled, compileWords, compileWords, Word.variablesIn_expand found, found,
    Code.generate_expand]

theorem delimiter_not_mem_of_source {source text : Text} (compiled : compile source = .ok text) :
    ∀ w ∈ Comment.strip (sourceWords source), ∀ c ∈ Wat.delimiters, c ∉ w := by
  intro w mem
  exact Word.delimiter_not_mem_of_grammatical (exists_compileWords_iff.mp ⟨text, compiled⟩ w mem)
    (newline_not_mem_of_source mem)

/-- Modules of sources are the same, up to the order of declarations, only if the words of the
sources are the same when written out. -/
theorem expand_eq_of_sortDeclarations_eq {s₁ s₂ t₁ t₂ : Text} (h₁ : compile s₁ = .ok t₁)
    (h₂ : compile s₂ = .ok t₂) (same : Wat.sortDeclarations t₁ = Wat.sortDeclarations t₂) :
    (Comment.strip (sourceWords s₁)).flatMap Word.expand =
      (Comment.strip (sourceWords s₂)).flatMap Word.expand := by
  have lines : ∀ {source text}, compile source = .ok text → ∃ ls,
      ls.mapM Wat.wordOfLine? = some ((Comment.strip (sourceWords source)).flatMap Word.expand) ∧
      ((Text.pieces (Wat.sortDeclarations text)).drop (Text.pieces Wat.opening).length).dropWhile
        Wat.isDeclaration = ls ++ Text.pieces Wat.closing := by
    intro source text compiled
    obtain ⟨names, ts, found, translated, rfl⟩ := translations_of_compileWords compiled
    have instructions := Wat.isDeclaration_of_translations translated
    obtain ⟨ds, perm, pieces⟩ := Wat.pieces_sortDeclarations
      (Word.newline_not_mem_of_variablesIn found)
      (Wat.newline_not_mem_of_translations translated fun _ mem => newline_not_mem_of_source mem)
      instructions
    refine ⟨ts.flatten, Wat.mapM_wordOfLine? translated, ?_⟩
    rw [pieces, List.drop_left]
    refine Wat.dropWhile_isDeclaration ?_ ?_
    · exact fun l mem => Wat.isDeclaration_of_mem_map names l (perm.mem_iff.mp mem)
    · exact List.forall_mem_append.mpr ⟨instructions, by decide⟩
  obtain ⟨ls₁, words₁, lines₁⟩ := lines h₁
  obtain ⟨ls₂, words₂, lines₂⟩ := lines h₂
  rw [same, lines₂] at lines₁
  rw [List.append_cancel_right lines₁, words₁] at words₂
  exact Option.some.inj words₂

/-- Modules of sources are the same if the words of the sources are the same when written
out. -/
theorem eq_of_expand_eq {s₁ s₂ t₁ t₂ : Text} (h₁ : compile s₁ = .ok t₁) (h₂ : compile s₂ = .ok t₂)
    (same : (Comment.strip (sourceWords s₁)).flatMap Word.expand =
      (Comment.strip (sourceWords s₂)).flatMap Word.expand) : t₁ = t₂ := by
  have expanded := compileWords_expand h₁
  rw [same, compileWords_expand h₂] at expanded
  exact (Except.ok.inj expanded).symm

/-- A module text can be read back.  Its pieces are the fixed opening, the declarations, a line
for each instruction, and the fixed closing.  No word brings a delimiter along, the parentheses
are balanced, and the lines tell the words, each newline word written out.  So modules are the
same, as they are or with their declarations sorted, exactly if the words are, written out. -/
theorem module_text_reads_back :
    (∀ source text, compile source = .ok text →
      let ws := Comment.strip (sourceWords source)
      ∃ names ts, Word.variablesIn .standard ws = .ok names ∧
        List.Forall₂ (Word.Translates .standard) ws ts ∧
        Text.pieces text = Text.pieces Wat.opening ++ names.map Wat.declaration ++ ts.flatten ++
          Text.pieces Wat.closing ∧
        ts.flatten.mapM Wat.wordOfLine? = some (ws.flatMap Word.expand) ∧
        (∀ l ∈ ts.flatten, ∀ c ∈ Wat.delimiters, c ∉ l) ∧
        (∀ x ∈ names, ∀ c ∈ Wat.delimiters, c ∉ x) ∧
        Text.nesting? 0 text = some 0) ∧
    (∀ s₁ s₂ t₁ t₂, compile s₁ = .ok t₁ → compile s₂ = .ok t₂ →
      let written := fun s => (Comment.strip (sourceWords s)).flatMap Word.expand
      (Wat.sortDeclarations t₁ = Wat.sortDeclarations t₂ ↔ written s₁ = written s₂) ∧
        (t₁ = t₂ ↔ written s₁ = written s₂)) := by
  refine ⟨?_, ?_⟩
  · intro source text compiled ws
    have clean := delimiter_not_mem_of_source compiled
    obtain ⟨names, ts, found, translated, rfl⟩ := translations_of_compileWords compiled
    have cleanNames : ∀ x ∈ names, ∀ c ∈ Wat.delimiters, c ∉ x := fun x mem =>
      Word.delimiter_not_mem_of_isVariable ((Word.mem_of_variablesIn found).mp mem).1
    have cleanLines : ∀ l ∈ ts.flatten, ∀ c ∈ Wat.delimiters, c ∉ l := fun l mem c hc =>
      Wat.delimiter_not_mem_of_translations hc translated (fun w memW => clean w memW c hc) l mem
    have pieces := Wat.pieces_module (Word.newline_not_mem_of_variablesIn found)
      (fun l mem => cleanLines l mem '\n' (by decide))
    exact ⟨names, ts, found, translated, pieces, Wat.mapM_wordOfLine? translated, cleanLines,
      cleanNames, Wat.nesting?_module cleanNames cleanLines⟩
  · intro s₁ s₂ t₁ t₂ h₁ h₂ written
    have sorted := expand_eq_of_sortDeclarations_eq h₁ h₂
    have equal := eq_of_expand_eq h₁ h₂
    exact ⟨⟨sorted, fun same => congrArg Wat.sortDeclarations (equal same)⟩,
      ⟨fun same => sorted (congrArg Wat.sortDeclarations same), equal⟩⟩

/-- The sources `x nl` and `( a line ) x 10 emit` have the same module, and `x 10 emit nl` has
another one. -/
theorem module_text_of_newline :
    ∃ t₁ t₂ t₃, compile "x nl".toList = .ok t₁ ∧ compile "( a line ) x 10 emit".toList = .ok t₂ ∧
      compile "x 10 emit nl".toList = .ok t₃ ∧ Text.nesting? 0 t₁ = some 0 ∧ t₁ = t₂ ∧ t₁ ≠ t₃ := by
  obtain ⟨t₁, h₁⟩ : ∃ text, compile "x nl".toList = .ok text :=
    exists_compileWords_iff.mpr (by decide +kernel)
  obtain ⟨t₂, h₂⟩ : ∃ text, compile "( a line ) x 10 emit".toList = .ok text :=
    exists_compileWords_iff.mpr (by decide +kernel)
  obtain ⟨t₃, h₃⟩ : ∃ text, compile "x 10 emit nl".toList = .ok text :=
    exists_compileWords_iff.mpr (by decide +kernel)
  obtain ⟨_, _, _, _, _, _, _, _, balanced⟩ := module_text_reads_back.1 _ t₁ h₁
  refine ⟨t₁, t₂, t₃, h₁, h₂, h₃, balanced, ?_, ?_⟩
  · exact (module_text_reads_back.2 _ _ t₁ t₂ h₁ h₂).2.mpr (by decide +kernel)
  · intro same
    exact absurd ((module_text_reads_back.2 _ _ t₁ t₃ h₁ h₃).2.mp same) (by decide +kernel)

end Compiler

end TinyForth
