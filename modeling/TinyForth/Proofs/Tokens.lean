import TinyForth.Proofs.Literal
import TinyForth.Proofs.ReadBack

/-!
# The tokens of a module

A module text is valid in its lexical part if every token that starts like an identifier is
one, and every operand of a constant is a literal.  Which modules are is decided by the words of
the source.  The names of a source may have letters of any script and its numerals may have
digits of any script and be of any size, and the compiler writes them down as they stand.

Tokens are bounded by blanks and parentheses, so the tokens of a module are those of its lines
(`tokens_ofLines`).  No word of a source has such a bound in it, so it stands in the module as one
token, or behind a dollar sign.  Each word then answers for its own tokens
(`identifiersIn_of_translates`, `operandsOf_of_translates`).
-/

namespace TinyForth

theorem Numeral.ne_nil_of_isNumeral {w : Word} (h : isNumeral w = true) : w ≠ [] := by
  rintro rfl
  exact absurd h (by decide)

namespace Wat

/-- The character bounds a token: it is a blank of the layout or a parenthesis. -/
def endsToken (c : Char) : Bool := " \n()".toList.contains c

/-- The tokens of a module text. -/
def tokens (t : Text) : List Text := (t.splitOnP endsToken).filter (!·.isEmpty)

/-- The tokens right behind the ones that push a constant. -/
def operandsOf : List Text → List Text
  | [] => []
  | tok :: toks =>
      if tok = "i32.const".toList then toks.head?.toList ++ operandsOf toks else operandsOf toks

/-- The tokens that start like an identifier are identifiers. -/
def IdentifiersIn (toks : List Text) : Prop :=
  ∀ tok ∈ toks, tok.head? = some '$' → isIdentifier tok = true

instance (toks : List Text) : Decidable (IdentifiersIn toks) :=
  inferInstanceAs (Decidable (∀ tok ∈ toks, tok.head? = some '$' → isIdentifier tok = true))

/-! ## Splitting into tokens -/

theorem tokens_append_cons (a b : Text) {c : Char} (h : endsToken c = true) :
    tokens (a ++ c :: b) = tokens a ++ tokens b := by
  rw [tokens, List.splitOnP_append_cons a b h, List.filter_append]
  rfl

theorem tokens_of_forall {t : Text} (nonempty : t ≠ []) (h : ∀ c ∈ t, endsToken c = false) :
    tokens t = [t] := by
  rw [tokens, List.splitOnP_eq_singleton h]
  simpa using nonempty

theorem tokens_ofLines (ls : List Text) : tokens (Text.ofLines ls) = ls.flatMap tokens := by
  induction ls with
  | nil => rfl
  | cons l ls ih =>
      cases ls with
      | nil => rw [Text.ofLines, List.intercalate_singleton, List.flatMap_singleton]
      | cons l' ls =>
          rw [Text.ofLines_cons l (by simp), tokens_append_cons _ _ rfl, ih]
          rfl

theorem tokens_line (t : Text) : tokens (line t) = tokens t := by
  have blank : ∀ t : Text, tokens (' ' :: t) = tokens t := fun t => tokens_append_cons [] t rfl
  rw [show line t = ' ' :: ' ' :: ' ' :: ' ' :: t by simp [line], blank, blank, blank, blank]

/-- A line that is a keyword and one operand. -/
theorem tokens_operand {keyword t : Text} (head : tokens keyword = [keyword])
    (nonempty : t ≠ []) (whole : ∀ c ∈ t, endsToken c = false) :
    tokens (line (keyword ++ ' ' :: t)) = [keyword, t] := by
  rw [tokens_line, tokens_append_cons _ _ rfl, head, tokens_of_forall nonempty whole,
    List.singleton_append]

theorem tokens_const {w : Text} (nonempty : w ≠ []) (whole : ∀ c ∈ w, endsToken c = false) :
    tokens ("    i32.const ".toList ++ w) = ["i32.const".toList, w] := by
  rw [show "    i32.const ".toList ++ w = line ("i32.const".toList ++ ' ' :: w) by simp [line]]
  exact tokens_operand (tokens_of_forall (by simp) (Text.forall_mem_of_all (by decide))) nonempty
    whole

theorem endsToken_eq_false_of_dollar {x : Text} (whole : ∀ c ∈ x, endsToken c = false) :
    ∀ c ∈ '$' :: x, endsToken c = false :=
  List.forall_mem_cons.mpr ⟨rfl, whole⟩

/-- A line that is a keyword and the name of a local. -/
theorem tokens_local (front keyword : Text) {x : Text} (head : tokens keyword = [keyword])
    (split : front = line (keyword ++ " $".toList)) (whole : ∀ c ∈ x, endsToken c = false) :
    tokens (front ++ x) = [keyword, '$' :: x] := by
  have text : front ++ x = line (keyword ++ ' ' :: '$' :: x) := by simp [split, line]
  rw [text, tokens_operand head (by simp) (endsToken_eq_false_of_dollar whole)]

theorem tokens_declaration {x : Text} (whole : ∀ c ∈ x, endsToken c = false) :
    tokens (declaration x) = ["local".toList, '$' :: x, "i32".toList] := by
  have front : tokens "(local".toList = ["local".toList] := by decide
  have back : tokens "i32)".toList = ["i32".toList] := by decide
  have name := tokens_of_forall (List.cons_ne_nil '$' x) (endsToken_eq_false_of_dollar whole)
  rw [show declaration x = line ("(local".toList ++ ' ' :: ('$' :: x ++ ' ' :: "i32)".toList)) by
      simp [declaration],
    tokens_line, tokens_append_cons _ _ rfl, tokens_append_cons _ _ rfl, front, name, back]
  rfl

/-! ## Operands and identifiers -/

theorem operandsOf_append {a : List Text} (h : a.getLast? ≠ some "i32.const".toList)
    (b : List Text) : operandsOf (a ++ b) = operandsOf a ++ operandsOf b := by
  induction a with
  | nil => rfl
  | cons tok toks ih =>
      cases toks with
      | nil =>
          have other : tok ≠ "i32.const".toList := by simpa using h
          rw [List.singleton_append, operandsOf, operandsOf, if_neg other, if_neg other]
          rfl
      | cons tok' toks =>
          have rest := ih (by simpa using h)
          rw [List.cons_append, operandsOf.eq_2, operandsOf.eq_2 tok, rest]
          split
          · rw [List.append_assoc]
            rfl
          · rfl

theorem identifiersIn_append {a b : List Text} :
    IdentifiersIn (a ++ b) ↔ IdentifiersIn a ∧ IdentifiersIn b :=
  List.forall_mem_append

theorem isIdentifierChar_of_isAlphanumeric {c : Char} (h : Text.isAlphanumeric c = true)
    (ascii : c.toNat < 0x80) : isIdentifierChar c = true := by
  have inTable := Text.has_asciiAlphanumeric h ascii
  have bounds : ∀ r ∈ Text.asciiAlphanumeric, 0x21 ≤ r.1 ∧ r.2 ≤ 0x7E := by decide
  have excluded : ∀ d ∈ "\"(),;[]\x7b\x7d".toList, Text.asciiAlphanumeric.has d = false :=
    Text.forall_mem_of_all (by decide)
  obtain ⟨r, mem, low, high⟩ := CodeRanges.has_iff.mp inTable
  have ⟨_, _⟩ := bounds r mem
  have other : c ∉ "\"(),;[]\x7b\x7d".toList := by
    intro mem
    rw [excluded c mem] at inTable
    cases inTable
  rw [isIdentifierChar, Bool.and_eq_true, Bool.and_eq_true, decide_eq_true_eq, decide_eq_true_eq,
    Bool.not_eq_true', Bool.eq_false_iff, Ne, List.contains_iff_mem]
  exact ⟨⟨by omega, by omega⟩, other⟩

/-- A variable makes an identifier exactly if it is of ASCII. -/
theorem isIdentifier_iff {v : Vocabulary} {x : Word} (h : Word.isVariable v x = true) :
    isIdentifier ('$' :: x) = true ↔ ∀ c ∈ x, c.toNat < 0x80 := by
  obtain ⟨shape, _⟩ := Word.isVariable_eq_true_iff.mp h
  have nonempty : x ≠ [] := by
    rintro rfl
    cases shape
  simp only [isIdentifier, Bool.and_eq_true, List.all_eq_true]
  constructor
  · rintro ⟨_, all⟩ c mem
    have char := all c mem
    simp only [isIdentifierChar, Bool.and_eq_true, decide_eq_true_eq] at char
    omega
  · intro ascii
    refine ⟨by simpa using nonempty, fun c mem => ?_⟩
    exact isIdentifierChar_of_isAlphanumeric (Word.isAlphanumeric_of_hasNameShape shape c mem)
      (ascii c mem)

/-- The tokens of a word that start like identifiers are, unless the word is about a variable
that is not of ASCII. -/
theorem identifiersIn_of_translates {w : Word} {ls : List Text}
    (h : Word.Translates .standard w ls) (whole : ∀ c ∈ w, endsToken c = false) :
    IdentifiersIn (ls.flatMap tokens) ↔ Numeral.isNumeral w = true ∨ ∀ c ∈ w, c.toNat < 0x80 := by
  cases h with
  | numeral numeral =>
      have noDollar : w.head? ≠ some '$' := by
        intro dollar
        rw [Numeral.isNumeral_eq_false_of_mem (List.mem_of_head? dollar) (by decide)] at numeral
        cases numeral
      rw [List.flatMap_singleton, tokens_const (Numeral.ne_nil_of_isNumeral numeral) whole]
      simp [IdentifiersIn, numeral, noDollar]
  | operation found =>
      rcases Vocabulary.standard_cases found with
        ⟨rfl, rfl⟩ | ⟨rfl, rfl⟩ | ⟨rfl, rfl⟩ | ⟨rfl, rfl⟩ | ⟨rfl, rfl⟩ | ⟨rfl, rfl⟩ <;>
      exact iff_of_true (by decide) (Or.inr (Text.forall_mem_of_all (by decide)))
  | fetch var =>
      have shape := (Word.isVariable_eq_true_iff.mp var).1
      rw [List.flatMap_singleton,
        tokens_local "    local.get $".toList "local.get".toList (by decide) rfl whole,
        ← isIdentifier_iff var]
      simp [IdentifiersIn, Word.isNumeral_eq_false_of_hasNameShape shape]
  | @store x var =>
      have wholeName : ∀ c ∈ x, endsToken c = false := fun c mem => whole c (by simp [mem])
      rw [List.flatMap_singleton,
        tokens_local "    local.set $".toList "local.set".toList (by decide) rfl wholeName,
        List.forall_mem_append, ← isIdentifier_iff var, Word.isNumeral_mark]
      simp [IdentifiersIn]

/-- The operands in the tokens of a word are its numerals, written out, and none comes from
behind. -/
theorem operandsOf_of_translates {w : Word} {ls : List Text} (h : Word.Translates .standard w ls)
    (whole : ∀ c ∈ w, endsToken c = false) :
    operandsOf (ls.flatMap tokens) = w.expand.filter Numeral.isNumeral ∧
      (ls.flatMap tokens).getLast? ≠ some "i32.const".toList := by
  cases h with
  | numeral numeral =>
      have other : w ≠ "i32.const".toList := by
        rintro rfl
        have letter : 'i' ∈ "i32.const".toList := by decide
        rw [Numeral.isNumeral_eq_false_of_mem letter (by decide)] at numeral
        cases numeral
      rw [List.flatMap_singleton, tokens_const (Numeral.ne_nil_of_isNumeral numeral) whole,
        Word.expand_of_isNumeral numeral, List.filter_singleton, numeral]
      refine ⟨?_, by simpa using other⟩
      rw [operandsOf, if_pos rfl, operandsOf, if_neg other]
      rfl
  | operation found =>
      rcases Vocabulary.standard_cases found with
        ⟨rfl, rfl⟩ | ⟨rfl, rfl⟩ | ⟨rfl, rfl⟩ | ⟨rfl, rfl⟩ | ⟨rfl, rfl⟩ | ⟨rfl, rfl⟩ <;>
      decide +kernel
  | fetch var =>
      have shape := (Word.isVariable_eq_true_iff.mp var).1
      rw [List.flatMap_singleton,
        tokens_local "    local.get $".toList "local.get".toList (by decide) rfl whole,
        Word.expand_of_isVariable var, List.filter_singleton,
        Word.isNumeral_eq_false_of_hasNameShape shape]
      exact ⟨rfl, by simp⟩
  | @store x var =>
      have wholeName : ∀ c ∈ x, endsToken c = false := fun c mem => whole c (by simp [mem])
      rw [List.flatMap_singleton,
        tokens_local "    local.set $".toList "local.set".toList (by decide) rfl wholeName,
        Word.expand_mark, List.filter_singleton, Word.isNumeral_mark]
      exact ⟨rfl, by simp⟩

/-! ## The tokens of words and of declarations -/

/-- The opening has valid identifiers and no operand, and none behind it either. -/
theorem tokens_opening : IdentifiersIn (tokens opening) ∧ operandsOf (tokens opening) = [] ∧
    (tokens opening).getLast? ≠ some "i32.const".toList := by decide +kernel

theorem tokens_module (names lines : List Text) :
    tokens (Text.ofLines ([opening] ++ names.map declaration ++ lines ++ [closing])) =
      tokens opening ++ ((names.map declaration).flatMap tokens ++ lines.flatMap tokens) := by
  have last : tokens closing = [] := by decide
  simp only [tokens_ofLines, List.flatMap_append, List.flatMap_singleton, last, List.append_nil,
    List.append_assoc]

theorem identifiersIn_of_translations {ws : List Word} {ts : List (List Text)}
    (h : List.Forall₂ (Word.Translates .standard) ws ts)
    (whole : ∀ w ∈ ws, ∀ c ∈ w, endsToken c = false) :
    IdentifiersIn (ts.flatten.flatMap tokens) ↔
      ∀ w ∈ ws, Numeral.isNumeral w = true ∨ ∀ c ∈ w, c.toNat < 0x80 := by
  induction h with
  | nil => simp [IdentifiersIn]
  | cons hw _ ih =>
      obtain ⟨here, later⟩ := List.forall_mem_cons.mp whole
      rw [List.flatten_cons, List.flatMap_append, identifiersIn_append,
        identifiersIn_of_translates hw here, ih later, List.forall_mem_cons]

theorem operandsOf_of_translations {ws : List Word} {ts : List (List Text)}
    (h : List.Forall₂ (Word.Translates .standard) ws ts)
    (whole : ∀ w ∈ ws, ∀ c ∈ w, endsToken c = false) :
    operandsOf (ts.flatten.flatMap tokens) =
      (ws.flatMap Word.expand).filter Numeral.isNumeral := by
  induction h with
  | nil => rfl
  | cons hw _ ih =>
      obtain ⟨here, later⟩ := List.forall_mem_cons.mp whole
      obtain ⟨operands, last⟩ := operandsOf_of_translates hw here
      rw [List.flatten_cons, List.flatMap_append, operandsOf_append last, operands, ih later,
        List.flatMap_cons, List.filter_append]

theorem identifiersIn_declarations {names : List Text}
    (whole : ∀ x ∈ names, ∀ c ∈ x, endsToken c = false) :
    IdentifiersIn ((names.map declaration).flatMap tokens) ↔
      ∀ x ∈ names, isIdentifier ('$' :: x) = true := by
  induction names with
  | nil => simp [IdentifiersIn]
  | cons x names ih =>
      obtain ⟨here, later⟩ := List.forall_mem_cons.mp whole
      rw [List.map_cons, List.flatMap_cons, identifiersIn_append, tokens_declaration here, ih later,
        List.forall_mem_cons]
      simp [IdentifiersIn]

theorem operandsOf_declarations {names : List Text}
    (whole : ∀ x ∈ names, ∀ c ∈ x, endsToken c = false) (rest : List Text) :
    operandsOf ((names.map declaration).flatMap tokens ++ rest) = operandsOf rest := by
  induction names with
  | nil => rfl
  | cons x names ih =>
      obtain ⟨here, later⟩ := List.forall_mem_cons.mp whole
      rw [List.map_cons, List.flatMap_cons, tokens_declaration here, List.append_assoc,
        operandsOf_append (by simp), ih later]
      rfl

end Wat

namespace Word

theorem endsToken_eq_false_of_variablesIn {ws names : List Word}
    (found : variablesIn .standard ws = .ok names) :
    ∀ x ∈ names, ∀ c ∈ x, Wat.endsToken c = false := by
  have apart : ∀ c ∈ " \n()".toList,
      c.toNat < 0x80 ∧ Text.asciiAlphanumeric.has c = false := Text.forall_mem_of_all (by decide)
  intro x mem c hc
  obtain ⟨var, _⟩ := (mem_of_variablesIn found).mp mem
  have alphanumeric := isAlphanumeric_of_hasNameShape (isVariable_eq_true_iff.mp var).1 c hc
  cases ends : Wat.endsToken c with
  | false => rfl
  | true =>
      rw [Text.isAlphanumeric_eq_false (apart c (List.contains_iff_mem.mp ends))] at alphanumeric
      cases alphanumeric

end Word

namespace Compiler

theorem isBlank_eq_false_of_mem_source {source : Text} {w : Word}
    (mem : w ∈ Comment.strip (sourceWords source)) : ∀ c ∈ w, Text.isBlank c = false :=
  Text.isBlank_eq_false_of_mem_words (Comment.mem_of_mem_strip mem)

/-- A word of an accepted source stands in the module in one piece. -/
theorem endsToken_eq_false_of_mem_source {source text : Text} (compiled : compile source = .ok text)
    {w : Word} (mem : w ∈ Comment.strip (sourceWords source)) :
    ∀ c ∈ w, Wat.endsToken c = false := by
  have either : ∀ c ∈ " \n()".toList, Text.isBlank c = true ∨ c ∈ Wat.delimiters :=
    Text.forall_mem_of_all (by decide)
  intro c hc
  cases ends : Wat.endsToken c with
  | false => rfl
  | true =>
      rcases either c (List.contains_iff_mem.mp ends) with blank | delimiter
      · rw [isBlank_eq_false_of_mem_source mem c hc] at blank
        cases blank
      · exact absurd hc (delimiter_not_mem_of_source compiled w mem c delimiter)

/-- The operands of a module are the numerals of its source, each as it stands there, and a `10`
for each newline word. -/
theorem operandsOf_compile {source text : Text} (compiled : compile source = .ok text) :
    Wat.operandsOf (Wat.tokens text) =
      ((Comment.strip (sourceWords source)).flatMap Word.expand).filter Numeral.isNumeral := by
  have whole := fun w mem => endsToken_eq_false_of_mem_source compiled (w := w) mem
  obtain ⟨names, ts, found, translated, rfl⟩ := translations_of_compileWords compiled
  obtain ⟨_, operands, last⟩ := Wat.tokens_opening
  rw [Wat.tokens_module, Wat.operandsOf_append last, operands, List.nil_append,
    Wat.operandsOf_declarations (Word.endsToken_eq_false_of_variablesIn found),
    Wat.operandsOf_of_translations translated whole]

/-- The tokens of a module that start like identifiers are, unless a word of the source that is
not of ASCII is about a variable. -/
theorem identifiersIn_compile {source text : Text} (compiled : compile source = .ok text) :
    Wat.IdentifiersIn (Wat.tokens text) ↔ ∀ w ∈ Comment.strip (sourceWords source),
      Numeral.isNumeral w = true ∨ ∀ c ∈ w, c.toNat < 0x80 := by
  have whole := fun w mem => endsToken_eq_false_of_mem_source compiled (w := w) mem
  obtain ⟨names, ts, found, translated, rfl⟩ := translations_of_compileWords compiled
  rw [Wat.tokens_module, Wat.identifiersIn_append, Wat.identifiersIn_append,
    Wat.identifiersIn_declarations (Word.endsToken_eq_false_of_variablesIn found),
    Wat.identifiersIn_of_translations translated whole]
  refine ⟨fun all => all.2.2, fun words => ⟨Wat.tokens_opening.1, ?_, words⟩⟩
  -- a declared variable is used by a word, which is no numeral
  intro x mem
  obtain ⟨var, uses⟩ := (Word.mem_of_variablesIn found).mp mem
  rw [Wat.isIdentifier_iff var]
  rcases uses with plain | mark
  · have shape := (Word.isVariable_eq_true_iff.mp var).1
    exact (words x plain).resolve_left (by simp [Word.isNumeral_eq_false_of_hasNameShape shape])
  · have ascii := (words _ mark).resolve_left (by simp [Word.isNumeral_mark])
    exact fun c hc => ascii c (List.mem_append_left _ hc)

/-- The operands of a module are literals of the right values exactly if the numerals of its
source are of ASCII and in range. -/
theorem operands_valid_iff {source text : Text} (compiled : compile source = .ok text) :
    (∀ t ∈ Wat.operandsOf (Wat.tokens text), ∃ k, Numeral.value? t = some k ∧
        Wat.literal? t = some (BitVec.ofInt 32 k)) ↔
      ∀ w ∈ Comment.strip (sourceWords source), ∀ k, Numeral.value? w = some k →
        (∀ c ∈ w, c.toNat < 0x80) ∧ Wat.InRange w k := by
  have unpadded : ∀ w ∈ Comment.strip (sourceWords source), ∀ c ∈ w, Text.isPadding c = false :=
    fun w mem c hc => Text.isPadding_eq_false_of_isBlank (isBlank_eq_false_of_mem_source mem c hc)
  rw [operandsOf_compile compiled]
  constructor
  · intro operands w mem k numeral
    have isNumeral : Numeral.isNumeral w = true := by simp [Numeral.isNumeral, numeral]
    have operand : w ∈ ((Comment.strip (sourceWords source)).flatMap Word.expand).filter
        Numeral.isNumeral := by
      refine List.mem_filter.mpr ⟨List.mem_flatMap.mpr ⟨w, mem, ?_⟩, isNumeral⟩
      rw [Word.expand_of_isNumeral isNumeral, List.mem_singleton]
    obtain ⟨_, _, literal⟩ := operands w operand
    rw [← Wat.literal?_isSome_iff numeral (unpadded w mem), literal, Option.isSome_some]
  · intro words t operand
    obtain ⟨expanded, isNumeral⟩ := List.mem_filter.mp operand
    obtain ⟨w, mem, written⟩ := List.mem_flatMap.mp expanded
    by_cases newline : w = "nl".toList
    · rw [newline] at written
      rcases List.mem_pair.mp written with rfl | rfl
      · exact ⟨10, by decide, by decide⟩
      · have letter : 'e' ∈ "emit".toList := by decide
        rw [Numeral.isNumeral_eq_false_of_mem letter (by decide)] at isNumeral
        cases isNumeral
    · rw [Word.expand_of_ne newline, List.mem_singleton] at written
      rw [written] at isNumeral ⊢
      obtain ⟨k, numeral⟩ := Option.isSome_iff_exists.mp isNumeral
      obtain ⟨n, literal⟩ := Option.isSome_iff_exists.mp
        ((Wat.literal?_isSome_iff numeral (unpadded w mem)).mpr (words w mem k numeral))
      exact ⟨k, numeral, by rw [literal, Wat.literal?_eq_ofInt literal numeral]⟩

/-- The lexical part of a module is valid exactly if the words of its source are of ASCII and
its numerals are in range.  The identifiers are the tokens that start with a dollar sign.  The
operands of constants are the numerals of the source, and where they are literals they denote,
as cells, the values of the numerals. -/
theorem module_tokens_valid_iff (source text : Text) (compiled : compile source = .ok text) :
    let ws := Comment.strip (sourceWords source)
    let operands := Wat.operandsOf (Wat.tokens text)
    operands = (ws.flatMap Word.expand).filter Numeral.isNumeral ∧
    ((∀ tok ∈ Wat.tokens text, tok.head? = some '$' → Wat.isIdentifier tok = true) ∧
      (∀ t ∈ operands, ∃ k, Numeral.value? t = some k ∧
        Wat.literal? t = some (BitVec.ofInt 32 k)) ↔
      ∀ w ∈ ws, (∀ c ∈ w, c.toNat < 0x80) ∧
        ∀ k, Numeral.value? w = some k → Wat.InRange w k) := by
  intro ws operands
  refine ⟨operandsOf_compile compiled, ?_⟩
  have identifiers := identifiersIn_compile compiled
  rw [Wat.IdentifiersIn] at identifiers
  rw [identifiers, operands_valid_iff compiled]
  constructor
  · rintro ⟨names, numerals⟩ w mem
    refine ⟨?_, fun k value => (numerals w mem k value).2⟩
    rcases names w mem with numeral | ascii
    · obtain ⟨k, value⟩ := Option.isSome_iff_exists.mp numeral
      exact (numerals w mem k value).1
    · exact ascii
  · intro words
    exact ⟨fun w mem => Or.inr (words w mem).1,
      fun w mem k value => ⟨(words w mem).1, (words w mem).2 k value⟩⟩

/-- The module of `4294967295 x! -2147483648 nl` is valid.  That of `+2147483648 y!` is not. -/
theorem module_tokens_of_small_sources :
    (∃ text, compile "4294967295 x! -2147483648 nl".toList = .ok text ∧
      Wat.IdentifiersIn (Wat.tokens text) ∧ ∀ t ∈ Wat.operandsOf (Wat.tokens text),
        ∃ k, Numeral.value? t = some k ∧ Wat.literal? t = some (BitVec.ofInt 32 k)) ∧
    ∃ text, compile "+2147483648 y!".toList = .ok text ∧
      ¬ (Wat.IdentifiersIn (Wat.tokens text) ∧ ∀ t ∈ Wat.operandsOf (Wat.tokens text),
        ∃ k, Numeral.value? t = some k ∧ Wat.literal? t = some (BitVec.ofInt 32 k)) := by
  obtain ⟨t₁, h₁⟩ : ∃ text, compile "4294967295 x! -2147483648 nl".toList = .ok text :=
    exists_compileWords_iff.mpr (by decide +kernel)
  obtain ⟨t₂, h₂⟩ : ∃ text, compile "+2147483648 y!".toList = .ok text :=
    exists_compileWords_iff.mpr (by decide +kernel)
  refine ⟨⟨t₁, h₁, (module_tokens_valid_iff _ t₁ h₁).2.mpr ?_⟩, t₂, h₂, fun valid => ?_⟩
  · have checked : ∀ w ∈ Comment.strip (sourceWords "4294967295 x! -2147483648 nl".toList),
        (w.all fun c => decide (c.toNat < 0x80)) = true ∧
          ∀ k ∈ Numeral.value? w, Wat.InRange w k := by decide +kernel
    exact fun w mem => ⟨Text.forall_mem_of_all (checked w mem).1, (checked w mem).2⟩
  · have words := (module_tokens_valid_iff _ t₂ h₂).2.mp valid "+2147483648".toList (by decide +kernel)
    exact absurd (words.2 2147483648 (by decide +kernel)) (by decide)

end Compiler

end TinyForth
