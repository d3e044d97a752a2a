import TinyForth.Code
import TinyForth.Proofs.Alphabet

/-!
# The grammar of words

A word is a numeral, an operation, a variable, or a variable with an exclamation mark.
`Translates` says so without any order of tests, and says for each of the four what lines
the word is written as.  `meaning` tries the four in a fixed order.

A vocabulary may give code to every word, also to a numeral, to a variable with a mark, and to
the empty word.  Then a word is of two kinds at once, and the order of the tests decides.
`WrittenAs` states what comes of that order.  A numeral is always a constant, and an operation
is one also where it looks like a store.  So what a word is written as is one of its
translations (`WrittenAs.translates`), and it is the lines of its meaning
(`writtenAs_iff_meaning`).  A word without a meaning is of none of the four kinds (`OfNoKind`)
and has no translation at all.

In the language's own vocabulary the four kinds of words exclude each other.  The order of the
tests is of no account there (`translates_standard_iff`), and a word has one translation
(`Translates.unique`).
-/

namespace TinyForth

namespace Vocabulary

/-! ## The operations of the language -/

theorem standard_getElem? (w : Text) : standard[w]? =
    if w = "nl".toList then some ["i32.const 10".toList, "call $emit".toList]
    else if w = "input".toList then some ["call $input".toList]
    else if w = "emit".toList then some ["call $emit".toList]
    else if w = ".".toList then some ["call $print".toList]
    else if w = "+".toList then some ["i32.add".toList]
    else if w = "*".toList then some ["i32.mul".toList]
    else none := by
  simp only [standard, Std.ExtTreeMap.ofList_eq_foldl, List.foldl_cons, List.foldl_nil,
    Std.ExtTreeMap.getElem?_insert, Std.LawfulEqCmp.compare_eq_iff_eq, eq_comm (b := w),
    Std.ExtTreeMap.getElem?_empty]

/-- The six operations with their code. -/
theorem standard_cases {w : Text} {code : List Text} (h : standard[w]? = some code) :
    (w = "nl".toList ∧ code = ["i32.const 10".toList, "call $emit".toList]) ∨
    (w = "input".toList ∧ code = ["call $input".toList]) ∨
    (w = "emit".toList ∧ code = ["call $emit".toList]) ∨
    (w = ".".toList ∧ code = ["call $print".toList]) ∨
    (w = "+".toList ∧ code = ["i32.add".toList]) ∨
    (w = "*".toList ∧ code = ["i32.mul".toList]) := by
  rw [standard_getElem?] at h
  split at h
  · exact Or.inl ⟨‹_›, (Option.some.inj h).symm⟩
  · split at h
    · exact Or.inr (Or.inl ⟨‹_›, (Option.some.inj h).symm⟩)
    · split at h
      · exact Or.inr (Or.inr (Or.inl ⟨‹_›, (Option.some.inj h).symm⟩))
      · split at h
        · exact Or.inr (Or.inr (Or.inr (Or.inl ⟨‹_›, (Option.some.inj h).symm⟩)))
        · split at h
          · exact Or.inr (Or.inr (Or.inr (Or.inr (Or.inl ⟨‹_›, (Option.some.inj h).symm⟩))))
          · split at h
            · exact Or.inr (Or.inr (Or.inr (Or.inr (Or.inr ⟨‹_›, (Option.some.inj h).symm⟩))))
            · cases h

theorem standard_eq_none_iff {w : Text} : standard[w]? = none ↔
    w ≠ "nl".toList ∧ w ≠ "input".toList ∧ w ≠ "emit".toList ∧ w ≠ ".".toList ∧
      w ≠ "+".toList ∧ w ≠ "*".toList := by
  rw [standard_getElem?]
  split_ifs <;> simp_all

theorem isNumeral_eq_false_of_standard {w : Text} {code : List Text}
    (h : standard[w]? = some code) : Numeral.isNumeral w = false := by
  rcases standard_cases h with ⟨rfl, _⟩ | ⟨rfl, _⟩ | ⟨rfl, _⟩ | ⟨rfl, _⟩ | ⟨rfl, _⟩ | ⟨rfl, _⟩ <;>
    decide +kernel

/-- No operation of the language ends in an exclamation mark. -/
theorem standard_mark (x : Text) : standard[x ++ ['!']]? = none := by
  cases h : standard[x ++ ['!']]? with
  | none => rfl
  | some code =>
      rcases standard_cases h with ⟨hw, _⟩ | ⟨hw, _⟩ | ⟨hw, _⟩ | ⟨hw, _⟩ | ⟨hw, _⟩ | ⟨hw, _⟩ <;>
        exact absurd (congrArg List.getLast? hw) (by simp)

end Vocabulary

namespace Word

/-! ## Names and marks -/

theorem target?_eq_some_iff {w x : Word} : w.target? = some x ↔ w = x ++ ['!'] := by
  rw [target?]
  constructor
  · intro h
    split at h
    next last =>
      rw [← Option.some.inj h]
      exact (List.dropLast_append_getLast? '!' last).symm
    next => cases h
  · rintro rfl
    simp

@[simp] theorem target?_mark (x : Word) : target? (x ++ ['!']) = some x :=
  target?_eq_some_iff.mpr rfl

theorem target?_eq_none {w : Word} (h : '!' ∉ w) : w.target? = none := by
  cases hw : w.target? with
  | none => rfl
  | some x =>
      rw [target?_eq_some_iff.mp hw] at h
      exact absurd (List.mem_append_right x (List.mem_singleton.mpr rfl)) h

@[simp] theorem name_mark (x : Word) : name (x ++ ['!']) = x := by
  rw [name, target?_mark, Option.getD_some]

theorem name_eq_self {w : Word} (h : '!' ∉ w) : w.name = w := by
  rw [name, target?_eq_none h, Option.getD_none]

theorem eq_name_or_mark (w : Word) : w = w.name ∨ w = w.name ++ ['!'] := by
  cases hw : w.target? with
  | none => exact Or.inl (by rw [name, hw, Option.getD_none])
  | some x => exact Or.inr (by rw [target?_eq_some_iff.mp hw, name_mark])

/-- Only the empty word and the mark alone are about the empty name. -/
theorem name_eq_nil_iff {w : Word} : w.name = [] ↔ w = [] ∨ w = ['!'] := by
  constructor
  · intro noName
    have either := w.eq_name_or_mark
    rw [noName] at either
    exact either
  · rintro (rfl | rfl)
    · rfl
    · exact name_mark []

/-! ## The shape of a name -/

theorem isAlphanumeric_of_hasNameShape {w : Word} (h : hasNameShape w = true) :
    ∀ c ∈ w, Text.isAlphanumeric c = true := by
  cases w with
  | nil => cases h
  | cons c cs =>
      obtain ⟨letter, rest⟩ := Bool.and_eq_true_iff.mp h
      exact List.forall_mem_cons.mpr
        ⟨Text.isAlphanumeric_of_isLetter letter, List.all_eq_true.mp rest⟩

theorem not_mem_of_hasNameShape {w : Word} {c : Char} (h : hasNameShape w = true)
    (hc : Text.isAlphanumeric c = false) : c ∉ w := by
  intro mem
  rw [isAlphanumeric_of_hasNameShape h c mem] at hc
  cases hc

theorem mark_not_mem_of_hasNameShape {w : Word} (h : hasNameShape w = true) : '!' ∉ w :=
  not_mem_of_hasNameShape h (Text.isAlphanumeric_eq_false (by decide))

theorem isNumeral_eq_false_of_hasNameShape {w : Word} (h : hasNameShape w = true) :
    Numeral.isNumeral w = false := by
  cases w with
  | nil => cases h
  | cons c cs =>
      have letter := (Bool.and_eq_true_iff.mp h).1
      exact Numeral.isNumeral_eq_false_of_mem (List.mem_cons_self ..)
        (Numeral.isNumeralChar_eq_false_of_isLetter letter)

theorem isNumeral_mark (x : Word) : Numeral.isNumeral (x ++ ['!']) = false :=
  Numeral.isNumeral_eq_false_of_mem (List.mem_append_right x (List.mem_singleton.mpr rfl))
    (by decide)

theorem isVariable_eq_true_iff {v : Vocabulary} {w : Word} :
    isVariable v w = true ↔ hasNameShape w = true ∧ v[w]? = none := by
  rw [isVariable, Bool.and_eq_true, Bool.not_eq_true', Std.ExtTreeMap.contains_eq_isSome_getElem?,
    Option.isSome_eq_false_iff, Option.isNone_iff_eq_none]

theorem isVariable_mark (v : Vocabulary) (x : Word) : isVariable v (x ++ ['!']) = false := by
  cases h : isVariable v (x ++ ['!']) with
  | false => rfl
  | true =>
      have shape := (isVariable_eq_true_iff.mp h).1
      exact absurd (List.mem_append_right x (List.mem_singleton.mpr rfl))
        (mark_not_mem_of_hasNameShape shape)

/-! ## The grammar -/

/-- A word of the grammar, and the lines it is written as. -/
inductive Translates (v : Vocabulary) : Word → List Text → Prop where
  /-- A numeral is the constant it shows. -/
  | numeral {w : Word} : Numeral.isNumeral w = true →
      Translates v w ["    i32.const ".toList ++ w]
  /-- An operation is its code. -/
  | operation {w : Word} {code : List Text} : v[w]? = some code →
      Translates v w (code.map fun t => "    ".toList ++ t)
  /-- A variable is read. -/
  | fetch {x : Word} : isVariable v x = true →
      Translates v x ["    local.get $".toList ++ x]
  /-- A variable with a mark is written. -/
  | store {x : Word} : isVariable v x = true →
      Translates v (x ++ ['!']) ["    local.set $".toList ++ x]

/-- The word is in the grammar. -/
def Grammatical (v : Vocabulary) (w : Word) : Prop := ∃ ls, Translates v w ls

/-- The lines of a word, in a vocabulary where words may be of several kinds. -/
inductive WrittenAs (v : Vocabulary) : Word → List Text → Prop where
  /-- A numeral is a constant, whether or not it has code. -/
  | numeral {w : Word} : Numeral.isNumeral w = true →
      WrittenAs v w ["    i32.const ".toList ++ w]
  /-- A word with code is its code. -/
  | operation {w : Word} {code : List Text} : Numeral.isNumeral w = false → v[w]? = some code →
      WrittenAs v w (code.map fun t => "    ".toList ++ t)
  /-- A variable is read. -/
  | fetch {x : Word} : isVariable v x = true → WrittenAs v x ["    local.get $".toList ++ x]
  /-- A variable with a mark is written, if the two together have no code. -/
  | store {x : Word} : v[x ++ ['!']]? = none → isVariable v x = true →
      WrittenAs v (x ++ ['!']) ["    local.set $".toList ++ x]

/-- The word is neither a numeral nor an operation, neither a variable nor one with a mark. -/
structure OfNoKind (v : Vocabulary) (w : Word) : Prop where
  notNumeral : Numeral.isNumeral w = false
  notOperation : w ∉ v
  notVariable : isVariable v w = false
  notStore : ∀ x, w = x ++ ['!'] → isVariable v x = false

theorem WrittenAs.translates {v : Vocabulary} {w : Word} {ls : List Text} (h : WrittenAs v w ls) :
    Translates v w ls := by
  cases h with
  | numeral numeral => exact .numeral numeral
  | operation _ found => exact .operation found
  | fetch var => exact .fetch var
  | store _ var => exact .store var

theorem not_mem_iff_getElem? {v : Vocabulary} {w : Word} : w ∉ v ↔ v[w]? = none := by
  rw [Std.ExtTreeMap.mem_iff_isSome_getElem?, Option.not_isSome_iff_eq_none]

theorem OfNoKind.not_grammatical {v : Vocabulary} {w : Word} (h : OfNoKind v w) :
    ¬ Grammatical v w := by
  rintro ⟨ls, translated⟩
  cases translated with
  | numeral numeral => rw [h.notNumeral] at numeral; cases numeral
  | operation found => rw [not_mem_iff_getElem?.mp h.notOperation] at found; cases found
  | fetch var => rw [h.notVariable] at var; cases var
  | store var => rw [h.notStore _ rfl] at var; cases var

/-! ## The lines of a meaning -/

theorem Meaning.lines_push (w : Text) : (push w).lines = ["    i32.const ".toList ++ w] := rfl

theorem Meaning.lines_operation (code : List Text) :
    (operation code).lines = code.map fun t => "    ".toList ++ t := rfl

theorem Meaning.lines_fetch (x : Text) : (fetch x).lines = ["    local.get $".toList ++ x] := rfl

theorem Meaning.lines_store (x : Text) : (store x).lines = ["    local.set $".toList ++ x] := rfl

/-! ## Meanings -/

theorem checkVariable_of_ne_nil (v : Vocabulary) {x : Word} (h : x ≠ []) :
    checkVariable v x = .ok (isVariable v x) := by
  rw [checkVariable, if_neg (by simpa using h)]

theorem name_ne_nil_of_isVariable {v : Vocabulary} {x : Word} (h : isVariable v x = true) :
    x.name ≠ [] := by
  have shape := (isVariable_eq_true_iff.mp h).1
  rw [name_eq_self (mark_not_mem_of_hasNameShape shape)]
  rintro rfl
  cases shape

/-- The two checks for a variable come to one question about the name. -/
theorem meaning_eq (v : Vocabulary) (w : Word) : meaning v w =
    if Numeral.isNumeral w then .ok (.push w)
    else match v[w]? with
      | some code => .ok (.operation code)
      | none =>
        if w.name = [] then .error .empty
        else if isVariable v w then .ok (.fetch w)
        else match w.target? with
          | some x => if isVariable v x then .ok (.store x) else .error (.unknown w)
          | none => .error (.unknown w) := by
  rw [meaning]
  by_cases numeral : Numeral.isNumeral w = true
  · rw [if_pos numeral, if_pos numeral]
  rw [if_neg numeral, if_neg numeral]
  cases v[w]? with
  | some code => rfl
  | none =>
      dsimp only
      by_cases empty : w = []
      · rw [empty]
        rfl
      rw [checkVariable_of_ne_nil v empty]
      cases var : isVariable v w with
      | true =>
          rw [if_neg (name_ne_nil_of_isVariable var)]
          rfl
      | false =>
          cases mark : w.target? with
          | none =>
              rw [name, mark, Option.getD_none, if_neg empty]
              rfl
          | some x =>
              rw [name, mark, Option.getD_some]
              by_cases noName : x = []
              · rw [noName]
                rfl
              · rw [if_neg noName]
                simp only [checkVariable_of_ne_nil v noName]
                rfl

/-- The four ways in which a word comes by a meaning, each with the tests before it failed. -/
theorem meaning_cases {v : Vocabulary} {w : Word} {m : Meaning} (h : meaning v w = .ok m) :
    (Numeral.isNumeral w = true ∧ m = .push w) ∨
    (Numeral.isNumeral w = false ∧ ∃ code, v[w]? = some code ∧ m = .operation code) ∨
    (Numeral.isNumeral w = false ∧ isVariable v w = true ∧ m = .fetch w) ∨
    (Numeral.isNumeral w = false ∧ v[w]? = none ∧
      ∃ x, w = x ++ ['!'] ∧ isVariable v x = true ∧ m = .store x) := by
  rw [meaning_eq] at h
  split at h
  next numeral => exact Or.inl ⟨numeral, (Except.ok.inj h).symm⟩
  next numeral =>
    have numeral := Bool.eq_false_iff.mpr numeral
    split at h
    next code found => exact Or.inr (Or.inl ⟨numeral, code, found, (Except.ok.inj h).symm⟩)
    next missing =>
      split at h
      next => cases h
      next =>
        split at h
        next var => exact Or.inr (Or.inr (Or.inl ⟨numeral, var, (Except.ok.inj h).symm⟩))
        next =>
          split at h
          next x mark =>
            split at h
            next var =>
              exact Or.inr (Or.inr (Or.inr
                ⟨numeral, missing, x, target?_eq_some_iff.mp mark, var, (Except.ok.inj h).symm⟩))
            next => cases h
          next => cases h

/-- A word without a meaning fails every test.  The error tells whether it is about the empty
name. -/
theorem meaning_error_cases {v : Vocabulary} {w : Word} {e : Error} (h : meaning v w = .error e) :
    OfNoKind v w ∧ e = if w.name = [] then .empty else .unknown w := by
  rw [meaning_eq] at h
  split at h
  next => cases h
  next numeral =>
    have numeral := Bool.eq_false_iff.mpr numeral
    split at h
    next => cases h
    next missing =>
      have missing := not_mem_iff_getElem?.mpr missing
      split at h
      next noName =>
        rw [if_pos noName]
        refine ⟨⟨numeral, missing, ?_, ?_⟩, (Except.error.inj h).symm⟩
        · exact Bool.eq_false_iff.mpr fun var => name_ne_nil_of_isVariable var noName
        · rintro x rfl
          rw [name_mark] at noName
          rw [noName]
          rfl
      next hasName =>
        rw [if_neg hasName]
        split at h
        next => cases h
        next var =>
          have var := Bool.eq_false_iff.mpr var
          split at h
          next x mark =>
            split at h
            next => cases h
            next target =>
              refine ⟨⟨numeral, missing, var, ?_⟩, (Except.error.inj h).symm⟩
              rintro y rfl
              rw [target?_mark] at mark
              cases mark
              exact Bool.eq_false_iff.mpr target
          next mark =>
            refine ⟨⟨numeral, missing, var, ?_⟩, (Except.error.inj h).symm⟩
            rintro y rfl
            rw [target?_mark] at mark
            cases mark

theorem not_grammatical_of_meaning_error {v : Vocabulary} {w : Word} {e : Error}
    (h : meaning v w = .error e) : ¬ Grammatical v w :=
  (meaning_error_cases h).1.not_grammatical

/-! ## Meanings by kind -/

theorem meaning_of_isNumeral {v : Vocabulary} {w : Word} (h : Numeral.isNumeral w = true) :
    meaning v w = .ok (.push w) := by
  rw [meaning, if_pos h]

theorem meaning_of_operation {v : Vocabulary} {w : Word} {code : List Text}
    (numeral : Numeral.isNumeral w = false) (h : v[w]? = some code) :
    meaning v w = .ok (.operation code) := by
  rw [meaning, if_neg (Bool.eq_false_iff.mp numeral), h]

theorem meaning_of_isVariable {v : Vocabulary} {x : Word} (h : isVariable v x = true) :
    meaning v x = .ok (.fetch x) := by
  obtain ⟨shape, missing⟩ := isVariable_eq_true_iff.mp h
  have numeral := isNumeral_eq_false_of_hasNameShape shape
  rw [meaning_eq, if_neg (Bool.eq_false_iff.mp numeral), missing]
  dsimp only
  rw [if_neg (name_ne_nil_of_isVariable h), if_pos h]

theorem meaning_mark {v : Vocabulary} {x : Word} (h : isVariable v x = true)
    (missing : v[x ++ ['!']]? = none) : meaning v (x ++ ['!']) = .ok (.store x) := by
  have hasName : name (x ++ ['!']) ≠ [] := by
    rw [name_mark]
    rintro rfl
    cases h
  rw [meaning_eq, if_neg (Bool.eq_false_iff.mp (isNumeral_mark x)), missing]
  dsimp only
  rw [if_neg hasName, if_neg (Bool.eq_false_iff.mp (isVariable_mark v x)), target?_mark]
  dsimp only
  rw [if_pos h]

/-! ## Meanings and the grammar -/

/-- What a word is written as is the lines of its meaning. -/
theorem writtenAs_iff_meaning {v : Vocabulary} {w : Word} {ls : List Text} :
    WrittenAs v w ls ↔ ∃ m, meaning v w = .ok m ∧ m.lines = ls := by
  constructor
  · intro written
    cases written with
    | numeral numeral => exact ⟨_, meaning_of_isNumeral numeral, Meaning.lines_push _⟩
    | operation notNumeral found =>
        exact ⟨_, meaning_of_operation notNumeral found, Meaning.lines_operation _⟩
    | fetch var => exact ⟨_, meaning_of_isVariable var, Meaning.lines_fetch _⟩
    | store missing var => exact ⟨_, meaning_mark var missing, Meaning.lines_store _⟩
  · rintro ⟨m, h, rfl⟩
    rcases meaning_cases h with ⟨numeral, rfl⟩ | ⟨notNumeral, code, found, rfl⟩ | ⟨_, var, rfl⟩ |
      ⟨_, missing, x, rfl, var, rfl⟩
    · rw [Meaning.lines_push]
      exact .numeral numeral
    · rw [Meaning.lines_operation]
      exact .operation notNumeral found
    · rw [Meaning.lines_fetch]
      exact .fetch var
    · rw [Meaning.lines_store]
      exact .store missing var

theorem writtenAs_of_meaning {v : Vocabulary} {w : Word} {m : Meaning} (h : meaning v w = .ok m) :
    WrittenAs v w m.lines :=
  writtenAs_iff_meaning.mpr ⟨m, h, rfl⟩

theorem WrittenAs.unique {v : Vocabulary} {w : Word} {ls ls' : List Text} (h : WrittenAs v w ls)
    (h' : WrittenAs v w ls') : ls = ls' := by
  obtain ⟨m, hm, rfl⟩ := writtenAs_iff_meaning.mp h
  obtain ⟨m', hm', rfl⟩ := writtenAs_iff_meaning.mp h'
  rw [Except.ok.inj (hm.symm.trans hm')]

theorem grammatical_iff {v : Vocabulary} {w : Word} :
    Grammatical v w ↔ ∃ m, meaning v w = .ok m := by
  constructor
  · intro grammatical
    cases h : meaning v w with
    | ok m => exact ⟨m, rfl⟩
    | error e => exact absurd grammatical (not_grammatical_of_meaning_error h)
  · rintro ⟨m, h⟩
    exact ⟨m.lines, (writtenAs_of_meaning h).translates⟩

instance (v : Vocabulary) (w : Word) : Decidable (Grammatical v w) :=
  match h : meaning v w with
  | .ok m => .isTrue (grammatical_iff.mpr ⟨m, h⟩)
  | .error _ => .isFalse (not_grammatical_of_meaning_error h)

/-! ## The language's own vocabulary -/

/-- In the language's own vocabulary each kind of word fails the tests for the kinds before it. -/
theorem translates_standard_iff {w : Word} {ls : List Text} :
    Translates .standard w ls ↔ WrittenAs .standard w ls := by
  refine ⟨?_, WrittenAs.translates⟩
  intro h
  cases h with
  | numeral numeral => exact .numeral numeral
  | operation found => exact .operation (Vocabulary.isNumeral_eq_false_of_standard found) found
  | fetch var => exact .fetch var
  | store var => exact .store (Vocabulary.standard_mark _) var

/-- A word of the language has one translation. -/
theorem Translates.unique {w : Word} {ls ls' : List Text} (h : Translates .standard w ls)
    (h' : Translates .standard w ls') : ls = ls' :=
  (translates_standard_iff.mp h).unique (translates_standard_iff.mp h')

/-- Neither the empty word nor the mark alone is a word of the language. -/
theorem name_ne_nil_of_grammatical {w : Word} (h : Grammatical .standard w) : w.name ≠ [] := by
  intro noName
  obtain ⟨ls, hls⟩ := h
  cases hls with
  | numeral numeral =>
      rcases name_eq_nil_iff.mp noName with rfl | rfl
      · exact absurd numeral (by decide)
      · exact absurd numeral (by decide)
  | operation found =>
      rcases name_eq_nil_iff.mp noName with rfl | rfl
      · rw [Vocabulary.standard_getElem?] at found
        cases found
      · rw [show ['!'] = [] ++ ['!'] from rfl, Vocabulary.standard_mark] at found
        cases found
  | fetch var => exact name_ne_nil_of_isVariable var noName
  | store var =>
      rw [name_mark] at noName
      rw [noName] at var
      cases var

end Word

end TinyForth
