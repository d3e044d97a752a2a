import TinyForth.Proofs.Generation

/-!
# The order of the tests

A word gets its meaning from the first of four tests that it passes.  `meaning` makes the tests in
a fixed order (`Test.inTurn`), and `meaningBy` makes them in any order.  Each test by itself has a
verdict on a word, which is a meaning, an error, or to leave the word to the next test.

In the language's own vocabulary every verdict of every test is the right one
(`meaning_of_verdict?`).  So the first verdict is right in whatever order the tests are made, a word
passes one test at most, and the code of a program is the same in all the orders.  In another
vocabulary a word may pass two tests, and then the order decides.  A numeral is a variable in no
vocabulary, and neither of them ends in an exclamation mark.
-/

namespace TinyForth

namespace Word

/-- The four tests of a word. -/
inductive Test where
  /-- For a numeral. -/
  | numeral
  /-- For an operation of the vocabulary. -/
  | operation
  /-- For a variable. -/
  | fetch
  /-- For a variable with an exclamation mark. -/
  | store
deriving DecidableEq, Repr

/-- The test that gives a meaning. -/
def Meaning.test : Meaning → Test
  | .push _ => .numeral
  | .operation _ => .operation
  | .fetch _ => .fetch
  | .store _ => .store

namespace Test

/-! ## Tests and verdicts -/

/-- The tests in the order in which they are made. -/
def inTurn : List Test := [.numeral, .operation, .fetch, .store]

theorem mem_inTurn (t : Test) : t ∈ inTurn := by cases t <;> simp [inTurn]

/-- The word passes the test. -/
def Passes (v : Vocabulary) (w : Word) : Test → Prop
  | .numeral => Numeral.isNumeral w = true
  | .operation => w ∈ v
  | .fetch => isVariable v w = true
  | .store => ∃ x, w = x ++ ['!'] ∧ isVariable v x = true

/-- The verdict on a word about a name, which has a meaning if the name is a variable. -/
def verdictOn? (v : Vocabulary) (x : Word) (m : Meaning) : Option (Except Error Meaning) :=
  match checkVariable v x with
  | .error e => some (.error e)
  | .ok true => some (.ok m)
  | .ok false => none

/-- The verdict of a test on a word, or `none` if the word is left to the next test.  The empty word
has no last character that could be a mark. -/
def verdict? (v : Vocabulary) (w : Word) : Test → Option (Except Error Meaning)
  | .numeral => if Numeral.isNumeral w then some (.ok (.push w)) else none
  | .operation => v[w]?.map fun code => .ok (.operation code)
  | .fetch => verdictOn? v w (.fetch w)
  | .store =>
      if w.isEmpty then some (.error .empty)
      else w.target?.bind fun x => verdictOn? v x (.store x)

variable {v : Vocabulary} {w : Word}

theorem verdictOn?_nil (m : Meaning) : verdictOn? v [] m = some (.error .empty) := rfl

theorem verdictOn?_of_ne_nil {x : Word} (h : x ≠ []) (m : Meaning) :
    verdictOn? v x m = if isVariable v x then some (.ok m) else none := by
  rw [verdictOn?, checkVariable_of_ne_nil v h]
  cases isVariable v x <;> rfl

theorem verdictOn?_of_isVariable {x : Word} (h : isVariable v x = true) (m : Meaning) :
    verdictOn? v x m = some (.ok m) := by
  have nonempty : x ≠ [] := by
    rintro rfl
    cases h
  rw [verdictOn?_of_ne_nil nonempty, if_pos h]

theorem verdictOn?_cases {x : Word} {m : Meaning} {r : Except Error Meaning}
    (h : verdictOn? v x m = some r) :
    (x = [] ∧ r = .error .empty) ∨ (isVariable v x = true ∧ r = .ok m) := by
  by_cases empty : x = []
  · rw [empty, verdictOn?_nil] at h
    exact .inl ⟨empty, (Option.some.inj h).symm⟩
  · rw [verdictOn?_of_ne_nil empty] at h
    split at h
    next var => exact .inr ⟨var, (Option.some.inj h).symm⟩
    next => cases h

theorem verdict?_store_mark (x : Word) :
    store.verdict? v (x ++ ['!']) = verdictOn? v x (.store x) := by
  simp [verdict?]

theorem verdict?_numeral_eq_none (h : Numeral.isNumeral w = false) :
    numeral.verdict? v w = none := by
  rw [verdict?, if_neg (Bool.eq_false_iff.mp h)]

theorem verdict?_operation_eq_none (h : v[w]? = none) : operation.verdict? v w = none := by
  rw [verdict?, h, Option.map_none]

theorem verdict?_fetch_eq_none (nonempty : w ≠ []) (h : isVariable v w = false) :
    fetch.verdict? v w = none := by
  rw [verdict?, verdictOn?_of_ne_nil nonempty, if_neg (Bool.eq_false_iff.mp h)]

theorem verdict?_store_eq_none (hasName : w.name ≠ [])
    (h : ∀ x, w = x ++ ['!'] → isVariable v x = false) : store.verdict? v w = none := by
  cases mark : w.target? with
  | none =>
      have nonempty : ¬ w.isEmpty = true := by
        rw [name, mark, Option.getD_none] at hasName
        simpa using hasName
      rw [verdict?, if_neg nonempty, mark, Option.bind_none]
  | some x =>
      obtain rfl := target?_eq_some_iff.mp mark
      rw [name_mark] at hasName
      rw [verdict?_store_mark, verdictOn?_of_ne_nil hasName,
        if_neg (Bool.eq_false_iff.mp (h x rfl))]

/-- A word that passes a test gets a meaning from it. -/
theorem verdict?_of_passes {t : Test} (h : t.Passes v w) :
    ∃ m, t.verdict? v w = some (.ok m) ∧ m.test = t := by
  cases t with
  | numeral => exact ⟨.push w, if_pos h, rfl⟩
  | operation =>
      obtain ⟨code, found⟩ :=
        Option.isSome_iff_exists.mp (Std.ExtTreeMap.mem_iff_isSome_getElem?.mp h)
      refine ⟨.operation code, ?_, rfl⟩
      rw [verdict?, found, Option.map_some]
  | fetch => exact ⟨.fetch w, verdictOn?_of_isVariable h _, rfl⟩
  | store =>
      obtain ⟨x, rfl, var⟩ := h
      exact ⟨.store x, (verdict?_store_mark x).trans (verdictOn?_of_isVariable var _), rfl⟩

/-- A word that gets a meaning from a test has passed it. -/
theorem passes_of_verdict? {t : Test} {m : Meaning} (h : t.verdict? v w = some (.ok m)) :
    t.Passes v w := by
  cases t with
  | numeral =>
      rw [verdict?] at h
      split at h
      next numeral => exact numeral
      next => cases h
  | operation =>
      obtain ⟨code, found, _⟩ := Option.map_eq_some_iff.mp h
      exact Std.ExtTreeMap.mem_iff_isSome_getElem?.mpr (Option.isSome_iff_exists.mpr ⟨code, found⟩)
  | fetch =>
      rcases verdictOn?_cases h with ⟨_, error⟩ | ⟨var, _⟩
      · cases error
      · exact var
  | store =>
      rw [verdict?] at h
      split at h
      next => cases h
      next =>
        obtain ⟨x, mark, h⟩ := Option.bind_eq_some_iff.mp h
        rcases verdictOn?_cases h with ⟨_, error⟩ | ⟨var, _⟩
        · cases error
        · exact ⟨x, target?_eq_some_iff.mp mark, var⟩

end Test

/-! ## Tests in any order -/

/-- The meaning of a word when the tests are made in a given order. -/
def meaningBy (order : List Test) (v : Vocabulary) (w : Word) : Except Error Meaning :=
  (order.findSome? (Test.verdict? v w)).getD (.error (.unknown w))

variable {v : Vocabulary} {w : Word}

theorem meaningBy_cons (t : Test) (order : List Test) :
    meaningBy (t :: order) v w = (t.verdict? v w).getD (meaningBy order v w) := by
  rw [meaningBy, List.findSome?_cons]
  cases t.verdict? v w <;> rfl

theorem meaningBy_nil : meaningBy [] v w = .error (.unknown w) := rfl

/-- The tests in turn give the meaning, in every vocabulary. -/
theorem meaningBy_inTurn (v : Vocabulary) (w : Word) : meaningBy Test.inTurn v w = meaning v w := by
  simp only [Test.inTurn, meaningBy_cons, meaningBy_nil]
  cases h : meaning v w with
  | ok m =>
      rcases meaning_cases h with ⟨numeral, rfl⟩ | ⟨numeral, code, found, rfl⟩ |
        ⟨numeral, var, rfl⟩ | ⟨numeral, missing, x, rfl, var, rfl⟩
      · rw [Test.verdict?, if_pos numeral, Option.getD_some]
      · rw [Test.verdict?_numeral_eq_none numeral, Test.verdict?, found]
        rfl
      · have missing := (isVariable_eq_true_iff.mp var).2
        rw [Test.verdict?_numeral_eq_none numeral, Test.verdict?_operation_eq_none missing,
          Test.verdict?, Test.verdictOn?_of_isVariable var]
        rfl
      · rw [Test.verdict?_numeral_eq_none numeral, Test.verdict?_operation_eq_none missing,
          Test.verdict?_fetch_eq_none (by simp) (isVariable_mark v x), Test.verdict?_store_mark,
          Test.verdictOn?_of_isVariable var]
        rfl
  | error e =>
      obtain ⟨⟨numeral, missing, notVariable, notStore⟩, rfl⟩ := meaning_error_cases h
      rw [Test.verdict?_numeral_eq_none numeral,
        Test.verdict?_operation_eq_none (not_mem_iff_getElem?.mp missing)]
      by_cases noName : w.name = []
      · rw [if_pos noName]
        rcases name_eq_nil_iff.mp noName with rfl | rfl
        · rfl
        · -- The mark alone is no variable, and what stands before it is the empty name.
          rw [Test.verdict?_fetch_eq_none (by simp) notVariable]
          rfl
      · have nonempty : w ≠ [] := fun empty => noName (name_eq_nil_iff.mpr (.inl empty))
        rw [if_neg noName, Test.verdict?_fetch_eq_none nonempty notVariable,
          Test.verdict?_store_eq_none noName notStore]
        rfl

/-! ## The language's own vocabulary -/

theorem meaning_of_name_eq_nil (h : w.name = []) : meaning .standard w = .error .empty := by
  cases hm : meaning .standard w with
  | ok m => exact absurd h (name_ne_nil_of_grammatical (grammatical_iff.mpr ⟨m, hm⟩))
  | error e =>
      obtain ⟨_, error⟩ := meaning_error_cases hm
      rw [error, if_pos h]

/-- Every verdict of every test is the right one. -/
theorem meaning_of_verdict? {t : Test} {r : Except Error Meaning}
    (h : t.verdict? .standard w = some r) : meaning .standard w = r := by
  cases t with
  | numeral =>
      rw [Test.verdict?] at h
      split at h
      next numeral => rw [meaning_of_isNumeral numeral, Option.some.inj h]
      next => cases h
  | operation =>
      obtain ⟨code, found, rfl⟩ := Option.map_eq_some_iff.mp h
      exact meaning_of_operation (Vocabulary.isNumeral_eq_false_of_standard found) found
  | fetch =>
      rcases Test.verdictOn?_cases h with ⟨rfl, rfl⟩ | ⟨var, rfl⟩
      · exact meaning_of_name_eq_nil rfl
      · exact meaning_of_isVariable var
  | store =>
      rw [Test.verdict?] at h
      split at h
      next empty =>
        rw [List.isEmpty_iff.mp empty, ← Option.some.inj h]
        exact meaning_of_name_eq_nil rfl
      next =>
        obtain ⟨x, mark, h⟩ := Option.bind_eq_some_iff.mp h
        rw [target?_eq_some_iff.mp mark]
        rcases Test.verdictOn?_cases h with ⟨rfl, rfl⟩ | ⟨var, rfl⟩
        · exact meaning_of_name_eq_nil (name_mark [])
        · exact meaning_mark var (Vocabulary.standard_mark x)

/-- Tests in any order, none of them left out, give the meaning. -/
theorem meaningBy_standard {order : List Test} (complete : ∀ t, t ∈ order) :
    meaningBy order .standard w = meaning .standard w := by
  rw [meaningBy]
  cases first : order.findSome? (Test.verdict? .standard w) with
  | some r =>
      obtain ⟨t, _, verdict⟩ := List.exists_of_findSome?_eq_some first
      exact (meaning_of_verdict? verdict).symm
  | none =>
      -- No test has a verdict, whether in this order or in the usual one.
      have silent : Test.inTurn.findSome? (Test.verdict? .standard w) = none :=
        List.findSome?_eq_none_iff.mpr fun t _ =>
          List.findSome?_eq_none_iff.mp first t (complete t)
      rw [← meaningBy_inTurn, meaningBy, silent]

-- A numeral that has code of its own is of two kinds.
example : let v := Vocabulary.standard.define ['7'] [['x']]
    meaning v ['7'] = .ok (.push ['7']) ∧
      meaningBy [.operation, .numeral, .fetch, .store] v ['7'] = .ok (.operation [['x']]) := by
  decide +kernel

theorem Test.Passes.unique {s t : Test} (hs : s.Passes .standard w) (ht : t.Passes .standard w) :
    s = t := by
  obtain ⟨m, verdict, rfl⟩ := verdict?_of_passes hs
  obtain ⟨m', verdict', rfl⟩ := verdict?_of_passes ht
  have same := (meaning_of_verdict? verdict).symm.trans (meaning_of_verdict? verdict')
  rw [Except.ok.inj same]

/-! ## All vocabularies -/

theorem Test.not_passes_numeral_fetch : ¬ (numeral.Passes v w ∧ fetch.Passes v w) := by
  rintro ⟨isNumeral, var⟩
  have shape := (isVariable_eq_true_iff.mp var).1
  rw [Passes, isNumeral_eq_false_of_hasNameShape shape] at isNumeral
  cases isNumeral

end Word

namespace Code

open Word (Test)

/-! ## Code -/

/-- The code of a list of words when the tests are made in a given order. -/
def generateBy (order : List Test) (v : Vocabulary) : List Word → Code
  | [] => ⟨[], none⟩
  | w :: ws =>
      match w.meaningBy order v with
      | .error e => ⟨[], some e⟩
      | .ok m =>
          let rest := generateBy order v ws
          ⟨m.lines ++ rest.lines, rest.error?⟩

/-- Code depends on the order of the tests as far as the meanings of the words do. -/
theorem generateBy_eq_generate {order : List Test} {v : Vocabulary}
    (same : ∀ w : Word, w.meaningBy order v = w.meaning v) (ws : List Word) :
    generateBy order v ws = generate v ws := by
  induction ws with
  | nil => rfl
  | cons w ws ih =>
      cases h : w.meaning v with
      | error e => rw [generate_cons_of_error h, generateBy, same, h]
      | ok m => rw [generate_cons_of_meaning h, generateBy, same, h, ih]

/-- The order of the tests does not matter.  In the language's own vocabulary a word passes one test
at most, and each of the orders in which the four can be made gives the lines and the error that the
usual order gives, for any words.  This includes the two words about the empty name, of which it
cannot be asked whether they are variables.  In every vocabulary a test gives a meaning to the words
that pass it, the usual order is the one by which code is generated, no numeral is a variable, and
no word with a mark behind it is either. -/
theorem order_of_tests_does_not_matter :
    (∀ (w : Word) (s t : Test), s.Passes .standard w → t.Passes .standard w → s = t) ∧
    (∀ order : List Test, order.Perm Test.inTurn →
      ∀ ws, generateBy order .standard ws = generate .standard ws) ∧
    ∀ v : Vocabulary,
      (∀ (w : Word) (t : Test), t.Passes v w ↔ ∃ m, t.verdict? v w = some (.ok m)) ∧
      (∀ ws, generateBy Test.inTurn v ws = generate v ws) ∧
      ∀ w : Word, ¬ (Test.numeral.Passes v w ∧ Test.fetch.Passes v w) ∧
        ¬ Test.numeral.Passes v (w ++ ['!']) ∧ ¬ Test.fetch.Passes v (w ++ ['!']) := by
  refine ⟨fun w s t => Test.Passes.unique, ?_, fun v => ⟨?_, ?_, fun w => ⟨?_, ?_, ?_⟩⟩⟩
  · intro order perm ws
    have complete : ∀ t, t ∈ order := fun t => perm.mem_iff.mpr (Test.mem_inTurn t)
    exact generateBy_eq_generate (fun w => Word.meaningBy_standard complete) ws
  · intro w t
    constructor
    · intro passes
      obtain ⟨m, verdict, _⟩ := Test.verdict?_of_passes passes
      exact ⟨m, verdict⟩
    · rintro ⟨m, verdict⟩
      exact Test.passes_of_verdict? verdict
  · exact generateBy_eq_generate fun w => Word.meaningBy_inTurn v w
  · exact Test.not_passes_numeral_fetch
  · exact Bool.eq_false_iff.mp (Word.isNumeral_mark w)
  · exact Bool.eq_false_iff.mp (Word.isVariable_mark v w)

/-- The tests made backwards, on a store, an operation, a numeral and a word that passes none. -/
theorem code_of_tests_made_backwards :
    let order : List Test := [.store, .fetch, .operation, .numeral]
    let ws := ["x!".toList, "nl".toList, "-7".toList, "!".toList, "x".toList]
    order.Perm Test.inTurn ∧ Test.store.Passes .standard "x!".toList ∧
      (∀ t : Test, t.Passes .standard "x!".toList → t = .store) ∧
      generateBy order .standard ws =
        ⟨["    local.set $x".toList, "    i32.const 10".toList, "    call $emit".toList,
          "    i32.const -7".toList], some .empty⟩ := by
  intro order ws
  obtain ⟨unique, orders, _⟩ := order_of_tests_does_not_matter
  have perm : order.Perm Test.inTurn := by decide
  have passes : Test.store.Passes .standard "x!".toList := ⟨['x'], rfl, by decide +kernel⟩
  refine ⟨perm, passes, fun t ht => unique _ t .store ht passes, ?_⟩
  rw [orders order perm ws]
  decide +kernel

end Code

end TinyForth
