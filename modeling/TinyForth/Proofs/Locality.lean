import TinyForth.Proofs.Generation

/-!
# Changing one word of a vocabulary

Defining a word or taking it away changes a vocabulary at that word and nowhere else
(`AgreeOff`).  A pass looks a word up under two names, the word as it stands and what comes
before its mark.  So the only other word that can notice the change is the changed word with a
mark behind it, and it can only by way of the question whether its target is a variable.

That question is about names.  If the changed word is not shaped like one, the answer is no in
either vocabulary (`isVariable_of_agreeOff`).  And if it is a numeral, the word itself is never
looked up, since the test for numerals comes first.  The two passes then follow from what they
ask of each word (`variablesIn_congr`, `generate_congr`).
-/

namespace TinyForth

namespace Vocabulary

/-! ## One word changed -/

/-- The two vocabularies give the same code to every word but one. -/
def AgreeOff (w : Text) (v v' : Vocabulary) : Prop := ∀ x, x ≠ w → v'[x]? = v[x]?

theorem agreeOff_define (v : Vocabulary) (w : Text) (code : List Text) :
    AgreeOff w v (v.define w code) := by
  intro x ne
  rw [define, Std.ExtTreeMap.getElem?_insert, if_neg]
  exact fun same => ne (Std.LawfulEqCmp.eq_of_compare same).symm

theorem agreeOff_forget (v : Vocabulary) (w : Text) : AgreeOff w v (v.forget w) := by
  intro x ne
  rw [forget, Std.ExtTreeMap.getElem?_erase, if_neg]
  exact fun same => ne (Std.LawfulEqCmp.eq_of_compare same).symm

end Vocabulary

namespace Word

open Vocabulary (AgreeOff)

variable {v v' : Vocabulary} {w : Word}

/-! ## What a pass asks of a word -/

theorem hasNameShape_iff {x : Word} : hasNameShape x = true ↔
    (∃ c, x.head? = some c ∧ Text.isLetter c = true) ∧
      ∀ c ∈ x, Text.isAlphanumeric c = true := by
  constructor
  · intro shape
    refine ⟨?_, isAlphanumeric_of_hasNameShape shape⟩
    cases x with
    | nil => cases shape
    | cons c cs => exact ⟨c, rfl, (Bool.and_eq_true_iff.mp shape).1⟩
  · rintro ⟨⟨c, first, letter⟩, all⟩
    obtain ⟨cs, rfl⟩ := List.head?_eq_some_iff.mp first
    exact Bool.and_eq_true_iff.mpr
      ⟨letter, List.all_eq_true.mpr (List.forall_mem_cons.mp all).2⟩

theorem isVariable_congr {x : Word} (same : v'[x]? = v[x]?) :
    isVariable v' x = isVariable v x := by
  rw [isVariable, isVariable, Std.ExtTreeMap.contains_eq_isSome_getElem?, same,
    Std.ExtTreeMap.contains_eq_isSome_getElem?]

/-- Only the changed word can become a variable or cease to be one, and only if it is shaped like a
name. -/
theorem isVariable_of_agreeOff (agree : AgreeOff w v v') {x : Word}
    (h : x ≠ w ∨ hasNameShape w = false) : isVariable v' x = isVariable v x := by
  by_cases same : x = w
  · have shapeless := h.resolve_left (not_not.mpr same)
    rw [same, isVariable, isVariable, shapeless, Bool.false_and, Bool.false_and]
  · exact isVariable_congr (agree x same)

theorem checkVariable_congr {x : Word} (same : isVariable v' x = isVariable v x) :
    checkVariable v' x = checkVariable v x := by
  rw [checkVariable, same, checkVariable]

/-- The meaning of a word rests on its own code and on whether its target is a variable. -/
theorem meaning_congr {x : Word} (code : v'[x]? = v[x]?)
    (target : ∀ y, x = y ++ ['!'] → isVariable v' y = isVariable v y) :
    x.meaning v' = x.meaning v := by
  rw [meaning, meaning, code, checkVariable_congr (isVariable_congr code)]
  cases mark : x.target? with
  | none => rfl
  | some y => simp only [checkVariable_congr (target y (target?_eq_some_iff.mp mark))]

theorem meaning_of_agreeOff (agree : AgreeOff w v v') {x : Word}
    (itself : x ≠ w ∨ Numeral.isNumeral w = true)
    (marked : x ≠ w ++ ['!'] ∨ hasNameShape w = false) : x.meaning v' = x.meaning v := by
  by_cases same : x = w
  · have numeral := itself.resolve_left (not_not.mpr same)
    rw [same, meaning_of_isNumeral numeral, meaning_of_isNumeral numeral]
  · refine meaning_congr (agree x same) ?_
    rintro y rfl
    refine isVariable_of_agreeOff agree (marked.imp_left ?_)
    rintro ne rfl
    exact ne rfl

/-! ## The two passes -/

theorem variablesAmong_congr {xs : List Word}
    (h : ∀ x ∈ xs, isVariable v' x = isVariable v x) :
    variablesAmong v' xs = variablesAmong v xs := by
  induction xs with
  | nil => rfl
  | cons x xs ih =>
      obtain ⟨here, later⟩ := List.forall_mem_cons.mp h
      rw [variablesAmong, checkVariable_congr here, ih later, variablesAmong]

theorem variablesIn_congr {ws : List Word}
    (h : ∀ x ∈ ws, isVariable v' x.name = isVariable v x.name) :
    variablesIn v' ws = variablesIn v ws := by
  rw [variablesIn, variablesAmong_congr (List.forall_mem_map.mpr h), variablesIn]

theorem variablesIn_of_agreeOff (agree : AgreeOff w v v') {ws : List Word}
    (h : (w ∉ ws ∧ w ++ ['!'] ∉ ws) ∨ hasNameShape w = false) :
    variablesIn v' ws = variablesIn v ws := by
  refine variablesIn_congr fun x mem => isVariable_of_agreeOff agree (h.imp_left ?_)
  rintro ⟨absent, absentMark⟩ same
  rcases x.eq_name_or_mark with plain | mark
  · exact absent (same ▸ plain ▸ mem)
  · exact absentMark (same ▸ mark ▸ mem)

end Word

namespace Code

open Vocabulary (AgreeOff)

variable {v v' : Vocabulary} {w : Word}

theorem generate_congr {ws : List Word} (h : ∀ x ∈ ws, x.meaning v' = x.meaning v) :
    generate v' ws = generate v ws := by
  induction ws with
  | nil => rfl
  | cons x ws ih =>
      obtain ⟨here, later⟩ := List.forall_mem_cons.mp h
      rw [generate, here, ih later, generate]

theorem generate_of_agreeOff (agree : AgreeOff w v v') {ws : List Word}
    (itself : w ∉ ws ∨ Numeral.isNumeral w = true)
    (marked : w ++ ['!'] ∉ ws ∨ Word.hasNameShape w = false) :
    generate v' ws = generate v ws := by
  refine generate_congr fun x mem => Word.meaning_of_agreeOff agree ?_ ?_
  · exact itself.imp_left fun absent same => absent (same ▸ mem)
  · exact marked.imp_left fun absent same => absent (same ▸ mem)

end Code

namespace Vocabulary

open Word (variablesIn hasNameShape)

/-- Defining a word or taking it away is of no account to words that are neither this word nor
this word with a mark: the passes find the same variables, generate the same lines and fail the
same way.  If the word is not shaped like a name, the variables are the same for all words, and
the code is for those without the word itself.  If it is a numeral, both are the same for all
words.  A word that is no numeral does change: it is written as its new code. -/
theorem change_of_one_word_is_local (v : Vocabulary) (w : Word) (code : List Text) :
    (∀ v', v' = v.define w code ∨ v' = v.forget w →
      (∀ ws, w ∉ ws → w ++ ['!'] ∉ ws →
        variablesIn v' ws = variablesIn v ws ∧ Code.generate v' ws = Code.generate v ws) ∧
      (¬ ((∃ c, w.head? = some c ∧ Text.isLetter c = true) ∧
          ∀ c ∈ w, Text.isAlphanumeric c = true) →
        ∀ ws, variablesIn v' ws = variablesIn v ws ∧
          (w ∉ ws → Code.generate v' ws = Code.generate v ws)) ∧
      (Numeral.isNumeral w = true →
        ∀ ws, variablesIn v' ws = variablesIn v ws ∧
          Code.generate v' ws = Code.generate v ws)) ∧
    (Numeral.isNumeral w = false →
      Code.generate (v.define w code) [w] = ⟨code.map Wat.line, none⟩) := by
  constructor
  · intro v' change
    have agree : AgreeOff w v v' := by
      rcases change with rfl | rfl
      · exact agreeOff_define v w code
      · exact agreeOff_forget v w
    refine ⟨?_, ?_, ?_⟩
    · intro ws absent absentMark
      exact ⟨Word.variablesIn_of_agreeOff agree (.inl ⟨absent, absentMark⟩),
        Code.generate_of_agreeOff agree (.inl absent) (.inl absentMark)⟩
    · intro noName ws
      have shapeless : hasNameShape w = false :=
        Bool.eq_false_iff.mpr fun shape => noName (Word.hasNameShape_iff.mp shape)
      exact ⟨Word.variablesIn_of_agreeOff agree (.inr shapeless),
        fun absent => Code.generate_of_agreeOff agree (.inl absent) (.inr shapeless)⟩
    · intro numeral ws
      have shapeless : hasNameShape w = false := by
        refine Bool.eq_false_iff.mpr fun shape => ?_
        rw [Word.isNumeral_eq_false_of_hasNameShape shape] at numeral
        cases numeral
      exact ⟨Word.variablesIn_of_agreeOff agree (.inr shapeless),
        Code.generate_of_agreeOff agree (.inr numeral) (.inr shapeless)⟩
  · intro notNumeral
    have found : (v.define w code)[w]? = some code := by
      rw [define, Std.ExtTreeMap.getElem?_insert_self]
    rw [Code.generate_cons_of_meaning (Word.meaning_of_operation notNumeral found)]
    simp [Code.generate, Word.Meaning.lines]

/-- The changed word is a name that is only a part of the other words, then a word without the shape
of a name that stands among them with a mark, and then a numeral that is itself among them. -/
theorem changes_of_three_words :
    let code := ["drop".toList]
    let names := ["xx".toList, "x1!".toList, "!".toList]
    let marks := ["??".toList, "x".toList, "?!".toList]
    let numerals := ["7".toList, "x".toList, "7!".toList]
    (variablesIn (standard.define "x".toList code) names = variablesIn standard names ∧
      Code.generate (standard.forget "x".toList) names = Code.generate standard names) ∧
    Code.generate (standard.define "?".toList code) marks = Code.generate standard marks ∧
    Code.generate (standard.define "7".toList code) numerals =
      Code.generate standard numerals ∧
    Code.generate (standard.define "x".toList code) ["x".toList] = ⟨["    drop".toList], none⟩ := by
  intro code names marks numerals
  obtain ⟨name, itself⟩ := change_of_one_word_is_local standard "x".toList code
  obtain ⟨mark, _⟩ := change_of_one_word_is_local standard "?".toList code
  obtain ⟨numeral, _⟩ := change_of_one_word_is_local standard "7".toList code
  have absent : "x".toList ∉ names := by decide
  have absentMark : "x".toList ++ ['!'] ∉ names := by decide
  refine ⟨⟨((name _ (.inl rfl)).1 names absent absentMark).1,
    ((name _ (.inr rfl)).1 names absent absentMark).2⟩, ?_, ?_, itself (by decide +kernel)⟩
  · refine ((mark _ (.inl rfl)).2.1 ?_ marks).2 (by decide)
    rintro ⟨⟨c, first, letter⟩, _⟩
    cases first
    exact absurd letter (by decide +kernel)
  · exact ((numeral _ (.inl rfl)).2.2 (by decide +kernel) numerals).2

end Vocabulary

end TinyForth
