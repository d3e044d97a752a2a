import Mathlib.Data.List.Forall2
import TinyForth.Compiler
import TinyForth.Proofs.Grammar

/-!
# The two passes over the words

What the pass that collects the variables and the pass that generates the code do with a
list of words.  The code of words in the grammar is their translations one after the other,
and the first word outside the grammar ends the pass with its error.  The variables are the
names that pass the test, each once, and only an empty name ends that pass.
-/

namespace TinyForth

/-! ## Generating code -/

namespace Code

open Word (Translates Grammatical)

theorem generate_cons_of_meaning {v : Vocabulary} {w : Word} {ws : List Word} {m : Word.Meaning}
    (h : w.meaning v = .ok m) :
    generate v (w :: ws) = ⟨m.lines ++ (generate v ws).lines, (generate v ws).error?⟩ := by
  rw [generate, h]

theorem generate_cons_of_error {v : Vocabulary} {w : Word} {ws : List Word} {e : Word.Error}
    (h : w.meaning v = .error e) : generate v (w :: ws) = ⟨[], some e⟩ := by
  rw [generate, h]

theorem generate_error?_eq_none_iff {v : Vocabulary} {ws : List Word} :
    (generate v ws).error? = none ↔ ∀ w ∈ ws, Grammatical v w := by
  induction ws with
  | nil => simp [generate]
  | cons w ws ih =>
      rw [List.forall_mem_cons]
      cases h : w.meaning v with
      | error e =>
          rw [generate_cons_of_error h]
          constructor
          · intro none
            cases none
          · intro all
            exact absurd all.1 (Word.not_grammatical_of_meaning_error h)
      | ok m =>
          rw [generate_cons_of_meaning h, ih]
          constructor
          · intro all
            exact ⟨Word.grammatical_iff.mpr ⟨m, h⟩, all⟩
          · intro all
            exact all.2

/-- The words that have a meaning are written in turn, up to the first that has none. -/
theorem generate_cases (v : Vocabulary) (ws : List Word) :
    ∃ done ms rest, ws = done ++ rest ∧ List.Forall₂ (fun w m => w.meaning v = .ok m) done ms ∧
      (generate v ws).lines = (ms.map Word.Meaning.lines).flatten ∧
      (rest = [] ∧ (generate v ws).error? = none ∨
        ∃ w later e, rest = w :: later ∧ w.meaning v = .error e ∧
          (generate v ws).error? = some e) := by
  induction ws with
  | nil => exact ⟨[], [], [], rfl, .nil, rfl, .inl ⟨rfl, rfl⟩⟩
  | cons w ws ih =>
      cases h : w.meaning v with
      | error e =>
          rw [generate_cons_of_error h]
          exact ⟨[], [], w :: ws, rfl, .nil, rfl, .inr ⟨w, ws, e, rfl, h, rfl⟩⟩
      | ok m =>
          obtain ⟨done, ms, rest, split, meanings, lines, stop⟩ := ih
          rw [generate_cons_of_meaning h]
          refine ⟨w :: done, m :: ms, rest, ?_, .cons h meanings, ?_, stop⟩
          · rw [split, List.cons_append]
          · rw [lines, List.map_cons, List.flatten_cons]

/-- Generated code is the translations of the words in their order. -/
theorem exists_translations {v : Vocabulary} {ws : List Word}
    (h : (generate v ws).error? = none) :
    ∃ ts, List.Forall₂ (Translates v) ws ts ∧ (generate v ws).lines = ts.flatten := by
  obtain ⟨done, ms, rest, split, meanings, lines, ⟨rfl, _⟩ | ⟨_, _, _, _, _, failed⟩⟩ :=
    generate_cases v ws
  · refine ⟨ms.map Word.Meaning.lines, ?_, lines⟩
    rw [split, List.append_nil]
    exact List.forall₂_map_right_iff.mpr
      (meanings.imp fun _ _ h => (Word.writtenAs_of_meaning h).translates)
  · rw [h] at failed
    cases failed

/-- The translations of a list of words of the language are the ones that are generated. -/
theorem generate_of_translates {ws : List Word} {ts : List (List Text)}
    (h : List.Forall₂ (Translates .standard) ws ts) :
    generate .standard ws = ⟨ts.flatten, none⟩ := by
  induction h with
  | nil => rfl
  | cons hw _ ih =>
      obtain ⟨m, hm, rfl⟩ := Word.writtenAs_iff_meaning.mp (Word.translates_standard_iff.mp hw)
      rw [generate_cons_of_meaning hm, ih, List.flatten_cons]

theorem grammatical_of_meanings {v : Vocabulary} {ws : List Word} {ms : List Word.Meaning}
    (h : List.Forall₂ (fun w m => w.meaning v = .ok m) ws ms) : ∀ w ∈ ws, Grammatical v w := by
  induction h with
  | nil => simp
  | cons hw _ ih => exact List.forall_mem_cons.mpr ⟨Word.grammatical_iff.mpr ⟨_, hw⟩, ih⟩

/-- An error is that of a word with only words of the grammar before it. -/
theorem error_of_generate {v : Vocabulary} {ws : List Word} {e : Word.Error}
    (h : (generate v ws).error? = some e) :
    ∃ before w after, ws = before ++ w :: after ∧ (∀ b ∈ before, Grammatical v b) ∧
      w.meaning v = .error e := by
  obtain ⟨done, ms, rest, split, meanings, _, ⟨_, noError⟩ | ⟨w, later, e', rfl, bad, failed⟩⟩ :=
    generate_cases v ws
  · rw [h] at noError
    cases noError
  · obtain rfl : e = e' := Option.some.inj (h.symm.trans failed)
    exact ⟨done, w, later, split, grammatical_of_meanings meanings, bad⟩

end Code

/-! ## Collecting variables -/

namespace Word

theorem variablesAmong_of_forall {v : Vocabulary} {xs : List Word} (h : ∀ x ∈ xs, x ≠ []) :
    variablesAmong v xs = .ok (xs.filter (isVariable v)) := by
  induction xs with
  | nil => rfl
  | cons x xs ih =>
      obtain ⟨nonempty, later⟩ := List.forall_mem_cons.mp h
      rw [variablesAmong, checkVariable_of_ne_nil v nonempty, ih later, List.filter_cons]
      rfl

theorem variablesAmong_of_mem {v : Vocabulary} {xs : List Word} (h : [] ∈ xs) :
    variablesAmong v xs = .error .empty := by
  induction xs with
  | nil => cases h
  | cons x xs ih =>
      by_cases empty : x = []
      · rw [empty]
        rfl
      · have later := (List.mem_cons.mp h).resolve_left (Ne.symm empty)
        rw [variablesAmong, checkVariable_of_ne_nil v empty, ih later]
        rfl

section

variable {v : Vocabulary} {ws names : List Word} {listing : Listing}

theorem variablesIn_of_names (h : ∀ w ∈ ws, w.name ≠ []) :
    variablesIn v ws listing = .ok (listing.list ((ws.map name).filter (isVariable v))) := by
  rw [variablesIn, variablesAmong_of_forall (List.forall_mem_map.mpr h)]
  rfl

theorem variablesIn_of_empty_name {w : Word} (mem : w ∈ ws) (h : w.name = []) :
    variablesIn v ws listing = .error .empty := by
  rw [variablesIn, variablesAmong_of_mem (List.mem_map.mpr ⟨w, mem, h⟩)]
  rfl

/-- The variables are found if no word is about the empty name. -/
theorem name_ne_nil_of_variablesIn (h : variablesIn v ws listing = .ok names) :
    ∀ w ∈ ws, w.name ≠ [] := by
  intro w mem noName
  rw [variablesIn_of_empty_name mem noName] at h
  cases h

theorem eq_list_of_variablesIn (h : variablesIn v ws listing = .ok names) :
    names = listing.list ((ws.map name).filter (isVariable v)) := by
  rw [variablesIn_of_names (name_ne_nil_of_variablesIn h)] at h
  exact (Except.ok.inj h).symm

theorem mem_of_variablesIn {x : Word} (h : variablesIn v ws listing = .ok names) :
    x ∈ names ↔ isVariable v x = true ∧ (x ∈ ws ∨ x ++ ['!'] ∈ ws) := by
  rw [eq_list_of_variablesIn h, listing.mem_list, List.mem_filter, List.mem_map, and_comm]
  refine and_congr_right fun var => ?_
  constructor
  · rintro ⟨w, mem, rfl⟩
    rcases w.eq_name_or_mark with plain | mark
    · exact Or.inl (plain ▸ mem)
    · exact Or.inr (mark ▸ mem)
  · rintro (mem | mem)
    · have shape := (isVariable_eq_true_iff.mp var).1
      exact ⟨x, mem, name_eq_self (mark_not_mem_of_hasNameShape shape)⟩
    · exact ⟨x ++ ['!'], mem, name_mark x⟩

theorem nodup_of_variablesIn (h : variablesIn v ws listing = .ok names) : names.Nodup := by
  rw [eq_list_of_variablesIn h]
  exact listing.nodup_list _

end

end Word

end TinyForth
