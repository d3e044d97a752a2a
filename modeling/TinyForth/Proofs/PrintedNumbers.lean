import TinyForth.Proofs.Console
import TinyForth.Proofs.Literal

/-!
# Printed numbers are read back

A number is printed by `render` and read by `value?`, and the two know nothing of each other.
`render` writes digits of ASCII after an optional sign, which `value?` reads back as long as
there are not too many of them (`value?_render`).  The space that the console prints behind a
number is padding, so it does not matter to the reader (`value?_append`).

With each number on a line of its own, the lines of the output are the numbers printed
(`lines_printed`).  Reading takes these lines off one by one and finds the end of the input
behind the last of them (`replies_to_reading_on`).
-/

namespace TinyForth

/-! ## Padding behind a text -/

namespace Text

theorem trim_append {drop : Char → Bool} (t : Text) {s : Text} (h : ∀ c ∈ s, drop c = true) :
    trim drop (t ++ s) = trim drop t := by
  have gone : s.dropWhile drop = [] := List.dropWhile_eq_nil_iff.mpr h
  have goneBack : ∀ c ∈ s.reverse, drop c = true := fun c mem => h c (List.mem_reverse.mp mem)
  rw [trim, trim, List.dropWhile_append]
  split
  next empty => rw [gone, List.isEmpty_iff.mp empty]
  next => rw [List.reverse_append, List.dropWhile_append_of_pos goneBack]

end Text

/-! ## Decimal digits -/

namespace Numeral

theorem value?_append (t : Text) {s : Text} (h : ∀ c ∈ s, Text.isPadding c = true) :
    value? (t ++ s) = value? t := by
  rw [value?, Text.trim_append t h, value?]

theorem digits?_of_isDigit {t : Text} (nonempty : t ≠ []) (h : ∀ c ∈ t, c.isDigit = true) :
    digits? t = some (digitValues t) := by
  have noUnderscore : '_' ∉ t := fun mem => absurd (h '_' mem) (by decide)
  have one : t.splitOn '_' = [t] := List.splitOn_eq_singleton noUnderscore
  have more := moreDigits?_of_groups one h (by simp)
  rw [List.flatten_singleton] at more
  cases t with
  | nil => exact absurd rfl nonempty
  | cons c t =>
      have notFirst : c ≠ '_' := fun same => noUnderscore (same ▸ List.mem_cons_self ..)
      rw [digits?_eq_moreDigits? notFirst, more]

theorem ofDigits_digitValues (t : Text) : ofDigits (digitValues t) = Nat.ofDigitChars 10 t 0 := by
  rw [ofDigits, digitValues, List.foldl_map]
  rfl

theorem isDigit_of_mem_toDigits {n : Nat} : ∀ c ∈ Nat.toDigits 10 n, c.isDigit = true :=
  fun _ mem => Nat.isDigit_of_mem_toDigits (by decide) (by decide) mem

theorem magnitude?_toDigits {n : Nat} (short : (Nat.toDigits 10 n).length ≤ maxDigits) :
    magnitude? (Nat.toDigits 10 n) = some n := by
  have length : (digitValues (Nat.toDigits 10 n)).length ≤ maxDigits := by
    rwa [digitValues, List.length_map]
  rw [magnitude?, digits?_of_isDigit Nat.toDigits_ne_nil isDigit_of_mem_toDigits,
    Option.bind_some, if_pos length, ofDigits_digitValues, Nat.ofDigitChars_ten_toDigits]

/-- Digits and underscores alone are read without a sign. -/
theorem signed?_of_isDigitChar {t : Text} (h : ∀ c ∈ t, isDigitChar c = true) :
    signed? t = (magnitude? t).map fun n : Nat => (n : Int) := by
  have plus : ∀ u, t = '+' :: u → False := by
    rintro u rfl
    exact absurd (h '+' (List.mem_cons_self ..)) (by decide)
  have minus : ∀ u, t = '-' :: u → False := by
    rintro u rfl
    exact absurd (h '-' (List.mem_cons_self ..)) (by decide)
  rw [signed?.eq_3 t plus minus]

/-! ## Writing and reading a number -/

theorem isDigitChar_of_mem_toDigits {n : Nat} : ∀ c ∈ Nat.toDigits 10 n, isDigitChar c = true :=
  fun c mem => isDigitChar_of_digit? (Text.digit?_of_isDigit (isDigit_of_mem_toDigits c mem))

theorem isPadding_eq_false_of_mem_render (n : Int) : ∀ c ∈ render n, Text.isPadding c = false := by
  have digits : ∀ m : Nat, ∀ c ∈ Nat.toDigits 10 m, Text.isPadding c = false := fun _ c mem =>
    isPadding_eq_false_of_isDigitChar (isDigitChar_of_mem_toDigits c mem)
  cases n with
  | ofNat m => exact digits m
  | negSucc m => exact List.forall_mem_cons.mpr ⟨by decide, digits (m + 1)⟩

theorem signed?_render {n : Int} (short : (Nat.toDigits 10 n.natAbs).length ≤ maxDigits) :
    signed? (render n) = some n := by
  cases n with
  | ofNat m =>
      rw [render, signed?_of_isDigitChar isDigitChar_of_mem_toDigits,
        magnitude?_toDigits (n := m) short]
      rfl
  | negSucc m =>
      rw [render, signed?, magnitude?_toDigits (n := m + 1) short]
      rfl

/-- A number that is not too long is read as it was written. -/
theorem value?_render {n : Int} (short : (Nat.toDigits 10 n.natAbs).length ≤ maxDigits) :
    value? (render n) = some n := by
  rw [value?, Text.trim_of_forall (isPadding_eq_false_of_mem_render n), signed?_render short]

theorem noLineEnd_render (n : Int) : Text.NoLineEnd (render n) := by
  intro c mem
  have solid := isPadding_eq_false_of_mem_render n c mem
  constructor
  · rintro rfl
    exact absurd solid (by decide)
  · rintro rfl
    exact absurd solid (by decide)

end Numeral

namespace Console

/-! ## Reading to the end -/

/-- Reading each line and then once more gives the number of each line and then the end of the
input. -/
theorem replies_to_reading_on {console : Console} {lines : List Text}
    (h : console.Remains lines 0) :
    (console.run (List.replicate (lines.length + 1) .input)).2 =
      lines.map (fun line => { result := .ok (some ((Numeral.value? line).getD 0)) }) ++
        [{ result := .error .endOfInput }] := by
  induction lines generalizing console with
  | nil =>
      rcases call_input_cases h with ⟨_, reply⟩ | ⟨_, _, found, _⟩
      · rw [List.length_nil, List.replicate_one, run_cons, reply]
        rfl
      · cases found
  | cons line later ih =>
      rcases call_input_cases h with ⟨past, _⟩ | ⟨_, rest, found, left, reply⟩
      · exact absurd past (by simp)
      · cases found
        have remains : Remains { console with unread := rest.unifyLineEnds } later 0 :=
          ⟨rest, rfl, left⟩
        rw [List.length_cons, List.replicate_succ, run_cons, reply, ih remains, List.map_cons,
          List.cons_append]

/-! ## Numbers on lines of their own -/

/-- Numbers as they are printed, each with a newline behind it. -/
def printed (ns : List Int) : Text := ns.flatMap fun n => Numeral.render n ++ [' '] ++ ['\n']

theorem written_printed (console : Console) (ns : List Int) :
    (console.run (ns.flatMap fun n => [.print n, .emit 10])).1.written =
      console.written ++ printed ns := by
  induction ns generalizing console with
  | nil => simp [printed, run]
  | cons n ns ih =>
      have newline : character 10 = .ok '\n' := rfl
      simp [run_cons, ih, call, put, newline, printed]

theorem lines_printed (ns : List Int) :
    Text.Lines (printed ns) (ns.map fun n => Numeral.render n ++ [' ']) := by
  induction ns with
  | nil => exact .none
  | cons n ns ih =>
      have plain : Text.NoLineEnd (Numeral.render n ++ [' ']) :=
        List.forall_mem_append.mpr ⟨Numeral.noLineEnd_render n, by simp⟩
      have first : printed (n :: ns) = (Numeral.render n ++ [' ']) ++ (['\n'] ++ printed ns) := by
        rw [printed, List.flatMap_cons, List.append_assoc, printed]
      rw [first]
      exact .ended plain (.feed _) ih

/-- What is printed is read back.  The output of printing numbers, each on a line of its own, is
an input from which as many calls as there are numbers read these numbers in their order, and one
more call finds the end. -/
theorem printed_numbers_are_read_back (ns : List Int) (stdin : Text)
    (short : ∀ n ∈ ns, (Nat.toDigits 10 n.natAbs).length ≤ 4300) :
    let output := ((start stdin).run (ns.flatMap fun n => [.print n, .emit 10])).1.written
    ((start output).run (List.replicate (ns.length + 1) .input)).2 =
      ns.map (fun n => { result := .ok (some n) }) ++ [{ result := .error .endOfInput }] := by
  intro output
  have written : output = printed ns := written_printed (start stdin) ns
  have replies := replies_to_reading_on (remains_start (lines_printed ns))
  rw [List.length_map, List.map_map] at replies
  rw [written, replies]
  congr 1
  refine List.map_congr_left fun n mem => ?_
  have value : Numeral.value? (Numeral.render n ++ [' ']) = some n := by
    rw [Numeral.value?_append _ (List.forall_mem_singleton.mpr (by decide))]
    exact Numeral.value?_render (short n mem)
  rw [Function.comp_apply, value, Option.getD_some]

/-- A number beyond a cell, zero and a negative number, printed by a program that had an input of
its own. -/
theorem three_printed_numbers_are_read_back :
    let ns : List Int := [4294967296, 0, -70]
    let output := ((start ['x']).run (ns.flatMap fun n => [.print n, .emit 10])).1.written
    (∀ n ∈ ns, (Nat.toDigits 10 n.natAbs).length ≤ 4300) ∧
      output = "4294967296 \n0 \n-70 \n".toList ∧
      ((start output).run [.input, .input, .input, .input]).2 =
        [{ result := .ok (some 4294967296) }, { result := .ok (some 0) },
          { result := .ok (some (-70)) }, { result := .error .endOfInput }] := by
  intro ns output
  have short : ∀ n ∈ ns, (Nat.toDigits 10 n.natAbs).length ≤ 4300 := by decide
  exact ⟨short, by decide, printed_numbers_are_read_back ns ['x'] short⟩

end Console

end TinyForth
