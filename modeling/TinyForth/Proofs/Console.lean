import TinyForth.Console
import TinyForth.Proofs.Lines

/-!
# The console as a stream machine

The console reads one stream and writes another, and the two do not meet.  What a call gets for
a reply (`Answers`) depends on the call, on the lines of the input, and on how many lines were
asked for before it (`call_answers`).  A call that reads takes one line off what is left
(`call_remains`), and so does each of those in a sequence of calls (`run_remains`), whatever
fails on the way.

So the numbers read are those of the lines in their order, with whatever calls in between.  The
output is that of the calls one after the other, with whatever input.  A call that fails might
as well not have been made.
-/

namespace TinyForth

/-! ## Decimal numerals -/

namespace Numeral

/-- The text is the decimal numeral of the number: its digits without zeros in front, after a
minus sign if the number is negative. -/
def IsDecimal (x : Int) (t : Text) : Prop :=
  ∃ ds : List Nat, ds ≠ [] ∧ (∀ d ∈ ds, d < 10) ∧ (ds.head? = some 0 → ds = [0]) ∧
    ofDigits ds = x.natAbs ∧ t = (if x < 0 then ['-'] else []) ++ ds.map Nat.digitChar

theorem ofDigits_append (ds : List Nat) (d : Nat) :
    ofDigits (ds ++ [d]) = 10 * ofDigits ds + d := by
  simp [ofDigits]

theorem exists_digits (n : Nat) :
    ∃ ds : List Nat, ds ≠ [] ∧ (∀ d ∈ ds, d < 10) ∧ (ds.head? = some 0 → ds = [0]) ∧
      ofDigits ds = n ∧ Nat.toDigits 10 n = ds.map Nat.digitChar := by
  induction n using Nat.strongRecOn with
  | _ n ih =>
    by_cases small : n < 10
    · exact ⟨[n], by simp, by simpa using small, by simp, by simp [ofDigits],
        by rw [Nat.toDigits_of_lt_base small]; rfl⟩
    · obtain ⟨ds, nonempty, digits, leading, value, text⟩ := ih (n / 10) (by omega)
      -- A leading zero would be all there is, but the number has two digits or more.
      have positive : ds.head? ≠ some 0 := by
        intro zero
        rw [leading zero, ofDigits] at value
        simp at value
        omega
      refine ⟨ds ++ [n % 10], by simp, ?_, ?_, ?_, ?_⟩
      · rw [List.forall_mem_append]
        exact ⟨digits, by simpa using Nat.mod_lt n (by decide)⟩
      · intro zero
        rw [List.head?_append, List.head?_eq_some_head nonempty, Option.some_or,
          ← List.head?_eq_some_head nonempty] at zero
        exact absurd zero positive
      · rw [ofDigits_append, value]
        omega
      · rw [Nat.toDigits_of_base_le (by decide) (by omega), text, List.map_append]
        rfl

theorem isDecimal_render (x : Int) : IsDecimal x (render x) := by
  cases x with
  | ofNat n =>
      obtain ⟨ds, nonempty, digits, leading, value, text⟩ := exists_digits n
      refine ⟨ds, nonempty, digits, leading, value, ?_⟩
      rw [render, text, if_neg (by simp)]
      rfl
  | negSucc n =>
      obtain ⟨ds, nonempty, digits, leading, value, text⟩ := exists_digits (n + 1)
      refine ⟨ds, nonempty, digits, leading, value, ?_⟩
      rw [render, text, if_pos (Int.negSucc_lt_zero n)]
      rfl

end Numeral

/-- The number that a call hands over fits a cell. -/
def Call.FitsCell : Call → Prop
  | .emit x => -0x80000000 ≤ x ∧ x ≤ 0x7FFFFFFF
  | .print x => -0x80000000 ≤ x ∧ x ≤ 0x7FFFFFFF
  | .input => True

namespace Console

/-! ## The replies -/

/-- The reply that a call is to get, when so many calls before it have asked for a line. -/
inductive Answers (lines : List Text) (asked : Nat) : Call → Reply → Prop where
  /-- The next line is a numeral. -/
  | numeral {line : Text} {n : Int} : lines[asked]? = some line → Numeral.value? line = some n →
      Answers lines asked .input { result := .ok (some n) }
  /-- The next line is not a numeral. -/
  | malformed {line : Text} : lines[asked]? = some line → Numeral.value? line = none →
      Answers lines asked .input { result := .ok (some 0) }
  /-- There is no next line. -/
  | ended : lines.length ≤ asked → Answers lines asked .input { result := .error .endOfInput }
  /-- The code is that of a character. -/
  | character (c : Char) : Answers lines asked (.emit c.toNat) { out := [c] }
  /-- The code is outside the range of code points. -/
  | noCodePoint {x : Int} : x < 0 ∨ 0x10FFFF < x →
      Answers lines asked (.emit x) { result := .error .noCodePoint }
  /-- The code is a surrogate. -/
  | surrogate {n : Nat} : 0xD800 ≤ n → n ≤ 0xDFFF →
      Answers lines asked (.emit n) { result := .error (.surrogate n) }
  /-- The numeral and a space are written. -/
  | printed {x : Int} {t : Text} : Numeral.IsDecimal x t →
      Answers lines asked (.print x) { out := t ++ [' '] }

/-- What the console has left to read is the lines after the first few. -/
def Remains (console : Console) (lines : List Text) (asked : Nat) : Prop :=
  ∃ rest : Text, console.unread = rest.unifyLineEnds ∧ Text.Lines rest (lines.drop asked)

theorem remains_start {stdin : Text} {lines : List Text} (h : Text.Lines stdin lines) :
    (start stdin).Remains lines 0 :=
  ⟨stdin, rfl, h⟩

theorem emit_answers (console : Console) (lines : List Text) (asked : Nat) {x : Int}
    (fits : (Call.emit x).FitsCell) :
    Answers lines asked (.emit x) (console.call (.emit x)).2 := by
  obtain ⟨low, high⟩ := fits
  by_cases outside : x < 0 ∨ 0x10FFFF < x
  · have none : character x = .error .noCodePoint := by
      rw [character, if_neg (by omega), if_pos outside]
    rw [call, none]
    exact .noCodePoint outside
  obtain ⟨n, rfl⟩ := Int.eq_ofNat_of_zero_le (show 0 ≤ x by omega)
  by_cases surrogate : 0xD800 ≤ n ∧ n ≤ 0xDFFF
  · have none : character n = .error (.surrogate n) := by
      rw [character, if_neg (by omega), if_neg outside, if_pos (by omega), Int.toNat_natCast]
    rw [call, none]
    exact .surrogate surrogate.1 surrogate.2
  · have some : character n = .ok (.ofNat n) := by
      rw [character, if_neg (by omega), if_neg outside, if_neg (by omega), Int.toNat_natCast]
    have code : (Char.ofNat n).toNat = n :=
      Text.toNat_ofNat_of_scalar (by omega) surrogate
    have answer : Answers lines asked (.emit (Char.ofNat n).toNat) { out := [.ofNat n] } :=
      .character _
    rw [code] at answer
    rw [call, some]
    exact answer

/-- A call that reads finds no line left and changes nothing, or takes the next line off. -/
theorem call_input_cases {console : Console} {lines : List Text} {asked : Nat}
    (h : console.Remains lines asked) :
    (lines.length ≤ asked ∧
      console.call .input = (console, { result := .error .endOfInput })) ∨
    ∃ line rest, lines[asked]? = some line ∧ Text.Lines rest (lines.drop (asked + 1)) ∧
      console.call .input = ({ console with unread := rest.unifyLineEnds },
        { result := .ok (some ((Numeral.value? line).getD 0)) }) := by
  obtain ⟨rest, unread, left⟩ := h
  cases remaining : lines.drop asked with
  | nil =>
      rw [remaining] at left
      refine .inl ⟨List.drop_eq_nil_iff.mp remaining, ?_⟩
      rw [call, unread, Text.nextLine?_of_lines_nil left]
  | cons line later =>
      have found : lines[asked]? = some line := by
        rw [← List.head?_drop, remaining, List.head?_cons]
      have tail : lines.drop (asked + 1) = later := by
        rw [← List.drop_drop, remaining, List.drop_one, List.tail_cons]
      rw [remaining] at left
      obtain ⟨rest', next, left'⟩ := Text.nextLine?_of_lines_cons left
      refine .inr ⟨line, rest', found, tail ▸ left', ?_⟩
      rw [call, unread, next]

/-- The reply to one call. -/
theorem call_answers {console : Console} {lines : List Text} {asked : Nat}
    (h : console.Remains lines asked) {c : Call} (fits : c.FitsCell) :
    Answers lines asked c (console.call c).2 := by
  cases c with
  | emit x => exact emit_answers console lines asked fits
  | print x => exact .printed (Numeral.isDecimal_render x)
  | input =>
      rcases call_input_cases h with ⟨past, reply⟩ | ⟨line, _, found, _, reply⟩
      · rw [reply]
        exact .ended past
      · rw [reply]
        cases value : Numeral.value? line with
        | none => exact .malformed found value
        | some n => exact .numeral found value

/-- What one call leaves to read. -/
theorem call_remains {console : Console} {lines : List Text} {asked : Nat}
    (h : console.Remains lines asked) (c : Call) :
    (console.call c).1.Remains lines (asked + [c].count .input) := by
  cases c with
  | emit x =>
      rw [call]
      split
      next => exact h
      next => exact h
  | print x => exact h
  | input =>
      have one : [Call.input].count .input = 1 := rfl
      rw [one]
      rcases call_input_cases h with ⟨past, reply⟩ | ⟨_, rest, _, left, reply⟩
      · -- Nothing was left, and one line less than nothing is nothing.
        obtain ⟨rest, unread, left⟩ := h
        rw [List.drop_eq_nil_of_le past] at left
        rw [reply]
        exact ⟨rest, unread, (List.drop_eq_nil_of_le (Nat.le_succ_of_le past)).symm ▸ left⟩
      · rw [reply]
        exact ⟨rest, rfl, left⟩

/-! ## Sequences of calls -/

theorem run_cons (console : Console) (c : Call) (cs : List Call) :
    console.run (c :: cs) =
      (((console.call c).1.run cs).1, (console.call c).2 :: ((console.call c).1.run cs).2) := rfl

theorem run_append (console : Console) (a b : List Call) :
    console.run (a ++ b) =
      (((console.run a).1.run b).1, (console.run a).2 ++ ((console.run a).1.run b).2) := by
  induction a generalizing console with
  | nil => rfl
  | cons c a ih => rw [List.cons_append, run_cons, ih, run_cons]; rfl

theorem length_run (console : Console) (calls : List Call) :
    (console.run calls).2.length = calls.length := by
  induction calls generalizing console with
  | nil => rfl
  | cons c calls ih => rw [run_cons, List.length_cons, ih, List.length_cons]

theorem getElem?_run (console : Console) (before : List Call) (c : Call) (after : List Call) :
    (console.run (before ++ c :: after)).2[before.length]? =
      some ((console.run before).1.call c).2 := by
  rw [run_append, run_cons, List.getElem?_append_right (length_run console before).le, length_run,
    Nat.sub_self, List.getElem?_cons_zero]

theorem run_remains {console : Console} {lines : List Text} {asked : Nat}
    (h : console.Remains lines asked) (calls : List Call) :
    (console.run calls).1.Remains lines (asked + calls.count .input) := by
  induction calls generalizing console asked with
  | nil => exact h
  | cons c calls ih =>
      have step := ih (call_remains h c)
      rw [Nat.add_assoc, ← List.count_append, List.singleton_append] at step
      exact step

theorem written_call (console : Console) (c : Call) :
    (console.call c).1.written = console.written ++ (console.call c).2.out := by
  cases c with
  | emit x =>
      rw [call]
      split
      next => exact (List.append_nil _).symm
      next => rfl
  | print x => rfl
  | input =>
      rw [call]
      split
      next => exact (List.append_nil _).symm
      next => exact (List.append_nil _).symm

theorem written_run (console : Console) (calls : List Call) :
    (console.run calls).1.written =
      console.written ++ ((console.run calls).2.map Reply.out).flatten := by
  induction calls generalizing console with
  | nil => simp [run]
  | cons c calls ih => simp [run_cons, ih, written_call]

/-- What a call writes is settled by the call. -/
theorem out_call_congr (console console' : Console) (c : Call) :
    (console.call c).2.out = (console'.call c).2.out := by
  cases c with
  | emit x =>
      rw [call, call]
      split
      next => rfl
      next => rfl
  | print x => rfl
  | input =>
      have silent : ∀ console : Console, (console.call .input).2.out = [] := by
        intro console
        rw [call]
        split
        next => rfl
        next => rfl
      rw [silent, silent]

theorem map_out_run_congr (console console' : Console) (calls : List Call) :
    (console.run calls).2.map Reply.out = (console'.run calls).2.map Reply.out := by
  induction calls generalizing console console' with
  | nil => rfl
  | cons c calls ih =>
      rw [run_cons, run_cons, List.map_cons, List.map_cons, out_call_congr console console',
        ih (console.call c).1 (console'.call c).1]

theorem call_of_error {console : Console} {c : Call} {e : Error}
    (h : (console.call c).2.result = .error e) : (console.call c).1 = console := by
  cases c with
  | emit x =>
      rw [call] at h ⊢
      split at h
      next none => rfl
      next => cases h
  | print x => cases h
  | input =>
      rw [call] at h ⊢
      split at h
      next none => rfl
      next => cases h

/-- Without a call that fails, the other calls do what they do with it. -/
theorem run_without_failure {console : Console} {before after : List Call} {c : Call} {e : Error}
    (h : ((console.run before).1.call c).2.result = .error e) :
    console.run (before ++ after) =
      ((console.run (before ++ c :: after)).1,
        (console.run (before ++ c :: after)).2.eraseIdx before.length) := by
  rw [run_append, run_append console before, run_cons, call_of_error h,
    List.eraseIdx_append_of_length_le (length_run console before).le, length_run, Nat.sub_self,
    List.eraseIdx_cons_zero]

theorem unread_call_of_ne (console : Console) {c : Call} (h : c ≠ .input) :
    (console.call c).1.unread = console.unread := by
  cases c with
  | emit x =>
      rw [call]
      split
      next => rfl
      next => rfl
  | print x => rfl
  | input => exact absurd rfl h

theorem call_input_congr {console console' : Console} (same : console.unread = console'.unread) :
    (console.call .input).2 = (console'.call .input).2 ∧
      (console.call .input).1.unread = (console'.call .input).1.unread := by
  rw [call, call, same]
  split
  next => exact ⟨rfl, same⟩
  next => exact ⟨rfl, rfl⟩

/-- The calls that read get the replies they get by themselves. -/
theorem replies_to_inputs {console console' : Console} (same : console.unread = console'.unread)
    (calls : List Call) :
    ((calls.zip (console.run calls).2).filter (·.1 = .input)).map Prod.snd =
      (console'.run (calls.filter (· = .input))).2 := by
  induction calls generalizing console console' with
  | nil => rfl
  | cons c calls ih =>
      by_cases reads : c = .input
      · obtain ⟨reply, unread⟩ := call_input_congr same
        subst reads
        simp [run_cons, ih unread, reply]
      · have unread := (unread_call_of_ne console reads).trans same
        simp [run_cons, reads, ih unread]

/-- The console on an input and a sequence of calls.  The input has its lines, in one way only.
Each call gets the reply that the lines and the number of calls that read before it settle, and
the output is what the calls wrote, one after the other.  The calls that read get the replies they
would get by themselves.  What the calls write is the same with any input.  Without a call that
fails, the console ends up the same and the other calls get the same replies. -/
theorem run_is_stream_machine (stdin : Text) (calls : List Call)
    (cells : ∀ c ∈ calls, c.FitsCell) :
    let last := ((start stdin).run calls).1
    let replies := ((start stdin).run calls).2
    (∃ lines, Text.Lines stdin lines ∧ (∀ lines', Text.Lines stdin lines' → lines' = lines) ∧
      replies.length = calls.length ∧
      ∀ before c after, calls = before ++ c :: after →
        ∃ reply, replies[before.length]? = some reply ∧
          Answers lines (before.count .input) c reply) ∧
    last.written = (replies.map Reply.out).flatten ∧
    ((calls.zip replies).filter (·.1 = .input)).map Prod.snd =
      ((start stdin).run (calls.filter (· = .input))).2 ∧
    (∀ stdin', ((start stdin').run calls).2.map Reply.out = replies.map Reply.out) ∧
    (∀ before c after reply e, calls = before ++ c :: after →
      replies[before.length]? = some reply → reply.result = .error e →
        (start stdin).run (before ++ after) = (last, replies.eraseIdx before.length)) := by
  intro last replies
  refine ⟨?_, written_run (start stdin) calls, replies_to_inputs rfl calls,
    fun stdin' => map_out_run_congr _ _ calls, ?_⟩
  · obtain ⟨lines, h⟩ := Text.exists_lines stdin
    refine ⟨lines, h, fun lines' h' => h'.unique h rfl, length_run _ calls, ?_⟩
    rintro before c after rfl
    refine ⟨_, getElem?_run (start stdin) before c after, ?_⟩
    have remains := run_remains (remains_start h) before
    rw [Nat.zero_add] at remains
    exact call_answers remains (cells c (by simp))
  · rintro before c after reply e rfl found failed
    rw [getElem?_run] at found
    rw [← Option.some.inj found] at failed
    exact run_without_failure failed

/-- Two lines, the first ended by a carriage return alone and the second no numeral, and a
surrogate that is emitted between them.  The calls that read get 12 and 0, and the third of them
finds no line. -/
theorem run_on_two_lines :
    let stdin := ['1', '2', '\r', 'x', '\r', '\n']
    let calls : List Call := [.input, .emit 0xD800, .input, .print (-7), .input]
    let lines := [['1', '2'], ['x']]
    let last := ((start stdin).run calls).1
    let replies := ((start stdin).run calls).2
    (∀ c ∈ calls, c.FitsCell) ∧ Text.Lines stdin lines ∧
      replies = [{ result := .ok (some 12) }, { result := .error (.surrogate 0xD800) },
        { result := .ok (some 0) }, { out := "-7 ".toList }, { result := .error .endOfInput }] ∧
      Answers lines 0 .input { result := .ok (some 12) } ∧
      Answers lines 1 .input { result := .ok (some 0) } ∧
      Answers lines 2 .input { result := .error .endOfInput } ∧
      last.written = (replies.map Reply.out).flatten ∧
      (start stdin).run [.input, .input, .print (-7), .input] = (last, replies.eraseIdx 1) := by
  intro stdin calls lines last replies
  have cells : ∀ c ∈ calls, c.FitsCell := by simp [calls, Call.FitsCell]
  have first : Text.NoLineEnd ['1', '2'] := by simp [Text.NoLineEnd]
  have second : Text.NoLineEnd ['x'] := by simp [Text.NoLineEnd]
  have whole : Text.Lines stdin lines :=
    .ended first (.lone ['x', '\r', '\n'] (by simp)) (.ended second (.pair []) .none)
  obtain ⟨⟨lines', _, unique, _, answers⟩, written, _, _, failure⟩ :=
    run_is_stream_machine stdin calls cells
  obtain rfl := unique lines whole
  have answer : ∀ before c after reply, calls = before ++ c :: after →
      replies[before.length]? = some reply → Answers lines (before.count .input) c reply := by
    intro before c after reply split found
    obtain ⟨reply', found', answer⟩ := answers before c after split
    obtain rfl := Option.some.inj (found.symm.trans found')
    exact answer
  exact ⟨cells, whole, rfl, answer [] .input _ _ rfl rfl, answer (calls.take 2) .input _ _ rfl rfl,
    answer (calls.take 4) .input _ _ rfl rfl, written,
    failure [.input] (.emit 0xD800) [.input, .print (-7), .input] _ _ rfl rfl rfl⟩

end Console

end TinyForth
