import HostProfile.Proofs.Run
import HostProfile.Toml.Scalar

/-!
# Reading written scalars

Booleans and integers in decimal digits are read as what they were written from. The digits of an
integer, with or without a minus before them, are neither a moment in time nor a number with a
fraction or an exponent.
-/

namespace HostProfile.Toml

variable {cs run rest : List Char}

/-! ## Decimal digits -/

theorem ne_of_isDigit {c d : Char} (digit : c.isDigit = true) (other : d.isDigit = false) :
    c ≠ d := by
  rintro rfl
  simp [digit] at other

theorem digits?_of_digits (some_digits : cs ≠ []) (digits : ∀ c ∈ cs, c.isDigit = true) :
    digits? Char.isDigit cs = some cs := by
  fun_induction digits? Char.isDigit cs with
  | case1 => exact absurd rfl some_digits
  | case2 c digit => rfl
  | case3 c no_digit => simp_all
  | case4 c rest digit ih =>
      have underscore : Char.isDigit '_' = true := digits '_' (by simp)
      exact absurd underscore (by decide)
  | case5 c rest no_digit => simp_all
  | case6 c rest more _ digit ih =>
      rw [ih (by simpa using more) fun d member => digits d (List.mem_cons_of_mem _ member)]
      rfl
  | case7 c rest _ _ no_digit => simp_all

theorem ofDecimal_toDigits (n : Nat) : ofDecimal (Nat.toDigits 10 n) = n :=
  Nat.ofDigitChars_ten_toDigits

theorem isDigit_of_mem_toDigits {n : Nat} {c : Char} (member : c ∈ Nat.toDigits 10 n) :
    c.isDigit = true :=
  Nat.isDigit_of_mem_toDigits (by decide) (by decide) member

theorem head?_toDigits {n : Nat} (positive : 0 < n) : (Nat.toDigits 10 n).head? ≠ some '0' := by
  induction n using Nat.strongRecOn with
  | ind n ih =>
    rw [Nat.toDigits_eq_if (by decide)]
    split
    · next small =>
        have digit : ∀ m < 10, 0 < m → some m.digitChar ≠ some '0' := by decide
        exact digit n small positive
    · next large =>
        have first := ih (n / 10) (by omega) (by omega)
        have some_digits : Nat.toDigits 10 (n / 10) ≠ [] := Nat.toDigits_ne_nil
        obtain ⟨d, ds, eq⟩ := List.exists_cons_of_ne_nil some_digits
        rw [eq] at first ⊢
        exact first

/-- The digits of a number have no zero in front but the only one. -/
theorem wholeDigits?_toDigits (n : Nat) :
    wholeDigits? (Nat.toDigits 10 n) = some (Nat.toDigits 10 n) := by
  rw [wholeDigits?, digits?_of_digits Nat.toDigits_ne_nil fun _ => isDigit_of_mem_toDigits]
  by_cases zero : n = 0
  · rw [zero]
    rfl
  · have first := head?_toDigits (Nat.pos_of_ne_zero zero)
    simp [Option.filter, first]

/-! ## Digits behind a sign -/

theorem isDate_of_digits (digits : ∀ c ∈ cs.tail, c.isDigit = true) : isDate cs = false := by
  fun_cases isDate cs with
  | case1 => exact absurd (digits '-' (by simp)) (by decide)
  | case2 => rfl

theorem isTime_of_digits (digits : ∀ c ∈ cs.tail, c.isDigit = true) (zoned : Bool) :
    isTime zoned cs = false := by
  fun_cases isTime zoned cs with
  | case1 => exact absurd (digits ':' (by simp)) (by decide)
  | case2 => rfl

theorem isMoment_of_digits (digits : ∀ c ∈ cs.tail, c.isDigit = true) : isMoment cs = false := by
  rw [isMoment, isDate_of_digits digits, isTime_of_digits digits, Bool.or_false, Bool.false_or]
  cases dropped : cs.drop 10 with
  | nil => rfl
  | cons t time =>
      have member : t ∈ cs.tail := by
        rw [← List.drop_one]
        refine List.mem_of_mem_drop (i := 9) ?_
        rw [List.drop_drop, dropped]
        exact List.mem_cons_self
      have upper : t ≠ 'T' := ne_of_isDigit (digits t member) (by decide)
      have lower : t ≠ 't' := ne_of_isDigit (digits t member) (by decide)
      simp [upper, lower]

theorem decimal?_of_digits (digits : ∀ c ∈ cs, c.isDigit = true) : decimal? cs = none := by
  have parts : ∀ c ∈ cs, (c.isDigit || c == '_') = true := fun c member => by simp [digits c member]
  have taken : cs.takeWhile (fun c => c.isDigit || c == '_') = cs := by
    simpa using takeWhile_run parts stops_nil
  have dropped : cs.dropWhile (fun c => c.isDigit || c == '_') = [] := by
    simpa using dropWhile_run parts stops_nil
  simp only [decimal?, taken, dropped]
  cases wholeDigits? cs <;> rfl

theorem splitSign_of_digits (digits : ∀ c ∈ cs, c.isDigit = true) : splitSign cs = (false, cs) := by
  fun_cases splitSign cs with
  | case1 => exact absurd (digits '-' (by simp)) (by decide)
  | case2 => exact absurd (digits '+' (by simp)) (by decide)
  | case3 => rfl

/-- Digits alone are no number with a fraction or an exponent. -/
theorem isFloat_of_digits {negative : Bool} (sign : splitSign run = (negative, cs))
    (digits : ∀ c ∈ cs, c.isDigit = true) : isFloat run = false := by
  have infinity : cs ≠ ['i', 'n', 'f'] := by
    rintro rfl
    exact absurd (digits 'i' (by simp)) (by decide)
  have no_number : cs ≠ ['n', 'a', 'n'] := by
    rintro rfl
    exact absurd (digits 'n' (by simp)) (by decide)
  simp [isFloat, sign, decimal?_of_digits digits, infinity, no_number]

/-! ## Scalars -/

section Integer

variable {negative : Bool} {m : Nat} {n : Int}
  (sign : splitSign run = (negative, Nat.toDigits 10 m))
  (digits : ∀ c ∈ run.tail, c.isDigit = true) (value : n = if negative then -(m : Int) else m)
  (range : inRange n = true)

include sign digits value range

theorem integer?_of_digits : integer? run = some n := by
  unfold integer?
  split
  · exact absurd (digits 'x' (by simp)) (by decide)
  · exact absurd (digits 'o' (by simp)) (by decide)
  · exact absurd (digits 'b' (by simp)) (by decide)
  · simp [sign, wholeDigits?_toDigits, ofDecimal_toDigits, ← value, Option.filter, range]

theorem bare?_of_digits : bare? run = some (.int n) := by
  have not_true : run ≠ ['t', 'r', 'u', 'e'] := by
    rintro rfl
    exact absurd (digits 'r' (by simp)) (by decide)
  have not_false : run ≠ ['f', 'a', 'l', 's', 'e'] := by
    rintro rfl
    exact absurd (digits 'a' (by simp)) (by decide)
  have no_float := isFloat_of_digits sign fun _ => isDigit_of_mem_toDigits
  have number := integer?_of_digits sign digits value range
  simp [bare?, not_true, not_false, isMoment_of_digits digits, no_float, number]

end Integer

theorem toList_toString (n : Int) :
    (toString n).toList = (if n < 0 then ['-'] else []) ++ Nat.toDigits 10 n.natAbs := by
  cases n with
  | ofNat m =>
      have written : (toString (Int.ofNat m)).toList = Nat.toDigits 10 m := Nat.toList_repr
      rw [written, if_neg (Int.not_lt.mpr (Int.natCast_nonneg m) : ¬Int.ofNat m < 0)]
      rfl
  | negSucc m =>
      have written : toString (Int.negSucc m) = "-" ++ Nat.repr (m + 1) := rfl
      simp [written, Int.negSucc_lt_zero]

/-- An integer of 64 bits is read from its digits. -/
theorem bare?_toString {n : Int} (range : inRange n = true) :
    bare? (toString n).toList = some (.int n) := by
  have digits : ∀ c ∈ Nat.toDigits 10 n.natAbs, c.isDigit = true := fun _ => isDigit_of_mem_toDigits
  rw [toList_toString]
  split
  · next negative =>
      have sign : splitSign ('-' :: Nat.toDigits 10 n.natAbs) =
          (true, Nat.toDigits 10 n.natAbs) := rfl
      exact bare?_of_digits sign digits (by rw [if_pos rfl]; omega) range
  · next positive =>
      exact bare?_of_digits (splitSign_of_digits digits)
        (fun c member => digits c (List.mem_of_mem_tail member))
        (by rw [if_neg Bool.false_ne_true]; omega) range

theorem isScalarChar_toString (n : Int) : ∀ c ∈ (toString n).toList, isScalarChar c = true := by
  intro c member
  rw [toList_toString, List.mem_append] at member
  obtain sign | digit := member
  · split at sign
    · rw [List.mem_singleton.mp sign]
      rfl
    · simp at sign
  · simp [isScalarChar, Char.isAlphanum, isDigit_of_mem_toDigits digit]

theorem toString_ne_nil (n : Int) : (toString n).toList ≠ [] := by
  rw [toList_toString]
  exact List.append_ne_nil_of_right_ne_nil _ Nat.toDigits_ne_nil

theorem run?_of_stops (stops : Stops isScalarChar cs) : run? cs = none := by
  simp [run?, takeWhile_of_stops stops]

/-- A scalar is read up to a character that no scalar goes on with and that is no space. -/
theorem run?_append {v : Toml} (some_chars : run ≠ []) (scalar : ∀ c ∈ run, isScalarChar c = true)
    (value : bare? run = some v) (stops : Stops isScalarChar rest)
    (no_space : Stops (· == ' ') rest) : run? (run ++ rest) = some (v, rest) := by
  have space : (rest.head? == some ' ') = false := by
    cases rest with
    | nil => rfl
    | cons c rest => simpa using no_space c rfl
  simp [run?, takeWhile_run scalar stops, dropWhile_run scalar stops, some_chars, space, value]

end HostProfile.Toml
