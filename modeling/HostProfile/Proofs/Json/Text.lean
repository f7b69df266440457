import HostProfile.Json.Reader
import HostProfile.Proofs.Toml.Scalar

/-!
# Reading written strings and numbers

An escape stands for its character, whatever follows it, so that a written string is read up to the
quote behind it. A written integer is read up to a character that no number goes on with.
-/

namespace HostProfile.Json

variable {c d : Char}

/-- What holds of each of the first characters holds of every character below. -/
@[elab_as_elim]
theorem char_of_lt {b : Nat} {P : Char → Prop} (c : Char) (below : c.toNat < b)
    (first : ∀ n < b, P (Char.ofNat n)) : P c := by
  have holds := first c.toNat below
  rwa [Char.ofNat_toNat] at holds

/-! ## Escapes -/

/-- The letter behind the backslash by which a character is escaped, where it has one. -/
def letter? (c : Char) : Option Char :=
  [('"', '"'), ('\\', '\\'), ('\x08', 'b'), ('\t', 't'), ('\n', 'n'), ('\x0c', 'f'),
    ('\r', 'r')].lookup c

/-- The number of a character below U+0100, in four digits of base 16. -/
def codeUnit (c : Char) : List Char :=
  ['0', '0', Nat.digitChar (c.toNat / 16), Nat.digitChar (c.toNat % 16)]

theorem escape_of_lt (low : c.toNat < 0x20) :
    escape c = '\\' :: (letter? c).elim ('u' :: codeUnit c) ([·]) := char_of_lt c low (by decide)

theorem toNat_lt_of_letter? (letter : letter? c = some d) :
    c.toNat < 0x20 ∨ c = '"' ∨ c = '\\' := by
  obtain ⟨before, after, table, -⟩ := List.lookup_eq_some_iff.mp letter
  have member : (c, d) ∈ before ++ (c, d) :: after := List.mem_append_cons_self
  rw [← table] at member
  simp only [List.mem_cons, Prod.mk.injEq, List.not_mem_nil, or_false] at member
  rcases member with ⟨rfl, -⟩ | ⟨rfl, -⟩ | ⟨rfl, -⟩ | ⟨rfl, -⟩ | ⟨rfl, -⟩ | ⟨rfl, -⟩ | ⟨rfl, -⟩ <;>
    decide

/-- A quote, a backslash and the characters below U+0020 are escaped, by their letters or else by
their numbers, and no others. -/
theorem escape_eq (c : Char) : escape c =
    match letter? c with
    | some d => ['\\', d]
    | none => if c.toNat < 0x20 then '\\' :: 'u' :: codeUnit c else [c] := by
  by_cases low : c.toNat < 0x20
  · rw [escape_of_lt low, if_pos low]
    cases letter? c <;> rfl
  · by_cases quote : c = '"'
    · rw [quote]
      rfl
    by_cases backslash : c = '\\'
    · rw [backslash]
      rfl
    have no_letter : letter? c = none := Option.eq_none_iff_forall_ne_some.mpr fun d letter => by
      obtain control | is_quote | is_backslash := toNat_lt_of_letter? letter
      · exact low control
      · exact quote is_quote
      · exact backslash is_backslash
    have plain : escape c = [c] := by simp [escape, quote, backslash, Nat.not_lt.mp low]
    rw [no_letter, plain]
    exact (if_neg low).symm

theorem escape_eq_self_iff : escape c = [c] ↔ c ≠ '"' ∧ c ≠ '\\' ∧ 0x20 ≤ c.toNat := by
  constructor
  · intro plain
    refine ⟨?_, ?_, Nat.not_lt.mp fun low => ?_⟩
    · rintro rfl
      exact absurd plain (by decide)
    · rintro rfl
      exact absurd plain (by decide)
    · rw [escape_of_lt low] at plain
      cases letter : letter? c <;> simp [letter, codeUnit] at plain
  · rintro ⟨no_quote, no_backslash, high⟩
    simp [escape, no_quote, no_backslash, high]

end HostProfile.Json

namespace HostProfile.Json.Reader

variable {c d : Char} {rest : List Char}

/-! ## Strings -/

theorem stringTail?_letter {acc : List Char} (letter : unescape? d = some c) (rest : List Char) :
    stringTail? acc ('\\' :: d :: rest) = stringTail? (c :: acc) rest := by
  have other : d ≠ 'u' := by
    rintro rfl
    cases letter
  rw [stringTail?.eq_def]
  split <;> grind

theorem stringTail?_codeUnit (acc : List Char) {h₁ h₂ h₃ h₄ : Char} {n : Nat}
    (value : Text.ofHex? [h₁, h₂, h₃, h₄] = some n) (low : n < 0xD800) (rest : List Char) :
    stringTail? acc ('\\' :: 'u' :: h₁ :: h₂ :: h₃ :: h₄ :: rest) =
      stringTail? (Char.ofNat n :: acc) rest := by
  rw [stringTail?]
  have no_high : ¬ (0xD800 ≤ n && n < 0xDC00) = true := by simp; omega
  have no_low : ¬ (0xDC00 ≤ n && n < 0xE000) = true := by simp; omega
  simp only [value, if_neg no_high, if_neg no_low]

theorem stringTail?_plain {acc : List Char} (no_quote : c ≠ '"') (no_backslash : c ≠ '\\')
    (high : 0x20 ≤ c.toNat) (rest : List Char) :
    stringTail? acc (c :: rest) = stringTail? (c :: acc) rest := by
  rw [stringTail?.eq_def]
  split <;> grind

theorem unescape?_of_letter? (letter : letter? c = some d) : unescape? d = some c := by
  obtain low | rfl | rfl := toNat_lt_of_letter? letter
  · have control : ((letter? c).all fun d => unescape? d == some c) = true :=
      char_of_lt c low (by decide)
    rw [letter] at control
    exact eq_of_beq control
  · cases letter
    rfl
  · cases letter
    rfl

/-- An escaped character is read as the character. -/
theorem stringTail?_escape (c : Char) (acc rest : List Char) :
    stringTail? acc (escape c ++ rest) = stringTail? (c :: acc) rest := by
  rw [escape_eq]
  cases letter : letter? c with
  | some d => exact stringTail?_letter (unescape?_of_letter? letter) rest
  | none =>
      by_cases low : c.toNat < 0x20
      · have value : Text.ofHex? (codeUnit c) = some c.toNat := char_of_lt c low (by decide)
        have read := stringTail?_codeUnit acc value (by omega) rest
        rw [Char.ofNat_toNat] at read
        rw [if_pos low]
        exact read
      · have no_quote : c ≠ '"' := by
          rintro rfl
          exact absurd letter (by decide)
        have no_backslash : c ≠ '\\' := by
          rintro rfl
          exact absurd letter (by decide)
        rw [if_neg low]
        exact stringTail?_plain no_quote no_backslash (Nat.not_lt.mp low) rest

/-- A written string is read up to the quote behind it. -/
theorem stringTail?_flatMap_escape (cs acc rest : List Char) :
    stringTail? acc (cs.flatMap escape ++ '"' :: rest) =
      some (String.ofList (acc.reverse ++ cs), rest) := by
  induction cs generalizing acc with
  | nil => rw [List.flatMap_nil, List.nil_append, stringTail?, List.append_nil]
  | cons c cs ih =>
      rw [List.flatMap_cons, List.append_assoc, stringTail?_escape, ih, List.reverse_cons,
        List.append_assoc]
      rfl

theorem toList_quote (s : String) :
    (quote s).toList = '"' :: (s.toList.flatMap escape ++ ['"']) := by
  simp [quote]

theorem stringTail?_escaped (s : String) (rest : List Char) :
    stringTail? [] (s.toList.flatMap escape ++ '"' :: rest) = some (s, rest) := by
  rw [stringTail?_flatMap_escape, List.reverse_nil, List.nil_append, String.ofList_toList]

/-! ## Numbers -/

/-- Goes on with a number. -/
def isNumberChar (c : Char) : Bool := c.isDigit || c == '.' || c == 'e' || c == 'E'

theorem fraction?_of_stops (stops : Stops isNumberChar rest) : fraction? rest = some [] := by
  fun_cases fraction? rest with
  | case1 | case2 => exact absurd (stops '.' rfl) (by decide)
  | case3 => rfl

theorem exponent?_of_stops (stops : Stops isNumberChar rest) : exponent? rest = some [] := by
  cases rest with
  | nil => rfl
  | cons c rest =>
      have other := stops c rfl
      simp only [isNumberChar, Bool.or_eq_false_iff] at other
      simp [exponent?, other]

theorem digits_toDigits (m : Nat) (stops : Stops isNumberChar rest) :
    digits (Nat.toDigits 10 m ++ rest) = Nat.toDigits 10 m :=
  takeWhile_run (fun _ => Toml.isDigit_of_mem_toDigits)
    (stops.mono fun c digit => by simp [isNumberChar, digit])

theorem ofDigits_toDigits (m : Nat) : ofDigits (Nat.toDigits 10 m) = m :=
  Nat.ofDigitChars_ten_toDigits

/-- The only number whose digits begin with zero is zero. -/
theorem no_leading_zero (m : Nat) :
    ((Nat.toDigits 10 m).head? == some '0' && (Nat.toDigits 10 m).length != 1) = false := by
  by_cases zero : m = 0
  · rw [zero]
    rfl
  · simp [Toml.head?_toDigits (Nat.pos_of_ne_zero zero)]

/-- Digits behind a sign are an integer, up to a character that no number goes on with. -/
theorem number?_append {sign : List Char} {m : Nat}
    (signed : sign = ['-'] ∧ 0 < m ∨ sign = []) (stops : Stops isNumberChar rest) :
    number? (sign ++ (Nat.toDigits 10 m ++ rest)) =
      some (.int (if sign = [] then m else -m), sign ++ Nat.toDigits 10 m) := by
  have whole : digits (Nat.toDigits 10 m ++ rest) = Nat.toDigits 10 m := digits_toDigits m stops
  have no_minus : ((Nat.toDigits 10 m ++ rest).head? == some '-') = false := by
    obtain ⟨e, ds, eq⟩ := List.exists_cons_of_ne_nil (Nat.toDigits_ne_nil (n := m) (b := 10))
    have digit : e.isDigit = true := Toml.isDigit_of_mem_toDigits (n := m) (by simp [eq])
    have other : e ≠ '-' := Toml.ne_of_isDigit digit (by decide)
    simp [eq, other]
  have taken : (sign ++ (Nat.toDigits 10 m ++ rest)).take
      (if (sign ++ (Nat.toDigits 10 m ++ rest)).head? == some '-' then 1 else 0) = sign := by
    obtain ⟨rfl, -⟩ | rfl := signed
    · rfl
    · rw [List.nil_append, no_minus]
      rfl
  have behind : (sign ++ (Nat.toDigits 10 m ++ rest)).drop (sign ++ Nat.toDigits 10 m).length =
      rest := by
    rw [← List.append_assoc, List.drop_left]
  have digits_ne : (Nat.toDigits 10 m = [] ||
      (Nat.toDigits 10 m).head? == some '0' && (Nat.toDigits 10 m).length != 1) = false := by
    rw [no_leading_zero, Bool.or_false, decide_eq_false_iff_not]
    exact Nat.toDigits_ne_nil
  have no_zero : (sign = [] || m != 0) = true := by
    obtain ⟨-, positive⟩ | none := signed
    · simp [positive.ne']
    · simp [none]
  unfold number?
  simp only [taken, List.drop_left, whole, digits_ne, Bool.false_eq_true, if_false, behind,
    fraction?_of_stops stops, Option.bind_eq_bind, Option.bind_some, List.append_nil,
    exponent?_of_stops stops, ofDigits_toDigits, no_zero]
  rfl

/-- A written integer is read from its text. -/
theorem number?_toString (n : Int) (stops : Stops isNumberChar rest) :
    number? ((toString n).toList ++ rest) = some (.int n, (toString n).toList) := by
  rw [Toml.toList_toString, List.append_assoc]
  split
  · next negative =>
      rw [number?_append (.inl ⟨rfl, by omega⟩) stops, if_neg (by decide)]
      congr
      omega
  · next positive =>
      rw [number?_append (.inr rfl) stops, if_pos rfl]
      congr
      omega

/-- The text of an integer begins with a minus or a digit. -/
theorem exists_toString_eq_cons (n : Int) :
    ∃ c cs, (toString n).toList = c :: cs ∧ (c = '-' ∨ c.isDigit = true) := by
  obtain ⟨d, ds, eq⟩ := List.exists_cons_of_ne_nil (Nat.toDigits_ne_nil (n := n.natAbs) (b := 10))
  have digit : d.isDigit = true := Toml.isDigit_of_mem_toDigits (n := n.natAbs) (by simp [eq])
  rw [Toml.toList_toString, eq]
  split
  · exact ⟨_, _, rfl, .inl rfl⟩
  · exact ⟨_, _, rfl, .inr digit⟩

theorem stops_toString {p : Char → Bool} (n : Int) (minus : p '-' = false)
    (digits : ∀ c, p c = true → c.isDigit = false) (rest : List Char) :
    Stops p ((toString n).toList ++ rest) := by
  obtain ⟨c, cs, eq, rfl | digit⟩ := exists_toString_eq_cons n
  · rw [eq]
    exact stops_cons minus _
  · rw [eq]
    refine stops_cons (Bool.eq_false_iff.mpr fun passes => ?_) _
    simp [digits c passes] at digit

theorem scalar?_toString (n : Int) (stops : Stops isNumberChar rest) :
    scalar? ((toString n).toList ++ rest) = some (.int n, rest) := by
  obtain ⟨c, cs, eq, first⟩ := exists_toString_eq_cons n
  have number := number?_toString n stops
  have other {d : Char} (letter : d.isDigit = false) (no_minus : d ≠ '-') : c ≠ d := by
    obtain rfl | digit := first
    · exact no_minus.symm
    · exact Toml.ne_of_isDigit digit letter
  rw [eq, List.cons_append] at number ⊢
  rw [scalar?.eq_def]
  split
  · next found => exact absurd (List.cons.inj found).1 (other (by decide) (by decide))
  · next found => exact absurd (List.cons.inj found).1 (other (by decide) (by decide))
  · next found => exact absurd (List.cons.inj found).1 (other (by decide) (by decide))
  · next found =>
      cases found
      rw [number]
      simp
  · next missing => cases missing

end HostProfile.Json.Reader
