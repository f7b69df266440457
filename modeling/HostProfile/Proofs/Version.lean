import HostProfile.Version
import Mathlib.Data.List.TakeWhile
import Mathlib.Tactic.Ring

/-!
# Versions as lists of tokens

A version counts for the list of its tokens: the segments from left to right and the end behind
them. Versions are compared as these lists are, token by token, and that is why the order of
versions is transitive although the comparison never makes the lists.
-/

namespace HostProfile.Version

/-! ## Tokens -/

/-- What a version has at one position. -/
inductive Token where
  | tilde
  | stop
  | letters (run : List Char)
  | number (value : Nat)
  deriving DecidableEq

namespace Token

/-- The place of the kind of token among the kinds. -/
def rank : Token → Nat
  | tilde => 0
  | stop => 1
  | letters _ => 2
  | number _ => 3

def run : Token → List Char
  | letters run => run
  | _ => []

def value : Token → Nat
  | number value => value
  | _ => 0

/-- Tokens are ordered by their kinds, runs of letters by their texts, and numbers by their
values. -/
instance : Ord Token :=
  ⟨compareLex (compareOn rank) (compareLex (compareOn run) (compareOn value))⟩

instance : Std.TransOrd Token := inferInstanceAs (Std.TransCmp
  (compareLex (compareOn rank) (compareLex (compareOn run) (compareOn value))))

theorem compare_letters (u v : List Char) : compare (letters u) (letters v) = compare u v := by
  change (compare u v).then .eq = _
  rw [Ordering.then_eq]

theorem compare_number (m n : Nat) : compare (number m) (number n) = compare m n := rfl

end Token

/-- The tokens of a version. -/
def tokens (text : List Char) : List Token :=
  match text with
  | [] => [.stop]
  | c :: rest =>
    if isSeparator c then tokens rest
    else if c == '~' then .tilde :: tokens rest
    else if isDigit c then
      .number (Nat.ofDigitChars 10 (c :: rest.takeWhile isDigit) 0) ::
        tokens (rest.dropWhile isDigit)
    else .letters (c :: rest.takeWhile isLetter) :: tokens (rest.dropWhile isLetter)
termination_by text.length
decreasing_by
  all_goals simp only [List.length_cons]
  all_goals
    have drop (p : Char → Bool) (l : List Char) : (l.dropWhile p).length ≤ l.length :=
      (List.dropWhile_sublist p).length_le
    grind

section

variable {c : Char} {rest : List Char}

theorem tokens_nil : tokens [] = [.stop] := by rw [tokens]

theorem tokens_separator (separates : isSeparator c = true) : tokens (c :: rest) = tokens rest := by
  rw [tokens, if_pos separates]

theorem tokens_tilde (belongs : ¬ isSeparator c = true) (tilde : (c == '~') = true) :
    tokens (c :: rest) = .tilde :: tokens rest := by
  rw [tokens, if_neg belongs, if_pos tilde]

theorem tokens_digit (belongs : ¬ isSeparator c = true) (other : ¬ (c == '~') = true)
    (digit : isDigit c = true) :
    tokens (c :: rest) = .number (Nat.ofDigitChars 10 (c :: rest.takeWhile isDigit) 0) ::
      tokens (rest.dropWhile isDigit) := by
  rw [tokens, if_neg belongs, if_neg other, if_pos digit]

theorem tokens_letter (belongs : ¬ isSeparator c = true) (other : ¬ (c == '~') = true)
    (letter : ¬ isDigit c = true) :
    tokens (c :: rest) = .letters (c :: rest.takeWhile isLetter) ::
      tokens (rest.dropWhile isLetter) := by
  rw [tokens, if_neg belongs, if_neg other, if_neg letter]

/-- Runs come after everything that is of a lower kind. -/
theorem compare_tokens_run (belongs : ¬ isSeparator c = true) (other : ¬ (c == '~') = true)
    {token : Token} (lower : token.rank < 2) (after : List Token) :
    compare (token :: after) (tokens (c :: rest)) = .lt := by
  have first (t : Token) (higher : 2 ≤ t.rank) : compare token t = .lt := by
    change (compare token.rank t.rank).then _ = _
    rw [Nat.compare_eq_lt.mpr (Nat.lt_of_lt_of_le lower higher)]
    rfl
  by_cases digit : isDigit c = true
  · rw [tokens_digit belongs other digit, List.compare_cons_cons, first]
    · rfl
    · exact Nat.le_succ 2
  · rw [tokens_letter belongs other digit, List.compare_cons_cons, first]
    · rfl
    · exact Nat.le_refl 2

end

/-! ## Runs of digits -/

theorem ofDigitChars_cons (c : Char) (run : List Char) :
    Nat.ofDigitChars 10 (c :: run) 0 =
      10 ^ run.length * (c.toNat - '0'.toNat) + Nat.ofDigitChars 10 run 0 := by
  rw [Nat.ofDigitChars_cons, Nat.ofDigitChars_eq_ofDigitChars_zero, Nat.mul_zero, Nat.zero_add]

theorem ofDigitChars_lt {run : List Char} (digits : ∀ c ∈ run, isDigit c = true) :
    Nat.ofDigitChars 10 run 0 < 10 ^ run.length := by
  induction run with
  | nil => simp
  | cons c run ih =>
      obtain ⟨first, others⟩ := List.forall_mem_cons.mp digits
      obtain ⟨-, high⟩ := Char.isDigit_iff_toNat.mp first
      have small : c.toNat - '0'.toNat ≤ 9 := by
        have : '9'.toNat = '0'.toNat + 9 := rfl
        omega
      have leading := Nat.mul_le_mul_left (10 ^ run.length) small
      have trailing := ih others
      rw [ofDigitChars_cons, List.length_cons, Nat.pow_succ]
      omega

theorem ofDigitChars_dropWhile (run : List Char) :
    Nat.ofDigitChars 10 (run.dropWhile (· == '0')) 0 = Nat.ofDigitChars 10 run 0 := by
  induction run with
  | nil => rfl
  | cons c run ih =>
      rw [List.dropWhile_cons]
      split
      · next zero =>
        rw [ih, ofDigitChars_cons, beq_iff_eq.mp zero, Nat.sub_self, Nat.mul_zero, Nat.zero_add]
      · rfl

theorem compare_eq_compare_toNat (c d : Char) : compare c d = compare c.toNat d.toNat := by
  change compareOfLessAndEq c d = compareOfLessAndEq _ _
  simp only [compareOfLessAndEq, Char.toNat_inj]
  rfl

/-- A greater leading digit outweighs all that follow it. -/
theorem leading_lt {k d d' m : Nat} (smaller : d < d') (small : m < k) (n : Nat) :
    k * d + m < k * d' + n := by
  have next : k * (d + 1) ≤ k * d' := Nat.mul_le_mul_left k smaller
  rw [Nat.mul_add, Nat.mul_one] at next
  omega

/-- Of two numbers with equally many digits, the leading digits decide before the others. -/
theorem compare_leading {c d : Char} {k m n : Nat} (digit : isDigit c = true)
    (digit' : isDigit d = true) (small : m < k) (small' : n < k) :
    (compare c d).then (compare m n) =
      compare (k * (c.toNat - '0'.toNat) + m) (k * (d.toNat - '0'.toNat) + n) := by
  obtain ⟨low, -⟩ := Char.isDigit_iff_toNat.mp digit
  obtain ⟨low', -⟩ := Char.isDigit_iff_toNat.mp digit'
  rw [compare_eq_compare_toNat]
  rcases Nat.lt_trichotomy c.toNat d.toNat with smaller | same | greater
  · have decided := leading_lt (Nat.sub_lt_sub_right low smaller) small n
    rw [Nat.compare_eq_lt.mpr smaller, Nat.compare_eq_lt.mpr decided]
    rfl
  · rw [same, Nat.compare_eq_eq.mpr rfl]
    simp only [Ordering.eq_then, Nat.compare_eq_ite_lt, Nat.add_lt_add_iff_left]
  · have decided := leading_lt (Nat.sub_lt_sub_right low' greater) small' m
    rw [Nat.compare_eq_gt.mpr greater, Nat.compare_eq_gt.mpr decided]
    rfl

/-- Runs of digits of one length are ordered as texts as they are as numbers. -/
theorem compare_ofDigitChars {a b : List Char} (same : a.length = b.length)
    (digits : ∀ c ∈ a, isDigit c = true) (digits' : ∀ c ∈ b, isDigit c = true) :
    compare a b = compare (Nat.ofDigitChars 10 a 0) (Nat.ofDigitChars 10 b 0) := by
  induction a generalizing b with
  | nil =>
      obtain rfl := List.length_eq_zero_iff.mp same.symm
      rfl
  | cons c a ih =>
      obtain _ | ⟨d, b⟩ := b
      · exact absurd same nofun
      obtain ⟨first, others⟩ := List.forall_mem_cons.mp digits
      obtain ⟨first', others'⟩ := List.forall_mem_cons.mp digits'
      have same := Nat.succ.inj same
      rw [List.compare_cons_cons, ih same others others', ofDigitChars_cons, ofDigitChars_cons,
        same]
      exact compare_leading first first' (same ▸ ofDigitChars_lt others) (ofDigitChars_lt others')

theorem pow_le_ofDigitChars {c : Char} (digit : isDigit c = true) (nonzero : c ≠ '0')
    (run : List Char) : 10 ^ run.length ≤ Nat.ofDigitChars 10 (c :: run) 0 := by
  obtain ⟨low, -⟩ := Char.isDigit_iff_toNat.mp digit
  have apart : c.toNat ≠ '0'.toNat := fun same => nonzero (Char.toNat_inj.mp same)
  have leading := Nat.mul_le_mul_left (10 ^ run.length) (show 1 ≤ c.toNat - '0'.toNat by omega)
  rw [ofDigitChars_cons]
  omega

/-- A run of fewer digits is the smaller number, if the other one does not start with a zero. -/
theorem ofDigitChars_lt_of_length_lt {a b : List Char} (shorter : a.length < b.length)
    (digits : ∀ c ∈ a, isDigit c = true) (digits' : ∀ c ∈ b, isDigit c = true)
    (stripped : b.head? ≠ some '0') : Nat.ofDigitChars 10 a 0 < Nat.ofDigitChars 10 b 0 := by
  obtain _ | ⟨d, b⟩ := b
  · exact absurd shorter (Nat.not_lt_zero _)
  calc
    Nat.ofDigitChars 10 a 0 < 10 ^ a.length := ofDigitChars_lt digits
    _ ≤ 10 ^ b.length := Nat.pow_le_pow_right (by decide) (Nat.le_of_lt_succ shorter)
    _ ≤ Nat.ofDigitChars 10 (d :: b) 0 :=
      pow_le_ofDigitChars (digits' d List.mem_cons_self) (fun zero => stripped (zero ▸ rfl)) b

/-- Without leading zeros, runs of digits are ordered by their lengths first. -/
theorem compare_of_stripped {a b : List Char} (digits : ∀ c ∈ a, isDigit c = true)
    (digits' : ∀ c ∈ b, isDigit c = true) (stripped : a.head? ≠ some '0')
    (stripped' : b.head? ≠ some '0') :
    (compare a.length b.length).then (compare a b) =
      compare (Nat.ofDigitChars 10 a 0) (Nat.ofDigitChars 10 b 0) := by
  rcases Nat.lt_trichotomy a.length b.length with shorter | same | longer
  · have decided := ofDigitChars_lt_of_length_lt shorter digits digits' stripped'
    rw [Nat.compare_eq_lt.mpr shorter, Nat.compare_eq_lt.mpr decided]
    rfl
  · rw [Nat.compare_eq_eq.mpr same]
    exact compare_ofDigitChars same digits digits'
  · have decided := ofDigitChars_lt_of_length_lt longer digits' digits stripped
    rw [Nat.compare_eq_gt.mpr longer, Nat.compare_eq_gt.mpr decided]
    rfl

theorem head?_dropWhile_ne (run : List Char) : (run.dropWhile (· == '0')).head? ≠ some '0' := by
  intro zero
  have head := List.head?_dropWhile_not (· == '0') run
  rw [zero] at head
  exact absurd head nofun

/-- Runs of digits are compared as the numbers that they stand for. -/
theorem compareDigits_eq {a b : List Char} (digits : ∀ c ∈ a, isDigit c = true)
    (digits' : ∀ c ∈ b, isDigit c = true) :
    compareDigits a b = compare (Nat.ofDigitChars 10 a 0) (Nat.ofDigitChars 10 b 0) := by
  rw [← ofDigitChars_dropWhile a, ← ofDigitChars_dropWhile b]
  exact compare_of_stripped (fun c member => digits c ((List.dropWhile_sublist _).mem member))
    (fun c member => digits' c ((List.dropWhile_sublist _).mem member))
    (head?_dropWhile_ne a) (head?_dropWhile_ne b)

/-! ## Versions -/

theorem tokens_ne_nil (text : List Char) : tokens text ≠ [] := by
  fun_induction tokens text with
  | case2 => assumption
  | _ => simp

/-- Versions are ordered as the lists of their tokens are. -/
theorem compareChars_eq (a b : List Char) : compareChars a b = compare (tokens a) (tokens b) := by
  fun_induction compareChars a b with
  | case1 => exact Std.ReflOrd.compare_self.symm
  | case2 d b separates ih => rw [ih, tokens_separator separates]
  | case3 d b belongs tilde =>
      rw [tokens_nil, tokens_tilde belongs tilde]
      rfl
  | case4 d b belongs other =>
      rw [tokens_nil, compare_tokens_run belongs other (by decide)]
  | case5 c a separates ih => rw [ih, tokens_separator separates]
  | case6 c a belongs tilde =>
      rw [tokens_nil, tokens_tilde belongs tilde]
      rfl
  | case7 c a belongs other =>
      rw [tokens_nil, Std.OrientedOrd.eq_swap, compare_tokens_run belongs other (by decide)]
      rfl
  | case8 c a d b separates ih => rw [ih, tokens_separator separates]
  | case9 c a d b belongs separates ih => rw [ih, tokens_separator separates]
  | case10 c a d b belongs belongs' tilde tilde' ih =>
      rw [ih, tokens_tilde belongs tilde, tokens_tilde belongs' tilde', List.compare_cons_cons]
      rfl
  | case11 c a d b belongs belongs' tilde other =>
      rw [tokens_tilde belongs tilde, compare_tokens_run belongs' other (by decide)]
  | case12 c a d b belongs belongs' other tilde =>
      rw [tokens_tilde belongs' tilde, Std.OrientedOrd.eq_swap,
        compare_tokens_run belongs other (by decide)]
      rfl
  | case13 c a d b belongs belongs' other other' digit digit' ih =>
      have digits {c : Char} (digit : isDigit c = true) (l : List Char) :
          ∀ x ∈ c :: l.takeWhile isDigit, isDigit x = true :=
        List.forall_mem_cons.mpr ⟨digit, fun _ member => List.mem_takeWhile_imp member⟩
      rw [ih, tokens_digit belongs other digit, tokens_digit belongs' other' digit',
        List.compare_cons_cons, Token.compare_number,
        compareDigits_eq (digits digit a) (digits digit' b)]
  | case14 c a d b belongs belongs' other other' digit letter =>
      rw [tokens_digit belongs other digit, tokens_letter belongs' other' letter]
      rfl
  | case15 c a d b belongs belongs' other other' letter digit =>
      rw [tokens_letter belongs other letter, tokens_digit belongs' other' digit]
      rfl
  | case16 c a d b belongs belongs' other other' letter letter' ih =>
      rw [ih, tokens_letter belongs other letter, tokens_letter belongs' other' letter',
        ← Token.compare_letters, ← List.compare_cons_cons]

protected theorem compare_eq (a b : String) :
    Version.compare a b = compare (tokens a.toList) (tokens b.toList) :=
  compareChars_eq a.toList b.toList

/-- The tokens of a release; there are none where there is no release. -/
def releaseTokens (release : Option String) : List Token :=
  release.elim [] fun text => tokens text.toList

theorem compareReleases_eq (a b : Option String) :
    compareReleases a b = compare (releaseTokens a) (releaseTokens b) := by
  have first (text : String) : compare [] (tokens text.toList) = .lt := by
    obtain ⟨token, rest, some_tokens⟩ := List.exists_cons_of_ne_nil (tokens_ne_nil text.toList)
    rw [some_tokens]
    rfl
  cases a with
  | none =>
      cases b with
      | none => rfl
      | some b => exact (first b).symm
  | some a =>
      cases b with
      | none =>
          change .gt = compare (tokens a.toList) []
          rw [Std.OrientedOrd.eq_swap, first]
          rfl
      | some b => exact Version.compare_eq a b

theorem compare_self (a : String) : Version.compare a a = .eq := by
  rw [Version.compare_eq]
  exact Std.ReflOrd.compare_self

theorem compareReleases_self (a : Option String) : compareReleases a a = .eq := by
  rw [compareReleases_eq]
  exact Std.ReflOrd.compare_self

end HostProfile.Version
