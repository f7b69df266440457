import HostProfile.Proofs.Run
import HostProfile.Proofs.Version

/-!
# Segments of a version

What the segments of a version are can be said without cutting it up: they are the `~`s and the
maximal runs of digits and of letters that stand in it, with nothing between them but separators.
Every version has one list of segments, the order of versions is the order of these lists, and so it
is a total preorder in which versions are equal when their segments are.
-/

namespace HostProfile.Version

/-- The tokens stand in the version from left to right, and the end of it behind them. -/
inductive Segmented : List Char → List Token → Prop where
  | stop : Segmented [] [.stop]
  | separator {c : Char} {rest : List Char} {ts : List Token} : isSeparator c = true →
      Segmented rest ts → Segmented (c :: rest) ts
  | tilde {rest : List Char} {ts : List Token} : Segmented rest ts →
      Segmented ('~' :: rest) (.tilde :: ts)
  | number {c : Char} {run rest : List Char} {ts : List Token} :
      (∀ d ∈ c :: run, isDigit d = true) → Stops isDigit rest → Segmented rest ts →
      Segmented (c :: run ++ rest) (.number (Nat.ofDigitChars 10 (c :: run) 0) :: ts)
  | letters {c : Char} {run rest : List Char} {ts : List Token} :
      (∀ d ∈ c :: run, isLetter d = true) → Stops isLetter rest → Segmented rest ts →
      Segmented (c :: run ++ rest) (.letters (c :: run) :: ts)

/-! ## Kinds of characters -/

section

variable {c : Char}

theorem not_isLetter_of_isDigit (digit : isDigit c = true) : isLetter c = false := by
  obtain ⟨-, high⟩ := Char.isDigit_iff_toNat.mp digit
  have below {d : Char} (later : '9'.toNat < d.toNat) : ¬ d.val ≤ c.val := fun above =>
    Nat.not_le_of_lt (Nat.lt_of_le_of_lt high later) (UInt32.le_iff_toNat_le.mp above)
  have upper : c.isUpper = false := decide_eq_false fun is => below (by decide) is.1
  have lower : c.isLower = false :=
    Bool.and_eq_false_iff.mpr (.inl (decide_eq_false (below (by decide))))
  exact Bool.or_eq_false_iff.mpr ⟨upper, lower⟩

theorem ne_tilde_of_isDigit (digit : isDigit c = true) : ¬ (c == '~') = true := by
  intro same
  rw [eq_of_beq same] at digit
  exact absurd digit (by decide)

theorem ne_tilde_of_isLetter (letter : isLetter c = true) : ¬ (c == '~') = true := by
  intro same
  rw [eq_of_beq same] at letter
  exact absurd letter (by decide)

theorem isSeparator_eq_true_iff : ¬ isSeparator c = true ↔
    isDigit c = true ∨ isLetter c = true ∨ (c == '~') = true := by
  rw [isSeparator, Bool.not_eq_true', Bool.not_eq_false, Bool.or_eq_true, Bool.or_eq_true, or_assoc]

end

/-! ## Cutting up -/

theorem Segmented.eq_tokens {text : List Char} {ts : List Token} (segmented : Segmented text ts) :
    ts = tokens text := by
  induction segmented with
  | stop => exact tokens_nil.symm
  | separator separates _ ih => rw [tokens_separator separates, ih]
  | tilde _ ih => rw [tokens_tilde (by decide) (by decide), ih]
  | number digits stops _ ih =>
      obtain ⟨first, others⟩ := List.forall_mem_cons.mp digits
      rw [List.cons_append,
        tokens_digit (isSeparator_eq_true_iff.mpr (.inl first)) (ne_tilde_of_isDigit first) first,
        takeWhile_run others stops, dropWhile_run others stops, ih]
  | letters letters stops _ ih =>
      obtain ⟨first, others⟩ := List.forall_mem_cons.mp letters
      have no_digit : ¬ isDigit _ = true := fun digit =>
        absurd first (ne_true_of_eq_false (not_isLetter_of_isDigit digit))
      rw [List.cons_append,
        tokens_letter (isSeparator_eq_true_iff.mpr (.inr (.inl first))) (ne_tilde_of_isLetter first)
          no_digit, takeWhile_run others stops, dropWhile_run others stops, ih]

theorem segmented_tokens (text : List Char) : Segmented text (tokens text) := by
  have run {p : Char → Bool} {c : Char} (first : p c = true) (rest : List Char) :
      ∀ d ∈ c :: rest.takeWhile p, p d = true :=
    List.forall_mem_cons.mpr ⟨first, fun _ member => List.mem_takeWhile_imp member⟩
  fun_induction tokens text with
  | case1 => exact .stop
  | case2 c rest separates ih => exact .separator separates ih
  | case3 c rest belongs tilde ih => exact eq_of_beq tilde ▸ .tilde ih
  | case4 c rest belongs other digit ih =>
      have segmented := Segmented.number (run digit rest) (stops_dropWhile isDigit rest) ih
      rwa [List.cons_append, List.takeWhile_append_dropWhile] at segmented
  | case5 c rest belongs other no_digit ih =>
      have letter : isLetter c = true :=
        ((isSeparator_eq_true_iff.mp belongs).resolve_left no_digit).resolve_right other
      have segmented := Segmented.letters (run letter rest) (stops_dropWhile isLetter rest) ih
      rwa [List.cons_append, List.takeWhile_append_dropWhile] at segmented

theorem segmented_iff {text : List Char} {ts : List Token} :
    Segmented text ts ↔ ts = tokens text :=
  ⟨Segmented.eq_tokens, fun same => same ▸ segmented_tokens text⟩

/-! ## The order -/

instance : Std.LawfulEqOrd Token where
  eq_of_compare {t u} same := by
    cases t with
    | tilde | stop => cases u <;> first | rfl | exact absurd same nofun
    | letters run =>
        cases u with
        | letters run' =>
            rw [Token.compare_letters] at same
            exact congrArg _ (Std.LawfulEqOrd.eq_of_compare same)
        | _ => exact absurd same nofun
    | number value =>
        cases u with
        | number value' =>
            rw [Token.compare_number] at same
            exact congrArg _ (Std.LawfulEqOrd.eq_of_compare same)
        | _ => exact absurd same nofun

/-- The order of versions is the lexicographic order of their segments and of the end behind them.
It is a total preorder, and versions are equal in it when they have the same segments. -/
theorem compare_segments (a b c : String) :
    (∃! ts, Segmented a.toList ts) ∧
    (∀ ts us, Segmented a.toList ts → Segmented b.toList us →
      Version.compare a b = compare ts us ∧ (Version.compare a b = .eq ↔ ts = us)) ∧
    Version.compare a a = .eq ∧
    Version.compare b a = (Version.compare a b).swap ∧
    ((Version.compare a b).isLE → (Version.compare b c).isLE → (Version.compare a c).isLE) := by
  refine ⟨⟨tokens a.toList, segmented_iff.mpr rfl, fun _ => segmented_iff.mp⟩, ?_,
    compare_self a, ?_, ?_⟩
  · intro ts us left right
    rw [Version.compare_eq, segmented_iff.mp left, segmented_iff.mp right]
    exact ⟨rfl, Std.compare_eq_iff_eq⟩
  · rw [Version.compare_eq, Version.compare_eq]
    exact Std.OrientedOrd.eq_swap
  · rw [Version.compare_eq, Version.compare_eq, Version.compare_eq]
    exact Std.TransOrd.isLE_trans

theorem compare_segments_candidate :
    Version.compare "1.0~rc" "1.0" = .lt ∧ Version.compare "1.0" "1_00" = .eq ∧
    (Version.compare "1.0~rc" "1_00").isLE := by
  have one {c : Char} {rest : List Char} {ts : List Token} (separates : isSeparator c = true)
      (no_digit : isDigit c = false) (behind : Segmented rest ts) :
      Segmented (['1'] ++ c :: rest) (.number 1 :: ts) :=
    .number (List.all_eq_true.mp rfl) (stops_cons no_digit rest) (.separator separates behind)
  have zero : Segmented (['0'] ++ []) [.number 0, .stop] :=
    .number (List.all_eq_true.mp rfl) stops_nil .stop
  have zeros : Segmented (['0', '0'] ++ []) [.number 0, .stop] :=
    .number (List.all_eq_true.mp rfl) stops_nil .stop
  have last : Segmented (['r', 'c'] ++ []) [.letters ['r', 'c'], .stop] :=
    .letters (List.all_eq_true.mp rfl) stops_nil .stop
  have before : Segmented (['0'] ++ '~' :: ['r', 'c'])
      [.number 0, .tilde, .letters ['r', 'c'], .stop] :=
    .number (List.all_eq_true.mp rfl) (stops_cons (by decide) _) (.tilde last)
  have candidate := one (c := '.') (by decide) (by decide) before
  have release := one (c := '.') (by decide) (by decide) zero
  have padded := one (c := '_') (by decide) (by decide) zeros
  have earlier := ((compare_segments "1.0~rc" "1.0" "1_00").2.1 _ _ candidate release).1
  have same := ((compare_segments "1.0" "1_00" "1_00").2.1 _ _ release padded).2.mpr rfl
  refine ⟨earlier, same, ?_⟩
  exact (compare_segments "1.0~rc" "1.0" "1_00").2.2.2.2 (earlier ▸ rfl) (same ▸ rfl)

end HostProfile.Version
