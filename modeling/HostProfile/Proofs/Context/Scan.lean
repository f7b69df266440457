import HostProfile.Context.Token
import HostProfile.Proofs.Run

/-!
# Tokens of a text

A text is scanned from the left: blanks are skipped, and where something else stands, the longest
written form of a token that stands there is taken. Scanning comes to the end of the text or to a
character that begins no token. So every text has its tokens, or its stray character, without
recourse to the reader of tokens, which is held to it here.
-/

namespace HostProfile.Context

/-! ## Written forms -/

/-- The ways in which tokens are written. -/
inductive Written : Token → List Char → Prop where
  | name {c : Char} {rest : List Char} : isNameStart c = true →
      (∀ d ∈ rest, isNameChar d = true) → Written (.name (String.ofList (c :: rest))) (c :: rest)
  | singleAnd : Written .and ['&']
  | doubleAnd : Written .and ['&', '&']
  | singleOr : Written .or ['|']
  | doubleOr : Written .or ['|', '|']
  | comma : Written .or [',']
  | not : Written .not ['!']
  | opening : Written .opening ['(']
  | closing : Written .closing [')']

/-- With nothing of what the text goes on with does the word write a token. -/
def Ends (word rest : List Char) : Prop :=
  ∀ t more, more ≠ [] → more <+: rest → ¬ Written t (word ++ more)

/-- Neither skipped nor the beginning of a token. -/
def Stray (c : Char) : Prop := Text.isBlank c = false ∧ ∀ t word, ¬ Written t (c :: word)

/-- The tokens that stand in a text in front of the rest of it. -/
inductive Scanned : List Char → List Token → List Char → Prop where
  | start (rest : List Char) : Scanned rest [] rest
  | blank {c : Char} {cs rest : List Char} {ts : List Token} : Text.isBlank c = true →
      Scanned cs ts rest → Scanned (c :: cs) ts rest
  | token {t : Token} {word cs rest : List Char} {ts : List Token} : Written t word →
      Ends word cs → Scanned cs ts rest → Scanned (word ++ cs) (t :: ts) rest

theorem Scanned.append {cs rest rest' : List Char} {ts us : List Token} (first : Scanned cs ts rest)
    (second : Scanned rest us rest') : Scanned cs (ts ++ us) rest' := by
  induction first with
  | start => exact second
  | blank blank _ ih => exact .blank blank (ih second)
  | token written ends _ ih => exact .token written ends (ih second)

/-! ## Kinds of characters -/

theorem isBlank_of_isNameChar {c : Char} (name : isNameChar c = true) :
    Text.isBlank c = false := by
  have inside (low high : Char) (bounds : low.val ≤ c.val ∧ c.val ≤ high.val)
      (above : 0x20 < low.toNat) (below : high.toNat < 0x85) :
      0x20 < c.toNat ∧ c.toNat < 0x85 :=
    ⟨Nat.lt_of_lt_of_le above (UInt32.le_iff_toNat_le.mp bounds.1),
      Nat.lt_of_le_of_lt (UInt32.le_iff_toNat_le.mp bounds.2) below⟩
  have both {p q : Prop} [Decidable p] [Decidable q] (holds : (decide p && decide q) = true) :
      p ∧ q := (Bool.and_eq_true_iff.mp holds).imp of_decide_eq_true of_decide_eq_true
  have graphic : 0x20 < c.toNat ∧ c.toNat < 0x85 := by
    change (c.isUpper || c.isLower || c.isDigit || c == '_' || c == '.' || c == ':' || c == '/' ||
      c == '+' || c == '-') = true at name
    simp only [Bool.or_eq_true, beq_iff_eq] at name
    obtain (((((((upper | lower) | digit) | rfl) | rfl) | rfl) | rfl) | rfl) | rfl := name
    · exact inside 'A' 'Z' (of_decide_eq_true upper) (by decide) (by decide)
    · exact inside 'a' 'z' (both lower) (by decide) (by decide)
    · exact inside '0' '9' (both digit) (by decide) (by decide)
    all_goals decide
  unfold Text.isBlank
  simp only [Bool.or_eq_false_iff, Bool.and_eq_false_iff, decide_eq_false_iff_not,
    beq_eq_false_iff_ne]
  omega

theorem isBlank_of_isNameStart {c : Char} (start : isNameStart c = true) :
    Text.isBlank c = false :=
  isBlank_of_isNameChar (Bool.and_eq_true_iff.mp start).1

/-- The character is a parenthesis, or an operator begins with it. -/
def isOperator (c : Char) : Bool := ['(', ')', '!', ',', '|', '&'].contains c

/-- May begin a text that is read as tokens: a blank, a name or an operator. -/
def isTokenStart (c : Char) : Bool := Text.isBlank c || isNameStart c || isOperator c

theorem isOperator_iff {c : Char} :
    isOperator c = true ↔ c = '(' ∨ c = ')' ∨ c = '!' ∨ c = ',' ∨ c = '|' ∨ c = '&' := by
  simp only [isOperator, List.contains_cons, List.contains_nil, Bool.or_false, Bool.or_eq_true,
    beq_iff_eq]

theorem isBlank_of_isOperator {c : Char} (operator : isOperator c = true) :
    Text.isBlank c = false := by
  obtain rfl | rfl | rfl | rfl | rfl | rfl := isOperator_iff.mp operator <;> decide

theorem isNameStart_of_isOperator {c : Char} (operator : isOperator c = true) :
    isNameStart c = false := by
  obtain rfl | rfl | rfl | rfl | rfl | rfl := isOperator_iff.mp operator <;> decide

/-- An operator is written in one character, or in two for the doubled ones. -/
theorem Written.of_isOperator {t : Token} {c : Char} {word : List Char}
    (written : Written t (c :: word)) (operator : isOperator c = true) :
    word = [] ∨ word = [c] ∧ (c = '|' ∨ c = '&') := by
  cases written with
  | name start => exact absurd start (ne_true_of_eq_false (isNameStart_of_isOperator operator))
  | doubleAnd => exact .inr ⟨rfl, .inr rfl⟩
  | doubleOr => exact .inr ⟨rfl, .inl rfl⟩
  | _ => exact .inl rfl

/-- What is not written with an operator is a name. -/
theorem Written.name_or_isOperator {t : Token} {c : Char} {word : List Char}
    (written : Written t (c :: word)) :
    (isNameStart c = true ∧ ∀ d ∈ word, isNameChar d = true) ∨ isOperator c = true := by
  cases written with
  | name start rest => exact .inl ⟨start, rest⟩
  | _ => exact .inr (by decide)

theorem exists_written {c : Char} (operator : isOperator c = true) : ∃ t, Written t [c] := by
  obtain rfl | rfl | rfl | rfl | rfl | rfl := isOperator_iff.mp operator
  · exact ⟨_, .opening⟩
  · exact ⟨_, .closing⟩
  · exact ⟨_, .not⟩
  · exact ⟨_, .comma⟩
  · exact ⟨_, .singleOr⟩
  · exact ⟨_, .singleAnd⟩

theorem stray_iff {c : Char} : Stray c ↔ isTokenStart c = false := by
  rw [isTokenStart, Bool.or_eq_false_iff, Bool.or_eq_false_iff]
  constructor
  · rintro ⟨blank, unwritten⟩
    refine ⟨⟨blank, eq_false_of_ne_true fun start => ?_⟩, eq_false_of_ne_true fun operator => ?_⟩
    · exact unwritten _ [] (.name start (List.forall_mem_nil _))
    · obtain ⟨t, written⟩ := exists_written operator
      exact unwritten t [] written
  · rintro ⟨⟨blank, start⟩, operator⟩
    refine ⟨blank, fun t word written => ?_⟩
    rcases written.name_or_isOperator with ⟨is, -⟩ | is
    · exact absurd is (ne_true_of_eq_false start)
    · exact absurd is (ne_true_of_eq_false operator)

/-- Only a dash is written in tokens without beginning one. -/
theorem Stray.eq_dash {c : Char} {t : Token} {word : List Char} (stray : Stray c)
    (written : Written t word) (inside : c ∈ word) : c = '-' := by
  have begins_nothing := stray_iff.mp stray
  rw [isTokenStart, Bool.or_eq_false_iff, Bool.or_eq_false_iff] at begins_nothing
  obtain ⟨⟨-, start⟩, operator⟩ := begins_nothing
  obtain _ | ⟨d, word⟩ := word
  · exact absurd inside List.not_mem_nil
  rcases written.name_or_isOperator with ⟨first, name⟩ | first
  · rcases List.mem_cons.mp inside with rfl | later
    · exact absurd first (ne_true_of_eq_false start)
    · rw [isNameStart, name c later, Bool.true_and] at start
      exact bne_eq_false_iff_eq.mp start
  · have same : c = d := by
      rcases written.of_isOperator first with rfl | ⟨rfl, -⟩
      · exact List.mem_singleton.mp inside
      · exact (List.mem_cons.mp inside).elim id List.mem_singleton.mp
    subst same
    exact absurd first (ne_true_of_eq_false operator)

/-- A stray character that scanning leaves behind is a dash in a name. -/
theorem Scanned.eq_dash {cs rest : List Char} {ts : List Token} (scanned : Scanned cs ts rest)
    {c : Char} (stray : Stray c) (member : c ∈ cs) : c ∈ rest ∨ c = '-' := by
  induction scanned with
  | start => exact .inl member
  | blank blank _ ih =>
      rcases List.mem_cons.mp member with rfl | later
      · exact absurd blank (ne_true_of_eq_false stray.1)
      · exact ih later
  | token written _ _ ih =>
      rcases List.mem_append.mp member with inside | later
      · exact .inr (stray.eq_dash written inside)
      · exact ih later

/-! ## Ends of words -/

theorem ends_name {c : Char} {run rest : List Char} (start : isNameStart c = true)
    (stops : Stops isNameChar rest) : Ends (c :: run) rest := by
  intro t more longer within written
  obtain _ | ⟨d, more⟩ := more
  · exact longer rfl
  obtain ⟨behind, rfl⟩ := within
  rcases written.name_or_isOperator with ⟨-, name⟩ | operator
  · have follows := name d (List.mem_append_right _ List.mem_cons_self)
    exact absurd follows (ne_true_of_eq_false (stops d rfl))
  · exact absurd start (ne_true_of_eq_false (isNameStart_of_isOperator operator))

theorem scanned_name {c : Char} {run : List Char} (start : isNameStart c = true)
    (name : ∀ d ∈ run, isNameChar d = true) :
    Scanned (c :: run) [.name (String.ofList (c :: run))] [] := by
  have scanned : Scanned ((c :: run) ++ []) [.name (String.ofList (c :: run))] [] :=
    .token (.name start name) (ends_name start stops_nil) (.start [])
  rwa [List.append_nil] at scanned

/-- A name ends where no character of names follows. -/
theorem stops_of_ends {c : Char} {run rest : List Char} (start : isNameStart c = true)
    (name : ∀ d ∈ run, isNameChar d = true) (ends : Ends (c :: run) rest) :
    Stops isNameChar rest := by
  intro d next
  obtain ⟨more, rfl⟩ := List.head?_eq_some_iff.mp next
  apply eq_false_of_ne_true
  intro longer
  refine ends _ [d] (List.cons_ne_nil _ _) ⟨more, rfl⟩ (.name start fun x member => ?_)
  rcases List.mem_append.mp member with inside | last
  · exact name x inside
  · exact List.mem_singleton.mp last ▸ longer

theorem ends_single {c : Char} {rest : List Char} (operator : isOperator c = true)
    (single : c = '|' ∨ c = '&' → rest.head? ≠ some c) : Ends [c] rest := by
  intro t more longer within written
  rcases written.of_isOperator operator with none | ⟨rfl, doubled⟩
  · exact longer none
  · obtain ⟨behind, rfl⟩ := within
    exact single doubled rfl

theorem ends_undoubled {c : Char} (operator : isOperator c = true)
    (undoubled : ¬ (c = '|' ∨ c = '&')) (rest : List Char) : Ends [c] rest :=
  ends_single operator fun doubled => absurd doubled undoubled

theorem ends_doubled {c : Char} (operator : isOperator c = true) (rest : List Char) :
    Ends [c, c] rest := by
  intro t more longer _ written
  rcases written.of_isOperator operator with none | ⟨one, -⟩
  · exact absurd none (List.cons_ne_nil _ _)
  · exact longer (List.cons.inj one).2

/-! ## Every text is scanned -/

/-- Scanning comes to the end of the text or to a stray character. -/
inductive Scans (cs : List Char) : Prop where
  | toEnd {ts : List Token} : Scanned cs ts [] → Scans cs
  | toStray {ts : List Token} {c : Char} {rest : List Char} : Scanned cs ts (c :: rest) →
      Stray c → Scans cs

theorem Scans.token {t : Token} {word cs : List Char} (scans : Scans cs) (written : Written t word)
    (ends : Ends word cs) : Scans (word ++ cs) := by
  cases scans with
  | toEnd scanned => exact .toEnd (.token written ends scanned)
  | toStray scanned stray => exact .toStray (.token written ends scanned) stray

theorem scans (offset : Nat) (cs : List Char) : Scans cs := by
  fun_induction tokens offset cs with
  | case1 => exact .toEnd (.start [])
  | case2 _ rest ih => exact ih.token .opening (ends_undoubled (by decide) (by decide) rest)
  | case3 _ rest ih => exact ih.token .closing (ends_undoubled (by decide) (by decide) rest)
  | case4 _ rest ih => exact ih.token .not (ends_undoubled (by decide) (by decide) rest)
  | case5 _ rest ih => exact ih.token .comma (ends_undoubled (by decide) (by decide) rest)
  | case6 _ rest ih => exact ih.token .doubleOr (ends_doubled (by decide) rest)
  | case7 _ rest single ih =>
      refine ih.token .singleOr (ends_single (by decide) fun _ next => ?_)
      obtain ⟨more, rfl⟩ := List.head?_eq_some_iff.mp next
      exact single more rfl
  | case8 _ rest ih => exact ih.token .doubleAnd (ends_doubled (by decide) rest)
  | case9 _ rest single ih =>
      refine ih.token .singleAnd (ends_single (by decide) fun _ next => ?_)
      obtain ⟨more, rfl⟩ := List.head?_eq_some_iff.mp next
      exact single more rfl
  | case10 _ c rest _ _ _ _ _ _ _ _ blank ih =>
      cases ih with
      | toEnd scanned => exact .toEnd (.blank blank scanned)
      | toStray scanned stray => exact .toStray (.blank blank scanned) stray
  | case11 _ c rest _ _ _ _ _ _ _ _ _ start run ih =>
      have name : ∀ d ∈ run, isNameChar d = true := fun d member => List.mem_takeWhile_imp member
      have ends : Ends (c :: run) (rest.dropWhile isNameChar) :=
        ends_name start (stops_dropWhile isNameChar rest)
      have scanned := ih.token (.name start name) ends
      rwa [List.cons_append, List.takeWhile_append_dropWhile] at scanned
  | case12 _ c rest opening closing not comma _ or _ and blank start =>
      have operator : isOperator c = false := by
        apply eq_false_of_ne_true
        rw [isOperator_iff]
        rintro (is | is | is | is | is | is)
        · exact opening is
        · exact closing is
        · exact not is
        · exact comma is
        · exact or is
        · exact and is
      refine .toStray (.start _) (stray_iff.mpr ?_)
      rw [isTokenStart, eq_false_of_ne_true blank, eq_false_of_ne_true start, operator]
      rfl

/-! ## Reading -/

/-- A character that is no operator is skipped, begins a name or is refused. -/
theorem tokens_cons {c : Char} (operator : isOperator c = false) (rest : List Char)
    (offset : Nat) :
    tokens offset (c :: rest) =
      if Text.isBlank c then tokens (offset + c.utf8Size) rest
      else if isNameStart c then
        (tokens (offset + 1 + (rest.takeWhile isNameChar).length) (rest.dropWhile isNameChar)).map
          (.name (String.ofList (c :: rest.takeWhile isNameChar)) :: ·)
      else .error (.unexpectedChar c offset) := by
  have other {d : Char} (operator' : isOperator d = true) : c ≠ d := by
    rintro rfl
    exact absurd operator' (ne_true_of_eq_false operator)
  rw [tokens]
  · split
    · rfl
    split
    · dsimp only
      cases tokens (offset + 1 + (rest.takeWhile isNameChar).length)
        (rest.dropWhile isNameChar) <;> rfl
    · rfl
  case x_5 => exact fun _ is _ => other (by decide) is
  case x_7 => exact fun _ is _ => other (by decide) is
  all_goals exact other (by decide)

theorem tokens_blank {c : Char} (blank : Text.isBlank c = true) (rest : List Char)
    (offset : Nat) : tokens offset (c :: rest) = tokens (offset + c.utf8Size) rest := by
  have operator : isOperator c = false := eq_false_of_ne_true fun operator =>
    absurd blank (ne_true_of_eq_false (isBlank_of_isOperator operator))
  rw [tokens_cons operator, if_pos blank]

theorem tokens_stray {c : Char} (stray : Stray c) (rest : List Char) (offset : Nat) :
    tokens offset (c :: rest) = .error (.unexpectedChar c offset) := by
  have begins_nothing := stray_iff.mp stray
  rw [isTokenStart, Bool.or_eq_false_iff, Bool.or_eq_false_iff] at begins_nothing
  obtain ⟨⟨blank, start⟩, operator⟩ := begins_nothing
  rw [tokens_cons operator, blank, start]
  rfl

/-- The written form of a token that ends where it should is read as the token. -/
theorem tokens_written {t : Token} {word rest : List Char} (written : Written t word)
    (ends : Ends word rest) (offset : Nat) :
    ∃ behind, tokens offset (word ++ rest) = (tokens behind rest).map (t :: ·) := by
  cases written with
  | opening | closing | not | comma =>
      refine ⟨offset + 1, ?_⟩
      rw [List.singleton_append, tokens]
      cases tokens (offset + 1) rest <;> rfl
  | doubleAnd | doubleOr =>
      refine ⟨offset + 2, ?_⟩
      rw [List.cons_append, List.singleton_append, tokens]
      cases tokens (offset + 2) rest <;> rfl
  | singleAnd =>
      refine ⟨offset + 1, ?_⟩
      rw [List.singleton_append, tokens]
      · cases tokens (offset + 1) rest <;> rfl
      · rintro behind rfl
        exact ends .and ['&'] (List.cons_ne_nil _ _) ⟨behind, rfl⟩ .doubleAnd
  | singleOr =>
      refine ⟨offset + 1, ?_⟩
      rw [List.singleton_append, tokens]
      · cases tokens (offset + 1) rest <;> rfl
      · rintro behind rfl
        exact ends .or ['|'] (List.cons_ne_nil _ _) ⟨behind, rfl⟩ .doubleOr
  | @name c run start name =>
      have operator : isOperator c = false := eq_false_of_ne_true fun operator =>
        absurd start (ne_true_of_eq_false (isNameStart_of_isOperator operator))
      have stops := stops_of_ends start name ends
      refine ⟨offset + 1 + run.length, ?_⟩
      rw [List.cons_append, tokens_cons operator, isBlank_of_isNameStart start, start,
        takeWhile_run name stops, dropWhile_run name stops]
      rfl

/-- What has been scanned is read, and reading goes on with the rest. -/
theorem Scanned.tokens_eq {cs rest : List Char} {ts : List Token} (scanned : Scanned cs ts rest)
    (offset : Nat) : ∃ behind, tokens offset cs = (tokens behind rest).map (ts ++ ·) := by
  induction scanned generalizing offset with
  | start rest =>
      refine ⟨offset, ?_⟩
      cases tokens offset rest <;> rfl
  | blank blank _ ih =>
      rw [tokens_blank blank]
      exact ih _
  | token written ends _ ih =>
      obtain ⟨next, first⟩ := tokens_written written ends offset
      obtain ⟨behind, others⟩ := ih next
      refine ⟨behind, ?_⟩
      rw [first, others]
      cases tokens behind _ <;> rfl

variable {text : String} {ts : List Token} {c : Char} {rest : List Char}

/-- A text with a stray character is refused for it. -/
theorem tokenize_of_stray (scanned : Scanned text.toList ts (c :: rest)) (stray : Stray c) :
    ∃ offset, tokenize text = .error (.unexpectedChar c offset) := by
  obtain ⟨offset, read⟩ := scanned.tokens_eq 0
  refine ⟨offset, ?_⟩
  rw [tokenize, read, tokens_stray stray]
  rfl

/-- The tokens of a text are those that are scanned up to its end. -/
theorem tokenize_eq_ok_iff : tokenize text = .ok ts ↔ Scanned text.toList ts [] := by
  have read {us : List Token} (scanned : Scanned text.toList us []) : tokenize text = .ok us := by
    obtain ⟨offset, read⟩ := scanned.tokens_eq 0
    rw [tokenize, read, tokens]
    exact congrArg Except.ok (List.append_nil us)
  refine ⟨fun ok => ?_, read⟩
  cases scans 0 text.toList with
  | toEnd scanned =>
      have same := (read scanned).symm.trans ok
      exact Except.ok.inj same ▸ scanned
  | toStray scanned stray =>
      obtain ⟨offset, refused⟩ := tokenize_of_stray scanned stray
      cases refused.symm.trans ok

end HostProfile.Context
