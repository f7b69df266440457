import HostProfile.Context.Parser
import HostProfile.Proofs.Context.Scan

/-!
# The grammar of context expressions

The grammar says which tokens spell which expression. Its levels are those of the readers: operators
of one level group to the left, so that a disjunction is one with another conjunction joined to it.

What a reader takes from the front is spelled by the tokens it takes, and a reader that finds the
tokens of an expression takes them, whatever follows that could not go on with them. Hence a text is
read as the expression that its tokens spell, and every other text is refused.
-/

namespace HostProfile.Context

/-- The constructs of the grammar, by how tightly their operators bind. -/
inductive Level where
  | disjunction
  | conjunction
  | operand

/-- The tokens spell the expression. -/
inductive Spells : Level → List Token → Expr → Prop where
  | always : Spells .operand [.name "true"] .always
  | never : Spells .operand [.name "false"] .never
  | name {text : String} : text ≠ "true" → text ≠ "false" →
      Spells .operand [.name text] (.name text)
  | not {ts : List Token} {e : Expr} : Spells .operand ts e → Spells .operand (.not :: ts) (.not e)
  | parentheses {ts : List Token} {e : Expr} : Spells .disjunction ts e →
      Spells .operand (.opening :: (ts ++ [.closing])) e
  | ofOperand {ts : List Token} {e : Expr} : Spells .operand ts e → Spells .conjunction ts e
  | and {ts us : List Token} {lhs rhs : Expr} : Spells .conjunction ts lhs →
      Spells .operand us rhs → Spells .conjunction (ts ++ .and :: us) (.and lhs rhs)
  | ofConjunction {ts : List Token} {e : Expr} : Spells .conjunction ts e →
      Spells .disjunction ts e
  | or {ts us : List Token} {lhs rhs : Expr} : Spells .disjunction ts lhs →
      Spells .conjunction us rhs → Spells .disjunction (ts ++ .or :: us) (.or lhs rhs)

namespace Parser

/-! ## What a reader takes -/

section Takes

variable {P Q : List Token → Prop} {e : Expr} {rest : List Token}
  {r : Except SyntaxError (Expr × { rest : List Token // P rest })}
  {k : Expr × { rest : List Token // P rest } →
    Except SyntaxError (Expr × { rest : List Token // Q rest })}

/-- The reader comes to the expression and leaves the rest. -/
def Takes (r : Except SyntaxError (Expr × { rest : List Token // P rest })) (e : Expr)
    (rest : List Token) : Prop := ∃ bound, r = .ok (e, ⟨rest, bound⟩)

theorem Takes.bound (takes : Takes r e rest) : P rest := takes.elim fun bound _ => bound

theorem takes_ok_iff {e' : Expr} {rest' : List Token} {bound : P rest'} :
    Takes (.ok (e', ⟨rest', bound⟩)) e rest ↔ e = e' ∧ rest = rest' := by
  constructor
  · rintro ⟨_, same⟩
    cases same
    exact ⟨rfl, rfl⟩
  · rintro ⟨rfl, rfl⟩
    exact ⟨bound, rfl⟩

theorem not_takes_error {cause : SyntaxError} : ¬ Takes (P := P) (.error cause) e rest := by
  rintro ⟨_, ok⟩
  cases ok

theorem takes_bind : Takes (r >>= k) e rest ↔
    ∃ lhs mid bound, r = .ok (lhs, ⟨mid, bound⟩) ∧ Takes (k (lhs, ⟨mid, bound⟩)) e rest := by
  cases r with
  | error =>
      refine ⟨fun takes => absurd takes not_takes_error, ?_⟩
      rintro ⟨_, _, _, ok, -⟩
      cases ok
  | ok first =>
      obtain ⟨lhs, mid, bound⟩ := first
      refine ⟨fun takes => ⟨lhs, mid, bound, rfl, takes⟩, ?_⟩
      rintro ⟨_, _, _, ok, takes⟩
      cases ok
      exact takes

/-- A reader that only puts a construct around what another has read. -/
theorem takes_around (f : Expr → Expr)
    (around : ∀ e rest bound, Takes (k (e, ⟨rest, bound⟩)) (f e) rest) :
    Takes (r >>= k) e rest ↔ ∃ e', Takes r e' rest ∧ e = f e' := by
  rw [takes_bind]
  constructor
  · rintro ⟨e', rest', bound, first, _, last⟩
    obtain ⟨_, same⟩ := around e' rest' bound
    cases same.symm.trans last
    exact ⟨e', ⟨bound, first⟩, rfl⟩
  · rintro ⟨e', ⟨bound, first⟩, rfl⟩
    exact ⟨e', rest, bound, first, around e' rest bound⟩

/-- A reader that goes on as another does. -/
theorem takes_then {R : List Token → List Token → Prop}
    {s : Expr → (mid : List Token) →
      Except SyntaxError (Expr × { rest : List Token // R mid rest })}
    {k' : Expr → (mid : List Token) → P mid → Expr × { rest : List Token // R mid rest } →
      Except SyntaxError (Expr × { rest : List Token // Q rest })}
    (goes_on : ∀ lhs mid bound, k (lhs, ⟨mid, bound⟩) = s lhs mid >>= k' lhs mid bound)
    (same : ∀ lhs mid bound e rest bound',
      Takes (k' lhs mid bound (e, ⟨rest, bound'⟩)) e rest) :
    Takes (r >>= k) e rest ↔ ∃ lhs mid, Takes r lhs mid ∧ Takes (s lhs mid) e rest := by
  have after (lhs mid bound) :
      Takes (k (lhs, ⟨mid, bound⟩)) e rest ↔ Takes (s lhs mid) e rest := by
    rw [goes_on, takes_around id (same lhs mid bound)]
    exact exists_eq_right'
  rw [takes_bind]
  constructor
  · rintro ⟨lhs, mid, bound, first, second⟩
    exact ⟨lhs, mid, ⟨bound, first⟩, (after lhs mid bound).mp second⟩
  · rintro ⟨lhs, mid, ⟨bound, first⟩, second⟩
    exact ⟨lhs, mid, bound, first, (after lhs mid bound).mpr second⟩

end Takes

variable {ts rest : List Token} {lhs e : Expr} {text : String}

theorem takes_disjunction : Takes (disjunction ts) e rest ↔
    ∃ lhs mid, Takes (conjunction ts) lhs mid ∧ Takes (disjuncts lhs mid) e rest := by
  rw [disjunction]
  exact takes_then (fun _ _ _ => rfl) fun _ _ _ _ _ _ => ⟨_, rfl⟩

theorem takes_disjuncts_or : Takes (disjuncts lhs (.or :: ts)) e rest ↔
    ∃ rhs mid, Takes (conjunction ts) rhs mid ∧ Takes (disjuncts (.or lhs rhs) mid) e rest := by
  rw [disjuncts]
  exact takes_then (fun _ _ _ => rfl) fun _ _ _ _ _ _ => ⟨_, rfl⟩

theorem takes_disjuncts (ended : ts.head? ≠ some .or) :
    Takes (disjuncts lhs ts) e rest ↔ e = lhs ∧ rest = ts := by
  rw [disjuncts]
  · exact takes_ok_iff
  · rintro more rfl
    exact ended rfl

theorem takes_conjunction : Takes (conjunction ts) e rest ↔
    ∃ lhs mid, Takes (operand ts) lhs mid ∧ Takes (conjuncts lhs mid) e rest := by
  rw [conjunction]
  exact takes_then (fun _ _ _ => rfl) fun _ _ _ _ _ _ => ⟨_, rfl⟩

theorem takes_conjuncts_and : Takes (conjuncts lhs (.and :: ts)) e rest ↔
    ∃ rhs mid, Takes (operand ts) rhs mid ∧ Takes (conjuncts (.and lhs rhs) mid) e rest := by
  rw [conjuncts]
  exact takes_then (fun _ _ _ => rfl) fun _ _ _ _ _ _ => ⟨_, rfl⟩

theorem takes_conjuncts (ended : ts.head? ≠ some .and) :
    Takes (conjuncts lhs ts) e rest ↔ e = lhs ∧ rest = ts := by
  rw [conjuncts]
  · exact takes_ok_iff
  · rintro more rfl
    exact ended rfl

theorem takes_operand_name :
    Takes (operand (.name text :: ts)) e rest ↔ e = atom text ∧ rest = ts := by
  rw [operand]
  exact takes_ok_iff

theorem takes_operand_not :
    Takes (operand (.not :: ts)) e rest ↔ ∃ e', Takes (operand ts) e' rest ∧ e = .not e' := by
  rw [operand]
  exact takes_around .not fun _ _ _ => ⟨_, rfl⟩

theorem takes_operand_opening :
    Takes (operand (.opening :: ts)) e rest ↔ Takes (disjunction ts) e (.closing :: rest) := by
  rw [operand, takes_bind]
  constructor
  · rintro ⟨e', inside, bound, first, last⟩
    cases inside with
    | nil => exact absurd last not_takes_error
    | cons t after =>
        cases t with
        | closing =>
            obtain ⟨rfl, rfl⟩ := takes_ok_iff.mp last
            exact ⟨bound, first⟩
        | _ => exact absurd last not_takes_error
  · rintro ⟨bound, first⟩
    exact ⟨e, _, bound, first, takes_ok_iff.mpr ⟨rfl, rfl⟩⟩

/-! ## The readers are sound -/

theorem spells_atom (text : String) : Spells .operand [.name text] (atom text) := by
  unfold atom
  split
  case isTrue is => exact is ▸ .always
  case isFalse not_true =>
    split
    case isTrue is => exact is ▸ .never
    case isFalse not_false => exact .name not_true not_false

mutual

theorem spells_disjunction {ts rest : List Token} {e : Expr}
    (takes : Takes (disjunction ts) e rest) :
    ∃ read, ts = read ++ rest ∧ Spells .disjunction read e := by
  obtain ⟨lhs, mid, first, others⟩ := takes_disjunction.mp takes
  have shorter : mid.length < ts.length := first.bound
  obtain ⟨read, rfl, spells⟩ := spells_conjunction first
  obtain ⟨more, rfl, spells⟩ := spells_disjuncts (.ofConjunction spells) others
  exact ⟨read ++ more, (List.append_assoc ..).symm, spells⟩
termination_by (ts.length, 4)

theorem spells_disjuncts {done ts rest : List Token} {lhs e : Expr}
    (spells : Spells .disjunction done lhs) (takes : Takes (disjuncts lhs ts) e rest) :
    ∃ read, ts = read ++ rest ∧ Spells .disjunction (done ++ read) e := by
  by_cases more : ts.head? = some .or
  · obtain ⟨ts, rfl⟩ := List.head?_eq_some_iff.mp more
    obtain ⟨rhs, mid, first, others⟩ := takes_disjuncts_or.mp takes
    have shorter : mid.length < ts.length := first.bound
    obtain ⟨read, rfl, next⟩ := spells_conjunction first
    obtain ⟨last, rfl, spells⟩ := spells_disjuncts (.or spells next) others
    refine ⟨.or :: read ++ last, ?_, ?_⟩
    · rw [List.append_assoc, List.cons_append]
    · rwa [← List.append_assoc]
  · obtain ⟨rfl, rfl⟩ := (takes_disjuncts more).mp takes
    exact ⟨[], rfl, (List.append_nil done).symm ▸ spells⟩
termination_by (ts.length, 3)

theorem spells_conjunction {ts rest : List Token} {e : Expr}
    (takes : Takes (conjunction ts) e rest) :
    ∃ read, ts = read ++ rest ∧ Spells .conjunction read e := by
  obtain ⟨lhs, mid, first, others⟩ := takes_conjunction.mp takes
  have shorter : mid.length < ts.length := first.bound
  obtain ⟨read, rfl, spells⟩ := spells_operand first
  obtain ⟨more, rfl, spells⟩ := spells_conjuncts (.ofOperand spells) others
  exact ⟨read ++ more, (List.append_assoc ..).symm, spells⟩
termination_by (ts.length, 2)

theorem spells_conjuncts {done ts rest : List Token} {lhs e : Expr}
    (spells : Spells .conjunction done lhs) (takes : Takes (conjuncts lhs ts) e rest) :
    ∃ read, ts = read ++ rest ∧ Spells .conjunction (done ++ read) e := by
  by_cases more : ts.head? = some .and
  · obtain ⟨ts, rfl⟩ := List.head?_eq_some_iff.mp more
    obtain ⟨rhs, mid, first, others⟩ := takes_conjuncts_and.mp takes
    have shorter : mid.length < ts.length := first.bound
    obtain ⟨read, rfl, next⟩ := spells_operand first
    obtain ⟨last, rfl, spells⟩ := spells_conjuncts (.and spells next) others
    refine ⟨.and :: read ++ last, ?_, ?_⟩
    · rw [List.append_assoc, List.cons_append]
    · rwa [← List.append_assoc]
  · obtain ⟨rfl, rfl⟩ := (takes_conjuncts more).mp takes
    exact ⟨[], rfl, (List.append_nil done).symm ▸ spells⟩
termination_by (ts.length, 1)

theorem spells_operand {ts rest : List Token} {e : Expr} (takes : Takes (operand ts) e rest) :
    ∃ read, ts = read ++ rest ∧ Spells .operand read e := by
  match ts with
  | .name text :: ts =>
      obtain ⟨rfl, rfl⟩ := takes_operand_name.mp takes
      exact ⟨[.name text], rfl, spells_atom text⟩
  | .not :: ts =>
      obtain ⟨e', negated, rfl⟩ := takes_operand_not.mp takes
      obtain ⟨read, rfl, spells⟩ := spells_operand negated
      exact ⟨.not :: read, rfl, .not spells⟩
  | .opening :: ts =>
      obtain ⟨read, rfl, spells⟩ := spells_disjunction (takes_operand_opening.mp takes)
      refine ⟨.opening :: (read ++ [.closing]), ?_, .parentheses spells⟩
      rw [List.cons_append, List.append_assoc, List.singleton_append]
  | [] | .and :: _ | .or :: _ | .closing :: _ =>
      rw [operand] at takes
      · exact absurd takes not_takes_error
      all_goals nofun
termination_by (ts.length, 0)

end

/-! ## The readers are complete -/

theorem head?_cons_ne {t u : Token} (other : t ≠ u) (rest : List Token) :
    (t :: rest).head? ≠ some u := fun same => other (Option.some.inj same)

/-- A reader that finds the tokens of a construct of its level goes on as it does after it. -/
def Finds : Level → List Token → Expr → Prop
  | .operand, ts, e => ∀ rest, Takes (operand (ts ++ rest)) e rest
  | .conjunction, ts, e => ∀ rest e' after,
      Takes (conjuncts e rest) e' after → Takes (conjunction (ts ++ rest)) e' after
  | .disjunction, ts, e => ∀ rest e' after, rest.head? ≠ some .and →
      Takes (disjuncts e rest) e' after → Takes (disjunction (ts ++ rest)) e' after

theorem Finds.conjunction_ended {ts rest : List Token} {e : Expr} (finds : Finds .conjunction ts e)
    (ended : rest.head? ≠ some .and) : Takes (conjunction (ts ++ rest)) e rest :=
  finds rest e rest ((takes_conjuncts ended).mpr ⟨rfl, rfl⟩)

theorem finds_of_spells {level : Level} {ts : List Token} {e : Expr} (spells : Spells level ts e) :
    Finds level ts e := by
  induction spells with
  | always | never => exact fun rest => takes_operand_name.mpr ⟨rfl, rfl⟩
  | name not_true not_false =>
      intro rest
      apply takes_operand_name.mpr
      rw [atom, if_neg not_true, if_neg not_false]
      exact ⟨rfl, rfl⟩
  | not _ ih => exact fun rest => takes_operand_not.mpr ⟨_, ih rest, rfl⟩
  | @parentheses ts e _ ih =>
      intro rest
      rw [List.cons_append, List.append_assoc, List.singleton_append, takes_operand_opening]
      refine ih (.closing :: rest) e _ (head?_cons_ne (by decide) rest) ?_
      exact (takes_disjuncts (head?_cons_ne (by decide) rest)).mpr ⟨rfl, rfl⟩
  | ofOperand _ ih =>
      intro rest e' after others
      exact takes_conjunction.mpr ⟨_, rest, ih rest, others⟩
  | and _ _ ih_lhs ih_rhs =>
      intro rest e' after others
      rw [List.append_assoc, List.cons_append]
      exact ih_lhs _ e' after (takes_conjuncts_and.mpr ⟨_, rest, ih_rhs rest, others⟩)
  | ofConjunction _ ih =>
      intro rest e' after ended others
      exact takes_disjunction.mpr ⟨_, rest, Finds.conjunction_ended ih ended, others⟩
  | or _ _ ih_lhs ih_rhs =>
      intro rest e' after ended others
      rw [List.append_assoc, List.cons_append]
      refine ih_lhs _ e' after (head?_cons_ne (by decide) _) (takes_disjuncts_or.mpr ?_)
      exact ⟨_, rest, Finds.conjunction_ended ih_rhs ended, others⟩

end Parser

/-! ## Texts -/

namespace Expr

variable {ts : List Token} {e : Expr} {text : String}

theorem ofTokens_eq_ok_iff_takes (some_tokens : ts ≠ []) :
    ofTokens ts = .ok e ↔ Parser.Takes (Parser.disjunction ts) e [] := by
  rw [ofTokens]
  case x => exact some_tokens
  cases Parser.disjunction ts with
  | error cause => exact ⟨nofun, fun takes => absurd takes Parser.not_takes_error⟩
  | ok first =>
      obtain ⟨e', rest, bound⟩ := first
      rw [Parser.takes_ok_iff]
      cases rest with
      | nil => exact ⟨fun ok => ⟨(Except.ok.inj ok).symm, rfl⟩, fun ⟨same, _⟩ => same ▸ rfl⟩
      | cons t rest => exact ⟨nofun, fun ⟨_, none_left⟩ => absurd none_left nofun⟩

theorem ofTokens_eq_ok_iff (some_tokens : ts ≠ []) :
    ofTokens ts = .ok e ↔ Spells .disjunction ts e := by
  rw [ofTokens_eq_ok_iff_takes some_tokens]
  constructor
  · intro takes
    obtain ⟨read, rfl, spells⟩ := Parser.spells_disjunction takes
    rwa [List.append_nil]
  · intro spells
    have ended {t : Token} : ([] : List Token).head? ≠ some t := (Option.some_ne_none t).symm
    have takes := Parser.finds_of_spells spells [] e [] ended
      ((Parser.takes_disjuncts ended).mpr ⟨rfl, rfl⟩)
    rwa [List.append_nil] at takes

theorem parse_of_tokenize (read : tokenize text = .ok ts) :
    parse text = (ofTokens ts).mapError (.contextSyntax text) := by
  have bound : tokenize text >>= ofTokens = ofTokens ts := by rw [read]; rfl
  rw [parse, bound]
  cases ofTokens ts <;> rfl

/-- A text that is not read is refused for its syntax. -/
theorem parse_of_ne_ok (unread : ∀ e, parse text ≠ .ok e) :
    ∃ cause, parse text = .error (.contextSyntax text cause) := by
  unfold parse at unread ⊢
  cases read : tokenize text >>= ofTokens with
  | ok e =>
      rw [read] at unread
      exact absurd rfl (unread e)
  | error cause => exact ⟨cause, rfl⟩

theorem parse_of_scanned_stray {c : Char} {rest : List Char}
    (scanned : Scanned text.toList ts (c :: rest)) (stray : Stray c) :
    ∃ cause, parse text = .error (.contextSyntax text cause) := by
  obtain ⟨offset, refused⟩ := tokenize_of_stray scanned stray
  refine ⟨.unexpectedChar c offset, ?_⟩
  rw [parse, refused]
  rfl

theorem parse_of_no_tokens (scanned : Scanned text.toList [] []) : parse text = .ok .always := by
  rw [parse_of_tokenize (tokenize_eq_ok_iff.mpr scanned)]
  rfl

/-- A text with tokens is read as the expression that they spell. -/
theorem parse_eq_ok_iff (scanned : Scanned text.toList ts []) (some_tokens : ts ≠ []) :
    parse text = .ok e ↔ Spells .disjunction ts e := by
  rw [parse_of_tokenize (tokenize_eq_ok_iff.mpr scanned), ← ofTokens_eq_ok_iff some_tokens]
  cases ofTokens ts with
  | ok e' => exact ⟨fun ok => Except.ok.inj ok ▸ rfl, fun ok => Except.ok.inj ok ▸ rfl⟩
  | error cause => exact ⟨nofun, nofun⟩

/-- The texts that are expressions are those whose tokens the grammar derives, and texts without
tokens; each is read as the expression of its derivation, and every other text is refused for its
syntax. A stray character is refused unless it is a dash that a name goes on with. -/
theorem parse_iff_grammar (text : String) :
    Scans text.toList ∧
    (∀ ts c rest, Scanned text.toList ts (c :: rest) → Stray c →
      ∃ cause, parse text = .error (.contextSyntax text cause)) ∧
    (∀ c ∈ text.toList, Stray c → c ≠ '-' →
      ∃ cause, parse text = .error (.contextSyntax text cause)) ∧
    (Scanned text.toList [] [] → parse text = .ok .always) ∧
    ∀ ts, Scanned text.toList ts [] → ts ≠ [] →
      (∀ e, parse text = .ok e ↔ Spells .disjunction ts e) ∧
      ((∀ e, ¬ Spells .disjunction ts e) →
        ∃ cause, parse text = .error (.contextSyntax text cause)) := by
  refine ⟨scans 0 text.toList, fun ts c rest => parse_of_scanned_stray, ?_,
    parse_of_no_tokens, ?_⟩
  · intro c member stray no_dash
    cases scans 0 text.toList with
    | toEnd scanned =>
        rcases scanned.eq_dash stray member with left | dash
        · exact absurd left List.not_mem_nil
        · exact absurd dash no_dash
    | toStray scanned stray => exact parse_of_scanned_stray scanned stray
  · intro ts scanned some_tokens
    have accepted (e : Expr) := parse_eq_ok_iff (e := e) scanned some_tokens
    refine ⟨accepted, fun underivable => parse_of_ne_ok fun e ok => ?_⟩
    exact underivable e ((accepted e).mp ok)

/-- A dash begins no token and is read in a name. -/
theorem parse_of_dash_in_name :
    '-' ∈ "a-b".toList ∧ Stray '-' ∧ parse "a-b" = .ok (.name "a-b") := by
  have scanned : Scanned "a-b".toList [.name "a-b"] [] :=
    scanned_name (by decide) (List.all_eq_true.mp rfl)
  refine ⟨by decide, stray_iff.mpr (by decide), ?_⟩
  apply (parse_eq_ok_iff scanned (List.cons_ne_nil _ _)).mpr
  exact .ofConjunction (.ofOperand (.name (by decide) (by decide)))

theorem parse_a_or_not_b :
    Scanned "a|!b".toList [.name "a", .or, .not, .name "b"] [] ∧
    parse "a|!b" = .ok (.or (.name "a") (.not (.name "b"))) ∧
    parse "" = .ok .always ∧
    (∃ cause, parse "-a" = .error (.contextSyntax "-a" cause)) ∧
    ∃ cause, parse "a|$" = .error (.contextSyntax "a|$" cause) := by
  have last : Scanned ['b'] [.name "b"] [] := scanned_name (by decide) (List.forall_mem_nil _)
  have negated : Scanned ['!', 'b'] [.not, .name "b"] [] :=
    .token .not (ends_single (by decide) (by decide)) last
  have joined : Scanned ['|', '!', 'b'] [.or, .not, .name "b"] [] :=
    .token .singleOr (ends_single (by decide) (by decide)) negated
  have scanned : Scanned ['a', '|', '!', 'b'] [.name "a", .or, .not, .name "b"] [] :=
    .token (.name (by decide) (List.forall_mem_nil _))
      (ends_name (by decide) (stops_cons (by decide) _)) joined
  have left : Spells .disjunction [.name "a"] (.name "a") :=
    .ofConjunction (.ofOperand (.name (by decide) (by decide)))
  have right : Spells .conjunction [.not, .name "b"] (.not (.name "b")) :=
    .ofOperand (.not (.name (by decide) (by decide)))
  have accepted := (parse_iff_grammar "a|!b").2.2.2.2 _ scanned (List.cons_ne_nil _ _)
  have no_tokens := (parse_iff_grammar "").2.2.2.1 (.start [])
  have dash := (parse_iff_grammar "-a").2.1 [] '-' ['a'] (.start _) (stray_iff.mpr (by decide))
  have dollar := (parse_iff_grammar "a|$").2.2.1 '$' (by decide) (stray_iff.mpr (by decide))
  exact ⟨scanned, (accepted.1 _).mpr (.or left right), no_tokens, dash, dollar (by decide)⟩

end Expr

end HostProfile.Context
