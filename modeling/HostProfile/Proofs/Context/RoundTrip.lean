import HostProfile.Proofs.Context.Name

/-!
# Printing and reading expressions

The written form of an expression is scanned as one operand, whatever follows that no name goes on
with, and the operand spells the expression. So printing loses nothing, and the names that stand for
themselves are those that contexts can have.
-/

namespace HostProfile.Context

namespace Expr

/-- The tokens of the written form. -/
def words : Expr → List Token
  | always => [.name "true"]
  | never => [.name "false"]
  | name context => [.name context]
  | not e => .not :: e.words
  | and lhs rhs => .opening :: (lhs.words ++ .and :: rhs.words ++ [.closing])
  | or lhs rhs => .opening :: (lhs.words ++ .or :: rhs.words ++ [.closing])

/-- Every name is one that a context can have. -/
def Nameable (e : Expr) : Prop := ∀ n ∈ e.names, isValidName n = true

theorem Nameable.sides {lhs rhs : Expr}
    (nameable : ∀ n ∈ lhs.names ++ rhs.names, isValidName n = true) :
    lhs.Nameable ∧ rhs.Nameable :=
  ⟨fun n member => nameable n (List.mem_append_left _ member),
    fun n member => nameable n (List.mem_append_right _ member)⟩

/-! ## Printed expressions -/

theorem spells_words {e : Expr} (nameable : e.Nameable) : Spells .operand e.words e := by
  induction e with
  | always => exact .always
  | never => exact .never
  | name context =>
      obtain ⟨-, not_true, not_false⟩ :=
        isValidName_iff.mp (nameable context (List.mem_singleton_self context))
      exact .name not_true not_false
  | not e ih => exact .not (ih nameable)
  | and lhs rhs ih_lhs ih_rhs =>
      obtain ⟨left, right⟩ := Nameable.sides nameable
      exact .parentheses (.ofConjunction (.and (.ofOperand (ih_lhs left)) (ih_rhs right)))
  | or lhs rhs ih_lhs ih_rhs =>
      obtain ⟨left, right⟩ := Nameable.sides nameable
      exact .parentheses
        (.or (.ofConjunction (.ofOperand (ih_lhs left))) (.ofOperand (ih_rhs right)))

end Expr

/-- The characters are scanned as the tokens in front of anything that no name goes on with. -/
def Prints (cs : List Char) (ts : List Token) : Prop :=
  ∀ rest, Stops isNameChar rest → Scanned (cs ++ rest) ts rest

theorem prints_name {c : Char} {run : List Char} (start : isNameStart c = true)
    (name : ∀ d ∈ run, isNameChar d = true) :
    Prints (c :: run) [.name (String.ofList (c :: run))] :=
  fun rest stops => .token (.name start name) (ends_name start stops) (.start rest)

theorem Prints.not {cs : List Char} {ts : List Token} (prints : Prints cs ts) :
    Prints ('!' :: cs) (.not :: ts) := by
  intro rest stops
  have scanned : Scanned ('!' :: (cs ++ rest)) (.not :: ts) rest :=
    .token .not (ends_undoubled (by decide) (by decide) _) (prints rest stops)
  exact scanned

/-- Two printed expressions with a doubled operator between them, in parentheses. -/
theorem Prints.joined {lhs rhs : List Char} {ts us : List Token} {c : Char} {operator : Token}
    (left : Prints lhs ts) (right : Prints rhs us) (is_operator : isOperator c = true)
    (written : Written operator [c, c]) :
    Prints ('(' :: (lhs ++ ([' ', c, c, ' '] ++ (rhs ++ [')']))))
      (.opening :: (ts ++ operator :: us ++ [.closing])) := by
  intro rest _
  have blank : Text.isBlank ' ' = true := by decide
  have closing : Scanned (')' :: rest) [.closing] rest :=
    .token .closing (ends_undoubled (by decide) (by decide) rest) (.start rest)
  have after : Scanned (rhs ++ ')' :: rest) (us ++ [.closing]) rest :=
    (right _ (stops_cons (by decide) rest)).append closing
  have middle : Scanned (' ' :: c :: c :: ' ' :: (rhs ++ ')' :: rest))
      (operator :: (us ++ [.closing])) rest :=
    .blank blank (.token written (ends_doubled is_operator _) (.blank blank after))
  have inside : Scanned (lhs ++ ' ' :: c :: c :: ' ' :: (rhs ++ ')' :: rest))
      (ts ++ operator :: (us ++ [.closing])) rest :=
    (left _ (stops_cons (by decide) _)).append middle
  have scanned : Scanned ('(' :: (lhs ++ ' ' :: c :: c :: ' ' :: (rhs ++ ')' :: rest)))
      (.opening :: (ts ++ operator :: (us ++ [.closing]))) rest :=
    .token .opening (ends_undoubled (by decide) (by decide) _) inside
  simpa only [List.cons_append, List.append_assoc, List.nil_append] using scanned

namespace Expr

theorem prints_render {e : Expr} (nameable : e.Nameable) : Prints e.render.toList e.words := by
  induction e with
  | always | never => exact prints_name (by decide) (List.all_eq_true.mp rfl)
  | name context =>
      obtain ⟨⟨c, rest, chars, start, others⟩, -⟩ :=
        isValidName_iff.mp (nameable context (List.mem_singleton_self context))
      have prints := prints_name start others
      rwa [← chars, String.ofList_toList] at prints
  | not e ih =>
      rw [render, String.toList_append]
      exact (ih nameable).not
  | and lhs rhs ih_lhs ih_rhs =>
      obtain ⟨left, right⟩ := Nameable.sides nameable
      simp only [render, String.toList_append, List.append_assoc]
      exact (ih_lhs left).joined (ih_rhs right) (by decide) .doubleAnd
  | or lhs rhs ih_lhs ih_rhs =>
      obtain ⟨left, right⟩ := Nameable.sides nameable
      simp only [render, String.toList_append, List.append_assoc]
      exact (ih_lhs left).joined (ih_rhs right) (by decide) .doubleOr

theorem parse_render_of_nameable {e : Expr} (nameable : e.Nameable) :
    parse e.render = .ok e := by
  have scanned := prints_render nameable [] stops_nil
  rw [List.append_nil] at scanned
  have some_tokens : e.words ≠ [] := by cases e <;> exact List.cons_ne_nil _ _
  apply (parse_eq_ok_iff scanned some_tokens).mpr
  exact .ofConjunction (.ofOperand (spells_words nameable))

end Expr

/-! ## Names of what is read -/

theorem Spells.of_mem_names {level : Level} {ts : List Token} {e : Expr}
    (spells : Spells level ts e) {n : String} (member : n ∈ e.names) :
    .name n ∈ ts ∧ n ≠ "true" ∧ n ≠ "false" := by
  induction spells with
  | always | never => exact absurd member List.not_mem_nil
  | name not_true not_false =>
      obtain rfl := List.mem_singleton.mp member
      exact ⟨List.mem_singleton_self _, not_true, not_false⟩
  | not _ ih => exact (ih member).imp_left (List.mem_cons_of_mem _)
  | parentheses _ ih =>
      exact (ih member).imp_left fun inside =>
        List.mem_cons_of_mem _ (List.mem_append_left _ inside)
  | ofOperand _ ih | ofConjunction _ ih => exact ih member
  | and _ _ ih_lhs ih_rhs | or _ _ ih_lhs ih_rhs =>
      rcases List.mem_append.mp member with left | right
      · exact (ih_lhs left).imp_left (List.mem_append_left _)
      · exact (ih_rhs right).imp_left fun inside =>
          List.mem_append_right _ (List.mem_cons_of_mem _ inside)

theorem Scanned.written_of_mem {cs rest : List Char} {ts : List Token}
    (scanned : Scanned cs ts rest) {t : Token} (member : t ∈ ts) : ∃ word, Written t word := by
  induction scanned with
  | start => exact absurd member List.not_mem_nil
  | blank _ _ ih => exact ih member
  | token written _ _ ih =>
      rcases List.mem_cons.mp member with rfl | later
      · exact ⟨_, written⟩
      · exact ih later

theorem Written.isValidName {n : String} {word : List Char} (written : Written (.name n) word)
    (not_true : n ≠ "true") (not_false : n ≠ "false") : isValidName n = true := by
  cases written with
  | name start others =>
      exact isValidName_iff.mpr
        ⟨⟨_, _, String.toList_ofList, start, others⟩, not_true, not_false⟩

namespace Expr

variable {text : String} {e : Expr}

/-- What is read is nothing but an expression that can be printed and read. -/
theorem nameable_of_parse (ok : parse text = .ok e) : e.Nameable := by
  cases scans 0 text.toList with
  | toStray scanned stray =>
      obtain ⟨cause, refused⟩ := parse_of_scanned_stray scanned stray
      cases refused.symm.trans ok
  | @toEnd ts scanned =>
      by_cases no_tokens : ts = []
      · subst no_tokens
        obtain rfl := Except.ok.inj ((parse_of_no_tokens scanned).symm.trans ok)
        exact List.forall_mem_nil _
      · intro n member
        obtain ⟨inside, not_true, not_false⟩ :=
          ((parse_eq_ok_iff scanned no_tokens).mp ok).of_mem_names member
        obtain ⟨word, written⟩ := scanned.written_of_mem inside
        exact written.isValidName not_true not_false

theorem isValidName_iff_parse {n : String} :
    isValidName n = true ↔ parse n = .ok (.name n) :=
  ⟨parse_of_isValidName, fun ok => nameable_of_parse ok n (List.mem_singleton_self n)⟩

end Expr

theorem exists_enable_iff (set : ContextSet) (n : String) :
    (∃ priority set', set.enable n priority = .ok set') ↔ isValidName n = true := by
  unfold ContextSet.enable
  constructor
  · rintro ⟨priority, set', ok⟩
    by_contra invalid
    rw [Bool.not_eq_true] at invalid
    rw [invalid] at ok
    cases ok
  · intro valid
    refine ⟨1, ⟨set.priorities.insert n 1⟩, ?_⟩
    rw [valid]
    rfl

/-- Printing and reading agree: an expression whose names are valid, such as every one that is
read, is read back from its written form, so that a text and the written form of what it says have
the same value; and the names that are read as themselves are the ones that can be enabled. -/
theorem Expr.parse_render :
    (∀ e : Expr, (∀ n ∈ e.names, isValidName n = true) → parse e.render = .ok e) ∧
    (∀ text e, parse text = .ok e →
      (∀ n ∈ e.names, isValidName n = true) ∧ parse e.render = .ok e ∧
      ∀ set : ContextSet, set.evaluate text = .ok (e.evaluate set) ∧
        set.evaluate e.render = set.evaluate text) ∧
    (∀ n, isValidName n = true ↔ parse n = .ok (.name n)) ∧
    ∀ (set : ContextSet) (n : String),
      (∃ priority set', set.enable n priority = .ok set') ↔ parse n = .ok (.name n) := by
  refine ⟨fun e => parse_render_of_nameable, fun text e ok => ?_, fun n => isValidName_iff_parse,
    fun set n => (exists_enable_iff set n).trans isValidName_iff_parse⟩
  have nameable : e.Nameable := nameable_of_parse ok
  have again : parse e.render = .ok e := parse_render_of_nameable nameable
  refine ⟨nameable, again, fun set => ⟨?_, ?_⟩⟩
  · rw [ContextSet.evaluate, ok]
    rfl
  · rw [ContextSet.evaluate, ContextSet.evaluate, ok, again]

theorem Expr.parse_render_not_and :
    isValidName "home" = true ∧
    parse (Expr.and (.not (.name "home")) .always).render =
      .ok (.and (.not (.name "home")) .always) ∧
    ∀ set : ContextSet, set.evaluate "home" = set.evaluate (Expr.name "home").render := by
  have valid : isValidName "home" = true := by decide
  have read : parse "home" = .ok (.name "home") := (parse_render.2.2.1 "home").mp valid
  refine ⟨valid, parse_render.1 _ ?_, fun set => ?_⟩
  · intro n member
    obtain rfl := List.mem_singleton.mp member
    exact valid
  · exact ((parse_render.2.1 "home" _ read).2.2 set).2.symm

end HostProfile.Context
