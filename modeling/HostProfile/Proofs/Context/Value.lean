import HostProfile.Context.Expr
import HostProfile.Proofs.Except
import HostProfile.Proofs.OrderedMap
import Mathlib.Data.List.Basic

/-!
# Values of expressions

The value of an expression in unbounded integers is what its priority is meant to be. Priorities are
computed with a cap at each conjunction, and this comes to one cap at the end, because sums and
maxima of what lies below the cap do not notice it. So activity is truth, more contexts of higher
priorities never lower the value of an expression without negation, and a conjunction is worth at
least as much as each of its sides.
-/

namespace HostProfile

namespace ContextSet

/-- The sets in which contexts were enabled, one by one or as the layers of a profile, and not read
back from a stored form. -/
inductive Built : ContextSet → Prop where
  | empty : Built empty
  | enable {set set' : ContextSet} {name : String} {priority : Int32} :
      Built set → set.enable name priority = .ok set' → Built set'
  | ofLayers {layers : List String} {set : ContextSet} : ofLayers layers = .ok set → Built set
  | disable {set : ContextSet} (name : String) : Built set → Built (set.disable name)

/-- Every context that is enabled in `s` is enabled in `s'` with at least its priority. -/
def ExtendedBy (s s' : ContextSet) : Prop :=
  ∀ name priority, s.priority? name = some priority →
    ∃ priority', s'.priority? name = some priority' ∧ priority ≤ priority'

/-- Every priority is positive, as those of enabled contexts are. -/
def Positive (set : ContextSet) : Prop := ∀ entry ∈ set.priorities.entries, 0 < entry.2

theorem Positive.of_enable {set set' : ContextSet} {name : String} {priority : Int32}
    (positive : set.Positive) (ok : set.enable name priority = .ok set') : set'.Positive := by
  unfold enable at ok
  split at ok
  · cases ok
  split at ok
  · cases ok
  next high =>
  obtain rfl := Except.ok.inj ok
  intro entry member
  rcases OrderedMap.mem_insert member with old | rfl
  · exact positive entry old
  · exact Int32.not_le.mp high

theorem Built.positive {set : ContextSet} (built : set.Built) : set.Positive := by
  have nothing : ContextSet.empty.Positive := fun _ member => absurd member List.not_mem_nil
  induction built with
  | empty => exact nothing
  | enable _ ok before => exact before.of_enable ok
  | ofLayers ok =>
      refine foldlM_keeps (fun layer _ before after positive ok => ?_) nothing ok
      dsimp only at ok
      split at ok
      · exact positive.of_enable ok
      · cases ok
  | disable name _ before => exact fun entry member => before entry (List.mem_filter.mp member).1

theorem Positive.priority?_pos {set : ContextSet} (positive : set.Positive) {name : String}
    {priority : Int32} (enabled : set.priority? name = some priority) : 0 < priority :=
  positive _ (OrderedMap.mem_of_get? enabled)

end ContextSet

namespace Context

/-- The priority is the integer, or the largest priority where the integer is beyond it. -/
def Caps (priority : Int32) (n : Int) : Prop := priority.toInt = min Int32.maxValue.toInt n

namespace Caps

variable {p q : Int32} {m n : Int}

theorem self (p : Int32) : Caps p p.toInt := by
  have := p.toInt_le
  unfold Caps
  omega

theorem lt_zero_iff (caps : Caps p m) : p < 0 ↔ m < 0 := by
  have max_pos : 0 < Int32.maxValue.toInt := by decide
  have zero : (0 : Int32).toInt = 0 := rfl
  unfold Caps at caps
  rw [Int32.lt_iff_toInt_lt]
  omega

theorem zero_le_iff (caps : Caps p m) : 0 ≤ p ↔ 0 ≤ m := by
  rw [← Int32.not_lt, caps.lt_zero_iff, Int.not_lt]

theorem le (caps : Caps p m) (caps' : Caps q n) (le : m ≤ n) : p ≤ q := by
  unfold Caps at caps caps'
  apply Int32.le_iff_toInt_le.mpr
  omega

/-- A capped sum of capped integers is their sum, capped. -/
theorem add (caps : Caps p m) (caps' : Caps q n) (hm : 0 ≤ m) (hn : 0 ≤ n) :
    Caps (addPriority p q) (m + n) := by
  have max_pos : 0 < Int32.maxValue.toInt := by decide
  have min_neg : Int32.minValue.toInt < 0 := by decide
  unfold Caps at caps caps' ⊢
  unfold addPriority
  by_cases small : p.toInt + q.toInt ≤ Int32.maxValue.toInt
  · rw [Int32.toInt_ofIntClamp (by omega) small]
    omega
  · have clamped : Int32.ofIntClamp (p.toInt + q.toInt) = Int32.maxValue := by
      unfold Int32.ofIntClamp
      rw [dif_pos (by omega), dif_neg small]
    rw [clamped]
    omega

theorem max (caps : Caps p m) (caps' : Caps q n) : Caps (Max.max p q) (Max.max m n) := by
  unfold Caps at caps caps' ⊢
  rw [show Max.max p q = if p ≤ q then q else p from rfl]
  split
  · next le =>
    have := Int32.le_iff_toInt_le.mp le
    omega
  · next lt =>
    have := Int32.lt_iff_toInt_lt.mp (Int32.not_le.mp lt)
    omega

end Caps

namespace Expr

variable {set s s' : ContextSet} {e a b : Expr}

/-- What the priority of the expression is meant to be, in unbounded integers. -/
def value (set : ContextSet) : Expr → Int
  | always => 0
  | never => -1
  | name context => ((set.priority? context).map Int32.toInt).getD (-1)
  | not e => if e.value set < 0 then 0 else -1
  | and lhs rhs =>
    if lhs.value set < 0 ∨ rhs.value set < 0 then -1 else lhs.value set + rhs.value set
  | or lhs rhs => max (lhs.value set) (rhs.value set)

/-- The expression as a formula about the contexts: a context counts as true where it has a
priority that is not negative. -/
def Holds (set : ContextSet) : Expr → Prop
  | always => True
  | never => False
  | name context => ∃ priority, set.priority? context = some priority ∧ 0 ≤ priority
  | not e => ¬ e.Holds set
  | and lhs rhs => lhs.Holds set ∧ rhs.Holds set
  | or lhs rhs => lhs.Holds set ∨ rhs.Holds set

/-- The priority of an expression is its value, capped once. -/
theorem caps_evaluate (set : ContextSet) (e : Expr) : Caps (e.evaluate set) (e.value set) := by
  have inactive : Caps inactive (-1) := Caps.self inactive
  have unconditional : Caps unconditional 0 := Caps.self unconditional
  induction e with
  | always => exact unconditional
  | never => exact inactive
  | name context =>
      rw [evaluate, value]
      cases set.priority? context with
      | none => exact inactive
      | some priority => exact Caps.self priority
  | not e ih =>
      rw [evaluate, value]
      simp only [ih.lt_zero_iff]
      split
      · exact unconditional
      · exact inactive
  | and lhs rhs left right =>
      rw [evaluate, value]
      simp only [Bool.or_eq_true, decide_eq_true_eq, left.lt_zero_iff, right.lt_zero_iff]
      split
      · exact inactive
      · next active =>
        exact left.add right (by omega) (by omega)
  | or lhs rhs left right => exact left.max right

theorem value_nonneg_iff : 0 ≤ e.value set ↔ e.Holds set := by
  induction e with
  | always => exact iff_of_true (Int.le_refl 0) trivial
  | never =>
      rw [value]
      exact iff_of_false (by decide) id
  | name context =>
      rw [value, Holds]
      cases set.priority? context with
      | none => simp
      | some priority =>
          rw [Option.map_some, Option.getD_some, ← (Caps.self priority).zero_le_iff]
          simp
  | not e ih =>
      rw [value, Holds, ← ih]
      split <;> omega
  | and lhs rhs left right =>
      rw [value, Holds, ← left, ← right]
      split <;> omega
  | or lhs rhs left right =>
      rw [value, Holds, ← left, ← right]
      omega

/-- Where contexts have positive priorities, what does not apply has the value -1. -/
theorem neg_one_le_value (positive : set.Positive) (e : Expr) : -1 ≤ e.value set := by
  induction e with
  | always =>
      show (-1 : Int) ≤ 0
      decide
  | never => exact Int.le_refl (-1)
  | name context =>
      rw [value]
      cases enabled : set.priority? context with
      | none => decide
      | some priority =>
          have := Int32.lt_iff_toInt_lt.mp (positive.priority?_pos enabled)
          have zero : (0 : Int32).toInt = 0 := rfl
          rw [Option.map_some, Option.getD_some]
          omega
  | not e ih =>
      rw [value]
      split <;> decide
  | and lhs rhs left right =>
      rw [value]
      split <;> omega
  | or lhs rhs left right =>
      rw [value]
      omega

/-- The priority of an expression is its value in unbounded integers with one cap at the end. It is
not negative exactly when the expression holds, and -1 when it does not hold and the contexts were
enabled. -/
theorem evaluate_exact (e : Expr) (set : ContextSet) :
    (e.evaluate set).toInt = min Int32.maxValue.toInt (e.value set) ∧
    (0 ≤ e.evaluate set ↔ e.Holds set) ∧
    (set.Built → e.evaluate set < 0 → e.evaluate set = -1) := by
  have caps := caps_evaluate set e
  refine ⟨caps, caps.zero_le_iff.trans value_nonneg_iff, fun built inactive => ?_⟩
  have value_neg := caps.lt_zero_iff.mp inactive
  have value_ge := neg_one_le_value built.positive e
  have max_pos : 0 < Int32.maxValue.toInt := by decide
  apply Int32.toInt.inj
  show (e.evaluate set).toInt = -1
  unfold Caps at caps
  omega

/-- A conjunction that would be one beyond the largest priority, and a negation that fails. -/
theorem evaluate_exact_of_largest :
    let set : ContextSet := ⟨⟨[("laptop", Int32.maxValue), ("base", 1)], by decide⟩⟩
    let both : Expr := .and (.name "laptop") (.name "base")
    set.Built ∧ both.value set = 2147483648 ∧ (both.evaluate set).toInt = 2147483647 ∧
      (Expr.not both).evaluate set < 0 ∧ (Expr.not both).evaluate set = -1 := by
  intro set both
  have first : ContextSet.empty.enable "laptop" Int32.maxValue =
      .ok ⟨⟨[("laptop", Int32.maxValue)], by decide⟩⟩ := rfl
  have second : ContextSet.enable ⟨⟨[("laptop", Int32.maxValue)], by decide⟩⟩ "base" 1 =
      .ok set := rfl
  have built : set.Built := .enable (.enable .empty first) second
  have value : both.value set = 2147483648 := by decide
  have inactive : (Expr.not both).evaluate set < 0 := by decide
  obtain ⟨capped, -⟩ := evaluate_exact both set
  rw [value] at capped
  exact ⟨built, value, capped, inactive, (evaluate_exact (.not both) set).2.2 built inactive⟩

/-! ## More contexts -/

/-- Negation occurs nowhere in the expression. -/
def NegationFree : Expr → Prop
  | always | never | name _ => True
  | not _ => False
  | and lhs rhs | or lhs rhs => lhs.NegationFree ∧ rhs.NegationFree

/-- An expression looks at no contexts but those that it names. -/
theorem evaluate_congr (same : ∀ n ∈ e.names, s.priority? n = s'.priority? n) :
    e.evaluate s = e.evaluate s' := by
  induction e with
  | always | never => rfl
  | name context => rw [evaluate, evaluate, same context (List.mem_singleton_self context)]
  | not e ih => rw [evaluate, evaluate, ih same]
  | and lhs rhs left right | or lhs rhs left right =>
      rw [evaluate, evaluate, left fun n member => same n (List.mem_append_left _ member),
        right fun n member => same n (List.mem_append_right _ member)]

theorem value_le_value (positive : s'.Positive) (extended : s.ExtendedBy s')
    (free : e.NegationFree) : e.value s ≤ e.value s' := by
  induction e with
  | always | never => exact Int.le_refl _
  | name context =>
      cases enabled : s.priority? context with
      | none =>
          have absent : (name context).value s = -1 := by rw [value, enabled]; rfl
          rw [absent]
          exact neg_one_le_value positive (name context)
      | some priority =>
          obtain ⟨priority', enabled', le⟩ := extended context priority enabled
          rw [value, value, enabled, enabled']
          exact Int32.le_iff_toInt_le.mp le
  | not e ih => exact free.elim
  | and lhs rhs left right =>
      have := left free.1
      have := right free.2
      rw [value, value]
      split <;> split <;> omega
  | or lhs rhs left right =>
      have := left free.1
      have := right free.2
      rw [value, value]
      omega

/-- A conjunction that applies is worth at least as much as either side. -/
theorem value_le_value_and (active : 0 ≤ (and a b).value set) :
    a.value set ≤ (and a b).value set ∧ b.value set ≤ (and a b).value set := by
  rw [value] at active ⊢
  split at active <;> split <;> omega

/-- The priority of an expression depends on nothing but the priorities of the contexts that it
names. Without negation it does not fall when contexts are enabled and priorities raised. And the
more contexts an item asks for, the higher it is when it applies. -/
theorem evaluate_local_and_monotone :
    (∀ (e : Expr) (s s' : ContextSet), (∀ n ∈ e.names, s.priority? n = s'.priority? n) →
      e.evaluate s = e.evaluate s') ∧
    (∀ (e : Expr) (s s' : ContextSet), e.NegationFree → s'.Built → s.ExtendedBy s' →
      e.evaluate s ≤ e.evaluate s') ∧
    (∀ (a b : Expr) (s : ContextSet), 0 ≤ (and a b).evaluate s →
      a.evaluate s ≤ (and a b).evaluate s ∧ b.evaluate s ≤ (and a b).evaluate s) := by
  refine ⟨fun e s s' => evaluate_congr, fun e s s' free built extended => ?_,
    fun a b s active => ?_⟩
  · exact (caps_evaluate s e).le (caps_evaluate s' e) (value_le_value built.positive extended free)
  · have caps := caps_evaluate s (.and a b)
    obtain ⟨left, right⟩ := value_le_value_and (caps.zero_le_iff.mp active)
    exact ⟨(caps_evaluate s a).le caps left, (caps_evaluate s b).le caps right⟩

/-- A layer that is put in front raises the priorities of those behind it, and with them that of a
conjunction, which does not look at the new layer. -/
theorem evaluate_local_and_monotone_of_layers :
    let s : ContextSet := ⟨⟨[("base", 1), ("laptop", 2)], by decide⟩⟩
    let s' : ContextSet := ⟨⟨[("site", 1), ("base", 2), ("laptop", 3)], by decide⟩⟩
    let both : Expr := .and (.name "base") (.name "laptop")
    s'.Built ∧ s.ExtendedBy s' ∧ both.NegationFree ∧ both.evaluate s ≤ both.evaluate s' ∧
      0 ≤ both.evaluate s ∧ (Expr.name "laptop").evaluate s ≤ both.evaluate s ∧
      both.evaluate (s'.disable "site") = both.evaluate s' := by
  intro s s' both
  obtain ⟨depends, monotone, specific⟩ := evaluate_local_and_monotone
  have layers : ContextSet.ofLayers ["site", "base", "laptop"] = .ok s' := rfl
  have built : s'.Built := .ofLayers layers
  have extended : s.ExtendedBy s' := by
    intro name priority enabled
    rcases List.mem_pair.mp (OrderedMap.mem_of_get? enabled) with is | is
    · cases is
      exact ⟨2, rfl, by decide⟩
    · cases is
      exact ⟨3, rfl, by decide⟩
  have active : 0 ≤ both.evaluate s := by decide
  have same : ∀ n ∈ both.names, (s'.disable "site").priority? n = s'.priority? n := by
    intro n member
    rcases List.mem_pair.mp member with rfl | rfl <;> rfl
  exact ⟨built, extended, ⟨trivial, trivial⟩,
    monotone both s s' ⟨trivial, trivial⟩ built extended, active, (specific _ _ s active).2,
    depends both (s'.disable "site") s' same⟩

end Expr

end Context

end HostProfile
