import HostProfile.Handle
import HostProfile.Package
import HostProfile.Resource

/-!
# Laws of items

Priority and derivation can be changed without a change to anything else of an item, and two items
have the same fields when they differ in nothing but these two. Packages and resources obey the
laws; what is proved of chains and tables needs nothing else of an item.
-/

namespace HostProfile

/-- An item in which priority and derivation lie apart from the fields. -/
class LawfulItem (T : Type) [Item T] : Prop where
  name_withPriority : ∀ (a : T) (p : Int32), Item.name (Item.withPriority a p) = Item.name a
  arch_withPriority : ∀ (a : T) (p : Int32), Item.arch (Item.withPriority a p) = Item.arch a
  context_withPriority : ∀ (a : T) (p : Int32),
    Item.context (Item.withPriority a p) = Item.context a
  mark_withPriority : ∀ (a : T) (p : Int32), Item.mark (Item.withPriority a p) = Item.mark a
  derivation_withPriority : ∀ (a : T) (p : Int32),
    Item.derivation (Item.withPriority a p) = Item.derivation a
  priority_withPriority : ∀ (a : T) (p : Int32), Item.priority (Item.withPriority a p) = p
  withPriority_withPriority : ∀ (a : T) (p q : Int32),
    Item.withPriority (Item.withPriority a p) q = Item.withPriority a q
  withPriority_priority : ∀ a : T, Item.withPriority a (Item.priority a) = a
  name_withDerivation : ∀ (a : T) (d : Derivation),
    Item.name (Item.withDerivation a d) = Item.name a
  arch_withDerivation : ∀ (a : T) (d : Derivation),
    Item.arch (Item.withDerivation a d) = Item.arch a
  context_withDerivation : ∀ (a : T) (d : Derivation),
    Item.context (Item.withDerivation a d) = Item.context a
  mark_withDerivation : ∀ (a : T) (d : Derivation),
    Item.mark (Item.withDerivation a d) = Item.mark a
  priority_withDerivation : ∀ (a : T) (d : Derivation),
    Item.priority (Item.withDerivation a d) = Item.priority a
  withDerivation_derivation : ∀ a : T, Item.withDerivation a (Item.derivation a) = a
  /-- Items with the same fields become one item when they get one priority and derivation. -/
  sameFields_iff : ∀ a b : T, Item.sameFields a b = true ↔ ∀ (p : Int32) (d : Derivation),
    Item.withDerivation (Item.withPriority a p) d = Item.withDerivation (Item.withPriority b p) d

attribute [simp] LawfulItem.name_withPriority LawfulItem.arch_withPriority
  LawfulItem.context_withPriority LawfulItem.mark_withPriority
  LawfulItem.derivation_withPriority LawfulItem.priority_withPriority
  LawfulItem.withPriority_withPriority LawfulItem.withPriority_priority
  LawfulItem.name_withDerivation LawfulItem.arch_withDerivation
  LawfulItem.context_withDerivation LawfulItem.mark_withDerivation
  LawfulItem.priority_withDerivation LawfulItem.withDerivation_derivation

instance : LawfulItem Package where
  name_withPriority _ _ := rfl
  arch_withPriority _ _ := rfl
  context_withPriority _ _ := rfl
  mark_withPriority _ _ := rfl
  derivation_withPriority _ _ := rfl
  priority_withPriority _ _ := rfl
  withPriority_withPriority _ _ _ := rfl
  withPriority_priority _ := rfl
  name_withDerivation _ _ := rfl
  arch_withDerivation _ _ := rfl
  context_withDerivation _ _ := rfl
  mark_withDerivation _ _ := rfl
  priority_withDerivation _ _ := rfl
  withDerivation_derivation _ := rfl
  sameFields_iff a b := by
    simp only [Item.sameFields, Package.sameFields, Item.withDerivation, Item.withPriority,
      Bool.and_eq_true, beq_iff_eq, Package.mk.injEq, and_true, forall_const, and_assoc]

instance : LawfulItem Resource where
  name_withPriority _ _ := rfl
  arch_withPriority _ _ := rfl
  context_withPriority _ _ := rfl
  mark_withPriority _ _ := rfl
  derivation_withPriority _ _ := rfl
  priority_withPriority _ _ := rfl
  withPriority_withPriority _ _ _ := rfl
  withPriority_priority _ := rfl
  name_withDerivation _ _ := rfl
  arch_withDerivation _ _ := rfl
  context_withDerivation _ _ := rfl
  mark_withDerivation _ _ := rfl
  priority_withDerivation _ _ := rfl
  withDerivation_derivation _ := rfl
  sameFields_iff a b := by
    simp only [Item.sameFields, Resource.sameFields, Item.withDerivation, Item.withPriority,
      Bool.and_eq_true, beq_iff_eq, Resource.mk.injEq, and_true, forall_const, and_assoc]

variable {T : Type} [Item T]

namespace Item

/-- What does not depend on priority and derivation is equal for items with the same fields. -/
theorem eq_of_sameFields [LawfulItem T] {α : Type} {a b : T} (same : sameFields a b = true)
    (f : T → α) (priority_free : ∀ (x : T) (p : Int32), f (withPriority x p) = f x)
    (derivation_free : ∀ (x : T) (d : Derivation), f (withDerivation x d) = f x) : f a = f b := by
  have equal := (LawfulItem.sameFields_iff a b).mp same 0 {}
  calc
    f a = f (withDerivation (withPriority a 0) {}) := by rw [derivation_free, priority_free]
    _ = f (withDerivation (withPriority b 0) {}) := by rw [equal]
    _ = f b := by rw [derivation_free, priority_free]

theorem sameFields_refl [LawfulItem T] (a : T) : sameFields a a = true :=
  (LawfulItem.sameFields_iff a a).mpr fun _ _ => rfl

theorem sameFields_comm [LawfulItem T] (a b : T) : sameFields a b = sameFields b a := by
  rw [Bool.eq_iff_iff, LawfulItem.sameFields_iff, LawfulItem.sameFields_iff]
  exact forall₂_congr fun _ _ => eq_comm

@[simp] theorem sameFields_withPriority_left [LawfulItem T] (a b : T) (p : Int32) :
    sameFields (withPriority a p) b = sameFields a b := by
  rw [Bool.eq_iff_iff, LawfulItem.sameFields_iff, LawfulItem.sameFields_iff]
  simp only [LawfulItem.withPriority_withPriority]

@[simp] theorem sameFields_withPriority_right [LawfulItem T] (a b : T) (p : Int32) :
    sameFields a (withPriority b p) = sameFields a b := by
  rw [sameFields_comm, sameFields_withPriority_left, sameFields_comm]

theorem sameFields_trans [LawfulItem T] {a b c : T} (ab : sameFields a b = true)
    (bc : sameFields b c = true) : sameFields a c = true :=
  (LawfulItem.sameFields_iff a c).mpr fun p d =>
    ((LawfulItem.sameFields_iff a b).mp ab p d).trans ((LawfulItem.sameFields_iff b c).mp bc p d)

end Item

namespace Item

/-- An item without a mark is one without a directive, and a malformed mark is an error. -/
theorem directive_eq_none_iff {a : T} : directive a = .ok none ↔ mark a = none := by
  unfold directive
  cases marked : mark a with
  | none => exact iff_of_true rfl rfl
  | some c => cases known : Directive.ofChar? c <;> simp [known]

theorem directive_eq_some_iff {a : T} {d : Directive} :
    directive a = .ok (some d) ↔ mark a = some d.char := by
  unfold directive
  cases marked : mark a with
  | none => simp
  | some c =>
      rw [Option.some.injEq, ← Directive.ofChar?_eq_some_iff]
      cases known : Directive.ofChar? c <;> simp [known]

@[simp] theorem directive_withPriority [LawfulItem T] (a : T) (p : Int32) :
    directive (withPriority a p) = directive a := by
  simp only [directive, LawfulItem.mark_withPriority]

end Item

namespace KeyScope

@[simp] theorem key_withPriority [LawfulItem T] (scope : KeyScope) (a : T) (p : Int32) :
    scope.key (Item.withPriority a p) = scope.key a := by
  simp only [key, LawfulItem.name_withPriority, LawfulItem.arch_withPriority,
    LawfulItem.context_withPriority]

/-- The parts of an item that the scope looks at. -/
def identity (scope : KeyScope) (item : T) : String × Option (Option String × Option String) :=
  match scope with
  | name => (Item.name item, none)
  | nameArch => (Item.name item, some (Item.arch item, none))
  | nameArchContext => (Item.name item, some (Item.arch item, some (Item.context item)))

/-- Colliding is having the same parts, and so it is an equivalence. -/
theorem collides_iff {scope : KeyScope} {a b : T} :
    scope.collides a b = true ↔ scope.identity a = scope.identity b := by
  cases scope <;> simp [collides, identity]

theorem collides_refl (scope : KeyScope) (a : T) : scope.collides a a = true :=
  collides_iff.mpr rfl

theorem collides_comm (scope : KeyScope) (a b : T) : scope.collides a b = scope.collides b a := by
  rw [Bool.eq_iff_iff, collides_iff, collides_iff]
  exact eq_comm

theorem collides_trans {scope : KeyScope} {a b c : T} (ab : scope.collides a b = true)
    (bc : scope.collides b c = true) : scope.collides a c = true :=
  collides_iff.mpr ((collides_iff.mp ab).trans (collides_iff.mp bc))

/-- Items with one key collide with the same items. -/
theorem collides_congr {scope : KeyScope} {a b : T} (ab : scope.collides a b = true) (c : T) :
    scope.collides a c = scope.collides b c := by
  rw [Bool.eq_iff_iff, collides_iff, collides_iff, collides_iff.mp ab]

@[simp] theorem identity_withPriority [LawfulItem T] (scope : KeyScope) (a : T) (p : Int32) :
    scope.identity (Item.withPriority a p) = scope.identity a := by
  simp only [identity, LawfulItem.name_withPriority, LawfulItem.arch_withPriority,
    LawfulItem.context_withPriority]

@[simp] theorem collides_withPriority_left [LawfulItem T] (scope : KeyScope) (a b : T)
    (p : Int32) : scope.collides (Item.withPriority a p) b = scope.collides a b := by
  rw [Bool.eq_iff_iff, collides_iff, collides_iff, identity_withPriority]

@[simp] theorem collides_withPriority_right [LawfulItem T] (scope : KeyScope) (a b : T)
    (p : Int32) : scope.collides a (Item.withPriority b p) = scope.collides a b := by
  rw [collides_comm, collides_withPriority_left, collides_comm]

/-- Items with the same fields define the same thing, whatever the scope. -/
theorem collides_of_sameFields [LawfulItem T] (scope : KeyScope) {a b : T}
    (same : Item.sameFields a b = true) : scope.collides a b = true := by
  have name := Item.eq_of_sameFields same Item.name LawfulItem.name_withPriority
    LawfulItem.name_withDerivation
  have arch := Item.eq_of_sameFields same Item.arch LawfulItem.arch_withPriority
    LawfulItem.arch_withDerivation
  have context := Item.eq_of_sameFields same Item.context LawfulItem.context_withPriority
    LawfulItem.context_withDerivation
  cases scope <;> simp [collides, name, arch, context]

/-- The number of parts in a key. -/
def parts : KeyScope → Nat
  | name => 1
  | nameArch => 2
  | nameArchContext => 3

theorem one_le_parts (scope : KeyScope) : 1 ≤ scope.parts := by
  cases scope <;> decide

/-- Items that collide under a scope have one key under every scope that is not finer. -/
theorem key_eq_of_collides {bucket scope : KeyScope} (coarser : bucket.parts ≤ scope.parts)
    {a b : T} (collides : scope.collides a b = true) : bucket.key a = bucket.key b := by
  cases bucket with
  | name => cases scope <;> simp_all [KeyScope.collides, key]
  | nameArch =>
      cases scope with
      | name => exact absurd coarser (by decide)
      | nameArch | nameArchContext =>
          simp only [KeyScope.collides, Bool.and_eq_true, beq_iff_eq] at collides
          cases arch : Item.arch b <;> simp [key, collides, arch]
  | nameArchContext =>
      cases scope with
      | name | nameArch => exact absurd coarser (by decide)
      | nameArchContext => simp_all [KeyScope.collides, key]

end KeyScope

namespace Handle

@[simp] theorem item_withPriority (h : Handle T) (p : Int32) (cell : Cell) :
    (h.withPriority p cell).item = Item.withPriority h.item p := rfl

@[simp] theorem cell_withPriority (h : Handle T) (p : Int32) (cell : Cell) :
    (h.withPriority p cell).cell = cell := rfl

@[simp] theorem origin_withPriority (h : Handle T) (p : Int32) (cell : Cell) :
    (h.withPriority p cell).origin = h.origin := rfl

/-- Whether a handle is a copy does not depend on the cells of the two. -/
theorem copies_congr {a a' b b' : Handle T} (ha : a.item = a'.item) (hao : a.origin = a'.origin)
    (hb : b.item = b'.item) (hbo : b.origin = b'.origin) : a.copies b = a'.copies b' := by
  simp only [copies, ha, hao, hb, hbo]

theorem copies_of_eq [LawfulItem T] {a b : Handle T} (item : a.item = b.item)
    (origin : a.origin = b.origin) : a.copies b = true := by
  simp only [copies, item, origin, Item.sameFields_refl, beq_self_eq_true, Bool.and_self]

/-- The handle with the priority: itself where it has it, and else a copy in a new cell. -/
def atPriority (h : Handle T) (priority : Int32) (supply : Supply) : Handle T × Supply :=
  if priority = Item.priority h.item then (h, supply)
  else (h.withPriority priority supply.next, supply.take.2)

theorem atPriority_self (h : Handle T) (supply : Supply) :
    h.atPriority (Item.priority h.item) supply = (h, supply) := if_pos rfl

theorem atPriority_of_ne {h : Handle T} {priority : Int32}
    (changed : priority ≠ Item.priority h.item) (supply : Supply) :
    h.atPriority priority supply = (h.withPriority priority supply.next, supply.take.2) :=
  if_neg changed

@[simp] theorem item_atPriority [LawfulItem T] (h : Handle T) (priority : Int32)
    (supply : Supply) :
    (h.atPriority priority supply).1.item = Item.withPriority h.item priority := by
  unfold atPriority
  split
  · next same => rw [same, LawfulItem.withPriority_priority]
  · rfl

@[simp] theorem origin_atPriority (h : Handle T) (priority : Int32) (supply : Supply) :
    (h.atPriority priority supply).1.origin = h.origin := by
  unfold atPriority
  split <;> rfl

end Handle

/-- The priority of an item in a container: the one that it has in the container's contexts, or its
own where the container has none. -/
def priorityIn (contexts : Option ContextSet) (item : T) : Except ItemError Int32 :=
  match contexts with
  | none => .ok (Item.priority item)
  | some set => set.evaluateItem item

@[simp] theorem priorityIn_some (set : ContextSet) (item : T) :
    priorityIn (some set) item = set.evaluateItem item := rfl

end HostProfile
