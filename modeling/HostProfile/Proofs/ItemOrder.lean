import HostProfile.Proofs.Item
import HostProfile.Proofs.Version

/-!
# The order of items

Sorted output compares items by `Item.compare`. This is a linear order of their fields: only items
with the same fields compare as equal. Derivation and priority take no part in it, so that items
which differ in nothing else stay as they came in.
-/

namespace HostProfile

/-- An item whose fields are in a linear order. -/
class OrderedItem (T : Type) [Item T] : Prop where
  transCmp : Std.TransCmp (Item.compare : T → T → Ordering)
  compare_eq_iff : ∀ a b : T, Item.compare a b = .eq ↔ Item.sameFields a b = true

instance {T : Type} [Item T] [OrderedItem T] : Std.TransCmp (Item.compare : T → T → Ordering) :=
  OrderedItem.transCmp

namespace Package

/-- Packages are ordered by their parts in turn, versions and releases as lists of tokens. -/
protected theorem compare_eq : Package.compare =
    compareLex (compareOn name) (compareLex (compareOn arch)
      (compareLex (compareOn fun p => Version.tokens p.version.toList)
        (compareLex (compareOn fun p => Version.releaseTokens p.release)
          (compareLex (compareOn version) (compareLex (compareOn release)
            (compareLex (compareOn flags) (compareLex (compareOn mark)
              (compareOn context)))))))) := by
  funext a b
  rw [Package.compare, Version.compare_eq, Version.compareReleases_eq]
  rfl

/-- Versions and releases with the same texts are equal in their own order, so that only the texts
count for equality. -/
theorem compare_eq_iff_sameFields (a b : Package) :
    Package.compare a b = .eq ↔ sameFields a b = true := by
  rw [Package.compare]
  simp only [Ordering.then_eq_eq, Std.LawfulEqOrd.compare_eq_iff_eq, sameFields, Bool.and_eq_true,
    beq_iff_eq]
  constructor
  · rintro ⟨name, arch, -, -, version, release, flags, mark, context⟩
    exact ⟨⟨⟨⟨⟨⟨name, arch⟩, version⟩, release⟩, flags⟩, mark⟩, context⟩
  · rintro ⟨⟨⟨⟨⟨⟨name, arch⟩, version⟩, release⟩, flags⟩, mark⟩, context⟩
    exact ⟨name, arch, version ▸ Version.compare_self _, release ▸ Version.compareReleases_self _,
      version, release, flags, mark, context⟩

instance : OrderedItem Package where
  transCmp := by
    change Std.TransCmp Package.compare
    rw [Package.compare_eq]
    infer_instance
  compare_eq_iff := compare_eq_iff_sameFields

end Package

namespace Resource

theorem compare_eq_iff_sameFields (a b : Resource) :
    Resource.compare a b = .eq ↔ sameFields a b = true := by
  simp only [Resource.compare, Ordering.then_eq_eq, Std.LawfulEqOrd.compare_eq_iff_eq, sameFields,
    Bool.and_eq_true, beq_iff_eq]
  constructor
  · rintro ⟨name, context, value, valueType⟩
    exact ⟨⟨⟨name, value⟩, valueType⟩, context⟩
  · rintro ⟨⟨⟨name, value⟩, valueType⟩, context⟩
    exact ⟨name, context, value, valueType⟩

instance : OrderedItem Resource where
  transCmp := inferInstanceAs (Std.TransCmp (compareLex (compareOn name)
    (compareLex (compareOn context) (compareLex (compareOn value) (compareOn valueType)))))
  compare_eq_iff := compare_eq_iff_sameFields

end Resource

/-! ## The order as a whole -/

/-- The comparison is a linear order of what the equivalence does not tell apart. -/
structure LinearUpTo {α : Type} (cmp : α → α → Ordering) (same : α → α → Bool) : Prop where
  swap : ∀ a b, cmp b a = (cmp a b).swap
  trans : ∀ a b c o, cmp a b = o → cmp b c = o → cmp a c = o
  isLE_trans : ∀ a b c, (cmp a b).isLE → (cmp b c).isLE → (cmp a c).isLE
  eq_iff : ∀ a b, cmp a b = .eq ↔ same a b = true

theorem LinearUpTo.of_transCmp {α : Type} {cmp : α → α → Ordering} [Std.TransCmp cmp]
    {same : α → α → Bool} (eq_iff : ∀ a b, cmp a b = .eq ↔ same a b = true) :
    LinearUpTo cmp same where
  swap _ _ := Std.OrientedCmp.eq_swap
  trans a b c o first second := by
    cases o with
    | lt => exact Std.TransCmp.lt_trans first second
    | eq => exact Std.TransCmp.eq_trans first second
    | gt => exact Std.TransCmp.gt_trans first second
  isLE_trans _ _ _ := Std.TransCmp.isLE_trans
  eq_iff := eq_iff

theorem linearUpTo_sameFields (T : Type) [Item T] [OrderedItem T] :
    LinearUpTo (Item.compare : T → T → Ordering) Item.sameFields :=
  .of_transCmp OrderedItem.compare_eq_iff

/-- Packages of one name and architecture are told apart by their versions first, and then by their
releases. -/
theorem Package.compare_of_versions {a b : Package} {o : Ordering} (name : a.name = b.name)
    (arch : a.arch = b.arch)
    (versions : (Version.compare a.version b.version).then
      (Version.compareReleases a.release b.release) = o) (decided : o ≠ .eq) :
    Package.compare a b = o := by
  rw [Package.compare, name, arch, Std.ReflOrd.compare_self, Std.ReflOrd.compare_self,
    Ordering.eq_then, Ordering.eq_then, ← Ordering.then_assoc, versions]
  cases o with
  | lt => rfl
  | eq => exact absurd rfl decided
  | gt => rfl

/-- Comparing packages is a linear order of their fields, and so is comparing resources. For
packages of one name and architecture it refines the order of versions and, after that, the one of
releases. -/
theorem compare_orders_fields :
    LinearUpTo (Item.compare : Package → Package → Ordering) Item.sameFields ∧
    LinearUpTo (Item.compare : Resource → Resource → Ordering) Item.sameFields ∧
    ∀ (a b : Package) (o : Ordering), a.name = b.name → a.arch = b.arch →
      (Version.compare a.version b.version).then (Version.compareReleases a.release b.release) = o →
      o ≠ .eq → Item.compare a b = o :=
  ⟨linearUpTo_sameFields Package, linearUpTo_sameFields Resource,
    fun _ _ _ name arch versions decided =>
      Package.compare_of_versions name arch versions decided⟩

/-- A candidate comes before its version, and this before the same version with a release, although
the text of that one comes first. -/
theorem compare_orders_fields_of_candidate :
    let vim (version : String) (release : Option String) : Package :=
      { name := "vim", version, release }
    Version.compare "1_0" "1.0" = .eq ∧ compare "1.0" "1_0" = .lt ∧
      Item.compare (vim "1_0~rc" none) (vim "1_0" none) = .lt ∧
      Item.compare (vim "1_0" none) (vim "1.0" (some "2")) = .lt ∧
      Item.compare (vim "1_0~rc" none) (vim "1.0" (some "2")) = .lt ∧
      Item.compare (vim "1.0" (some "2")) (vim "1_0~rc" none) = .gt := by
  intro vim
  obtain ⟨linear, -, refines⟩ := compare_orders_fields
  have same : Version.compare "1_0" "1.0" = .eq := by decide +kernel
  have candidate := refines (vim "1_0~rc" none) (vim "1_0" none) .lt rfl rfl (by decide +kernel)
    (by decide)
  have released := refines (vim "1_0" none) (vim "1.0" (some "2")) .lt rfl rfl (by decide +kernel)
    (by decide)
  have both := linear.trans _ _ _ .lt candidate released
  refine ⟨same, by decide, candidate, released, both, ?_⟩
  rw [linear.swap, both]
  rfl

end HostProfile
