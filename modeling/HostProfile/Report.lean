import HostProfile.Profile

/-!
# Reports

A report shows as JSON what there is to know of a value: the texts and keys of an item, the flags
of merge rules, and what a container holds, which is its sizes and, where they are wanted, its
contents in the order of buckets and chains.
-/

namespace HostProfile

/-- The stored form of an item, its texts, and its keys from the coarse to the fine scope. -/
def Item.report {T : Type} [Item T] (item : T) : List (String × Json) :=
  [("json", toJson (toJson item).render), ("display", toJson (Item.render item)),
    ("name", toJson (Item.name item)), ("arch", toJson (Item.arch item)),
    ("context", toJson (Item.context item)), ("derivation", toJson (Item.derivation item).render),
    ("priority", toJson (Item.priority item)), ("active", toJson (Item.isActive item)),
    ("keys", toJson (KeyScope.all.map (·.key item)))]

def Resource.report (r : Resource) : List (String × Json) :=
  Item.report r ++ [("value", toJson r.value), ("type", toJson r.valueType)]

def Package.report (p : Package) : List (String × Json) :=
  Item.report p ++
    [("version", toJson p.version), ("release", toJson p.release), ("flags", toJson p.flags),
      ("prefix", toJson p.mark), ("evr", toJson p.versionRelease)]

def MergeRules.report (rules : MergeRules) : Json :=
  .obj [
    ("bits", toJson rules.bits.toNat),
    ("display", toJson rules),
    ("names", toJson rules.names),
    ("name", toJson (rules.single?.map MergeRule.label)),
    ("default", toJson (rules == .none))]

instance {T : Type} [Item T] : ToJson (Chain T) :=
  ⟨fun c => .obj [("key", toJson c.key), ("items", toJson c.items)]⟩

instance : ToJson Component :=
  ⟨fun c => .obj [("name", toJson c.name), ("chains", toJson c.resources.table.slots)]⟩

/-- The number of items and, in a full report, the items. -/
def reportItems {T : Type} [Item T] (full : Bool) (items : List (Handle T)) : Json :=
  .obj (("len", toJson items.length) :: if full then [("items", toJson items)] else [])

/-- The sizes of a table and, in a full report, its slots under the name given. -/
def KeyedTable.report {S : Type} [Slot S] [ToJson S] (full : Bool) (slots : String)
    (t : KeyedTable S) : List (String × Json) :=
  [("len", toJson t.size), ("item_count", toJson t.itemCount), ("buckets", toJson t.bucketCount)] ++
    if full then [(slots, toJson t.slots)] else []

def ItemTable.report {T : Type} [Item T] (full : Bool) (t : ItemTable T) : Json :=
  .obj (t.table.report full "chains")

def Component.report (full : Bool) (c : Component) : Json :=
  .obj (("name", toJson c.name) :: c.resources.table.report full "chains")

def ComponentSet.report (full : Bool) (s : ComponentSet) : Json :=
  .obj (s.table.report full "components")

def Profile.report (full : Bool) (p : Profile) : Json :=
  .obj [("components", p.components.report full), ("packages", p.packages.packages.report full)]

/-- The contexts of a set, each with its priority, in the order of the set. -/
def ContextSet.report (set : ContextSet) : Json := toJson set.priorities.entries

namespace Config

instance : ToJson MergeSettings :=
  ⟨fun m => .obj [("resources", toJson m.resources), ("packages", toJson m.packages)]⟩

instance : ToJson KeySettings where
  toJson k :=
    .obj [
      ("package_scope", toJson k.packageScope),
      ("resource_scope", toJson k.resourceScope),
      ("bucket_by_arch", toJson k.bucketByArch)]

instance : ToJson OutputSettings where
  toJson o :=
    .obj [
      ("case_insensitive", toJson o.caseInsensitive),
      ("all_priorities", toJson o.allPriorities)]

instance : ToJson Settings where
  toJson s :=
    .obj [
      ("merge", toJson s.merge),
      ("keys", toJson s.keys),
      ("contexts", toJson s.contexts.entries),
      ("output", toJson s.output)]

end Config

end HostProfile
