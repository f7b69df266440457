import HostProfile.Proofs.Context.Name
import HostProfile.Proofs.ItemTable.Listing
import HostProfile.Proofs.Refusal
import Mathlib.Data.List.Dedup

/-!
# What keys tell

A key joins the parts of an item that its scope names by a dot and an at sign. No context holds an
at sign, so that the last one tells it apart; but names and architectures may hold dots, and a key
can be read apart at another dot than it was joined at. That is the only way in which two items
have one key and do not collide.
-/

namespace HostProfile

/-! ## Texts with separators -/

/-- A text is read apart at the last separator in one way. -/
theorem eq_of_append_separator {α : Type} {sep : α} {u v c d : List α} (hc : sep ∉ c) (hd : sep ∉ d)
    (same : u ++ sep :: c = v ++ sep :: d) : u = v ∧ c = d := by
  rcases List.append_eq_append_iff.mp same with ⟨m, longer, rest⟩ | ⟨m, longer, rest⟩
  · cases m with
    | nil =>
        rw [List.append_nil] at longer
        exact ⟨longer.symm, (List.cons.inj rest).2⟩
    | cons x m =>
        obtain ⟨rfl, rfl⟩ := List.cons.inj rest
        exact absurd (List.mem_append_right m List.mem_cons_self) hc
  · cases m with
    | nil =>
        rw [List.append_nil] at longer
        exact ⟨longer, (List.cons.inj rest).2.symm⟩
    | cons x m =>
        obtain ⟨rfl, rfl⟩ := List.cons.inj rest
        exact absurd (List.mem_append_right m List.mem_cons_self) hd

/-- An expression has blanks, operators and names in it, and no at sign. -/
theorem Context.Expr.at_notMem_of_parse {text : String} {e : Expr} (ok : parse text = .ok e) :
    '@' ∉ text.toList := by
  intro member
  cases scans 0 text.toList with
  | toStray scanned stray =>
      obtain ⟨cause, refused⟩ := parse_of_scanned_stray scanned stray
      cases refused.symm.trans ok
  | toEnd scanned =>
      rcases scanned.eq_dash (stray_iff.mpr rfl) member with left | dash
      · exact absurd left List.not_mem_nil
      · exact absurd dash (by decide)

/-! ## Parts of keys -/

variable {T : Type} [Item T]

/-- What validation says of the parts of a key: an architecture that is there is not empty, and the
context holds no at sign. -/
structure Item.Keyed (a : T) : Prop where
  arch : Item.arch a ≠ some ""
  context : '@' ∉ (Item.context a).toList

namespace KeyScope

/-- What a key has of the architecture, behind the name. -/
def archText (scope : KeyScope) (arch : Option String) : String :=
  match scope, arch with
  | name, _ | nameArch, none => ""
  | nameArch, some arch => "." ++ arch
  | nameArchContext, arch => "." ++ arch.getD ""

/-- What a key has of the context, at its end. -/
def contextText (scope : KeyScope) (context : String) : String :=
  match scope with
  | name | nameArch => ""
  | nameArchContext => "@" ++ context

/-- The key of `a` is read apart at a later dot as that of `b`: the name of `b` goes on behind that
of `a` with a dot and the beginning of the architecture of `a`. -/
structure Misread (scope : KeyScope) (a b : T) : Prop where
  extended : ∃ middle, Item.name b = Item.name a ++ "." ++ middle ∧
    Item.arch a = some (middle ++ scope.archText (Item.arch b))
  arch : scope ≠ .name
  context : scope.contextText (Item.context a) = scope.contextText (Item.context b)

variable {scope : KeyScope} {a b : T}

theorem key_eq (scope : KeyScope) (a : T) : scope.key a =
    Item.name a ++ scope.archText (Item.arch a) ++ scope.contextText (Item.context a) := by
  cases scope with
  | name => simp [key, archText, contextText]
  | nameArch =>
      cases arch : Item.arch a <;> simp [key, archText, contextText, arch, String.append_assoc]
  | nameArchContext => simp [key, archText, contextText, String.append_assoc]

theorem toList_dot_append (text : String) : ("." ++ text).toList = '.' :: text.toList :=
  String.toList_append

theorem archText_some (arch : scope ≠ .name) (text : String) :
    scope.archText (some text) = "." ++ text := by
  cases scope with
  | name => exact absurd rfl arch
  | nameArch | nameArchContext => rfl

/-- The text tells the architecture, where none is empty. -/
theorem eq_of_archText_eq (arch : scope ≠ .name) {x y : Option String} (hx : x ≠ some "")
    (hy : y ≠ some "") (same : scope.archText x = scope.archText y) : x = y := by
  cases x with
  | none =>
      cases y with
      | none => rfl
      | some y =>
          rw [archText_some arch] at same
          cases scope with
          | name => exact absurd rfl arch
          | nameArch => exact absurd same.symm (by simp [archText])
          | nameArchContext =>
              exact absurd (congrArg some ((String.append_right_inj ".").mp same).symm) hy
  | some x =>
      cases y with
      | none =>
          rw [archText_some arch] at same
          cases scope with
          | name => exact absurd rfl arch
          | nameArch => exact absurd same (by simp [archText])
          | nameArchContext =>
              exact absurd (congrArg some ((String.append_right_inj ".").mp same)) hx
      | some y =>
          rw [archText_some arch, archText_some arch] at same
          exact congrArg some ((String.append_right_inj ".").mp same)

/-- The context is told apart from what is in front of it. -/
theorem key_eq_iff_texts (ha : '@' ∉ (Item.context a).toList) (hb : '@' ∉ (Item.context b).toList) :
    scope.key a = scope.key b ↔
      Item.name a ++ scope.archText (Item.arch a) = Item.name b ++ scope.archText (Item.arch b) ∧
        scope.contextText (Item.context a) = scope.contextText (Item.context b) := by
  rw [key_eq, key_eq]
  refine ⟨fun same => ?_, fun same => by rw [same.1, same.2]⟩
  cases scope with
  | name | nameArch => simpa [contextText] using same
  | nameArchContext =>
      have chars := String.toList_inj.mpr same
      have sign (text : String) : ("@" ++ text).toList = '@' :: text.toList := String.toList_append
      rw [contextText, contextText, String.toList_append, sign,
        String.toList_append (s := Item.name b ++ _), sign] at chars
      obtain ⟨front, context⟩ := eq_of_append_separator ha hb chars
      exact ⟨String.toList_inj.mp front, congrArg ("@" ++ ·) (String.toList_inj.mp context)⟩

/-- Items whose keys are made of the same texts collide. -/
theorem collides_of_texts (ha : Item.Keyed a) (hb : Item.Keyed b)
    (name : Item.name a = Item.name b)
    (arch : scope.archText (Item.arch a) = scope.archText (Item.arch b))
    (context : scope.contextText (Item.context a) = scope.contextText (Item.context b)) :
    scope.collides a b = true := by
  cases scope with
  | name => simp [collides, name]
  | nameArch =>
      have arch := eq_of_archText_eq (by decide) ha.arch hb.arch arch
      simp [collides, name, arch]
  | nameArchContext =>
      have arch := eq_of_archText_eq (by decide) ha.arch hb.arch arch
      have context := (String.append_right_inj "@").mp context
      simp [collides, name, arch, context]

/-- What the text of an architecture has in front of another's is a dot and the beginning of the
architecture. -/
theorem arch_of_archText {x y : Option String} {c : Char} {middle : List Char}
    (same : (scope.archText x).toList = c :: middle ++ (scope.archText y).toList) :
    c = '.' ∧ x = some (String.ofList middle ++ scope.archText y) := by
  cases x with
  | some x =>
      have arch : scope ≠ .name := by
        rintro rfl
        exact absurd same nofun
      rw [archText_some arch, toList_dot_append] at same
      obtain ⟨dot, rest⟩ := List.cons.inj same
      refine ⟨dot.symm, congrArg some (String.toList_inj.mp ?_)⟩
      rw [String.toList_append, String.toList_ofList]
      exact rest
  | none =>
      -- A key that has a dot for no architecture has nothing behind it, and the other key has one.
      cases scope with
      | name | nameArch => exact absurd same nofun
      | nameArchContext =>
          rw [archText, archText, toList_dot_append, toList_dot_append] at same
          exact absurd (List.cons.inj same).2 (by simp)

/-- Where the name of `b` begins with that of `a`, the two are one name or the key is misread. -/
theorem collides_or_misread (ha : Item.Keyed a) (hb : Item.Keyed b) {middle : List Char}
    (longer : (Item.name b).toList = (Item.name a).toList ++ middle)
    (rest : (scope.archText (Item.arch a)).toList =
      middle ++ (scope.archText (Item.arch b)).toList)
    (context : scope.contextText (Item.context a) = scope.contextText (Item.context b)) :
    scope.collides a b = true ∨ scope.Misread a b := by
  cases middle with
  | nil =>
      rw [List.append_nil] at longer
      exact .inl (collides_of_texts ha hb (String.toList_inj.mp longer.symm)
        (String.toList_inj.mp rest) context)
  | cons c middle =>
      obtain ⟨rfl, arch⟩ := arch_of_archText rest
      refine .inr ⟨⟨String.ofList middle, String.toList_inj.mp ?_, arch⟩, ?_, context⟩
      · rw [longer, String.append_assoc, String.toList_append, toList_dot_append,
          String.toList_ofList]
      · rintro rfl
        exact absurd rest nofun

/-- A key that is misread is the key of both. -/
theorem Misread.key_eq (misread : scope.Misread a b) : scope.key a = scope.key b := by
  obtain ⟨⟨middle, name, arch⟩, has_arch, context⟩ := misread
  rw [KeyScope.key_eq, KeyScope.key_eq, context, name, arch, archText_some has_arch]
  simp only [String.append_assoc]

/-- Two items have one key exactly when they collide or one's key is misread as the other's. -/
theorem key_eq_iff (ha : Item.Keyed a) (hb : Item.Keyed b) : scope.key a = scope.key b ↔
    scope.collides a b = true ∨ scope.Misread a b ∨ scope.Misread b a := by
  constructor
  · intro same
    obtain ⟨front, context⟩ := (key_eq_iff_texts ha.context hb.context).mp same
    have chars := String.toList_inj.mpr front
    rw [String.toList_append, String.toList_append] at chars
    rcases List.append_eq_append_iff.mp chars with ⟨middle, longer, rest⟩ | ⟨middle, longer, rest⟩
    · exact (collides_or_misread ha hb longer rest context).imp_right .inl
    · rw [collides_comm]
      exact (collides_or_misread hb ha longer rest context.symm).imp_right .inr
  · rintro (collides | misread | misread)
    · exact key_eq_of_collides (Nat.le_refl _) collides
    · exact misread.key_eq
    · exact misread.key_eq.symm

end KeyScope

/-! ## Built items -/

theorem Item.Valid.keyed {a : T} (valid : Item.Valid a) (arch : Item.arch a ≠ some "") :
    Item.Keyed a where
  arch := arch
  context := by
    obtain ⟨e, parsed⟩ := valid.context
    exact Context.Expr.at_notMem_of_parse parsed

theorem Package.Built.keyed {p : Package} (built : p.Built) : Item.Keyed p := by
  refine built.valid.keyed fun empty => ?_
  obtain ⟨spec, made, ok, same⟩ := built
  obtain ⟨rfl, -, arch, -⟩ := build_eq_ok_iff.mp ok
  have same_arch : spec.arch = p.arch := Item.eq_of_sameFields same Item.arch
    LawfulItem.arch_withPriority LawfulItem.arch_withDerivation
  have refused : (some "").forM Identifier.packageArch.check =
      .error (.emptyIdentifier .packageArch) := rfl
  rw [same_arch, show p.arch = some "" from empty, refused] at arch
  exact absurd arch nofun

theorem Resource.Built.keyed {r : Resource} (built : r.Built) : Item.Keyed r :=
  built.valid.keyed nofun

/-- The name that is read too long has a dot in it, and so has the architecture that is read too
short, unless nothing is left of it. -/
theorem KeyScope.Misread.dots {scope : KeyScope} {a b : Package} (misread : scope.Misread a b) :
    '.' ∈ b.name.toList ∧ ∃ arch, a.arch = some arch ∧
      ('.' ∈ arch.toList ∨ scope = .nameArch ∧ b.arch = none) := by
  obtain ⟨⟨middle, name, arch⟩, has_arch, -⟩ := misread
  have name : b.name = a.name ++ "." ++ middle := name
  refine ⟨?_, _, arch, ?_⟩
  · rw [name, String.append_assoc, String.toList_append, toList_dot_append]
    exact List.mem_append_right _ List.mem_cons_self
  · have dotted (rest : String) (is : scope.archText b.arch = "." ++ rest) :
        '.' ∈ (middle ++ scope.archText b.arch).toList := by
      rw [is, String.toList_append, toList_dot_append]
      exact List.mem_append_right _ List.mem_cons_self
    cases left : b.arch with
    | some rest => exact .inl (dotted rest (by rw [left, archText_some has_arch]))
    | none =>
        cases scope with
        | name => exact absurd rfl has_arch
        | nameArch => exact .inr ⟨rfl, rfl⟩
        | nameArchContext => exact .inl (dotted "" (by rw [left]; rfl))

/-! ## Tables -/

theorem KeyedTable.Sound.perm_erase {S : Type} [Slot S] {t : KeyedTable S} (ht : t.Sound)
    (key : String) : (t.erase key).slots.Perm (t.slots.filter fun s => Slot.key s != key) := by
  obtain ⟨sound, found⟩ := ht.erase key
  suffices kept : (t.erase key).slots.Perm ((t.slots.map id).filter fun s => Slot.key s != key) by
    rwa [List.map_id] at kept
  refine ht.perm_of_found sound (fun _ => rfl) fun k => ?_
  rw [found, Option.map_id, id_eq]
  cases hold : t.find? k with
  | none => simp
  | some s =>
      obtain ⟨-, rfl⟩ := ht.find?_eq_some_iff.mp hold
      by_cases same : Slot.key s = key <;> simp [Option.filter, same]

namespace ItemTable

variable {t rest : ItemTable T} {key : String} {c : Chain T}

/-- The chain under a key has the definitions of the key, in their order. -/
theorem WellFormed.items_chainAt_eq (wf : t.WellFormed) (key : String) :
    (t.chainAt key).items = t.handles.filter fun h => t.keyOf h.item == key := by
  have others : ∀ c ∈ t.table.slots, c.key ≠ key →
      (c.items.filter fun h => t.keyOf h.item == key) = [] := by
    intro c stored other
    refine List.filter_eq_nil_iff.mpr fun h held same => other ?_
    rw [← wf.keyOf_of_mem stored held]
    exact eq_of_beq same
  rw [handles, List.filter_flatMap, wf.flatMap_slots others rfl]
  exact (List.filter_eq_self.mpr fun h held => beq_iff_eq.mpr (wf.placed_chainAt held)).symm

/-- A table has as many chains as its definitions have keys. -/
theorem WellFormed.size_eq (wf : t.WellFormed) :
    t.size = (t.handles.map fun h => t.keyOf h.item).dedup.length := by
  have keys : (t.table.slots.map Slot.key).Perm
      (t.handles.map fun h => t.keyOf h.item).dedup := by
    rw [List.perm_ext_iff_of_nodup wf.sound.nodup_keys (List.nodup_dedup _)]
    intro key
    rw [List.mem_dedup, List.mem_map, List.mem_map]
    constructor
    · rintro ⟨c, stored, rfl⟩
      obtain ⟨h, held⟩ := List.exists_mem_of_ne_nil _ (wf.stored (wf.find?_key stored)).nonempty
      exact ⟨h, List.mem_flatMap_of_mem stored held, wf.keyOf_of_mem stored held⟩
    · rintro ⟨h, member, rfl⟩
      obtain ⟨c, stored, held⟩ := List.mem_flatMap.mp member
      exact ⟨c, stored, (wf.keyOf_of_mem stored held).symm⟩
  rw [size, KeyedTable.size_eq_length_slots, ← keys.length_eq, List.length_map]

/-- What is left when a chain is taken out are the definitions of other keys. -/
theorem WellFormed.perm_handles_remove (wf : t.WellFormed)
    (removed : t.remove key = some (c, rest)) :
    rest.handles.Perm (t.handles.filter fun h => t.keyOf h.item != key) := by
  obtain ⟨-, rfl⟩ := remove_eq_some removed
  refine ((wf.sound.perm_erase key).flatMap_right _).trans (.of_eq ?_)
  have left : ∀ c ∈ t.table.slots.filter (fun c => Slot.key c != key),
      c.items = c.items.filter fun h => t.keyOf h.item != key := by
    intro c member
    obtain ⟨stored, other⟩ := List.mem_filter.mp member
    refine (List.filter_eq_self.mpr fun h held => ?_).symm
    rwa [wf.keyOf_of_mem stored held]
  rw [handles, List.filter_flatMap, List.flatMap_congr left, flatMap_filter_of_nil]
  intro c stored gone
  refine List.filter_eq_nil_iff.mpr fun h held other => ?_
  rw [wf.keyOf_of_mem stored held] at other
  exact absurd other (ne_true_of_eq_false gone)

/-- The chain of a stored definition is found and can be taken out. -/
theorem WellFormed.exists_remove (wf : t.WellFormed) {h : Handle T} (held : h ∈ t.handles) :
    ∃ c rest, t.find? (t.keyOf h.item) = some c ∧ t.remove (t.keyOf h.item) = some (c, rest) := by
  have here := wf.mem_handles_iff.mp held
  cases found : t.find? (t.keyOf h.item) with
  | none =>
      rw [chainAt_of_none found] at here
      exact absurd here List.not_mem_nil
  | some c =>
      refine ⟨c, { t with table := t.table.erase (t.keyOf h.item) }, rfl, ?_⟩
      have held : t.table.find? (t.keyOf h.item) = some c := found
      rw [ItemTable.remove, KeyedTable.remove_eq, held]
      rfl

end ItemTable

/-- Two lists have as many different entries when each is got from the other one's. -/
theorem length_dedup_map {α β : Type} [DecidableEq α] [DecidableEq β] {f : α → β} {l : List α}
    (apart : ∀ x ∈ l, ∀ y ∈ l, f x = f y → x = y) :
    (l.map f).dedup.length = l.dedup.length := by
  have perm : (l.map f).dedup.Perm (l.dedup.map f) := by
    refine (List.perm_ext_iff_of_nodup (List.nodup_dedup _) ?_).mpr fun b => by
      simp only [List.mem_dedup, List.mem_map]
    refine (List.nodup_dedup l).map_on fun x hx y hy => ?_
    exact apart x (List.mem_dedup.mp hx) y (List.mem_dedup.mp hy)
  rw [perm.length_eq, List.length_map]

/-! ## Sets of packages -/

namespace PackageSet

/-- The name and the architecture of each stored package. -/
def targets (s : PackageSet) : List (String × Option String) :=
  s.packages.handles.map fun h => (h.item.name, h.item.arch)

variable {s : PackageSet}

/-- Packages of one name and one architecture collide under this scope. -/
theorem collides_iff_target {a b : Package} : KeyScope.nameArch.collides a b = true ↔
    (a.name, a.arch) = (b.name, b.arch) := by
  rw [KeyScope.collides_iff, KeyScope.identity, KeyScope.identity, Prod.mk.injEq, Prod.mk.injEq,
    Option.some.injEq, Prod.mk.injEq, and_iff_left rfl]
  rfl

/-- Where keys tell the stored packages apart, there are as many as packages by name and
architecture. -/
theorem size_eq_of_apart (wf : s.packages.WellFormed) (byArch : s.packages.bucket = .nameArch)
    (apart : ∀ x ∈ s.packages.handles, ∀ y ∈ s.packages.handles,
      KeyScope.nameArch.key x.item = KeyScope.nameArch.key y.item →
        KeyScope.nameArch.collides x.item y.item = true) :
    s.packages.size = s.targets.dedup.length := by
  have key (p : Package) :
      KeyScope.nameArch.key p = p.name ++ KeyScope.nameArch.archText p.arch := by
    rw [KeyScope.key_eq, KeyScope.contextText, String.append_empty]
    rfl
  have keys : (s.packages.handles.map fun h => s.packages.keyOf h.item) =
      s.targets.map fun target => target.1 ++ KeyScope.nameArch.archText target.2 := by
    simp only [ItemTable.keyOf, byArch, targets, List.map_map, key]
    rfl
  rw [wf.size_eq, keys]
  refine length_dedup_map fun x hx y hy same => ?_
  obtain ⟨g, stored, rfl⟩ := List.mem_map.mp hx
  obtain ⟨h, stored', rfl⟩ := List.mem_map.mp hy
  dsimp only at same
  rw [← key, ← key] at same
  exact collides_iff_target.mp (apart g stored h stored' same)

theorem keyOf_eq (byArch : s.packages.bucket = .nameArch) :
    s.packages.keyOf = KeyScope.nameArch.key := by
  funext p
  rw [ItemTable.keyOf, byArch]

/-- Under a key lie the packages with this key. -/
theorem items_of_find? (wf : s.packages.WellFormed) (byArch : s.packages.bucket = .nameArch)
    {key : String} {c : Chain Package} (found : s.packages.find? key = some c) :
    c.items = s.packages.handles.filter (KeyScope.nameArch.key ·.item == key) := by
  have items := wf.items_chainAt_eq key
  rwa [ItemTable.chainAt_of_some found, keyOf_eq byArch] at items

/-- Where its key tells a package apart from those it does not collide with, it can be taken out
alone. -/
theorem exists_remove_of_apart (wf : s.packages.WellFormed)
    (byArch : s.packages.bucket = .nameArch) {h : Handle Package} (held : h ∈ s.packages.handles)
    (apart : ∀ x ∈ s.packages.handles, KeyScope.nameArch.key x.item = KeyScope.nameArch.key h.item ↔
      KeyScope.nameArch.collides x.item h.item = true) :
    ∃ c rest, s.packages.find? (KeyScope.nameArch.key h.item) = some c ∧
      s.packages.remove (KeyScope.nameArch.key h.item) = some (c, rest) ∧
      c.items = s.packages.handles.filter (KeyScope.nameArch.collides ·.item h.item) ∧
      rest.handles.Perm
        (s.packages.handles.filter (!KeyScope.nameArch.collides ·.item h.item)) := by
  obtain ⟨c, rest, found, removed⟩ := wf.exists_remove held
  have left := wf.perm_handles_remove removed
  have same : ∀ x ∈ s.packages.handles,
      (KeyScope.nameArch.key x.item == KeyScope.nameArch.key h.item) =
        KeyScope.nameArch.collides x.item h.item := by
    intro x stored
    rw [Bool.eq_iff_iff, beq_iff_eq, apart x stored]
  rw [keyOf_eq byArch] at found removed left
  refine ⟨c, rest, found, removed, ?_, left.trans (.of_eq ?_)⟩
  · rw [items_of_find? wf byArch found, List.filter_congr same]
  · refine List.filter_congr fun x stored => ?_
    rw [bne, ← same x stored]

end PackageSet

/-- Built items have one key exactly when they collide, or when one of the keys is misread at a dot
of an architecture. Resources have no architecture, so that their keys tell them apart. Under one
key of a set that is bucketed by architecture lie the packages with that key, and where no key is
misread these are the ones of one name and architecture, as many keys as there are of these. -/
theorem equal_keys_iff (scope : KeyScope) (s : PackageSet) :
    (∀ a b : Package, a.Built → b.Built →
      (scope.key a = scope.key b ↔
        scope.collides a b = true ∨ scope.Misread a b ∨ scope.Misread b a)) ∧
    (∀ a b : Resource, a.Built → b.Built →
      (scope.key a = scope.key b ↔ scope.collides a b = true)) ∧
    (∀ a b : Package, scope.Misread a b →
      '.' ∈ b.name.toList ∧ ∃ arch, a.arch = some arch ∧
        ('.' ∈ arch.toList ∨ scope = .nameArch ∧ b.arch = none)) ∧
    (s.Reachable → s.bucketByArch = true → (∀ h ∈ s.packages.handles, h.item.Built) →
      (∀ key c, s.packages.find? key = some c →
        c.items = s.packages.handles.filter (KeyScope.nameArch.key ·.item == key) ∧
        ∀ x ∈ c.items, ∀ y ∈ c.items, KeyScope.nameArch.collides x.item y.item = true ∨
          KeyScope.nameArch.Misread x.item y.item ∨ KeyScope.nameArch.Misread y.item x.item) ∧
      ((∀ x ∈ s.packages.handles, ∀ y ∈ s.packages.handles,
          ¬ KeyScope.nameArch.Misread x.item y.item) →
        s.packages.size = s.targets.dedup.length ∧
        ∀ h ∈ s.packages.handles, ∃ c rest,
          s.packages.find? (KeyScope.nameArch.key h.item) = some c ∧
          s.packages.remove (KeyScope.nameArch.key h.item) = some (c, rest) ∧
          c.items = s.packages.handles.filter (KeyScope.nameArch.collides ·.item h.item) ∧
          rest.handles.Perm
            (s.packages.handles.filter (!KeyScope.nameArch.collides ·.item h.item)))) := by
  refine ⟨fun a b ha hb => KeyScope.key_eq_iff ha.keyed hb.keyed, fun a b ha hb => ?_,
    fun a b misread => misread.dots, fun reachable byArch built => ?_⟩
  · have clear (x y : Resource) : ¬ scope.Misread x y := by
      rintro ⟨⟨middle, -, arch⟩, -, -⟩
      cases arch
    rw [KeyScope.key_eq_iff ha.keyed hb.keyed]
    exact or_iff_left fun misread => misread.elim (clear a b) (clear b a)
  · have wf := reachable.wellFormed
    have bucket : s.packages.bucket = .nameArch := eq_of_beq byArch
    have one_key {x y : Handle Package} (hx : x ∈ s.packages.handles)
        (hy : y ∈ s.packages.handles) :
        KeyScope.nameArch.key x.item = KeyScope.nameArch.key y.item ↔ _ :=
      KeyScope.key_eq_iff (built x hx).keyed (built y hy).keyed
    refine ⟨fun key c found => ?_, fun clear => ?_⟩
    · have items := PackageSet.items_of_find? wf bucket found
      refine ⟨items, fun x hx y hy => ?_⟩
      rw [items, List.mem_filter, beq_iff_eq] at hx hy
      exact (one_key hx.1 hy.1).mp (hx.2.trans hy.2.symm)
    · have apart {x y} (hx : x ∈ s.packages.handles) (hy : y ∈ s.packages.handles) :
          KeyScope.nameArch.key x.item = KeyScope.nameArch.key y.item ↔
            KeyScope.nameArch.collides x.item y.item = true := by
        rw [one_key hx hy]
        exact or_iff_left fun misread => misread.elim (clear x hx y hy) (clear y hy x hx)
      exact ⟨PackageSet.size_eq_of_apart wf bucket fun x hx y hy => (apart hx hy).mp,
        fun h held => PackageSet.exists_remove_of_apart wf bucket held fun x hx => apart hx held⟩

/-- The key of one package is misread as that of another whose name has the architecture in it. Two
packages whose names have no dots are told apart, and either can be taken out of a set alone. -/
theorem equal_keys_iff_of_arches :
    let long : Package := { name := "openssl.x86_64" }
    let short : Package := { name := "openssl", arch := some "x86_64" }
    let port (context : String) : Resource := { name := "port", value := "22", context }
    let glibc (cell : Cell) (arch : String) : Handle Package :=
      ⟨cell, cell + 1, { name := "glibc", arch := some arch }⟩
    let empty : PackageSet := ⟨{
      table := .withBuckets 1, rules := .standard, bucket := .nameArch, scope := .nameArch }⟩
    let s := (PackageSet.merge (glibc 2 "i686")
      (PackageSet.merge (glibc 0 "x86_64") empty ⟨4⟩).state ⟨4⟩).state
    (long.Built ∧ short.Built ∧ KeyScope.nameArch.key long = KeyScope.nameArch.key short ∧
      KeyScope.nameArch.Misread short long ∧ '.' ∈ long.name.toList) ∧
    ((port "").Built ∧ (port "laptop").Built ∧
      KeyScope.nameArchContext.key (port "") ≠ KeyScope.nameArchContext.key (port "laptop")) ∧
    s.Reachable ∧ s.bucketByArch = true ∧ (∀ h ∈ s.packages.handles, h.item.Built) ∧
    s.packages.size = 2 ∧ ∃ c rest, s.packages.find? "glibc.i686" = some c ∧
      s.packages.remove "glibc.i686" = some (c, rest) ∧ c.items = [glibc 2 "i686"] ∧
      rest.handles = [glibc 0 "x86_64"] := by
  intro long short port glibc empty s
  have long_built : long.Built :=
    ⟨_, _, show Package.build long = .ok long by decide +kernel, by decide⟩
  have short_built : short.Built :=
    ⟨_, _, show Package.build short = .ok short by decide +kernel, by decide⟩
  have port_built : (port "").Built :=
    .of_build (show Resource.build (port "") = .ok (port "") by decide +kernel)
  have laptop_built : (port "laptop").Built := by
    have trimmed : Text.trim "laptop" = "laptop" := by decide
    have parsed : Context.Expr.parse "laptop" = .ok _ :=
      Context.Expr.parse_of_isValidName (by decide)
    have built : Resource.build (port "laptop") = .ok (port "laptop") :=
      Resource.build_eq_ok_iff.mpr ⟨congrArg port trimmed.symm, by decide, by decide, by decide,
        _, (congrArg Context.Expr.parse trimmed).trans parsed⟩
    exact .of_build built
  have reachable : s.Reachable :=
    PackageSet.Reachable.merge (PackageSet.Reachable.merge (s := empty)
      (.empty .standard .nameArch .nameArch none {} 1) _) _
  have handles : s.packages.handles = [glibc 2 "i686", glibc 0 "x86_64"] := by decide +kernel
  obtain ⟨packages, -, dots, sets⟩ := equal_keys_iff .nameArch s
  obtain ⟨-, resources, -, -⟩ := equal_keys_iff .nameArchContext s
  have misread : KeyScope.nameArch.Misread short long := by
    have one_key : KeyScope.nameArch.key long = KeyScope.nameArch.key short := by decide
    rcases (packages long short long_built short_built).mp one_key with
      collides | misread | misread
    · exact absurd collides (by decide)
    · exact absurd (dots _ _ misread).1 (by decide)
    · exact misread
  have glibc_built (cell arch) (ok : Package.build (glibc cell arch).item =
      .ok (glibc cell arch).item) : (glibc cell arch).item.Built :=
    ⟨_, _, ok, Item.sameFields_refl _⟩
  have built : ∀ h ∈ s.packages.handles, h.item.Built := by
    rw [handles]
    exact List.forall_mem_cons.mpr ⟨glibc_built _ _ (by decide +kernel),
      List.forall_mem_singleton.mpr (glibc_built _ _ (by decide +kernel))⟩
  have clear : ∀ x ∈ s.packages.handles, ∀ y ∈ s.packages.handles,
      ¬ KeyScope.nameArch.Misread x.item y.item := by
    rw [handles]
    intro x _ y hy misread
    have dotted := (dots _ _ misread).1
    simp only [List.mem_cons, List.not_mem_nil, or_false] at hy
    rcases hy with rfl | rfl <;> exact absurd dotted (by decide)
  obtain ⟨-, alone⟩ := sets reachable (by decide +kernel) built
  obtain ⟨size, each⟩ := alone clear
  obtain ⟨c, rest, found, removed, items, left⟩ :=
    each (glibc 2 "i686") (by rw [handles]; exact List.mem_cons_self)
  have only : s.packages.handles.filter (KeyScope.nameArch.collides ·.item (glibc 2 "i686").item) =
      [glibc 2 "i686"] := by rw [handles]; decide
  have others : (s.packages.handles.filter
      (!KeyScope.nameArch.collides ·.item (glibc 2 "i686").item)) = [glibc 0 "x86_64"] := by
    rw [handles]; decide
  have count : s.targets.dedup.length = 2 := by
    rw [PackageSet.targets, handles]; decide
  exact ⟨⟨long_built, short_built, by decide, misread, (dots _ _ misread).1⟩,
    ⟨port_built, laptop_built, fun same => absurd
      ((resources _ _ port_built laptop_built).mp same) (by decide)⟩,
    reachable, by decide +kernel, built, size.trans count, c, rest, found, removed,
    items.trans only, List.perm_singleton.mp (others ▸ left)⟩

/-- A package whose name ends in an architecture has the key of the package with this architecture.
The two do not collide, and a set that is bucketed by architecture keeps and removes them as one. -/
theorem dotted_name_shares_key :
    let long : Handle Package := ⟨0, 1, { name := "openssl.x86_64" }⟩
    let short : Handle Package := ⟨2, 3, { name := "openssl", arch := some "x86_64" }⟩
    let empty : PackageSet := ⟨{
      table := .withBuckets 1, rules := .standard, bucket := .nameArch, scope := .nameArch }⟩
    let s := (PackageSet.merge short (PackageSet.merge long empty ⟨4⟩).state ⟨4⟩).state
    long.item.Built ∧ short.item.Built ∧
      KeyScope.nameArch.key long.item = KeyScope.nameArch.key short.item ∧
      KeyScope.nameArch.collides long.item short.item = false ∧
      s.Reachable ∧ s.bucketByArch = true ∧ s.packages.handles = [long, short] ∧
      s.packages.size = 1 ∧
      ∃ c rest, s.packages.remove "openssl.x86_64" = some (c, rest) ∧ c.items = [long, short] ∧
        rest.handles = [] := by
  intro long short empty s
  have reachable : s.Reachable :=
    PackageSet.Reachable.merge (PackageSet.Reachable.merge (s := empty)
      (.empty .standard .nameArch .nameArch none {} 1) _) _
  have wf := reachable.wellFormed
  have handles : s.packages.handles = [long, short] := by decide +kernel
  refine ⟨⟨_, _, show Package.build long.item = .ok long.item by decide +kernel, by decide⟩,
    ⟨_, _, show Package.build short.item = .ok short.item by decide +kernel, by decide⟩,
    by decide, by decide, reachable, by decide +kernel, handles, by decide +kernel, ?_⟩
  have key : s.packages.keyOf long.item = "openssl.x86_64" := by decide +kernel
  obtain ⟨c, rest, found, removed⟩ := wf.exists_remove (h := long) (by rw [handles]; decide)
  rw [key] at found removed
  have items := wf.items_chainAt_eq "openssl.x86_64"
  have left := wf.perm_handles_remove removed
  rw [handles] at items left
  rw [ItemTable.chainAt_of_some found] at items
  exact ⟨c, rest, removed, items, List.perm_nil.mp left⟩

end HostProfile
