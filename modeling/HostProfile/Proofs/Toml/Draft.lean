import HostProfile.Proofs.OrderedMap
import HostProfile.Toml.Document

/-!
# Building up tables

The lines of tables one after another, each of them with a header and with a name and a value on
each further line, build up these tables in their order, provided that neither the names of the
tables nor the names within one of them repeat.
-/

namespace HostProfile.Toml

/-- The entries of a table with a value each. -/
def valued (entries : List (String × Toml)) : Entries := entries.map fun e => (e.1, .value e.2)

/-- The tables of a document, opened by a header each. -/
def opened (tables : List (String × List (String × Toml))) : Entries :=
  tables.map fun t => (t.1, .table .opened (valued t.2))

@[simp] theorem names_valued (entries : List (String × Toml)) :
    (valued entries).map Prod.fst = entries.map Prod.fst := by
  simp [valued]

@[simp] theorem names_opened (tables : List (String × List (String × Toml))) :
    (opened tables).map Prod.fst = tables.map Prod.fst := by
  simp [opened]

theorem valued_append (entries : List (String × Toml)) (name : String) (v : Toml) :
    valued (entries ++ [(name, v)]) = valued entries ++ [(name, .value v)] := by
  simp [valued]

theorem opened_append (tables : List (String × List (String × Toml))) (name : String)
    (entries : List (String × Toml)) :
    opened (tables ++ [(name, entries)]) =
      opened tables ++ [(name, .table .opened (valued entries))] := by
  simp [opened]

namespace Entries

variable {name : String} {es inner inner' : Entries}

theorem alter_append (fresh : name ∉ es.map Prod.fst) (f : Option Node → Option Node)
    (more : Entries) : alter name f (es ++ more) = (alter name f more).map (es ++ ·) := by
  induction es with
  | nil => simp
  | cons e es ih =>
      simp only [List.map_cons, List.mem_cons, not_or] at fresh
      rw [List.cons_append, alter, if_neg (Ne.symm fresh.1), ih fresh.2, Option.map_map]
      rfl

theorem alter_new {f : Option Node → Option Node} {node : Node} (fresh : name ∉ es.map Prod.fst)
    (change : f none = some node) : alter name f es = some (es ++ [(name, node)]) := by
  have last := alter_append fresh f []
  rw [List.append_nil, alter, change] at last
  exact last

theorem openTable_new (fresh : name ∉ es.map Prod.fst) :
    openTable ⟨[], name⟩ es = some (es ++ [(name, .table .opened [])]) :=
  alter_new fresh rfl

theorem assign_new (fresh : name ∉ es.map Prod.fst) (v : Toml) :
    assign ⟨[], name⟩ v es = some (es ++ [(name, .value v)]) :=
  alter_new fresh rfl

/-- A change in the table that was opened last. -/
theorem within_last {f : Entries → Option Entries} (fresh : name ∉ es.map Prod.fst)
    (change : f inner = some inner') :
    within f [name] (es ++ [(name, .table .opened inner)]) =
      some (es ++ [(name, .table .opened inner')]) := by
  rw [within, alter_append fresh, alter, if_pos rfl]
  simp only [within, change, Option.map_some]

theorem finishEntries_valued (entries : List (String × Toml)) :
    finishEntries (valued entries) = entries := by
  induction entries with
  | nil => rfl
  | cons e entries ih => rw [valued, List.map_cons, finishEntries, ← valued, ih, Node.finish]

theorem finish_opened (tables : List (String × List (String × Toml))) :
    finish (opened tables) = .table (tables.map fun t => (t.1, .table t.2)) := by
  rw [finish]
  congr 1
  induction tables with
  | nil => rfl
  | cons t tables ih =>
      rw [opened, List.map_cons, finishEntries, ← opened, ih, Node.finish, finishEntries_valued,
        List.map_cons]

end Entries

/-! ## Carrying out lines -/

/-- The lines of a table. -/
def tableLines (t : String × List (String × Toml)) : List Statement :=
  .openTable ⟨[], t.1⟩ :: t.2.map fun e => .assign ⟨[], e.1⟩ e.2

section Drafts

variable {before : List (String × List (String × Toml))} {t : String × List (String × Toml)}
  (fresh : t.1 ∉ before.map Prod.fst)

include fresh

theorem add_openTable (current : List String) :
    Draft.add ⟨opened before, current⟩ (.openTable ⟨[], t.1⟩) =
      some ⟨opened (before ++ [(t.1, [])]), [t.1]⟩ := by
  rw [← names_opened] at fresh
  rw [Draft.add, Entries.openTable_new fresh, opened_append]
  rfl

theorem add_assign {entries : List (String × Toml)} {key : String}
    (new : key ∉ entries.map Prod.fst) (v : Toml) :
    Draft.add ⟨opened (before ++ [(t.1, entries)]), [t.1]⟩ (.assign ⟨[], key⟩ v) =
      some ⟨opened (before ++ [(t.1, entries ++ [(key, v)])]), [t.1]⟩ := by
  rw [← names_opened] at fresh
  rw [← names_valued] at new
  have change := Entries.within_last fresh (Entries.assign_new new v)
  rw [Draft.add, opened_append, change, opened_append, valued_append]
  rfl

theorem foldlM_assign (entries more : List (String × Toml))
    (nodup : ((entries ++ more).map Prod.fst).Nodup) :
    (more.map fun e => Statement.assign ⟨[], e.1⟩ e.2).foldlM Draft.add
        ⟨opened (before ++ [(t.1, entries)]), [t.1]⟩ =
      some ⟨opened (before ++ [(t.1, entries ++ more)]), [t.1]⟩ := by
  induction more generalizing entries with
  | nil => simp
  | cons e more ih =>
      have new : e.1 ∉ entries.map Prod.fst := not_mem_of_nodup_append nodup
      rw [List.map_cons, List.foldlM_cons, add_assign fresh new]
      have rest := ih (entries ++ [e]) (by simpa using nodup)
      rw [List.append_assoc] at rest
      exact rest

/-- The lines of a table with a new name add the table. -/
theorem foldlM_tableLines (nodup : (t.2.map Prod.fst).Nodup) (current : List String) :
    (tableLines t).foldlM Draft.add ⟨opened before, current⟩ =
      some ⟨opened (before ++ [t]), [t.1]⟩ := by
  rw [tableLines, List.foldlM_cons, add_openTable fresh]
  exact foldlM_assign fresh [] t.2 nodup

end Drafts

/-- The lines of several tables build them up. -/
theorem foldlM_tables (before tables : List (String × List (String × Toml)))
    (names : ((before ++ tables).map Prod.fst).Nodup)
    (nodup : ∀ t ∈ tables, (t.2.map Prod.fst).Nodup) (current : List String) :
    ∃ current', (tables.flatMap tableLines).foldlM Draft.add ⟨opened before, current⟩ =
      some ⟨opened (before ++ tables), current'⟩ := by
  induction tables generalizing before current with
  | nil => exact ⟨current, by simp⟩
  | cons t tables ih =>
      have fresh : t.1 ∉ before.map Prod.fst := not_mem_of_nodup_append names
      have rest := ih (before ++ [t]) (by simpa using names)
        (fun u member => nodup u (List.mem_cons_of_mem _ member)) [t.1]
      rw [List.append_assoc] at rest
      obtain ⟨current', eq⟩ := rest
      refine ⟨current', ?_⟩
      rw [List.flatMap_cons, List.foldlM_append,
        foldlM_tableLines fresh (nodup t List.mem_cons_self)]
      exact eq

end HostProfile.Toml
