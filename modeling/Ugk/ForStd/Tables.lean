import Mathlib.Data.List.Nodup

/-!
# Relational databases

A database is a list of named tables, a table a list of columns and rows of that width.  Definition
statements add tables and columns; `Database.Extends` says that what was there still is, so what a
sequence of such statements has added it cannot have added before.

## Key results

- `extends_createIfMissing`, `extends_addColumn`: definition statements only add
- `createIfMissing_eq_self_iff`: creating a table that is there does nothing
- `keeps_createIfMissing`, `keeps_addColumn`: the tables a statement leaves as they are
- `columnNames_addColumn`: the columns after one is added
-/

/-- A column, as `PRAGMA table_info` reports it; the default is an expression. -/
structure Column where
  name : String
  type : String
  notNull : Bool
  default : Option String
  primaryKey : Nat
deriving DecidableEq

/-- A table: its columns, and rows with a value for each of them. -/
@[ext] structure Table (α : Type) where
  columns : List Column
  rows : List (List α)
  width : ∀ row ∈ rows, row.length = columns.length

/-- Named tables, no two of one name. -/
@[ext] structure Database (α : Type) where
  tables : List (String × Table α)
  nodup : (tables.map Prod.fst).Nodup

variable {α : Type}

namespace Table

/-- A table without rows. -/
def ofColumns (columns : List Column) : Table α where
  columns := columns
  rows := []
  width := fun _ h => nomatch h

def columnNames (t : Table α) : List String := t.columns.map Column.name

/-- One more column, with `fill` in every row there is. -/
def addColumn (t : Table α) (c : Column) (fill : α) : Table α where
  columns := t.columns ++ [c]
  rows := t.rows.map fun row => row ++ [fill]
  width := by
    intro row hrow
    obtain ⟨old, hold, rfl⟩ := List.mem_map.mp hrow
    rw [List.length_append, List.length_append, t.width old hold]
    rfl

/-- The values of the rows under the columns that are asked for. -/
def project (t : Table α) (names : List String) : List (List α) :=
  t.rows.map fun row => names.filterMap fun name => row[t.columnNames.idxOf name]?

@[simp] theorem columnNames_ofColumns (columns : List Column) :
    (ofColumns columns : Table α).columnNames = columns.map Column.name := rfl

@[simp] theorem columnNames_addColumn (t : Table α) (c : Column) (fill : α) :
    (t.addColumn c fill).columnNames = t.columnNames ++ [c.name] := by
  simp [columnNames, addColumn]

end Table

namespace Database

variable {db db' db'' : Database α} {name : String}

/-- The names of the tables. -/
def names (db : Database α) : List String := db.tables.map Prod.fst

def find? (db : Database α) (name : String) : Option (Table α) := db.tables.lookup name

/-- The column names of a table, none where there is no such table. -/
def columnNames (db : Database α) (name : String) : List String :=
  ((db.find? name).map Table.columnNames).getD []

/-- `CREATE TABLE IF NOT EXISTS` -/
def createIfMissing (db : Database α) (name : String) (columns : List Column) : Database α :=
  if h : name ∈ db.names then db
  else
    { tables := db.tables ++ [(name, Table.ofColumns columns)]
      nodup := by
        rw [List.map_append, List.map_cons, List.map_nil]
        refine List.nodup_append.mpr ⟨db.nodup, List.nodup_singleton _, fun a ha b hb hab => h ?_⟩
        have hname : b = name := List.mem_singleton.mp hb
        rw [← hname, ← hab]
        exact ha }

/-- Change the table of one name. -/
def modify (db : Database α) (name : String) (f : Table α → Table α) : Database α where
  tables := db.tables.map fun t => (t.1, if t.1 = name then f t.2 else t.2)
  nodup := by
    rw [List.map_map]
    exact db.nodup

/-- `ALTER TABLE … ADD COLUMN`, for a table that is there without the column. -/
def addColumn (db : Database α) (name : String) (c : Column) (fill : α) : Option (Database α) :=
  match db.find? name with
  | none => none
  | some t =>
    if c.name ∈ t.columnNames then none else some (db.modify name fun t => t.addColumn c fill)

/-- `SELECT`, of columns that are there. -/
def select (db : Database α) (name : String) (columns : List String) : Option (List (List α)) :=
  match db.find? name with
  | none => none
  | some t => if columns.all (· ∈ t.columnNames) then some (t.project columns) else none

/-- Everything the one database has, the other has: tables and their columns. -/
structure Extends (db db' : Database α) : Prop where
  names : db.names ⊆ db'.names
  columns : ∀ name, db.columnNames name ⊆ db'.columnNames name

theorem Extends.refl (db : Database α) : Extends db db :=
  ⟨fun _ h => h, fun _ _ h => h⟩

theorem Extends.trans (h : Extends db db') (h' : Extends db' db'') : Extends db db'' :=
  ⟨fun _ hn => h'.names (h.names hn), fun name _ hc => h'.columns name (h.columns name hc)⟩

/-- The tables of these names that the one database has, the other has as they are. -/
def Keeps (S : String → Prop) (db db' : Database α) : Prop :=
  ∀ name, S name → ∀ t, db.find? name = some t → db'.find? name = some t

theorem Keeps.refl (S : String → Prop) (db : Database α) : Keeps S db db := fun _ _ _ h => h

theorem Keeps.trans {S : String → Prop} (h : Keeps S db db') (h' : Keeps S db' db'') :
    Keeps S db db'' := fun name hS t ht => h' name hS t (h name hS t ht)

theorem find?_isSome_iff : (db.find? name).isSome = true ↔ name ∈ db.names := by
  rw [Option.isSome_iff_exists, find?, names, List.mem_map]
  constructor
  · rintro ⟨t, ht⟩
    obtain ⟨l₁, l₂, htables, -⟩ := List.lookup_eq_some_iff.mp ht
    exact ⟨(name, t), by rw [htables]; exact List.mem_append_right _ List.mem_cons_self, rfl⟩
  · rintro ⟨⟨n, t⟩, hmem, rfl⟩
    cases hfound : db.tables.lookup n with
    | none => exact absurd (List.lookup_eq_none_iff.mp hfound _ hmem) (by simp)
    | some t' => exact ⟨t', rfl⟩

/-- A column is one of a table. -/
theorem mem_names_of_mem_columnNames {col : String} (h : col ∈ db.columnNames name) :
    name ∈ db.names := by
  rw [← find?_isSome_iff]
  unfold columnNames at h
  cases hfound : db.find? name with
  | none =>
    rw [hfound] at h
    exact nomatch h
  | some t => rfl

/-- A selection has rows when the table and its columns are there. -/
theorem select_isSome_iff {columns : List String} : (db.select name columns).isSome = true ↔
    name ∈ db.names ∧ ∀ c ∈ columns, c ∈ db.columnNames name := by
  rw [← find?_isSome_iff]
  unfold select columnNames
  cases db.find? name with
  | none => simp
  | some t => simp

/-- Creating tables one after the other. -/
def createAll (db : Database α) (tables : List (String × List Column)) : Database α :=
  tables.foldl (fun db t => db.createIfMissing t.1 t.2) db

/-! ## Creating tables -/

theorem createIfMissing_of_mem (columns : List Column) (h : name ∈ db.names) :
    db.createIfMissing name columns = db := by
  rw [createIfMissing, dif_pos h]

theorem mem_names_createIfMissing (db : Database α) (name : String) (columns : List Column) :
    name ∈ (db.createIfMissing name columns).names := by
  by_cases h : name ∈ db.names
  · rw [createIfMissing_of_mem columns h]
    exact h
  · rw [createIfMissing, dif_neg h, names, List.map_append]
    exact List.mem_append_right _ List.mem_cons_self

/-- Creating a table changes nothing exactly when it is there. -/
theorem createIfMissing_eq_self_iff (columns : List Column) :
    db.createIfMissing name columns = db ↔ name ∈ db.names := by
  constructor
  · intro h
    rw [← h]
    exact mem_names_createIfMissing db name columns
  · exact createIfMissing_of_mem columns

theorem extends_createIfMissing (db : Database α) (name : String) (columns : List Column) :
    Extends db (db.createIfMissing name columns) := by
  by_cases h : name ∈ db.names
  · rw [createIfMissing_of_mem columns h]
    exact .refl db
  · rw [createIfMissing, dif_neg h]
    refine ⟨fun n hn => ?_, fun n c hc => ?_⟩
    · show n ∈ (db.tables ++ _).map Prod.fst
      rw [List.map_append]
      exact List.mem_append_left _ hn
    · -- a table that was there is found before the new one
      unfold columnNames find? at hc ⊢
      rw [List.lookup_append]
      cases hfound : db.tables.lookup n with
      | none =>
        rw [hfound] at hc
        exact nomatch hc
      | some t =>
        rw [hfound] at hc
        exact hc

theorem keeps_createIfMissing (S : String → Prop) (db : Database α) (name : String)
    (columns : List Column) : Keeps S db (db.createIfMissing name columns) := by
  by_cases h : name ∈ db.names
  · rw [createIfMissing_of_mem columns h]
    exact .refl S db
  · rw [createIfMissing, dif_neg h]
    intro n _ t ht
    unfold find? at ht ⊢
    rw [List.lookup_append, ht]
    rfl

theorem extends_createAll (db : Database α) (tables : List (String × List Column)) :
    Extends db (db.createAll tables) := by
  induction tables generalizing db with
  | nil => exact .refl db
  | cons t tables ih => exact (extends_createIfMissing db t.1 t.2).trans (ih _)

theorem keeps_createAll (S : String → Prop) (db : Database α) (tables : List (String × List Column)) :
    Keeps S db (db.createAll tables) := by
  induction tables generalizing db with
  | nil => exact .refl S db
  | cons t tables ih => exact (keeps_createIfMissing S db t.1 t.2).trans (ih _)

theorem mem_names_createAll {tables : List (String × List Column)} {t : String × List Column}
    (h : t ∈ tables) (db : Database α) : t.1 ∈ (db.createAll tables).names := by
  induction tables generalizing db with
  | nil => exact nomatch h
  | cons t' tables ih =>
    obtain rfl | h := List.mem_cons.mp h
    · exact (extends_createAll _ tables).names (mem_names_createIfMissing db t.1 t.2)
    · exact ih h _

theorem createAll_of_mem {tables : List (String × List Column)}
    (h : ∀ t ∈ tables, t.1 ∈ db.names) : db.createAll tables = db := by
  induction tables with
  | nil => rfl
  | cons t tables ih =>
    rw [List.forall_mem_cons] at h
    show (db.createIfMissing t.1 t.2).createAll tables = db
    rw [createIfMissing_of_mem t.2 h.1]
    exact ih h.2

/-! ## Adding columns -/

theorem lookup_modify (tables : List (String × Table α)) (name n : String) (f : Table α → Table α) :
    (tables.map fun t => (t.1, if t.1 = name then f t.2 else t.2)).lookup n =
      (tables.lookup n).map fun t => if n = name then f t else t := by
  induction tables with
  | nil => rfl
  | cons t tables ih =>
    obtain ⟨k, t⟩ := t
    rw [List.map_cons, List.lookup_cons, List.lookup_cons, ih]
    by_cases hk : n = k
    · rw [hk]
      simp
    · have hbeq : (n == k) = false := by simpa using hk
      simp [hbeq]

theorem find?_modify (db : Database α) (name n : String) (f : Table α → Table α) :
    (db.modify name f).find? n = (db.find? n).map fun t => if n = name then f t else t :=
  lookup_modify db.tables name n f

theorem names_modify (db : Database α) (name : String) (f : Table α → Table α) :
    (db.modify name f).names = db.names := by
  rw [names, modify, List.map_map]
  rfl

/-- Where a column is added. -/
theorem addColumn_eq_some_iff {c : Column} {fill : α} : db.addColumn name c fill = some db' ↔
    (db.find? name).isSome = true ∧ c.name ∉ db.columnNames name ∧
      db' = db.modify name fun t => t.addColumn c fill := by
  unfold addColumn columnNames
  cases hfound : db.find? name with
  | none => simp
  | some t =>
    by_cases hc : c.name ∈ t.columnNames
    · simp [hc]
    · simp [hc, eq_comm]

/-- The columns after one is added. -/
theorem columnNames_addColumn {c : Column} {fill : α} (h : db.addColumn name c fill = some db')
    (n : String) : db'.columnNames n =
      if n = name then db.columnNames n ++ [c.name] else db.columnNames n := by
  obtain ⟨hfound, -, rfl⟩ := addColumn_eq_some_iff.mp h
  obtain ⟨t, ht⟩ := Option.isSome_iff_exists.mp hfound
  unfold columnNames
  rw [find?_modify]
  by_cases hn : n = name
  · rw [hn, ht, if_pos rfl]
    simp
  · rw [if_neg hn]
    cases db.find? n with
    | none => rfl
    | some t' => simp [hn]

/-- The other tables are kept. -/
theorem keeps_addColumn {c : Column} {fill : α} (h : db.addColumn name c fill = some db') :
    Keeps (· ≠ name) db db' := by
  obtain ⟨-, -, rfl⟩ := addColumn_eq_some_iff.mp h
  intro n hn t ht
  rw [find?_modify, ht, Option.map_some, if_neg hn]

theorem extends_addColumn {c : Column} {fill : α} (h : db.addColumn name c fill = some db') :
    Extends db db' := by
  refine ⟨?_, fun n col hcol => ?_⟩
  · obtain ⟨-, -, rfl⟩ := addColumn_eq_some_iff.mp h
    rw [names_modify]
    exact fun _ hn => hn
  · rw [columnNames_addColumn h]
    split
    · exact List.mem_append_left _ hcol
    · exact hcol

end Database
