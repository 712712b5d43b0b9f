import ElementWrapper.Table
import Mathlib

/-!
What a table of a list of entries holds: each name at the place where it first stands, with the
value that stands last (`ofList_eq_latest`). A table without repeated names is determined by its
names and their values (`eq_filterMap`).
-/

namespace ElementWrapper.Table

variable {α : Type}

/-- The last value that a list of entries gives to a name. -/
def last? (entries : List (Text × α)) (name : Text) : Option α :=
  ((entries.filter (·.1 = name)).map (·.2)).getLast?

/-- The names of a list of entries where they first stand, each with its last value. -/
def latest (entries : List (Text × α)) : Table α :=
  (entries.map (·.1)).eraseDups.filterMap fun name => (last? entries name).map (name, ·)

/-- A table without repetitions can be put together again from its names and what it has for
each. -/
theorem eq_filterMap {table : Table α} (nodup : table.names.Nodup) :
    table = table.names.filterMap fun name => (table.get? name).map (name, ·) := by
  induction table with
  | nil => rfl
  | cons entry rest ih =>
    obtain ⟨name, value⟩ := entry
    obtain ⟨fresh, nodup⟩ := List.nodup_cons.1 nodup
    have others : ∀ other ∈ names rest, get? ((name, value) :: rest) other = get? rest other := by
      intro other mem
      rw [get?, if_neg]
      rintro rfl
      exact fresh mem
    calc (name, value) :: rest
      _ = (name, value) ::
            (names rest).filterMap fun other => (get? rest other).map (other, ·) := by
        rw [← ih nodup]
      _ = (name, value) :: (names rest).filterMap fun other =>
            (get? ((name, value) :: rest) other).map (other, ·) := by
        congr 1
        exact List.filterMap_congr fun other mem => by rw [others other mem]
      _ = _ := by
        rw [names, names, List.map_cons, List.filterMap_cons, get?, if_pos rfl]
        rfl

theorem get?_eq_none_iff {table : Table α} {name : Text} :
    table.get? name = none ↔ name ∉ table.names := by
  induction table with
  | nil => simp [get?, names]
  | cons entry rest ih => grind [get?, names]

theorem eq_map {table : Table α} (nodup : table.names.Nodup) (default : α) :
    table = table.names.map fun name => (name, (table.get? name).getD default) := by
  rw [← List.filterMap_eq_map]
  refine (eq_filterMap nodup).trans (List.filterMap_congr fun name mem => ?_)
  cases h : table.get? name with
  | none => exact absurd mem (get?_eq_none_iff.1 h)
  | some value => simp [h]

theorem eraseDups_concat {β : Type} [BEq β] [LawfulBEq β] (names : List β) (name : β) :
    (names ++ [name]).eraseDups =
      if name ∈ names then names.eraseDups else names.eraseDups ++ [name] := by
  rw [List.eraseDups_append, List.removeAll]
  split
  · next mem => simp [mem]
  · next fresh => simp [fresh, List.eraseDups_cons]

theorem nodup_eraseDups {β : Type} [BEq β] [LawfulBEq β] (names : List β) :
    names.eraseDups.Nodup := by
  induction names using List.reverseRecOn with
  | nil => exact List.nodup_nil
  | append_singleton names name ih =>
    rw [eraseDups_concat]
    split
    · exact ih
    · next fresh =>
      simpa [List.nodup_append, ih] using fun other mem => ne_of_mem_of_not_mem mem fresh

theorem ofList_concat (entries : List (Text × α)) (entry : Text × α) :
    ofList (entries ++ [entry]) = (ofList entries).put entry.1 entry.2 := by
  simp [ofList]

theorem put_of_not_mem {table : Table α} {name : Text} (fresh : name ∉ table.names) (value : α) :
    table.put name value = table ++ [(name, value)] := by
  induction table with
  | nil => rfl
  | cons entry rest ih =>
    obtain ⟨ne, fresh⟩ := not_or.1 (mt List.mem_cons.2 fresh)
    rw [put, if_neg (Ne.symm ne), ih fresh]
    rfl

theorem names_ofList (entries : List (Text × α)) :
    (ofList entries).names = (entries.map (·.1)).eraseDups := by
  induction entries using List.reverseRecOn with
  | nil => rfl
  | append_singleton entries entry ih =>
    rw [ofList_concat, names_put, ih, List.map_append, List.map_singleton, eraseDups_concat]
    simp only [List.mem_eraseDups]

theorem get?_ofList (entries : List (Text × α)) (name : Text) :
    (ofList entries).get? name = last? entries name := by
  induction entries using List.reverseRecOn with
  | nil => rfl
  | append_singleton entries entry ih =>
    rw [ofList_concat, get?_put, ih, last?, last?, List.filter_append]
    split
    · next h => simp [h]
    · next h => simp [Ne.symm h]

theorem ofList_eq_latest (entries : List (Text × α)) : ofList entries = latest entries := by
  have nodup : (ofList entries).names.Nodup := by
    rw [names_ofList]
    exact nodup_eraseDups _
  rw [eq_filterMap nodup, names_ofList]
  simp only [get?_ofList]
  rfl

theorem mem_of_mem_latest {entries : List (Text × α)} {entry : Text × α}
    (h : entry ∈ latest entries) : entry ∈ entries := by
  obtain ⟨name, -, found⟩ := List.mem_filterMap.1 h
  obtain ⟨value, last, rfl⟩ := Option.map_eq_some_iff.1 found
  obtain ⟨entry, kept, rfl⟩ := List.mem_map.1 (List.mem_of_getLast? last)
  obtain ⟨mem, named⟩ := List.mem_filter.1 kept
  rwa [← of_decide_eq_true named]

/-- A list that names nothing twice is the table of its entries. -/
theorem ofList_of_nodup {entries : List (Text × α)} (nodup : (entries.map (·.1)).Nodup) :
    ofList entries = entries := by
  induction entries using List.reverseRecOn with
  | nil => rfl
  | append_singleton entries entry ih =>
    rw [List.map_append, List.nodup_append] at nodup
    obtain ⟨nodup, -, disjoint⟩ := nodup
    rw [ofList_concat, ih nodup]
    refine put_of_not_mem (fun mem => ?_) entry.2
    exact disjoint entry.1 mem entry.1 (List.mem_singleton_self _) rfl

end ElementWrapper.Table
