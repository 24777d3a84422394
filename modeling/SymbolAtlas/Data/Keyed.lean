/-
  Maps from texts that remember the order of their keys.

  A new key is added at the end, a known key keeps its place
  when its value changes. No key stands twice. The view of a
  map is `get?`.

  Key definitions:
    * `Keyed`, `Keyed.get?`, `Keyed.insert`, `Keyed.erase`
  Key theorems:
    * `Keyed.get?_eq_some_iff`
    * `Keyed.get?_insert`, `Keyed.get?_erase`
    * `Keyed.get?_filter_eq_some_iff`
    * `Keyed.entries_ofList`
-/

------------------------------------------------------------
-- Operations
------------------------------------------------------------

namespace SymbolAtlas

/- Keys with their values, in order of insertion. -/
structure Keyed (α : Type) where
  entries : List (String × α) := []
  nodup : (entries.map Prod.fst).Nodup := by simp
deriving DecidableEq, Repr

namespace Keyed

variable {α β : Type}

def empty : Keyed α :=
  {}

instance : EmptyCollection (Keyed α) :=
  ⟨empty⟩

instance : Inhabited (Keyed α) :=
  ⟨empty⟩

/- The value of the first entry with a key. -/
def lookup (key : String) : List (String × α) → Option α
| [] => none
| (other, value) :: rest =>
    if key = other then some value else lookup key rest

/- The value of a key. -/
def get? (m : Keyed α) (key : String) : Option α :=
  lookup key m.entries

def contains (m : Keyed α) (key : String) : Bool :=
  (m.get? key).isSome

def keys (m : Keyed α) : List String :=
  m.entries.map Prod.fst

def size (m : Keyed α) : Nat :=
  m.entries.length

def isEmpty (m : Keyed α) : Bool :=
  m.entries.isEmpty

/- Change the value of a key in place, or add it at the end. -/
def insertEntry (key : String) (value : α) :
    List (String × α) → List (String × α)
| [] => [(key, value)]
| (other, old) :: rest =>
    if key = other then (key, value) :: rest
    else (other, old) :: insertEntry key value rest

/- Insertion adds no key but the one inserted. -/
theorem mem_keys_insertEntry
    {key other : String}
    {value : α}
    {entries : List (String × α)}
    (hMem : other ∈ (insertEntry key value entries).map Prod.fst) :
    other = key ∨ other ∈ entries.map Prod.fst := by
  induction entries with
  | nil => simpa [insertEntry] using hMem
  | cons entry rest ih =>
      unfold insertEntry at hMem
      split at hMem <;> grind

theorem nodup_insertEntry
    (key : String)
    (value : α)
    {entries : List (String × α)}
    (hNodup : (entries.map Prod.fst).Nodup) :
    ((insertEntry key value entries).map Prod.fst).Nodup := by
  induction entries with
  | nil => simp [insertEntry]
  | cons entry rest ih =>
      rw [List.map_cons, List.nodup_cons] at hNodup
      unfold insertEntry
      split
      · next hKey => simpa [hKey] using hNodup
      · next hKey =>
          rw [List.map_cons, List.nodup_cons]
          refine ⟨?_, ih hNodup.2⟩
          intro hMem
          rcases mem_keys_insertEntry hMem with hEq | hRest
          · exact hKey hEq.symm
          · exact hNodup.1 hRest

theorem nodup_filter
    (p : String × α → Bool)
    {entries : List (String × α)}
    (hNodup : (entries.map Prod.fst).Nodup) :
    ((entries.filter p).map Prod.fst).Nodup :=
  hNodup.sublist (List.filter_sublist.map Prod.fst)

def insert (m : Keyed α) (key : String) (value : α) : Keyed α :=
  ⟨insertEntry key value m.entries,
    nodup_insertEntry key value m.nodup⟩

/- Remove a key. -/
def erase (m : Keyed α) (key : String) : Keyed α :=
  ⟨m.entries.filter (·.1 != key), nodup_filter _ m.nodup⟩

/- Keep the entries that pass a test. -/
def filter (m : Keyed α) (p : String → α → Bool) : Keyed α :=
  ⟨m.entries.filter fun (key, value) => p key value,
    nodup_filter _ m.nodup⟩

/- Later values of a key replace earlier ones. -/
def ofList (entries : List (String × α)) : Keyed α :=
  entries.foldl (fun m (key, value) => m.insert key value) empty

/- The entries by rising key. -/
def sorted (m : Keyed α) : List (String × α) :=
  m.entries.mergeSort fun a b => decide (a.1 ≤ b.1)

end Keyed

end SymbolAtlas

------------------------------------------------------------
-- The View
------------------------------------------------------------

namespace SymbolAtlas

namespace Keyed

variable {α : Type}

@[simp] theorem get?_empty
    (key : String) :
    (empty : Keyed α).get? key = none :=
  rfl

/- The entry of a key is the one that stands in the list. -/
theorem lookup_eq_some_iff
    {entries : List (String × α)}
    (hNodup : (entries.map Prod.fst).Nodup)
    (key : String)
    (value : α) :
    lookup key entries = some value ↔ (key, value) ∈ entries := by
  induction entries with
  | nil => simp [lookup]
  | cons entry rest ih =>
      obtain ⟨other, old⟩ := entry
      rw [List.map_cons, List.nodup_cons] at hNodup
      have hRest := ih hNodup.2
      by_cases hKey : key = other
      · subst hKey
        have hFresh : (key, value) ∉ rest := by
          intro hMem
          exact hNodup.1 (List.mem_map.mpr ⟨_, hMem, rfl⟩)
        simp [lookup, hFresh, eq_comm]
      · simp [lookup, hKey, hRest]

theorem get?_eq_some_iff
    {m : Keyed α}
    {key : String}
    {value : α} :
    m.get? key = some value ↔ (key, value) ∈ m.entries :=
  lookup_eq_some_iff m.nodup key value

theorem lookup_insertEntry
    (entries : List (String × α))
    (key other : String)
    (value : α) :
    lookup other (insertEntry key value entries) =
      if other = key then some value
      else lookup other entries := by
  induction entries with
  | nil => simp [insertEntry, lookup]
  | cons entry rest ih =>
      obtain ⟨k, v⟩ := entry
      grind [insertEntry, lookup]

/- Insertion changes one key only. -/
@[simp] theorem get?_insert
    (m : Keyed α)
    (key other : String)
    (value : α) :
    (m.insert key value).get? other =
      if other = key then some value else m.get? other :=
  lookup_insertEntry m.entries key other value

theorem lookup_filter_ne
    (entries : List (String × α))
    (key other : String) :
    lookup other (entries.filter (·.1 != key)) =
      if other = key then none else lookup other entries := by
  induction entries with
  | nil => simp [lookup]
  | cons entry rest ih =>
      obtain ⟨k, v⟩ := entry
      by_cases hk : k = key
      · simp only [hk, bne_self_eq_false, Bool.false_eq_true,
          not_false_eq_true, List.filter_cons_of_neg, ih]
        grind [lookup]
      · rw [List.filter_cons_of_pos (by simpa using hk)]
        grind [lookup]

/- Removal changes one key only. -/
@[simp] theorem get?_erase
    (m : Keyed α)
    (key other : String) :
    (m.erase key).get? other =
      if other = key then none else m.get? other :=
  lookup_filter_ne m.entries key other

/- A filter keeps a value exactly if it passes. -/
@[simp] theorem get?_filter_eq_some_iff
    (m : Keyed α)
    (p : String → α → Bool)
    (key : String)
    (value : α) :
    (m.filter p).get? key = some value ↔
      m.get? key = some value ∧ p key value = true := by
  simp only [get?_eq_some_iff, filter, List.mem_filter]

theorem insertEntry_of_fresh
    {key : String}
    {entries : List (String × α)}
    (hFresh : key ∉ entries.map Prod.fst)
    (value : α) :
    insertEntry key value entries = entries ++ [(key, value)] := by
  induction entries with
  | nil => rfl
  | cons entry rest ih =>
      rw [List.map_cons, List.mem_cons, not_or] at hFresh
      rw [insertEntry, if_neg hFresh.1, ih hFresh.2]
      rfl

/- Keys that stand once stay where they are. -/
theorem entries_ofList
    {entries : List (String × α)}
    (hNodup : (entries.map Prod.fst).Nodup) :
    (ofList entries).entries = entries := by
  have hFold :
      ∀ (rest : List (String × α)) (m : Keyed α),
        ((m.entries ++ rest).map Prod.fst).Nodup →
        (rest.foldl
          (fun m (entry : String × α) =>
            m.insert entry.1 entry.2) m).entries =
          m.entries ++ rest := by
    intro rest
    induction rest with
    | nil =>
        intro m hNodup
        rw [List.append_nil]
        rfl
    | cons entry rest ih =>
        intro m hNodup
        have hFresh : entry.1 ∉ m.entries.map Prod.fst := by
          rw [List.map_append, List.map_cons,
            List.nodup_append] at hNodup
          intro hMem
          exact hNodup.2.2 _ hMem _ List.mem_cons_self rfl
        have hInsert :
            (m.insert entry.1 entry.2).entries =
              m.entries ++ [entry] :=
          insertEntry_of_fresh hFresh entry.2
        rw [List.foldl_cons, ih, hInsert, List.append_assoc]
        · rfl
        · rw [hInsert, List.append_assoc]
          exact hNodup
  exact hFold entries empty hNodup

theorem contains_iff
    {m : Keyed α}
    {key : String} :
    m.contains key = true ↔ ∃ value, m.get? key = some value := by
  simp [contains, Option.isSome_iff_exists]

end Keyed

end SymbolAtlas
