import SymbolAtlas.Proofs.Data.Printing
import SymbolAtlas.Proofs.Index.Memory
import SymbolAtlas.Store.Basic

/-
  An artifact holds the snapshot that was written.

  The keys of an artifact are in order, so the order in which a
  map got its keys is lost. Everything else is read back, if
  anything is. Names and files are texts, and no two texts are
  printed alike. Strings that hold halves of characters can be
  (`Letter.escapes_halves`), so they are no names.

  Key definitions:
    * `Snapshot.SameMaps`
  Key theorems:
    * `Keyed.sameMap_ofList_sorted`
    * `Snapshot.ofDatum_toSortedDatum`
    * `Snapshot.sameMaps_of_artifact`
-/

------------------------------------------------------------
-- Sorted Maps
------------------------------------------------------------

namespace SymbolAtlas

namespace Keyed

variable {α : Type}

theorem sorted_perm
    (m : Keyed α) :
    m.sorted.Perm m.entries :=
  List.mergeSort_perm _ _

theorem nodup_sorted
    (m : Keyed α) :
    (m.sorted.map Prod.fst).Nodup :=
  (m.sorted_perm.map Prod.fst).nodup_iff.mpr m.nodup

/- Sorting changes the order of a map only. -/
theorem sameMap_ofList_sorted
    (m : Keyed α) :
    (ofList m.sorted).SameMap m := by
  intro key
  apply Option.ext
  intro value
  rw [get?_eq_some_iff, get?_eq_some_iff,
    entries_ofList m.nodup_sorted]
  exact m.sorted_perm.mem_iff

end Keyed

end SymbolAtlas

------------------------------------------------------------
-- Snapshots as Data
------------------------------------------------------------

namespace SymbolAtlas

namespace Snapshot

/- Both snapshots know the same. -/
structure SameMaps (k l : Snapshot) : Prop where
  symbols : k.symbols.SameMap l.symbols
  missing : k.missing.SameMap l.missing
  emptyFiles : k.emptyFiles.SameMap l.emptyFiles

variable {α : Type} {f : α → Datum}

theorem readBack_sortedRecord
    (hValues : ∀ value, Json.ReadBack (f value))
    (m : Keyed α) :
    Json.ReadBack (sortedRecord f m) := by
  apply Json.readBack_record
  · rw [List.map_map]
    exact m.nodup_sorted
  · intro field hField
    rw [List.mem_map] at hField
    rcases hField with ⟨entry, -, rfl⟩
    exact hValues entry.2

theorem readBack_entryDatum
    (e : Entry) :
    Json.ReadBack (entryDatum e) := by
  apply Json.readBack_list
  intro item hItem
  simp only [List.mem_cons, List.not_mem_nil, or_false] at hItem
  rcases hItem with rfl | rfl
  · exact Json.readBack_text e.file
  · exact Json.readBack_int e.mtime

/- What is printed of a snapshot is read back. -/
theorem readBack_toSortedDatum
    (k : Snapshot) :
    Json.ReadBack k.toSortedDatum := by
  apply Json.readBack_record
  · simp
  · intro field hField
    simp only [List.mem_cons, List.not_mem_nil,
      or_false] at hField
    rcases hField with rfl | rfl | rfl | rfl
    · exact readBack_sortedRecord Json.readBack_int k.emptyFiles
    · exact Json.readBack_text format
    · exact readBack_sortedRecord Json.readBack_int k.missing
    · exact readBack_sortedRecord readBack_entryDatum k.symbols

/- Values are read as they were written. -/
theorem mapM_written
    {g : Datum → Except Error α}
    (hValues : ∀ value, g (f value) = .ok value)
    (entries : List (String × α)) :
    (entries.map fun (name, value) => (name, f value)).mapM
      (fun field => (g field.2).map (field.1, ·)) =
        Except.ok entries := by
  induction entries with
  | nil => rfl
  | cons entry rest ih =>
      rw [List.map_cons, List.mapM_cons, ih]
      simp only [hValues]
      rfl

theorem fieldOf_sortedRecord
    {g : Datum → Except Error α}
    (hValues : ∀ value, g (f value) = .ok value)
    {datum : Datum}
    {key : String}
    {m : Keyed α}
    (hField : datum.field? key = some (sortedRecord f m)) :
    fieldOf g datum key = .ok (Keyed.ofList m.sorted) := by
  unfold fieldOf
  rw [hField]
  dsimp only [sortedRecord]
  rw [mapM_written hValues]
  rfl

theorem ofDatum_toSortedDatum
    (k : Snapshot) :
    ofDatum k.toSortedDatum =
      .ok ⟨.ofList k.symbols.sorted, .ofList k.missing.sorted,
        .ofList k.emptyFiles.sorted⟩ := by
  have hFormat : hasFormat k.toSortedDatum = true := by
    simp [hasFormat, toSortedDatum, Datum.field?, Keyed.ofList]
  have hSymbols :
      fieldOf entryOf k.toSortedDatum "symbols" =
        .ok (.ofList k.symbols.sorted) :=
    fieldOf_sortedRecord (f := entryDatum) (fun _ => rfl) (by
      simp [toSortedDatum, Datum.field?, Keyed.ofList])
  have hMissing :
      fieldOf intOf k.toSortedDatum "missing" =
        .ok (.ofList k.missing.sorted) :=
    fieldOf_sortedRecord (f := .int) (fun _ => rfl) (by
      simp [toSortedDatum, Datum.field?, Keyed.ofList])
  have hEmpty :
      fieldOf intOf k.toSortedDatum "empty_files" =
        .ok (.ofList k.emptyFiles.sorted) :=
    fieldOf_sortedRecord (f := .int) (fun _ => rfl) (by
      simp [toSortedDatum, Datum.field?, Keyed.ofList])
  unfold ofDatum
  rw [hFormat, hSymbols, hMissing, hEmpty]
  rfl

end Snapshot

end SymbolAtlas

------------------------------------------------------------
-- Artifacts
------------------------------------------------------------

namespace SymbolAtlas

namespace Snapshot

theorem fromUTF8?_toUTF8
    (s : String) :
    String.fromUTF8? s.toUTF8 = some s := by
  unfold String.fromUTF8?
  exact dif_pos s.isValidUTF8

/- Data are found in a text if they are read from it. -/
theorem dataIn_toUTF8_eq_ok_iff
    {room : Nat}
    {text : String}
    {datum : Datum} :
    dataIn text.toUTF8 room = .ok datum ↔
      Json.parse (room + 3) text = .ok datum := by
  unfold dataIn
  rw [fromUTF8?_toUTF8]
  dsimp only
  cases Json.parse (room + 3) text with
  | ok found => simp
  | error flaw => cases flaw <;> simp

/- What is read from an artifact is what was written there. -/
theorem sameMaps_of_artifact
    {k l : Snapshot}
    {room : Nat}
    (hRead : ofArtifact k.artifact.toUTF8 room = .ok l) :
    l.SameMaps k := by
  rcases exists_ok_of_bind hRead with ⟨datum, hData, hSnapshot⟩
  have hDatum :=
    Json.eq_of_parse k.readBack_toSortedDatum
      (dataIn_toUTF8_eq_ok_iff.mp hData)
  rw [hDatum, ofDatum_toSortedDatum] at hSnapshot
  cases hSnapshot
  exact ⟨Keyed.sameMap_ofList_sorted _,
    Keyed.sameMap_ofList_sorted _,
    Keyed.sameMap_ofList_sorted _⟩

end Snapshot

end SymbolAtlas
