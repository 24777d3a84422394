import Mathlib.Data.List.Nodup
import SymbolAtlas.Proofs.Data.Reading
import SymbolAtlas.Proofs.Store.Encoding

/-
  An artifact says everything about its snapshot.

  A snapshot whose numbers can be written is read back from its
  artifact. Snapshots that know the same have the same artifact,
  whatever order their maps are in, and no others have it.

  Key definitions:
    * `Snapshot.arranged`, the snapshot that is read back
  Key theorems:
    * `Keyed.sorted_eq_iff_sameMap`
    * `Snapshot.ofArtifact_artifact`
    * `Snapshot.artifact_eq_iff_sameMaps`
-/

------------------------------------------------------------
-- The Order of a Map
------------------------------------------------------------

namespace SymbolAtlas

namespace Keyed

variable {α : Type} {m n : Keyed α}

theorem SameMap.refl
    (m : Keyed α) :
    m.SameMap m :=
  fun _ => rfl

theorem SameMap.symm
    (hSame : m.SameMap n) :
    n.SameMap m :=
  fun key => (hSame key).symm

theorem SameMap.trans
    {other : Keyed α}
    (hSame : m.SameMap n)
    (hOther : n.SameMap other) :
    m.SameMap other :=
  fun key => (hSame key).trans (hOther key)

theorem mem_entries_iff_of_sameMap
    (hSame : m.SameMap n)
    (entry : String × α) :
    entry ∈ m.entries ↔ entry ∈ n.entries := by
  obtain ⟨key, value⟩ := entry
  rw [← get?_eq_some_iff, ← get?_eq_some_iff, hSame key]

/- Maps are equal if one is a rearrangement of the other. -/
theorem sameMap_iff_perm :
    m.SameMap n ↔ m.entries.Perm n.entries := by
  constructor
  · intro hSame
    apply (List.perm_ext_iff_of_nodup (.of_map _ m.nodup)
      (.of_map _ n.nodup)).mpr
    exact mem_entries_iff_of_sameMap hSame
  · intro hPerm key
    apply Option.ext
    intro value
    rw [get?_eq_some_iff, get?_eq_some_iff]
    exact hPerm.mem_iff

theorem pairwise_sorted
    (m : Keyed α) :
    m.sorted.Pairwise fun a b => a.1 ≤ b.1 := by
  have hPairwise :
      m.sorted.Pairwise fun a b =>
        decide (a.1 ≤ b.1) = true := by
    refine List.pairwise_mergeSort ?_ ?_ m.entries
    · intro a b c hAB hBC
      rw [decide_eq_true_eq] at hAB hBC ⊢
      exact String.le_trans hAB hBC
    · intro a b
      simpa using String.le_total a.1 b.1
  simpa using hPairwise

/- In the order of their keys, equal maps are one list. -/
theorem sorted_eq_iff_sameMap :
    m.sorted = n.sorted ↔ m.SameMap n := by
  constructor
  · intro hSorted
    have hFirst := (sameMap_ofList_sorted m).symm
    rw [hSorted] at hFirst
    exact hFirst.trans (sameMap_ofList_sorted n)
  · intro hSame
    have hPerm : m.sorted.Perm n.sorted :=
      (sorted_perm m).trans
        ((sameMap_iff_perm.mp hSame).trans (sorted_perm n).symm)
    apply hPerm.eq_of_pairwise _ (pairwise_sorted m)
      (pairwise_sorted n)
    rintro ⟨key, value⟩ ⟨other, rival⟩ hFirst hSecond hLe hGe
    have hKey : key = other := String.le_antisymm hLe hGe
    subst hKey
    rw [(sorted_perm m).mem_iff, ← get?_eq_some_iff] at hFirst
    rw [(sorted_perm n).mem_iff, ← get?_eq_some_iff,
      ← hSame key, hFirst, Option.some.injEq] at hSecond
    rw [hSecond]

end Keyed

end SymbolAtlas

------------------------------------------------------------
-- Snapshots That Can Be Read
------------------------------------------------------------

namespace SymbolAtlas

namespace Snapshot

variable {k l : Snapshot}

theorem SameMaps.refl
    (k : Snapshot) :
    k.SameMaps k :=
  ⟨.refl _, .refl _, .refl _⟩

theorem SameMaps.symm
    (hSame : k.SameMaps l) :
    l.SameMaps k :=
  ⟨hSame.symbols.symm, hSame.missing.symm, hSame.emptyFiles.symm⟩

theorem SameMaps.trans
    {other : Snapshot}
    (hSame : k.SameMaps l)
    (hOther : l.SameMaps other) :
    k.SameMaps other :=
  ⟨hSame.symbols.trans hOther.symbols,
    hSame.missing.trans hOther.missing,
    hSame.emptyFiles.trans hOther.emptyFiles⟩

theorem readable_sortedRecord
    {α : Type}
    {f : α → Datum}
    {m : Keyed α}
    {levels : Nat}
    (hValues :
      ∀ entry ∈ m.entries, Json.Readable levels (f entry.2)) :
    Json.Readable (levels + 1) (sortedRecord f m) := by
  apply Json.readable_record
  · rw [List.map_map]
    exact m.nodup_sorted
  · intro field hField
    rcases List.mem_map.mp hField with ⟨entry, hEntry, rfl⟩
    exact hValues entry (m.sorted_perm.mem_iff.mp hEntry)

theorem readable_entryDatum
    {e : Entry}
    (hShort : Datum.isShort e.mtime = true) :
    Json.Readable 1 (entryDatum e) := by
  apply Json.readable_list
  intro item hItem
  simp only [List.mem_cons, List.not_mem_nil, or_false] at hItem
  rcases hItem with rfl | rfl
  · exact Json.readable_text e.file
  · exact Json.readable_int hShort

theorem isWritable_iff :
    k.isWritable = true ↔
      (∀ entry ∈ k.symbols.entries,
        Datum.isShort entry.2.mtime = true) ∧
      (∀ entry ∈ k.missing.entries,
        Datum.isShort entry.2 = true) ∧
      ∀ entry ∈ k.emptyFiles.entries,
        Datum.isShort entry.2 = true := by
  unfold isWritable
  rw [Bool.and_eq_true, Bool.and_eq_true, List.all_eq_true,
    List.all_eq_true, List.all_eq_true, and_assoc]

theorem isWritable_of_sameMaps
    (hSame : k.SameMaps l)
    (hWritable : k.isWritable = true) :
    l.isWritable = true := by
  rw [isWritable_iff] at hWritable ⊢
  rcases hWritable with ⟨hSymbols, hMissing, hEmpty⟩
  refine ⟨?_, ?_, ?_⟩
  · intro entry hEntry
    exact hSymbols entry
      ((Keyed.mem_entries_iff_of_sameMap hSame.symbols _).mpr
        hEntry)
  · intro entry hEntry
    exact hMissing entry
      ((Keyed.mem_entries_iff_of_sameMap hSame.missing _).mpr
        hEntry)
  · intro entry hEntry
    exact hEmpty entry
      ((Keyed.mem_entries_iff_of_sameMap hSame.emptyFiles _).mpr
        hEntry)

/- A snapshot can be read if its numbers can be written. -/
theorem readable_toSortedDatum
    (hWritable : k.isWritable = true) :
    Json.Readable 3 k.toSortedDatum := by
  rcases isWritable_iff.mp hWritable with
    ⟨hSymbols, hMissing, hEmpty⟩
  apply Json.readable_record
  · simp
  · intro field hField
    simp only [List.mem_cons, List.not_mem_nil,
      or_false] at hField
    rcases hField with rfl | rfl | rfl | rfl
    · apply readable_sortedRecord
      intro entry hEntry
      exact Json.readable_int (hEmpty entry hEntry)
    · exact Json.readable_text format
    · apply readable_sortedRecord
      intro entry hEntry
      exact Json.readable_int (hMissing entry hEntry)
    · apply readable_sortedRecord
      intro entry hEntry
      exact readable_entryDatum (hSymbols entry hEntry)

end Snapshot

end SymbolAtlas

------------------------------------------------------------
-- Artifacts
------------------------------------------------------------

namespace SymbolAtlas

namespace Snapshot

variable {k l : Snapshot}

/- The snapshot with the keys of its maps in order. -/
def arranged (k : Snapshot) : Snapshot where
  symbols := .ofList k.symbols.sorted
  missing := .ofList k.missing.sorted
  emptyFiles := .ofList k.emptyFiles.sorted

theorem sameMaps_arranged
    (k : Snapshot) :
    k.arranged.SameMaps k where
  symbols := Keyed.sameMap_ofList_sorted _
  missing := Keyed.sameMap_ofList_sorted _
  emptyFiles := Keyed.sameMap_ofList_sorted _

/- What was written can be read, however little room there is. -/
theorem ofArtifact_artifact
    (hWritable : k.isWritable = true)
    (room : Nat) :
    ofArtifact k.artifact.toUTF8 room = .ok k.arranged := by
  have hData :
      dataIn k.artifact.toUTF8 room = .ok k.toSortedDatum :=
    dataIn_toUTF8_eq_ok_iff.mpr
      ((readable_toSortedDatum hWritable).parse_eq
        (Nat.le_add_left 3 room))
  unfold ofArtifact
  rw [hData]
  exact ofDatum_toSortedDatum k

theorem artifact_eq_of_sameMaps
    (hSame : k.SameMaps l) :
    k.artifact = l.artifact := by
  unfold artifact toSortedDatum sortedRecord
  rw [Keyed.sorted_eq_iff_sameMap.mpr hSame.symbols,
    Keyed.sorted_eq_iff_sameMap.mpr hSame.missing,
    Keyed.sorted_eq_iff_sameMap.mpr hSame.emptyFiles]

/- Artifacts are the same for snapshots that know the same. -/
theorem artifact_eq_iff_sameMaps
    (hWritable : k.isWritable = true) :
    l.artifact.toUTF8 = k.artifact.toUTF8 ↔ l.SameMaps k := by
  constructor
  · intro hBytes
    have hRead := ofArtifact_artifact hWritable 0
    rw [← hBytes] at hRead
    exact (sameMaps_of_artifact hRead).symm.trans
      (sameMaps_arranged k)
  · intro hSame
    rw [artifact_eq_of_sameMaps hSame]

end Snapshot

end SymbolAtlas
