import SymbolAtlas.Proofs.Index.Calls
import SymbolAtlas.Proofs.Index.Lasting

/-
  Names are known or missed, never both.

  A name that is entered is no longer missed, and a name that is
  missed is no longer known. Misses are counted from one up to
  the limit. Together with consistency this is what is always
  true of an index, whatever the outcome of its calls.

  Key definitions:
    * `Snapshot.IsTallied`, `Snapshot.InOrder`
  Key theorems:
    * `Index.lasting_tallied`
    * `Index.isTallied_after`, `Index.inOrder_after`
-/

------------------------------------------------------------
-- Snapshots in Order
------------------------------------------------------------

namespace SymbolAtlas

namespace Snapshot

/-
  No name is both known and missed, and a name is missed at
  least once and at most as often as is counted.
-/
structure IsTallied (k : Snapshot) : Prop where
  disjoint :
    ∀ name entry,
      k.symbols.get? name = some entry →
      k.missing.get? name = none
  counted :
    ∀ name misses,
      k.missing.get? name = some misses →
      1 ≤ misses ∧ misses ≤ Index.retryLimit

/- The three maps of the snapshot fit together. -/
structure InOrder (k : Snapshot) : Prop
    extends k.IsConsistent, k.IsTallied

theorem inOrder_empty :
    empty.InOrder where
  toIsConsistent := isConsistent_of_empty .empty
  disjoint := by simp [empty]
  counted := by simp [empty]

variable {k : Snapshot}

/- Fewer symbols are as tallied as more. -/
theorem IsTallied.of_less
    (hTallied : k.IsTallied)
    {symbols : Keyed Entry}
    (hLess :
      ∀ name entry, symbols.get? name = some entry →
        k.symbols.get? name = some entry)
    (emptyFiles : Keyed Int) :
    IsTallied ⟨symbols, k.missing, emptyFiles⟩ where
  disjoint name entry hEntry :=
    hTallied.disjoint name entry (hLess name entry hEntry)
  counted := hTallied.counted

/- A name that is missed no longer may become known. -/
theorem IsTallied.of_erased
    (hTallied : k.IsTallied)
    {symbol : String}
    {symbols : Keyed Entry}
    (hOthers :
      ∀ name, name ≠ symbol →
        symbols.get? name = k.symbols.get? name)
    (emptyFiles : Keyed Int) :
    IsTallied ⟨symbols, k.missing.erase symbol, emptyFiles⟩ := by
  refine ⟨?_, ?_⟩
  · intro name entry hEntry
    rw [Keyed.get?_erase]
    split
    · rfl
    · next hName =>
        apply hTallied.disjoint name entry
        rw [← hOthers name hName]
        exact hEntry
  · intro name misses hMisses
    rw [Keyed.get?_erase] at hMisses
    split at hMisses
    · cases hMisses
    · exact hTallied.counted name misses hMisses

/- A name that becomes missed is no longer known. -/
theorem IsTallied.missed
    (hTallied : k.IsTallied)
    (symbol : String)
    {misses : Int}
    (hMisses : 0 ≤ misses)
    (emptyFiles : Keyed Int) :
    IsTallied
      ⟨k.symbols.erase symbol,
        k.missing.insert symbol
          (min (misses + 1) Index.retryLimit),
        emptyFiles⟩ := by
  have hLimit : (1 : Int) ≤ Index.retryLimit := by
    decide
  refine ⟨?_, ?_⟩
  · intro name entry hEntry
    rw [Keyed.get?_erase] at hEntry
    rw [Keyed.get?_insert]
    split at hEntry
    · cases hEntry
    · next hName =>
        rw [if_neg hName]
        exact hTallied.disjoint name entry hEntry
  · intro name count hCount
    rw [Keyed.get?_insert] at hCount
    split at hCount
    · rw [Option.some.injEq] at hCount
      omega
    · exact hTallied.counted name count hCount

end Snapshot

end SymbolAtlas

------------------------------------------------------------
-- Calls
------------------------------------------------------------

namespace SymbolAtlas

namespace Index

variable {c : Context} {symbol : String} {i : Index}

/- Every step leaves the index tallied. -/
theorem lasting_tallied :
    Lasting fun i => i.known.IsTallied where
  noted _ _ hTallied := hTallied
  entered symbol entry hTallied := by
    apply hTallied.of_erased
    intro name hName
    rw [Keyed.get?_insert, if_neg hName]
  notedEmpty file mtime hTallied :=
    hTallied.of_less (fun _ _ hEntry => hEntry) _
  forgotten file hTallied := by
    apply hTallied.of_less
    intro name entry hEntry
    rw [Keyed.get?_filter_eq_some_iff] at hEntry
    exact hEntry.1

theorem isTallied_rebuild
    (hTallied : i.known.IsTallied) :
    (Work.stateAfter (rebuild c i)).known.IsTallied := by
  apply lasting_tallied.rebuild
  apply hTallied.of_less
  intro name entry hEntry
  cases hEntry

theorem isTallied_update
    (hTallied : i.known.IsTallied)
    (file : String) :
    (Work.stateAfter (update c file i)).known.IsTallied :=
  lasting_tallied.update c file i hTallied

/- An answer counts a miss, or the name is no longer missed. -/
theorem isTallied_answer
    (hTallied : i.known.IsTallied)
    {misses : Int}
    (hMisses : 0 ≤ misses)
    (entry : Option Entry) :
    (Work.stateAfter
      (answer c symbol misses entry i)).known.IsTallied := by
  unfold answer
  split
  · exact hTallied.missed symbol hMisses _
  · cases entry with
    | none => exact hTallied
    | some found =>
        dsimp only
        rw [Work.bind_of_ok (hit_eq symbol i)]
        change (if i.known.missing.contains symbol then _ else _ :
          Index).known.IsTallied
        split
        · exact hTallied.of_erased (fun _ _ => rfl) _
        · exact hTallied

theorem isTallied_bringUpToDate
    (hTallied : i.known.IsTallied)
    (hSearch : MaySearch c i symbol) :
    (Work.stateAfter
      (bringUpToDate c symbol i)).known.IsTallied := by
  by_cases hRescans : Rescans c i symbol
  · have hRebuild := isTallied_rebuild (c := c) hTallied
    rw [bringUpToDate_of_rescans hRescans]
    cases hRun : rebuild c i with
    | error error final =>
        rw [hRun] at hRebuild
        exact hRebuild
    | ok value final =>
        rw [hRun] at hRebuild
        exact hRebuild
  · by_cases hRenews : ∃ entry, Renews c i symbol entry
    · rcases hRenews with ⟨entry, hRenews⟩
      have hUpdate := isTallied_update (c := c) hTallied entry.file
      rw [bringUpToDate_of_renews hRenews]
      cases hRun : update c entry.file i with
      | error error final =>
          rw [hRun] at hUpdate
          exact hUpdate
      | ok value final =>
          rw [hRun] at hUpdate
          exact hUpdate
    · rw [bringUpToDate_otherwise hSearch hRescans
        fun entry hEntry => hRenews ⟨entry, hEntry⟩]
      exact hTallied

theorem isTallied_lookup
    (hTallied : i.known.IsTallied)
    (symbol : String) :
    (Work.stateAfter (lookup c symbol i)).known.IsTallied := by
  have hMisses : 0 ≤ (i.known.missing.get? symbol).getD 0 := by
    cases hCount : i.known.missing.get? symbol with
    | none => exact Int.le_refl 0
    | some misses =>
        have hPositive := (hTallied.counted symbol misses hCount).1
        rw [Option.getD_some]
        omega
  by_cases hSearch : MaySearch c i symbol
  · rw [lookup_of_maySearch hSearch]
    have hMiddle := isTallied_bringUpToDate hTallied hSearch
    cases hRun : bringUpToDate c symbol i with
    | error error final =>
        rw [Work.bind_of_error hRun]
        rw [hRun] at hMiddle
        exact hMiddle
    | ok entry middle =>
        rw [Work.bind_of_ok hRun]
        rw [hRun] at hMiddle
        exact isTallied_answer hMiddle hMisses entry
  · rw [lookup_of_not_maySearch hSearch]
    split
    · exact hTallied
    · exact isTallied_answer hTallied hMisses _

theorem isTallied_after
    (hTallied : i.known.IsTallied)
    (call : Call) :
    (call.after c i).known.IsTallied := by
  cases call with
  | rebuild => exact isTallied_rebuild hTallied
  | update file => exact isTallied_update hTallied file
  | lookup symbol => exact isTallied_lookup hTallied symbol

/- Every call leaves the index in order, whatever its outcome. -/
theorem inOrder_after
    (hOrder : i.known.InOrder)
    (call : Call) :
    (call.after c i).known.InOrder :=
  { isConsistent_after hOrder.toIsConsistent call,
    isTallied_after hOrder.toIsTallied call with }

theorem inOrder_of_rebuild
    {final : Index}
    (hOrder : i.known.InOrder)
    (hRebuild : rebuild c i = .ok () final) :
    final.known.InOrder := by
  have hAfter : (Work.stateAfter (rebuild c i)).known.InOrder :=
    inOrder_after hOrder .rebuild
  rw [hRebuild, Work.stateAfter_ok] at hAfter
  exact hAfter

theorem inOrder_of_lookup
    {symbol : String}
    {value : Option String}
    {final : Index}
    (hOrder : i.known.InOrder)
    (hLookup : lookup c symbol i = .ok value final) :
    final.known.InOrder := by
  have hAfter :
      (Work.stateAfter (lookup c symbol i)).known.InOrder :=
    inOrder_after hOrder (.lookup symbol)
  rw [hLookup, Work.stateAfter_ok] at hAfter
  exact hAfter

end Index

end SymbolAtlas
