import SymbolAtlas.Proofs.Store.Saving

/-
  Snapshots that a store has.

  A store has a snapshot if its artifact can be used. Looking for
  the snapshot makes the lock if there is none, and changes no
  other file.

  Key definitions:
    * `Store.Offers`
  Key theorems:
    * `Store.Offers.read_eq`, `Store.Offers.seek_eq`
    * `Store.ends_read`, `Store.ends_seek`
-/

------------------------------------------------------------
-- Artifacts That Can Be Used
------------------------------------------------------------

namespace SymbolAtlas

namespace Store

/- The artifact of the store is read as the snapshot. -/
def Offers
    (s : Store)
    (d : Disk)
    (place : Place)
    (k : Snapshot) : Prop :=
  ∃ content,
    s.HasArtifact d place content ∧
    Snapshot.ofArtifact content s.room = .ok k

variable {s : Store} {d : Disk} {place : Place} {k : Snapshot}
variable {desk : Desk}

/- What was saved is there. -/
theorem Saved.offers
    {e : Disk}
    (hSaved : s.Saved place k d e) :
    s.Offers e place k.arranged :=
  ⟨_, hSaved.artifact,
    Snapshot.ofArtifact_artifact hSaved.writable s.room⟩

/- The snapshot is there as long as its artifact is. -/
theorem Offers.of_node?_eq
    {e : Disk}
    (hOffers : s.Offers d place k)
    (hSame :
      e.node? (place ++ [s.key ++ ".json"]) =
        d.node? (place ++ [s.key ++ ".json"])) :
    s.Offers e place k := by
  rcases hOffers with ⟨content, ⟨mtime, hNode⟩, hSnapshot⟩
  exact ⟨content, ⟨mtime, hSame.trans hNode⟩, hSnapshot⟩

variable (hKey : '/' ∉ s.key.toList)

include hKey

theorem Offers.read_eq
    (hOffers : s.Offers desk.disk place k)
    (hClear : s.Clear desk.disk place) :
    s.read desk = .ok (some k) desk := by
  rcases hOffers with ⟨content, hArtifact, hSnapshot⟩
  exact read_of_ofArtifact (hClear.read_path hKey hArtifact)
    hSnapshot

/- Whoever looks for a snapshot that is there is told at once. -/
theorem Offers.seek_eq
    (hOffers : s.Offers desk.disk place k)
    (hClear : s.Clear desk.disk place)
    (others : Others) :
    s.seek others desk =
      (s.debug (.cacheHit s.path) >>= fun _ => pure (.inl k))
        desk := by
  unfold seek
  rw [Work.bind_of_ok (hOffers.read_eq hKey hClear)]

/- A file that was read is the artifact. -/
theorem Clear.hasArtifact_of_read
    (hClear : s.Clear d place)
    {content : ByteArray}
    (hRead : d.read s.path = .ok content) :
    s.HasArtifact d place content := by
  unfold Disk.read path at hRead
  rw [hClear.locate_fileIn hKey (by decide)] at hRead
  dsimp only at hRead
  split at hRead
  · next other mtime hNode =>
      cases hRead
      exact ⟨mtime, hNode⟩
  · cases hRead
  · cases hRead

end Store

end SymbolAtlas

------------------------------------------------------------
-- Looking for a Snapshot
------------------------------------------------------------

namespace SymbolAtlas

namespace Store

variable {s : Store} {place : Place} {d : Disk}

/- Something is told, or it cannot be shown. -/
theorem debug_cases
    (s : Store)
    (notice : Notice)
    (desk : Desk) :
    (∃ notices,
      s.debug notice desk =
        .ok () { desk with notices := notices }) ∨
    ∃ error,
      s.isDebug = true ∧ notice.check = .error error ∧
      s.debug notice desk = .error error desk := by
  unfold debug
  split
  · next hDebug =>
      unfold Desk.tell Desk.liftError
      cases notice.check with
      | ok shown => exact Or.inl ⟨_, rfl⟩
      | error error => exact Or.inr ⟨error, hDebug, rfl, rfl⟩
  · exact Or.inl ⟨desk.notices, rfl⟩

/- What is told does not change the disk. -/
theorem ends_debug
    {P : Disk → Prop}
    (notice : Notice) :
    Work.Ends (fun desk : Desk => P desk.disk) (s.debug notice)
      fun _ desk => P desk.disk := by
  intro desk value final hDisk hRun
  rcases s.debug_cases notice desk with
    ⟨notices, hTold⟩ | ⟨error, -, -, hError⟩
  · rw [hTold] at hRun
    cases hRun
    exact hDisk
  · rw [hError] at hRun
    cases hRun

/- The disk may have other files of the store than before. -/
def Refiles
    (s : Store)
    (place : Place)
    (d : Disk)
    (desk : Desk) : Prop :=
  s.Clear desk.disk place ∧ s.Refiled place d desk.disk

variable (hKey : '/' ∉ s.key.toList)

include hKey

theorem ends_acquire
    {lock : Lock}
    (hPath : lock.path = s.lockPath)
    (mode : LockMode) :
    Work.Ends (s.Refiles place d)
      (lock.acquire mode Others.absent)
      fun other desk =>
        other.path = s.lockPath ∧ s.Refiles place d desk := by
  have hOpened :
      Work.Ends (s.Refiles place d) lock.opened
        fun other desk =>
          other.path = s.lockPath ∧ s.Refiles place d desk := by
    intro desk value final hDesk hRun
    unfold Lock.opened at hRun
    split at hRun
    · cases hRun
      exact ⟨hPath, hDesk⟩
    · rcases Work.exists_of_bind_eq_ok hRun with
        ⟨_, middle, hAttempt, hRest⟩
      rw [Desk.attempt_eq, hPath] at hAttempt
      cases hOpen :
          desk.disk.openAppending s.lockPath Desk.ownTime with
      | error fault =>
          rw [hOpen] at hAttempt
          cases hAttempt
      | ok after =>
          rw [hOpen] at hAttempt
          cases hAttempt
          cases hRest
          have hLocked := hDesk.1.openAppending hKey hOpen
          exact ⟨hPath, hDesk.1.of_refiled hLocked,
            hDesk.2.trans hLocked⟩
  refine hOpened.bind fun opened => ?_
  intro desk value final hDesk hRun
  cases hRun
  exact hDesk

/- A snapshot that is read is the one that the store has. -/
theorem ends_read :
    Work.Ends (s.Refiles place d) s.read
      fun found desk =>
        s.Refiles place d desk ∧
        ∀ k, found = some k → s.Offers desk.disk place k := by
  have hDiscard (reason : String) :
      Work.Ends (s.Refiles place d) (s.discard reason)
        fun found desk =>
          s.Refiles place d desk ∧
          ∀ k, found = some k → s.Offers desk.disk place k := by
    refine (ends_debug
      (P := fun e => s.Clear e place ∧ s.Refiled place d e)
      (.unusable s.path reason)).bind fun _ => ?_
    apply Work.ends_pure
    intro desk hDesk
    refine ⟨hDesk, ?_⟩
    intro k hNone
    cases hNone
  refine Work.ends_get.bind fun desk => ?_
  have hEnds :
      ∀ {w : Desk.Work (Option Snapshot)},
        Work.Ends (s.Refiles place d) w
          (fun found desk =>
            s.Refiles place d desk ∧
            ∀ k, found = some k → s.Offers desk.disk place k) →
        Work.Ends
          (fun other => desk = other ∧ s.Refiles place d other) w
          fun found desk =>
            s.Refiles place d desk ∧
            ∀ k, found = some k → s.Offers desk.disk place k :=
    fun hWork => hWork.of_imp fun _ hState => hState.2
  cases hRead : desk.disk.read s.path with
  | error fault =>
      split
      · apply Work.ends_pure
        rintro other ⟨-, hDesk⟩
        refine ⟨hDesk, ?_⟩
        intro k hNone
        cases hNone
      · exact hEnds (hDiscard _)
      · next content hOk => cases hOk
  | ok content =>
      dsimp only
      split
      · next k hSnapshot =>
          apply Work.ends_pure
          rintro other ⟨rfl, hDesk⟩
          refine ⟨hDesk, ?_⟩
          rintro another ⟨⟩
          exact ⟨content,
            hDesk.1.hasArtifact_of_read hKey hRead, hSnapshot⟩
      · exact Work.ends_throw _
      · exact Work.ends_throw _
      · exact hEnds (hDiscard _)

/- A snapshot that is found is the one that the store has. -/
theorem ends_seek :
    Work.Ends (s.Refiles place d) (s.seek Others.absent)
      fun found desk =>
        s.Refiles place d desk ∧
        ∀ k, found = .inl k → s.Offers desk.disk place k := by
  have hFound (k : Snapshot) :
      Work.Ends
        (fun desk =>
          s.Refiles place d desk ∧
          ∀ other, some k = some other →
            s.Offers desk.disk place other)
        (pure (.inl k) : Desk.Work (Snapshot ⊕ Lock))
        fun found desk =>
          s.Refiles place d desk ∧
          ∀ k, found = .inl k → s.Offers desk.disk place k := by
    apply Work.ends_pure
    rintro desk ⟨hDesk, hOffers⟩
    refine ⟨hDesk, ?_⟩
    rintro other ⟨⟩
    exact hOffers k rfl
  have hTold (notice : Notice) :
      Work.Ends
        (fun desk =>
          s.Refiles place d desk ∧
          ∀ k, none = some k → s.Offers desk.disk place k)
        (s.debug notice) fun _ => s.Refiles place d :=
    (ends_debug (P := fun e =>
      s.Clear e place ∧ s.Refiled place d e) notice).of_imp
        fun _ hState => hState.1
  unfold seek
  refine (ends_read hKey).bind fun first => ?_
  cases first with
  | some k =>
      refine (ends_debug
        (P := fun e =>
          (s.Clear e place ∧ s.Refiled place d e) ∧
          ∀ other, some k = some other →
            s.Offers e place other)
        (.cacheHit s.path)).bind fun _ => ?_
      exact hFound k
  | none =>
      refine (hTold _).bind fun _ => ?_
      refine (ends_acquire hKey (path_ownLock s) .shared).bind
        fun lock => ?_
      by_cases hLock : lock.path = s.lockPath
      · refine ((ends_read hKey).of_imp
          fun _ hState => hState.2).bind fun second => ?_
        cases second with
        | some k => exact hFound k
        | none =>
            have hReleased : lock.release.path = s.lockPath := hLock
            refine ((ends_acquire hKey hReleased .exclusive).of_imp
              fun _ hState => hState.1).bind fun held => ?_
            refine ((ends_read hKey).of_imp
              fun _ hState => hState.2).bind fun third => ?_
            cases third with
            | some k => exact hFound k
            | none =>
                refine (hTold _).bind fun _ => ?_
                apply Work.ends_pure
                intro desk hDesk
                refine ⟨hDesk, ?_⟩
                intro k hLock
                cases hLock
      · intro desk value final hState
        exact absurd hState.1 hLock

end Store

end SymbolAtlas
