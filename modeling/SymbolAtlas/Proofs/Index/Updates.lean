import SymbolAtlas.Proofs.Index.Rounds
import SymbolAtlas.Proofs.Index.Views

/-
  What an update does to each file.

  An update scans a file again and enters its symbols one by
  one. Files that have drifted and are in the way are updated
  first. A file that has not drifted is left alone; any other
  one is kept, forgotten or known as it is now. Only when an
  error comes while the symbols of a file are being entered the
  file is left with some of its symbols.

  Key definitions:
    * `Index.madeRoom`, before a symbol is claimed again
    * `Index.Undrifted`, `Index.Renewed`, `Index.Settled`
    * `Index.Interrupted`, files that an error leaves unfinished
  Key theorems:
    * `Index.reclaim_cases`
    * `Index.sameFile_updateWithin`
    * `Index.Interrupted.isCut`
    * `Index.settled_or_interrupted`
-/

------------------------------------------------------------
-- Claiming Again
------------------------------------------------------------

namespace SymbolAtlas

namespace Index

/-
  The index once room was made for a symbol: the file that has
  it was updated if it has drifted.
-/
def madeRoom
    (c : Context)
    (updateOther : String → Work Unit)
    (symbol : String)
    (i : Index) : Index :=
  match i.known.symbols.get? symbol with
  | some previous =>
      if hasDrifted c.disk previous then
        Work.stateAfter (updateOther previous.file i)
      else i
  | none => i

theorem madeRoom_of_hasDrifted
    {c : Context}
    {updateOther : String → Work Unit}
    {symbol : String}
    {i : Index}
    {previous : Entry}
    (hSymbol : i.known.symbols.get? symbol = some previous)
    (hDrifted : hasDrifted c.disk previous = true) :
    madeRoom c updateOther symbol i =
      Work.stateAfter (updateOther previous.file i) := by
  simp only [madeRoom, hSymbol, hDrifted, if_true]

theorem madeRoom_cases
    (c : Context)
    (updateOther : String → Work Unit)
    (symbol : String)
    (i : Index) :
    madeRoom c updateOther symbol i = i ∨
    ∃ previous,
      i.known.symbols.get? symbol = some previous ∧
      hasDrifted c.disk previous = true ∧
      madeRoom c updateOther symbol i =
        Work.stateAfter (updateOther previous.file i) := by
  cases hSymbol : i.known.symbols.get? symbol with
  | none => simp [madeRoom, hSymbol]
  | some previous =>
      cases hDrifted : hasDrifted c.disk previous with
      | false => simp [madeRoom, hSymbol, hDrifted]
      | true =>
          right
          exact ⟨previous, rfl, hDrifted,
            madeRoom_of_hasDrifted hSymbol hDrifted⟩

/- A symbol is entered if it is free once room was made. -/
theorem reclaim_cases
    (c : Context)
    (updateOther : String → Work Unit)
    (file : String)
    (mtime : Int)
    (symbol : String)
    (i : Index) :
    (∃ error,
      reclaim c updateOther file mtime symbol i =
        .error error (madeRoom c updateOther symbol i)) ∨
    (madeRoom c updateOther symbol i).known.symbols.get? symbol =
      none ∧
    reclaim c updateOther file mtime symbol i =
      .ok ()
        ((madeRoom c updateOther symbol i).entered symbol
          ⟨file, mtime⟩) := by
  have hEntry :
      ∀ j : Index,
        entry? symbol j = .ok (j.known.symbols.get? symbol) j :=
    fun _ => rfl
  unfold reclaim madeRoom
  rw [Work.bind_of_ok (hEntry i)]
  cases hSymbol : i.known.symbols.get? symbol with
  | none => exact Or.inr ⟨hSymbol, rfl⟩
  | some previous =>
      dsimp only
      cases hasDrifted c.disk previous with
      | false =>
          simp only [Bool.false_eq_true, if_false]
          rw [Work.bind_of_ok (hEntry i), hSymbol]
          exact Or.inl ⟨_, rfl⟩
      | true =>
          simp only [if_true]
          cases hUpdate : updateOther previous.file i with
          | error error final =>
              rw [Work.bind_of_error hUpdate]
              exact Or.inl ⟨error, rfl⟩
          | ok value next =>
              rw [Work.bind_of_ok hUpdate,
                Work.bind_of_ok (hEntry next)]
              simp only [Work.stateAfter_ok]
              cases hNext : next.known.symbols.get? symbol with
              | some standing => exact Or.inl ⟨_, rfl⟩
              | none => exact Or.inr ⟨rfl, rfl⟩

/- An error at a symbol comes once room was made for it. -/
theorem eq_madeRoom_of_error
    {c : Context}
    {updateOther : String → Work Unit}
    {file : String}
    {mtime : Int}
    {symbol : String}
    {i final : Index}
    {error : Error}
    (hFails :
      reclaim c updateOther file mtime symbol i =
        .error error final) :
    final = madeRoom c updateOther symbol i := by
  rcases reclaim_cases c updateOther file mtime symbol i with
    ⟨_, hRun⟩ | ⟨-, hRun⟩
  · rw [hFails] at hRun
    cases hRun
    rfl
  · rw [hFails] at hRun
    cases hRun

end Index

end SymbolAtlas

------------------------------------------------------------
-- Files That Have Not Drifted
------------------------------------------------------------

namespace SymbolAtlas

namespace Index

/- The entries of the file carry the time it has now. -/
def Undrifted (d : Disk) (k : Snapshot) (file : String) : Prop :=
  ∀ symbol time,
    k.symbols.get? symbol = some ⟨file, time⟩ →
      d.mtime? file = some time

theorem Undrifted.of_sameFile
    {d : Disk}
    {k l : Snapshot}
    {file : String}
    (hUndrifted : Undrifted d k file)
    (hSame : k.SameFile l file) :
    Undrifted d l file :=
  fun symbol time hGet =>
    hUndrifted symbol time ((hSame.entries symbol time).mpr hGet)

theorem Undrifted.of_has
    {d : Disk}
    {k : Snapshot}
    {file : String}
    {mtime : Int}
    {symbols : List String}
    {empty : Option Int}
    (hStat : d.stat file = .ok ⟨false, mtime⟩)
    (hHas : k.Has file mtime symbols empty) :
    Undrifted d k file := by
  intro symbol time hGet
  rw [((hHas.entries symbol time).mp hGet).2]
  simp [Disk.mtime?, hStat, Except.toOption]

/- An entry that has drifted is in another file. -/
theorem Undrifted.ne_of_hasDrifted
    {d : Disk}
    {k : Snapshot}
    {file symbol : String}
    {previous : Entry}
    (hUndrifted : Undrifted d k file)
    (hSymbol : k.symbols.get? symbol = some previous)
    (hDrifted : hasDrifted d previous = true) :
    file ≠ previous.file := by
  rintro rfl
  have hTime := hUndrifted symbol previous.mtime hSymbol
  simp [hasDrifted, hTime] at hDrifted

/- Telling something changes nothing that is known. -/
theorem known_debug
    (c : Context)
    (notice : Notice)
    (i : Index) :
    (Work.stateAfter (debug c notice i)).known = i.known := by
  unfold debug
  split
  · cases hCheck : notice.check with
    | error error => rfl
    | ok value => rfl
  · rfl

variable {c : Context} {fuel : Nat} {file : String} {i : Index}

theorem updateWithin_of_error
    {error : Error}
    {final : Index}
    (hScan : scanAgain c file i = .error error final) :
    updateWithin c (fuel + 1) file i = .error error final :=
  Work.bind_of_error hScan

theorem updateWithin_of_none
    {final : Index}
    (hScan : scanAgain c file i = .ok none final) :
    updateWithin c (fuel + 1) file i = .ok () final :=
  Work.bind_of_ok hScan

theorem updateWithin_of_some
    {mtime : Int}
    {symbols : List String}
    {next : Index}
    (hScan :
      scanAgain c file i = .ok (some (mtime, symbols)) next) :
    updateWithin c (fuel + 1) file i =
      (symbols.forM (reclaim c (updateWithin c fuel) file mtime) >>=
        fun _ => debug c (.updated file symbols.length)) next :=
  Work.bind_of_ok hScan

/-
  A file that has not drifted stays as it is when another file
  is updated. The induction is on the updates that are left;
  no update within this one starts at the file.
-/
theorem sameFile_updateWithin
    {other : String}
    (hOther : other ≠ file)
    (hUndrifted : Undrifted c.disk i.known other) :
    i.known.SameFile
      (Work.stateAfter (updateWithin c fuel file i)).known
      other := by
  induction fuel generalizing file i with
  | zero => exact Snapshot.SameFile.refl _ _
  | succ fuel ih =>
      rcases scanAgain_cases c file i with
        ⟨final, hScan | ⟨error, hScan⟩, -, hOthers⟩ |
        ⟨mtime, alone, result, next, -, -, hScan, -, hOthers⟩
      · rw [updateWithin_of_none hScan]
        exact hOthers other hOther
      · rw [updateWithin_of_error hScan]
        exact hOthers other hOther
      · rw [updateWithin_of_some hScan]
        have hLoop :
            i.known.SameFile
              (Work.stateAfter (result.symbols.forM
                (reclaim c (updateWithin c fuel) file mtime)
                next)).known other := by
          refine Work.forM_preserves
            (fun j : Index => i.known.SameFile j.known other)
            ?_ (hOthers other hOther)
          intro symbol _ j hSame
          have hNow := hUndrifted.of_sameFile hSame
          have hRoom :
              i.known.SameFile
                (madeRoom c (updateWithin c fuel) symbol j).known
                other := by
            rcases madeRoom_cases c (updateWithin c fuel) symbol
                j with
              hRoom | ⟨previous, hSymbol, hDrifted, hRoom⟩
            · rw [hRoom]
              exact hSame
            · rw [hRoom]
              exact hSame.trans
                (ih (hNow.ne_of_hasDrifted hSymbol hDrifted) hNow)
          rcases reclaim_cases c (updateWithin c fuel) file mtime
              symbol j with
            ⟨error, hRun⟩ | ⟨hFree, hRun⟩
          · rw [hRun]
            exact hRoom
          · rw [hRun]
            exact hRoom.trans (sameFile_entered hFree hOther)
        cases hRun :
            result.symbols.forM
              (reclaim c (updateWithin c fuel) file mtime)
              next with
        | error error final =>
            rw [Work.bind_of_error hRun]
            rw [hRun] at hLoop
            exact hLoop
        | ok value final =>
            rw [Work.bind_of_ok hRun, known_debug]
            rw [hRun] at hLoop
            exact hLoop

end Index

end SymbolAtlas

------------------------------------------------------------
-- The File Itself
------------------------------------------------------------

namespace SymbolAtlas

namespace Index

variable {c : Context} {fuel : Nat} {file : String} {mtime : Int}

/- Room is made without touching the file that needs it. -/
theorem has_madeRoom
    {symbols : List String}
    {empty : Option Int}
    {symbol : String}
    {i : Index}
    (hStat : c.disk.stat file = .ok ⟨false, mtime⟩)
    (hHas : i.known.Has file mtime symbols empty) :
    (madeRoom c (updateWithin c fuel) symbol i).known.Has file
      mtime symbols empty := by
  have hUndrifted := Undrifted.of_has hStat hHas
  rcases madeRoom_cases c (updateWithin c fuel) symbol i with
    hRoom | ⟨previous, hSymbol, hDrifted, hRoom⟩
  · rw [hRoom]
    exact hHas
  · rw [hRoom]
    exact hHas.of_sameFile (sameFile_updateWithin
      (hUndrifted.ne_of_hasDrifted hSymbol hDrifted) hUndrifted)

/- A loop that gets through gives the file all its symbols. -/
theorem has_forM_reclaim
    {before symbols : List String}
    {empty : Option Int}
    {i final : Index}
    (hStat : c.disk.stat file = .ok ⟨false, mtime⟩)
    (hHas : i.known.Has file mtime before empty)
    (hLoop :
      symbols.forM (reclaim c (updateWithin c fuel) file mtime) i =
        .ok () final) :
    final.known.Has file mtime (before ++ symbols) empty := by
  induction symbols generalizing i before with
  | nil =>
      cases hLoop
      rw [List.append_nil]
      exact hHas
  | cons symbol rest ih =>
      have hRoom :
          (madeRoom c (updateWithin c fuel) symbol i).known.Has
            file mtime before empty :=
        has_madeRoom hStat hHas
      rcases reclaim_cases c (updateWithin c fuel) file mtime
          symbol i with
        ⟨error, hRun⟩ | ⟨-, hRun⟩
      · rw [Work.forM_cons_of_error hRun] at hLoop
        cases hLoop
      · rw [Work.forM_cons_of_ok hRun] at hLoop
        have hRest := ih (has_entered hRoom) hLoop
        rwa [List.append_assoc] at hRest

end Index

end SymbolAtlas

------------------------------------------------------------
-- Unfinished Files
------------------------------------------------------------

namespace SymbolAtlas

namespace Index

/-
  An update of the file comes to one of its symbols: those
  before it have been entered.
-/
def Reaches
    (c : Context)
    (fuel : Nat)
    (file : String)
    (i : Index)
    (mtime : Int)
    (symbol : String)
    (middle : Index) : Prop :=
  ∃ before after next,
    scanAgain c file i =
      .ok (some (mtime, before ++ symbol :: after)) next ∧
    before.forM (reclaim c (updateWithin c fuel) file mtime) next =
      .ok () middle

/-
  An error ends an update of the first file while the symbols
  of the second file are being entered: it comes at a symbol of
  the first file itself, or from the update of a file that is
  in the way.
-/
inductive Interrupted (c : Context) :
    (fuel : Nat) → (file : String) → Index → String → Prop
| here {fuel : Nat} {file symbol : String} {i middle final : Index}
    {mtime : Int} {error : Error}
    (hReaches : Reaches c fuel file i mtime symbol middle)
    (hFails :
      reclaim c (updateWithin c fuel) file mtime symbol middle =
        .error error final) :
    Interrupted c (fuel + 1) file i file
| within {fuel : Nat} {file symbol other : String}
    {i middle : Index} {mtime : Int} {previous : Entry}
    (hReaches : Reaches c fuel file i mtime symbol middle)
    (hSymbol : middle.known.symbols.get? symbol = some previous)
    (hDrifted : hasDrifted c.disk previous = true)
    (hWithin : Interrupted c fuel previous.file middle other) :
    Interrupted c (fuel + 1) file i other

/-
  A scan of the file as it is now reports more symbols than the
  snapshot has.
-/
def IsCut (c : Context) (k : Snapshot) (file : String) : Prop :=
  ∃ mtime alone result before symbol after,
    c.disk.stat file = .ok ⟨false, mtime⟩ ∧
    (Scan.ofPath file alone).run c.disk c.strict = .ok result ∧
    result.symbols = before ++ symbol :: after ∧
    k.Has file mtime before none

variable {c : Context} {fuel : Nat} {file : String} {i : Index}

/- An error at a symbol ends the update. -/
theorem Reaches.updateWithin_eq
    {mtime : Int}
    {symbol : String}
    {middle final : Index}
    {error : Error}
    (hReaches : Reaches c fuel file i mtime symbol middle)
    (hFails :
      reclaim c (updateWithin c fuel) file mtime symbol middle =
        .error error final) :
    updateWithin c (fuel + 1) file i = .error error final := by
  rcases hReaches with ⟨before, after, next, hScan, hBefore⟩
  rw [updateWithin_of_some hScan]
  apply Work.bind_of_error
  rw [Work.forM_append hBefore, Work.forM_cons_of_error hFails]

/- The symbols before the one that is reached are in the file. -/
theorem Reaches.isCut
    {mtime : Int}
    {symbol : String}
    {middle : Index}
    (hReaches : Reaches c fuel file i mtime symbol middle) :
    IsCut c (madeRoom c (updateWithin c fuel) symbol middle).known
      file := by
  rcases hReaches with ⟨before, after, next, hScan, hBefore⟩
  rcases scanAgain_cases c file i with
    ⟨_, hOther | ⟨_, hOther⟩, -⟩ |
    ⟨time, alone, result, other, hStat, hRun, hOther, hHas, -⟩
  · rw [hScan] at hOther
    cases hOther
  · rw [hScan] at hOther
    cases hOther
  · rw [hScan] at hOther
    simp only [EStateM.Result.ok.injEq, Option.some.injEq,
      Prod.mk.injEq] at hOther
    rcases hOther with ⟨⟨rfl, hSymbols⟩, rfl⟩
    have hEmpty :
        Snapshot.emptyTime result.symbols mtime = none := by
      simp [Snapshot.emptyTime, ← hSymbols]
    rw [hEmpty] at hHas
    have hMiddle := has_forM_reclaim hStat hHas hBefore
    exact ⟨mtime, alone, result, before, symbol, after, hStat,
      hRun, hSymbols.symm, has_madeRoom hStat hMiddle⟩

/- An update that fails makes the claim that needs it fail. -/
theorem reclaim_of_error
    {updateOther : String → Work Unit}
    {mtime : Int}
    {symbol : String}
    {previous : Entry}
    {error : Error}
    {final : Index}
    (hSymbol : i.known.symbols.get? symbol = some previous)
    (hDrifted : hasDrifted c.disk previous = true)
    (hUpdate : updateOther previous.file i = .error error final) :
    reclaim c updateOther file mtime symbol i =
      .error error final := by
  have hEntry : entry? symbol i = .ok (some previous) i := by
    rw [← hSymbol]
    rfl
  unfold reclaim
  rw [Work.bind_of_ok hEntry]
  simp only [hDrifted, if_true]
  exact Work.bind_of_error hUpdate

/- An unfinished file is left with some of its symbols. -/
theorem Interrupted.isCut
    {other : String}
    (hInterrupted : Interrupted c fuel file i other) :
    ∃ error final,
      updateWithin c fuel file i = .error error final ∧
      IsCut c final.known other := by
  induction hInterrupted with
  | @here _ _ _ _ _ final _ error hReaches hFails =>
      refine ⟨error, final, hReaches.updateWithin_eq hFails, ?_⟩
      rw [eq_madeRoom_of_error hFails]
      exact hReaches.isCut
  | within hReaches hSymbol hDrifted _ ih =>
      rcases ih with ⟨error, final, hUpdate, hCut⟩
      exact ⟨error, final,
        hReaches.updateWithin_eq
          (reclaim_of_error hSymbol hDrifted hUpdate),
        hCut⟩

end Index

end SymbolAtlas

------------------------------------------------------------
-- All Files
------------------------------------------------------------

namespace SymbolAtlas

namespace Index

/- Nothing is known of the file, or all a scan of it reports. -/
def Renewed (c : Context) (k : Snapshot) (file : String) : Prop :=
  (∃ mtime, k.Has file mtime [] none) ∨
  ∃ mtime alone result,
    c.disk.stat file = .ok ⟨false, mtime⟩ ∧
    (Scan.ofPath file alone).run c.disk c.strict = .ok result ∧
    k.Has file mtime result.symbols
      (Snapshot.emptyTime result.symbols mtime)

/- The file is known as it was before or as it is now. -/
def Settled (c : Context) (k l : Snapshot) (file : String) :
    Prop :=
  k.SameFile l file ∨ Renewed c l file

theorem Renewed.of_sameFile
    {c : Context}
    {k l : Snapshot}
    {file : String}
    (hRenewed : Renewed c k file)
    (hSame : k.SameFile l file) :
    Renewed c l file := by
  rcases hRenewed with ⟨mtime, hHas⟩ |
    ⟨mtime, alone, result, hStat, hRun, hHas⟩
  · exact Or.inl ⟨mtime, hHas.of_sameFile hSame⟩
  · exact Or.inr ⟨mtime, alone, result, hStat, hRun,
      hHas.of_sameFile hSame⟩

theorem Settled.trans
    {c : Context}
    {k l m : Snapshot}
    {file : String}
    (hFirst : Settled c k l file)
    (hSecond : Settled c l m file) :
    Settled c k m file := by
  rcases hSecond with hSame | hRenewed
  · rcases hFirst with hBefore | hRenewed
    · exact Or.inl (hBefore.trans hSame)
    · exact Or.inr (hRenewed.of_sameFile hSame)
  · exact Or.inr hRenewed

variable {c : Context} {fuel : Nat} {file : String} {i : Index}

/- An update renews its file, unless it is interrupted. -/
theorem renewed_or_interrupted
    (c : Context)
    (fuel : Nat)
    (file : String)
    (i : Index) :
    Renewed c
      (Work.stateAfter (updateWithin c (fuel + 1) file i)).known
      file ∨
    Interrupted c (fuel + 1) file i file := by
  rcases scanAgain_cases c file i with
    ⟨final, hScan | ⟨error, hScan⟩, hGone, -⟩ |
    ⟨mtime, alone, result, next, hStat, hRun, hScan, hHas, -⟩
  · rw [updateWithin_of_none hScan]
    exact Or.inl (Or.inl ⟨0, hGone 0⟩)
  · rw [updateWithin_of_error hScan]
    exact Or.inl (Or.inl ⟨0, hGone 0⟩)
  · rcases Work.forM_cases
        (reclaim c (updateWithin c fuel) file mtime)
        result.symbols next with
      ⟨final, hLoop⟩ |
      ⟨before, symbol, after, middle, error, final, hSplit,
        hBefore, hFails, -⟩
    · left
      right
      refine ⟨mtime, alone, result, hStat, hRun, ?_⟩
      rw [updateWithin_of_some hScan, Work.bind_of_ok hLoop,
        known_debug]
      exact has_forM_reclaim hStat hHas hLoop
    · right
      rw [hSplit] at hScan
      exact .here ⟨before, after, next, hScan, hBefore⟩ hFails

section Within

variable {other : String}

/- Updates with so many left settle the file or are stopped. -/
variable
  (hLess :
    ∀ file i,
      Settled c i.known
        (Work.stateAfter (updateWithin c fuel file i)).known
        other ∨
      Interrupted c fuel file i other)

include hLess

/- Making room settles a file or leaves it unfinished. -/
theorem settled_madeRoom
    (symbol : String)
    (i : Index) :
    Settled c i.known
      (madeRoom c (updateWithin c fuel) symbol i).known other ∨
    ∃ previous,
      i.known.symbols.get? symbol = some previous ∧
      hasDrifted c.disk previous = true ∧
      Interrupted c fuel previous.file i other := by
  rcases madeRoom_cases c (updateWithin c fuel) symbol i with
    hRoom | ⟨previous, hSymbol, hDrifted, hRoom⟩
  · rw [hRoom]
    exact Or.inl (Or.inl (Snapshot.SameFile.refl _ _))
  · rw [hRoom]
    rcases hLess previous.file i with hSettled | hInterrupted
    · exact Or.inl hSettled
    · exact Or.inr ⟨previous, hSymbol, hDrifted, hInterrupted⟩

/- Claims that succeed settle every other file. -/
theorem settled_forM_reclaim
    (hOther : other ≠ file)
    {mtime : Int}
    {symbols : List String}
    {final : Index}
    (hLoop :
      symbols.forM (reclaim c (updateWithin c fuel) file mtime) i =
        .ok () final) :
    Settled c i.known final.known other := by
  refine Work.forM_keeps
    (fun j : Index => Settled c i.known j.known other)
    ?_ (Or.inl (Snapshot.SameFile.refl _ _)) hLoop
  intro symbol j after hSettled hOk
  rcases reclaim_cases c (updateWithin c fuel) file mtime symbol
      j with
    ⟨error, hRun⟩ | ⟨hFree, hRun⟩
  · rw [hOk] at hRun
    cases hRun
  · rw [hOk] at hRun
    cases hRun
    rcases settled_madeRoom hLess symbol j with hNow |
      ⟨previous, hSymbol, hDrifted, hInterrupted⟩
    · exact (hSettled.trans hNow).trans
        (Or.inl (sameFile_entered hFree hOther))
    · rcases hInterrupted.isCut with ⟨error, final, hUpdate, -⟩
      rw [reclaim_of_error hSymbol hDrifted hUpdate] at hOk
      cases hOk

end Within

/-
  Every file is settled by an update, unless it is interrupted.
  The induction is on the updates that are left.
-/
theorem settled_or_interrupted
    (c : Context)
    (fuel : Nat)
    (file : String)
    (i : Index)
    (other : String) :
    Settled c i.known
      (Work.stateAfter (updateWithin c fuel file i)).known other ∨
    Interrupted c fuel file i other := by
  induction fuel generalizing file i with
  | zero => exact Or.inl (Or.inl (Snapshot.SameFile.refl _ _))
  | succ fuel ih =>
      by_cases hOther : other = file
      · subst hOther
        rcases renewed_or_interrupted c fuel other i with
          hRenewed | hInterrupted
        · exact Or.inl (Or.inr hRenewed)
        · exact Or.inr hInterrupted
      · rcases scanAgain_cases c file i with
          ⟨final, hScan | ⟨error, hScan⟩, -, hOthers⟩ |
          ⟨mtime, alone, result, next, -, -, hScan, -, hOthers⟩
        · rw [updateWithin_of_none hScan]
          exact Or.inl (Or.inl (hOthers other hOther))
        · rw [updateWithin_of_error hScan]
          exact Or.inl (Or.inl (hOthers other hOther))
        · have hNext : Settled c i.known next.known other :=
            Or.inl (hOthers other hOther)
          rw [updateWithin_of_some hScan]
          rcases Work.forM_cases
              (reclaim c (updateWithin c fuel) file mtime)
              result.symbols next with
            ⟨final, hLoop⟩ |
            ⟨before, symbol, after, middle, error, final, hSplit,
              hBefore, hFails, hLoop⟩
          · rw [Work.bind_of_ok hLoop, known_debug]
            exact Or.inl (hNext.trans
              (settled_forM_reclaim ih hOther hLoop))
          · rw [Work.bind_of_error hLoop, Work.stateAfter_error,
              eq_madeRoom_of_error hFails]
            rw [hSplit] at hScan
            rcases settled_madeRoom ih symbol middle with hNow |
              ⟨previous, hSymbol, hDrifted, hInterrupted⟩
            · left
              exact (hNext.trans
                (settled_forM_reclaim ih hOther hBefore)).trans
                  hNow
            · right
              exact .within ⟨before, after, next, hScan, hBefore⟩
                hSymbol hDrifted hInterrupted

end Index

end SymbolAtlas
