import SymbolAtlas.Proofs.Index.Rounds
import SymbolAtlas.Proofs.Index.Views

/-
  What every step of an index keeps.

  Rebuilds and updates are made of a few steps: a symbol is
  entered, a file is noted to be empty or is forgotten, and what
  was scanned and told is noted. What all steps keep, a rebuild
  and an update keep, whatever their outcome.

  Key definitions:
    * `Index.Lasting`
  Key theorems:
    * `Index.Lasting.rebuild`
    * `Index.Lasting.update`
-/

namespace SymbolAtlas

namespace Index

/- Every step keeps the property. -/
structure Lasting (P : Index → Prop) : Prop where
  noted :
    ∀ {i} scans notices, P i →
      P { i with scanned := scans, notices := notices }
  entered :
    ∀ {i} symbol entry, P i → P (i.entered symbol entry)
  notedEmpty :
    ∀ {i} file mtime, P i → P (i.notedEmpty file mtime)
  forgotten :
    ∀ {i} file, P i → P (i.forgotten file)

variable {P : Index → Prop}

theorem keeps_entry
    (symbol : String) :
    Work.Keeps P <| entry? symbol :=
  fun _ hIndex => hIndex

theorem keeps_liftError
    {α : Type}
    (result : Except Error α) :
    Work.Keeps P (liftError result) := by
  cases result with
  | ok value => exact Work.keeps_pure value
  | error error => exact Work.keeps_throw error

variable (hLasting : Lasting P) (c : Context)

include hLasting

theorem Lasting.tell
    (notices : List Notice) :
    Work.Keeps P (tell notices) :=
  fun i hIndex => hLasting.noted i.scanned _ hIndex

theorem Lasting.debug
    (notice : Notice) :
    Work.Keeps P (debug c notice) := by
  unfold Index.debug
  split
  · exact (keeps_liftError _).bind fun _ => hLasting.tell _
  · exact Work.keeps_pure ()

theorem Lasting.scan
    (path : String)
    (alone : Bool) :
    Work.Keeps P (scan c path alone) := by
  refine Work.Keeps.bind (Work.keeps_modify ?_) fun _ => ?_
  · intro i hIndex
    exact hLasting.noted _ i.notices hIndex
  · refine (keeps_liftError _).bind fun result => ?_
    exact (hLasting.tell _).bind fun _ => Work.keeps_pure _

theorem Lasting.enter
    (symbol : String)
    (entry : Entry) :
    Work.Keeps P (enter symbol entry) :=
  fun _ hIndex => hLasting.entered symbol entry hIndex

theorem Lasting.noteEmpty
    (file : String)
    (mtime : Int) :
    Work.Keeps P (noteEmpty file mtime) :=
  fun _ hIndex => hLasting.notedEmpty file mtime hIndex

/- A file is noted if there is nothing in it. -/
theorem Lasting.noteIfEmpty
    {β : Type}
    {next : Work β}
    (hNext : Work.Keeps P next)
    (found : List String)
    (file : String)
    (mtime : Int) :
    Work.Keeps P (do
      if found.isEmpty then Index.noteEmpty file mtime
      next) := by
  dsimp only
  split
  · exact (hLasting.noteEmpty _ _).bind fun _ => hNext
  · exact hNext

theorem Lasting.takeIn
    (m : Memory)
    (source : Source) :
    Work.Keeps P (takeIn c m source) := by
  have hClaims :
      ∀ found : List String,
        Work.Keeps P (found.forM (claim source)) := by
    intro found
    apply Work.Keeps.forM
    intro symbol _
    refine (keeps_entry symbol).bind fun previous => ?_
    cases previous with
    | some entry => exact Work.keeps_throw _
    | none => exact hLasting.enter _ _
  have hEnters (found : List String) :=
    hLasting.noteIfEmpty (hClaims found) found source.path
      source.mtime
  unfold Index.takeIn
  cases m.symbols? source with
  | some symbols => exact (Work.keeps_pure symbols).bind hEnters
  | none => exact (hLasting.scan c _ _).bind hEnters

/- A rebuild goes on from where it has begun. -/
theorem Lasting.rebuild
    {i : Index}
    (hBegun : P i.begun) :
    P (Work.stateAfter (rebuild c i)) := by
  have hLoop :=
    Work.Keeps.forM
      (fun source (_ : source ∈ sourcesOf c) =>
        hLasting.takeIn c (Memory.ofSnapshot i.known) source)
      i.begun hBegun
  cases hRun :
      (sourcesOf c).forM
        (Index.takeIn c (Memory.ofSnapshot i.known)) i.begun with
  | error error final =>
      rw [rebuild_of_error hRun]
      rw [hRun] at hLoop
      exact hLoop
  | ok value final =>
      rw [rebuild_of_ok hRun]
      rw [hRun] at hLoop
      cases (Sources.ofSettings c.disk c.settings).failure with
      | some error => exact hLoop
      | none => exact hLasting.noted final.scanned _ hLoop

/- A symbol is entered, or found in another file. -/
theorem Lasting.enterUnlessTaken
    (file : String)
    (mtime : Int)
    (symbol : String) :
    Work.Keeps P (do
      match ← entry? symbol with
      | some standing =>
          throw (.ambiguous symbol standing.file file)
      | none => Index.enter symbol ⟨file, mtime⟩) := by
  refine (keeps_entry symbol).bind fun standing => ?_
  cases standing with
  | some other => exact Work.keeps_throw _
  | none => exact hLasting.enter _ _

theorem Lasting.reclaim
    {updateOther : String → Work Unit}
    (hOther : ∀ file, Work.Keeps P (updateOther file))
    (file : String)
    (mtime : Int)
    (symbol : String) :
    Work.Keeps P (reclaim c updateOther file mtime symbol) := by
  unfold Index.reclaim
  refine (keeps_entry symbol).bind fun previous => ?_
  cases previous with
  | none => exact hLasting.enter _ _
  | some entry =>
      have hClaim := hLasting.enterUnlessTaken file mtime symbol
      dsimp only
      split
      · exact (hOther _).bind fun _ => hClaim
      · exact hClaim

theorem Lasting.scanAgain
    (file : String) :
    Work.Keeps P (scanAgain c file) := by
  unfold Index.scanAgain
  refine Work.Keeps.bind
    (fun _ hIndex => hLasting.forgotten file hIndex) fun _ => ?_
  cases c.disk.stat file with
  | error fault => exact Work.keeps_pure none
  | ok stat =>
      dsimp only
      split
      · exact Work.keeps_pure none
      · refine (keeps_liftError _).bind fun alone => ?_
        refine (hLasting.scan c _ _).bind fun found => ?_
        exact hLasting.noteIfEmpty (Work.keeps_pure _) _ _ _

theorem Lasting.updateWithin
    (fuel : Nat)
    (file : String) :
    Work.Keeps P (updateWithin c fuel file) := by
  induction fuel generalizing file with
  | zero => exact Work.keeps_pure ()
  | succ fuel ih =>
      rw [Index.updateWithin]
      refine (hLasting.scanAgain c file).bind fun found => ?_
      cases found with
      | none => exact Work.keeps_pure ()
      | some result =>
          refine Work.Keeps.bind ?_ fun _ => hLasting.debug c _
          apply Work.Keeps.forM
          intro symbol _
          exact hLasting.reclaim c ih file _ symbol

theorem Lasting.update
    (file : String) :
    Work.Keeps P (update c file) :=
  fun i hIndex => hLasting.updateWithin c _ file i hIndex

end Index

end SymbolAtlas
