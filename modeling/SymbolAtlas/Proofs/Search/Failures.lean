import SymbolAtlas.Proofs.Attempts
import SymbolAtlas.Proofs.Search.Walks
import SymbolAtlas.Proofs.Text.Markup
import SymbolAtlas.Source.Scan

/-
  Errors of searches and scans.

  Only entering symbols can end in a conflict. A search fails at
  a mask, a path or a directory, and a scan at what a file holds
  or at a notice that cannot be shown.

  Key definitions:
    * `Error.Spares`, `Peaceful`
  Key theorems:
    * `Search.Walker.spares_traverse`
    * `Sources.spares_ofSettings`
    * `Scan.peaceful_run`
-/

------------------------------------------------------------
-- Attempts That End in No Conflict
------------------------------------------------------------

namespace SymbolAtlas

/- The error that ends something, if one does, is no conflict. -/
def Error.Spares (failure : Option Error) : Prop :=
  ∀ error, failure = some error → error.family ≠ .ambiguity

theorem spares_none : Error.Spares none := by
  intro error hError
  cases hError

theorem spares_some
    {error : Error}
    (hFamily : error.family ≠ .ambiguity) :
    Error.Spares (some error) := by
  intro other hOther
  cases hOther
  exact hFamily

/- An attempt succeeds, or its error is no conflict. -/
abbrev Peaceful {α : Type} (result : Except Error α) : Prop :=
  FailsWith (fun error => error.family ≠ .ambiguity) result

end SymbolAtlas

------------------------------------------------------------
-- Searches That End in No Conflict
------------------------------------------------------------

namespace SymbolAtlas

/- A path has no real path only if links lead to themselves. -/
theorem Disk.failsWith_resolve
    (d : Disk)
    (path : String) :
    FailsWith (· = .linkLoop) (d.resolve path) := by
  unfold resolve
  dsimp only
  split
  · exact failsWith_error rfl
  · exact failsWith_ok _

theorem Disk.failsWith_realPath
    (d : Disk)
    (path : String) :
    FailsWith (fun error => error.family = .environment)
      (d.realPath path) := by
  refine failsWith_ite (failsWith_error rfl) ?_
  refine (d.failsWith_resolve path).mono fun error hError => ?_
  rw [hError]
  rfl

/- Only a home that nobody has cannot be found. -/
theorem Disk.failsWith_expandHome
    (d : Disk)
    (route : Route) :
    FailsWith (fun error => error.family = .environment)
      (d.expandHome route) := by
  unfold expandHome
  split
  · split
    · exact failsWith_ok _
    · split
      · apply failsWith_error
        split
        · rfl
        · rfl
      · exact failsWith_ok _
  · exact failsWith_ok _

/- Paths of the settings fail for what is around them. -/
theorem Settings.failsWith_resolvePath
    (s : Settings)
    (d : Disk)
    (path : String) :
    FailsWith (fun error => error.family = .environment)
      (s.resolvePath d path) := by
  exact (d.failsWith_expandHome _).bind fun _ =>
    d.failsWith_realPath _

theorem Settings.peaceful_resolvePath
    (s : Settings)
    (d : Disk)
    (path : String) :
    Peaceful (s.resolvePath d path) := by
  refine (s.failsWith_resolvePath d path).mono ?_
  intro error hFamily
  rw [hFamily]
  exact ErrorFamily.noConfusion

theorem Mask.peaceful_compile
    (text : String) :
    Peaceful (Mask.compile text) := by
  unfold compile
  split
  · exact failsWith_ok _
  · exact failsWith_error (by rintro ⟨⟩)

theorem Exclusion.peaceful_compile
    (text : String) :
    Peaceful (Exclusion.compile text) := by
  unfold compile
  split
  · exact failsWith_error (by rintro ⟨⟩)
  · exact (Mask.peaceful_compile _).bind fun _ => failsWith_ok _

namespace Search

theorem peaceful_splits
    (locations : List String)
    (request : Request) :
    Peaceful (splits locations request) := by
  unfold splits
  split
  · split
    · exact failsWith_error (by rintro ⟨⟩)
    · exact failsWith_ok _
  · exact failsWith_ok _

theorem peaceful_directories
    (d : Disk)
    (base : String) :
    Peaceful (directories d base) := by
  unfold directories
  exact failsWith_ite (failsWith_error (by rintro ⟨⟩)) (failsWith_ok _)

theorem peaceful_plan
    (d : Disk)
    (locations : List String)
    (requests : List Request) :
    Peaceful (plan d locations requests) := by
  refine failsWith_foldlM (fun plan request => ?_) _ _
  refine (peaceful_splits _ _).bind fun readings => ?_
  refine failsWith_foldlM (fun state reading => ?_) _ _
  refine (peaceful_directories _ _).bind fun _ => ?_
  exact (Mask.peaceful_compile _).bind fun _ => failsWith_ok _

namespace Trace

variable {ι : Type}

/- A trace of two parts ends as one of them does. -/
theorem spares_append
    {first second : Trace ι}
    (hFirst : Error.Spares first.failure)
    (hSecond : Error.Spares second.failure) :
    Error.Spares (first ++ second).failure := by
  change Error.Spares (append first second).failure
  unfold append
  split
  · exact hFirst
  · exact hSecond

theorem spares_concat
    {traces : List (Trace ι)}
    (hTraces : ∀ trace ∈ traces, Error.Spares trace.failure) :
    Error.Spares (concat traces).failure := by
  induction traces with
  | nil => exact spares_none
  | cons first rest ih =>
      exact spares_append (hTraces first List.mem_cons_self)
        (ih fun trace hTrace =>
          hTraces trace (List.mem_cons_of_mem _ hTrace))

theorem spares_map
    {κ : Type}
    (f : ι → κ)
    {trace : Trace ι}
    (hTrace : Error.Spares trace.failure) :
    Error.Spares (trace.map f).failure :=
  hTrace

end Trace

theorem Walker.spares_visit
    {w : Walker}
    {goals : List Goal}
    {below : List Goal → Record → Trace Nat}
    {record : Record}
    (hBelow : ∀ deeper, Error.Spares (below deeper record).failure) :
    Error.Spares (w.visit goals below record).failure := by
  have hFound (memo : Memo) :
      Error.Spares (w.examine goals record memo).failure := by
    rw [failure_examine]
    exact spares_none
  have hDown :
      Error.Spares
        (if (w.descend goals record).1.isEmpty then
          (.empty : Trace Nat)
        else below (w.descend goals record).1 record).failure := by
    split
    · exact spares_none
    · exact hBelow _
  unfold visit
  dsimp only
  split
  · exact Trace.spares_append
      (Trace.spares_append spares_none hDown) (hFound _)
  · exact Trace.spares_append
      (Trace.spares_append spares_none (hFound _)) hDown

/- A walk ends early only at what cannot be listed. -/
theorem Walker.spares_traverse
    (w : Walker)
    (d : Disk)
    (fuel : Nat)
    (directory : String)
    (goals : List Goal)
    (subdirs : List String) :
    Error.Spares
      (w.traverse d fuel directory goals subdirs).failure := by
  induction fuel generalizing directory goals subdirs with
  | zero => exact spares_none
  | succ fuel ih =>
      unfold traverse
      split
      · exact spares_none
      · split
        · unfold unreadable
          split
          · exact spares_none
          · exact spares_some (by rintro ⟨⟩)
        · apply Trace.spares_concat
          intro trace hTrace
          rcases List.mem_map.mp hTrace with ⟨record, -, rfl⟩
          exact spares_visit fun deeper => ih _ _ _

end Search

/- The search of a root ends in no conflict. -/
theorem Query.spares_run
    {q : Query}
    (hAppended : q.appended = [])
    (d : Disk) :
    Error.Spares (q.run d).failure := by
  unfold run
  cases hPlan : q.plan d with
  | error error =>
      exact spares_some
        (Search.peaceful_plan d q.locations q.requests error hPlan)
  | ok plan =>
      rw [hAppended]
      refine Search.Trace.spares_append ?_ spares_none
      apply Search.Trace.spares_map
      apply Search.Trace.spares_concat
      intro trace hTrace
      rcases List.mem_map.mp hTrace with ⟨entry, -, rfl⟩
      exact q.walker.spares_traverse d _ _ _ _

namespace Sources

variable {d : Disk} {s : Settings}

theorem peaceful_queryOf
    (directory : String) :
    Peaceful (queryOf d s directory) := by
  refine FailsWith.bind ?_ fun banned => ?_
  · exact (failsWith_mapM (s.peaceful_resolvePath d) _).map _
  have hRequest (mask : String) :
      Peaceful (Query.request .file mask) := by
    unfold Query.request
    exact failsWith_ite (failsWith_error (by rintro ⟨⟩))
      (failsWith_ok _)
  have hLocation (path : String) :
      Peaceful (Query.location "/**" path) := by
    unfold Query.location
    exact failsWith_ite (failsWith_error (by rintro ⟨⟩))
      (failsWith_ok _)
  refine ((failsWith_mapM hRequest _).map _).bind fun _ => ?_
  refine ((failsWith_mapM hLocation _).map _).bind fun _ => ?_
  exact ((failsWith_mapM Exclusion.peaceful_compile _).map _).bind
    fun _ => failsWith_ok _

theorem spares_ofRoot
    (root : String) :
    Error.Spares (ofRoot d s root).failure := by
  rw [ofRoot_eq]
  cases hPath : s.resolvePath d root with
  | error error =>
      exact spares_some (s.peaceful_resolvePath d root error hPath)
  | ok path =>
      dsimp only
      cases d.stat path with
      | error fault => exact spares_some (by rintro ⟨⟩)
      | ok stat =>
          dsimp only
          split
          · cases hQuery : queryOf d s path with
            | error error =>
                exact spares_some
                  (peaceful_queryOf path error hQuery)
            | ok q =>
                exact Query.spares_run (queryOf_shape hQuery).2.2 d
          · exact spares_none

theorem spares_ofFile
    (file : String) :
    Error.Spares (ofFile d s file).failure := by
  unfold ofFile
  cases hPath : s.resolvePath d file with
  | error error =>
      exact spares_some (s.peaceful_resolvePath d file error hPath)
  | ok path =>
      simp only [bind, Except.bind]
      cases d.stat path with
      | error fault => exact spares_none
      | ok stat =>
          dsimp only
          split
          · exact spares_none
          · exact spares_none

theorem spares_append
    {first second : Sources}
    (hFirst : Error.Spares first.failure)
    (hSecond : Error.Spares second.failure) :
    Error.Spares (first ++ second).failure := by
  change Error.Spares (append first second).failure
  unfold append
  split
  · exact hFirst
  · exact hSecond

theorem spares_concat
    {lists : List Sources}
    (hLists : ∀ list ∈ lists, Error.Spares list.failure) :
    Error.Spares (concat lists).failure := by
  induction lists with
  | nil => exact spares_none
  | cons first rest ih =>
      exact spares_append (hLists first List.mem_cons_self)
        (ih fun list hList =>
          hLists list (List.mem_cons_of_mem _ hList))

/- No list of sources is cut short by a conflict. -/
theorem spares_ofSettings
    (d : Disk)
    (s : Settings) :
    Error.Spares (ofSettings d s).failure := by
  refine spares_append (spares_concat ?_) (spares_concat ?_)
  · intro list hList
    rcases List.mem_map.mp hList with ⟨root, -, rfl⟩
    exact spares_ofRoot root
  · intro list hList
    rcases List.mem_map.mp hList with ⟨file, -, rfl⟩
    exact spares_ofFile file

end Sources

end SymbolAtlas

------------------------------------------------------------
-- Scans That End in No Conflict
------------------------------------------------------------

namespace SymbolAtlas

theorem Notice.peaceful_check
    (n : Notice) :
    Peaceful n.check := by
  refine n.misworded_check.mono fun error hFamily => ?_
  rw [hFamily]
  exact ErrorFamily.noConfusion

theorem Scan.peaceful_read
    (s : Scan)
    (d : Disk) :
    Peaceful (s.read d) := by
  unfold read
  split
  · apply FailsWith.map
    unfold SourceText.tokenize
    dsimp only
    split
    · exact failsWith_ok _
    · exact failsWith_error (by rintro ⟨⟩)
  · exact failsWith_error (by rintro ⟨⟩)

theorem Scan.peaceful_run
    (s : Scan)
    (d : Disk)
    (strict : Bool) :
    Peaceful (s.run d strict) := by
  unfold run
  split
  · exact failsWith_ok _
  · next error hRead =>
      refine failsWith_ite
        (failsWith_error (s.peaceful_read d error hRead)) ?_
      exact (Notice.peaceful_check _).bind fun _ => failsWith_ok _

end SymbolAtlas
