import SymbolAtlas.Proofs.Search.Trails

/-
  The search for the sources of a root.

  The search is a query that depends on the settings alone, with
  one more test: what is ignored or excluded is neither kept nor
  entered. Only the test looks at the disk, for the real paths
  that it bans.

  Key definitions:
    * `Query.guarded`
    * `Sources.plainQuery`
  Key theorems:
    * `Query.test_of_passes_content`
    * `Query.test_of_passes_descent`
    * `Sources.queryOf_eq`
    * `Sources.mem_existing_iff`
-/

------------------------------------------------------------
-- One More Test
------------------------------------------------------------

namespace SymbolAtlas

namespace Query

/- The query with one more test, on results and on descent. -/
def guarded (q : Query) (test : Record → Bool) : Query :=
  (q.filter ⟨none, test⟩).descentFilter ⟨none, test⟩

variable {q : Query} {test : Record → Bool} {record : Record}

/- The filters of the query answer as they did. -/
theorem answer_guarded
    (index : Nat) :
    (q.guarded test).walker.answer record index =
      if index < q.filters.length then
        q.walker.answer record index
      else if index < q.filters.length + 2 then test record
      else true := by
  unfold Search.Walker.answer walker guarded descentFilter filter
  simp only [List.map_append, List.map_cons, List.map_nil,
    List.append_assoc]
  by_cases hOld : index < q.filters.length
  · rw [if_pos hOld, List.getElem?_append_left (by simpa using hOld)]
  · rw [if_neg hOld, List.getElem?_append_right (by simpa using hOld),
      List.length_map]
    obtain ⟨more, rfl⟩ : ∃ more, index = q.filters.length + more :=
      ⟨index - q.filters.length, by omega⟩
    rw [Nat.add_sub_cancel_left]
    match more with
    | 0 => simp
    | 1 => simp
    | more + 2 => simp

/- What is kept passes the test. -/
theorem test_of_passes_content
    (hPasses :
      (q.guarded test).walker.passes
        (q.guarded test).walker.content record = true) :
    test record = true := by
  have hOne := List.all_eq_true.mp hPasses q.filters.length (by
    simp [walker, guarded, descentFilter, filter])
  rw [answer_guarded, if_neg (Nat.lt_irrefl _),
    if_pos (by omega)] at hOne
  exact hOne

/- What is entered passes the test. -/
theorem test_of_passes_descent
    (hPasses :
      (q.guarded test).walker.passes
        (q.guarded test).walker.descent record = true) :
    test record = true := by
  have hOne := List.all_eq_true.mp hPasses
    (q.filters.length + 1) (by
      simp [walker, guarded, descentFilter, filter])
  rw [answer_guarded, if_neg (by omega), if_pos (by omega)] at hOne
  exact hOne

end Query

end SymbolAtlas

------------------------------------------------------------
-- The Query of a Root
------------------------------------------------------------

namespace SymbolAtlas

/- An attempt that succeeds is among those that are made. -/
theorem mem_of_mapM
    {ε α β : Type}
    {f : α → Except ε β}
    {items : List α}
    {results : List β}
    (hResults : items.mapM f = .ok results)
    {item : α}
    (hItem : item ∈ items)
    {result : β}
    (hResult : f item = .ok result) :
    result ∈ results := by
  induction items generalizing results with
  | nil => cases hItem
  | cons first rest ih =>
      rw [List.mapM_cons] at hResults
      cases hFirst : f first with
      | error error =>
          rw [hFirst] at hResults
          cases hResults
      | ok head =>
          rw [hFirst] at hResults
          cases hRest : rest.mapM f with
          | error error =>
              rw [hRest] at hResults
              cases hResults
          | ok tail =>
              rw [hRest] at hResults
              cases hResults
              rcases List.mem_cons.mp hItem with rfl | hLater
              · rw [hFirst] at hResult
                cases hResult
                exact List.mem_cons_self
              · exact List.mem_cons_of_mem _ (ih hRest hLater)

/- All attempts succeed if each of them does. -/
theorem exists_mapM_iff
    {ε α β : Type}
    {f : α → Except ε β}
    {items : List α} :
    (∃ results, items.mapM f = .ok results) ↔
      ∀ item ∈ items, ∃ result, f item = .ok result := by
  induction items with
  | nil =>
      refine ⟨fun _ item hItem => ?_, fun _ => ⟨[], rfl⟩⟩
      cases hItem
  | cons first rest ih =>
      rw [List.mapM_cons, List.forall_mem_cons, ← ih]
      cases f first with
      | error error => simp [bind, Except.bind]
      | ok head =>
          cases rest.mapM f with
          | error error => simp [bind, Except.bind]
          | ok tail => simp [bind, Except.bind, pure, Except.pure]

namespace Sources

/- The search below a directory, for which nothing is banned. -/
def plainQuery (s : Settings) (directory : String) :
    Except Error Query := do
  let query ← Query.findFiles s.accept
  let query ← query.fromDirs [directory]
  let query ← query.exclude s.ignore
  return { query with ignoreUnreadable := s.ignoreUnreadable }
    |>.sortBy .name

variable {d : Disk} {s : Settings}

/- The search of a root bans what exists of two lists. -/
theorem queryOf_eq
    (directory : String) :
    queryOf d s directory =
      match existing d s (s.ignore ++ s.exclude) with
      | .error error => .error error
      | .ok banned =>
          match plainQuery s directory with
          | .error error => .error error
          | .ok q => .ok (q.guarded (isAllowed d banned)) := by
  unfold queryOf plainQuery
  simp only [bind, Except.bind, pure, Except.pure]
  cases existing d s (s.ignore ++ s.exclude) with
  | error error => rfl
  | ok banned =>
      dsimp only
      cases Query.findFiles s.accept with
      | error error => rfl
      | ok found =>
          dsimp only
          cases found.fromDirs [directory] with
          | error error => rfl
          | ok placed =>
              dsimp only
              cases placed.exclude s.ignore with
              | error error => rfl
              | ok excluded => rfl

theorem queryOf_eq_ok_iff
    {directory : String}
    {q : Query} :
    queryOf d s directory = .ok q ↔
      ∃ banned plain,
        existing d s (s.ignore ++ s.exclude) = .ok banned ∧
        plainQuery s directory = .ok plain ∧
        q = plain.guarded (isAllowed d banned) := by
  rw [queryOf_eq]
  cases existing d s (s.ignore ++ s.exclude) with
  | error error => simp
  | ok banned =>
      cases plainQuery s directory with
      | error error => simp
      | ok plain => simp [eq_comm]

/- What is banned are the real paths of what exists. -/
theorem mem_existing_iff
    {paths banned : List String}
    (hBanned : existing d s paths = .ok banned)
    (real : String) :
    real ∈ banned ↔
      (∃ path ∈ paths, s.resolvePath d path = .ok real) ∧
        d.exists? real = true := by
  unfold existing at hBanned
  cases hAll : paths.mapM (s.resolvePath d) with
  | error error =>
      rw [hAll] at hBanned
      cases hBanned
  | ok reals =>
      rw [hAll] at hBanned
      cases hBanned
      rw [List.mem_filter]
      refine and_congr_left fun _ => ⟨exists_of_mem_mapM hAll, ?_⟩
      rintro ⟨path, hPath, hReal⟩
      exact mem_of_mapM hAll hPath hReal

/- Nothing is banned unless all the paths can be resolved. -/
theorem exists_existing_iff
    {paths : List String} :
    (∃ banned, existing d s paths = .ok banned) ↔
      ∀ path ∈ paths, ∃ real, s.resolvePath d path = .ok real := by
  rw [← exists_mapM_iff]
  unfold existing
  cases paths.mapM (s.resolvePath d) with
  | error error => simp [Except.map]
  | ok reals => simp [Except.map]

end Sources

end SymbolAtlas
