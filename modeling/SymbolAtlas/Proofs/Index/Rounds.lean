import SymbolAtlas.Proofs.Index.Steps

/-
  How a rebuild goes through its sources.

  A path counts the first time it is met. So a rebuild is a
  loop over the first sources of all paths, followed by the
  error that cuts the list of sources short, if there is one.

  Key definitions:
    * `Sources.firsts`
    * `Index.sourcesOf`, `Index.begun`
  Key theorems:
    * `Sources.mem_firsts_iff`
    * `Index.rebuild_of_ok`, `Index.rebuild_of_error`
    * `Scan.nodup_run`
-/

------------------------------------------------------------
-- First Sources
------------------------------------------------------------

namespace SymbolAtlas

namespace Sources

/- The sources whose paths are new, those seen left out. -/
def firsts : (seen : List String) → List Source → List Source
| _, [] => []
| seen, source :: rest =>
    if seen.contains source.path then firsts seen rest
    else source :: firsts (source.path :: seen) rest

/- A first source is one whose path does not stand before it. -/
theorem mem_firsts_iff
    {seen : List String}
    {items : List Source}
    {source : Source} :
    source ∈ firsts seen items ↔
      source.path ∉ seen ∧
        ∃ before after,
          items = before ++ source :: after ∧
          ∀ other ∈ before, other.path ≠ source.path := by
  induction items generalizing seen with
  | nil => simp [firsts]
  | cons first rest ih =>
      by_cases hSeen : first.path ∈ seen
      · simp only [firsts, List.contains_iff_mem, hSeen, if_true,
          ih]
        constructor
        · rintro ⟨hNew, before, after, hRest, hBefore⟩
          refine ⟨hNew, first :: before, after, by simp [hRest],
            ?_⟩
          intro other hOther
          rcases List.mem_cons.mp hOther with rfl | hOther
          · rintro hPath
            exact hNew (hPath ▸ hSeen)
          · exact hBefore other hOther
        · rintro ⟨hNew, before, after, hRest, hBefore⟩
          refine ⟨hNew, ?_⟩
          cases before with
          | nil =>
              rw [List.nil_append, List.cons.injEq] at hRest
              exact absurd (hRest.1 ▸ hSeen) hNew
          | cons head tail =>
              rw [List.cons_append, List.cons.injEq] at hRest
              exact ⟨tail, after, hRest.2, fun other hOther =>
                hBefore other (List.mem_cons_of_mem _ hOther)⟩
      · simp only [firsts, List.contains_iff_mem, hSeen, if_false,
          List.mem_cons, ih]
        constructor
        · rintro (rfl | ⟨hNew, before, after, hRest, hBefore⟩)
          · exact ⟨hSeen, [], rest, rfl, by simp⟩
          · rw [not_or] at hNew
            refine ⟨hNew.2, first :: before, after,
              by simp [hRest], ?_⟩
            intro other hOther
            rcases List.mem_cons.mp hOther with rfl | hOther
            · exact Ne.symm hNew.1
            · exact hBefore other hOther
        · rintro ⟨hNew, before, after, hRest, hBefore⟩
          cases before with
          | nil =>
              rw [List.nil_append, List.cons.injEq] at hRest
              exact Or.inl hRest.1.symm
          | cons head tail =>
              rw [List.cons_append, List.cons.injEq] at hRest
              have hHead : head.path ≠ source.path :=
                hBefore head List.mem_cons_self
              rw [← hRest.1] at hHead
              right
              refine ⟨?_, tail, after, hRest.2, fun other hOther =>
                hBefore other (List.mem_cons_of_mem _ hOther)⟩
              rw [not_or]
              exact ⟨Ne.symm hHead, hNew⟩

theorem firsts_subset
    {seen : List String}
    {items : List Source}
    {source : Source}
    (hMem : source ∈ firsts seen items) :
    source ∈ items := by
  rcases mem_firsts_iff.mp hMem with
    ⟨-, before, after, rfl, -⟩
  simp

theorem pairwise_firsts
    (seen : List String)
    (items : List Source) :
    (firsts seen items).Pairwise (·.path ≠ ·.path) := by
  induction items generalizing seen with
  | nil => exact List.Pairwise.nil
  | cons head rest ih =>
      unfold firsts
      split
      · exact ih seen
      · refine List.Pairwise.cons ?_ (ih _)
        intro other hOther hPath
        have hNew := (mem_firsts_iff.mp hOther).1
        exact hNew (hPath ▸ List.mem_cons_self)

/- Two first sources of one path are one. -/
theorem eq_of_mem_firsts
    {items : List Source}
    {source other : Source}
    (hSource : source ∈ firsts [] items)
    (hOther : other ∈ firsts [] items)
    (hPath : source.path = other.path) :
    source = other := by
  -- Either source stands before no other one of its path.
  rcases mem_firsts_iff.mp hSource with
    ⟨-, before, after, hSplit, hBefore⟩
  rcases mem_firsts_iff.mp hOther with
    ⟨-, front, back, hCut, hFront⟩
  rw [hSplit, List.append_eq_append_iff] at hCut
  rcases hCut with ⟨gap, hGap, hRest⟩ | ⟨gap, hGap, hRest⟩
  · cases gap with
    | nil => exact (List.cons.inj hRest).1
    | cons head tail =>
        have hHead : source = head := (List.cons.inj hRest).1
        have hIn : source ∈ front := by
          rw [hGap, hHead]
          simp
        exact absurd hPath (hFront source hIn)
  · cases gap with
    | nil => exact (List.cons.inj hRest).1.symm
    | cons head tail =>
        have hHead : other = head := (List.cons.inj hRest).1
        have hIn : other ∈ before := by
          rw [hGap, hHead]
          simp
        exact absurd hPath.symm (hBefore other hIn)

/- Of two lists the first one decides on the paths in both. -/
theorem mem_firsts_append
    {seen : List String}
    {items others : List Source}
    {source : Source} :
    source ∈ firsts seen (items ++ others) ↔
      source ∈ firsts seen items ∨
      source ∈ firsts seen others ∧
      ∀ item ∈ items, item.path ≠ source.path := by
  induction items generalizing seen with
  | nil => simp [firsts]
  | cons head rest ih =>
      have hNew :
          ∀ path,
            source ∈ firsts (path :: seen) others ↔
              source ∈ firsts seen others ∧
              path ≠ source.path := by
        intro path
        simp only [mem_firsts_iff, List.mem_cons, not_or]
        grind
      have hUnseen :
          source ∈ firsts seen others → source.path ∉ seen :=
        fun hMem => (mem_firsts_iff.mp hMem).1
      by_cases hSeen : head.path ∈ seen
      · simp only [List.cons_append, firsts,
          List.contains_iff_mem, hSeen, if_true, ih,
          List.forall_mem_cons]
        grind
      · simp only [List.cons_append, firsts,
          List.contains_iff_mem, hSeen, if_false, List.mem_cons,
          ih, hNew]
        grind

/- If a path has one source, that one is the first. -/
theorem mem_firsts_of_agree
    {seen : List String}
    {items : List Source}
    (hAgree :
      ∀ item ∈ items, ∀ other ∈ items,
        item.path = other.path → item = other)
    {source : Source} :
    source ∈ firsts seen items ↔
      source ∈ items ∧ source.path ∉ seen := by
  induction items generalizing seen with
  | nil => simp [firsts]
  | cons head rest ih =>
      have hRest :
          ∀ item ∈ rest, ∀ other ∈ rest,
            item.path = other.path → item = other :=
        fun item hItem other hOther =>
          hAgree item (List.mem_cons_of_mem _ hItem) other
            (List.mem_cons_of_mem _ hOther)
      have hHead :
          source ∈ rest →
            head.path = source.path → head = source :=
        fun hSource =>
          hAgree head List.mem_cons_self source
            (List.mem_cons_of_mem _ hSource)
      by_cases hSeen : head.path ∈ seen
      · simp only [firsts, List.contains_iff_mem, hSeen, if_true,
          ih hRest, List.mem_cons]
        grind
      · simp only [firsts, List.contains_iff_mem, hSeen, if_false,
          List.mem_cons, ih hRest]
        grind

end Sources

end SymbolAtlas

------------------------------------------------------------
-- The Loop
------------------------------------------------------------

namespace SymbolAtlas

namespace Index

/- The first sources of all paths that a rebuild goes through. -/
def sourcesOf (c : Context) : List Source :=
  Sources.firsts [] (Sources.ofSettings c.disk c.settings).items

/- Going through sources is a loop over the first ones. -/
theorem takeAll_eq
    (c : Context)
    (m : Memory)
    (seen : List String)
    (items : List Source)
    (i : Index) :
    takeAll c m seen items i =
      match (Sources.firsts seen items).forM (takeIn c m) i with
      | .ok _ final =>
          .ok (seen.length + (Sources.firsts seen items).length)
            final
      | .error error final => .error error final := by
  induction items generalizing seen i with
  | nil => rfl
  | cons source rest ih =>
      unfold takeAll Sources.firsts
      split
      · exact ih seen i
      · cases hTake : takeIn c m source i with
        | error error final =>
            rw [Work.bind_of_error hTake,
              Work.forM_cons_of_error hTake]
        | ok value next =>
            rw [Work.bind_of_ok hTake, ih,
              Work.forM_cons_of_ok hTake]
            simp only [List.length_cons]
            grind

/- The index when a rebuild begins with the first source. -/
def begun (i : Index) : Index :=
  { i with
    known :=
      { i.known with symbols := .empty, emptyFiles := .empty }
    session :=
      { i.session with
        refreshed := true
        walks := i.session.walks + 1 } }

/- A rebuild that gets through all sources ends as they do. -/
theorem rebuild_of_ok
    {c : Context}
    {i final : Index}
    (hLoop :
      (sourcesOf c).forM
        (takeIn c (Memory.ofSnapshot i.known)) i.begun =
          .ok () final) :
    rebuild c i =
      match (Sources.ofSettings c.disk c.settings).failure with
      | some error => .error error final
      | none =>
          .ok ()
            { final with
              notices := final.notices ++
                [.indexed final.known.symbols.size
                  (sourcesOf c).length] } := by
  have hTake :
      takeAll c (Memory.ofSnapshot i.known) []
          (Sources.ofSettings c.disk c.settings).items i.begun =
        .ok (sourcesOf c).length final := by
    rw [takeAll_eq]
    unfold sourcesOf at hLoop ⊢
    rw [hLoop]
    simp
  change (takeAll c (Memory.ofSnapshot i.known) []
      (Sources.ofSettings c.disk c.settings).items >>= _)
        i.begun = _
  rw [Work.bind_of_ok hTake]
  cases (Sources.ofSettings c.disk c.settings).failure <;> rfl

/- An error at a source ends the rebuild. -/
theorem rebuild_of_error
    {c : Context}
    {i final : Index}
    {error : Error}
    (hLoop :
      (sourcesOf c).forM
        (takeIn c (Memory.ofSnapshot i.known)) i.begun =
          .error error final) :
    rebuild c i = .error error final := by
  have hTake :
      takeAll c (Memory.ofSnapshot i.known) []
          (Sources.ofSettings c.disk c.settings).items i.begun =
        .error error final := by
    rw [takeAll_eq]
    unfold sourcesOf at hLoop
    rw [hLoop]
  change (takeAll c (Memory.ofSnapshot i.known) []
      (Sources.ofSettings c.disk c.settings).items >>= _)
        i.begun = _
  rw [Work.bind_of_error hTake]

end Index

end SymbolAtlas

------------------------------------------------------------
-- Reported Symbols
------------------------------------------------------------

namespace SymbolAtlas

namespace Declarations

namespace Reader

/- A symbol is kept once, whatever the tokens are. -/
theorem nodup_read
    {r : Reader}
    (hNodup : r.symbols.Nodup)
    (token : Token) :
    (r.read token).symbols.Nodup := by
  have hDeclare : ∀ symbol, (r.declare symbol).Nodup := by
    intro symbol
    unfold declare
    split
    · exact hNodup
    · next hNew =>
        rw [List.nodup_append]
        refine ⟨hNodup, by simp, ?_⟩
        intro other hOther last hLast hEq
        rw [List.mem_singleton] at hLast
        subst hLast hEq
        exact hNew (by simpa using hOther)
  have hSettle : ∀ kind, (r.settle kind).symbols.Nodup := by
    intro kind
    unfold settle
    split
    · exact hNodup
    · split
      · exact hDeclare _
      · exact hNodup
    · exact hNodup
  have hNest :
      ∀ kind,
        ((r.settle kind).nest kind).symbols =
          (r.settle kind).symbols := by
    intro kind
    cases kind <;> rfl
  unfold read
  split
  · exact hNodup
  · exact hNodup
  · split <;> exact hNodup
  · exact hNodup
  · exact hNodup
  · rw [hNest]
    exact hSettle _

end Reader

theorem nodup_ofTokens
    (tokens : List Token) :
    (ofTokens tokens).Nodup := by
  unfold ofTokens
  suffices hFold :
      ∀ r : Reader, r.symbols.Nodup →
        (tokens.foldl Reader.read r).symbols.Nodup by
    exact hFold {} List.nodup_nil
  induction tokens with
  | nil => exact fun _ hNodup => hNodup
  | cons token rest ih =>
      intro r hNodup
      exact ih _ (Reader.nodup_read hNodup token)

end Declarations

namespace Scan

theorem nodup_withStem
    (s : Scan)
    {symbols : List String}
    (hNodup : symbols.Nodup) :
    (s.withStem symbols).Nodup := by
  unfold withStem
  dsimp only
  split
  · next hStem =>
      rw [List.nodup_append]
      refine ⟨hNodup, by simp, ?_⟩
      intro other hOther last hLast hEq
      rw [List.mem_singleton] at hLast
      rw [hEq, hLast] at hOther
      simp [hOther] at hStem
  · exact hNodup

/- What a scan reports holds no symbol twice. -/
theorem nodup_run
    {s : Scan}
    {d : Disk}
    {strict : Bool}
    {result : Result}
    (hRun : s.run d strict = .ok result) :
    result.symbols.Nodup := by
  unfold run at hRun
  cases hRead : s.read d with
  | ok symbols =>
      have hSymbols : symbols.Nodup := by
        unfold read at hRead
        split at hRead
        · unfold SourceText.symbols Except.map at hRead
          split at hRead
          · cases hRead
          · cases hRead
            exact Declarations.nodup_ofTokens _
        · cases hRead
      simp only [hRead, Except.ok.injEq] at hRun
      rw [← hRun]
      exact s.nodup_withStem hSymbols
  | error error =>
      simp only [hRead] at hRun
      split at hRun
      · cases hRun
      · cases hCheck :
            (Notice.skipped s.path error.message).check with
        | error other =>
            simp [hCheck, bind, Except.bind] at hRun
        | ok value =>
            simp only [hCheck, bind, Except.bind, pure,
              Except.pure, Except.ok.injEq] at hRun
            rw [← hRun]
            exact s.nodup_withStem List.nodup_nil

end Scan

end SymbolAtlas
