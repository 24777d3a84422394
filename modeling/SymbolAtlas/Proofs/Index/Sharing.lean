import SymbolAtlas.Proofs.Index.Settling
import SymbolAtlas.Proofs.Search.Guards
import SymbolAtlas.Proofs.Store.Keys

/-
  Settings that share a store.

  The text of a key holds the masks and the real paths of roots,
  exclusions and single files. Three more settings decide what a
  rebuild does: whether malformed sources are reported, whether
  directories that cannot be listed are passed over, and where
  the masks to be ignored lead as paths below the project. If
  settings with one key agree on these, they share their index.

  Key definitions:
    * `Settings.AgreeBesidesKey`
    * `Sources.SameRules`
  Key theorems:
    * `Sources.SameRules.queryOf_eq`
    * `Index.mem_sourcesOf_of_sameRules`
    * `Sources.sameRules_of_agree`
    * `Index.rebuilds_alike_of_one_key`
-/

------------------------------------------------------------
-- The Same Rules
------------------------------------------------------------

namespace SymbolAtlas

namespace Sources

/- The paths stand for the same real paths. -/
def SamePaths
    (d : Disk)
    (s t : Settings)
    (paths others : List String) : Prop :=
  ∀ path ∈ paths, ∃ other ∈ others, ∃ real,
    s.resolvePath d path = .ok real ∧
    t.resolvePath d other = .ok real

/-
  Whatever the first settings find, the second ones find by the
  same rules.
-/
structure SameRules (d : Disk) (s t : Settings) : Prop where
  accept : s.accept = t.accept
  ignore : s.ignore = t.ignore
  unreadable : s.ignoreUnreadable = t.ignoreUnreadable
  banned :
    ∀ reals,
      existing d s (s.ignore ++ s.exclude) = .ok reals →
      ∃ others,
        existing d t (t.ignore ++ t.exclude) = .ok others ∧
        ∀ real, real ∈ reals ↔ real ∈ others
  roots : SamePaths d s t s.roots t.roots
  rootsBack : SamePaths d t s t.roots s.roots
  files : SamePaths d s t s.files t.files
  filesBack : SamePaths d t s t.files s.files

variable {d : Disk} {s t : Settings}

/- The search of a root is the same. -/
theorem SameRules.queryOf_eq
    (hSame : SameRules d s t)
    {directory : String}
    {q : Query}
    (hQuery : queryOf d s directory = .ok q) :
    queryOf d t directory = .ok q := by
  rcases queryOf_eq_ok_iff.mp hQuery with
    ⟨banned, plain, hBanned, hPlain, rfl⟩
  have hPlainToo : plainQuery t directory = .ok plain := by
    rw [← hPlain]
    unfold plainQuery
    rw [hSame.accept, hSame.ignore, hSame.unreadable]
  rcases hSame.banned banned hBanned with
    ⟨others, hOthers, hReals⟩
  have hContains (real : String) :
      banned.contains real = others.contains real := by
    rw [Bool.eq_iff_iff, List.contains_iff_mem,
      List.contains_iff_mem, hReals]
  have hAllowed : isAllowed d banned = isAllowed d others := by
    funext record
    unfold isAllowed
    split
    · rw [hContains]
    · rfl
  exact queryOf_eq_ok_iff.mpr
    ⟨others, plain, hOthers, hPlainToo, by rw [hAllowed]⟩

/- A root that is dealt with has the same sources. -/
theorem SameRules.ofRoot_eq
    (hSame : SameRules d s t)
    {root other path : String}
    (hRoot : s.resolvePath d root = .ok path)
    (hOther : t.resolvePath d other = .ok path)
    (hWhole : (ofRoot d s root).failure = none) :
    ofRoot d t other = ofRoot d s root := by
  rw [Sources.ofRoot_eq, hRoot] at hWhole
  rw [Sources.ofRoot_eq, Sources.ofRoot_eq, hRoot, hOther]
  dsimp only at hWhole ⊢
  cases hStat : d.stat path with
  | error fault =>
      rw [hStat] at hWhole
      cases hWhole
  | ok stat =>
      rw [hStat] at hWhole
      dsimp only at hWhole ⊢
      split
      · next hDirectory =>
          rw [if_pos hDirectory] at hWhole
          cases hQuery : queryOf d s path with
          | error error =>
              rw [hQuery] at hWhole
              cases hWhole
          | ok q => rw [hSame.queryOf_eq hQuery]
      · rfl

theorem ofFile_eq_of_resolvePath
    {file other path : String}
    (hFile : s.resolvePath d file = .ok path)
    (hOther : t.resolvePath d other = .ok path) :
    ofFile d t other = ofFile d s file := by
  unfold ofFile
  rw [hFile, hOther]

end Sources

namespace Index

open Sources

variable {d : Disk} {s t : Settings} {strict : Bool}

/- If one list of sources is whole the other one is too. -/
theorem isWhole_of_sameRules
    (hSame : SameRules d s t)
    (hWhole : (ofSettings d s).failure = none) :
    (ofSettings d t).failure = none := by
  rw [failure_ofSettings_eq_none_iff] at hWhole ⊢
  refine ⟨fun other hOther => ?_, fun other hOther => ?_⟩
  · rcases hSame.rootsBack other hOther with
      ⟨root, hRoot, path, hPath, hRootPath⟩
    have hRootWhole := hWhole.1 root hRoot
    rw [hSame.ofRoot_eq hRootPath hPath hRootWhole]
    exact hRootWhole
  · rcases hSame.filesBack other hOther with
      ⟨file, hFile, path, hPath, hFilePath⟩
    rw [ofFile_eq_of_resolvePath hFilePath hPath]
    exact hWhole.2 file hFile

/- Sources of the first settings are sources of the second. -/
theorem mem_sourcesOf_of_sameRules
    (hSame : SameRules d s t)
    (hWhole : (ofSettings d s).failure = none)
    {source : Source}
    (hSource : source ∈ sourcesOf ⟨d, s, strict⟩) :
    source ∈ sourcesOf ⟨d, t, strict⟩ := by
  have hWholeToo := isWhole_of_sameRules hSame hWhole
  have hParts := failure_ofSettings_eq_none_iff.mp hWhole
  rw [mem_sourcesOf_iff (c := ⟨d, s, strict⟩) hWhole] at hSource
  rw [mem_sourcesOf_iff (c := ⟨d, t, strict⟩) hWholeToo]
  dsimp only at hSource ⊢
  rcases hSource with
    ⟨root, hRoot, hMem⟩ | ⟨⟨file, hFile, hMem⟩, hAlone⟩
  · rcases hSame.roots root hRoot with
      ⟨other, hOther, path, hRootPath, hPath⟩
    refine .inl ⟨other, hOther, ?_⟩
    rw [hSame.ofRoot_eq hRootPath hPath (hParts.1 root hRoot)]
    exact hMem
  · rcases hSame.files file hFile with
      ⟨other, hOther, path, hFilePath, hPath⟩
    refine .inr ⟨⟨other, hOther, ?_⟩, ?_⟩
    · rw [ofFile_eq_of_resolvePath hFilePath hPath]
      exact hMem
    · intro root hRoot another hAnother
      rcases hSame.rootsBack root hRoot with
        ⟨origin, hOrigin, path, hPath, hOriginPath⟩
      rw [hSame.ofRoot_eq hOriginPath hPath
        (hParts.1 origin hOrigin)] at hAnother
      exact hAlone origin hOrigin another hAnother

/- Nothing is wrong by the same rules. -/
theorem IsClean.of_sameRules
    (hSame : SameRules d s t)
    (hBack : SameRules d t s)
    (hClean : IsClean ⟨d, s, strict⟩) :
    IsClean ⟨d, t, strict⟩ := by
  rw [isClean_iff] at hClean ⊢
  rcases hClean with ⟨hWhole, hScanned, hApart⟩
  have hWholeToo := isWhole_of_sameRules hSame hWhole
  have hSources :
      ∀ source ∈ sourcesOf ⟨d, t, strict⟩,
        source ∈ sourcesOf ⟨d, s, strict⟩ :=
    fun source hSource =>
      mem_sourcesOf_of_sameRules hBack hWholeToo hSource
  refine ⟨hWholeToo, fun source hSource => ?_,
    fun source hSource other hOther => ?_⟩
  · exact hScanned source (hSources source hSource)
  · exact hApart source (hSources source hSource) other
      (hSources other hOther)

/- By the same rules, a rebuild from nothing knows the same. -/
theorem rebuild_of_sameRules
    (hSame : SameRules d s t)
    (hBack : SameRules d t s)
    {i j : Index}
    {missing others : Keyed Int} :
    ((∃ final,
      rebuild ⟨d, s, strict⟩ (i.withoutFiles missing) =
        .ok () final) ↔
      ∃ final,
        rebuild ⟨d, t, strict⟩ (j.withoutFiles others) =
          .ok () final) ∧
    ∀ final other,
      rebuild ⟨d, s, strict⟩ (i.withoutFiles missing) =
        .ok () final →
      rebuild ⟨d, t, strict⟩ (j.withoutFiles others) =
        .ok () other →
        final.known.symbols.SameMap other.known.symbols ∧
        final.known.emptyFiles.SameMap other.known.emptyFiles := by
  rw [rebuild_isOk_iff_isClean, rebuild_isOk_iff_isClean]
  refine ⟨⟨.of_sameRules hSame hBack, .of_sameRules hBack hSame⟩,
    ?_⟩
  intro final other hFinal hOther
  have hClean :=
    (rebuild_isOk_iff_isClean _ _ _).mp ⟨final, hFinal⟩
  have hWhole := (isClean_iff.mp hClean).1
  have hWholeToo := isWhole_of_sameRules hSame hWhole
  have hSources (source : Source) :
      source ∈ sourcesOf ⟨d, s, strict⟩ ↔
        source ∈ sourcesOf ⟨d, t, strict⟩ :=
    ⟨mem_sourcesOf_of_sameRules hSame hWhole,
      mem_sourcesOf_of_sameRules hBack hWholeToo⟩
  rcases known_of_rebuild hFinal with ⟨hSymbols, hEmpty, -⟩
  rcases known_of_rebuild hOther with ⟨hSymbolsToo, hEmptyToo, -⟩
  constructor
  · apply Keyed.sameMap_of_iff
    intro symbol entry
    rw [hSymbols, hSymbolsToo]
    exact exists_congr fun source =>
      and_congr (hSources source) Iff.rfl
  · apply Keyed.sameMap_of_iff
    intro file mtime
    rw [hEmpty, hEmptyToo]
    exact exists_congr fun source =>
      and_congr (hSources source) Iff.rfl

end Index

end SymbolAtlas

------------------------------------------------------------
-- One Key
------------------------------------------------------------

namespace SymbolAtlas

namespace Sources

/- Both lists hold the same, or there is no list. -/
def SameReals :
    Except Error (List String) → Except Error (List String) → Prop
| .ok reals, .ok others => reals ⊆ others ∧ others ⊆ reals
| .error _, .error _ => True
| _, _ => False

instance
    (first second : Except Error (List String)) :
    Decidable (SameReals first second) :=
  match first, second with
  | .ok reals, .ok others =>
      inferInstanceAs (Decidable (reals ⊆ others ∧ others ⊆ reals))
  | .error _, .error _ => inferInstanceAs (Decidable True)
  | .ok _, .error _ => inferInstanceAs (Decidable False)
  | .error _, .ok _ => inferInstanceAs (Decidable False)

theorem SameReals.symm
    {first second : Except Error (List String)}
    (hSame : SameReals first second) :
    SameReals second first := by
  unfold SameReals at *
  split at hSame
  · exact ⟨hSame.2, hSame.1⟩
  · trivial
  · exact hSame.elim

end Sources

/-
  The settings agree on what decides about an index and is not
  in the key: two flags, and what is ignored as a path.
-/
structure Settings.AgreeBesidesKey
    (s t : Settings)
    (d : Disk) : Prop where
  strict : s.reportParseErrors = t.reportParseErrors
  unreadable : s.ignoreUnreadable = t.ignoreUnreadable
  ignored :
    Sources.SameReals (Sources.existing d s s.ignore)
      (Sources.existing d t t.ignore)

namespace Sources

variable {d : Disk} {s t : Settings}

/- Paths with one list of real paths stand for the same. -/
theorem samePaths_of_mapM
    {paths others reals : List String}
    (hPaths : paths.mapM (s.resolvePath d) = .ok reals)
    (hOthers : others.mapM (t.resolvePath d) = .ok reals) :
    SamePaths d s t paths others := by
  intro path hPath
  rcases exists_mapM_iff.mp ⟨_, hPaths⟩ path hPath with
    ⟨real, hReal⟩
  rcases exists_of_mem_mapM hOthers
      (mem_of_mapM hPaths hPath hReal) with
    ⟨other, hOther, hSame⟩
  exact ⟨other, hOther, real, hReal, hSame⟩

/- What is banned is ignored, or it exists and is excluded. -/
theorem mem_existing_append_iff
    {ignore exclude reals ignored excluded : List String}
    (hReals : existing d s (ignore ++ exclude) = .ok reals)
    (hIgnored : existing d s ignore = .ok ignored)
    (hExcluded : exclude.mapM (s.resolvePath d) = .ok excluded)
    (real : String) :
    real ∈ reals ↔
      real ∈ ignored ∨
        (real ∈ excluded ∧ d.exists? real = true) := by
  rw [mem_existing_iff hReals, mem_existing_iff hIgnored,
    ← or_and_right]
  refine and_congr_left fun _ => ?_
  constructor
  · rintro ⟨path, hPath, hReal⟩
    rcases List.mem_append.mp hPath with hPath | hPath
    · exact .inl ⟨path, hPath, hReal⟩
    · exact .inr (mem_of_mapM hExcluded hPath hReal)
  · rintro (⟨path, hPath, hReal⟩ | hReal)
    · exact ⟨path, List.mem_append_left _ hPath, hReal⟩
    · rcases exists_of_mem_mapM hExcluded hReal with
        ⟨path, hPath, hResolve⟩
      exact ⟨path, List.mem_append_right _ hPath, hResolve⟩

/-
  If what is ignored is banned alike, and what is excluded stands
  for the same real paths, then both bans are the same.
-/
theorem exists_existing_append
    {ignore exclude others another : List String}
    {reals ignored ignoredToo excluded : List String}
    (hReals : existing d s (ignore ++ exclude) = .ok reals)
    (hIgnored : existing d s ignore = .ok ignored)
    (hIgnoredToo : existing d t others = .ok ignoredToo)
    (hSame : ignored ⊆ ignoredToo ∧ ignoredToo ⊆ ignored)
    (hExcluded : exclude.mapM (s.resolvePath d) = .ok excluded)
    (hExcludedToo :
      another.mapM (t.resolvePath d) = .ok excluded) :
    ∃ realsToo,
      existing d t (others ++ another) = .ok realsToo ∧
      ∀ real, real ∈ reals ↔ real ∈ realsToo := by
  have hResolves :
      ∀ path ∈ others ++ another,
        ∃ real, t.resolvePath d path = .ok real := by
    intro path hPath
    rcases List.mem_append.mp hPath with hPath | hPath
    · exact exists_existing_iff.mp ⟨_, hIgnoredToo⟩ path hPath
    · exact exists_mapM_iff.mp ⟨_, hExcludedToo⟩ path hPath
  rcases exists_existing_iff.mpr hResolves with
    ⟨realsToo, hRealsToo⟩
  refine ⟨realsToo, hRealsToo, fun real => ?_⟩
  rw [mem_existing_append_iff hReals hIgnored hExcluded,
    mem_existing_append_iff hRealsToo hIgnoredToo hExcludedToo]
  exact or_congr_left
    ⟨fun hMem => hSame.1 hMem, fun hMem => hSame.2 hMem⟩

/-
  Settings that agree on all of this find by the same rules. An
  ignored path is looked for where it exists only, an excluded
  one is in the key wherever it leads.
-/
theorem sameRules_of_agree
    (hAccept : s.accept = t.accept)
    (hIgnore : s.ignore = t.ignore)
    {roots exclude files : List String}
    (hCovers : Key.Covers s d roots exclude files)
    (hCoversToo : Key.Covers t d roots exclude files)
    (hUnreadable : s.ignoreUnreadable = t.ignoreUnreadable)
    (hIgnored :
      SameReals (existing d s s.ignore) (existing d t t.ignore)) :
    SameRules d s t := by
  exact {
    accept := hAccept
    ignore := hIgnore
    unreadable := hUnreadable
    banned := by
      intro reals hReals
      have hResolves := exists_existing_iff.mp ⟨_, hReals⟩
      rcases exists_existing_iff.mpr fun path hPath =>
          hResolves path (List.mem_append_left _ hPath) with
        ⟨ignored, hExisting⟩
      rw [hExisting] at hIgnored
      cases hExistingToo : existing d t t.ignore with
      | error error =>
          rw [hExistingToo] at hIgnored
          exact hIgnored.elim
      | ok others =>
          rw [hExistingToo] at hIgnored
          exact exists_existing_append hReals hExisting
            hExistingToo hIgnored hCovers.exclude
            hCoversToo.exclude
    roots := samePaths_of_mapM hCovers.roots hCoversToo.roots
    rootsBack := samePaths_of_mapM hCoversToo.roots hCovers.roots
    files := samePaths_of_mapM hCovers.files hCoversToo.files
    filesBack :=
      samePaths_of_mapM hCoversToo.files hCovers.files }

end Sources

namespace Index

/-
  Settings with one key that agree besides it share their index:
  from nothing, a rebuild succeeds with both or with none, and
  with both it knows the same.
-/
theorem rebuilds_alike_of_one_key
    {d : Disk}
    {s t : Settings}
    {first second : Datum}
    (hFirst : Key.payload s d = .ok first)
    (hSecond : Key.payload t d = .ok second)
    (hText : Key.encoded first = Key.encoded second)
    (hAgree : s.AgreeBesidesKey t d)
    (i j : Index)
    (missing others : Keyed Int) :
    ((∃ final,
      rebuild ⟨d, s, s.reportParseErrors⟩
        (i.withoutFiles missing) = .ok () final) ↔
      ∃ final,
        rebuild ⟨d, t, t.reportParseErrors⟩
          (j.withoutFiles others) = .ok () final) ∧
    ∀ final other,
      rebuild ⟨d, s, s.reportParseErrors⟩
          (i.withoutFiles missing) = .ok () final →
      rebuild ⟨d, t, t.reportParseErrors⟩
          (j.withoutFiles others) = .ok () other →
        final.known.symbols.SameMap other.known.symbols ∧
        final.known.emptyFiles.SameMap other.known.emptyFiles := by
  rcases Key.same_of_encoded_eq hFirst hSecond hText with
    ⟨hIgnore, hAccept, roots, exclude, files, hCovers,
      hCoversToo⟩
  have hSame : Sources.SameRules d s t :=
    Sources.sameRules_of_agree hAccept hIgnore hCovers hCoversToo
      hAgree.unreadable hAgree.ignored
  have hBack : Sources.SameRules d t s :=
    Sources.sameRules_of_agree hAccept.symm hIgnore.symm hCoversToo
      hCovers hAgree.unreadable.symm hAgree.ignored.symm
  rw [← hAgree.strict]
  exact rebuild_of_sameRules hSame hBack

/- A library, a malformed source and a closed directory. -/
def shelf : Disk where
  nodes := [
    (["w"], .newDirectory),
    (["w", "lib"], .newDirectory),
    (["w", "lib", "a.php"], .file "<?php class X {}".toUTF8 5),
    (["w", "shut"], .newDirectory),
    (["w", "torn.php"], .file "<?php \x7d".toUTF8 5)]
  cwd := ["w"]
  denied := ["/w/shut"]

def seenFromAbove : Settings where
  projectDir := "/w"
  roots := ["lib"]
  exclude := ["lib/old"]

/- The same library, for a project that lies in it. -/
def seenFromWithin : Settings where
  projectDir := "/w/lib"
  roots := ["."]
  exclude := ["old"]
  cacheDir := some "/w/cache"
  autoRebuild := false
  logLevel := "DEBUG"

/- The symbols known after a rebuild from nothing. -/
def symbolsFrom (d : Disk) (s : Settings) : Option (List String) :=
  match rebuild ⟨d, s, s.reportParseErrors⟩ {} with
  | .ok _ final => some (final.known.symbols.entries.map Prod.fst)
  | .error _ _ => none

theorem exists_rebuild_of_symbolsFrom
    {d : Disk}
    {s : Settings}
    (hSome : (symbolsFrom d s).isSome = true) :
    ∃ final,
      rebuild ⟨d, s, s.reportParseErrors⟩ {} = .ok () final := by
  unfold symbolsFrom at hSome
  split at hSome
  · next hRebuild => exact ⟨_, hRebuild⟩
  · cases hSome

theorem shelf_covers :
    Key.Covers seenFromAbove shelf ["/w/lib"] ["/w/lib/old"] [] ∧
    Key.Covers seenFromWithin shelf ["/w/lib"] ["/w/lib/old"]
      [] := by
  constructor <;> constructor <;> decide +kernel

theorem seenFromAbove_agrees :
    seenFromAbove.AgreeBesidesKey seenFromWithin shelf := by
  constructor <;> decide +kernel

/- Two projects of one library share its index. -/
theorem two_projects_share_an_index :
    ∃ datum final other,
      Key.payload seenFromAbove shelf = .ok datum ∧
      Key.payload seenFromWithin shelf = .ok datum ∧
      rebuild ⟨shelf, seenFromAbove, true⟩
        (({} : Index).withoutFiles .empty) = .ok () final ∧
      rebuild ⟨shelf, seenFromWithin, true⟩
        (({} : Index).withoutFiles .empty) = .ok () other ∧
      final.known.symbols.SameMap other.known.symbols ∧
      final.known.emptyFiles.SameMap other.known.emptyFiles := by
  have hFirst := Key.payload_of_covers shelf_covers.1
  have hSecond := Key.payload_of_covers shelf_covers.2
  have hSucceeds :
      (symbolsFrom shelf seenFromAbove).isSome = true := by
    decide +kernel
  rcases rebuilds_alike_of_one_key hFirst hSecond rfl
      seenFromAbove_agrees {} {} .empty .empty with
    ⟨hBoth, hKnown⟩
  rcases exists_rebuild_of_symbolsFrom hSucceeds with
    ⟨final, hRebuild⟩
  rcases hBoth.mp ⟨final, hRebuild⟩ with ⟨other, hOther⟩
  exact ⟨_, final, other, hFirst, hSecond, hRebuild, hOther,
    hKnown final other hRebuild hOther⟩

/-
  With one key each of the three makes a difference: what is
  malformed, what cannot be listed, and what is ignored below
  the project.
-/
theorem one_key_for_two_indexes :
    (∃ s t,
      Key.payload s shelf = Key.payload t shelf ∧
      s.reportParseErrors ≠ t.reportParseErrors ∧
      symbolsFrom shelf s = none ∧
      symbolsFrom shelf t = some []) ∧
    (∃ s t,
      Key.payload s shelf = Key.payload t shelf ∧
      s.ignoreUnreadable ≠ t.ignoreUnreadable ∧
      symbolsFrom shelf s = none ∧
      symbolsFrom shelf t = some []) ∧
    ∃ s t,
      Key.payload s shelf = Key.payload t shelf ∧
      s.projectDir ≠ t.projectDir ∧
      symbolsFrom shelf s = some [] ∧
      symbolsFrom shelf t = some ["X"] := by
  refine ⟨⟨{ roots := ["torn.php"] },
      { roots := ["torn.php"], reportParseErrors := false },
      rfl, ?_, ?_, ?_⟩,
    ⟨{ roots := ["shut"], ignoreUnreadable := false },
      { roots := ["shut"] }, rfl, ?_, ?_, ?_⟩,
    { projectDir := "/w"
      roots := ["/w/lib"]
      ignore := ["lib/a.php"] },
    { projectDir := "/w/lib"
      roots := ["/w/lib"]
      ignore := ["lib/a.php"] }, ?hKey, ?_, ?_, ?_⟩
  case hKey =>
    rw [Key.payload_of_covers ⟨(by decide +kernel :
        _ = Except.ok ["/w/lib"]), rfl, rfl⟩,
      Key.payload_of_covers ⟨(by decide +kernel :
        _ = Except.ok ["/w/lib"]), rfl, rfl⟩]
  all_goals decide +kernel

end Index

end SymbolAtlas
